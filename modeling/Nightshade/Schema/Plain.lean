import Mathlib
import Nightshade.Schema.Value
import Nightshade.Schema.LexLemmas

/-! What is accepted is plain: no value that passes the check of its type holds a line break or
another control character, and only free text holds a blank. -/
namespace Nightshade.Schema

/-- Text without control characters. -/
def Plain (s : List Char) : Prop := ∀ c ∈ s, isControl c = false

instance (s : List Char) : Decidable (Plain s) := List.decidableBAll (isControl · = false) s

/-- Neither a control character nor a blank. -/
def isTight (c : Char) : Bool := !isControl c && !isWhitespace c

/-- Text without control characters and blanks. -/
def Tight (s : List Char) : Prop := ∀ c ∈ s, isTight c = true

instance (s : List Char) : Decidable (Tight s) := List.decidableBAll (isTight · = true) s

theorem Tight.plain {s : List Char} (h : Tight s) : Plain s := by
  intro c hc
  have htight := h c hc
  rw [isTight,Bool.and_eq_true,Bool.not_eq_true'] at htight
  exact htight.1

theorem Tight.unspaced {s : List Char} (h : Tight s) : ∀ c ∈ s, isWhitespace c = false := by
  intro c hc
  have htight := h c hc
  rw [isTight,Bool.and_eq_true,Bool.not_eq_true',Bool.not_eq_true'] at htight
  exact htight.2

/-- Text of which every character passes. -/
abbrev Text (p : Char → Bool) (s : List Char) : Prop := ∀ c ∈ s, p c = true

/-- The characters that values are written with, apart from free text and password hashes. -/
class Covers (p : Char → Bool) : Prop where
  alphanum : ∀ {c : Char}, c.isAlphanum → p c = true
  mark : ∀ {c : Char}, c ∈ ['.',':','/','+','-','_','$'] → p c = true

namespace Value

/-! ### Characters -/

theorem tight_of_range {c : Char} (hlow : 0x21 ≤ c.toNat) (hhigh : c.toNat < 0x7f) : isTight c = true := by
  simp only [isTight,isControl,isWhitespace,Bool.and_eq_true,Bool.not_eq_true',Bool.or_eq_false_iff,
    Bool.and_eq_false_iff,decide_eq_false_iff_not]
  omega

theorem alphanum_range {c : Char} (h : c.isAlphanum) : 48 ≤ c.toNat ∧ c.toNat ≤ 122 := by
  simp only [Char.isAlphanum,Char.isAlpha,Char.isUpper,Char.isLower,Char.isDigit,Bool.or_eq_true,
    Bool.and_eq_true,decide_eq_true_eq,ge_iff_le,UInt32.le_iff_toNat_le] at h
  have hnat : c.val.toNat = c.toNat := rfl
  simp only [hnat] at h
  have hbounds : (65 ≤ c.toNat ∧ c.toNat ≤ 90 ∨ 97 ≤ c.toNat ∧ c.toNat ≤ 122) ∨
      48 ≤ c.toNat ∧ c.toNat ≤ 57 := h
  omega

theorem tight_alphanum {c : Char} (h : c.isAlphanum) : isTight c = true := by
  have hrange := alphanum_range h
  exact tight_of_range (by omega) (by omega)

theorem le_iff (c d : Char) : c ≤ d ↔ c.toNat ≤ d.toNat := Iff.rfl

instance : Covers isTight where
  alphanum := tight_alphanum
  mark hc := by
    simp only [List.mem_cons,List.not_mem_nil,or_false] at hc
    obtain rfl | rfl | rfl | rfl | rfl | rfl | rfl := hc
    all_goals decide

section Text
variable {p : Char → Bool}

theorem covers_digit [Covers p] {c : Char} (h : isAsciiDigit c) : p c = true :=
  Covers.alphanum (by simp only [isAsciiDigit] at h; simp [Char.isAlphanum,h])

theorem alphanum_of_hex {c : Char} (h : (Lexer.toDigit c).isSome) : c.isAlphanum := by
  have hbounds : (48 ≤ c.toNat ∧ c.toNat ≤ 57) ∨ (97 ≤ c.toNat ∧ c.toNat ≤ 102) ∨
      (65 ≤ c.toNat ∧ c.toNat ≤ 70) := by
    unfold Lexer.toDigit at h
    split_ifs at h with hdigit hlower hupper
    · exact .inl hdigit
    · exact .inr (.inl hlower)
    · exact .inr (.inr hupper)
    · cases h
  simp only [Char.isAlphanum,Char.isAlpha,Char.isUpper,Char.isLower,Char.isDigit,Bool.or_eq_true,
    Bool.and_eq_true,decide_eq_true_eq,ge_iff_le,UInt32.le_iff_toNat_le]
  have hnat : c.val.toNat = c.toNat := rfl
  simp only [hnat]
  show (65 ≤ c.toNat ∧ c.toNat ≤ 90 ∨ 97 ≤ c.toNat ∧ c.toNat ≤ 122) ∨ 48 ≤ c.toNat ∧ c.toNat ≤ 57
  omega

theorem covers_hex [Covers p] {c : Char} (h : (Lexer.toDigit c).isSome) : p c = true :=
  Covers.alphanum (alphanum_of_hex h)

/-! ### Reading -/

/-- The rest of a text that was read in part: what is gone passes. -/
def Read (p : Char → Bool) (s rest : List Char) : Prop := ∀ c ∈ s, p c = true ∨ c ∈ rest

theorem Read.refl (s : List Char) : Read p s s := fun _ hc => .inr hc

theorem Read.trans {s t u : List Char} (h : Read p s t) (k : Read p t u) : Read p s u := by
  intro c hc
  obtain hpasses | hrest := h c hc
  · exact .inl hpasses
  · exact k c hrest

theorem text_of_read {s : List Char} (h : Read p s []) : Text p s := by
  intro c hc
  obtain hpasses | hrest := h c hc
  · exact hpasses
  · cases hrest

theorem read_some {q : Char → Bool} {most : ℕ} {s taken rest : List Char}
    (hq : ∀ c, q c → p c = true) (h : readSome q most s = some (taken,rest)) : Read p s rest := by
  unfold readSome at h
  dsimp only at h
  split_ifs at h
  cases h
  have hsplit : s.takeWhile q ++ s.drop (s.takeWhile q).length = s := by
    have hparts := List.takeWhile_append_dropWhile (p := q) (l := s)
    have hdrop := congrArg (List.drop (s.takeWhile q).length) hparts
    rw [List.drop_left] at hdrop
    rw [← hdrop,hparts]
  intro c hc
  rw [← hsplit] at hc
  obtain htaken | hrest := List.mem_append.mp hc
  · exact .inl (hq c (List.mem_takeWhile_imp htaken))
  · exact .inr hrest

theorem read_char {d : Char} {s rest : List Char} (hd : p d = true)
    (h : readChar d s = some rest) : Read p s rest := by
  cases s with
  | nil => cases h
  | cons c s =>
    simp only [readChar] at h
    split_ifs at h with hc
    cases h
    intro e he
    obtain rfl | he := List.mem_cons.mp he
    · exact .inl (hc ▸ hd)
    · exact .inr he

variable [Covers p]

theorem read_octet {s rest : List Char} {n : ℕ} (h : readOctet s = some (n,rest)) : Read p s rest := by
  unfold readOctet at h
  split at h
  · cases h
  · next digits rest' hsome =>
    split_ifs at h
    cases h
    exact read_some (fun _ => covers_digit) hsome

theorem read_dotted {s t rest : List Char} {n : ℕ} (hchar : readChar '.' s = some t)
    (h : readOctet t = some (n,rest)) : Read p s rest := (read_char (Covers.mark (by decide)) hchar).trans (read_octet h)

theorem read_ipv4 {s rest : List Char} {octets : List ℕ} (h : readIpv4 s = some (octets,rest)) : Read p s rest := by
  simp only [readIpv4,Option.bind_eq_bind,Option.bind_eq_some_iff,Option.pure_def,Option.some.injEq,
    Prod.mk.injEq,Prod.exists] at h
  obtain ⟨a,s₁,ha,t₁,hdot₁,b,s₂,hb,t₂,hdot₂,c,s₃,hc,t₃,hdot₃,d,s₄,hd,-,rfl⟩ := h
  exact (((read_octet ha).trans (read_dotted hdot₁ hb)).trans (read_dotted hdot₂ hc)).trans (read_dotted hdot₃ hd)

theorem read_group {s rest : List Char} {n : ℕ} (h : readGroup s = some (n,rest)) : Read p s rest := by
  unfold readGroup at h
  split at h
  · cases h
  · next digits rest' hsome =>
    cases h
    exact read_some (fun _ => covers_hex) hsome

theorem read_separated {i : ℕ} {s t : List Char}
    (h : (if i = 0 then some s else readChar ':' s) = some t) : Read p s t := by
  split_ifs at h with hi
  · cases h
    exact Read.refl s
  · exact read_char (Covers.mark (by decide)) h

theorem read_groups (limit i : ℕ) (s : List Char) : Read p s (readGroups limit i s).2.2 := by
  induction limit generalizing i s with
  | zero => exact Read.refl s
  | succ limit ih =>
    unfold readGroups
    dsimp only
    split
    · next a b c d rest hdotted =>
      by_cases hlimit : 0 < limit
      · rw [if_pos hlimit] at hdotted
        obtain ⟨t,hseparated,hread⟩ := Option.bind_eq_some_iff.mp hdotted
        exact (read_separated hseparated).trans (read_ipv4 hread)
      · rw [if_neg hlimit] at hdotted
        cases hdotted
    · split
      · next group rest hgroup =>
        obtain ⟨t,hseparated,hread⟩ := Option.bind_eq_some_iff.mp hgroup
        exact ((read_separated hseparated).trans (read_group hread)).trans (ih (i+1) rest)
      · exact Read.refl s

theorem read_ipv6 {s rest : List Char} {groups : List ℕ} (h : readIpv6 s = some (groups,rest)) : Read p s rest := by
  have hhead : Read p s (readGroups 8 0 s).2.2 := read_groups 8 0 s
  unfold readIpv6 at h
  cases hgroups : readGroups 8 0 s with
  | mk head more =>
    obtain ⟨dotted,rest₁⟩ := more
    rw [hgroups] at h hhead
    dsimp only at h hhead
    split_ifs at h with hfull hdotted
    · cases h
      exact hhead
    · split at h
      · cases h
      · next rest₂ hcolons =>
        obtain ⟨t,hfirst,hsecond⟩ := Option.bind_eq_some_iff.mp hcolons
        cases h
        exact ((hhead.trans (read_char (Covers.mark (by decide)) hfirst)).trans (read_char (Covers.mark (by decide)) hsecond)).trans
          (read_groups _ 0 rest₂)

theorem text_ip {s : List Char} (h : (parseIp s).isSome) : Text p s := by
  unfold parseIp at h
  split at h
  · next octets hv4 =>
    unfold parseIpv4 at hv4
    split at hv4
    · next hread => exact text_of_read (read_ipv4 hread)
    · cases hv4
  · rw [Option.isSome_map] at h
    unfold parseIpv6 at h
    split at h
    · next hread => exact text_of_read (read_ipv6 hread)
    · cases h

theorem splitOnce_eq {sep : Char} {s before after : List Char} (h : splitOnce sep s = some (before,after)) :
    s = before ++ sep::after := by
  unfold splitOnce at h
  split at h
  · cases h
  · next c rest hdrop =>
    have hparts := List.takeWhile_append_dropWhile (p := (· ≠ sep)) (l := s)
    have hhead := List.head?_dropWhile_not (· ≠ sep) s
    rw [hdrop] at hparts hhead
    have hc : c = sep := by simpa using hhead
    rw [hc] at hparts
    rw [Option.some.injEq,Prod.mk.injEq] at h
    rw [← h.1,← h.2]
    exact hparts.symm

theorem text_prefix {value : String} {family : Family} (h : isPrefix value family) : Text p value.toList := by
  unfold isPrefix at h
  cases hsplit : splitOnce '/' value.toList with
  | none => simp [hsplit] at h
  | some parts =>
    obtain ⟨addr,len⟩ := parts
    rw [hsplit] at h
    dsimp only at h
    split_ifs at h with hlen hzero
    have haddr : (parseIp addr).isSome := by
      cases hip : parseIp addr with
      | none => simp [hip] at h
      | some ip => rfl
    have hdigits : ∀ c ∈ len, isAsciiDigit c := by
      simp only [Bool.or_eq_true,not_or,Bool.not_eq_true'] at hlen
      exact List.all_eq_true.mp (by simpa using hlen.2)
    intro c hc
    rw [splitOnce_eq hsplit] at hc
    obtain hbefore | hafter := List.mem_append.mp hc
    · exact text_ip haddr c hbefore
    · obtain rfl | hlast := List.mem_cons.mp hafter
      · exact Covers.mark (by decide)
      · exact covers_digit (hdigits c hlast)

/-! ### Parts -/

omit [Covers p] in
theorem text_intercalate {sep : Char} (hsep : p sep = true) (parts : List (List Char))
    (h : ∀ part ∈ parts, Text p part) : Text p ([sep].intercalate parts) := by
  induction parts with
  | nil => exact nofun
  | cons part parts ih =>
    have hparts := ih (fun p hp => h p (List.mem_cons_of_mem _ hp))
    have hpart := h part List.mem_cons_self
    cases parts with
    | nil => simpa using hpart
    | cons next parts =>
      rw [List.intercalate_cons_cons]
      intro c hc
      obtain hfirst | hc := List.mem_append.mp hc
      · obtain hc | hc := List.mem_append.mp hfirst
        · exact hpart c hc
        · rw [List.mem_singleton.mp hc]
          exact hsep
      · exact hparts c hc

omit [Covers p] in
theorem text_split {sep : Char} {s : String} (hsep : p sep = true)
    (h : ∀ part ∈ split sep s, Text p part) : Text p s.toList := by
  have hjoin : [sep].intercalate (split sep s) = s.toList := List.intercalate_splitOn sep
  rw [← hjoin]
  exact text_intercalate hsep _ h

theorem text_mac {value : String} (h : isUnicastMac value) : Text p value.toList := by
  have hcolon : p ':' = true := Covers.mark (by decide)
  refine text_split hcolon (fun part hpart c hc => ?_)
  simp only [isUnicastMac,Bool.and_eq_true,List.all_eq_true] at h
  exact covers_hex (h.1.1.2 part hpart |>.2 c hc)

theorem text_interfaceName {value : String} (h : isInterfaceName value) : Text p value.toList := by
  intro c hc
  simp only [isInterfaceName,Bool.and_eq_true,List.all_eq_true,Bool.or_eq_true,decide_eq_true_eq] at h
  obtain ((halnum | rfl) | rfl) | rfl := h.2 c hc
  · exact Covers.alphanum halnum
  · exact Covers.mark (by decide)
  · exact Covers.mark (by decide)
  · exact Covers.mark (by decide)

theorem text_hostname {value : String} (h : isHostname value) : Text p value.toList := by
  have hdot : p '.' = true := Covers.mark (by decide)
  refine text_split hdot (fun label hlabel c hc => ?_)
  simp only [isHostname,Bool.and_eq_true,List.all_eq_true,Bool.or_eq_true,decide_eq_true_eq] at h
  obtain halnum | rfl := (h.2 label hlabel).2 c hc
  · exact Covers.alphanum halnum
  · exact Covers.mark (by decide)

omit [Covers p] in
theorem text_headed {c : Char} {s : List Char} (hhead : s.head? = some c) (hc : p c = true)
    (htail : Text p s.tail) : Text p s := by
  cases s with
  | nil => cases hhead
  | cons d s =>
    cases hhead
    intro e he
    obtain rfl | he := List.mem_cons.mp he
    · exact hc
    · exact htail e he

theorem text_digits {s : List Char} (h : s.all isAsciiDigit) : Text p s :=
  fun c hc => covers_digit (List.all_eq_true.mp h c hc)

theorem text_nat {bound : ℕ} {s : List Char} (h : (parseNat bound s).isSome) : Text p s := by
  simp only [parseNat] at h
  by_cases hsign : s.head? = some '+'
  · rw [if_pos hsign] at h
    split_ifs at h with hdigits
    · simp only [Bool.and_eq_true] at hdigits
      exact text_headed hsign (Covers.mark (by decide)) (text_digits hdigits.1.2)
    · cases h
  · rw [if_neg hsign] at h
    split_ifs at h with hdigits
    · simp only [Bool.and_eq_true] at hdigits
      exact text_digits hdigits.1.2
    · cases h

theorem text_int {s : List Char} (h : (parseInt s).isSome) : Text p s := by
  unfold parseInt at h
  by_cases hsign : s.head? = some '-'
  · rw [if_pos hsign] at h
    split_ifs at h with hdigits
    · simp only [Bool.and_eq_true] at hdigits
      exact text_headed hsign (Covers.mark (by decide)) (text_digits hdigits.1.2)
    · cases h
  · rw [if_neg hsign] at h
    cases hnat : parseNat (2^63) s with
    | none =>
      rw [hnat] at h
      cases h
    | some n => exact text_nat (by rw [hnat]; rfl)

theorem text_range {r : Range} {value : String} (h : r.check value = .ok ()) : Text p value.toList := by
  unfold Range.check at h
  cases hint : parseInt value.toList with
  | none =>
    rw [hint] at h
    cases h
  | some n => exact text_int (by rw [hint]; rfl)

theorem text_port {s : List Char} (h : (port s).isSome) : Text p s := by
  unfold port at h
  split_ifs at h with hshape
  · cases h
  · obtain ⟨n,hn⟩ := Option.isSome_iff_exists.mp h
    exact text_nat (by rw [(Option.filter_eq_some_iff.mp hn).1]; rfl)

theorem text_portRange {value : String} (h : isPortRange value) : Text p value.toList := by
  unfold isPortRange at h
  split at h
  · next low high hsplit =>
    have hboth : (port low).isSome ∧ (port high).isSome := by
      cases hlow : port low <;> cases hhigh : port high <;> simp_all
    rw [splitOnce_eq hsplit]
    intro c hc
    obtain hbefore | hafter := List.mem_append.mp hc
    · exact text_port hboth.1 c hbefore
    · obtain rfl | hlast := List.mem_cons.mp hafter
      · exact Covers.mark (by decide)
      · exact text_port hboth.2 c hlast
  · exact text_port h

theorem text_letters {s : List Char} (h : s.all Char.isAlphanum = true) : Text p s :=
  fun c hc => Covers.alphanum (List.all_eq_true.mp h c hc)

omit [Covers p] in
/-- A user name is written with letters, digits and three marks. -/
theorem userName_letters {value : String} (halphanum : ∀ {c : Char}, c.isAlphanum → p c = true)
    (hmark : ∀ {c : Char}, c ∈ ['_','-','$'] → p c = true) (h : isUserName value) : Text p value.toList := by
  unfold isUserName at h
  cases hvalue : value.toList with
  | nil => exact nofun
  | cons first rest =>
    rw [hvalue] at h
    dsimp only at h
    simp only [Bool.and_eq_true,Bool.or_eq_true,decide_eq_true_eq,List.all_eq_true] at h
    have hlower : ∀ {c : Char}, c.isLower → p c = true :=
      fun hc => halphanum (by simp [Char.isAlphanum,Char.isAlpha,hc])
    have hbody : ∀ c ∈ (if rest.getLast? = some '$' then rest.dropLast else rest), p c = true := by
      intro c hc
      obtain ((hletter | hdigit) | rfl) | rfl := h.2 c hc
      · exact hlower hletter
      · exact halphanum (by simp [Char.isAlphanum,hdigit])
      · exact hmark (by decide)
      · exact hmark (by decide)
    have hfirst : p first = true := by
      obtain hletter | rfl := h.1.2
      · exact hlower hletter
      · exact hmark (by decide)
    intro c hc
    obtain rfl | hc := List.mem_cons.mp hc
    · exact hfirst
    · by_cases hlast : rest.getLast? = some '$'
      · rw [if_pos hlast] at hbody
        obtain ⟨init,hinit⟩ := List.getLast?_eq_some_iff.mp hlast
        rw [hinit] at hc hbody
        rw [List.dropLast_concat] at hbody
        obtain hc | hc := List.mem_append.mp hc
        · exact hbody c hc
        · rw [List.mem_singleton.mp hc]
          exact hmark (by decide)
      · rw [if_neg hlast] at hbody
        exact hbody c hc

theorem text_userName {value : String} (h : isUserName value) : Text p value.toList := by
  have hmarks : ∀ c ∈ ['_','-','$'], c ∈ ['.',':','/','+','-','_','$'] := by simp
  exact userName_letters Covers.alphanum (fun hc => Covers.mark (hmarks _ hc)) h

theorem text_zone {value : String} (h : isZoneShaped value) : Text p value.toList := by
  simp only [isZoneShaped,Bool.and_eq_true,List.all_eq_true,Bool.or_eq_true,decide_eq_true_eq] at h
  intro c hc
  obtain (((halnum | rfl) | rfl) | rfl) | rfl := h.2 c hc
  · exact Covers.alphanum halnum
  all_goals exact Covers.mark (by decide)

end Text

theorem tight_encryptedPassword {value : String} (h : isEncryptedPassword value) : Tight value.toList := by
  simp only [isEncryptedPassword,Bool.or_eq_true,decide_eq_true_eq] at h
  obtain (rfl | rfl) | hhash := h
  · decide
  · decide
  · simp only [Bool.and_eq_true,Bool.not_eq_true',List.any_eq_false] at hhash
    intro c hc
    have hclean := hhash.2 c hc
    simpa [isTight,and_comm] using hclean

end Value

/-! ### Types -/

theorem ok_of_checkThat {ok : Bool} {ty : ValueType} {value : String}
    (h : ValueType.checkThat ok ty value = .ok ()) : ok = true := by
  unfold ValueType.checkThat at h
  split_ifs at h with hok
  exact hok

/-- What a type lists, if anything. -/
def ValueType.listed : ValueType → List String
  | .enum values => values
  | _ => []

/-- All but free text and password hashes is written with what is covered, or with a listed word. -/
theorem ValueType.text_of_check {p : Char → Bool} [Covers p] {ty : ValueType} {value : String} (hty : ty ≠ .text)
    (hpassword : ty ≠ .encryptedPassword) (hlisted : ∀ v ∈ ty.listed, Text p v.toList)
    (h : ty.check value = .ok ()) : Text p value.toList := by
  cases ty with
  | text => exact absurd rfl hty
  | bool =>
    have hok := ok_of_checkThat h
    simp only [Bool.or_eq_true,decide_eq_true_eq] at hok
    obtain rfl | rfl := hok
    · exact Value.text_letters (by decide)
    · exact Value.text_letters (by decide)
  | number range => exact Value.text_range h
  | ipv4Address =>
    have hok := ok_of_checkThat h
    exact Value.text_ip (by unfold Value.parseIp; split <;> simp_all)
  | ipv6Address =>
    have hok := ok_of_checkThat h
    exact Value.text_ip (by unfold Value.parseIp; split <;> simp_all)
  | ipAddress => exact Value.text_ip (ok_of_checkThat h)
  | ipv4Prefix => exact Value.text_prefix (ok_of_checkThat h)
  | ipv6Prefix => exact Value.text_prefix (ok_of_checkThat h)
  | ipPrefix => exact Value.text_prefix (ok_of_checkThat h)
  | ipOrPrefix =>
    obtain hip | hprefix := (Bool.or_eq_true _ _).mp (ok_of_checkThat h)
    · exact Value.text_ip hip
    · exact Value.text_prefix hprefix
  | multicastAddress =>
    have hok := ok_of_checkThat h
    exact Value.text_ip (by cases hip : Value.parseIp value.toList <;> simp_all)
  | macAddress => exact Value.text_mac (ok_of_checkThat h)
  | port =>
    have hok := ok_of_checkThat h
    cases hrange : Range.check ⟨1,65535,none⟩ value with
    | ok u => exact Value.text_range hrange
    | error e =>
      rw [hrange] at hok
      cases hok
  | portRange => exact Value.text_portRange (ok_of_checkThat h)
  | interfaceName => exact Value.text_interfaceName (ok_of_checkThat h)
  | hostname => exact Value.text_hostname (ok_of_checkThat h)
  | timeZone database =>
    simp only [ValueType.check] at h
    split_ifs at h with hshape hlist
    · exact Value.text_zone (by simpa using hshape)
  | userName => exact Value.text_userName (ok_of_checkThat h)
  | encryptedPassword => exact absurd rfl hpassword
  | enum values =>
    have hok := ok_of_checkThat h
    exact hlisted value (List.contains_iff_mem.mp hok)

theorem ValueType.tight_of_check {ty : ValueType} {value : String} (hty : ty ≠ .text)
    (hlisted : ∀ v ∈ ty.listed, Tight v.toList) (h : ty.check value = .ok ()) : Tight value.toList := by
  by_cases hpassword : ty = .encryptedPassword
  · subst hpassword
    exact Value.tight_encryptedPassword (ok_of_checkThat h)
  · exact ValueType.text_of_check hty hpassword hlisted h

theorem ValueType.plain_of_text {value : String} (h : ValueType.check .text value = .ok ()) :
    Plain value.toList := by
  simp only [ValueType.check] at h
  split_ifs at h with hcontrol
  simpa [Plain] using hcontrol

namespace ValueSpec

/-- Every word that a leaf takes literally is tight. -/
def WordsTight (spec : ValueSpec) : Prop :=
  (∀ v ∈ spec.accepts, Tight v.toList) ∧ ∀ v ∈ spec.ty.listed, Tight v.toList

theorem ok_type {spec : ValueSpec} {value : String} (h : spec.check value = .ok ()) :
    value ∈ spec.accepts ∨ spec.ty.check value = .ok () := by
  unfold check at h
  by_cases haccepted : spec.accepts.contains value
  · exact .inl (List.contains_iff_mem.mp haccepted)
  · rw [if_neg haccepted] at h
    cases hty : spec.ty.check value with
    | ok u => exact .inr rfl
    | error e =>
      rw [hty] at h
      dsimp only at h
      split_ifs at h

/-- What is accepted matches the pattern, if there is one. -/
theorem matches_of_check {spec : ValueSpec} {regex : Regex} {value : String} (haccepts : spec.accepts = [])
    (hpattern : spec.pattern = some regex) (h : spec.check value = .ok ()) : regex.isMatch value := by
  unfold check at h
  rw [haccepts,hpattern] at h
  cases hty : spec.ty.check value with
  | error e => simp [hty] at h
  | ok u =>
    by_contra hno
    simp [hty,hno] at h

/-- Every accepted value but free text and password hashes is written with what is covered. -/
theorem text_of_check {p : Char → Bool} [Covers p] {spec : ValueSpec} {value : String} (hty : spec.ty ≠ .text)
    (hpassword : spec.ty ≠ .encryptedPassword)
    (hwords : ∀ v ∈ spec.accepts ++ spec.ty.listed, Text p v.toList) (h : spec.check value = .ok ()) :
    Text p value.toList := by
  obtain haccepted | hok := ok_type h
  · exact hwords value (List.mem_append_left _ haccepted)
  · exact ValueType.text_of_check hty hpassword (fun v hv => hwords v (List.mem_append_right _ hv)) hok

/-- No accepted value but free text holds a blank. -/
theorem tight_of_check {spec : ValueSpec} {value : String} (hty : spec.ty ≠ .text) (hwords : spec.WordsTight)
    (h : spec.check value = .ok ()) : Tight value.toList := by
  obtain haccepted | hok := ok_type h
  · exact hwords.1 value haccepted
  · exact ValueType.tight_of_check hty hwords.2 hok

/-- No accepted value holds a control character. -/
theorem plain_of_check {spec : ValueSpec} {value : String} (hwords : spec.WordsTight)
    (h : spec.check value = .ok ()) : Plain value.toList := by
  by_cases hty : spec.ty = .text
  · obtain haccepted | hok := ok_type h
    · exact (hwords.1 value haccepted).plain
    · rw [hty] at hok
      exact ValueType.plain_of_text hok
  · exact (tight_of_check hty hwords h).plain

end ValueSpec
end Nightshade.Schema
