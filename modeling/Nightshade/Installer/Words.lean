import Mathlib
import Nightshade.Schema.Plain
import Nightshade.Installer.Seed

/-! What the installer writes without quotes has no need of them, and what it quotes is quoted as the
schema would: host names, names of ports, addresses and hashes. -/
namespace Nightshade.Installer
open Schema Lexer

/-! ### The two rules for host names -/

theorem checkLabel_eq_ok {label : List Char} : checkLabel label = .ok () ↔
    label.isEmpty = false ∧ (String.ofList label).utf8ByteSize ≤ 63 ∧ label.head? ≠ some '-' ∧
      label.getLast? ≠ some '-' ∧ label.all (fun c => c.isAlphanum || c = '-') = true := by
  unfold checkLabel
  by_cases hempty : label.isEmpty
  · simp [hempty]
  · by_cases hlong : 63 < (String.ofList label).utf8ByteSize
    · simp [hempty,hlong]
    · by_cases hhyphen : label.head? = some '-' ∨ label.getLast? = some '-'
      · simp [hempty,hlong,hhyphen]
        tauto
      · rw [if_neg hempty,if_neg hlong,if_neg hhyphen]
        push Not at hhyphen
        have hshape := And.intro (Bool.eq_false_iff.mpr hempty) (And.intro (not_lt.mp hlong) hhyphen)
        cases hbad : label.find? (fun c => !c.isAlphanum && c ≠ '-') with
        | none =>
          refine iff_of_true rfl ⟨hshape.1,hshape.2.1,hshape.2.2.1,hshape.2.2.2,?_⟩
          have hall := List.find?_eq_none.mp hbad
          refine List.all_eq_true.mpr (fun c hc => ?_)
          have hgood := hall c hc
          cases halnum : c.isAlphanum with
          | true => rfl
          | false => simpa [halnum] using hgood
        | some bad =>
          refine iff_of_false nofun (fun h => ?_)
          have hbroken := List.find?_some hbad
          have hgood := List.all_eq_true.mp h.2.2.2.2 bad (List.mem_of_find?_eq_some hbad)
          cases halnum : bad.isAlphanum with
          | true => simp [halnum] at hbroken
          | false => simp_all

theorem checkLabels_eq_ok {labels : List (List Char)} :
    checkLabels labels = .ok () ↔ ∀ label ∈ labels, checkLabel label = .ok () := by
  induction labels with
  | nil => simp [checkLabels]
  | cons label rest ih =>
    rw [checkLabels]
    cases hlabel : checkLabel label with
    | error e => simp [hlabel]
    | ok u => simp [hlabel,ih]

/-- The installer and the schema accept the same host names. -/
theorem hostname_eq_ok {name : String} : hostname name = .ok () ↔ Value.isHostname name = true := by
  have hlabels : checkLabels (Value.split '.' name) = .ok () ↔ (Value.split '.' name).all (fun label =>
      !label.isEmpty && (String.ofList label).utf8ByteSize ≤ 63 && label.head? ≠ some '-' &&
        label.getLast? ≠ some '-' && label.all (fun c => c.isAlphanum || c = '-')) = true := by
    rw [checkLabels_eq_ok,List.all_eq_true]
    refine forall₂_congr (fun label _ => ?_)
    rw [checkLabel_eq_ok]
    simp [and_assoc]
  unfold hostname Value.isHostname
  by_cases hempty : name = ""
  · simp [hempty]
  · by_cases hlong : 253 < name.utf8ByteSize
    · simp [hempty,hlong]
    · by_cases hdot : name.toList.head? = some '.' ∨ name.toList.getLast? = some '.'
      · rw [if_neg hempty,if_neg hlong,if_pos hdot]
        refine iff_of_false (fun h => ?_) (fun h => ?_)
        · cases h
        simp only [Bool.and_eq_true,Bool.not_eq_true',Bool.or_eq_false_iff,decide_eq_false_iff_not] at h
        exact hdot.elim h.1.1.2 h.1.2
      · rw [if_neg hempty,if_neg hlong,if_neg hdot,hlabels]
        push Not at hdot
        simp [hempty,hlong,hdot]

/-! ### Words without quotes -/

theorem mem_split {sep c : Char} {s : String} (hc : c ∈ s.toList) :
    c = sep ∨ ∃ part ∈ Value.split sep s, c ∈ part := by
  have hjoin : [sep].intercalate (Value.split sep s) = s.toList := List.intercalate_splitOn sep
  rw [← hjoin] at hc
  generalize Value.split sep s = parts at hc
  induction parts with
  | nil => cases hc
  | cons part parts ih =>
    cases parts with
    | nil => exact .inr ⟨part,List.mem_cons_self,by simpa using hc⟩
    | cons next parts =>
      rw [List.intercalate_cons_cons] at hc
      obtain hc | hc := List.mem_append.mp hc
      · obtain hc | hc := List.mem_append.mp hc
        · exact .inr ⟨part,List.mem_cons_self,hc⟩
        · exact .inl (List.mem_singleton.mp hc)
      · obtain hsep | ⟨other,hother,hmem⟩ := ih hc
        · exact .inl hsep
        · exact .inr ⟨other,List.mem_cons_of_mem _ hother,hmem⟩

theorem bare_alphanum {c : Char} (h : c.isAlphanum = true) : isBareChar c = true := by
  simp [isBareChar,h]

theorem bare_hex {c : Char} (h : (toDigit c).isSome) : isBareChar c = true := by
  apply bare_alphanum
  unfold toDigit at h
  unfold Char.isAlphanum Char.isAlpha Char.isUpper Char.isLower Char.isDigit
  simp only [Bool.or_eq_true,Bool.and_eq_true,decide_eq_true_eq]
  split_ifs at h with hdigit hlower hupper
  · exact .inr hdigit
  · have hz : c ≤ 'z' := hlower.2.trans (by decide)
    exact .inl (.inr ⟨hlower.1,hz⟩)
  · have hz : c ≤ 'Z' := hupper.2.trans (by decide)
    exact .inl (.inl ⟨hupper.1,hz⟩)
  · cases h

theorem isBare_of {s : List Char} (hne : s ≠ []) (h : ∀ c ∈ s, isBareChar c = true) : isBare s = true := by
  simpa [isBare,hne] using h

theorem bare_hostname {name : String} (h : Value.isHostname name = true) : isBare name.toList = true := by
  simp only [Value.isHostname,Bool.and_eq_true,List.all_eq_true,Bool.or_eq_true,decide_eq_true_eq,Bool.not_eq_true',
    Bool.or_eq_false_iff,decide_eq_false_iff_not] at h
  refine isBare_of (fun hempty => h.1.1.1.1 (String.toList_inj.mp hempty)) (fun c hc => ?_)
  obtain rfl | ⟨label,hlabel,hmem⟩ := @mem_split '.' _ _ hc
  · decide
  · obtain halnum | rfl := (h.2 label hlabel).2 c hmem
    · exact bare_alphanum halnum
    · decide

theorem bare_interfaceName {name : String} (h : Value.isInterfaceName name = true) : isBare name.toList = true := by
  simp only [Value.isInterfaceName,Bool.and_eq_true,List.all_eq_true,Bool.or_eq_true,decide_eq_true_eq,
    Bool.not_eq_true',Bool.or_eq_false_iff,decide_eq_false_iff_not] at h
  refine isBare_of (fun hempty => h.1.1.1.1 (String.toList_inj.mp hempty)) (fun c hc => ?_)
  obtain ((halnum | rfl) | rfl) | rfl := h.2 c hc
  · exact bare_alphanum halnum
  · decide
  · decide
  · decide

theorem bare_mac {mac : String} (h : Value.isUnicastMac mac = true) : isBare mac.toList = true := by
  simp only [Value.isUnicastMac,Bool.and_eq_true,List.all_eq_true,decide_eq_true_eq] at h
  refine isBare_of (fun hempty => ?_) (fun c hc => ?_)
  · have hone : (Value.split ':' mac).length = 1 := by
      rw [Value.split,hempty]
      rfl
    omega
  · obtain rfl | ⟨part,hpart,hmem⟩ := @mem_split ':' _ _ hc
    · decide
    · exact bare_hex ((h.1.1.2 part hpart).2 c hmem)

/-! ### The hash -/

/-- The characters of a hash that are displayed as they are, or with a backslash in front. -/
def Legible (byNumber : Char → Bool) (c : Char) : Prop := c = '"' ∨ c = '\\' ∨ byNumber c = false

theorem debugEscaped_eq {byNumber : Char → Bool} {c : Char} (htight : isTight c = true) (h : Legible byNumber c) :
    debugEscaped byNumber c = escaped c := by
  simp only [isTight,isControl,isWhitespace,Bool.and_eq_true,Bool.not_eq_true',Bool.or_eq_false_iff,
    Bool.and_eq_false_iff,decide_eq_false_iff_not] at htight
  have hnot : ∀ d : Char, d.toNat < 0x20 → c ≠ d := by
    rintro d hd rfl
    omega
  unfold debugEscaped escaped
  rw [if_neg (hnot _ (by decide)),if_neg (hnot _ (by decide)),if_neg (hnot _ (by decide)),
    if_neg (hnot _ (by decide)),if_neg (hnot _ (by decide) : c ≠ '\n'),if_neg (hnot _ (by decide) : c ≠ '\t'),
    if_neg (hnot _ (by decide) : c ≠ '\r')]
  have hcontrol : ¬(c.toNat < 0x20 || c.toNat = 0x7f) := by
    simp only [Bool.or_eq_true,decide_eq_true_eq]
    omega
  by_cases hquote : c = '"'
  · subst hquote
    rfl
  · by_cases hback : c = '\\'
    · subst hback
      rfl
    · have hprinted : byNumber c = false := (h.resolve_left hquote).resolve_left hback
      rw [if_neg hquote,if_neg hback,if_neg hback,if_neg hquote,hprinted]
      simpa using hcontrol

theorem not_bare_hash {hash : String} (h : Value.isEncryptedPassword hash = true) : isBare hash.toList = false := by
  simp only [Value.isEncryptedPassword,Bool.or_eq_true,decide_eq_true_eq,Bool.and_eq_true] at h
  obtain (rfl | rfl) | hhash := h
  · decide
  · decide
  · obtain ⟨cs,hcs⟩ := List.head?_eq_some_iff.mp hhash.1.1.1.1
    rw [hcs]
    rfl

theorem debugString_eq {byNumber : Char → Bool} {hash : String} (h : Value.isEncryptedPassword hash = true)
    (hlegible : ∀ c ∈ hash.toList, Legible byNumber c) : (debugString byNumber hash).toList = quote hash := by
  have hchars : hash.toList.flatMap (debugEscaped byNumber) = hash.toList.flatMap escaped :=
    List.flatMap_congr (fun c hc => debugEscaped_eq (Value.tight_encryptedPassword h c hc) (hlegible c hc))
  unfold debugString quote
  rw [String.toList_ofList,not_bare_hash h,hchars]
  rfl

/-! ### The names -/

theorem portName_injective : Function.Injective portName := by
  intro i j h
  unfold portName at h
  rw [← String.toList_inj,String.toList_append,String.toList_append] at h
  exact Nat.repr_inj.mp (String.toList_inj.mp (List.append_cancel_left h))

theorem portName_ne_lo (i : ℕ) : portName i ≠ "lo" := by
  intro h
  have hhead : (portName i).toList.head? = some 'e' := by
    rw [portName,String.toList_append,List.head?_append]
    rfl
  rw [h] at hhead
  exact absurd hhead (by decide)

theorem mem_assignNames {ports : List Port} {e : String × Port} :
    e ∈ assignNames ports ↔ ∃ i, ports[i]? = some e.2 ∧ e.1 = portName i := by
  unfold assignNames
  constructor
  · intro h
    obtain ⟨⟨port,i⟩,hi,rfl⟩ := List.mem_map.mp h
    exact ⟨i,List.mem_zipIdx_iff_getElem?.mp hi,rfl⟩
  · rintro ⟨i,hi,hname⟩
    exact List.mem_map.mpr ⟨(e.2,i),List.mem_zipIdx_iff_getElem?.mpr hi,Prod.ext hname.symm rfl⟩

theorem nodup_assignNames (ports : List Port) : ((assignNames ports).map Prod.fst).Nodup := by
  have hnames : (assignNames ports).map Prod.fst = (ports.zipIdx.map Prod.snd).map portName := by
    rw [assignNames,List.map_map,List.map_map]
    rfl
  rw [hnames,List.zipIdx_map_snd]
  exact (List.nodup_range' 1).map portName_injective

end Nightshade.Installer
