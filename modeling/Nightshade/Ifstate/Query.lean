import Mathlib
import Nightshade.Foundation.Decimal
import Nightshade.Schema.Plain
import Nightshade.Schema.Shipped

/-! What a `show interfaces` command asks for. Names, ranges of names and views share the first place
behind the command, and each is recognised on its own. -/
namespace Nightshade.Ifstate
open Foundation Foundation.Decimal Schema

/-- The state of a link, which is also what the rows of the status table are restricted to. -/
inductive LinkState where
  | connected
  | notConnect
  | disabled
  | errDisabled
  | inactive
  deriving DecidableEq

/-- The words that `show interfaces status` takes. -/
def LinkState.parse (word : String) : Option LinkState :=
  if word = "connected" then some .connected
  else if word = "notconnect" then some .notConnect
  else if word = "disabled" then some .disabled
  else if word = "errdisabled" then some .errDisabled
  else if word = "inactive" then some .inactive
  else none

/-- Which of the commands it is. -/
inductive View where
  | detail
  | description
  | status (filter : Option LinkState)
  | counters
  | countersErrors
  | countersDiscards
  | countersRates
  | countersQueue
  | countersBins
  | transceiver
  | transceiverDetail
  | transceiverProperties
  | transceiverEeprom
  | capabilities
  | flowControl
  | negotiation
  | negotiationDetail
  | phy
  | phyDetail
  | mac
  | macDetail
  deriving DecidableEq

/-- A command; no names are all interfaces. -/
structure Query where
  view : View
  names : List String
  deriving DecidableEq

inductive QueryError where
  | unknownView (word : String)
  | extra (command extra : String)
  | unknownFilter (word : String)
  | badName (part : String)
  | backwardsRange (part : String)
  | hugeRange (part : String)
  deriving DecidableEq

/-- How many interfaces one range may name. -/
def MAX_RANGE : ℕ := 1024

def QueryError.message : QueryError → String
  | .unknownView word => "`" ++ word ++ "` is not something `show interfaces` can show"
  | .extra command word => "`show interfaces " ++ command ++ "` does not take `" ++ word ++ "`"
  | .unknownFilter word =>
    "`show interfaces status " ++ word ++ "` is not a filter; " ++
      "try connected, notconnect, disabled, errdisabled or inactive"
  | .badName part => "`" ++ part ++ "` is not an interface name or a range of them"
  | .backwardsRange part =>
    "`" ++ part ++ "` counts backwards; a range runs from the lower number to the higher"
  | .hugeRange part => "`" ++ part ++ "` names more than " ++ toString MAX_RANGE ++ " interfaces"

/-- The words that begin a view. -/
def viewKeywords : List String :=
  ["description","status","counters","transceiver","capabilities","flowcontrol","negotiation","phy","mac"]

def isViewKeyword (word : String) : Bool := viewKeywords.contains word

def parseView : List String → Except QueryError View
  | [] => .ok .detail
  | ["description"] => .ok .description
  | ["status"] => .ok (.status none)
  | ["status",filter] =>
    match LinkState.parse filter with
    | some link => .ok (.status (some link))
    | none => .error (.unknownFilter filter)
  | ["counters"] => .ok .counters
  | ["counters","errors"] => .ok .countersErrors
  | ["counters","discards"] => .ok .countersDiscards
  | ["counters","rates"] => .ok .countersRates
  | ["counters","queue"] => .ok .countersQueue
  | ["counters","bins"] => .ok .countersBins
  | ["transceiver"] => .ok .transceiver
  | ["transceiver","detail"] => .ok .transceiverDetail
  | ["transceiver","properties"] => .ok .transceiverProperties
  | ["transceiver","eeprom"] => .ok .transceiverEeprom
  | ["capabilities"] => .ok .capabilities
  | ["flowcontrol"] => .ok .flowControl
  | ["negotiation"] => .ok .negotiation
  | ["negotiation","detail"] => .ok .negotiationDetail
  | ["phy"] => .ok .phy
  | ["phy","detail"] => .ok .phyDetail
  | ["mac"] => .ok .mac
  | ["mac","detail"] => .ok .macDetail
  | command::extra::_ =>
    if isViewKeyword command then .error (.extra command extra) else .error (.unknownView command)
  | [other] => .error (.unknownView other)

/-- `str::rsplit_once`: the text before the last separator, and behind it. -/
def rsplitOnce (separator : Char) (s : List Char) : Option (List Char × List Char) :=
  if separator ∈ s then some ((s.rdropWhile (· ≠ separator)).dropLast,s.rtakeWhile (· ≠ separator)) else none

/-- The prefix of a text and the number at its end, if there is one and it fits 32 bits. -/
def splitTrailingNumber (text : List Char) : Option (List Char × ℕ) :=
  if text.rtakeWhile Char.isDigit = [] then none
  else (Value.parseNat (2^32) (text.rtakeWhile Char.isDigit)).map (fun n => (text.rdropWhile Char.isDigit,n))

/-- The names from one number to another. -/
def numbered (stem : List Char) (first last : ℕ) : List String :=
  (List.range' first (last+1-first)).map (fun number => String.ofList stem ++ toString number)

/-- What one part of a list of names adds to it. -/
def expandOne (part : List Char) : Except QueryError (List String) :=
  let whole := String.ofList part
  if part = [] then .error (.badName whole)
  else
    match rsplitOnce '-' part with
    | none => .ok [whole]
    | some (head,tail) =>
      match splitTrailingNumber head with
      | none => .ok [whole]
      | some (stem,first) =>
        match splitTrailingNumber tail with
        | none => .ok [whole]
        | some (tailStem,last) =>
          if tailStem ≠ [] ∧ tailStem ≠ stem then .error (.badName whole)
          else if last < first then .error (.backwardsRange whole)
          else if MAX_RANGE < last - first + 1 then .error (.hugeRange whole)
          else .ok (numbered stem first last)

/-- Expand a list of names and ranges. -/
def expand (spec : String) : Except QueryError (List String) :=
  match (spec.toList.splitOn ',').mapM expandOne with
  | .error e => .error e
  | .ok parts => if parts.flatten = [] then .error (.badName spec) else .ok parts.flatten

/-- The words behind `show interfaces`. -/
def parse (words : List String) : Except QueryError Query :=
  match words with
  | first::rest =>
    if isViewKeyword first then (parseView words).map (fun view => ⟨view,[]⟩)
    else
      match expand first with
      | .error e => .error e
      | .ok names => (parseView rest).map (fun view => ⟨view,names⟩)
  | [] => (parseView []).map (fun view => ⟨view,[]⟩)

/-! ### Numbers at the end -/

section
variable {s t head tail p a b : List Char} {n : ℕ}

/-- A text whose last characters are a number of 32 bits. -/
structure EndsInNumber (s : List Char) : Prop where
  digits : s.rtakeWhile Char.isDigit ≠ []
  fits : value (s.rtakeWhile Char.isDigit) < 2^32

instance (s : List Char) : Decidable (EndsInNumber s) :=
  decidable_of_iff (s.rtakeWhile Char.isDigit ≠ [] ∧ value (s.rtakeWhile Char.isDigit) < 2^32)
    ⟨fun h => ⟨h.1,h.2⟩,fun h => ⟨h.1,h.2⟩⟩

lemma ofDigits_eq (s : List Char) : Value.ofDigits s = value s := by
  have hstep : (fun (n : ℕ) (c : Char) => n*10 + (c.toNat-48)) = fun n c => 10*n + (c.toNat - '0'.toNat) := by
    funext n c
    rw [Nat.mul_comm]
    rfl
  rw [Value.ofDigits,hstep]
  rfl

lemma parseNat_digits {bound : ℕ} (hdigits : ∀ c ∈ s, c.isDigit = true) (hne : s ≠ []) :
    Value.parseNat bound s = if value s < bound then some (value s) else none := by
  have hplus : s.head? ≠ some '+' := by
    intro h
    have hdigit := hdigits '+' (List.mem_of_mem_head? h)
    revert hdigit
    decide
  have hall : s.all Value.isAsciiDigit = true := List.all_eq_true.mpr hdigits
  have hempty : s.isEmpty = false := by simpa using hne
  rw [Value.parseNat,if_neg hplus,hall,hempty,ofDigits_eq]
  simp

theorem splitTrailingNumber_eq (s : List Char) : splitTrailingNumber s =
    if EndsInNumber s then some (s.rdropWhile Char.isDigit,value (s.rtakeWhile Char.isDigit)) else none := by
  rw [splitTrailingNumber]
  by_cases hne : s.rtakeWhile Char.isDigit = []
  · rw [if_pos hne,if_neg (fun h => h.digits hne)]
  · rw [if_neg hne,parseNat_digits (fun c hc => List.mem_rtakeWhile_imp hc) hne]
    by_cases hfits : value (s.rtakeWhile Char.isDigit) < 2^32
    · rw [if_pos hfits,if_pos ⟨hne,hfits⟩]
      rfl
    · rw [if_neg hfits,if_neg (fun h => hfits h.fits)]
      rfl

/-- The longest stretch at the end that passes a test, behind a character that does not. -/
lemma rspan_append {q : Char → Bool} (ht : ∀ c ∈ t, q c = true) (hs : ∀ c ∈ s.getLast?, q c = false) :
    (s ++ t).rtakeWhile q = t ∧ (s ++ t).rdropWhile q = s := by
  induction t using List.reverseRecOn with
  | nil =>
    rw [List.append_nil]
    by_cases hnil : s = []
    · subst hnil
      exact ⟨rfl,rfl⟩
    · have hlast := hs (s.getLast hnil) (List.getLast?_eq_some_getLast hnil)
      exact ⟨List.rtakeWhile_eq_nil_iff.mpr (fun _ => by simp [hlast]),
        List.rdropWhile_eq_self_iff.mpr (fun _ => by simp [hlast])⟩
  | append_singleton t c ih =>
    have hc := ht c (by simp)
    obtain ⟨htake,hdrop⟩ := ih (fun d hd => ht d (by simp [hd]))
    rw [← List.append_assoc,List.rtakeWhile_concat_pos _ _ _ hc,List.rdropWhile_concat_pos _ _ _ hc,htake,hdrop]
    exact ⟨rfl,rfl⟩

lemma rsplitOnce_append (h : '-' ∉ tail) : rsplitOnce '-' (head ++ '-'::tail) = some (head,tail) := by
  have hpass : ∀ c ∈ tail, decide (c ≠ '-') = true := fun c hc => by
    simpa using fun heq : c = '-' => h (heq ▸ hc)
  have hsplit : head ++ '-'::tail = (head ++ ['-']) ++ tail := by simp
  obtain ⟨htake,hdrop⟩ := rspan_append (s := head ++ ['-']) hpass (by simp)
  rw [rsplitOnce,if_pos (by simp),hsplit,htake,hdrop,List.dropLast_concat]

lemma rsplitOnce_some (h : rsplitOnce '-' s = some (head,tail)) : s = head ++ '-'::tail ∧ '-' ∉ tail := by
  rw [rsplitOnce] at h
  split_ifs at h with hmem
  obtain ⟨rfl,rfl⟩ : (s.rdropWhile (· ≠ '-')).dropLast = head ∧ s.rtakeWhile (· ≠ '-') = tail := by simpa using h
  have hne : s.rdropWhile (· ≠ '-') ≠ [] := by
    intro hnil
    rw [List.rdropWhile_eq_nil_iff] at hnil
    simpa using hnil '-' hmem
  have hlast : (s.rdropWhile (· ≠ '-')).getLast hne = '-' := by
    simpa using List.rdropWhile_last_not (fun c => decide (c ≠ '-')) s hne
  refine ⟨?_,fun hmem => by simpa using List.mem_rtakeWhile_imp hmem⟩
  have hparts := List.rdropWhile_append_rtakeWhile (p := (· ≠ '-')) (l := s)
  have hfront := List.dropLast_append_getLast hne
  rw [hlast] at hfront
  rw [← List.singleton_append,← List.append_assoc,hfront,hparts]

/-! ### Names and ranges -/

/-- A part that is taken for a range: a number, a hyphen, and another number. -/
def Ranged (part : List Char) : Prop :=
  ∃ head tail, part = head ++ '-'::tail ∧ '-' ∉ tail ∧ EndsInNumber head ∧ EndsInNumber tail

/-- No name of a range has the hyphen of the range in it. -/
lemma notMem_numbered {first last : ℕ} {stem digits : List Char} :
    String.ofList (stem ++ digits ++ '-'::tail) ∉ numbered stem first last := by
  intro h
  obtain ⟨number,-,hnumber⟩ := List.mem_map.mp h
  have htext := congrArg String.toList hnumber
  rw [String.toList_append,String.toList_ofList,String.toList_ofList,List.append_assoc,List.append_cancel_left_eq,
    Nat.toString_eq_repr,Nat.toList_repr] at htext
  have hdigit := Nat.isDigit_of_mem_toDigits (b := 10) (n := number) (c := '-') (by decide) (by decide)
    (by rw [htext]; simp)
  revert hdigit
  decide

/-- What comes of a part that is taken for a range. -/
lemma expandOne_ranged (hpart : s = head ++ '-'::tail) (htail : '-' ∉ tail) (hhead : EndsInNumber head)
    (hlast : EndsInNumber tail) :
    expandOne s =
      if tail.rdropWhile Char.isDigit ≠ [] ∧ tail.rdropWhile Char.isDigit ≠ head.rdropWhile Char.isDigit then
        .error (.badName (String.ofList s))
      else if value (tail.rtakeWhile Char.isDigit) < value (head.rtakeWhile Char.isDigit) then
        .error (.backwardsRange (String.ofList s))
      else if MAX_RANGE < value (tail.rtakeWhile Char.isDigit) - value (head.rtakeWhile Char.isDigit) + 1 then
        .error (.hugeRange (String.ofList s))
      else .ok (numbered (head.rdropWhile Char.isDigit) (value (head.rtakeWhile Char.isDigit))
        (value (tail.rtakeWhile Char.isDigit))) := by
  have hne : s ≠ [] := by rw [hpart]; simp
  have hsplit : rsplitOnce '-' s = some (head,tail) := by rw [hpart,rsplitOnce_append htail]
  rw [expandOne,if_neg hne,hsplit]
  simp only [splitTrailingNumber_eq,if_pos hhead,if_pos hlast]

/-- A part that is not taken for a range is a name. -/
lemma expandOne_whole (hne : s ≠ []) (h : ¬Ranged s) : expandOne s = .ok [String.ofList s] := by
  rw [expandOne,if_neg hne]
  cases hsplit : rsplitOnce '-' s with
  | none => rfl
  | some r =>
    obtain ⟨head,tail⟩ := r
    obtain ⟨hpart,htail⟩ := rsplitOnce_some hsplit
    simp only [splitTrailingNumber_eq]
    by_cases hhead : EndsInNumber head
    · have hlast : ¬EndsInNumber tail := fun hlast => h ⟨head,tail,hpart,htail,hhead,hlast⟩
      rw [if_pos hhead,if_neg hlast]
    · rw [if_neg hhead]

/-- A part comes out whole just where it is not taken for a range. -/
theorem expandOne_whole_iff (hne : s ≠ []) : expandOne s = .ok [String.ofList s] ↔ ¬Ranged s := by
  refine ⟨fun h hranged => ?_,expandOne_whole hne⟩
  obtain ⟨head,tail,hpart,htail,hhead,hlast⟩ := hranged
  rw [expandOne_ranged hpart htail hhead hlast] at h
  split_ifs at h
  have hnames := Except.ok.inj h
  have hname : String.ofList s ∈ numbered (head.rdropWhile Char.isDigit) (value (head.rtakeWhile Char.isDigit))
      (value (tail.rtakeWhile Char.isDigit)) := by
    rw [hnames]
    exact List.mem_singleton_self _
  have hparts : s = head.rdropWhile Char.isDigit ++ head.rtakeWhile Char.isDigit ++ '-'::tail := by
    rw [List.rdropWhile_append_rtakeWhile,hpart]
  rw [hparts] at hname
  exact notMem_numbered hname

lemma numbered_ne_nil {first last : ℕ} (h : first ≤ last) (stem : List Char) : numbered stem first last ≠ [] := by
  intro hnil
  rw [numbered,List.map_eq_nil_iff,List.range'_eq_nil_iff] at hnil
  omega

lemma expandOne_ne_nil {names : List String} (h : expandOne s = .ok names) : names ≠ [] := by
  by_cases hne : s = []
  · rw [hne] at h
    cases h
  · by_cases hranged : Ranged s
    · obtain ⟨head,tail,hpart,htail,hhead,hlast⟩ := hranged
      rw [expandOne_ranged hpart htail hhead hlast] at h
      split_ifs at h with h1 h2 h3
      rw [← Except.ok.inj h]
      exact numbered_ne_nil (by omega) _
    · rw [expandOne_whole hne hranged] at h
      rw [← Except.ok.inj h]
      exact List.cons_ne_nil _ _

/-- One word without a comma that is no keyword. -/
theorem parse_word {word : String} (hword : isViewKeyword word = false) (hcomma : ',' ∉ word.toList) :
    parse [word] = (expandOne word.toList).map (fun names => ⟨.detail,names⟩) := by
  have hexpand : expand word = expandOne word.toList := by
    rw [expand,List.splitOn_eq_singleton hcomma,List.mapM_cons,List.mapM_nil]
    cases h : expandOne word.toList with
    | error e => rfl
    | ok names =>
      have hne := expandOne_ne_nil h
      simp [pure,bind,Except.pure,Except.bind,hne]
  rw [parse,if_neg (by simp [hword]),hexpand]
  cases expandOne word.toList <;> rfl

lemma parse_keyword {word : String} (hword : isViewKeyword word = true) {names : List String} {view : View}
    (h : parse [word] = .ok ⟨view,names⟩) : names = [] := by
  rw [parse,if_pos hword] at h
  cases hview : parseView [word] with
  | error e => rw [hview] at h; cases h
  | ok v =>
    rw [hview] at h
    simp only [Except.map,Except.ok.injEq,Query.mk.injEq] at h
    exact h.2.symm

/-- A word without a comma asks for just the interface of its name where it is neither a keyword nor taken
for a range. -/
theorem parse_name_iff {name : String} (hne : name ≠ "") (hcomma : ',' ∉ name.toList) :
    parse [name] = .ok ⟨.detail,[name]⟩ ↔ isViewKeyword name = false ∧ ¬Ranged name.toList := by
  have hlist : name.toList ≠ [] := fun h => hne (String.toList_inj.mp h)
  cases hword : isViewKeyword name with
  | true =>
    refine ⟨fun h => ?_,fun h => by cases h.1⟩
    exact absurd (parse_keyword hword h) (List.cons_ne_nil _ _)
  | false =>
    have hiff := expandOne_whole_iff hlist
    rw [String.ofList_toList] at hiff
    rw [parse_word hword hcomma,← hiff]
    cases expandOne name.toList with
    | error e => simp [Except.map]
    | ok names => simp [Except.map]

/-- What a range of names is meant to be answered with. -/
def rangeMeant (spec : String) (stem : List Char) (first last : ℕ) : Except QueryError Query :=
  if last < first then .error (.backwardsRange spec)
  else if MAX_RANGE < last - first + 1 then .error (.hugeRange spec)
  else .ok ⟨.detail,numbered stem first last⟩

/-- A range is a prefix without a digit at its end, and two numbers with a hyphen between them. -/
structure IsRange (p a b : List Char) : Prop where
  comma : ',' ∉ p
  stem : ∀ c ∈ p.getLast?, c.isDigit = false
  first : a ≠ [] ∧ ∀ c ∈ a, c.isDigit = true
  last : b ≠ [] ∧ ∀ c ∈ b, c.isDigit = true

lemma digits_notMem {c : Char} (h : ∀ d ∈ a, d.isDigit = true) (hc : c.isDigit = false) : c ∉ a := by
  intro hmem
  rw [h c hmem] at hc
  cases hc

/-- A range is answered as it is meant exactly where both numbers fit 32 bits. -/
theorem parse_range_iff (h : IsRange p a b) :
    parse [String.ofList (p ++ a ++ '-'::b)] =
        rangeMeant (String.ofList (p ++ a ++ '-'::b)) p (value a) (value b) ↔
      value a < 2^32 ∧ value b < 2^32 := by
  have hhyphen : '-' ∉ b := digits_notMem h.last.2 (by decide)
  have hcomma : ',' ∉ p ++ a ++ '-'::b := by
    have ha : ',' ∉ a := digits_notMem h.first.2 (by decide)
    have hb : ',' ∉ b := digits_notMem h.last.2 (by decide)
    simp [h.comma,ha,hb]
  have hword : isViewKeyword (String.ofList (p ++ a ++ '-'::b)) = false := by
    have hnone : ∀ word ∈ viewKeywords, '-' ∉ word.toList := by decide
    by_contra hin
    rw [Bool.not_eq_false,isViewKeyword,List.contains_iff_mem] at hin
    exact hnone _ hin (by rw [String.toList_ofList]; simp)
  obtain ⟨htake,hdrop⟩ := rspan_append h.first.2 h.stem
  obtain ⟨htake',hdrop'⟩ := rspan_append (s := []) h.last.2 (by simp)
  rw [List.nil_append] at htake' hdrop'
  have hfirst : EndsInNumber (p ++ a) ↔ value a < 2^32 :=
    ⟨fun hn => by have hfits := hn.fits; rwa [htake] at hfits,
      fun hfits => ⟨by rw [htake]; exact h.first.1,by rw [htake]; exact hfits⟩⟩
  have hlast : EndsInNumber b ↔ value b < 2^32 :=
    ⟨fun hn => by have hfits := hn.fits; rwa [htake'] at hfits,
      fun hfits => ⟨by rw [htake']; exact h.last.1,by rw [htake']; exact hfits⟩⟩
  rw [parse_word hword (by rwa [String.toList_ofList]),String.toList_ofList]
  by_cases hfits : value a < 2^32 ∧ value b < 2^32
  · rw [iff_true_right hfits,expandOne_ranged rfl hhyphen (hfirst.mpr hfits.1) (hlast.mpr hfits.2),htake,hdrop,htake',
      hdrop',rangeMeant,if_neg (by simp)]
    split_ifs <;> rfl
  · rw [iff_false_right hfits]
    have hwhole : expandOne (p ++ a ++ '-'::b) = .ok [String.ofList (p ++ a ++ '-'::b)] := by
      refine expandOne_whole (by simp) ?_
      rintro ⟨head,tail,hpart,htail,hhead,hnumber⟩
      have hsame : rsplitOnce '-' (p ++ a ++ '-'::b) = some (head,tail) := by rw [hpart,rsplitOnce_append htail]
      rw [rsplitOnce_append hhyphen] at hsame
      obtain ⟨rfl,rfl⟩ : p ++ a = head ∧ b = tail := by simpa using hsame
      exact hfits ⟨hfirst.mp hhead,hlast.mp hnumber⟩
    rw [hwhole,rangeMeant]
    split_ifs
    · simp [Except.map]
    · simp [Except.map]
    · intro heq
      simp only [Except.map,Except.ok.injEq,Query.mk.injEq,true_and] at heq
      refine @notMem_numbered b (value a) (value b) p a ?_
      rw [← heq]
      exact List.mem_singleton_self _

end

/-! ### Names that the schema takes -/

/-- The kinds of interface that the shipped schema has. -/
def interfaceNodes : List SchemaNode :=
  ((Shipped.schema []).root.children.filter (·.1 = "interfaces")).flatMap (fun e => e.2.children.map Prod.snd)

/-- A node that takes the name as an instance. -/
def Takes (node : SchemaNode) (name : String) : Prop := ∃ spec, node.kind = .tag spec ∧ spec.check name = .ok ()

lemma interfaceNodes_eq : interfaceNodes =
    [Shipped.bonding,Shipped.bridge,Shipped.ethernet,Shipped.loopback,Shipped.vlan,Shipped.vxlan] := by
  simp [interfaceNodes,Shipped.schema,Shipped.container]

/-- A name that is accepted has a character, and no comma. -/
def Spelled (name : String) : Prop := name ≠ "" ∧ ',' ∉ name.toList

lemma spelled_of_isInterfaceName {name : String} (h : Value.isInterfaceName name = true) : Spelled name := by
  simp only [Value.isInterfaceName,Bool.and_eq_true,Bool.not_eq_true',Bool.or_eq_false_iff,
    decide_eq_false_iff_not] at h
  refine ⟨h.1.1.1.1,fun hcomma => ?_⟩
  have hchar := List.all_eq_true.mp h.2 ',' hcomma
  revert hchar
  decide

lemma spelled_of_check {spec : ValueSpec} {name : String} (haccepts : spec.accepts = [])
    (hty : spec.ty = .interfaceName) (h : spec.check name = .ok ()) : Spelled name := by
  obtain hmem | hok := ValueSpec.ok_type h
  · rw [haccepts] at hmem
    cases hmem
  · rw [hty] at hok
    exact spelled_of_isInterfaceName (ok_of_checkThat hok)

lemma eq_lo {name : String} (h : Takes Shipped.loopback name) : name = "lo" := by
  obtain ⟨spec,hkind,hcheck⟩ := h
  cases hkind
  obtain hmem | hok := ValueSpec.ok_type hcheck
  · cases hmem
  · simpa using ok_of_checkThat hok

theorem spelled_of_takes {node : SchemaNode} {name : String} (hnode : node ∈ interfaceNodes)
    (h : Takes node name) : Spelled name := by
  rw [interfaceNodes_eq] at hnode
  simp only [List.mem_cons,List.not_mem_nil,or_false] at hnode
  obtain rfl | rfl | rfl | rfl | rfl | rfl := hnode
  · obtain ⟨spec,hkind,hcheck⟩ := h
    cases hkind
    exact spelled_of_check rfl rfl hcheck
  · obtain ⟨spec,hkind,hcheck⟩ := h
    cases hkind
    exact spelled_of_check rfl rfl hcheck
  · obtain ⟨spec,hkind,hcheck⟩ := h
    cases hkind
    exact spelled_of_check rfl rfl hcheck
  · rw [eq_lo h]
    exact ⟨by decide,by decide⟩
  · obtain ⟨spec,hkind,hcheck⟩ := h
    cases hkind
    exact spelled_of_check rfl rfl hcheck
  · obtain ⟨spec,hkind,hcheck⟩ := h
    cases hkind
    exact spelled_of_check rfl rfl hcheck

/-- A word of letters and a number behind it is neither a keyword nor a range. -/
lemma plain_of_numbered {word name : String} (hword : word.toList.all Char.isAlpha = true)
    (h : (Shipped.numbered word).isMatch name = true) : isViewKeyword name = false ∧ ¬Ranged name.toList := by
  simp only [Shipped.numbered,Bool.and_eq_true,List.isPrefixOf_iff_prefix] at h
  obtain ⟨⟨⟨digits,hname⟩,hne⟩,hdigits⟩ := h
  rw [← hname,List.drop_left] at hne hdigits
  have hdigit : ∀ c ∈ digits, c.isDigit = true := List.all_eq_true.mp hdigits
  have hnone : digits ≠ [] := by simpa using hne
  constructor
  · have hkeywords : ∀ keyword ∈ viewKeywords, keyword.toList.all (fun c => !c.isDigit) = true := by decide
    by_contra hin
    rw [Bool.not_eq_false,isViewKeyword,List.contains_iff_mem] at hin
    obtain ⟨c,hc⟩ := List.exists_mem_of_ne_nil digits hnone
    have hmem : c ∈ name.toList := hname ▸ List.mem_append_right _ hc
    have hfalse := List.all_eq_true.mp (hkeywords name hin) c hmem
    rw [hdigit c hc] at hfalse
    cases hfalse
  · rintro ⟨head,tail,hsplit,-,-,-⟩
    have hmem : '-' ∈ word.toList ++ digits := by rw [hname,hsplit]; simp
    obtain hmem | hmem := List.mem_append.mp hmem
    · have halpha := List.all_eq_true.mp hword '-' hmem
      revert halpha
      decide
    · have hfalse := hdigit '-' hmem
      revert hfalse
      decide

/-- Names of all kinds but ethernet are neither keywords nor ranges. -/
theorem plain_of_takes {node : SchemaNode} {name : String}
    (hnode : node ∈ [Shipped.bonding,Shipped.bridge,Shipped.loopback,Shipped.vlan,Shipped.vxlan])
    (h : Takes node name) : isViewKeyword name = false ∧ ¬Ranged name.toList := by
  simp only [List.mem_cons,List.not_mem_nil,or_false] at hnode
  obtain rfl | rfl | rfl | rfl | rfl := hnode
  · obtain ⟨spec,hkind,hcheck⟩ := h
    cases hkind
    exact plain_of_numbered (by decide) (ValueSpec.matches_of_check rfl rfl hcheck)
  · obtain ⟨spec,hkind,hcheck⟩ := h
    cases hkind
    exact plain_of_numbered (by decide) (ValueSpec.matches_of_check rfl rfl hcheck)
  · rw [eq_lo h]
    refine ⟨by decide,?_⟩
    rintro ⟨head,tail,hsplit,-,-,-⟩
    have hmem : '-' ∈ "lo".toList := by rw [hsplit]; simp
    revert hmem
    decide
  · obtain ⟨spec,hkind,hcheck⟩ := h
    cases hkind
    exact plain_of_numbered (by decide) (ValueSpec.matches_of_check rfl rfl hcheck)
  · obtain ⟨spec,hkind,hcheck⟩ := h
    cases hkind
    exact plain_of_numbered (by decide) (ValueSpec.matches_of_check rfl rfl hcheck)

/-- An interface can be asked for by its name exactly where the name is no keyword and not taken for a
range, which holds of every kind but ethernet; and a range is answered as it is meant exactly where its
numbers fit 32 bits. -/
theorem asked_iff {node : SchemaNode} {name : String} (hnode : node ∈ interfaceNodes) (htakes : Takes node name)
    {p a b : List Char} (hrange : IsRange p a b) :
    (parse [name] = .ok ⟨.detail,[name]⟩ ↔ isViewKeyword name = false ∧ ¬Ranged name.toList) ∧
    (node ∈ [Shipped.bonding,Shipped.bridge,Shipped.loopback,Shipped.vlan,Shipped.vxlan] →
      parse [name] = .ok ⟨.detail,[name]⟩) ∧
    (parse [String.ofList (p ++ a ++ '-'::b)] = rangeMeant (String.ofList (p ++ a ++ '-'::b)) p (value a) (value b) ↔
      value a < 2^32 ∧ value b < 2^32) := by
  obtain ⟨hne,hcomma⟩ := spelled_of_takes hnode htakes
  have hname := parse_name_iff hne hcomma
  exact ⟨hname,fun hother => hname.mpr (plain_of_takes hother htakes),parse_range_iff hrange⟩

lemma takes_bond0 : Takes Shipped.bonding "bond0" := ⟨_,rfl,by decide⟩

lemma range_eth : IsRange "eth".toList "08".toList "10".toList :=
  ⟨by decide,fun c hc => by cases hc; rfl,⟨by decide,List.all_eq_true.mp (by decide)⟩,
    ⟨by decide,List.all_eq_true.mp (by decide)⟩⟩

/-- A bond by its name, and ports by a range. -/
theorem asked_bond0 : parse ["bond0"] = .ok ⟨.detail,["bond0"]⟩ ∧
    parse ["eth08-10"] = .ok ⟨.detail,["eth8","eth9","eth10"]⟩ := by
  have hmem : Shipped.bonding ∈ interfaceNodes := by
    rw [interfaceNodes_eq]
    simp
  obtain ⟨-,hbond,hports⟩ := asked_iff hmem takes_bond0 range_eth
  exact ⟨hbond (by simp),hports.mpr ⟨by decide,by decide⟩⟩

/-- Two names that the schema takes for ethernet ports: one is a keyword, and the other is taken for the
range of the ports `eth0` to `eth3`. -/
theorem ethernet_not_asked : Takes Shipped.ethernet "status" ∧ parse ["status"] = .ok ⟨.status none,[]⟩ ∧
    Takes Shipped.ethernet "eth0-3" ∧ parse ["eth0-3"] = .ok ⟨.detail,["eth0","eth1","eth2","eth3"]⟩ :=
  ⟨⟨_,rfl,by decide⟩,by decide,⟨_,rfl,by decide⟩,by decide⟩

end Nightshade.Ifstate
