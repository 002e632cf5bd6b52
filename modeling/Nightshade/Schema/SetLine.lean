import Mathlib
import Nightshade.Schema.Gate
import Nightshade.Schema.DiffAlgebra

/-! Lines typed after `set` and `delete`: how they are split into a path and a value, which words of
them are lost on the way, and how they compare with the check of a whole tree. -/
namespace Nightshade.Schema
open Foundation

/-- Split what was typed, with some words of it walked and the rest to go. -/
def splitFrom (typed : Path) : Location → Path → Path → Path × Option String
  | _, _, [] => (typed,none)
  | location, walked, segment::rest =>
    match location with
    | .node n =>
      match n.kind with
      | .container =>
        match n.child segment with
        | some child => splitFrom typed (.node child) (walked.child segment) rest
        | none => (typed,none)
      | .tag _ => splitFrom typed (.inst n) (walked.child segment) rest
      -- A value goes here, and everything after it is not part of the path.
      | .leaf _ | .multiLeaf _ => (walked,some segment)
      | .flag => (typed,none)
    | .inst tag =>
      match tag.child segment with
      | some child => splitFrom typed (.node child) (walked.child segment) rest
      | none => (typed,none)
    | .value _ => (typed,none)

namespace Schema

/-- Split a typed line into the node it names and the value it gives. -/
def splitValue (schema : Schema) (typed : Path) : Path × Option String :=
  splitFrom typed (.node schema.root) Path.root typed

end Schema

/-- A leaf that takes values. -/
def Location.takesValues : Location → Bool
  | .node n =>
    match n.kind with
    | .leaf _ | .multiLeaf _ => true
    | .container | .tag _ | .flag => false
  | .inst _ | .value _ => false

/-- Words that lead to a leaf that takes values, with at least one more. -/
def PassesLeaf (location : Location) (path : Path) : Prop :=
  ∃ p v rest last, path = p ++ v::rest ∧ p.foldlM Location.next location = some last ∧
    last.takesValues

section Split
variable {location : Location} {typed walked path : Path}

theorem splitFrom_leaf {p rest : Path} {v : String} {last : Location}
    (hreach : p.foldlM Location.next location = some last) (hleaf : last.takesValues) :
    splitFrom typed location walked (p ++ v::rest) = (walked ++ p,some v) := by
  induction p generalizing location walked with
  | nil =>
    cases hreach
    unfold Location.takesValues at hleaf
    cases last with
    | node n => cases hkind : n.kind <;> simp_all [splitFrom]
    | inst tag => cases hleaf
    | value leaf => cases hleaf
  | cons s p ih =>
    rw [List.foldlM_cons] at hreach
    obtain ⟨inner,hnext,hreach⟩ := Option.bind_eq_some_iff.mp hreach
    have hrest : splitFrom typed inner (walked.child s) (p ++ v::rest) = (walked ++ s::p,some v) := by
      have hih : splitFrom typed inner (walked.child s) (p ++ v::rest) = (walked.child s ++ p,some v) :=
        ih hreach
      simpa [Path.child] using hih
    rw [List.cons_append]
    unfold splitFrom
    unfold Location.next at hnext
    cases location with
    | node n =>
      cases hkind : n.kind with
      | container =>
        simp only [hkind] at hnext ⊢
        obtain ⟨child,hchild,rfl⟩ := Option.map_eq_some_iff.mp hnext
        rw [hchild]
        exact hrest
      | tag spec =>
        simp only [hkind] at hnext ⊢
        cases hnext
        exact hrest
      | leaf spec | multiLeaf spec =>
        -- Behind a value there is no way on.
        simp only [hkind] at hnext
        cases hnext
        cases p with
        | nil => cases hreach; cases hleaf
        | cons s' p => cases hreach
      | flag =>
        simp only [hkind] at hnext
        cases hnext
    | inst tag =>
      obtain ⟨child,hchild,rfl⟩ := Option.map_eq_some_iff.mp hnext
      simp only [hchild]
      exact hrest
    | value leaf => cases hnext

theorem splitFrom_whole (h : ¬PassesLeaf location path) :
    splitFrom typed location walked path = (typed,none) := by
  induction path generalizing location walked with
  | nil => rw [splitFrom]
  | cons s path ih =>
    have hinner : ∀ inner, location.next s = some inner → ¬PassesLeaf inner path := by
      rintro inner hnext ⟨p,v,rest,last,rfl,hreach,hleaf⟩
      refine h ⟨s::p,v,rest,last,rfl,?_,hleaf⟩
      rw [List.foldlM_cons,hnext]
      exact hreach
    unfold splitFrom
    cases location with
    | node n =>
      cases hkind : n.kind with
      | container =>
        simp only [hkind]
        cases hchild : n.child s with
        | none => rfl
        | some child =>
          have hnext : (Location.node n).next s = some (.node child) := by
            simp [Location.next,hkind,hchild]
          exact ih (hinner _ hnext)
      | tag spec =>
        simp only [hkind]
        have hnext : (Location.node n).next s = some (.inst n) := by simp [Location.next,hkind]
        exact ih (hinner _ hnext)
      | leaf spec | multiLeaf spec =>
        have hleaf : (Location.node n).takesValues := by simp [Location.takesValues,hkind]
        exact absurd ⟨[],s,path,_,rfl,rfl,hleaf⟩ h
      | flag => simp only [hkind]
    | inst tag =>
      cases hchild : tag.child s with
      | none => simp only [hchild]
      | some child =>
        simp only [hchild]
        have hnext : (Location.inst tag).next s = some (.node child) := by
          simp [Location.next,hchild]
        exact ih (hinner _ hnext)
    | value leaf => rfl

end Split

/-! ### Words that are dropped -/

inductive Verb where
  | set
  | delete

/-- The daemon refuses what a line is split into. -/
def Verb.Refuses (schema : Schema) (tree : ConfigTree) (verb : Verb) (asked : Path × Option String) :
    Prop :=
  match verb with
  | .set => schema.validateSet asked.1 asked.2 ≠ .ok ()
  | .delete => (schema.applyDelete tree asked.1 asked.2).1 ≠ .ok ()

/-- The request made of the words typed after a verb is refused, or every word went into it. -/
def AccountsFor (schema : Schema) (tree : ConfigTree) (verb : Verb) (edit words : Path) : Prop :=
  verb.Refuses schema tree (schema.splitValue (edit ++ words)) ∨
    (schema.splitValue (edit ++ words)).1 ++ (schema.splitValue (edit ++ words)).2.toList = edit ++ words

/-- More words follow the value of a leaf, and without them the line would not be refused. -/
def Overlong (schema : Schema) (tree : ConfigTree) (verb : Verb) (typed : Path) : Prop :=
  ∃ p v rest last, typed = p ++ v::rest ∧ rest ≠ [] ∧ schema.resolve p = some last ∧
    last.takesValues ∧ ¬verb.Refuses schema tree (p,some v)

section Words
variable {schema : Schema} {typed p rest : Path} {v : String} {last : Location}

theorem splitValue_leaf (hreach : schema.resolve p = some last) (hleaf : last.takesValues) :
    schema.splitValue (p ++ v::rest) = (p,some v) := splitFrom_leaf hreach hleaf

theorem splitValue_whole (h : ¬PassesLeaf (.node schema.root) typed) :
    schema.splitValue typed = (typed,none) := splitFrom_whole h

/-- Every word of a line is accounted for unless words follow the value of a leaf on a line that would
be carried out without them. -/
theorem accountsFor_iff (schema : Schema) (tree : ConfigTree) (verb : Verb) (edit words : Path) :
    AccountsFor schema tree verb edit words ↔ ¬Overlong schema tree verb (edit ++ words) := by
  unfold AccountsFor
  generalize edit ++ words = typed
  by_cases hpasses : PassesLeaf (.node schema.root) typed
  · obtain ⟨p,v,rest,last,rfl,hreach,hleaf⟩ := hpasses
    have hsplit : schema.splitValue (p ++ v::rest) = (p,some v) := splitValue_leaf hreach hleaf
    rw [hsplit]
    have hwhole : p ++ (some v).toList = p ++ v::rest ↔ rest = [] := by simp [eq_comm]
    constructor
    · rintro hor ⟨p',v',rest',last',heq,hne,hreach',hleaf',hcarried⟩
      have hsplit' : schema.splitValue (p' ++ v'::rest') = (p',some v') :=
        splitValue_leaf hreach' hleaf'
      rw [← heq,hsplit] at hsplit'
      cases hsplit'
      obtain rfl : rest = rest' := by simpa using heq
      exact hor.elim hcarried (fun h => hne (hwhole.mp h))
    · intro hnot
      by_cases hrest : rest = []
      · exact .inr (hwhole.mpr hrest)
      · refine .inl ?_
        by_contra hcarried
        exact hnot ⟨p,v,rest,last,rfl,hrest,hreach,hleaf,hcarried⟩
  · rw [splitValue_whole hpasses]
    refine iff_of_true (.inr (by simp)) ?_
    rintro ⟨p,v,rest,last,rfl,-,hreach,hleaf,-⟩
    exact hpasses ⟨p,v,rest,last,rfl,hreach,hleaf⟩

/-- A description of two words, typed without quotes. -/
theorem description_dropped :
    ¬AccountsFor (Shipped.schema []) .new .set ["interfaces","ethernet","eth0"]
      ["description","core","uplink"] := by
  unfold AccountsFor Verb.Refuses
  decide +kernel

end Words

/-! ### Lines and trees -/

/-- A setting that a tree holds, as the path and the value of a line. -/
inductive Setting (schema : Schema) (tree : ConfigTree) : Path → Option String → Prop where
  | value {path : Path} {value : String} (holds : tree.Holds path value) :
    Setting schema tree path (some value)
  | flag {path : Path} (empty : tree.valuesAt path = some []) : Setting schema tree path none
  | inst {path : Path} {tag : SchemaNode} (present : tree.contains path)
    (named : schema.resolve path = some (.inst tag)) : Setting schema tree path none

section Lines
variable {schema : Schema} {tree : ConfigTree} {path : Path} {value : Option String}

theorem validateSet_of_settable (h : Settable schema path value) :
    schema.validateSet path value = .ok () := by
  unfold Schema.validateSet
  cases h with
  | leaf hreach hkind hok | multiLeaf hreach hkind hok =>
    rw [walk_eq_ok.mpr hreach]
    simp [hkind,hok,Except.mapError]
  | flag hreach hkind =>
    rw [walk_eq_ok.mpr hreach]
    simp [hkind]
  | inst hreach => rw [walk_eq_ok.mpr hreach]

/-- Where a clean tree has a setting, the schema has a place for it. -/
theorem settable_of_setting (hclean : schema.validateTree tree = [])
    (h : Setting schema tree path value) : Settable schema path value := by
  have hfits := validateTree_eq_nil.mp hclean
  have hvalues : ∀ vs, tree.valuesAt path = some vs → ∃ inner,
      path.foldlM Location.enter (.node schema.root) = some inner ∧ inner.Holds vs := by
    intro vs hvs
    obtain ⟨⟨c,cs | ws⟩,hget,hbody⟩ := Option.bind_eq_some_iff.mp hvs
    · cases hbody
    · cases hbody
      obtain ⟨inner,hreach,hinner⟩ := Node.fits_of_get hfits hget
      exact ⟨inner,hreach,Node.fits_values.mp hinner⟩
  cases h with
  | @value value hholds =>
    obtain ⟨vs,hvs,hmem⟩ := hholds
    obtain ⟨inner,hreach,hinner⟩ := hvalues vs hvs
    unfold Location.Holds at hinner
    cases inner with
    | node n =>
      cases hkind : n.kind <;> simp only [hkind] at hinner
      case leaf spec =>
        obtain ⟨w,rfl,hok⟩ := hinner
        obtain rfl := List.mem_singleton.mp hmem
        exact .leaf hreach hkind hok
      case multiLeaf spec => exact .multiLeaf hreach hkind (hinner.2 value hmem)
      case flag =>
        rw [hinner] at hmem
        cases hmem
    | inst tag => cases hinner
    | value leaf => cases hinner
  | flag hempty =>
    obtain ⟨inner,hreach,hinner⟩ := hvalues [] hempty
    unfold Location.Holds at hinner
    cases inner with
    | node n =>
      cases hkind : n.kind <;> simp only [hkind] at hinner
      case leaf spec =>
        obtain ⟨w,hw,-⟩ := hinner
        cases hw
      case multiLeaf spec => exact absurd rfl hinner.1
      case flag => exact .flag hreach hkind
    | inst tag => cases hinner
    | value leaf => cases hinner
  | inst hpresent hnamed =>
    obtain ⟨n,hn⟩ := Option.isSome_iff_exists.mp hpresent
    obtain ⟨inner,hreach,-⟩ := Node.fits_of_get hfits hn
    have hresolve : schema.resolve path = some inner := next_of_enters hreach
    rw [hnamed] at hresolve
    cases hresolve
    exact .inst hreach

/-- What can be set is split, from the words of its line, into the path and the value it is. -/
theorem splitValue_of_settable (h : Settable schema path value) :
    schema.splitValue (path ++ value.toList) = (path,value) := by
  have hflag : ∀ last, path.foldlM Location.next (.node schema.root) = some last →
      (∀ leaf, last ≠ .value leaf) → schema.splitValue path = (path,none) := by
    intro last hreach hlast
    refine splitValue_whole ?_
    -- Behind a leaf that takes values there are only values.
    rintro ⟨p,v,rest,leaf,rfl,hleaf,htakes⟩
    rw [List.foldlM_append,hleaf] at hreach
    have hbehind : (v::rest).foldlM Location.next leaf = some last := hreach
    rw [List.foldlM_cons] at hbehind
    obtain ⟨inner,hnext,hrest⟩ := Option.bind_eq_some_iff.mp hbehind
    unfold Location.takesValues at htakes
    cases leaf with
    | node n =>
      have hvalue : inner = .value n := by
        cases hkind : n.kind <;> simp_all [Location.next]
      subst hvalue
      cases rest with
      | nil =>
        cases hrest
        exact hlast n rfl
      | cons s rest => cases hrest
    | inst tag => cases htakes
    | value n => cases htakes
  cases h with
  | leaf hreach hkind _ | multiLeaf hreach hkind _ =>
    exact splitValue_leaf (next_of_enters hreach) (by simp [Location.takesValues,hkind])
  | flag hreach hkind =>
    rw [Option.toList_none,List.append_nil]
    exact hflag _ (next_of_enters hreach) (fun leaf hleaf => by cases hleaf)
  | inst hreach =>
    rw [Option.toList_none,List.append_nil]
    exact hflag _ (next_of_enters hreach) (fun leaf hleaf => by cases hleaf)

/-- Every setting of a clean tree is a line that is accepted and split as it was meant, and every line
that is accepted makes a clean tree. -/
theorem lines_agree (hloaded : Loaded schema) :
    (∀ (tree : ConfigTree) (path : Path) (value : Option String), schema.validateTree tree = [] →
      Setting schema tree path value →
      schema.validateSet path value = .ok () ∧
      schema.splitValue (path ++ value.toList) = (path,value)) ∧
    ∀ (path : Path) (value : Option String), schema.validateSet path value = .ok () →
      (schema.applySet .new path value).1 = .ok () ∧
      schema.validateTree (schema.applySet .new path value).2 = [] := by
  constructor
  · intro tree path value hclean hsetting
    have hsettable := settable_of_setting hclean hsetting
    exact ⟨validateSet_of_settable hsettable,splitValue_of_settable hsettable⟩
  · intro path value hset
    have hnew : ConfigTree.new.root.Fits (.node schema.root) := Node.fits_newInterior hloaded.isInner
    obtain ⟨hok,hfits⟩ := applySet_fits hloaded.isInner hnew hset
    exact ⟨hok,validateTree_eq_nil.mpr hfits⟩

end Lines

theorem shipped_lines_agree :
    (∀ (tree : ConfigTree) (path : Path) (value : Option String),
      (Shipped.schema []).validateTree tree = [] → Setting (Shipped.schema []) tree path value →
      (Shipped.schema []).validateSet path value = .ok () ∧
      (Shipped.schema []).splitValue (path ++ value.toList) = (path,value)) ∧
    ∀ (path : Path) (value : Option String), (Shipped.schema []).validateSet path value = .ok () →
      ((Shipped.schema []).applySet .new path value).1 = .ok () ∧
      (Shipped.schema []).validateTree ((Shipped.schema []).applySet .new path value).2 = [] :=
  lines_agree (show Loaded (Shipped.schema []) from rfl)

end Nightshade.Schema
