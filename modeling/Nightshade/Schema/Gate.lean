import Mathlib
import Nightshade.Foundation.Effects
import Nightshade.Schema.Shipped

/-! The schema gate is closed under editing. The check of one `set`, the edits of a tree and the
check of a whole tree go down the schema by the same steps, and `Fits` says what all three agree on. -/
namespace Nightshade.Schema
open Foundation

namespace Location

/-- One segment further down, with the name of an instance checked. -/
def enter (location : Location) (segment : String) : Option Location :=
  match location with
  | .node n =>
    match n.kind with
    | .container => (n.child segment).map .node
    | .tag spec =>
      match spec.check segment with
      | .ok () => some (.inst n)
      | .error _ => none
    | .leaf _ | .multiLeaf _ | .flag => none
  | .inst tag => (tag.child segment).map .node
  | .value _ => none

/-- A place for named children. -/
def isInner : Location → Bool
  | .node n =>
    match n.kind with
    | .container | .tag _ => true
    | .leaf _ | .multiLeaf _ | .flag => false
  | .inst _ => true
  | .value _ => false

/-- The values that a place may hold. -/
def Holds (location : Location) (vs : List String) : Prop :=
  match location with
  | .node n =>
    match n.kind with
    | .leaf spec => ∃ v, vs = [v] ∧ spec.check v = .ok ()
    | .multiLeaf spec => vs ≠ [] ∧ ∀ v ∈ vs, spec.check v = .ok ()
    | .flag => vs = []
    | .container | .tag _ => False
  | .inst _ | .value _ => False

/-- A node or an instance, and not a value of a leaf. -/
def isPlace : Location → Bool
  | .value _ => false
  | _ => true

theorem next_of_enter {location inner : Location} {segment : String}
    (h : location.enter segment = some inner) : location.next segment = some inner := by
  unfold enter at h
  unfold next
  cases location with
  | node n =>
    cases hkind : n.kind <;> simp only [hkind] at h ⊢
    case container => exact h
    case tag spec =>
      split at h
      · exact h
      · cases h
    all_goals cases h
  | inst tag => exact h
  | value leaf => cases h

theorem isInner_of_enter {location inner : Location} {segment : String}
    (h : location.enter segment = some inner) : location.isInner := by
  unfold enter at h
  unfold isInner
  cases location with
  | node n => cases hkind : n.kind <;> simp only [hkind] at h ⊢ <;> cases h
  | inst tag => rfl
  | value leaf => cases h

theorem isPlace_of_enter {location inner : Location} {segment : String}
    (h : location.enter segment = some inner) : inner.isPlace := by
  unfold enter at h
  cases location with
  | node n =>
    cases hkind : n.kind <;> simp only [hkind] at h
    case container =>
      obtain ⟨child,-,rfl⟩ := Option.map_eq_some_iff.mp h
      rfl
    case tag spec =>
      split at h
      · cases h
        rfl
      · cases h
    all_goals cases h
  | inst tag =>
    obtain ⟨child,-,rfl⟩ := Option.map_eq_some_iff.mp h
    rfl
  | value leaf => cases h

/-- A place for children holds no values. -/
theorem not_holds_of_isInner {location : Location} (h : location.isInner) (vs : List String) :
    ¬location.Holds vs := by
  unfold isInner at h
  unfold Holds
  cases location with
  | node n => cases hkind : n.kind <;> simp_all
  | inst tag => exact id
  | value leaf => exact id

end Location

namespace Node

mutual

/-- A node is one that the schema allows at a place, with everything below it. -/
def Fits (location : Location) : Node → Prop
  | ⟨_,.values vs⟩ => location.Holds vs
  | ⟨_,.interior cs⟩ => location.isInner ∧ FitsAll location cs
termination_by structural n => n

def FitsAll (location : Location) : List (String × Node) → Prop
  | [] => True
  | (name,n)::rest => (∃ inner, location.enter name = some inner ∧ n.Fits inner) ∧ FitsAll location rest
termination_by structural cs => cs

end

variable {location inner : Location} {c : Option String} {cs : List (String × Node)}

@[simp] theorem fits_values {vs : List String} :
    Fits location ⟨c,.values vs⟩ ↔ location.Holds vs := by rw [Fits]

theorem fits_interior : Fits location ⟨c,.interior cs⟩ ↔ location.isInner ∧
    ∀ e ∈ cs, ∃ inner, location.enter e.1 = some inner ∧ e.2.Fits inner := by
  have hall : FitsAll location cs ↔ ∀ e ∈ cs, ∃ inner, location.enter e.1 = some inner ∧ e.2.Fits inner := by
    induction cs with
    | nil => simp [FitsAll]
    | cons e cs ih => simp [FitsAll,ih]
  rw [Fits,hall]

theorem fits_newInterior (h : location.isInner) : newInterior.Fits location :=
  fits_interior.mpr ⟨h,by simp⟩

theorem fits_of_lookup {name : String} {n : Node} (h : Fits location ⟨c,.interior cs⟩)
    (hn : cs.lookup name = some n) : ∃ inner, location.enter name = some inner ∧ n.Fits inner := by
  exact (fits_interior.mp h).2 (name,n) (lookup_mem hn)

theorem fits_insertKey {name : String} {n : Node} (h : Fits location ⟨c,.interior cs⟩)
    (henter : location.enter name = some inner) (hn : n.Fits inner) :
    Fits location ⟨c,.interior (insertKey name n cs)⟩ := by
  obtain ⟨hinner,hall⟩ := fits_interior.mp h
  refine fits_interior.mpr ⟨hinner,fun e he => ?_⟩
  rcases mem_insertKey he with rfl | he
  · exact ⟨inner,henter,hn⟩
  · exact hall e he

theorem fits_eraseKey {name : String} (h : Fits location ⟨c,.interior cs⟩) :
    Fits location ⟨c,.interior (eraseKey name cs)⟩ := by
  obtain ⟨hinner,hall⟩ := fits_interior.mp h
  exact fits_interior.mpr ⟨hinner,fun e he => hall e (List.mem_filter.mp he).1⟩

/-- Every node of a tree that fits has a place. -/
theorem fits_of_get {path : Path} {n m : Node} (h : n.Fits location) (hm : n.get path = some m) :
    ∃ inner, path.foldlM Location.enter location = some inner ∧ m.Fits inner := by
  induction path generalizing location n with
  | nil =>
    cases hm
    exact ⟨location,rfl,h⟩
  | cons name path ih =>
    obtain ⟨c,cs | vs⟩ := n
    · obtain ⟨child,hchild,hm⟩ := Option.bind_eq_some_iff.mp hm
      obtain ⟨inner,henter,hfits⟩ := fits_of_lookup h hchild
      obtain ⟨last,hreach,hlast⟩ := ih hfits hm
      refine ⟨last,?_,hlast⟩
      rw [List.foldlM_cons,henter]
      exact hreach
    · cases hm

/-- Replacing a node by one that fits wherever it does. -/
theorem fits_put {path : Path} {n m m' : Node} (h : n.Fits location) (hm : n.get path = some m)
    (hput : ∀ inner, m.Fits inner → m'.Fits inner) : (put m' path n).Fits location := by
  induction path generalizing location n with
  | nil =>
    cases hm
    exact hput location h
  | cons name path ih =>
    obtain ⟨c,cs | vs⟩ := n
    · obtain ⟨child,hchild,hm⟩ := Option.bind_eq_some_iff.mp hm
      obtain ⟨inner,henter,hfits⟩ := fits_of_lookup h hchild
      rw [put,modify,hchild]
      exact fits_insertKey h henter (ih hfits hm)
    · cases hm

/-! ### Edits -/

/-- An edit of children that fits where a path leads can be made, and the tree fits after it. -/
theorem fits_parentOf {full walked path : Path} {n : Node}
    {edit : List (String × Node) → Except TreeError Unit × List (String × Node)}
    (hreach : path.foldlM Location.enter location = some inner) (hinner : inner.isInner)
    (h : n.Fits location)
    (hedit : ∀ c cs, Fits inner ⟨c,.interior cs⟩ →
      (edit cs).1 = .ok () ∧ Fits inner ⟨c,.interior (edit cs).2⟩) :
    (parentOf full edit walked path n).1 = .ok () ∧
      (parentOf full edit walked path n).2.Fits location := by
  induction path generalizing location n walked with
  | nil =>
    cases hreach
    obtain ⟨c,cs | vs⟩ := n
    · exact hedit c cs h
    · exact absurd (fits_values.mp h) (Location.not_holds_of_isInner hinner vs)
  | cons name path ih =>
    rw [List.foldlM_cons] at hreach
    obtain ⟨next,henter,hreach⟩ := Option.bind_eq_some_iff.mp hreach
    obtain ⟨c,cs | vs⟩ := n
    · have hchild : ((cs.lookup name).getD newInterior).Fits next := by
        cases hlookup : cs.lookup name with
        | some child =>
          obtain ⟨next',henter',hfits⟩ := fits_of_lookup h hlookup
          rw [henter] at henter'
          cases henter'
          exact hfits
        | none =>
          apply fits_newInterior
          cases path with
          | nil =>
            cases hreach
            exact hinner
          | cons name' path =>
            obtain ⟨_,henter',-⟩ := Option.bind_eq_some_iff.mp hreach
            exact Location.isInner_of_enter henter'
      rw [parentOf]
      exact ⟨(ih hreach hchild).1,fits_insertKey h henter (ih hreach hchild).2⟩
    · exact absurd (fits_values.mp h) (Location.not_holds_of_isInner (Location.isInner_of_enter henter) vs)

theorem fits_leafEntry {path : Path} {edit : List String → List String} {name : String}
    {leaf : Location} (henter : location.enter name = some leaf) (hleaf : leaf.isInner = false)
    (hedit : ∀ vs, vs = [] ∨ leaf.Holds vs → leaf.Holds (edit vs)) (h : Fits location ⟨c,.interior cs⟩) :
    (leafEntry path edit name cs).1 = .ok () ∧
      Fits location ⟨c,.interior (leafEntry path edit name cs).2⟩ := by
  unfold leafEntry
  cases hlookup : cs.lookup name with
  | none => exact ⟨rfl,fits_insertKey h henter (fits_values.mpr (hedit [] (.inl rfl)))⟩
  | some child =>
    obtain ⟨leaf',henter',hfits⟩ := fits_of_lookup h hlookup
    rw [henter] at henter'
    cases henter'
    obtain ⟨c',ds | vs⟩ := child
    · rw [(fits_interior.mp hfits).1] at hleaf
      cases hleaf
    · exact ⟨rfl,fits_insertKey h henter (fits_values.mpr (hedit vs (.inr (fits_values.mp hfits))))⟩

theorem fits_interiorEntry {path : Path} {name : String} (henter : location.enter name = some inner)
    (hinner : inner.isInner) (h : Fits location ⟨c,.interior cs⟩) :
    (interiorEntry path name cs).1 = .ok () ∧
      Fits location ⟨c,.interior (interiorEntry path name cs).2⟩ := by
  unfold interiorEntry
  cases hlookup : cs.lookup name with
  | none => exact ⟨rfl,fits_insertKey h henter (fits_newInterior hinner)⟩
  | some child =>
    obtain ⟨inner',henter',hfits⟩ := fits_of_lookup h hlookup
    rw [henter] at henter'
    cases henter'
    obtain ⟨c',ds | vs⟩ := child
    · exact ⟨rfl,h⟩
    · exact absurd (fits_values.mp hfits) (Location.not_holds_of_isInner hinner vs)

/-- A leaf that the schema has can be edited in a tree that fits. -/
theorem fits_editLeaf {path : Path} {edit : List String → List String} {leaf : Location} {n : Node}
    (hreach : path.foldlM Location.enter location = some leaf) (hlocation : location.isInner)
    (hleaf : leaf.isInner = false) (hedit : ∀ vs, vs = [] ∨ leaf.Holds vs → leaf.Holds (edit vs))
    (h : n.Fits location) : (editLeaf path edit n).1 = .ok () ∧ (editLeaf path edit n).2.Fits location := by
  obtain rfl | ⟨dir,name,rfl⟩ := List.eq_nil_or_concat path
  · cases hreach
    rw [hlocation] at hleaf
    cases hleaf
  · rw [List.concat_eq_append,List.foldlM_append] at hreach
    obtain ⟨inner,hdir,hname⟩ := Option.bind_eq_some_iff.mp hreach
    have henter : inner.enter name = some leaf := by simpa using hname
    rw [editLeaf,List.concat_eq_append,List.getLast?_concat,List.dropLast_concat]
    exact fits_parentOf hdir (Location.isInner_of_enter henter) h
      (fun c cs hcs => fits_leafEntry henter hleaf hedit hcs)

theorem fits_ensureInterior {path : Path} {n : Node}
    (hreach : path.foldlM Location.enter location = some inner) (hinner : inner.isInner)
    (h : n.Fits location) :
    (ensureInterior path n).1 = .ok () ∧ (ensureInterior path n).2.Fits location := by
  obtain rfl | ⟨dir,name,rfl⟩ := List.eq_nil_or_concat path
  · exact ⟨rfl,h⟩
  · rw [List.concat_eq_append,List.foldlM_append] at hreach
    obtain ⟨parent,hdir,hname⟩ := Option.bind_eq_some_iff.mp hreach
    have henter : parent.enter name = some inner := by simpa using hname
    rw [ensureInterior,List.concat_eq_append,List.getLast?_concat,List.dropLast_concat]
    exact fits_parentOf hdir (Location.isInner_of_enter henter) h
      (fun c cs hcs => fits_interiorEntry henter hinner hcs)

end Node
/-! ### Three walks down the schema -/

open Schema

theorem checkValues_eq_nil {at_ : Path} {spec : ValueSpec} {multi : Bool} {values : List String} :
    checkValues at_ spec multi values = [] ↔
      values ≠ [] ∧ (multi ∨ values.length = 1) ∧ ∀ v ∈ values, spec.check v = .ok () := by
  rw [checkValues,List.append_eq_nil_iff,List.flatMap_eq_nil_iff,← and_assoc]
  refine and_congr ?_ (forall₂_congr (fun v _ => ?_))
  · cases values with
    | nil => simp
    | cons v vs => cases multi <;> cases vs <;> simp
  · cases spec.check v <;> simp

theorem checkTypes_values {location : Location} {at_ : Path} {c : Option String} {vs : List String}
    (h : location.isPlace) : checkTypes location at_ ⟨c,.values vs⟩ = [] ↔ location.Holds vs := by
  cases location with
  | value leaf => cases h
  | inst tag => simp [checkTypes,Location.Holds]
  | node n =>
    rw [checkTypes,Location.Holds]
    cases hkind : n.kind with
    | container | tag spec => simp
    | multiLeaf spec => simp [checkValues_eq_nil]
    | flag => simp
    | leaf spec =>
      simp only [checkValues_eq_nil,Bool.false_eq_true,false_or,List.length_eq_one_iff]
      constructor
      · rintro ⟨-,⟨v,rfl⟩,hall⟩
        exact ⟨v,rfl,hall v (by simp)⟩
      · rintro ⟨v,rfl,hv⟩
        exact ⟨by simp,⟨v,rfl⟩,by simpa using hv⟩

theorem descend_eq_nil {n : SchemaNode} {at_ : Path} {cs : List (String × Node)} :
    descend n at_ cs = [] ↔ ∀ e ∈ cs, ∃ child, n.child e.1 = some child ∧
      checkTypes (.node child) (at_.child e.1) e.2 = [] := by
  induction cs with
  | nil => simp [descend]
  | cons e cs ih =>
    rw [descend,List.append_eq_nil_iff,ih,List.forall_mem_cons]
    refine and_congr_left' ?_
    cases n.child e.1 <;> simp

theorem checkInstances_eq_nil {n : SchemaNode} {spec : ValueSpec} {at_ : Path}
    {cs : List (String × Node)} : checkInstances n spec at_ cs = [] ↔
      ∀ e ∈ cs, spec.check e.1 = .ok () ∧ checkTypes (.inst n) (at_.child e.1) e.2 = [] := by
  induction cs with
  | nil => simp [checkInstances]
  | cons e cs ih =>
    rw [checkInstances,List.append_eq_nil_iff,ih,List.forall_mem_cons]
    refine and_congr_left' ?_
    cases spec.check e.1 <;> simp

theorem checkTypes_interior {location : Location} {at_ : Path} {c : Option String}
    {cs : List (String × Node)} (h : location.isPlace) :
    checkTypes location at_ ⟨c,.interior cs⟩ = [] ↔ location.isInner ∧ ∀ e ∈ cs,
      ∃ inner, location.enter e.1 = some inner ∧ checkTypes inner (at_.child e.1) e.2 = [] := by
  cases location with
  | value leaf => cases h
  | inst tag => simp [checkTypes,Location.isInner,Location.enter,descend_eq_nil]
  | node n =>
    rw [checkTypes]
    cases hkind : n.kind with
    | container => simp [descend_eq_nil,Location.isInner,Location.enter,hkind]
    | tag spec =>
      simp only [checkInstances_eq_nil,Location.isInner,Location.enter,hkind,true_and]
      refine forall₂_congr (fun e _ => ?_)
      cases spec.check e.1 <;> simp
    | leaf spec | multiLeaf spec | flag => simp [Location.isInner,hkind]

/-- A tree is found clean exactly when it fits. -/
theorem checkTypes_eq_nil (n : Node) {location : Location} {at_ : Path} (h : location.isPlace) :
    checkTypes location at_ n = [] ↔ n.Fits location := by
  induction n using Node.induct generalizing location at_ with
  | values c vs => rw [checkTypes_values h,Node.fits_values]
  | interior c cs ih =>
    rw [checkTypes_interior h,Node.fits_interior]
    refine and_congr_right' (forall₂_congr (fun e he => exists_congr (fun inner => ?_)))
    exact and_congr_right (fun henter => ih e he (Location.isPlace_of_enter henter))

/-- The check of a path enters what it names. -/
theorem walk_eq_ok {location last : Location} {walked path : Path} :
    walk location walked path = .ok last ↔ path.foldlM Location.enter location = some last := by
  induction path generalizing location walked with
  | nil => simp [walk]
  | cons name path ih =>
    rw [List.foldlM_cons]
    cases location with
    | node n =>
      cases hkind : n.kind with
      | container => cases hchild : n.child name <;> simp [walk,Location.enter,hkind,hchild,ih]
      | tag spec => cases hcheck : spec.check name <;> simp [walk,Location.enter,hkind,hcheck,ih]
      | leaf spec | multiLeaf spec | flag => simp [walk,Location.enter,hkind]
    | inst tag => cases hchild : tag.child name <;> simp [walk,Location.enter,hchild,ih]
    | value leaf => simp [walk,Location.enter]

theorem next_of_enters {location last : Location} {path : Path}
    (h : path.foldlM Location.enter location = some last) :
    path.foldlM Location.next location = some last := by
  induction path generalizing location with
  | nil => exact h
  | cons name path ih =>
    rw [List.foldlM_cons] at h ⊢
    obtain ⟨inner,henter,hrest⟩ := Option.bind_eq_some_iff.mp h
    rw [Location.next_of_enter henter]
    exact ih hrest

theorem walk_not_rejected {location : Location} {walked path p : Path} {message : String} :
    walk location walked path ≠ .error (.rejected p message) := by
  induction path generalizing location walked with
  | nil => simp [walk]
  | cons name path ih =>
    cases location with
    | node n =>
      cases hkind : n.kind with
      | container => cases hchild : n.child name <;> simp [walk,hkind,hchild,ih]
      | tag spec => cases hcheck : spec.check name <;> simp [walk,hkind,hcheck,ih]
      | leaf spec | multiLeaf spec | flag => simp [walk,hkind]
    | inst tag => cases hchild : tag.child name <;> simp [walk,hchild,ih]
    | value leaf => simp [walk]

/-! ### Setting -/

/-- What a `set` that the schema accepts is about. -/
inductive Settable (schema : Schema) (path : Path) : Option String → Prop where
  | leaf {n : SchemaNode} {spec : ValueSpec} {value : String}
    (reach : path.foldlM Location.enter (.node schema.root) = some (.node n))
    (kind : n.kind = .leaf spec) (ok : spec.check value = .ok ()) : Settable schema path (some value)
  | multiLeaf {n : SchemaNode} {spec : ValueSpec} {value : String}
    (reach : path.foldlM Location.enter (.node schema.root) = some (.node n))
    (kind : n.kind = .multiLeaf spec) (ok : spec.check value = .ok ()) :
    Settable schema path (some value)
  | flag {n : SchemaNode} (reach : path.foldlM Location.enter (.node schema.root) = some (.node n))
    (kind : n.kind = .flag) : Settable schema path none
  | inst {n : SchemaNode} (reach : path.foldlM Location.enter (.node schema.root) = some (.inst n)) :
    Settable schema path none

theorem settable_of_validateSet {schema : Schema} {path : Path} {value : Option String}
    (h : schema.validateSet path value = .ok ()) : Settable schema path value := by
  unfold validateSet at h
  split at h
  · cases h
  · next location hwalk =>
    have hreach := walk_eq_ok.mp hwalk
    split at h
    · next n value =>
      split at h
      · next spec hkind =>
        refine .leaf hreach hkind ?_
        cases hcheck : spec.check value <;> simp_all [Except.mapError]
      · next spec hkind =>
        refine .multiLeaf hreach hkind ?_
        cases hcheck : spec.check value <;> simp_all [Except.mapError]
      all_goals cases h
    · next n =>
      split at h
      · next hkind => exact .flag hreach hkind
      all_goals cases h
    · next n => exact .inst hreach
    all_goals cases h

theorem validateSet_not_rejected {schema : Schema} {path p : Path} {value : Option String}
    {message : String} : schema.validateSet path value ≠ .error (.rejected p message) := by
  have hbad : ∀ r : Except ValueError Unit,
      r.mapError (SetError.badValue path) ≠ .error (.rejected p message) := by
    intro r
    cases r <;> simp [Except.mapError]
  unfold validateSet
  split
  · next e hwalk =>
    intro he
    cases he
    exact walk_not_rejected hwalk
  · split
    · split
      · exact hbad _
      · exact hbad _
      all_goals simp
    · split <;> simp
    all_goals simp

theorem mapError_eq_ok {ε ε' : Type} {f : ε → ε'} {r : Except ε Unit} (h : r = .ok ()) :
    r.mapError f = .ok () := by
  rw [h]
  rfl

/-- What the schema accepts can be written into a clean tree, which stays clean. -/
theorem applySet_fits {schema : Schema} {tree : ConfigTree} {path : Path} {value : Option String}
    (hroot : (Location.node schema.root).isInner) (h : tree.root.Fits (.node schema.root))
    (hset : schema.validateSet path value = .ok ()) :
    (schema.applySet tree path value).1 = .ok () ∧
      (schema.applySet tree path value).2.root.Fits (.node schema.root) := by
  have hsettable := settable_of_validateSet hset
  unfold applySet
  simp only [hset]
  cases hsettable with
  | @leaf n spec value hreach hkind hcheck =>
    have hresolve : schema.resolve path = some (.node n) := next_of_enters hreach
    have hmulti : schema.isMultiLeaf path = false := by rw [isMultiLeaf,hresolve]; simp [hkind]
    have hholds : ∀ vs, vs = [] ∨ (Location.node n).Holds vs →
        (Location.node n).Holds ((fun _ => [value]) vs) := by simp [Location.Holds,hkind,hcheck]
    have hedit := Node.fits_editLeaf hreach hroot (by simp [Location.isInner,hkind]) hholds h
    simp only [hmulti,Bool.false_eq_true,if_false]
    exact ⟨mapError_eq_ok hedit.1,hedit.2⟩
  | @multiLeaf n spec value hreach hkind hcheck =>
    have hresolve : schema.resolve path = some (.node n) := next_of_enters hreach
    have hmulti : schema.isMultiLeaf path = true := by rw [isMultiLeaf,hresolve]; simp [hkind]
    have hholds : ∀ vs, vs = [] ∨ (Location.node n).Holds vs →
        (Location.node n).Holds (insertElem value vs) := by
      intro vs hvs
      have hall : ∀ v ∈ vs, spec.check v = .ok () := by
        rcases hvs with rfl | hvs
        · simp
        · simp only [Location.Holds,hkind] at hvs
          exact hvs.2
      simp only [Location.Holds,hkind]
      refine ⟨List.ne_nil_of_mem (mem_insertElem.mpr (.inl rfl)),fun v hv => ?_⟩
      rcases mem_insertElem.mp hv with rfl | hv
      · exact hcheck
      · exact hall v hv
    have hedit := Node.fits_editLeaf hreach hroot (by simp [Location.isInner,hkind]) hholds h
    simp only [hmulti,if_true]
    exact ⟨mapError_eq_ok hedit.1,hedit.2⟩
  | @flag n hreach hkind =>
    have hresolve : schema.resolve path = some (.node n) := next_of_enters hreach
    have hholds : ∀ vs, vs = [] ∨ (Location.node n).Holds vs →
        (Location.node n).Holds ((fun _ => []) vs) := by simp [Location.Holds,hkind]
    have hedit := Node.fits_editLeaf hreach hroot (by simp [Location.isInner,hkind]) hholds h
    simp only [hresolve]
    exact ⟨mapError_eq_ok hedit.1,hedit.2⟩
  | @inst n hreach =>
    have hresolve : schema.resolve path = some (.inst n) := next_of_enters hreach
    have hensure := Node.fits_ensureInterior hreach rfl h
    simp only [hresolve]
    exact ⟨mapError_eq_ok hensure.1,hensure.2⟩

/-! ### Deleting -/

namespace Node

variable {location : Location}

theorem get_concat {dir : Path} {name : String} {n m : Node} :
    n.get (dir ++ [name]) = some m ↔
      ∃ c cs, n.get dir = some ⟨c,.interior cs⟩ ∧ cs.lookup name = some m := by
  rw [get_append,Option.bind_eq_some_iff]
  constructor
  · rintro ⟨⟨c,cs | vs⟩,hdir,hm⟩
    · exact ⟨c,cs,hdir,by simpa [get] using hm⟩
    · cases hm
  · rintro ⟨c,cs,hdir,hm⟩
    exact ⟨_,hdir,by simp [get,hm]⟩

/-- Removing a child of a node that is there. -/
theorem remove_child {dir : Path} (name : String) {n : Node} {c : Option String}
    {cs : List (String × Node)} (h : n.get dir = some ⟨c,.interior cs⟩) :
    remove (dir ++ [name]) n = ((cs.lookup name).isSome,put ⟨c,.interior (eraseKey name cs)⟩ dir n) := by
  rw [remove,List.getLast?_concat,List.dropLast_concat,h]
  simp only [Option.bind_some,children]
  exact Prod.ext rfl (modify_congr h rfl)

theorem fits_remove {path : Path} {n : Node} (hroot : location.isInner) (h : n.Fits location) :
    (remove path n).2.Fits location := by
  obtain rfl | ⟨dir,name,rfl⟩ := List.eq_nil_or_concat path
  · exact fits_newInterior hroot
  · rw [List.concat_eq_append]
    cases hdir : n.get dir with
    | none =>
      rw [remove,List.getLast?_concat,List.dropLast_concat,hdir]
      exact h
    | some m =>
      obtain ⟨c,cs | vs⟩ := m
      · rw [remove_child name hdir]
        exact fits_put h hdir (fun _ hm => fits_eraseKey hm)
      · rw [remove,List.getLast?_concat,List.dropLast_concat,hdir]
        exact h

/-- What was not there to be removed leaves everything as it is. -/
theorem remove_unchanged {path : Path} {n : Node} (hord : n.Ordered) (h : (remove path n).1 = false) :
    (remove path n).2 = n := by
  obtain rfl | ⟨dir,name,rfl⟩ := List.eq_nil_or_concat path
  · cases h
  · rw [List.concat_eq_append] at h ⊢
    cases hdir : n.get dir with
    | none => rw [remove,List.getLast?_concat,List.dropLast_concat,hdir]; rfl
    | some m =>
      obtain ⟨c,cs | vs⟩ := m
      · rw [remove_child name hdir] at h ⊢
        have hsame : eraseKey name cs = cs := by
          refine List.filter_eq_self.mpr (fun e he => ?_)
          have hnone : cs.lookup name = none := by simpa using h
          have hne : name ≠ e.1 := by simpa using List.lookup_eq_none_iff.mp hnone e he
          exact decide_eq_true hne.symm
        rw [hsame]
        exact put_self hord hdir
      · rw [remove,List.getLast?_concat,List.dropLast_concat,hdir]
        rfl

theorem holds_filter {vs : List String} {p : String → Bool} (h : location.Holds vs)
    (hne : vs.filter p ≠ []) : location.Holds (vs.filter p) := by
  unfold Location.Holds at h ⊢
  cases location with
  | node n =>
    cases hkind : n.kind <;> simp only [hkind] at h ⊢
    case leaf spec =>
      obtain ⟨v,rfl,hv⟩ := h
      refine ⟨v,?_,hv⟩
      by_cases hp : p v
      · exact List.filter_eq_self.mpr (by simpa using hp)
      · exact absurd (List.filter_eq_nil_iff.mpr (by simpa using hp)) hne
    case multiLeaf spec => exact ⟨hne,fun v hv => h.2 v (List.mem_filter.mp hv).1⟩
    case flag =>
      rw [h] at hne
      exact absurd List.filter_nil hne
  | inst tag => exact h
  | value leaf => exact h

theorem editLeaf_values (edit : List String → List String) {dir : Path} {name : String} {n : Node}
    {c c' : Option String} {cs : List (String × Node)} {vs : List String}
    (hdir : n.get dir = some ⟨c,.interior cs⟩) (hname : cs.lookup name = some ⟨c',.values vs⟩) :
    (editLeaf (dir ++ [name]) edit n).2 =
      put ⟨c,.interior (insertKey name ⟨c',.values (edit vs)⟩ cs)⟩ dir n := by
  rw [editLeaf_child edit name hdir,leafEntry,hname]

theorem fits_erase_insert {name : String} {m : Node} {c : Option String} {cs : List (String × Node)}
    (h : Fits location ⟨c,.interior cs⟩) :
    Fits location ⟨c,.interior (eraseKey name (insertKey name m cs))⟩ := by
  obtain ⟨hinner,hall⟩ := fits_interior.mp h
  refine fits_interior.mpr ⟨hinner,fun e he => ?_⟩
  obtain ⟨hmem,hne⟩ := List.mem_filter.mp he
  rcases mem_insertKey hmem with rfl | hmem
  · simp at hne
  · exact hall e hmem

end Node

/-- Taking a value away, with its leaf when it was the last one. -/
theorem removeValue_fits {tree : ConfigTree} {path : Path} {value : String} {location : Location}
    (h : tree.root.Fits location) : (tree.removeValue path value).2.root.Fits location := by
  unfold ConfigTree.removeValue
  split
  · exact h
  · next vs hvs =>
    obtain ⟨⟨c',ds | ws⟩,hget,hbody⟩ := Option.bind_eq_some_iff.mp hvs
    · cases hbody
    cases hbody
    obtain rfl | ⟨dir,name,rfl⟩ := List.eq_nil_or_concat path
    · have hroot := tree.interior
      rw [show tree.root = ⟨c',.values vs⟩ from Option.some_inj.mp hget] at hroot
      cases hroot
    rw [List.concat_eq_append] at hget ⊢
    obtain ⟨c,cs,hdir,hname⟩ := Node.get_concat.mp hget
    have hedit := Node.editLeaf_values (fun vs => vs.filter (· ≠ value)) hdir hname
    dsimp only
    split_ifs with hmem hempty
    · show (Node.remove (dir ++ [name]) (Node.editLeaf (dir ++ [name]) _ tree.root).2).2.Fits location
      rw [hedit,Node.remove_child name (Node.get_put hdir),Node.put_put]
      exact Node.fits_put h hdir (fun _ hm => Node.fits_erase_insert hm)
    · show (Node.editLeaf (dir ++ [name]) _ tree.root).2.Fits location
      rw [hedit]
      refine Node.fits_put h hdir (fun inner hm => ?_)
      obtain ⟨leaf,henter,hleaf⟩ := Node.fits_of_lookup hm hname
      exact Node.fits_insertKey hm henter (Node.fits_values.mpr (Node.holds_filter
        (Node.fits_values.mp hleaf) (by simpa using hempty)))
    · exact h

theorem removeValue_unchanged {tree : ConfigTree} {path : Path} {value : String}
    (h : (tree.removeValue path value).1 = false) : (tree.removeValue path value).2 = tree := by
  unfold ConfigTree.removeValue at h ⊢
  split
  · rfl
  · next vs hvs =>
    rw [hvs] at h
    dsimp only at h ⊢
    split_ifs at h ⊢
    rfl

/-- A deletion leaves a clean tree, and one that fails leaves the tree it was given. -/
theorem applyDelete_fits {schema : Schema} {tree : ConfigTree} {path : Path} {value : Option String}
    (hroot : (Location.node schema.root).isInner) (h : tree.root.Fits (.node schema.root)) :
    (schema.applyDelete tree path value).2.root.Fits (.node schema.root) ∧
      ((schema.applyDelete tree path value).1 ≠ .ok () → (schema.applyDelete tree path value).2 = tree) := by
  unfold applyDelete
  split_ifs
  · exact ⟨h,fun _ => rfl⟩
  · cases value with
    | some value =>
      refine ⟨removeValue_fits h,fun hfails => removeValue_unchanged ?_⟩
      by_contra hremoved
      simp [Bool.eq_true_of_not_eq_false hremoved] at hfails
    | none =>
      refine ⟨Node.fits_remove hroot h,fun hfails => ?_⟩
      apply ConfigTree.ext
      refine Node.remove_unchanged tree.ordered ?_
      by_contra hremoved
      exact hfails (if_pos (Bool.eq_true_of_not_eq_false hremoved))

/-! ### Any sequence of edits -/

inductive Edit where
  | set (path : Path) (value : Option String)
  | delete (path : Path) (value : Option String)

/-- How an edit ends, and the tree it leaves. -/
def Edit.apply (schema : Schema) (tree : ConfigTree) :
    Edit → Except (SetError ⊕ DeleteError) Unit × ConfigTree
  | .set path value =>
    ((schema.applySet tree path value).1.mapError .inl,(schema.applySet tree path value).2)
  | .delete path value =>
    ((schema.applyDelete tree path value).1.mapError .inr,(schema.applyDelete tree path value).2)

/-- A schema as it is loaded: its root groups the top-level nodes. -/
def Loaded (schema : Schema) : Prop := schema.root.kind = .container

theorem Loaded.isInner {schema : Schema} (h : Loaded schema) : (Location.node schema.root).isInner := by
  have hkind : schema.root.kind = .container := h
  simp [Location.isInner,hkind]

theorem validateTree_eq_nil {schema : Schema} {tree : ConfigTree} :
    schema.validateTree tree = [] ↔ tree.root.Fits (.node schema.root) :=
  checkTypes_eq_nil tree.root rfl

/-- What one edit does to a clean tree. -/
structure Edit.Sound (schema : Schema) (tree : ConfigTree) (edit : Edit) : Prop where
  clean : schema.validateTree (edit.apply schema tree).2 = []
  unchanged : (edit.apply schema tree).1 ≠ .ok () → (edit.apply schema tree).2 = tree
  written : ∀ path message, (edit.apply schema tree).1 ≠ .error (.inl (.rejected path message))

theorem edit_sound {schema : Schema} (hloaded : Loaded schema) {tree : ConfigTree}
    (h : schema.validateTree tree = []) (edit : Edit) : edit.Sound schema tree := by
  have hfits := validateTree_eq_nil.mp h
  cases edit with
  | set path value =>
    cases hset : schema.validateSet path value with
    | ok _ =>
      obtain ⟨hok,hclean⟩ := applySet_fits hloaded.isInner hfits hset
      refine ⟨validateTree_eq_nil.mpr hclean,fun hfails => ?_,fun p message => ?_⟩
      · exact absurd (mapError_eq_ok hok) hfails
      · rw [Edit.apply,mapError_eq_ok hok]
        simp
    | error e =>
      have hsame : schema.applySet tree path value = (.error e,tree) := by
        unfold applySet
        simp only [hset]
      refine ⟨?_,fun _ => ?_,fun p message => ?_⟩
      · rw [Edit.apply,hsame]
        exact h
      · rw [Edit.apply,hsame]
      · rw [Edit.apply,hsame]
        simp only [Except.mapError,ne_eq,Except.error.injEq,Sum.inl.injEq]
        rintro rfl
        exact validateSet_not_rejected hset
  | delete path value =>
    have hdelete : (schema.applyDelete tree path value).2.root.Fits (.node schema.root) ∧ _ :=
      applyDelete_fits hloaded.isInner hfits
    obtain ⟨hclean,hsame⟩ := hdelete
    refine ⟨validateTree_eq_nil.mpr hclean,fun hfails => hsame (fun hok => ?_),fun p message => ?_⟩
    · exact hfails (mapError_eq_ok hok)
    · rw [Edit.apply]
      cases (schema.applyDelete tree path value).1 <;> simp [Except.mapError]

/-- Under a schema as it is loaded, whatever is set and deleted in a clean tree leaves it clean: an
edit that fails leaves the tree it was given, and what the schema accepts can always be written. -/
theorem edits_sound {schema : Schema} (hloaded : Loaded schema) {tree : ConfigTree}
    (h : schema.validateTree tree = []) (edits : List Edit) :
    schema.validateTree (edits.foldl (fun tree edit => (edit.apply schema tree).2) tree) = [] ∧
    Along (fun tree edit => (edit.apply schema tree).2) (fun tree edit => edit.Sound schema tree) tree
      edits := by
  induction edits generalizing tree with
  | nil => exact ⟨h,trivial⟩
  | cons edit edits ih =>
    have hsound := edit_sound hloaded h edit
    obtain ⟨hclean,halong⟩ := ih hsound.clean
    exact ⟨hclean,hsound,halong⟩

/-- Edits of the shipped schema, good and bad: an address set and taken away again, a name that is
none, an instance where a value was named, and nothing left to delete. -/
def sampleEdits : List Edit :=
  [.set ["interfaces","ethernet","eth0","address"] (some "dhcp"),
   .set ["system","host-name"] (some "not a name"),
   .set ["interfaces","ethernet","eth0"] (some "dhcp"),
   .delete ["interfaces","ethernet","eth0","address"] (some "dhcp"),
   .delete ["system","host-name"] none]

theorem sampleEdits_sound :
    (Shipped.schema []).validateTree (sampleEdits.foldl (fun tree edit =>
      (edit.apply (Shipped.schema []) tree).2) .new) = [] ∧
    Along (fun tree edit => (edit.apply (Shipped.schema []) tree).2)
      (fun tree edit => edit.Sound (Shipped.schema []) tree) .new sampleEdits :=
  edits_sound (show Loaded (Shipped.schema []) from rfl) (by decide) sampleEdits

end Nightshade.Schema
