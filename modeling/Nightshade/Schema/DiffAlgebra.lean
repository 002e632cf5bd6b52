import Mathlib
import Nightshade.Schema.DiffLemmas
import Nightshade.Schema.Gate

/-! A diff as a signed comparison. Read backwards it is the same diff with its signs turned, and
between clean configurations it is empty only where nothing but comments moved. -/
namespace Nightshade.Schema
open Foundation

/-- An addition for a removal, and the other way round. -/
def Op.flip : Op → Op
  | .remove => .add
  | .add => .remove

def Change.flip (c : Change) : Change := {c with op := c.op.flip}

@[simp] theorem Op.flip_flip (op : Op) : op.flip.flip = op := by cases op <;> rfl

@[simp] theorem Op.flip_ne (op : Op) : op.flip ≠ op := by cases op <;> simp [Op.flip]

@[simp] theorem Change.flip_flip (c : Change) : c.flip.flip = c := by simp [Change.flip]

/-- The order that a diff promises. -/
def inOrder (changes : List Change) : List Change := changes.insertionSort (fun a b => a.key ≤ b.key)

theorem Change.key_inj {c d : Change} (h : c.key = d.key) : c = d := by
  obtain ⟨p,op,v⟩ := c
  obtain ⟨q,op',w⟩ := d
  have hpath : p = q := congrArg (fun k => (ofLex k).1) h
  have hop := congrArg (fun k => (ofLex (ofLex k).2).1) h
  have hvalue : v = w := congrArg (fun k => (ofLex (ofLex k).2).2) h
  subst hpath hvalue
  cases op <;> cases op' <;> first | rfl | cases hop

/-- A configuration holds a value at a path. -/
def ConfigTree.Holds (tree : ConfigTree) (path : Path) (value : String) : Prop :=
  ∃ vs, tree.valuesAt path = some vs ∧ value ∈ vs

/-- The change a diff makes of a line: it came, or it went, and its node was not there all along. -/
def Reports (s t : ConfigTree) (c : Change) : Prop :=
  (match c.op with
   | .add => (c.path,c.value) ∈ t.lines ∧ (c.path,c.value) ∉ s.lines
   | .remove => (c.path,c.value) ∈ s.lines ∧ (c.path,c.value) ∉ t.lines) ∧
  (c.value = none → ¬survives s t c.path)

theorem mem_diff {s t : ConfigTree} {c : Change} : c ∈ diff s t ↔ Reports s t c := by
  obtain ⟨p,op,v⟩ := c
  unfold diff Reports
  rw [List.mem_insertionSort]
  simp only [List.mem_filter,List.mem_append,List.mem_map,decide_eq_true_eq,Bool.or_eq_true,
    Option.isSome_iff_ne_none,Bool.not_eq_true']
  have hseen : (v ≠ none ∨ survives s t p = false) ↔ (v = none → ¬survives s t p) := by
    cases v <;> simp
  rw [hseen]
  refine and_congr_left' ?_
  cases op with
  | add =>
    constructor
    · rintro (⟨l,hl,heq⟩ | ⟨l,-,heq⟩)
      · cases heq
        exact hl
      · cases heq
    · exact fun hl => .inl ⟨(p,v),hl,rfl⟩
  | remove =>
    constructor
    · rintro (⟨l,-,heq⟩ | ⟨l,hl,heq⟩)
      · cases heq
      · cases heq
        exact hl
    · exact fun hl => .inr ⟨(p,v),hl,rfl⟩

theorem survives_comm (s t : ConfigTree) (p : Path) : survives t s p = survives s t p :=
  Bool.and_comm _ _

theorem reports_flip {s t : ConfigTree} {c : Change} : Reports t s c.flip ↔ Reports s t c := by
  obtain ⟨p,op,v⟩ := c
  unfold Reports
  rw [survives_comm]
  cases op <;> rfl

/-! ### No line twice -/

namespace Node

theorem nodup_linesAll {at_ : Path} {cs : List (String × Node)} (hs : KeySorted cs)
    (hall : ∀ e ∈ cs, e.2.Ordered) (ih : ∀ e ∈ cs, ∀ at_ : Path, (e.2.lines at_).Nodup) :
    (linesAll at_ cs).Nodup := by
  induction cs with
  | nil => exact List.nodup_nil
  | cons e cs ihcs =>
    obtain ⟨hhead,htail⟩ := List.pairwise_cons.mp hs
    rw [linesAll]
    refine (ih e (by simp) _).append
      (ihcs htail (fun d hd => hall d (by simp [hd])) (fun d hd => ih d (by simp [hd]))) ?_
    -- A line of the first child goes on with the name of that child.
    intro l hl hl'
    obtain ⟨path,hpath,-⟩ := (mem_lines (hall e (by simp)) (by simp [Path.child]) l).mp hl
    obtain ⟨s,path',hpath',n,hn,-⟩ := (mem_linesAll at_ htail
      (fun d hd at_ hat l => mem_lines (hall d (by simp [hd])) hat l) l).mp hl'
    have hmem := (lookup_eq_some_iff_mem htail).mp hn
    have hlt : e.1 < s := hhead _ hmem
    rw [hpath] at hpath'
    have hname : e.1 = s := by simpa [Path.child] using (List.cons.inj (by simpa [Path.child] using hpath')).1
    exact absurd hname hlt.ne

theorem nodup_lines (n : Node) (h : n.Ordered) (at_ : Path) : (n.lines at_).Nodup := by
  induction n using Node.induct generalizing at_ with
  | values c vs =>
    rw [lines]
    split_ifs
    · simp
    · refine (ordered_values.mp h).nodup.map (fun v w hvw => ?_)
      simpa using hvw
  | interior c cs ih =>
    obtain ⟨hs,hall⟩ := ordered_interior.mp h
    rw [lines]
    split_ifs
    · simp
    · exact nodup_linesAll hs hall (fun e he at_ => ih e he (hall e he) at_)

end Node

theorem nodup_diff (s t : ConfigTree) : (diff s t).Nodup := by
  have hcome := (Node.nodup_lines t.root t.ordered Path.root).filter (fun l => decide (l ∉ s.lines))
  have hgone := (Node.nodup_lines s.root s.ordered Path.root).filter (fun l => decide (l ∉ t.lines))
  unfold diff
  rw [(List.perm_insertionSort _ _).nodup_iff]
  apply List.Nodup.filter
  refine (hcome.map ?_).append (hgone.map ?_) ?_
  · intro l m h
    simpa [Prod.ext_iff] using h
  · intro l m h
    simpa [Prod.ext_iff] using h
  · intro c hadd hremove
    obtain ⟨l,-,rfl⟩ := List.mem_map.mp hadd
    obtain ⟨m,-,hm⟩ := List.mem_map.mp hremove
    exact absurd (congrArg Change.op hm) (by simp)

theorem diff_pairwise (s t : ConfigTree) : (diff s t).Pairwise (fun a b => a.key ≤ b.key) :=
  List.pairwise_insertionSort _ _

/-- Read backwards, a diff is itself with its signs turned. -/
theorem diff_flip (s t : ConfigTree) : diff t s = inOrder ((diff s t).map Change.flip) := by
  have hinj : Function.Injective Change.flip := fun c d h => by
    rw [← c.flip_flip,h,d.flip_flip]
  have hperm : (diff t s).Perm (inOrder ((diff s t).map Change.flip)) := by
    refine List.Perm.trans ?_ (List.perm_insertionSort _ _).symm
    refine (List.perm_ext_iff_of_nodup (nodup_diff t s) ((nodup_diff s t).map hinj)).mpr (fun c => ?_)
    rw [mem_diff,List.mem_map]
    constructor
    · intro h
      exact ⟨c.flip,mem_diff.mpr (reports_flip.mpr h),c.flip_flip⟩
    · rintro ⟨d,hd,rfl⟩
      exact reports_flip.mpr (mem_diff.mp hd)
  refine hperm.eq_of_pairwise ?_ (diff_pairwise t s) (List.pairwise_insertionSort _ _)
  exact fun c d _ _ hcd hdc => Change.key_inj (le_antisymm hcd hdc)

/-! ### Up to comments -/

namespace Node

mutual

/-- A node without its comments. -/
def plain : Node → Node
  | ⟨_,.values vs⟩ => ⟨none,.values vs⟩
  | ⟨_,.interior cs⟩ => ⟨none,.interior (plainAll cs)⟩
termination_by structural n => n

def plainAll : List (String × Node) → List (String × Node)
  | [] => []
  | (name,n)::rest => (name,n.plain)::plainAll rest
termination_by structural cs => cs

end

theorem plainAll_eq_map (cs : List (String × Node)) :
    plainAll cs = cs.map (fun e => (e.1,e.2.plain)) := by
  induction cs with
  | nil => rfl
  | cons e cs ih => simp [plainAll,ih]

theorem bare_plain (n : Node) : n.plain.bare = n.bare := by
  induction n using Node.induct with
  | values c vs => rw [plain,bare,bare]
  | interior c cs ih =>
    have hall : bareAll (plainAll cs) = bareAll cs := by
      rw [bareAll_eq_map,bareAll_eq_map,plainAll_eq_map,List.map_map]
      refine List.map_congr_left (fun e he => ?_)
      simp [ih e he]
    have hempty : (plainAll cs).isEmpty = cs.isEmpty := by cases cs <;> rfl
    rw [plain,bare,bare,hall,hempty]

/-- Where the schema says which nodes are containers, nothing but comments is lost to sight. -/
theorem plain_eq_of_bare (n : Node) {m : Node} {location : Location} (hn : n.Fits location)
    (hm : m.Fits location) (h : n.bare = m.bare) : n.plain = m.plain := by
  induction n using Node.induct generalizing m location with
  | values c vs =>
    obtain ⟨d,ds | ws⟩ := m
    · exact absurd (fits_values.mp hn) (Location.not_holds_of_isInner (fits_interior.mp hm).1 vs)
    · rw [bare,bare] at h
      rw [plain,plain,h]
  | interior c cs ih =>
    obtain ⟨d,ds | ws⟩ := m
    · have hlists : bareAll cs = bareAll ds := by
        cases cs <;> cases ds <;> simp_all [bare,flag,bareAll]
      have hplain : ∀ (cs' ds' : List (String × Node)), (∀ e ∈ cs', e ∈ cs) → (∀ e ∈ ds', e ∈ ds) →
          bareAll cs' = bareAll ds' → plainAll cs' = plainAll ds' := by
        intro cs'
        induction cs' with
        | nil =>
          intro ds' _ _ heq
          cases ds' with
          | nil => rfl
          | cons e ds' => cases heq
        | cons e cs' ihcs =>
          intro ds' hcs' hds' heq
          cases ds' with
          | nil => cases heq
          | cons e' ds' =>
            obtain ⟨name,k⟩ := e
            obtain ⟨name',k'⟩ := e'
            simp only [bareAll,List.cons.injEq,Prod.mk.injEq] at heq
            obtain ⟨⟨rfl,hk⟩,hrest⟩ := heq
            obtain ⟨inner,henter,hfits⟩ := (fits_interior.mp hn).2 (name,k) (hcs' _ (by simp))
            obtain ⟨inner',henter',hfits'⟩ := (fits_interior.mp hm).2 (name,k') (hds' _ (by simp))
            rw [henter] at henter'
            cases henter'
            have hchild : k.plain = k'.plain := ih (name,k) (hcs' _ (by simp)) hfits hfits' hk
            rw [plainAll,plainAll,hchild,ihcs ds' (fun e he => hcs' e (by simp [he]))
              (fun e he => hds' e (by simp [he])) hrest]
      rw [plain,plain,hplain cs ds (fun _ => id) (fun _ => id) hlists]
    · exact absurd (fits_values.mp hm) (Location.not_holds_of_isInner (fits_interior.mp hn).1 ws)

end Node

/-- Two configurations are the same but for their comments. -/
def SameButComments (s t : ConfigTree) : Prop := s.root.plain = t.root.plain

theorem bare_eq_iff {schema : Schema} {s t : ConfigTree} (hs : schema.validateTree s = [])
    (ht : schema.validateTree t = []) : s.bare = t.bare ↔ SameButComments s t := by
  have hfits := validateTree_eq_nil.mp hs
  have hfits' := validateTree_eq_nil.mp ht
  obtain ⟨⟨c,cs | vs⟩,hsi,hso⟩ := s
  · obtain ⟨⟨d,ds | ws⟩,hti,hto⟩ := t
    · constructor
      · intro h
        refine Node.plain_eq_of_bare _ hfits hfits' ?_
        have hlists : Node.bareAll cs = Node.bareAll ds := h
        have hempty : cs.isEmpty = ds.isEmpty := by
          cases cs <;> cases ds <;> simp_all [Node.bareAll]
        rw [Node.bare,Node.bare,hlists,hempty]
      · intro h
        have hbare : Node.bare ⟨c,.interior cs⟩ = Node.bare ⟨d,.interior ds⟩ := by
          rw [← Node.bare_plain,← Node.bare_plain ⟨d,.interior ds⟩]
          exact congrArg Node.bare h
        show Node.bareAll cs = Node.bareAll ds
        cases cs <;> cases ds <;> simp_all [Node.bare,Node.flag,Node.bareAll]
    · cases hti
  · cases hsi

theorem holds_iff_line {tree : ConfigTree} {path : Path} {value : String} :
    (path,some value) ∈ tree.lines ↔ tree.Holds path value := by
  rw [Node.mem_lines_root]
  unfold Node.HasLine Node.Ends ConfigTree.Holds ConfigTree.valuesAt ConfigTree.get
  constructor
  · rintro ⟨-,⟨c,cs | vs⟩,hget,hends⟩
    · simp at hends
    · exact ⟨vs,by simp [hget,Node.valueSet],by simpa using hends⟩
  · rintro ⟨vs,hvalues,hmem⟩
    obtain ⟨⟨c,cs | ws⟩,hget,hset⟩ := Option.bind_eq_some_iff.mp hvalues
    · cases hset
    · cases hset
      refine ⟨?_,_,hget,.inr ⟨value,hmem,rfl⟩⟩
      rintro rfl
      have hroot := tree.interior
      rw [show tree.root = ⟨c,.values vs⟩ from Option.some_inj.mp hget] at hroot
      cases hroot

/-- What a diff says of two configurations. -/
structure Faithful (s t : ConfigTree) (changes : List Change) : Prop where
  once : changes.Nodup
  consistent : ∀ c ∈ changes, c.flip ∉ changes
  added : ∀ path value, ⟨path,.add,some value⟩ ∈ changes → t.Holds path value ∧ ¬s.Holds path value
  removed : ∀ path value, ⟨path,.remove,some value⟩ ∈ changes →
    s.Holds path value ∧ ¬t.Holds path value

/-- A diff says everything once and nothing that is not so, is turned around with its
configurations, and is empty between clean configurations only where nothing but comments moved. -/
theorem diff_faithful (s t : ConfigTree) :
    Faithful s t (diff s t) ∧ diff t s = inOrder ((diff s t).map Change.flip) ∧
    ∀ schema : Schema, schema.validateTree s = [] → schema.validateTree t = [] →
      (diff s t = [] ↔ SameButComments s t) := by
  refine ⟨⟨nodup_diff s t,?_,?_,?_⟩,diff_flip s t,?_⟩
  · intro c hc hflip
    obtain ⟨hsign,-⟩ := mem_diff.mp hc
    obtain ⟨hsign',-⟩ := mem_diff.mp hflip
    obtain ⟨p,op,v⟩ := c
    cases op with
    | add => exact hsign.2 hsign'.1
    | remove => exact hsign.2 hsign'.1
  · intro path value hc
    obtain ⟨hsign,-⟩ := mem_diff.mp hc
    exact ⟨holds_iff_line.mp hsign.1,mt holds_iff_line.mpr hsign.2⟩
  · intro path value hc
    obtain ⟨hsign,-⟩ := mem_diff.mp hc
    exact ⟨holds_iff_line.mp hsign.1,mt holds_iff_line.mpr hsign.2⟩
  · intro schema hs ht
    rw [diff_eq_nil_iff,bare_eq_iff hs ht]

end Nightshade.Schema
