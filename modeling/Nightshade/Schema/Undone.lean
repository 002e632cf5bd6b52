import Mathlib
import Nightshade.Schema.Emptied

/-! Setting something and deleting it again. What was set is gone afterwards; the nodes that were
made to hold it stay, and the last of them is a line of its own. -/
namespace Nightshade.Schema
open Foundation

namespace Node
variable {full w dir path : Path} {name value : String} {n m : Node} {c : Option String}
  {cs : List (String × Node)}
  {edit : List (String × Node) → Except TreeError Unit × List (String × Node)}

/-- Interior nodes made down to a path. -/
def made : Path → Node → Node
  | [], n => n
  | _::_, ⟨c,.values vs⟩ => ⟨c,.values vs⟩
  | s::rest, ⟨c,.interior cs⟩ =>
    ⟨c,.interior (insertKey s (made rest ((cs.lookup s).getD newInterior)) cs)⟩

/-- There is nothing at a path, or a node made for the purpose. -/
def Unmade (dir : Path) (n : Node) : Prop := (n.get dir).getD newInterior = newInterior

theorem unmade_newInterior (dir : Path) : newInterior.Unmade dir := by
  cases dir <;> simp [Unmade,newInterior,get]

theorem Unmade.below {s : String} (h : Unmade (s::dir) ⟨c,.interior cs⟩) :
    ((cs.lookup s).getD newInterior).Unmade dir := by
  unfold Unmade at h
  rw [get] at h
  cases hl : cs.lookup s with
  | none => exact unmade_newInterior dir
  | some k => simpa [Unmade,hl] using h

/-- An edit below a node that has to be made starts from nothing. -/
theorem get_parentOf (hun : n.Unmade dir) (hok : (parentOf full edit w dir n).1 = .ok ()) :
    (parentOf full edit w dir n).2.get dir = some ⟨none,.interior (edit []).2⟩ ∧
    put newInterior dir (parentOf full edit w dir n).2 = made dir n := by
  induction dir generalizing n w with
  | nil =>
    have hn : n = newInterior := hun
    subst hn
    exact ⟨rfl,rfl⟩
  | cons s rest ih =>
    obtain ⟨c,cs | vs⟩ := n
    · rw [parentOf] at hok
      obtain ⟨hget,hput⟩ := ih hun.below hok
      constructor
      · rw [parentOf,get,lookup_insertKey_self]
        exact hget
      · rw [put] at hput ⊢
        rw [parentOf,modify,lookup_insertKey_self]
        simp only [hput,insertKey_insertKey]
        rw [made]
    · cases hok

theorem isInterior_made (h : (n.get path).any isInterior) :
    ((made dir n).get path).any isInterior := by
  induction dir generalizing n path with
  | nil => exact h
  | cons s rest ih =>
    obtain ⟨c,cs | vs⟩ := n
    · cases path with
      | nil => rfl
      | cons s' path =>
        rw [made,get]
        by_cases hs : s' = s
        · subst hs
          rw [get] at h
          cases hl : cs.lookup s' with
          | none => simp [hl] at h
          | some k =>
            rw [hl] at h
            rw [lookup_insertKey_self]
            exact ih h
        · rw [lookup_insertKey_of_ne hs]
          exact h
    · exact h

/-- All that is to be seen of nodes made from nothing is the last of them. -/
theorem hasLine_made_newInterior {value : Option String} :
    (made dir newInterior).HasLine path value ↔ path = dir ∧ value = none := by
  induction dir generalizing path with
  | nil =>
    cases path with
    | nil => rw [made,hasLine_nil]; simp [Ends,newInterior]
    | cons s path => simp [made,newInterior,hasLine_cons_interior]
  | cons s rest ih =>
    rw [newInterior,made]
    cases path with
    | nil => rw [hasLine_nil]; simp [Ends,insertKey]
    | cons s' path =>
      rw [hasLine_cons_interior]
      by_cases hs : s' = s
      · subst hs
        simp only [lookup_insertKey_self,Option.some.injEq,exists_eq_left',List.lookup_nil,
          Option.getD_none,ih,List.cons.injEq,true_and]
      · simp [lookup_insertKey_of_ne hs,hs]

/-- The lines of a tree in which nodes were made are its own and one for the last node made. -/
theorem hasLine_made {value : Option String} (hun : n.Unmade dir)
    (hget : (made dir n).get dir = some newInterior)
    (hseen : value = none → ¬(n.get path).any isInterior) :
    (made dir n).HasLine path value ↔ n.HasLine path value ∨ path = dir ∧ value = none := by
  induction dir generalizing n path with
  | nil =>
    have hn : n = newInterior := hun
    subst hn
    have hnil : newInterior.HasLine path value ↔ path = [] ∧ value = none := by
      rw [← hasLine_made_newInterior,made]
    rw [hnil,or_self]
    exact hasLine_made_newInterior
  | cons s rest ih =>
    obtain ⟨c,cs | vs⟩ := n
    · cases path with
      | nil =>
        have hvalue : value ≠ none := fun hnone => hseen hnone rfl
        rw [made,hasLine_nil,hasLine_nil]
        simp [Ends,hvalue]
      | cons s' path =>
        rw [made,hasLine_cons_interior,hasLine_cons_interior]
        by_cases hs : s' = s
        · subst hs
          have hbelow := hun.below
          rw [made,get,lookup_insertKey_self] at hget
          rw [get] at hseen
          cases hl : cs.lookup s' with
          | none => simp [hasLine_made_newInterior]
          | some k =>
            rw [hl] at hbelow hget hseen
            have hk := ih hbelow hget hseen
            simpa using hk
        · simp [lookup_insertKey_of_ne hs,hs]
    · cases hget

end Node

theorem eraseKey_insertKey (k : String) (n : Node) {cs : List (String × Node)} (hs : KeySorted cs) :
    eraseKey k (insertKey k n cs) = eraseKey k cs := by
  refine keySorted_ext (keySorted_eraseKey k (keySorted_insertKey k n hs)) (keySorted_eraseKey k hs)
    (fun j => ?_)
  rw [lookup_eraseKey,lookup_eraseKey]
  split_ifs with hj
  · rfl
  · exact lookup_insertKey_of_ne hj n cs

theorem eraseKey_of_absent {k : String} {cs : List (String × Node)} (hs : KeySorted cs)
    (h : cs.lookup k = none) : eraseKey k cs = cs := by
  refine keySorted_ext (keySorted_eraseKey k hs) hs (fun j => ?_)
  rw [lookup_eraseKey]
  split_ifs with hj
  · rw [hj,h]
  · rfl

theorem filter_insertElem {v : String} {vs : List String} (hs : vs.Pairwise (· < ·)) (h : v ∉ vs) :
    (insertElem v vs).filter (· ≠ v) = vs := by
  refine ((sorted_insertElem v hs).filter _).eq_of_mem_iff hs (fun x => ?_)
  rw [List.mem_filter,mem_insertElem,decide_eq_true_eq]
  constructor
  · rintro ⟨rfl | hx,hne⟩
    · exact absurd rfl hne
    · exact hx
  · intro hx
    refine ⟨.inr hx,?_⟩
    rintro rfl
    exact h hx

section Delete
open Schema
variable {schema : Schema} {t : ConfigTree} {dir : Path} {name v : String} {c c' : Option String}
  {cs : List (String × Node)} {vs : List String}

theorem ConfigTree.remove_root (hdir : t.get dir = some ⟨c,.interior cs⟩) :
    (t.remove (dir ++ [name])).1 = (cs.lookup name).isSome ∧
    (t.remove (dir ++ [name])).2.root = Node.put ⟨c,.interior (eraseKey name cs)⟩ dir t.root := by
  have hremove := Node.remove_child name hdir
  exact ⟨congrArg Prod.fst hremove,congrArg Prod.snd hremove⟩

/-- Taking a value out of a leaf, and the leaf with the last one. -/
theorem ConfigTree.removeValue_root (hdir : t.get dir = some ⟨c,.interior cs⟩)
    (hname : cs.lookup name = some ⟨c',.values vs⟩) (hv : v ∈ vs) :
    (t.removeValue (dir ++ [name]) v).1 = true ∧
    (t.removeValue (dir ++ [name]) v).2.root =
      if (vs.filter (· ≠ v)).isEmpty then Node.put ⟨c,.interior (eraseKey name cs)⟩ dir t.root
      else Node.put ⟨c,.interior (insertKey name ⟨c',.values (vs.filter (· ≠ v))⟩ cs)⟩ dir t.root := by
  have hvalues : t.valuesAt (dir ++ [name]) = some vs := by
    have hget : t.get (dir ++ [name]) = some ⟨c',.values vs⟩ := Node.get_concat.mpr ⟨c,cs,hdir,hname⟩
    rw [valuesAt,hget]
    rfl
  have hedit := Node.editLeaf_values (fun vs => vs.filter (· ≠ v)) hdir hname
  have hsorted := (Node.ordered_interior.mp (Node.ordered_get t.ordered hdir)).1
  unfold removeValue
  rw [hvalues]
  simp only [hv,if_true]
  split_ifs with hempty
  · refine ⟨rfl,?_⟩
    show (Node.remove (dir ++ [name]) (Node.editLeaf (dir ++ [name]) _ t.root).2).2 = _
    rw [hedit,Node.remove_child name (Node.get_put hdir),Node.put_put,eraseKey_insertKey name _ hsorted]
  · exact ⟨rfl,hedit⟩

/-- Among the children of a node, what a set would bring is not there yet. -/
def Absent (schema : Schema) (path : Path) (name : String) (value : Option String)
    (cs : List (String × Node)) : Prop :=
  cs.lookup name = none ∨ schema.isMultiLeaf path ∧
    ∃ v c vs, value = some v ∧ cs.lookup name = some ⟨c,.values vs⟩ ∧ vs ≠ [] ∧ v ∉ vs

/-- An edit of the children of a node that a deletion takes back. -/
def TakenBack (schema : Schema) (dir : Path) (name : String) (value : Option String)
    (edit : List (String × Node) → Except TreeError Unit × List (String × Node)) : Prop :=
  ∀ (t : ConfigTree) (c : Option String) (cs : List (String × Node)), Node.Ordered ⟨c,.interior cs⟩ →
    Absent schema (dir ++ [name]) name value cs → t.get dir = some ⟨c,.interior (edit cs).2⟩ →
    (schema.applyDelete t (dir ++ [name]) value).1 = .ok () ∧
    (schema.applyDelete t (dir ++ [name]) value).2.root = Node.put ⟨c,.interior cs⟩ dir t.root

/-- A node that was made goes with all that is in it. -/
theorem takenBack_node {edit : List (String × Node) → Except TreeError Unit × List (String × Node)}
    (hreach : (schema.resolve (dir ++ [name])).isSome) (m : Node)
    (hedit : ∀ cs : List (String × Node), cs.lookup name = none → (edit cs).2 = insertKey name m cs) :
    TakenBack schema dir name none edit := by
  intro t c cs hord habsent hdir
  have hsorted := (Node.ordered_interior.mp hord).1
  have hnone : cs.lookup name = none := by
    rcases habsent with h | ⟨-,v,c,vs,h,-⟩
    · exact h
    · cases h
  rw [hedit cs hnone] at hdir
  have hremove : (t.remove (dir ++ [name])).1 = _ ∧ (t.remove (dir ++ [name])).2.root = _ := ConfigTree.remove_root hdir
  obtain ⟨hremoved,hroot⟩ := hremove
  rw [lookup_insertKey_self] at hremoved
  rw [eraseKey_insertKey name m hsorted,eraseKey_of_absent hsorted hnone] at hroot
  unfold applyDelete
  rw [if_neg (by simpa using Option.isSome_iff_ne_none.mp hreach)]
  simp only [hremoved,Option.isSome_some,if_true]
  exact ⟨trivial,hroot⟩

/-- A value goes alone, or with its leaf when it was the only one. -/
theorem takenBack_value (hreach : (schema.resolve (dir ++ [name])).isSome)
    {edit : List String → List String} (hnew : edit [] = [v])
    (hmulti : schema.isMultiLeaf (dir ++ [name]) → edit = insertElem v) :
    TakenBack schema dir name (some v) (Node.leafEntry (dir ++ [name]) edit name) := by
  intro t c cs hord habsent hdir
  have hsorted := (Node.ordered_interior.mp hord).1
  unfold applyDelete
  rw [if_neg (by simpa using Option.isSome_iff_ne_none.mp hreach)]
  dsimp only
  rcases habsent with hnone | ⟨hleaf,w,c',vs,hw,hname,hne,hnotMem⟩
  · rw [Node.leafEntry,hnone] at hdir
    dsimp only at hdir
    rw [hnew] at hdir
    obtain ⟨hremoved,hroot⟩ := ConfigTree.removeValue_root hdir (lookup_insertKey_self name _ cs)
      (List.mem_singleton.mpr rfl)
    have hempty : ([v].filter (· ≠ v)).isEmpty = true := by simp
    rw [if_pos hempty,eraseKey_insertKey name _ hsorted,eraseKey_of_absent hsorted hnone] at hroot
    exact ⟨if_pos hremoved,hroot⟩
  · cases hw
    have hvs : vs.Pairwise (· < ·) := Node.ordered_values.mp (Node.ordered_of_lookup hord hname)
    rw [Node.leafEntry,hname,hmulti hleaf] at hdir
    obtain ⟨hremoved,hroot⟩ := ConfigTree.removeValue_root hdir (lookup_insertKey_self name _ cs)
      (mem_insertElem.mpr (.inl rfl))
    have hrest := filter_insertElem hvs hnotMem
    rw [hrest,if_neg (by simpa using hne),insertKey_insertKey,insertKey_lookup hsorted hname] at hroot
    exact ⟨if_pos hremoved,hroot⟩

end Delete

section Set
open Schema
variable {schema : Schema} {tree : ConfigTree} {dir : Path} {name : String} {value : Option String}

/-- What a set that the schema accepts does to the children of the node it is made in, and that a
deletion takes it back. -/
theorem exists_takenBack (hset : schema.validateSet (dir ++ [name]) value = .ok ()) :
    ∃ edit : List (String × Node) → Except TreeError Unit × List (String × Node),
      (∀ tree, (schema.applySet tree (dir ++ [name]) value).1 = .ok () →
        (Node.parentOf (dir ++ [name]) edit [] dir tree.root).1 = .ok ()) ∧
      (∀ tree, (schema.applySet tree (dir ++ [name]) value).2.root =
        (Node.parentOf (dir ++ [name]) edit [] dir tree.root).2) ∧
      TakenBack schema dir name value edit := by
  have hok : ∀ {r : Except TreeError Unit} {f : TreeError → SetError}, r.mapError f = .ok () →
      r = .ok () := by
    intro r f h
    cases r with
    | ok u => rfl
    | error e => cases h
  have hleaf : ∀ (tree : ConfigTree) (edit : List String → List String),
      Node.editLeaf (dir ++ [name]) edit tree.root =
        Node.parentOf (dir ++ [name]) (Node.leafEntry (dir ++ [name]) edit name) [] dir tree.root := by
    intro tree edit
    rw [Node.editLeaf,List.getLast?_concat,List.dropLast_concat]
  cases settable_of_validateSet hset with
  | @leaf n spec v hreach hkind hcheck =>
    have hresolve : schema.resolve (dir ++ [name]) = some (.node n) := next_of_enters hreach
    have hmulti : schema.isMultiLeaf (dir ++ [name]) = false := by rw [isMultiLeaf,hresolve]; simp [hkind]
    refine ⟨Node.leafEntry (dir ++ [name]) (fun _ => [v]) name,fun tree h => ?_,fun tree => ?_,?_⟩
    · simp only [applySet,hset,hmulti,Bool.false_eq_true,if_false] at h
      rw [← hleaf]
      exact hok h
    · simp only [applySet,hset,hmulti,Bool.false_eq_true,if_false]
      rw [← hleaf]
      rfl
    · exact takenBack_value (by simp [hresolve]) rfl (by simp [hmulti])
  | @multiLeaf n spec v hreach hkind hcheck =>
    have hresolve : schema.resolve (dir ++ [name]) = some (.node n) := next_of_enters hreach
    have hmulti : schema.isMultiLeaf (dir ++ [name]) = true := by rw [isMultiLeaf,hresolve]; simp [hkind]
    refine ⟨Node.leafEntry (dir ++ [name]) (insertElem v) name,fun tree h => ?_,fun tree => ?_,?_⟩
    · simp only [applySet,hset,hmulti,if_true] at h
      rw [← hleaf]
      exact hok h
    · simp only [applySet,hset,hmulti,if_true]
      rw [← hleaf]
      rfl
    · exact takenBack_value (by simp [hresolve]) rfl (fun _ => rfl)
  | @flag n hreach hkind =>
    have hresolve : schema.resolve (dir ++ [name]) = some (.node n) := next_of_enters hreach
    refine ⟨Node.leafEntry (dir ++ [name]) (fun _ => []) name,fun tree h => ?_,fun tree => ?_,?_⟩
    · simp only [applySet,hset,hresolve] at h
      rw [← hleaf]
      exact hok h
    · simp only [applySet,hset,hresolve]
      rw [← hleaf]
      rfl
    · refine takenBack_node (by simp [hresolve]) Node.flag (fun cs hnone => ?_)
      rw [Node.leafEntry,hnone]
      rfl
  | @inst n hreach =>
    have hresolve : schema.resolve (dir ++ [name]) = some (.inst n) := next_of_enters hreach
    have hensure : ∀ tree : ConfigTree, Node.ensureInterior (dir ++ [name]) tree.root =
        Node.parentOf (dir ++ [name]) (Node.interiorEntry (dir ++ [name]) name) [] dir tree.root := by
      intro tree
      rw [Node.ensureInterior,List.getLast?_concat,List.dropLast_concat]
    refine ⟨Node.interiorEntry (dir ++ [name]) name,fun tree h => ?_,fun tree => ?_,?_⟩
    · simp only [applySet,hset,hresolve] at h
      rw [← hensure]
      exact hok h
    · simp only [applySet,hset,hresolve]
      rw [← hensure]
      rfl
    · refine takenBack_node (by simp [hresolve]) Node.newInterior (fun cs hnone => ?_)
      rw [Node.interiorEntry,hnone]

/-- What a set would bring is not in a configuration yet: neither the node, nor, where a leaf takes
several values, this one among them. -/
def Lacks (schema : Schema) (tree : ConfigTree) (path : Path) (value : Option String) : Prop :=
  match value with
  | none => tree.get path = none
  | some v => if schema.isMultiLeaf path then ¬tree.Holds path v else tree.get path = none

/-- A path that names a tag instance on the way down another. -/
def InstanceOn (schema : Schema) (path p : Path) : Prop :=
  p <+: path ∧ ∃ tag, schema.resolve p = some (.inst tag)

/-- The configuration after something was set and deleted again. -/
def setAndDeleted (schema : Schema) (tree : ConfigTree) (path : Path) (value : Option String) :
    ConfigTree :=
  (schema.applyDelete (schema.applySet tree path value).2 path value).2

theorem absent_of_lacks {c : Option String} {cs : List (String × Node)}
    (hclean : schema.validateTree tree = []) (hlacks : Lacks schema tree (dir ++ [name]) value)
    (hdir : tree.get dir = some ⟨c,.interior cs⟩) : Absent schema (dir ++ [name]) name value cs := by
  have hlookup : tree.get (dir ++ [name]) = cs.lookup name := by
    have hroot : tree.root.get dir = some ⟨c,.interior cs⟩ := hdir
    rw [ConfigTree.get,Node.get_append,hroot]
    simp [Node.get]
  cases value with
  | none => exact .inl (hlookup.symm.trans hlacks)
  | some v =>
    simp only [Lacks] at hlacks
    by_cases hmulti : schema.isMultiLeaf (dir ++ [name])
    · rw [if_pos hmulti] at hlacks
      cases hname : cs.lookup name with
      | none => exact .inl hname
      | some k =>
        -- The schema has a leaf there, and a clean leaf of several values holds one.
        have hget : tree.get (dir ++ [name]) = some k := hlookup.trans hname
        obtain ⟨inner,hreach,hfits⟩ := Node.fits_of_get (validateTree_eq_nil.mp hclean) hget
        have hresolve : schema.resolve (dir ++ [name]) = some inner := next_of_enters hreach
        rw [isMultiLeaf,hresolve] at hmulti
        obtain n | n | spec := inner
        · cases hkind : n.kind with
          | multiLeaf spec =>
            obtain ⟨c',ds | vs⟩ := k
            · have hinner := (Node.fits_interior.mp hfits).1
              simp [Location.isInner,hkind] at hinner
            · have hholds := Node.fits_values.mp hfits
              simp only [Location.Holds,hkind] at hholds
              refine .inr ⟨by rw [isMultiLeaf,hresolve]; simp [hkind],v,c',vs,rfl,hname,hholds.1,
                fun hv => hlacks ⟨vs,?_,hv⟩⟩
              rw [ConfigTree.valuesAt,hget]
              rfl
          | _ => simp [hkind] at hmulti
        · cases hmulti
        · cases hmulti
    · rw [if_neg hmulti] at hlacks
      exact .inl (hlookup.symm.trans hlacks)

/-- Nodes made down to a path are reported by the last of them alone. -/
theorem mem_diff_made {after : ConfigTree} (hnone : tree.get dir = none)
    (hafter : after.root = Node.made dir tree.root) (hget : after.get dir = some Node.newInterior)
    (change : Change) : change ∈ diff tree after ↔ change = ⟨dir,.add,none⟩ := by
  obtain ⟨p,op,v⟩ := change
  have hroot : tree.root.get dir = none := hnone
  have hdir : dir ≠ [] := by
    rintro rfl
    cases hroot
  have hun : tree.root.Unmade dir := by simp [Node.Unmade,hroot]
  have hmade : (Node.made dir tree.root).get dir = some Node.newInterior := by
    rw [← hafter]
    exact hget
  have hnew : ∀ value, (dir,value) ∉ tree.lines := by
    intro value hline
    obtain ⟨-,m,hm,-⟩ := (Node.mem_lines_root _).mp hline
    rw [hroot] at hm
    cases hm
  have hlines : (v = none → ¬(tree.get p).any Node.isInterior) →
      ((p,v) ∈ after.lines ↔ (p,v) ∈ tree.lines ∨ p = dir ∧ v = none) := by
    intro hseen
    rw [Node.mem_lines_root,Node.mem_lines_root,hafter,Node.hasLine_made hun hmade hseen]
    constructor
    · rintro ⟨hne,hline | hlast⟩
      · exact .inl ⟨hne,hline⟩
      · exact .inr hlast
    · rintro (⟨hne,hline⟩ | ⟨rfl,hv⟩)
      · exact ⟨hne,.inl hline⟩
      · exact ⟨hdir,.inr ⟨rfl,hv⟩⟩
  rw [mem_diff]
  constructor
  · rintro ⟨hsign,hshown⟩
    -- What was interior still is, and so is not shown.
    have hseen : v = none → ¬(tree.get p).any Node.isInterior := by
      intro hv hinterior
      apply hshown hv
      rw [survives,Bool.and_eq_true]
      refine ⟨hinterior,?_⟩
      rw [ConfigTree.get,hafter]
      exact Node.isInterior_made hinterior
    cases op with
    | add =>
      obtain ⟨hcome,hno⟩ := hsign
      rcases (hlines hseen).mp hcome with hline | ⟨hp,hv⟩
      · exact absurd hline hno
      · rw [hp,hv]
    | remove => exact absurd ((hlines hseen).mpr (.inl hsign.1)) hsign.2
  · intro heq
    cases heq
    have hseen : (none : Option String) = none → ¬(tree.get dir).any Node.isInterior := by
      rw [hnone]
      simp
    refine ⟨⟨(hlines hseen).mpr (.inr ⟨rfl,rfl⟩),hnew none⟩,fun _ => ?_⟩
    rw [survives,hnone]
    simp

/-- What is set can be deleted, and only a node that had to be made to hold it is left to be seen. -/
theorem mem_diff_setAndDeleted (hclean : schema.validateTree tree = [])
    (hset : schema.validateSet (dir ++ [name]) value = .ok ())
    (hlacks : Lacks schema tree (dir ++ [name]) value) :
    (schema.applyDelete (schema.applySet tree (dir ++ [name]) value).2 (dir ++ [name]) value).1 = .ok () ∧
    ∀ change, change ∈ diff tree (setAndDeleted schema tree (dir ++ [name]) value) ↔
      tree.get dir = none ∧ change = ⟨dir,.add,none⟩ := by
  have hfits := validateTree_eq_nil.mp hclean
  have hinner : (Location.node schema.root).isInner := by
    obtain ⟨⟨c,cs | vs⟩,hi,ho⟩ := tree
    · exact (Node.fits_interior.mp hfits).1
    · cases hi
  obtain ⟨edit,hparent,hroot,htaken⟩ := exists_takenBack hset
  have hok := hparent tree (applySet_fits hinner hfits hset).1
  cases hdir : tree.get dir with
  | some m =>
    have happend := Node.parentOf_append (dir ++ [name]) edit [] [] hdir
    rw [List.append_nil] at happend
    obtain ⟨c,cs | vs⟩ := m
    · have hget : (schema.applySet tree (dir ++ [name]) value).2.get dir =
          some ⟨c,.interior (edit cs).2⟩ := by
        rw [ConfigTree.get,hroot,happend]
        exact Node.get_put hdir
      obtain ⟨hdeleted,hback⟩ := htaken _ c cs (Node.ordered_get tree.ordered hdir)
        (absent_of_lacks hclean hlacks hdir) hget
      have hsame : setAndDeleted schema tree (dir ++ [name]) value = tree := by
        apply ConfigTree.ext
        rw [setAndDeleted,hback,hroot,happend,Node.put_put]
        exact Node.put_self tree.ordered hdir
      refine ⟨hdeleted,fun change => ?_⟩
      rw [hsame,(diff_eq_nil_iff tree tree).mpr rfl]
      simp
    · rw [happend] at hok
      cases hok
  | none =>
    have hnone : tree.root.get dir = none := hdir
    obtain ⟨hget,hput⟩ := Node.get_parentOf (by simp [Node.Unmade,hnone]) hok
    rw [← hroot] at hget hput
    obtain ⟨hdeleted,hback⟩ := htaken _ none [] Node.ordered_newInterior (.inl rfl) hget
    have hafter : (setAndDeleted schema tree (dir ++ [name]) value).root = Node.made dir tree.root :=
      hback.trans hput
    refine ⟨hdeleted,fun change => ?_⟩
    rw [mem_diff_made hdir hafter]
    · simp
    · have hlast : (setAndDeleted schema tree (dir ++ [name]) value).root.get dir =
          some ⟨none,.interior []⟩ := by
        rw [setAndDeleted,hback]
        exact Node.get_put hget
      exact hlast

/-- A set that a deletion follows goes through, as does the deletion, and all that is reported of the
two are tag instances on the path exactly when the node they were made in was there before, or is a
tag instance itself. -/
theorem undone_iff (hclean : schema.validateTree tree = []) {path : Path}
    (hset : schema.validateSet path value = .ok ()) (hlacks : Lacks schema tree path value) :
    ((schema.applySet tree path value).1 = .ok () ∧
      (schema.applyDelete (schema.applySet tree path value).2 path value).1 = .ok () ∧
      ∀ change ∈ diff tree (setAndDeleted schema tree path value), InstanceOn schema path change.path) ↔
    tree.contains path.dropLast ∨ ∃ tag, schema.resolve path.dropLast = some (.inst tag) := by
  have hfits := validateTree_eq_nil.mp hclean
  have hinner : (Location.node schema.root).isInner := by
    obtain ⟨⟨c,cs | vs⟩,hi,ho⟩ := tree
    · exact (Node.fits_interior.mp hfits).1
    · cases hi
  have happlied := (applySet_fits hinner hfits hset).1
  obtain rfl | ⟨dir,name,rfl⟩ := List.eq_nil_or_concat path
  · -- The root takes no value and is no flag.
    exfalso
    cases settable_of_validateSet hset with
    | leaf hreach hkind _ => cases hreach; simp [Location.isInner,hkind] at hinner
    | multiLeaf hreach hkind _ => cases hreach; simp [Location.isInner,hkind] at hinner
    | flag hreach hkind => cases hreach; simp [Location.isInner,hkind] at hinner
    | inst hreach => cases hreach
  rw [List.concat_eq_append] at hset hlacks happlied ⊢
  obtain ⟨hdeleted,hdiff⟩ := mem_diff_setAndDeleted hclean hset hlacks
  rw [List.dropLast_concat]
  constructor
  · rintro ⟨-,-,hnamed⟩
    cases hdir : tree.get dir with
    | some m => exact .inl (by simp [ConfigTree.contains,hdir])
    | none => exact .inr (hnamed _ ((hdiff ⟨dir,.add,none⟩).mpr ⟨hdir,rfl⟩)).2
  · intro hthere
    refine ⟨happlied,hdeleted,fun change hchange => ?_⟩
    obtain ⟨hnone,rfl⟩ := (hdiff change).mp hchange
    rcases hthere with hcontains | hinstance
    · simp [ConfigTree.contains,hnone] at hcontains
    · exact ⟨List.prefix_append dir [name],hinstance⟩

/-- Whether a place is an instance. -/
def Location.isInst : Location → Bool
  | .inst _ => true
  | .node _ | .value _ => false

/-- A host name set and deleted again leaves an addition behind. -/
theorem hostName_leftover :
    (Shipped.schema []).validateTree .new = [] ∧
    (Shipped.schema []).validateSet ["system","host-name"] (some "edge") = .ok () ∧
    Lacks (Shipped.schema []) .new ["system","host-name"] (some "edge") ∧
    diff .new (setAndDeleted (Shipped.schema []) .new ["system","host-name"] (some "edge")) =
      [⟨["system"],.add,none⟩] ∧
    ¬InstanceOn (Shipped.schema []) ["system","host-name"] ["system"] := by
  refine ⟨by decide +kernel,by decide +kernel,?_,by decide +kernel,?_⟩
  · have hmulti : (Shipped.schema []).isMultiLeaf ["system","host-name"] = false := by decide +kernel
    simp only [Lacks,hmulti,Bool.false_eq_true,if_false]
    rfl
  · rintro ⟨-,tag,htag⟩
    have hgroup : ((Shipped.schema []).resolve ["system"]).any Location.isInst = false := by decide +kernel
    rw [htag] at hgroup
    cases hgroup

theorem mtu_undone_iff :
    let path : Path := ["interfaces","ethernet","eth0","mtu"]
    (((Shipped.schema []).applySet .new path (some "9000")).1 = .ok () ∧
      ((Shipped.schema []).applyDelete ((Shipped.schema []).applySet .new path (some "9000")).2 path
        (some "9000")).1 = .ok () ∧
      ∀ change ∈ diff .new (setAndDeleted (Shipped.schema []) .new path (some "9000")),
        InstanceOn (Shipped.schema []) path change.path) ↔
    ConfigTree.new.contains path.dropLast ∨
      ∃ tag, (Shipped.schema []).resolve path.dropLast = some (.inst tag) := by
  have hmulti : (Shipped.schema []).isMultiLeaf ["interfaces","ethernet","eth0","mtu"] = false := by
    decide +kernel
  refine undone_iff (by decide +kernel) (by decide +kernel) ?_
  simp only [Lacks,hmulti,Bool.false_eq_true,if_false]
  rfl

end Set

end Nightshade.Schema
