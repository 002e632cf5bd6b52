import Mathlib
import Nightshade.Schema.Config

/-! What an edit of the tree leaves as it was: all of it where the edit fails, and what stands at every other path
where it succeeds, but for the parents that it had to create. -/
namespace Nightshade.Schema
open Foundation

/-- What stands at a path itself: the comment, and the values where it is not interior. -/
abbrev Standing := Option (Option String × Option (List String))

/-- An interior node with no comment, as an edit creates it on its way. -/
def created : Standing := some (none,none)

namespace Node

def look (path : Path) (n : Node) : Standing := (n.get path).map (fun m => (m.comment,m.valueSet))

variable {c : Option String} {cs : List (String × Node)} {n : Node} {path full walked parents : Path} {name : String}
  {edit : List (String × Node) → Except TreeError Unit × List (String × Node)}

@[simp] theorem look_nil : n.look [] = some (n.comment,n.valueSet) := rfl

theorem look_cons (c : Option String) (cs : List (String × Node)) (s : String) (path : Path) :
    look (s::path) ⟨c,.interior cs⟩ = (cs.lookup s).bind (look path) := by
  rw [look,get]
  cases cs.lookup s <;> rfl

@[simp] theorem look_values (c : Option String) (vs : List String) (s : String) (path : Path) :
    look (s::path) ⟨c,.values vs⟩ = none := rfl

theorem look_newInterior (s : String) (path : Path) : newInterior.look (s::path) = none := rfl

/-- An edit among children that concerns the child of one name: it fails for nothing but what is there already. -/
structure Concerns (name : String)
    (edit : List (String × Node) → Except TreeError Unit × List (String × Node)) : Prop where
  fresh : (edit []).1 = .ok ()
  atomic : ∀ cs e, (edit cs).1 = .error e → (edit cs).2 = cs
  others : ∀ cs s, s ≠ name → (edit cs).2.lookup s = cs.lookup s
  below : ∀ cs path, path ≠ [] → ((edit cs).2.lookup name).bind (look path) = (cs.lookup name).bind (look path)

theorem concerns_interiorEntry (path : Path) (name : String) : Concerns name (interiorEntry path name) := by
  refine ⟨rfl,fun cs e h => ?_,fun cs s hs => ?_,fun cs q hq => ?_⟩
  · unfold interiorEntry at h ⊢
    cases hl : cs.lookup name with
    | none => simp [hl] at h
    | some m => rfl
  · unfold interiorEntry
    cases cs.lookup name with
    | none => exact lookup_insertKey_of_ne hs _ _
    | some m => rfl
  · obtain ⟨s,q,rfl⟩ := List.exists_cons_of_ne_nil hq
    unfold interiorEntry
    cases hl : cs.lookup name with
    | none => simp [look_newInterior]
    | some m => simp [hl]

theorem concerns_leafEntry (path : Path) (change : List String → List String) (name : String) :
    Concerns name (leafEntry path change name) := by
  refine ⟨rfl,fun cs e h => ?_,fun cs s hs => ?_,fun cs q hq => ?_⟩
  · unfold leafEntry at h ⊢
    split at h
    · rfl
    · cases h
    · cases h
  · unfold leafEntry
    split
    · rfl
    · exact lookup_insertKey_of_ne hs _ _
    · exact lookup_insertKey_of_ne hs _ _
  · obtain ⟨s,q,rfl⟩ := List.exists_cons_of_ne_nil hq
    unfold leafEntry
    split
    · rfl
    · next hl => simp [hl]
    · next hl => simp [hl]

/-- Below a node that was just created nothing is in the way. -/
theorem parentOf_newInterior (h : Concerns name edit) (walked parents : Path) :
    (parentOf full edit walked parents newInterior).1 = .ok () := by
  induction parents generalizing walked with
  | nil => exact h.fresh
  | cons s parents ih => exact ih (walked ++ [s])

theorem parentOf_atomic (h : Concerns name edit) (ho : n.Ordered) {e : TreeError}
    (hfail : (parentOf full edit walked parents n).1 = .error e) : (parentOf full edit walked parents n).2 = n := by
  induction parents generalizing n walked with
  | nil =>
    obtain ⟨c,cs | vs⟩ := n
    · simp only [parentOf] at hfail ⊢
      rw [h.atomic cs e hfail]
    · rfl
  | cons s parents ih =>
    obtain ⟨c,cs | vs⟩ := n
    · simp only [parentOf] at hfail ⊢
      cases hl : cs.lookup s with
      | none =>
        rw [hl,Option.getD_none,parentOf_newInterior h] at hfail
        cases hfail
      | some m =>
        rw [hl,Option.getD_some] at hfail
        rw [Option.getD_some,ih (ordered_of_lookup ho hl) hfail,insertKey_lookup (ordered_interior.mp ho).1 hl]
    · rfl

/-- At any path but its own an edit leaves what stands there, and creates the parents that are missing. -/
theorem look_parentOf (h : Concerns name edit) (hok : (parentOf full edit walked parents n).1 = .ok ()) {q : Path}
    (hq : q ≠ parents ++ [name]) : (parentOf full edit walked parents n).2.look q =
      if q <+: parents ++ [name] ∧ n.get q = none then created else n.look q := by
  induction parents generalizing n walked q with
  | nil =>
    obtain ⟨c,cs | vs⟩ := n
    · rw [if_neg ?_]
      · cases q with
        | nil => rfl
        | cons s q =>
          rw [parentOf,look_cons,look_cons]
          by_cases hs : s = name
          · subst hs
            exact h.below cs q (fun he => hq (by rw [he]; rfl))
          · rw [h.others cs s hs]
      · rintro ⟨hpre,hnone⟩
        obtain rfl | hfull := List.prefix_concat_iff.mp (show q <+: [] ++ [name] from hpre)
        · exact hq rfl
        · rw [List.prefix_nil.mp hfull] at hnone
          cases hnone
    · cases hok
  | cons s parents ih =>
    obtain ⟨c,cs | vs⟩ := n
    · cases q with
      | nil => simp [parentOf,get,valueSet]
      | cons t q =>
        simp only [parentOf] at hok ⊢
        simp only [look_cons,List.cons_append,List.cons_prefix_cons,get]
        by_cases ht : t = s
        · subst ht
          have hne : q ≠ parents ++ [name] := fun he => hq (by rw [he]; rfl)
          rw [lookup_insertKey_self,Option.bind_some,ih hok hne]
          cases hl : cs.lookup t with
          | some m => simp
          | none =>
            cases q with
            | nil => simp [get,created,newInterior,valueSet]
            | cons u q => simp [newInterior,get,look]
        · rw [lookup_insertKey_of_ne ht]
          simp [ht]
    · cases hok

end Node

namespace ConfigTree

def look (tree : ConfigTree) (path : Path) : Standing := tree.root.look path

/-- An edit at a path that fails has done nothing, and one that succeeds has created the parents that were missing
and left what stands at every other path. -/
structure Local (tree : ConfigTree) (path : Path) (r : Except TreeError Unit × ConfigTree) : Prop where
  atomic : ∀ e, r.1 = .error e → r.2 = tree
  parents : r.1 = .ok () → ∀ q, q <+: path → q ≠ path → tree.get q = none → r.2.look q = created
  others : r.1 = .ok () → ∀ q, q ≠ path → ¬(q <+: path ∧ tree.get q = none) → r.2.look q = tree.look q

variable {tree : ConfigTree} {path : Path}

theorem local_of_parentOf {name : String} {parents : Path} (hpath : path = parents ++ [name])
    {edit : List (String × Node) → Except TreeError Unit × List (String × Node)} (h : Node.Concerns name edit)
    {r : Except TreeError Unit × ConfigTree} (hresult : r.1 = (Node.parentOf path edit [] parents tree.root).1)
    (hroot : r.2.root = (Node.parentOf path edit [] parents tree.root).2) : Local tree path r := by
  have hlook : r.1 = .ok () → ∀ q, q ≠ path →
      r.2.look q = if q <+: path ∧ tree.get q = none then created else tree.look q := by
    intro hok q hq
    rw [look,hroot]
    rw [hresult] at hok
    rw [hpath] at hq
    rw [hpath] at hok ⊢
    exact Node.look_parentOf h hok hq
  refine ⟨fun e he => ?_,fun hok q hpre hq hnone => ?_,fun hok q hq hout => ?_⟩
  · rw [hresult] at he
    exact ConfigTree.ext (hroot.trans (Node.parentOf_atomic h tree.ordered he))
  · rw [hlook hok q hq,if_pos ⟨hpre,hnone⟩]
  · rw [hlook hok q hq,if_neg hout]

theorem local_ensureInterior (tree : ConfigTree) (path : Path) : Local tree path (tree.ensureInterior path) := by
  obtain rfl | ⟨parents,name,rfl⟩ := path.eq_nil_or_concat'
  · exact ⟨nofun,fun _ q hpre hq => absurd (List.prefix_nil.mp hpre) hq,fun _ _ _ _ => rfl⟩
  · refine local_of_parentOf rfl (Node.concerns_interiorEntry (parents ++ [name]) name) ?_ ?_
    · rw [ensureInterior_fst,Node.ensureInterior,List.getLast?_concat,List.dropLast_concat]
    · rw [ensureInterior_root,Node.ensureInterior,List.getLast?_concat,List.dropLast_concat]

theorem local_editLeaf (tree : ConfigTree) (path : Path) (change : List String → List String)
    (h : ∀ vs : List String, vs.Pairwise (· < ·) → (change vs).Pairwise (· < ·)) :
    Local tree path (tree.editLeaf path change h) := by
  obtain rfl | ⟨parents,name,rfl⟩ := path.eq_nil_or_concat'
  · exact ⟨fun _ _ => rfl,nofun,nofun⟩
  · refine local_of_parentOf rfl (Node.concerns_leafEntry (parents ++ [name]) change name) ?_ ?_
    · rw [editLeaf_fst,Node.editLeaf,List.getLast?_concat,List.dropLast_concat]
    · rw [editLeaf_root,Node.editLeaf,List.getLast?_concat,List.dropLast_concat]

/-- Every edit of the tree is atomic and local. -/
theorem edits_local (tree : ConfigTree) (path : Path) (value : String) :
    Local tree path (tree.set path value) ∧ Local tree path (tree.add path value) ∧
    Local tree path (tree.setFlag path) ∧ Local tree path (tree.declareLeaf path) ∧
    Local tree path (tree.ensureInterior path) :=
  ⟨local_editLeaf tree path _ _,local_editLeaf tree path _ _,local_editLeaf tree path _ _,local_editLeaf tree path _ _,
    local_ensureInterior tree path⟩

end ConfigTree
end Nightshade.Schema
