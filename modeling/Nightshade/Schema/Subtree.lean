import Mathlib
import Nightshade.Schema.DiffLemmas

/-! The part of a configuration that is shown for a path: it reads as a fragment of the whole, with
full paths, and has exactly the lines of the whole that are at or below the path. -/
namespace Nightshade.Schema
open Foundation

namespace Node

/-- A node under the names of a path and nothing beside it. -/
def under (n : Node) : Path → Node
  | [] => n
  | s::path => ⟨none,.interior [(s,n.under path)]⟩

/-- `children.insert(name, node)`, which a node that holds values has no place for. -/
def insertChild (name : String) (child : Node) : Node → Node
  | ⟨c,.interior cs⟩ => ⟨c,.interior (insertKey name child cs)⟩
  | ⟨c,.values vs⟩ => ⟨c,.values vs⟩

theorem ordered_insertChild {name : String} {child n : Node} (hchild : child.Ordered) (h : n.Ordered) :
    (insertChild name child n).Ordered := by
  obtain ⟨c,cs | vs⟩ := n
  · exact ordered_insertKey h hchild
  · exact h

theorem isInterior_insertChild {name : String} {child n : Node} (h : n.isInterior) :
    (insertChild name child n).isInterior := by
  obtain ⟨c,cs | vs⟩ := n
  · rfl
  · cases h

end Node

namespace ConfigTree

/-- The part of a configuration at a path, with the path to it. -/
def subtree (tree : ConfigTree) (path : Path) : Option ConfigTree :=
  match hget : tree.get path with
  | none => none
  | some node =>
    match path.getLast? with
    | none => some tree
    | some last =>
      let made := (ConfigTree.new.ensureInterior path.dropLast).2
      some ⟨made.root.modify (Node.insertChild last node) path.dropLast,
        Node.isInterior_modify (fun _ => Node.isInterior_insertChild) made.interior,
        Node.ordered_modify (fun _ => Node.ordered_insertChild (Node.ordered_get tree.ordered hget))
          made.ordered⟩

end ConfigTree

namespace Node
variable {full path : Path} {name : String} {n child : Node}

/-- Interior nodes that are made below a node without children are one below the other. -/
theorem made_parentOf (edit : List (String × Node) → Except TreeError Unit × List (String × Node))
    (walked path : Path) :
    (parentOf full edit walked path newInterior).2 = under ⟨none,.interior (edit []).2⟩ path := by
  induction path generalizing walked with
  | nil => rfl
  | cons s path ih =>
    rw [newInterior,parentOf,under]
    simp only [List.lookup_nil,Option.getD_none,ih,insertKey]

theorem ensureInterior_newInterior (path : Path) :
    (ensureInterior path newInterior).2 = under newInterior path := by
  obtain rfl | ⟨path,name,rfl⟩ := List.eq_nil_or_concat' path
  · rfl
  · have hparent := @made_parentOf (path ++ [name]) (interiorEntry (path ++ [name]) name) [] path
    rw [ensureInterior,List.getLast?_concat,List.dropLast_concat]
    simp only [hparent,interiorEntry,List.lookup_nil,insertKey]
    clear hparent
    induction path with
    | nil => rfl
    | cons s path ih => rw [under,ih]; rfl

theorem modify_under (g : Node → Node) (n : Node) (path : Path) :
    (n.under path).modify g path = (g n).under path := by
  induction path with
  | nil => rfl
  | cons s path ih => simp [under,modify,List.lookup,insertKey,ih]

theorem under_append (n : Node) (p q : Path) : n.under (p ++ q) = (n.under q).under p := by
  induction p with
  | nil => rfl
  | cons s p ih => rw [List.cons_append,under,under,ih]

/-- What is to be seen of a node under a path is what is to be seen of the node. -/
theorem hasLine_under {at_ : Path} {value : Option String} :
    (n.under path).HasLine at_ value ↔ ∃ rest, at_ = path ++ rest ∧ n.HasLine rest value := by
  induction path generalizing at_ with
  | nil => simp [under]
  | cons s path ih =>
    rw [under]
    cases at_ with
    | nil => simp [hasLine_nil,Ends]
    | cons s' at_ =>
      rw [hasLine_cons_interior]
      by_cases hs : s' = s
      · subst hs
        simp [List.lookup,ih]
      · have hne : (s' == s) = false := beq_false_of_ne hs
        simp [List.lookup,hne,hs]

/-- A line at or below a path is one of the node there. -/
theorem hasLine_append {rest : Path} {value : Option String} :
    n.HasLine (path ++ rest) value ↔ ∃ m, n.get path = some m ∧ m.HasLine rest value := by
  simp only [HasLine,get_append,Option.bind_eq_some_iff]
  constructor
  · rintro ⟨k,⟨m,hm,hk⟩,hends⟩
    exact ⟨m,hm,k,hk,hends⟩
  · rintro ⟨m,hm,k,hk,hends⟩
    exact ⟨k,⟨m,hm,hk⟩,hends⟩

end Node

namespace ConfigTree
variable {tree : ConfigTree} {path : Path}

theorem subtree_root (tree : ConfigTree) : tree.subtree [] = some tree := rfl

/-- Below the root, what is shown is the node under its path. -/
theorem subtree_under {n : Node} (hne : path ≠ []) (h : tree.get path = some n) :
    ∃ t, tree.subtree path = some t ∧ t.root = n.under path := by
  obtain rfl | ⟨path,name,rfl⟩ := List.eq_nil_or_concat' path
  · exact absurd rfl hne
  · unfold subtree
    split
    · next hnone => rw [h] at hnone; cases hnone
    · next m hsome =>
      obtain rfl : n = m := Option.some.inj (h.symm.trans hsome)
      have hmade : (ConfigTree.new.ensureInterior path).2.root = Node.under Node.newInterior path :=
        Node.ensureInterior_newInterior path
      simp only [List.getLast?_concat,List.dropLast_concat]
      refine ⟨_,rfl,?_⟩
      show (ConfigTree.new.ensureInterior path).2.root.modify (Node.insertChild name n) path = _
      rw [hmade,Node.modify_under,Node.under_append]
      rfl

theorem subtree_eq_none (h : tree.get path = none) : tree.subtree path = none := by
  unfold subtree
  split
  · rfl
  · next hsome => rw [h] at hsome; cases hsome

/-- What is shown for a path are the lines at it and below, and no others. -/
theorem mem_lines_subtree (tree : ConfigTree) (path : Path) (l : DiffLine) :
    l ∈ ((tree.subtree path).getD .new).lines ↔ l ∈ tree.lines ∧ path <+: l.1 := by
  by_cases hne : path = []
  · subst hne
    simp [subtree_root]
  · rw [Node.mem_lines_root]
    have hbelow : path <+: l.1 ∧ tree.root.HasLine l.1 l.2 ↔
        ∃ n, tree.get path = some n ∧ (n.under path).HasLine l.1 l.2 := by
      simp only [Node.hasLine_under]
      constructor
      · rintro ⟨⟨rest,hrest⟩,hline⟩
        rw [← hrest] at hline ⊢
        obtain ⟨n,hn,hrest⟩ := Node.hasLine_append.mp hline
        exact ⟨n,hn,rest,rfl,hrest⟩
      · rintro ⟨n,hn,rest,hrest,hline⟩
        rw [hrest]
        exact ⟨⟨rest,rfl⟩,Node.hasLine_append.mpr ⟨n,hn,hline⟩⟩
    rw [Node.mem_lines_root,and_assoc,and_comm (a := tree.root.HasLine l.1 l.2),hbelow]
    refine and_congr_right (fun hat => ?_)
    cases hget : tree.get path with
    | none =>
      obtain ⟨s,rest,hrest⟩ := List.exists_cons_of_ne_nil hat
      rw [subtree_eq_none hget,hrest]
      simp [ConfigTree.new,Node.newInterior,Node.hasLine_cons_interior]
    | some n =>
      obtain ⟨t,ht,hroot⟩ := subtree_under hne hget
      rw [ht,Option.getD_some,hroot]
      simp

end ConfigTree
end Nightshade.Schema
