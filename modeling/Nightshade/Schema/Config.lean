import Mathlib
import Nightshade.Foundation.SortedMap
import Nightshade.Schema.Path

/-! The configuration tree. A node is interior, with named children, or holds a set of values;
the children and the values are kept in order. The edits are written on bare nodes and say
what becomes of the tree when they fail; `ConfigTree` carries the proof that it is in order. -/
namespace Nightshade.Schema
open Foundation

inductive TreeError where
  /-- The node at `path` holds a value, so `full` cannot exist below it. -/
  | notInterior (path full : Path)
  /-- It holds a value, so it cannot also have child nodes. -/
  | notAContainer (path : Path)
  /-- It has child nodes, so it cannot hold a value. -/
  | notALeaf (path : Path)
  deriving Repr, DecidableEq

/-- The text a tree error is reported with. -/
def TreeError.message : TreeError → String
  | .notInterior path full =>
    "`" ++ path.display ++ "` holds a value, so `" ++ full.display ++ "` cannot exist below it"
  | .notAContainer path =>
    "`" ++ path.display ++ "` holds a value, so it cannot also have child nodes"
  | .notALeaf path => "`" ++ path.display ++ "` has child nodes, so it cannot hold a value"

/-- What a node contains. -/
inductive Body (N : Type) where
  | interior (children : List (String × N))
  | values (vs : List String)
  deriving Repr

/-- One node of the tree, with the comment written above it. -/
structure Node where
  comment : Option String
  body : Body Node
  deriving Repr

namespace Node

/-- Induction over nodes: what holds of the children holds of an interior node. -/
theorem induct {P : Node → Prop} (values : ∀ c vs, P ⟨c,.values vs⟩)
    (interior : ∀ c cs, (∀ e ∈ cs, P e.2) → P ⟨c,.interior cs⟩) (n : Node) : P n := by
  refine @Node.rec P (fun body => ∀ c, P ⟨c,body⟩) (fun cs => ∀ e ∈ cs, P e.2) (fun e => P e.2)
    (fun c body h => h c) (fun cs h c => interior c cs h) (fun vs c => values c vs)
    (by simp) (fun e cs he hcs => ?_) (fun _ _ h => h) n
  intro d hd
  rcases List.mem_cons.mp hd with rfl | hd
  · exact he
  · exact hcs d hd

mutual

def decEq : (m n : Node) → Decidable (m = n)
  | ⟨c,.values vs⟩, ⟨d,.values ws⟩ => decidable_of_iff (c = d ∧ vs = ws) (by simp)
  | ⟨c,.interior cs⟩, ⟨d,.interior ds⟩ =>
    have := decEqAll cs ds
    decidable_of_iff (c = d ∧ cs = ds) (by simp)
  | ⟨_,.values _⟩, ⟨_,.interior _⟩ => isFalse (by simp)
  | ⟨_,.interior _⟩, ⟨_,.values _⟩ => isFalse (by simp)
termination_by structural m => m

def decEqAll : (cs ds : List (String × Node)) → Decidable (cs = ds)
  | [], [] => isTrue rfl
  | [], _::_ => isFalse (by simp)
  | _::_, [] => isFalse (by simp)
  | (k,m)::cs, (l,n)::ds =>
    have := m.decEq n
    have := decEqAll cs ds
    decidable_of_iff (k = l ∧ m = n ∧ cs = ds) (by simp [and_assoc])
termination_by structural cs => cs

end

instance : DecidableEq Node := decEq

/-! ### Order -/

mutual

/-- Children and values stand in strictly increasing order, all the way down. -/
def Ordered : Node → Prop
  | ⟨_,.values vs⟩ => vs.Pairwise (· < ·)
  | ⟨_,.interior cs⟩ => KeySorted cs ∧ OrderedAll cs
termination_by structural n => n

def OrderedAll : List (String × Node) → Prop
  | [] => True
  | (_,n)::rest => n.Ordered ∧ OrderedAll rest
termination_by structural cs => cs

end

theorem orderedAll_iff {cs : List (String × Node)} : OrderedAll cs ↔ ∀ e ∈ cs, e.2.Ordered := by
  induction cs with
  | nil => simp [OrderedAll]
  | cons e cs ih => simp [OrderedAll,ih]

theorem ordered_interior {c : Option String} {cs : List (String × Node)} :
    Ordered ⟨c,.interior cs⟩ ↔ KeySorted cs ∧ ∀ e ∈ cs, e.2.Ordered := by
  rw [Ordered,orderedAll_iff]

@[simp] theorem ordered_values {c : Option String} {vs : List String} :
    Ordered ⟨c,.values vs⟩ ↔ vs.Pairwise (· < ·) := by rw [Ordered]

lemma ordered_of_lookup {c : Option String} {cs : List (String × Node)} {k : String} {n : Node}
    (h : Ordered ⟨c,.interior cs⟩) (hk : cs.lookup k = some n) : n.Ordered := by
  obtain ⟨hs,hall⟩ := ordered_interior.mp h
  exact hall _ ((lookup_eq_some_iff_mem hs).mp hk)

lemma ordered_insertKey {c : Option String} {cs : List (String × Node)} {k : String} {n : Node}
    (h : Ordered ⟨c,.interior cs⟩) (hn : n.Ordered) : Ordered ⟨c,.interior (insertKey k n cs)⟩ := by
  obtain ⟨hs,hall⟩ := ordered_interior.mp h
  refine ordered_interior.mpr ⟨keySorted_insertKey k n hs,fun e he => ?_⟩
  rcases mem_insertKey he with rfl | he
  · exact hn
  · exact hall e he

lemma ordered_eraseKey {c : Option String} {cs : List (String × Node)} {k : String}
    (h : Ordered ⟨c,.interior cs⟩) : Ordered ⟨c,.interior (eraseKey k cs)⟩ := by
  obtain ⟨hs,hall⟩ := ordered_interior.mp h
  exact ordered_interior.mpr ⟨keySorted_eraseKey k hs,fun e he => hall e (List.mem_filter.mp he).1⟩

/-! ### Reading -/

mutual

/-- How many interior nodes stand below one another, this one included. -/
def nesting : Node → ℕ
  | ⟨_,.values _⟩ => 0
  | ⟨_,.interior cs⟩ => nestingAll cs + 1
termination_by structural n => n

def nestingAll : List (String × Node) → ℕ
  | [] => 0
  | (_,n)::rest => max n.nesting (nestingAll rest)
termination_by structural cs => cs

end

def isInterior : Node → Bool
  | ⟨_,.interior _⟩ => true
  | ⟨_,.values _⟩ => false

def children : Node → Option (List (String × Node))
  | ⟨_,.interior cs⟩ => some cs
  | ⟨_,.values _⟩ => none

def valueSet : Node → Option (List String)
  | ⟨_,.interior _⟩ => none
  | ⟨_,.values vs⟩ => some vs

/-- The single value of a leaf. -/
def value (n : Node) : Option String :=
  match n.valueSet with
  | some [v] => some v
  | _ => none

/-- A node with no children yet. -/
def newInterior : Node := ⟨none,.interior []⟩

/-- A leaf with no value. -/
def flag : Node := ⟨none,.values []⟩

def get : Path → Node → Option Node
  | [], n => some n
  | _::_, ⟨_,.values _⟩ => none
  | s::rest, ⟨_,.interior cs⟩ => (cs.lookup s).bind (get rest)

/-! ### Editing -/

/-- Change the node at a path, when there is one. -/
def modify (g : Node → Node) : Path → Node → Node
  | [], n => g n
  | _::_, ⟨c,.values vs⟩ => ⟨c,.values vs⟩
  | s::rest, ⟨c,.interior cs⟩ =>
    match cs.lookup s with
    | none => ⟨c,.interior cs⟩
    | some n => ⟨c,.interior (insertKey s (modify g rest n) cs)⟩

/-- Walk down `parents`, creating interior nodes along the way, and edit the children found
there. Runs into an error when a node on the way holds values. -/
def parentOf (full : Path)
    (edit : List (String × Node) → Except TreeError Unit × List (String × Node)) :
    Path → Path → Node → Except TreeError Unit × Node
  | walked, _, ⟨c,.values vs⟩ => (.error (.notInterior walked full),⟨c,.values vs⟩)
  | _, [], ⟨c,.interior cs⟩ => ((edit cs).1,⟨c,.interior (edit cs).2⟩)
  | walked, s::rest, ⟨c,.interior cs⟩ =>
    let r := parentOf full edit (walked ++ [s]) rest ((cs.lookup s).getD newInterior)
    (r.1,⟨c,.interior (insertKey s r.2 cs)⟩)

/-- Among children, an interior node under a name, created if absent. -/
def interiorEntry (path : Path) (name : String) (cs : List (String × Node)) :
    Except TreeError Unit × List (String × Node) :=
  match cs.lookup name with
  | none => (.ok (),insertKey name newInterior cs)
  | some n => (if n.isInterior then .ok () else .error (.notAContainer path),cs)

/-- Among children, change the values under a name; a new leaf starts out with none. -/
def leafEntry (path : Path) (edit : List String → List String) (name : String)
    (cs : List (String × Node)) : Except TreeError Unit × List (String × Node) :=
  match cs.lookup name with
  | some ⟨_,.interior _⟩ => (.error (.notALeaf path),cs)
  | some ⟨c,.values vs⟩ => (.ok (),insertKey name ⟨c,.values (edit vs)⟩ cs)
  | none => (.ok (),insertKey name ⟨none,.values (edit [])⟩ cs)

/-- Interior node at a path, created if absent. -/
def ensureInterior (path : Path) (root : Node) : Except TreeError Unit × Node :=
  match path.getLast? with
  | none => (.ok (),root)
  | some last => parentOf path (interiorEntry path last) [] path.dropLast root

/-- Change the values held at a path. -/
def editLeaf (path : Path) (edit : List String → List String) (root : Node) :
    Except TreeError Unit × Node :=
  match path.getLast? with
  | none => (.error (.notALeaf path),root)
  | some last => parentOf path (leafEntry path edit last) [] path.dropLast root

/-- Remove the node at a path and everything under it; false when it was not there. -/
def remove (path : Path) (root : Node) : Bool × Node :=
  match path.getLast? with
  | none => (true,newInterior)
  | some last =>
    match (root.get path.dropLast).bind children with
    | none => (false,root)
    | some cs =>
      ((cs.lookup last).isSome,
        root.modify (fun n => ⟨n.comment,.interior (eraseKey last cs)⟩) path.dropLast)

lemma ordered_modify {g : Node → Node} (hg : ∀ n, n.Ordered → (g n).Ordered) {path : Path}
    {n : Node} (h : n.Ordered) : (n.modify g path).Ordered := by
  induction path generalizing n with
  | nil => exact hg n h
  | cons s rest ih =>
    obtain ⟨c,cs | vs⟩ := n
    · rw [modify]
      cases hl : cs.lookup s with
      | none => exact h
      | some m => exact ordered_insertKey h (ih (ordered_of_lookup h hl))
    · exact h

lemma ordered_get {path : Path} {n m : Node} (h : n.Ordered) (hm : n.get path = some m) :
    m.Ordered := by
  induction path generalizing n with
  | nil => cases hm; exact h
  | cons s rest ih =>
    obtain ⟨c,cs | vs⟩ := n
    · obtain ⟨k,hk,hm⟩ := Option.bind_eq_some_iff.mp hm
      exact ih (ordered_of_lookup h hk) hm
    · cases hm

@[simp] lemma ordered_newInterior : newInterior.Ordered := by
  simp [newInterior,ordered_interior]

lemma ordered_parentOf {full : Path}
    {edit : List (String × Node) → Except TreeError Unit × List (String × Node)}
    (hedit : ∀ c cs, Ordered ⟨c,.interior cs⟩ → Ordered ⟨c,.interior (edit cs).2⟩)
    {walked parents : Path} {n : Node} (h : n.Ordered) :
    (parentOf full edit walked parents n).2.Ordered := by
  induction parents generalizing n walked with
  | nil =>
    obtain ⟨c,cs | vs⟩ := n
    · exact hedit c cs h
    · exact h
  | cons s rest ih =>
    obtain ⟨c,cs | vs⟩ := n
    · refine ordered_insertKey h (ih ?_)
      cases hl : cs.lookup s with
      | none => exact ordered_newInterior
      | some m => exact ordered_of_lookup h hl
    · exact h

lemma isInterior_parentOf {full : Path}
    {edit : List (String × Node) → Except TreeError Unit × List (String × Node)}
    {walked parents : Path} {n : Node} (h : n.isInterior) :
    (parentOf full edit walked parents n).2.isInterior := by
  obtain ⟨c,cs | vs⟩ := n
  · cases parents <;> rfl
  · cases h

lemma isInterior_modify {g : Node → Node} (hg : ∀ n, n.isInterior → (g n).isInterior) {path : Path}
    {n : Node} (h : n.isInterior) : (n.modify g path).isInterior := by
  cases path with
  | nil => exact hg n h
  | cons s rest =>
    obtain ⟨c,cs | vs⟩ := n
    · rw [modify]
      cases cs.lookup s <;> rfl
    · cases h

lemma ordered_ensureInterior {path : Path} {root : Node} (h : root.Ordered) :
    (ensureInterior path root).2.Ordered := by
  unfold ensureInterior
  split
  · exact h
  · refine ordered_parentOf (fun c cs hcs => ?_) h
    unfold interiorEntry
    split
    · exact ordered_insertKey hcs ordered_newInterior
    · exact hcs

lemma ordered_editLeaf {path : Path} {edit : List String → List String} {root : Node}
    (hedit : ∀ vs : List String, vs.Pairwise (· < ·) → (edit vs).Pairwise (· < ·))
    (h : root.Ordered) : (editLeaf path edit root).2.Ordered := by
  unfold editLeaf
  split
  · exact h
  · refine ordered_parentOf (fun c cs hcs => ?_) h
    unfold leafEntry
    split
    · exact hcs
    · next hl => exact ordered_insertKey hcs (ordered_values.mpr (hedit _ (ordered_of_lookup hcs hl)))
    · exact ordered_insertKey hcs (ordered_values.mpr (hedit [] List.Pairwise.nil))

lemma ordered_remove {path : Path} {root : Node} (h : root.Ordered) :
    (remove path root).2.Ordered := by
  unfold remove
  split
  · exact ordered_newInterior
  · split
    · exact h
    · next cs hcs =>
      refine ordered_modify (fun n _ => ?_) h
      obtain ⟨m,hm,hch⟩ := Option.bind_eq_some_iff.mp hcs
      obtain ⟨c,cs' | vs⟩ := m
      · cases hch
        obtain ⟨hs,hall⟩ := ordered_interior.mp (ordered_get h hm)
        exact ordered_eraseKey (ordered_interior.mpr ⟨hs,hall⟩)
      · cases hch

/-! ### Putting a node in place -/

/-- Put another node where there is one. -/
def put (m : Node) (path : Path) (n : Node) : Node := n.modify (fun _ => m) path

theorem get_append (p q : Path) (n : Node) : n.get (p ++ q) = (n.get p).bind (get q) := by
  induction p generalizing n with
  | nil => rfl
  | cons s p ih =>
    obtain ⟨c,cs | vs⟩ := n
    · rw [List.cons_append,get,get]
      cases cs.lookup s with
      | none => rfl
      | some m => exact ih m
    · rfl

theorem get_modify {g : Node → Node} (path : Path) (n : Node) :
    (n.modify g path).get path = (n.get path).map g := by
  induction path generalizing n with
  | nil => rfl
  | cons s path ih =>
    obtain ⟨c,cs | vs⟩ := n
    · rw [modify,get]
      cases hl : cs.lookup s with
      | none => simp [get,hl]
      | some m => simp [get,ih]
    · rfl

theorem modify_append (g : Node → Node) (p q : Path) (n : Node) :
    n.modify g (p ++ q) = n.modify (modify g q) p := by
  induction p generalizing n with
  | nil => rfl
  | cons s p ih =>
    obtain ⟨c,cs | vs⟩ := n
    · rw [List.cons_append,modify,modify]
      cases cs.lookup s with
      | none => rfl
      | some m => simp only [ih m]
    · rfl

theorem modify_modify (g h : Node → Node) (path : Path) (n : Node) :
    (n.modify h path).modify g path = n.modify (g ∘ h) path := by
  induction path generalizing n with
  | nil => rfl
  | cons s path ih =>
    obtain ⟨c,cs | vs⟩ := n
    · rw [modify,modify]
      cases hl : cs.lookup s with
      | none => simp [modify,hl]
      | some m => simp [modify,ih m]
    · rfl

theorem modify_congr {g h : Node → Node} {path : Path} {n m : Node} (hm : n.get path = some m)
    (hg : g m = h m) : n.modify g path = n.modify h path := by
  induction path generalizing n with
  | nil => cases hm; exact hg
  | cons s path ih =>
    obtain ⟨c,cs | vs⟩ := n
    · obtain ⟨k,hk,hm⟩ := Option.bind_eq_some_iff.mp hm
      rw [modify,modify,hk]
      simp only [ih hm]
    · rfl

@[simp] theorem put_put (m m' : Node) (path : Path) (n : Node) :
    put m path (put m' path n) = put m path n := modify_modify _ _ path n

theorem get_put {m m' : Node} {path : Path} {n : Node} (h : n.get path = some m') :
    (put m path n).get path = some m := by
  rw [put,get_modify,h]
  rfl

/-- Putting a node below a node just put. -/
theorem put_append_put (m m' : Node) (p q : Path) (n : Node) :
    put m (p ++ q) (put m' p n) = put (put m q m') p n := by
  rw [put,put,modify_append,modify_modify]
  rfl

theorem put_self {m : Node} {path : Path} {n : Node} (ho : n.Ordered) (h : n.get path = some m) :
    put m path n = n := by
  induction path generalizing n with
  | nil => cases h; rfl
  | cons s path ih =>
    obtain ⟨c,cs | vs⟩ := n
    · obtain ⟨k,hk,hm⟩ := Option.bind_eq_some_iff.mp h
      have hput := ih (ordered_of_lookup ho hk) hm
      rw [put] at hput ⊢
      rw [modify,hk]
      simp only [hput,insertKey_lookup (ordered_interior.mp ho).1 hk]
    · rfl

/-- An edit below a path edits the node there. -/
theorem parentOf_append (full : Path)
    (edit : List (String × Node) → Except TreeError Unit × List (String × Node))
    (walked : Path) {p : Path} (q : Path) {n m : Node} (h : n.get p = some m) :
    parentOf full edit walked (p ++ q) n =
      ((parentOf full edit (walked ++ p) q m).1,put (parentOf full edit (walked ++ p) q m).2 p n) := by
  induction p generalizing walked n with
  | nil => cases h; simp [put,modify]
  | cons s p ih =>
    obtain ⟨c,cs | vs⟩ := n
    · obtain ⟨k,hk,hm⟩ := Option.bind_eq_some_iff.mp h
      rw [List.cons_append,parentOf,hk,Option.getD_some,ih _ hm,List.append_assoc]
      simp only [put,modify,hk,List.singleton_append]
    · cases h

/-- An edit of the values of one child. -/
theorem editLeaf_child (edit : List String → List String) {path : Path} (name : String) {n : Node}
    {c : Option String} {cs : List (String × Node)} (h : n.get path = some ⟨c,.interior cs⟩) :
    editLeaf (path ++ [name]) edit n =
      ((leafEntry (path ++ [name]) edit name cs).1,
        put ⟨c,.interior (leafEntry (path ++ [name]) edit name cs).2⟩ path n) := by
  have happ := parentOf_append (path ++ [name]) (leafEntry (path ++ [name]) edit name) [] [] h
  rw [List.append_nil] at happ
  rw [editLeaf,List.getLast?_concat,List.dropLast_concat]
  exact happ

/-- An interior node below a node, when all but the last step down is already there. -/
theorem ensureInterior_append {path : Path} (inner : Path) (name : String) {n m : Node}
    (h : n.get path = some m) :
    ensureInterior (path ++ (inner ++ [name])) n =
      ((parentOf (path ++ (inner ++ [name])) (interiorEntry (path ++ (inner ++ [name])) name) path
          inner m).1,
        put (parentOf (path ++ (inner ++ [name])) (interiorEntry (path ++ (inner ++ [name])) name)
          path inner m).2 path n) := by
  have happ := parentOf_append (path ++ (inner ++ [name]))
    (interiorEntry (path ++ (inner ++ [name])) name) [] inner h
  rw [ensureInterior,← List.append_assoc,List.getLast?_concat,List.dropLast_concat]
  rw [List.append_assoc]
  exact happ

lemma isInterior_ensureInterior (path : Path) {root : Node} (h : root.isInterior) :
    (ensureInterior path root).2.isInterior := by
  unfold ensureInterior
  split
  · exact h
  · exact isInterior_parentOf h

lemma isInterior_editLeaf (path : Path) (edit : List String → List String) {root : Node}
    (h : root.isInterior) : (editLeaf path edit root).2.isInterior := by
  unfold editLeaf
  split
  · exact h
  · exact isInterior_parentOf h

lemma isInterior_remove (path : Path) {root : Node} (h : root.isInterior) :
    (remove path root).2.isInterior := by
  unfold remove
  split
  · rfl
  · split
    · exact h
    · exact isInterior_modify (fun _ _ => rfl) h

end Node

/-- A whole configuration: an interior root, with everything below it in order. -/
structure ConfigTree where
  root : Node
  interior : root.isInterior
  ordered : root.Ordered

namespace ConfigTree

@[ext] theorem ext {s t : ConfigTree} (h : s.root = t.root) : s = t := by
  cases s; cases t; cases h; rfl

instance : DecidableEq ConfigTree := fun s t =>
  decidable_of_iff (s.root = t.root) ⟨ConfigTree.ext,congrArg root⟩

/-- The empty configuration. -/
def new : ConfigTree := ⟨Node.newInterior,rfl,Node.ordered_newInterior⟩

instance : Inhabited ConfigTree := ⟨new⟩

/-- The top-level nodes. -/
def children (tree : ConfigTree) : List (String × Node) := tree.root.children.getD []

/-- How deep interior nodes nest below the root. -/
def nesting (tree : ConfigTree) : ℕ := Node.nestingAll tree.children

def isEmpty (tree : ConfigTree) : Bool := tree.children.isEmpty

def get (tree : ConfigTree) (path : Path) : Option Node := tree.root.get path

def contains (tree : ConfigTree) (path : Path) : Bool := (tree.get path).isSome

/-- The values at a path, or nothing if it is absent or interior. -/
def valuesAt (tree : ConfigTree) (path : Path) : Option (List String) :=
  (tree.get path).bind Node.valueSet

def ensureInterior (tree : ConfigTree) (path : Path) : Except TreeError Unit × ConfigTree :=
  let r := Node.ensureInterior path tree.root
  (r.1,⟨r.2,Node.isInterior_ensureInterior path tree.interior,Node.ordered_ensureInterior tree.ordered⟩)

/-- One edit of the values at a path. -/
def editLeaf (tree : ConfigTree) (path : Path) (edit : List String → List String)
    (h : ∀ vs : List String, vs.Pairwise (· < ·) → (edit vs).Pairwise (· < ·)) :
    Except TreeError Unit × ConfigTree :=
  let r := Node.editLeaf path edit tree.root
  (r.1,⟨r.2,Node.isInterior_editLeaf path edit tree.interior,Node.ordered_editLeaf h tree.ordered⟩)

theorem ensureInterior_fst (tree : ConfigTree) (path : Path) :
    (tree.ensureInterior path).1 = (Node.ensureInterior path tree.root).1 := rfl

theorem ensureInterior_root (tree : ConfigTree) (path : Path) :
    (tree.ensureInterior path).2.root = (Node.ensureInterior path tree.root).2 := rfl

theorem editLeaf_fst (tree : ConfigTree) (path : Path) (edit : List String → List String) (h) :
    (tree.editLeaf path edit h).1 = (Node.editLeaf path edit tree.root).1 := rfl

theorem editLeaf_root (tree : ConfigTree) (path : Path) (edit : List String → List String) (h) :
    (tree.editLeaf path edit h).2.root = (Node.editLeaf path edit tree.root).2 := rfl

/-- Ensure a value-holding node exists, leaving any values it already has alone. -/
def declareLeaf (tree : ConfigTree) (path : Path) : Except TreeError Unit × ConfigTree :=
  tree.editLeaf path id (fun _ h => h)

/-- Replace whatever is at a path with a single value. -/
def set (tree : ConfigTree) (path : Path) (value : String) : Except TreeError Unit × ConfigTree :=
  tree.editLeaf path (fun _ => [value]) (fun _ _ => List.pairwise_singleton _ _)

/-- Add a value to the set at a path. -/
def add (tree : ConfigTree) (path : Path) (value : String) : Except TreeError Unit × ConfigTree :=
  tree.editLeaf path (insertElem value) (fun _ h => sorted_insertElem value h)

/-- Create a valueless leaf, discarding any values there. -/
def setFlag (tree : ConfigTree) (path : Path) : Except TreeError Unit × ConfigTree :=
  tree.editLeaf path (fun _ => []) (fun _ _ => List.Pairwise.nil)

/-- Whether there is a node at a path, and it carries no comment. -/
def uncommented (tree : ConfigTree) (path : Path) : Bool :=
  (tree.get path).any (fun n => n.comment.isNone)

/-- Attach or clear the comment on an existing node. -/
def setComment (tree : ConfigTree) (path : Path) (comment : Option String) : Bool × ConfigTree :=
  (tree.contains path,
    ⟨tree.root.modify (fun n => ⟨comment,n.body⟩) path,
      Node.isInterior_modify (fun ⟨_,body⟩ h => by cases body <;> simp_all [Node.isInterior]) tree.interior,
      Node.ordered_modify (fun ⟨_,body⟩ h => by cases body <;> exact h) tree.ordered⟩)

/-- Remove the node at a path and everything under it. -/
def remove (tree : ConfigTree) (path : Path) : Bool × ConfigTree :=
  let r := Node.remove path tree.root
  (r.1,⟨r.2,Node.isInterior_remove path tree.interior,Node.ordered_remove tree.ordered⟩)

/-- Remove one value, and the node with it if that was the last one. -/
def removeValue (tree : ConfigTree) (path : Path) (value : String) : Bool × ConfigTree :=
  match tree.valuesAt path with
  | none => (false,tree)
  | some vs =>
    if value ∈ vs then
      let left := tree.editLeaf path (·.filter (· ≠ value)) (fun _ h => h.filter _)
      if (vs.filter (· ≠ value)).isEmpty then (true,(left.2.remove path).2) else (true,left.2)
    else (false,tree)

end ConfigTree
end Nightshade.Schema
