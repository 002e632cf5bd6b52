import Mathlib
import Nightshade.Schema.LoadOrder
import Nightshade.Schema.LoadedDefaults

/-! Schemas that are the same up to the order of their rules accept the same trees and report the same violations.
Files that agree therefore load in any order to one and the same effect; zeros of different signs do not. -/
namespace Nightshade.Schema
open Foundation Schema

/-! ### Places of two schemas -/

/-- The same place of a schema, up to the order of rules. -/
inductive Location.Same : Location → Location → Prop where
  | node {m n : SchemaNode} (same : m.Same n) : Same (.node m) (.node n)
  | inst {m n : SchemaNode} (same : m.Same n) : Same (.inst m) (.inst n)
  | value {m n : SchemaNode} (same : m.Same n) : Same (.value m) (.value n)

namespace SchemaNode.Same
variable {m n : SchemaNode}

theorem kind (h : m.Same n) : m.kind = n.kind := by
  cases h with
  | mk hkind => exact hkind

theorem required (h : m.Same n) : m.required = n.required := by
  cases h with
  | mk _ _ _ hrequired => exact hrequired

theorem constraints (h : m.Same n) : m.constraints.Perm n.constraints := by
  cases h with
  | mk _ _ _ _ _ hconstraints => exact hconstraints

theorem unique (h : m.Same n) : m.unique.Perm n.unique := by
  cases h with
  | mk _ _ _ _ _ _ hunique => exact hunique

theorem exclusive (h : m.Same n) : m.exclusive.Perm n.exclusive := by
  cases h with
  | mk _ _ _ _ _ _ _ hexclusive => exact hexclusive

theorem child (h : m.Same n) (name : String) : Option.Rel SchemaNode.Same (m.child name) (n.child name) :=
  rel_lookup h.forall₂_children name

theorem isTag (h : m.Same n) : m.isTag = n.isTag := by
  unfold SchemaNode.isTag
  rw [h.kind]

end SchemaNode.Same

/-! ### Structure and types -/

theorem descend_same {m n : SchemaNode} (h : m.Same n) {cs : List (String × Node)}
    (hall : ∀ e ∈ cs, ∀ l l' : Location, l.Same l' → ∀ at_, checkTypes l at_ e.2 = checkTypes l' at_ e.2) (at_ : Path) :
    descend m at_ cs = descend n at_ cs := by
  induction cs with
  | nil => rfl
  | cons e cs ih =>
    obtain ⟨name,child⟩ := e
    rw [descend,descend,ih (fun e he => hall e (List.mem_cons_of_mem _ he))]
    have hchild := h.child name
    generalize m.child name = x at hchild
    generalize n.child name = y at hchild
    cases hchild with
    | none => rfl
    | some hsame => simp only [hall (name,child) List.mem_cons_self _ _ (.node hsame)]

theorem checkInstances_same {m n : SchemaNode} (h : m.Same n) {cs : List (String × Node)}
    (hall : ∀ e ∈ cs, ∀ l l' : Location, l.Same l' → ∀ at_, checkTypes l at_ e.2 = checkTypes l' at_ e.2)
    (value : ValueSpec) (at_ : Path) : checkInstances m value at_ cs = checkInstances n value at_ cs := by
  induction cs with
  | nil => rfl
  | cons e cs ih =>
    obtain ⟨key,inst⟩ := e
    rw [checkInstances,checkInstances,ih (fun e he => hall e (List.mem_cons_of_mem _ he)),
      hall (key,inst) List.mem_cons_self _ _ (.inst h)]

/-- What a tree is made of is checked alike. -/
theorem checkTypes_same (m : Node) {l l' : Location} (h : l.Same l') (at_ : Path) :
    checkTypes l at_ m = checkTypes l' at_ m := by
  induction m using Node.induct generalizing l l' at_ with
  | values c vs =>
    cases h with
    | node h =>
      rw [checkTypes,checkTypes]
      simp only [h.kind]
    | inst h => rw [checkTypes,checkTypes]
    | value h => rw [checkTypes,checkTypes]
  | interior c cs ih =>
    have hall : ∀ e ∈ cs, ∀ l l' : Location, l.Same l' → ∀ at_, checkTypes l at_ e.2 = checkTypes l' at_ e.2 :=
      fun e he _ _ hsame at_ => ih e he hsame at_
    cases h with
    | node h =>
      rw [checkTypes,checkTypes]
      simp only [h.kind,descend_same h hall,checkInstances_same h hall]
    | inst h =>
      rw [checkTypes,checkTypes]
      exact descend_same h hall at_
    | value h => rw [checkTypes,checkTypes]

/-! ### Cross-node constraints -/

theorem checkRequired_same {m n : SchemaNode} (h : m.Same n) (children : List (String × Node)) (at_ : Path) :
    checkRequired m children at_ = checkRequired n children at_ := by
  unfold checkRequired
  have hchildren := h.forall₂_children
  generalize m.children = cs at hchildren
  generalize n.children = ds at hchildren
  induction hchildren with
  | nil => rfl
  | @cons c d cs ds hcd _ ih => rw [List.flatMap_cons,List.flatMap_cons,ih,hcd.1,hcd.2.required]

theorem crossChildren_same {tree : ConfigTree} {m n : SchemaNode} (h : m.Same n) {cs : List (String × Node)}
    (hall : ∀ e ∈ cs, ∀ l l' : Location, l.Same l' → ∀ at_ current,
      (checkCross tree l at_ current e.2).Perm (checkCross tree l' at_ current e.2)) (at_ : Path)
    (current : Option String) : (crossChildren tree m at_ current cs).Perm (crossChildren tree n at_ current cs) := by
  induction cs with
  | nil => rfl
  | cons e cs ih =>
    obtain ⟨name,child⟩ := e
    rw [crossChildren,crossChildren]
    refine List.Perm.append ?_ (ih (fun e he => hall e (List.mem_cons_of_mem _ he)))
    have hchild := h.child name
    generalize m.child name = x at hchild
    generalize n.child name = y at hchild
    cases hchild with
    | none => rfl
    | some hsame => exact hall (name,child) List.mem_cons_self _ _ (.node hsame) _ _

theorem crossInstances_same {tree : ConfigTree} {m n : SchemaNode} (h : m.Same n) {cs : List (String × Node)}
    (hall : ∀ e ∈ cs, ∀ l l' : Location, l.Same l' → ∀ at_ current,
      (checkCross tree l at_ current e.2).Perm (checkCross tree l' at_ current e.2)) (at_ : Path) :
    (crossInstances tree m at_ cs).Perm (crossInstances tree n at_ cs) := by
  induction cs with
  | nil => rfl
  | cons e cs ih =>
    obtain ⟨key,inst⟩ := e
    rw [crossInstances,crossInstances]
    exact (hall (key,inst) List.mem_cons_self _ _ (.inst h) _ _).append
      (ih (fun e he => hall e (List.mem_cons_of_mem _ he)))

/-- What a tree means is checked alike, up to the order of what is reported. -/
theorem checkCross_same (tree : ConfigTree) (m : Node) {l l' : Location} (h : l.Same l') (at_ : Path)
    (current : Option String) : (checkCross tree l at_ current m).Perm (checkCross tree l' at_ current m) := by
  induction m using Node.induct generalizing l l' at_ current with
  | values c vs =>
    cases h with
    | node h | inst h =>
      rw [checkCross,checkCross]
      exact h.constraints.flatMap_right _
    | value h => rw [checkCross,checkCross]
  | interior c cs ih =>
    have hall : ∀ e ∈ cs, ∀ l l' : Location, l.Same l' → ∀ at_ current,
        (checkCross tree l at_ current e.2).Perm (checkCross tree l' at_ current e.2) :=
      fun e he _ _ hsame at_ current => ih e he hsame at_ current
    cases h with
    | @node m n h =>
      rw [checkCross,checkCross,h.isTag]
      refine (h.constraints.flatMap_right _).append ?_
      cases n.isTag with
      | true => exact (h.unique.flatMap_right _).append (crossInstances_same h hall at_)
      | false =>
        have hrequired := checkRequired_same h cs at_
        exact ((List.Perm.of_eq hrequired).append (h.exclusive.flatMap_right _)).append
          (crossChildren_same h hall at_ current)
    | inst h =>
      rw [checkCross,checkCross,checkRequired_same h]
      exact (((h.constraints.flatMap_right _).append (.refl _)).append (h.exclusive.flatMap_right _)).append
        (crossChildren_same h hall at_ current)
    | value h => rw [checkCross,checkCross]

/-- A list is sorted into the same order whatever order it had. -/
theorem insertionSort_eq_of_perm {α : Type} (r : α → α → Prop) [DecidableRel r] [Std.Total r] [IsTrans α r]
    [Std.Antisymm r] {l l' : List α} (h : l.Perm l') : l.insertionSort r = l'.insertionSort r := by
  have hperm := (List.perm_insertionSort r l).trans (h.trans (List.perm_insertionSort r l').symm)
  exact hperm.eq_of_pairwise' (List.pairwise_insertionSort r l) (List.pairwise_insertionSort r l')

namespace SameSchema
variable {s t : Schema}

theorem validateTree (h : SameSchema s t) (config : ConfigTree) : s.validateTree config = t.validateTree config :=
  checkTypes_same config.root (.node h.root) Path.root

theorem checkConstraints (h : SameSchema s t) (config : ConfigTree) :
    s.checkConstraints config = t.checkConstraints config := by
  have hanti : Std.Antisymm (fun a b : ConstraintViolation =>
      toLex (a.path,a.message) ≤ toLex (b.path,b.message)) := by
    refine ⟨fun a b hab hba => ?_⟩
    obtain ⟨p,message⟩ := a
    obtain ⟨q,message'⟩ := b
    have heq := toLex.injective (le_antisymm hab hba)
    cases heq
    rfl
  have htotal : Std.Total (fun a b : ConstraintViolation =>
      toLex (a.path,a.message) ≤ toLex (b.path,b.message)) := ⟨fun a b => le_total _ _⟩
  have htrans : IsTrans ConstraintViolation (fun a b =>
      toLex (a.path,a.message) ≤ toLex (b.path,b.message)) := ⟨fun a b c hab hbc => le_trans hab hbc⟩
  have hcross := checkCross_same config config.root (.node h.root) Path.root none
  unfold Schema.checkConstraints
  rw [insertionSort_eq_of_perm _ (hcross.append (h.globals.flatMap_right (checkGlobal config)))]

end SameSchema

/-! ### Files -/

namespace Loader

theorem AgreeAll.refl (cs : List (String × RawNode)) : AgreeAll cs cs := by
  have hfield {α : Type} [BEq α] (a : Option α) : FieldAgree a a := fun x hx y hy _ => Option.some.inj (hx.symm.trans hy)
  have hnode : ∀ n : RawNode, n.Agree n := by
    intro n
    induction n using RawNode.induct with
    | node n ih =>
      refine .mk ⟨hfield _,hfield _,hfield _,hfield _⟩ (fun name c d hc hd => ?_)
      obtain rfl := Option.some.inj (hc.symm.trans hd)
      exact ih _ (lookup_mem hc)
  intro name c hc d hd
  obtain rfl := Option.some.inj (hc.symm.trans hd)
  exact hnode c

end Loader
end Nightshade.Schema
