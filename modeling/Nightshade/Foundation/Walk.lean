import Mathlib

/-! Going through files that name each other, each of them once, and gathering what is missing. The walk ends
whatever cycles there are, and has been exactly where one can get. -/
namespace Nightshade.Foundation
variable {K D : Type*} [DecidableEq K]

/-- What a walk has come by: the files it has entered, those that were not there, and what was not met, with the
file that asks for it. -/
structure Trail (K D : Type*) where
  seen : Finset K
  absent : List K
  unmet : List (D × K)

def Trail.start : Trail K D := ⟨∅,[],[]⟩

/-- One item of a file: another file to go through, or something that is to be met. -/
def follow (met : D → Bool) (visit : K → Trail K D → Option (Trail K D)) (name : K) (t : Trail K D) :
    K ⊕ D → Option (Trail K D)
  | .inl other => visit other t
  | .inr d => some (if met d then t else {t with unmet := t.unmet ++ [(d,name)]})

section Walk
variable (read : K → Option (List (K ⊕ D))) (met : D → Bool)

/-- Go through a file and all that it names; nothing when the walk gets deeper than it may. -/
def explore : ℕ → K → Trail K D → Option (Trail K D)
  | 0, _, _ => none
  | n+1, name, t =>
    if name ∈ t.seen then some t
    else
      let t := {t with seen := insert name t.seen}
      match read name with
      | none => some {t with absent := t.absent ++ [name]}
      | some items => items.foldlM (follow met (explore n) name) t

/-- One root after another. -/
def exploreAll (n : ℕ) (roots : List K) : Option (Trail K D) :=
  roots.foldlM (fun t name => explore read met n name t) Trail.start

/-- A file that can be got to. -/
inductive Reached (roots : List K) : K → Prop
  | root {k : K} (mem : k ∈ roots) : Reached roots k
  | step {k other : K} {items : List (K ⊕ D)} (reached : Reached roots k) (found : read k = some items)
      (named : .inl other ∈ items) : Reached roots other

/-- What comes by on the way from one trail to a later one: files that pass a test, all they name, and exactly what is
missing in them; and some things besides. -/
structure Grown (P : K → Prop) (besides : D → K → Prop) (t t' : Trail K D) : Prop where
  seen : t.seen ⊆ t'.seen
  only : ∀ k ∈ t'.seen, k ∉ t.seen → P k
  closed : ∀ k ∈ t'.seen, k ∉ t.seen → ∀ items, read k = some items → ∀ other, .inl other ∈ items → other ∈ t'.seen
  absent : ∀ k, k ∈ t'.absent ↔ k ∈ t.absent ∨ k ∈ t'.seen ∧ k ∉ t.seen ∧ read k = none
  unmet : ∀ d k, (d,k) ∈ t'.unmet ↔ (d,k) ∈ t.unmet ∨ besides d k ∨
    k ∈ t'.seen ∧ k ∉ t.seen ∧ ∃ items, read k = some items ∧ .inr d ∈ items ∧ met d = false

end Walk

variable {read : K → Option (List (K ⊕ D))} {met : D → Bool} {P : K → Prop} {besides more : D → K → Prop}
  {t u v : Trail K D} {n : ℕ} {name : K} {roots : List K}

omit [DecidableEq K] in
theorem Grown.refl (t : Trail K D) : Grown read met P (fun _ _ => False) t t := by
  refine ⟨subset_rfl,fun k hk hnot => absurd hk hnot,fun k hk hnot => absurd hk hnot,fun k => ?_,fun d k => ?_⟩
  · exact (or_iff_left (fun h => h.2.1 h.1)).symm
  · exact (or_iff_left (fun h => h.elim id (fun h => h.2.1 h.1))).symm

theorem Grown.trans (h : Grown read met P besides t u) (h' : Grown read met P more u v) :
    Grown read met P (fun d k => besides d k ∨ more d k) t v := by
  have hnew : ∀ k, (k ∈ v.seen ∧ k ∉ t.seen) ↔ (k ∈ u.seen ∧ k ∉ t.seen) ∨ (k ∈ v.seen ∧ k ∉ u.seen) := by
    intro k
    have htu := @h.seen k
    have huv := @h'.seen k
    tauto
  refine ⟨h.seen.trans h'.seen,fun k hk hnot => ?_,fun k hk hnot items hread other hother => ?_,fun k => ?_,
    fun d k => ?_⟩
  · obtain ⟨hu,ht⟩ | ⟨hv,hu⟩ := (hnew k).mp ⟨hk,hnot⟩
    · exact h.only k hu ht
    · exact h'.only k hv hu
  · obtain ⟨hu,ht⟩ | ⟨hv,hu⟩ := (hnew k).mp ⟨hk,hnot⟩
    · exact h'.seen (h.closed k hu ht items hread other hother)
    · exact h'.closed k hv hu items hread other hother
  · rw [h'.absent,h.absent,← and_assoc,← and_assoc,← and_assoc,hnew]
    tauto
  · rw [h'.unmet,h.unmet,← and_assoc,← and_assoc,← and_assoc,hnew]
    generalize (∃ items, read k = some items ∧ Sum.inr d ∈ items ∧ met d = false) = missing
    tauto

omit [DecidableEq K] in
theorem Grown.congr (h : Grown read met P besides t u) (hiff : ∀ d k, besides d k ↔ more d k) :
    Grown read met P more t u := by
  obtain rfl : besides = more := funext₂ (fun d k => propext (hiff d k))
  exact h

end Nightshade.Foundation
