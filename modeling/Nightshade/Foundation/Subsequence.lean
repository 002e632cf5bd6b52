import Mathlib

/-! The length of a longest common subsequence of two lists. -/
namespace Nightshade.Foundation

variable {α : Type*} [DecidableEq α]

/-- The recurrence: equal heads are taken, and otherwise the better of the two lists without its head. -/
def lcs : List α → List α → ℕ
  | a::s, b::t => if a = b then lcs s t + 1 else max (lcs s (b::t)) (lcs (a::s) t)
  | _, _ => 0
termination_by s t => s.length + t.length

@[simp] theorem lcs_nil_left (t : List α) : lcs [] t = 0 := by rw [lcs]; simp

@[simp] theorem lcs_nil_right (s : List α) : lcs s [] = 0 := by rw [lcs]; simp

theorem lcs_cons_self (a : α) (s t : List α) : lcs (a::s) (a::t) = lcs s t + 1 := by
  rw [lcs,if_pos rfl]

theorem lcs_cons_of_ne {a b : α} (h : a ≠ b) (s t : List α) :
    lcs (a::s) (b::t) = max (lcs s (b::t)) (lcs (a::s) t) := by
  rw [lcs,if_neg h]

/-- No common subsequence is longer. -/
theorem length_le_lcs {s t common : List α} (hs : common.Sublist s) (ht : common.Sublist t) :
    common.length ≤ lcs s t := by
  induction s, t using lcs.induct generalizing common with
  | case1 s a t ih =>
    have htail : common.tail.length ≤ lcs s t := ih hs.tail ht.tail
    rw [List.length_tail] at htail
    rw [lcs_cons_self]
    omega
  | case2 a s b t hne ihs iht =>
    rw [lcs_cons_of_ne hne]
    cases common with
    | nil => exact Nat.zero_le _
    | cons c common =>
      by_cases hc : c = a
      · -- What begins with the one head does not begin with the other.
        have hshort : (c::common).Sublist t := by
          cases ht with
          | cons _ h => exact h
          | cons_cons _ h => exact absurd hc.symm hne
        exact le_max_of_le_right (iht hs hshort)
      · have hshort : (c::common).Sublist s := by
          cases hs with
          | cons _ h => exact h
          | cons_cons _ h => exact absurd rfl hc
        exact le_max_of_le_left (ihs hshort ht)
  | case3 s t hend =>
    cases s with
    | nil => simp [List.sublist_nil.mp hs]
    | cons a s =>
      cases t with
      | nil => simp [List.sublist_nil.mp ht]
      | cons b t => exact absurd rfl (hend a s b t rfl)

end Nightshade.Foundation
