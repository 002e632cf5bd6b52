import Mathlib
import Nightshade.Foundation.Subsequence
import Nightshade.Cli.Output

/-! The comparison of two texts: the table holds the lengths it is said to hold, and the walk through it
keeps as many lines as any could. -/
namespace Nightshade.Cli
open Foundation

/-- The line that an edit leaves as it is. -/
def Edit.kept : Edit → Option (List Char)
  | .same line => some line
  | .added _ | .removed _ => none

namespace LineDiff

theorem row_eq (line : List Char) (before after : List (List Char)) :
    row line after (after.tails.map (lcs before)) = after.tails.map (lcs (line::before)) := by
  induction after with
  | nil => simp [row]
  | cons b after ih =>
    rw [List.tails_cons,List.map_cons,List.map_cons,row,ih]
    have hnext : ∀ s, (after.tails.map (lcs s)).headD 0 = lcs s after := by
      intro s
      cases after <;> simp
    rw [hnext,hnext]
    by_cases heq : line = b
    · rw [if_pos heq,heq,lcs_cons_self]
    · rw [if_neg heq,lcs_cons_of_ne heq]

/-- The entry of a line and a line is the length for the texts from these lines on. -/
theorem lengths_eq (before after : List (List Char)) :
    lengths after before = before.tails.map (fun s => after.tails.map (lcs s)) := by
  induction before with
  | nil =>
    have hzero : after.tails.map (lcs []) = List.replicate (after.length+1) 0 := by
      rw [List.eq_replicate_iff]
      simp
    rw [lengths,List.tails,List.map_singleton,hzero]
  | cons line before ih =>
    have hbelow : (lengths after before).headD [] = after.tails.map (lcs before) := by
      rw [ih]
      cases before <;> simp
    rw [lengths,hbelow,row_eq,ih,List.tails_cons,List.map_cons]

theorem lengths_get (before after : List (List Char)) {i j : ℕ} (hi : i ≤ before.length) (hj : j ≤ after.length) :
    ((lengths after before).getD i []).getD j 0 = lcs (before.drop i) (after.drop j) := by
  have hrow : before.tails[i]? = some (before.drop i) := by
    rw [List.getElem?_eq_getElem (by simpa using Nat.lt_succ_of_le hi),List.getElem_tails]
  have hentry : after.tails[j]? = some (after.drop j) := by
    rw [List.getElem?_eq_getElem (by simpa using Nat.lt_succ_of_le hj),List.getElem_tails]
  simp [lengths_eq,List.getD_eq_getElem?_getD,hrow,hentry]

/-- A table with the lengths for the texts from two lines on. -/
def Fills (table : List (List ℕ)) (i j : ℕ) (before after : List (List Char)) : Prop :=
  ∀ k l, k ≤ before.length → l ≤ after.length →
    (table.getD (i+k) []).getD (j+l) 0 = lcs (before.drop k) (after.drop l)

variable {table : List (List ℕ)} {i j : ℕ} {b a : List Char} {before after : List (List Char)}

theorem Fills.down (h : Fills table i j (b::before) after) : Fills table (i+1) j before after := by
  intro k l hk hl
  have hentry := h (k+1) l (Nat.succ_le_succ hk) hl
  rw [List.drop_succ_cons] at hentry
  rw [← hentry,show i+1+k = i+(k+1) by omega]

theorem Fills.right (h : Fills table i j before (a::after)) : Fills table i (j+1) before after := by
  intro k l hk hl
  have hentry := h k (l+1) hk (Nat.succ_le_succ hl)
  rw [List.drop_succ_cons] at hentry
  rw [← hentry,show j+1+l = j+(l+1) by omega]

/-- The walk keeps as many lines as a longest common subsequence has. -/
theorem walk_kept (h : Fills table i j before after) :
    ((walk table i j before after).filterMap Edit.kept).length = lcs before after := by
  induction i, j, before, after using walk.induct table with
  | case1 i j b before after ih =>
    rw [walk,if_pos rfl,List.filterMap_cons,Edit.kept,List.length_cons,ih h.down.right,lcs_cons_self]
  | case2 i j b before a after hne hle ih =>
    have hlower := h 1 0 (by simp) (by simp)
    have hfurther := h 0 1 (by simp) (by simp)
    simp only [Nat.add_zero,List.drop_zero,List.drop_succ_cons] at hlower hfurther
    rw [walk,if_neg hne,if_pos hle,List.filterMap_cons,Edit.kept,ih h.down,lcs_cons_of_ne hne]
    omega
  | case3 i j b before a after hne hle ih =>
    have hlower := h 1 0 (by simp) (by simp)
    have hfurther := h 0 1 (by simp) (by simp)
    simp only [Nat.add_zero,List.drop_zero,List.drop_succ_cons] at hlower hfurther
    rw [walk,if_neg hne,if_neg hle,List.filterMap_cons,Edit.kept,ih h.right,lcs_cons_of_ne hne]
    omega
  | case4 i j before after hend =>
    have hnone : ∀ lines : List (List Char), (lines.map Edit.removed).filterMap Edit.kept = [] ∧
        (lines.map Edit.added).filterMap Edit.kept = [] := by
      intro lines
      simp [List.filterMap_map,Function.comp_def,Edit.kept]
    have hzero : lcs before after = 0 := by
      cases before with
      | nil => exact lcs_nil_left after
      | cons b before =>
        cases after with
        | nil => exact lcs_nil_right _
        | cons a after => exact absurd rfl (hend b before a after rfl)
    rw [walk,List.filterMap_append,(hnone before).1,(hnone after).2,hzero]
    · rfl
    · exact hend

/-- What a walk keeps is in both texts. -/
theorem kept_sublist (edits : List Edit) :
    (edits.filterMap Edit.kept).Sublist (edits.filterMap Edit.before) ∧
      (edits.filterMap Edit.kept).Sublist (edits.filterMap Edit.after) := by
  induction edits with
  | nil => exact ⟨.slnil,.slnil⟩
  | cons edit edits ih =>
    obtain ⟨hbefore,hafter⟩ := ih
    cases edit with
    | same line => exact ⟨hbefore.cons_cons line,hafter.cons_cons line⟩
    | added line => exact ⟨hbefore,hafter.cons line⟩
    | removed line => exact ⟨hbefore.cons line,hafter⟩

end LineDiff

/-- The edits spell both texts, and no two texts have more lines in common than are left as they are. -/
theorem lineDiff_minimal (before after : List (List Char)) :
    (lineDiff before after).filterMap Edit.before = before ∧
    (lineDiff before after).filterMap Edit.after = after ∧
    ((lineDiff before after).filterMap Edit.kept).Sublist before ∧
    ((lineDiff before after).filterMap Edit.kept).Sublist after ∧
    ∀ common : List (List Char), common.Sublist before → common.Sublist after →
      common.length ≤ ((lineDiff before after).filterMap Edit.kept).length := by
  obtain ⟨hbefore,hafter⟩ := lineDiff_texts before after
  obtain ⟨hkept,hkept'⟩ := LineDiff.kept_sublist (lineDiff before after)
  rw [hbefore] at hkept
  rw [hafter] at hkept'
  have hfills : LineDiff.Fills (LineDiff.lengths after before) 0 0 before after := by
    intro k l hk hl
    rw [Nat.zero_add,Nat.zero_add]
    exact LineDiff.lengths_get before after hk hl
  have hlength : ((lineDiff before after).filterMap Edit.kept).length = lcs before after :=
    LineDiff.walk_kept hfills
  refine ⟨hbefore,hafter,hkept,hkept',fun common hcommon hcommon' => ?_⟩
  rw [hlength]
  exact length_le_lcs hcommon hcommon'

example : lineDiff [['a'],['b'],['c']] [['b'],['c'],['d']] =
    [.removed ['a'],.same ['b'],.same ['c'],.added ['d']] := by decide +kernel

end Nightshade.Cli
