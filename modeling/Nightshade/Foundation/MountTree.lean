import Mathlib

/-! Mounts on each other's directories, the newest first. What is unmounted alone must have nothing mounted inside. -/
namespace Nightshade.Foundation
variable {S K : Type*} [DecidableEq S] [DecidableEq K]

/-- What is mounted, and at which path. -/
structure Mount (S K : Type*) where
  source : S
  point : List K
  deriving DecidableEq, Repr

/-- A mount further down than a path. -/
def Mount.inside (m : Mount S K) (point : List K) : Bool := decide (point <+: m.point ∧ point ≠ m.point)

/-- Take down what was mounted last at a path, which must not be in use by a mount inside. -/
def umount (point : List K) (mounts : List (Mount S K)) : Option (List (Mount S K)) :=
  if mounts.any (·.point = point) && !mounts.any (·.inside point) then some (mounts.eraseP (·.point = point))
  else none

/-- Take down whatever is mounted at a path and below it. -/
def umountTree (point : List K) (mounts : List (Mount S K)) : Option (List (Mount S K)) :=
  if mounts.any (·.point = point) then some (mounts.filter (fun m => ¬ point <+: m.point)) else none

/-- Take down everything of a kind that nothing is mounted inside of, the newest first. -/
def umountAll (p : S → Bool) (mounts : List (Mount S K)) : List (Mount S K) :=
  mounts.foldl (fun left m => if p m.source && !left.any (·.inside m.point) then left.erase m else left) mounts

variable {mounts rest tops : List (Mount S K)} {points : List (List K)} {p : S → Bool} {m : Mount S K}

omit [DecidableEq S] in
/-- Trees that are all there are taken down with all that is in them, one after another. -/
theorem foldl_umountTree
    (h : ∀ point ∈ points, (∃ m ∈ mounts, point <+: m.point) → ∃ m ∈ mounts, m.point = point) :
    points.foldl (fun mounts point => (umountTree point mounts).getD mounts) mounts =
      mounts.filter (fun m => ∀ point ∈ points, ¬ point <+: m.point) := by
  induction points generalizing mounts with
  | nil => simp
  | cons point points ih =>
    have hhead : (umountTree point mounts).getD mounts = mounts.filter (fun m => ¬ point <+: m.point) := by
      unfold umountTree
      split
      · rfl
      · next hnone =>
        have hout : ∀ m ∈ mounts, ¬ point <+: m.point := by
          intro m hm hbelow
          obtain ⟨m',hm',hpoint⟩ := h point List.mem_cons_self ⟨m,hm,hbelow⟩
          exact hnone (List.any_eq_true.mpr ⟨m',hm',decide_eq_true hpoint⟩)
        exact (List.filter_eq_self.mpr (fun m hm => by simpa using hout m hm)).symm
    rw [List.foldl_cons,hhead,ih,List.filter_filter]
    · refine List.filter_congr (fun m _ => ?_)
      rw [← Bool.decide_and]
      simp only [List.mem_cons,forall_eq_or_imp,and_comm]
    · rintro other hother ⟨m,hm,hbelow⟩
      obtain ⟨hm,hout⟩ := List.mem_filter.mp hm
      obtain ⟨m',hm',hpoint⟩ := h other (List.mem_cons_of_mem _ hother) ⟨m,hm,hbelow⟩
      refine ⟨m',List.mem_filter.mpr ⟨hm',decide_eq_true (fun hpre => of_decide_eq_true hout ?_)⟩,hpoint⟩
      rw [hpoint] at hpre
      exact hpre.trans hbelow

omit [DecidableEq S] in
/-- Mounts with nothing inside of them are taken down one after another. -/
theorem foldl_umount (h : ∀ t ∈ tops, ∀ m ∈ tops ++ rest, m.inside t.point = false) :
    (tops.map Mount.point).foldl (fun mounts point => (umount point mounts).getD mounts) (tops ++ rest) = rest := by
  induction tops with
  | nil => rfl
  | cons t tops ih =>
    have hfree : ((t::tops) ++ rest).any (·.inside t.point) = false :=
      List.any_eq_false.mpr (fun m hm => by simp [h t List.mem_cons_self m hm])
    have hhead : umount t.point ((t::tops) ++ rest) = some (tops ++ rest) := by
      unfold umount
      rw [hfree,if_pos (by simp)]
      simp
    rw [List.map_cons,List.foldl_cons,hhead,Option.getD_some]
    exact ih (fun t' ht' m hm => h t' (List.mem_cons_of_mem _ ht') m (List.mem_cons_of_mem _ hm))

/-- When nothing lies inside of something newer, all goes. -/
theorem umountAll_eq_nil (hkind : ∀ m ∈ mounts, p m.source = true)
    (horder : mounts.Pairwise (fun newer older => older.inside newer.point = false)) : umountAll p mounts = [] := by
  unfold umountAll
  induction mounts with
  | nil => rfl
  | cons m mounts ih =>
    obtain ⟨hm,hrest⟩ := List.pairwise_cons.mp horder
    have hfree : (m::mounts).any (·.inside m.point) = false := by
      refine List.any_eq_false.mpr (fun other hother => ?_)
      obtain rfl | hother := List.mem_cons.mp hother
      · simp [Mount.inside]
      · simp [hm other hother]
    rw [List.foldl_cons,hfree,hkind m List.mem_cons_self,if_pos (by simp),List.erase_cons_head]
    exact ih (fun other hother => hkind other (List.mem_cons_of_mem _ hother)) hrest

/-! ### What stays -/

omit [DecidableEq S] in
theorem mem_foldl_umountTree (hm : m ∈ mounts) (h : ∀ point ∈ points, ¬ point <+: m.point) :
    m ∈ points.foldl (fun mounts point => (umountTree point mounts).getD mounts) mounts := by
  induction points generalizing mounts with
  | nil => exact hm
  | cons point points ih =>
    refine ih ?_ (fun other hother => h other (List.mem_cons_of_mem _ hother))
    show m ∈ (umountTree point mounts).getD mounts
    unfold umountTree
    split
    · exact List.mem_filter.mpr ⟨hm,decide_eq_true (h point List.mem_cons_self)⟩
    · exact hm

omit [DecidableEq S] in
theorem mem_foldl_umount (hm : m ∈ mounts) (h : m.point ∉ points) :
    m ∈ points.foldl (fun mounts point => (umount point mounts).getD mounts) mounts := by
  induction points generalizing mounts with
  | nil => exact hm
  | cons point points ih =>
    obtain ⟨hne,hrest⟩ := not_or.mp (mt List.mem_cons.mpr h)
    refine ih ?_ hrest
    show m ∈ (umount point mounts).getD mounts
    unfold umount
    split
    · exact (List.mem_eraseP_of_neg (by simpa using hne)).mpr hm
    · exact hm

theorem mem_umountAll (hm : m ∈ mounts) (hkind : p m.source = false) : m ∈ umountAll p mounts := by
  unfold umountAll
  have hall : ∀ (snapshot left : List (Mount S K)), m ∈ left → m ∈ snapshot.foldl
      (fun left m => if p m.source && !left.any (·.inside m.point) then left.erase m else left) left := by
    intro snapshot
    induction snapshot with
    | nil => exact fun left hleft => hleft
    | cons other snapshot ih =>
      intro left hleft
      rw [List.foldl_cons]
      refine ih _ ?_
      split
      · next hdown =>
        have hne : m ≠ other := by
          rintro rfl
          rw [hkind] at hdown
          cases hdown
        exact (List.mem_erase_of_ne hne).mpr hleft
      · exact hleft
  exact hall mounts mounts hm

end Nightshade.Foundation
