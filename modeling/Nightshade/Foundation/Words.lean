import Mathlib

/-! The stretches of a list between separators: what they are made of, and how they come apart. -/
namespace Nightshade.Foundation
variable {α : Type*} {p : α → Bool} {s t : List α}

/-- The stretches between separators, without the empty ones. -/
def stretches (p : α → Bool) (text : List α) : List (List α) := (text.splitOnP p).filter (!·.isEmpty)

/-- A stretch with no separator in it. -/
structure Whole (p : α → Bool) (s : List α) : Prop where
  nonempty : s ≠ []
  unparted : ∀ c ∈ s, p c = false

@[simp] theorem stretches_nil : stretches p [] = [] := rfl

/-- A separator parts what is before it from what is behind it. -/
theorem stretches_append_cons {c : α} (hc : p c = true) (s t : List α) :
    stretches p (s ++ c::t) = stretches p s ++ stretches p t := by
  rw [stretches,List.splitOnP_append_cons s t hc,List.filter_append]
  rfl

theorem stretches_cons {c : α} (hc : p c = true) (t : List α) : stretches p (c::t) = stretches p t :=
  stretches_append_cons hc [] t

theorem stretches_whole (hs : Whole p s) : stretches p s = [s] := by
  rw [stretches,List.splitOnP_eq_singleton hs.unparted,List.filter_cons_of_pos (by simpa using hs.nonempty)]
  rfl

theorem stretches_whole_append {c : α} (hs : Whole p s) (hc : p c = true) (t : List α) :
    stretches p (s ++ c::t) = s::stretches p t := by
  rw [stretches_append_cons hc,stretches_whole hs,List.singleton_append]

/-- Separators alone leave nothing. -/
theorem stretches_eq_nil (h : ∀ c ∈ s, p c = true) : stretches p s = [] := by
  induction s with
  | nil => rfl
  | cons c s ih => rw [stretches_cons (h c List.mem_cons_self),ih (fun d hd => h d (List.mem_cons_of_mem _ hd))]

theorem stretches_append_separators (h : ∀ c ∈ t, p c = true) (s : List α) : stretches p (s ++ t) = stretches p s := by
  cases t with
  | nil => rw [List.append_nil]
  | cons c t =>
    have hrest : stretches p t = [] := stretches_eq_nil (fun d hd => h d (List.mem_cons_of_mem _ hd))
    rw [stretches_append_cons (h c List.mem_cons_self),hrest,List.append_nil]

/-- Every list starts with a part that has no separator, and that ends it or is followed by one. -/
theorem exists_part (p : α → Bool) (t : List α) :
    ∃ s, (∀ c ∈ s, p c = false) ∧ (t = s ∨ ∃ c u, p c = true ∧ t = s ++ c::u) := by
  refine ⟨t.takeWhile (fun c => !p c),fun c hc => by simpa using List.mem_takeWhile_imp hc,?_⟩
  have hsplit := List.takeWhile_append_dropWhile (p := fun c => !p c) (l := t)
  cases hrest : t.dropWhile (fun c => !p c) with
  | nil =>
    rw [hrest,List.append_nil] at hsplit
    exact .inl hsplit.symm
  | cons c u =>
    have hhead := List.head?_dropWhile_not (fun c => !p c) t
    rw [hrest] at hhead hsplit
    exact .inr ⟨c,u,by simpa using hhead,hsplit.symm⟩

theorem whole_of_mem_stretches (h : s ∈ stretches p t) : Whole p s := by
  induction hn : t.length using Nat.strong_induction_on generalizing t with
  | _ n ih =>
    obtain ⟨part,hpart,rfl | ⟨c,u,hc,rfl⟩⟩ := exists_part p t
    · by_cases hempty : t = []
      · subst hempty
        cases h
      · rw [stretches_whole ⟨hempty,hpart⟩,List.mem_singleton] at h
        exact h ▸ ⟨hempty,hpart⟩
    · rw [stretches_append_cons hc,List.mem_append] at h
      obtain h | h := h
      · exact ih part.length (by rw [← hn]; simp) h rfl
      · exact ih u.length (by rw [← hn]; simp; omega) h rfl

end Nightshade.Foundation
