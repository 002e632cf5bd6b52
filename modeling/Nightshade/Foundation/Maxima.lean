import Mathlib

/-! The largest of the elements of a list that pass a test, by a number. A loop that keeps the best so far and
changes it for nothing but a larger one ends with the first of the largest. -/
namespace Nightshade.Foundation
variable {α : Type*} (good : α → Prop) [DecidablePred good] (key : α → ℕ)

/-- Change the best so far only for a larger one. -/
def larger (best : Option α) (a : α) : Option α :=
  if good a ∧ ∀ b ∈ best, key b < key a then some a else best

/-- Those that pass the test and have none above them, in order. -/
def maxima (l : List α) : List α := l.filter (fun a => good a ∧ ∀ b ∈ l, good b → key b ≤ key a)

variable {good key} {l : List α} {a b : α}

@[simp] theorem mem_maxima : a ∈ maxima good key l ↔ a ∈ l ∧ good a ∧ ∀ b ∈ l, good b → key b ≤ key a := by
  simp [maxima]

theorem key_eq_of_maxima (ha : a ∈ maxima good key l) (hb : b ∈ maxima good key l) : key a = key b := by
  rw [mem_maxima] at ha hb
  exact le_antisymm (hb.2.2 a ha.1 ha.2.1) (ha.2.2 b hb.1 hb.2.1)

/-- Nothing before it is as large, and nothing behind it is larger. -/
def Leads (good : α → Prop) (key : α → ℕ) (l : List α) (a : α) : Prop :=
  ∃ before after, l = before ++ a::after ∧ good a ∧ (∀ b ∈ before, good b → key b < key a) ∧
    ∀ b ∈ after, good b → key b ≤ key a

theorem head?_maxima_of_leads (h : Leads good key l a) : (maxima good key l).head? = some a := by
  obtain ⟨before,after,rfl,hgood,hbefore,hafter⟩ := h
  have hbelow : ∀ b ∈ before ++ a::after, good b → key b ≤ key a := by
    intro b hb hgood'
    obtain hb | hb := List.mem_append.mp hb
    · exact (hbefore b hb hgood').le
    · obtain rfl | hb := List.mem_cons.mp hb
      · exact le_rfl
      · exact hafter b hb hgood'
  have hnone : before.filter (fun b => good b ∧ ∀ c ∈ before ++ a::after, good c → key c ≤ key b) = [] := by
    refine List.filter_eq_nil_iff.mpr (fun b hb htop => ?_)
    obtain ⟨hgood',hall⟩ := of_decide_eq_true htop
    exact absurd (hall a (by simp) hgood) (not_le.mpr (hbefore b hb hgood'))
  have htop : decide (good a ∧ ∀ b ∈ before ++ a::after, good b → key b ≤ key a) = true := decide_eq_true ⟨hgood,hbelow⟩
  rw [maxima,List.filter_append,hnone,List.nil_append,List.filter_cons,if_pos htop]
  rfl

/-- What the loop has kept when it has gone through a list. -/
def Keeps (good : α → Prop) (key : α → ℕ) (l : List α) : Option α → Prop
  | none => ∀ b ∈ l, ¬good b
  | some a => Leads good key l a

theorem Keeps.step {best : Option α} (h : Keeps good key l best) (a : α) :
    Keeps good key (l ++ [a]) (larger good key best a) := by
  unfold larger
  cases best with
  | none =>
    by_cases hgood : good a
    · rw [if_pos ⟨hgood,nofun⟩]
      exact ⟨l,[],rfl,hgood,fun b hb hb' => absurd hb' (h b hb),nofun⟩
    · rw [if_neg (fun h => hgood h.1)]
      intro b hb
      obtain hb | hb := List.mem_append.mp hb
      · exact h b hb
      · rwa [List.mem_singleton.mp hb]
  | some m =>
    obtain ⟨before,after,rfl,hgood,hbefore,hafter⟩ := h
    by_cases hup : good a ∧ key m < key a
    · rw [if_pos ⟨hup.1,by rintro b ⟨rfl⟩; exact hup.2⟩]
      refine ⟨before ++ m::after,[],rfl,hup.1,fun b hb hb' => ?_,nofun⟩
      obtain hb | hb := List.mem_append.mp hb
      · exact (hbefore b hb hb').trans hup.2
      · obtain rfl | hb := List.mem_cons.mp hb
        · exact hup.2
        · exact (hafter b hb hb').trans_lt hup.2
    · rw [if_neg (fun h => hup ⟨h.1,h.2 m rfl⟩)]
      refine ⟨before,after ++ [a],by simp,hgood,hbefore,fun b hb hb' => ?_⟩
      obtain hb | hb := List.mem_append.mp hb
      · exact hafter b hb hb'
      · obtain rfl := List.mem_singleton.mp hb
        exact not_lt.mp (fun hlt => hup ⟨hb',hlt⟩)

/-- The loop ends with the first of the largest. -/
theorem foldl_larger (l : List α) : l.foldl (larger good key) none = (maxima good key l).head? := by
  have hkeeps : Keeps good key l (l.foldl (larger good key) none) := by
    induction l using List.reverseRecOn with
    | nil => exact nofun
    | append_singleton l a ih =>
      rw [List.foldl_append]
      exact ih.step a
  cases hbest : l.foldl (larger good key) none with
  | none =>
    rw [hbest] at hkeeps
    have hempty : maxima good key l = [] := List.eq_nil_iff_forall_not_mem.mpr (fun a ha =>
      hkeeps a (mem_maxima.mp ha).1 (mem_maxima.mp ha).2.1)
    rw [hempty]
    rfl
  | some a =>
    rw [hbest] at hkeeps
    exact (head?_maxima_of_leads hkeeps).symm

end Nightshade.Foundation
