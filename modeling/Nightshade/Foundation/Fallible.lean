import Mathlib
import Nightshade.Foundation.SortedMap

/-! Computations that may fail with an error: how they are taken apart, what holds of the state of a loop, and
when the order of a loop does not matter. -/
namespace Nightshade.Foundation

section
variable {ε α β : Type}

/-- A computation in two steps succeeds if both do. -/
theorem bind_eq_ok {x : Except ε α} {f : α → Except ε β} {b : β} :
    x >>= f = .ok b ↔ ∃ a, x = .ok a ∧ f a = .ok b := by
  cases x with
  | error e => simp [bind,Except.bind]
  | ok a => simp [bind,Except.bind]

theorem map_eq_ok {x : Except ε α} {f : α → β} {b : β} : x.map f = .ok b ↔ ∃ a, x = .ok a ∧ f a = b := by
  cases x with
  | error e => simp [Except.map]
  | ok a => simp [Except.map]

theorem mapError_eq_ok_iff {ε' : Type} {x : Except ε α} {f : ε → ε'} {a : α} :
    x.mapError f = .ok a ↔ x = .ok a := by
  cases x with
  | error e => simp [Except.mapError]
  | ok b => simp [Except.mapError]

end

section
variable {ε α σ : Type} {step : σ → α → Except ε σ} {l : List α} {s s' : σ}

theorem foldlM_cons_eq_ok {a : α} : (a::l).foldlM step s = .ok s' ↔
    ∃ t, step s a = .ok t ∧ l.foldlM step t = .ok s' := by
  rw [List.foldlM_cons,bind_eq_ok]

theorem foldlM_nil_eq_ok : ([] : List α).foldlM step s = .ok s' ↔ s = s' := by
  simp [pure,Except.pure]

/-- A loop whose steps succeed does. -/
theorem foldlM_ok (h : ∀ a ∈ l, ∀ s, ∃ s', step s a = .ok s') (s : σ) : ∃ s', l.foldlM step s = .ok s' := by
  induction l generalizing s with
  | nil => exact ⟨s,rfl⟩
  | cons a l ih =>
    obtain ⟨t,hstep⟩ := h a List.mem_cons_self s
    obtain ⟨s',hrest⟩ := ih (fun b hb => h b (List.mem_cons_of_mem a hb)) t
    exact ⟨s',foldlM_cons_eq_ok.mpr ⟨t,hstep,hrest⟩⟩

/-- What every step keeps is kept by the loop. -/
theorem foldlM_invariant {P : σ → Prop} (hstep : ∀ a ∈ l, ∀ s s', P s → step s a = .ok s' → P s')
    (hs : P s) (h : l.foldlM step s = .ok s') : P s' := by
  induction l generalizing s with
  | nil => exact foldlM_nil_eq_ok.mp h ▸ hs
  | cons a l ih =>
    obtain ⟨t,ha,hrest⟩ := foldlM_cons_eq_ok.mp h
    exact ih (fun b hb => hstep b (List.mem_cons_of_mem a hb)) (hstep a List.mem_cons_self s t hs ha) hrest

end

section
variable {ε α β : Type} {f : α → Except ε β}

theorem mapM_eq_ok {l : List α} {results : List β} :
    l.mapM f = .ok results ↔ List.Forall₂ (fun a b => f a = .ok b) l results := by
  induction l generalizing results with
  | nil => simp [pure,Except.pure,eq_comm]
  | cons a l ih =>
    rw [List.mapM_cons,bind_eq_ok,List.forall₂_cons_left_iff]
    simp only [bind_eq_ok,ih]
    constructor
    · rintro ⟨b,hb,others,hothers,hresults⟩
      exact ⟨b,others,hb,hothers,(Except.ok.inj hresults).symm⟩
    · rintro ⟨b,others,hb,hothers,rfl⟩
      exact ⟨b,hb,others,hothers,rfl⟩

theorem mapM_ok {l : List α} (h : ∀ a ∈ l, ∃ b, f a = .ok b) : ∃ results, l.mapM f = .ok results := by
  induction l with
  | nil => exact ⟨[],rfl⟩
  | cons a l ih =>
    obtain ⟨b,hb⟩ := h a List.mem_cons_self
    obtain ⟨results,hresults⟩ := ih (fun c hc => h c (List.mem_cons_of_mem a hc))
    exact ⟨b::results,mapM_eq_ok.mpr (.cons hb (mapM_eq_ok.mp hresults))⟩

end

/-- Entries of a map that are made one by one out of those of another stand in the same order. -/
theorem foldlM_insertKey_eq_ok {K : Type} [LinearOrder K] {ε V W : Type} {f : K × V → Except ε W} {l : List (K × V)}
    (h : KeySorted l) {done results : List (K × W)} (hdone : ∀ d ∈ done, ∀ e ∈ l, d.1 < e.1) :
    l.foldlM (fun done e => do return insertKey e.1 (← f e) done) done = .ok results ↔
      ∃ made, results = done ++ made ∧ List.Forall₂ (fun e m => m.1 = e.1 ∧ f e = .ok m.2) l made := by
  induction l generalizing done with
  | nil => simp [pure,Except.pure,eq_comm]
  | cons e l ih =>
    obtain ⟨hfirst,hrest⟩ := keySorted_cons.mp h
    rw [foldlM_cons_eq_ok]
    have hlater : ∀ w : W, ∀ d ∈ done ++ [(e.1,w)], ∀ e' ∈ l, d.1 < e'.1 := by
      intro w d hd e' he'
      obtain hd | hd := List.mem_append.mp hd
      · exact hdone d hd e' (List.mem_cons_of_mem e he')
      · rw [List.mem_singleton.mp hd]
        exact hfirst e' he'
    have hinsert (w : W) : insertKey e.1 w done = done ++ [(e.1,w)] :=
      insertKey_of_gt w (fun d hd => hdone d hd e List.mem_cons_self)
    constructor
    · rintro ⟨next,hnext,hothers⟩
      obtain ⟨w,hw,hnext⟩ := bind_eq_ok.mp hnext
      rw [hinsert] at hnext
      obtain rfl := Except.ok.inj hnext
      obtain ⟨made,rfl,hmade⟩ := (ih hrest (hlater w)).mp hothers
      exact ⟨(e.1,w)::made,by simp,.cons ⟨rfl,hw⟩ hmade⟩
    · rintro ⟨made,rfl,hmade⟩
      obtain ⟨m,made,⟨hname,hm⟩,hothers,rfl⟩ := List.forall₂_cons_left_iff.mp hmade
      refine ⟨done ++ [m],bind_eq_ok.mpr ⟨m.2,hm,?_⟩,?_⟩
      · rw [hinsert,← hname]
        rfl
      · have hmine := hlater m.2
        rw [← hname] at hmine
        exact (ih hrest hmine).mpr ⟨made,by simp,hothers⟩

end Nightshade.Foundation
