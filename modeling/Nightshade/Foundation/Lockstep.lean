import Mathlib
import Nightshade.Foundation.Effects

/-! Two programs that take the same steps, or alike ones. Run in worlds that answer these steps alike,
they end alike. -/
namespace Nightshade.Foundation
namespace Prog
variable {E : Type} {R : E → Type} {α β γ δ F W : Type}

/-- Two programs perform the same effects, all of which pass a test, and end with related values. -/
inductive Lockstep (Q : E → Prop) (rel : α → β → Prop) : Prog E R α → Prog E R β → Prop where
  | done {a : α} {b : β} (h : rel a b) : Lockstep Q rel (done a) (done b)
  | perform {e : E} {k : R e → Prog E R α} {k' : R e → Prog E R β} (he : Q e)
    (hk : ∀ r, Lockstep Q rel (k r) (k' r)) : Lockstep Q rel (perform e k) (perform e k')

variable {Q : E → Prop} {rel : α → β → Prop} {rel' : γ → δ → Prop}

theorem Lockstep.mono {rel' : α → β → Prop} {p : Prog E R α} {p' : Prog E R β} (h : p.Lockstep Q rel p')
    (hrel : ∀ a b, rel a b → rel' a b) : p.Lockstep Q rel' p' := by
  induction h with
  | done h => exact .done (hrel _ _ h)
  | perform he _ ih => exact .perform he ih

theorem Lockstep.bind {p : Prog E R α} {p' : Prog E R β} {f : α → Prog E R γ} {f' : β → Prog E R δ}
    (h : p.Lockstep Q rel p') (hf : ∀ a b, rel a b → (f a).Lockstep Q rel' (f' b)) :
    (p.bind f).Lockstep Q rel' (p'.bind f') := by
  induction h with
  | done h => exact hf _ _ h
  | perform he _ ih => exact .perform he ih

/-- A program keeps step with itself. -/
theorem Only.lockstep {p : Prog E R α} (h : p.Only Q) : p.Lockstep Q (· = ·) p := by
  induction p with
  | done a => exact .done rfl
  | perform e k ih => exact .perform h.1 (fun r => ih r (h.2 r))

/-- Both ends of two runs, or neither. -/
def SameEnd (rel : α → β → Prop) (same : W → W → Prop) : Option α × W → Option β × W → Prop
  | (some a,w), (some b,w') => rel a b ∧ same w w'
  | (none,w), (none,w') => same w w'
  | _, _ => False

/-- Worlds that answer the effects alike, and go on doing so, see both programs end alike. -/
theorem Lockstep.run {exec : Exec E R F W} {same : W → W → Prop} {p : Prog E R α} {p' : Prog E R β}
    (h : p.Lockstep Q rel p')
    (hexec : ∀ e f w w', Q e → same w w' → (exec e f w).1 = (exec e f w').1 ∧ same (exec e f w).2 (exec e f w').2)
    (fate : ℕ → E → F) (n : ℕ) {w w' : W} (hw : same w w') :
    SameEnd rel same (p.run exec fate n w) (p'.run exec fate n w') := by
  induction h generalizing n w w' with
  | done h => exact ⟨h,hw⟩
  | @perform e k k' he _ ih =>
    obtain ⟨hanswer,hsame⟩ := hexec e (fate n e) w w' he hw
    rw [Prog.run,Prog.run]
    rcases hx : exec e (fate n e) w with ⟨_ | r,v⟩
    · rcases hx' : exec e (fate n e) w' with ⟨_ | r',v'⟩
      · rw [hx,hx'] at hsame
        exact hsame
      · rw [hx,hx'] at hanswer
        cases hanswer
    · rcases hx' : exec e (fate n e) w' with ⟨_ | r',v'⟩
      · rw [hx,hx'] at hanswer
        cases hanswer
      · rw [hx,hx'] at hanswer hsame
        obtain rfl : r = r' := Option.some.inj hanswer
        exact ih r (n+1) hsame

/-! ### Alike steps -/

/-- Both fail in the same way, or both end with related values. -/
inductive AlikeResult {ε : Type} (rel : α → β → Prop) : Except ε α → Except ε β → Prop where
  | ok {a : α} {b : β} (h : rel a b) : AlikeResult rel (.ok a) (.ok b)
  | error (e : ε) : AlikeResult rel (.error e) (.error e)

/-- Two programs perform alike effects and go on alike, whatever alike answers they get. Of two effects
it is said that they are alike, and which answers are. -/
inductive Alongside (like : (e e' : E) → (R e → R e' → Prop) → Prop) (rel : α → β → Prop) :
    Prog E R α → Prog E R β → Prop where
  | done {a : α} {b : β} (h : rel a b) : Alongside like rel (done a) (done b)
  | perform {e e' : E} {answers : R e → R e' → Prop} {k : R e → Prog E R α} {k' : R e' → Prog E R β}
    (he : like e e' answers) (hk : ∀ r r', answers r r' → Alongside like rel (k r) (k' r')) :
    Alongside like rel (perform e k) (perform e' k')

variable {like : (e e' : E) → (R e → R e' → Prop) → Prop}

theorem Alongside.bind {p : Prog E R α} {p' : Prog E R β} {f : α → Prog E R γ} {f' : β → Prog E R δ}
    (h : p.Alongside like rel p') (hf : ∀ a b, rel a b → (f a).Alongside like rel' (f' b)) :
    (p.bind f).Alongside like rel' (p'.bind f') := by
  induction h with
  | done h => exact hf _ _ h
  | perform he _ ih => exact .perform he ih

/-- One effect on its own, with what follows its answer. -/
theorem alongside_call {e e' : E} {answers : R e → R e' → Prop} (he : like e e' answers) :
    (call e).Alongside like answers (call e') := .perform he (fun _ _ h => .done h)

/-- Effects that are alike to themselves, with the same answer, keep a program alongside itself. -/
theorem Only.alongside {p : Prog E R α} (h : p.Only Q) (hsame : ∀ e, Q e → like e e (· = ·)) :
    p.Alongside like (· = ·) p := by
  induction p with
  | done a => exact .done rfl
  | perform e k ih =>
    refine .perform (hsame e h.1) (fun r r' hr => ?_)
    subst hr
    exact ih r (h.2 r)

/-- What is asked of all effects that can be alike to any. -/
theorem Alongside.only {p : Prog E R α} {p' : Prog E R β} (h : p.Alongside like rel p')
    (hlike : ∀ e e' answers, like e e' answers → Q e ∧ ∀ r, ∃ r', answers r r') : p.Only Q := by
  induction h with
  | done h => trivial
  | perform he _ ih =>
    obtain ⟨hQ,hanswered⟩ := hlike _ _ _ he
    refine ⟨hQ,fun r => ?_⟩
    obtain ⟨r',hr⟩ := hanswered r
    exact ih r r' hr

/-- Worlds that answer alike effects alike, and go on doing so, see both programs end alike. -/
theorem Alongside.run {exec : Exec E R F W} {same : W → W → Prop} {fate fate' : ℕ → E → F}
    {p : Prog E R α} {p' : Prog E R β} (h : p.Alongside like rel p')
    (hexec : ∀ n e e' answers w w', like e e' answers → same w w' →
      SameEnd answers same (exec e (fate n e) w) (exec e' (fate' n e') w')) (n : ℕ) {w w' : W} (hw : same w w') :
    SameEnd rel same (p.run exec fate n w) (p'.run exec fate' n w') := by
  induction h generalizing n w w' with
  | done h => exact ⟨h,hw⟩
  | @perform e e' answers k k' he _ ih =>
    have hstep := hexec n e e' answers w w' he hw
    rw [Prog.run,Prog.run]
    cases hx : exec e (fate n e) w with
    | mk r v =>
      cases hx' : exec e' (fate' n e') w' with
      | mk r' v' =>
        rw [hx,hx'] at hstep
        cases r with
        | none =>
          cases r' with
          | none => exact hstep
          | some r' => exact hstep.elim
        | some r =>
          cases r' with
          | none => exact hstep.elim
          | some r' => exact ih r r' hstep.1 (n+1) hstep.2

end Prog
end Nightshade.Foundation
