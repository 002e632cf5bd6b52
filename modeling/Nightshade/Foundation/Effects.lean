import Mathlib

/-! Programs that act on a world one effect at a time, and may be cut off in any of them.
A fate says how one effect turns out; the world answers it, or the program ends there. -/
namespace Nightshade.Foundation

/-- A program: a value, or an effect together with what follows its answer. -/
inductive Prog (E : Type) (R : E → Type) (α : Type) where
  | done (a : α)
  | perform (e : E) (k : R e → Prog E R α)

namespace Prog
variable {E : Type} {R : E → Type} {α β : Type}

def bind : Prog E R α → (α → Prog E R β) → Prog E R β
  | done a, f => f a
  | perform e k, f => perform e (fun r => (k r).bind f)

instance : Monad (Prog E R) where
  pure := done
  bind := bind

/-- One effect on its own. -/
def call (e : E) : Prog E R (R e) := perform e done

@[simp] theorem pure_eq (a : α) : (pure a : Prog E R α) = done a := rfl

@[simp] theorem bind_eq (p : Prog E R α) (f : α → Prog E R β) : p >>= f = p.bind f := rfl

@[simp] theorem done_bind (a : α) (f : α → Prog E R β) : (done a).bind f = f a := rfl

@[simp] theorem perform_bind (e : E) (k : R e → Prog E R α) (f : α → Prog E R β) :
    (perform e k).bind f = perform e (fun r => (k r).bind f) := rfl

@[simp] theorem call_bind (e : E) (f : R e → Prog E R β) : (call e).bind f = perform e f := rfl

/-- Every effect the program may perform passes a test. -/
def Only (Q : E → Prop) : Prog E R α → Prop
  | done _ => True
  | perform e k => Q e ∧ ∀ r, (k r).Only Q

@[simp] theorem only_done (Q : E → Prop) (a : α) : (done a : Prog E R α).Only Q := trivial

@[simp] theorem only_perform {Q : E → Prop} {e : E} {k : R e → Prog E R α} :
    (perform e k).Only Q ↔ Q e ∧ ∀ r, (k r).Only Q := Iff.rfl

theorem only_call {Q : E → Prop} {e : E} (h : Q e) : (call e : Prog E R (R e)).Only Q :=
  ⟨h,fun _ => trivial⟩

theorem only_of_forall {Q : E → Prop} {p : Prog E R α} (h : ∀ e, Q e) : p.Only Q := by
  induction p with
  | done a => trivial
  | perform e k ih => exact ⟨h e,ih⟩

theorem Only.bind {Q : E → Prop} {p : Prog E R α} {f : α → Prog E R β} (hp : p.Only Q)
    (hf : ∀ a, (f a).Only Q) : (p.bind f).Only Q := by
  induction p with
  | done a => exact hf a
  | perform e k ih => exact ⟨hp.1,fun r => ih r (hp.2 r)⟩

theorem Only.mono {Q Q' : E → Prop} {p : Prog E R α} (h : ∀ e, Q e → Q' e) (hp : p.Only Q) :
    p.Only Q' := by
  induction p with
  | done a => trivial
  | perform e k ih => exact ⟨h e hp.1,fun r => ih r (hp.2 r)⟩

/-- Every value the program may end with passes a test. -/
def Returns (P : α → Prop) : Prog E R α → Prop
  | done a => P a
  | perform _ k => ∀ r, (k r).Returns P

@[simp] theorem returns_done (P : α → Prop) (a : α) : (done a : Prog E R α).Returns P ↔ P a := Iff.rfl

@[simp] theorem returns_perform {P : α → Prop} {e : E} {k : R e → Prog E R α} :
    (perform e k).Returns P ↔ ∀ r, (k r).Returns P := Iff.rfl

theorem returns_of_forall {P : α → Prop} {p : Prog E R α} (h : ∀ a, P a) : p.Returns P := by
  induction p with
  | done a => exact h a
  | perform e k ih => exact ih

theorem Returns.mono {P Q : α → Prop} {p : Prog E R α} (h : ∀ a, P a → Q a) (hp : p.Returns P) :
    p.Returns Q := by
  induction p with
  | done a => exact h a hp
  | perform e k ih => exact fun r => ih r (hp r)

theorem Returns.and {P Q : α → Prop} {p : Prog E R α} (hp : p.Returns P) (hq : p.Returns Q) :
    p.Returns (fun a => P a ∧ Q a) := by
  induction p with
  | done a => exact ⟨hp,hq⟩
  | perform e k ih => exact fun r => ih r (hp r) (hq r)

theorem Returns.bind {P : β → Prop} {p : Prog E R α} {f : α → Prog E R β}
    (hp : p.Returns (fun a => (f a).Returns P)) : (p.bind f).Returns P := by
  induction p with
  | done a => exact hp
  | perform e k ih => exact fun r => ih r (hp r)

end Prog

/-- What a world does with an effect under a fate: the answer, or nothing when the program was
cut off in it, and the world after it. -/
abbrev Exec (E : Type) (R : E → Type) (F W : Type) := (e : E) → F → W → Option (R e) × W

namespace Prog
variable {E : Type} {R : E → Type} {α β F W : Type}

/-- Run a program. Fates are drawn by the number of effects before and the effect itself. -/
def run (exec : Exec E R F W) (fate : ℕ → E → F) : ℕ → Prog E R α → W → Option α × W
  | _, done a, w => (some a,w)
  | n, perform e k, w =>
    match exec e (fate n e) w with
    | (none,w') => (none,w')
    | (some r,w') => (k r).run exec fate (n+1) w'

/-- Every effect of a run meets a fate that is allowed where it is performed. -/
def Obeys (exec : Exec E R F W) (allowed : E → F → W → Prop) (fate : ℕ → E → F) :
    ℕ → Prog E R α → W → Prop
  | _, done _, _ => True
  | n, perform e k, w =>
    allowed e (fate n e) w ∧
    match exec e (fate n e) w with
    | (none,_) => True
    | (some r,w') => (k r).Obeys exec allowed fate (n+1) w'

/-- Under every allowed fate the program ends with `post`, or is cut off with `crash`. -/
def Ends (exec : Exec E R F W) (allowed : E → F → W → Prop) (post : α → W → Prop)
    (crash : W → Prop) : Prog E R α → W → Prop
  | done a, w => post a w
  | perform e k, w => ∀ f, allowed e f w →
    match exec e f w with
    | (none,w') => crash w'
    | (some r,w') => (k r).Ends exec allowed post crash w'

/-- What is asked of the outcome of a run. -/
def Outcome (post : α → W → Prop) (crash : W → Prop) : Option α × W → Prop
  | (some a,w) => post a w
  | (none,w) => crash w

@[simp] theorem outcome_some {post : α → W → Prop} {crash : W → Prop} {a : α} {w : W} :
    Outcome post crash (some a,w) ↔ post a w := Iff.rfl

@[simp] theorem outcome_none {post : α → W → Prop} {crash : W → Prop} {w : W} :
    Outcome post crash (none,w) ↔ crash w := Iff.rfl

variable {exec : Exec E R F W} {allowed : E → F → W → Prop} {post : α → W → Prop}
  {crash : W → Prop} {fate : ℕ → E → F}

@[simp] theorem run_done (n : ℕ) (a : α) (w : W) :
    (done a : Prog E R α).run exec fate n w = (some a,w) := rfl

/-- A program that does something to the value of another runs as that one does. -/
theorem run_map (f : α → β) (p : Prog E R α) (n : ℕ) (w : W) :
    (p.bind (fun a => done (f a))).run exec fate n w =
      ((p.run exec fate n w).1.map f,(p.run exec fate n w).2) := by
  induction p generalizing n w with
  | done a => rfl
  | perform e k ih =>
    rw [perform_bind,Prog.run,Prog.run]
    rcases exec e (fate n e) w with ⟨_ | r,w'⟩
    · rfl
    · exact ih r (n+1) w'

@[simp] theorem ends_done {a : α} {w : W} :
    (done a : Prog E R α).Ends exec allowed post crash w ↔ post a w := Iff.rfl

theorem ends_perform {e : E} {k : R e → Prog E R α} {w : W} :
    (perform e k).Ends exec allowed post crash w ↔ ∀ f, allowed e f w →
      match exec e f w with
      | (none,w') => crash w'
      | (some r,w') => (k r).Ends exec allowed post crash w' := Iff.rfl

@[simp] theorem obeys_done {a : α} {w : W} {n : ℕ} :
    (done a : Prog E R α).Obeys exec allowed fate n w := trivial

theorem obeys_perform {e : E} {k : R e → Prog E R α} {w : W} {n : ℕ} :
    (perform e k).Obeys exec allowed fate n w ↔ allowed e (fate n e) w ∧
      match exec e (fate n e) w with
      | (none,_) => True
      | (some r,w') => (k r).Obeys exec allowed fate (n+1) w' := by
  rw [Obeys]

/-- A program ends as announced in every run that obeys. -/
theorem Ends.run {p : Prog E R α} {w : W} {n : ℕ} (h : p.Ends exec allowed post crash w)
    (hf : p.Obeys exec allowed fate n w) : Outcome post crash (p.run exec fate n w) := by
  induction p generalizing n w with
  | done a => exact h
  | perform e k ih =>
    obtain ⟨hallow,hrest⟩ := obeys_perform.mp hf
    have hstep := h (fate n e) hallow
    rw [Prog.run]
    rcases hr : exec e (fate n e) w with ⟨_ | r,w'⟩
    · rw [hr] at hstep
      exact hstep
    · rw [hr] at hstep hrest
      exact ih r hstep hrest

theorem Obeys.mono {allowed' : E → F → W → Prop} {p : Prog E R α} {n : ℕ} {w : W}
    (h : ∀ e f w, allowed e f w → allowed' e f w) (hp : p.Obeys exec allowed fate n w) :
    p.Obeys exec allowed' fate n w := by
  induction p generalizing n w with
  | done a => trivial
  | perform e k ih =>
    obtain ⟨hallow,hrest⟩ := obeys_perform.mp hp
    refine obeys_perform.mpr ⟨h _ _ _ hallow,?_⟩
    rcases hr : exec e (fate n e) w with ⟨_ | r,w'⟩
    · trivial
    · rw [hr] at hrest
      exact ih r hrest

/-- Where all fates are allowed, every run obeys. -/
theorem obeys_of_forall {p : Prog E R α} {w : W} {n : ℕ} (h : ∀ n e w, allowed e (fate n e) w) :
    p.Obeys exec allowed fate n w := by
  induction p generalizing n w with
  | done a => trivial
  | perform e k ih =>
    refine obeys_perform.mpr ⟨h n e w,?_⟩
    split
    · trivial
    · exact ih _

theorem Ends.mono {post' : α → W → Prop} {crash' : W → Prop} {p : Prog E R α} {w : W}
    (h : p.Ends exec allowed post crash w) (hpost : ∀ a w, post a w → post' a w)
    (hcrash : ∀ w, crash w → crash' w) : p.Ends exec allowed post' crash' w := by
  induction p generalizing w with
  | done a => exact hpost a w h
  | perform e k ih =>
    intro f hf
    have hstep := h f hf
    rcases hr : exec e f w with ⟨_ | r,w'⟩
    · rw [hr] at hstep
      exact hcrash w' hstep
    · rw [hr] at hstep
      exact ih r hstep

theorem ends_of_forall {p : Prog E R α} {w : W} (hpost : ∀ a w, post a w) (hcrash : ∀ w, crash w) :
    p.Ends exec allowed post crash w := by
  induction p generalizing w with
  | done a => exact hpost a w
  | perform e k ih =>
    intro f _
    rcases exec e f w with ⟨_ | r,w'⟩
    · exact hcrash w'
    · exact ih r

theorem ends_ite {c : Prop} [Decidable c] {p q : Prog E R α} {w : W} (hp : c → p.Ends exec allowed post crash w)
    (hq : ¬c → q.Ends exec allowed post crash w) : (if c then p else q).Ends exec allowed post crash w := by
  split_ifs with h
  · exact hp h
  · exact hq h

/-- Sequencing: the first part ends where the second can take over. -/
theorem Ends.bind {post' : β → W → Prop} {p : Prog E R α} {f : α → Prog E R β} {w : W}
    (h : p.Ends exec allowed (fun a w' => (f a).Ends exec allowed post' crash w') crash w) :
    (p.bind f).Ends exec allowed post' crash w := by
  induction p generalizing w with
  | done a => exact h
  | perform e k ih =>
    intro g hg
    have hstep := h g hg
    rcases hr : exec e g w with ⟨_ | r,w'⟩
    · rw [hr] at hstep
      exact hstep
    · rw [hr] at hstep
      exact ih r hstep

/-- A program whose effects all keep an invariant keeps it, wherever it is cut off. -/
theorem Only.ends {Q : E → Prop} {P : α → Prop} {Inv : W → Prop} {p : Prog E R α} {w : W}
    (hp : p.Only Q) (hr : p.Returns P)
    (hQ : ∀ e f w, Q e → allowed e f w → Inv w → Inv (exec e f w).2) (hw : Inv w) :
    p.Ends exec allowed (fun a w => P a ∧ Inv w) Inv w := by
  induction p generalizing w with
  | done a => exact ⟨hr,hw⟩
  | perform e k ih =>
    intro f hf
    have hinv := hQ e f w hp.1 hf hw
    rcases hx : exec e f w with ⟨_ | r,w'⟩
    · rw [hx] at hinv
      exact hinv
    · rw [hx] at hinv
      exact ih r (hp.2 r) (hr r) hinv

/-- An invariant that the effects of a program keep. -/
theorem Only.keeps {Q : E → Prop} (Inv : W → Prop) {p : Prog E R α} {w : W} (hp : p.Only Q)
    (hQ : ∀ e f w, Q e → allowed e f w → Inv w → Inv (exec e f w).2) (hw : Inv w) :
    p.Ends exec allowed (fun _ => Inv) Inv w :=
  (hp.ends (returns_of_forall (fun _ => trivial)) hQ hw).mono (fun _ _ h => (And.right h : Inv _))
    (fun _ h => h)

/-- An invariant that every effect keeps. -/
theorem ends_invariant (Inv : W → Prop) {p : Prog E R α} {w : W}
    (h : ∀ e f w, allowed e f w → Inv w → Inv (exec e f w).2) (hw : Inv w) :
    p.Ends exec allowed (fun _ => Inv) Inv w :=
  (only_of_forall (fun _ => True.intro)).keeps Inv (fun e f w _ => h e f w) hw

/-- What a program returns in any case, it returns when it is run. -/
theorem Returns.ends {P : α → Prop} {p : Prog E R α} {w : W} (h : p.Returns P) :
    p.Ends exec allowed (fun a _ => P a) (fun _ => True) w := by
  induction p generalizing w with
  | done a => exact h
  | perform e k ih =>
    intro f _
    rcases exec e f w with ⟨_ | r,w'⟩
    · trivial
    · exact ih r (h r)

/-- A run under no conditions on its fates. -/
theorem Ends.run_all {p : Prog E R α} {w : W} {n : ℕ}
    (h : p.Ends exec (fun _ _ _ => True) post crash w) :
    Outcome post crash (p.run exec fate n w) :=
  h.run (obeys_of_forall (fun _ _ _ => trivial))

/-- One step into a condition from which the rest ends well, whatever the answer. -/
theorem ends_step (Mid : W → Prop) {e : E} {k : R e → Prog E R α} {w : W}
    (h : ∀ f, allowed e f w → Outcome (fun _ => Mid) crash (exec e f w))
    (hk : ∀ r w', Mid w' → (k r).Ends exec allowed post crash w') :
    (perform e k).Ends exec allowed post crash w := by
  intro f hf
  have hstep := h f hf
  rcases hx : exec e f w with ⟨_ | r,w'⟩
  · rw [hx] at hstep
    exact hstep
  · rw [hx] at hstep
    exact hk r w' hstep

/-- Two things that hold of the end of a program hold together. -/
theorem Ends.and {post' : α → W → Prop} {crash' : W → Prop} {p : Prog E R α} {w : W}
    (h : p.Ends exec allowed post crash w) (h' : p.Ends exec allowed post' crash' w) :
    p.Ends exec allowed (fun a w => post a w ∧ post' a w) (fun w => crash w ∧ crash' w) w := by
  induction p generalizing w with
  | done a => exact ⟨h,h'⟩
  | perform e k ih =>
    intro f hf
    have hstep := h f hf
    have hstep' := h' f hf
    rcases hr : exec e f w with ⟨_ | r,w'⟩
    · rw [hr] at hstep hstep'
      exact ⟨hstep,hstep'⟩
    · rw [hr] at hstep hstep'
      exact ih r hstep hstep'

end Prog

/-! ### Watching a world

A watcher keeps notes on the effects as they are performed and never changes what they do. -/

section Watch
variable {E : Type} {R : E → Type} {α F W G : Type}

/-- The world together with the notes of a watcher. -/
def watched (exec : Exec E R F W) (note : (e : E) → Option (R e) → W → G → G) :
    Exec E R F (W × G) := fun e f w =>
  ((exec e f w.1).1,(exec e f w.1).2,note e (exec e f w.1).1 w.1 w.2)

variable (exec : Exec E R F W) (note : (e : E) → Option (R e) → W → G → G)

theorem run_watched (fate : ℕ → E → F) (n : ℕ) (p : Prog E R α) (w : W) (g : G) :
    (p.run (watched exec note) fate n (w,g)).1 = (p.run exec fate n w).1 ∧
    (p.run (watched exec note) fate n (w,g)).2.1 = (p.run exec fate n w).2 := by
  induction p generalizing n w g with
  | done a => exact ⟨rfl,rfl⟩
  | perform e k ih =>
    rw [Prog.run,Prog.run]
    rcases hr : exec e (fate n e) w with ⟨_ | r,w'⟩
    · simp [watched,hr]
    · simp only [watched,hr]
      exact ih r (n+1) w' _

/-- Notes that are made out of other notes are made out of them after a run. -/
theorem run_watched_map {G' : Type} (note' : (e : E) → Option (R e) → W → G' → G') (φ : G → G')
    (h : ∀ e r w g, φ (note e r w g) = note' e r w (φ g)) (fate : ℕ → E → F) (n : ℕ)
    (p : Prog E R α) (w : W) (g : G) :
    p.run (watched exec note') fate n (w,φ g) =
      Prod.map id (Prod.map id φ) (p.run (watched exec note) fate n (w,g)) := by
  induction p generalizing n w g with
  | done a => rfl
  | perform e k ih =>
    rw [Prog.run,Prog.run]
    rcases hr : exec e (fate n e) w with ⟨_ | r,w'⟩
    · simp [watched,hr,h]
    · simp only [watched,hr,← h]
      exact ih r (n+1) w' _

variable {exec note}

/-- A run obeys whether it is watched or not. -/
theorem obeys_watched {allowed : E → F → W → Prop} {fate : ℕ → E → F} {n : ℕ} {p : Prog E R α}
    {w : W} {g : G} (h : p.Obeys exec allowed fate n w) :
    p.Obeys (watched exec note) (fun e f v => allowed e f v.1) fate n (w,g) := by
  induction p generalizing n w g with
  | done a => trivial
  | perform e k ih =>
    obtain ⟨hallow,hrest⟩ := Prog.obeys_perform.mp h
    refine Prog.obeys_perform.mpr ⟨hallow,?_⟩
    rcases hr : exec e (fate n e) w with ⟨_ | r,w'⟩
    · simp [watched,hr]
    · rw [hr] at hrest
      simp only [watched,hr]
      exact ih r hrest

/-- A program none of whose steps is noted ends under watch as it ends. -/
theorem Prog.Ends.unnoted {Q : E → Prop} {allowed : E → F → W → Prop} {post : α → W → Prop}
    {crash : W → Prop} {p : Prog E R α} {w : W} {g : G} (h : p.Ends exec allowed post crash w)
    (honly : p.Only Q) (hnote : ∀ e, Q e → ∀ r w, note e r w g = g) :
    p.Ends (watched exec note) (fun e f v => allowed e f v.1) (fun a v => post a v.1 ∧ v.2 = g)
      (fun v => crash v.1 ∧ v.2 = g) (w,g) := by
  induction p generalizing w with
  | done a => exact ⟨h,rfl⟩
  | perform e k ih =>
    intro f hf
    have hstep := h f hf
    rcases hr : exec e f w with ⟨_ | r,w'⟩
    · rw [hr] at hstep
      simp only [watched,hr]
      exact ⟨hstep,hnote e honly.1 none w⟩
    · rw [hr] at hstep
      simp only [watched,hr,hnote e honly.1 (some r) w]
      exact ih r hstep (honly.2 r)

end Watch

/-! ### Runs of a system that takes one step for each event -/

section Steps
variable {S Ev : Type*} (step : S → Ev → S)

/-- Every event of a run is allowed in the state it comes in. -/
def Along (allowed : S → Ev → Prop) : S → List Ev → Prop
  | _, [] => True
  | s, e::es => allowed s e ∧ Along allowed (step s e) es

variable {step}

@[simp] theorem along_nil {allowed : S → Ev → Prop} {s : S} : Along step allowed s [] := trivial

@[simp] theorem along_cons {allowed : S → Ev → Prop} {s : S} {e : Ev} {es : List Ev} :
    Along step allowed s (e::es) ↔ allowed s e ∧ Along step allowed (step s e) es := Iff.rfl

/-- What every allowed step keeps holds after every allowed run. -/
theorem Along.invariant {allowed : S → Ev → Prop} {Inv : S → Prop} {s : S} {es : List Ev}
    (h : Along step allowed s es) (hstep : ∀ s e, Inv s → allowed s e → Inv (step s e))
    (hs : Inv s) : Inv (es.foldl step s) := by
  induction es generalizing s with
  | nil => exact hs
  | cons e es ih => exact ih h.2 (hstep s e hs h.1)

/-- A run of events that are allowed in any state. -/
theorem along_of_forall {allowed : S → Ev → Prop} {s : S} {es : List Ev}
    (h : ∀ e ∈ es, ∀ s, allowed s e) : Along step allowed s es := by
  induction es generalizing s with
  | nil => trivial
  | cons e es ih => exact ⟨h e (by simp) s,ih (fun e he => h e (by simp [he]))⟩

theorem along_append {allowed : S → Ev → Prop} {s : S} {es es' : List Ev} :
    Along step allowed s (es ++ es') ↔
      Along step allowed s es ∧ Along step allowed (es.foldl step s) es' := by
  induction es generalizing s with
  | nil => simp
  | cons e es ih => simp [ih,and_assoc]

end Steps
end Nightshade.Foundation
