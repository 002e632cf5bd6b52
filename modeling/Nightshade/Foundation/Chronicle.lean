import Mathlib
import Nightshade.Foundation.Effects

/-! Programs judged by their past. An effect may be in order after some effects and their answers, and out
of order after others. -/
namespace Nightshade.Foundation

/-- What a program has done, the latest first, and what came of it. -/
abbrev Past (E : Type) (R : E → Type) := List ((e : E) × R e)

namespace Prog
variable {E : Type} {R : E → Type} {α β : Type}

/-- Whatever comes of its effects, a program performs each of them in order after those before, and ends in order. -/
def Abides (order : Past E R → E → Prop) (post : Past E R → α → Prop) : Past E R → Prog E R α → Prop
  | past, done a => post past a
  | past, perform e k => order past e ∧ ∀ r, (k r).Abides order post (⟨e,r⟩::past)

variable {order : Past E R → E → Prop} {post : Past E R → α → Prop} {past : Past E R}

@[simp] theorem abides_done {a : α} : (done a : Prog E R α).Abides order post past ↔ post past a := Iff.rfl

@[simp] theorem abides_perform {e : E} {k : R e → Prog E R α} :
    (perform e k).Abides order post past ↔ order past e ∧ ∀ r, (k r).Abides order post (⟨e,r⟩::past) := Iff.rfl

theorem abides_ite {c : Prop} [Decidable c] {p q : Prog E R α} (hp : c → p.Abides order post past)
    (hq : ¬c → q.Abides order post past) : (if c then p else q).Abides order post past := by
  split_ifs with h
  · exact hp h
  · exact hq h

theorem Abides.bind {post : Past E R → β → Prop} {p : Prog E R α} {f : α → Prog E R β}
    (h : p.Abides order (fun past' a => (f a).Abides order post past') past) : (p.bind f).Abides order post past := by
  induction p generalizing past with
  | done a => exact h
  | perform e k ih => exact ⟨h.1,fun r => ih r (h.2 r)⟩

theorem Abides.mono {order' : Past E R → E → Prop} {post' : Past E R → α → Prop} {p : Prog E R α}
    (h : p.Abides order post past) (horder : ∀ past e, order past e → order' past e)
    (hpost : ∀ past a, post past a → post' past a) : p.Abides order' post' past := by
  induction p generalizing past with
  | done a => exact hpost past a h
  | perform e k ih => exact ⟨horder past e h.1,fun r => ih r (h.2 r)⟩

theorem Abides.weaken {post' : Past E R → α → Prop} {p : Prog E R α} (h : p.Abides order post past)
    (hpost : ∀ past a, post past a → post' past a) : p.Abides order post' past :=
  h.mono (fun _ _ h => h) hpost

/-- Sequencing: what the first part ends with is what the second starts from. -/
theorem Abides.seq {mid : Past E R → α → Prop} {post : Past E R → β → Prop} {p : Prog E R α} {f : α → Prog E R β}
    (h : p.Abides order mid past) (hf : ∀ past a, mid past a → (f a).Abides order post past) :
    (p >>= f).Abides order post past := Abides.bind (h.weaken hf)

/-- What every effect in order keeps, and what may lean on it to be in order in turn. -/
theorem Abides.keeps {order' : Past E R → E → Prop} (Inv : Past E R → Prop) {p : Prog E R α}
    (h : p.Abides order post past)
    (hstep : ∀ past e, Inv past → order past e → order' past e ∧ ∀ r, Inv (⟨e,r⟩::past)) (hinv : Inv past) :
    p.Abides order' (fun past a => Inv past ∧ post past a) past := by
  induction p generalizing past with
  | done a => exact ⟨hinv,h⟩
  | perform e k ih =>
    obtain ⟨horder,hnext⟩ := hstep past e hinv h.1
    exact ⟨horder,fun r => ih r (h.2 r) (hnext r)⟩

end Prog
end Nightshade.Foundation
