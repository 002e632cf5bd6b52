import Mathlib
import Nightshade.Configd.Books

/-! Every program of the daemon leaves the files as the books say, wherever it ends. -/
namespace Nightshade.Configd
open Foundation Schema

/-- A step that the books have nothing to say about. -/
def Effect.Quiet (e : Effect) : Prop := e.part ∉ [Part.sessions,.running,.marker,.archive]

section
variable {H F α : Type} {site : Site H F} {action : Action} {process : Option Process} {box : Box H}
  {books : Books} {post : α → Box H × Books → Prop} {l₀ : Ledger RevisionInfo ConfigTree}

variable {s : State} {env : Env} {actor : Actor} {id : SessionId}

theorem Accounted.generation (h : Accounted site.schema l₀ (box,books))
    (hm : box.running.getD ⟨0,.new⟩ = ⟨s.generation,s.running⟩) :
    s.generation = books.ledger.head.number ∧ s.running = books.ledger.head.config := by
  have hrunning := h.running.symm.trans hm
  exact ⟨(Recorded.mk.inj hrunning).1.symm,(Recorded.mk.inj hrunning).2.symm⟩

/-- A state with nothing pending has no marker, so that nothing waits. -/
theorem Accounted.free (h : Accounted site.schema l₀ (box,books)) (hm : Mirrors box s) (hp : s.pending = none) :
    box.marker = none ∧ books.ledger.Idle :=
  ⟨hm.pending.symm.trans hp,h.idle (hm.pending.symm.trans hp)⟩

/-- Before anything has come to run, nothing waits. -/
theorem Accounted.fresh (h : Accounted site.schema l₀ (box,books)) (hnumber : books.ledger.head.number = 0) :
    box.marker = none ∧ books.ledger.Idle := by
  have hmarker : box.marker = none := by
    refine Option.eq_none_iff_forall_ne_some.mpr (fun pending hpending => ?_)
    obtain ⟨b,rest,-,hsucc,-⟩ := Ledger.settled_past (h.waits pending hpending).standing h.sound
    exact absurd (hsucc.symm.trans hnumber) (Nat.succ_ne_zero _)
  exact ⟨hmarker,h.idle hmarker⟩

end
end Nightshade.Configd
