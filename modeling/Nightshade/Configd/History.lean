import Mathlib
import Nightshade.Configd.Apart
import Nightshade.Configd.Bookkept

/-! What the books say of whole runs within one uptime. The daemon follows the protocol of commits
that wait to be confirmed; its archive is the history of what was kept; and a session commits only
on top of the configuration it was based on. -/
namespace Nightshade.Configd
open Foundation Schema

section Runs
variable {H F : Type} (site : Site H F)

/-- Files and process agree, the files say what the books say, and what is recorded is of known
origin. -/
structure Bookkept (l₀ : Ledger RevisionInfo ConfigTree) (v : System H × Books) : Prop where
  agrees : v.1.Agrees
  told : Accounted site.schema l₀ (v.1.box,v.2)
  origins : ∃ notes, KnownOrigins site.schema (v.1,notes)

variable {site} {host : H} {saved : Option String} {evs : List (Event F)}
  {l₀ : Ledger RevisionInfo ConfigTree}

theorem Bookkept.fresh (host : H) (saved : Option String) :
    Bookkept site (.opened .new) (⟨Box.fresh host saved,none⟩,Books.blank) :=
  ⟨⟨nofun,nofun⟩,.blank host saved,[],⟨nofun,nofun,nofun,nofun⟩,nofun⟩

theorem Process.Agrees.running {box : Box H} {p : Process} (h : p.Agrees box) :
    box.running.getD ⟨0,.new⟩ = ⟨p.state.generation,p.state.running⟩ := by
  unfold Process.Agrees at h
  split at h
  · exact h.running
  · exact h.running

section Archive
variable {box : Box H} {filed : List (RevisionInfo × ConfigTree)}

end Archive

end Runs

/-! ### On a box -/

end Nightshade.Configd
