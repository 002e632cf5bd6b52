import Mathlib
import Nightshade.Configd.Session

/-! A commit that has been applied and waits to be kept. -/
namespace Nightshade.Configd
open Schema

structure Pending where
  /-- Unix seconds. Past this, the rollback happens. -/
  deadline : ℤ
  minutes : ℕ
  session : SessionId
  actorUid : ℕ
  actor : String
  comment : Option String
  /-- The configuration to go back to. -/
  previous : ConfigTree
  previousGeneration : ℕ
  /-- What was committed, kept so that confirming can archive it. -/
  committed : ConfigTree
  generation : ℕ
  deriving DecidableEq

namespace Pending

/-- Seconds left, floored at zero. -/
def remaining (pending : Pending) (now : ℤ) : ℕ := (pending.deadline-now).toNat

def expired (pending : Pending) (now : ℤ) : Bool := pending.remaining now = 0

end Pending

def deadlineIn (now : ℤ) (minutes : ℕ) : ℤ := now + minutes*60

end Nightshade.Configd
