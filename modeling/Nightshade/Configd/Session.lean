import Mathlib
import Nightshade.Schema.Config

/-! Who makes a request, and the candidate configurations, one for each session. -/
namespace Nightshade.Configd
open Schema

/-- Sixteen lowercase hexadecimal digits, as the wire format has checked. -/
abbrev SessionId := String

/-- Whoever is making a request, as the kernel described them. -/
structure Actor where
  uid : ℕ
  username : String
  deriving Repr, DecidableEq

/-- One operator's work in progress. -/
structure Session where
  id : SessionId
  /-- Only this user may use the session. -/
  uid : ℕ
  username : String
  candidate : ConfigTree
  /-- The generation of the running configuration the candidate started from. -/
  baseGeneration : ℕ
  deriving DecidableEq

namespace Session

def new (id : SessionId) (actor : Actor) (running : ConfigTree) (generation : ℕ) : Session where
  id := id
  uid := actor.uid
  username := actor.username
  candidate := running
  baseGeneration := generation

/-- The session level with the running configuration of a generation. -/
def rebase (session : Session) (generation : ℕ) : Session :=
  {session with baseGeneration := generation}

def ownedBy (session : Session) (actor : Actor) : Bool := session.uid = actor.uid

end Session
end Nightshade.Configd
