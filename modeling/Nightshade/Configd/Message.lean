import Mathlib
import Nightshade.Schema.Diff
import Nightshade.Configd.Session

/-! Requests and responses. -/
namespace Nightshade.Configd
open Schema

/-- Where a load gets its configuration. -/
inductive LoadSource where
  /-- `config.boot`, including whatever was edited into it by hand. -/
  | saved
  /-- An archived revision. -/
  | archive (revision : ℕ)
  deriving DecidableEq

/-- One entry in the commit archive. -/
structure RevisionInfo where
  revision : ℕ
  /-- `YYYYMMDDTHHMMSSZ`. -/
  timestamp : String
  actor : String
  actorUid : ℕ
  comment : Option String
  changes : List Change
  deriving DecidableEq

inductive Request where
  | sessionOpen
  | sessionClose (session : SessionId)
  | set (session : SessionId) (path : Path) (value : Option String)
  | delete (session : SessionId) (path : Path) (value : Option String)
  /-- The candidate against the running configuration. -/
  | compare (session : SessionId)
  | discard (session : SessionId)
  | commit (session : SessionId) (comment : Option String) (confirmMinutes : Option ℕ)
  | confirm (session : SessionId)
  | save
  | load (session : SessionId) (source : LoadSource)
  | commitLog
  deriving DecidableEq

/-- Why a request failed. -/
inductive FailureKind where
  /-- Malformed, or about a session that is not there. -/
  | request
  /-- The configuration was refused. -/
  | validation
  /-- Someone else moved first. -/
  | conflict
  /-- It could not be done, and it is not the caller's fault. -/
  | internal
  deriving DecidableEq

inductive Response where
  | ok
  | session (id : SessionId)
  | changes (changes : List Change)
  | committed (generation : ℕ) (changes : List Change) (confirmWithin : Option ℕ)
  | revisions (revisions : List RevisionInfo)
  | failed (kind : FailureKind) (message : String)
  deriving DecidableEq

namespace Response

def invalid (message : String) : Response := .failed .validation message

def badRequest (message : String) : Response := .failed .request message

/-- A failure of the box rather than of the request. -/
def internal (context error : String) : Response := .failed .internal (context ++ ": " ++ error)

def isFailed : Response → Bool
  | .failed _ _ => true
  | _ => false

@[simp] theorem isFailed_failed (kind : FailureKind) (message : String) :
    (failed kind message).isFailed = true := rfl

@[simp] theorem isFailed_invalid (message : String) : (invalid message).isFailed = true := rfl

@[simp] theorem isFailed_badRequest (message : String) : (badRequest message).isFailed = true := rfl

@[simp] theorem isFailed_internal (context error : String) :
    (internal context error).isFailed = true := rfl

end Response
end Nightshade.Configd
