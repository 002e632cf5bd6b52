import Mathlib
import Nightshade.Schema.Subtree
import Nightshade.Ifstate.Query
import Nightshade.Configd.State

/-! Everything that is asked of the daemon over its socket: besides the requests that edit and
commit, those that only look. -/
namespace Nightshade.Configd
open Foundation Schema

/-- Live state that is asked for. -/
inductive OpTarget where
  | version
  | interfaces (query : Ifstate.Query)
  /-- Reset the counter baselines; no names are every interface. -/
  | clearCounters (names : List String)
  deriving DecidableEq

/-- What goes over the socket to the daemon. -/
inductive Ask where
  | request (request : Request)
  | showCandidate (session : SessionId) (path : Path)
  | showRunning (path : Path)
  | showSaved (path : Path)
  | opShow (target : OpTarget)
  /-- Ask to drop to a shell, or tell that it is left, and have it recorded. -/
  | shellSession (entering : Bool)
  deriving DecidableEq

/-- What comes back. The reports on interfaces are values of a type of their own. -/
inductive Reply (I : Type) where
  | response (response : Response)
  /-- A configuration, or the part of one that was asked for. -/
  | config (tree : ConfigTree)
  | version (version : String)
  | interfaces (snapshot : I)

/-- The version that the program and the daemon are built as. -/
def VERSION : String := "0.1.0"

/-- The half of the daemon that watches interfaces. -/
structure Interfaces (I : Type) where
  snapshot : Ifstate.Query → ConfigTree → I
  /-- Whether a snapshot has no interface in it. -/
  isEmpty : I → Bool

section Looking
variable {I : Type}

def opShow (interfaces : Interfaces I) (s : State) : OpTarget → Reply I
  | .version => .version VERSION
  | .interfaces query =>
    let snapshot := interfaces.snapshot query s.running
    -- A name that matches nothing is a typo, and an empty table would be read as an answer.
    if !query.names.isEmpty && interfaces.isEmpty snapshot then
      .response (.badRequest (", ".intercalate query.names ++
        " is neither configured nor present on this system"))
    else .interfaces snapshot
  | .clearCounters _ => .response .ok

def showCandidate (s : State) (id : SessionId) (actor : Actor) (path : Path) : Reply I :=
  match s.owned id actor with
  | .error response => .response response
  | .ok session => .config ((session.candidate.subtree path).getD .new)

def showRunning (s : State) (path : Path) : Reply I := .config ((s.running.subtree path).getD .new)

/-- `config.boot`, read from disk on every request. -/
def showSaved (path : Path) : Act (Reply I) := do
  match ← Disk.readSaved with
  | .error e => return .response (.internal ("reading " ++ configBoot) e)
  | .ok text =>
    -- A box that has never been saved has no saved configuration.
    match parse (text.getD "") with
    | .ok tree => return .config ((tree.subtree path).getD .new)
    | .error e => return .response (.failed .validation (configBoot ++ " does not parse: " ++ e.message))

/-- What is answered to anything that is asked, and the state it leaves. -/
def answer (schema : Schema) (interfaces : Interfaces I) (env : Env) (s : State) (actor : Actor) :
    Ask → Act (Reply I × State)
  | .request request => do
    let r ← handle schema env s actor request
    return (.response r.1,r.2)
  | .showCandidate id path => return (showCandidate s id actor path,s)
  | .showRunning path => return (showRunning s path,s)
  | .showSaved path => do
    let reply ← showSaved path
    return (reply,s)
  | .opShow target => return (opShow interfaces s target,s)
  | .shellSession _ => return (.response .ok,s)

end Looking
end Nightshade.Configd
