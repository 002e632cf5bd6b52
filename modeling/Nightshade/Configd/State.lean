import Mathlib
import Nightshade.Configd.Archive

/-! The daemon's state, and what it does with a request. Every handler holds the state from its
start to its end, so requests follow one another. -/
namespace Nightshade.Configd
open Foundation Schema

/-- Running configurations kept to tell a session that has fallen behind what moved. -/
def HISTORY : ℕ := 8

/-- What the daemon learns from outside while it handles one event. -/
structure Env where
  /-- Unix seconds. -/
  now : ℤ
  /-- The same moment as the archive writes it. -/
  stamp : String
  /-- The id that the kernel's random bytes make. -/
  entropy : Except String SessionId

structure State where
  running : ConfigTree
  generation : ℕ
  /-- Earlier running configurations with their generations, the latest last. -/
  history : List (ℕ × ConfigTree)
  sessions : SortedMap SessionId Session
  /-- A commit that is applied and waiting to be kept. -/
  pending : Option Pending
  /-- Whether the task that will undo it is armed. -/
  timer : Bool

def configBoot : String := "/etc/nightshade/config.boot"

namespace State

/-- Replace the session with an id. -/
def put (s : State) (id : SessionId) (session : Session) : State :=
  {s with sessions := s.sessions.insert id session}

/-- Make a configuration the running one, under a fresh generation, and remember the last. -/
def promote (s : State) (config : ConfigTree) : State :=
  let history := s.history ++ [(s.generation,s.running)]
  {s with
    running := config
    generation := s.generation+1
    history := history.drop (history.length-HISTORY)}

/-- Make a configuration that has been applied the running one, under a fresh generation. -/
def install (s : State) (config : ConfigTree) : State :=
  {s with running := config, generation := s.generation+1}

/-- Wait for a commit to be confirmed, with its rollback armed. -/
def await (s : State) (pending : Pending) : State := {s with pending := some pending, timer := true}

/-- Wait for nothing. -/
def release (s : State) : State := {s with pending := none, timer := false}

/-- The state once a session's candidate has been applied: it runs, and the session is level. -/
def advance (s : State) (id : SessionId) (session : Session) : State :=
  (s.promote session.candidate).put id (session.rebase (s.generation+1))

section Fields
variable (s : State) (id : SessionId) (session : Session) (config : ConfigTree) (pending : Pending)

@[simp] theorem put_running : (s.put id session).running = s.running := rfl
@[simp] theorem put_generation : (s.put id session).generation = s.generation := rfl
@[simp] theorem put_history : (s.put id session).history = s.history := rfl
@[simp] theorem put_sessions : (s.put id session).sessions = s.sessions.insert id session := rfl
@[simp] theorem put_pending : (s.put id session).pending = s.pending := rfl
@[simp] theorem put_timer : (s.put id session).timer = s.timer := rfl
@[simp] theorem promote_running : (s.promote config).running = config := rfl
@[simp] theorem promote_generation : (s.promote config).generation = s.generation+1 := rfl
@[simp] theorem promote_sessions : (s.promote config).sessions = s.sessions := rfl
@[simp] theorem promote_pending : (s.promote config).pending = s.pending := rfl
@[simp] theorem promote_timer : (s.promote config).timer = s.timer := rfl
@[simp] theorem install_running : (s.install config).running = config := rfl
@[simp] theorem install_generation : (s.install config).generation = s.generation+1 := rfl
@[simp] theorem install_sessions : (s.install config).sessions = s.sessions := rfl
@[simp] theorem install_pending : (s.install config).pending = s.pending := rfl
@[simp] theorem install_timer : (s.install config).timer = s.timer := rfl
@[simp] theorem await_running : (s.await pending).running = s.running := rfl
@[simp] theorem await_generation : (s.await pending).generation = s.generation := rfl
@[simp] theorem await_sessions : (s.await pending).sessions = s.sessions := rfl
@[simp] theorem await_pending : (s.await pending).pending = some pending := rfl
@[simp] theorem await_timer : (s.await pending).timer = true := rfl
@[simp] theorem release_running : s.release.running = s.running := rfl
@[simp] theorem release_generation : s.release.generation = s.generation := rfl
@[simp] theorem release_sessions : s.release.sessions = s.sessions := rfl
@[simp] theorem release_pending : s.release.pending = none := rfl
@[simp] theorem release_timer : s.release.timer = false := rfl
@[simp] theorem advance_running : (s.advance id session).running = session.candidate := rfl
@[simp] theorem advance_generation : (s.advance id session).generation = s.generation+1 := rfl
@[simp] theorem advance_sessions :
    (s.advance id session).sessions = s.sessions.insert id (session.rebase (s.generation+1)) := rfl
@[simp] theorem advance_pending : (s.advance id session).pending = s.pending := rfl
@[simp] theorem advance_timer : (s.advance id session).timer = s.timer := rfl

/-- What a promoted state remembers last is the configuration before it. -/
@[simp] theorem getLast?_promote :
    (s.promote config).history.getLast? = some (s.generation,s.running) := by
  simp [promote,List.getLast?_drop,HISTORY]

@[simp] theorem getLast?_advance :
    (s.advance id session).history.getLast? = some (s.generation,s.running) :=
  s.getLast?_promote session.candidate

end Fields

/-- Check a session exists and belongs to this actor. -/
def owned (s : State) (id : SessionId) (actor : Actor) : Except Response Session :=
  match s.sessions.get? id with
  | some session =>
    if session.ownedBy actor then .ok session
    else
      .error (.failed .request ("session " ++ id ++ " belongs to " ++ session.username ++
        "; open your own with `configure`"))
  | none => .error (.failed .request ("session " ++ id ++ " has expired or was never opened"))

/-- The commit was refused because the running configuration moved since the session started. -/
def changedUnderneath (s : State) (base : ℕ) (candidate : ConfigTree) : Response :=
  let list := fun (changes : List Change) =>
    String.join (changes.map (fun c => "  " ++ c.display ++ "\n"))
  .failed .conflict
    ("the running configuration has changed since this session started (it was revision " ++
      toString base ++ ", it is now revision " ++ toString s.generation ++ ").\n" ++
      (match s.history.find? (fun e => e.1 = base) with
       | some e => "\nwhat changed underneath you:\n" ++ list (diff e.2 s.running)
       | none =>
         "\nthat was too long ago to show what changed; " ++
         "`compare` against running to see where you stand.\n") ++
      "\nyour own uncommitted changes:\n" ++ list (diff s.running candidate) ++
      "\nuse `discard` to start again from the current configuration.")

end State

/-! ### Starting, and undoing an unconfirmed commit -/

/-- Build the daemon's state from the files of a previous run; nothing when it cannot start. -/
def start : Act (Option State) := do
  match ← Store.prepare with
  | .error _ => return none
  | .ok () =>
    match ← Store.loadAll with
    | .error _ => return none
    | .ok sessions =>
      let recorded ← loadRunning
      return some
        { running := recorded.config
          generation := recorded.generation
          history := []
          sessions := sessions
          pending := none
          timer := false }

/-- Apply the configuration from before a commit, and take it as the running one. -/
def putBack (s : State) (pending : Pending) : Act State := do
  match ← apply pending.previous with
  | .ok () =>
    let s := s.install pending.previous
    let _ ← saveRunning s.running s.generation
    return s
  | .error _ => return s

/-- Undo the pending commit, through the same pipeline that applied it. -/
def rollBack (s : State) : Act State := do
  match s.pending with
  | none => return s
  | some pending =>
    let s ← putBack s.release pending
    let _ ← Marker.disarm
    return s

/-- Pick up a commit that was waiting to be confirmed when the daemon stopped. -/
def resume (env : Env) (s : State) : Act State := do
  match ← Marker.read with
  | .error _ => return s
  | .ok none => return s
  | .ok (some pending) =>
    if pending.expired env.now then rollBack {s with pending := some pending}
    else return s.await pending

/-- The generation recovered from `/run`, or none on a real boot. -/
def State.recoveredGeneration (s : State) : Option ℕ :=
  if 0 < s.generation || !s.running.isEmpty then some s.generation else none

/-- Take a configuration that has been applied as the running one. -/
def adopt (s : State) (config : ConfigTree) : Act State := do
  let s := s.install config
  let _ ← saveRunning s.running s.generation
  return s

/-! ### Committing -/

/-- Append a revision to the archive. Failing to archive does not fail the commit. -/
def record (schema : Schema) (env : Env) (config : ConfigTree) (actor : Actor)
    (comment : Option String) (revision : ℕ) (changes : List Change) : Act Unit := do
  let _ ← Archive.write schema
    { revision := revision
      timestamp := env.stamp
      actor := actor.username
      actorUid := actor.uid
      comment := comment
      changes := changes } config
  return ()

/-- What stands in the way of a commit, and otherwise the session and the changes to make. -/
def plan (schema : Schema) (env : Env) (s : State) (id : SessionId) (actor : Actor) :
    Except Response (Session × List Change) :=
  match s.owned id actor with
  | .error response => .error response
  | .ok session =>
    match s.pending with
    | some pending =>
      .error (.failed .conflict (pending.actor ++ " committed a change " ++
        toString pending.minutes ++ " minutes ago that is still waiting to be confirmed (" ++
        toString (pending.remaining env.now) ++
        " seconds left).\nconfirm it, or wait for it to roll back."))
    | none =>
      if session.baseGeneration ≠ s.generation then
        .error (s.changedUnderneath session.baseGeneration session.candidate)
      else
        match validate schema session.candidate with
        | .error e => .error (.invalid e.message)
        | .ok () => .ok (session,order schema (diff s.running session.candidate))

/-- The pending commit that a promoted state stands for. -/
def State.tryout (s : State) (env : Env) (id : SessionId) (actor : Actor) (comment : Option String)
    (minutes was : ℕ) : Pending where
  deadline := deadlineIn env.now minutes
  minutes := minutes
  session := id
  actorUid := actor.uid
  actor := actor.username
  comment := comment
  previous := (s.history.getLast?.map Prod.snd).getD .new
  previousGeneration := was
  committed := s.running
  generation := s.generation

/-- What follows once the candidate is applied: promote it, and archive it or arm its rollback. -/
def promoted (schema : Schema) (env : Env) (s : State) (id : SessionId) (actor : Actor)
    (comment : Option String) (confirmMinutes : Option ℕ) (session : Session)
    (changes : List Change) : Act (Response × State) := do
  let was := s.generation
  let s := s.advance id session
  let _ ← saveRunning s.running s.generation
  let _ ← Store.save (session.rebase s.generation)
  match confirmMinutes with
  | none =>
    record schema env s.running actor comment s.generation changes
    return (.committed s.generation changes none,s)
  | some minutes =>
    let pending := s.tryout env id actor comment minutes was
    match ← Marker.arm pending with
    | .error e =>
      return (.failed .internal
        ("the change was applied, but the rollback timer could not be armed: " ++ e ++
          "\nconfirm or revert this by hand"),s)
    | .ok () =>
      return (.committed s.generation changes (some (pending.remaining env.now)),s.await pending)

def commit (schema : Schema) (env : Env) (s : State) (id : SessionId) (actor : Actor)
    (comment : Option String) (confirmMinutes : Option ℕ) : Act (Response × State) := do
  match plan schema env s id actor with
  | .error response => return (response,s)
  | .ok (session,changes) =>
    -- Not a failure: the box is already how the operator wants it.
    if changes.isEmpty then return (.committed s.generation changes none,s)
    else
      match ← apply session.candidate with
      | .error e =>
        let kind :=
          match e with
          | .invalid _ | .check _ _ => .validation
          | _ => .internal
        return (.failed kind e.message,s)
      | .ok () => promoted schema env s id actor comment confirmMinutes session changes

/-- Keep a pending commit: its timer and its marker go, and it is archived. -/
def confirmed (schema : Schema) (env : Env) (s : State) (actor : Actor) (pending : Pending) :
    Act (Response × State) := do
  let s := s.release
  let _ ← Marker.disarm
  let changes := order schema (diff pending.previous pending.committed)
  record schema env pending.committed actor pending.comment pending.generation changes
  return (.committed pending.generation changes none,s)

def confirm (schema : Schema) (env : Env) (s : State) (id : SessionId) (actor : Actor) :
    Act (Response × State) := do
  match s.owned id actor with
  | .error response => return (response,s)
  | .ok _ =>
    match s.pending with
    | none => return (.badRequest "nothing is waiting to be confirmed",s)
    -- Anyone in the admin group may confirm, so the actor is not compared.
    | some pending => confirmed schema env s actor pending

/-! ### The saved configuration and the archive -/

/-- Write the running configuration to `config.boot`. -/
def save (schema : Schema) (s : State) : Act (Response × State) := do
  match ← Disk.createSavedDir with
  | .error e => return (.internal "creating /etc/nightshade" e,s)
  | .ok () =>
    match ← Disk.writeTemporary (render s.running (tagOracle schema)) with
    | .error e => return (.internal ("writing " ++ configBoot ++ ".new") e,s)
    | .ok () =>
      match ← Disk.secureTemporary with
      | .error e => return (.internal ("securing " ++ configBoot ++ ".new") e,s)
      | .ok () =>
        match ← Disk.renameTemporary with
        | .error e => return (.internal ("renaming to " ++ configBoot) e,s)
        | .ok () => return (.ok,s)

/-- Put an edited session in place and write it out. -/
def keep (s : State) (id : SessionId) (session : Session) : Act (Response × State) := do
  let s := s.put id session
  match ← Store.save session with
  | .error e => return (.internal "saving the session" e,s)
  | .ok () => return (.ok,s)

/-- The configuration a load asks for, and how it is described. -/
def fetch : LoadSource → Act (Except Response (ConfigTree × String))
  | .saved => do
    match ← Disk.readSaved with
    | .error e => return .error (.internal ("reading " ++ configBoot) e)
    | .ok none =>
      return .error (.badRequest (configBoot ++
        " does not exist; nothing has been saved on this system"))
    | .ok (some text) =>
      match parse text with
      | .ok config => return .ok (config,configBoot)
      | .error e => return .error (.failed .validation (configBoot ++ ": " ++ e.message))
  | .archive revision => do
    match ← Archive.read revision with
    | .ok config => return .ok (config,"revision " ++ toString revision)
    | .error e => return .error (.badRequest e.message)

/-- The lines a list of violations is shown as. -/
def listed (violations : List ConstraintViolation) : String :=
  String.join (violations.map (fun v => "  " ++ v.display ++ "\n"))

/-- Replace the candidate with a configuration from somewhere else. -/
def load (schema : Schema) (s : State) (id : SessionId) (actor : Actor) (source : LoadSource) :
    Act (Response × State) := do
  match s.owned id actor with
  | .error response => return (response,s)
  | .ok session =>
    match ← fetch source with
    | .error response => return (response,s)
    | .ok (config,described) =>
      let violations := schema.validateTree config
      if violations.isEmpty then keep s id {session with candidate := config}
      else
        return (.failed .validation (described ++ " is not a valid configuration:\n" ++
          listed violations ++ "\nthe candidate configuration has not been changed."),s)

def commitLog (s : State) : Act (Response × State) := do
  match ← Archive.list with
  | .ok revisions => return (.revisions revisions,s)
  | .error e => return (.internal "reading the archive" e,s)

/-! ### Sessions and editing -/

def sessionOpen (env : Env) (s : State) (actor : Actor) : Act (Response × State) := do
  match env.entropy with
  | .error e => return (.internal "generating a session id" e,s)
  | .ok id =>
    let session := Session.new id actor s.running s.generation
    match ← Store.save session with
    | .error e => return (.internal "saving the session" e,s)
    | .ok () => return (.session id,s.put id session)

def sessionClose (s : State) (id : SessionId) (actor : Actor) : Act (Response × State) := do
  match s.owned id actor with
  | .error response => return (response,s)
  | .ok _ =>
    let _ ← Store.forget id
    return (.ok,{s with sessions := s.sessions.erase id})

def discard (s : State) (id : SessionId) (actor : Actor) : Act (Response × State) :=
  match s.owned id actor with
  | .error response => return (response,s)
  | .ok session => keep s id {session with candidate := s.running, baseGeneration := s.generation}

def set (schema : Schema) (s : State) (id : SessionId) (actor : Actor) (path : Path)
    (value : Option String) : Act (Response × State) :=
  match s.owned id actor with
  | .error response => return (response,s)
  | .ok session =>
    -- Applied to a copy, so a refused edit leaves the candidate as it was.
    match schema.applySet session.candidate path value with
    | (.error e,_) => return (.invalid e.message,s)
    | (.ok (),candidate) => keep s id {session with candidate := candidate}

def delete (schema : Schema) (s : State) (id : SessionId) (actor : Actor) (path : Path)
    (value : Option String) : Act (Response × State) :=
  match s.owned id actor with
  | .error response => return (response,s)
  | .ok session =>
    match schema.applyDelete session.candidate path value with
    | (.error e,_) => return (.invalid e.message,s)
    | (.ok (),candidate) => keep s id {session with candidate := candidate}

def compare (s : State) (id : SessionId) (actor : Actor) : Act (Response × State) :=
  match s.owned id actor with
  | .error response => return (response,s)
  | .ok session => return (.changes (diff s.running session.candidate),s)

/-- What a request is answered with, and the state it leaves. -/
def handle (schema : Schema) (env : Env) (s : State) (actor : Actor) :
    Request → Act (Response × State)
  | .sessionOpen => sessionOpen env s actor
  | .sessionClose id => sessionClose s id actor
  | .set id path value => set schema s id actor path value
  | .delete id path value => delete schema s id actor path value
  | .compare id => compare s id actor
  | .discard id => discard s id actor
  | .commit id comment confirmMinutes => commit schema env s id actor comment confirmMinutes
  | .confirm id => confirm schema env s id actor
  | .save => save schema s
  | .load id source => load schema s id actor source
  | .commitLog => commitLog s

end Nightshade.Configd
