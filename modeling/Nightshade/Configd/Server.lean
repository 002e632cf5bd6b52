import Mathlib
import Nightshade.Proto.Stream
import Nightshade.Configd.Served
import Nightshade.Configd.Daemon

/-! The socket, and what happens on it. Each connection is read by a task of its own, one request at a time; the tasks
take turns, and a request is carried out in one turn. -/
namespace Nightshade.Configd
open Foundation Schema

/-! ### Who is on the other end -/

/-- The process that connected, as the kernel describes it. -/
structure Peer where
  uid : ℕ
  gid : ℕ
  deriving DecidableEq

structure UnixGroup where
  gid : ℕ
  mem : List String

/-- What the box knows of users and groups. -/
structure UserDatabase where
  fromUid : ℕ → Except String (Option String)
  fromName : String → Except String (Option UnixGroup)

/-- Who is allowed to talk to the daemon, besides root. -/
inductive Access where
  | group (name : String)
  | uid (uid : ℕ)
  deriving DecidableEq

inductive AuthError where
  | noSuchUser (uid : ℕ)
  | notPermitted (uid : ℕ) (username group : String)
  | wrongUid (uid : ℕ)
  | noGroup (group : String)
  | userDatabase (error : String)
  deriving DecidableEq

def AuthError.message : AuthError → String
  | .noSuchUser uid => "uid " ++ toString uid ++ " is not a user on this system"
  | .notPermitted uid username group =>
    username ++ " (uid " ++ toString uid ++ ") is not a member of " ++ group
  | .wrongUid uid => "uid " ++ toString uid ++ " is not permitted"
  | .noGroup group => "group " ++ group ++ " does not exist, so only root can configure this system"
  | .userDatabase error => "reading the user database: " ++ error

/-- Decide whether a peer may be served, and as whom. -/
def authenticate (db : UserDatabase) (access : Access) (peer : Peer) : Except AuthError Actor := do
  let username ←
    match db.fromUid peer.uid with
    | .error e => .error (.userDatabase e)
    | .ok (some name) => .ok name
    -- Root stays usable even with a broken passwd database.
    | .ok none => if peer.uid = 0 then .ok "root" else .error (.noSuchUser peer.uid)
  let actor : Actor := ⟨peer.uid,username⟩
  if peer.uid = 0 then .ok actor
  else
    match access with
    | .uid allowed => if peer.uid = allowed then .ok actor else .error (.wrongUid peer.uid)
    | .group group =>
      match db.fromName group with
      | .error e => .error (.userDatabase e)
      | .ok none => .error (.noGroup group)
      | .ok (some admin) =>
        -- The primary group, or a supplementary one.
        if admin.gid = peer.gid ∨ username ∈ admin.mem then .ok actor
        else .error (.notPermitted peer.uid username group)

/-! ### Connections -/

/-- How far the task of a connection has come. -/
inductive Stage where
  | accepted
  | admitted (actor : Actor)
  | closed
  deriving DecidableEq

structure Connection where
  peer : Peer
  stage : Stage
  /-- All that the peer has sent, and what of it has not been read. -/
  sent : List UInt8
  incoming : List UInt8
  /-- Whether the peer has closed its end. -/
  ended : Bool
  /-- All that the daemon has written. -/
  outgoing : List UInt8

/-- A request that was carried out, and its answer unless the daemon was killed in it. -/
structure Service (I : Type) where
  connection : ℕ
  actor : Actor
  ask : Ask
  reply : Option (Reply I)

/-- The daemon with its connections, each under its number, and a log of the requests that were carried out. -/
structure Server (I H : Type) where
  system : System H
  connections : List Connection
  log : List (Service I)

/-- What is fixed as long as a daemon runs. -/
structure Setting (I H F : Type) where
  site : Site H F
  interfaces : Interfaces I
  db : UserDatabase
  access : Access
  asks : Proto.Cbor Ask
  replies : Proto.Cbor (Reply I)
  /-- The words of a failed read. -/
  words : Proto.ErrorKind → String

inductive Happening (F : Type) where
  | connect (peer : Peer)
  | send (i : ℕ) (bytes : List UInt8)
  | finish (i : ℕ)
  /-- A connection has said nothing for too long. -/
  | idle (i : ℕ)
  /-- A task's turn: the pace at which it reads, and how many bytes it gets to write if not all. -/
  | turn (i : ℕ) (pace : List ℕ) (written : Option ℕ) (env : Env) (fate : ℕ → Effect → Fate F)
  /-- Anything that the daemon does of itself. -/
  | own (ev : Event F)

namespace Connection

def close (c : Connection) : Connection := {c with stage := .closed}

/-- Write a response, whole or up to where writing fails. -/
def write {I : Type} (replies : Proto.Cbor (Reply I)) (reply : Reply I) (written : Option ℕ) (c : Connection) :
    Connection :=
  match Proto.encode replies reply with
  | .error _ => c.close
  | .ok frame =>
    match written with
    | none => {c with outgoing := c.outgoing ++ frame}
    | some n => {c with outgoing := c.outgoing ++ frame.take n}.close

end Connection

namespace Server
variable {I H F : Type} (setting : Setting I H F)

/-- Replace a connection. -/
def put (server : Server I H) (i : ℕ) (c : Connection) : Server I H :=
  {server with connections := server.connections.set i c}

/-- No connection outlives the daemon. -/
def settle (server : Server I H) : Server I H :=
  match server.system.process with
  | some _ => server
  | none => {server with connections := server.connections.map Connection.close}

/-- Carry out a request, and write its answer. -/
def carryOut (server : Server I H) (i : ℕ) (c : Connection) (s : State) (actor : Actor) (ask : Ask)
    (written : Option ℕ) (env : Env) (fate : ℕ → Effect → Fate F) : Server I H :=
  match (answer setting.site.schema setting.interfaces env s actor ask).run (perform setting.site) fate 0
      server.system.box with
  | (some r,box) =>
    { system := ⟨box,some ⟨.serving,r.2⟩⟩
      connections := server.connections.set i (c.write setting.replies r.1 written)
      log := server.log ++ [⟨i,actor,ask,some r.1⟩] }
  | (none,box) =>
    settle
      { system := ⟨box,none⟩
        connections := server.connections.set i c
        log := server.log ++ [⟨i,actor,ask,none⟩] }

/-- One turn of the task of a connection. -/
def serve (server : Server I H) (i : ℕ) (c : Connection) (s : State) (pace : List ℕ) (written : Option ℕ) (env : Env)
    (fate : ℕ → Effect → Fate F) : Server I H :=
  match c.stage with
  | .closed => server
  | .accepted =>
    match authenticate setting.db setting.access c.peer with
    | .ok actor => server.put i {c with stage := .admitted actor}
    -- Answered rather than dropped, so that the operator gets the reason.
    | .error e => server.put i (c.write setting.replies (.response (.badRequest e.message)) written).close
  | .admitted actor =>
    if c.ended || Proto.isWhole c.incoming then
      let reading := Proto.read setting.asks ⟨c.incoming,pace⟩
      match reading.result with
      | .ok none => server.put i c.close
      | .error (.io _) => server.put i c.close
      | .error (.frame e) =>
        server.put i (c.write setting.replies (.response (.badRequest (e.message setting.words))) written).close
      | .ok (some ask) =>
        server.carryOut setting i {c with incoming := reading.rest.bytes} s actor ask written env fate
    else server

/-- What happens to one connection, if there is one of that number. -/
def onConnection (server : Server I H) (i : ℕ) (f : Connection → Server I H) : Server I H :=
  match server.connections[i]? with
  | some c => f c
  | none => server

def step (server : Server I H) : Happening F → Server I H
  | .connect peer =>
    {server with connections := server.connections ++ [⟨peer,.accepted,[],[],false,[]⟩]}
  | .send i bytes =>
    server.onConnection i (fun c =>
      if c.ended then server
      else server.put i {c with sent := c.sent ++ bytes, incoming := c.incoming ++ bytes})
  | .finish i => server.onConnection i (fun c => server.put i {c with ended := true})
  | .idle i => server.onConnection i (fun c => server.put i c.close)
  | .turn i pace written env fate =>
    match server.system.process with
    | some ⟨.serving,s⟩ => server.onConnection i (fun c => server.serve setting i c s pace written env fate)
    | _ => server
  | .own ev =>
    match ev.action with
    | .request _ _ => server
    | _ => settle {server with system := server.system.step setting.site ev}

end Server
end Nightshade.Configd
