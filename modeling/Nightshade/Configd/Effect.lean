import Mathlib
import Nightshade.Foundation.Effects
import Nightshade.Configd.Commit
import Nightshade.Configd.Confirm
import Nightshade.Configd.Message

/-! What the daemon does to the box, one durable step at a time: the files it keeps, the host as
an apply leaves it, and what each step does to them under each fate. A write goes to a temporary
file that is renamed, so it happens or does not. -/
namespace Nightshade.Configd
open Foundation Schema

/-- The name of an archived revision: its number and the time it was recorded. -/
abbrev Stem := ℕ ×ₗ String

def RevisionInfo.stem (info : RevisionInfo) : Stem := toLex (info.revision,info.timestamp)

/-- A configuration and its generation, as `running.json` records them. -/
structure Recorded where
  generation : ℕ
  config : ConfigTree
  deriving DecidableEq

/-- The files of the daemon, and the host. -/
structure Box (H : Type) where
  host : H
  /-- `/run/nightshade/sessions`. -/
  sessions : SortedMap SessionId Session
  /-- `/run/nightshade/running.json`. -/
  running : Option Recorded
  /-- `/run/nightshade/pending-confirm.json`. -/
  marker : Option Pending
  /-- `/run/nightshade/boot-failed`. -/
  bootFailure : Option String
  /-- `/etc/nightshade/config.boot`. -/
  saved : Option String
  /-- `/etc/nightshade/config.boot.new`. -/
  temporary : Option String
  /-- The configurations in the archive. -/
  revisions : SortedMap Stem String
  /-- The sidecars next to them. -/
  infos : SortedMap Stem RevisionInfo

inductive Effect where
  | prepareStore
  | loadSessions
  | saveSession (session : Session)
  | forgetSession (id : SessionId)
  | loadRunning
  | saveRunning (config : ConfigTree) (generation : ℕ)
  | readMarker
  | armMarker (pending : Pending)
  | disarmMarker
  | apply (config : ConfigTree)
  | readSaved
  | createSavedDir
  | writeTemporary (text : String)
  | secureTemporary
  | renameTemporary
  | writeBootFailure (reason : String)
  | removeBootFailure
  | createArchive
  | writeRevision (stem : Stem) (text : String)
  | writeInfo (info : RevisionInfo)
  | listInfos
  | readRevision (stem : Stem)
  | removeRevision (stem : Stem)
  | removeInfo (stem : Stem)

/-- What a step answers. -/
abbrev Effect.Answer : Effect → Type
  | .loadSessions => Except String (SortedMap SessionId Session)
  | .loadRunning => Recorded
  | .readMarker => Except String (Option Pending)
  | .apply _ => Except CommitError Unit
  | .readSaved => Except String (Option String)
  | .listInfos => Except String (List RevisionInfo)
  | .readRevision _ => Except String String
  | _ => Except String Unit

/-- How a step on a file turns out. -/
inductive IoFate where
  | ok
  | fail (reason : String)
  /-- The daemon is killed before the step happens. -/
  | kill
  deriving DecidableEq

/-- The order in which a directory is read. -/
structure Shuffle where
  order : List RevisionInfo → List RevisionInfo
  perm : ∀ l, (order l).Perm l

/-- As the directory keeps its entries. -/
def Shuffle.asKept : Shuffle := ⟨id,fun _ => List.Perm.refl _⟩

/-- The fate of one step: of its file, of the host under an apply, and of a directory's order. -/
structure Fate (F : Type) where
  io : IoFate
  host : F
  shuffle : Shuffle

namespace IoFate
variable {H A : Type}

/-- A step that changes the box and answers nothing. -/
def write (f : IoFate) (b b' : Box H) : Option (Except String Unit) × Box H :=
  match f with
  | ok => (some (.ok ()),b')
  | fail reason => (some (.error reason),b)
  | kill => (none,b)

/-- A step that only looks. -/
def look (f : IoFate) (b : Box H) (seen : A) (failed : String → A) : Option A × Box H :=
  match f with
  | ok => (some seen,b)
  | fail reason => (some (failed reason),b)
  | kill => (none,b)

/-- A step that reads what is there, or says why it cannot. -/
def read (f : IoFate) (b : Box H) (a : A) : Option (Except String A) × Box H :=
  f.look b (.ok a) .error

end IoFate

/-- What a box brings to the daemon: its schema, what applying a configuration does to its host
under each fate, and what a reboot does to the host. -/
structure Site (H F : Type) where
  schema : Schema
  /-- Nothing when the daemon is killed in it. -/
  applyHost : ConfigTree → F → H → Option (Except CommitError Unit) × H
  rebootHost : H → H

/-- One durable step. A missing file is an answer and not a failure; a configuration that cannot
be read back is taken as none at all. -/
def perform {H F : Type} (site : Site H F) : Exec Effect Effect.Answer (Fate F) (Box H)
  | .prepareStore, f, b => f.io.write b b
  | .loadSessions, f, b => f.io.read b b.sessions
  | .saveSession session, f, b =>
    f.io.write b {b with sessions := b.sessions.insert session.id session}
  | .forgetSession id, f, b => f.io.write b {b with sessions := b.sessions.erase id}
  | .loadRunning, f, b =>
    f.io.look b (b.running.getD ⟨0,.new⟩) (fun _ => ⟨0,.new⟩)
  | .saveRunning config generation, f, b =>
    f.io.write b {b with running := some ⟨generation,config⟩}
  | .readMarker, f, b => f.io.read b b.marker
  | .armMarker pending, f, b => f.io.write b {b with marker := some pending}
  | .disarmMarker, f, b => f.io.write b {b with marker := none}
  | .apply config, f, b =>
    let r := site.applyHost config f.host b.host
    (r.1,{b with host := r.2})
  | .readSaved, f, b => f.io.read b b.saved
  | .createSavedDir, f, b => f.io.write b b
  | .writeTemporary text, f, b => f.io.write b {b with temporary := some text}
  | .secureTemporary, f, b => f.io.write b b
  | .renameTemporary, f, b => f.io.write b {b with saved := b.temporary, temporary := none}
  | .writeBootFailure reason, f, b => f.io.write b {b with bootFailure := some reason}
  | .removeBootFailure, f, b => f.io.write b {b with bootFailure := none}
  | .createArchive, f, b => f.io.write b b
  | .writeRevision stem text, f, b =>
    f.io.write b {b with revisions := b.revisions.insert stem text}
  | .writeInfo info, f, b => f.io.write b {b with infos := b.infos.insert info.stem info}
  | .listInfos, f, b => f.io.read b (f.shuffle.order (b.infos.entries.map Prod.snd))
  | .readRevision stem, f, b =>
    f.io.look b
      (match b.revisions.get? stem with
       | some text => .ok text
       | none => .error "No such file or directory (os error 2)") .error
  | .removeRevision stem, f, b => f.io.write b {b with revisions := b.revisions.erase stem}
  | .removeInfo stem, f, b => f.io.write b {b with infos := b.infos.erase stem}

/-- Only `/run` is lost at a reboot. -/
def Box.reboot {H F : Type} (site : Site H F) (b : Box H) : Box H :=
  {b with
    host := site.rebootHost b.host
    sessions := SortedMap.empty
    running := none
    marker := none
    bootFailure := none}

/-- What the daemon does, step by step. -/
abbrev Act (α : Type) := Prog Effect Effect.Answer α

/-! ### The steps under the names their callers use -/

namespace Store

abbrev prepare : Act (Except String Unit) := Prog.call Effect.prepareStore
abbrev loadAll : Act (Except String (SortedMap SessionId Session)) := Prog.call Effect.loadSessions
abbrev save (session : Session) : Act (Except String Unit) := Prog.call (Effect.saveSession session)
abbrev forget (id : SessionId) : Act (Except String Unit) := Prog.call (Effect.forgetSession id)

end Store

namespace Marker

abbrev arm (pending : Pending) : Act (Except String Unit) := Prog.call (Effect.armMarker pending)
abbrev disarm : Act (Except String Unit) := Prog.call Effect.disarmMarker
abbrev read : Act (Except String (Option Pending)) := Prog.call Effect.readMarker

end Marker

/-- Read the running configuration recorded under `/run`. -/
abbrev loadRunning : Act Recorded := Prog.call Effect.loadRunning

abbrev saveRunning (config : ConfigTree) (generation : ℕ) : Act (Except String Unit) :=
  Prog.call (Effect.saveRunning config generation)

/-- Render, check, apply and verify a configuration, or put back what was there. -/
abbrev apply (config : ConfigTree) : Act (Except CommitError Unit) := Prog.call (Effect.apply config)

namespace Disk

abbrev readSaved : Act (Except String (Option String)) := Prog.call Effect.readSaved
abbrev createSavedDir : Act (Except String Unit) := Prog.call Effect.createSavedDir
abbrev writeTemporary (text : String) : Act (Except String Unit) := Prog.call (Effect.writeTemporary text)
abbrev secureTemporary : Act (Except String Unit) := Prog.call Effect.secureTemporary
abbrev renameTemporary : Act (Except String Unit) := Prog.call Effect.renameTemporary
abbrev writeBootFailure (reason : String) : Act (Except String Unit) :=
  Prog.call (Effect.writeBootFailure reason)
abbrev removeBootFailure : Act (Except String Unit) := Prog.call Effect.removeBootFailure
abbrev createArchive : Act (Except String Unit) := Prog.call Effect.createArchive
abbrev writeRevision (stem : Stem) (text : String) : Act (Except String Unit) :=
  Prog.call (Effect.writeRevision stem text)
abbrev writeInfo (info : RevisionInfo) : Act (Except String Unit) := Prog.call (Effect.writeInfo info)
abbrev listInfos : Act (Except String (List RevisionInfo)) := Prog.call Effect.listInfos
abbrev readRevision (stem : Stem) : Act (Except String String) := Prog.call (Effect.readRevision stem)
abbrev removeRevision (stem : Stem) : Act (Except String Unit) := Prog.call (Effect.removeRevision stem)
abbrev removeInfo (stem : Stem) : Act (Except String Unit) := Prog.call (Effect.removeInfo stem)

end Disk

end Nightshade.Configd
