import Mathlib
import Nightshade.Foundation.SortedMap

/-! What a renderer makes of a configuration, and how rendering and applying can fail. -/
namespace Nightshade.Render
open Foundation

/-- Marker in the name of every file written into a shared directory. -/
def managedMarker : String := "-ns-"

/-- A directory whose marked files a renderer owns: file names to contents. -/
structure Managed where
  dir : String
  marker : String
  files : SortedMap String String

/-- Something applied by running a tool rather than by writing a file. -/
inductive Action where
  | setHostName (name : String) (domain : Option String)
  | setTimeZone (zone : String)
  | reloadNetworkd
  /-- Destroy a device so networkd rebuilds it. -/
  | recreateNetdev (name : String)
  /-- An account that should exist, with this GECOS field. -/
  | ensureAccount (name : String) (fullName : Option String)
  /-- The hash goes to the command on standard input. -/
  | setPassword (name hash : String)
  /-- Remove an account that used to be managed. -/
  | removeAccount (name : String)
  deriving Repr, DecidableEq

/-- The argument vector an action runs as. -/
def Action.argv : Action → List String
  | .setHostName name _ => ["hostnamectl","set-hostname",name]
  | .setTimeZone zone => ["timedatectl","set-timezone",zone]
  | .reloadNetworkd => ["networkctl","reload"]
  | .recreateNetdev name => ["networkctl","delete",name]
  | .ensureAccount name fullName =>
    ["usermod"] ++ (match fullName with | some text => ["--comment",text] | none => []) ++ [name]
  | .setPassword _ _ => ["chpasswd","-e"]
  | .removeAccount name => ["userdel",name]

/-- The complete output of one renderer for one configuration. -/
structure Artifacts where
  managed : List Managed
  /-- Files at absolute paths that the renderer owns outright. -/
  files : SortedMap String String
  actions : List Action

namespace Artifacts

def empty : Artifacts := ⟨[],SortedMap.empty,[]⟩

instance : Inhabited Artifacts := ⟨empty⟩

/-- Every managed file, keyed by its full path. -/
def allFiles (artifacts : Artifacts) : SortedMap String String :=
  artifacts.managed.foldl (fun out m =>
    out.insertAll (m.files.entries.map (fun e => (m.dir ++ "/" ++ e.1,e.2)))) artifacts.files

end Artifacts

/-- A configuration a subsystem can make nothing of. -/
structure RenderError where
  subsystem : String
  message : String
  deriving Repr, DecidableEq

def RenderError.display (e : RenderError) : String := e.subsystem ++ ": " ++ e.message

/-- Why an apply did not go through. The error of the machine is its text. -/
inductive ApplyError where
  | host (message : String)
  | unverified (path reason : String)
  deriving Repr, DecidableEq

def ApplyError.display : ApplyError → String
  | .host message => message
  | .unverified path reason => path ++ " was applied but " ++ reason

end Nightshade.Render
