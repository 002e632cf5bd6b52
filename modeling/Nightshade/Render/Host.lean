import Mathlib
import Nightshade.Foundation.Effects
import Nightshade.Schema.Config
import Nightshade.Render.Artifacts

/-! The boundary between rendering and the machine: what a renderer may do to a host, one operation
at a time, and the files in which the last artifacts are kept that were applied. -/
namespace Nightshade.Render
open Foundation Schema

inductive HostOp where
  /-- Make a directory hold exactly these files among those with the marker. -/
  | sync (managed : Managed)
  | write (path contents : String)
  | read (path : String)
  | run (argv : List String)
  /-- Run a program with something on its standard input that must not be seen. -/
  | runWithSecret (argv : List String) (secret : String)
  /-- Read the artifacts that a renderer last applied; none when they cannot be read. -/
  | load (name : String)
  | save (name : String) (artifacts : Artifacts)

namespace HostOp

/-- The error of an operation is its text. -/
abbrev Answer : HostOp → Type
  | .read _ => Except String (Option String)
  | .load _ => Option Artifacts
  | _ => Except String Unit

/-- An operation on the machine, and not on the files of last artifacts. -/
def onMachine : HostOp → Bool
  | .load _ | .save _ _ => false
  | _ => true

/-- An operation that may change something. -/
def mutates : HostOp → Bool
  | .read _ | .load _ => false
  | _ => true

end HostOp

/-- What runs against a host. -/
abbrev HostProg (α : Type) := Prog HostOp HostOp.Answer α

namespace Host

abbrev sync (managed : Managed) : HostProg (Except String Unit) := Prog.call (HostOp.sync managed)
abbrev write (path contents : String) : HostProg (Except String Unit) :=
  Prog.call (HostOp.write path contents)
abbrev read (path : String) : HostProg (Except String (Option String)) :=
  Prog.call (HostOp.read path)
abbrev run (argv : List String) : HostProg (Except String Unit) := Prog.call (HostOp.run argv)
abbrev runWithSecret (argv : List String) (secret : String) : HostProg (Except String Unit) :=
  Prog.call (HostOp.runWithSecret argv secret)

end Host

namespace LastApplied

abbrev load (name : String) : HostProg (Option Artifacts) := Prog.call (HostOp.load name)
abbrev save (name : String) (artifacts : Artifacts) : HostProg (Except String Unit) :=
  Prog.call (HostOp.save name artifacts)

end LastApplied

/-- The artifacts that each renderer last applied, by the names of the renderers. -/
abbrev Store := SortedMap String Artifacts

/-- A subsystem the config maps onto. It acts on the machine as it likes, and reads what it applied
last; only `remember` records that. -/
structure Renderer where
  name : String
  render : ConfigTree → Except RenderError Artifacts
  check : Artifacts → Except RenderError Unit
  apply : Artifacts → HostProg (Except ApplyError Unit)
  verify : Artifacts → HostProg (Except ApplyError Unit)
  apply_unsaved : ∀ a, (apply a).Only (fun op => ∀ name artifacts, op ≠ .save name artifacts)
  verify_unsaved : ∀ a, (verify a).Only (fun op => ∀ name artifacts, op ≠ .save name artifacts)

namespace Renderer

/-- What the last successful apply used, if there was one. -/
def previous (renderer : Renderer) : HostProg (Option Artifacts) := LastApplied.load renderer.name

/-- Record the artifacts of a successful apply. -/
def remember (renderer : Renderer) (artifacts : Artifacts) : HostProg (Except String Unit) :=
  LastApplied.save renderer.name artifacts

end Renderer

/-- Read files back and confirm that each is as it was written. -/
def verifyPaths : List (String × String) → HostProg (Except ApplyError Unit)
  | [] => return .ok ()
  | (path,expected)::rest => do
    match ← Host.read path with
    | .error e => return .error (.host e)
    | .ok (some found) =>
      if found = expected then verifyPaths rest
      else return .error (.unverified path "the contents are not what was written")
    | .ok none => return .error (.unverified path "the file is not there")

/-- Read every file of some artifacts back. -/
def verifyFiles (artifacts : Artifacts) : HostProg (Except ApplyError Unit) :=
  verifyPaths artifacts.allFiles.entries

/-- An operation as a part of an apply. -/
def orHost (operation : HostProg (Except String Unit)) : HostProg (Except ApplyError Unit) := do
  match ← operation with
  | .error e => return .error (.host e)
  | .ok () => return .ok ()

/-- One step after another, up to the first that fails. -/
def forEach {α : Type} (step : α → HostProg (Except ApplyError Unit)) :
    List α → HostProg (Except ApplyError Unit)
  | [] => return .ok ()
  | a::rest => do
    match ← step a with
    | .error e => return .error e
    | .ok () => forEach step rest

def writeFiles : List (String × String) → HostProg (Except ApplyError Unit) :=
  forEach (fun file => orHost (Host.write file.1 file.2))

theorem only_orHost {Q : HostOp → Prop} {operation : HostProg (Except String Unit)}
    (h : operation.Only Q) : (orHost operation).Only Q := by
  apply h.bind
  intro r
  cases r <;> trivial

theorem only_forEach_of_mem {α : Type} {Q : HostOp → Prop} {step : α → HostProg (Except ApplyError Unit)} {l : List α}
    (h : ∀ a ∈ l, (step a).Only Q) : (forEach step l).Only Q := by
  induction l with
  | nil => trivial
  | cons a rest ih =>
    apply (h a List.mem_cons_self).bind
    intro r
    cases r with
    | error e => trivial
    | ok _ => exact ih (fun b hb => h b (List.mem_cons_of_mem _ hb))

theorem only_forEach {α : Type} {Q : HostOp → Prop}
    {step : α → HostProg (Except ApplyError Unit)} (h : ∀ a, (step a).Only Q) (l : List α) :
    (forEach step l).Only Q := only_forEach_of_mem (fun a _ => h a)

theorem writeFiles_unsaved (files : List (String × String)) :
    (writeFiles files).Only (fun op => ∀ name artifacts, op ≠ .save name artifacts) :=
  only_forEach (fun _ => only_orHost (Prog.only_call nofun)) files

/-- Reading files back does nothing but read. -/
theorem only_verifyPaths {Q : HostOp → Prop} (h : ∀ path, Q (.read path)) (paths : List (String × String)) :
    (verifyPaths paths).Only Q := by
  induction paths with
  | nil => trivial
  | cons entry rest ih =>
    obtain ⟨path,expected⟩ := entry
    refine ⟨h path,fun r => ?_⟩
    rcases r with e | _ | found
    · trivial
    · trivial
    · by_cases hfound : found = expected
      · simpa [hfound] using ih
      · simp [hfound]

theorem verifyPaths_unsaved (paths : List (String × String)) :
    (verifyPaths paths).Only (fun op => ∀ name artifacts, op ≠ .save name artifacts) :=
  only_verifyPaths (fun _ => nofun) paths

theorem verifyFiles_unsaved (artifacts : Artifacts) :
    (verifyFiles artifacts).Only (fun op => ∀ name artifacts, op ≠ .save name artifacts) :=
  verifyPaths_unsaved _

/-! ### A machine with its files of last artifacts -/

/-- How a step on a file of last artifacts turns out. -/
inductive StoreFate where
  | ok
  | fail (reason : String)
  | kill
  deriving DecidableEq

/-- The fate of an operation: of the machine, or of a file of last artifacts. -/
structure HostFate (F : Type) where
  machine : F
  store : StoreFate

/-- A machine does its operations as it does them; the files of last artifacts are files. -/
def onHost {M F : Type} (machine : Exec HostOp HostOp.Answer F M) :
    Exec HostOp HostOp.Answer (HostFate F) (M × Store)
  | .load name, f, w =>
    match f.store with
    | .ok => (some (w.2.get? name),w)
    | .fail _ => (some none,w)
    | .kill => (none,w)
  | .save name artifacts, f, w =>
    match f.store with
    | .ok => (some (.ok ()),w.1,w.2.insert name artifacts)
    | .fail reason => (some (.error reason),w)
    | .kill => (none,w)
  | op, f, w => ((machine op f.machine w.1).1,(machine op f.machine w.1).2,w.2)

/-- Only recording artifacts changes what is recorded. -/
theorem onHost_store {M F : Type} {machine : Exec HostOp HostOp.Answer F M} {op : HostOp}
    (f : HostFate F) (w : M × Store) (h : ∀ name artifacts, op ≠ .save name artifacts) :
    (onHost machine op f w).2.2 = w.2 := by
  cases op with
  | save name artifacts => exact absurd rfl (h name artifacts)
  | load name => cases hf : f.store <;> simp [onHost,hf]
  | _ => rfl

end Nightshade.Render
