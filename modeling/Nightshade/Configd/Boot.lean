import Mathlib
import Nightshade.Configd.State

/-! Applying the saved configuration at startup, or coming up on the schema's defaults. -/
namespace Nightshade.Configd
open Foundation Schema

/-- What startup did. -/
inductive Outcome where
  /-- The box was already configured; the daemon had restarted. -/
  | alreadyRunning (generation : ℕ)
  | applied (changes : ℕ)
  /-- There was nothing saved. -/
  | nothingSaved
  | defaults (reason : String)
  deriving DecidableEq

/-- Why the box came up on defaults, if it did. -/
def Outcome.failed : Outcome → Option String
  | .defaults reason => some reason
  | _ => none

/-- Everything wrong with a saved configuration: of its parts, and between them. -/
def savedViolations (schema : Schema) (config : ConfigTree) : List ConstraintViolation :=
  schema.validateTree config ++ schema.checkConstraints config

/-- Read `config.boot` and turn it into a configuration, or say why not. -/
def saved (schema : Schema) : Act (Except String (Option ConfigTree)) := do
  match ← Disk.readSaved with
  | .error e => return .error (configBoot ++ " could not be read: " ++ e)
  | .ok none => return .ok none
  | .ok (some text) =>
    match parse text with
    | .error e => return .error (configBoot ++ " does not parse: " ++ e.message)
    | .ok config =>
      let violations := savedViolations schema config
      if violations.isEmpty then return .ok (some config)
      else return .error (configBoot ++ " is not a valid configuration:\n" ++ listed violations)

/-- Come up on defaults. An error in applying even these is only logged. -/
def fallBack (schema : Schema) (s : State) (reason : String) : Act (Outcome × State) := do
  let _ ← apply schema.defaults
  let s ← adopt s schema.defaults
  return (.defaults reason,s)

def applyAtBoot (schema : Schema) (s : State) (config : ConfigTree) : Act (Outcome × State) := do
  match ← apply config with
  | .ok () =>
    let s ← adopt s config
    return (.applied (diff .new config).length,s)
  | .error e =>
    fallBack schema s ("the saved configuration could not be applied: " ++ e.message)

/-- Leave the reason for a failed boot where it will be met, or take an old one away. -/
def noteOutcome (outcome : Outcome) : Act Unit := do
  match outcome.failed with
  | some reason =>
    let _ ← Disk.writeBootFailure reason
    return ()
  | none =>
    let _ ← Disk.removeBootFailure
    return ()

/-- Apply the saved configuration, or come up on defaults and say why. -/
def boot (schema : Schema) (s : State) : Act (Outcome × State) := do
  match s.recoveredGeneration with
  | some generation => return (.alreadyRunning generation,s)
  | none =>
    let r ← (do
      match ← saved schema with
      | .ok (some config) => applyAtBoot schema s config
      | .ok none => return (.nothingSaved,s)
      | .error reason => fallBack schema s reason)
    noteOutcome r.1
    return r

end Nightshade.Configd
