import Mathlib
import Nightshade.Schema.Diff
import Nightshade.Schema.Validate
import Nightshade.Render.Artifacts

/-! The pure steps of a commit, and the ways it can fail. -/
namespace Nightshade.Configd
open Schema Render

/-- Why a commit did not happen. -/
inductive CommitError where
  | invalid (violations : List ConstraintViolation)
  | render (subsystem message : String)
  /-- Failed before anything was touched. -/
  | check (subsystem message : String)
  /-- Failed part way through, and the previous configuration is back. -/
  | applied (subsystem : String) (source : ApplyError)
  /-- Failed part way through, and putting it back failed too. -/
  | unrecovered (subsystem : String) (source : ApplyError) (restore : String)
  deriving DecidableEq

def CommitError.message : CommitError → String
  | .invalid violations => "\n".intercalate (violations.map ConstraintViolation.display)
  | .render subsystem message => subsystem ++ " could not render this configuration: " ++ message
  | .check subsystem message => subsystem ++ ": " ++ message
  | .applied subsystem source =>
    subsystem ++ " could not apply this configuration: " ++ source.display ++
    "\nthe previous configuration has been restored"
  | .unrecovered subsystem source restore =>
    subsystem ++ " could not apply this configuration: " ++ source.display ++
    "\nRESTORING THE PREVIOUS CONFIGURATION ALSO FAILED: " ++ restore ++
    "\nthis system is not in a state that matches any saved configuration"

/-- Everything the schema can say about a configuration on its own. The rules between nodes are
only asked of a configuration that is structurally sound. -/
def validate (schema : Schema) (candidate : ConfigTree) : Except CommitError Unit :=
  let violations :=
    if (schema.validateTree candidate).isEmpty then schema.checkConstraints candidate
    else schema.validateTree candidate
  if violations.isEmpty then .ok () else .error (.invalid violations)

/-- The priority of the nearest node up the path that the schema knows. -/
def priority (schema : Schema) (path : Path) : ℕ :=
  ((path.inits.reverse.findSome? schema.nodeAt).map SchemaNode.priority).getD (2^32-1)

/-- Changes in the order they take effect. -/
def order (schema : Schema) (changes : List Change) : List Change :=
  let key := fun (c : Change) =>
    toLex (priority schema c.path,toLex (c.path,match c.op with | .remove => 0 | .add => 1))
  changes.insertionSort (fun a b => key a ≤ key b)

end Nightshade.Configd
