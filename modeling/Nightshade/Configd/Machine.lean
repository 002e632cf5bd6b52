import Mathlib
import Nightshade.Render.System
import Nightshade.Render.Login
import Nightshade.Render.Networkd
import Nightshade.Schema.Shipped
import Nightshade.Configd.Pipeline
import Nightshade.Configd.Daemon

/-! A daemon with its renderers on a machine. -/
namespace Nightshade.Configd
open Foundation Schema Render

/-- Every renderer, in the order in which the schema says to apply what they own. -/
def renderers (schema : Schema) : List Renderer :=
  let owned : List (Path × Renderer) :=
    [(["system"],SystemRenderer),(["system","login"],LoginRenderer),(["interfaces"],NetworkdRenderer)]
  let key := fun (path : Path) => ((schema.nodeAt path).map SchemaNode.priority).getD (2^32-1)
  (owned.insertionSort (fun a b => key a.1 ≤ key b.1)).map Prod.snd

example : (renderers (Shipped.schema [])).map Renderer.name = ["system","login","networkd"] := by
  decide +kernel

/-- The renderers that the daemon is built with, in their order. -/
theorem renderers_shipped (zones : List String) :
    renderers (Shipped.schema zones) = [SystemRenderer,LoginRenderer,NetworkdRenderer] := rfl

/-- What the renderers make of a configuration: none of them refuses to render it. -/
theorem renderAll_shipped (zones : List String) (config : ConfigTree) : ∃ a b c, System.render config = .ok a ∧
    Login.render config = .ok b ∧ Networkd.render config = .ok c ∧
    Pipeline.renderAll config (renderers (Shipped.schema zones)) =
      .ok [(SystemRenderer,a),(LoginRenderer,b),(NetworkdRenderer,c)] := ⟨_,_,_,rfl,rfl,rfl,rfl⟩

/-- A site whose host is a machine with its files of last artifacts. Only the machine notices a
reboot: the artifacts are kept under `/var/lib`. -/
def Site.onMachine {M F : Type} (schema : Schema) (renderers : List Renderer)
    (machine : Exec HostOp HostOp.Answer F M) (reboot : M → M) :
    Site (M × Store) (ℕ → HostOp → HostFate F) where
  schema := schema
  applyHost := fun config fate w =>
    (Pipeline.apply renderers config).run (Render.onHost machine) fate 0 w
  rebootHost := fun w => (reboot w.1,w.2)

/-! ### A test bench -/

/-- A machine of files and virtual devices. -/
structure Bench where
  files : SortedMap String String
  devices : List String
  deriving Inhabited

namespace Bench

/-- A file of a directory that has the marker in its name. -/
def marked (dir marker path : String) : Bool :=
  match (Networkd.splitOnce (dir ++ "/").toList path.toList) with
  | some ([],name) => (Networkd.splitOnce marker.toList name).isSome
  | _ => false

def sync (bench : Bench) (managed : Managed) : Bench :=
  {bench with
    files := (bench.files.filterKeys (fun path => !marked managed.dir managed.marker path)).insertAll
      (managed.files.entries.map (fun e => (managed.dir ++ "/" ++ e.1,e.2)))}

/-- The devices that networkd is told to create. -/
def described (bench : Bench) : List String :=
  (bench.files.keys.filter (marked Networkd.networkdDir managedMarker)).filterMap Networkd.device

def reload (bench : Bench) : Bench :=
  {bench with devices := bench.described.foldl (fun out device => insertElem device out) bench.devices}

/-- Run a program; those that are broken fail. -/
def run (bench : Bench) (broken argv : List String) : Except String Unit × Bench :=
  match argv with
  | ["networkctl","delete",device] =>
    if device ∈ bench.devices then (.ok (),{bench with devices := bench.devices.erase device})
    else (.error "`networkctl delete` failed (exit 1)",bench)
  | ["networkctl","reload"] => (.ok (),bench.reload)
  | program::_ => if program ∈ broken then (.error (program ++ " failed"),bench) else (.ok (),bench)
  | [] => (.error "no program",bench)

/-- The bench as a machine. A fate says which programs are broken. -/
def machine : Exec HostOp HostOp.Answer (List String) Bench
  | .sync managed, _, bench => (some (.ok ()),bench.sync managed)
  | .write path contents, _, bench =>
    (some (.ok ()),{bench with files := bench.files.insert path contents})
  | .read path, _, bench => (some (.ok (bench.files.get? path)),bench)
  | .run argv, broken, bench | .runWithSecret argv _, broken, bench =>
    (some (bench.run broken argv).1,(bench.run broken argv).2)
  | .load _, _, bench => (some none,bench)
  | .save _ _, _, bench => (some (.ok ()),bench)

/-- A reboot takes what is under `/run`, and every virtual device. -/
def reboot (bench : Bench) : Bench :=
  ⟨bench.files.filterKeys (fun path => !"/run/".toList.isPrefixOf path.toList),[]⟩

/-- A box with the renderers of the shipped schema. -/
def site : Site (Bench × Store) (ℕ → HostOp → HostFate (List String)) :=
  Site.onMachine (Shipped.schema []) (renderers (Shipped.schema [])) machine reboot

/-- An event in which every step of the daemon goes through, with some programs broken. -/
def event (broken : List String) (action : Action) :
    Event (ℕ → HostOp → HostFate (List String)) :=
  ⟨action,⟨0,"",.ok "0123456789abcdef"⟩,.smooth (fun _ _ => ⟨broken,.ok⟩)⟩

end Bench
end Nightshade.Configd
