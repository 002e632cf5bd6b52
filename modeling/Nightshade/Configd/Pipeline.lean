import Mathlib
import Nightshade.Render.Host
import Nightshade.Configd.Commit

/-! Rendering, checking and applying a configuration. Everything is rendered and checked before
anything is applied, and what is applied is remembered once all of it is. -/
namespace Nightshade.Configd.Pipeline
open Foundation Schema Render

/-- Each renderer with what it made of a configuration. -/
abbrev Plan := List (Renderer × Artifacts)

/-- Render everything, up to the first renderer that can make nothing of the configuration. -/
def renderAll (candidate : ConfigTree) : List Renderer → Except CommitError Plan
  | [] => .ok []
  | renderer::rest =>
    match renderer.render candidate with
    | .error e => .error (.render renderer.name e.display)
    | .ok artifacts =>
      match renderAll candidate rest with
      | .error e => .error e
      | .ok plan => .ok ((renderer,artifacts)::plan)

def checkAll : Plan → Except CommitError Unit
  | [] => .ok ()
  | (renderer,artifacts)::rest =>
    match renderer.check artifacts with
    | .error e => .error (.check renderer.name e.display)
    | .ok () => checkAll rest

/-- Put back what was there, the renderers given with the latest first, and say what went wrong. -/
def restoreAll : List Renderer → HostProg (List String)
  | [] => return []
  | renderer::rest => do
    match ← renderer.previous with
    | none => restoreAll rest
    | some previous =>
      match ← renderer.apply previous with
      | .error e => do
        let problems ← restoreAll rest
        return (renderer.name ++ ": " ++ e.display)::problems
      | .ok () => restoreAll rest

def restore (applied : List Renderer) : HostProg (Except String Unit) := do
  let problems ← restoreAll applied
  return if problems.isEmpty then .ok () else .error ("; ".intercalate problems)

/-- Apply and verify, one renderer after another; those already applied come with the latest
first. -/
def applyAll (applied : List Renderer) : Plan → HostProg (Except CommitError Unit)
  | [] => return .ok ()
  | (renderer,artifacts)::rest => do
    let outcome ← (do
      match ← renderer.apply artifacts with
      | .error e => return .error e
      | .ok () => renderer.verify artifacts)
    match outcome with
    | .ok () => applyAll (renderer::applied) rest
    | .error source =>
      match ← restore (renderer::applied) with
      | .ok () => return .error (.applied renderer.name source)
      | .error problems => return .error (.unrecovered renderer.name source problems)

/-- Record everything as the state to go back to. Not being able to is only logged. -/
def rememberAll : Plan → HostProg Unit
  | [] => return ()
  | (renderer,artifacts)::rest => do
    let _ ← renderer.remember artifacts
    rememberAll rest

def apply (renderers : List Renderer) (candidate : ConfigTree) :
    HostProg (Except CommitError Unit) := do
  match renderAll candidate renderers with
  | .error e => return .error e
  | .ok plan =>
    match checkAll plan with
    | .error e => return .error e
    | .ok () =>
      match ← applyAll [] plan with
      | .error e => return .error e
      | .ok () =>
        rememberAll plan
        return .ok ()

end Nightshade.Configd.Pipeline
