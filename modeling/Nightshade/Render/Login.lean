import Mathlib
import Nightshade.Render.Host

/-! Local accounts. No file is written: the tools are run that keep the accounts. -/
namespace Nightshade.Render.Login
open Foundation Schema

/-- Accounts that are left alone, whatever the configuration says. -/
def NEVER_MANAGED : List String :=
  ["root","daemon","bin","sys","sync","games","man","lp","mail","news","uucp","proxy","backup",
    "list","irc","nobody","systemd-network","systemd-resolve","messagebus","sshd"]

def users (config : ConfigTree) : List (String × Node) :=
  ((config.get ["system","login","user"]).bind Node.children).getD []

/-- The accounts that some artifacts say should exist. -/
def named (artifacts : Artifacts) : List String :=
  (artifacts.actions.filterMap (fun
    | .ensureAccount name _ => some name
    | _ => none)).foldl (fun names name => insertElem name names) []

def userActions (name : String) (node : Node) : List Action :=
  let child := fun (name : String) (node : Node) => node.children.bind (fun cs => cs.lookup name)
  let hash := ((child "authentication" node).bind (child "encrypted-password")).bind Node.value
  .ensureAccount name ((child "full-name" node).bind Node.value) ::
    hash.toList.map (.setPassword name)

def render (config : ConfigTree) : Except RenderError Artifacts :=
  .ok ⟨[],SortedMap.empty,(users config).flatMap (fun e => userActions e.1 e.2)⟩

/-- A password that somebody could log in with. -/
def usable : Action → Bool
  | .setPassword _ hash => hash ≠ "!" && hash ≠ "*"
  | _ => false

def check (artifacts : Artifacts) : Except RenderError Unit :=
  match (named artifacts).find? (fun name => name ∈ NEVER_MANAGED) with
  | some name => .error ⟨"login","`" ++ name ++ "` is a system account and is not configurable here"⟩
  | none =>
    if !(named artifacts).isEmpty && !artifacts.actions.any usable then
      .error ⟨"login","no configured account has a password, so nobody could log in; " ++
        "root is locked on this system and the console is the only way in"⟩
    else .ok ()

/-- Accounts the last apply wanted that this one no longer does. -/
def removals (previous : Option Artifacts) (next : Artifacts) : List Action :=
  (((previous.map named).getD []).filter (fun name => name ∉ named next)).map .removeAccount

/-- A password goes down a pipe and never into the arguments. -/
def applyAction (action : Action) : HostProg (Except ApplyError Unit) :=
  match action with
  | .setPassword name hash =>
    orHost (Host.runWithSecret action.argv (name ++ ":" ++ hash ++ "\n"))
  | _ => orHost (Host.run action.argv)

/-- Passwords are set before surplus accounts go, so that somebody can log in at any time. -/
def apply (artifacts : Artifacts) : HostProg (Except ApplyError Unit) := do
  match ← forEach applyAction artifacts.actions with
  | .error e => return .error e
  | .ok () =>
    let previous ← LastApplied.load "login"
    forEach (fun removal => orHost (Host.run removal.argv)) (removals previous artifacts)

theorem applyAction_unsaved (action : Action) :
    (applyAction action).Only (fun op => ∀ name artifacts, op ≠ .save name artifacts) := by
  cases action <;> exact only_orHost (Prog.only_call nofun)

theorem apply_unsaved (artifacts : Artifacts) :
    (apply artifacts).Only (fun op => ∀ name artifacts, op ≠ .save name artifacts) := by
  apply (only_forEach applyAction_unsaved artifacts.actions).bind
  intro r
  cases r with
  | error e => trivial
  | ok _ =>
    refine ⟨nofun,fun previous => ?_⟩
    exact only_forEach (fun _ => only_orHost (Prog.only_call nofun)) _

end Login

/-- The renderer of the local accounts. -/
def LoginRenderer : Renderer where
  name := "login"
  render := Login.render
  check := Login.check
  apply := Login.apply
  verify := fun _ => return .ok ()
  apply_unsaved := Login.apply_unsaved
  verify_unsaved := fun _ => trivial

end Nightshade.Render
