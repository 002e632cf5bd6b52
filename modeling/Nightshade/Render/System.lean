import Mathlib
import Nightshade.Schema.Lex
import Nightshade.Render.Host

/-! Host name, resolvers, time zone. -/
namespace Nightshade.Render.System
open Foundation Schema

def RESOLV_HEADER : String :=
  "# Managed by Nightshade. Do not edit.\n" ++
  "#\n" ++
  "# Generated from `set system name-server` in /etc/nightshade/config.boot.\n" ++
  "# Changes made here are lost on the next commit.\n"

/-- What the one line of `/etc/hosts` ends with that is maintained here. -/
def HOSTS_MARKER : String := "# nightshade hostname"

def resolvConf : String := "/etc/resolv.conf"

def hosts : String := "/etc/hosts"

def value (config : ConfigTree) (path : Path) : Option String := (config.get path).bind Node.value

/-- The resolvers, and one `search` line before them. -/
def resolv (domain : Option String) (servers : List String) : String :=
  RESOLV_HEADER ++
  (match domain with | some domain => "search " ++ domain ++ "\n" | none => "") ++
  String.join (servers.map (fun server => "nameserver " ++ server ++ "\n"))

def render (config : ConfigTree) : Except RenderError Artifacts :=
  let domain := value config ["system","domain-name"]
  let servers := (config.valuesAt ["system","name-server"]).getD []
  .ok
    { managed := []
      files := SortedMap.empty.insert resolvConf (resolv domain servers)
      actions :=
        (value config ["system","host-name"]).toList.map (fun name => .setHostName name domain) ++
        (value config ["system","time-zone"]).toList.map .setTimeZone }

/-- What an action settles, and may be asked for once. -/
def settles : Action → Option String
  | .setHostName _ _ => some "host-name"
  | .setTimeZone _ => some "time-zone"
  | _ => none

def checkActions (seen : List String) : List Action → Except RenderError Unit
  | [] => .ok ()
  | action::rest =>
    match settles action with
    | none => checkActions seen rest
    | some key =>
      if key ∈ seen then .error ⟨"system",key ++ " was rendered more than once"⟩
      else checkActions (key::seen) rest

def check (artifacts : Artifacts) : Except RenderError Unit := checkActions [] artifacts.actions

/-- The text of `/etc/hosts` with exactly one marked line, for this name. -/
def hostsText (existing name : String) (domain : Option String) : String :=
  let kept := (Lexer.lines existing.toList).filter (fun line =>
    !HOSTS_MARKER.toList.isSuffixOf ((line.reverse.dropWhile isWhitespace).reverse))
  let names :=
    match domain with
    | some domain => name ++ "." ++ domain ++ "\t" ++ name
    | none => name
  "\n".intercalate (kept.map String.ofList ++ ["127.0.1.1\t" ++ names ++ "\t" ++ HOSTS_MARKER]) ++ "\n"

def updateHosts (name : String) (domain : Option String) : HostProg (Except ApplyError Unit) := do
  match ← Host.read hosts with
  | .error e => return .error (.host e)
  | .ok existing => orHost (Host.write hosts (hostsText (existing.getD "") name domain))

def applyAction (action : Action) : HostProg (Except ApplyError Unit) := do
  match action with
  | .setHostName name domain =>
    match ← updateHosts name domain with
    | .error e => return .error e
    | .ok () => orHost (Host.run action.argv)
  | _ => orHost (Host.run action.argv)

def apply (artifacts : Artifacts) : HostProg (Except ApplyError Unit) := do
  match ← writeFiles artifacts.files.entries with
  | .error e => return .error e
  | .ok () => forEach applyAction artifacts.actions

/-- A step on the machine that records no artifacts. -/
theorem applyAction_unsaved (action : Action) :
    (applyAction action).Only (fun op => ∀ name artifacts, op ≠ .save name artifacts) := by
  have hrun : (orHost (Host.run action.argv)).Only
      (fun op => ∀ name artifacts, op ≠ .save name artifacts) :=
    only_orHost (Prog.only_call nofun)
  cases action with
  | setHostName name domain =>
    refine ⟨nofun,fun r => ?_⟩
    cases r with
    | error e => trivial
    | ok existing =>
      apply Prog.Only.bind
      · exact only_orHost (Prog.only_call nofun)
      · intro r
        cases r with
        | error e => trivial
        | ok _ => exact hrun
  | _ => exact hrun

theorem apply_unsaved (artifacts : Artifacts) :
    (apply artifacts).Only (fun op => ∀ name artifacts, op ≠ .save name artifacts) := by
  apply (writeFiles_unsaved _).bind
  intro r
  cases r with
  | error e => trivial
  | ok _ => exact only_forEach applyAction_unsaved artifacts.actions

end System

/-- The renderer of the system settings. -/
def SystemRenderer : Renderer where
  name := "system"
  render := System.render
  check := System.check
  apply := System.apply
  verify := verifyFiles
  apply_unsaved := System.apply_unsaved
  verify_unsaved := verifyFiles_unsaved

end Nightshade.Render
