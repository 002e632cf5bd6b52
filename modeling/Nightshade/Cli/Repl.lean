import Mathlib
import Nightshade.Foundation.Effects
import Nightshade.Schema.SetLine
import Nightshade.Configd.Served
import Nightshade.Cli.Output
import Nightshade.Cli.Prompt
import Nightshade.Cli.Complete

/-! The two modes, and what a typed line does in each of them. A line may ask the daemon, run one of
three programs, and print; nothing else that it does can be seen from outside. -/
namespace Nightshade.Cli
open Foundation Schema Configd

/-- What the prompt hands to whoever types. -/
inductive Signal where
  | line (text : String)
  /-- The line was given up. -/
  | ctrlC
  | ctrlD
  | hostCommand (text : String)
  /-- Something that a later editor may come up with. -/
  | other
  /-- The terminal cannot be driven. -/
  | broken (error : String)
  deriving DecidableEq

/-- One thing that the program does to what is outside of it. -/
inductive Deed where
  | connect
  /-- A request over the socket, and the answer to it. -/
  | call (ask : Ask)
  /-- bash, as the operator. -/
  | shell
  /-- A program, by its arguments. -/
  | execute (argv : List String)
  | print (text : String)
  | eprint (text : String)
  | readFile (path : String)
  /-- The interfaces that the kernel has. -/
  | ports
  | readLine (prompt : String)
  | panic (message : String)
  deriving DecidableEq

/-- What comes of it; nothing comes of a panic. -/
abbrev Deed.Answer (I : Type) : Deed → Type
  | .connect => Except String Unit
  | .call _ => Except String (Reply I)
  | .shell => Except String Unit
  | .execute _ => Except String Bool
  | .print _ | .eprint _ => Unit
  | .readFile _ => Except String String
  | .ports => List String
  | .readLine _ => Signal
  | .panic _ => Empty

abbrev Play (I : Type) := Prog Deed (Deed.Answer I)

section Deeds
variable {I : Type}

def Client.connect : Play I (Except String Unit) := Prog.call Deed.connect
def Client.call (ask : Ask) : Play I (Except String (Reply I)) := Prog.call (Deed.call ask)
def Shell.run : Play I (Except String Unit) := Prog.call Deed.shell
/-- Whether the program could be run, and whether it ended well. -/
def execute (argv : List String) : Play I (Except String Bool) := Prog.call (Deed.execute argv)
def print (text : String) : Play I Unit := Prog.call (Deed.print text)
def eprint (text : String) : Play I Unit := Prog.call (Deed.eprint text)
def readFile (path : String) : Play I (Except String String) := Prog.call (Deed.readFile path)
def systemInterfaces : Play I (List String) := Prog.call Deed.ports
def readLine (prompt : String) : Play I Signal := Prog.call (Deed.readLine prompt)
def panic {α : Type} (message : String) : Play I α := .perform (Deed.panic message) Empty.elim

end Deeds

/-- What a command did, and what the program exits with because of it. -/
inductive Outcome where
  | ok
  /-- A command that does not exist, or could not be run. -/
  | commandError
  /-- A configuration that was refused. -/
  | configError
  /-- Leave the session. -/
  | leave
  deriving DecidableEq

def Outcome.code : Outcome → ℕ
  | ok | leave => 0
  | commandError => 1
  | configError => 2

def Outcome.of : FailureKind → Outcome
  | .validation | .conflict => configError
  | .request | .internal => commandError

inductive Mode where
  | operational
  | configuration
  deriving DecidableEq

def OPERATIONAL_COMMANDS : List String :=
  ["clear","configure","exit","help","logout","ping","quit","shell","show","traceroute"]

def CONFIGURATION_COMMANDS : List String :=
  ["commit","compare","confirm","delete","discard","edit","exit","help","load","rollback","save","set","show","top",
    "up"]

/-- What the commands take from the rest of the program and from other libraries. -/
structure Terminal (I : Type) where
  schema : Schema
  colour : Bool
  /-- What is wrong with a regular expression, and the lines that a right one matches. -/
  regexError : String → Option String
  isMatch : String → String → Bool
  pretty : Json → String
  report : Ifstate.View → I → String
  reportJson : Ifstate.View → I → Json
  /-- The list of completions, with the texts that the schema has for them. -/
  helpLines : List NodeInfo → String
  /-- An answer, as it is displayed for debugging. -/
  debug : Reply I → String

structure Cli where
  mode : Mode
  session : Option SessionId
  /-- What `edit` put in front of everything typed. -/
  prefixPath : Path
  user : String
  hostname : String
  context : Context

def Cli.new (user : String) : Cli where
  mode := .operational
  session := none
  prefixPath := Path.root
  user := user
  hostname := "nightshade"
  context := ⟨.new,[],false,Path.root,[]⟩

def Cli.prompt (cli : Cli) : String :=
  let marker := match cli.mode with
    | .operational => ">"
    | .configuration => "#"
  if cli.prefixPath.isEmpty then cli.user ++ "@" ++ cli.hostname ++ marker ++ " "
  else "[edit " ++ cli.prefixPath.display ++ "]\n" ++ cli.user ++ "@" ++ cli.hostname ++ marker ++ " "

/-- `Response::Config`, and nothing else. -/
def Reply.tree {I : Type} : Except String (Reply I) → Option ConfigTree
  | .ok (.config tree) => some tree
  | _ => none

section
variable {I : Type}

/-- The candidate of the session, as far as it can be had. -/
def Cli.candidate (cli : Cli) : Play I ConfigTree :=
  match cli.session with
  | some session => do
    let shown ← Client.call (.showCandidate session Path.root)
    return (Reply.tree shown).getD .new
  | none => return .new

/-- The name of the box that an answer of the daemon tells. -/
def hostName (shown : Except String (Reply I)) : Option String :=
  ((Reply.tree shown).bind (fun tree => tree.get ["system","host-name"])).bind Node.value

/-- Bring the completion context and the prompt up to date. -/
def Cli.refresh (cli : Cli) : Play I Cli := do
  let shown ← Client.call (.showRunning Path.root)
  let candidate ← cli.candidate
  let ports ← systemInterfaces
  return {cli with
    hostname := (hostName shown).getD cli.hostname
    context :=
      { candidate := candidate
        systemInterfaces := ports
        operational := cli.mode = .operational
        prefixPath := cli.prefixPath
        commands := match cli.mode with
          | .operational => OPERATIONAL_COMMANDS
          | .configuration => CONFIGURATION_COMMANDS }}

/-! ### Output -/

namespace Pipe

/-- Apply one modifier to a text. `display` is handled before rendering. -/
def applyOne (regexError : String → Option String) (isMatch : String → String → Bool) (text : String) :
    Modifier → String
  | .match pattern =>
    match regexError pattern with
    | none => String.join (((Lexer.lines text.toList).filter (fun line => isMatch pattern (String.ofList line))).map
        (fun line => String.ofList line ++ "\n"))
    | some _ => text
  | .count =>
    toString ((Lexer.lines text.toList).filter (fun line => Lexer.trim isWhitespace line ≠ [])).length ++ "\n"
  | .noMore | .displayJson | .displaySecrets => text

def apply (regexError : String → Option String) (isMatch : String → String → Bool) (text : String)
    (modifiers : List Modifier) : String :=
  modifiers.foldl (applyOne regexError isMatch) text

end Pipe

/-- What a command comes to: something to show and its outcome, or a failure of the connection. -/
abbrev Done (I : Type) := Except String (Output (Ifstate.View × I) × Outcome)

variable (t : Terminal I)

/-- The text that is shown of an output. -/
def shownText (output : Output (Ifstate.View × I)) (modifiers : List Pipe.Modifier) : String :=
  let style : Style := ⟨t.schema,t.colour,modifiers.contains .displaySecrets⟩
  let text :=
    if modifiers.contains .displayJson then
      output.renderJson t.pretty (fun report => t.reportJson report.1 report.2) style
    else output.render (fun report => t.report report.1 report.2) style
  Pipe.apply t.regexError t.isMatch text modifiers

/-- Print it, if there is anything to print. -/
def emit (output : Output (Ifstate.View × I)) (modifiers : List Pipe.Modifier) : Play I Unit :=
  let text := shownText t output modifiers
  if text.isEmpty then return () else print text

/-- What `?` prints, for everything typed in front of it. -/
def Cli.help (cli : Cli) (asked : List Char) : String :=
  let split := words asked
  "possible completions:\n" ++ t.helpLines (candidates t.schema cli.context split.1 split.2)

def unknown (verb : String) (known : List String) : Output (Ifstate.View × I) × Outcome :=
  let text := "`" ++ verb ++ "` is not a command here.\n"
  let first := verb.toList.head?.getD ' '
  let close := known.filter (fun name => name.toList.head? = some first)
  (.text (if close.isEmpty then text else text ++ "did you mean: " ++ ", ".intercalate close ++ "\n"),.commandError)

/-- The daemon answered something that the command did not ask for. -/
def unexpected (reply : Reply I) : Output (Ifstate.View × I) × Outcome :=
  (.text ("the configuration daemon sent an unexpected reply: " ++ t.debug reply ++ "\n"),.commandError)

/-- A failure, told in the words of the daemon. -/
def told (kind : FailureKind) (message : String) : Output (Ifstate.View × I) × Outcome :=
  (.text (message ++ "\n"),.of kind)

/-! ### Operational mode -/

/-- An address or a host name, and nothing else. -/
def isDestination (text : String) : Bool :=
  ((ValueSpec.check ⟨.ipAddress,[],none⟩ text).isOk || (ValueSpec.check ⟨.hostname,[],none⟩ text).isOk)

def expectOk (ask : Ask) : Play I (Done I) := do
  match ← Client.call ask with
  | .error e => return .error e
  | .ok (.response .ok) => return .ok (.nothing,.ok)
  | .ok (.response (.failed kind message)) => return .ok (told kind message)
  | .ok other => return .ok (unexpected t other)

def expectConfig (ask : Ask) : Play I (Done I) := do
  match ← Client.call ask with
  | .error e => return .error e
  | .ok (.config tree) => return .ok (.config tree,.ok)
  | .ok (.response (.failed kind message)) => return .ok (told kind message)
  | .ok other => return .ok (unexpected t other)

def expectCommit (ask : Ask) : Play I (Done I) := do
  match ← Client.call ask with
  | .error e => return .error e
  | .ok (.response (.committed generation changes confirmWithin)) =>
    let text :=
      if changes.isEmpty then "no configuration changes to commit\n"
      else "committed " ++ toString changes.length ++ " changes as revision " ++ toString generation ++ "\n"
    let warning := match confirmWithin with
      | some seconds => "\nthis change will be ROLLED BACK in " ++ toString (seconds/60) ++ " minutes " ++
          toString (seconds%60) ++ " seconds unless you type `confirm`\n"
      | none => ""
    return .ok (.text (text ++ warning),.ok)
  | .ok (.response (.failed kind message)) => return .ok (told kind message)
  | .ok other => return .ok (unexpected t other)

def showInterfaces (tail : List String) : Play I (Done I) :=
  match Ifstate.parse tail with
  | .error e => return .ok (.text (e.message ++ "\n"),.commandError)
  | .ok query => do
    match ← Client.call (.opShow (.interfaces query)) with
    | .error e => return .error e
    | .ok (.interfaces snapshot) => return .ok (.interfaces (query.view,snapshot),.ok)
    | .ok (.response (.failed kind message)) => return .ok (told kind message)
    | .ok other => return .ok (unexpected t other)

def opShow (rest : List String) : Play I (Done I) := do
  if rest = ["version"] then
    match ← Client.call (.opShow .version) with
    | .error e => return .error e
    | .ok (.version version) => return .ok (.text ("Nightshade " ++ version ++ "\n"),.ok)
    | .ok other => return .ok (unexpected t other)
  else if rest = ["configuration"] ∨ rest = ["config"] ∨ rest = ["conf"] then
    expectConfig t (.showSaved Path.root)
  else if rest = ["system","commit-log"] then
    match ← Client.call (.request .commitLog) with
    | .error e => return .error e
    | .ok (.response (.revisions revisions)) => return .ok (.revisions revisions,.ok)
    | .ok other => return .ok (unexpected t other)
  else if rest.head? = some "interfaces" then showInterfaces t rest.tail
  else return .ok (.text "show version | interfaces | configuration | system commit-log\n",.commandError)

/-- The interfaces that `clear` is about, or what is wrong with the words behind it. -/
def clearNames : List String → Except String (List String)
  | ["counters"] => .ok []
  | ["counters",spec] =>
    match Ifstate.expand spec with
    | .ok names => .ok names
    | .error e => .error (e.message ++ "\n")
  | _ => .error "clear counters [<interface>]\n"

def clear (rest : List String) : Play I (Done I) :=
  match clearNames rest with
  | .error message => return .ok (.text message,.commandError)
  | .ok names => expectOk t (.opShow (.clearCounters names))

def shell : Play I (Done I) := do
  match ← Client.call (.shellSession true) with
  | .error e => return .error e
  | .ok (.response .ok) =>
    print "entering a shell; type 'operational' or exit to return\n"
    let outcome ← match ← Shell.run with
      | .ok () => pure Outcome.ok
      | .error e => do
        eprint (e ++ "\n")
        pure Outcome.commandError
    match ← Client.call (.shellSession false) with
    | .error e => return .error e
    | .ok _ => return .ok (.nothing,outcome)
  | .ok (.response (.failed kind message)) => return .ok (told kind message)
  | .ok other => return .ok (unexpected t other)

/-- `ping` and `traceroute`, with the destination checked first. -/
def traceOrPing (program : String) (rest : List String) : Play I (Done I) :=
  match rest with
  | [destination] =>
    if isDestination destination then do
      let flags := if program = "ping" then ["-c","5"] else []
      match ← execute (program::flags ++ [destination]) with
      | .ok true => return .ok (.nothing,.ok)
      | .ok false => return .ok (.nothing,.commandError)
      | .error e => return .ok (.text (program ++ " could not be run: " ++ e ++ "\n"),.commandError)
    else return .ok (.text (Value.debug destination ++ " is not an address or a host name\n"),.commandError)
  | _ => return .ok (.text (program ++ " <host>\n"),.commandError)

/-- Open a session and go into configuration mode. -/
def Cli.configure (cli : Cli) : Play I (Done I × Cli) := do
  match ← Client.call (.request .sessionOpen) with
  | .error e => return (.error e,cli)
  | .ok (.response (.session id)) =>
    return (.ok (.text "entering configuration mode\n",.ok),
      {cli with session := some id, mode := .configuration, prefixPath := Path.root})
  | .ok other => return (.ok (unexpected t other),cli)

/-- A command that leaves the modes as they are. -/
def Cli.unmoved (cli : Cli) (command : Play I (Done I)) : Play I (Done I × Cli) := do
  let done ← command
  return (done,cli)

def Cli.operational (cli : Cli) (verb : String) (rest : List String) : Play I (Done I × Cli) :=
  if verb = "show" ∨ verb = "sh" then cli.unmoved (opShow t rest)
  else if verb = "configure" ∨ verb = "config" ∨ verb = "conf" then cli.configure t
  else if verb = "clear" then cli.unmoved (clear t rest)
  else if verb = "shell" then cli.unmoved (shell t)
  else if verb = "ping" then cli.unmoved (traceOrPing "ping" rest)
  else if verb = "traceroute" then cli.unmoved (traceOrPing "traceroute" rest)
  else if verb = "exit" ∨ verb = "quit" ∨ verb = "logout" then return (.ok (.nothing,.leave),cli)
  else if verb = "help" then return (.ok (.text (cli.help t []),.ok),cli)
  else return (.ok (unknown verb OPERATIONAL_COMMANDS),cli)

/-! ### Configuration mode -/

/-- The candidate at a path, marked up against the running configuration. -/
def showConfig (session : SessionId) (at_ : Path) : Play I (Done I) := do
  match ← Client.call (.showCandidate session at_) with
  | .error e => return .error e
  | .ok (.config candidate) =>
    match ← Client.call (.showRunning at_) with
    | .error e => return .error e
    | .ok (.config running) => return .ok (.configDiff candidate running,.ok)
    | .ok other => return .ok (unexpected t other)
  | .ok other => return .ok (unexpected t other)

def compare (session : SessionId) : Play I (Done I) := do
  match ← Client.call (.request (.compare session)) with
  | .error e => return .error e
  | .ok (.response (.changes changes)) =>
    if changes.isEmpty then return .ok (.text "no changes between the candidate and running\n",.ok)
    else return .ok (.changes changes,.ok)
  | .ok other => return .ok (unexpected t other)

/-- The words behind `commit`, or how they are to be written. -/
def commitWords : List String → Option String → Option ℕ → Except String (Option String × Option ℕ)
  | [], comment, confirmMinutes => .ok (comment,confirmMinutes)
  | word::rest, comment, confirmMinutes =>
    if word = "confirm" then
      match rest with
      | minutes::rest =>
        match Value.parseNat (2^16) minutes.toList with
        | some minutes =>
          if 0 < minutes then commitWords rest comment (some minutes) else .error "commit confirm <minutes>\n"
        | none => .error "commit confirm <minutes>\n"
      | [] => .error "commit confirm <minutes>\n"
    else if word = "comment" then
      match rest with
      | text::rest => commitWords rest (some text) confirmMinutes
      | [] => .error "commit comment \"...\"\n"
    else
      .error ("commit [confirm <minutes>] [comment \"...\"]; `" ++ word ++ "` is not one of those\n")

def commit (session : SessionId) (rest : List String) : Play I (Done I) :=
  match commitWords rest none none with
  | .error message => return .ok (.text message,.commandError)
  | .ok (comment,confirmMinutes) => expectCommit t (.request (.commit session comment confirmMinutes))

def rollback (session : SessionId) : List String → Play I (Done I)
  | [revision] =>
    match Value.parseNat (2^64) revision.toList with
    | some revision => expectOk t (.request (.load session (.archive revision)))
    | none => return .ok (.text (Value.debug revision ++ " is not a revision number\n"),.commandError)
  | _ => return .ok (.text "rollback <revision>\n",.commandError)

/-- Close the session and go back to operational mode. -/
def Cli.close (cli : Cli) (session : SessionId) : Play I (Done I × Cli) := do
  match ← Client.call (.request (.sessionClose session)) with
  | .error e => return (.error e,cli)
  | .ok _ =>
    return (.ok (.text "leaving configuration mode\n",.ok),
      {cli with session := none, mode := .operational, prefixPath := Path.root})

/-- `exit` from configuration mode, refusing to lose work. -/
def Cli.leaveConfiguration (cli : Cli) (session : SessionId) (rest : List String) : Play I (Done I × Cli) :=
  if rest.head? = some "discard" then cli.close session
  else do
    match ← Client.call (.request (.compare session)) with
    | .error e => return (.error e,cli)
    | .ok (.response (.changes changes)) =>
      if changes.isEmpty then cli.close session
      else
        return (.ok (.text ("there are " ++ toString changes.length ++ " uncommitted changes.\n" ++
          "commit them, or `exit discard` to throw them away.\n"),.configError),cli)
    | .ok other => return (.ok (unexpected t other),cli)

def Cli.withPrefix (cli : Cli) (rest : List String) : Path := cli.prefixPath ++ rest

def Cli.edit (cli : Cli) (rest : List String) : Play I (Done I × Cli) :=
  let at_ := cli.withPrefix rest
  if (t.schema.resolve at_).isNone then
    return (.ok (.text ("`" ++ at_.display ++ "` is not a configuration path\n"),.configError),cli)
  else return (.ok (.nothing,.ok),{cli with prefixPath := at_})

/-- What is asked of the daemon by a line of `set` or `delete`. -/
def Cli.editing (cli : Cli) (session : SessionId) (verb : String) (rest : List String) : Request :=
  let split := t.schema.splitValue (cli.withPrefix rest)
  if verb = "set" then .set session split.1 split.2 else .delete session split.1 split.2

def Cli.configuration (cli : Cli) (verb : String) (rest : List String) : Play I (Done I × Cli) :=
  match cli.session with
  | none => panic "configuration mode has a session"
  | some session =>
    if verb = "set" ∨ verb = "delete" then cli.unmoved (expectOk t (.request (cli.editing t session verb rest)))
    else if verb = "show" ∨ verb = "sh" then cli.unmoved (showConfig t session (cli.withPrefix rest))
    else if verb = "compare" then cli.unmoved (compare t session)
    else if verb = "commit" then cli.unmoved (commit t session rest)
    else if verb = "confirm" then cli.unmoved (expectCommit t (.request (.confirm session)))
    else if verb = "discard" then cli.unmoved (expectOk t (.request (.discard session)))
    else if verb = "save" then cli.unmoved (expectOk t (.request .save))
    else if verb = "load" then cli.unmoved (expectOk t (.request (.load session .saved)))
    else if verb = "rollback" then cli.unmoved (rollback t session rest)
    else if verb = "edit" then cli.edit t rest
    else if verb = "up" then return (.ok (.nothing,.ok),{cli with prefixPath := cli.prefixPath.dropLast})
    else if verb = "top" then return (.ok (.nothing,.ok),{cli with prefixPath := Path.root})
    else if verb = "exit" then cli.leaveConfiguration t session rest
    else if verb = "help" then return (.ok (.text (cli.help t []),.ok),cli)
    else if verb = "shell" then
      return (.ok (.text ("shell is not available from configuration mode; " ++
        "`exit` to operational mode first\n"),.commandError),cli)
    else return (.ok (unknown verb CONFIGURATION_COMMANDS),cli)

/-! ### A typed line -/

/-- A verb and what follows it, in the mode that the session is in. -/
def Cli.command (cli : Cli) (verb : String) (rest : List String) : Play I (Done I × Cli) :=
  match cli.mode with
  | .operational => cli.operational t verb rest
  | .configuration => cli.configuration t verb rest

def Cli.dispatch (cli : Cli) (command : String) : Play I (Done I × Cli) :=
  match Path.parse command with
  | .error e => return (.ok (.text (e.message ++ "\n"),.commandError),cli)
  | .ok [] => return (.ok (.nothing,.ok),cli)
  | .ok (verb::rest) => cli.command t verb rest

/-- Print what a command produced, or what went wrong with the connection. -/
def conclude (modifiers : List Pipe.Modifier) (r : Done I × Cli) : Play I (Outcome × Cli) := do
  match r.1 with
  | .ok (output,outcome) =>
    emit t output modifiers
    return (outcome,r.2)
  | .error e =>
    eprint (e ++ "\n")
    return (.commandError,r.2)

/-- Run one typed line and print what it produced. -/
def Cli.run (cli : Cli) (line : String) : Play I (Outcome × Cli) :=
  let line := Lexer.trim isWhitespace line.toList
  if line.isEmpty then return (.ok,cli)
  else
    match question line with
    | some asked => do
      print (cli.help t asked)
      return (.ok,cli)
    | none =>
      match Pipe.split t.regexError line with
      | .error e => do
        eprint (e.message ++ "\n")
        return (.commandError,cli)
      | .ok (command,modifiers) => do
        let r ← cli.dispatch t command
        conclude t modifiers r

end
end Nightshade.Cli
