import Mathlib
import Nightshade.Cli.Repl

/-! `ns`: one command, a file of commands and then a commit, or a prompt. The prompt comes back until
it is left, so it is run for some number of turns. -/
namespace Nightshade.Cli
open Foundation Schema Configd

def USAGE : String :=
  "usage: ns [options]\n\n" ++
  "  -c COMMAND     run one command and exit\n" ++
  "  -f FILE        run the commands in FILE, then commit\n" ++
  "  --json         render output as JSON\n" ++
  "  --version      print the version and exit\n" ++
  "  -h, --help     this\n\n" ++
  "With no options, ns is an interactive session. It is also a login shell:\n" ++
  "members of nightshade-admin land in operational mode.\n"

/-- `Path::file_name`: the last part of a path, unless it leads up. -/
def fileName (path : String) : Option String :=
  match (((path.toList.splitOn '/').filter (fun part => part ≠ [] ∧ part ≠ ['.'])).getLast?) with
  | none => none
  | some part => if part = ['.','.'] then none else some (String.ofList part)

def argv0IsLoginShell (argv0 : String) : Bool :=
  argv0.toList.head? = some '-' || (fileName argv0).any (fun name => name.toList.head? = some '-')

/-- Whether the program was started as a login shell. -/
def isLoginShell (argv : List String) : Bool := argv.head?.any argv0IsLoginShell

/-- What the options ask for. -/
structure Arguments where
  command : Option String
  file : Option String
  json : Bool

def bootFailurePath : String := "/run/nightshade/boot-failed"

section
variable {I : Type}

def usageError (message : String) : Play I Outcome := do
  eprint ("ns: " ++ message ++ "\n\n" ++ USAGE ++ "\n")
  return .commandError

/-- The options, or what the program ends with on account of them. -/
def arguments : List String → Arguments → Play I (Except Outcome Arguments)
  | [], given => return .ok given
  | argument::rest, given =>
    if argument = "-c" then
      match rest with
      | value::rest => arguments rest {given with command := some value}
      | [] => do
        let outcome ← usageError "-c needs a command"
        return .error outcome
    else if argument = "-f" then
      match rest with
      | value::rest => arguments rest {given with file := some value}
      | [] => do
        let outcome ← usageError "-f needs a file"
        return .error outcome
    else if argument = "--json" then arguments rest {given with json := true}
    else if argument = "--version" then do
      print ("Nightshade " ++ VERSION ++ "\n")
      return .error .ok
    else if argument = "-h" ∨ argument = "--help" then do
      print USAGE
      return .error .ok
    else do
      let outcome ← usageError ("`" ++ argument ++ "` is not an option")
      return .error outcome

/-- What to do when the session cannot be started at all. A login shell that ended here would put the operator back
before the login, so it becomes another shell. -/
def noSession (loginShell : Bool) (message : String) : Play I Outcome :=
  if loginShell then do
    eprint ("\n" ++ message ++ "\n\n" ++
      "Nightshade's configuration system is not answering, so there is no\n" ++
      "operational mode to put you in. Dropping to a shell instead, because\n" ++
      "the alternative is a console you cannot get past.\n\n" ++
      "  systemctl status nightshade-configd.service\n" ++
      "  journalctl -u nightshade-configd.service -b\n" ++
      "\nFix the daemon and log in again for a normal session.\n\n")
    match ← Shell.run with
    | .ok () => return .commandError
    | .error e =>
      eprint ("ns: the fallback shell could not be started either: " ++ e ++ "\n")
      return .commandError
  else do
    eprint (message ++ "\n")
    return .commandError

variable (t : Terminal I)

/-- `ns -c "show interfaces"`. -/
def oneShot (cli : Cli) (command : String) (json : Bool) : Play I (Outcome × Cli) := do
  let cli ← cli.refresh
  let line := if json ∧ ¬"| display".toList <:+: command.toList then command ++ " | display json" else command
  cli.run t line

/-- A line of a file that is run: what is on it, without the blanks around it. -/
def batchLine (line : List Char) : Option String :=
  let line := Lexer.trim isWhitespace line
  if line = [] ∨ line.head? = some '#' then none else some (String.ofList line)

/-- The lines of a file, up to the first that fails; the candidate is then thrown away. -/
def batchLines (file : String) : ℕ → Cli → List (List Char) → Play I (Except Outcome Unit × Cli)
  | _, cli, [] => return (.ok (),cli)
  | number, cli, line::lines =>
    match batchLine line with
    | none => batchLines file (number+1) cli lines
    | some line => do
      let cli ← cli.refresh
      let r ← cli.run t line
      if r.1 = .ok then batchLines file (number+1) r.2 lines
      else
        eprint ("ns: " ++ file ++ ":" ++ toString (number+1) ++ ": `" ++ line ++
          "` failed; nothing has been committed\n")
        let left ← r.2.run t "exit discard"
        return (.error r.1,left.2)

/-- The commit behind the last line. -/
def batchCommit (cli : Cli) : Play I (Outcome × Cli) := do
  let cli ← cli.refresh
  let r ← cli.run t "commit"
  if r.1 = .ok then
    let left ← r.2.run t "exit"
    return (.ok,left.2)
  else
    let left ← r.2.run t "exit discard"
    return (r.1,left.2)

/-- `ns -f batch-file`: the whole file, then a commit. -/
def batch (cli : Cli) (file : String) : Play I (Outcome × Cli) := do
  match ← readFile file with
  | .error e =>
    eprint ("ns: " ++ file ++ ": " ++ e ++ "\n")
    return (.commandError,cli)
  | .ok text =>
    let cli ← cli.refresh
    let opened ← cli.run t "configure"
    if opened.1 = .ok then
      let r ← batchLines t file 0 opened.2 (Lexer.lines text.toList)
      match r.1 with
      | .error outcome => return (outcome,r.2)
      | .ok () => batchCommit t r.2
    else return (.commandError,opened.2)

/-- Say so, before the first prompt, if the box came up on defaults. -/
def warnIfBootFailed : Play I Unit := do
  match ← readFile bootFailurePath with
  | .error _ => return ()
  | .ok reason =>
    eprint ("WARNING: this system started with its DEFAULT configuration.\n" ++ trimEnd reason ++
      "\n\nThe saved configuration is still in " ++ configBoot ++ ". Fix it and `load`,\n" ++
      "or configure the system and `commit`.\n\n")

/-- Some turns of the prompt. Nothing comes of them when it is still there at the end. -/
def prompting : ℕ → Cli → Play I (Option Outcome × Cli)
  | 0, cli => return (none,cli)
  | turns+1, cli => do
    let cli ← cli.refresh
    match ← readLine cli.prompt with
    | .line text | .hostCommand text =>
      let r ← cli.run t text
      if r.1 = .leave then return (some .ok,r.2) else prompting turns r.2
    | .ctrlC | .other => prompting turns cli
    | .ctrlD =>
      -- In configuration mode this goes through `exit`, so it cannot silently discard work.
      match cli.mode with
      | .configuration =>
        let r ← cli.run t "exit"
        prompting turns r.2
      | .operational => return (some .ok,cli)
    | .broken e =>
      eprint ("ns: " ++ e ++ "\n")
      return (some .commandError,cli)

def interactive (turns : ℕ) (cli : Cli) : Play I (Option Outcome × Cli) := do
  print ("Nightshade " ++ VERSION ++ "\n\n")
  warnIfBootFailed
  prompting t turns cli

/-- A session at the prompt, as a login shell or not. -/
def promptSession (loginShell : Bool) (turns : ℕ) (cli : Cli) : Play I (Option Outcome) := do
  let r ← interactive t turns cli
  match r.1 with
  | none => return none
  | some outcome =>
    if loginShell ∧ outcome ≠ .ok then
      let outcome ← noSession loginShell "the operational session ended unexpectedly"
      return some outcome
    else return some outcome

/-- The program once it knows what it is to do. -/
def start (argv : List String) (user : String) (turns : ℕ) (given : Arguments) : Play I (Option Outcome) := do
  match ← Client.connect with
  | .error e =>
    let outcome ← noSession (isLoginShell argv) e
    return some outcome
  | .ok () =>
    match given.command, given.file with
    | some _, some _ =>
      let outcome ← usageError "-c and -f cannot both be given"
      return some outcome
    | some command, none =>
      let r ← oneShot t (.new user) command given.json
      return some r.1
    | none, some file =>
      let r ← batch t (.new user) file
      return some r.1
    | none, none => promptSession t (isLoginShell argv) turns (.new user)

/-- The program, with its arguments and the name it is started under. -/
def main (argv : List String) (user : String) (turns : ℕ) : Play I (Option Outcome) := do
  match ← arguments argv.tail ⟨none,none,false⟩ with
  | .error outcome => return some outcome
  | .ok given => start t argv user turns given

end
end Nightshade.Cli
