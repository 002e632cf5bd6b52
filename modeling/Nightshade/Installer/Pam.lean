import Mathlib
import Nightshade.Foundation.Walk
import Nightshade.Installer.Seed
import Nightshade.Schema.Words

/-! The check that an installed system can be logged into: every file and every module that its console login stack
asks for has to be there. Beside the installer's reading of the rules stands the one that PAM gives them. -/
namespace Nightshade.Installer
open Foundation Schema

/-- Directories a bare PAM module name is resolved against, target-relative. -/
def PAM_MODULE_DIRS : List String :=
  ["/lib/x86_64-linux-gnu/security","/usr/lib/x86_64-linux-gnu/security","/lib/security","/usr/lib/security"]

/-- The names that a path goes through. -/
def pathNames (path : List Char) : List String :=
  ((path.splitOn '/').map String.ofList).filter (fun name => name ≠ "" ∧ name ≠ ".")

def TARGET : String := "/mnt/nightshade"

/-- A path behind a directory; a path from the root stands for itself. -/
def join (dir : List String) (path : List Char) : List String :=
  if path.head? = some '/' then pathNames path else dir ++ pathNames path

/-- Where a module may be: an absolute path in a rule is used as given, below the target. -/
def places (module : String) : List (List String) :=
  let root := pathNames TARGET.toList
  match module.toList with
  | '/'::path => [join root path]
  | name => PAM_MODULE_DIRS.map (fun d => join (join root (d.toList.dropWhile (· = '/'))) name)

def pamModuleExists (present : List String → Bool) (module : String) : Bool := (places module).any present

/-! ### The rules as the installer reads them -/

/-- The file an `@include` line pulls in. -/
def pamInclude (line : List Char) : Option String :=
  let line := Lexer.trim isWhitespace line
  if "@include".toList <+: line then
    let name := Lexer.trim isWhitespace (line.drop "@include".toList.length)
    if name = [] then none else some (String.ofList name)
  else none

/-- One rule: its module, and whether a missing module would refuse the login. -/
structure PamRule where
  module : String
  blocksLogin : Bool
  deriving Repr, DecidableEq

def contains (text needle : String) : Bool := decide (needle.toList <:+: text.toList)

/-- Whether a missing module would refuse the login, by the words before it. -/
def blocksLogin (kind control : String) : Bool :=
  kind.toList.head? ≠ some '-' &&
    !contains control "module_unknown=ignore" &&
    (contains control "required" || contains control "requisite" ||
      contains control "default=die" || contains control "default=bad")

/-- Parse `type control module args...`: the module is the first word that ends in `.so`, and the control is what
stands before it. -/
def pamRule (line : List Char) : Option PamRule :=
  match splitWhitespace (String.ofList (line.takeWhile (· ≠ '#'))) with
  | [] => none
  | kind::tokens =>
    if ".so".toList <:+ kind.toList then none
    else
      let before := tokens.takeWhile (fun t => ¬ ".so".toList <:+ t.toList)
      tokens[before.length]?.map (fun module =>
        ⟨module,blocksLogin kind (toAsciiLowercase (" ".intercalate before))⟩)

/-- What a line asks for: a file to go through, or a module without which there is no login. -/
def pamLine (line : List Char) : Option (String ⊕ String) :=
  match pamInclude line with
  | some included => some (.inl included)
  | none =>
    match pamRule line with
    | some rule => if rule.blocksLogin then some (.inr rule.module) else none
    | none => none

/-- What reading gives for each name below the target's `pam.d`. However many names there are for them, the texts are
finitely many. -/
structure PamDirectory where
  file : String → Option String
  texts : List String
  complete : ∀ name text, file name = some text → text ∈ texts

/-- What the lines of a file ask for. -/
def asked (reading : List Char → Option (String ⊕ String)) (text : String) : List (String ⊕ String) :=
  (Lexer.lines text.toList).filterMap reading

def readPam (reading : List Char → Option (String ⊕ String)) (pam : PamDirectory) (name : String) :
    Option (List (String ⊕ String)) :=
  (pam.file name).map (asked reading)

/-- What the console login stack starts from. -/
def entries : List String := ["login","su","sudo"]

/-- Every file and every PAM module that the console login stack names must be there: what is told when they are, and
the error when not. -/
def verifyPamStack (depth : ℕ) (pam : PamDirectory) (present : List String → Bool) : Option (Except String String) :=
  (exploreAll (readPam pamLine pam) (pamModuleExists present) depth entries).map (fun found =>
    if found.absent = [] ∧ found.unmet = [] then .ok ("PAM stack verified (" ++ toString found.seen.card ++ " files)")
    else .error ("the target's PAM configuration is incomplete, so the installed system would reject every login " ++
      "with \"Login incorrect\" no matter what password was typed." ++
      (if found.absent = [] then "" else
        "\n  missing /etc/pam.d files: " ++ ", ".intercalate found.absent) ++
      (if found.unmet = [] then "" else
        "\n  missing modules: " ++
          ", ".intercalate (found.unmet.map (fun asking => asking.1 ++ " (" ++ asking.2 ++ ")")))))

example : pamRule "auth [success=ok user_unknown=bad default=die] pam_securetty.so".toList =
    some ⟨"pam_securetty.so",true⟩ := by decide +kernel
example : pamRule "session [module_unknown=ignore default=die] pam_selinux.so".toList =
    some ⟨"pam_selinux.so",false⟩ := by decide +kernel

/-! ### The rules as PAM reads them -/

/-- A word, and what stands behind it. -/
def word (text : List Char) : List Char × List Char := (text.dropWhile isWhitespace).span (!isWhitespace ·)

/-- The control of a rule: one word, or a list in brackets of what to do for which outcome. -/
inductive PamControl where
  | keyword (name : String)
  | actions (list : List (String × String))
  deriving Repr, DecidableEq

/-- The settings of a list in brackets: a word, an equals sign and a word, with or without blanks between them. -/
def settings (list : List Char) : List (String × String) :=
  let parts := (list.splitOn '=').map (fun part => splitWhitespace (String.ofList part))
  (parts.zip parts.tail).filterMap (fun part =>
    match part.1.getLast?, part.2.head? with
    | some outcome,some action => some (outcome,action)
    | _,_ => none)

/-- A control, with its letters in lower case, and what stands behind it. -/
def control (text : List Char) : PamControl × List Char :=
  match text.dropWhile isWhitespace with
  | '['::list =>
    let (list,rest) := list.span (· ≠ ']')
    (.actions (settings (list.map Char.toLower)),rest.drop 1)
  | text =>
    let (name,rest) := word text
    (.keyword (String.ofList (name.map Char.toLower)),rest)

/-- What happens when there is no such module: the last that is said of it, or the first that is said of all else. -/
def moduleUnknown (list : List (String × String)) : Option String :=
  (list.reverse.lookup "module_unknown").or (list.lookup "default")

/-- Whether a rule that may not lack its module refuses the login without it. -/
def PamControl.refuses : PamControl → Bool
  | .keyword name => name == "required" || name == "requisite"
  | .actions list => moduleUnknown list == some "die" || moduleUnknown list == some "bad"

def PamControl.includes : PamControl → Bool
  | .keyword name => name == "include" || name == "substack"
  | .actions _ => false

/-- What a line asks for by PAM's rules: `@include file`, or `type control module`. -/
def pamReading (line : List Char) : Option (String ⊕ String) :=
  let (kind,rest) := word (line.takeWhile (· ≠ '#'))
  if kind = "@include".toList then
    let file := (word rest).1
    if file = [] then none else some (.inl (String.ofList file))
  else
    let (control,rest) := control rest
    let module := (word rest).1
    if module = [] then none
    else if control.includes then some (.inl (String.ofList module))
    else if kind.head? ≠ some '-' ∧ control.refuses then some (.inr (String.ofList module))
    else none

example : pamReading "auth [success=1 default = die] pam_unix.so".toList = some (.inr "pam_unix.so") := by decide +kernel
example : pamReading "auth include common-auth # as ever".toList = some (.inl "common-auth") := by decide +kernel

/-! ### What a reading asks for in all -/

section Reading
variable (reading : List Char → Option (String ⊕ String)) (pam : PamDirectory)

/-- A file that is gone through when one starts from the console login stack. -/
def Entered (name : String) : Prop := Reached (readPam reading pam) entries name

def LacksFile : Prop := ∃ name, Entered reading pam name ∧ pam.file name = none

/-- A module without which there is no login. -/
def Requires (module : String) : Prop :=
  ∃ name text, Entered reading pam name ∧ pam.file name = some text ∧ .inr module ∈ asked reading text

/-- Nothing is missing that the stack asks for. -/
structure Passes (present : List String → Bool) : Prop where
  files : ¬LacksFile reading pam
  modules : ∀ module, Requires reading pam module → pamModuleExists present module = true

/-- A module of another reading that is looked for in no other place, for each that this one requires. -/
def Covered (other : List Char → Option (String ⊕ String)) : Prop :=
  ∀ module, Requires reading pam module → ∃ m, Requires other pam m ∧ places m ⊆ places module

end Reading

variable {reading other : List Char → Option (String ⊕ String)} {pam : PamDirectory} {present : List String → Bool}
  {module name : String} {depth : ℕ}

theorem pamModuleExists_mono {m : String} (hplaces : places m ⊆ places module) (h : pamModuleExists present m = true) :
    pamModuleExists present module = true := by
  obtain ⟨place,hplace,hpresent⟩ := List.any_eq_true.mp h
  exact List.any_eq_true.mpr ⟨place,hplaces hplace,hpresent⟩

theorem Covered.modules (h : Covered reading pam other) (hother : Passes other pam present)
    (hrequires : Requires reading pam module) : pamModuleExists present module = true := by
  obtain ⟨m,hm,hplaces⟩ := h module hrequires
  exact pamModuleExists_mono hplaces (hother.modules m hm)

/-- By the installer's reading and by PAM's, either a file is missing or none is, and when none is, each module that
one of them requires is looked for wherever some module of the other is. -/
structure ReadAlike (pam : PamDirectory) : Prop where
  files : LacksFile pamLine pam ↔ LacksFile pamReading pam
  required : ¬LacksFile pamReading pam → Covered pamLine pam pamReading
  sufficient : ¬LacksFile pamReading pam → Covered pamReading pam pamLine

/-- Where every line is read alike, so is the whole. -/
theorem readAlike_of_lines (h : ∀ text ∈ pam.texts, ∀ line ∈ Lexer.lines text.toList, pamLine line = pamReading line) :
    ReadAlike pam := by
  have hasked : ∀ text ∈ pam.texts, asked pamLine text = asked pamReading text :=
    fun text htext => List.filterMap_congr (h text htext)
  have hread : readPam pamLine pam = readPam pamReading pam := by
    funext name
    cases htext : pam.file name with
    | none =>
      rw [readPam,readPam,htext]
      rfl
    | some text =>
      rw [readPam,readPam,htext]
      exact congrArg some (hasked text (pam.complete name text htext))
  have hentered : Entered pamLine pam = Entered pamReading pam := by
    funext name
    rw [Entered,Entered,hread]
  have hrequires : ∀ module, Requires pamLine pam module ↔ Requires pamReading pam module := by
    intro module
    refine exists_congr (fun name => exists_congr (fun text => ?_))
    rw [hentered]
    refine and_congr_right (fun _ => and_congr_right (fun htext => ?_))
    rw [hasked text (pam.complete name text htext)]
  refine ⟨by rw [LacksFile,LacksFile,hentered],fun _ module hmodule => ?_,fun _ module hmodule => ?_⟩
  · exact ⟨module,(hrequires module).mp hmodule,List.Subset.refl _⟩
  · exact ⟨module,(hrequires module).mpr hmodule,List.Subset.refl _⟩

end Nightshade.Installer
