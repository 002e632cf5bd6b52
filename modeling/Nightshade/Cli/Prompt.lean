import Mathlib
import Nightshade.Schema.Typed

/-! What a typed line is taken for: a question, or a command and its modifiers. The bars that split
modifiers off are looked for by a scanner of their own, which has to agree with the tokeniser. -/
namespace Nightshade.Cli
open Schema

namespace Pipe

inductive Modifier where
  /-- Keep the lines that match a regular expression. -/
  | «match» (pattern : String)
  /-- Replace the output by the number of its lines. -/
  | count
  | noMore
  | displayJson
  | displaySecrets
  deriving DecidableEq

inductive PipeError where
  | unknown (word : String)
  | matchNeedsPattern
  | badPattern (pattern reason : String)
  | displayNeedsFormat
  | unknownDisplay (word : String)
  | empty
  deriving DecidableEq

def PipeError.message : PipeError → String
  | .unknown word => "`| " ++ word ++ "` is not a pipe modifier; try match, count, no-more or display"
  | .matchNeedsPattern => "`| match` needs something to match"
  | .badPattern pattern reason => "`| match " ++ pattern ++ "` is not a valid regular expression: " ++ reason
  | .displayNeedsFormat => "`| display` needs `json` or `secrets`"
  | .unknownDisplay word =>
    "`| display " ++ word ++ "` is not something that can be displayed; try json or secrets"
  | .empty => "a pipe with nothing after it"

/-- The scan of a line: the parts that are finished, the one it is in, and where in it. -/
structure Scan where
  parts : List (List Char)
  current : List Char
  quoted : Bool
  escaped : Bool

namespace Scan

def start : Scan := ⟨[],[],false,false⟩

def push (scan : Scan) (c : Char) : Scan := {scan with current := scan.current ++ [c]}

def step (scan : Scan) (c : Char) : Scan :=
  if scan.escaped then {scan.push c with escaped := false}
  else if c = '\\' then {scan.push c with escaped := true}
  else if c = '"' then {scan.push c with quoted := !scan.quoted}
  else if c = '|' ∧ scan.quoted = false then {scan with parts := scan.parts ++ [scan.current],current := []}
  else scan.push c

end Scan

/-- The parts of a line between the bars outside quotes. -/
def splitUnquoted (line : List Char) : List (List Char) :=
  let scan := line.foldl Scan.step Scan.start
  scan.parts ++ [scan.current]

/-- The stretches between white space. -/
def splitWhitespace (text : List Char) : List String :=
  ((text.splitOnP isWhitespace).filter (· ≠ [])).map String.ofList

/-- The last line of a reason, which is what is reported of it. -/
def lastLine (reason : String) : String :=
  String.ofList (Lexer.trim isWhitespace ((Lexer.lines reason.toList).getLast?.getD []))

/-- One modifier. What is wrong with a regular expression is told by the library that compiles them. -/
def parse (regexError : String → Option String) (text : List Char) : Except PipeError Modifier :=
  match splitWhitespace text with
  | [] => .error .empty
  | name::rest =>
    if name = "match" then
      if rest.isEmpty then .error .matchNeedsPattern
      else
        let pattern := " ".intercalate rest
        match regexError pattern with
        | some reason => .error (.badPattern pattern (lastLine reason))
        | none => .ok (.match pattern)
    else if name = "count" then .ok .count
    else if name = "no-more" then .ok .noMore
    else if name = "display" then
      match rest with
      | [] => .error .displayNeedsFormat
      | format::_ =>
        if format = "json" then .ok .displayJson
        else if format = "secrets" then .ok .displaySecrets
        else .error (.unknownDisplay format)
    else .error (.unknown name)

/-- A typed line as the command and its modifiers. -/
def split (regexError : String → Option String) (line : List Char) : Except PipeError (String × List Modifier) :=
  let parts := splitUnquoted line
  (parts.tail.mapM (fun part => parse regexError (Lexer.trim isWhitespace part))).map
    (fun modifiers => (String.ofList (Lexer.trim isWhitespace (parts.headD [])),modifiers))

end Pipe

/-- The text before a question mark that ends the line. -/
def question (line : List Char) : Option (List Char) :=
  if line.getLast? = some '?' then some line.dropLast else none

/-- What a typed line is taken for. -/
inductive Typed where
  | nothing
  | question (asked : String)
  | refused (message : String)
  | command (verb : String) (rest : List String) (modifiers : List Pipe.Modifier)
  deriving DecidableEq

/-- How one typed line is taken at the prompt, up to the verb that is run. -/
def typed (regexError : String → Option String) (line : String) : Typed :=
  let line := Lexer.trim isWhitespace line.toList
  if line = [] then .nothing
  else
    match question line with
    | some asked => .question (String.ofList asked)
    | none =>
      match Pipe.split regexError line with
      | .error e => .refused e.message
      | .ok (command,modifiers) =>
        match Path.parse command with
        | .error e => .refused e.message
        | .ok [] => .nothing
        | .ok (verb::rest) => .command verb rest modifiers

/-! ### The scanner passes over what is quoted -/

namespace Pipe

/-- A text that the scanner, outside quotes, passes over without a part ending in it. -/
def Passed (text : List Char) : Prop :=
  ∀ scan : Scan, scan.quoted = false → scan.escaped = false →
    text.foldl Scan.step scan = {scan with current := scan.current ++ text}

variable {s t : List Char} {c : Char} {scan : Scan}

theorem Passed.append (hs : Passed s) (ht : Passed t) : Passed (s ++ t) := by
  intro scan hquoted hescaped
  have hrest := ht {scan with current := scan.current ++ s} hquoted hescaped
  rw [List.foldl_append,hs scan hquoted hescaped,hrest,List.append_assoc]

/-- A plain character stands for itself, in quotes or not. -/
lemma step_plain (hescaped : scan.escaped = false) (hslash : c ≠ '\\') (hquote : c ≠ '"')
    (hbar : c ≠ '|' ∨ scan.quoted = true) : scan.step c = scan.push c := by
  have hno : ¬(c = '|' ∧ scan.quoted = false) := by
    intro h
    obtain hc | hq := hbar
    · exact hc h.1
    · rw [hq] at h
      cases h.2
  rw [Scan.step,hescaped,if_neg (by decide),if_neg hslash,if_neg hquote,if_neg hno]

lemma passed_plain (hslash : c ≠ '\\') (hquote : c ≠ '"') (hbar : c ≠ '|') : Passed [c] := by
  intro scan hquoted hescaped
  rw [List.foldl_cons,List.foldl_nil,step_plain hescaped hslash hquote (.inl hbar)]
  rfl

lemma passed_bare (h : ∀ c ∈ s, isBareChar c) : Passed s := by
  induction s with
  | nil => intro scan _ _; simp
  | cons c s ih =>
    have hc := h c List.mem_cons_self
    have hone : Passed [c] := passed_plain (Lexer.bare_ne hc (by decide)) (Lexer.bare_ne hc (by decide))
      (Lexer.bare_ne hc (by decide))
    exact hone.append (ih (fun d hd => h d (List.mem_cons_of_mem _ hd)))

/-- In quotes the scanner passes over a character as it is written there. -/
lemma passed_escaped (c : Char) (hquoted : scan.quoted = true) (hescaped : scan.escaped = false) :
    (escaped c).foldl Scan.step scan = {scan with current := scan.current ++ escaped c} := by
  obtain ⟨parts,current,quoted,esc⟩ := scan
  cases hquoted
  cases hescaped
  unfold escaped
  split_ifs with h1 h2 h3 h4 h5 h6
  · simp [Scan.step,Scan.push]
  · simp [Scan.step,Scan.push]
  · simp [Scan.step,Scan.push]
  · simp [Scan.step,Scan.push]
  · simp [Scan.step,Scan.push]
  · have hlt : c.toNat < 128 := by
      simp at h6
      omega
    have hdigit : ∀ n < 16, hexDigit n ≠ '\\' ∧ hexDigit n ≠ '"' ∧ hexDigit n ≠ '|' := by decide
    obtain ⟨hhi,hhi',hhi''⟩ := hdigit (c.toNat/16) (by omega)
    obtain ⟨hlo,hlo',hlo''⟩ := hdigit (c.toNat%16) (by omega)
    simp [Scan.step,Scan.push,hhi,hhi',hhi'',hlo,hlo',hlo'']
  · simp [Scan.step,Scan.push,h1,h2]

lemma passed_body (s : List Char) (hquoted : scan.quoted = true) (hescaped : scan.escaped = false) :
    (s.flatMap escaped).foldl Scan.step scan = {scan with current := scan.current ++ s.flatMap escaped} := by
  induction s generalizing scan with
  | nil => simp
  | cons c s ih =>
    have hrest := @ih {scan with current := scan.current ++ escaped c} hquoted hescaped
    rw [List.flatMap_cons,List.foldl_append,passed_escaped c hquoted hescaped,hrest,List.append_assoc]

/-- The quotes that are written are the quotes the scanner sees. -/
theorem passed_quote (s : String) : Passed (quote s) := by
  unfold quote
  split_ifs with h
  · exact passed_bare (fun c hc => Lexer.bare_of_mem h hc)
  · intro scan hquoted hescaped
    have hopen : scan.step '"' = {scan with current := scan.current ++ ['"'],quoted := true} := by
      simp [Scan.step,Scan.push,hquoted,hescaped]
    have hbody := @passed_body {scan with current := scan.current ++ ['"'],quoted := true} s.toList rfl hescaped
    rw [List.cons_append,List.foldl_cons,List.foldl_append,hopen,hbody]
    simp [Scan.step,Scan.push,hescaped,hquoted]

theorem passed_display (path : Path) : Passed path.display.toList := by
  induction path with
  | nil => exact passed_bare (by simp [Path.display,List.intercalate])
  | cons segment path ih =>
    by_cases h : path = []
    · subst h
      rw [Path.display_singleton]
      exact passed_quote segment
    · have hblank : Passed [' '] := passed_plain (by decide) (by decide) (by decide)
      rw [Path.display_cons segment h]
      exact (passed_quote segment).append (hblank.append ih)

/-- A line that is passed over is the command, and has no modifiers. -/
theorem split_passed (regexError : String → Option String) (h : Passed s) :
    split regexError s = .ok (String.ofList (Lexer.trim isWhitespace s),[]) := by
  have hscan := h Scan.start rfl rfl
  have hparts : splitUnquoted s = [s] := by
    rw [splitUnquoted,hscan]
    rfl
  rw [split,hparts]
  rfl

end Pipe

/-! ### The ends of what is displayed -/

/-- A character that neither trimming nor a question is about. -/
def Firm (c : Char) : Prop := isWhitespace c = false ∧ c ≠ '?'

lemma firm_bare {c : Char} (h : isBareChar c) : Firm c :=
  ⟨Lexer.bare_not_whitespace h,Lexer.bare_ne h (by decide)⟩

lemma firm_quote : Firm '"' := ⟨by decide,by decide⟩

/-- A text that begins and ends so. -/
def Held (text : List Char) : Prop :=
  (∃ c, text.head? = some c ∧ Firm c) ∧ ∃ c, text.getLast? = some c ∧ Firm c

lemma held_quote (s : String) : Held (quote s) := by
  unfold quote
  split_ifs with h
  · have hne : s.toList ≠ [] := by
      intro he
      rw [he] at h
      cases h
    have hfirm : ∀ c ∈ s.toList, Firm c := fun c hc => firm_bare (Lexer.bare_of_mem h hc)
    exact ⟨⟨_,List.head?_eq_some_head hne,hfirm _ (List.head_mem hne)⟩,
      ⟨_,List.getLast?_eq_some_getLast hne,hfirm _ (List.getLast_mem hne)⟩⟩
  · exact ⟨⟨'"',rfl,firm_quote⟩,⟨'"',by rw [List.getLast?_append]; rfl,firm_quote⟩⟩

lemma held_display {path : Path} (h : path ≠ []) : Held path.display.toList := by
  induction path with
  | nil => exact absurd rfl h
  | cons segment path ih =>
    by_cases hpath : path = []
    · subst hpath
      rw [Path.display_singleton]
      exact held_quote segment
    · obtain ⟨c,hc,hfirst⟩ := (held_quote segment).1
      obtain ⟨d,hd,hlast⟩ := (ih hpath).2
      rw [Path.display_cons segment hpath]
      refine ⟨⟨c,by rw [List.head?_append,hc]; rfl,hfirst⟩,⟨d,?_,hlast⟩⟩
      rw [List.getLast?_append,List.getLast?_cons,hd]
      rfl

lemma dropWhile_held {s : List Char} {c : Char} (hc : s.head? = some c) (hfirm : Firm c) (t : List Char) :
    (s ++ t).dropWhile isWhitespace = s ++ t := by
  cases s with
  | nil => cases hc
  | cons d s =>
    rw [List.head?_cons,Option.some.injEq] at hc
    rw [List.cons_append,List.dropWhile_cons,hc,hfirm.1]
    rfl

/-- Trimming takes the blanks behind such a text, and nothing of it. -/
lemma trim_held {s blanks : List Char} (h : Held s) (hblanks : ∀ c ∈ blanks, isWhitespace c) :
    Lexer.trim isWhitespace (s ++ blanks) = s := by
  obtain ⟨⟨c,hc,hfirst⟩,d,hd,hlast⟩ := h
  have hback : blanks.reverse.dropWhile isWhitespace = [] :=
    List.dropWhile_eq_nil_iff.mpr (fun c hc => hblanks c (List.mem_reverse.mp hc))
  rw [← List.head?_reverse] at hd
  have hrest := dropWhile_held hd hlast []
  rw [List.append_nil] at hrest
  rw [Lexer.trim,dropWhile_held hc hfirst,List.reverse_append,List.dropWhile_append,hback,List.isEmpty_nil,
    if_pos rfl,hrest,List.reverse_reverse]

/-- A bare verb and a displayed path, trimmed, are the display of the verb and the path. -/
lemma trim_typed {verb : String} (hverb : isBare verb.toList) (path : Path) :
    Lexer.trim isWhitespace (verb ++ " " ++ path.display).toList = (Path.display (verb::path)).toList := by
  have hquote : quote verb = verb.toList := by rw [quote,if_pos hverb]
  have hheld := held_display (List.cons_ne_nil verb path)
  have hline : (verb ++ " " ++ path.display).toList = verb.toList ++ ' '::path.display.toList := by
    rw [String.toList_append,String.toList_append]
    simp
  by_cases hpath : path = []
  · subst hpath
    rw [Path.display_singleton,hquote] at hheld ⊢
    rw [hline,Path.toList_display]
    exact trim_held hheld (by simp [List.intercalate]; decide)
  · have hshown : (Path.display (verb::path)).toList = verb.toList ++ ' '::path.display.toList := by
      rw [Path.display_cons verb hpath,hquote]
    rw [hline,← hshown]
    have htrim := trim_held hheld (by simp : ∀ c ∈ [], isWhitespace c)
    rwa [List.append_nil] at htrim

/-- A displayed path can be typed back: after any verb it is taken for the command that gives the verb
just the segments of the path. -/
theorem typed_display (regexError : String → Option String) {verb : String} (hverb : isBare verb.toList)
    (path : Path) : typed regexError (verb ++ " " ++ path.display) = .command verb path [] := by
  have hheld := held_display (List.cons_ne_nil verb path)
  obtain ⟨-,c,hlast,hfirm⟩ := held_display (List.cons_ne_nil verb path)
  have hne : (Path.display (verb::path)).toList ≠ [] := by
    intro h
    rw [h] at hlast
    cases hlast
  have hquestion : question (Path.display (verb::path)).toList = none := by
    rw [question,hlast,if_neg (fun h => hfirm.2 (Option.some.inj h))]
  have hsplit := Pipe.split_passed regexError (Pipe.passed_display (verb::path))
  have htrim := trim_held hheld (by simp : ∀ c ∈ [], isWhitespace c)
  rw [List.append_nil] at htrim
  rw [htrim,String.ofList_toList] at hsplit
  rw [typed,trim_typed hverb path]
  simp only [if_neg hne,hquestion,hsplit,Path.parse_display]

/-- Among the segments an empty one, and one with what the shell has a meaning for. -/
theorem typed_back : typed (fun _ => none) ("set" ++ " " ++ Path.display ["description","a | \"b\" # \\?",""]) =
    .command "set" ["description","a | \"b\" # \\?",""] [] :=
  typed_display _ (by decide) _

end Nightshade.Cli
