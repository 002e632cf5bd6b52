import Mathlib

/-! The tokeniser that the configuration file and typed paths share: bare words, quoted
strings, braces and comments. Text is a list of characters. The source reads tokens on demand
and reports a lexical error when it reaches it; here a text becomes the tokens before its
first error together with that error. -/
namespace Nightshade.Schema

/-- One-based line and column, counted in characters. -/
structure Pos where
  line : ℕ
  column : ℕ
  deriving Repr, DecidableEq

namespace Pos

def start : Pos := ⟨1,1⟩

def bump (pos : Pos) (c : Char) : Pos :=
  if c = '\n' then ⟨pos.line+1,1⟩ else ⟨pos.line,pos.column+1⟩

/-- The position behind a stretch of text. -/
def after (pos : Pos) (text : List Char) : Pos := text.foldl bump pos

@[simp] theorem after_nil (pos : Pos) : pos.after [] = pos := rfl

@[simp] theorem after_cons (pos : Pos) (c : Char) (text : List Char) :
    pos.after (c::text) = (pos.bump c).after text := rfl

theorem after_append (pos : Pos) (s t : List Char) : pos.after (s ++ t) = (pos.after s).after t :=
  List.foldl_append

theorem bump_line {c : Char} (h : c ≠ '\n') (pos : Pos) : (pos.bump c).line = pos.line := by
  rw [bump,if_neg h]

theorem after_line {text : List Char} (h : '\n' ∉ text) (pos : Pos) :
    (pos.after text).line = pos.line := by
  induction text generalizing pos with
  | nil => rfl
  | cons c text ih =>
    rw [List.mem_cons,not_or] at h
    rw [after_cons,ih h.2,bump_line (Ne.symm h.1)]

end Pos

inductive Token where
  /-- A bare word or a quoted string, already unquoted and unescaped. -/
  | value (s : String)
  | openBrace
  | closeBrace
  /-- The body of a comment, delimiters stripped. -/
  | comment (text : String)
  deriving Repr, DecidableEq

structure Spanned where
  token : Token
  pos : Pos
  deriving Repr, DecidableEq

inductive LexError where
  | unterminatedString (pos : Pos)
  | unterminatedComment (pos : Pos)
  | unknownEscape (pos : Pos) (ch : Char)
  | badHexEscape (pos : Pos)
  | unexpectedChar (pos : Pos) (ch : Char)
  deriving Repr, DecidableEq

def LexError.pos : LexError → Pos
  | .unterminatedString pos | .unterminatedComment pos | .unknownEscape pos _
  | .badHexEscape pos | .unexpectedChar pos _ => pos

/-- `char::is_control`: the two control blocks. -/
def isControl (c : Char) : Bool := c.toNat < 0x20 || (0x7f ≤ c.toNat && c.toNat ≤ 0x9f)

/-- A character as the source displays it for debugging inside some quotes; of the characters it
escapes by number, the control characters. -/
def debugChar (quote : Char) (c : Char) : String :=
  if c = quote || c = '\\' then "\\" ++ c.toString else if c = '\n' then "\\n"
  else if c = '\t' then "\\t" else if c = '\r' then "\\r" else if c.toNat = 0 then "\\0"
  else if isControl c then "\\u\x7b" ++ String.ofList (Nat.toDigits 16 c.toNat) ++ "\x7d"
  else c.toString

def Pos.display (pos : Pos) : String :=
  "line " ++ toString pos.line ++ ", column " ++ toString pos.column

def LexError.message : LexError → String
  | .unterminatedString pos => pos.display ++ ": unterminated quoted value (opened here)"
  | .unterminatedComment pos => pos.display ++ ": unterminated comment -- no closing `*/`"
  | .unknownEscape pos ch =>
    pos.display ++ ": unknown escape `\\" ++ ch.toString ++ "`; valid escapes are \\\\ \\\" \\n \\t \\r \\xNN"
  | .badHexEscape pos =>
    pos.display ++ ": `\\x` must be followed by two hex digits in the range 00-7f"
  | .unexpectedChar pos ch =>
    pos.display ++ ": unexpected character '" ++ debugChar '\'' ch ++ "'; quote it if it is part of a value"

/-- `char::is_whitespace`: the code points with the property `White_Space`. -/
def isWhitespace (c : Char) : Bool :=
  (9 ≤ c.toNat && c.toNat ≤ 13) || c.toNat = 0x20 || c.toNat = 0x85 || c.toNat = 0xa0 ||
  c.toNat = 0x1680 || (0x2000 ≤ c.toNat && c.toNat ≤ 0x200a) || c.toNat = 0x2028 ||
  c.toNat = 0x2029 || c.toNat = 0x202f || c.toNat = 0x205f || c.toNat = 0x3000

/-- Characters a value may be written with and no quotes around it. -/
def isBareChar (c : Char) : Bool :=
  c.isAlphanum || c = '.' || c = ':' || c = '/' || c = '_' || c = '-' || c = '+' || c = '%'

/-- Whether a value can be written without quotes. The empty one never can. -/
def isBare (s : List Char) : Bool := !s.isEmpty && s.all isBareChar

/-- Lower-case hexadecimal digit. -/
def hexDigit (n : ℕ) : Char := if n < 10 then Char.ofNat (48+n) else Char.ofNat (87+n)

/-- How one character is written between quotes. -/
def escaped (c : Char) : List Char :=
  if c = '\\' then ['\\','\\']
  else if c = '"' then ['\\','"']
  else if c = '\n' then ['\\','n']
  else if c = '\t' then ['\\','t']
  else if c = '\r' then ['\\','r']
  else if c.toNat < 0x20 || c.toNat = 0x7f then ['\\','x',hexDigit (c.toNat/16),hexDigit (c.toNat%16)]
  else [c]

/-- A value in a form the tokeniser reads back as exactly that value. -/
def quote (s : String) : List Char :=
  if isBare s.toList then s.toList else '"'::s.toList.flatMap escaped ++ ['"']

/-- What is left of the text, and where it starts. -/
structure Lexer where
  rest : List Char
  pos : Pos
  deriving Repr, DecidableEq

namespace Lexer

/-- Take characters while they pass a test. -/
def span (p : Char → Bool) : List Char → Pos → List Char × Lexer
  | [], pos => ([],⟨[],pos⟩)
  | c::rest, pos =>
    if p c then
      let r := span p rest (pos.bump c)
      (c::r.1,r.2)
    else ([],⟨c::rest,pos⟩)

def skipWhitespace (lexer : Lexer) : Lexer := (span isWhitespace lexer.rest lexer.pos).2

def word (lexer : Lexer) : List Char × Lexer := span isBareChar lexer.rest lexer.pos

/-- `char::to_digit(16)`. -/
def toDigit (c : Char) : Option ℕ :=
  if '0' ≤ c ∧ c ≤ '9' then some (c.toNat-48)
  else if 'a' ≤ c ∧ c ≤ 'f' then some (c.toNat-87)
  else if 'A' ≤ c ∧ c ≤ 'F' then some (c.toNat-55)
  else none

/-- The two digits behind `\x`, in the range 00-7f. -/
def hexEscape (backslash : Pos) (lexer : Lexer) : Except LexError (Char × Lexer) :=
  match lexer.rest with
  | a::b::rest =>
    match toDigit a, toDigit b with
    | some d, some e =>
      if d*16+e > 0x7f then .error (.badHexEscape backslash)
      else .ok (Char.ofNat (d*16+e),⟨rest,(lexer.pos.bump a).bump b⟩)
    | _, _ => .error (.badHexEscape backslash)
  | _ => .error (.badHexEscape backslash)

/-- The escape behind a backslash. -/
def escape (backslash : Pos) (lexer : Lexer) : Except LexError (Char × Lexer) :=
  match lexer.rest with
  | [] => .error (.unterminatedString backslash)
  | c::rest =>
    let lexer : Lexer := ⟨rest,lexer.pos.bump c⟩
    if c = '\\' then .ok ('\\',lexer)
    else if c = '"' then .ok ('"',lexer)
    else if c = 'n' then .ok ('\n',lexer)
    else if c = 't' then .ok ('\t',lexer)
    else if c = 'r' then .ok ('\r',lexer)
    else if c = 'x' then hexEscape backslash lexer
    else .error (.unknownEscape backslash c)

/-- The inside of a quoted string. The fuel is the length of the text: when it is used up
nothing is left to read, and the string is unterminated. -/
def stringBody (opened : Pos) : ℕ → Lexer → Except LexError (List Char × Lexer)
  | 0, _ => .error (.unterminatedString opened)
  | n+1, lexer =>
    match lexer.rest with
    | [] => .error (.unterminatedString opened)
    | c::rest =>
      let after : Lexer := ⟨rest,lexer.pos.bump c⟩
      if c = '"' then .ok ([],after)
      else if c = '\\' then
        match escape lexer.pos after with
        | .error e => .error e
        | .ok (e,lexer) => (stringBody opened n lexer).map (fun r => (e::r.1,r.2))
      else (stringBody opened n after).map (fun r => (c::r.1,r.2))

/-- One leading space is not part of a comment. -/
def stripSpace : List Char → List Char
  | [] => []
  | c::rest => if c = ' ' then rest else c::rest

/-- The text behind `#`, up to the end of the line. -/
def lineComment (lexer : Lexer) : List Char × Lexer :=
  let r := span (· ≠ '\n') lexer.rest lexer.pos
  (stripSpace r.1,r.2)

/-- The text up to the closing `*/`, or nothing when it never comes. -/
def commentBody : List Char → Pos → Option (List Char × Lexer)
  | c::d::rest, pos =>
    if c = '*' ∧ d = '/' then some ([],⟨rest,(pos.bump c).bump d⟩)
    else (commentBody (d::rest) (pos.bump c)).map (fun r => (c::r.1,r.2))
  | _, _ => none

/-- `str::lines`: a line ends at a newline, with or without a carriage return before it, and
there is no empty line behind the last one. -/
def lines (text : List Char) : List (List Char) :=
  let ls := text.splitOn '\n'
  ls.dropLast.map (fun l => if l.getLast? = some '\r' then l.dropLast else l) ++
    ls.getLast?.toList.filter (· ≠ [])

def trim (p : Char → Bool) (text : List Char) : List Char :=
  ((text.dropWhile p).reverse.dropWhile p).reverse

/-- A block comment in the shape that a run of `#` lines gives. -/
def normalise (raw : List Char) : List Char :=
  trim (· = '\n') (['\n'].intercalate ((lines raw).map
    (fun l => ((trim isWhitespace l).dropWhile (· = '*')).dropWhile isWhitespace)))

def blockComment (opened : Pos) (lexer : Lexer) : Except LexError (Spanned × Lexer) :=
  match lexer.rest with
  | c::d::rest =>
    match commentBody rest ((lexer.pos.bump c).bump d) with
    | some (raw,lexer) => .ok (⟨.comment (String.ofList (normalise raw)),opened⟩,lexer)
    | none => .error (.unterminatedComment opened)
  | _ => .error (.unterminatedComment opened)

/-- The next token, or nothing at the end of the text. -/
def nextToken (lexer : Lexer) : Except LexError (Option (Spanned × Lexer)) :=
  let lexer := lexer.skipWhitespace
  match lexer.rest with
  | [] => .ok none
  | c::rest =>
    let pos := lexer.pos
    let after : Lexer := ⟨rest,pos.bump c⟩
    if c = '/' ∧ rest.head? = some '*' then (blockComment pos lexer).map some
    else if c = '{' then .ok (some (⟨.openBrace,pos⟩,after))
    else if c = '}' then .ok (some (⟨.closeBrace,pos⟩,after))
    else if c = '#' then
      let r := lineComment after
      .ok (some (⟨.comment (String.ofList r.1),pos⟩,r.2))
    else if c = '"' then
      (stringBody pos rest.length after).map (fun r => some (⟨.value (String.ofList r.1),pos⟩,r.2))
    else if isBareChar c then
      let r := word lexer
      .ok (some (⟨.value (String.ofList r.1),pos⟩,r.2))
    else .error (.unexpectedChar pos c)

/-- The tokens before the first error, and that error. Every token takes a character, so a
fuel of the length of the text is enough. -/
def tokens : ℕ → Lexer → List Spanned × Option LexError
  | 0, _ => ([],none)
  | n+1, lexer =>
    match lexer.nextToken with
    | .error e => ([],some e)
    | .ok none => ([],none)
    | .ok (some (t,lexer)) =>
      let r := tokens n lexer
      (t::r.1,r.2)

end Lexer

/-- All tokens of a text. -/
def lex (src : String) : List Spanned × Option LexError :=
  Lexer.tokens src.toList.length ⟨src.toList,Pos.start⟩

end Nightshade.Schema
