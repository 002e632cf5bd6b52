import Mathlib
import Nightshade.Schema.Config

/-! The curly-brace configuration format: the parser of `config.boot` and its renderer. The
parser reads a list of tokens; where the list ends, either the text does or the tokeniser failed
there. -/
namespace Nightshade.Schema

/-- Nesting the parser will accept. -/
def maxDepth : ℕ := 64

inductive ParseError where
  | lex (error : LexError)
  | unexpectedOpen (pos : Pos)
  | unmatchedClose (pos : Pos)
  | unclosed (pos : Pos)
  | tooManyValues (pos : Pos) (name : String) (count : ℕ)
  | tooDeep (pos : Pos)
  | tree (pos : Pos) (source : TreeError)
  deriving Repr, DecidableEq

def ParseError.pos : ParseError → Pos
  | .lex e => e.pos
  | .unexpectedOpen pos | .unmatchedClose pos | .unclosed pos | .tooManyValues pos _ _
  | .tooDeep pos | .tree pos _ => pos

def ParseError.message : ParseError → String
  | .lex e => e.message
  | .unexpectedOpen pos => pos.display ++ ": `\x7b` must follow a node name on the same line"
  | .unmatchedClose pos => pos.display ++ ": `\x7d` here closes nothing"
  | .unclosed pos => pos.display ++ ": `\x7b` opened here is never closed"
  | .tooManyValues pos name count =>
    pos.display ++ ": `" ++ name ++ "` was given " ++ toString count ++
    " values on one line; a leaf takes at most one, and a nested node needs braces"
  | .tooDeep pos => pos.display ++ ": nested more than " ++ toString maxDepth ++ " levels deep"
  | .tree pos source => pos.display ++ ": " ++ source.message

namespace CurlyParser

/-- Consecutive values that start on a line. -/
def run (line : ℕ) : List Spanned → List String × List Spanned
  | ⟨.value v,pos⟩::toks =>
    if pos.line = line then
      let r := run line toks
      (v::r.1,r.2)
    else ([],⟨.value v,pos⟩::toks)
  | toks => ([],toks)

/-- The `{` that follows a run of values on their line. -/
def opens (line : ℕ) : List Spanned → Option (Pos × List Spanned)
  | ⟨.openBrace,pos⟩::toks => if pos.line = line then some (pos,toks) else none
  | _ => none

/-- Attach a comment, if the node has not already got one. -/
def attach (tree : ConfigTree) (path : Path) : Option String → ConfigTree
  | none => tree
  | some comment => if tree.uncommented path then (tree.setComment path (some comment)).2 else tree

/-- A statement of one or two values on a line of their own. -/
def leaf (tree : ConfigTree) (path : Path) (pos : Pos) (values : List String) :
    Except ParseError (Path × ConfigTree) :=
  match values with
  | [name] =>
    match tree.declareLeaf (path.child name) with
    | (.ok (),tree) => .ok (path.child name,tree)
    | (.error source,_) => .error (.tree pos source)
  | [name,value] =>
    match tree.add (path.child name) value with
    | (.ok (),tree) => .ok (path.child name,tree)
    | (.error source,_) => .error (.tree pos source)
  | _ => .error (.tooManyValues pos (values.headD "") (values.length-1))

/-- Between two statements: the comments seen since the last one, and the statement just
completed with its line, so that a comment behind it can be told from one before the next. -/
structure State where
  tree : ConfigTree
  pending : Option String
  previous : Option (Path × ℕ)

/-- A comment belongs to the statement before it on its line, or else waits for the next one. -/
def State.takeComment (s : State) (text : String) (line : ℕ) : State :=
  match s.pending with
  | some prev => {s with pending := some (prev ++ "\n" ++ text)}
  | none =>
    match s.previous.filter (fun p => p.2 = line ∧ s.tree.uncommented p.1) with
    | some (path,_) => {s with tree := (s.tree.setComment path (some text)).2}
    | none => {s with pending := some text}

/-- What one statement comes to: the body ends, goes on, or a nested body begins. -/
inductive Step where
  | stop (result : Except ParseError (ConfigTree × List Spanned))
  | next (s : State) (toks : List Spanned)
  | enter (opened : Pos) (path : Path) (tree : ConfigTree) (toks : List Spanned)

/-- What happens where no token is left. -/
def atEnd (stop : Option LexError) (opened : Option Pos) (tree : ConfigTree) :
    Except ParseError (ConfigTree × List Spanned) :=
  match stop, opened with
  | some e, _ => .error (.lex e)
  | none, some pos => .error (.unclosed pos)
  | none, none => .ok (tree,[])

/-- A run of values, and what follows it on its line. -/
def statement (path : Path) (s : State) (pos : Pos) (values : List String) (toks : List Spanned) :
    Step :=
  match opens pos.line toks with
  | some (opened,toks) =>
    match s.tree.ensureInterior (path ++ values) with
    | (.error source,_) => .stop (.error (.tree pos source))
    | (.ok (),tree) => .enter opened (path ++ values) (attach tree (path ++ values) s.pending) toks
  | none =>
    match leaf s.tree path pos values with
    | .error e => .stop (.error e)
    | .ok (at_,tree) => .next ⟨attach tree at_ s.pending,none,some (at_,pos.line)⟩ toks

def step (stop : Option LexError) (path : Path) (opened : Option Pos) (s : State) :
    List Spanned → Step
  | [] => .stop (atEnd stop opened s.tree)
  | ⟨.comment text,pos⟩::toks => .next (s.takeComment text pos.line) toks
  | ⟨.closeBrace,pos⟩::toks =>
    match opened with
    | some _ => .stop (.ok (s.tree,toks))
    | none => .stop (.error (.unmatchedClose pos))
  | ⟨.openBrace,pos⟩::_ => .stop (.error (.unexpectedOpen pos))
  | ⟨.value v,pos⟩::toks =>
    let r := run pos.line toks
    if r.2.isEmpty && stop.isSome then .stop (atEnd stop opened s.tree)
    else statement path s pos (v::r.1) r.2

/-- Statements until `}`, when a brace is open, or the end of the text. Each step takes a token,
so the number of tokens is fuel enough. -/
def body (stop : Option LexError) : ℕ → Path → ℕ → Option Pos → State → List Spanned →
    Except ParseError (ConfigTree × List Spanned)
  | 0, _, _, opened, s, _ => atEnd stop opened s.tree
  | n+1, path, depth, opened, s, toks =>
    match step stop path opened s toks with
    | .stop result => result
    | .next s toks => body stop n path depth opened s toks
    | .enter brace inner tree toks =>
      if depth+1 > maxDepth then .error (.tooDeep brace)
      else
        match body stop n inner (depth+1) (some brace) ⟨tree,none,none⟩ toks with
        | .error e => .error e
        | .ok (tree,toks) => body stop n path depth opened ⟨tree,none,none⟩ toks

end CurlyParser

/-- Parse a config document. -/
def parse (src : String) : Except ParseError ConfigTree :=
  let r := lex src
  (CurlyParser.body r.2 r.1.length Path.root 0 none ⟨.new,none,none⟩ r.1).map Prod.fst

/-- Which paths hold tag instances, and so may be written in the compact form. -/
abbrev TagOracle := Path → Bool

namespace Render

def indent (depth : ℕ) : List Char := (List.replicate depth "    ".toList).flatten

/-- A comment, each of its lines on a line of its own. -/
def comment (depth : ℕ) : Option String → List Char
  | none => []
  | some comment =>
    (comment.toList.splitOn '\n').flatMap (fun line =>
      indent depth ++ (if line = [] then ['#','\n'] else ['#',' '] ++ line ++ ['\n']))

/-- Whether to write `ethernet eth0 { ... }` rather than nesting. -/
def compact (tags : TagOracle) (path : Path) (node : Node) (entries : List (String × Node)) : Bool :=
  tags path && node.comment.isNone && !entries.isEmpty && entries.all (fun e => e.2.isInterior)

mutual

/-- The children of a node, one after another. -/
def children (tags : TagOracle) (at_ : Path) (depth : ℕ) : Node → List Char
  | ⟨_,.values _⟩ => []
  | ⟨_,.interior cs⟩ => entries tags at_ depth cs
termination_by structural n => n

def entries (tags : TagOracle) (at_ : Path) (depth : ℕ) : List (String × Node) → List Char
  | [] => []
  | (name,child)::rest =>
    entry tags name (at_.child name) depth child ++ entries tags at_ depth rest
termination_by structural cs => cs

def entry (tags : TagOracle) (name : String) (path : Path) (depth : ℕ) : Node → List Char
  | ⟨c,.values vs⟩ =>
    comment depth c ++
      (if vs.isEmpty then indent depth ++ quote name ++ ['\n'] else []) ++
      vs.flatMap (fun value => indent depth ++ quote name ++ [' '] ++ quote value ++ ['\n'])
  | ⟨c,.interior cs⟩ =>
    if compact tags path ⟨c,.interior cs⟩ cs then instances tags name path depth cs
    else
      comment depth c ++ indent depth ++ quote name ++ [' ','{','\n'] ++
        entries tags path (depth+1) cs ++ indent depth ++ ['}','\n']
termination_by structural n => n

/-- The instances of a tag node, each with the name of the node in front of it. -/
def instances (tags : TagOracle) (name : String) (path : Path) (depth : ℕ) :
    List (String × Node) → List Char
  | [] => []
  | (key,inst)::rest =>
    comment depth inst.comment ++ indent depth ++ quote name ++ [' '] ++ quote key ++
      [' ','{','\n'] ++ children tags (path.child key) (depth+1) inst ++ indent depth ++ ['}','\n'] ++
      instances tags name path depth rest
termination_by structural cs => cs

end

end Render

/-- Render a config document. -/
def render (tree : ConfigTree) (tags : TagOracle) : String :=
  String.ofList (Render.children tags Path.root 0 tree.root)

end Nightshade.Schema
