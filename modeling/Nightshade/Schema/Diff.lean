import Mathlib
import Nightshade.Schema.Config

/-! Structured differences between two configurations. A change is a line, not a node: a value
that came or went, or a node that holds none. -/
namespace Nightshade.Schema

/-- A removal sorts before the addition that replaces it. -/
inductive Op where
  | remove
  | add
  deriving Repr, DecidableEq

structure Change where
  path : Path
  op : Op
  value : Option String
  deriving Repr, DecidableEq

namespace Change

/-- Changes are ordered by path, then removals first, then by value, none before some. -/
def key (c : Change) : Path ×ₗ ℕ ×ₗ WithBot String :=
  toLex (c.path,toLex (match c.op with | .remove => 0 | .add => 1,c.value))

/-- The text a change is shown as. -/
def display (c : Change) : String :=
  (match c.op with | .add => "+ " | .remove => "- ") ++ c.path.display ++
  match c.value with
  | some value => " " ++ String.ofList (quote value)
  | none => ""

end Change

/-- A path and a value there, or no value where the node holds none. -/
abbrev DiffLine := Path × Option String

mutual

/-- The lines of a node: one for each value, and one for a node below which there are none. -/
def Node.lines (at_ : Path) : Node → List DiffLine
  | ⟨_,.values vs⟩ => if vs.isEmpty then [(at_,none)] else vs.map (fun v => (at_,some v))
  | ⟨_,.interior cs⟩ =>
    let below := linesAll at_ cs
    if below.isEmpty && !at_.isEmpty then [(at_,none)] else below
termination_by structural n => n

def linesAll (at_ : Path) : List (String × Node) → List DiffLine
  | [] => []
  | (name,n)::rest => n.lines (at_.child name) ++ linesAll at_ rest
termination_by structural cs => cs

end

def ConfigTree.lines (tree : ConfigTree) : List DiffLine := tree.root.lines Path.root

/-- Whether a path is an interior node in both configurations, and so neither created nor
deleted however its contents moved. -/
def survives (before after : ConfigTree) (path : Path) : Bool :=
  (before.get path).any Node.isInterior && (after.get path).any Node.isInterior

/-- Every line that is in one configuration and not in the other. -/
def diff (before after : ConfigTree) : List Change :=
  let gone := before.lines
  let come := after.lines
  let changes :=
    (come.filter (· ∉ gone)).map (fun l => ⟨l.1,.add,l.2⟩) ++
    (gone.filter (· ∉ come)).map (fun l => ⟨l.1,.remove,l.2⟩)
  (changes.filter (fun c => c.value.isSome || !survives before after c.path)).insertionSort
    (fun a b => a.key ≤ b.key)

end Nightshade.Schema
