import Mathlib
import Nightshade.Schema.Value
import Nightshade.Schema.Path
import Nightshade.Foundation.SortedMap

/-! What the schema is, once its source files have been read. The help texts are left out. -/
namespace Nightshade.Schema

inductive PatternSegment where
  | literal (name : String)
  /-- Every instance key, or every value. -/
  | any
  /-- The key of the tag instance the constraint is being checked in. -/
  | current
  deriving Repr, DecidableEq

/-- An absolute path with wildcards. -/
abbrev PathPattern := List PatternSegment

namespace PathPattern

/-- A pattern from its words. -/
def ofWords (words : List String) : PathPattern :=
  words.map (fun w => if w = "*" then .any else if w = "@" then .current else .literal w)

def display (pattern : PathPattern) : String :=
  " ".intercalate (pattern.map (fun
    | .literal name => name
    | .any => "*"
    | .current => "@"))

end PathPattern

/-- A rule attached to one node, checked when that node is set. -/
inductive Constraint where
  /-- The node's values must appear among the values found at these patterns. -/
  | valueInPathSet (paths : List PathPattern) (message : String)
  /-- Something must exist at this path. -/
  | pathExists (path : PathPattern) (message : String)
  /-- The node at this path must hold this value. -/
  | pathHasValue (path : PathPattern) (value message : String)

/-- A rule about the configuration as a whole. -/
inductive GlobalConstraint where
  /-- The values found across all these patterns, taken together, have no duplicates. -/
  | uniqueAcross (paths : List PathPattern) (message : String)
  /-- Anything named by a value at `references` must not have `forbid` set. -/
  | forbidChildOnReferenced (references search : List PathPattern) (forbid message : String)

/-- What a node is. -/
inductive NodeKind where
  /-- Fixed named children. -/
  | container
  /-- Keyed instances; the node's children describe one instance. -/
  | tag (value : ValueSpec)
  /-- Exactly one value. -/
  | leaf (spec : ValueSpec)
  /-- Any number of values. -/
  | multiLeaf (spec : ValueSpec)
  /-- Present or absent, no value. -/
  | flag

structure SchemaNode where
  kind : NodeKind
  default : Option String
  /-- Masked when shown. -/
  secret : Bool
  /-- If the enclosing tag instance exists, this leaf must be set. -/
  required : Bool
  /-- Apply ordering, lower first. -/
  priority : ℕ
  children : List (String × SchemaNode)
  constraints : List Constraint
  /-- Tuples of child names that must be unique across this tag node's instances. -/
  unique : List (List String)
  /-- Sets of children of which at most one may be set. -/
  exclusive : List (List String)

namespace SchemaNode

def isTag (node : SchemaNode) : Bool :=
  match node.kind with
  | .tag _ => true
  | _ => false

def child (node : SchemaNode) (name : String) : Option SchemaNode := node.children.lookup name

end SchemaNode

structure Schema where
  root : SchemaNode
  globals : List GlobalConstraint

/-- Where a path lands in the schema. -/
inductive Location where
  /-- The node itself. -/
  | node (n : SchemaNode)
  /-- One instance of a tag node. -/
  | inst (tag : SchemaNode)
  /-- A value of a leaf. -/
  | value (leaf : SchemaNode)

namespace Location

/-- One segment further down. -/
def next (location : Location) (segment : String) : Option Location :=
  match location with
  | .node n =>
    match n.kind with
    | .container => (n.child segment).map .node
    | .tag _ => some (.inst n)
    | .leaf _ | .multiLeaf _ => some (.value n)
    | .flag => none
  | .inst tag => (tag.child segment).map .node
  | .value _ => none

def schemaNode : Location → SchemaNode
  | .node n | .inst n | .value n => n

end Location

namespace Schema

/-- Resolve a path structurally: any segment in a tag-value position resolves. -/
def resolve (schema : Schema) (path : Path) : Option Location :=
  path.foldlM Location.next (.node schema.root)

/-- The schema node a path names, ignoring the distinction between tag node and instance. -/
def nodeAt (schema : Schema) (path : Path) : Option SchemaNode :=
  (schema.resolve path).map Location.schemaNode

/-- Whether a path names a tag node. -/
def isTagNode (schema : Schema) (path : Path) : Bool :=
  match schema.resolve path with
  | some (.node n) => n.isTag
  | _ => false

end Schema
end Nightshade.Schema
