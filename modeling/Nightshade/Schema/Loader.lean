import Mathlib
import Nightshade.Foundation.Fallible
import Nightshade.Schema.Validate

/-! Reading the source files of a schema: they are merged into one document, templates are expanded, and the
result is converted. An additive list or a map that a file leaves out counts as an empty one. -/
namespace Nightshade.Schema
open Foundation

namespace NodeKind

def takesChildren : NodeKind → Bool
  | .container | .tag _ => true
  | .leaf _ | .multiLeaf _ | .flag => false

/-- What the values of a node are held against. -/
def valueSpec : NodeKind → Option ValueSpec
  | .leaf spec | .multiLeaf spec => some spec
  | .container | .tag _ | .flag => none

end NodeKind

/-- A pattern from its text: words of letters, digits and a few marks, and wildcards. -/
def PathPattern.parse (source : String) : Except String PathPattern :=
  let words := (source.toList.splitOnP isWhitespace).filter (· ≠ [])
  match words.find? (fun word => word ≠ ['*'] && word ≠ ['@'] && !word.all (fun c =>
      c.isAlphanum || c = '-' || c = '_' || c = '.')) with
  | some word => .error ("`" ++ String.ofList word ++ "` is not a node name")
  | none => if words = [] then .error "a path pattern cannot be empty" else .ok (.ofWords (words.map String.ofList))

namespace Loader

/-- Priority of a node if neither it nor any ancestor sets one. -/
def DEFAULT_PRIORITY : ℕ := 500

inductive SchemaError where
  | yaml (path source : String)
  | conflict (at_ field : String)
  | invalid (at_ message : String)
  /-- No error that is reported: the conversion of a template that includes itself does not end. -/
  | overflow
  deriving DecidableEq

def SchemaError.message : SchemaError → String
  | .yaml path source => path ++ ": " ++ source
  | .conflict at_ field => "schema node `" ++ at_ ++ "`: `" ++ field ++ "` is defined twice with different values"
  | .invalid at_ message => "schema node `" ++ at_ ++ "`: " ++ message
  | .overflow => ""

/-! ### The shape of a file -/

/-- A scalar as written; a floating-point number by its bits. -/
inductive Scalar where
  | bool (b : Bool)
  | int (n : ℤ)
  | float (bits : UInt64)
  | str (s : String)

/-- Numbers of a kind that no number is equal to, itself included. -/
def isNan (bits : UInt64) : Bool := 0x7FF0000000000000 < bits.toNat % 2^63

/-- Zero with either sign. -/
def isZero (bits : UInt64) : Bool := bits.toNat % 2^63 = 0

/-- Equality of floating-point numbers. -/
def floatEq (x y : UInt64) : Bool := !isNan x && !isNan y && (x = y || isZero x && isZero y)

instance : BEq Scalar where
  beq
    | .bool b, .bool c => b = c
    | .int m, .int n => m = n
    | .float x, .float y => floatEq x y
    | .str s, .str t => s = t
    | _, _ => false

structure RawRange where
  min : ℤ
  max : ℤ
  step : Option ℕ
  deriving DecidableEq

structure RawTag where
  ty : String
  help : String
  range : Option RawRange
  values : Option (List Scalar)
  regex : Option String
  deriving BEq

inductive RawConstraint where
  | valueInPathSet (paths : List String) (message : String)
  | pathExists (path message : String)
  | pathHasValue (path : String) (value : Scalar) (message : String)

inductive RawGlobal where
  | uniqueAcross (paths : List String) (message : String)
  | forbidChildOnReferenced (references search : List String) (forbid message : String)

/-- The fields of a node that may be set once. -/
structure Definition where
  kind : Option String
  help : Option String
  ty : Option String
  range : Option RawRange
  values : Option (List Scalar)
  regex : Option String
  accepts : Option (List Scalar)
  default : Option Scalar
  secret : Option Bool
  required : Option Bool
  priority : Option ℕ
  tag : Option RawTag
  deriving Inhabited

structure RawNode where
  definition : Definition
  includes : List String
  excludes : List String
  children : List (String × RawNode)
  constraints : List RawConstraint
  unique : List (List String)
  mutuallyExclusive : List (List String)

namespace RawNode

mutual

/-- Children stand in the order of their names, all the way down. -/
def Ordered : RawNode → Prop
  | ⟨_,_,_,cs,_,_,_⟩ => OrderedAll cs ∧ KeySorted cs
termination_by structural n => n

def OrderedAll : List (String × RawNode) → Prop
  | [] => True
  | (_,n)::rest => n.Ordered ∧ OrderedAll rest
termination_by structural cs => cs

end
end RawNode

/-- Named nodes in the order of their names. -/
def Sorted (nodes : List (String × RawNode)) : Prop := RawNode.OrderedAll nodes ∧ KeySorted nodes

structure RawFile where
  templates : List (String × List (String × RawNode))
  nodes : List (String × RawNode)
  globals : List RawGlobal
  templatesOrdered : KeySorted templates ∧ ∀ template ∈ templates, Sorted template.2
  nodesOrdered : Sorted nodes

/-- What the loader uses: the parser of files, the compiler of regular expressions, the text of a
floating-point number, and the time zones of the box. -/
structure Tools where
  parse : String → Except String RawFile
  regex : String → Except String (String → Bool)
  display : UInt64 → String
  zones : List String

/-! ### Merging -/

inductive Mode where
  /-- Two files defining the same field is a mistake. -/
  | strict
  /-- A node's own children deliberately narrowing an included template. -/
  | overlay
  deriving DecidableEq

/-- One field that may be set once. -/
def mergeField {α : Type} [BEq α] (mode : Mode) (at_ field : String) (into : Option α) :
    Option α → Except SchemaError (Option α)
  | none => .ok into
  | some value =>
    match into with
    | some existing =>
      if mode = .strict ∧ ¬ (existing == value) then .error (.conflict at_ field) else .ok (some value)
    | none => .ok (some value)

def mergeDefinition (mode : Mode) (at_ : String) (into d : Definition) : Except SchemaError Definition := do
  let kind ← mergeField mode at_ "kind" into.kind d.kind
  let help ← mergeField mode at_ "help" into.help d.help
  let ty ← mergeField mode at_ "ty" into.ty d.ty
  let range ← mergeField mode at_ "range" into.range d.range
  let values ← mergeField mode at_ "values" into.values d.values
  let regex ← mergeField mode at_ "regex" into.regex d.regex
  let accepts ← mergeField mode at_ "accepts" into.accepts d.accepts
  let default ← mergeField mode at_ "default" into.default d.default
  let secret ← mergeField mode at_ "secret" into.secret d.secret
  let required ← mergeField mode at_ "required" into.required d.required
  let priority ← mergeField mode at_ "priority" into.priority d.priority
  let tag ← mergeField mode at_ "tag" into.tag d.tag
  return ⟨kind,help,ty,range,values,regex,accepts,default,secret,required,priority,tag⟩

mutual

def mergeNode (mode : Mode) (at_ : String) (into : RawNode) : RawNode → Except SchemaError RawNode
  | ⟨definition,includes,excludes,children,constraints,unique,mutuallyExclusive⟩ => do
    let definition ← mergeDefinition mode at_ into.definition definition
    let children ← mergeChildren mode at_ into.children children
    return ⟨definition,into.includes ++ includes,into.excludes ++ excludes,children,
      into.constraints ++ constraints,into.unique ++ unique,into.mutuallyExclusive ++ mutuallyExclusive⟩
termination_by structural n => n

def mergeChildren (mode : Mode) (at_ : String) (into : List (String × RawNode)) :
    List (String × RawNode) → Except SchemaError (List (String × RawNode))
  | [] => .ok into
  | (name,node)::rest => do
    let childAt := if at_ = "" then name else at_ ++ " " ++ name
    match into.lookup name with
    | some existing =>
      let merged ← mergeNode mode childAt existing node
      mergeChildren mode at_ (insertKey name merged into) rest
    | none => mergeChildren mode at_ (insertKey name node into) rest
termination_by structural cs => cs

end

/-! ### Conversion -/

section
variable (tools : Tools)

def Scalar.intoString : Scalar → String
  | .bool b => if b then "true" else "false"
  | .int n => toString n
  | .float bits => tools.display bits
  | .str s => s

def strings (values : Option (List Scalar)) : Option (List String) :=
  values.map (·.map (Scalar.intoString tools))

def pattern (source at_ : String) : Except SchemaError PathPattern :=
  (PathPattern.parse source).mapError (fun e =>
    .invalid at_ ("bad path pattern `" ++ source ++ "`: " ++ e))

def patterns (sources : List String) (at_ : String) : Except SchemaError (List PathPattern) :=
  if sources = [] then .error (.invalid at_ "a constraint with no paths checks nothing")
  else sources.mapM (fun source => pattern source at_)

def constraint (at_ : String) : RawConstraint → Except SchemaError Constraint
  | .valueInPathSet paths message => return .valueInPathSet (← patterns paths at_) message
  | .pathExists path message => return .pathExists (← pattern path at_) message
  | .pathHasValue path value message =>
    return .pathHasValue (← pattern path at_) (value.intoString tools) message

def globalConstraint (at_ : String) : RawGlobal → Except SchemaError GlobalConstraint
  | .uniqueAcross paths message => return .uniqueAcross (← patterns paths at_) message
  | .forbidChildOnReferenced references search forbid message =>
    return .forbidChildOnReferenced (← patterns references at_) (← patterns search at_) forbid message

def numeric (range : Option RawRange) (min max : ℤ) : ValueType :=
  match range with
  | some range => .number ⟨range.min,range.max,range.step⟩
  | none => .number ⟨min,max,none⟩

/-- The type of a name, with the range or the values given for it. -/
def valueType (ty : String) (range : Option RawRange) (values : Option (List String)) (at_ : String) :
    Except SchemaError ValueType :=
  if ty = "string" then .ok .text
  else if ty = "bool" then .ok .bool
  else if ty = "uint" then .ok (numeric range 0 4294967295)
  else if ty = "int" then .ok (numeric range (-2147483648) 2147483647)
  else if ty = "ipv4-address" then .ok .ipv4Address
  else if ty = "ipv6-address" then .ok .ipv6Address
  else if ty = "ip-address" then .ok .ipAddress
  else if ty = "ipv4-prefix" then .ok .ipv4Prefix
  else if ty = "ipv6-prefix" then .ok .ipv6Prefix
  else if ty = "ip-prefix" then .ok .ipPrefix
  else if ty = "ip-or-prefix" then .ok .ipOrPrefix
  else if ty = "multicast-address" then .ok .multicastAddress
  else if ty = "mac-address" then .ok .macAddress
  else if ty = "port" then .ok .port
  else if ty = "port-range" then .ok .portRange
  else if ty = "interface-name" then .ok .interfaceName
  else if ty = "hostname" then .ok .hostname
  else if ty = "time-zone" then .ok (.timeZone tools.zones)
  else if ty = "user-name" then .ok .userName
  else if ty = "encrypted-password" then .ok .encryptedPassword
  else if ty = "enum" then
    match values with
    | none => .error (.invalid at_ "an `enum` needs the `values` it accepts")
    | some [] => .error (.invalid at_ "an `enum` with no values accepts nothing")
    | some values => .ok (.enum values)
  else .error (.invalid at_ ("unknown type `" ++ ty ++ "`"))

def valueSpec (ty : String) (range : Option RawRange) (values : Option (List String)) (regex : Option String)
    (accepts : Option (List String)) (at_ : String) : Except SchemaError ValueSpec := do
  if ty ≠ "enum" ∧ values.isSome then throw (.invalid at_ "`values` only applies to an `enum`")
  if ty ≠ "uint" ∧ ty ≠ "int" ∧ range.isSome then throw (.invalid at_ "`range` only applies to `uint` or `int`")
  let type ← valueType tools ty range values at_
  let pattern ← regex.mapM (fun source => ((tools.regex source).map (Regex.mk source)).mapError (fun e =>
    SchemaError.invalid at_ ("its `regex` does not compile: " ++ e)))
  return ⟨type,accepts.getD [],pattern⟩

def leafSpec (d : Definition) (at_ : String) : Except SchemaError ValueSpec :=
  match d.ty with
  | none => .error (.invalid at_ "a leaf needs a `type`")
  | some ty => valueSpec tools ty d.range (strings tools d.values) d.regex (strings tools d.accepts) at_

/-- What a node is, by the name of its kind. -/
def nodeKind (kindName : String) (d : Definition) (at_ : String) : Except SchemaError NodeKind :=
  if kindName = "container" then .ok .container
  else if kindName = "tag" then
    match d.tag with
    | none => .error (.invalid at_ "a tag node needs a `tag` block")
    | some tag => (valueSpec tools tag.ty tag.range (strings tools tag.values) tag.regex none at_).map .tag
  else if kindName = "leaf" then (leafSpec tools d at_).map .leaf
  else if kindName = "multi-leaf" then (leafSpec tools d at_).map .multiLeaf
  else if kindName = "flag" then .ok .flag
  else .error (.invalid at_
    ("unknown kind `" ++ kindName ++ "`; expected container, tag, leaf, multi-leaf or flag"))

end

/-- The children of the templates that a node includes, with its own laid over them. -/
def expandIncludes (templates : List (String × List (String × RawNode))) (at_ : String) (includes : List String)
    (own : List (String × RawNode)) : Except SchemaError (List (String × RawNode)) :=
  if includes = [] then .ok own
  else do
    let expanded ← includes.foldlM (fun expanded name =>
      match templates.lookup name with
      | none => .error (.invalid at_ ("no template named `" ++ name ++ "`"))
      | some template => mergeChildren .strict at_ expanded template) []
    mergeChildren .overlay at_ expanded own

/-- The children that a node does not exclude. -/
def dropExcluded (at_ : String) (excludes : List String) (children : List (String × RawNode)) :
    Except SchemaError (List (String × RawNode)) :=
  excludes.foldlM (fun children name =>
    if (children.lookup name).isNone then
      .error (.invalid at_ ("`exclude` names `" ++ name ++ "`, which is not one of its children"))
    else .ok (eraseKey name children)) children

section
variable (tools : Tools)

/-- A default has to be a value that the node's own type accepts. -/
def checkDefault (kind : NodeKind) (default : Option String) (at_ : String) : Except SchemaError Unit :=
  match default, kind.valueSpec with
  | some default, some spec =>
    (spec.check default).mapError (fun e => .invalid at_ ("its default is invalid: " ++ e.message))
  | _, _ => .ok ()

/-- A node without its children. -/
structure Shell where
  kind : NodeKind
  priority : ℕ

/-- What a node is and where it stands in the order, before its children are converted. -/
def shell (raw : RawNode) (at_ : String) (inherited : ℕ) : Except SchemaError Shell := do
  if raw.definition.help.isNone then throw (.invalid at_ "no `help` text")
  match raw.definition.kind with
  | none => throw (.invalid at_ "no `kind`")
  | some kindName =>
    let kind ← nodeKind tools kindName raw.definition at_
    return ⟨kind,raw.definition.priority.getD inherited⟩

/-- Children stand under a container or a tag, and nowhere else. -/
def checkChildren (kindName : Option String) (kind : NodeKind) (children : List (String × RawNode)) (at_ : String) :
    Except SchemaError Unit :=
  if !kind.takesChildren && !children.isEmpty then
    .error (.invalid at_ ("a `" ++ kindName.getD "" ++ "` cannot have children"))
  else if kind.takesChildren && children.isEmpty then
    .error (.invalid at_ ("a `" ++ kindName.getD "" ++ "` with no children can never be configured"))
  else .ok ()

/-- The rules of a node are about its children, and only instances can be compared. -/
def checkRules (kind : NodeKind) (unique exclusive : List (List String)) (children : List (String × SchemaNode))
    (at_ : String) : Except SchemaError Unit :=
  match (unique ++ exclusive).flatten.find? (fun name => (children.lookup name).isNone) with
  | some name => .error (.invalid at_ ("`" ++ name ++ "` is named in a rule but is not one of its children"))
  | none =>
    if !unique.isEmpty && !(match kind with | .tag _ => true | _ => false) then
      .error (.invalid at_ "`unique` compares tag instances, so it only means something on a tag node")
    else .ok ()

/-- A node of the document as one of the schema. -/
def convert (templates : List (String × List (String × RawNode))) :
    ℕ → RawNode → String → ℕ → Except SchemaError SchemaNode
  | 0, _, _, _ => .error .overflow
  | fuel+1, raw, at_, inherited => do
    let expanded ← expandIncludes templates at_ raw.includes raw.children
    let rawChildren ← dropExcluded at_ raw.excludes expanded
    let shell ← shell tools raw at_ inherited
    checkChildren raw.definition.kind shell.kind rawChildren at_
    let children ← rawChildren.foldlM (fun children child => do
      let node ← convert templates fuel child.2 (at_ ++ " " ++ child.1) shell.priority
      return insertKey child.1 node children) []
    checkRules shell.kind raw.unique raw.mutuallyExclusive children at_
    let constraints ← raw.constraints.mapM (constraint tools at_)
    let default := raw.definition.default.map (Scalar.intoString tools)
    checkDefault shell.kind default at_
    return {
      kind := shell.kind
      default := default
      secret := raw.definition.secret.getD false
      required := raw.definition.required.getD false
      priority := shell.priority
      children := children
      constraints := constraints
      unique := raw.unique
      exclusive := raw.mutuallyExclusive }

end

/-! ### Order -/

namespace RawNode

/-- Induction over nodes: what holds of the children holds of the node. -/
theorem induct {P : RawNode → Prop} (node : ∀ n : RawNode, (∀ e ∈ n.children, P e.2) → P n) (n : RawNode) : P n := by
  refine @RawNode.rec P (fun cs => ∀ e ∈ cs, P e.2) (fun e => P e.2)
    (fun d i x cs k u m hcs => node ⟨d,i,x,cs,k,u,m⟩ hcs) (by simp) (fun e cs he hcs => ?_) (fun _ _ h => h) n
  intro other hother
  obtain rfl | hother := List.mem_cons.mp hother
  · exact he
  · exact hcs other hother

theorem orderedAll_iff {cs : List (String × RawNode)} : OrderedAll cs ↔ ∀ e ∈ cs, e.2.Ordered := by
  induction cs with
  | nil => simp [OrderedAll]
  | cons e cs ih => simp [OrderedAll,ih]

theorem ordered_iff {n : RawNode} : n.Ordered ↔ Sorted n.children := by
  obtain ⟨d,i,x,cs,k,u,m⟩ := n
  rw [Ordered,Sorted]

end RawNode

theorem sorted_nil : Sorted [] := ⟨trivial,keySorted_nil⟩

theorem Sorted.insert {name : String} {node : RawNode} {cs : List (String × RawNode)} (h : Sorted cs)
    (hnode : node.Ordered) : Sorted (insertKey name node cs) := by
  refine ⟨RawNode.orderedAll_iff.mpr (fun e he => ?_),keySorted_insertKey name node h.2⟩
  obtain rfl | he := mem_insertKey he
  · exact hnode
  · exact RawNode.orderedAll_iff.mp h.1 e he

theorem Sorted.lookup {name : String} {node : RawNode} {cs : List (String × RawNode)} (h : Sorted cs)
    (hlookup : cs.lookup name = some node) : node.Ordered :=
  RawNode.orderedAll_iff.mp h.1 _ ((lookup_eq_some_iff_mem h.2).mp hlookup)

/-- What a merge of two nodes is made of. -/
theorem mergeNode_eq_ok {mode : Mode} {at_ : String} {into n merged : RawNode} :
    mergeNode mode at_ into n = .ok merged ↔
      mergeDefinition mode at_ into.definition n.definition = .ok merged.definition ∧
      mergeChildren mode at_ into.children n.children = .ok merged.children ∧
      merged.includes = into.includes ++ n.includes ∧ merged.excludes = into.excludes ++ n.excludes ∧
      merged.constraints = into.constraints ++ n.constraints ∧ merged.unique = into.unique ++ n.unique ∧
      merged.mutuallyExclusive = into.mutuallyExclusive ++ n.mutuallyExclusive := by
  obtain ⟨d,i,x,cs,k,u,m⟩ := n
  obtain ⟨d',i',x',cs',k',u',m'⟩ := merged
  rw [mergeNode]
  simp only [bind_eq_ok,pure,Except.pure,Except.ok.injEq,RawNode.mk.injEq]
  constructor
  · rintro ⟨d',hd,cs',hcs,rfl,rfl,rfl,rfl,rfl,rfl,rfl⟩
    exact ⟨hd,hcs,rfl,rfl,rfl,rfl,rfl⟩
  · rintro ⟨hd,hcs,rfl,rfl,rfl,rfl,rfl⟩
    exact ⟨d',hd,cs',hcs,rfl,rfl,rfl,rfl,rfl,rfl,rfl⟩

/-- The path of a child. -/
def childAt (at_ name : String) : String := if at_ = "" then name else at_ ++ " " ++ name

/-- The first child is merged with the one of its name, if there is one. -/
theorem mergeChildren_cons {mode : Mode} {at_ name : String} {node : RawNode} {into rest merged : List (String × RawNode)} :
    mergeChildren mode at_ into ((name,node)::rest) = .ok merged ↔ ∃ first,
      (∀ existing, into.lookup name = some existing →
        mergeNode mode (childAt at_ name) existing node = .ok first) ∧
      (into.lookup name = none → first = node) ∧
      mergeChildren mode at_ (insertKey name first into) rest = .ok merged := by
  rw [mergeChildren,← childAt]
  cases into.lookup name with
  | none => simp
  | some existing => simp [bind_eq_ok]

theorem sorted_mergeChildren_of {mode : Mode} {at_ : String} {into cs merged : List (String × RawNode)}
    (hnode : ∀ e ∈ cs, ∀ at_ into merged, RawNode.Ordered into → mergeNode mode at_ into e.2 = .ok merged →
      merged.Ordered)
    (hinto : Sorted into) (hcs : ∀ e ∈ cs, e.2.Ordered) (h : mergeChildren mode at_ into cs = .ok merged) :
    Sorted merged := by
  induction cs generalizing into with
  | nil =>
    rw [mergeChildren] at h
    exact Except.ok.inj h ▸ hinto
  | cons e cs ih =>
    obtain ⟨first,hsome,hnone,hrest⟩ := mergeChildren_cons.mp h
    have hfirst : first.Ordered := by
      cases hlookup : into.lookup e.1 with
      | none => exact hnone hlookup ▸ hcs e List.mem_cons_self
      | some existing => exact hnode e List.mem_cons_self _ _ _ (hinto.lookup hlookup) (hsome existing hlookup)
    exact ih (fun e he => hnode e (List.mem_cons_of_mem _ he)) (hinto.insert hfirst)
      (fun e he => hcs e (List.mem_cons_of_mem _ he)) hrest

theorem ordered_mergeNode {mode : Mode} {at_ : String} {into n merged : RawNode} (hinto : into.Ordered)
    (hn : n.Ordered) (h : mergeNode mode at_ into n = .ok merged) : merged.Ordered := by
  induction n using RawNode.induct generalizing at_ into merged with
  | node n ih =>
    obtain ⟨-,hchildren,-⟩ := mergeNode_eq_ok.mp h
    rw [RawNode.ordered_iff] at hinto hn ⊢
    have hcs := RawNode.orderedAll_iff.mp hn.1
    exact sorted_mergeChildren_of (fun e he at_ into merged hi hm => ih e he hi (hcs e he) hm) hinto hcs hchildren

/-- Merged children are in order. -/
theorem sorted_mergeChildren {mode : Mode} {at_ : String} {into cs merged : List (String × RawNode)}
    (hinto : Sorted into) (hcs : Sorted cs) (h : mergeChildren mode at_ into cs = .ok merged) : Sorted merged := by
  have hall := RawNode.orderedAll_iff.mp hcs.1
  exact sorted_mergeChildren_of (fun e he _ _ _ hi hm => ordered_mergeNode hi (hall e he) hm) hinto hall h

section
variable {tools : Tools} {templates : List (String × List (String × RawNode))}
  (htemplates : ∀ template ∈ templates, Sorted template.2)
include htemplates

/-- What is included from templates is in order. -/
theorem sorted_expandIncludes {at_ : String} {includes : List String} {own expanded : List (String × RawNode)}
    (hown : Sorted own) (h : expandIncludes templates at_ includes own = .ok expanded) : Sorted expanded := by
  unfold expandIncludes at h
  split at h
  · exact Except.ok.inj h ▸ hown
  · obtain ⟨included,hincluded,hoverlay⟩ := bind_eq_ok.mp h
    refine sorted_mergeChildren ?_ hown hoverlay
    refine foldlM_invariant (P := Sorted) (fun name _ s s' hs hstep => ?_) sorted_nil hincluded
    cases hlookup : templates.lookup name with
    | none => simp [hlookup] at hstep
    | some template =>
      rw [hlookup] at hstep
      exact sorted_mergeChildren hs (htemplates (name,template) (lookup_mem hlookup)) hstep

omit htemplates in
theorem sorted_dropExcluded {at_ : String} {excludes : List String} {children kept : List (String × RawNode)}
    (hchildren : Sorted children) (h : dropExcluded at_ excludes children = .ok kept) : Sorted kept := by
  refine foldlM_invariant (P := Sorted) (fun name _ s s' hs hstep => ?_) hchildren h
  split at hstep
  · cases hstep
  · obtain rfl := Except.ok.inj hstep
    refine ⟨RawNode.orderedAll_iff.mpr (fun e he => ?_),keySorted_eraseKey name hs.2⟩
    exact RawNode.orderedAll_iff.mp hs.1 e (List.mem_filter.mp he).1

/-- What a conversion that succeeds is made of. -/
theorem convert_eq_ok {fuel : ℕ} {raw : RawNode} {at_ : String} {inherited : ℕ} {node : SchemaNode}
    (hraw : raw.Ordered) : convert tools templates (fuel+1) raw at_ inherited = .ok node ↔
      ∃ expanded rawChildren s, expandIncludes templates at_ raw.includes raw.children = .ok expanded ∧
        dropExcluded at_ raw.excludes expanded = .ok rawChildren ∧ shell tools raw at_ inherited = .ok s ∧
        checkChildren raw.definition.kind s.kind rawChildren at_ = .ok () ∧
        List.Forall₂ (fun e c => c.1 = e.1 ∧
          convert tools templates fuel e.2 (at_ ++ " " ++ e.1) s.priority = .ok c.2) rawChildren node.children ∧
        checkRules s.kind raw.unique raw.mutuallyExclusive node.children at_ = .ok () ∧
        List.Forall₂ (fun c k => constraint tools at_ c = .ok k) raw.constraints node.constraints ∧
        checkDefault s.kind node.default at_ = .ok () ∧
        node = {
          kind := s.kind
          default := raw.definition.default.map (Scalar.intoString tools)
          secret := raw.definition.secret.getD false
          required := raw.definition.required.getD false
          priority := s.priority
          children := node.children
          constraints := node.constraints
          unique := raw.unique
          exclusive := raw.mutuallyExclusive } := by
  rw [convert]
  simp only [bind_eq_ok,mapM_eq_ok,pure,Except.pure,Except.ok.injEq]
  constructor
  · rintro ⟨expanded,hexpanded,rawChildren,hraws,s,hs,_,hcheck,children,hchildren,_,hrules,constraints,hconstraints,
      _,hdefault,rfl⟩
    have hsorted := sorted_dropExcluded (sorted_expandIncludes htemplates (RawNode.ordered_iff.mp hraw) hexpanded) hraws
    obtain ⟨made,rfl,hmade⟩ := (foldlM_insertKey_eq_ok hsorted.2 (by simp)).mp hchildren
    exact ⟨expanded,rawChildren,s,hexpanded,hraws,hs,hcheck,hmade,hrules,hconstraints,hdefault,rfl⟩
  · rintro ⟨expanded,rawChildren,s,hexpanded,hraws,hs,hcheck,hmade,hrules,hconstraints,hdefault,hnode⟩
    have hsorted := sorted_dropExcluded (sorted_expandIncludes htemplates (RawNode.ordered_iff.mp hraw) hexpanded) hraws
    rw [hnode] at hdefault
    exact ⟨expanded,hexpanded,rawChildren,hraws,s,hs,(),hcheck,node.children,
      (foldlM_insertKey_eq_ok hsorted.2 (by simp)).mpr ⟨node.children,rfl,hmade⟩,(),hrules,node.constraints,
      hconstraints,(),hdefault,hnode.symm⟩

end

/-! ### Files -/

/-- Templates of another file; a name may be taken once. -/
def mergeTemplates (into templates : List (String × List (String × RawNode))) :
    Except SchemaError (List (String × List (String × RawNode))) :=
  templates.foldlM (fun into template =>
    if (into.lookup template.1).isSome then .error (.conflict ("templates " ++ template.1) "template")
    else .ok (insertKey template.1 template.2 into)) into

theorem sorted_mergeTemplates {into templates merged : List (String × List (String × RawNode))}
    (hinto : KeySorted into ∧ ∀ template ∈ into, Sorted template.2)
    (htemplates : ∀ template ∈ templates, Sorted template.2) (h : mergeTemplates into templates = .ok merged) :
    KeySorted merged ∧ ∀ template ∈ merged, Sorted template.2 := by
  refine foldlM_invariant (P := fun s => KeySorted s ∧ ∀ template ∈ s, Sorted template.2)
    (fun template htemplate s s' hs hstep => ?_) hinto h
  split at hstep
  · cases hstep
  · obtain rfl := Except.ok.inj hstep
    refine ⟨keySorted_insertKey _ _ hs.1,fun other hother => ?_⟩
    obtain rfl | hother := mem_insertKey hother
    · exact htemplates template htemplate
    · exact hs.2 other hother

namespace RawFile

theorem templatesOrdered_nil : KeySorted ([] : List (String × List (String × RawNode))) ∧
    ∀ template ∈ ([] : List (String × List (String × RawNode))), Sorted template.2 :=
  ⟨keySorted_nil,List.forall_mem_nil _⟩

/-- A document with nothing in it. -/
def empty : RawFile := ⟨[],[],[],templatesOrdered_nil,sorted_nil⟩

/-- A document with another file taken into it. -/
def absorb (file other : RawFile) : Except SchemaError RawFile :=
  match h : mergeTemplates file.templates other.templates with
  | .error e => .error e
  | .ok templates =>
    match h' : mergeChildren .strict "" file.nodes other.nodes with
    | .error e => .error e
    | .ok nodes => .ok {
        templates := templates
        nodes := nodes
        globals := file.globals ++ other.globals
        templatesOrdered := sorted_mergeTemplates file.templatesOrdered other.templatesOrdered.2 h
        nodesOrdered := sorted_mergeChildren file.nodesOrdered other.nodesOrdered h' }

end RawFile

section
variable (tools : Tools) (fuel : ℕ)

/-- The schema of a whole document. -/
def build (raw : RawFile) : Except SchemaError Schema := do
  let children ← raw.nodes.foldlM (fun children node => do
    let converted ← convert tools raw.templates fuel node.2 node.1 DEFAULT_PRIORITY
    return insertKey node.1 converted children) []
  let globals ← raw.globals.mapM (globalConstraint "global-constraints")
  return {
    root := {
      kind := .container
      default := none
      secret := false
      required := false
      priority := DEFAULT_PRIORITY
      children := children
      constraints := []
      unique := []
      exclusive := [] }
    globals := globals }

/-- One file read and taken in. -/
def absorbSource (merged : RawFile) (source : String × String) : Except SchemaError RawFile :=
  match tools.parse source.2 with
  | .error e => .error (.yaml source.1 e)
  | .ok parsed => merged.absorb parsed

/-- The schema of files in the order in which they are given. -/
def loadOrdered (sources : List (String × String)) : Except SchemaError Schema := do
  build tools fuel (← sources.foldlM (absorbSource tools) .empty)

/-- The schema of files, in the order of their names. -/
def loadSources (sources : List (String × String)) : Except SchemaError Schema :=
  loadOrdered tools fuel (sources.insertionSort (fun a b => a.1 ≤ b.1))

end

/-- What the schema of a whole document is made of. -/
theorem build_eq_ok {tools : Tools} {fuel : ℕ} {raw : RawFile} {schema : Schema} :
    build tools fuel raw = .ok schema ↔
      List.Forall₂ (fun e c => c.1 = e.1 ∧
        convert tools raw.templates fuel e.2 e.1 DEFAULT_PRIORITY = .ok c.2) raw.nodes schema.root.children ∧
      List.Forall₂ (fun g k => globalConstraint "global-constraints" g = .ok k) raw.globals schema.globals ∧
      schema.root = {
        kind := .container
        default := none
        secret := false
        required := false
        priority := DEFAULT_PRIORITY
        children := schema.root.children
        constraints := []
        unique := []
        exclusive := [] } := by
  unfold build
  simp only [bind_eq_ok,mapM_eq_ok,pure,Except.pure,Except.ok.injEq]
  constructor
  · rintro ⟨children,hchildren,globals,hglobals,rfl⟩
    obtain ⟨made,rfl,hmade⟩ := (foldlM_insertKey_eq_ok raw.nodesOrdered.2 (by simp)).mp hchildren
    exact ⟨hmade,hglobals,rfl⟩
  · rintro ⟨hmade,hglobals,hroot⟩
    refine ⟨schema.root.children,(foldlM_insertKey_eq_ok raw.nodesOrdered.2 (by simp)).mpr ⟨_,rfl,hmade⟩,
      schema.globals,hglobals,?_⟩
    rw [← hroot]

end Loader
end Nightshade.Schema
