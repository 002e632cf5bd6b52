import Mathlib
import Nightshade.Schema.Config
import Nightshade.Schema.Model

/-! Checking a configuration against the schema: one `set`, the structure and types of a whole
tree, and the rules that involve more than one node. -/
namespace Nightshade.Schema

/-- Something wrong with a configuration, and where. -/
structure ConstraintViolation where
  path : Path
  message : String
  deriving Repr, DecidableEq

def ConstraintViolation.display (v : ConstraintViolation) : String := v.path.display ++ ": " ++ v.message

/-- Why a single `set` was refused. -/
inductive SetError where
  | unknownPath (path : Path)
  | valueRequired (path : Path) (expected : String)
  | unexpectedValue (path : Path)
  | badValue (path : Path) (source : ValueError)
  | badName (path : Path) (source : ValueError)
  | notSettable (path : Path)
  /-- The schema accepted it and the tree would not take it. -/
  | rejected (path : Path) (message : String)
  deriving Repr, DecidableEq

def SetError.message : SetError → String
  | .unknownPath path => "`" ++ path.display ++ "` is not a configuration path"
  | .valueRequired path expected => "`" ++ path.display ++ "` takes a value: " ++ expected
  | .unexpectedValue path => "`" ++ path.display ++ "` takes no value"
  | .badValue path source | .badName path source => "`" ++ path.display ++ "`: " ++ source.message
  | .notSettable path => "`" ++ path.display ++ "` groups other settings; set one of them instead"
  | .rejected path message => "`" ++ path.display ++ "`: " ++ message

inductive DeleteError where
  | unknownPath (path : Path)
  | notConfigured (path : Path)
  | noSuchValue (path : Path) (value : String)
  deriving Repr, DecidableEq

def DeleteError.message : DeleteError → String
  | .unknownPath path => "`" ++ path.display ++ "` is not a configuration path"
  | .notConfigured path => "`" ++ path.display ++ "` is not configured"
  | .noSuchValue path value => "`" ++ path.display ++ "` does not have the value " ++ Value.debug value

/-! ### Paths that patterns stand for -/

/-- The concrete paths that a pattern stands for in a configuration. -/
def expand (tree : ConfigTree) (pattern : PathPattern) (current : Option String) : List Path :=
  pattern.foldl (fun here segment => here.flatMap (fun path =>
    match segment with
    | .literal name => if tree.contains (path.child name) then [path.child name] else []
    | .current =>
      match current with
      | some key => if tree.contains (path.child key) then [path.child key] else []
      | none => []
    | .any => (((tree.get path).bind Node.children).getD []).map (fun e => path.child e.1)))
    [Path.root]

/-- What a concrete path contributes to a value set: a leaf its values, anything else its name. -/
def contributed (tree : ConfigTree) (path : Path) : List String :=
  match tree.valuesAt path with
  | some values => values
  | none => path.getLast?.toList

def patternValues (tree : ConfigTree) (pattern : PathPattern) (current : Option String) :
    List String :=
  (expand tree pattern current).flatMap (contributed tree)

/-- The instance a referring leaf belongs to. -/
def ownerName (path : Path) : String := (path.dropLast.getLast?).getD path.display

/-- Replace every occurrence of one text by another, from left to right. -/
def replaceAll (old new : List Char) : ℕ → List Char → List Char
  | _, [] => []
  | 0, c::rest =>
    if old.isPrefixOf (c::rest) then new ++ replaceAll old new (old.length-1) rest
    else c::replaceAll old new 0 rest
  | skip+1, _::rest => replaceAll old new skip rest

/-- Substitution of names in braces in a message of the schema. -/
def fill (template : String) (pairs : List (String × String)) : String :=
  String.ofList (pairs.foldl (fun out p =>
    replaceAll ("\x7b" ++ p.1 ++ "\x7d").toList p.2.toList 0 out) template.toList)

namespace Schema

/-- Add every default below a node that stands outside a tag node. -/
def setDefault (tree : ConfigTree) (at_ : Path) (value : String) : ConfigTree := (tree.set at_ value).2

mutual

def collectDefaults (at_ : Path) (tree : ConfigTree) : SchemaNode → ConfigTree
  | ⟨.container,_,_,_,_,cs,_,_,_⟩ => collectDefaultsAll at_ tree cs
  | ⟨.leaf _,some default,_,_,_,_,_,_,_⟩ | ⟨.multiLeaf _,some default,_,_,_,_,_,_,_⟩ =>
    setDefault tree at_ default
  | _ => tree
termination_by structural n => n

def collectDefaultsAll (at_ : Path) (tree : ConfigTree) : List (String × SchemaNode) → ConfigTree
  | [] => tree
  | (name,n)::rest => collectDefaultsAll at_ (collectDefaults (at_.child name) tree n) rest
termination_by structural cs => cs

end

/-- A configuration holding every default that applies unconditionally. -/
def defaults (schema : Schema) : ConfigTree := collectDefaults Path.root .new schema.root

/-- Walk down a path checking every tag key on the way. -/
def walk : Location → Path → Path → Except SetError Location
  | location, _, [] => .ok location
  | location, walked, segment::rest =>
    let soFar := walked.child segment
    match location with
    | .node n =>
      match n.kind with
      | .container =>
        match n.child segment with
        | some child => walk (.node child) soFar rest
        | none => .error (.unknownPath soFar)
      | .tag value =>
        match value.check segment with
        | .ok () => walk (.inst n) soFar rest
        | .error source => .error (.badName soFar source)
      | .leaf _ | .multiLeaf _ | .flag => .error (.unknownPath soFar)
    | .inst tag =>
      match tag.child segment with
      | some child => walk (.node child) soFar rest
      | none => .error (.unknownPath soFar)
    | .value _ => .error (.unknownPath soFar)

/-- Validate one `set`. There is no value for a flag and for creating a bare tag instance. -/
def validateSet (schema : Schema) (path : Path) (value : Option String) : Except SetError Unit :=
  match walk (.node schema.root) Path.root path with
  | .error e => .error e
  | .ok location =>
    match location, value with
    | .node n, some value =>
      match n.kind with
      | .leaf spec | .multiLeaf spec => (spec.check value).mapError (.badValue path)
      | .flag => .error (.unexpectedValue path)
      | .container | .tag _ => .error (.unknownPath (path.child value))
    | .node n, none =>
      match n.kind with
      | .flag => .ok ()
      | .leaf spec | .multiLeaf spec => .error (.valueRequired path spec.placeholder)
      | .container => .error (.notSettable path)
      | .tag value => .error (.valueRequired path value.placeholder)
    | .inst _, none => .ok ()
    | .inst _, some value => .error (.unknownPath (path.child value))
    | .value _, _ => .error (.unknownPath path)

def isMultiLeaf (schema : Schema) (path : Path) : Bool :=
  match schema.resolve path with
  | some (.node n) =>
    match n.kind with
    | .multiLeaf _ => true
    | _ => false
  | _ => false

/-- Validate a `set` and apply it. -/
def applySet (schema : Schema) (config : ConfigTree) (path : Path) (value : Option String) :
    Except SetError Unit × ConfigTree :=
  match schema.validateSet path value with
  | .error e => (.error e,config)
  | .ok () =>
    let r :=
      match value with
      | some value => if schema.isMultiLeaf path then config.add path value else config.set path value
      | none =>
        match schema.resolve path with
        | some (.inst _) => config.ensureInterior path
        | _ => config.setFlag path
    (r.1.mapError (fun e => .rejected path e.message),r.2)

/-- Remove a node, or one value of a multi-leaf. -/
def applyDelete (schema : Schema) (config : ConfigTree) (path : Path) (value : Option String) :
    Except DeleteError Unit × ConfigTree :=
  if (schema.resolve path).isNone then (.error (.unknownPath path),config)
  else
    match value with
    | some value =>
      let r := config.removeValue path value
      (if r.1 then .ok () else .error (.noSuchValue path value),r.2)
    | none =>
      let r := config.remove path
      (if r.1 then .ok () else .error (.notConfigured path),r.2)

/-! ### Structure and types -/

def notInterior (at_ : Path) : ConstraintViolation :=
  ⟨at_,"groups other settings, so it cannot hold a value"⟩

/-- What a leaf has to say about the values it was given. -/
def checkValues (at_ : Path) (spec : ValueSpec) (multi : Bool) (values : List String) :
    List ConstraintViolation :=
  (if values.isEmpty then [⟨at_,"needs a value: " ++ spec.placeholder⟩]
   else if !multi && 1 < values.length then
     [⟨at_,"takes one value but has " ++ toString values.length ++ ": " ++ ", ".intercalate values⟩]
   else []) ++
  values.flatMap (fun value =>
    match spec.check value with
    | .ok () => []
    | .error e => [⟨at_,e.message⟩])

mutual

/-- Structure and types of a node that the schema places at a location. -/
def checkTypes (location : Location) (at_ : Path) : Node → List ConstraintViolation
  | ⟨_,.values vs⟩ =>
    match location with
    | .value _ => []
    | .inst _ => [notInterior at_]
    | .node n =>
      match n.kind with
      | .container | .tag _ => [notInterior at_]
      | .leaf spec => checkValues at_ spec false vs
      | .multiLeaf spec => checkValues at_ spec true vs
      | .flag =>
        if vs.isEmpty then []
        else [⟨at_,"takes no value, but was given " ++ ", ".intercalate vs⟩]
  | ⟨_,.interior cs⟩ =>
    match location with
    | .value _ => []
    | .inst tag => descend tag at_ cs
    | .node n =>
      match n.kind with
      | .container => descend n at_ cs
      | .tag value => checkInstances n value at_ cs
      | .leaf _ | .multiLeaf _ => [⟨at_,"takes a value, but has child nodes"⟩]
      | .flag => [⟨at_,"takes no value and has no settings under it"⟩]
termination_by structural n => n

def descend (n : SchemaNode) (at_ : Path) : List (String × Node) → List ConstraintViolation
  | [] => []
  | (name,child)::rest =>
    (match n.child name with
     | some schemaChild => checkTypes (.node schemaChild) (at_.child name) child
     | none => [⟨at_.child name,"is not a configuration path"⟩]) ++ descend n at_ rest
termination_by structural cs => cs

def checkInstances (n : SchemaNode) (value : ValueSpec) (at_ : Path) :
    List (String × Node) → List ConstraintViolation
  | [] => []
  | (key,inst)::rest =>
    (match value.check key with
     | .error e => [⟨at_.child key,e.message⟩]
     | .ok () => checkTypes (.inst n) (at_.child key) inst) ++ checkInstances n value at_ rest
termination_by structural cs => cs

end

/-- Structure and types over a whole configuration. -/
def validateTree (schema : Schema) (config : ConfigTree) : List ConstraintViolation :=
  checkTypes (.node schema.root) Path.root config.root

/-! ### Cross-node constraints -/

def checkConstraint (constraint : Constraint) (config : Node) (at_ : Path) (current : Option String)
    (tree : ConfigTree) : List ConstraintViolation :=
  match constraint with
  | .valueInPathSet paths message =>
    let allowed := paths.flatMap (fun p => patternValues tree p current)
    (config.valueSet.getD []).flatMap (fun value =>
      if allowed.contains value then []
      else [⟨at_,fill message [("value",value),("path",at_.display)]⟩])
  | .pathExists path message =>
    if (expand tree path current).isEmpty then [⟨at_,fill message [("path",path.display)]⟩] else []
  | .pathHasValue path value message =>
    if (expand tree path current).any (fun p => (tree.valuesAt p).any (fun v => v.contains value)) then []
    else [⟨at_,fill message [("path",path.display),("value",value)]⟩]

def checkRequired (n : SchemaNode) (children : List (String × Node)) (at_ : Path) :
    List ConstraintViolation :=
  n.children.flatMap (fun e =>
    if e.2.required && (children.lookup e.1).isNone then
      [⟨at_.child e.1,"is required but is not set"⟩]
    else [])

def checkExclusive (n : SchemaNode) (children : List (String × Node)) (at_ : Path) :
    List ConstraintViolation :=
  n.exclusive.flatMap (fun group =>
    let set := group.filter (fun name => (children.lookup name).isSome)
    if 1 < set.length then [⟨at_," and ".intercalate set ++ " cannot both be set"⟩] else [])

/-- The values of a tuple of leaves in an instance, when all of them are there. -/
def tupleValues (inst : Node) (tuple : List String) : Option (List String) :=
  tuple.mapM (fun name => (inst.children.bind (fun cs => cs.lookup name)).bind Node.value)

/-- Tuples that must be unique across a tag node's instances. -/
def checkUnique (n : SchemaNode) (instances : List (String × Node)) (at_ : Path) :
    List ConstraintViolation :=
  n.unique.flatMap (fun tuple =>
    (instances.foldl (fun (acc : List (List String × String) × List ConstraintViolation) e =>
      match tupleValues e.2 tuple with
      | none => acc
      | some values =>
        match acc.1.lookup values with
        | some other =>
          (acc.1,acc.2 ++ [⟨at_.child e.1,"has the same " ++ " and ".intercalate tuple ++ " as " ++ other ++
            " (" ++ ", ".intercalate values ++ ")"⟩])
        | none => ((values,e.1)::acc.1,acc.2)) ([],[])).2)

mutual

def checkCross (tree : ConfigTree) (location : Location) (at_ : Path) (current : Option String) :
    Node → List ConstraintViolation
  | ⟨c,.values vs⟩ =>
    match location with
    | .value _ => []
    | .node n | .inst n =>
      n.constraints.flatMap (fun k => checkConstraint k ⟨c,.values vs⟩ at_ current tree)
  | ⟨c,.interior cs⟩ =>
    match location with
    | .value _ => []
    | .node n =>
      n.constraints.flatMap (fun k => checkConstraint k ⟨c,.interior cs⟩ at_ current tree) ++
      (if n.isTag then checkUnique n cs at_ ++ crossInstances tree n at_ cs
       else checkRequired n cs at_ ++ checkExclusive n cs at_ ++ crossChildren tree n at_ current cs)
    | .inst n =>
      n.constraints.flatMap (fun k => checkConstraint k ⟨c,.interior cs⟩ at_ current tree) ++
      checkRequired n cs at_ ++ checkExclusive n cs at_ ++ crossChildren tree n at_ current cs
termination_by structural n => n

def crossInstances (tree : ConfigTree) (n : SchemaNode) (at_ : Path) :
    List (String × Node) → List ConstraintViolation
  | [] => []
  | (key,inst)::rest =>
    checkCross tree (.inst n) (at_.child key) (some key) inst ++ crossInstances tree n at_ rest
termination_by structural cs => cs

def crossChildren (tree : ConfigTree) (n : SchemaNode) (at_ : Path) (current : Option String) :
    List (String × Node) → List ConstraintViolation
  | [] => []
  | (name,child)::rest =>
    (match n.child name with
     | some schemaChild => checkCross tree (.node schemaChild) (at_.child name) current child
     | none => []) ++ crossChildren tree n at_ current rest
termination_by structural cs => cs

end

/-- Every value found at the patterns, with the paths that named it, in the order of values. -/
def claimed (tree : ConfigTree) (paths : List PathPattern) : List (String × List Path) :=
  (paths.flatMap (fun pattern => (expand tree pattern none).flatMap (fun path =>
    (contributed tree path).map (fun value => (value,path))))).foldl
    (fun claims e => Foundation.insertKey e.1 (((claims.lookup e.1).getD []) ++ [e.2]) claims) []

def checkGlobal (tree : ConfigTree) : GlobalConstraint → List ConstraintViolation
  | .uniqueAcross paths message =>
    (claimed tree paths).flatMap (fun (value,referrers) =>
      if referrers.length < 2 then []
      else
        let referrers := referrers.insertionSort (· ≤ ·)
        let names := referrers.map ownerName
        referrers.map (fun referrer =>
          ⟨referrer,fill message [("value",value),("referrers",", ".intercalate names)]⟩))
  | .forbidChildOnReferenced references search forbid message =>
    references.flatMap (fun pattern => (expand tree pattern none).flatMap (fun referrer =>
      (contributed tree referrer).flatMap (fun value => search.flatMap (fun base =>
        (expand tree base none).flatMap (fun basePath =>
          let target := (basePath.child value).child forbid
          if tree.contains target then
            [⟨target,fill message [("value",value),("referrer",ownerName referrer),
              ("referrer-path",referrer.display)]⟩]
          else [])))))

/-- Everything that involves more than one node. -/
def checkConstraints (schema : Schema) (config : ConfigTree) : List ConstraintViolation :=
  ((checkCross config (.node schema.root) Path.root none config.root ++
    schema.globals.flatMap (checkGlobal config)).insertionSort
    (fun a b => toLex (a.path,a.message) ≤ toLex (b.path,b.message))).destutter (· ≠ ·)

end Schema
end Nightshade.Schema
