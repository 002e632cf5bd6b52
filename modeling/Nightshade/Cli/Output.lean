import Nightshade.Foundation.Json
import Nightshade.Schema.Curly
import Nightshade.Schema.Model
import Nightshade.Configd.Message

/-! What a command has to show: one value, rendered as text or as JSON. -/
namespace Nightshade.Cli
open Schema Configd Foundation

/-- What stands in place of a secret. -/
def MASK : String := "****"

/-- The reports on interfaces are values of a type of their own. -/
inductive Output (I : Type) where
  | nothing
  /-- Text that is formatted already. -/
  | text (text : String)
  /-- A configuration. -/
  | config (tree : ConfigTree)
  /-- A candidate, marked up against the running configuration. -/
  | configDiff (candidate running : ConfigTree)
  | changes (changes : List Change)
  | revisions (revisions : List RevisionInfo)
  | interfaces (report : I)

/-- How to render, decided once for each command. -/
structure Style where
  schema : Schema
  colour : Bool
  secrets : Bool

/-! ### Masking -/

/-- Whether the node at a path is one that the schema marks secret. -/
def isSecret (schema : Schema) (path : Path) : Bool :=
  match schema.resolve path with
  | some (.node n) => n.secret
  | _ => false

mutual

def maskNode (schema : Schema) (at_ : Path) : Node → Node
  | ⟨c,.values vs⟩ => ⟨c,.values (if isSecret schema at_ && !vs.isEmpty then [MASK] else vs)⟩
  | ⟨c,.interior cs⟩ => ⟨c,.interior (maskAll schema at_ cs)⟩
termination_by structural n => n

def maskAll (schema : Schema) (at_ : Path) : List (String × Node) → List (String × Node)
  | [] => []
  | (name,child)::rest => (name,maskNode schema (at_.child name) child)::maskAll schema at_ rest
termination_by structural cs => cs

end

theorem maskAll_eq (schema : Schema) (at_ : Path) (cs : List (String × Node)) :
    maskAll schema at_ cs = cs.map (fun e => (e.1,maskNode schema (at_.child e.1) e.2)) := by
  induction cs with
  | nil => rfl
  | cons e cs ih => rw [maskAll,ih,List.map_cons]

theorem ordered_maskAll {schema : Schema} {at_ : Path} {c d : Option String} {cs : List (String × Node)}
    (hnodes : ∀ e ∈ cs, ∀ path, e.2.Ordered → (maskNode schema path e.2).Ordered)
    (h : Node.Ordered ⟨c,.interior cs⟩) : Node.Ordered ⟨d,.interior (maskAll schema at_ cs)⟩ := by
  obtain ⟨hsorted,hall⟩ := Node.ordered_interior.mp h
  refine Node.ordered_interior.mpr ⟨?_,fun e he => ?_⟩
  · rw [maskAll_eq]
    exact List.pairwise_map.mpr hsorted
  · rw [maskAll_eq] at he
    obtain ⟨e,hmem,rfl⟩ := List.mem_map.mp he
    exact hnodes e hmem _ (hall e hmem)

theorem ordered_maskNode (schema : Schema) (n : Node) :
    ∀ at_, n.Ordered → (maskNode schema at_ n).Ordered := by
  induction n using Node.induct with
  | values c vs =>
    intro at_ h
    rw [maskNode,Node.ordered_values]
    split_ifs with hsecret
    · exact List.pairwise_singleton _ _
    · exact Node.ordered_values.mp h
  | interior c cs ih =>
    intro at_ h
    rw [maskNode]
    exact ordered_maskAll ih h

theorem root_eq (tree : ConfigTree) : tree.root = ⟨tree.root.comment,.interior tree.children⟩ := by
  have hinterior := tree.interior
  unfold ConfigTree.children
  cases hroot : tree.root with
  | mk c body =>
    rw [hroot] at hinterior
    cases body with
    | interior cs => rfl
    | values vs => exact absurd hinterior (by simp [Node.isInterior])

/-- Replace the values of the nodes that the schema marks secret. The comment of the whole
configuration is not kept. -/
def maskSecrets (schema : Schema) (tree : ConfigTree) : ConfigTree where
  root := ⟨none,.interior (maskAll schema Path.root tree.children)⟩
  interior := rfl
  ordered := ordered_maskAll (fun e _ => ordered_maskNode schema e.2) (root_eq tree ▸ tree.ordered)

def prepare (style : Style) (tree : ConfigTree) : ConfigTree :=
  if style.secrets then tree else maskSecrets style.schema tree

/-! ### The candidate against the running configuration -/

inductive Edit where
  | same (line : List Char)
  | added (line : List Char)
  | removed (line : List Char)
  deriving DecidableEq

namespace Edit

/-- The line of the first text that an edit stands for. -/
def before : Edit → Option (List Char)
  | same line | removed line => some line
  | added _ => none

/-- The line of the second text. -/
def after : Edit → Option (List Char)
  | same line | added line => some line
  | removed _ => none

end Edit

namespace LineDiff

/-- The lengths of the longest common subsequences from one line on, from those of the lines
below it. -/
def row (line : List Char) : List (List Char) → List ℕ → List ℕ
  | b::after, below::rest =>
    let right := row line after rest
    (if line = b then rest.headD 0+1 else max below (right.headD 0))::right
  | _, _ => [0]

/-- A row for each line of the first text, and one behind the last. -/
def lengths (after : List (List Char)) : List (List Char) → List (List ℕ)
  | [] => [List.replicate (after.length+1) 0]
  | line::before =>
    let below := lengths after before
    row line after (below.headD [])::below

/-- The way back through the lengths. The first two arguments count the lines gone by. -/
def walk (table : List (List ℕ)) (i j : ℕ) : List (List Char) → List (List Char) → List Edit
  | b::before, a::after =>
    if b = a then .same a::walk table (i+1) (j+1) before after
    else if (table.getD i []).getD (j+1) 0 ≤ (table.getD (i+1) []).getD j 0 then
      .removed b::walk table (i+1) j before (a::after)
    else .added a::walk table i (j+1) (b::before) after
  | before, after => before.map .removed ++ after.map .added
termination_by before after => before.length + after.length

theorem walk_before (table : List (List ℕ)) (i j : ℕ) (before after : List (List Char)) :
    (walk table i j before after).filterMap Edit.before = before := by
  induction i, j, before, after using walk.induct table with
  | case1 i j b before after ih =>
    rw [walk,if_pos rfl,List.filterMap_cons,Edit.before,ih]
  | case2 i j b before a after hne hle ih =>
    rw [walk,if_neg hne,if_pos hle,List.filterMap_cons,Edit.before,ih]
  | case3 i j b before a after hne hle ih =>
    rw [walk,if_neg hne,if_neg hle,List.filterMap_cons,Edit.before,ih]
  | case4 i j before after hend =>
    rw [walk]
    · simp [List.filterMap_append,List.filterMap_map,Function.comp_def,Edit.before]
    · exact hend

theorem walk_after (table : List (List ℕ)) (i j : ℕ) (before after : List (List Char)) :
    (walk table i j before after).filterMap Edit.after = after := by
  induction i, j, before, after using walk.induct table with
  | case1 i j b before after ih =>
    rw [walk,if_pos rfl,List.filterMap_cons,Edit.after,ih]
  | case2 i j b before a after hne hle ih =>
    rw [walk,if_neg hne,if_pos hle,List.filterMap_cons,Edit.after,ih]
  | case3 i j b before a after hne hle ih =>
    rw [walk,if_neg hne,if_neg hle,List.filterMap_cons,Edit.after,ih]
  | case4 i j before after hend =>
    rw [walk]
    · simp [List.filterMap_append,List.filterMap_map,Function.comp_def,Edit.after]
    · exact hend

end LineDiff

/-- Longest common subsequence, then a walk back through it. -/
def lineDiff (before after : List (List Char)) : List Edit :=
  LineDiff.walk (LineDiff.lengths after before) 0 0 before after

/-- What is marked is both texts: without the additions the one, without the removals the other. -/
theorem lineDiff_texts (before after : List (List Char)) :
    (lineDiff before after).filterMap Edit.before = before ∧
    (lineDiff before after).filterMap Edit.after = after :=
  ⟨LineDiff.walk_before _ 0 0 before after,LineDiff.walk_after _ 0 0 before after⟩

def RESET : String := "\x1b[0m"
def RED : String := "\x1b[31m"
def GREEN : String := "\x1b[32m"

/-- A line with its mark, in a colour unless it is in both texts. -/
def markLine (style : Style) (edit : Edit) : String :=
  let plain := fun (marker : String) (line : List Char) => marker ++ String.ofList line
  match style.colour, edit with
  | _, .same line => plain " " line ++ "\n"
  | true, .added line => GREEN ++ plain "+" line ++ RESET ++ "\n"
  | true, .removed line => RED ++ plain "-" line ++ RESET ++ "\n"
  | false, .added line => plain "+" line ++ "\n"
  | false, .removed line => plain "-" line ++ "\n"

/-- The lines of a configuration as it is shown. -/
def shownLines (style : Style) (tree : ConfigTree) : List (List Char) :=
  Lexer.lines (Schema.render (prepare style tree) style.schema.isTagNode).toList

def markedUp (candidate running : ConfigTree) (style : Style) : String :=
  String.join ((lineDiff (shownLines style running) (shownLines style candidate)).map (markLine style))

/-! ### JSON -/

mutual

/-- Objects for nodes, arrays for values. -/
def nodeJson : Node → Json
  | ⟨_,.values vs⟩ => .array (vs.map .string)
  | ⟨_,.interior cs⟩ => .object (fieldsJson cs)
termination_by structural n => n

def fieldsJson : List (String × Node) → List (String × Json)
  | [] => []
  | (name,n)::rest => (name,nodeJson n)::fieldsJson rest
termination_by structural cs => cs

end

def configJson (tree : ConfigTree) : Json := nodeJson tree.root

def optionJson : Option String → Json
  | some s => .string s
  | none => .null

def changeJson (change : Change) : Json :=
  .object [("op",.string (match change.op with | .remove => "Remove" | .add => "Add")),
    ("path",.array (change.path.map .string)),("value",optionJson change.value)]

def changesJson (changes : List Change) : Json := .array (changes.map changeJson)

def revisionJson (revision : RevisionInfo) : Json :=
  .object [("actor",.string revision.actor),("actor_uid",.number revision.actorUid),
    ("changes",changesJson revision.changes),("comment",optionJson revision.comment),
    ("revision",.number revision.revision),("timestamp",.string revision.timestamp)]

/-! ### Tables -/

def trimEnd (text : String) : String :=
  String.ofList ((text.toList.reverse.dropWhile isWhitespace).reverse)

def colourChange (style : Style) (change : Change) : String :=
  if style.colour then
    (match change.op with | .add => GREEN | .remove => RED) ++ change.display ++ RESET
  else change.display

/-- Column widths from the content. -/
def widths (headers : List String) (rows : List (List String)) : List ℕ :=
  rows.foldl (fun ws row => ws.zipIdx.map (fun w => max w.1 ((row.getD w.2 "").length)))
    (headers.map String.utf8ByteSize)

def tableLine (ws : List ℕ) (cells : List String) : String :=
  trimEnd ("  ".intercalate (cells.zipWith
    (fun cell w => cell ++ String.ofList (List.replicate (w-cell.length) ' ')) ws)) ++ "\n"

def table (headers : List String) (rows : List (List String)) : String :=
  let ws := widths headers rows
  tableLine ws headers ++ tableLine ws (ws.map (fun w => String.ofList (List.replicate w '-'))) ++
    String.join (rows.map (tableLine ws))

/-- `20260816T113045Z` is right for the name of a file and wrong for a person. -/
def readable (stamp : String) : String :=
  if stamp.utf8ByteSize ≠ 16 then stamp
  else
    let slice := fun (i j : ℕ) => String.ofList ((stamp.toList.take j).drop i)
    slice 0 4 ++ "-" ++ slice 4 6 ++ "-" ++ slice 6 8 ++ " " ++
      slice 9 11 ++ ":" ++ slice 11 13 ++ ":" ++ slice 13 15 ++ " UTC"

def revisionsTable (revisions : List RevisionInfo) : String :=
  if revisions.isEmpty then "no commits have been recorded on this system\n"
  else
    table ["revision","when","by","changes","comment"] (revisions.map (fun r =>
      [toString r.revision,readable r.timestamp,r.actor,toString r.changes.length,r.comment.getD "-"]))

/-! ### Rendering -/

namespace Output

variable {I : Type}

def render (report : I → String) (style : Style) : Output I → String
  | nothing => ""
  | text message => message
  | config tree => Schema.render (prepare style tree) style.schema.isTagNode
  | configDiff candidate running => markedUp candidate running style
  | changes list => String.join (list.map (fun c => colourChange style c ++ "\n"))
  | revisions log => revisionsTable log
  | interfaces snapshot => report snapshot

def json (report : I → Json) (style : Style) : Output I → Json
  | nothing => .null
  | text message => .object [("message",.string (trimEnd message))]
  | config tree => configJson (prepare style tree)
  | configDiff candidate _ => configJson (prepare style candidate)
  | changes list => changesJson list
  | revisions log => .array (log.map revisionJson)
  | interfaces snapshot => report snapshot

def renderJson (pretty : Json → String) (report : I → Json) (style : Style) (output : Output I) : String :=
  pretty (output.json report style) ++ "\n"

end Output
end Nightshade.Cli
