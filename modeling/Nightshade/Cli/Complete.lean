import Mathlib
import Nightshade.Schema.ReadOn
import Nightshade.Schema.Shipped
import Nightshade.Schema.Words

/-! Completion of a line that is being typed: what is offered for its last word, and which part of the line an offer takes
the place of. That part is found by a scan for white space, while commands are read by the tokeniser. -/
namespace Nightshade.Cli
open Schema

/-- What may stand next: something to type, or a description of what the operator invents there. -/
structure NodeInfo where
  name : String
  placeholder : Bool
  /-- What follows the name, if anything. -/
  value : Option String
  /-- Whether it may be given more than once. -/
  multi : Bool
  default : Option String
  secret : Bool
  deriving Repr, DecidableEq

/-- A name and nothing more to tell of it. -/
def NodeInfo.named (name : String) : NodeInfo := ⟨name,false,none,false,none,false⟩

def info (name : String) (node : SchemaNode) : NodeInfo where
  name := name
  placeholder := false
  value := match node.kind with
    | .leaf spec | .multiLeaf spec | .tag spec => some (spec.placeholder)
    | .container | .flag => none
  multi := match node.kind with
    | .multiLeaf _ => true
    | _ => false
  default := node.default
  secret := node.secret

/-- What the schema has below a path. -/
def childrenOf (schema : Schema) (path : Path) : List NodeInfo :=
  match schema.resolve path with
  | none => []
  | some (.node node) =>
    match node.kind with
    | .container => node.children.map (fun c => info c.1 c.2)
    | .tag spec => [⟨spec.placeholder,true,none,false,none,false⟩]
    | .leaf spec => [⟨spec.placeholder,true,none,false,node.default,node.secret⟩]
    | .multiLeaf spec => [⟨spec.placeholder,true,none,true,node.default,node.secret⟩]
    | .flag => []
  | some (.inst tag) => tag.children.map (fun c => info c.1 c.2)
  | some (.value _) => []

/-- Commands that take a configuration path. -/
def PATH_COMMANDS : List String := ["set","delete","show","sh","edit"]

/-- What the completer needs to know. -/
structure Context where
  candidate : ConfigTree
  systemInterfaces : List String
  operational : Bool
  /-- What `edit` put in front of everything typed. -/
  prefixPath : Path
  commands : List String

def startsWith (name beingTyped : String) : Bool := beingTyped.toList.isPrefixOf name.toList

/-- The instances that are configured below a path. -/
def configured (tree : ConfigTree) (at_ : Path) : List String :=
  match (tree.get at_).bind Node.children with
  | some children => children.map Prod.fst
  | none => []

/-- Real instance names, or the schema's hint when there are none to offer. -/
def instanceNames (context : Context) (at_ : Path) (hint : NodeInfo) : List NodeInfo :=
  let names := configured context.candidate at_
  let names :=
    if ["interfaces"] <+: at_ then
      context.systemInterfaces.foldl (fun names name => if names.contains name then names else names ++ [name]) names
    else names
  let names := (names.insertionSort (· ≤ ·)).dedup
  if names.isEmpty then [hint] else names.map NodeInfo.named

/-- The views of the interfaces. -/
def INTERFACE_VIEWS : List String :=
  ["capabilities","counters","description","flowcontrol","mac","negotiation","phy","status","transceiver"]

/-- What can follow each of them. -/
def INTERFACE_SUBVIEWS : List (String × List String) :=
  [("counters",["bins","discards","errors","queue","rates"]),
    ("status",["connected","disabled","errdisabled","inactive","notconnect"]),
    ("transceiver",["detail","eeprom","properties"]),
    ("negotiation",["detail"]),("phy",["detail"]),("mac",["detail"])]

/-- The `show interfaces` command tree. -/
def interfaceViews (typed : List String) (beingTyped : String) : List NodeInfo :=
  let named := typed.head?.any (fun word => !INTERFACE_VIEWS.contains word)
  let views := if named then typed.tail else typed
  let offered := match views with
    | [] => if named then INTERFACE_VIEWS else "<interface>"::INTERFACE_VIEWS
    | [view] => (INTERFACE_SUBVIEWS.lookup view).getD []
    | _ => []
  (offered.filter (fun name => startsWith name "<" || startsWith name beingTyped)).map
    (fun name => {NodeInfo.named name with placeholder := startsWith name "<"})

def commands (context : Context) (beingTyped : String) : List NodeInfo :=
  (context.commands.filter (fun name => startsWith name beingTyped)).map NodeInfo.named

/-- What can follow the words already typed, of which the last may be unfinished. -/
def candidates (schema : Schema) (context : Context) (typed : List String) (unfinished : Bool) : List NodeInfo :=
  let (complete,beingTyped) := if unfinished then (typed.dropLast,typed.getLast?.getD "") else (typed,"")
  match complete with
  | [] => commands context beingTyped
  | command::pathWords =>
    if context.operational && (command = "show" || command = "sh") && pathWords.head? = some "interfaces" then
      interfaceViews pathWords.tail beingTyped
    else if !PATH_COMMANDS.contains command then []
    else
      let path := context.prefixPath ++ pathWords
      let entries := match childrenOf schema path with
        | [hint] => if hint.placeholder && schema.isTagNode path then instanceNames context path hint else [hint]
        | entries => entries
      entries.filter (fun entry => entry.placeholder || startsWith entry.name beingTyped)

/-- A stretch of the line, in bytes. -/
structure Span where
  start : ℕ
  stop : ℕ
  deriving Repr, DecidableEq

structure Suggestion where
  value : String
  span : Span
  appendWhitespace : Bool
  deriving Repr, DecidableEq

/-- The length of a text in bytes. -/
def byteSize (text : List Char) : ℕ := (text.map Char.utf8Size).sum

/-- The line into words, and whether the last one is unfinished. -/
def words (line : List Char) : List String × Bool :=
  ((match Path.parse (String.ofList line) with
    | .ok path => path
    | .error _ => splitWhitespace (String.ofList line)),
    line.getLast?.any (fun c => !isWhitespace c))

/-- The line up to its last white space, and what is behind it. -/
def lineHead (line : List Char) : List Char := line.rdropWhile (fun c => !isWhitespace c)
def lineTail (line : List Char) : List Char := line.rtakeWhile (fun c => !isWhitespace c)

/-- `rfind(char::is_whitespace)`: where the last white space starts. -/
def rfindWhitespace (line : List Char) : Option ℕ :=
  if lineHead line = [] then none else some (byteSize (lineHead line).dropLast)

/-- How much of the line is replaced. -/
def replaced (line : List Char) : Span :=
  ⟨if (words line).2 then (match rfindWhitespace line with | some i => i + 1 | none => 0) else byteSize line,
    byteSize line⟩

/-- What is offered for a line up to the cursor. -/
def suggestions (schema : Schema) (context : Context) (line : List Char) : List Suggestion :=
  ((candidates schema context (words line).1 (words line).2).filter (fun entry => !entry.placeholder)).map
    (fun entry => ⟨entry.name,replaced line,true⟩)

/-! ### What an offer is to do -/

/-- One word of the tokeniser and nothing else; a string that is not closed yet is one. -/
def OneWord (lexer : Lexer) : Prop :=
  (∃ c, lexer.rest.head? = some c ∧ isWhitespace c = false) ∧
    ((∃ v pos q, lexer.nextToken = .ok (some (⟨.value v,pos⟩,⟨[],q⟩))) ∨
      ∃ pos, lexer.nextToken = .error (.unterminatedString pos))

/-- The last word of a line as commands are read, and the words before it; nothing behind a separator. -/
structure LastWord (before last : List Char) (earlier : Path) : Prop where
  words : Path.parse (String.ofList before) = .ok earlier
  reached : Lexer.Reads ⟨before ++ last,Pos.start⟩ (lex (String.ofList before)).1 ⟨last,Pos.start.after before⟩
  last : last = [] ∧ Separated before ∨ OneWord ⟨last,Pos.start.after before⟩

/-- The span is the last word of the line, from one boundary between characters to another; and with the offer in its
place the earlier words are read as before, and the last word as the offer. -/
def Exact (line : List Char) (s : Suggestion) : Prop :=
  ∃ before last earlier, line = before ++ last ∧ s.span = ⟨byteSize before,byteSize line⟩ ∧
    LastWord before last earlier ∧
    Path.parse (String.ofList (before ++ s.value.toList)) = .ok (earlier ++ [s.value])

/-- The last white space before an unfinished word is one byte long, what is before the word can be read as words, and
the word is one of the tokeniser's. -/
structure Completable (line : List Char) : Prop where
  narrow : lineTail line ≠ [] → ∀ c, (lineHead line).getLast? = some c → c.utf8Size = 1
  words : ∃ earlier, Path.parse (String.ofList (lineHead line)) = .ok earlier
  last : lineTail line = [] ∨ OneWord ⟨lineTail line,Pos.start.after (lineHead line)⟩

variable {schema : Schema} {context : Context} {line : List Char} {s : Suggestion}

theorem lineHead_append_lineTail (line : List Char) : lineHead line ++ lineTail line = line := by
  rw [lineHead,lineTail,List.rdropWhile,List.rtakeWhile,← List.reverse_append,List.takeWhile_append_dropWhile,
    List.reverse_reverse]

theorem separated_lineHead (line : List Char) : Separated (lineHead line) := by
  intro c hc
  have hstop := List.head?_dropWhile_not (fun c => !isWhitespace c) line.reverse
  rw [lineHead,List.rdropWhile,List.getLast?_reverse] at hc
  rw [hc] at hstop
  simpa using hstop

/-- A line is unfinished when something is behind its last white space. -/
theorem unfinished_iff : (words line).2 = true ↔ lineTail line ≠ [] := by
  rw [words,lineTail,List.rtakeWhile,Ne,List.reverse_eq_nil_iff]
  cases hline : line.reverse with
  | nil =>
    rw [List.reverse_eq_nil_iff] at hline
    simp [hline]
  | cons c rest =>
    have hlast : line.getLast? = some c := by rw [← List.head?_reverse,hline]; rfl
    rw [hlast,List.takeWhile_cons]
    cases hc : isWhitespace c with
    | true => simp [hc]
    | false => simp [hc]

theorem byteSize_append (s t : List Char) : byteSize (s ++ t) = byteSize s + byteSize t := by
  rw [byteSize,List.map_append,List.sum_append]
  rfl

theorem byteSize_cons (c : Char) (t : List Char) : byteSize (c::t) = c.utf8Size + byteSize t := by
  simp [byteSize]

theorem byteSize_eq_zero {t : List Char} (h : byteSize t = 0) : t = [] := by
  cases t with
  | nil => rfl
  | cons c t =>
    have hpos := c.utf8Size_pos
    rw [byteSize_cons] at h
    omega

/-- One byte behind the start of a character a text ends only when that is all the character has. -/
theorem boundary {front tail before last : List Char} {c : Char} (h : front ++ c::tail = before ++ last)
    (hsize : byteSize before = byteSize front + 1) : before = front ++ [c] ∧ c.utf8Size = 1 := by
  obtain ⟨x,rfl,hx⟩ | ⟨x,rfl,hx⟩ := List.append_eq_append_iff.mp h
  · rw [byteSize_append] at hsize
    have hpos := c.utf8Size_pos
    cases x with
    | nil => simp [byteSize] at hsize
    | cons d x =>
      obtain ⟨rfl,hrest⟩ := List.cons.inj hx
      rw [byteSize_cons] at hsize
      obtain rfl := byteSize_eq_zero (show byteSize x = 0 by omega)
      exact ⟨rfl,by simp [byteSize] at hsize; omega⟩
  · rw [byteSize_append] at hsize
    omega

/-- The span of an offer ends where the line does, and starts one byte behind the start of the last white space. -/
theorem start_replaced (line : List Char) : (replaced line).start =
    if lineTail line = [] then byteSize line
    else if lineHead line = [] then 0 else byteSize (lineHead line).dropLast + 1 := by
  unfold replaced rfindWhitespace
  by_cases htail : lineTail line = []
  · rw [if_pos htail,if_neg (fun h => unfinished_iff.mp h htail)]
  · rw [if_neg htail,if_pos (unfinished_iff.mpr htail)]
    by_cases hhead : lineHead line = []
    · rw [if_pos hhead,if_pos hhead]
    · rw [if_neg hhead,if_neg hhead]

/-- The span starts on a boundary just when that last white space is one byte long, and then behind it. -/
theorem start_iff {before last : List Char} (h : line = before ++ last) :
    (replaced line).start = byteSize before ↔
      before = lineHead line ∧ (lineTail line ≠ [] → ∀ c, (lineHead line).getLast? = some c → c.utf8Size = 1) := by
  have hline := lineHead_append_lineTail line
  rw [start_replaced]
  by_cases htail : lineTail line = []
  · rw [htail,List.append_nil] at hline
    rw [if_pos htail,hline]
    have hsize : byteSize line = byteSize before + byteSize last := by rw [h,byteSize_append]
    constructor
    · intro hstart
      obtain rfl := byteSize_eq_zero (show byteSize last = 0 by omega)
      exact ⟨by rw [h,List.append_nil],fun hne => absurd htail hne⟩
    · rintro ⟨rfl,-⟩
      rfl
  · rw [if_neg htail]
    obtain hhead | ⟨front,c,hhead⟩ := List.eq_nil_or_concat' (lineHead line)
    · rw [if_pos hhead,hhead]
      constructor
      · intro hstart
        exact ⟨byteSize_eq_zero hstart.symm,fun _ c hc => by cases hc⟩
      · rintro ⟨rfl,-⟩
        rfl
    · rw [if_neg (by simp [hhead]),hhead,List.dropLast_concat]
      constructor
      · intro hstart
        have hsplit : front ++ c::lineTail line = before ++ last := by
          rw [hhead,List.append_assoc] at hline
          exact hline.trans h
        obtain ⟨hbefore,hone⟩ := boundary hsplit hstart.symm
        refine ⟨hbefore,fun _ d hd => ?_⟩
        rw [List.getLast?_concat] at hd
        rw [← Option.some.inj hd]
        exact hone
      · rintro ⟨rfl,hnarrow⟩
        rw [byteSize_append,byteSize_cons,hnarrow htail c List.getLast?_concat]
        rfl

theorem span_of_mem (h : s ∈ suggestions schema context line) : s.span = replaced line := by
  obtain ⟨entry,-,rfl⟩ := List.mem_map.mp h
  rfl

/-- An offer is exact just when the line is completable and the offer needs no quotes. -/
theorem exact_iff (h : s ∈ suggestions schema context line) :
    Exact line s ↔ Completable line ∧ isBare s.value.toList = true := by
  have hsep := separated_lineHead line
  have hline := lineHead_append_lineTail line
  have hspan := span_of_mem h
  constructor
  · rintro ⟨before,last,earlier,hsplit,hs,hword,hread⟩
    have hstart : (replaced line).start = byteSize before := by rw [← hspan,hs]
    obtain ⟨rfl,hnarrow⟩ := (start_iff hsplit).mp hstart
    obtain rfl : lineTail line = last := List.append_cancel_left (hline.trans hsplit)
    refine ⟨⟨hnarrow,⟨earlier,hword.words⟩,?_⟩,(Path.parse_append_iff hsep hword.words s.value).mp hread⟩
    obtain ⟨hnil,-⟩ | hone := hword.last
    · exact .inl hnil
    · exact .inr hone
  · rintro ⟨⟨hnarrow,⟨earlier,hwords⟩,hlast⟩,hbare⟩
    refine ⟨lineHead line,lineTail line,earlier,hline.symm,?_,⟨hwords,Path.reads_typed hsep hwords _,?_⟩,
      (Path.parse_append_iff hsep hwords s.value).mpr hbare⟩
    · have hstart := (start_iff hline.symm).mpr ⟨rfl,hnarrow⟩
      rw [hspan,← hstart]
      rfl
    · obtain hnil | hone := hlast
      · exact .inl ⟨hnil,hsep⟩
      · exact .inr hone

/-- Nothing configured, and no ports. -/
def emptyContext : Context := ⟨ConfigTree.new,[],false,[],["set","show","commit"]⟩

theorem exact_command : Exact "  sh".toList ⟨"show",⟨2,4⟩,true⟩ ↔
    Completable "  sh".toList ∧ isBare "show".toList = true :=
  exact_iff (show ⟨"show",⟨2,4⟩,true⟩ ∈ suggestions (Shipped.schema []) emptyContext "  sh".toList by decide +kernel)

/-- White space of two bytes: the span starts in the middle of it. -/
theorem wide_space_split :
    ⟨"system",⟨4,8⟩,true⟩ ∈ suggestions (Shipped.schema []) emptyContext "set\u00a0sys".toList ∧
      ¬Exact "set\u00a0sys".toList ⟨"system",⟨4,8⟩,true⟩ := by
  refine ⟨by decide +kernel,?_⟩
  rintro ⟨before,last,earlier,hsplit,hspan,-⟩
  have hprefix : ∀ n ≤ 7, byteSize ("set\u00a0sys".toList.take n) ≠ 4 := by decide +kernel
  have hlength := congrArg List.length hsplit
  rw [List.length_append] at hlength
  refine hprefix before.length ?_ ?_
  · have hseven : "set\u00a0sys".toList.length = 7 := by decide
    omega
  · rw [hsplit,List.take_left]
    exact (congrArg Span.start hspan).symm

end Nightshade.Cli
