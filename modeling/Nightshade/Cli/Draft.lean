import Mathlib
import Nightshade.Cli.Mild

/-! The candidate of a session as a draft. What a line makes of it is told by the line alone; whatever others do
meanwhile, a line of the client's that goes well has made just that of it. -/
namespace Nightshade.Cli
open Foundation Schema Configd

/-! ### What a file makes of a configuration -/

/-- A configuration that is worked on, and where in it. -/
structure Draft where
  prefixPath : Path
  tree : ConfigTree

/-- The commands that only look. -/
def LOOKS : List String := ["show","sh","compare","help"]

/-- The commands that do more to the daemon than edit a candidate. -/
def BEYOND_EDITING : List String := ["commit","confirm","discard","save","load","rollback","exit"]

section Drafts
variable {I : Type} (t : Terminal I) (schema : Schema)

/-- The draft once its tree is edited, if that goes well. -/
def Draft.replaced {ε : Type} (d : Draft) : Except ε Unit × ConfigTree → Option Draft
  | (.ok (),tree) => some {d with tree := tree}
  | (.error _,_) => none

def Draft.command (d : Draft) (verb : String) (rest : List String) : Option Draft :=
  let at_ := d.prefixPath ++ rest
  let split := t.schema.splitValue at_
  if verb = "set" then d.replaced (schema.applySet d.tree split.1 split.2)
  else if verb = "delete" then d.replaced (schema.applyDelete d.tree split.1 split.2)
  else if verb = "edit" then
    if (t.schema.resolve at_).isNone then none else some {d with prefixPath := at_}
  else if verb = "up" then some {d with prefixPath := d.prefixPath.dropLast}
  else if verb = "top" then some {d with prefixPath := Path.root}
  else if verb ∈ LOOKS then some d
  else none

/-- A line, or nothing where it cannot be carried out. -/
def Draft.line (d : Draft) (line : String) : Option Draft :=
  match typed t.regexError line with
  | .nothing | .question _ => some d
  | .refused _ => none
  | .command verb rest _ => d.command t schema verb rest

def Draft.lines : Draft → List (List Char) → Option Draft
  | d, [] => some d
  | d, line::lines =>
    match batchLine line with
    | none => d.lines lines
    | some line => (d.line t schema line).bind (fun d => d.lines lines)

/-- What a file makes of a configuration; nothing where one of its lines cannot be carried out. -/
def edited (text : String) (base : ConfigTree) : Option ConfigTree :=
  (Draft.lines t schema ⟨Path.root,base⟩ (Lexer.lines text.toList)).map Draft.tree

/-- A line that only edits or looks. -/
def editsOnly (line : String) : Bool :=
  match typed t.regexError line with
  | .command verb _ _ => !BEYOND_EDITING.contains verb
  | _ => true

/-- A file of such lines. -/
def isScript (text : String) : Bool :=
  (Lexer.lines text.toList).all (fun line => (batchLine line).all (editsOnly t))

end Drafts

/-! ### Requests about a draft -/

section Requests
variable {I : Type} {schema : Schema} {interfaces : Interfaces I} {env : Env} {s : State} {actor : Actor}
  {id : SessionId} {base tree : ConfigTree}

theorem opened_failed {response : Response} (h : response.isFailed) : opened (I := I) (.response response) = none := by
  cases response <;> first | rfl | cases h

/-- A session that is level with what runs is a draft of it. -/
theorem drafting_put (session : Session) (huid : session.uid = actor.uid) (hlevel : session.baseGeneration = s.generation) :
    Drafting actor.uid id s.running session.candidate (s.put id session) :=
  ⟨session,by rw [State.put_sessions,SortedMap.get?_insert,if_pos rfl],huid,rfl,hlevel.le,fun _ => rfl⟩

theorem returns_open :
    (answer schema interfaces env s actor (.request .sessionOpen)).Returns
      (fun r => ∀ id, opened r.1 = some id → ∃ base, Drafting actor.uid id base base r.2) := by
  refine Prog.Returns.bind ?_
  rw [handle,sessionOpen]
  cases env.entropy with
  | error e => exact fun id h => by cases h
  | ok id =>
    intro r
    cases r with
    | error e => exact fun id h => by cases h
    | ok _ =>
      intro id' hid
      cases hid
      exact ⟨s.running,drafting_put (Session.new id actor s.running s.generation) rfl rfl⟩

/-- What an edit that goes well makes of a draft. -/
theorem returns_kept (h : Drafting actor.uid id base tree s) {session : Session} (hown : s.owned id actor = .ok session)
    (tree' : ConfigTree) :
    (keep s id {session with candidate := tree'}).Returns
      (fun r => opened (I := I) (.response r.1) = none ∧ (r.1 = .ok → Drafting actor.uid id base tree' r.2)) := by
  obtain ⟨session',hget,huid,-,hle,hbase⟩ := h
  obtain ⟨hget',-⟩ := owned_eq_ok.mp hown
  obtain rfl : session' = session := Option.some.inj (hget.symm.trans hget')
  intro r
  cases r with
  | error e => exact ⟨rfl,nofun⟩
  | ok _ =>
    refine ⟨rfl,fun _ => ⟨{session' with candidate := tree'},?_,huid,rfl,hle,hbase⟩⟩
    show (s.sessions.insert id {session' with candidate := tree'}).get? id = _
    rw [SortedMap.get?_insert,if_pos rfl]

theorem returns_set (h : Drafting actor.uid id base tree s) (path : Path) (value : Option String) :
    (answer schema interfaces env s actor (.request (.set id path value))).Returns
      (fun r => opened r.1 = none ∧ (r.1 = .response .ok → ∃ tree', schema.applySet tree path value = (.ok (),tree') ∧
        Drafting actor.uid id base tree' r.2)) := by
  obtain ⟨session,hown,rfl,-⟩ := h.owned
  refine Prog.Returns.bind ?_
  simp only [handle,Configd.set,hown]
  split
  · exact ⟨rfl,fun h => (by cases h)⟩
  · next tree' happly =>
    exact (returns_kept h hown tree').mono (fun r hr => ⟨hr.1,fun hok => ⟨tree',happly,hr.2 (Reply.response.inj hok)⟩⟩)

theorem returns_delete (h : Drafting actor.uid id base tree s) (path : Path) (value : Option String) :
    (answer schema interfaces env s actor (.request (.delete id path value))).Returns
      (fun r => opened r.1 = none ∧ (r.1 = .response .ok →
        ∃ tree', schema.applyDelete tree path value = (.ok (),tree') ∧ Drafting actor.uid id base tree' r.2)) := by
  obtain ⟨session,hown,rfl,-⟩ := h.owned
  refine Prog.Returns.bind ?_
  simp only [handle,Configd.delete,hown]
  split
  · exact ⟨rfl,fun h => (by cases h)⟩
  · next tree' happly =>
    exact (returns_kept h hown tree').mono (fun r hr => ⟨hr.1,fun hok => ⟨tree',happly,hr.2 (Reply.response.inj hok)⟩⟩)

/-- What only looks. -/
def Looks : Ask → Prop
  | .showCandidate _ _ | .showRunning _ | .request (.compare _) => True
  | _ => False

theorem returns_look {ask : Ask} (h : Looks ask) :
    (answer schema interfaces env s actor ask).Returns (fun r => opened r.1 = none ∧ r.2 = s) := by
  cases ask with
  | request request =>
    cases request with
    | compare id =>
      refine Prog.Returns.bind ?_
      rw [handle,Configd.compare]
      split
      · next response hown => exact ⟨opened_failed (owned_failed hown),rfl⟩
      · exact ⟨rfl,rfl⟩
    | _ => cases h
  | showCandidate id path =>
    refine ⟨?_,rfl⟩
    show opened (showCandidate s id actor path) = none
    unfold showCandidate
    split
    · next response hown => exact opened_failed (owned_failed hown)
    · rfl
  | showRunning path => exact ⟨rfl,rfl⟩
  | _ => cases h

end Requests

/-! ### A line that edits -/

/-- A client in configuration mode, whose candidate is a draft. -/
structure Drafted {H : Type} (uid : ℕ) (id : SessionId) (base : ConfigTree) (cli : Cli) (scene : Scene H) (d : Draft) :
    Prop where
  mode : cli.mode = .configuration
  session : cli.session = some id
  path : cli.prefixPath = d.prefixPath
  given : scene.session = some id
  holds : scene.system.Holds (Drafting uid id base d.tree)

section Lines
variable {I H F α : Type} {t : Terminal I} {site : Site H F} {interfaces : Interfaces I} {actor : Actor}
  {files : String → Except String String} {cli : Cli} {scene : Scene H} {id : SessionId} {base : ConfigTree} {d : Draft}

theorem holds_of {sys : System H} {s : State} {P : State → Prop} (h : sys.process = some ⟨.serving,s⟩) (hs : P s) :
    sys.Holds P := by
  intro s' hs'
  rw [h] at hs'
  cases hs'
  exact hs

/-- What a client sees of a request in the middle of a draft. -/
theorem comes_drafted {ask : Ask} {k : Except String (Reply I) → Play I α} {post : α → Scene H → Prop}
    (R : Reply I → State → Prop) (h : Drafted actor.uid id base cli scene d)
    (hanswer : ∀ env s, Drafting actor.uid id base d.tree s →
      (answer site.schema interfaces env s actor ask).Returns (fun r => opened r.1 = none ∧ R r.1 r.2))
    (herror : ∀ e scene', scene'.session = some id → (scene'.system.Holds (Drafting actor.uid id base d.tree) ∨
      ∃ reply s, scene'.system.process = some ⟨.serving,s⟩ ∧ R reply s) →
      Comes site interfaces actor files post (k (.error e)) scene')
    (hok : ∀ reply s scene', scene'.session = some id → scene'.system.process = some ⟨.serving,s⟩ → R reply s →
      Comes site interfaces actor files post (k (.ok reply)) scene') :
    Comes site interfaces actor files post (Client.call ask >>= k) scene := by
  have hgiven : ∀ {scene' : Scene H} {reply : Reply I}, scene'.session = (opened reply).or scene.session →
      opened reply = none → scene'.session = some id := by
    intro scene' reply hsession hopened
    rw [hsession,hopened]
    exact h.given
  refine ends_query (Q := fun reply s => opened reply = none ∧ R reply s)
    (fun others hothers => run_drafting (hothers id h.given) h.holds) hanswer ?_ ?_
  · rintro e scene' (⟨hsession,hholds⟩ | ⟨reply,s,hsession,hprocess,hr⟩)
    · exact herror e scene' (hsession.trans h.given) (.inl hholds)
    · exact herror e scene' (hgiven hsession hr.1) (.inr ⟨reply,s,hprocess,hr.2⟩)
  · intro reply s scene' hsession hprocess hr
    exact hok reply s scene' (hgiven hsession hr.1) hprocess hr.2

/-- Looking leaves the draft. -/
theorem comes_look {ask : Ask} {k : Except String (Reply I) → Play I α} {post : α → Scene H → Prop}
    (hlooks : Looks ask) (h : Drafted actor.uid id base cli scene d)
    (hk : ∀ r scene', Drafted actor.uid id base cli scene' d → Comes site interfaces actor files post (k r) scene') :
    Comes site interfaces actor files post (Client.call ask >>= k) scene := by
  refine comes_drafted (fun _ => Drafting actor.uid id base d.tree) h (fun env s hs => ?_) ?_
    (fun reply s scene' hgiven hprocess hs => hk _ scene' ⟨h.mode,h.session,h.path,hgiven,holds_of hprocess hs⟩)
  · exact (returns_look hlooks).mono (fun r hr => ⟨hr.1,by rw [hr.2]; exact hs⟩)
  · rintro e scene' hgiven (hholds | ⟨-,s,hprocess,hs⟩)
    · exact hk _ scene' ⟨h.mode,h.session,h.path,hgiven,hholds⟩
    · exact hk _ scene' ⟨h.mode,h.session,h.path,hgiven,holds_of hprocess hs⟩

/-- A deed that the daemon has no part in. -/
theorem comes_alone {e : Deed} {k : Deed.Answer I e → Play I α} {post : α → Scene H → Prop}
    (hcall : ∀ ask, e ≠ .call ask) (hk : ∀ r, Comes site interfaces actor files post (k r) scene) :
    Comes site interfaces actor files post (Prog.call e >>= k) scene := by
  intro turn _
  have hscene : (talk site interfaces actor files e turn scene).2 = scene := by
    cases e with
    | call ask => exact absurd rfl (hcall ask)
    | readFile path =>
      dsimp only [talk]
      split <;> rfl
    | _ => rfl
  split
  · trivial
  · next r scene' hr =>
    rw [hr] at hscene
    cases hscene
    exact hk r

/-- What a command is taken to have done when it says that it went well. -/
def WentWell (uid : ℕ) (id : SessionId) (base : ConfigTree) (d : Option Draft) (r : Done I × Cli) (scene : Scene H) : Prop :=
  ∀ output, r.1 = .ok (output,.ok) → ∃ d', d = some d' ∧ Drafted uid id base r.2 scene d'

theorem Outcome.of_ne_ok (kind : FailureKind) : Outcome.of kind ≠ .ok := by cases kind <;> decide

/-- A command that only looks, when it goes well. -/
theorem comes_unmoved {command : Play I (Done I)} {d' : Draft} (hpath : d'.prefixPath = d.prefixPath)
    (h : Drafted actor.uid id base cli scene d)
    (hcommand : Comes site interfaces actor files (fun done scene' => ∀ output, done = .ok (output,.ok) →
      scene'.session = some id ∧ scene'.system.Holds (Drafting actor.uid id base d'.tree)) command scene) :
    Comes site interfaces actor files (WentWell actor.uid id base (some d')) (cli.unmoved command) scene := by
  refine Prog.Ends.bind (hcommand.mono (fun done scene' hdone output hok => ⟨d',rfl,?_⟩) (fun _ _ => trivial))
  exact ⟨h.mode,h.session,h.path.trans hpath.symm,(hdone output hok).1,(hdone output hok).2⟩

theorem comes_showConfig (h : Drafted actor.uid id base cli scene d) (at_ : Path) :
    Comes site interfaces actor files (WentWell actor.uid id base (some d)) (cli.unmoved (showConfig t id at_)) scene := by
  refine comes_unmoved rfl h (comes_look trivial h (fun candidate scene' h => ?_))
  split
  · exact fun output => nofun
  · refine comes_look trivial h (fun running scene' h => ?_)
    split
    · exact fun output => nofun
    · exact fun output _ => ⟨h.given,h.holds⟩
    · exact fun output _ => ⟨h.given,h.holds⟩
  · exact fun output _ => ⟨h.given,h.holds⟩

theorem comes_compare (h : Drafted actor.uid id base cli scene d) :
    Comes site interfaces actor files (WentWell actor.uid id base (some d)) (cli.unmoved (compare t id)) scene := by
  refine comes_unmoved rfl h (comes_look trivial h (fun changes scene' h => ?_))
  split
  · exact fun output => nofun
  · split <;> exact fun output _ => ⟨h.given,h.holds⟩
  · exact fun output _ => ⟨h.given,h.holds⟩

/-- An edit, which the daemon takes on for what the draft makes of it. -/
theorem comes_expectOk {request : Request} {d' : Option Draft} (h : Drafted actor.uid id base cli scene d)
    (hanswer : ∀ env s, Drafting actor.uid id base d.tree s →
      (answer site.schema interfaces env s actor (.request request)).Returns (fun r => opened r.1 = none ∧
        (r.1 = .response .ok → ∃ tree, d' = some {d with tree := tree} ∧ Drafting actor.uid id base tree r.2))) :
    Comes site interfaces actor files (WentWell actor.uid id base d') (cli.unmoved (expectOk t (.request request)))
      scene := by
  refine Prog.Ends.bind ?_
  refine comes_drafted (fun reply s => reply = .response .ok → ∃ tree, d' = some {d with tree := tree} ∧
    Drafting actor.uid id base tree s) h hanswer (fun e scene' _ _ output => nofun) (fun reply s scene' hgiven hprocess hs => ?_)
  split
  · cases ‹Except.ok reply = Except.error _›
  · next hreply =>
    intro output hok
    obtain ⟨tree,hd,hdrafting⟩ := hs (Except.ok.inj hreply)
    exact ⟨_,hd,h.mode,h.session,h.path,hgiven,holds_of hprocess hdrafting⟩
  · next kind message hreply =>
    intro output hok
    simp [told,Outcome.of_ne_ok] at hok
  · intro output hok
    simp [unexpected] at hok

/-- The edits, each for what the draft makes of it. -/
theorem comes_editing (h : Drafted actor.uid id base cli scene d) (rest : List String) :
    (Comes site interfaces actor files (WentWell actor.uid id base (d.command t site.schema "set" rest))
      (cli.unmoved (expectOk t (.request (cli.editing t id "set" rest)))) scene) ∧
    (Comes site interfaces actor files (WentWell actor.uid id base (d.command t site.schema "delete" rest))
      (cli.unmoved (expectOk t (.request (cli.editing t id "delete" rest)))) scene) := by
  have hpath : cli.withPrefix rest = d.prefixPath ++ rest := congrArg (fun path => path ++ rest) h.path
  constructor
  · refine comes_expectOk h (fun env s hs => (returns_set hs _ _).mono (fun r hr => ⟨hr.1,fun hok => ?_⟩))
    obtain ⟨tree,happly,hdrafting⟩ := hr.2 hok
    refine ⟨tree,?_,hdrafting⟩
    rw [hpath] at happly
    exact congrArg d.replaced happly
  · refine comes_expectOk h (fun env s hs => (returns_delete hs _ _).mono (fun r hr => ⟨hr.1,fun hok => ?_⟩))
    obtain ⟨tree,happly,hdrafting⟩ := hr.2 hok
    refine ⟨tree,?_,hdrafting⟩
    rw [hpath] at happly
    exact congrArg d.replaced happly

/-- A command that is answered here, and moves the edit path. -/
theorem comes_moved {path : Path} {output : Output (Ifstate.View × I)} {outcome : Outcome}
    (h : Drafted actor.uid id base cli scene d) :
    Comes site interfaces actor files (WentWell actor.uid id base (some {d with prefixPath := path}))
      (pure (.ok (output,outcome),{cli with prefixPath := path})) scene :=
  fun _ _ => ⟨_,rfl,h.mode,h.session,rfl,h.given,h.holds⟩

/-- A command that is answered here, and does nothing. -/
theorem comes_still {d' : Option Draft} {done : Done I} (h : Drafted actor.uid id base cli scene d)
    (hdone : ∀ output, done = .ok (output,.ok) → d' = some d) :
    Comes site interfaces actor files (WentWell actor.uid id base d') (pure (done,cli)) scene :=
  fun output hok => ⟨d,hdone output hok,h⟩

theorem comes_edit (h : Drafted actor.uid id base cli scene d) (rest : List String) :
    Comes site interfaces actor files (WentWell actor.uid id base (d.command t site.schema "edit" rest))
      (cli.edit t rest) scene := by
  have hcommand : d.command t site.schema "edit" rest =
      if (t.schema.resolve (cli.withPrefix rest)).isNone then none
      else some {d with prefixPath := cli.withPrefix rest} := by
    unfold Cli.withPrefix
    rw [h.path]
    rfl
  rw [hcommand]
  unfold Cli.edit
  dsimp only
  split
  · exact comes_still h (fun output => nofun)
  · exact comes_moved h

theorem comes_configuration (h : Drafted actor.uid id base cli scene d) (verb : String) (rest : List String)
    (hverb : BEYOND_EDITING.contains verb = false) :
    Comes site interfaces actor files (WentWell actor.uid id base (d.command t site.schema verb rest))
      (cli.command t verb rest) scene := by
  have hnot : ∀ {word : String}, word ∈ BEYOND_EDITING → verb ≠ word := by
    rintro word hword rfl
    rw [List.contains_iff_mem.mpr hword] at hverb
    cases hverb
  have hcommand : cli.command t verb rest = cli.configuration t verb rest := by
    unfold Cli.command
    rw [h.mode]
  rw [hcommand]
  unfold Cli.configuration
  split
  · next hnone =>
    rw [h.session] at hnone
    cases hnone
  · next id' hid =>
    obtain rfl : id = id' := by
      rw [h.session] at hid
      cases hid
      rfl
    refine Prog.ends_ite (fun hedit => ?_) (fun _ => ?_)
    · obtain rfl | rfl := hedit
      · exact (comes_editing h rest).1
      · exact (comes_editing h rest).2
    refine Prog.ends_ite (fun hshow => ?_) (fun _ => ?_)
    · obtain rfl | rfl := hshow <;> exact comes_showConfig h _
    refine Prog.ends_ite (fun hcompare => ?_) (fun _ => ?_)
    · subst hcompare
      exact comes_compare h
    refine Prog.ends_ite (fun hcommit => absurd hcommit (hnot (by decide))) (fun _ => ?_)
    refine Prog.ends_ite (fun hconfirm => absurd hconfirm (hnot (by decide))) (fun _ => ?_)
    refine Prog.ends_ite (fun hdiscard => absurd hdiscard (hnot (by decide))) (fun _ => ?_)
    refine Prog.ends_ite (fun hsave => absurd hsave (hnot (by decide))) (fun _ => ?_)
    refine Prog.ends_ite (fun hload => absurd hload (hnot (by decide))) (fun _ => ?_)
    refine Prog.ends_ite (fun hrollback => absurd hrollback (hnot (by decide))) (fun _ => ?_)
    refine Prog.ends_ite (fun hedit => ?_) (fun _ => ?_)
    · subst hedit
      exact comes_edit h rest
    refine Prog.ends_ite (fun hup => ?_) (fun _ => ?_)
    · subst hup
      rw [h.path]
      exact comes_moved h
    refine Prog.ends_ite (fun htop => ?_) (fun _ => ?_)
    · subst htop
      exact comes_moved h
    refine Prog.ends_ite (fun hexit => absurd hexit (hnot (by decide))) (fun _ => ?_)
    refine Prog.ends_ite (fun hhelp => ?_) (fun _ => ?_)
    · subst hhelp
      exact comes_still h (fun _ _ => rfl)
    exact Prog.ends_ite (fun _ => comes_still h (fun output => nofun)) (fun _ => comes_still h (fun output => nofun))

theorem comes_candidate (h : Drafted actor.uid id base cli scene d) :
    Comes site interfaces actor files (fun _ scene' => Drafted actor.uid id base cli scene' d) cli.candidate scene := by
  unfold Cli.candidate
  split
  · exact comes_look trivial h (fun candidate scene' h => h)
  · exact h

/-- Looking up what the prompt shows leaves the draft. -/
theorem comes_refresh (h : Drafted actor.uid id base cli scene d) :
    Comes site interfaces actor files (fun cli' scene' => Drafted actor.uid id base cli' scene' d) cli.refresh scene := by
  refine comes_look trivial h (fun shown scene' h => Prog.Ends.bind ((comes_candidate h).mono ?_ (fun _ h => h)))
  exact fun candidate scene'' h => comes_alone (fun _ => nofun) (fun ports => ⟨h.mode,h.session,h.path,h.given,h.holds⟩)

theorem comes_emit (output : Output (Ifstate.View × I)) (modifiers : List Pipe.Modifier) {post : Scene H → Prop}
    (h : post scene) : Comes site interfaces actor files (fun _ => post) (emit t output modifiers) scene := by
  unfold emit
  dsimp only
  split
  · exact h
  · exact comes_alone (k := Prog.done) (fun _ => nofun) (fun _ => h)

/-- A line goes well when its command does. -/
theorem comes_conclude {P : Cli → Scene H → Prop} {r : Done I × Cli} (modifiers : List Pipe.Modifier)
    (h : ∀ output, r.1 = .ok (output,.ok) → P r.2 scene) :
    Comes site interfaces actor files (fun r' scene' => r'.1 = .ok → P r'.2 scene') (conclude t modifiers r) scene := by
  obtain ⟨done,cli'⟩ := r
  unfold conclude
  cases done with
  | error e => exact comes_alone (fun _ => nofun) (fun _ => nofun)
  | ok shown =>
    obtain ⟨output,outcome⟩ := shown
    refine Prog.Ends.bind (comes_emit output modifiers (fun hok : outcome = .ok => ?_))
    exact h output (by rw [hok])

/-- What a line is taken to have done when it says that it went well. -/
def LineWell (uid : ℕ) (id : SessionId) (base : ConfigTree) (d : Option Draft) (r : Outcome × Cli) (scene : Scene H) :
    Prop := r.1 = .ok → ∃ d', d = some d' ∧ Drafted uid id base r.2 scene d'

/-- A line, for what the draft makes of it. -/
theorem comes_run (h : Drafted actor.uid id base cli scene d) {line : String} (hline : editsOnly t line) :
    Comes site interfaces actor files (LineWell actor.uid id base (d.line t site.schema line)) (cli.run t line) scene := by
  by_cases hempty : Lexer.trim isWhitespace line.toList = []
  · have hnothing : d.line t site.schema line = some d := by
      rw [Draft.line,typed]
      simp only [hempty,if_true]
    have hrun : cli.run t line = pure (.ok,cli) := by
      rw [Cli.run]
      simp only [hempty,List.isEmpty_nil,if_true]
    rw [hnothing,hrun]
    exact fun _ => ⟨d,rfl,h⟩
  have hfull : (Lexer.trim isWhitespace line.toList).isEmpty = false := by simpa using hempty
  cases hquestion : question (Lexer.trim isWhitespace line.toList) with
  | some asked =>
    have hasked : d.line t site.schema line = some d := by
      rw [Draft.line,typed]
      simp only [hempty,if_false,hquestion]
    rw [hasked,Cli.run]
    simp only [hfull,hquestion]
    exact comes_alone (fun _ hask => by cases hask) (fun _ _ => ⟨d,rfl,h⟩)
  | none =>
    rw [Cli.run]
    simp only [hfull,hquestion]
    cases hsplit : Pipe.split t.regexError (Lexer.trim isWhitespace line.toList) with
    | error e => exact comes_alone (fun _ hask => by cases hask) (fun _ hok => by cases hok)
    | ok r =>
      obtain ⟨command,modifiers⟩ := r
      suffices hdispatch : Comes site interfaces actor files (WentWell actor.uid id base (d.line t site.schema line))
          (cli.dispatch t command) scene by
        exact Prog.Ends.bind (hdispatch.mono (fun r scene' hr => comes_conclude (P := fun cli' scene' => ∃ d',
          d.line t site.schema line = some d' ∧ Drafted actor.uid id base cli' scene' d') modifiers hr) (fun _ h => h))
      unfold Cli.dispatch
      cases hparse : Path.parse command with
      | error e => exact comes_still h (fun output hok => by cases hok)
      | ok segments =>
        cases segments with
        | nil =>
          refine comes_still h (fun _ _ => ?_)
          rw [Draft.line,typed]
          simp only [hempty,if_false,hquestion,hsplit,hparse]
        | cons verb rest =>
          have htyped := typed_eq hfull hquestion hsplit hparse
          rw [editsOnly,htyped] at hline
          rw [Draft.line,htyped]
          exact comes_configuration h verb rest (by simpa using hline)

theorem comes_batchLines (file : String) (number : ℕ) (lines : List (List Char))
    (hlines : ∀ line ∈ lines, (batchLine line).all (editsOnly t)) (h : Drafted actor.uid id base cli scene d) :
    Comes site interfaces actor files (fun r scene' => (∀ u, r.1 = .ok u →
        ∃ d', d.lines t site.schema lines = some d' ∧ Drafted actor.uid id base r.2 scene' d') ∧
        ∀ outcome, r.1 = .error outcome → outcome ≠ .ok)
      (batchLines t file number cli lines) scene := by
  induction lines generalizing number cli scene d with
  | nil => exact ⟨fun _ _ => ⟨d,rfl,h⟩,fun _ => nofun⟩
  | cons line lines ih =>
    have hrest : ∀ line ∈ lines, (batchLine line).all (editsOnly t) :=
      fun line hline => hlines line (List.mem_cons_of_mem _ hline)
    have hline := hlines line List.mem_cons_self
    unfold batchLines Draft.lines
    cases hbatch : batchLine line with
    | none => exact ih (number+1) hrest h
    | some line =>
      rw [hbatch,Option.all_some] at hline
      refine Prog.Ends.bind ((comes_refresh h).mono (fun cli' scene' h => ?_) (fun _ h => h))
      refine Prog.Ends.bind ((comes_run h hline).mono (fun r scene'' hr => ?_) (fun _ h => h))
      refine Prog.ends_ite (fun hok => ?_) (fun hfailed => ?_)
      · obtain ⟨d',hd,h⟩ := hr hok
        dsimp only
        rw [hd]
        exact ih (number+1) hrest h
      · refine comes_alone (fun _ => nofun) (fun _ => Prog.Ends.bind ?_)
        refine Prog.ends_of_forall (fun left scene₃ => ⟨fun _ => nofun,?_⟩) (fun _ => trivial)
        rintro outcome houtcome rfl
        exact hfailed (Except.error.inj houtcome)

end Lines
end Nightshade.Cli
