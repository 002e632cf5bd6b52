import Mathlib
import Nightshade.Cli.Draft
import Nightshade.Cli.Runs

/-! A file of commands is one change: whatever others do meanwhile and wherever the client or the daemon is cut off, the
requests of a client that runs it make that change of what runs, or none. -/
namespace Nightshade.Cli
open Foundation Schema Configd

/-! ### The commit -/

/-- How a commit of a draft may turn out, by its answer, the state it leaves and what the host is given. -/
inductive Fared {I : Type} (base tree : ConfigTree) (s : State) : Reply I → State → List ConfigTree → Prop where
  | refused (kind : FailureKind) (message : String) : Fared base tree s (.response (.failed kind message)) s []
  | failed (kind : FailureKind) (message : String) (hbase : s.running = base) :
    Fared base tree s (.response (.failed kind message)) s [tree]
  | needless (generation : ℕ) (changes : List Change) (hbase : s.running = base) (hsame : diff base tree = []) :
    Fared base tree s (.response (.committed generation changes none)) s []
  | made (generation : ℕ) (changes : List Change) (s' : State) (hbase : s.running = base) (hchanged : tree ≠ base)
    (hruns : s'.running = tree) : Fared base tree s (.response (.committed generation changes none)) s' [tree]

section Commits
variable {I H F : Type} {site : Site H F} {interfaces : Interfaces I} {env : Env} {s : State} {actor : Actor}
  {id : SessionId} {base tree : ConfigTree}

theorem order_isEmpty {schema : Schema} {changes : List Change} : (order schema changes).isEmpty ↔ changes = [] := by
  rw [List.isEmpty_iff,order,← List.length_eq_zero_iff,List.length_insertionSort,List.length_eq_zero_iff]

theorem returns_promoted {schema : Schema} {session : Session} {changes : List Change} :
    (promoted schema env s id actor none none session changes).Returns (fun r =>
      (∃ generation, r.1 = .committed generation changes none) ∧ r.2.running = session.candidate) := by
  intro _ _
  simp only [Prog.bind_eq,Prog.done_bind]
  apply Prog.Returns.bind
  exact Prog.returns_of_forall (fun _ => ⟨⟨_,rfl⟩,rfl⟩)

/-- What follows once the candidate is applied. -/
theorem promoted_fared {session : Session} {changes : List Change} (hbase : s.running = base)
    (hchanged : session.candidate ≠ base) (box : Box H) :
    (promoted site.schema env s id actor none none session changes).Ends (watched (perform site) handed)
      (fun _ _ _ => True) (fun r w => Fared (I := I) base session.candidate s (.response r.1) r.2 w.2)
      (fun w => w.2 = [] ∨ (w.2 = [session.candidate] ∧ s.running = base)) (box,[session.candidate]) := by
  have hpart : ∀ e : Effect, e.Among [.running,.sessions,.marker,.archive] → e.part ≠ .host := by
    intro e he hhost
    rw [Effect.Among,hhost] at he
    simp at he
  have hreturns : (promoted site.schema env s id actor none none session changes).Ends (perform site) (fun _ _ _ => True)
      (fun r _ => (∃ generation, r.1 = .committed generation changes none) ∧ r.2.running = session.candidate)
      (fun _ => True) box := returns_promoted.ends
  refine (hreturns.unnoted only_promoted (fun e he r w => handed_apart (hpart e he) r w [session.candidate])).mono ?_ ?_
  · rintro ⟨response,s'⟩ w ⟨⟨⟨generation,hresponse⟩,hruns⟩,hconfigs⟩
    rw [hconfigs]
    cases hresponse
    exact .made generation changes s' hbase hchanged hruns
  · exact fun w hw => .inr ⟨hw.2,hbase⟩

theorem ends_commit (h : Drafting actor.uid id base tree s) (box : Box H) :
    (answer site.schema interfaces env s actor (.request (.commit id none none))).Ends (watched (perform site) handed)
      (fun _ _ _ => True) (fun r w => Fared base tree s r.1 r.2 w.2)
      (fun w => w.2 = [] ∨ (w.2 = [tree] ∧ s.running = base)) (box,[]) := by
  refine Prog.Ends.bind ?_
  rw [handle,Configd.commit]
  cases hplan : plan site.schema env s id actor with
  | error response =>
    have hfailed := plan_failed hplan
    cases response with
    | failed kind message => exact .refused kind message
    | _ => cases hfailed
  | ok planned =>
    obtain ⟨session,changes⟩ := planned
    obtain ⟨hown,-,hlevel,-,rfl⟩ := plan_eq_ok.mp hplan
    obtain ⟨session',hown',rfl,hbase⟩ := h.owned
    obtain rfl : session = session' := Except.ok.inj (hown.symm.trans hown')
    have hbase := hbase hlevel
    refine Prog.ends_ite (fun hempty => ?_) (fun hfull => ?_)
    · exact .needless _ _ hbase (by rw [← hbase]; exact order_isEmpty.mp hempty)
    have hchanged : session.candidate ≠ base := by
      intro heq
      refine hfull (order_isEmpty.mpr ?_)
      rw [hbase,heq,diff_eq_nil_iff]
    intro fate _
    rcases happly : site.applyHost session.candidate fate.host box.host with ⟨_ | ⟨e | _⟩,host⟩
    · simp only [watched,perform,happly]
      exact .inr ⟨rfl,hbase⟩
    · simp only [watched,perform,happly]
      exact .failed _ _ hbase
    · simp only [watched,perform,happly]
      exact promoted_fared hbase hchanged _

end Commits

/-! ### The scene after a commit -/

section Verdicts
variable {H : Type}

/-- Nothing at all, or the host was given the one configuration, and what ran was changed to it or not. -/
def Scene.AllOrNothing (base tree : ConfigTree) (scene : Scene H) : Prop :=
  (scene.tried = [] ∧ scene.moved = []) ∨
    (scene.tried = [(base,tree)] ∧ (scene.moved = [] ∨ scene.moved = [(base,tree)]))

/-- The one change was made, or there was nothing to change. -/
def Scene.Made (base tree : ConfigTree) (scene : Scene H) : Prop :=
  (scene.tried = [(base,tree)] ∧ scene.moved = [(base,tree)]) ∨
    (scene.tried = [] ∧ scene.moved = [] ∧ diff base tree = [])

/-- No change was made, unless a request was left in doubt. -/
structure Scene.Unmade (base tree : ConfigTree) (scene : Scene H) : Prop where
  allOrNothing : scene.AllOrNothing base tree
  unmoved : scene.doubt = false → scene.moved = []

variable {base tree : ConfigTree} {scene scene' : Scene H}

theorem Scene.Made.allOrNothing (h : scene.Made base tree) : scene.AllOrNothing base tree := by
  obtain ⟨htried,hmoved⟩ | ⟨htried,hmoved,-⟩ := h
  · exact .inr ⟨htried,.inr hmoved⟩
  · exact .inl ⟨htried,hmoved⟩

theorem Scene.AllOrNothing.kept (h : scene.AllOrNothing base tree) (hkept : scene.Kept scene') :
    scene'.AllOrNothing base tree := by
  unfold Scene.AllOrNothing
  rw [hkept.tried,hkept.moved]
  exact h

theorem Scene.Made.kept (h : scene.Made base tree) (hkept : scene.Kept scene') : scene'.Made base tree := by
  unfold Scene.Made
  rw [hkept.tried,hkept.moved]
  exact h

theorem Scene.Unmade.kept (h : scene.Unmade base tree) (hkept : scene.Kept scene') : scene'.Unmade base tree := by
  refine ⟨h.allOrNothing.kept hkept,fun hdoubt => hkept.moved.trans (h.unmoved ?_)⟩
  by_contra hne
  rw [hkept.doubt (Bool.eq_true_of_not_eq_false hne)] at hdoubt
  cases hdoubt

/-- The verdict on a run, by what it ends with. -/
def Verdict (base tree : ConfigTree) (outcome : Outcome) (scene : Scene H) : Prop :=
  (outcome = .ok → scene.Made base tree) ∧ (outcome ≠ .ok → scene.Unmade base tree)

theorem Verdict.kept {outcome : Outcome} (h : Verdict base tree outcome scene) (hkept : scene.Kept scene') :
    Verdict base tree outcome scene' := ⟨fun hok => (h.1 hok).kept hkept,fun hfailed => (h.2 hfailed).kept hkept⟩

theorem Verdict.allOrNothing {outcome : Outcome} (h : Verdict base tree outcome scene) :
    scene.AllOrNothing base tree := by
  by_cases hok : outcome = .ok
  · exact (h.1 hok).allOrNothing
  · exact (h.2 hok).allOrNothing

end Verdicts

section Committing
variable {I H F α : Type} {t : Terminal I} {site : Site H F} {interfaces : Interfaces I} {actor : Actor}
  {files : String → Except String String} {cli : Cli} {scene : Scene H} {id : SessionId} {base : ConfigTree} {d : Draft}

/-- What a served commit does to the scene of a client that has changed nothing yet. -/
theorem Fared.served (scene : Scene H) (box : Box H) {s s' : State} {reply : Reply I} {configs : List ConfigTree}
    {tree : ConfigTree} (h : Fared base tree s reply s' configs) (htried : scene.tried = []) (hmoved : scene.moved = []) :
    (∃ kind message, reply = .response (.failed kind message) ∧
        (scene.served s reply s' box configs).Unmade base tree) ∨
      ∃ generation changes, reply = .response (.committed generation changes none) ∧
        (scene.served s reply s' box configs).Made base tree := by
  cases h with
  | refused kind message =>
    refine .inl ⟨kind,message,rfl,.inl ⟨?_,?_⟩,fun _ => ?_⟩ <;> simp [Scene.served,htried,hmoved]
  | failed kind message hbase =>
    refine .inl ⟨kind,message,rfl,.inr ⟨?_,.inl ?_⟩,fun _ => ?_⟩ <;> simp [Scene.served,htried,hmoved,hbase]
  | needless generation changes hbase hsame =>
    refine .inr ⟨generation,changes,rfl,.inr ⟨?_,?_,hsame⟩⟩ <;> simp [Scene.served,htried,hmoved]
  | made generation changes s' hbase hchanged hruns =>
    refine .inr ⟨generation,changes,rfl,.inl ⟨?_,?_⟩⟩
    · simp [Scene.served,htried,hbase]
    · simp [Scene.served,hmoved,hbase,hruns,hchanged]

/-- The commit of a draft, as the client sees it. -/
theorem ends_committing {k : Except String (Reply I) → Play I α} {post : α → Scene H → Prop}
    (h : Drafted actor.uid id base cli scene d) (htried : scene.tried = []) (hmoved : scene.moved = [])
    (herror : ∀ e scene', scene'.Unmade base d.tree → (k (.error e)).Ends (talk site interfaces actor files)
      (Fair actor.uid) post (Scene.AllOrNothing base d.tree) scene')
    (hfailed : ∀ kind message scene', scene'.Unmade base d.tree →
      (k (.ok (.response (.failed kind message)))).Ends (talk site interfaces actor files)
        (Fair actor.uid) post (Scene.AllOrNothing base d.tree) scene')
    (hmade : ∀ generation changes scene', scene'.Made base d.tree →
      (k (.ok (.response (.committed generation changes none)))).Ends (talk site interfaces actor files)
        (Fair actor.uid) post (Scene.AllOrNothing base d.tree) scene') :
    (Client.call (.request (.commit id none none)) >>= k).Ends (talk site interfaces actor files) (Fair actor.uid) post
      (Scene.AllOrNothing base d.tree) scene := by
  intro turn hfair
  have hholds : (turn.others.foldl (System.step site) scene.system).Holds (Drafting actor.uid id base d.tree) :=
    run_drafting (hfair id h.given) h.holds
  have hidle : ∀ sys : System H, ({scene with system := sys} : Scene H).Unmade base d.tree :=
    fun _ => ⟨.inl ⟨htried,hmoved⟩,fun _ => hmoved⟩
  have hasked : ∀ P : Option (Reply I) × Scene H → Prop,
      (∀ scene', scene'.Unmade base d.tree → P (none,scene')) →
      (∀ kind message scene', scene'.Unmade base d.tree → P (some (.response (.failed kind message)),scene')) →
      (∀ generation changes scene', scene'.Made base d.tree →
        P (some (.response (.committed generation changes none)),scene')) →
      P ({scene with system := turn.others.foldl (System.step site) scene.system}.ask site interfaces actor turn
        (.request (.commit id none none))) := by
    intro P hnone hrefused hcommitted
    refine ask_cases (P := P) (hnone _ (hidle _)) (fun s hs => ?_)
    refine (ends_commit (hholds s hs) _).mono (fun r w hfared => ?_) (fun w hcut => hnone _ ⟨?_,fun h => (by cases h)⟩)
    · have hserved := Fared.served {scene with system := turn.others.foldl (System.step site) scene.system} w.1 hfared
        htried hmoved
      obtain ⟨kind,message,hreply,hunmade⟩ | ⟨generation,changes,hreply,hmade⟩ := hserved
      · rw [hreply] at hunmade ⊢
        exact hrefused kind message _ hunmade
      · rw [hreply] at hmade ⊢
        exact hcommitted generation changes _ hmade
    · obtain hnothing | ⟨hone,hbase⟩ := hcut
      · exact .inl ⟨by simp [Scene.killed,htried,hnothing],hmoved⟩
      · exact .inr ⟨by simp [Scene.killed,htried,hone,hbase],.inl hmoved⟩
  dsimp only [talk]
  split
  · next answered scene' hr =>
    split at hr
    · cases hr
      exact (hidle _).allOrNothing
    · cases hr
    · cases hr
    · cases hr
  · next r scene' hr =>
    split at hr
    · cases hr
    · cases hr
      exact herror _ _ (hidle _)
    · simp only [Prod.mk.injEq,Option.some.injEq] at hr
      obtain ⟨rfl,rfl⟩ := hr
      exact hasked (fun r => (k (r.1.elim (.error turn.error) .ok)).Ends (talk site interfaces actor files)
        (Fair actor.uid) post (Scene.AllOrNothing base d.tree) r.2) (fun scene' h => herror _ _ h) hfailed hmade
    · cases hr
      refine herror _ _ (hasked (fun r => ({r.2 with doubt := true} : Scene H).Unmade base d.tree) ?_ ?_ ?_)
      · exact fun scene' h => ⟨h.allOrNothing,fun h => (by cases h)⟩
      · exact fun kind message scene' h => ⟨h.allOrNothing,fun h => (by cases h)⟩
      · exact fun generation changes scene' h => ⟨h.allOrNothing,fun h => (by cases h)⟩

theorem ends_kept_of {p : Play I α} {P : Scene H → Prop} (hmild : p.Only Deed.Mild)
    (h : ∀ scene', scene.Kept scene' → P scene') :
    p.Ends (talk site interfaces actor files) (Fair actor.uid) (fun _ => P) P scene :=
  (ends_kept hmild).mono (fun _ => h) h

/-- What is printed of a commit does not change how it went. -/
theorem ends_concluding {tree : ConfigTree} {r : Done I × Cli}
    (hok : ∀ output outcome, r.1 = .ok (output,outcome) → Verdict base tree outcome scene)
    (herror : ∀ e, r.1 = .error e → scene.Unmade base tree) :
    (conclude t [] r).Ends (talk site interfaces actor files) (Fair actor.uid) (fun r => Verdict base tree r.1)
      (Scene.AllOrNothing base tree) scene := by
  obtain ⟨done,cli'⟩ := r
  unfold conclude
  cases done with
  | error e =>
    have hunmade := herror e rfl
    refine Prog.Ends.bind ((ends_kept_of (P := fun scene' => scene'.Unmade base tree) ?_ (fun _ => hunmade.kept)).mono ?_ ?_)
    · exact Prog.only_call (fun ask => nofun)
    · exact fun _ scene' h => ⟨nofun,fun _ => h⟩
    · exact fun scene' h => h.allOrNothing
  | ok shown =>
    obtain ⟨output,outcome⟩ := shown
    have hverdict := hok output outcome rfl
    exact Prog.Ends.bind ((ends_kept_of (P := Verdict base tree outcome) (mild_emit output []) (fun _ => hverdict.kept)).mono
      (fun _ _ h => h) (fun _ h => h.allOrNothing))

theorem command_commit (hmode : cli.mode = .configuration) (hsession : cli.session = some id) :
    cli.command t "commit" [] = cli.unmoved (expectCommit t (.request (.commit id none none))) := by
  obtain ⟨mode,session,prefixPath,user,hostname,context⟩ := cli
  cases hmode
  cases hsession
  rfl

/-- The line `commit`. -/
theorem ends_commit_line (h : Drafted actor.uid id base cli scene d) (htried : scene.tried = [])
    (hmoved : scene.moved = []) :
    (cli.run t "commit").Ends (talk site interfaces actor files) (Fair actor.uid)
      (fun r => Verdict base d.tree r.1) (Scene.AllOrNothing base d.tree) scene := by
  have hrun : cli.run t "commit" = cli.command t "commit" [] >>= conclude t [] := rfl
  rw [hrun,command_commit h.mode h.session]
  refine Prog.Ends.bind (Prog.Ends.bind ?_)
  refine ends_committing h htried hmoved (fun e scene' hunmade => ?_) (fun kind message scene' hunmade => ?_)
    (fun generation changes scene' hmade => ?_)
  · exact ends_concluding (fun _ _ => nofun) (fun _ _ => hunmade)
  · refine ends_concluding (fun output outcome hok => ⟨fun heq => ?_,fun _ => hunmade⟩) (fun _ => nofun)
    cases hok
    exact absurd heq (Outcome.of_ne_ok kind)
  · refine ends_concluding (fun output outcome hok => ⟨fun _ => hmade,fun hne => ?_⟩) (fun _ => nofun)
    cases hok
    exact absurd rfl hne

theorem returns_refresh : (cli.refresh : Play I Cli).Returns (fun cli' => cli'.mode = cli.mode) := by
  refine Prog.Returns.bind (Prog.returns_of_forall (fun shown => ?_))
  exact Prog.Returns.bind (Prog.returns_of_forall (fun candidate _ => rfl))

/-- The line `configure`: a draft of what runs. -/
theorem comes_configure (hmode : cli.mode = .operational) :
    Comes site interfaces actor files (fun r scene' => r.1 = .ok →
      ∃ id base, Drafted actor.uid id base r.2 scene' ⟨Path.root,base⟩) (cli.run t "configure") scene := by
  have hrun : cli.run t "configure" = cli.command t "configure" [] >>= conclude t [] := rfl
  have hcommand : cli.command t "configure" [] = cli.configure t := by
    unfold Cli.command
    rw [hmode]
    rfl
  suffices hconfigure : Comes site interfaces actor files (fun r scene' => ∀ output, r.1 = .ok (output,.ok) →
      ∃ id base, Drafted actor.uid id base r.2 scene' ⟨Path.root,base⟩) (cli.configure t) scene by
    rw [hrun,hcommand]
    exact Prog.Ends.bind (hconfigure.mono (fun r scene' hr => comes_conclude (P := fun cli' scene' => ∃ id base,
      Drafted actor.uid id base cli' scene' ⟨Path.root,base⟩) [] hr) (fun _ h => h))
  refine ends_query (P := fun _ => True) (Q := fun reply s => ∀ id, opened reply = some id →
    ∃ base, Drafting actor.uid id base base s) (fun _ _ _ _ => trivial) (fun _ _ _ => returns_open)
    (fun e scene' _ output => nofun) (fun reply s scene' hsession hprocess hopen => ?_)
  split
  · exact fun output => nofun
  · next id hreply =>
    cases hreply
    obtain ⟨base,hdrafting⟩ := hopen id rfl
    exact fun _ _ => ⟨id,base,rfl,rfl,rfl,hsession,holds_of hprocess hdrafting⟩
  · exact fun output hok => by simp [unexpected] at hok

end Committing

/-! ### Files -/

section Files
variable {I H F : Type} {t : Terminal I} {site : Site H F} {interfaces : Interfaces I} {actor : Actor}
  {files : String → Except String String} {cli : Cli} {scene : Scene H}

/-- Nothing has been applied for the client. -/
def Scene.Clean (scene : Scene H) : Prop := scene.tried = [] ∧ scene.moved = []

theorem Scene.Clean.kept {scene' : Scene H} (h : scene.Clean) (hkept : scene.Kept scene') : scene'.Clean :=
  ⟨hkept.tried.trans h.1,hkept.moved.trans h.2⟩

/-- What may have come of a file: nothing, or the change that it makes of what ran. -/
def Scene.OneChange (t : Terminal I) (schema : Schema) (text : String) (scene : Scene H) : Prop :=
  scene.Clean ∨ ∃ base tree, edited t schema text base = some tree ∧ scene.AllOrNothing base tree

/-- How a run of a file is to end: the change of the file was made, or none was, short of a request in doubt. -/
structure Scene.Settled (t : Terminal I) (schema : Schema) (text : String) (outcome : Outcome) (scene : Scene H) :
    Prop where
  change : scene.OneChange t schema text
  made : outcome = .ok → ∃ base tree, edited t schema text base = some tree ∧ scene.Made base tree
  unmade : outcome ≠ .ok → scene.doubt = false → scene.moved = []

variable {text : String}

theorem Scene.Clean.settled {outcome : Outcome} (h : scene.Clean) (hfailed : outcome ≠ .ok) :
    scene.Settled t site.schema text outcome :=
  ⟨.inl h,fun hok => absurd hok hfailed,fun _ _ => h.2⟩

theorem Verdict.settled {base tree : ConfigTree} {outcome : Outcome} (h : Verdict base tree outcome scene)
    (hedited : edited t site.schema text base = some tree) : scene.Settled t site.schema text outcome :=
  ⟨.inr ⟨base,tree,hedited,h.allOrNothing⟩,fun hok => ⟨base,tree,hedited,h.1 hok⟩,fun hfailed => (h.2 hfailed).unmoved⟩

theorem mild_line {line : String} (hline : editsOnly t line) : (cli.run t line).Only Deed.Mild := by
  refine mild_run (fun verb rest modifiers htyped => ?_)
  rintro rfl
  rw [editsOnly,htyped] at hline
  cases hline

theorem typed_discard (regexError : String → Option String) :
    typed regexError "exit discard" = .command "exit" ["discard"] [] := by
  rfl

theorem mild_of_typed {line verb : String} {rest : List String} {modifiers : List Pipe.Modifier}
    (htyped : typed t.regexError line = .command verb rest modifiers) (hverb : verb ≠ "commit") :
    (cli.run t line).Only Deed.Mild := by
  refine mild_run (fun verb' rest' modifiers' htyped' => ?_)
  rw [htyped] at htyped'
  cases htyped'
  exact hverb

theorem mild_exit : (cli.run t "exit").Only Deed.Mild := mild_of_typed (typed_exit t.regexError) (by decide)

theorem mild_exit_discard : (cli.run t "exit discard").Only Deed.Mild :=
  @mild_of_typed I t cli "exit discard" "exit" ["discard"] [] (typed_discard t.regexError) (by decide)

theorem mild_batchLines (file : String) (number : ℕ) (lines : List (List Char))
    (hlines : ∀ line ∈ lines, (batchLine line).all (editsOnly t)) :
    (batchLines t file number cli lines).Only Deed.Mild := by
  induction lines generalizing number cli with
  | nil => trivial
  | cons line lines ih =>
    have hrest := fun line hline => hlines line (List.mem_cons_of_mem _ hline)
    have hline := hlines line List.mem_cons_self
    unfold batchLines
    split
    · exact ih (number+1) hrest
    · next line hbatch =>
      rw [hbatch,Option.all_some] at hline
      refine Prog.Only.bind mild_refresh (fun cli' => Prog.Only.bind (mild_line hline) (fun r => ?_))
      refine mild_ite (fun _ => ih (number+1) hrest) (fun _ => mild_alone (fun _ => nofun) (fun _ => ?_))
      exact Prog.Only.bind mild_exit_discard (fun _ => trivial)

theorem batchCommit_settled {id : SessionId} {base : ConfigTree} {d : Draft} (h : Drafted actor.uid id base cli scene d)
    (hclean : scene.Clean) (hedited : edited t site.schema text base = some d.tree) :
    (batchCommit t cli).Ends (talk site interfaces actor files) (Fair actor.uid)
      (fun r => Scene.Settled t site.schema text r.1) (Scene.OneChange t site.schema text) scene := by
  have hchange : ∀ scene' : Scene H, scene'.AllOrNothing base d.tree → scene'.OneChange t site.schema text :=
    fun scene' h => .inr ⟨base,d.tree,hedited,h⟩
  refine Prog.Ends.bind (((comes_refresh h).and (ends_kept mild_refresh)).mono ?_ (fun _ h => .inl (hclean.kept h.2)))
  rintro cli' scene' ⟨h,hkept⟩
  have hclean := hclean.kept hkept
  refine Prog.Ends.bind ((ends_commit_line h hclean.1 hclean.2).mono (fun r scene'' hverdict => ?_) hchange)
  refine Prog.ends_ite (fun hok => ?_) (fun hfailed => ?_)
  · rw [hok] at hverdict
    refine Prog.Ends.bind ((ends_kept_of (P := Verdict base d.tree .ok) mild_exit (fun _ => hverdict.kept)).mono ?_ ?_)
    · exact fun left scene₃ h => h.settled hedited
    · exact fun scene₃ h => hchange scene₃ h.allOrNothing
  · refine Prog.Ends.bind ((ends_kept_of (P := Verdict base d.tree r.1) mild_exit_discard
      (fun _ => hverdict.kept)).mono ?_ ?_)
    · exact fun left scene₃ h => h.settled hedited
    · exact fun scene₃ h => hchange scene₃ h.allOrNothing

/-- The lines of the file, and the commit behind them. -/
theorem opened_settled {id : SessionId} {base : ConfigTree} (file : String)
    (h : Drafted actor.uid id base cli scene ⟨Path.root,base⟩) (hclean : scene.Clean) (hscript : isScript t text) :
    (batchLines t file 0 cli (Lexer.lines text.toList) >>= fun r => match r.1 with
      | .error outcome => pure (outcome,r.2)
      | .ok () => batchCommit t r.2).Ends (talk site interfaces actor files) (Fair actor.uid)
      (fun r => Scene.Settled t site.schema text r.1) (Scene.OneChange t site.schema text) scene := by
  have hlines : ∀ line ∈ Lexer.lines text.toList, (batchLine line).all (editsOnly t) := List.all_eq_true.mp hscript
  refine Prog.Ends.bind (((comes_batchLines file 0 _ hlines h).and (ends_kept (mild_batchLines file 0 _ hlines))).mono ?_ ?_)
  · rintro ⟨done,cli'⟩ scene' ⟨⟨hdone,hfailed⟩,hkept⟩
    have hclean := hclean.kept hkept
    cases done with
    | error outcome => exact hclean.settled (hfailed outcome rfl)
    | ok u =>
      obtain ⟨d',hd,h⟩ := hdone u rfl
      exact batchCommit_settled h hclean (by rw [edited,hd]; rfl)
  · exact fun scene' h => .inl (hclean.kept h.2)

theorem mild_configure_line : (cli.run t "configure").Only Deed.Mild :=
  @mild_of_typed I t cli "configure" "configure" [] [] rfl (by decide)

/-- A file of edits is one change. Whatever others ask of the daemon meanwhile, whatever becomes of the client's requests
and wherever the client or the daemon is cut off, the host is given at most one configuration on its account, and what
runs changes at most once: from what ran just before to what the whole file makes of that. When it ends well the change
was made, unless there was nothing to change; when it does not, no change was made, unless a request was left in doubt. -/
theorem batch_atomic (t : Terminal I) (site : Site H F) (interfaces : Interfaces I) (actor : Actor)
    (files : String → Except String String) {file text : String} (hfile : files file = .ok text)
    (hscript : isScript t text) (user : String) (system : System H) :
    (batch t (.new user) file).Ends (talk site interfaces actor files) (Fair actor.uid)
      (fun r => Scene.Settled t site.schema text r.1) (Scene.OneChange t site.schema text)
      ⟨system,none,[],[],false⟩ := by
  have hclean : (⟨system,none,[],[],false⟩ : Scene H).Clean := ⟨rfl,rfl⟩
  generalize (⟨system,none,[],[],false⟩ : Scene H) = scene at hclean
  refine ends_readFile (.inl hclean) ?_
  rw [hfile]
  have hmode : (Cli.new user).refresh.Ends (talk site interfaces actor files) (Fair actor.uid)
      (fun cli' _ => cli'.mode = (Cli.new user).mode) (fun _ => True) scene := returns_refresh.ends
  refine Prog.Ends.bind ((hmode.and (ends_kept mild_refresh)).mono ?_ (fun _ h => .inl (hclean.kept h.2)))
  rintro cli scene' ⟨hmode,hkept⟩
  have hclean := hclean.kept hkept
  refine Prog.Ends.bind (((comes_configure hmode).and (ends_kept mild_configure_line)).mono ?_
    (fun _ h => .inl (hclean.kept h.2)))
  rintro opened scene'' ⟨hopened,hkept⟩
  have hclean := hclean.kept hkept
  refine Prog.ends_ite (fun hok => ?_) (fun hfailed => hclean.settled nofun)
  obtain ⟨id,base,h⟩ := hopened hok
  exact opened_settled file h hclean hscript

end Files

/-! ### A file with one edit -/

/-- A terminal that shows what needs no library. -/
def plainTerminal : Terminal Unit where
  schema := Shipped.schema []
  colour := false
  regexError := fun _ => none
  isMatch := fun _ _ => true
  pretty := fun _ => ""
  report := fun _ _ => ""
  reportJson := fun _ _ => .null
  helpLines := fun _ => ""
  debug := fun _ => ""

/-- A turn in which everything goes through and nobody else asks for anything. -/
def smoothTurn : Turn Unit Unit where
  others := []
  env := ⟨0,"",.ok "0123456789abcdef"⟩
  fate := Fate.smooth ()
  way := .answered
  error := ""
  alone := fun d => match d with
    | .connect => some (.ok ())
    | .print _ => some ()
    | .eprint _ => some ()
    | .ports => some []
    | _ => none

/-- A daemon that serves, on a box out of the installer. -/
def servingSystem : System (Option ConfigTree) :=
  (tried.take 3).foldl (System.step (Site.taking (Shipped.schema []))) ⟨Box.fresh none none,none⟩

def namingFile : String := "# the name of the box\nset system host-name edge\n"

def namingRun : Option (Outcome × Cli) × Scene (Option ConfigTree) :=
  (batch plainTerminal (.new "root") "name.ns").run
    (talk (Site.taking (Shipped.schema [])) ⟨fun _ _ => (),fun _ => true⟩ ⟨0,"root"⟩ (fun _ => .ok namingFile))
    (fun _ _ => smoothTurn) 0 ⟨servingSystem,none,[],[],false⟩

/-- The file is run, and the one change is made. -/
theorem naming_atomic :
    namingRun.1.map Prod.fst = some .ok ∧ namingRun.2.moved.length = 1 ∧
    (batch plainTerminal (.new "root") "name.ns").Ends
      (talk (Site.taking (Shipped.schema [])) ⟨fun _ _ => (),fun _ => true⟩ ⟨0,"root"⟩ (fun _ => .ok namingFile)) (Fair 0)
      (fun r => Scene.Settled plainTerminal (Shipped.schema []) namingFile r.1)
      (Scene.OneChange plainTerminal (Shipped.schema []) namingFile) ⟨servingSystem,none,[],[],false⟩ :=
  ⟨by decide +kernel,by decide +kernel,batch_atomic plainTerminal (Site.taking (Shipped.schema []))
    ⟨fun _ _ => (),fun _ => true⟩ ⟨0,"root"⟩ (fun _ => .ok namingFile) rfl (by decide +kernel) "root" servingSystem⟩

end Nightshade.Cli
