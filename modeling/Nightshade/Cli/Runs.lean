import Mathlib
import Nightshade.Cli.Operator

/-! Whole runs of the program: one command, a file of commands, or a prompt that is come back to until it is left. -/
namespace Nightshade.Cli
open Foundation Schema Configd

section
variable {I : Type} {t : Terminal I} {past : Acts I} {last : Option Signal} {cli : Cli}

theorem candidate_abides (hcalm : Calm last past) :
    (cli.candidate : Play I ConfigTree).Abides (Proper t) (fun past' _ => Calm last past' ∧
      ∃ between, past' = between ++ past ∧ ∀ d ∈ between, ∃ session, d.1 = .call (.showCandidate session Path.root))
      past := by
  unfold Cli.candidate
  split
  · next session _ =>
    refine abides_ask (Mere.proper trivial hcalm) (fun candidate => ⟨hcalm.cons rfl rfl,?_⟩)
    exact ⟨[⟨.call (.showCandidate session Path.root),candidate⟩],rfl,by simp⟩
  · exact ⟨hcalm,[],rfl,nofun⟩

/-- Looking up what the prompt shows changes nothing else. -/
theorem refresh_abides (hsane : cli.Sane t) (hcalm : Calm last past) :
    (cli.refresh : Play I Cli).Abides (Proper t) (fun past' cli' => Left t last past' cli' ∧ cli'.Refreshed past')
      past := by
  refine abides_ask (Mere.proper trivial hcalm) (fun shown => ?_)
  have hcalm : Calm last (⟨.call (.showRunning Path.root),shown⟩::past) := hcalm.cons rfl rfl
  refine (candidate_abides hcalm).seq ?_
  rintro _ candidate ⟨hcalm,between,rfl,hbetween⟩
  refine ⟨Mere.proper trivial hcalm,fun ports =>
    ⟨⟨hcalm.cons rfl rfl,⟨hsane.session,hsane.path,hsane.top⟩⟩,shown,past,between,ports,rfl,hbetween,?_⟩⟩
  intro name hname
  show (hostName shown).getD cli.hostname = name
  rw [hname]
  rfl

theorem oneShot_abides (hsane : cli.Sane t) (hcalm : Calm none past) (command : String) (json : Bool) :
    (oneShot t cli command json).Abides (Proper t) (fun past' _ => Calm none past') past := by
  refine (refresh_abides hsane hcalm).seq ?_
  rintro past' cli' ⟨hleft,-⟩
  exact (run_abides hleft.sane hleft.calm (fun _ => nofun)).weaken (fun _ _ h => h.1.calm)

/-- Away from a prompt every line may be run. -/
theorem run_unprompted (hleft : Left t none past cli) (line : String) :
    (cli.run t line).Abides (Proper t) (fun past' r => Left t none past' r.2) past :=
  (run_abides hleft.sane hleft.calm (fun _ => nofun)).weaken (fun _ _ h => h.1)

theorem refresh_unprompted (hleft : Left t none past cli) :
    (cli.refresh : Play I Cli).Abides (Proper t) (fun past' cli' => Left t none past' cli') past :=
  (refresh_abides hleft.sane hleft.calm).weaken (fun _ _ h => h.1)

theorem batchLines_abides (file : String) (number : ℕ) (lines : List (List Char)) (hleft : Left t none past cli) :
    (batchLines t file number cli lines).Abides (Proper t) (fun past' r => Left t none past' r.2) past := by
  induction lines generalizing number cli past with
  | nil => exact hleft
  | cons line lines ih =>
    unfold batchLines
    split
    · exact ih (number+1) hleft
    · refine (refresh_unprompted hleft).seq (fun past' cli' hleft => ?_)
      refine (run_unprompted hleft _).seq (fun past'' r hleft => ?_)
      refine Prog.abides_ite (fun _ => ih (number+1) hleft) (fun _ => ?_)
      refine abides_eprint (Mere.proper trivial hleft.calm) ?_
      exact (run_unprompted ⟨hleft.calm.cons rfl rfl,hleft.sane⟩ "exit discard").seq
        (fun _ _ hleft => Prog.abides_done.mpr hleft)

theorem batchCommit_abides (hleft : Left t none past cli) :
    (batchCommit t cli).Abides (Proper t) (fun past' r => Left t none past' r.2) past := by
  refine (refresh_unprompted hleft).seq (fun past' cli' hleft => ?_)
  refine (run_unprompted hleft "commit").seq (fun past'' r hleft => ?_)
  refine Prog.abides_ite (fun _ => ?_) (fun _ => ?_)
  · exact (run_unprompted hleft "exit").seq (fun _ _ hleft => Prog.abides_done.mpr hleft)
  · exact (run_unprompted hleft "exit discard").seq (fun _ _ hleft => Prog.abides_done.mpr hleft)

theorem batch_abides (hleft : Left t none past cli) (file : String) :
    (batch t cli file).Abides (Proper t) (fun past' r => Left t none past' r.2) past := by
  refine abides_readFile (Mere.proper trivial hleft.calm) (fun r => ?_)
  have hleft : Left t none (⟨.readFile file,r⟩::past) cli := ⟨hleft.calm.cons rfl rfl,hleft.sane⟩
  cases r with
  | error e => exact ⟨Mere.proper trivial hleft.calm,fun _ => ⟨hleft.calm.cons rfl rfl,hleft.sane⟩⟩
  | ok text =>
    refine (refresh_unprompted hleft).seq (fun past' cli' hleft => ?_)
    refine (run_unprompted hleft "configure").seq (fun past'' opened hleft => ?_)
    refine Prog.abides_ite (fun _ => ?_) (fun _ => hleft)
    refine (batchLines_abides file 0 _ hleft).seq (fun past₃ r hleft => ?_)
    split
    · exact hleft
    · exact batchCommit_abides hleft

/-! ### The prompt -/

/-- The session was left on purpose: at the end of what is typed, or by a line that says so. -/
def LeftOnPurpose (t : Terminal I) (past : Acts I) : Prop :=
  ∃ signal, lastSignal past = some signal ∧ (signal = .ctrlD ∨ signal.Says (Leaves t))

/-- How a prompt is left: on purpose, or because the terminal cannot be driven. -/
def PromptLeft (t : Terminal I) (past : Acts I) : Option Outcome → Prop
  | none => True
  | some .ok => LeftOnPurpose t past
  | some _ => Stranded past

/-- `exit` does not say to discard anything. -/
theorem typed_exit (regexError : String → Option String) : Cli.typed regexError "exit" = .command "exit" [] [] := by
  rfl

theorem not_discards_exit : ¬Discards t "exit" := by
  rintro ⟨rest,modifiers,h⟩
  rw [typed_exit] at h
  cases h

theorem prompting_abides (turns : ℕ) (hsane : cli.Sane t) (hcalm : Calm last past) :
    (prompting t turns cli).Abides (Proper t)
      (fun past' r => (∃ last', Calm last' past') ∧ PromptLeft t past' r.1) past := by
  induction turns generalizing cli past last with
  | zero => exact ⟨⟨last,hcalm⟩,trivial⟩
  | succ turns ih =>
    unfold prompting
    refine (refresh_abides hsane hcalm).seq ?_
    rintro past' cli' ⟨⟨hcalm,hsane⟩,hrefreshed⟩
    have hproper : Proper t past' (.readLine cli'.prompt) :=
      { alive := fun _ => nofun
        prompt := fun text htext => by cases htext; exact ⟨cli',hsane,hrefreshed,rfl⟩
        program := fun _ => nofun
        shell := nofun
        open_ := fun hopen => by rw [hcalm.idle] at hopen; cases hopen
        close := fun _ => nofun
        minutes := fun _ _ _ => nofun }
    refine abides_readLine hproper (fun signal => ?_)
    have hcalm : Calm (some signal) (⟨.readLine cli'.prompt,signal⟩::past') := ⟨hcalm.idle,rfl⟩
    cases signal with
    | line text =>
      refine (run_abides hsane hcalm (fun h signal hs => by cases hs; exact h)).seq ?_
      rintro past'' r ⟨⟨hcalm,hsane⟩,hleaves⟩
      exact Prog.abides_ite (fun hleave => ⟨⟨_,hcalm⟩,_,hcalm.typed,.inr (hleaves hleave)⟩) (fun _ => ih hsane hcalm)
    | hostCommand text =>
      refine (run_abides hsane hcalm (fun h signal hs => by cases hs; exact h)).seq ?_
      rintro past'' r ⟨⟨hcalm,hsane⟩,hleaves⟩
      exact Prog.abides_ite (fun hleave => ⟨⟨_,hcalm⟩,_,hcalm.typed,.inr (hleaves hleave)⟩) (fun _ => ih hsane hcalm)
    | ctrlC => exact ih hsane hcalm
    | other => exact ih hsane hcalm
    | ctrlD =>
      cases hmode : cli'.mode with
      | configuration =>
        refine (run_abides hsane hcalm (fun h => absurd h not_discards_exit)).seq ?_
        rintro past'' r ⟨⟨hcalm,hsane⟩,-⟩
        exact ih hsane hcalm
      | operational => exact ⟨⟨_,hcalm⟩,_,hcalm.typed,.inl rfl⟩
    | broken e =>
      exact ⟨Mere.proper trivial hcalm,fun _ => ⟨⟨_,hcalm.cons rfl rfl⟩,.inr ⟨e,hcalm.typed⟩⟩⟩

/-! ### The whole program -/

/-- A shell was started. -/
def Shelled (past : Acts I) : Prop := ∃ r, ⟨Deed.shell,r⟩ ∈ past

theorem Stranded.cons (h : Stranded past) {d : Deed} {r : Deed.Answer I d} (hsignal : signal d r = none) :
    Stranded (⟨d,r⟩::past) := by
  obtain ⟨e,he⟩ | ⟨e,he⟩ := h
  · exact .inl ⟨e,List.mem_cons_of_mem _ he⟩
  · refine .inr ⟨e,?_⟩
    rw [lastSignal,List.findSome?_cons,hsignal]
    exact he

theorem proper_fallback (hstranded : Stranded past) : Proper t past .shell where
  alive _ := nofun
  prompt _ := nofun
  program _ := nofun
  shell _ := .inr hstranded
  open_ _ := .inl rfl
  close _ := nofun
  minutes _ _ _ := nofun

/-- Without a session a login shell becomes another shell. -/
theorem noSession_abides (hcalm : Calm last past) (hstranded : Stranded past) (loginShell : Bool) (message : String) :
    (noSession loginShell message).Abides (Proper t)
      (fun past' _ => Calm last past' ∧ (loginShell = true → Shelled past')) past := by
  unfold noSession
  refine Prog.abides_ite (fun _ => ?_) (fun hlogin => ?_)
  · refine abides_eprint (Mere.proper trivial hcalm) ?_
    refine abides_shell (proper_fallback (hstranded.cons rfl)) (fun r => ?_)
    have hcalm : ∀ text, Calm last (⟨.shell,r⟩::⟨.eprint text,()⟩::past) := fun _ => (hcalm.cons rfl rfl).cons rfl rfl
    split
    · exact ⟨hcalm _,fun _ => ⟨_,List.mem_cons_self⟩⟩
    · refine abides_eprint (Mere.proper trivial (hcalm _)) ?_
      exact ⟨(hcalm _).cons rfl rfl,fun _ => ⟨_,List.mem_cons_of_mem _ List.mem_cons_self⟩⟩
  · refine abides_eprint (Mere.proper trivial hcalm) ?_
    exact ⟨hcalm.cons rfl rfl,fun h => absurd h hlogin⟩

theorem usageError_abides (hcalm : Calm last past) (message : String) :
    (usageError message).Abides (Proper t) (fun past' _ => Calm last past') past :=
  abides_eprint (Mere.proper trivial hcalm) (hcalm.cons rfl rfl)

theorem arguments_abides (hcalm : Calm last past) (argv : List String) (given : Arguments) :
    (arguments argv given).Abides (Proper t) (fun past' _ => Calm last past') past := by
  have husage : ∀ message, (do
      let outcome ← usageError message
      return .error outcome : Play I (Except Outcome Arguments)).Abides (Proper t) (fun past' _ => Calm last past') past :=
    fun message => (usageError_abides hcalm message).seq (fun _ _ hcalm => Prog.abides_done.mpr hcalm)
  have hprint : ∀ text, (do
      print text
      return .error Outcome.ok : Play I (Except Outcome Arguments)).Abides (Proper t) (fun past' _ => Calm last past')
        past := fun text => abides_print (Mere.proper trivial hcalm) (Prog.abides_done.mpr (hcalm.cons rfl rfl))
  fun_induction arguments argv given with
  | case1 given => exact hcalm
  | case2 given value rest ih => exact ih
  | case3 given => exact husage _
  | case4 given value rest _ ih => exact ih
  | case5 given => exact husage _
  | case6 rest given _ _ ih => exact ih
  | case7 rest given => exact hprint _
  | case8 argument rest given => exact hprint _
  | case9 argument rest given => exact husage _

theorem warnIfBootFailed_abides (hcalm : Calm last past) :
    (warnIfBootFailed : Play I Unit).Abides (Proper t) (fun past' _ => Calm last past') past := by
  refine abides_readFile (Mere.proper trivial hcalm) (fun r => ?_)
  have hcalm : Calm last (⟨.readFile bootFailurePath,r⟩::past) := hcalm.cons rfl rfl
  split
  · exact hcalm
  · exact abides_eprint (Mere.proper trivial hcalm) (Prog.abides_done.mpr (hcalm.cons rfl rfl))

theorem interactive_abides (turns : ℕ) (hsane : cli.Sane t) (hcalm : Calm last past) :
    (interactive t turns cli).Abides (Proper t)
      (fun past' r => (∃ last', Calm last' past') ∧ PromptLeft t past' r.1) past := by
  refine abides_print (Mere.proper trivial hcalm) ?_
  refine (warnIfBootFailed_abides (hcalm.cons rfl rfl)).seq (fun _ _ hcalm => ?_)
  exact prompting_abides turns hsane hcalm

/-- How a session at the prompt is left: on purpose, or there is a shell in its place. -/
def SessionLeft (t : Terminal I) (loginShell : Bool) (past : Acts I) : Option Outcome → Prop
  | none => True
  | some outcome => (outcome = .ok ∧ LeftOnPurpose t past) ∨ (loginShell = true → Shelled past)

theorem promptSession_abides (loginShell : Bool) (turns : ℕ) (hsane : cli.Sane t) (hcalm : Calm last past) :
    (promptSession t loginShell turns cli).Abides (Proper t)
      (fun past' outcome => (∃ last', Calm last' past') ∧ SessionLeft t loginShell past' outcome) past := by
  refine (interactive_abides turns hsane hcalm).seq ?_
  rintro past' ⟨outcome,cli'⟩ ⟨⟨last',hcalm⟩,hleft⟩
  cases outcome with
  | none => exact ⟨⟨_,hcalm⟩,trivial⟩
  | some outcome =>
    refine Prog.abides_ite (fun hlogin => ?_) (fun hstay => ?_)
    · have hstranded : Stranded past' := by
        cases outcome with
        | ok => exact absurd rfl hlogin.2
        | commandError | configError | leave => exact hleft
      refine (noSession_abides hcalm hstranded loginShell _).seq (fun _ _ h => ?_)
      exact ⟨⟨_,h.1⟩,.inr h.2⟩
    · refine ⟨⟨_,hcalm⟩,?_⟩
      by_cases hok : outcome = .ok
      · subst hok
        exact .inl ⟨rfl,hleft⟩
      · exact .inr (fun hlogin => absurd ⟨hlogin,hok⟩ hstay)

theorem sane_new (user : String) : (Cli.new user).Sane t where
  session := by simp [Cli.new]
  path := rfl
  top _ := rfl

theorem calm_nil : Calm none ([] : Acts I) := ⟨rfl,rfl⟩

/-- The program once its options are read. -/
theorem start_abides (argv : List String) (user : String) (turns : ℕ) (given : Arguments) (hcalm : Calm none past) :
    (start t argv user turns given).Abides (Proper t) (fun past' outcome => (∃ last', Calm last' past') ∧
      (given.command = none → given.file = none → SessionLeft t (isLoginShell argv) past' outcome)) past := by
  refine abides_connect (Mere.proper trivial hcalm) (fun r => ?_)
  have hcalm : Calm none (⟨.connect,r⟩::past) := hcalm.cons rfl rfl
  cases r with
  | error e =>
    have hstranded : Stranded (⟨.connect,.error e⟩::past) := .inl ⟨e,List.mem_cons_self⟩
    refine (noSession_abides hcalm hstranded (isLoginShell argv) e).seq (fun _ _ h => ?_)
    exact ⟨⟨_,h.1⟩,fun _ _ => .inr h.2⟩
  | ok _ =>
    obtain ⟨command,file,json⟩ := given
    have hleft : Left t none (⟨.connect,.ok ()⟩::past) (.new user) := ⟨hcalm,sane_new user⟩
    cases command with
    | some command =>
      cases file with
      | some file =>
        exact (usageError_abides hcalm _).seq (fun _ _ hcalm => Prog.abides_done.mpr ⟨⟨_,hcalm⟩,nofun⟩)
      | none =>
        exact (oneShot_abides hleft.sane hcalm command json).seq
          (fun _ _ hcalm => Prog.abides_done.mpr ⟨⟨_,hcalm⟩,nofun⟩)
    | none =>
      cases file with
      | some file =>
        exact (batch_abides hleft file).seq (fun _ _ hleft => Prog.abides_done.mpr ⟨⟨_,hleft.calm⟩,fun _ => nofun⟩)
      | none =>
        exact (promptSession_abides _ turns hleft.sane hcalm).weaken (fun _ _ h => ⟨h.1,fun _ _ => h.2⟩)

theorem main_abides (t : Terminal I) (argv : List String) (user : String) (turns : ℕ) :
    (main t argv user turns).Abides (Proper t) (fun past' outcome => entered past' = false ∧
      (argv.tail = [] → SessionLeft t (isLoginShell argv) past' outcome)) [] := by
  by_cases htail : argv.tail = []
  · have hstart := @start_abides _ t [] argv user turns ⟨none,none,false⟩ calm_nil
    unfold main
    rw [htail]
    exact hstart.weaken (fun _ _ h => ⟨h.1.elim (fun _ hcalm => hcalm.idle),fun _ => h.2 rfl rfl⟩)
  · refine (arguments_abides calm_nil argv.tail _).seq (fun past given hcalm => ?_)
    split
    · exact ⟨hcalm.idle,fun h => absurd h htail⟩
    · exact (start_abides argv user turns _ hcalm).weaken (fun _ _ h =>
        ⟨h.1.elim (fun _ hcalm => hcalm.idle),fun h => absurd h htail⟩)

/-- Work is not lost by leaving: with somebody at the prompt, a session is closed when the daemon has just said that
there is nothing uncommitted in it, or when what was typed last is `exit discard`. -/
theorem exit_lossless (t : Terminal I) (argv : List String) (user : String) (turns : ℕ) :
    (main t argv user turns).Abides (fun past d => ∀ id, d = .call (.request (.sessionClose id)) →
        Agreed past id ∨ ∀ signal, lastSignal past = some signal → signal.Says (Discards t))
      (fun _ _ => True) [] :=
  (main_abides t argv user turns).mono (fun _ _ h => h.close) (fun _ _ _ => trivial)

end
end Nightshade.Cli
