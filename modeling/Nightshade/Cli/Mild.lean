import Mathlib
import Nightshade.Cli.Operator
import Nightshade.Cli.Scene

/-! A commit is asked for by the command of that name and by nothing else. -/
namespace Nightshade.Cli
open Foundation Schema Configd

section
variable {I α : Type} {t : Terminal I} {cli : Cli}

theorem mild_ask {ask : Ask} {k : Except String (Reply I) → Play I α} (h : commits ask = false)
    (hk : ∀ r, (k r).Only Deed.Mild) : (Client.call ask >>= k).Only Deed.Mild := by
  refine ⟨?_,hk⟩
  rintro ask' heq
  cases heq
  exact h

/-- A deed that the daemon has no part in. -/
theorem mild_alone {e : Deed} {k : Deed.Answer I e → Play I α} (h : ∀ ask, e ≠ .call ask)
    (hk : ∀ r, (k r).Only Deed.Mild) : (Prog.call e >>= k).Only Deed.Mild :=
  ⟨fun ask heq => absurd heq (h ask),hk⟩

theorem mild_ite {c : Prop} [Decidable c] {p q : Play I α} (hp : c → p.Only Deed.Mild) (hq : ¬c → q.Only Deed.Mild) :
    (if c then p else q).Only Deed.Mild := by
  split_ifs with h
  · exact hp h
  · exact hq h

theorem mild_expectOk {ask : Ask} (h : commits ask = false) : (expectOk t ask).Only Deed.Mild :=
  mild_ask h (fun r => by split <;> trivial)

theorem mild_expectConfig {ask : Ask} (h : commits ask = false) : (expectConfig t ask).Only Deed.Mild :=
  mild_ask h (fun r => by split <;> trivial)

theorem mild_expectCommit {ask : Ask} (h : commits ask = false) : (expectCommit t ask).Only Deed.Mild :=
  mild_ask h (fun r => by split <;> trivial)

theorem mild_opShow (rest : List String) : (opShow t rest).Only Deed.Mild := by
  unfold opShow
  refine mild_ite (fun _ => mild_ask rfl (fun r => by split <;> trivial)) (fun _ => ?_)
  refine mild_ite (fun _ => mild_expectConfig rfl) (fun _ => ?_)
  refine mild_ite (fun _ => mild_ask rfl (fun r => by split <;> trivial)) (fun _ => ?_)
  refine mild_ite (fun _ => ?_) (fun _ => trivial)
  unfold showInterfaces
  split
  · trivial
  · exact mild_ask rfl (fun r => by split <;> trivial)

theorem mild_clear (rest : List String) : (clear t rest).Only Deed.Mild := by
  unfold clear
  split
  · trivial
  · exact mild_expectOk rfl

theorem mild_shell : (shell t).Only Deed.Mild := by
  refine mild_ask rfl (fun r => ?_)
  split
  · trivial
  · refine mild_alone (fun _ => nofun) (fun _ => mild_alone (fun _ => nofun) (fun outcome => ?_))
    cases outcome with
    | error e => exact mild_alone (fun _ => nofun) (fun _ => mild_ask rfl (fun r => by split <;> trivial))
    | ok _ => exact mild_ask rfl (fun r => by split <;> trivial)
  · trivial
  · trivial

theorem mild_traceOrPing (program : String) (rest : List String) :
    (traceOrPing program rest : Play I (Done I)).Only Deed.Mild := by
  unfold traceOrPing
  split
  · refine mild_ite (fun _ => mild_alone (fun _ => nofun) (fun r => ?_)) (fun _ => trivial)
    split <;> trivial
  · trivial

theorem mild_unmoved {command : Play I (Done I)} (h : command.Only Deed.Mild) : (cli.unmoved command).Only Deed.Mild :=
  Prog.Only.bind h (fun _ => trivial)

theorem mild_configure : (cli.configure t).Only Deed.Mild :=
  mild_ask rfl (fun r => by split <;> trivial)

theorem mild_operational (verb : String) (rest : List String) : (cli.operational t verb rest).Only Deed.Mild := by
  unfold Cli.operational
  refine mild_ite (fun _ => mild_unmoved (mild_opShow rest)) (fun _ => ?_)
  refine mild_ite (fun _ => mild_configure) (fun _ => ?_)
  refine mild_ite (fun _ => mild_unmoved (mild_clear rest)) (fun _ => ?_)
  refine mild_ite (fun _ => mild_unmoved mild_shell) (fun _ => ?_)
  refine mild_ite (fun _ => mild_unmoved (mild_traceOrPing "ping" rest)) (fun _ => ?_)
  refine mild_ite (fun _ => mild_unmoved (mild_traceOrPing "traceroute" rest)) (fun _ => ?_)
  refine mild_ite (fun _ => trivial) (fun _ => ?_)
  exact mild_ite (fun _ => trivial) (fun _ => trivial)

theorem mild_showConfig (session : SessionId) (at_ : Path) : (showConfig t session at_).Only Deed.Mild := by
  refine mild_ask rfl (fun r => ?_)
  split
  · trivial
  · exact mild_ask rfl (fun r => by split <;> trivial)
  · trivial

theorem mild_compare (session : SessionId) : (compare t session).Only Deed.Mild := by
  refine mild_ask rfl (fun r => ?_)
  split
  · trivial
  · exact mild_ite (fun _ => trivial) (fun _ => trivial)
  · trivial

theorem mild_rollback (session : SessionId) (rest : List String) : (rollback t session rest).Only Deed.Mild := by
  unfold rollback
  split
  · split
    · exact mild_expectOk rfl
    · trivial
  · trivial

theorem mild_close (session : SessionId) : (cli.close session : Play I (Done I × Cli)).Only Deed.Mild :=
  mild_ask rfl (fun r => by split <;> trivial)

theorem mild_leaveConfiguration (session : SessionId) (rest : List String) :
    (cli.leaveConfiguration t session rest).Only Deed.Mild := by
  unfold Cli.leaveConfiguration
  refine mild_ite (fun _ => mild_close session) (fun _ => mild_ask rfl (fun r => ?_))
  split
  · trivial
  · exact mild_ite (fun _ => mild_close session) (fun _ => trivial)
  · trivial

theorem mild_configuration {verb : String} (hverb : verb ≠ "commit") (rest : List String) :
    (cli.configuration t verb rest).Only Deed.Mild := by
  unfold Cli.configuration
  split
  · exact ⟨fun _ => nofun,fun r => r.elim⟩
  · next session _ =>
    have hediting : commits (.request (cli.editing t session verb rest)) = false := by
      unfold Cli.editing
      dsimp only
      split <;> rfl
    refine mild_ite (fun _ => mild_unmoved (mild_expectOk hediting)) (fun _ => ?_)
    refine mild_ite (fun _ => mild_unmoved (mild_showConfig session _)) (fun _ => ?_)
    refine mild_ite (fun _ => mild_unmoved (mild_compare session)) (fun _ => ?_)
    refine mild_ite (fun h => absurd h hverb) (fun _ => ?_)
    refine mild_ite (fun _ => mild_unmoved (mild_expectCommit rfl)) (fun _ => ?_)
    refine mild_ite (fun _ => mild_unmoved (mild_expectOk rfl)) (fun _ => ?_)
    refine mild_ite (fun _ => mild_unmoved (mild_expectOk rfl)) (fun _ => ?_)
    refine mild_ite (fun _ => mild_unmoved (mild_expectOk rfl)) (fun _ => ?_)
    refine mild_ite (fun _ => mild_unmoved (mild_rollback session rest)) (fun _ => ?_)
    refine mild_ite (fun _ => mild_ite (fun _ => trivial) (fun _ => trivial)) (fun _ => ?_)
    refine mild_ite (fun _ => trivial) (fun _ => ?_)
    refine mild_ite (fun _ => trivial) (fun _ => ?_)
    refine mild_ite (fun _ => mild_leaveConfiguration session rest) (fun _ => ?_)
    refine mild_ite (fun _ => trivial) (fun _ => ?_)
    exact mild_ite (fun _ => trivial) (fun _ => trivial)

theorem mild_command {verb : String} (hverb : verb ≠ "commit") (rest : List String) :
    (cli.command t verb rest).Only Deed.Mild := by
  unfold Cli.command
  split
  · exact mild_operational verb rest
  · exact mild_configuration hverb rest

theorem mild_emit (output : Output (Ifstate.View × I)) (modifiers : List Pipe.Modifier) :
    (emit t output modifiers).Only Deed.Mild :=
  mild_ite (fun _ => trivial) (fun _ => mild_alone (k := Prog.done) (fun _ => nofun) (fun _ => trivial))

theorem mild_conclude (modifiers : List Pipe.Modifier) (r : Done I × Cli) : (conclude t modifiers r).Only Deed.Mild := by
  unfold conclude
  split
  · exact Prog.Only.bind (mild_emit _ modifiers) (fun _ => trivial)
  · exact mild_alone (fun _ => nofun) (fun _ => trivial)

/-- A line that is not taken for a commit asks for none. -/
theorem mild_run {line : String}
    (hline : ∀ verb rest modifiers, typed t.regexError line = .command verb rest modifiers → verb ≠ "commit") :
    (cli.run t line).Only Deed.Mild := by
  unfold Cli.run
  refine mild_ite (fun _ => trivial) (fun hfull => ?_)
  split
  · exact mild_alone (fun _ => nofun) (fun _ => trivial)
  · next hquestion =>
    split
    · exact mild_alone (fun _ => nofun) (fun _ => trivial)
    · next command modifiers hsplit =>
      refine Prog.Only.bind ?_ (mild_conclude modifiers)
      unfold Cli.dispatch
      split
      · trivial
      · trivial
      · next verb rest hparse =>
        exact mild_command (hline verb rest modifiers
          (typed_eq (Bool.eq_false_of_not_eq_true hfull) hquestion hsplit hparse)) rest

theorem mild_refresh : (cli.refresh : Play I Cli).Only Deed.Mild := by
  refine mild_ask rfl (fun shown => Prog.Only.bind ?_ (fun candidate => mild_alone (fun _ => nofun) (fun _ => trivial)))
  unfold Cli.candidate
  split
  · exact mild_ask rfl (fun _ => trivial)
  · trivial

end
end Nightshade.Cli
