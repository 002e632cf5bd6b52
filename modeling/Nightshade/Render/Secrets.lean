import Mathlib
import Nightshade.Foundation.Lockstep
import Nightshade.Schema.Lex
import Nightshade.Render.Accounts
import Nightshade.Render.System
import Nightshade.Render.Networkd

/-! Where password hashes can be seen. Two configurations that differ in hashes only are rendered to
artifacts that differ in hashes only, and these are applied by the same operations, what goes down the
pipe of chpasswd apart. -/
namespace Nightshade.Render
open Foundation Schema

/-! ### Running a program -/

/-- What the host says when an operation fails. -/
inductive HostError where
  | io (context source : String)
  | command (command status detail : String)

def HostError.display : HostError → String
  | .io context source => context ++ ": " ++ source
  | .command line status detail => "`" ++ line ++ "` failed (" ++ status ++ ")" ++ detail

/-- How running a program turns out. What a program writes on its standard error may well depend on
what it read from its standard input. -/
inductive ProcessFate where
  | notStarted (reason : String)
  /-- The program went away before it had read everything. -/
  | notRead (reason : String)
  | lost (reason : String)
  /-- It ended with this exit code, or by a signal. -/
  | ended (code : Option ℕ) (stderr : String → String)

def ProcessFate.status : Option ℕ → String
  | some code => "exit " ++ toString code
  | none => "killed by signal"

namespace RealHost

/-- The first line of what a program said, if it said anything. -/
def detail (stderr : String) : String :=
  let reason := Lexer.trim isWhitespace stderr.toList
  if reason = [] then "" else ": " ++ String.ofList ((Lexer.lines reason).head?.getD reason)

/-- Run a program. Never a shell. -/
def run (argv : List String) (fate : ProcessFate) : Except HostError Unit :=
  match argv with
  | [] => .error (.command "" "no program" "")
  | program::_ =>
    match fate with
    | .notStarted reason | .notRead reason | .lost reason => .error (.io ("running " ++ program) reason)
    | .ended code stderr =>
      if code = some 0 then .ok ()
      else .error (.command (" ".intercalate argv) (ProcessFate.status code) (detail (stderr "")))

/-- Run a program that reads a secret. What it says is not reported: it may repeat what it has read. -/
def runWithSecret (argv : List String) (_secret : String) (fate : ProcessFate) : Except HostError Unit :=
  match argv with
  | [] => .error (.command "" "no program" "")
  | program::_ =>
    match fate with
    | .notStarted reason => .error (.io ("running " ++ program) reason)
    | .notRead reason => .error (.io ("writing to " ++ program) reason)
    | .lost reason => .error (.io ("waiting for " ++ program) reason)
    | .ended code _ =>
      if code = some 0 then .ok ()
      else .error (.command (" ".intercalate argv) (ProcessFate.status code) "")

end RealHost

/-! ### Differing in hashes only -/

/-- The two marks of an account that nobody can log in to by password. -/
def LOCKED : List String := ["!","*"]

/-- The same word, or two hashes. -/
def AlikeHash (hash hash' : String) : Prop := hash = hash' ∨ (hash ∉ LOCKED ∧ hash' ∉ LOCKED)

/-- Where a configuration has the password of a user. -/
def password (name : String) : Path := Login.user name ++ ["authentication","encrypted-password"]

/-- Two configurations of one shape, with the same at every path but for the hashes of users. -/
structure AlikeConfig (s t : ConfigTree) : Prop where
  shape : ∀ path, s.contains path ↔ t.contains path
  elsewhere : ∀ path, (∀ name, ¬path <+: password name) → s.get path = t.get path
  hashes : ∀ name, Option.Rel AlikeHash ((s.get (password name)).bind Node.value)
    ((t.get (password name)).bind Node.value)

/-- The same action, or two that set the password of one account. -/
inductive AlikeAction : Action → Action → Prop where
  | same (action : Action) : AlikeAction action action
  | setPassword (name : String) {hash hash' : String} (h : AlikeHash hash hash') :
      AlikeAction (.setPassword name hash) (.setPassword name hash')

structure AlikeArtifacts (a b : Artifacts) : Prop where
  managed : a.managed = b.managed
  files : a.files = b.files
  actions : List.Forall₂ AlikeAction a.actions b.actions

/-- An operation whose answer holds no hash, and that is itself told none on a pipe. -/
def HostOp.isOpen : HostOp → Bool
  | .load _ | .runWithSecret _ _ => false
  | _ => true

/-- Operations that differ in hashes only, with the answers to them that do. -/
inductive AlikeOp : (op op' : HostOp) → (op.Answer → op'.Answer → Prop) → Prop where
  | same {op : HostOp} (h : op.isOpen) : AlikeOp op op (· = ·)
  | load (name : String) : AlikeOp (.load name) (.load name) (Option.Rel AlikeArtifacts)
  | save (name : String) {a b : Artifacts} (h : AlikeArtifacts a b) : AlikeOp (.save name a) (.save name b) (· = ·)
  /-- A hash goes to chpasswd after the name of its user, and nowhere else. -/
  | secret (name : String) {hash hash' : String} (h : AlikeHash hash hash') :
      AlikeOp (.runWithSecret ["chpasswd","-e"] (name ++ ":" ++ hash ++ "\n"))
        (.runWithSecret ["chpasswd","-e"] (name ++ ":" ++ hash' ++ "\n")) (· = ·)

/-- Two programs that do the same, hashes apart, and end in the same way. -/
abbrev Unseen {A : Type} (p p' : HostProg A) : Prop := p.Alongside AlikeOp (· = ·) p'

/-- A renderer from which no hash gets out. -/
structure Renderer.Discreet (renderer : Renderer) : Prop where
  render : ∀ s t, AlikeConfig s t → Prog.AlikeResult AlikeArtifacts (renderer.render s) (renderer.render t)
  check : ∀ a b, AlikeArtifacts a b → renderer.check a = renderer.check b
  apply : ∀ a b, AlikeArtifacts a b → Unseen (renderer.apply a) (renderer.apply b)
  verify : ∀ a b, AlikeArtifacts a b → Unseen (renderer.verify a) (renderer.verify b)

/-! ### Alike artifacts -/

variable {a b : Artifacts}

theorem AlikeAction.argv {action action' : Action} (h : AlikeAction action action') : action.argv = action'.argv := by
  cases h <;> rfl

theorem AlikeArtifacts.refl (a : Artifacts) : AlikeArtifacts a a :=
  ⟨rfl,rfl,List.forall₂_same.mpr (fun action _ => .same action)⟩

theorem AlikeArtifacts.allFiles (h : AlikeArtifacts a b) : a.allFiles = b.allFiles := by
  unfold Artifacts.allFiles
  rw [h.managed,h.files]

theorem unseen_bind {A B : Type} {p p' : HostProg A} {f f' : A → HostProg B} (h : Unseen p p')
    (hf : ∀ a, Unseen (f a) (f' a)) : Unseen (p >>= f) (p' >>= f') :=
  h.bind (fun a _ heq => heq ▸ hf a)

theorem unseen_forEach {A : Type} {step step' : A → HostProg (Except ApplyError Unit)} {l l' : List A}
    (h : List.Forall₂ (fun x y => Unseen (step x) (step' y)) l l') : Unseen (forEach step l) (forEach step' l') := by
  induction h with
  | nil => exact .done rfl
  | cons hstep _ ih =>
    refine unseen_bind hstep (fun r => ?_)
    cases r with
    | error e => exact .done rfl
    | ok _ => exact ih

/-- A program that neither reads nor is told any hash. -/
theorem unseen_of_only {A : Type} {p : HostProg A} (h : p.Only (fun op => op.isOpen)) : Unseen p p :=
  h.alongside (fun _ => .same)

theorem unseen_orHost {p p' : HostProg (Except String Unit)} (h : Unseen p p') : Unseen (orHost p) (orHost p') := by
  refine unseen_bind h (fun r => ?_)
  cases r <;> exact .done rfl

theorem unseen_run (argv : List String) : Unseen (orHost (Host.run argv)) (orHost (Host.run argv)) :=
  unseen_of_only (only_orHost (Prog.only_call rfl))

theorem unseen_writeFiles (files : List (String × String)) : Unseen (writeFiles files) (writeFiles files) :=
  unseen_of_only (only_forEach (fun file => only_orHost (Prog.only_call (e := HostOp.write file.1 file.2) rfl)) files)

theorem unseen_verifyFiles (h : AlikeArtifacts a b) : Unseen (verifyFiles a) (verifyFiles b) := by
  unfold verifyFiles
  rw [h.allFiles]
  exact unseen_of_only (only_verifyPaths (fun _ => rfl) _)

/-! ### The renderers -/

theorem unseen_updateHosts (name : String) (domain : Option String) :
    Unseen (System.updateHosts name domain) (System.updateHosts name domain) := by
  apply unseen_of_only
  refine ⟨rfl,fun r => ?_⟩
  cases r with
  | error e => trivial
  | ok existing => exact only_orHost (Prog.only_call rfl)

theorem unseen_systemAction {action action' : Action} (h : AlikeAction action action') :
    Unseen (System.applyAction action) (System.applyAction action') := by
  cases h with
  | same =>
    cases action with
    | setHostName name domain =>
      refine unseen_bind (unseen_updateHosts name domain) (fun r => ?_)
      cases r with
      | error e => exact .done rfl
      | ok _ => exact unseen_run _
    | _ => exact unseen_run _
  | setPassword name _ => exact unseen_run _

theorem checkActions_alike {seen : List String} {actions actions' : List Action}
    (h : List.Forall₂ AlikeAction actions actions') :
    System.checkActions seen actions = System.checkActions seen actions' := by
  induction h generalizing seen with
  | nil => rfl
  | @cons action action' _ _ haction _ ih =>
    have hsettles : System.settles action = System.settles action' := by
      cases haction <;> rfl
    rw [System.checkActions,System.checkActions,hsettles]
    cases System.settles action' with
    | none => exact ih
    | some key =>
      dsimp only
      split_ifs
      · rfl
      · exact ih

/-- Nothing of the system settings is on the way to a password. -/
theorem system_elsewhere {s t : ConfigTree} (h : AlikeConfig s t) {leaf : String} (hleaf : leaf ≠ "login") :
    s.get ["system",leaf] = t.get ["system",leaf] := by
  refine h.elsewhere _ (fun name hprefix => hleaf ?_)
  simpa [password,Login.user] using hprefix

theorem systemRenderer_discreet : SystemRenderer.Discreet where
  render s t h := by
    have hsystem : ∀ leaf, leaf ≠ "login" → s.get ["system",leaf] = t.get ["system",leaf] :=
      fun leaf hleaf => system_elsewhere h hleaf
    have hsame : System.render s = System.render t := by
      unfold System.render System.value ConfigTree.valuesAt
      rw [hsystem _ (by decide),hsystem _ (by decide),hsystem _ (by decide),hsystem _ (by decide)]
    show Prog.AlikeResult AlikeArtifacts (System.render s) (System.render t)
    rw [hsame]
    exact .ok (AlikeArtifacts.refl _)
  check a b h := checkActions_alike h.actions
  apply a b h := by
    have hwrites : Unseen (writeFiles a.files.entries) (writeFiles b.files.entries) := by
      rw [h.files]
      exact unseen_writeFiles _
    refine unseen_bind hwrites (fun r => ?_)
    cases r with
    | error e => exact .done rfl
    | ok _ => exact unseen_forEach (h.actions.imp (fun _ _ => unseen_systemAction))
  verify a b h := unseen_verifyFiles h

theorem recreations_alike {previous previous' : Option Artifacts} (hprevious : Option.Rel AlikeArtifacts previous previous')
    (h : AlikeArtifacts a b) : Networkd.recreations previous a = Networkd.recreations previous' b := by
  have hfiles : ∀ {a b : Artifacts}, AlikeArtifacts a b → Networkd.files a = Networkd.files b := by
    intro a b h
    unfold Networkd.files
    rw [h.managed]
  cases hprevious with
  | none => rfl
  | some hbefore =>
    unfold Networkd.recreations
    simp only [hfiles h,Option.map_some,hfiles hbefore]

theorem networkdRenderer_discreet : NetworkdRenderer.Discreet where
  render s t h := by
    have hinstances : Networkd.instances s = Networkd.instances t := by
      funext kind
      unfold Networkd.instances
      rw [h.elsewhere ["interfaces",kind] (fun name hprefix => by simp [password,Login.user] at hprefix)]
    have hsame : Networkd.render s = Networkd.render t := by
      unfold Networkd.render Networkd.Attachments.of Networkd.riders
      rw [hinstances]
    show Prog.AlikeResult AlikeArtifacts (Networkd.render s) (Networkd.render t)
    rw [hsame]
    exact .ok (AlikeArtifacts.refl _)
  check a b h := by
    show Networkd.check a = Networkd.check b
    unfold Networkd.check Networkd.files
    rw [h.managed]
  apply a b h := by
    have hsyncs : Unseen (forEach (fun managed => orHost (Host.sync managed)) a.managed)
        (forEach (fun managed => orHost (Host.sync managed)) b.managed) := by
      rw [h.managed]
      exact unseen_of_only (only_forEach (fun managed => only_orHost (Prog.only_call (e := HostOp.sync managed) rfl)) _)
    have hwrites : Unseen (writeFiles a.files.entries) (writeFiles b.files.entries) := by
      rw [h.files]
      exact unseen_writeFiles _
    refine unseen_bind hsyncs (fun r => ?_)
    cases r with
    | error e => exact .done rfl
    | ok _ =>
      refine unseen_bind hwrites (fun r => ?_)
      cases r with
      | error e => exact .done rfl
      | ok _ =>
        refine .perform (.load "networkd") (fun previous previous' hprevious => ?_)
        rw [Prog.done_bind,Prog.done_bind,recreations_alike hprevious h]
        refine unseen_bind (unseen_forEach (List.forall₂_same.mpr (fun _ _ => unseen_run _))) (fun r => ?_)
        cases r with
        | error e => exact .done rfl
        | ok _ =>
          refine unseen_forEach (h.actions.imp (fun action action' haction => ?_))
          rw [haction.argv]
          exact unseen_run _
  verify a b h := unseen_verifyFiles h

/-- The account that an action makes sure of. -/
def ensured : Action → Option String
  | .ensureAccount name _ => some name
  | _ => none

theorem named_alike (h : AlikeArtifacts a b) : Login.named a = Login.named b := by
  have hnames : ∀ {actions actions' : List Action}, List.Forall₂ AlikeAction actions actions' →
      actions.filterMap ensured = actions'.filterMap ensured := by
    intro actions actions' h
    induction h with
    | nil => rfl
    | cons haction _ ih =>
      cases haction with
      | same => simp [List.filterMap_cons,ih]
      | setPassword name _ => simpa [List.filterMap_cons,ensured] using ih
  exact congrArg (fun names => names.foldl (fun names name => insertElem name names) []) (hnames h.actions)

/-- A hash is as good as another to log in with. -/
theorem usable_alike {actions actions' : List Action} (h : List.Forall₂ AlikeAction actions actions') :
    actions.any Login.usable = actions'.any Login.usable := by
  induction h with
  | nil => rfl
  | @cons action action' _ _ haction _ ih =>
    have husable : Login.usable action = Login.usable action' := by
      cases haction with
      | same => rfl
      | setPassword name hhash =>
        obtain rfl | ⟨hfirst,hsecond⟩ := hhash
        · rfl
        · simp only [LOCKED,List.mem_cons,List.not_mem_nil,or_false,not_or] at hfirst hsecond
          simp [Login.usable,hfirst,hsecond]
    rw [List.any_cons,List.any_cons,husable,ih]

theorem unseen_chpasswd (name : String) {hash hash' : String} (h : AlikeHash hash hash') :
    Unseen (Login.applyAction (.setPassword name hash)) (Login.applyAction (.setPassword name hash')) :=
  unseen_orHost (.perform (AlikeOp.secret name h) (fun _ _ hr => .done hr))

theorem unseen_loginAction {action action' : Action} (h : AlikeAction action action') :
    Unseen (Login.applyAction action) (Login.applyAction action') := by
  cases h with
  | same =>
    cases action with
    | setPassword name hash => exact unseen_chpasswd name (.inl rfl)
    | _ => exact unseen_run _
  | setPassword name h => exact unseen_chpasswd name h

theorem removals_alike {previous previous' : Option Artifacts} (hprevious : Option.Rel AlikeArtifacts previous previous')
    (h : AlikeArtifacts a b) : Login.removals previous a = Login.removals previous' b := by
  unfold Login.removals
  cases hprevious with
  | none => rfl
  | some hbefore => rw [Option.map_some,Option.map_some,named_alike hbefore,named_alike h]

/-- The users of alike configurations go by the same names. -/
theorem users_alike {s t : ConfigTree} (h : AlikeConfig s t) :
    (Login.users s).map Prod.fst = (Login.users t).map Prod.fst := by
  have hmem : ∀ (config : ConfigTree) name, name ∈ (Login.users config).map Prod.fst ↔
      config.contains (Login.user name) := by
    intro config name
    rw [ConfigTree.contains,Option.isSome_iff_exists]
    simp only [List.mem_map,Prod.exists,exists_and_right,exists_eq_right,Login.mem_users]
  have hsorted : ∀ config : ConfigTree, ((Login.users config).map Prod.fst).Pairwise (· < ·) :=
    fun config => List.pairwise_map.mpr Login.users_sorted
  refine (hsorted s).eq_of_mem_iff (hsorted t) (fun name => ?_)
  rw [hmem,hmem]
  exact h.shape _

/-- What is done for a user, by what is configured. -/
def accountActions (name : String) (wanted : Login.Account) : List Action :=
  .ensureAccount name wanted.fullName::wanted.password.toList.map (.setPassword name)

theorem accountActions_alike {s t : ConfigTree} (h : AlikeConfig s t) (name : String) :
    List.Forall₂ AlikeAction (accountActions name (Login.configured s name))
      (accountActions name (Login.configured t name)) := by
  have hfull : (Login.configured s name).fullName = (Login.configured t name).fullName := by
    unfold Login.configured
    rw [h.elsewhere _ (fun other hprefix => by simp [password,Login.user] at hprefix)]
  have hpassword : Option.Rel AlikeHash (Login.configured s name).password (Login.configured t name).password :=
    h.hashes name
  unfold accountActions
  rw [hfull]
  refine .cons (.same _) ?_
  revert hpassword
  generalize (Login.configured s name).password = hash
  generalize (Login.configured t name).password = hash'
  intro hpassword
  cases hpassword with
  | none => exact .nil
  | some hhash => exact .cons (.setPassword name hhash) .nil

theorem login_actions (config : ConfigTree) :
    (Login.users config).flatMap (fun e => Login.userActions e.1 e.2) =
      ((Login.users config).map Prod.fst).flatMap (fun name => accountActions name (Login.configured config name)) := by
  rw [List.flatMap_map]
  exact List.flatMap_congr (fun e he => Login.userActions_eq (Login.mem_users.mp he))

theorem loginRenderer_discreet : LoginRenderer.Discreet where
  render s t h := by
    refine .ok ⟨rfl,rfl,?_⟩
    show List.Forall₂ AlikeAction ((Login.users s).flatMap (fun e => Login.userActions e.1 e.2))
      ((Login.users t).flatMap (fun e => Login.userActions e.1 e.2))
    rw [login_actions,login_actions,users_alike h]
    have hsame : List.Forall₂ (fun name name' => name = name') ((Login.users t).map Prod.fst)
        ((Login.users t).map Prod.fst) := List.forall₂_same.mpr (fun _ _ => rfl)
    refine List.rel_flatMap hsame (fun name name' hname => ?_)
    subst hname
    exact accountActions_alike h name
  check a b h := by
    show Login.check a = Login.check b
    unfold Login.check
    rw [named_alike h,usable_alike h.actions]
  apply a b h := by
    refine unseen_bind (unseen_forEach (h.actions.imp (fun _ _ => unseen_loginAction))) (fun r => ?_)
    cases r with
    | error e => exact .done rfl
    | ok _ =>
      refine .perform (.load "login") (fun previous previous' hprevious => ?_)
      rw [Prog.done_bind,Prog.done_bind,removals_alike hprevious h]
      exact unseen_forEach (List.forall₂_same.mpr (fun _ _ => unseen_run _))
  verify a b h := .done rfl

end Nightshade.Render
