import Mathlib
import Nightshade.Render.Accounts
import Nightshade.Configd.Machine
import Nightshade.Configd.Boot
import Nightshade.Configd.InStep

/-! Whether somebody can still log in after an apply. The renderer of the accounts refuses a
configuration whose users all lack a usable password, but not one without users, and removes the
accounts that such a configuration does not want. -/
namespace Nightshade.Configd
open Foundation Schema Render

/-- The accounts of a box. -/
abbrev Book := SortedMap String Login.Account

/-- An operation that is none on an account, and records nothing. -/
def Aside : HostOp → Prop
  | .run argv => Login.command argv "" = none
  | .runWithSecret argv secret => Login.command argv secret = none
  | .save _ _ => False
  | _ => True

/-- A machine that keeps accounts: a command for an account that succeeds has changed that account, and
nothing else touches any. -/
structure Administers {M F : Type} (machine : Exec HostOp HostOp.Answer F M) (accounts : M → Book) : Prop where
  aside : ∀ op f m, Aside op → accounts (machine op f m).2 = accounts m
  run : ∀ argv f m m' u, Login.command argv "" = some u → machine (.run argv) f m = (some (.ok ()),m') →
    updated [u] (accounts m) = some (accounts m')
  runWithSecret : ∀ argv secret f m m' u, Login.command argv secret = some u →
    machine (.runWithSecret argv secret) f m = (some (.ok ()),m') → updated [u] (accounts m) = some (accounts m')

/-- An account that a configuration manages and somebody can log in to. -/
def Opens (config : ConfigTree) (book : Book) (name : String) : Prop :=
  (config.get (Login.user name)).isSome ∧
    ∃ account hash, book.get? name = some account ∧ account.password = some hash ∧ hash ≠ "!" ∧ hash ≠ "*"

/-- Somebody can log in to an account that the configuration manages. -/
def WayIn (config : ConfigTree) (book : Book) : Prop := ∃ name, Opens config book name

/-- What is found of the last artifacts of the accounts. -/
def lastLogin (found : StoreFate) (store : Store) : Option Artifacts :=
  match found with
  | .ok => store.get? "login"
  | .fail _ | .kill => none

/-- The file of the last artifacts of the accounts is found in one way. -/
def Finds {M F : Type} (found : StoreFate) (op : HostOp) (f : HostFate F) (_ : M × Store) : Prop :=
  op = .load "login" → f.store = found

section
variable {M F : Type} {machine : Exec HostOp HostOp.Answer F M} {accounts : M → Book} {found : StoreFate}
  {w : M × Store}

/-! ### The other renderers -/

variable {config : ConfigTree} {artifacts : Artifacts}

/-- What comes of updates where they all succeed. -/
def Makes (accounts : M → Book) (us : List (Update String Login.Account)) (w : M × Store)
    (r : Except ApplyError Unit) (w' : M × Store) : Prop :=
  r = .ok () → updated us (accounts w.1) = some (accounts w'.1) ∧ w'.2 = w.2

variable {us : List (Update String Login.Account)}

/-- A command for an account, as a part of an apply. -/
theorem makes_action (hadmin : Administers machine accounts) {action : Render.Action} {u : Update String Login.Account}
    (h : Login.Issues action u) :
    (Login.applyAction action).Ends (onHost machine) (Finds found) (Makes accounts [u] w) (fun _ => True) w := by
  obtain ⟨input,hcommand,hstep | ⟨rfl,hstep⟩⟩ := h
  · rw [hstep]
    intro f _
    have hhost : onHost machine (.runWithSecret action.argv input) f w =
        ((machine (.runWithSecret action.argv input) f.machine w.1).1,
          (machine (.runWithSecret action.argv input) f.machine w.1).2,w.2) := rfl
    rw [hhost]
    rcases hr : machine (.runWithSecret action.argv input) f.machine w.1 with ⟨_ | e | _,m⟩
    · trivial
    · exact fun h => by cases h
    · exact fun _ => ⟨hadmin.runWithSecret _ _ _ _ _ _ hcommand hr,rfl⟩
  · rw [hstep]
    intro f _
    have hhost : onHost machine (.run action.argv) f w =
        ((machine (.run action.argv) f.machine w.1).1,(machine (.run action.argv) f.machine w.1).2,w.2) := rfl
    rw [hhost]
    rcases hr : machine (.run action.argv) f.machine w.1 with ⟨_ | e | _,m⟩
    · trivial
    · exact fun h => by cases h
    · exact fun _ => ⟨hadmin.run _ _ _ _ _ hcommand hr,rfl⟩

theorem makes_forEach {A : Type} {step : A → HostProg (Except ApplyError Unit)} {l : List A}
    (h : List.Forall₂ (fun a u => ∀ w : M × Store, (step a).Ends (onHost machine) (Finds found)
      (Makes accounts [u] w) (fun _ => True) w) l us) :
    (forEach step l).Ends (onHost machine) (Finds found) (Makes accounts us w) (fun _ => True) w := by
  induction h generalizing w with
  | nil => exact fun _ => ⟨rfl,rfl⟩
  | @cons a u l us hstep _ ih =>
    refine Prog.Ends.bind ((hstep w).mono (fun r mid hmid => ?_) (fun _ h => h))
    cases r with
    | error e => exact fun h => by cases h
    | ok _ =>
      obtain ⟨hone,hstore⟩ := hmid rfl
      refine (@ih mid).mono (fun r w' hrest hr => ?_) (fun _ h => h)
      obtain ⟨hall,hkept⟩ := hrest hr
      refine ⟨?_,hkept.trans hstore⟩
      rw [← List.singleton_append,updated_append,hone]
      exact hall

/-- Whatever ends the apply of the accounts, it ends well only with all of its updates made. -/
theorem makes_login (hadmin : Administers machine accounts)
    (hissue : List.Forall₂ Login.Issues artifacts.actions
      ((Login.users config).flatMap (fun e => Login.userUpdates e.1 (Login.configured config e.1)))) :
    (Login.apply artifacts).Ends (onHost machine) (Finds found)
      (Makes accounts (Login.applyUpdates config (Login.surplus (lastLogin found w.2) artifacts)) w)
      (fun _ => True) w := by
  have husers : (forEach Login.applyAction artifacts.actions).Ends (onHost machine) (Finds found) (Makes accounts
      ((Login.users config).flatMap (fun e => Login.userUpdates e.1 (Login.configured config e.1))) w) (fun _ => True) w :=
    makes_forEach (hissue.imp (fun _ _ h _ => makes_action hadmin h))
  refine Prog.Ends.bind (husers.mono (fun r mid hmid => ?_) (fun _ h => h))
  cases r with
  | error e => exact fun h => by cases h
  | ok _ =>
    obtain ⟨hmiddle,hstore⟩ := hmid rfl
    rw [Login.updated_users] at hmiddle
    intro f hf
    have hload : onHost machine (.load "login") f mid = (some (lastLogin found w.2),mid) ∨
        (onHost machine (.load "login") f mid).1 = none := by
      rw [← hf rfl,← hstore]
      cases hf : f.store <;> simp [onHost,lastLogin,hf]
    obtain hload | hload := hload
    · rw [hload]
      have hgone : List.Forall₂ (fun a u => ∀ w : M × Store, (orHost (Host.run (Render.Action.argv a))).Ends
          (onHost machine) (Finds found) (Makes accounts [u] w) (fun _ => True) w)
          (Login.removals (lastLogin found w.2) artifacts)
          ((Login.surplus (lastLogin found w.2) artifacts).map (fun name => (name,fun _ => none))) := by
        unfold Login.removals
        rw [List.forall₂_map_left_iff,List.forall₂_map_right_iff]
        have hissues : ∀ name, Login.Issues (.removeAccount name) (name,fun _ => none) :=
          fun _ => ⟨"",Login.command_remove,.inr ⟨rfl,rfl⟩⟩
        exact List.forall₂_same.mpr (fun name _ _ => makes_action hadmin (hissues name))
      refine (makes_forEach hgone).mono (fun r w' hrest hr => ?_) (fun _ h => h)
      obtain ⟨hall,hkept⟩ := hrest hr
      refine ⟨?_,hkept.trans hstore⟩
      rw [Login.applyUpdates,updated_append,hmiddle]
      exact hall
    · rcases hr : onHost machine (.load "login") f mid with ⟨_ | _,w'⟩
      · trivial
      · rw [hr] at hload
        cases hload

/-! ### The whole apply -/

/-- A configuration that a commit or a boot may apply: one in which nothing is wrong, or the defaults. -/
def Appliable (zones : List String) (config : ConfigTree) : Prop :=
  savedViolations (Shipped.schema zones) config = [] ∨ config = (Shipped.schema zones).defaults

theorem Appliable.issue {zones : List String} (h : Appliable zones config) (hrender : Login.render config = .ok artifacts) :
    List.Forall₂ Login.Issues artifacts.actions
      ((Login.users config).flatMap (fun e => Login.userUpdates e.1 (Login.configured config e.1))) := by
  obtain hclean | rfl := h
  · exact Login.actions_issue (List.append_eq_nil_iff.mp hclean).1 hrender
  · cases hrender
    exact .nil

/-- A configuration with users that passes the check has one with a usable password. -/
theorem usable_of_check (hrender : Login.render config = .ok artifacts) (hcheck : Login.check artifacts = .ok ())
    {name : String} (hlisted : (config.get (Login.user name)).isSome) :
    ∃ name hash, (config.get (Login.user name)).isSome ∧ (Login.configured config name).password = some hash ∧
      hash ≠ "!" ∧ hash ≠ "*" := by
  have hnamed : Login.named artifacts ≠ [] := List.ne_nil_of_mem ((Login.mem_named_render hrender).mpr hlisted)
  have husable : artifacts.actions.any Login.usable = true := by
    unfold Login.check at hcheck
    split at hcheck
    · cases hcheck
    · by_contra hnone
      simp [hnamed,Bool.eq_false_iff.mpr hnone] at hcheck
  obtain ⟨action,haction,hopen⟩ := List.any_eq_true.mp husable
  cases hrender
  obtain ⟨⟨other,node⟩,hmem,haction⟩ := List.mem_flatMap.mp haction
  have hget := Login.mem_users.mp hmem
  rw [Login.userActions_eq hget] at haction
  obtain rfl | haction := List.mem_cons.mp haction
  · cases hopen
  · obtain ⟨hash,hhash,rfl⟩ := List.mem_map.mp haction
    refine ⟨other,hash,by rw [hget]; rfl,Option.mem_toList.mp hhash,?_⟩
    simpa [Login.usable] using hopen

/-- Once the updates of a checked configuration with users are made, somebody can log in. -/
theorem wayIn_of_updated (hrender : Login.render config = .ok artifacts) (hcheck : Login.check artifacts = .ok ())
    {name : String} (hlisted : (config.get (Login.user name)).isSome) {previous : Option Artifacts} {book book' : Book}
    (hdone : updated (Login.applyUpdates config (Login.surplus previous artifacts)) book = some book') :
    WayIn config book' := by
  obtain ⟨other,hash,hother,hhash,hopen⟩ := usable_of_check hrender hcheck hlisted
  obtain ⟨account,-,hend⟩ := (Login.get?_applied hrender hdone).1 other hother
  exact ⟨other,hother,_,hash,hend,by simp [Login.settle,hhash],hopen⟩

/-- Wherever the accounts of such a configuration are applied, also to put it back, somebody can log in. -/
theorem login_wayIn (hadmin : Administers machine accounts) {zones : List String} (happliable : Appliable zones config)
    (hrender : Login.render config = .ok artifacts) (hcheck : Login.check artifacts = .ok ())
    {name : String} (hlisted : (config.get (Login.user name)).isSome) :
    (Login.apply artifacts).Ends (onHost machine) (Finds found) (fun r w' => r = .ok () → WayIn config (accounts w'.1))
      (fun _ => True) w :=
  (makes_login hadmin (happliable.issue hrender)).mono
    (fun _ _ hdone hr => wayIn_of_updated hrender hcheck hlisted (hdone hr).1) (fun _ h => h)

end

/-! ### A box with accounts -/

/-- A bench with accounts: their commands succeed where the account is there. -/
def manned : Exec HostOp HostOp.Answer (List String) (Bench × Book)
  | .run argv, broken, m =>
    match Login.command argv "" with
    | none => ((Bench.machine (.run argv) broken m.1).1,(Bench.machine (.run argv) broken m.1).2,m.2)
    | some u =>
      match updated [u] m.2 with
      | some book => (some (.ok ()),m.1,book)
      | none => (some (.error "no such account"),m)
  | .runWithSecret argv secret, broken, m =>
    match Login.command argv secret with
    | none =>
      ((Bench.machine (.runWithSecret argv secret) broken m.1).1,
        (Bench.machine (.runWithSecret argv secret) broken m.1).2,m.2)
    | some u =>
      match updated [u] m.2 with
      | some book => (some (.ok ()),m.1,book)
      | none => (some (.error "no such account"),m)
  | op, broken, m => ((Bench.machine op broken m.1).1,(Bench.machine op broken m.1).2,m.2)

/-- Apply a configuration on such a box, where nothing is broken. -/
def settled (config : ConfigTree) (w : (Bench × Book) × Store) : Option (Except CommitError Unit) × (Bench × Book) × Store :=
  (Pipeline.apply (renderers (Shipped.schema [])) config).run (onHost manned) (fun _ _ => ⟨[],.ok⟩) 0 w

end Nightshade.Configd
