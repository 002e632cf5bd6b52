import Mathlib
import Nightshade.Configd.Daemon

/-! Which part of the box each step can change, and which steps each handler takes. -/
namespace Nightshade.Configd
open Foundation Schema

/-- The parts of a box. -/
inductive Part where
  | nothing
  | host
  | sessions
  | running
  | marker
  | bootFailure
  | saved
  | archive
  deriving DecidableEq

/-- The part of the box a step can change. -/
def Effect.part : Effect → Part
  | .saveSession _ | .forgetSession _ => .sessions
  | .saveRunning _ _ => .running
  | .armMarker _ | .disarmMarker => .marker
  | .apply _ => .host
  | .writeTemporary _ | .renameTemporary => .saved
  | .writeBootFailure _ | .removeBootFailure => .bootFailure
  | .writeRevision _ _ | .writeInfo _ | .removeRevision _ | .removeInfo _ => .archive
  | .prepareStore | .loadSessions | .loadRunning | .readMarker | .readSaved | .createSavedDir
  | .secureTemporary | .createArchive | .listInfos | .readRevision _ => .nothing

section Frame
variable {H F A : Type}

@[simp] theorem write_ok (b b' : Box H) : IoFate.ok.write b b' = (some (.ok ()),b') := rfl
@[simp] theorem write_fail (reason : String) (b b' : Box H) :
    (IoFate.fail reason).write b b' = (some (.error reason),b) := rfl
@[simp] theorem write_kill (b b' : Box H) : IoFate.kill.write b b' = (none,b) := rfl
@[simp] theorem look_ok (b : Box H) (a : A) (g : String → A) : IoFate.ok.look b a g = (some a,b) := rfl
@[simp] theorem look_fail (reason : String) (b : Box H) (a : A) (g : String → A) :
    (IoFate.fail reason).look b a g = (some (g reason),b) := rfl
@[simp] theorem look_kill (b : Box H) (a : A) (g : String → A) : IoFate.kill.look b a g = (none,b) := rfl
@[simp] theorem read_ok (b : Box H) (a : A) : IoFate.ok.read b a = (some (.ok a),b) := rfl
@[simp] theorem read_fail (reason : String) (b : Box H) (a : A) :
    (IoFate.fail reason).read b a = (some (.error reason),b) := rfl
@[simp] theorem read_kill (b : Box H) (a : A) : IoFate.kill.read b a = (none,b) := rfl

@[simp] theorem look_snd (f : IoFate) (b : Box H) (a : A) (g : String → A) : (f.look b a g).2 = b := by
  cases f <;> rfl

@[simp] theorem read_snd (f : IoFate) (b : Box H) (a : A) : (f.read b a).2 = b := look_snd f b _ _

/-- What a write leaves, as to anything that it would not change. -/
theorem write_frame {B : Type} (g : Box H → B) (f : IoFate) {b b' : Box H} (h : g b' = g b) :
    g (f.write b b').2 = g b := by
  cases f <;> simp [h]

variable {site : Site H F} {e : Effect} (f : Fate F) (b : Box H)

/-- What a step leaves, as to anything that no change of its part would change. -/
theorem perform_frame {B : Type} (g : Box H → B)
    (hhost : e.part = .host → ∀ h, g {b with host := h} = g b)
    (hsessions : e.part = .sessions → ∀ m, g {b with sessions := m} = g b)
    (hrunning : e.part = .running → ∀ r, g {b with running := r} = g b)
    (hmarker : e.part = .marker → ∀ m, g {b with marker := m} = g b)
    (hfailure : e.part = .bootFailure → ∀ r, g {b with bootFailure := r} = g b)
    (hsaved : e.part = .saved → ∀ s t, g {b with saved := s, temporary := t} = g b)
    (harchive : e.part = .archive → ∀ r i, g {b with revisions := r, infos := i} = g b) :
    g (perform site e f b).2 = g b := by
  cases e <;> simp only [perform,read_snd,look_snd]
  case saveSession => exact write_frame g f.io (hsessions rfl _)
  case forgetSession => exact write_frame g f.io (hsessions rfl _)
  case saveRunning => exact write_frame g f.io (hrunning rfl _)
  case armMarker => exact write_frame g f.io (hmarker rfl _)
  case disarmMarker => exact write_frame g f.io (hmarker rfl _)
  case apply => exact hhost rfl _
  case writeTemporary => exact write_frame g f.io (hsaved rfl _ _)
  case renameTemporary => exact write_frame g f.io (hsaved rfl _ _)
  case writeBootFailure => exact write_frame g f.io (hfailure rfl _)
  case removeBootFailure => exact write_frame g f.io (hfailure rfl _)
  case writeRevision => exact write_frame g f.io (harchive rfl _ _)
  case writeInfo => exact write_frame g f.io (harchive rfl _ _)
  case removeRevision => exact write_frame g f.io (harchive rfl _ _)
  case removeInfo => exact write_frame g f.io (harchive rfl _ _)
  all_goals exact write_frame g f.io rfl

theorem perform_host (he : e.part ≠ .host) : (perform site e f b).2.host = b.host :=
  perform_frame f b Box.host (fun h => absurd h he) (fun _ _ => rfl) (fun _ _ => rfl)
    (fun _ _ => rfl) (fun _ _ => rfl) (fun _ _ _ => rfl) (fun _ _ _ => rfl)

theorem perform_sessions (he : e.part ≠ .sessions) :
    (perform site e f b).2.sessions = b.sessions :=
  perform_frame f b Box.sessions (fun _ _ => rfl) (fun h => absurd h he) (fun _ _ => rfl)
    (fun _ _ => rfl) (fun _ _ => rfl) (fun _ _ _ => rfl) (fun _ _ _ => rfl)

theorem perform_running (he : e.part ≠ .running) : (perform site e f b).2.running = b.running :=
  perform_frame f b Box.running (fun _ _ => rfl) (fun _ _ => rfl) (fun h => absurd h he)
    (fun _ _ => rfl) (fun _ _ => rfl) (fun _ _ _ => rfl) (fun _ _ _ => rfl)

theorem perform_marker (he : e.part ≠ .marker) : (perform site e f b).2.marker = b.marker :=
  perform_frame f b Box.marker (fun _ _ => rfl) (fun _ _ => rfl) (fun _ _ => rfl)
    (fun h => absurd h he) (fun _ _ => rfl) (fun _ _ _ => rfl) (fun _ _ _ => rfl)

theorem perform_bootFailure (he : e.part ≠ .bootFailure) :
    (perform site e f b).2.bootFailure = b.bootFailure :=
  perform_frame f b Box.bootFailure (fun _ _ => rfl) (fun _ _ => rfl) (fun _ _ => rfl)
    (fun _ _ => rfl) (fun h => absurd h he) (fun _ _ _ => rfl) (fun _ _ _ => rfl)

theorem perform_saved (he : e.part ≠ .saved) : (perform site e f b).2.saved = b.saved :=
  perform_frame f b Box.saved (fun _ _ => rfl) (fun _ _ => rfl) (fun _ _ => rfl)
    (fun _ _ => rfl) (fun _ _ => rfl) (fun h => absurd h he) (fun _ _ _ => rfl)

theorem perform_infos (he : e.part ≠ .archive) : (perform site e f b).2.infos = b.infos :=
  perform_frame f b Box.infos (fun _ _ => rfl) (fun _ _ => rfl) (fun _ _ => rfl)
    (fun _ _ => rfl) (fun _ _ => rfl) (fun _ _ _ => rfl) (fun h => absurd h he)

theorem perform_revisions (he : e.part ≠ .archive) :
    (perform site e f b).2.revisions = b.revisions :=
  perform_frame f b Box.revisions (fun _ _ => rfl) (fun _ _ => rfl) (fun _ _ => rfl)
    (fun _ _ => rfl) (fun _ _ => rfl) (fun _ _ _ => rfl) (fun h => absurd h he)

end Frame

/-! ### What lets a commit through -/

section Plan
variable {schema : Schema} {env : Env} {s : State} {id : SessionId} {actor : Actor}

theorem owned_eq_ok {session : Session} :
    s.owned id actor = .ok session ↔ s.sessions.get? id = some session ∧ session.ownedBy actor := by
  unfold State.owned
  split
  · next old hget =>
    split
    · next hown => simp only [Except.ok.injEq,hget,Option.some.injEq]; grind
    · next hown => simp only [hget,Option.some.injEq]; grind
  · next hget => simp [hget]

theorem plan_eq_ok {session : Session} {changes : List Change} :
    plan schema env s id actor = .ok (session,changes) ↔
      s.owned id actor = .ok session ∧ s.pending = none ∧
      session.baseGeneration = s.generation ∧ validate schema session.candidate = .ok () ∧
      changes = order schema (diff s.running session.candidate) := by
  unfold plan
  cases hown : s.owned id actor with
  | error response => simp
  | ok old =>
    cases hp : s.pending with
    | some pending => simp
    | none =>
      dsimp only
      split_ifs with hbase
      · simp only [Except.ok.injEq,false_iff]
        rintro ⟨rfl,-,heq,-⟩
        exact hbase heq
      · rcases hv : validate schema old.candidate with e | _
        · simp only [reduceCtorEq,Except.ok.injEq,false_iff]
          rintro ⟨rfl,-,-,hok,-⟩
          rw [hv] at hok
          cases hok
        · simp only [Except.ok.injEq,Prod.mk.injEq,true_and]
          constructor
          · rintro ⟨rfl,rfl⟩
            exact ⟨rfl,not_not.mp hbase,hv,rfl⟩
          · rintro ⟨rfl,-,-,rfl⟩
            exact ⟨rfl,rfl⟩

end Plan

/-! ### The steps of each handler -/

/-- A step that changes nothing outside one part. -/
def Effect.Within (p : Part) (e : Effect) : Prop := e.part = .nothing ∨ e.part = p

section Handlers
variable {schema : Schema} {env : Env} {s : State} {id : SessionId} {actor : Actor}

/-- Starting only looks. -/
theorem only_start : start.Only (Effect.Within .nothing) := by
  refine ⟨.inl rfl,fun r => ?_⟩
  cases r with
  | error e => trivial
  | ok _ =>
    refine ⟨.inl rfl,fun r => ?_⟩
    cases r with
    | error e => trivial
    | ok sessions => exact ⟨.inl rfl,fun _ => trivial⟩

theorem Archive.only_list : Archive.list.Only (Effect.Within .nothing) := by
  refine ⟨.inl rfl,fun r => ?_⟩
  cases r <;> trivial

theorem Archive.only_removeAll (infos : List RevisionInfo) :
    (Archive.removeAll infos).Only (Effect.Within .archive) := by
  induction infos with
  | nil => trivial
  | cons info rest ih =>
    refine ⟨.inr rfl,fun r => ?_⟩
    cases r with
    | error e => trivial
    | ok _ =>
      refine ⟨.inr rfl,fun r => ?_⟩
      cases r with
      | error e => trivial
      | ok _ => exact ih

theorem Effect.Within.of_nothing {p : Part} (e : Effect) (h : e.Within .nothing) : e.Within p :=
  .inl (h.elim id id)

theorem Archive.only_prune : Archive.prune.Only (Effect.Within .archive) := by
  refine (Archive.only_list.mono Effect.Within.of_nothing).bind (fun r => ?_)
  cases r with
  | error e => trivial
  | ok revisions => exact only_removeAll _

theorem Archive.only_write (info : RevisionInfo) (config : ConfigTree) :
    (Archive.write schema info config).Only (Effect.Within .archive) := by
  refine ⟨.inl rfl,fun r => ?_⟩
  cases r with
  | error e => trivial
  | ok _ =>
    refine ⟨.inr rfl,fun r => ?_⟩
    cases r with
    | error e => trivial
    | ok _ =>
      refine ⟨.inr rfl,fun r => ?_⟩
      cases r with
      | error e => trivial
      | ok _ => exact only_prune

theorem Archive.only_read (revision : ℕ) : (Archive.read revision).Only (Effect.Within .nothing) := by
  refine Archive.only_list.bind (fun r => ?_)
  cases r with
  | error e => trivial
  | ok revisions =>
    dsimp only
    split
    · trivial
    · refine ⟨.inl rfl,fun r => ?_⟩
      cases r with
      | error e => trivial
      | ok text =>
        simp only [Prog.done_bind]
        split <;> trivial

theorem only_record (config : ConfigTree) (comment : Option String) (revision : ℕ)
    (changes : List Change) :
    (record schema env config actor comment revision changes).Only (Effect.Within .archive) :=
  (Archive.only_write _ config).bind (fun _ => trivial)

theorem only_fetch (source : LoadSource) : (fetch source).Only (Effect.Within .nothing) := by
  cases source with
  | saved =>
    refine ⟨.inl rfl,fun r => ?_⟩
    rcases r with e | _ | text
    · trivial
    · trivial
    · simp only [Prog.done_bind]
      split <;> trivial
  | archive revision =>
    refine (Archive.only_read revision).bind (fun r => ?_)
    cases r <;> trivial

theorem only_keep (session : Session) : (keep s id session).Only (Effect.Within .sessions) := by
  refine ⟨.inr rfl,fun r => ?_⟩
  cases r <;> trivial

/-- What an editor may ask for: everything but committing, confirming and saving. -/
def Request.edits : Request → Bool
  | .commit _ _ _ | .confirm _ | .save => false
  | _ => true

/-- These requests change no files but those of the sessions. -/
theorem only_edits {request : Request} (h : request.edits) :
    (handle schema env s actor request).Only (Effect.Within .sessions) := by
  cases request with
  | sessionOpen =>
    rw [handle,sessionOpen]
    split
    · trivial
    · refine ⟨.inr rfl,fun r => ?_⟩
      cases r <;> trivial
  | sessionClose id =>
    rw [handle,sessionClose]
    split
    · trivial
    · exact ⟨.inr rfl,fun _ => trivial⟩
  | set id path value =>
    rw [handle,set]
    split
    · trivial
    · split
      · trivial
      · exact only_keep _
  | delete id path value =>
    rw [handle,delete]
    split
    · trivial
    · split
      · trivial
      · exact only_keep _
  | compare id =>
    rw [handle,compare]
    split <;> trivial
  | discard id =>
    rw [handle,discard]
    split
    · trivial
    · exact only_keep _
  | load id source =>
    rw [handle,load]
    split
    · trivial
    · refine ((only_fetch source).mono Effect.Within.of_nothing).bind (fun r => ?_)
      dsimp only
      split
      · trivial
      · split
        · exact only_keep _
        · trivial
  | commitLog =>
    rw [handle,commitLog]
    refine (Archive.only_list.mono Effect.Within.of_nothing).bind (fun r => ?_)
    cases r <;> trivial
  | commit | confirm | save => cases h

/-- A state that differs from another in its sessions at most. -/
def State.SameRun (s s' : State) : Prop := s' = {s with sessions := s'.sessions}

@[simp] theorem State.sameRun_refl (s : State) : s.SameRun s := rfl

theorem returns_keep (session : Session) :
    (keep s id session).Returns (fun r => s.SameRun r.2) := by
  intro r
  cases r <;> rfl

/-- These requests change nothing in memory but the sessions. -/
theorem returns_edits {request : Request} (h : request.edits) :
    (handle schema env s actor request).Returns (fun r => s.SameRun r.2) := by
  cases request with
  | sessionOpen =>
    rw [handle,sessionOpen]
    split
    · rfl
    · intro r
      cases r <;> rfl
  | sessionClose id =>
    rw [handle,sessionClose]
    split
    · rfl
    · intro r
      cases r <;> rfl
  | set id path value =>
    rw [handle,set]
    split
    · rfl
    · split
      · rfl
      · exact returns_keep _
  | delete id path value =>
    rw [handle,delete]
    split
    · rfl
    · split
      · rfl
      · exact returns_keep _
  | compare id =>
    rw [handle,compare]
    split <;> rfl
  | discard id =>
    rw [handle,discard]
    split
    · rfl
    · exact returns_keep _
  | load id source =>
    rw [handle,load]
    split
    · rfl
    · apply Prog.Returns.bind
      apply Prog.returns_of_forall
      intro r
      dsimp only
      split
      · rfl
      · split
        · exact returns_keep _
        · rfl
  | commitLog =>
    rw [handle,commitLog]
    apply Prog.Returns.bind
    apply Prog.returns_of_forall
    rintro (e | revisions) <;> rfl
  | commit | confirm | save => cases h

theorem returns_save : (save schema s).Returns (fun r => r.2 = s) := by
  intro r
  cases r with
  | error e => rfl
  | ok _ =>
    intro r
    cases r with
    | error e => rfl
    | ok _ =>
      intro r
      cases r with
      | error e => rfl
      | ok _ =>
        intro r
        cases r <;> rfl

theorem only_save : (save schema s).Only (Effect.Within .saved) := by
  refine ⟨.inl rfl,fun r => ?_⟩
  cases r with
  | error e => trivial
  | ok _ =>
    refine ⟨.inr rfl,fun r => ?_⟩
    cases r with
    | error e => trivial
    | ok _ =>
      refine ⟨.inl rfl,fun r => ?_⟩
      cases r with
      | error e => trivial
      | ok _ =>
        refine ⟨.inr rfl,fun r => ?_⟩
        cases r <;> trivial

/-- A step that leaves the marker alone. -/
def Effect.Unmarked (e : Effect) : Prop := e.part ≠ .marker

theorem Effect.Within.unmarked {p : Part} (hp : p ≠ .marker) (e : Effect) (h : e.Within p) :
    e.Unmarked := by
  rcases h with h | h <;> rw [Effect.Unmarked,h]
  · nofun
  · exact hp

/-- The same commit is waiting, with its timer armed or not as before. -/
def State.SameWait (s s' : State) : Prop := s'.pending = s.pending ∧ s'.timer = s.timer

theorem State.SameRun.sameWait {s s' : State} (h : s.SameRun s') : s.SameWait s' := by
  rw [h]
  exact ⟨rfl,rfl⟩

theorem only_promoted_kept {comment : Option String} {session : Session} {changes : List Change} :
    (promoted schema env s id actor comment none session changes).Only Effect.Unmarked := by
  refine ⟨nofun,fun _ => ⟨nofun,fun _ => ?_⟩⟩
  simp only [Prog.bind_eq,Prog.done_bind]
  apply Prog.Only.bind
  · exact (only_record _ _ _ _).mono (Effect.Within.unmarked (by decide))
  · exact fun _ => trivial

theorem returns_promoted_kept {comment : Option String} {session : Session} {changes : List Change} :
    (promoted schema env s id actor comment none session changes).Returns
      (fun r => s.SameWait r.2) := by
  intro _ _
  simp only [Prog.bind_eq,Prog.done_bind]
  apply Prog.Returns.bind
  exact Prog.returns_of_forall (fun _ => ⟨rfl,rfl⟩)

/-- A commit that is kept leaves alone whatever waits to be confirmed. -/
theorem only_commit_kept {comment : Option String} :
    (commit schema env s id actor comment none).Only Effect.Unmarked := by
  unfold commit
  split
  · trivial
  · split
    · trivial
    · refine ⟨nofun,fun r => ?_⟩
      cases r with
      | error e => trivial
      | ok _ => exact only_promoted_kept

theorem returns_commit_kept {comment : Option String} :
    (commit schema env s id actor comment none).Returns (fun r => s.SameWait r.2) := by
  unfold commit
  split
  · exact ⟨rfl,rfl⟩
  · split
    · exact ⟨rfl,rfl⟩
    · intro r
      cases r with
      | error e => exact ⟨rfl,rfl⟩
      | ok _ => exact returns_promoted_kept

theorem only_saved : (saved schema).Only (Effect.Within .nothing) := by
  refine ⟨.inl rfl,fun r => ?_⟩
  rcases r with e | _ | text
  · trivial
  · trivial
  · simp only [Prog.done_bind]
    split
    · trivial
    · split <;> trivial

theorem only_adopt {config : ConfigTree} : (adopt s config).Only Effect.Unmarked :=
  ⟨nofun,fun _ => trivial⟩

theorem returns_adopt {config : ConfigTree} : (adopt s config).Returns (fun s' => s.SameWait s') :=
  fun _ => ⟨rfl,rfl⟩

theorem only_fallBack {reason : String} : (fallBack schema s reason).Only Effect.Unmarked :=
  ⟨nofun,fun _ => only_adopt.bind (fun _ => trivial)⟩

theorem returns_fallBack {reason : String} :
    (fallBack schema s reason).Returns (fun r => s.SameWait r.2) :=
  fun _ _ => ⟨rfl,rfl⟩

theorem only_applyAtBoot {config : ConfigTree} :
    (applyAtBoot schema s config).Only Effect.Unmarked := by
  refine ⟨nofun,fun r => ?_⟩
  cases r with
  | error e => exact only_fallBack
  | ok _ => exact only_adopt.bind (fun _ => trivial)

theorem returns_applyAtBoot {config : ConfigTree} :
    (applyAtBoot schema s config).Returns (fun r => s.SameWait r.2) := by
  intro r
  cases r with
  | error e => exact returns_fallBack
  | ok _ => exact fun _ => ⟨rfl,rfl⟩

theorem only_noteOutcome (outcome : Outcome) : (noteOutcome outcome).Only Effect.Unmarked := by
  unfold noteOutcome
  split <;> exact ⟨nofun,fun _ => trivial⟩

/-- Booting leaves alone whatever waits to be confirmed. -/
theorem only_boot : (boot schema s).Only Effect.Unmarked := by
  unfold boot
  split
  · trivial
  · apply Prog.Only.bind
    · refine (only_saved.mono (Effect.Within.unmarked (by decide))).bind (fun r => ?_)
      rcases r with reason | _ | config
      · exact only_fallBack
      · trivial
      · exact only_applyAtBoot
    · exact fun r => (only_noteOutcome r.1).bind (fun _ => trivial)

theorem returns_boot : (boot schema s).Returns (fun r => s.SameWait r.2) := by
  have hnote : ∀ r : Outcome × State, s.SameWait r.2 →
      ((noteOutcome r.1).bind (fun _ => Prog.done r)).Returns (fun r => s.SameWait r.2) :=
    fun r hr => (Prog.returns_of_forall (fun _ => hr)).bind
  unfold boot
  split
  · exact ⟨rfl,rfl⟩
  · apply Prog.Returns.bind
    refine (Prog.Returns.mono hnote ?_)
    apply Prog.Returns.bind
    apply Prog.returns_of_forall
    rintro (reason | _ | config)
    · exact returns_fallBack
    · exact ⟨rfl,rfl⟩
    · exact returns_applyAtBoot

/-- A step that changes nothing outside some parts. -/
def Effect.Among (ps : List Part) (e : Effect) : Prop := e.part = .nothing ∨ e.part ∈ ps

theorem Effect.Within.among {p : Part} {ps : List Part} (hp : p ∈ ps) (e : Effect)
    (h : e.Within p) : e.Among ps :=
  h.imp_right (fun h => by rwa [h])

theorem only_promoted {comment : Option String} {minutes : Option ℕ} {session : Session}
    {changes : List Change} :
    (promoted schema env s id actor comment minutes session changes).Only
      (Effect.Among [.running,.sessions,.marker,.archive]) := by
  refine ⟨.inr (by simp [Effect.part]),fun _ => ⟨.inr (by simp [Effect.part]),fun _ => ?_⟩⟩
  cases minutes with
  | none =>
    simp only [Prog.bind_eq,Prog.done_bind]
    apply Prog.Only.bind
    · exact (only_record _ _ _ _).mono (Effect.Within.among (by decide))
    · exact fun _ => trivial
  | some minutes =>
    refine ⟨.inr (by simp [Effect.part]),fun r => ?_⟩
    cases r <;> trivial

theorem only_commit {comment : Option String} {minutes : Option ℕ} :
    (commit schema env s id actor comment minutes).Only
      (Effect.Among [.host,.running,.sessions,.marker,.archive]) := by
  unfold commit
  split
  · trivial
  · split
    · trivial
    · refine ⟨.inr (by simp [Effect.part]),fun r => ?_⟩
      cases r with
      | error e => trivial
      | ok _ => exact only_promoted.mono (fun e h => h.imp_right (List.mem_cons_of_mem _))

theorem only_confirm :
    (confirm schema env s id actor).Only (Effect.Among [.marker,.archive]) := by
  unfold confirm
  split
  · trivial
  · split
    · trivial
    · refine ⟨.inr (by simp [Effect.part]),fun _ => ?_⟩
      simp only [Prog.bind_eq,Prog.done_bind]
      apply Prog.Only.bind
      · exact (only_record _ _ _ _).mono (Effect.Within.among (by decide))
      · exact fun _ => trivial

theorem only_putBack {pending : Pending} :
    (putBack s pending).Only (Effect.Among [.host,.running,.marker]) := by
  refine ⟨.inr (by simp [Effect.part]),fun r => ?_⟩
  cases r with
  | error e => trivial
  | ok _ => exact ⟨.inr (by simp [Effect.part]),fun _ => trivial⟩

theorem only_rollBack : (rollBack s).Only (Effect.Among [.host,.running,.marker]) := by
  unfold rollBack
  split
  · trivial
  · exact only_putBack.bind (fun _ => ⟨.inr (by simp [Effect.part]),fun _ => trivial⟩)

theorem only_resume : (resume env s).Only (Effect.Among [.host,.running,.marker]) := by
  refine ⟨.inl rfl,fun r => ?_⟩
  rcases r with e | _ | pending
  · trivial
  · trivial
  · simp only [Prog.done_bind]
    split
    · exact only_rollBack
    · trivial

end Handlers
end Nightshade.Configd
