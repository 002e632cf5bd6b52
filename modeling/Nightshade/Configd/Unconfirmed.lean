import Mathlib
import Nightshade.Schema.Shipped
import Nightshade.Configd.Footprint

/-! Commits made to be confirmed, over whole runs with kills and failing writes. A watcher notes
where the configuration of a commit stands that nobody has confirmed or undone; while it stands
anywhere, the marker that names what to restore has to be on disk. -/
namespace Nightshade.Configd
open Foundation Schema

/-- A commit made to be confirmed: what was running before, what it applied, and its generation. -/
structure Trial where
  before : ConfigTree
  committed : ConfigTree
  generation : ℕ
  deriving DecidableEq

/-- The commit that a pending confirm is about. -/
def Trial.of (pending : Pending) : Trial :=
  ⟨pending.previous,pending.committed,pending.generation⟩

/-- Where the configuration of an unconfirmed commit stands. -/
structure Notes where
  /-- On the host. -/
  host : Option Trial
  /-- In `running.json`. -/
  recorded : Option Trial
  /-- In the daemon's memory, as the running configuration. -/
  memory : Option Trial
  /-- In `config.boot`, as `save` last wrote it. -/
  saved : Option Trial

namespace Notes

def blank : Notes := ⟨none,none,none,none⟩

/-- A commit has been confirmed. -/
def settle (t : Trial) (notes : Notes) : Notes where
  host := notes.host.filter (· ≠ t)
  recorded := notes.recorded.filter (· ≠ t)
  memory := notes.memory.filter (· ≠ t)
  saved := notes.saved.filter (· ≠ t)

/-- An unconfirmed configuration stands on the host or in `running.json`. -/
def Stands (notes : Notes) (t : Trial) : Prop := notes.host = some t ∨ notes.recorded = some t

end Notes

/-- The commit to be confirmed that a request is, when nothing stands in its way. -/
def trying (schema : Schema) (env : Env) : Action → Option Process → Option Trial
  | .request actor (.commit id _ (some _)), some ⟨.serving,s⟩ =>
    match plan schema env s id actor with
    | .ok (session,_) => some ⟨s.running,session.candidate,s.generation+1⟩
    | .error _ => none
  | _, _ => none

/-- The commit that a request confirms. -/
def confirming : Action → Option Process → Option Trial
  | .request _ (.confirm _), some ⟨_,s⟩ => s.pending.map Trial.of
  | _, _ => none

/-- An apply that succeeds puts its configuration on the host, and one that is cut off may have;
a successful write of `running.json` records it; removing the marker on the way to confirming a
commit settles it. -/
def unconfirmed {H : Type} (schema : Schema) : Watcher H Notes where
  during := fun env action process e answer _ notes =>
    match e, answer with
    | .apply _, some (.ok ()) => {notes with host := trying schema env action process}
    | .apply _, none => {notes with host := (trying schema env action process).or notes.host}
    | .saveRunning _ _, some (.ok ()) => {notes with recorded := trying schema env action process}
    | .renameTemporary, some (.ok ()) => {notes with saved := notes.memory}
    | .disarmMarker, some _ =>
      match confirming action process with
      | some t => notes.settle t
      | none => notes
    | _, _ => notes
  after := fun env action before after notes =>
    match before, after with
    | _, none => {notes with memory := none}
    | none, some _ => {notes with memory := notes.recorded}
    | some p, some q =>
      if q.state.generation = p.state.generation then notes
      else {notes with memory := trying schema env action (some p)}

/-- Requests, timers, kills and restarts within one uptime of the box, in which no commit that is
to be confirmed is cut off between the start of its apply and the writing of its marker, that
write does not fail, and no rollback fails to apply or to record what it goes back to, or to read
its marker. -/
def Careful {H F : Type} (site : Site H F) (ev : Event F) (process : Option Process) :
    Effect → Fate F → Box H → Prop
  | .apply config, f, box =>
    let answer := (site.applyHost config f.host box.host).1
    ((trying site.schema ev.env ev.action process).isSome → answer ≠ none) ∧
    (ev.action = .timer ∨ ev.action = .resume → ∀ e, answer ≠ some (.error e))
  | .saveRunning _ _, f, _ =>
    ((trying site.schema ev.env ev.action process).isSome → f.io ≠ .kill) ∧
    (ev.action = .timer ∨ ev.action = .resume → ∀ reason, f.io ≠ .fail reason)
  | .saveSession _, f, _ =>
    (trying site.schema ev.env ev.action process).isSome → f.io ≠ .kill
  | .armMarker _, f, _ => f.io = .ok
  | .readMarker, f, _ => ∀ reason, f.io ≠ .fail reason
  | _, _, _ => True

/-- While an unconfirmed configuration stands anywhere its marker is on disk; a daemon that has
resumed has its rollback armed; and what runs unconfirmed in memory is accounted for. -/
structure Guarded (marker : Option Pending) (process : Option Process) (notes : Notes) : Prop where
  marked : ∀ t, notes.Stands t → marker.map Trial.of = some t
  armed : ∀ p, process = some p → p.phase ≠ .started → ∀ t, notes.Stands t →
    p.state.pending.map Trial.of = some t ∧ p.state.timer = true
  running : ∀ p, process = some p → ∀ t, notes.memory = some t →
    if p.phase = .started then notes.recorded = some t else p.state.pending.map Trial.of = some t

section
variable {H F : Type} {site : Site H F} {ev : Event F} {box : Box H} {notes : Notes}
  {process : Option Process}

/-- A program under watch keeps the guard, whatever process it leaves. -/
def KeepsGuard {α : Type} (site : Site H F) (ev : Event F) (box : Box H) (process : Option Process)
    (notes : Notes) (program : Act α) (left : α → Option Process) : Prop :=
  program.Ends (watched (perform site) ((unconfirmed site.schema).during ev.env ev.action process))
    (fun e f w => Careful site ev process e f w.1)
    (fun a w => Guarded w.1.marker (left a)
      ((unconfirmed (H := H) site.schema).after ev.env ev.action process (left a) w.2))
    (fun w => Guarded w.1.marker none
      ((unconfirmed (H := H) site.schema).after ev.env ev.action process none w.2))
    (box,notes)

/-- A process that dies leaves the marker and the notes of what stands. -/
theorem Guarded.die {marker : Option Pending}
    (h : ∀ t, notes.Stands t → marker.map Trial.of = some t) (env : Env) (action : Action) :
    Guarded marker none ((unconfirmed (H := H) site.schema).after env action process none notes) := by
  refine ⟨fun t ht => h t ?_,by simp,by simp⟩
  cases process <;> exact ht

/-- An event that leaves the generation alone leaves the notes of the memory alone. -/
theorem after_same {p q : Process} (h : q.state.generation = p.state.generation) (env : Env)
    (action : Action) :
    (unconfirmed (H := H) site.schema).after env action (some p) (some q) notes = notes := by
  simp [unconfirmed,h]

theorem after_moved {p q : Process} (h : q.state.generation ≠ p.state.generation) (env : Env)
    (action : Action) :
    (unconfirmed (H := H) site.schema).after env action (some p) (some q) notes =
      {notes with memory := trying site.schema env action (some p)} := by
  simp [unconfirmed,h]

/-- With nothing pending in a daemon that has resumed, nothing stands unconfirmed. -/
theorem Guarded.settled {p : Process} {marker : Option Pending} (h : Guarded marker (some p) notes) (hp : p.phase ≠ .started)
    (hpending : p.state.pending = none) :
    (∀ t, ¬notes.Stands t) ∧ notes.memory = none := by
  constructor
  · intro t ht
    have harmed := (h.armed p rfl hp t ht).1
    simp [hpending] at harmed
  · rcases hm : notes.memory with _ | t
    · rfl
    · have hrun := h.running p rfl t hm
      simp [hp,hpending] at hrun

theorem settle_stands {t u : Trial} {n : Notes} : (n.settle t).Stands u ↔ n.Stands u ∧ u ≠ t := by
  simp only [Notes.Stands,Notes.settle,Option.filter_eq_some_iff,decide_eq_true_eq]
  tauto

/-- Where nothing is unconfirmed and nothing is tried, every step leaves it so. -/
theorem during_settled {e : Effect} {env : Env} {action : Action}
    (htrying : trying site.schema env action process = none) (answer : Option e.Answer) (b : Box H)
    {n : Notes} (hn : (∀ t, ¬n.Stands t) ∧ n.memory = none) :
    (∀ t, ¬((unconfirmed site.schema).during env action process e answer b n).Stands t) ∧
    ((unconfirmed site.schema).during env action process e answer b n).memory = none := by
  obtain ⟨hstands,hmemory⟩ := hn
  have hhost : n.host = none := Option.eq_none_iff_forall_ne_some.mpr (fun t ht => hstands t (.inl ht))
  have hrec : n.recorded = none :=
    Option.eq_none_iff_forall_ne_some.mpr (fun t ht => hstands t (.inr ht))
  cases e with
  | apply config =>
    rcases answer with _ | _ | _ <;> simp [unconfirmed,htrying,Notes.Stands,hhost,hrec,hmemory]
  | saveRunning config generation =>
    rcases answer with _ | _ | _ <;> simp [unconfirmed,htrying,Notes.Stands,hhost,hrec,hmemory]
  | renameTemporary => rcases answer with _ | _ | _ <;> exact ⟨hstands,hmemory⟩
  | disarmMarker =>
    rcases answer with _ | answer
    · exact ⟨hstands,hmemory⟩
    · cases hc : confirming action process with
      | none => simp [unconfirmed,hc,hmemory,hstands]
      | some t =>
        simp only [unconfirmed,hc,settle_stands]
        exact ⟨fun u hu => hstands u hu.1,by simp [Notes.settle,hmemory]⟩
  | _ => exact ⟨hstands,hmemory⟩

/-- A program that starts with nothing unconfirmed and tries nothing. -/
theorem keepsGuard_settled {α : Type} {p : Process} {program : Act α} {left : α → Option Process}
    (htrying : trying site.schema ev.env ev.action (some p) = none)
    (hn : (∀ t, ¬notes.Stands t) ∧ notes.memory = none) :
    KeepsGuard site ev box (some p) notes program left := by
  have hguard : ∀ (m : Option Pending) (q : Option Process) (n : Notes), (∀ t, ¬n.Stands t) →
      n.memory = none → Guarded m q n := fun m q n hs hm =>
    ⟨fun t ht => absurd ht (hs t),fun _ _ _ t ht => absurd ht (hs t),by simp [hm]⟩
  have hends : program.Ends
      (watched (perform site) ((unconfirmed site.schema).during ev.env ev.action (some p)))
      (fun e f w => Careful site ev (some p) e f w.1)
      (fun _ w => True ∧ (∀ t, ¬w.2.Stands t) ∧ w.2.memory = none)
      (fun w => (∀ t, ¬w.2.Stands t) ∧ w.2.memory = none) (box,notes) :=
    (Prog.only_of_forall (fun _ => trivial)).ends (Prog.returns_of_forall (fun _ => trivial))
      (fun e f w _ _ hw => during_settled htrying (perform site e f w.1).1 w.1 hw) hn
  refine hends.mono ?_ ?_
  · rintro a ⟨b,n⟩ ⟨-,hs,hm⟩
    rcases hq : left a with _ | q
    · exact Guarded.die (fun t ht => absurd ht (hs t)) _ _
    · by_cases hgen : q.state.generation = p.state.generation
      · rw [after_same hgen]
        exact hguard _ _ _ hs hm
      · rw [after_moved hgen,htrying]
        exact hguard _ _ _ hs rfl
  · rintro ⟨b,n⟩ ⟨hs,hm⟩
    exact Guarded.die (fun t ht => absurd ht (hs t)) _ _

/-- Steps that leave the marker alone, in an event that tries nothing, make nothing stand. -/
theorem during_unmarked {e : Effect} (h : e.Unmarked) {env : Env} {action : Action}
    (htrying : trying site.schema env action process = none) (answer : Option e.Answer)
    (b : Box H) (n : Notes) :
    (∀ t, ((unconfirmed site.schema).during env action process e answer b n).Stands t → n.Stands t) ∧
    ((unconfirmed site.schema).during env action process e answer b n).memory = n.memory := by
  cases e with
  | apply config =>
    rcases answer with _ | _ | _ <;> simp +contextual [unconfirmed,htrying,Notes.Stands]
  | saveRunning config generation =>
    rcases answer with _ | _ | _ <;> simp +contextual [unconfirmed,htrying,Notes.Stands]
  | renameTemporary => rcases answer with _ | _ | _ <;> exact ⟨fun _ => id,rfl⟩
  | armMarker | disarmMarker => exact absurd rfl h
  | _ => exact ⟨fun _ => id,rfl⟩

/-- An event that tries nothing and leaves alone the marker and what waits to be confirmed. -/
theorem keepsGuard_unmarked {α : Type} {p : Process} {program : Act α} {left : α → Option Process}
    (h : Guarded box.marker (some p) notes) (hp : p.phase ≠ .started)
    (htrying : trying site.schema ev.env ev.action (some p) = none)
    (honly : program.Only Effect.Unmarked)
    (hreturns : program.Returns (fun a => ∃ q, left a = some q ∧ q.phase ≠ .started ∧
      p.state.SameWait q.state)) :
    KeepsGuard site ev box (some p) notes program left := by
  have hends : program.Ends
      (watched (perform site) ((unconfirmed site.schema).during ev.env ev.action (some p)))
      (fun e f w => Careful site ev (some p) e f w.1)
      (fun a w => (∃ q, left a = some q ∧ q.phase ≠ .started ∧ p.state.SameWait q.state) ∧
        w.1.marker = box.marker ∧ (∀ t, w.2.Stands t → notes.Stands t) ∧ w.2.memory = notes.memory)
      (fun w => w.1.marker = box.marker ∧ (∀ t, w.2.Stands t → notes.Stands t) ∧
        w.2.memory = notes.memory) (box,notes) := by
    refine honly.ends hreturns (fun e f w he _ hw => ?_) ⟨rfl,fun _ => id,rfl⟩
    obtain ⟨hstands,hmemory⟩ :=
      during_unmarked he htrying (perform site e f w.1).1 w.1 w.2
    exact ⟨(perform_marker f w.1 he).trans hw.1,fun t ht => hw.2.1 t (hstands t ht),
      hmemory.trans hw.2.2⟩
  refine hends.mono ?_ ?_
  · rintro a ⟨box',notes'⟩ ⟨⟨q,hq,hphase,hpending,htimer⟩,hmarker,hstands,hmemory⟩
    have hguard : ∀ n : Notes, (∀ t, n.Stands t → notes.Stands t) →
        (∀ t, n.memory = some t → notes.memory = some t) → Guarded box'.marker (some q) n := by
      refine fun n hn hm => ⟨fun t ht => hmarker ▸ h.marked t (hn t ht),?_,?_⟩
      · rintro _ ⟨⟩ _ t ht
        rw [hpending,htimer]
        exact h.armed p rfl hp t (hn t ht)
      · rintro _ ⟨⟩ t ht
        have hrun := h.running p rfl t (hm t ht)
        rw [if_neg hp] at hrun
        rw [if_neg hphase,hpending,hrun]
    rw [hq]
    by_cases hgen : q.state.generation = p.state.generation
    · rw [after_same hgen]
      exact hguard notes' hstands (fun t ht => hmemory ▸ ht)
    · rw [after_moved hgen,htrying]
      exact hguard _ hstands (by simp)
  · rintro ⟨box',notes'⟩ ⟨hmarker,hstands,hmemory⟩
    exact Guarded.die (fun t ht => hmarker ▸ h.marked t (hstands t ht)) _ _

/-- An answer without a step. -/
theorem keepsGuard_same {α : Type} {p : Process} {a : α} {left : α → Option Process}
    (h : Guarded box.marker (some p) notes) (hleft : left a = some p) :
    KeepsGuard site ev box (some p) notes (.done a) left := by
  rw [KeepsGuard,Prog.ends_done,hleft,after_same rfl]
  exact h

/-! ### Committing -/

section Commit
variable {s : State} {id : SessionId} {actor : Actor} {comment : Option String}

theorem trying_commit {session : Session} {changes : List Change} {minutes : ℕ} {env : Env}
    (hplan : plan site.schema env s id actor = .ok (session,changes)) :
    trying site.schema env (.request actor (.commit id comment (some minutes))) (some ⟨.serving,s⟩) =
      some ⟨s.running,session.candidate,s.generation+1⟩ := by
  simp [trying,hplan]

/-- What the commit names as the configuration to go back to is the one that was running. -/
theorem of_tryout {session : Session} {env : Env} {minutes was : ℕ} :
    Trial.of ((s.advance id session).tryout env id actor comment minutes was) =
      ⟨s.running,session.candidate,s.generation+1⟩ := by
  simp [Trial.of,State.tryout]

/-- Once its apply has gone through, a commit to be confirmed gets its marker on disk. -/
theorem promoted_tried_guarded {session : Session} {changes : List Change} {minutes : ℕ}
    (htrying : trying site.schema ev.env ev.action (some ⟨.serving,s⟩) =
      some ⟨s.running,session.candidate,s.generation+1⟩)
    (hhost : notes.host = some ⟨s.running,session.candidate,s.generation+1⟩)
    (hrecorded : notes.recorded = none) :
    KeepsGuard site ev box (some ⟨.serving,s⟩) notes
      (promoted site.schema ev.env s id actor comment (some minutes) session changes)
      (fun r => some ⟨.serving,r.2⟩) := by
  set t : Trial := ⟨s.running,session.candidate,s.generation+1⟩ with ht
  have hsome : (trying site.schema ev.env ev.action (some ⟨.serving,s⟩)).isSome := by simp [htrying]
  -- Until its marker is written, only this commit stands, and the daemon is not killed.
  refine Prog.ends_step (fun w => ∀ u, w.2.Stands u → u = t) (fun f hf => ?_) (fun _ w hw => ?_)
  · rcases hio : f.io with _ | e | _
    · simp [watched,perform,hio,unconfirmed,Notes.Stands,hhost,htrying]
    · simp [watched,perform,hio,unconfirmed,Notes.Stands,hhost,hrecorded]
    · exact absurd hio (hf.1 hsome)
  · refine Prog.ends_step (fun w => ∀ u, w.2.Stands u → u = t) (fun f hf => ?_) (fun _ w' hw' => ?_)
    · rcases hio : f.io with _ | e | _
      · simp only [watched,perform,hio,write_ok]
        exact hw
      · simp only [watched,perform,hio,write_fail]
        exact hw
      · exact absurd hio (hf hsome)
    · intro f hf
      have hio : f.io = .ok := hf
      simp only [watched,perform,hio,write_ok]
      show Guarded _ (some ⟨.serving,(s.advance id session).await _⟩) _
      rw [after_moved (Nat.succ_ne_self s.generation)]
      have hof : Trial.of ((s.advance id session).tryout ev.env id actor comment minutes
          s.generation) = t := of_tryout
      refine ⟨fun u hu => ?_,?_,?_⟩
      · rw [hw' u hu]
        exact congrArg some hof
      · rintro _ ⟨⟩ _ u hu
        rw [hw' u hu]
        exact ⟨congrArg some hof,rfl⟩
      · rintro _ ⟨⟩ u hu
        rw [htrying] at hu
        rw [if_neg (by simp),← hu]
        exact congrArg some hof

/-- A commit, with or without a timeout. -/
theorem commit_guarded {minutes : Option ℕ} (h : Guarded box.marker (some ⟨.serving,s⟩) notes)
    (hev : ev.action = .request actor (.commit id comment minutes)) :
    KeepsGuard site ev box (some ⟨.serving,s⟩) notes
      (commit site.schema ev.env s id actor comment minutes) (fun r => some ⟨.serving,r.2⟩) := by
  cases minutes with
  | none =>
    refine keepsGuard_unmarked h (by simp) (by rw [hev]; rfl) only_commit_kept ?_
    exact returns_commit_kept.mono (fun r hr => ⟨_,rfl,by simp,hr⟩)
  | some minutes =>
    unfold commit
    rcases hplan : plan site.schema ev.env s id actor with response | ⟨session,changes⟩
    · exact keepsGuard_same h rfl
    · have htrying : trying site.schema ev.env ev.action (some ⟨.serving,s⟩) =
          some ⟨s.running,session.candidate,s.generation+1⟩ := by
        rw [hev]
        exact trying_commit hplan
      -- Nothing else was waiting, so nothing stood unconfirmed before.
      obtain ⟨hstands,hmemory⟩ := h.settled (by simp) (plan_eq_ok.mp hplan).2.1
      dsimp only
      split_ifs
      · exact keepsGuard_same h rfl
      · intro f hf
        have hcut := hf.1 (by simp [htrying])
        rcases hr : site.applyHost session.candidate f.host box.host with ⟨_ | e | _,host⟩
        · rw [hr] at hcut
          exact absurd rfl hcut
        · simp only [watched,perform,hr]
          show Guarded _ (some ⟨.serving,s⟩) _
          rw [after_same rfl]
          exact h
        · simp only [watched,perform,hr]
          apply promoted_tried_guarded htrying
          · exact htrying
          · exact Option.eq_none_iff_forall_ne_some.mpr (fun t ht => hstands t (.inr ht))

theorem confirm_guarded (h : Guarded box.marker (some ⟨.serving,s⟩) notes)
    (hev : ev.action = .request actor (.confirm id)) :
    KeepsGuard site ev box (some ⟨.serving,s⟩) notes (confirm site.schema ev.env s id actor)
      (fun r => some ⟨.serving,r.2⟩) := by
  have htrying : trying site.schema ev.env ev.action (some ⟨.serving,s⟩) = none := by rw [hev]; rfl
  unfold confirm
  cases s.owned id actor with
  | error response => exact keepsGuard_same h rfl
  | ok session =>
    cases hp : s.pending with
    | none => exact keepsGuard_same h rfl
    | some pending =>
      have hconfirming : confirming ev.action (some ⟨.serving,s⟩) = some (Trial.of pending) := by
        rw [hev]
        simp [confirming,hp]
      -- What stands is the commit that waits, and taking its marker away settles it.
      have hone : ∀ t, notes.Stands t → t = Trial.of pending := by
        intro t ht
        have harmed := (h.armed _ rfl (by simp) t ht).1
        simpa [hp,eq_comm] using harmed
      have hmemory : ∀ t, notes.memory = some t → t = Trial.of pending := by
        intro t ht
        have hrun := h.running _ rfl t ht
        simpa [hp,eq_comm] using hrun
      refine Prog.ends_step (fun w => (∀ t, ¬w.2.Stands t) ∧ w.2.memory = none)
        (fun f _ => ?_) (fun _ w hw => keepsGuard_settled htrying hw)
      have hgone : (∀ t, ¬(notes.settle (Trial.of pending)).Stands t) ∧
          (notes.settle (Trial.of pending)).memory = none := by
        refine ⟨fun t ht => ?_,?_⟩
        · obtain ⟨hstands,hne⟩ := settle_stands.mp ht
          exact hne (hone t hstands)
        · simpa [Notes.settle,Option.filter_eq_none_iff] using hmemory
      rcases hio : f.io with _ | e | _
      · simpa [watched,perform,hio,unconfirmed,hconfirming] using hgone
      · simpa [watched,perform,hio,unconfirmed,hconfirming] using hgone
      · simp only [watched,perform,hio,write_kill]
        exact Guarded.die h.marked _ _

end Commit

/-! ### Undoing a commit, and picking one up -/

/-- A rollback takes the unconfirmed configuration from everywhere before it takes the marker. -/
theorem rollBack_guarded {p : Process} {s : State} {pending : Pending} {phase : Phase}
    (hact : ev.action = .timer ∨ ev.action = .resume) (hp : s.pending = some pending)
    (hgen : s.generation = p.state.generation)
    (hmarked : ∀ t, notes.Stands t → box.marker.map Trial.of = some t) :
    KeepsGuard site ev box (some p) notes (rollBack s) (fun s' => some ⟨phase,s'⟩) := by
  have htrying : trying site.schema ev.env ev.action (some p) = none := by
    rcases hact with h | h <;> rw [h] <;> rfl
  have hconfirming : confirming ev.action (some p) = none := by
    rcases hact with h | h <;> rw [h] <;> rfl
  unfold rollBack putBack
  rw [hp]
  intro f hf
  have hclean := hf.2 hact
  rcases hr : site.applyHost pending.previous f.host box.host with ⟨_ | e | _,host⟩
  · simp only [watched,perform,hr]
    exact Guarded.die (fun t ht => hmarked t (by simpa [unconfirmed,htrying] using ht)) _ _
  · rw [hr] at hclean
    exact absurd rfl (hclean e)
  · simp only [watched,perform,hr]
    -- The host is as before; `running.json` follows, and only then the marker goes.
    refine Prog.ends_step (fun w => w.2.host = none ∧ w.2.recorded = none) (fun g hg => ?_)
      (fun _ w hw => ?_)
    · rcases hio : g.io with _ | e | _
      · simp [watched,perform,hio,unconfirmed,htrying]
      · exact absurd hio (hg.2 hact e)
      · simp only [watched,perform,hio,write_kill]
        refine Guarded.die (fun t ht => hmarked t ?_) _ _
        rcases ht with ht | ht
        · simp [unconfirmed,htrying] at ht
        · exact .inr ht
    · refine Prog.ends_step (fun w => w.2.host = none ∧ w.2.recorded = none) (fun k _ => ?_)
        (fun _ w' hw' => ?_)
      · rcases hk : k.io with _ | e | _
        · simpa [watched,perform,hk,unconfirmed,hconfirming] using hw
        · simpa [watched,perform,hk,unconfirmed,hconfirming] using hw
        · simp only [watched,perform,hk,write_kill]
          refine Guarded.die (fun t ht => ?_) _ _
          simp [unconfirmed,Notes.Stands,hw] at ht
      · show Guarded _ (some ⟨phase,s.release.install pending.previous⟩) _
        rw [after_moved (by simp [hgen]),htrying]
        exact ⟨by simp [Notes.Stands,hw'],by simp [Notes.Stands,hw'],by simp⟩

/-- Resuming arms the rollback that the marker asks for, or carries it out. -/
theorem resume_guarded {s : State} (h : Guarded box.marker (some ⟨.started,s⟩) notes)
    (hev : ev.action = .resume) :
    KeepsGuard site ev box (some ⟨.started,s⟩) notes (Configd.resume ev.env s)
      (fun s' => some ⟨.resumed,s'⟩) := by
  intro f hf
  rcases hio : f.io with _ | e | _
  · simp only [watched,perform,hio,read_ok]
    -- What memory runs unconfirmed is what `running.json` held, so the marker speaks for it too.
    have hrun : ∀ t, notes.memory = some t → box.marker.map Trial.of = some t := fun t ht =>
      h.marked t (.inr (h.running _ rfl t ht))
    cases hm : box.marker with
    | none =>
      rw [hm] at hrun
      show Guarded box.marker (some ⟨.resumed,s⟩) _
      rw [after_same (p := ⟨.started,s⟩) (q := ⟨.resumed,s⟩) rfl]
      refine ⟨h.marked,?_,?_⟩
      · rintro _ ⟨⟩ _ t ht
        have hmarked := h.marked t ht
        simp [hm] at hmarked
      · rintro _ ⟨⟩ t ht
        cases hrun t ht
    | some pending =>
      rw [hm] at hrun
      simp only [Prog.done_bind]
      split_ifs
      · exact rollBack_guarded (.inr hev) rfl rfl h.marked
      · show Guarded box.marker (some ⟨.resumed,s.await pending⟩) _
        rw [after_same (p := ⟨.started,s⟩) (q := ⟨.resumed,s.await pending⟩) rfl]
        refine ⟨h.marked,?_,?_⟩
        · rintro _ ⟨⟩ _ t ht
          have hmarked := h.marked t ht
          rw [hm] at hmarked
          exact ⟨hmarked,rfl⟩
        · rintro _ ⟨⟩ t ht
          exact hrun t ht
  · exact absurd hio (hf e)
  · simp only [watched,perform,hio,read_kill]
    exact Guarded.die h.marked _ _

/-- A step that only looks is not noted. -/
theorem during_nothing {e : Effect} (h : e.part = .nothing) {env : Env} {action : Action}
    (answer : Option e.Answer) (b : Box H) (n : Notes) :
    (unconfirmed site.schema).during env action process e answer b n = n := by
  cases e <;> first | rfl | cases h

/-- A daemon that starts takes over what `running.json` holds. -/
theorem start_guarded (h : Guarded box.marker none notes) :
    KeepsGuard site ev box none notes start (fun s => s.map (Process.mk .started)) := by
  have hends : start.Ends
      (watched (perform site) ((unconfirmed site.schema).during ev.env ev.action none))
      (fun e f w => Careful site ev none e f w.1) (fun _ w => True ∧ w.1.marker = box.marker ∧ w.2 = notes)
      (fun w => w.1.marker = box.marker ∧ w.2 = notes) (box,notes) := by
    refine only_start.ends (Prog.returns_of_forall (fun _ => trivial)) (fun e f w he _ hw => ?_) ⟨rfl,rfl⟩
    have hpart : e.part = .nothing := he.elim id id
    exact ⟨(perform_marker f w.1 (by simp [hpart])).trans hw.1,(during_nothing hpart _ w.1 _).trans hw.2⟩
  refine hends.mono ?_ ?_
  · rintro a ⟨b,n⟩ ⟨-,hmarker,rfl⟩
    cases a with
    | none => exact Guarded.die (fun t ht => hmarker ▸ h.marked t ht) _ _
    | some s =>
      refine ⟨fun t ht => hmarker ▸ h.marked t ht,?_,?_⟩
      · rintro _ ⟨⟩ hp
        exact absurd rfl hp
      · rintro _ ⟨⟩ t ht
        exact ht
  · rintro ⟨b,n⟩ ⟨hmarker,rfl⟩
    exact Guarded.die (fun t ht => hmarker ▸ h.marked t ht) _ _

/-- A program whose value is wrapped up. -/
theorem KeepsGuard.map {α β : Type} {program : Act α} {f : α → β} (left : β → Option Process)
    (h : KeepsGuard site ev box process notes program (left ∘ f)) :
    KeepsGuard site ev box process notes (program.bind (fun a => .done (f a))) left :=
  Prog.Ends.bind h

/-- Requests are served one at a time, each with the guard kept. -/
theorem request_guarded {s : State} {actor : Actor} {request : Request}
    (h : Guarded box.marker (some ⟨.serving,s⟩) notes) (hev : ev.action = .request actor request) :
    KeepsGuard site ev box (some ⟨.serving,s⟩) notes (handle site.schema ev.env s actor request)
      (fun r => some ⟨.serving,r.2⟩) := by
  have hedit : request.edits →
      KeepsGuard site ev box (some ⟨.serving,s⟩) notes (handle site.schema ev.env s actor request)
        (fun r => some ⟨.serving,r.2⟩) := by
    intro he
    refine keepsGuard_unmarked h (by simp) ?_ ((only_edits he).mono (Effect.Within.unmarked (by decide)))
      ((returns_edits he).mono (fun r hr => ⟨_,rfl,by simp,hr.sameWait⟩))
    rw [hev]
    cases request <;> first | rfl | cases he
  cases request with
  | commit id comment minutes => exact commit_guarded h hev
  | confirm id => exact confirm_guarded h hev
  | save =>
    refine keepsGuard_unmarked h (by simp) (by rw [hev]; rfl)
      (only_save.mono (Effect.Within.unmarked (by decide))) ?_
    exact returns_save.mono (fun r hr => ⟨_,rfl,by simp,by rw [hr]; exact ⟨rfl,rfl⟩⟩)
  | _ => exact hedit rfl

/-- The timer of a commit undoes it if it still waits. -/
theorem timer_guarded {s : State} {phase : Phase} (h : Guarded box.marker (some ⟨phase,s⟩) notes)
    (hev : ev.action = .timer) :
    KeepsGuard site ev box (some ⟨phase,s⟩) notes (rollBack s) (fun s' => some ⟨phase,s'⟩) := by
  cases hp : s.pending with
  | none =>
    rw [rollBack,hp]
    exact keepsGuard_same h rfl
  | some pending => exact rollBack_guarded (.inl hev) hp rfl h.marked

/-- Every event keeps the guard. -/
theorem event_guarded (h : Guarded box.marker process notes) :
    KeepsGuard site ev box process notes (ev.action.program site.schema ev.env process) Prod.snd := by
  have hsame : ∀ {p : Option Process}, Guarded box.marker p notes →
      KeepsGuard site ev box p notes (.done (none,p)) (Prod.snd (α := Option Response)) := by
    intro p hp
    cases p with
    | none => exact Guarded.die hp.marked _ _
    | some p => exact keepsGuard_same hp rfl
  have hdead : ∀ {p : Option Process}, Guarded box.marker p notes →
      KeepsGuard site ev box p notes (.done (none,none)) (Prod.snd (α := Option Response)) :=
    fun hp => Guarded.die hp.marked _ _
  rcases hev : ev.action with _ | _ | _ | ⟨actor,request⟩ | _ | _ | _ <;>
    rcases process with _ | ⟨_ | _ | _,s⟩
  all_goals try exact hsame h
  all_goals try exact hdead h
  · exact KeepsGuard.map _ (start_guarded h)
  · exact KeepsGuard.map _ (resume_guarded h hev)
  · refine KeepsGuard.map _ (keepsGuard_unmarked h (by simp) (by rw [hev]; rfl) only_boot ?_)
    exact returns_boot.mono (fun r hr => ⟨_,rfl,by simp,hr⟩)
  · exact KeepsGuard.map _ (request_guarded h hev)
  all_goals
    rw [Action.program]
    split
    · exact KeepsGuard.map _ (timer_guarded h hev)
    · exact hsame h

end

/-! ### Whole runs -/

section Runs
variable {H F : Type} (site : Site H F)

/-- An event within one uptime of the box in which the daemon has to be careful. -/
def CarefulEvent (sys : System H) (ev : Event F) : Prop :=
  ev.action ≠ .reboot ∧ sys.Obeys site (fun ev process => Careful site ev process) ev

/-- The system and the notes of one who watches it from the start. -/
def watchedRun (host : H) (saved : Option String) (evs : List (Event F)) : System H × Notes :=
  evs.foldl (System.watch site (unconfirmed site.schema)) (⟨Box.fresh host saved,none⟩,.blank)

variable {site}

theorem watch_guarded {v : System H × Notes} {ev : Event F} (hev : CarefulEvent site v.1 ev)
    (h : Guarded v.1.box.marker v.1.process v.2) :
    Guarded (System.watch site (unconfirmed site.schema) v ev).1.box.marker
      (System.watch site (unconfirmed site.schema) v ev).1.process
      (System.watch site (unconfirmed site.schema) v ev).2 := by
  let Inv : System H × Notes → Prop := fun v => Guarded v.1.box.marker v.1.process v.2
  show Inv _
  refine System.watch_of_ends hev.2 ?_
  rw [System.found,if_neg hev.1]
  exact event_guarded h

/-- In every run whose events are careful, an unconfirmed configuration stands on the host or in
`running.json` only while its marker, which names what to restore, is on disk. -/
theorem watchedRun_guarded (host : H) (saved : Option String) {evs : List (Event F)}
    (h : Along (System.step site) (CarefulEvent site) ⟨Box.fresh host saved,none⟩ evs) :
    Guarded (watchedRun site host saved evs).1.box.marker (watchedRun site host saved evs).1.process
      (watchedRun site host saved evs).2 := by
  refine System.watch_invariant (fun v ev => watch_guarded) h ?_
  exact ⟨by simp [Notes.blank,Notes.Stands],by simp,by simp⟩

end Runs

/-- Where every step goes through, every event is careful. -/
theorem carefulEvent_smooth {schema : Schema} {action : Action} (h : action ≠ .reboot)
    (id : SessionId) (sys : System (Option ConfigTree)) :
    CarefulEvent (Site.taking schema) sys (Event.smooth action id) := by
  refine ⟨h,Prog.obeys_of_forall (fun n e b => ?_)⟩
  cases e <;> simp [Careful,Site.taking,Event.smooth,Fate.smooth]

theorem tried_guarded :
    (watchedRun (Site.taking (Shipped.schema [])) none none tried).2.host =
      some ⟨.new,(ConfigTree.new.set ["system","host-name"] "edge").2,1⟩ ∧
    Guarded (watchedRun (Site.taking (Shipped.schema [])) none none tried).1.box.marker
      (watchedRun (Site.taking (Shipped.schema [])) none none tried).1.process
      (watchedRun (Site.taking (Shipped.schema [])) none none tried).2 := by
  refine ⟨by decide +kernel,watchedRun_guarded none none (along_of_forall (fun ev hev sys => ?_))⟩
  obtain ⟨action,haction,rfl⟩ := List.mem_map.mp hev
  refine carefulEvent_smooth ?_ _ _
  rintro rfl
  exact absurd haction (by decide)

/-- The same commit, with the daemon killed as it goes on to write the marker, and started again. -/
def cutBeforeMarker : List (Event Unit) :=
  ((triedActions.take 5).map (fun action => Event.smooth action "0123456789abcdef")) ++
  [⟨.request ⟨0,"root"⟩ (.commit "0123456789abcdef" none (some 10)),⟨0,"",.error ""⟩,
    fun n _ => ⟨if n = 3 then .kill else .ok,(),.asKept⟩⟩] ++
  [Event.smooth .start "",Event.smooth .resume ""]

/-- The unconfirmed configuration then stands on the host and in `running.json` with no marker, and
the daemon that has resumed waits for nothing. -/
theorem cutBeforeMarker_unguarded :
    (∀ ev ∈ cutBeforeMarker, ev.action ≠ .reboot) ∧
    ((watchedRun (Site.taking (Shipped.schema [])) none none cutBeforeMarker).2.host =
      some ⟨.new,(ConfigTree.new.set ["system","host-name"] "edge").2,1⟩) ∧
    ((watchedRun (Site.taking (Shipped.schema [])) none none cutBeforeMarker).1.box.marker = none) ∧
    ((watchedRun (Site.taking (Shipped.schema [])) none none cutBeforeMarker).1.process.map
      (fun p => (p.phase,p.state.running,p.state.pending)) =
      some (.resumed,(ConfigTree.new.set ["system","host-name"] "edge").2,none)) := by
  refine ⟨?_,?_,?_,?_⟩ <;> decide +kernel

end Nightshade.Configd
