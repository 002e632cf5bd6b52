import Mathlib
import Nightshade.Configd.InStep
import Nightshade.Configd.Machine
import Nightshade.Configd.Mirror

/-! What the daemon reports as running is what the renderers applied last and remember, unless it
came up on defaults that could not be applied. -/
namespace Nightshade.Configd
open Foundation Schema Render

/-- How the applies have ended so far. -/
abbrev Answers := List (Except CommitError Unit)

def noteAnswer {H : Type} (e : Effect) (r : Option e.Answer) (_ : Box H) (answers : Answers) : Answers :=
  match e,r with
  | .apply _,some answer => answers ++ [answer]
  | _,_ => answers

/-- One who notes how each apply ends. -/
def answers {H : Type} : Watcher H Answers where
  during := fun _ _ _ => noteAnswer
  after := fun _ _ _ _ notes => notes

/-- The boot comes up on the defaults and applying even these fails. When the apply of a saved
configuration fails, that of the defaults still follows. -/
def FallBackFails {H F : Type} (site : Site H F) (sys : System H) (ev : Event F) : Prop :=
  ev.action = .boot ∧ ∃ e, (System.watch site answers (sys,[]) ev).2.getLast? = some (.error e)

section
variable {M F : Type}

/-- A configuration is the one that every renderer remembers, or nothing has been applied and the
configuration is empty. -/
def Told (renderers : List Renderer) (config : ConfigTree) (v : Box (M × Store) × Answers) : Prop :=
  Pipeline.InStep renderers config v.1.host.2 ∨ .ok () ∉ v.2 ∧ config.isEmpty

/-- What a process reports is what the renderers remember, and so is what is recorded under
`/run`. -/
structure Truthful (renderers : List Renderer) (v : System (M × Store) × Answers) : Prop where
  recorded : Told renderers (v.1.box.running.getD ⟨0,.new⟩).config (v.1.box,v.2)
  reported : ∀ p, v.1.process = some p → Told renderers p.state.running (v.1.box,v.2)

/-- The files under `/run` can be used, what is applied is recorded, and so is what the renderers
are to remember. -/
structure KeepsRecords (renderers : List Renderer) (machine : Exec HostOp HostOp.Answer F M)
    (e : Effect) (f : Fate (ℕ → HostOp → HostFate F)) (box : Box (M × Store)) : Prop where
  works : RunWorks e f box
  records : ∀ config generation, e = .saveRunning config generation → f.io = .ok
  remembers : ∀ config, e = .apply config →
    (Pipeline.apply renderers config).Obeys (onHost machine) Pipeline.SavesWork f.host 0 box.host

variable {schema : Schema} {renderers : List Renderer} {machine : Exec HostOp HostOp.Answer F M}
  {rebootMachine : M → M}

/-! ### One event -/

section Event

/-- What is recorded is what is remembered, at some point of an event; the earlier events had
answers of their own. -/
def Honest (renderers : List Renderer) (earlier : Answers) (w : Box (M × Store) × Answers) : Prop :=
  Told renderers (w.1.running.getD ⟨0,.new⟩).config (w.1,earlier ++ w.2)

/-- The last apply of an event failed. -/
def Refusing (w : Box (M × Store) × Answers) : Prop := ∃ e, w.2.getLast? = some (.error e)

/-- A step that neither applies anything nor records anything as running. -/
def Effect.Silent (e : Effect) : Prop := e.part ≠ .host ∧ e.part ≠ .running

theorem Effect.Among.silent {ps : List Part} (hhost : .host ∉ ps) (hrunning : .running ∉ ps)
    (e : Effect) (h : e.Among ps) : e.Silent := by
  rcases h with h | h
  · rw [Effect.Silent,h]
    decide
  · exact ⟨fun he => hhost (he ▸ h),fun he => hrunning (he ▸ h)⟩

theorem Effect.Within.silent {p : Part} (hhost : p ≠ .host) (hrunning : p ≠ .running) (e : Effect)
    (h : e.Within p) : e.Silent := by
  have hamong : e.Among [p] := h.among (by simp)
  exact hamong.silent (by simpa using hhost.symm) (by simpa using hrunning.symm)

theorem noteAnswer_frame {H : Type} {e : Effect} (he : e.part ≠ .host) (r : Option e.Answer)
    (box : Box H) (notes : Answers) : noteAnswer e r box notes = notes := by
  cases e with
  | apply config => exact absurd rfl he
  | _ => rfl

variable {earlier : Answers} {w : Box (M × Store) × Answers} {α : Type}
  {post : α → Box (M × Store) × Answers → Prop} {crash : Box (M × Store) × Answers → Prop}

/-- How a program ends at a site whose records are kept, with its applies noted. -/
abbrev Leaves (site : Site (M × Store) (ℕ → HostOp → HostFate F)) (renderers : List Renderer)
    (machine : Exec HostOp HostOp.Answer F M) (post : α → Box (M × Store) × Answers → Prop)
    (crash : Box (M × Store) × Answers → Prop) (program : Act α) (w : Box (M × Store) × Answers) :
    Prop :=
  program.Ends (watched (perform site) noteAnswer) (fun e f w => KeepsRecords renderers machine e f w.1)
    post crash w

theorem Honest.frame {site : Site (M × Store) (ℕ → HostOp → HostFate F)} {e : Effect}
    {f : Fate (ℕ → HostOp → HostFate F)} (h : Honest renderers earlier w) (he : e.Silent) :
    Honest renderers earlier (watched (perform site) noteAnswer e f w).2 := by
  rw [Honest,watched,noteAnswer_frame he.1,Told,perform_running f w.1 he.2,perform_host f w.1 he.1]
  exact h

theorem Refusing.frame {site : Site (M × Store) (ℕ → HostOp → HostFate F)} {e : Effect}
    {f : Fate (ℕ → HostOp → HostFate F)} (h : Refusing w)
    (he : e.part ≠ .host) : Refusing (watched (perform site) noteAnswer e f w).2 := by
  rw [Refusing,watched,noteAnswer_frame he]
  exact h

theorem silent_leaves {site : Site (M × Store) (ℕ → HostOp → HostFate F)} {program : Act α}
    (honly : program.Only Effect.Silent) (h : Honest renderers earlier w) :
    Leaves site renderers machine (fun _ => Honest renderers earlier) (Honest renderers earlier)
      program w :=
  honly.keeps (Honest renderers earlier) (fun _ _ _ he _ hw => hw.frame he) h

/-- An apply that fails, or in which the daemon is killed, changes nothing that is remembered; one
that goes through has what it applied remembered. -/
theorem apply_leaves {config : ConfigTree} {k : Except CommitError Unit → Act α}
    (h : Honest renderers earlier w) (hcrash : ∀ w, Honest renderers earlier w → crash w)
    (herror : ∀ e w, Honest renderers earlier w → Refusing w →
      Leaves (Site.onMachine schema renderers machine rebootMachine) renderers machine post crash
        (k (.error e)) w)
    (hok : ∀ w, Pipeline.InStep renderers config w.1.host.2 →
      Leaves (Site.onMachine schema renderers machine rebootMachine) renderers machine post crash
        (k (.ok ())) w) :
    Leaves (Site.onMachine schema renderers machine rebootMachine) renderers machine post crash
      (.perform (.apply config) k) w := by
  intro f hf
  have hrun := (Pipeline.apply_ends renderers config w.1.host).run (hf.remembers config rfl)
  rcases hr : (Pipeline.apply renderers config).run (onHost machine) f.host 0 w.1.host with
    ⟨_ | e | _,host⟩
  · rw [hr] at hrun
    have hstore : host.2 = w.1.host.2 := hrun
    simp only [watched,perform,Site.onMachine,hr]
    apply hcrash
    simpa [Honest,Told,noteAnswer,hstore] using h
  · rw [hr] at hrun
    have hstore : host.2 = w.1.host.2 := by
      rcases hrun with ⟨hok,-⟩ | ⟨-,hstore⟩
      · cases hok
      · exact hstore
    simp only [watched,perform,Site.onMachine,hr]
    apply herror
    · simpa [Honest,Told,noteAnswer,hstore] using h
    · exact ⟨e,by simp [noteAnswer]⟩
  · rw [hr] at hrun
    simp only [watched,perform,Site.onMachine,hr]
    apply hok
    rcases hrun with ⟨-,plan,hplan,hstore⟩ | ⟨⟨e,he⟩,-⟩
    · have hstore : host.2 = Pipeline.remembered plan w.1.host.2 := hstore
      show Pipeline.InStep renderers config host.2
      rw [hstore]
      exact Pipeline.inStep_remembered hplan _
    · cases he

/-- What has been applied is recorded as running. -/
theorem record_leaves {site : Site (M × Store) (ℕ → HostOp → HostFate F)} {config : ConfigTree}
    {generation : ℕ} {k : Except String Unit → Act α}
    (h : Pipeline.InStep renderers config w.1.host.2)
    (hk : ∀ w, Honest renderers earlier w → Leaves site renderers machine post crash (k (.ok ())) w) :
    Leaves site renderers machine post crash (.perform (.saveRunning config generation) k) w := by
  intro f hf
  have hio := hf.records config generation rfl
  simp only [watched,perform,hio,write_ok]
  exact hk _ (.inl h)

/-! ### What each handler leaves -/

variable {env : Env} {s : State} {actor : Actor} {id : SessionId}

theorem promoted_leaves {comment : Option String} {minutes : Option ℕ} {session : Session}
    {changes : List Change} (h : Pipeline.InStep renderers session.candidate w.1.host.2) :
    Leaves (Site.onMachine schema renderers machine rebootMachine) renderers machine
      (fun _ => Honest renderers earlier) (Honest renderers earlier)
      (promoted schema env s id actor comment minutes session changes) w := by
  refine record_leaves h (fun w hw => silent_leaves ?_ hw)
  refine ⟨by simp [Effect.Silent,Effect.part],fun _ => ?_⟩
  cases minutes with
  | none =>
    have hrecord : (record schema env session.candidate actor comment (s.generation+1) changes).Only
        Effect.Silent :=
      (only_record _ comment _ changes).mono (Effect.Within.silent (by decide) (by decide))
    exact hrecord.bind (fun _ => trivial)
  | some minutes =>
    refine ⟨by simp [Effect.Silent,Effect.part],fun r => ?_⟩
    cases r <;> trivial

theorem commit_leaves {comment : Option String} {minutes : Option ℕ}
    (h : Honest renderers earlier w) :
    Leaves (Site.onMachine schema renderers machine rebootMachine) renderers machine
      (fun _ => Honest renderers earlier) (Honest renderers earlier)
      (commit schema env s id actor comment minutes) w := by
  unfold commit
  split
  · exact h
  · split
    · exact h
    · exact apply_leaves h (fun _ hw => hw) (fun _ _ hw _ => hw) (fun _ hw => promoted_leaves hw)

theorem handle_leaves {request : Request} (h : Honest renderers earlier w) :
    Leaves (Site.onMachine schema renderers machine rebootMachine) renderers machine
      (fun _ => Honest renderers earlier) (Honest renderers earlier)
      (handle schema env s actor request) w := by
  have hedit : request.edits →
      Leaves (Site.onMachine schema renderers machine rebootMachine) renderers machine
        (fun _ => Honest renderers earlier) (Honest renderers earlier)
        (handle schema env s actor request) w := fun he =>
    silent_leaves ((only_edits he).mono (Effect.Within.silent (by decide) (by decide))) h
  cases request with
  | commit id comment minutes => exact commit_leaves h
  | confirm id =>
    exact silent_leaves (only_confirm.mono (Effect.Among.silent (by decide) (by decide))) h
  | save => exact silent_leaves (only_save.mono (Effect.Within.silent (by decide) (by decide))) h
  | _ => exact hedit rfl

theorem rollBack_leaves (h : Honest renderers earlier w) :
    Leaves (Site.onMachine schema renderers machine rebootMachine) renderers machine
      (fun _ => Honest renderers earlier) (Honest renderers earlier) (rollBack s) w := by
  have hdisarm : ∀ {s : State} {w : Box (M × Store) × Answers}, Honest renderers earlier w →
      Leaves (Site.onMachine schema renderers machine rebootMachine) renderers machine
        (fun _ => Honest renderers earlier) (Honest renderers earlier)
        (Marker.disarm.bind (fun _ => Prog.done s)) w := fun hw =>
    silent_leaves ⟨by simp [Effect.Silent,Effect.part],fun _ => trivial⟩ hw
  unfold rollBack
  split
  · exact h
  · apply apply_leaves h (fun _ hw => hw)
    · exact fun e w hw _ => hdisarm hw
    · intro w hw
      exact record_leaves hw (fun w hw => hdisarm hw)

theorem resume_leaves (h : Honest renderers earlier w) :
    Leaves (Site.onMachine schema renderers machine rebootMachine) renderers machine
      (fun _ => Honest renderers earlier) (Honest renderers earlier) (resume env s) w := by
  refine Prog.Ends.bind ((silent_leaves (Prog.only_call ?_) h).mono (fun r w hw => ?_) (fun _ hw => hw))
  · simp [Effect.Silent,Effect.part]
  · rcases r with e | _ | pending
    · exact hw
    · exact hw
    · dsimp only
      split
      · exact rollBack_leaves hw
      · exact hw

/-- A boot that comes up on defaults which could not be applied need not tell the truth. -/
def HonestOrRefusing (renderers : List Renderer) (earlier : Answers)
    (w : Box (M × Store) × Answers) : Prop :=
  Honest renderers earlier w ∨ Refusing w

theorem fallBack_leaves {reason : String} (h : Honest renderers earlier w) :
    Leaves (Site.onMachine schema renderers machine rebootMachine) renderers machine
      (fun _ => HonestOrRefusing renderers earlier) (HonestOrRefusing renderers earlier)
      (fallBack schema s reason) w := by
  apply apply_leaves h (fun _ hw => .inl hw)
  · intro e w _ hw
    have honly : ((adopt s schema.defaults).bind
        (fun s => Prog.done (Outcome.defaults reason,s))).Only (fun e => e.part ≠ .host) :=
      ⟨by simp [Effect.part],fun _ => trivial⟩
    exact (honly.keeps Refusing (fun _ _ _ he _ hw => hw.frame he) hw).mono
      (fun _ _ hw => .inr hw) (fun _ hw => .inr hw)
  · intro w hw
    exact record_leaves hw (fun w hw => .inl hw)

theorem noteOutcome_leaves {r : Outcome × State} (h : HonestOrRefusing renderers earlier w) :
    Leaves (Site.onMachine schema renderers machine rebootMachine) renderers machine
      (fun _ => HonestOrRefusing renderers earlier) (HonestOrRefusing renderers earlier)
      ((noteOutcome r.1).bind (fun _ => .done r)) w := by
  have honly : ((noteOutcome r.1).bind (fun _ => Prog.done r)).Only Effect.Silent := by
    apply Prog.Only.bind
    · unfold noteOutcome
      split <;> exact ⟨by simp [Effect.Silent,Effect.part],fun _ => trivial⟩
    · exact fun _ => trivial
  exact honly.keeps (HonestOrRefusing renderers earlier)
    (fun _ _ _ he _ hw => hw.imp (fun hw => hw.frame he) (fun hw => hw.frame he.1)) h

theorem boot_leaves (h : Honest renderers earlier w) :
    Leaves (Site.onMachine schema renderers machine rebootMachine) renderers machine
      (fun _ => HonestOrRefusing renderers earlier) (HonestOrRefusing renderers earlier)
      (boot schema s) w := by
  unfold boot
  split
  · exact .inl h
  · apply Prog.Ends.bind
    apply Prog.Ends.bind
    have honly : (saved schema).Only Effect.Silent :=
      only_saved.mono (Effect.Within.silent (by decide) (by decide))
    refine Prog.Ends.mono (silent_leaves honly h) (fun r w hw => ?_) (fun _ hw => .inl hw)
    rcases r with reason | _ | config
    · exact (fallBack_leaves hw).mono (fun _ _ hw => noteOutcome_leaves hw) (fun _ hw => hw)
    · exact noteOutcome_leaves (r := (.nothingSaved,s)) (.inl hw)
    · refine Prog.Ends.mono ?_ (fun r w hw => noteOutcome_leaves (r := r) hw) (fun _ hw => hw)
      apply apply_leaves hw (fun _ hw => .inl hw)
      · exact fun e w hw _ => fallBack_leaves hw
      · intro w hw
        exact record_leaves hw (fun w hw => .inl hw)

/-- Every event but a boot leaves the truth. -/
theorem program_leaves {action : Action} {process : Option Process} (haction : action ≠ .boot)
    (h : Honest renderers earlier w) :
    Leaves (Site.onMachine schema renderers machine rebootMachine) renderers machine
      (fun _ => Honest renderers earlier) (Honest renderers earlier)
      (action.program schema env process) w := by
  rcases action with _ | _ | _ | ⟨actor,request⟩ | _ | _ | _ <;>
    rcases process with _ | ⟨_ | _ | _,s⟩
  all_goals try exact h
  · have honly : start.Only Effect.Silent :=
      only_start.mono (Effect.Within.silent (by decide) (by decide))
    exact silent_leaves (honly.bind (fun _ => trivial)) h
  · exact Prog.Ends.bind ((resume_leaves h).mono (fun _ _ hw => hw) (fun _ hw => hw))
  · exact absurd rfl haction
  · exact Prog.Ends.bind ((handle_leaves h).mono (fun _ _ hw => hw) (fun _ hw => hw))
  all_goals
    rw [Action.program]
    split
    · exact Prog.Ends.bind ((rollBack_leaves h).mono (fun _ _ hw => hw) (fun _ hw => hw))
    · exact h

theorem program_leaves_boot {process : Option Process} (h : Honest renderers earlier w) :
    Leaves (Site.onMachine schema renderers machine rebootMachine) renderers machine
      (fun _ => HonestOrRefusing renderers earlier) (HonestOrRefusing renderers earlier)
      (Action.boot.program schema env process) w := by
  rcases process with _ | ⟨_ | _ | _,s⟩
  all_goals try exact .inl h
  · exact Prog.Ends.bind ((boot_leaves h).mono (fun _ _ hw => hw) (fun _ hw => hw))

end Event

/-! ### Whole runs -/

section Runs

/-- The answers of an event come after those that were there before it. -/
theorem watch_answers {H F : Type} {site : Site H F} (sys : System H) (earlier : Answers)
    (ev : Event F) :
    System.watch site answers (sys,earlier) ev =
      ((System.watch site answers (sys,[]) ev).1,
        earlier ++ (System.watch site answers (sys,[]) ev).2) := by
  have hmap := run_watched_map (perform site) noteAnswer noteAnswer (fun notes => earlier ++ notes)
    (fun e r b notes => by cases e <;> cases r <;> simp [noteAnswer]) ev.fate 0
    (ev.action.program site.schema ev.env sys.process) (sys.found site ev) []
  rw [List.append_nil] at hmap
  simp only [System.watch,answers,hmap]
  rcases (ev.action.program site.schema ev.env sys.process).run (watched (perform site) noteAnswer)
      ev.fate 0 (sys.found site ev,[]) with ⟨_ | r,w⟩ <;> rfl

/-- What an event needs: it is no reboot, its records are kept, and its boot does not come up on
defaults that cannot be applied. -/
structure Sound (site : Site (M × Store) (ℕ → HostOp → HostFate F)) (renderers : List Renderer)
    (machine : Exec HostOp HostOp.Answer F M) (sys : System (M × Store))
    (ev : Event (ℕ → HostOp → HostFate F)) : Prop where
  uptime : ev.action ≠ .reboot
  keeps : sys.Obeys site (fun _ _ => KeepsRecords renderers machine) ev
  lands : ¬FallBackFails site sys ev

/-- What is recorded as running is what is remembered, and the process agrees with the records. -/
structure Upright (renderers : List Renderer) (v : System (M × Store) × Answers) : Prop where
  agrees : v.1.Agrees
  recorded : Told renderers (v.1.box.running.getD ⟨0,.new⟩).config (v.1.box,v.2)

theorem Upright.truthful {v : System (M × Store) × Answers} (h : Upright renderers v) :
    Truthful renderers v where
  recorded := h.recorded
  reported := by
    intro p hp
    have hrunning : v.1.box.running.getD ⟨0,.new⟩ = ⟨p.state.generation,p.state.running⟩ := by
      have hagrees := h.agrees.process p hp
      by_cases hphase : p.phase = .started
      · rw [Process.Agrees,if_pos hphase] at hagrees
        exact hagrees.running
      · rw [Process.Agrees,if_neg hphase] at hagrees
        exact hagrees.running
    have hrecorded := h.recorded
    rw [hrunning] at hrecorded
    exact hrecorded

theorem watch_upright {v : System (M × Store) × Answers} {ev : Event (ℕ → HostOp → HostFate F)}
    (hev : Sound (Site.onMachine schema renderers machine rebootMachine) renderers machine v.1 ev)
    (h : Upright renderers v) :
    Upright renderers
      (System.watch (Site.onMachine schema renderers machine rebootMachine) answers v ev) := by
  obtain ⟨sys,earlier⟩ := v
  have hworks : RunWorksIn (Site.onMachine schema renderers machine rebootMachine) sys ev :=
    Prog.Obeys.mono (fun _ _ _ hf => hf.works) hev.keeps
  have hagrees := step_agrees hworks h.agrees
  have hfound : sys.found (Site.onMachine schema renderers machine rebootMachine) ev = sys.box := by
    rw [System.found,if_neg hev.uptime]
  have hhonest : Honest renderers earlier (sys.box,[]) := by
    rw [Honest,List.append_nil]
    exact h.recorded
  constructor
  · rw [System.watch_fst]
    exact hagrees
  · rw [watch_answers]
    by_cases hboot : ev.action = .boot
    · let Inv : System (M × Store) × Answers → Prop :=
        fun v => HonestOrRefusing renderers earlier (v.1.box,v.2)
      have hinv : Inv (System.watch (Site.onMachine schema renderers machine rebootMachine) answers
          (sys,[]) ev) := by
        refine System.watch_of_ends hev.keeps ?_
        rw [hfound,hboot]
        exact program_leaves_boot hhonest
      exact hinv.resolve_right (fun hrefusing => hev.lands ⟨hboot,hrefusing⟩)
    · let Inv : System (M × Store) × Answers → Prop :=
        fun v => Honest renderers earlier (v.1.box,v.2)
      show Inv (System.watch (Site.onMachine schema renderers machine rebootMachine) answers
          (sys,[]) ev)
      refine System.watch_of_ends hev.keeps ?_
      rw [hfound]
      exact program_leaves hboot hhonest

/-- Within one uptime, as long as what is applied is recorded and no boot comes up on defaults that
cannot be applied, what the daemon reports is what every renderer remembers, or nothing has been
applied and the configuration is empty. -/
theorem running_truthful (box : Box (M × Store)) (evs : List (Event (ℕ → HostOp → HostFate F)))
    (h : Along (System.step (Site.onMachine schema renderers machine rebootMachine))
      (Sound (Site.onMachine schema renderers machine rebootMachine) renderers machine)
      ⟨box.reboot (Site.onMachine schema renderers machine rebootMachine),none⟩ evs) :
    Truthful renderers
      (evs.foldl (System.watch (Site.onMachine schema renderers machine rebootMachine) answers)
        (⟨box.reboot (Site.onMachine schema renderers machine rebootMachine),none⟩,[])) := by
  apply Upright.truthful
  refine System.watch_invariant (fun v ev hev hv => watch_upright hev hv) h ?_
  refine ⟨⟨fun id session hget => absurd hget (by simp [Box.reboot]),fun p hp => absurd hp (by simp)⟩,?_⟩
  exact .inr ⟨by simp,rfl⟩

end Runs
end

/-! ### On the bench -/

/-- An answer by which the host is in no state that matches any configuration. -/
def isUnrecovered : Except CommitError Unit → Bool
  | .error (.unrecovered _ _ _) => true
  | _ => false

/-- On the bench every record is kept. -/
theorem Bench.event_keeps (broken : List String) (action : Action) (sys : System (Bench × Render.Store)) :
    sys.Obeys Bench.site (fun _ _ => KeepsRecords (renderers (Shipped.schema [])) Bench.machine)
      (Bench.event broken action) := by
  refine Prog.obeys_of_forall (fun n e box => ⟨fun _ _ => ?_,fun _ _ _ => rfl,fun config _ => ?_⟩)
  · simp [Bench.event,Fate.smooth]
  · exact Prog.obeys_of_forall (fun _ _ _ _ _ _ => rfl)

/-- A box whose `config.boot` does not parse. -/
def unusable : Box (Bench × Render.Store) := Box.fresh (default,SortedMap.empty) (some "system \x7b")

/-- A start of the daemon on which the host name cannot be set. -/
def startup : List (Event (ℕ → HostOp → HostFate (List String))) :=
  [Action.start,.resume,.boot].map (Bench.event ["hostnamectl"])

def defaulted : System (Bench × Render.Store) × Answers :=
  startup.foldl (System.watch Bench.site answers) (⟨unusable.reboot Bench.site,none⟩,[])

theorem Truthful.shows {M : Type} {renderers : List Renderer} {v : System (M × Render.Store) × Answers}
    (h : Truthful renderers v) {renderer : Renderer} (hr : renderer ∈ renderers) :
    (v.1.box.host.2.get? renderer.name).isSome ∨
      (v.1.box.running.getD ⟨0,.new⟩).config.isEmpty := by
  rcases h.recorded with hstep | ⟨-,hempty⟩
  · obtain ⟨owner,-,-,artifacts,-,hget⟩ := hstep renderer hr
    exact .inl (by simp [hget])
  · exact .inr hempty

/-- It comes up on the defaults, which cannot be applied, and reports that they are running. -/
theorem defaulted_not_truthful :
    Along (System.step Bench.site) (fun sys ev => ev.action ≠ .reboot ∧
      sys.Obeys Bench.site (fun _ _ => KeepsRecords (renderers (Shipped.schema [])) Bench.machine) ev)
      ⟨unusable.reboot Bench.site,none⟩ startup ∧
    defaulted.2.all (fun answer => !isUnrecovered answer) ∧
    ¬Truthful (renderers (Shipped.schema [])) defaulted := by
  refine ⟨along_of_forall (fun ev hev sys => ?_),by decide +kernel,?_⟩
  · obtain ⟨action,haction,rfl⟩ := List.mem_map.mp hev
    refine ⟨?_,Bench.event_keeps _ _ _⟩
    rintro rfl
    exact absurd haction (by decide)
  · have hsystem : SystemRenderer ∈ renderers (Shipped.schema []) := List.mem_cons_self
    exact mt (fun h => h.shows hsystem) (by decide +kernel)

theorem FallBackFails.shows {H F : Type} {site : Site H F} {sys : System H} {ev : Event F}
    (h : FallBackFails site sys ev) :
    ((System.watch site answers (sys,[]) ev).2.getLast?.map Except.isOk) = some false := by
  obtain ⟨-,e,he⟩ := h
  rw [he]
  rfl

/-- The host name cannot be set at first. -/
def secondTry : List (Event (ℕ → HostOp → HostFate (List String))) :=
  (triedActions.take 5).map (Bench.event []) ++
    [Bench.event ["hostnamectl"] (.request ⟨0,"root"⟩ (.commit "0123456789abcdef" none none)),
      Bench.event [] (.request ⟨0,"root"⟩ (.commit "0123456789abcdef" none none))]

def shipped : Box (Bench × Render.Store) := Box.fresh (default,SortedMap.empty) none

theorem secondTry_truthful :
    Truthful (renderers (Shipped.schema []))
      (secondTry.foldl (System.watch Bench.site answers) (⟨shipped.reboot Bench.site,none⟩,[])) ∧
    (secondTry.foldl (System.watch Bench.site answers) (⟨shipped.reboot Bench.site,none⟩,[])).2.map
      Except.isOk = [false,true] := by
  refine ⟨running_truthful shipped secondTry ?_,by decide +kernel⟩
  have hsound : ∀ broken action sys, action ≠ .reboot → action ≠ .boot →
      Sound Bench.site (renderers (Shipped.schema [])) Bench.machine sys (Bench.event broken action) :=
    fun broken action sys huptime hboot =>
      ⟨huptime,Bench.event_keeps broken action sys,fun hfails => hboot hfails.1⟩
  refine ⟨hsound _ _ _ (by decide) (by decide),hsound _ _ _ (by decide) (by decide),?_,
    hsound _ _ _ (by decide) (by decide),hsound _ _ _ (by decide) (by decide),
    hsound _ _ _ (by decide) (by decide),hsound _ _ _ (by decide) (by decide),trivial⟩
  exact ⟨by decide,Bench.event_keeps _ _ _,mt FallBackFails.shows (by decide +kernel)⟩

end Nightshade.Configd
