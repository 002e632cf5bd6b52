import Mathlib
import Nightshade.Configd.Mirror

/-! Stopping the daemon and starting it again within one uptime of the box. Whether that is a boot
is told from what `running.json` recovers, and a box on which nothing was ever applied recovers
the same as one that has just booted. -/
namespace Nightshade.Configd
open Foundation Schema

/-- One who notes what is applied to the host. -/
def applied {H : Type} : Watcher H (List ConfigTree) where
  during := fun _ _ _ e _ _ notes =>
    match e with
    | .apply config => notes ++ [config]
    | _ => notes
  after := fun _ _ _ _ notes => notes

/-- The daemon stopped, and its main program run again: what it learns from outside, and the fates
of its steps. -/
structure Restart (F : Type) where
  env : Env
  start : ℕ → Effect → Fate F
  resume : ℕ → Effect → Fate F
  boot : ℕ → Effect → Fate F

namespace Restart
variable {F : Type} (restart : Restart F)

def events : List (Event F) :=
  [⟨.stop,restart.env,restart.start⟩,⟨.start,restart.env,restart.start⟩,
    ⟨.resume,restart.env,restart.resume⟩,⟨.boot,restart.env,restart.boot⟩]

/-- Every step under `/run` goes through, and the daemon is not killed as it reads `config.boot`. -/
structure Works : Prop where
  start : ∀ n e, e.volatile → (restart.start n e).io = .ok
  resume : ∀ n e, e.volatile → (restart.resume n e).io = .ok
  boot : ∀ n e, e.volatile → (restart.boot n e).io = .ok
  reads : (restart.boot 0 .readSaved).io ≠ .kill

end Restart

section
variable {H F : Type} (site : Site H F)

/-- A restart applies nothing, leaves the host and every file as they were, and serves the running
configuration, generation and sessions of the daemon before it. -/
def Inert (sys : System H) (s : State) (restart : Restart F) : Prop :=
  let v := restart.events.foldl (System.watch site applied) (sys,[])
  v.2 = [] ∧ v.1.box = sys.box ∧ ∃ s', v.1.process = some ⟨.serving,s'⟩ ∧
    s'.running = s.running ∧ s'.generation = s.generation ∧ s'.sessions = s.sessions

/-- Nothing has been applied since the box booted, and now there is a `config.boot`, or it cannot
be told whether there is one. -/
def TakenForBoot (sys : System H) (s : State) (restart : Restart F) : Prop :=
  s.generation = 0 ∧ s.running.isEmpty ∧
    (sys.box.saved ≠ none ∨ (restart.boot 0 .readSaved).io ≠ .ok)

variable {site} {box : Box H} {notes : List ConfigTree} {env : Env} {fate : ℕ → Effect → Fate F}

theorem watch_stop (process : Option Process) :
    System.watch site applied (⟨box,process⟩,notes) ⟨.stop,env,fate⟩ = (⟨box,none⟩,notes) := by
  rfl

theorem watch_start (h : ∀ n e, e.volatile → (fate n e).io = .ok) :
    System.watch site applied (⟨box,none⟩,notes) ⟨.start,env,fate⟩ =
      (⟨box,some ⟨.started,⟨(box.running.getD ⟨0,.new⟩).config,(box.running.getD ⟨0,.new⟩).generation,
        [],box.sessions,none,false⟩⟩⟩,notes) := by
  simp [System.watch,System.found,Action.program,start,Prog.run,watched,perform,applied,
    h 0 .prepareStore rfl,h 1 .loadSessions rfl,h 2 .loadRunning rfl]

theorem watch_resume {s : State} (h : ∀ n e, e.volatile → (fate n e).io = .ok)
    (hmarker : box.marker = none) :
    System.watch site applied (⟨box,some ⟨.started,s⟩⟩,notes) ⟨.resume,env,fate⟩ =
      (⟨box,some ⟨.resumed,s⟩⟩,notes) := by
  simp [System.watch,System.found,Action.program,resume,Prog.run,watched,perform,applied,hmarker,
    h 0 .readMarker rfl]

/-- A daemon that has recovered something does nothing at boot. -/
theorem watch_boot_recovered {s : State} (h : s.generation ≠ 0 ∨ ¬s.running.isEmpty) :
    System.watch site applied (⟨box,some ⟨.resumed,s⟩⟩,notes) ⟨.boot,env,fate⟩ =
      (⟨box,some ⟨.serving,s⟩⟩,notes) := by
  have hgeneration : s.recoveredGeneration = some s.generation := by
    unfold State.recoveredGeneration
    rw [if_pos]
    rcases h with h | h
    · simp [Nat.pos_of_ne_zero h]
    · simp [h]
  simp [System.watch,System.found,Action.program,boot,hgeneration,applied]

/-- On a box with nothing saved it takes the note of a failed boot away, if there is one. -/
theorem watch_boot_nothing {s : State} (h : ∀ n e, e.volatile → (fate n e).io = .ok)
    (hnothing : s.generation = 0 ∧ s.running.isEmpty) (hsaved : box.saved = none)
    (hread : (fate 0 .readSaved).io = .ok) :
    System.watch site applied (⟨box,some ⟨.resumed,s⟩⟩,notes) ⟨.boot,env,fate⟩ =
      (⟨{box with bootFailure := none},some ⟨.serving,s⟩⟩,notes) := by
  have hgeneration : s.recoveredGeneration = none := by
    simp [State.recoveredGeneration,hnothing]
  simp [System.watch,System.found,Action.program,boot,hgeneration,Prog.run,applied,saved,watched,
    perform,hread,hsaved,noteOutcome,Outcome.failed,h 1 .removeBootFailure rfl]

/-- What begins with an apply has applied something. -/
theorem ends_apply {α : Type} {action : Action} {process : Option Process} {config : ConfigTree}
    {k : Except CommitError Unit → Act α} {w : Box H × List ConfigTree} :
    (Prog.perform (.apply config) k).Ends
      (watched (perform site) (applied.during env action process)) (fun _ _ _ => True)
      (fun _ w => w.2 ≠ []) (fun w => w.2 ≠ []) w := by
  refine Prog.ends_step (fun w => w.2 ≠ []) (fun f _ => ?_) (fun r w' hw => ?_)
  · rcases hr : site.applyHost config f.host w.1.host with ⟨_ | r,host⟩ <;>
      simp [watched,perform,hr,applied]
  · refine Prog.ends_invariant (fun w : Box H × List ConfigTree => w.2 ≠ []) (fun e f w _ hw => ?_) hw
    cases e <;> simp [watched,applied,hw]

/-- Where the start is taken for a boot, something is applied: what was saved, or the defaults. -/
theorem watch_boot_applies {s : State} (hnothing : s.generation = 0 ∧ s.running.isEmpty)
    (hsaved : box.saved ≠ none ∨ (fate 0 .readSaved).io ≠ .ok) (hkill : (fate 0 .readSaved).io ≠ .kill) :
    (System.watch site applied (⟨box,some ⟨.resumed,s⟩⟩,notes) ⟨.boot,env,fate⟩).2 ≠ [] := by
  have hgeneration : s.recoveredGeneration = none := by
    simp [State.recoveredGeneration,hnothing]
  have hwatch : Prog.Outcome (fun _ w => w.2 ≠ []) (fun w => w.2 ≠ [])
      ((Action.boot.program site.schema env (some ⟨.resumed,s⟩)).run
        (watched (perform site) (applied.during env .boot (some ⟨.resumed,s⟩))) fate 0 (box,notes)) := by
    simp only [Action.program,boot,hgeneration,saved,Prog.bind_eq,Prog.call_bind,Prog.perform_bind,
      Prog.run]
    rcases hio : (fate 0 .readSaved).io with _ | e | _
    · rcases htext : box.saved with _ | text
      · simp [htext,hio] at hsaved
      · simp only [watched,perform,hio,read_ok,htext]
        cases parse text with
        | error e => exact ends_apply.run_all
        | ok config =>
          simp only
          split
          · exact ends_apply.run_all
          · exact ends_apply.run_all
    · simp only [watched,perform,hio,read_fail]
      exact ends_apply.run_all
    · exact absurd hio hkill
  unfold System.watch
  split
  · next r w hr => exact (congrArg _ hr).mp hwatch
  · next w hr => exact (congrArg _ hr).mp hwatch

end

/-! ### The note of a failed boot -/

/-- A step that neither notes a failed boot nor records a generation zero. -/
def Effect.Unnoted (e : Effect) : Prop :=
  match e with
  | .saveRunning _ generation => generation ≠ 0
  | .writeBootFailure _ => False
  | _ => True

theorem Effect.Within.unnoted {p : Part} (hrunning : p ≠ .running) (hfailure : p ≠ .bootFailure)
    (e : Effect) (h : e.Within p) : e.Unnoted := by
  rcases h with h | h <;> cases e <;> simp_all [Effect.Unnoted,Effect.part]

section
variable {schema : Schema} {env : Env} {s : State} {actor : Actor} {id : SessionId}

theorem only_commit_unnoted {comment : Option String} {minutes : Option ℕ} :
    (commit schema env s id actor comment minutes).Only Effect.Unnoted := by
  have hpromoted : ∀ session changes,
      (promoted schema env s id actor comment minutes session changes).Only Effect.Unnoted := by
    intro session changes
    refine ⟨by simp [Effect.Unnoted],fun _ => ⟨trivial,fun _ => ?_⟩⟩
    cases minutes with
    | none =>
      simp only [Prog.bind_eq,Prog.done_bind]
      apply Prog.Only.bind
      · exact (only_record _ _ _ _).mono (Effect.Within.unnoted (by decide) (by decide))
      · exact fun _ => trivial
    | some minutes =>
      refine ⟨trivial,fun r => ?_⟩
      cases r <;> trivial
  unfold commit
  split
  · trivial
  · split
    · trivial
    · refine ⟨trivial,fun r => ?_⟩
      cases r with
      | error e => trivial
      | ok _ => exact hpromoted _ _

theorem Effect.Among.unnoted {ps : List Part} (hrunning : .running ∉ ps) (hfailure : .bootFailure ∉ ps)
    (e : Effect) (h : e.Among ps) : e.Unnoted := by
  rcases h with h | h <;> cases e <;> simp_all [Effect.Unnoted,Effect.part]

theorem only_rollBack_unnoted : (rollBack s).Only Effect.Unnoted := by
  unfold rollBack
  split
  · trivial
  · refine ⟨trivial,fun r => ?_⟩
    cases r with
    | error e => exact ⟨trivial,fun _ => trivial⟩
    | ok _ => exact ⟨by simp [Effect.Unnoted],fun _ => ⟨trivial,fun _ => trivial⟩⟩

theorem only_resume_unnoted : (resume env s).Only Effect.Unnoted := by
  refine ⟨trivial,fun r => ?_⟩
  rcases r with e | _ | pending
  · trivial
  · trivial
  · simp only [Prog.done_bind]
    split
    · exact only_rollBack_unnoted
    · trivial

theorem only_handle_unnoted {request : Request} :
    (handle schema env s actor request).Only Effect.Unnoted := by
  have hedit : request.edits → (handle schema env s actor request).Only Effect.Unnoted :=
    fun he => (only_edits he).mono (Effect.Within.unnoted (by decide) (by decide))
  cases request with
  | commit id comment minutes => exact only_commit_unnoted
  | confirm id => exact only_confirm.mono (Effect.Among.unnoted (by decide) (by decide))
  | save => exact only_save.mono (Effect.Within.unnoted (by decide) (by decide))
  | _ => exact hedit rfl

/-- Only a boot notes that a boot has failed. -/
theorem only_program_unnoted {action : Action} {process : Option Process}
    (h : ∀ s, action = .boot → process ≠ some ⟨.resumed,s⟩) :
    (action.program schema env process).Only Effect.Unnoted := by
  rcases action with _ | _ | _ | ⟨actor,request⟩ | _ | _ | _ <;>
    rcases process with _ | ⟨_ | _ | _,s⟩
  all_goals try trivial
  · exact (only_start.mono (Effect.Within.unnoted (by decide) (by decide))).bind (fun _ => trivial)
  · exact only_resume_unnoted.bind (fun _ => trivial)
  · exact absurd rfl (h s rfl)
  · exact only_handle_unnoted.bind (fun _ => trivial)
  all_goals
    rw [Action.program]
    split
    · exact only_rollBack_unnoted.bind (fun _ => trivial)
    · trivial

end

section Runs
variable {H F : Type} {site : Site H F} {box : Box H}

/-- Something has been recorded as running since the box booted. -/
def Taken (box : Box H) : Prop := (box.running.getD ⟨0,.new⟩).generation ≠ 0

/-- Where a boot has been noted as failed, what it came up on is recorded. -/
def Noted (box : Box H) : Prop := box.bootFailure ≠ none → Taken box

theorem Noted.perform {e : Effect} {f : Fate F} (h : Noted box) (he : e.Unnoted) :
    Noted (perform site e f box).2 := by
  by_cases hrunning : e.part = .running
  · cases e <;> simp only [Effect.part,reduceCtorEq] at hrunning
    rcases hio : f.io with _ | e | _ <;> simp only [Configd.perform,hio,write_ok,write_fail,write_kill]
    · exact fun _ => he
    · exact h
    · exact h
  · by_cases hfailure : e.part = .bootFailure
    · cases e <;> simp only [Effect.part,reduceCtorEq] at hfailure
      · cases he
      · rcases hio : f.io with _ | e | _ <;>
          simp only [Configd.perform,hio,write_ok,write_fail,write_kill]
        · exact fun hno => absurd rfl hno
        · exact h
        · exact h
    · intro hno
      rw [perform_bootFailure f box hfailure] at hno
      rw [Taken,perform_running f box hrunning]
      exact h hno

/-- An adopted configuration is recorded. -/
theorem adopt_taken {s : State} {config : ConfigTree} (h : Noted box) :
    (adopt s config).Ends (perform site) RunWorks (fun _ => Taken) Noted box := by
  intro f hf
  rcases hio : f.io with _ | reason | _
  · simp only [perform,hio,write_ok]
    exact Nat.succ_ne_zero _
  · exact absurd hio (hf rfl reason)
  · simp only [perform,hio,write_kill]
    exact h

theorem fallBack_taken {schema : Schema} {s : State} {reason : String} (h : Noted box) :
    (fallBack schema s reason).Ends (perform site) RunWorks (fun _ => Taken) Noted box := by
  intro f _
  rcases hr : site.applyHost schema.defaults f.host box.host with ⟨_ | r,host⟩ <;>
    simp only [perform,hr]
  · exact h
  · apply Prog.Ends.bind
    have hnoted : Noted {box with host := host} := h
    exact (adopt_taken hnoted).mono (fun _ _ hb => hb) (fun _ hb => hb)

theorem noteOutcome_noted {r : Outcome × State} (h : Noted box)
    (hfailed : r.1.failed ≠ none → Taken box) :
    ((noteOutcome r.1).bind (fun _ => .done r)).Ends (perform site) RunWorks (fun _ => Noted) Noted
      box := by
  unfold noteOutcome
  split
  · next reason hreason =>
    intro f _
    rcases hio : f.io with _ | e | _ <;> simp only [perform,hio,write_ok,write_fail,write_kill]
    · exact fun _ => hfailed (by simp [hreason])
    · exact h
    · exact h
  · intro f _
    rcases hio : f.io with _ | e | _ <;> simp only [perform,hio,write_ok,write_fail,write_kill]
    · exact fun hno => absurd rfl hno
    · exact h
    · exact h

theorem boot_noted {schema : Schema} {s : State} (h : Noted box) :
    (boot schema s).Ends (perform site) RunWorks (fun _ => Noted) Noted box := by
  unfold boot
  split
  · exact h
  · apply Prog.Ends.bind
    apply Prog.Ends.bind
    have hlook : (saved schema).Ends (perform site) RunWorks (fun _ => Noted) Noted box :=
      only_saved.keeps Noted (fun e f b he _ hb =>
        hb.perform (Effect.Within.unnoted (by decide) (by decide) e he)) h
    refine hlook.mono (fun r b hb => ?_) (fun _ hb => hb)
    have hfallBack : ∀ {b : Box H} {reason : String}, Noted b →
        (fallBack schema s reason).Ends (perform site) RunWorks
          (fun r b => ((noteOutcome r.1).bind (fun _ => .done r)).Ends (perform site) RunWorks
            (fun _ => Noted) Noted b) Noted b := fun hb =>
      (fallBack_taken hb).mono (fun r b hb => noteOutcome_noted (fun _ => hb) (fun _ => hb)) (fun _ hb => hb)
    rcases r with reason | _ | config
    · exact hfallBack hb
    · exact noteOutcome_noted (r := (.nothingSaved,s)) hb (fun hno => absurd rfl hno)
    · intro f _
      rcases hr : site.applyHost config f.host b.host with ⟨_ | e | _,host⟩ <;> simp only [perform,hr]
      · exact hb
      · exact hfallBack (b := {b with host := host}) hb
      · apply Prog.Ends.bind
        have hnoted : Noted {b with host := host} := hb
        exact (adopt_taken hnoted).mono
          (fun s b hb => noteOutcome_noted (r := (.applied _,s)) (fun _ => hb) (fun _ => hb)) (fun _ hb => hb)

theorem step_noted {sys : System H} {ev : Event F} (hev : RunWorksIn site sys ev)
    (h : Noted sys.box) : Noted (sys.step site ev).box := by
  let Inv : System H → Prop := fun sys => Noted sys.box
  show Inv _
  refine System.step_of_ends hev ?_
  have hfound : Noted (sys.found site ev) := by
    unfold System.found
    split
    · exact fun hno => absurd rfl hno
    · exact h
  by_cases hboot : ∃ s, ev.action = .boot ∧ sys.process = some ⟨.resumed,s⟩
  · obtain ⟨s,haction,hprocess⟩ := hboot
    rw [haction,hprocess]
    exact Prog.Ends.bind ((boot_noted hfound).mono (fun _ _ hb => hb) (fun _ hb => hb))
  · have honly : (ev.action.program site.schema ev.env sys.process).Only Effect.Unnoted :=
      only_program_unnoted (fun s ha hp => hboot ⟨s,ha,hp⟩)
    exact honly.keeps Noted (fun e f b he _ hb => hb.perform he) hfound

/-- A state as a restart finds it when nothing waits: only the history is lost. -/
def State.restarted (s : State) : State := ⟨s.running,s.generation,[],s.sessions,none,false⟩

/-- Up to the boot, a restart recovers what the files hold. -/
theorem watch_restart {s : State} {sys : System H} (hmirrors : Mirrors sys.box s)
    (hmarker : sys.box.marker = none) {restart : Restart F} (hworks : restart.Works) :
    restart.events.foldl (System.watch site applied) (sys,[]) =
      System.watch site applied
        (⟨sys.box,some ⟨.resumed,s.restarted⟩⟩,[])
        ⟨.boot,restart.env,restart.boot⟩ := by
  obtain ⟨box,process⟩ := sys
  rw [Restart.events,List.foldl_cons,watch_stop,List.foldl_cons,watch_start hworks.start,
    List.foldl_cons,watch_resume hworks.resume hmarker,List.foldl_cons,List.foldl_nil,
    hmirrors.running,State.restarted,hmirrors.sessions]

/-- A restart with nothing pending is inert exactly when it is not taken for a boot. -/
theorem restart_inert_iff (host : H) (saved : Option String) {evs : List (Event F)}
    (h : Along (System.step site) (RunWorksIn site) ⟨Box.fresh host saved,none⟩ evs) {s : State}
    (hs : (evs.foldl (System.step site) ⟨Box.fresh host saved,none⟩).process = some ⟨.serving,s⟩)
    (hpending : s.pending = none) (restart : Restart F) (hworks : restart.Works) :
    Inert site (evs.foldl (System.step site) ⟨Box.fresh host saved,none⟩) s restart ↔
      ¬TakenForBoot (evs.foldl (System.step site) ⟨Box.fresh host saved,none⟩) s restart := by
  have hfresh : (⟨Box.fresh host saved,none⟩ : System H).Agrees :=
    ⟨fun id session hget => absurd hget (by simp [Box.fresh]),fun p hp => absurd hp (by simp)⟩
  have hagrees := h.invariant (fun _ _ hs hev => step_agrees hev hs) hfresh
  let NotedIn : System H → Prop := fun sys => Noted sys.box
  have hnoted : NotedIn (evs.foldl (System.step site) ⟨Box.fresh host saved,none⟩) :=
    h.invariant (fun _ _ hs hev => step_noted hev hs) (fun hno => absurd rfl hno)
  set sys := evs.foldl (System.step site) ⟨Box.fresh host saved,none⟩ with hsys
  have hmirrors : Mirrors sys.box s :=
    (Process.agrees_later (by simp)).mp (hagrees.process _ hs)
  have hmarker : sys.box.marker = none := hmirrors.pending.symm.trans hpending
  rw [Inert,TakenForBoot,watch_restart hmirrors hmarker hworks]
  by_cases hnothing : s.generation = 0 ∧ s.running.isEmpty
  · by_cases hread : sys.box.saved = none ∧ (restart.boot 0 .readSaved).io = .ok
    · -- There is still nothing saved, and nothing was noted that could be taken away.
      have hfailure : sys.box.bootFailure = none := by
        by_contra hno
        have htaken := hnoted hno
        rw [Taken,hmirrors.running] at htaken
        exact htaken hnothing.1
      have hbox : {sys.box with bootFailure := none} = sys.box := by
        rw [← hfailure]
      rw [watch_boot_nothing (s := s.restarted) hworks.boot hnothing hread.1 hread.2,hbox]
      constructor
      · exact fun _ hboot => hboot.2.2.elim (fun hno => hno hread.1) (fun hno => hno hread.2)
      · exact fun _ => ⟨rfl,rfl,_,rfl,rfl,rfl,rfl⟩
    · have hsaved : sys.box.saved ≠ none ∨ (restart.boot 0 .readSaved).io ≠ .ok := by
        rwa [ne_eq,ne_eq,← not_and_or]
      constructor
      · exact fun hinert =>
          absurd hinert.1 (watch_boot_applies (s := s.restarted) hnothing hsaved hworks.reads)
      · exact fun hboot => absurd ⟨hnothing.1,hnothing.2,hsaved⟩ hboot
  · rw [watch_boot_recovered (s := s.restarted) (by rwa [ne_eq,← not_and_or])]
    constructor
    · exact fun _ hboot => hnothing ⟨hboot.1,hboot.2.1⟩
    · exact fun _ => ⟨rfl,rfl,_,rfl,rfl,rfl,rfl⟩

end Runs

/-- A restart in which every step goes through. -/
def Restart.smooth : Restart Unit :=
  ⟨⟨0,"",.error ""⟩,.smooth (),.smooth (),.smooth ()⟩

theorem Restart.smooth_works : Restart.smooth.Works :=
  ⟨fun _ _ _ => rfl,fun _ _ _ => rfl,fun _ _ _ => rfl,by simp [smooth,Fate.smooth]⟩

/-- A box on which something has been committed and saved. -/
def committedSystem : System (Option ConfigTree) :=
  ((triedActions.take 5 ++ [Action.request ⟨0,"root"⟩ (.commit "0123456789abcdef" none none),
    Action.request ⟨0,"root"⟩ .save]).map (fun action => Event.smooth action "0123456789abcdef")).foldl
    (System.step (Site.taking (Shipped.schema []))) ⟨Box.fresh none none,none⟩

theorem committedSystem_serves : committedSystem.process.isSome := by decide +kernel

theorem committedSystem_inert :
    Inert (Site.taking (Shipped.schema [])) committedSystem
      (committedSystem.process.get committedSystem_serves).state Restart.smooth := by
  refine (restart_inert_iff none none (along_of_forall (fun ev hev sys => ?_))
    (process_eq committedSystem_serves (by decide +kernel)) (by decide +kernel) Restart.smooth
    Restart.smooth_works).mpr (mt And.left (by decide +kernel))
  obtain ⟨action,-,rfl⟩ := List.mem_map.mp hev
  exact Prog.obeys_of_forall (fun n e b _ => by simp [Event.smooth,Fate.smooth])

/-- A box out of the installer on which nothing has been committed and `save` has been asked for. -/
def savedEmpty : System (Option ConfigTree) :=
  ([Action.start,.resume,.boot,.request ⟨0,"root"⟩ .sessionOpen,.request ⟨0,"root"⟩ .save].map
      (fun action => Event.smooth action "0123456789abcdef")).foldl
    (System.step (Site.taking (Shipped.schema []))) ⟨Box.fresh none none,none⟩

theorem savedEmpty_serves : savedEmpty.process.isSome := by decide +kernel

theorem Inert.applies_nothing {H F : Type} {site : Site H F} {sys : System H} {s : State}
    {restart : Restart F} (h : Inert site sys s restart) :
    (restart.events.foldl (System.watch site applied) (sys,[])).2 = [] :=
  h.1

/-- Its restart is taken for a boot and applies the empty `config.boot`. -/
theorem savedEmpty_not_inert :
    (savedEmpty.process.get savedEmpty_serves).state.pending = none ∧
    ¬Inert (Site.taking (Shipped.schema [])) savedEmpty
      (savedEmpty.process.get savedEmpty_serves).state Restart.smooth :=
  ⟨by decide +kernel,mt Inert.applies_nothing (by decide +kernel)⟩

end Nightshade.Configd
