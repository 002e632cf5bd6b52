import Mathlib
import Nightshade.Schema.Shipped
import Nightshade.Configd.Footprint

/-! Memory and the files under `/run` mirror each other, as long as what is written there is
written and what is there can be read: a daemon that is started again finds the state of the one
before it. Kills are allowed anywhere. -/
namespace Nightshade.Configd
open Foundation Schema

/-- A step on the files under `/run`. -/
def Effect.volatile : Effect → Bool
  | .prepareStore | .loadSessions | .saveSession _ | .forgetSession _ | .loadRunning
  | .saveRunning _ _ | .readMarker | .armMarker _ | .disarmMarker | .writeBootFailure _
  | .removeBootFailure => true
  | _ => false

/-- No step on the files under `/run` fails. -/
def RunWorks {H F : Type} (e : Effect) (f : Fate F) (_ : Box H) : Prop :=
  e.volatile → ∀ reason, f.io ≠ .fail reason

/-- The files of the sessions are named after their ids. -/
def Keyed {H : Type} (box : Box H) : Prop :=
  ∀ id session, box.sessions.get? id = some session → session.id = id

/-- A state says the same as the files under `/run`. -/
structure Mirrors {H : Type} (box : Box H) (s : State) : Prop where
  sessions : s.sessions = box.sessions
  running : box.running.getD ⟨0,.new⟩ = ⟨s.generation,s.running⟩
  pending : s.pending = box.marker
  timer : s.timer = s.pending.isSome

/-- Before it resumes, a daemon has not looked at the marker. -/
structure Recovered {H : Type} (box : Box H) (s : State) : Prop where
  sessions : s.sessions = box.sessions
  running : box.running.getD ⟨0,.new⟩ = ⟨s.generation,s.running⟩
  pending : s.pending = none
  timer : s.timer = false

section
variable {H F : Type} {site : Site H F} {box : Box H} {s : State}

theorem Keyed.perform {e : Effect} {f : Fate F} (h : Keyed box) : Keyed (perform site e f box).2 := by
  by_cases he : e.part = .sessions
  · cases e <;> simp only [Effect.part,reduceCtorEq] at he
    case saveSession session =>
      rcases hio : f.io with _ | e | _ <;> simp only [Configd.perform,hio,write_ok,write_fail,write_kill]
      · intro id session' hget
        simp only [SortedMap.get?_insert] at hget
        split_ifs at hget with hid
        · cases hget
          exact hid.symm
        · exact h id session' hget
      · exact h
      · exact h
    case forgetSession id =>
      rcases hio : f.io with _ | e | _ <;> simp only [Configd.perform,hio,write_ok,write_fail,write_kill]
      · intro id' session hget
        simp only [SortedMap.get?_erase] at hget
        split_ifs at hget
        exact h id' session hget
      · exact h
      · exact h
  · intro id session hget
    rw [perform_sessions f box he] at hget
    exact h id session hget

/-- A step that neither memory nor the mirror has anything to do with. -/
def Effect.Elsewhere (e : Effect) : Prop :=
  e.part ≠ .sessions ∧ e.part ≠ .running ∧ e.part ≠ .marker

theorem Effect.Within.elsewhere {p : Part} (hp : p ∉ [Part.sessions,.running,.marker]) (e : Effect)
    (h : e.Within p) : e.Elsewhere := by
  rcases h with h | h
  · rw [Effect.Elsewhere,h]
    decide
  · rw [Effect.Elsewhere,h]
    simpa using hp

theorem Mirrors.frame {e : Effect} {f : Fate F} (h : Mirrors box s) (he : e.Elsewhere) :
    Mirrors (Configd.perform site e f box).2 s where
  sessions := h.sessions.trans (perform_sessions f box he.1).symm
  running := by rw [perform_running f box he.2.1,h.running]
  pending := h.pending.trans (perform_marker f box he.2.2).symm
  timer := h.timer

/-- A program that stays away from the mirror leaves it as it is. -/
theorem ends_elsewhere {α : Type} {program : Act α} (h : Mirrors box s)
    (honly : program.Only Effect.Elsewhere) :
    program.Ends (perform site) RunWorks (fun _ b => Mirrors b s) (fun _ => True) box := by
  have hkeeps : program.Ends (perform site) RunWorks (fun _ b => Mirrors b s) (fun b => Mirrors b s) box :=
    honly.keeps (fun b => Mirrors b s) (fun e f b he _ hb => hb.frame he) h
  exact hkeeps.mono (fun _ _ hb => hb) (fun _ _ => trivial)

/-- A step under `/run` that is made as it should be, or the daemon is killed in it. -/
theorem ends_volatile {α : Type} {e : Effect} {k : e.Answer → Act α} {post : α → Box H → Prop}
    (r : e.Answer) (b' : Box H) (he : e.volatile)
    (hok : ∀ f : Fate F, f.io = .ok → perform site e f box = (some r,b'))
    (hk : (k r).Ends (perform site) RunWorks post (fun _ => True) b') :
    (Prog.perform e k).Ends (perform site) RunWorks post (fun _ => True) box := by
  intro f hf
  rcases hio : f.io with _ | reason | _
  · rw [hok f hio]
    exact hk
  · exact absurd hio (hf he reason)
  · have hnone : (perform site e f box).1 = none := by
      cases e <;> first | simp [perform,hio]; done | cases he
    rcases hr : perform site e f box with ⟨_ | r,w⟩
    · trivial
    · rw [hr] at hnone
      cases hnone

section
variable {α : Type} {k : Except String Unit → Act α} {post : α → Box H → Prop}

theorem ends_saveSession {session : Session}
    (hk : (k (.ok ())).Ends (perform site) RunWorks post (fun _ => True)
      {box with sessions := box.sessions.insert session.id session}) :
    (Prog.perform (.saveSession session) k).Ends (perform site) RunWorks post (fun _ => True) box :=
  ends_volatile (.ok ()) _ rfl (fun f hf => by rw [perform,hf]; rfl) hk

theorem ends_forgetSession {id : SessionId}
    (hk : (k (.ok ())).Ends (perform site) RunWorks post (fun _ => True)
      {box with sessions := box.sessions.erase id}) :
    (Prog.perform (.forgetSession id) k).Ends (perform site) RunWorks post (fun _ => True) box :=
  ends_volatile (.ok ()) _ rfl (fun f hf => by rw [perform,hf]; rfl) hk

theorem ends_saveRunning {config : ConfigTree} {generation : ℕ}
    (hk : (k (.ok ())).Ends (perform site) RunWorks post (fun _ => True)
      {box with running := some ⟨generation,config⟩}) :
    (Prog.perform (.saveRunning config generation) k).Ends (perform site) RunWorks post
      (fun _ => True) box :=
  ends_volatile (.ok ()) _ rfl (fun f hf => by rw [perform,hf]; rfl) hk

theorem ends_armMarker {pending : Pending}
    (hk : (k (.ok ())).Ends (perform site) RunWorks post (fun _ => True)
      {box with marker := some pending}) :
    (Prog.perform (.armMarker pending) k).Ends (perform site) RunWorks post (fun _ => True) box :=
  ends_volatile (.ok ()) _ rfl (fun f hf => by rw [perform,hf]; rfl) hk

theorem ends_disarmMarker
    (hk : (k (.ok ())).Ends (perform site) RunWorks post (fun _ => True) {box with marker := none}) :
    (Prog.perform .disarmMarker k).Ends (perform site) RunWorks post (fun _ => True) box :=
  ends_volatile (.ok ()) _ rfl (fun f hf => by rw [perform,hf]; rfl) hk

end

/-! ### What each handler leaves -/

variable {schema : Schema} {env : Env} {actor : Actor} {id : SessionId}

/-- A handler that leaves memory and files in agreement. -/
def LeavesMirrored (site : Site H F) (box : Box H) (program : Act (Response × State)) : Prop :=
  program.Ends (perform site) RunWorks (fun r box => Mirrors box r.2) (fun _ => True) box

/-- What follows that stays away from the mirror leaves it as it is. -/
theorem mirrored_after {α : Type} {program : Act α} {result : α → Response × State}
    (h : Mirrors box s) (honly : program.Only Effect.Elsewhere) (hresult : ∀ a, (result a).2 = s) :
    LeavesMirrored site box (program.bind (fun a => .done (result a))) := by
  apply Prog.Ends.bind
  refine (ends_elsewhere h honly).mono (fun a b hb => ?_) (fun _ _ => trivial)
  rw [Prog.ends_done,hresult]
  exact hb

theorem record_elsewhere {config : ConfigTree} {comment : Option String} {revision : ℕ}
    {changes : List Change} :
    (record schema env config actor comment revision changes).Only Effect.Elsewhere :=
  (only_record config comment revision changes).mono (Effect.Within.elsewhere (by decide))

theorem keep_mirrored {session : Session} (h : Mirrors box s) (hid : session.id = id) :
    LeavesMirrored site box (keep s id session) := by
  subst hid
  apply ends_saveSession
  exact ⟨by rw [State.put_sessions,h.sessions],h.running,h.pending,h.timer⟩

theorem promoted_mirrored {comment : Option String} {minutes : Option ℕ} {session : Session}
    {changes : List Change} (h : Mirrors box s) (hid : session.id = id) :
    LeavesMirrored site box (promoted schema env s id actor comment minutes session changes) := by
  subst hid
  apply ends_saveRunning
  apply ends_saveSession
  have hsessions : (s.advance session.id session).sessions =
      box.sessions.insert session.id (session.rebase (s.generation+1)) := by
    rw [State.advance_sessions,h.sessions]
  cases minutes with
  | none =>
    exact mirrored_after (s := s.advance session.id session) ⟨hsessions,rfl,h.pending,h.timer⟩
      record_elsewhere (fun _ => rfl)
  | some minutes =>
    apply ends_armMarker
    exact ⟨hsessions,rfl,rfl,rfl⟩

theorem commit_mirrored {comment : Option String} {minutes : Option ℕ} (h : Mirrors box s)
    (hkeyed : Keyed box) :
    LeavesMirrored site box (commit schema env s id actor comment minutes) := by
  unfold commit
  split
  · exact h
  · next session changes hplan =>
    have hget := (owned_eq_ok.mp (plan_eq_ok.mp hplan).1).1
    have hid : session.id = id := hkeyed id session (by rw [← h.sessions,hget])
    split
    · exact h
    · intro f _
      rcases hr : site.applyHost session.candidate f.host box.host with ⟨_ | e | _,host⟩ <;>
        simp only [perform,hr]
      · exact ⟨h.sessions,h.running,h.pending,h.timer⟩
      · exact promoted_mirrored ⟨h.sessions,h.running,h.pending,h.timer⟩ hid

theorem confirm_mirrored (h : Mirrors box s) :
    LeavesMirrored site box (confirm schema env s id actor) := by
  unfold confirm
  split
  · exact h
  · split
    · exact h
    · apply ends_disarmMarker
      exact mirrored_after (s := s.release) ⟨h.sessions,h.running,rfl,rfl⟩ record_elsewhere
        (fun _ => rfl)

theorem save_mirrored (h : Mirrors box s) : LeavesMirrored site box (save schema s) := by
  refine Prog.Ends.mono (returns_save.ends.and
    (ends_elsewhere h (only_save.mono (Effect.Within.elsewhere (by decide))))) (fun r b hb => ?_)
    (fun _ _ => trivial)
  rw [hb.1]
  exact hb.2

/-- Editing a session and writing it out. -/
theorem edit_mirrored {request : Request} (h : Mirrors box s) (hkeyed : Keyed box)
    (hedit : request.edits) : LeavesMirrored site box (handle schema env s actor request) := by
  have hid : ∀ {id session}, s.owned id actor = .ok session → session.id = id := by
    intro id session hown
    exact hkeyed id session (by rw [← h.sessions,(owned_eq_ok.mp hown).1])
  cases request with
  | sessionOpen =>
    rw [handle,sessionOpen]
    split
    · exact h
    · apply ends_saveSession
      exact ⟨by rw [State.put_sessions,h.sessions]; rfl,h.running,h.pending,h.timer⟩
  | sessionClose id =>
    rw [handle,sessionClose]
    split
    · exact h
    · apply ends_forgetSession
      exact ⟨congrArg (fun m => m.erase id) h.sessions,h.running,h.pending,h.timer⟩
  | set id path value =>
    rw [handle,set]
    split
    · exact h
    · next hown =>
      have hsession := hid hown
      split
      · exact h
      · exact keep_mirrored h hsession
  | delete id path value =>
    rw [handle,delete]
    split
    · exact h
    · next hown =>
      have hsession := hid hown
      split
      · exact h
      · exact keep_mirrored h hsession
  | compare id =>
    rw [handle,compare]
    split <;> exact h
  | discard id =>
    rw [handle,discard]
    split
    · exact h
    · next hown =>
      have hsession := hid hown
      exact keep_mirrored h hsession
  | load id source =>
    rw [handle,load]
    split
    · exact h
    · next hown =>
      have hsession := hid hown
      apply Prog.Ends.bind
      refine (ends_elsewhere h ((only_fetch source).mono (Effect.Within.elsewhere (by decide)))).mono
        (fun r b hb => ?_) (fun _ _ => trivial)
      dsimp only
      split
      · exact hb
      · split
        · exact keep_mirrored hb hsession
        · exact hb
  | commitLog =>
    rw [handle,commitLog]
    apply Prog.Ends.bind
    refine (ends_elsewhere h (Archive.only_list.mono (Effect.Within.elsewhere (by decide)))).mono
      (fun r b hb => ?_) (fun _ _ => trivial)
    cases r <;> exact hb
  | commit | confirm | save => cases hedit

theorem handle_mirrored {request : Request} (h : Mirrors box s) (hkeyed : Keyed box) :
    LeavesMirrored site box (handle schema env s actor request) := by
  cases request with
  | commit id comment minutes => exact commit_mirrored h hkeyed
  | confirm id => exact confirm_mirrored h
  | save => exact save_mirrored h
  | _ => exact edit_mirrored h hkeyed rfl

/-- Undoing a commit leaves a mirror, whether the apply goes through or not. -/
theorem rollBack_pending {pending : Pending} (hp : s.pending = some pending)
    (hsessions : s.sessions = box.sessions)
    (hrunning : box.running.getD ⟨0,.new⟩ = ⟨s.generation,s.running⟩) :
    (rollBack s).Ends (perform site) RunWorks (fun s b => Mirrors b s) (fun _ => True) box := by
  rw [rollBack,hp]
  intro f _
  rcases hr : site.applyHost pending.previous f.host box.host with ⟨_ | e | _,host⟩ <;>
    simp only [perform,hr]
  · apply ends_disarmMarker
    exact ⟨hsessions,hrunning,rfl,rfl⟩
  · apply ends_saveRunning
    apply ends_disarmMarker
    exact ⟨hsessions,rfl,rfl,rfl⟩

theorem rollBack_mirrored (h : Mirrors box s) :
    (rollBack s).Ends (perform site) RunWorks (fun s b => Mirrors b s) (fun _ => True) box := by
  cases hp : s.pending with
  | none =>
    rw [rollBack,hp]
    exact h
  | some pending => exact rollBack_pending hp h.sessions h.running

theorem adopt_mirrored {config : ConfigTree} (h : Mirrors box s) :
    (adopt s config).Ends (perform site) RunWorks (fun s b => Mirrors b s) (fun _ => True) box := by
  apply ends_saveRunning
  exact ⟨h.sessions,rfl,h.pending,h.timer⟩

theorem fallBack_mirrored {reason : String} (h : Mirrors box s) :
    (fallBack schema s reason).Ends (perform site) RunWorks (fun r b => Mirrors b r.2)
      (fun _ => True) box := by
  intro f _
  rcases hr : site.applyHost schema.defaults f.host box.host with ⟨_ | e,host⟩ <;>
    simp only [perform,hr]
  · apply Prog.Ends.bind
    exact adopt_mirrored ⟨h.sessions,h.running,h.pending,h.timer⟩

theorem applyAtBoot_mirrored {config : ConfigTree} (h : Mirrors box s) :
    (applyAtBoot schema s config).Ends (perform site) RunWorks (fun r b => Mirrors b r.2)
      (fun _ => True) box := by
  intro f _
  rcases hr : site.applyHost config f.host box.host with ⟨_ | e | _,host⟩ <;> simp only [perform,hr]
  · exact fallBack_mirrored ⟨h.sessions,h.running,h.pending,h.timer⟩
  · apply Prog.Ends.bind
    exact adopt_mirrored ⟨h.sessions,h.running,h.pending,h.timer⟩

theorem noteOutcome_mirrored {r : Outcome × State} (h : Mirrors box r.2) :
    ((noteOutcome r.1).bind (fun _ => .done r)).Ends (perform site) RunWorks
      (fun r b => Mirrors b r.2) (fun _ => True) box := by
  have honly : (noteOutcome r.1).Only Effect.Elsewhere := by
    unfold noteOutcome
    split <;> exact ⟨by simp [Effect.Elsewhere,Effect.part],fun _ => trivial⟩
  exact Prog.Ends.bind (ends_elsewhere h honly)

theorem boot_mirrored (h : Mirrors box s) :
    (boot schema s).Ends (perform site) RunWorks (fun r b => Mirrors b r.2) (fun _ => True) box := by
  unfold boot
  split
  · exact h
  · apply Prog.Ends.bind
    apply Prog.Ends.bind
    refine (ends_elsewhere h (only_saved.mono (Effect.Within.elsewhere (by decide)))).mono
      (fun r b hb => ?_) (fun _ _ => trivial)
    rcases r with reason | _ | config
    · exact (fallBack_mirrored hb).mono (fun r b hb => noteOutcome_mirrored hb) (fun _ _ => trivial)
    · exact noteOutcome_mirrored (r := (.nothingSaved,s)) hb
    · exact (applyAtBoot_mirrored hb).mono (fun r b hb => noteOutcome_mirrored hb) (fun _ _ => trivial)

theorem resume_mirrored (h : Recovered box s) :
    (resume env s).Ends (perform site) RunWorks (fun s b => Mirrors b s) (fun _ => True) box := by
  refine ends_volatile (.ok box.marker) box rfl (fun f hf => by rw [perform,hf]; rfl) ?_
  cases hm : box.marker with
  | none => exact ⟨h.sessions,h.running,h.pending.trans hm.symm,by rw [h.timer,h.pending]; rfl⟩
  | some pending =>
    simp only [Prog.done_bind]
    split
    · exact rollBack_pending rfl h.sessions h.running
    · exact ⟨h.sessions,h.running,hm.symm,rfl⟩

theorem start_recovers :
    start.Ends (perform site) RunWorks
      (fun o b => b = box ∧ ∃ s, o = some s ∧ Recovered box s) (fun _ => True) box := by
  refine ends_volatile (.ok ()) box rfl (fun f hf => by rw [perform,hf]; rfl) ?_
  refine ends_volatile (.ok box.sessions) box rfl (fun f hf => by rw [perform,hf]; rfl) ?_
  refine ends_volatile (box.running.getD ⟨0,.new⟩) box rfl (fun f hf => by rw [perform,hf]; rfl) ?_
  exact ⟨rfl,_,rfl,rfl,rfl,rfl,rfl⟩

end

/-! ### Whole runs -/

section Runs
variable {H F : Type} {site : Site H F}

/-- What a process says agrees with the files, as far as it has looked at them. -/
def Process.Agrees (box : Box H) (p : Process) : Prop :=
  if p.phase = .started then Recovered box p.state else Mirrors box p.state

theorem Process.agrees_started {box : Box H} {s : State} :
    Process.Agrees box ⟨.started,s⟩ ↔ Recovered box s := Iff.rfl

theorem Process.agrees_later {box : Box H} {phase : Phase} {s : State} (h : phase ≠ .started) :
    Process.Agrees box ⟨phase,s⟩ ↔ Mirrors box s := by
  simp [Process.Agrees,h]

/-- A program leaves a process that agrees with the files. -/
theorem ends_agrees {α : Type} {program : Act α} {post : α → Box H → Prop} {box : Box H}
    {result : α → Option Response × Option Process}
    (h : program.Ends (perform site) RunWorks post (fun _ => True) box)
    (hpost : ∀ a b, post a b → ∀ p, (result a).2 = some p → p.Agrees b) :
    (program.bind (fun a => .done (result a))).Ends (perform site) RunWorks
      (fun r b => ∀ p, r.2 = some p → p.Agrees b) (fun _ => True) box := by
  apply Prog.Ends.bind
  exact h.mono (fun a b hb => hpost a b hb) (fun _ _ => trivial)

theorem program_agrees {env : Env} {action : Action} {process : Option Process} {box : Box H}
    (hkeyed : Keyed box) (h : ∀ p, process = some p → p.Agrees box) :
    (action.program site.schema env process).Ends (perform site) RunWorks
      (fun r b => ∀ p, r.2 = some p → p.Agrees b) (fun _ => True) box := by
  rcases action with _ | _ | _ | ⟨actor,request⟩ | _ | _ | _ <;>
    rcases process with _ | ⟨_ | _ | _,s⟩
  all_goals try exact h
  all_goals try exact fun _ hp => absurd hp (by simp)
  · refine ends_agrees start_recovers (fun o b hb p hp => ?_)
    obtain ⟨rfl,s,rfl,hs⟩ := hb
    cases hp
    exact hs
  · refine ends_agrees (resume_mirrored (h _ rfl)) (fun s b hb p hp => ?_)
    cases hp
    exact hb
  · refine ends_agrees (boot_mirrored ((Process.agrees_later (by simp)).mp (h _ rfl)))
      (fun r b hb p hp => ?_)
    cases hp
    exact hb
  · refine ends_agrees (handle_mirrored ((Process.agrees_later (by simp)).mp (h _ rfl)) hkeyed)
      (fun r b hb p hp => ?_)
    cases hp
    exact hb
  · have hs : Recovered box s := h _ rfl
    rw [Action.program,hs.timer]
    exact h
  all_goals
    rw [Action.program]
    split
    · refine ends_agrees (rollBack_mirrored ((Process.agrees_later (by simp)).mp (h _ rfl)))
        (fun r b hb p hp => ?_)
      cases hp
      exact hb
    · exact h

/-- Every step of the event on the files under `/run` goes through. -/
def RunWorksIn (site : Site H F) (sys : System H) (ev : Event F) : Prop :=
  sys.Obeys site (fun _ _ => RunWorks) ev

/-- The files of the sessions are in order, and the process agrees with the files. -/
structure System.Agrees (sys : System H) : Prop where
  keyed : Keyed sys.box
  process : ∀ p, sys.process = some p → p.Agrees sys.box

theorem step_agrees {sys : System H} {ev : Event F} (hev : RunWorksIn site sys ev)
    (h : sys.Agrees) : (sys.step site ev).Agrees := by
  refine System.step_of_ends hev ?_
  have hkeyed : Keyed (sys.found site ev) := by
    unfold System.found
    split
    · exact fun id session hget => absurd hget (by simp [Box.reboot])
    · exact h.keyed
  have hkeys : (ev.action.program site.schema ev.env sys.process).Ends (perform site) RunWorks
      (fun _ => Keyed) Keyed (sys.found site ev) :=
    Prog.ends_invariant Keyed (fun e f b _ hb => hb.perform) hkeyed
  by_cases hreboot : ev.action = .reboot
  · rw [hreboot]
    exact ⟨hkeyed,fun p hp => absurd hp (by simp)⟩
  · rw [System.found,if_neg hreboot] at hkeys ⊢
    refine (hkeys.and (program_agrees h.keyed h.process)).mono ?_ ?_
    · exact fun r b hb => ⟨hb.1,hb.2⟩
    · exact fun b hb => ⟨hb.1,fun p hp => absurd hp (by simp)⟩

end Runs

end Nightshade.Configd
