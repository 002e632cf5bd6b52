import Mathlib
import Nightshade.Configd.Boot

/-! The daemon over time. The main program starts it, resumes a commit that was waiting, boots,
and serves; requests, the timer, kills, restarts and reboots come in any order, and each step of
the daemon may be cut off or fail. -/
namespace Nightshade.Configd
open Foundation Schema

/-- How far the main program has come. -/
inductive Phase where
  | started
  | resumed
  | serving
  deriving DecidableEq

/-- A process of the daemon. -/
structure Process where
  phase : Phase
  state : State

/-- The box, and the daemon's process while there is one. -/
structure System (H : Type) where
  box : Box H
  process : Option Process

inductive Action where
  | start
  | resume
  | boot
  | request (actor : Actor) (request : Request)
  /-- The task that undoes an unconfirmed commit has slept its time. -/
  | timer
  | stop
  | reboot
  deriving DecidableEq

/-- An action, what the daemon learns from outside during it, and the fates of its steps. -/
structure Event (F : Type) where
  action : Action
  env : Env
  fate : ℕ → Effect → Fate F

variable {H F : Type}

/-- What an action makes the daemon do. An action out of its turn does nothing. -/
def Action.program (schema : Schema) (env : Env) (action : Action) (process : Option Process) :
    Act (Option Response × Option Process) :=
  match action, process with
  | .start, none => do
    let s ← Configd.start
    return (none,s.map (Process.mk .started))
  | .resume, some ⟨.started,s⟩ => do
    let s ← Configd.resume env s
    return (none,some ⟨.resumed,s⟩)
  | .boot, some ⟨.resumed,s⟩ => do
    let r ← Configd.boot schema s
    return (none,some ⟨.serving,r.2⟩)
  | .request actor req, some ⟨.serving,s⟩ => do
    let r ← handle schema env s actor req
    return (some r.1,some ⟨.serving,r.2⟩)
  | .timer, some ⟨phase,s⟩ =>
    if s.timer then do
      let s ← rollBack s
      return (none,some ⟨phase,s⟩)
    else return (none,some ⟨phase,s⟩)
  | .stop, _ | .reboot, _ => return (none,none)
  | _, process => return (none,process)

/-- The box an event finds. -/
def System.found (site : Site H F) (sys : System H) (ev : Event F) : Box H :=
  if ev.action = .reboot then sys.box.reboot site else sys.box

/-- One event: the answer if it was a request that got one, and the system after it. -/
def System.outcome (site : Site H F) (sys : System H) (ev : Event F) :
    Option Response × System H :=
  match (ev.action.program site.schema ev.env sys.process).run (perform site) ev.fate 0
      (sys.found site ev) with
  | (some (response,process),box) => (response,⟨box,process⟩)
  | (none,box) => (none,⟨box,none⟩)

def System.step (site : Site H F) (sys : System H) (ev : Event F) : System H :=
  (sys.outcome site ev).2

def System.reply (site : Site H F) (sys : System H) (ev : Event F) : Option Response :=
  (sys.outcome site ev).1

/-- Every step that an event takes meets a fate that is allowed where it is taken. -/
def System.Obeys (site : Site H F) (allowed : Event F → Option Process → Effect → Fate F → Box H → Prop)
    (sys : System H) (ev : Event F) : Prop :=
  (ev.action.program site.schema ev.env sys.process).Obeys (perform site)
    (allowed ev sys.process) ev.fate 0 (sys.found site ev)

/-- What holds of the end of every allowed run of an event's program holds after the event. -/
theorem System.step_of_ends {site : Site H F} {allowed : Event F → Option Process → Effect → Fate F → Box H → Prop}
    {Inv : System H → Prop} {sys : System H} {ev : Event F} (hobeys : sys.Obeys site allowed ev)
    (h : (ev.action.program site.schema ev.env sys.process).Ends (perform site) (allowed ev sys.process)
      (fun r box => Inv ⟨box,r.2⟩) (fun box => Inv ⟨box,none⟩) (sys.found site ev)) :
    Inv (sys.step site ev) := by
  have hrun := h.run hobeys
  unfold System.step System.outcome
  split
  · next r box hr => rw [hr] at hrun; exact hrun
  · next box hr => rw [hr] at hrun; exact hrun

/-! ### Watching the daemon -/

/-- Someone who takes notes of the steps of an event, and of the process it leaves. -/
structure Watcher (H G : Type) where
  during : Env → Action → Option Process → (e : Effect) → Option e.Answer → Box H → G → G
  after : Env → Action → Option Process → Option Process → G → G

/-- One event under watch. -/
def System.watch {G : Type} (site : Site H F) (watcher : Watcher H G) (v : System H × G)
    (ev : Event F) : System H × G :=
  match (ev.action.program site.schema ev.env v.1.process).run
      (watched (perform site) (watcher.during ev.env ev.action v.1.process)) ev.fate 0
      (v.1.found site ev,v.2) with
  | (some r,w) => (⟨w.1,r.2⟩,watcher.after ev.env ev.action v.1.process r.2 w.2)
  | (none,w) => (⟨w.1,none⟩,watcher.after ev.env ev.action v.1.process none w.2)

section Watch
variable {G : Type} {site : Site H F} {watcher : Watcher H G}

/-- Watching changes nothing. -/
theorem System.watch_fst (v : System H × G) (ev : Event F) :
    (System.watch site watcher v ev).1 = v.1.step site ev := by
  obtain ⟨hout,hbox⟩ := run_watched (perform site)
    (watcher.during ev.env ev.action v.1.process) ev.fate 0
    (ev.action.program site.schema ev.env v.1.process) (v.1.found site ev) v.2
  unfold System.watch System.step System.outcome
  rcases hw : (ev.action.program site.schema ev.env v.1.process).run
      (watched (perform site) (watcher.during ev.env ev.action v.1.process)) ev.fate 0
      (v.1.found site ev,v.2) with ⟨_ | r,w⟩
  · rcases hr : (ev.action.program site.schema ev.env v.1.process).run (perform site) ev.fate 0
        (v.1.found site ev) with ⟨_ | r',box⟩
    · simp_all
    · simp_all
  · rcases hr : (ev.action.program site.schema ev.env v.1.process).run (perform site) ev.fate 0
        (v.1.found site ev) with ⟨_ | r',box⟩
    · simp_all
    · simp_all

/-- What holds of the end of every allowed run of an event's program holds after the event. -/
theorem System.watch_of_ends {allowed : Event F → Option Process → Effect → Fate F → Box H → Prop}
    {Inv : System H × G → Prop} {v : System H × G} {ev : Event F}
    (hobeys : v.1.Obeys site allowed ev)
    (h : (ev.action.program site.schema ev.env v.1.process).Ends
      (watched (perform site) (watcher.during ev.env ev.action v.1.process))
      (fun e f w => allowed ev v.1.process e f w.1)
      (fun r w => Inv (⟨w.1,r.2⟩,watcher.after ev.env ev.action v.1.process r.2 w.2))
      (fun w => Inv (⟨w.1,none⟩,watcher.after ev.env ev.action v.1.process none w.2))
      (v.1.found site ev,v.2)) :
    Inv (System.watch site watcher v ev) := by
  have hrun := h.run (obeys_watched hobeys)
  unfold System.watch
  split
  · next r w hr => rw [hr] at hrun; exact hrun
  · next w hr => rw [hr] at hrun; exact hrun

/-- What every allowed event keeps under watch holds after every allowed run. -/
theorem System.watch_invariant {allowed : System H → Event F → Prop} {Inv : System H × G → Prop}
    (hstep : ∀ v ev, allowed v.1 ev → Inv v → Inv (System.watch site watcher v ev))
    {v : System H × G} {evs : List (Event F)} (h : Along (System.step site) allowed v.1 evs)
    (hv : Inv v) : Inv (evs.foldl (System.watch site watcher) v) := by
  induction evs generalizing v with
  | nil => exact hv
  | cons ev evs ih =>
    apply ih
    · rw [watch_fst]
      exact h.2
    · exact hstep v ev h.1 hv

end Watch

theorem process_eq {o : Option Process} (h : o.isSome) (hphase : (o.get h).phase = .serving) :
    o = some ⟨.serving,(o.get h).state⟩ := by
  rw [← hphase]
  exact (Option.some_get h).symm

/-- A box as the image ships it, with a host in some state and perhaps a configuration for it. -/
def Box.fresh (host : H) (saved : Option String) : Box H where
  host := host
  sessions := SortedMap.empty
  running := none
  marker := none
  bootFailure := none
  saved := saved
  temporary := none
  revisions := SortedMap.empty
  infos := SortedMap.empty

/-- A site whose host takes every configuration it is given. -/
def Site.taking (schema : Schema) : Site (Option ConfigTree) Unit where
  schema := schema
  applyHost := fun config _ _ => (some (.ok ()),some config)
  rebootHost := fun _ => none

/-- Steps that all go through. -/
def Fate.smooth {F : Type} (host : F) : ℕ → Effect → Fate F := fun _ _ => ⟨.ok,host,.asKept⟩

/-- An event in which nothing goes wrong. -/
def Event.smooth (action : Action) (id : SessionId) : Event Unit :=
  ⟨action,⟨0,"",.ok id⟩,.smooth ()⟩

/-- A commit to be confirmed on a box out of the installer. -/
def triedActions : List Action :=
  [.start,.resume,.boot,.request ⟨0,"root"⟩ .sessionOpen,
    .request ⟨0,"root"⟩ (.set "0123456789abcdef" ["system","host-name"] (some "edge")),
    .request ⟨0,"root"⟩ (.commit "0123456789abcdef" none (some 10))]

def tried : List (Event Unit) := triedActions.map (fun action => Event.smooth action "0123456789abcdef")

end Nightshade.Configd
