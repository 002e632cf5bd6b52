import Mathlib
import Nightshade.Foundation.SortedMap

/-! What the daemon remembers of the links between two looks at the kernel. A cleared counter cannot be
set to zero, so the value it had is kept, and all that comes after is measured from it. -/
namespace Nightshade.Ifprobe
open Foundation

/-- The kernel's own counters of a link. -/
structure Stats where
  rxPackets : ℕ
  txPackets : ℕ
  rxBytes : ℕ
  txBytes : ℕ
  rxErrors : ℕ
  txErrors : ℕ
  rxDropped : ℕ
  txDropped : ℕ
  multicast : ℕ
  collisions : ℕ
  rxLengthErrors : ℕ
  rxOverErrors : ℕ
  rxCrcErrors : ℕ
  rxFrameErrors : ℕ
  deriving DecidableEq

/-- A link as the kernel lists it. -/
structure Link where
  name : String
  operstate : ℕ
  stats : Option Stats

/-- The counters of a link when they were cleared. -/
structure Baseline where
  rxPackets : ℕ
  txPackets : ℕ
  rxBytes : ℕ
  txBytes : ℕ
  rxErrors : ℕ
  txErrors : ℕ
  rxDropped : ℕ
  txDropped : ℕ
  multicast : ℕ
  collisions : ℕ
  rxCrcErrors : ℕ
  rxFrameErrors : ℕ
  rxLengthErrors : ℕ
  rxOverErrors : ℕ
  deriving DecidableEq

namespace Baseline

def of (stats : Stats) : Baseline where
  rxPackets := stats.rxPackets
  txPackets := stats.txPackets
  rxBytes := stats.rxBytes
  txBytes := stats.txBytes
  rxErrors := stats.rxErrors
  txErrors := stats.txErrors
  rxDropped := stats.rxDropped
  txDropped := stats.txDropped
  multicast := stats.multicast
  collisions := stats.collisions
  rxCrcErrors := stats.rxCrcErrors
  rxFrameErrors := stats.rxFrameErrors
  rxLengthErrors := stats.rxLengthErrors
  rxOverErrors := stats.rxOverErrors

/-- The counters with the baseline taken off, and nothing where they fell below it. -/
def applied (baseline : Baseline) (stats : Stats) : Stats where
  rxPackets := stats.rxPackets - baseline.rxPackets
  txPackets := stats.txPackets - baseline.txPackets
  rxBytes := stats.rxBytes - baseline.rxBytes
  txBytes := stats.txBytes - baseline.txBytes
  rxErrors := stats.rxErrors - baseline.rxErrors
  txErrors := stats.txErrors - baseline.txErrors
  rxDropped := stats.rxDropped - baseline.rxDropped
  txDropped := stats.txDropped - baseline.txDropped
  multicast := stats.multicast - baseline.multicast
  collisions := stats.collisions - baseline.collisions
  rxCrcErrors := stats.rxCrcErrors - baseline.rxCrcErrors
  rxFrameErrors := stats.rxFrameErrors - baseline.rxFrameErrors
  rxLengthErrors := stats.rxLengthErrors - baseline.rxLengthErrors
  rxOverErrors := stats.rxOverErrors - baseline.rxOverErrors

end Baseline

/-- What has happened to a link. -/
structure History where
  /-- Transitions since the counters were last cleared. -/
  changes : ℕ
  /-- When the link came into the state it is in. -/
  since : Option ℕ
  operstate : ℕ
  clearedAt : Option ℕ
  baseline : Option Baseline

instance : Inhabited History := ⟨⟨0,none,0,none,none⟩⟩

/-- The histories of links by their names; they are kept when a link goes. -/
abbrev Tracker := SortedMap String History

namespace Tracker

/-- Change the history of a link, which begins when it is first needed. -/
def update (tracker : Tracker) (name : String) (change : History → History) : Tracker :=
  tracker.insert name (change ((tracker.get? name).getD default))

/-- A link in one round of readings: one that has just appeared has changed its state no times. -/
def sampleLink (now : ℕ) (tracker : Tracker) (link : Link) : Tracker :=
  tracker.update link.name (fun history =>
    if history.since.isNone then {history with since := some now,operstate := link.operstate}
    else if history.operstate ≠ link.operstate then
      {history with operstate := link.operstate,changes := history.changes + 1,since := some now}
    else history)

def sample (tracker : Tracker) (links : List Link) (now : ℕ) : Tracker := links.foldl (sampleLink now) tracker

/-- A link event that came between two rounds. -/
def noteEvent (now : ℕ) (tracker : Tracker) (link : Link) : Tracker :=
  tracker.update link.name (fun history =>
    let moved := history.since.isSome && history.operstate ≠ link.operstate
    {history with
      changes := if moved then history.changes + 1 else history.changes
      since := if moved then some now else some (history.since.getD now)
      operstate := link.operstate})

/-- Take the baseline that is subtracted from here on. -/
def clear (tracker : Tracker) (name : String) (stats : Stats) (now : ℕ) : Tracker :=
  tracker.update name (fun history =>
    {history with baseline := some (Baseline.of stats),clearedAt := some now,changes := 0})

def baseline (tracker : Tracker) (name : String) : Option Baseline := (tracker.get? name).bind History.baseline

end Tracker

/-- The tracker of the daemon, and the copy of it that is on disk. -/
structure Monitor where
  tracker : Tracker
  disk : Tracker

namespace Monitor

def persist (monitor : Monitor) : Monitor := {monitor with disk := monitor.tracker}

/-- Clear a link of the list if it is among the names, or if there are no names. -/
def clearLink (names : List String) (now : ℕ) (tracker : Tracker) (link : Link) : Tracker :=
  if names ≠ [] ∧ link.name ∉ names then tracker
  else
    match link.stats with
    | some stats => tracker.clear link.name stats now
    | none => tracker

/-- `clear counters`, for the names given or for all links. -/
def clear (monitor : Monitor) (links : List Link) (names : List String) (now : ℕ) : Monitor :=
  persist {monitor with tracker := links.foldl (clearLink names now) monitor.tracker}

/-- What happens to a monitor. -/
inductive Event where
  | sample (links : List Link) (now : ℕ)
  | notice (links : List Link) (now : ℕ)
  | clear (links : List Link) (names : List String) (now : ℕ)
  | persist
  /-- The daemon is started again, with what is on disk. -/
  | restart

def step (monitor : Monitor) : Event → Monitor
  | .sample links now => {monitor with tracker := monitor.tracker.sample links now}
  | .notice links now => {monitor with tracker := links.foldl (Tracker.noteEvent now) monitor.tracker}
  | .clear links names now => monitor.clear links names now
  | .persist => monitor.persist
  | .restart => {monitor with tracker := monitor.disk}

/-- An event that takes a new baseline of a link. -/
def Event.Clears (name : String) : Event → Prop
  | .clear links names _ => (names = [] ∨ name ∈ names) ∧ ∃ link ∈ links, link.name = name ∧ link.stats.isSome
  | _ => False

end Monitor

/-! ### Baselines stay -/

namespace Tracker
variable {tracker : Tracker} {name : String}

theorem get?_update (other : String) (change : History → History) :
    (tracker.update other change).get? name =
      if name = other then some (change ((tracker.get? other).getD default)) else tracker.get? name := by
  rw [update,SortedMap.get?_insert]

/-- A change of a history that leaves the baseline alone. -/
theorem baseline_update {other : String} {change : History → History}
    (h : ∀ history, (change history).baseline = history.baseline) :
    (tracker.update other change).baseline name = tracker.baseline name := by
  unfold baseline
  rw [get?_update]
  split_ifs with hname
  · subst hname
    rw [Option.bind_some,h]
    cases tracker.get? name <;> rfl
  · rfl

theorem baseline_sampleLink (now : ℕ) (link : Link) :
    (sampleLink now tracker link).baseline name = tracker.baseline name := by
  refine baseline_update (fun history => ?_)
  split_ifs <;> rfl

theorem baseline_noteEvent (now : ℕ) (link : Link) :
    (noteEvent now tracker link).baseline name = tracker.baseline name :=
  baseline_update (fun _ => rfl)

theorem baseline_clear (other : String) (stats : Stats) (now : ℕ) :
    (tracker.clear other stats now).baseline name =
      if name = other then some (Baseline.of stats) else tracker.baseline name := by
  unfold baseline clear
  rw [get?_update]
  split_ifs <;> rfl

theorem baseline_foldl {f : Tracker → Link → Tracker} {links : List Link}
    (h : ∀ tracker, ∀ link ∈ links, (f tracker link).baseline name = tracker.baseline name) :
    (links.foldl f tracker).baseline name = tracker.baseline name := by
  induction links generalizing tracker with
  | nil => rfl
  | cons link links ih =>
    rw [List.foldl_cons,ih (fun tracker other hother => h tracker other (List.mem_cons_of_mem _ hother)),
      h tracker link List.mem_cons_self]

end Tracker

namespace Monitor
variable {monitor : Monitor} {name : String} {baseline : Baseline}

/-- A baseline that is kept, and that a restart brings back. -/
def Holds (monitor : Monitor) (name : String) (baseline : Baseline) : Prop :=
  monitor.tracker.baseline name = some baseline ∧ monitor.disk.baseline name = some baseline

theorem clearLink_other {links : List Link} {names : List String} {now : ℕ}
    (h : ¬(Event.clear links names now).Clears name) (tracker : Tracker) :
    ∀ link ∈ links, (clearLink names now tracker link).baseline name = tracker.baseline name := by
  intro link hlink
  unfold clearLink
  split_ifs with hnamed
  · rfl
  · cases hstats : link.stats with
    | none => rfl
    | some stats =>
      have hother : name ≠ link.name := by
        intro heq
        refine h ⟨?_,link,hlink,heq.symm,by rw [hstats]; rfl⟩
        by_cases hnames : names = []
        · exact .inl hnames
        · exact .inr (by simpa [hnames,heq] using hnamed)
      rw [Tracker.baseline_clear,if_neg hother]

/-- No event but a clear of the link itself moves its baseline. -/
theorem holds_step {e : Event} (he : ¬e.Clears name) (h : monitor.Holds name baseline) :
    (monitor.step e).Holds name baseline := by
  obtain ⟨htracker,hdisk⟩ := h
  cases e with
  | sample links now =>
    exact ⟨(Tracker.baseline_foldl (fun _ link _ => Tracker.baseline_sampleLink now link)).trans htracker,hdisk⟩
  | notice links now =>
    exact ⟨(Tracker.baseline_foldl (fun _ link _ => Tracker.baseline_noteEvent now link)).trans htracker,hdisk⟩
  | clear links names now =>
    have hkept := (Tracker.baseline_foldl (fun tracker => clearLink_other he tracker)).trans htracker
    exact ⟨hkept,hkept⟩
  | persist => exact ⟨htracker,htracker⟩
  | restart => exact ⟨hdisk,hdisk⟩

theorem holds_run {es : List Event} (hes : ∀ e ∈ es, ¬e.Clears name) (h : monitor.Holds name baseline) :
    (es.foldl step monitor).Holds name baseline := by
  induction es generalizing monitor with
  | nil => exact h
  | cons e es ih =>
    exact ih (fun e' he' => hes e' (List.mem_cons_of_mem _ he')) (holds_step (hes e List.mem_cons_self) h)

/-- A clear takes the baseline of a link that the kernel lists once. -/
theorem holds_clear {links : List Link} {names : List String} {now : ℕ} {link : Link} {stats : Stats}
    (hunique : (links.map Link.name).Nodup) (hlink : link ∈ links) (hstats : link.stats = some stats)
    (hnames : names = [] ∨ link.name ∈ names) :
    (monitor.clear links names now).Holds link.name (Baseline.of stats) := by
  obtain ⟨before,after,rfl⟩ := List.append_of_mem hlink
  have hafter : ∀ tracker, ∀ other ∈ after,
      (clearLink names now tracker other).baseline link.name = tracker.baseline link.name := by
    intro tracker other hother
    have hne : link.name ≠ other.name := by
      rw [List.map_append,List.map_cons,List.nodup_append,List.nodup_cons] at hunique
      exact fun heq => hunique.2.1.1 (heq ▸ List.mem_map_of_mem hother)
    unfold clearLink
    split_ifs with hnamed
    · rfl
    · cases other.stats with
      | none => rfl
      | some stats => rw [Tracker.baseline_clear,if_neg hne]
  have hhere : ∀ tracker, (clearLink names now tracker link).baseline link.name = some (Baseline.of stats) := by
    intro tracker
    have hnamed : ¬(names ≠ [] ∧ link.name ∉ names) := by tauto
    rw [clearLink,if_neg hnamed,hstats]
    exact (Tracker.baseline_clear link.name stats now).trans (if_pos rfl)
  have hkept : ((before ++ link::after).foldl (clearLink names now) monitor.tracker).baseline link.name =
      some (Baseline.of stats) := by
    rw [List.foldl_append,List.foldl_cons,Tracker.baseline_foldl hafter,hhere]
  exact ⟨hkept,hkept⟩

end Monitor
end Nightshade.Ifprobe
