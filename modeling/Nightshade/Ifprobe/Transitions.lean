import Mathlib
import Nightshade.Ifprobe.Tracker

/-! What the tracker tells of a link, against what was seen of the link. Rounds of readings and single
events come in any order, and clears come between them. -/
namespace Nightshade.Ifprobe
open Foundation

namespace Tracker

/-- Transitions since the last clear, as they are reported. -/
def linkChanges (tracker : Tracker) (name : String) : ℕ := ((tracker.get? name).map History.changes).getD 0

/-- Seconds the link has been in its state. -/
def since (tracker : Tracker) (name : String) (now : ℕ) : Option ℕ :=
  ((tracker.get? name).bind History.since).map (now - ·)

/-- Seconds since the last clear. -/
def lastClear (tracker : Tracker) (name : String) (now : ℕ) : Option ℕ :=
  ((tracker.get? name).bind History.clearedAt).map (now - ·)

/-- The kernel's counters as they are shown. -/
def measured (tracker : Tracker) (name : String) (stats : Stats) : Stats :=
  match tracker.baseline name with
  | some baseline => baseline.applied stats
  | none => stats

end Tracker

/-- The counters of the kernel, one after the other. -/
def Stats.fields (stats : Stats) : List ℕ :=
  [stats.rxPackets,stats.txPackets,stats.rxBytes,stats.txBytes,stats.rxErrors,stats.txErrors,stats.rxDropped,
    stats.txDropped,stats.multicast,stats.collisions,stats.rxLengthErrors,stats.rxOverErrors,stats.rxCrcErrors,
    stats.rxFrameErrors]

/-- What is done to a tracker. -/
inductive Act where
  | sample (links : List Link) (now : ℕ)
  | noteEvent (link : Link) (now : ℕ)
  | clear (name : String) (stats : Stats) (now : ℕ)

def Act.apply (tracker : Tracker) : Act → Tracker
  | .sample links now => tracker.sample links now
  | .noteEvent link now => tracker.noteEvent now link
  | .clear name stats now => tracker.clear name stats now

/-- What concerns one link: it is seen in a state, or its counters are cleared. -/
inductive Sighting where
  | seen (operstate now : ℕ)
  | cleared (stats : Stats) (now : ℕ)

namespace Sighting

def observed : Sighting → Option (ℕ × ℕ)
  | seen operstate now => some (operstate,now)
  | cleared _ _ => none

def clearing : Sighting → Option (Stats × ℕ)
  | seen _ _ => none
  | cleared stats now => some (stats,now)

end Sighting

/-- What an act tells of a link. A link that is not among those listed is not seen. -/
def Act.sightings (name : String) : Act → List Sighting
  | .sample links now => (links.filter (·.name = name)).map (fun link => .seen link.operstate now)
  | .noteEvent link now => if link.name = name then [.seen link.operstate now] else []
  | .clear other stats now => if other = name then [.cleared stats now] else []

/-- All that happened to a link. -/
def trail (name : String) (acts : List Act) : List Sighting := acts.flatMap (Act.sightings name)

/-! ### What a trail says -/

/-- How often a state is another than the one before it. -/
def turns : List ℕ → ℕ
  | a::b::states => (if a = b then 0 else 1) + turns (b::states)
  | _ => 0

def states (trail : List Sighting) : List ℕ := (trail.filterMap Sighting.observed).map Prod.fst

def isSeen (sighting : Sighting) : Bool := sighting.observed.isSome

/-- The states seen since the last clear, and the one that was seen before them. -/
def sinceClear (trail : List Sighting) : List ℕ :=
  (states (trail.rdropWhile isSeen)).getLast?.toList ++ states (trail.rtakeWhile isSeen)

/-- When the state that was seen last was entered: the first time of the states at the end that are all
the same. -/
def entered (observations : List (ℕ × ℕ)) : Option ℕ :=
  ((observations.rtakeWhile (fun o => some o.1 = observations.getLast?.map Prod.fst)).head?).map Prod.snd

/-- The last clear, with the counters it found. -/
def lastCleared (trail : List Sighting) : Option (Stats × ℕ) := (trail.filterMap Sighting.clearing).getLast?

theorem turns_concat (l : List ℕ) (x : ℕ) :
    turns (l ++ [x]) = turns l + (if l.getLast?.any (· ≠ x) then 1 else 0) := by
  induction l with
  | nil => rfl
  | cons a l ih =>
    cases l with
    | nil => by_cases h : a = x <;> simp [turns,h]
    | cons b l =>
      rw [List.cons_append,List.cons_append,turns,← List.cons_append,ih,turns,List.getLast?_cons_cons,Nat.add_assoc]

theorem entered_concat (l : List (ℕ × ℕ)) (x time : ℕ) :
    entered (l ++ [(x,time)]) = if l.getLast?.map Prod.fst = some x then entered l else some time := by
  have hlast : ((l ++ [(x,time)]).getLast?).map Prod.fst = some x := by
    rw [List.getLast?_append]
    rfl
  rw [entered,hlast,List.rtakeWhile_concat_pos _ _ _ (by simp),List.head?_append]
  split_ifs with h
  · obtain ⟨o,ho,hstate⟩ := Option.map_eq_some_iff.mp h
    obtain ⟨before,rfl⟩ : ∃ before, l = before ++ [o] :=
      ⟨l.dropLast,(List.dropLast_append_getLast? o ho).symm⟩
    rw [entered,h,List.rtakeWhile_concat_pos _ _ _ (by simpa using hstate),List.head?_append]
    cases ((before.rtakeWhile (fun o => some o.1 = some x)).head?) <;> rfl
  · have hnone : l.rtakeWhile (fun o => some o.1 = some x) = [] := by
      rw [List.rtakeWhile_eq_nil_iff]
      intro hl
      rw [List.getLast?_eq_some_getLast hl] at h
      simpa using h
    rw [hnone]
    rfl

theorem entered_eq_none {l : List (ℕ × ℕ)} : entered l = none ↔ l = [] := by
  induction l using List.reverseRecOn with
  | nil => simp [entered]
  | append_singleton l o ih =>
    rw [entered_concat]
    split_ifs with h
    · rw [ih]
      constructor
      · rintro rfl
        cases h
      · simp
    · simp

section
variable (l : List Sighting) (operstate now : ℕ) (stats : Stats)

lemma states_concat_seen : states (l ++ [.seen operstate now]) = states l ++ [operstate] := by
  simp [states,Sighting.observed]

lemma states_concat_cleared : states (l ++ [.cleared stats now]) = states l := by
  simp [states,Sighting.observed]

lemma sinceClear_concat_seen : sinceClear (l ++ [.seen operstate now]) = sinceClear l ++ [operstate] := by
  rw [sinceClear,List.rdropWhile_concat_pos _ _ _ rfl,List.rtakeWhile_concat_pos _ _ _ rfl,states_concat_seen,
    ← List.append_assoc]
  rfl

lemma sinceClear_concat_cleared :
    sinceClear (l ++ [.cleared stats now]) = (states l).getLast?.toList := by
  rw [sinceClear,List.rdropWhile_concat_neg _ _ _ (by simp [isSeen,Sighting.observed]),
    List.rtakeWhile_concat_neg _ _ _ (by simp [isSeen,Sighting.observed]),states_concat_cleared]
  exact List.append_nil _

/-- The last state is there, however long ago it was seen. -/
lemma getLast_sinceClear : (sinceClear l).getLast? = (states l).getLast? := by
  have hparts : states l = states (l.rdropWhile isSeen) ++ states (l.rtakeWhile isSeen) := by
    rw [states,states,states,← List.map_append,← List.filterMap_append,List.rdropWhile_append_rtakeWhile]
  rw [sinceClear,hparts,List.getLast?_append,List.getLast?_append]
  cases (states (l.rdropWhile isSeen)).getLast? <;> rfl

end

/-! ### Histories recount trails -/

/-- A history that says what the trail says. -/
structure Recounts (history : History) (trail : List Sighting) : Prop where
  changes : history.changes = turns (sinceClear trail)
  since : history.since = entered (trail.filterMap Sighting.observed)
  operstate : ∀ state ∈ (states trail).getLast?, history.operstate = state
  clearedAt : history.clearedAt = (lastCleared trail).map Prod.snd
  baseline : history.baseline = (lastCleared trail).map (fun r => Baseline.of r.1)

/-- A look at a link, which a round of readings and an event take in the same way. -/
def History.observe (now operstate : ℕ) (history : History) : History :=
  if history.since.isNone then {history with since := some now,operstate := operstate}
  else if history.operstate ≠ operstate then
    {history with operstate := operstate,changes := history.changes + 1,since := some now}
  else history

section
variable {history : History} {l : List Sighting} {tracker : Tracker} {name : String} (now operstate : ℕ)

theorem recounts_start : Recounts default [] :=
  ⟨rfl,rfl,by simp [states],rfl,rfl⟩

theorem recounts_observe (h : Recounts history l) :
    Recounts (history.observe now operstate) (l ++ [.seen operstate now]) := by
  have hobserved : (l ++ [Sighting.seen operstate now]).filterMap Sighting.observed =
      l.filterMap Sighting.observed ++ [(operstate,now)] := by
    simp [Sighting.observed]
  have hcleared : lastCleared (l ++ [.seen operstate now]) = lastCleared l := by
    simp [lastCleared,Sighting.clearing]
  have hlast : (l.filterMap Sighting.observed).getLast?.map Prod.fst = (states l).getLast? := by
    rw [states,List.getLast?_map]
  have hstate : ∀ state ∈ (states (l ++ [.seen operstate now])).getLast?, operstate = state := by
    rw [states_concat_seen,List.getLast?_concat]
    intro state hs
    exact Option.some.inj hs
  have hturns := turns_concat (sinceClear l) operstate
  rw [← sinceClear_concat_seen l operstate now,getLast_sinceClear] at hturns
  have hentered := entered_concat (l.filterMap Sighting.observed) operstate now
  rw [← hobserved,hlast] at hentered
  by_cases hnew : history.since = none
  · have hnil := entered_eq_none.mp (h.since ▸ hnew)
    have hstates : states l = [] := by rw [states,hnil,List.map_nil]
    rw [hstates] at hturns hentered
    have hobserve : history.observe now operstate = {history with since := some now,operstate := operstate} := by
      rw [History.observe,hnew]
      rfl
    rw [hobserve]
    exact ⟨by rw [hturns,h.changes]; rfl,by rw [hentered]; rfl,hstate,by rw [hcleared]; exact h.clearedAt,
      by rw [hcleared]; exact h.baseline⟩
  · obtain ⟨last,hlast⟩ : ∃ last, (states l).getLast? = some last := by
      rw [← Option.isSome_iff_exists,List.getLast?_isSome]
      intro hnil
      rw [states,List.map_eq_nil_iff] at hnil
      exact hnew (h.since.trans (entered_eq_none.mpr hnil))
    have hoperstate := h.operstate last hlast
    rw [hlast] at hturns hentered
    by_cases hmoved : last = operstate
    · have hobserve : history.observe now operstate = history := by
        rw [History.observe,if_neg (by simpa using hnew),if_neg (by simp [hoperstate,hmoved])]
      rw [hobserve]
      rw [if_pos (congrArg some hmoved)] at hentered
      refine ⟨?_,h.since.trans hentered.symm,?_,by rw [hcleared]; exact h.clearedAt,
        by rw [hcleared]; exact h.baseline⟩
      · rw [hturns,h.changes]
        simp [hmoved]
      · intro state hs
        rw [hoperstate,hmoved]
        exact hstate state hs
    · have hobserve : history.observe now operstate =
          {history with operstate := operstate,changes := history.changes + 1,since := some now} := by
        rw [History.observe,if_neg (by simpa using hnew),if_pos (by rw [hoperstate]; exact hmoved)]
      rw [hobserve]
      rw [if_neg (fun heq => hmoved (Option.some.inj heq))] at hentered
      refine ⟨?_,hentered.symm,hstate,by rw [hcleared]; exact h.clearedAt,by rw [hcleared]; exact h.baseline⟩
      rw [hturns,h.changes]
      simp [hmoved]

theorem recounts_clear (h : Recounts history l) (stats : Stats) :
    Recounts {history with baseline := some (Baseline.of stats),clearedAt := some now,changes := 0}
      (l ++ [.cleared stats now]) := by
  have hobserved : (l ++ [Sighting.cleared stats now]).filterMap Sighting.observed = l.filterMap Sighting.observed := by
    simp [Sighting.observed]
  have hcleared : lastCleared (l ++ [.cleared stats now]) = some (stats,now) := by
    simp [lastCleared,Sighting.clearing]
  refine ⟨?_,by rw [hobserved]; exact h.since,?_,by rw [hcleared]; rfl,by rw [hcleared]; rfl⟩
  · rw [sinceClear_concat_cleared]
    cases (states l).getLast? <;> rfl
  · rw [states_concat_cleared]
    exact h.operstate

end

namespace Tracker
variable {tracker : Tracker} {name : String} {l : List Sighting} (now : ℕ)

/-- A tracker that recounts of a link what the trail says. -/
def Follows (tracker : Tracker) (name : String) (trail : List Sighting) : Prop :=
  Recounts ((tracker.get? name).getD default) trail

lemma follows_update {other : String} {change : History → History} {more : List Sighting}
    (h : tracker.Follows name l) (hother : other ≠ name → more = [])
    (hchange : other = name → ∀ history, Recounts history l → Recounts (change history) (l ++ more)) :
    (tracker.update other change).Follows name (l ++ more) := by
  rw [Follows,get?_update]
  by_cases heq : other = name
  · rw [if_pos heq.symm,heq,Option.getD_some]
    exact hchange heq _ h
  · rw [if_neg (fun hk => heq hk.symm),hother heq,List.append_nil]
    exact h

lemma sampleLink_eq (link : Link) :
    sampleLink now tracker link = tracker.update link.name (History.observe now link.operstate) := rfl

lemma noteEvent_eq (link : Link) :
    noteEvent now tracker link = tracker.update link.name (History.observe now link.operstate) := by
  have hsame : ∀ history : History, ({history with
      changes := if (history.since.isSome && history.operstate ≠ link.operstate) then history.changes + 1
        else history.changes
      since := if (history.since.isSome && history.operstate ≠ link.operstate) then some now
        else some (history.since.getD now)
      operstate := link.operstate} : History) = history.observe now link.operstate := by
    intro history
    obtain ⟨changes,since,operstate,clearedAt,baseline⟩ := history
    cases since with
    | none => rfl
    | some time => by_cases h : operstate = link.operstate <;> simp [History.observe,h]
  rw [noteEvent,update,update]
  exact congrArg _ (hsame _)

lemma follows_observed (link : Link) (h : tracker.Follows name l) :
    (tracker.update link.name (History.observe now link.operstate)).Follows name
      (l ++ if link.name = name then [.seen link.operstate now] else []) := by
  refine follows_update h (fun hne => if_neg hne) (fun heq history hr => ?_)
  rw [if_pos heq]
  exact recounts_observe now link.operstate hr

lemma follows_sample (links : List Link) (h : tracker.Follows name l) :
    (tracker.sample links now).Follows name
      (l ++ (links.filter (·.name = name)).map (fun link => .seen link.operstate now)) := by
  induction links generalizing tracker l with
  | nil => simpa [sample] using h
  | cons link links ih =>
    have hstep := follows_observed now link h
    rw [← sampleLink_eq] at hstep
    have hrest := ih hstep
    rw [sample,List.foldl_cons]
    rw [sample] at hrest
    by_cases heq : link.name = name
    · rw [if_pos heq,List.append_assoc] at hrest
      simpa [heq] using hrest
    · rw [if_neg heq,List.append_nil] at hrest
      simpa [heq] using hrest

theorem follows_act (act : Act) (h : tracker.Follows name l) :
    (act.apply tracker).Follows name (l ++ act.sightings name) := by
  cases act with
  | sample links now => exact follows_sample now links h
  | noteEvent link now =>
    rw [Act.apply,noteEvent_eq]
    exact follows_observed now link h
  | clear other stats now =>
    refine follows_update h (fun hne => if_neg hne) (fun heq history hr => ?_)
    rw [Act.sightings,if_pos heq]
    exact recounts_clear now hr stats

theorem follows_run (acts : List Act) (h : tracker.Follows name l) :
    (acts.foldl Act.apply tracker).Follows name (l ++ trail name acts) := by
  induction acts generalizing tracker l with
  | nil => simpa [trail] using h
  | cons act acts ih =>
    rw [trail,List.flatMap_cons,← List.append_assoc]
    exact ih (follows_act act h)

/-- What does not concern a link leaves all that is known of it. -/
theorem get?_act {act : Act} (h : act.sightings name = []) : (act.apply tracker).get? name = tracker.get? name := by
  cases act with
  | sample links now =>
    have hother : ∀ link ∈ links, name ≠ link.name := by
      intro link hlink heq
      rw [Act.sightings,List.map_eq_nil_iff,List.filter_eq_nil_iff] at h
      exact h link hlink (by simp [heq])
    clear h
    rw [Act.apply]
    induction links generalizing tracker with
    | nil => rfl
    | cons link links ih =>
      rw [sample,List.foldl_cons]
      refine (ih (fun other ho => hother other (List.mem_cons_of_mem _ ho))).trans ?_
      rw [sampleLink,get?_update,if_neg (hother link List.mem_cons_self)]
  | noteEvent link now =>
    have hne : name ≠ link.name := by
      intro heq
      simp [Act.sightings,heq] at h
    rw [Act.apply,noteEvent,get?_update,if_neg hne]
  | clear other stats now =>
    have hne : name ≠ other := by
      intro heq
      simp [Act.sightings,heq] at h
    rw [Act.apply,clear,get?_update,if_neg hne]

end Tracker

/-- What is shown of a counter, between nothing and the kernel's own. -/
lemma applied_fields (cleared raw : Stats) :
    ((Baseline.of cleared).applied raw).fields = List.zipWith (· - ·) raw.fields cleared.fields := rfl

lemma applied_le (baseline : Baseline) (raw : Stats) :
    List.Forall₂ (· ≤ ·) (baseline.applied raw).fields raw.fields := by
  simp [Stats.fields,Baseline.applied]

/-- What a tracker tells of a link, when it recounts a trail. -/
lemma told {tracker : Tracker} {name : String} {l : List Sighting} (h : tracker.Follows name l) (now : ℕ) :
    tracker.linkChanges name = turns (sinceClear l) ∧
    tracker.since name now = (entered (l.filterMap Sighting.observed)).map (now - ·) ∧
    tracker.lastClear name now = (lastCleared l).map (fun r => now - r.2) ∧
    tracker.baseline name = (lastCleared l).map (fun r => Baseline.of r.1) := by
  rw [← h.changes,← h.since,← h.baseline]
  have hcleared : (lastCleared l).map (fun r => now - r.2) = ((lastCleared l).map Prod.snd).map (now - ·) := by
    rw [Option.map_map]
    rfl
  rw [hcleared,← h.clearedAt,Tracker.linkChanges,Tracker.since,Tracker.lastClear,Tracker.baseline]
  cases tracker.get? name with
  | none => exact ⟨rfl,rfl,rfl,rfl⟩
  | some history => exact ⟨rfl,rfl,rfl,rfl⟩

/-- However samples, events and clears follow on one another, what is reported of a link is what was seen
of it: the transitions since the last clear, the time of the last one or of the first look, the counters
less those of the last clear and never more than the kernel's. What does not concern the link changes
nothing of it. -/
theorem counted (acts : List Act) (name : String) (now : ℕ) (raw : Stats) :
    let tracker := acts.foldl Act.apply SortedMap.empty
    let trail := trail name acts
    tracker.linkChanges name = turns (sinceClear trail) ∧
    tracker.since name now = (entered (trail.filterMap Sighting.observed)).map (now - ·) ∧
    tracker.lastClear name now = (lastCleared trail).map (fun r => now - r.2) ∧
    (tracker.measured name raw).fields =
      (match lastCleared trail with
      | some (cleared,_) => List.zipWith (· - ·) raw.fields cleared.fields
      | none => raw.fields) ∧
    List.Forall₂ (· ≤ ·) (tracker.measured name raw).fields raw.fields ∧
    ∀ act : Act, act.sightings name = [] → (act.apply tracker).get? name = tracker.get? name := by
  intro tracker trail
  have hfollows : tracker.Follows name trail := by
    have hstart : Tracker.Follows SortedMap.empty name [] := recounts_start
    exact Tracker.follows_run acts hstart
  obtain ⟨hchanges,hsince,hclear,hbaseline⟩ := told hfollows now
  refine ⟨hchanges,hsince,hclear,?_,?_,fun act hact => Tracker.get?_act hact⟩
  · rw [Tracker.measured,hbaseline]
    cases lastCleared trail with
    | none => rfl
    | some r => exact applied_fields r.1 raw
  · rw [Tracker.measured]
    cases tracker.baseline name with
    | none => exact List.forall₂_refl _
    | some baseline => exact applied_le baseline raw

end Nightshade.Ifprobe
