import Mathlib
import Nightshade.Foundation.Effects
import Nightshade.Ifprobe.Tracker

/-! The readings that are kept of each link, and the rates over a window of them. Readings are thrown away
by their age at the front, and the window is looked for from the front; both take the clock for one that
does not go back. -/
namespace Nightshade.Ifprobe
open Foundation

/-- How far back readings are kept, in seconds. -/
def HISTORY : ℕ := 900

/-- One reading of the counters of a link. -/
structure Sample where
  at_ : ℕ
  inOctets : ℕ
  inPackets : ℕ
  outOctets : ℕ
  outPackets : ℕ
  deriving DecidableEq

def Sample.from (at_ : ℕ) (stats : Stats) : Sample where
  at_ := at_
  inOctets := stats.rxBytes
  inPackets := stats.rxPackets
  outOctets := stats.txBytes
  outPackets := stats.txPackets

/-- A rate; floating-point numbers are taken for what they approximate. -/
structure Rates where
  interval : ℕ
  inBps : ℚ
  inPps : ℚ
  inPercent : ℚ
  outBps : ℚ
  outPps : ℚ
  outPercent : ℚ

def FRAMING_OVERHEAD_BYTES : ℚ := 20

/-- The share of the line in percent, framing included. -/
def utilisation (bps pps : ℚ) (speedMbps : Option ℕ) : ℚ :=
  match speedMbps.filter (0 < ·) with
  | none => 0
  | some speed => max (bps + pps*FRAMING_OVERHEAD_BYTES*8) 0 / (speed*1000000) * 100

/-- A counter that went backwards was reset, which is no negative rate. -/
def delta (new old : ℕ) : ℚ := (new - old : ℕ)

/-- The rates between two readings. -/
def Rates.between (interval : ℕ) (speedMbps : Option ℕ) (oldest newest : Sample) : Rates :=
  let elapsed : ℚ := (newest.at_ - oldest.at_ : ℕ)
  let inBps := delta newest.inOctets oldest.inOctets * 8 / elapsed
  let inPps := delta newest.inPackets oldest.inPackets / elapsed
  let outBps := delta newest.outOctets oldest.outOctets * 8 / elapsed
  let outPps := delta newest.outPackets oldest.outPackets / elapsed
  { interval, inBps, inPps, inPercent := utilisation inBps inPps speedMbps
    outBps, outPps, outPercent := utilisation outBps outPps speedMbps }

/-- The first reading that is not before the window, or else the first of all. -/
def oldestIn (samples : List Sample) (cutoff : ℕ) : Option Sample :=
  (samples.find? (fun sample => cutoff ≤ sample.at_)).or samples.head?

/-- The rates over a number of seconds that end at the newest reading. -/
def rates (samples : List Sample) (interval : ℕ) (speedMbps : Option ℕ) : Option Rates :=
  match samples.getLast? with
  | none => none
  | some newest =>
    match oldestIn samples (newest.at_ - interval) with
    | none => none
    | some oldest =>
      if newest.at_ - oldest.at_ = 0 then none else some (Rates.between interval speedMbps oldest newest)

/-- A reading is put behind the others, and those too old go from the front. -/
def push (samples : List Sample) (sample : Sample) : List Sample :=
  (samples ++ [sample]).dropWhile (fun oldest => HISTORY < sample.at_ - oldest.at_)

/-- The readings kept of each link, oldest first. -/
abbrev Readings := SortedMap String (List Sample)

namespace Readings

def record (now : ℕ) (readings : Readings) (link : Link) : Readings :=
  match link.stats with
  | some stats => readings.insert link.name (push ((readings.get? link.name).getD []) (.from now stats))
  | none => readings

/-- One round: the links that are there are read, and those that have gone are no longer kept. -/
structure Round where
  links : List Link
  now : ℕ

def sample (readings : Readings) (round : Round) : Readings :=
  (round.links.foldl (record round.now) readings).filterKeys (fun name => round.links.any (·.name = name))

def rates (readings : Readings) (name : String) (interval : ℕ) (speedMbps : Option ℕ) : Option Rates :=
  (readings.get? name).bind (fun samples => Ifprobe.rates samples interval speedMbps)

end Readings

/-! ### Readings in the order of their times -/

/-- A reading in the interval that ends at the newest. -/
def Sample.Within (sample : Sample) (interval : ℕ) (newest : Sample) : Prop :=
  newest.at_ ≤ sample.at_ + interval ∧ sample.at_ ≤ newest.at_

/-- A rate between two readings no further apart than the interval, with nothing negative in it. -/
structure Between (samples : List Sample) (interval : ℕ) (speedMbps : Option ℕ) (oldest newest : Sample)
    (r : Rates) : Prop where
  kept : oldest ∈ samples ∧ newest ∈ samples
  elapsed : 0 < newest.at_ - oldest.at_
  apart : newest.at_ ≤ oldest.at_ + interval
  eq : r = Rates.between interval speedMbps oldest newest
  inward : 0 ≤ r.inBps ∧ 0 ≤ r.inPps
  outward : 0 ≤ r.outBps ∧ 0 ≤ r.outPps

/-- Readings that span no more than is kept, and whose windows give rates. -/
structure Right (samples : List Sample) : Prop where
  bounded : ∀ s ∈ samples, ∀ t ∈ samples, t.at_ ≤ s.at_ + HISTORY
  rated : ∀ interval speedMbps, ∀ newest ∈ samples.getLast?,
    (∃ s ∈ samples, ∃ t ∈ samples, s.at_ ≠ t.at_ ∧ s.Within interval newest ∧ t.Within interval newest) →
      (rates samples interval speedMbps).isSome
  sound : ∀ interval speedMbps, ∀ newest ∈ samples.getLast?, ∀ r ∈ rates samples interval speedMbps,
    ∃ oldest, Between samples interval speedMbps oldest newest r

/-- Readings in the order of their times, none of them too old. -/
structure Ordered (samples : List Sample) : Prop where
  sorted : samples.Pairwise (fun s t => s.at_ ≤ t.at_)
  bounded : ∀ s ∈ samples, ∀ t ∈ samples, t.at_ ≤ s.at_ + HISTORY

section
variable {samples : List Sample} {sample : Sample}

/-- Of readings in order, the first that passes is the oldest that does. -/
lemma find?_oldest {cutoff : ℕ} {oldest s : Sample} (h : samples.Pairwise (fun s t => s.at_ ≤ t.at_))
    (hfind : samples.find? (fun s => cutoff ≤ s.at_) = some oldest) (hs : s ∈ samples) (hcutoff : cutoff ≤ s.at_) :
    oldest.at_ ≤ s.at_ := by
  induction samples with
  | nil => cases hs
  | cons t samples ih =>
    rw [List.pairwise_cons] at h
    by_cases ht : cutoff ≤ t.at_
    · rw [List.find?_cons_of_pos (by simpa using ht),Option.some.injEq] at hfind
      obtain heq | hmem := List.mem_cons.mp hs
      · rw [heq,hfind]
      · rw [← hfind]
        exact h.1 s hmem
    · rw [List.find?_cons_of_neg (by simpa using ht)] at hfind
      obtain heq | hmem := List.mem_cons.mp hs
      · rw [heq] at hcutoff
        exact absurd hcutoff ht
      · exact ih h.2 hfind hmem

/-- A rate that is given is one between two readings in the window. -/
theorem rates_sound {interval : ℕ} {speedMbps : Option ℕ} {newest : Sample} {r : Rates}
    (hnewest : samples.getLast? = some newest) (hr : rates samples interval speedMbps = some r) :
    ∃ oldest, Between samples interval speedMbps oldest newest r := by
  rw [rates,hnewest] at hr
  have hmem : newest ∈ samples := List.mem_of_getLast? hnewest
  have hsome : (samples.find? (fun s => newest.at_ - interval ≤ s.at_)).isSome := by
    rw [List.find?_isSome]
    exact ⟨newest,hmem,by simp⟩
  obtain ⟨oldest,hfind⟩ := Option.isSome_iff_exists.mp hsome
  have hcutoff : newest.at_ - interval ≤ oldest.at_ := by simpa using List.find?_some hfind
  simp only [oldestIn,hfind,Option.some_or] at hr
  split_ifs at hr with helapsed
  have heq := (Option.some.inj hr).symm
  refine ⟨oldest,⟨List.mem_of_find?_eq_some hfind,hmem⟩,by omega,by omega,heq,?_,?_⟩
  · rw [heq]
    constructor <;> (unfold Rates.between delta; positivity)
  · rw [heq]
    constructor <;> (unfold Rates.between delta; positivity)

theorem Ordered.right (h : Ordered samples) : Right samples := by
  refine ⟨h.bounded,fun interval speedMbps newest hnewest hin => ?_,
    fun interval speedMbps newest hnewest r hr => rates_sound hnewest hr⟩
  obtain ⟨s,hs,t,ht,hne,⟨hs1,hs2⟩,⟨ht1,ht2⟩⟩ := hin
  have hsome : (samples.find? (fun r => newest.at_ - interval ≤ r.at_)).isSome := by
    rw [List.find?_isSome]
    exact ⟨s,hs,by simp; omega⟩
  obtain ⟨oldest,hfind⟩ := Option.isSome_iff_exists.mp hsome
  have hlow := find?_oldest h.sorted hfind hs (by omega)
  have hlow' := find?_oldest h.sorted hfind ht (by omega)
  rw [rates,hnewest]
  simp only [oldestIn,hfind,Option.some_or]
  rw [if_neg (by omega)]
  rfl

/-- A reading behind those that came no later keeps the order, and the bound. -/
theorem Ordered.push (h : Ordered samples) (hnow : ∀ s ∈ samples, s.at_ ≤ sample.at_) :
    Ordered (push samples sample) := by
  have hsorted : (samples ++ [sample]).Pairwise (fun s t => s.at_ ≤ t.at_) := by
    rw [List.pairwise_append]
    refine ⟨h.sorted,List.pairwise_singleton _ _,fun s hs t ht => ?_⟩
    rw [List.mem_singleton.mp ht]
    exact hnow s hs
  have hkept := hsorted.sublist (List.dropWhile_sublist (fun s => HISTORY < sample.at_ - s.at_))
  have htimes : ∀ t ∈ Ifprobe.push samples sample, t.at_ ≤ sample.at_ := by
    intro t ht
    have hmem := (List.dropWhile_sublist _).mem ht
    rw [List.mem_append,List.mem_singleton] at hmem
    obtain hmem | heq := hmem
    · exact hnow t hmem
    · rw [heq]
  refine ⟨hkept,fun s hs t ht => ?_⟩
  have ht := htimes t ht
  have hage : sample.at_ - s.at_ ≤ HISTORY := by
    cases hlist : Ifprobe.push samples sample with
    | nil => rw [hlist] at hs; cases hs
    | cons r rest =>
      have hr : ¬ HISTORY < sample.at_ - r.at_ := by
        have hhead := List.head?_dropWhile_not (fun s => decide (HISTORY < sample.at_ - s.at_)) (samples ++ [sample])
        rw [Ifprobe.push] at hlist
        rw [hlist] at hhead
        simpa using hhead
      rw [Ifprobe.push] at hlist
      rw [hlist,List.pairwise_cons] at hkept
      rw [Ifprobe.push,hlist,List.mem_cons] at hs
      obtain heq | hmem := hs
      · rw [heq]
        omega
      · have := hkept.1 s hmem
        omega
  omega

/-- The reading that was just taken is the last. -/
theorem getLast_push : (push samples sample).getLast? = some sample := by
  have hkept : ∀ l : List Sample, ((l ++ [sample]).dropWhile
      (fun oldest => HISTORY < sample.at_ - oldest.at_)).getLast? = some sample := by
    intro l
    induction l with
    | nil => simp
    | cons s l ih =>
      rw [List.cons_append,List.dropWhile_cons]
      split_ifs
      · exact ih
      · rw [← List.cons_append,List.getLast?_concat]
  exact hkept samples

/-- Once the clock has gone back, a reading that is as late as can be spans too much: the one before the
setback bars the way to the one after it. -/
theorem push_setback {last : Sample} (h : Ordered samples) (hlast : samples.getLast? = some last)
    (hback : sample.at_ < last.at_) (later : Sample) (hlater : later.at_ = last.at_ + HISTORY) :
    ¬Right (push (push samples sample) later) := by
  obtain ⟨before,rfl⟩ : ∃ before, samples = before ++ [last] :=
    ⟨samples.dropLast,(List.dropLast_append_getLast? last hlast).symm⟩
  have hyoung : ¬HISTORY < sample.at_ - last.at_ := by omega
  have hstays : ∀ (r : Sample), ¬HISTORY < r.at_ - last.at_ → ∀ l : List Sample, ∀ rest,
      ∃ front, (l ++ last::rest).dropWhile (fun s => HISTORY < r.at_ - s.at_) = front ++ last::rest := by
    intro r hr l rest
    induction l with
    | nil =>
      refine ⟨[],?_⟩
      rw [List.nil_append,List.dropWhile_cons_of_neg (by simpa using hr)]
    | cons s l ih =>
      rw [List.cons_append,List.dropWhile_cons]
      split_ifs
      · exact ih
      · exact ⟨s::l,rfl⟩
  obtain ⟨front,hfirst⟩ := hstays sample hyoung before [sample]
  have hold : ¬HISTORY < later.at_ - last.at_ := by omega
  obtain ⟨rest,hsecond⟩ := hstays later hold front [sample,later]
  have hkept : push (push (before ++ [last]) sample) later = rest ++ last::[sample,later] := by
    rw [push,push,List.append_assoc]
    rw [List.cons_append,List.nil_append,hfirst,List.append_assoc]
    exact hsecond
  intro hright
  rw [hkept] at hright
  have hspan := hright.bounded sample (by simp) later (by simp)
  omega

end

/-! ### Rounds of readings -/

namespace Readings
variable {readings : Readings} {round : Round} {name : String}

/-- No link of the round has been read at a later time. -/
def Onward (readings : Readings) (round : Round) : Prop :=
  ∀ link ∈ round.links, link.stats.isSome → ∀ samples ∈ readings.get? link.name,
    ∀ last ∈ samples.getLast?, last.at_ ≤ round.now

/-- The readings of every link are in order. -/
def AllOrdered (readings : Readings) : Prop := ∀ name, ∀ samples ∈ readings.get? name, Ordered samples

lemma Ordered.le_last {samples : List Sample} {last : Sample} (h : Ordered samples)
    (hlast : samples.getLast? = some last) : ∀ s ∈ samples, s.at_ ≤ last.at_ := by
  obtain ⟨before,rfl⟩ : ∃ before, samples = before ++ [last] :=
    ⟨samples.dropLast,(List.dropLast_append_getLast? last hlast).symm⟩
  have hsorted := h.sorted
  rw [List.pairwise_append] at hsorted
  intro s hs
  rw [List.mem_append,List.mem_singleton] at hs
  obtain hs | rfl := hs
  · exact hsorted.2.2 s hs last (List.mem_singleton_self last)
  · exact le_rfl

/-- What one link after the other keeps within a round: the readings are in order, and those of the links
of the round are not later than it. -/
def Abreast (round : Round) (readings : Readings) : Prop :=
  ∀ name, ∀ samples ∈ readings.get? name, Ordered samples ∧
    ((∃ link ∈ round.links, link.name = name ∧ link.stats.isSome) → ∀ s ∈ samples, s.at_ ≤ round.now)

lemma abreast_record {link : Link} (hlink : link ∈ round.links) (h : Abreast round readings) :
    Abreast round (record round.now readings link) := by
  unfold record
  cases hstats : link.stats with
  | none => exact h
  | some stats =>
    intro name samples hsamples
    rw [Option.mem_def,SortedMap.get?_insert] at hsamples
    split_ifs at hsamples with hname
    · cases hsamples
      obtain ⟨hordered,hnow⟩ : Ordered ((readings.get? link.name).getD []) ∧
          ∀ s ∈ (readings.get? link.name).getD [], s.at_ ≤ round.now := by
        cases hbefore : readings.get? link.name with
        | none => exact ⟨⟨List.Pairwise.nil,by simp⟩,by simp⟩
        | some before =>
          have hold := h link.name before hbefore
          exact ⟨hold.1,hold.2 ⟨link,hlink,rfl,by rw [hstats]; rfl⟩⟩
      have hpush := @Ordered.push _ (.from round.now stats) hordered hnow
      refine ⟨hpush,fun _ s hs => ?_⟩
      exact Ordered.le_last hpush getLast_push s hs
    · exact h name samples hsamples

lemma abreast_start (h : AllOrdered readings) (honward : Onward readings round) : Abreast round readings := by
  intro name samples hsamples
  have hordered := h name samples hsamples
  refine ⟨hordered,?_⟩
  rintro ⟨link,hlink,rfl,hstats⟩ s hs
  obtain ⟨last,hlast⟩ : ∃ last, samples.getLast? = some last := by
    rw [← Option.isSome_iff_exists,List.getLast?_isSome]
    exact List.ne_nil_of_mem hs
  exact (Ordered.le_last hordered hlast s hs).trans (honward link hlink hstats samples hsamples last hlast)

theorem ordered_sample (h : AllOrdered readings) (honward : Onward readings round) :
    AllOrdered (readings.sample round) := by
  have hall : ∀ links : List Link, (∀ link ∈ links, link ∈ round.links) → ∀ readings, Abreast round readings →
      Abreast round (links.foldl (record round.now) readings) := by
    intro links
    induction links with
    | nil => exact fun _ _ h => h
    | cons link links ih =>
      intro hlinks readings h
      exact ih (fun other ho => hlinks other (List.mem_cons_of_mem _ ho)) _
        (abreast_record (hlinks link List.mem_cons_self) h)
  intro name samples hsamples
  rw [Option.mem_def,sample,SortedMap.get?_filterKeys] at hsamples
  split_ifs at hsamples
  exact (hall round.links (fun _ h => h) readings (abreast_start h honward) name samples hsamples).1

/-- The reading of a link that a round has just taken is kept, as the last. -/
theorem sample_newest {link : Link} (hlink : link ∈ round.links) (hstats : link.stats.isSome) :
    ∃ samples, (readings.sample round).get? link.name = some samples ∧ ∃ other ∈ round.links,
      ∃ stats, other.name = link.name ∧ other.stats = some stats ∧
        samples.getLast? = some (.from round.now stats) := by
  have hall : ∀ links : List Link, (∀ link ∈ links, link ∈ round.links) → ∀ readings,
      (link ∈ links ∨ ∃ samples, readings.get? link.name = some samples ∧ ∃ other ∈ round.links,
        ∃ stats, other.name = link.name ∧ other.stats = some stats ∧
          samples.getLast? = some (.from round.now stats)) →
      ∃ samples, (links.foldl (record round.now) readings).get? link.name = some samples ∧
        ∃ other ∈ round.links, ∃ stats, other.name = link.name ∧ other.stats = some stats ∧
          samples.getLast? = some (.from round.now stats) := by
    intro links
    induction links with
    | nil =>
      intro _ readings h
      obtain h | h := h
      · cases h
      · exact h
    | cons first links ih =>
      intro hlinks readings h
      refine ih (fun other ho => hlinks other (List.mem_cons_of_mem _ ho)) _ ?_
      by_cases hread : first.name = link.name ∧ first.stats.isSome
      · obtain ⟨stats,hfirst⟩ := Option.isSome_iff_exists.mp hread.2
        refine .inr ⟨push ((readings.get? first.name).getD []) (.from round.now stats),?_,first,
          hlinks first List.mem_cons_self,stats,hread.1,hfirst,getLast_push⟩
        rw [record,hfirst]
        exact (SortedMap.get?_insert _ _ _ _).trans (if_pos hread.1.symm)
      · obtain h | ⟨samples,hsamples,hrest⟩ := h
        · obtain heq | hmem := List.mem_cons.mp h
          · exact absurd ⟨congrArg Link.name heq.symm,by rw [← heq]; exact hstats⟩ hread
          · exact .inl hmem
        · refine .inr ⟨samples,?_,hrest⟩
          unfold record
          cases hfirst : first.stats with
          | none => exact hsamples
          | some stats =>
            have hne : link.name ≠ first.name := fun heq => hread ⟨heq.symm,by rw [hfirst]; rfl⟩
            exact (SortedMap.get?_insert _ _ _ _).trans ((if_neg hne).trans hsamples)
  obtain ⟨samples,hsamples,hrest⟩ := hall round.links (fun _ h => h) readings (.inl hlink)
  refine ⟨samples,?_,hrest⟩
  have hpresent : round.links.any (·.name = link.name) := by
    rw [List.any_eq_true]
    exact ⟨link,hlink,by simp⟩
  rw [sample,SortedMap.get?_filterKeys,if_pos hpresent,hsamples]

/-- In a run of rounds whose clock never goes back, all that is kept is right, in whatever state; and in any
run the reading taken last is kept. -/
theorem steady_right {rounds : List Round} (h : Along sample Onward SortedMap.empty rounds) :
    (∀ name, ∀ samples ∈ (rounds.foldl sample SortedMap.empty).get? name, Right samples) ∧
    ∀ before round, rounds = before ++ [round] → ∀ link ∈ round.links, link.stats.isSome →
      ∃ samples, (rounds.foldl sample SortedMap.empty).get? link.name = some samples ∧ ∃ other ∈ round.links,
        ∃ stats, other.name = link.name ∧ other.stats = some stats ∧
          samples.getLast? = some (.from round.now stats) := by
  have hordered : AllOrdered (rounds.foldl sample SortedMap.empty) :=
    h.invariant (fun _ _ hs honward => ordered_sample hs honward) (fun _ _ hsamples => by cases hsamples)
  refine ⟨fun name samples hsamples => (hordered name samples hsamples).right,?_⟩
  rintro before round rfl link hlink hstats
  rw [List.foldl_append]
  exact sample_newest hlink hstats

/-- A port and its counters. -/
def port (octets : ℕ) : Link := ⟨"eth0",6,some ⟨0,0,octets,0,0,0,0,0,0,0,0,0,0,0⟩⟩

/-- With a clock that stands still once and goes on, the rules hold. -/
theorem steady_port : ∃ samples, (([⟨[port 0],995⟩,⟨[port 10],995⟩,⟨[port 90],1000⟩] : List Round).foldl sample
    SortedMap.empty).get? "eth0" = some samples ∧ Right samples := by
  have hsteady : Along sample Onward SortedMap.empty [⟨[port 0],995⟩,⟨[port 10],995⟩,⟨[port 90],1000⟩] := by
    refine ⟨?_,?_,?_,trivial⟩
    · intro link _ _ samples hsamples
      cases hsamples
    · intro link hlink _ samples hsamples last hlast
      rw [List.mem_singleton.mp hlink] at hsamples
      cases hsamples
      cases hlast
      exact le_rfl
    · intro link hlink _ samples hsamples last hlast
      rw [List.mem_singleton.mp hlink] at hsamples
      cases hsamples
      cases hlast
      decide
  exact ⟨_,rfl,(steady_right hsteady).1 "eth0" _ rfl⟩

/-- After a setback of the clock the readings kept span more than is to be kept, and two of them five
seconds apart give no rate. -/
theorem setback_wrong :
    (∃ samples, (([⟨[port 0],1000⟩,⟨[port 0],10⟩] : List Round).foldl sample SortedMap.empty).get? "eth0" =
      some samples ∧ ¬∀ s ∈ samples, ∀ t ∈ samples, t.at_ ≤ s.at_ + HISTORY) ∧
    (([⟨[port 0],1000⟩,⟨[port 0],995⟩,⟨[port 80],1000⟩] : List Round).foldl sample SortedMap.empty).get? "eth0" =
      some [⟨1000,0,0,0,0⟩,⟨995,0,0,0,0⟩,⟨1000,80,0,0,0⟩] ∧
    rates (([⟨[port 0],1000⟩,⟨[port 0],995⟩,⟨[port 80],1000⟩] : List Round).foldl sample SortedMap.empty)
      "eth0" 300 none = none := by
  refine ⟨⟨[⟨1000,0,0,0,0⟩,⟨10,0,0,0,0⟩],rfl,by decide⟩,rfl,rfl⟩

end Readings
end Nightshade.Ifprobe
