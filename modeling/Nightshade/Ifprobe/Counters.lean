import Mathlib
import Nightshade.Ifprobe.Tracker

/-! The counters of an interface: the kernel's, of which the baseline has been taken off, and what the
driver counts besides. -/
namespace Nightshade.Ifprobe
open Foundation

/-- The statistics of a driver, by the names it gives them. -/
abbrev Statistics := SortedMap String ℕ

namespace Statistics

/-- The first of the aliases that the driver reports. -/
def lookup (statistics : Statistics) (aliases : List String) : Option ℕ := aliases.findSome? statistics.get?

/-- The largest count there is. -/
def MAX : ℕ := 2^64-1

def saturatingAdd (m n : ℕ) : ℕ := min (m+n) MAX

/-- The sum of every alias present, for what some drivers count in several parts. -/
def total (statistics : Statistics) (aliases : List String) : Option ℕ :=
  aliases.foldl (fun total name =>
    match statistics.get? name with
    | some value => some (saturatingAdd (total.getD 0) value)
    | none => total) none

end Statistics

def FCS_ERRORS : List String :=
  ["rx_crc_errors","rx_fcs_errors","rx_crc_errors_phy","port.crc_errors","rx_frame_check_sequence_errors"]
def ALIGNMENT_ERRORS : List String :=
  ["rx_align_errors","rx_alignment_errors","alignment_errors","port.rx_alignment_errors"]
def SYMBOL_ERRORS : List String :=
  ["rx_symbol_errors","rx_symbol_error","rx_symbol_err_phy","symbol_errors","port.rx_symbol_errors"]
def RUNTS : List String :=
  ["rx_undersize_errors","rx_undersize_packets","rx_undersize_pkts","rx_runt_errors","rx_short_length_errors",
    "port.rx_undersize"]
def GIANTS : List String :=
  ["rx_oversize_errors","rx_oversize_packets","rx_oversize_pkts","rx_jabber_errors","rx_too_long_errors",
    "port.rx_oversize"]
def COLLISIONS : List String := ["collisions","tx_collisions","tx_total_collisions"]
def LATE_COLLISIONS : List String := ["tx_late_collisions","late_collisions"]
def DEFERRED : List String := ["tx_deferred","tx_deferred_ok","deferred_transmissions"]
def PAUSE_IN : List String :=
  ["rx_pause_frames","rx_pause","rx_pause_ctrl_phy","port.rx_pause","rx_flow_control_xon"]
def PAUSE_OUT : List String :=
  ["tx_pause_frames","tx_pause","tx_pause_ctrl_phy","port.tx_pause","tx_flow_control_xon"]
def RX_BROADCAST : List String :=
  ["rx_broadcast","rx_broadcast_packets","rx_bcast_packets","rx_broadcast_phy","port.rx_broadcast"]
def RX_MULTICAST : List String :=
  ["rx_multicast","rx_multicast_packets","rx_mcast_packets","rx_multicast_phy","port.rx_multicast"]
def TX_BROADCAST : List String :=
  ["tx_broadcast","tx_broadcast_packets","tx_bcast_packets","tx_broadcast_phy","port.tx_broadcast"]
def TX_MULTICAST : List String :=
  ["tx_multicast","tx_multicast_packets","tx_mcast_packets","tx_multicast_phy","port.tx_multicast"]

/-- The counters as they are shown. Those that are not kept by the kernel are absent where the driver
does not keep them. -/
structure Counters where
  inUnicast : ℕ
  inMulticast : ℕ
  inBroadcast : ℕ
  inOctets : ℕ
  outUnicast : ℕ
  outMulticast : ℕ
  outBroadcast : ℕ
  outOctets : ℕ
  inErrors : ℕ
  inDiscards : ℕ
  outErrors : ℕ
  outDiscards : ℕ
  fcsErrors : Option ℕ
  alignmentErrors : Option ℕ
  symbolErrors : Option ℕ
  runts : Option ℕ
  giants : Option ℕ
  collisions : Option ℕ
  lateCollisions : Option ℕ
  deferred : Option ℕ
  pauseIn : Option ℕ
  pauseOut : Option ℕ
  deriving DecidableEq

/-- The kernel's counters, and what the driver adds to them. -/
def counters (stats : Stats) (statistics : Statistics) : Counters :=
  let multicast := (statistics.lookup RX_MULTICAST).getD stats.multicast
  let broadcast := (statistics.lookup RX_BROADCAST).getD 0
  { -- `rxPackets` counts everything, so the other two kinds come off here
    inUnicast := stats.rxPackets - multicast - broadcast
    inMulticast := multicast
    inBroadcast := broadcast
    inOctets := stats.rxBytes
    outUnicast := stats.txPackets - (statistics.lookup TX_MULTICAST).getD 0 - (statistics.lookup TX_BROADCAST).getD 0
    outMulticast := (statistics.lookup TX_MULTICAST).getD 0
    outBroadcast := (statistics.lookup TX_BROADCAST).getD 0
    outOctets := stats.txBytes
    inErrors := stats.rxErrors
    inDiscards := stats.rxDropped
    outErrors := stats.txErrors
    outDiscards := stats.txDropped
    fcsErrors := (statistics.lookup FCS_ERRORS).or (some stats.rxCrcErrors)
    alignmentErrors := (statistics.lookup ALIGNMENT_ERRORS).or (some stats.rxFrameErrors)
    symbolErrors := statistics.lookup SYMBOL_ERRORS
    runts := (statistics.lookup RUNTS).or (some stats.rxLengthErrors)
    giants := (statistics.lookup GIANTS).or (some stats.rxOverErrors)
    collisions := (statistics.lookup COLLISIONS).or (some stats.collisions)
    lateCollisions := statistics.lookup LATE_COLLISIONS
    deferred := statistics.lookup DEFERRED
    pauseIn := statistics.total PAUSE_IN
    pauseOut := statistics.total PAUSE_OUT }

/-- The counters that are built into the answer for a link: the baseline is taken off the kernel's, and
the driver's come as they are. -/
def shown (tracker : Tracker) (link : Link) (statistics : Statistics) : Option Counters :=
  link.stats.map (fun stats =>
    counters (match tracker.baseline link.name with
      | some baseline => baseline.applied stats
      | none => stats) statistics)

/-! ### Measured from the clear -/

/-- Everything that is shown of the counters. -/
def Counters.values (c : Counters) : List ℕ :=
  [c.inUnicast,c.inMulticast,c.inBroadcast,c.inOctets,c.outUnicast,c.outMulticast,c.outBroadcast,c.outOctets,
    c.inErrors,c.inDiscards,c.outErrors,c.outDiscards] ++
  [c.fcsErrors,c.alignmentErrors,c.symbolErrors,c.runts,c.giants,c.collisions,c.lateCollisions,c.deferred,c.pauseIn,
    c.pauseOut].reduceOption

/-- What the kernel and the driver count at some moment. -/
structure Reading where
  stats : Stats
  statistics : Statistics

def Stats.add (s t : Stats) : Stats where
  rxPackets := s.rxPackets + t.rxPackets
  txPackets := s.txPackets + t.txPackets
  rxBytes := s.rxBytes + t.rxBytes
  txBytes := s.txBytes + t.txBytes
  rxErrors := s.rxErrors + t.rxErrors
  txErrors := s.txErrors + t.txErrors
  rxDropped := s.rxDropped + t.rxDropped
  txDropped := s.txDropped + t.txDropped
  multicast := s.multicast + t.multicast
  collisions := s.collisions + t.collisions
  rxLengthErrors := s.rxLengthErrors + t.rxLengthErrors
  rxOverErrors := s.rxOverErrors + t.rxOverErrors
  rxCrcErrors := s.rxCrcErrors + t.rxCrcErrors
  rxFrameErrors := s.rxFrameErrors + t.rxFrameErrors

/-- A later reading, by what everything has grown by. What the driver reported it still does. -/
structure Grew (cleared growth later : Reading) : Prop where
  stats : later.stats = cleared.stats.add growth.stats
  reports : ∀ name, (cleared.statistics.get? name).isSome → (growth.statistics.get? name).isSome
  statistics : ∀ name, later.statistics.get? name =
    (growth.statistics.get? name).map (fun n => (cleared.statistics.get? name).getD 0 + n)

/-- What is shown of a link starts from zero at a reading: it is zero while nothing moves, and what has
come since when something does, with the kinds of packets adding up to the packets. -/
structure Measured (tracker : Tracker) (name : String) (cleared : Reading) : Prop where
  still : ∀ operstate, ∃ c, shown tracker ⟨name,operstate,some cleared.stats⟩ cleared.statistics = some c ∧
    ∀ n ∈ c.values, n = 0
  grown : ∀ operstate growth later, Grew cleared growth later →
    ∃ c, shown tracker ⟨name,operstate,some later.stats⟩ later.statistics = some c ∧
      c = counters growth.stats growth.statistics ∧
      (c.inMulticast + c.inBroadcast ≤ growth.stats.rxPackets →
        c.inUnicast + c.inMulticast + c.inBroadcast = growth.stats.rxPackets)

/-- What is read by the first alias that is there, and what is added up. -/
def LOOKED_UP : List (List String) :=
  [RX_MULTICAST,RX_BROADCAST,TX_MULTICAST,TX_BROADCAST,FCS_ERRORS,ALIGNMENT_ERRORS,SYMBOL_ERRORS,RUNTS,GIANTS,COLLISIONS,
    LATE_COLLISIONS,DEFERRED]
def ADDED_UP : List (List String) := [PAUSE_IN,PAUSE_OUT]

/-- Nothing that is read of the driver's counters has counted anything. -/
structure Quiet (driver : Statistics) : Prop where
  lookup : ∀ aliases ∈ LOOKED_UP, (driver.lookup aliases).getD 0 = 0
  total : ∀ aliases ∈ ADDED_UP, ∀ name ∈ aliases, (driver.get? name).getD 0 = 0

namespace Statistics
variable {driver growth later : Statistics} {aliases : List String}

theorem lookup_cons (name : String) : driver.lookup (name::aliases) = (driver.get? name).or (driver.lookup aliases) := by
  unfold lookup
  rw [List.findSome?_cons]
  cases driver.get? name <;> rfl

section Grown
variable (hreports : ∀ name, (driver.get? name).isSome → (growth.get? name).isSome)
  (hlater : ∀ name, later.get? name = (growth.get? name).map (fun n => (driver.get? name).getD 0 + n))
include hlater

include hreports in
/-- A count that was zero shows what has come since. -/
theorem lookup_grown (hzero : (driver.lookup aliases).getD 0 = 0) : later.lookup aliases = growth.lookup aliases := by
  induction aliases with
  | nil => rfl
  | cons name aliases ih =>
    rw [lookup_cons] at hzero
    rw [lookup_cons,lookup_cons,hlater]
    cases hgrowth : growth.get? name with
    | none =>
      have hnone : driver.get? name = none := by
        cases hdriver : driver.get? name with
        | none => rfl
        | some n =>
          have hthere := hreports name (by rw [hdriver]; rfl)
          rw [hgrowth] at hthere
          cases hthere
      rw [hnone,Option.none_or] at hzero
      simpa using ih hzero
    | some n =>
      have hfirst : (driver.get? name).getD 0 = 0 := by
        cases hdriver : driver.get? name with
        | none => rfl
        | some m =>
          rw [hdriver] at hzero
          simpa using hzero
      simp [hfirst]

theorem total_grown (hzero : ∀ name ∈ aliases, (driver.get? name).getD 0 = 0) : later.total aliases = growth.total aliases := by
  have hsame : ∀ name ∈ aliases, later.get? name = growth.get? name := by
    intro name hname
    rw [hlater,hzero name hname]
    cases growth.get? name <;> simp
  unfold total
  refine List.foldl_ext _ _ _ (fun total name hname => ?_)
  rw [hsame name hname]

end Grown

/-- A sum is zero when all parts are, and only then. -/
theorem total_zero : (driver.total aliases).getD 0 = 0 ↔ ∀ name ∈ aliases, (driver.get? name).getD 0 = 0 := by
  have hfold : ∀ total : Option ℕ, ((aliases.foldl (fun total name =>
      match driver.get? name with
      | some value => some (saturatingAdd (total.getD 0) value)
      | none => total) total).getD 0 = 0 ↔ total.getD 0 = 0 ∧ ∀ name ∈ aliases, (driver.get? name).getD 0 = 0) := by
    induction aliases with
    | nil => simp
    | cons name aliases ih =>
      intro total
      rw [List.foldl_cons,ih,List.forall_mem_cons]
      cases driver.get? name with
      | none => simp
      | some value =>
        simp only [Option.getD_some,saturatingAdd,MAX]
        constructor
        · rintro ⟨hmin,hrest⟩
          exact ⟨by omega,by omega,hrest⟩
        · rintro ⟨htotal,hvalue,hrest⟩
          exact ⟨by omega,hrest⟩
  exact (hfold none).trans (by simp)

end Statistics

section Measured
variable {stats : Stats} {driver : Statistics}

theorem applied_of (growth : Stats) : (Baseline.of stats).applied (stats.add growth) = growth := by
  simp [Baseline.of,Baseline.applied,Stats.add]

theorem applied_self : (Baseline.of stats).applied stats = ⟨0,0,0,0,0,0,0,0,0,0,0,0,0,0⟩ := by
  simp [Baseline.of,Baseline.applied]

/-- Beside a kernel that has counted nothing, all is zero exactly when the driver is quiet. -/
theorem values_zero :
    (∀ n ∈ (counters ⟨0,0,0,0,0,0,0,0,0,0,0,0,0,0⟩ driver).values, n = 0) ↔ Quiet driver := by
  have hpresent : ∀ os : List (Option ℕ), (∀ n ∈ os.reduceOption, n = 0) ↔ ∀ o ∈ os, o.getD 0 = 0 := by
    intro os
    simp only [List.reduceOption_mem_iff]
    constructor
    · intro h o ho
      cases o with
      | none => rfl
      | some n => exact h n ho
    · exact fun h n hn => h (some n) hn
  have hor : ∀ o : Option ℕ, (o.or (some 0)).getD 0 = o.getD 0 := by
    intro o
    cases o <;> rfl
  have hquiet : Quiet driver ↔ (∀ aliases ∈ LOOKED_UP, (driver.lookup aliases).getD 0 = 0) ∧
      ∀ aliases ∈ ADDED_UP, (driver.total aliases).getD 0 = 0 := by
    simp only [Statistics.total_zero]
    exact ⟨fun h => ⟨h.lookup,h.total⟩,fun h => ⟨h.1,h.2⟩⟩
  rw [hquiet]
  simp only [Counters.values,counters,List.forall_mem_append,hpresent,LOOKED_UP,ADDED_UP,List.forall_mem_cons,hor,
    Nat.zero_sub,List.not_mem_nil,false_implies,implies_true,and_true,true_and]
  tauto

/-- The counters of a reading that has grown from one at which the driver was quiet. -/
theorem counters_grown (hquiet : Quiet driver) {growth later : Reading} (h : Grew ⟨stats,driver⟩ growth later) :
    counters ((Baseline.of stats).applied later.stats) later.statistics = counters growth.stats growth.statistics := by
  have hlookup : ∀ aliases ∈ LOOKED_UP, later.statistics.lookup aliases = growth.statistics.lookup aliases :=
    fun aliases hmem => Statistics.lookup_grown h.reports h.statistics (hquiet.lookup aliases hmem)
  have htotal : ∀ aliases ∈ ADDED_UP, later.statistics.total aliases = growth.statistics.total aliases :=
    fun aliases hmem => Statistics.total_grown h.statistics (hquiet.total aliases hmem)
  simp only [LOOKED_UP,ADDED_UP,List.forall_mem_cons,List.not_mem_nil,false_implies,implies_true,and_true] at hlookup htotal
  rw [h.stats,applied_of]
  simp only [counters,hlookup,htotal]

theorem counters_sum (growth : Stats) (statistics : Statistics)
    (h : (counters growth statistics).inMulticast + (counters growth statistics).inBroadcast ≤ growth.rxPackets) :
    (counters growth statistics).inUnicast + (counters growth statistics).inMulticast +
      (counters growth statistics).inBroadcast = growth.rxPackets := by
  simp only [counters] at h ⊢
  omega

/-- After a clear, whatever else happens, what is shown starts from zero exactly where the driver had
counted nothing before it. -/
theorem measured_iff {monitor : Monitor} {links : List Link} {names : List String} {now : ℕ} {link : Link}
    (hunique : (links.map Link.name).Nodup) (hlink : link ∈ links) (hstats : link.stats = some stats)
    (hnames : names = [] ∨ link.name ∈ names) :
    (∀ es : List Monitor.Event, (∀ e ∈ es, ¬e.Clears link.name) →
      Measured (es.foldl Monitor.step (monitor.clear links names now)).tracker link.name ⟨stats,driver⟩) ↔ Quiet driver := by
  have hshown : ∀ es : List Monitor.Event, (∀ e ∈ es, ¬e.Clears link.name) → ∀ operstate later statistics,
      shown (es.foldl Monitor.step (monitor.clear links names now)).tracker ⟨link.name,operstate,some later⟩ statistics =
        some (counters ((Baseline.of stats).applied later) statistics) := by
    intro es hes operstate later statistics
    have hcleared : (monitor.clear links names now).Holds link.name (Baseline.of stats) :=
      Monitor.holds_clear hunique hlink hstats hnames
    have hheld := Monitor.holds_run hes hcleared
    simp only [shown,Option.map_some,hheld.1]
  constructor
  · intro h
    obtain ⟨c,hc,hzero⟩ := (h [] nofun).still 0
    rw [hshown [] nofun,applied_self] at hc
    cases hc
    exact values_zero.mp hzero
  · intro hquiet es hes
    refine ⟨fun operstate => ⟨_,hshown es hes _ _ _,?_⟩,fun operstate growth later hgrew => ⟨_,hshown es hes _ _ _,?_,?_⟩⟩
    · rw [applied_self]
      exact values_zero.mpr hquiet
    · exact counters_grown hquiet hgrew
    · rw [counters_grown hquiet hgrew]
      exact counters_sum _ _

/-- A port that has received a hundred packets, five of them broadcast by the driver's count. -/
def port : Link := ⟨"eth0",6,some ⟨100,80,6400,5120,0,0,0,0,0,0,0,0,0,0⟩⟩

theorem port_measured_iff :
    (∀ es : List Monitor.Event, (∀ e ∈ es, ¬e.Clears "eth0") →
      Measured (es.foldl Monitor.step (Monitor.clear ⟨SortedMap.empty,SortedMap.empty⟩ [port] [] 1000)).tracker "eth0"
        ⟨⟨100,80,6400,5120,0,0,0,0,0,0,0,0,0,0⟩,SortedMap.empty.insert "rx_broadcast" 5⟩) ↔
    Quiet (SortedMap.empty.insert "rx_broadcast" 5) := by
  have hport : port ∈ [port] := List.mem_singleton_self port
  exact measured_iff (by decide) hport rfl (.inl rfl)

/-- What came before the clear is still shown after it, and taken off the packets that come. -/
theorem broadcast_uncleared :
    ((shown (Monitor.clear ⟨SortedMap.empty,SortedMap.empty⟩ [port] [] 1000).tracker port
      (SortedMap.empty.insert "rx_broadcast" 5)).map Counters.inBroadcast) = some 5 ∧
    ¬Measured (Monitor.clear ⟨SortedMap.empty,SortedMap.empty⟩ [port] [] 1000).tracker "eth0"
      ⟨⟨100,80,6400,5120,0,0,0,0,0,0,0,0,0,0⟩,SortedMap.empty.insert "rx_broadcast" 5⟩ := by
  have hshown : (shown (Monitor.clear ⟨SortedMap.empty,SortedMap.empty⟩ [port] [] 1000).tracker port
      (SortedMap.empty.insert "rx_broadcast" 5)).map Counters.inBroadcast = some 5 := by decide +kernel
  refine ⟨hshown,fun h => ?_⟩
  obtain ⟨c,hc,hzero⟩ := h.still 6
  rw [show shown _ port _ = some c from hc] at hshown
  have hnone := hzero c.inBroadcast (by simp [Counters.values])
  rw [Option.map_some,hnone] at hshown
  cases hshown

end Measured

end Nightshade.Ifprobe
