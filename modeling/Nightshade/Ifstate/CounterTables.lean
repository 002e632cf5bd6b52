import Mathlib
import Nightshade.Ifprobe.Counters
import Nightshade.Ifstate.Layout
import Nightshade.Ifstate.NaturalOrder

/-! The tables of counters. Their columns are of fixed widths, and the numbers in them are not. -/
namespace Nightshade.Ifstate
open Foundation.Columns
open Ifprobe (Counters)

/-- What kind of device an interface is. -/
inductive Kind where
  /-- A physical port. -/
  | ethernet
  | loopback
  | vlan
  | portChannel
  | tunnel
  | wireguard
  | bridge
  | other
  deriving DecidableEq

def Kind.isPhysical (kind : Kind) : Bool := kind = .ethernet

/-- One hardware transmit queue. -/
structure Queue where
  name : String
  packets : UInt64
  bytes : UInt64
  droppedPackets : UInt64
  droppedBytes : UInt64

structure Interface where
  name : String
  kind : Kind
  present : Bool
  counters : Option Counters
  queues : List Queue

structure Snapshot where
  interfaces : List Interface

instance : Inhabited Counters := ⟨⟨0,0,0,0,0,0,0,0,0,0,0,0,none,none,none,none,none,none,none,none,none,none⟩⟩

/-- The interfaces a command lists: physical ports first, each group in natural order. -/
def rows (snapshot : Snapshot) (keep : Interface → Bool) : List Interface :=
  (snapshot.interfaces.filter keep).mergeSort (fun a b =>
    ((compare a.kind.isPhysical b.kind.isPhysical).swap.then (naturalCmp a.name b.name)).isLE)

def tabulatesCounters (interface : Interface) : Bool := interface.kind.isPhysical && interface.present

def ports (snapshot : Snapshot) : List Interface := rows snapshot tabulatesCounters

def names (interfaces : List Interface) : List String := interfaces.map Interface.name

def TOTALS_NAME : ℕ := 13
def TOTALS : List ℕ := [16,16,18,16]
def ERRORS_NAME : ℕ := 8
def ERRORS : List ℕ := [12,12,12,13,12,12,12]
def DISCARDS_NAME : ℕ := 8
def DISCARDS : List ℕ := [15,18]
def QUEUE_NAME : ℕ := 10
def QUEUE_TXQ : ℕ := 7
def QUEUE : List ℕ := [12,21,18,18]

/-- A counter that the driver does not keep is printed as zero. -/
def optional (value : Option ℕ) : String := toString (value.getD 0)

def Interface.counts (interface : Interface) : Counters := interface.counters.getD default

section
variable (snapshot : Snapshot)

def inbound : Table where
  layout := right (nameWidth (names (ports snapshot)) TOTALS_NAME) TOTALS
  header := ["Port","InOctets","InUcastPkts","InMcastPkts","InBcastPkts"]
  rows := (ports snapshot).map (fun interface =>
    let counters := interface.counts
    [interface.name,toString counters.inOctets,toString counters.inUnicast,toString counters.inMulticast,
      toString counters.inBroadcast])

def outbound : Table where
  layout := right (nameWidth (names (ports snapshot)) TOTALS_NAME) TOTALS
  header := ["Port","OutOctets","OutUcastPkts","OutMcastPkts","OutBcastPkts"]
  rows := (ports snapshot).map (fun interface =>
    let counters := interface.counts
    [interface.name,toString counters.outOctets,toString counters.outUnicast,toString counters.outMulticast,
      toString counters.outBroadcast])

/-- `show interfaces counters`: two tables with an empty line between them. -/
def totals : String := (inbound snapshot).text ++ "\n" ++ (outbound snapshot).text

/-- `show interfaces counters errors` -/
def errors : Table where
  layout := right (nameWidth (names (ports snapshot)) ERRORS_NAME) ERRORS
  header := ["Port","FCSErr","AlignErr","SymbolErr","RxErr","Runts","Giants","TxErr"]
  rows := (ports snapshot).map (fun interface =>
    let counters := interface.counts
    [interface.name,optional counters.fcsErrors,optional counters.alignmentErrors,optional counters.symbolErrors,
      toString counters.inErrors,optional counters.runts,optional counters.giants,toString counters.outErrors])

/-- `show interfaces counters discards` -/
def discards : Table where
  layout := right (nameWidth (names (ports snapshot)) DISCARDS_NAME) DISCARDS
  header := ["Port","InDiscards","OutDiscards"]
  rows := (ports snapshot).map (fun interface =>
    let counters := interface.counts
    [interface.name,toString counters.inDiscards,toString counters.outDiscards])

/-- `show interfaces counters queue`: a row for each queue of each port. -/
def queue : Table where
  layout := ⟨(nameWidth (names (ports snapshot)) QUEUE_NAME,.left)::(QUEUE_TXQ,.left)::
    QUEUE.map (fun width => (width,.right))⟩
  header := ["Port","TxQ","Counter/pkts","Counter/bytes","Dropped/pkts","Dropped/bytes"]
  rows := (ports snapshot).flatMap (fun interface => interface.queues.map (fun queue =>
    [interface.name,queue.name,toString queue.packets.toNat,toString queue.bytes.toNat,
      toString queue.droppedPackets.toNat,toString queue.droppedBytes.toNat]))

end

/-! ### Numbers that fit their columns -/

/-- A queue whose name is one word and whose numbers leave the blanks between them. -/
structure Queue.Fits (queue : Queue) : Prop where
  name : Solid queue.name.toList
  packets : queue.name.toList.length < 7 ∨ queue.packets.toNat < 10^11
  droppedPackets : queue.droppedPackets.toNat < 10^17
  droppedBytes : queue.droppedBytes.toNat < 10^17

/-- A port whose name is one word, and whose numbers, but those right behind the name, are shorter than
their columns. -/
structure Interface.Fits (interface : Interface) : Prop where
  name : Solid interface.name.toList
  inbound : interface.counts.inUnicast < 10^15 ∧ interface.counts.inMulticast < 10^17 ∧
    interface.counts.inBroadcast < 10^15
  outbound : interface.counts.outUnicast < 10^15 ∧ interface.counts.outMulticast < 10^17 ∧
    interface.counts.outBroadcast < 10^15
  errors : interface.counts.alignmentErrors.getD 0 < 10^11 ∧ interface.counts.symbolErrors.getD 0 < 10^11 ∧
    interface.counts.inErrors < 10^12 ∧ interface.counts.runts.getD 0 < 10^11 ∧
    interface.counts.giants.getD 0 < 10^11 ∧ interface.counts.outErrors < 10^11
  discards : interface.counts.outDiscards < 10^17
  queues : ∀ queue ∈ interface.queues, queue.Fits

/-- The tables of counters that are read back by splitting at blanks. -/
def tables (snapshot : Snapshot) : List Table :=
  [inbound snapshot,outbound snapshot,errors snapshot,discards snapshot,queue snapshot]

section
variable {snapshot : Snapshot} {interface : Interface}

lemma name_lt (h : interface ∈ ports snapshot) (minimum : ℕ) :
    interface.name.toList.length < nameWidth (names (ports snapshot)) minimum :=
  lt_nameWidth (List.mem_map_of_mem h) minimum

/-- A row of a name and numbers. -/
lemma numbers_iff (h : interface ∈ ports snapshot) (minimum : ℕ) (widths values : List ℕ)
    (hlen : values.length = widths.length) (hwidths : ∀ width ∈ widths, 1 < width) :
    words ((right (nameWidth (names (ports snapshot)) minimum) widths).row
        (interface.name::values.map toString)).toList =
        (interface.name::values.map toString).map String.toList ↔
      Solid interface.name.toList ∧ ∀ p ∈ widths.tail.zip values.tail, p.2 < 10^(p.1-1) := by
  have hsolid : ∀ cell ∈ values.map toString, Solid cell.toList := by
    intro cell hcell
    obtain ⟨n,-,rfl⟩ := List.mem_map.mp hcell
    exact solid_number n
  rw [row_right_iff widths _ (by rw [List.length_map,hlen]) (name_lt h minimum) hsolid]
  refine and_congr_right (fun _ => ?_)
  have hzip : widths.tail.zip (values.map toString).tail =
      (widths.tail.zip values.tail).map (Prod.map id (toString : ℕ → String)) := by
    rw [← List.map_tail,List.zip_map_right]
  rw [hzip,List.forall_mem_map]
  refine forall₂_congr (fun p hp => ?_)
  have hwidth : p.1 ∈ widths := List.mem_of_mem_tail (List.of_mem_zip hp).1
  exact length_number_lt (hwidths p.1 hwidth)

theorem inbound_iff : (inbound snapshot).ReadBack ↔ ∀ interface ∈ ports snapshot, Solid interface.name.toList ∧
    interface.counts.inUnicast < 10^15 ∧ interface.counts.inMulticast < 10^17 ∧
      interface.counts.inBroadcast < 10^15 := by
  rw [Table.ReadBack,inbound,List.forall_mem_map]
  refine forall₂_congr (fun interface h => ?_)
  have hrow := numbers_iff h TOTALS_NAME TOTALS [interface.counts.inOctets,interface.counts.inUnicast,
    interface.counts.inMulticast,interface.counts.inBroadcast] rfl (by decide)
  refine hrow.trans (and_congr_right (fun _ => ?_))
  simp [TOTALS]

theorem outbound_iff : (outbound snapshot).ReadBack ↔ ∀ interface ∈ ports snapshot, Solid interface.name.toList ∧
    interface.counts.outUnicast < 10^15 ∧ interface.counts.outMulticast < 10^17 ∧
      interface.counts.outBroadcast < 10^15 := by
  rw [Table.ReadBack,outbound,List.forall_mem_map]
  refine forall₂_congr (fun interface h => ?_)
  have hrow := numbers_iff h TOTALS_NAME TOTALS [interface.counts.outOctets,interface.counts.outUnicast,
    interface.counts.outMulticast,interface.counts.outBroadcast] rfl (by decide)
  refine hrow.trans (and_congr_right (fun _ => ?_))
  simp [TOTALS]

theorem errors_iff : (errors snapshot).ReadBack ↔ ∀ interface ∈ ports snapshot, Solid interface.name.toList ∧
    interface.counts.alignmentErrors.getD 0 < 10^11 ∧ interface.counts.symbolErrors.getD 0 < 10^11 ∧
    interface.counts.inErrors < 10^12 ∧ interface.counts.runts.getD 0 < 10^11 ∧
    interface.counts.giants.getD 0 < 10^11 ∧ interface.counts.outErrors < 10^11 := by
  rw [Table.ReadBack,errors,List.forall_mem_map]
  refine forall₂_congr (fun interface h => ?_)
  have hrow := numbers_iff h ERRORS_NAME ERRORS [interface.counts.fcsErrors.getD 0,
    interface.counts.alignmentErrors.getD 0,interface.counts.symbolErrors.getD 0,interface.counts.inErrors,
    interface.counts.runts.getD 0,interface.counts.giants.getD 0,interface.counts.outErrors] rfl (by decide)
  refine hrow.trans (and_congr_right (fun _ => ?_))
  simp [ERRORS]

theorem discards_iff : (discards snapshot).ReadBack ↔ ∀ interface ∈ ports snapshot, Solid interface.name.toList ∧
    interface.counts.outDiscards < 10^17 := by
  rw [Table.ReadBack,discards,List.forall_mem_map]
  refine forall₂_congr (fun interface h => ?_)
  have hrow := numbers_iff h DISCARDS_NAME DISCARDS [interface.counts.inDiscards,interface.counts.outDiscards] rfl
    (by decide)
  refine hrow.trans (and_congr_right (fun _ => ?_))
  simp [DISCARDS]

/-- A row of a queue: its name and its packets share the blanks of two columns. -/
lemma queue_row_iff (h : interface ∈ ports snapshot) (q : Queue) :
    words ((queue snapshot).layout.row [interface.name,q.name,toString q.packets.toNat,toString q.bytes.toNat,
        toString q.droppedPackets.toNat,toString q.droppedBytes.toNat]).toList =
        [interface.name,q.name,toString q.packets.toNat,toString q.bytes.toNat,toString q.droppedPackets.toNat,
          toString q.droppedBytes.toNat].map String.toList ↔ Solid interface.name.toList ∧ q.Fits := by
  have hname := name_lt h QUEUE_NAME
  have hbytes : (toString q.bytes.toNat).toList.length < 21 :=
    (length_number_lt (by decide)).mpr (q.bytes.toNat_lt.trans (by decide))
  have hpackets : (toString q.packets.toNat).toList.length < 12 ↔ q.packets.toNat < 10^11 :=
    length_number_lt (by decide)
  have hdroppedPackets : (toString q.droppedPackets.toNat).toList.length < 18 ↔ q.droppedPackets.toNat < 10^17 :=
    length_number_lt (by decide)
  have hdroppedBytes : (toString q.droppedBytes.toNat).toList.length < 18 ↔ q.droppedBytes.toNat < 10^17 :=
    length_number_lt (by decide)
  have hnumbers := chain_right_iff QUEUE [toString q.packets.toNat,toString q.bytes.toNat,
    toString q.droppedPackets.toNat,toString q.droppedBytes.toNat] rfl
  have hfirst : (padInto (nameWidth (names (ports snapshot)) QUEUE_NAME,.left) interface.name).Apart
      (padInto (QUEUE_TXQ,.left) q.name) := by
    simp only [Cell.Apart,padInto]
    omega
  have hsecond : (padInto (QUEUE_TXQ,.left) q.name).Apart (padInto (12,.right) (toString q.packets.toNat)) ↔
      q.name.toList.length < 7 ∨ q.packets.toNat < 10^11 := by
    rw [← hpackets]
    simp only [Cell.Apart,padInto,QUEUE_TXQ]
    omega
  rw [row_readBack_iff,queue]
  simp only [QUEUE,List.map_cons,List.map_nil,placed,List.isChain_cons_cons] at hnumbers ⊢
  rw [hnumbers]
  simp only [hfirst,hsecond,List.forall_mem_cons,solid_number,List.tail_cons,List.zip_cons_cons,List.zip_nil_right,
    hbytes,hdroppedPackets,hdroppedBytes,List.not_mem_nil,false_implies,implies_true,and_true,true_and]
  constructor
  · rintro ⟨⟨hsolid,hqueue⟩,hroom,hdropped,hdropped'⟩
    exact ⟨hsolid,hqueue,hroom,hdropped,hdropped'⟩
  · rintro ⟨hsolid,hqueue,hroom,hdropped,hdropped'⟩
    exact ⟨⟨hsolid,hqueue⟩,hroom,hdropped,hdropped'⟩

theorem queue_iff : (queue snapshot).ReadBack ↔ ∀ interface ∈ ports snapshot, ∀ queue ∈ interface.queues,
    Solid interface.name.toList ∧ queue.Fits := by
  have hrows : (queue snapshot).rows = (ports snapshot).flatMap (fun interface => interface.queues.map (fun q =>
      [interface.name,q.name,toString q.packets.toNat,toString q.bytes.toNat,toString q.droppedPackets.toNat,
        toString q.droppedBytes.toNat])) := rfl
  rw [Table.ReadBack,hrows,List.forall_mem_flatMap]
  refine forall₂_congr (fun interface h => ?_)
  rw [List.forall_mem_map]
  exact forall₂_congr (fun q _ => queue_row_iff h q)

end

/-- The rows of all tables are read back exactly where every port fits. -/
theorem readBack_iff (snapshot : Snapshot) :
    (∀ table ∈ tables snapshot, table.ReadBack) ↔ ∀ interface ∈ ports snapshot, interface.Fits := by
  rw [tables,List.forall_mem_cons,List.forall_mem_cons,List.forall_mem_cons,List.forall_mem_cons,List.forall_mem_singleton,
    inbound_iff,outbound_iff,errors_iff,discards_iff,queue_iff]
  constructor
  · rintro ⟨hin,hout,herrors,hdiscards,hqueue⟩ interface h
    exact ⟨(hin interface h).1,(hin interface h).2,(hout interface h).2,(herrors interface h).2,
      (hdiscards interface h).2,fun q hq => (hqueue interface h q hq).2⟩
  · intro hfits
    refine ⟨fun interface h => ?_,fun interface h => ?_,fun interface h => ?_,fun interface h => ?_,
      fun interface h q hq => ?_⟩
    · exact ⟨(hfits interface h).name,(hfits interface h).inbound⟩
    · exact ⟨(hfits interface h).name,(hfits interface h).outbound⟩
    · exact ⟨(hfits interface h).name,(hfits interface h).errors⟩
    · exact ⟨(hfits interface h).name,(hfits interface h).discards⟩
    · exact ⟨(hfits interface h).name,(hfits interface h).queues q hq⟩

/-- A port that has sent nothing but discarded much. -/
def discarding : Interface := ⟨"eth0",.ethernet,true,some {(default : Counters) with outDiscards := 10^17},[]⟩

lemma ports_discarding : ports ⟨[discarding]⟩ = [discarding] := by
  have hkeep : tabulatesCounters discarding = true := by decide
  rw [ports,rows,List.filter_cons_of_pos hkeep,List.filter_nil]
  exact List.mergeSort_singleton _

/-- The two numbers of its discards run together. -/
theorem discards_run_together : ¬∀ table ∈ tables ⟨[discarding]⟩, table.ReadBack := by
  intro h
  have hdiscards : (discards ⟨[discarding]⟩).ReadBack := h _ (by simp [tables])
  have hfits := discards_iff.mp hdiscards discarding (by rw [ports_discarding]; exact List.mem_singleton_self _)
  exact absurd hfits.2 (by decide)

/-- What is printed of them. -/
example : (right (nameWidth ["eth0"] DISCARDS_NAME) DISCARDS).row ["eth0","0","100000000000000000"] =
    "eth0                  0100000000000000000" := by decide

end Nightshade.Ifstate
