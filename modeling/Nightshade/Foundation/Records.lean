import Nightshade.Foundation.Fallible

/-! Walks over records that lie one after the other in a buffer, each saying its own length. Every access is
checked, so that a walk that reads outside the buffer, or does not end, is seen to. -/
namespace Nightshade.Foundation

/-- What must not happen: an access outside a slice, which stops the program, and a loop without an end. -/
inductive Fault where
  | outOfBounds
  | unfinished
  deriving DecidableEq

/-- The bytes from one place to another. -/
def slice (bytes : List UInt8) (start stop : ℕ) : Except Fault (List UInt8) :=
  if start ≤ stop ∧ stop ≤ bytes.length then .ok ((bytes.drop start).take (stop-start)) else .error .outOfBounds

/-- The byte at one place. -/
def byteAt (bytes : List UInt8) (place : ℕ) : Except Fault UInt8 :=
  match bytes[place]? with
  | some b => .ok b
  | none => .error .outOfBounds

lemma slice_ok {bytes : List UInt8} {start stop : ℕ} (h : start ≤ stop) (hstop : stop ≤ bytes.length) :
    slice bytes start stop = .ok ((bytes.drop start).take (stop-start)) := if_pos ⟨h,hstop⟩

lemma byteAt_ok {bytes : List UInt8} {place : ℕ} (h : place < bytes.length) :
    byteAt bytes place = .ok bytes[place] := by
  unfold byteAt
  rw [List.getElem?_eq_getElem h]

/-- All that an iterator gives, up to the first time that it gives nothing. -/
def collect {α σ : Type*} (next : σ → Except Fault (Option α × σ)) : ℕ → σ → Except Fault (List α)
  | 0, _ => .error .unfinished
  | fuel+1, s =>
    match next s with
    | .error e => .error e
    | .ok (none,_) => .ok []
    | .ok (some a,s) => (collect next fuel s).map (a::·)

/-- Records from one place of a buffer to another: each lies whole in the buffer, and the next one is looked
for behind it and its padding. -/
inductive Laid {α : Type*} (form : α → List UInt8 → Prop) (pad : ℕ → ℕ) (bytes : List UInt8) :
    ℕ → List α → ℕ → Prop
  | nil (place : ℕ) : Laid form pad bytes place [] place
  | cons {place stop : ℕ} {record : α} {records : List α} {front : List UInt8} (spelled : form record front)
      (inside : front <+: bytes.drop place) (others : Laid form pad bytes (place+pad front.length) records stop) :
      Laid form pad bytes place (record::records) stop

/-- No record lies whole at this place. -/
def NoneAt {α : Type*} (form : α → List UInt8 → Prop) (bytes : List UInt8) (place : ℕ) : Prop :=
  ∀ record front, form record front → ¬ front <+: bytes.drop place

/-- Every record of a walk lies in the buffer. -/
lemma Laid.mem {α : Type*} {form : α → List UInt8 → Prop} {pad : ℕ → ℕ} {bytes : List UInt8} {place stop : ℕ}
    {records : List α} (h : Laid form pad bytes place records stop) :
    ∀ record ∈ records, ∃ start front, form record front ∧ front <+: bytes.drop start := by
  induction h with
  | nil place => simp
  | @cons place stop record records front hform hinside _ ih =>
    intro other hother
    obtain rfl | hother := List.mem_cons.mp hother
    · exact ⟨place,front,hform,hinside⟩
    · exact ih other hother

/-- What the step of a walk does: it gives the record at the front and goes on behind its padding, and it
gives nothing where there is no record. -/
structure Walks {α : Type*} (form : α → List UInt8 → Prop) (pad : ℕ → ℕ)
    (next : List UInt8 → Except Fault (Option α × List UInt8)) : Prop where
  proper : ∀ record front, form record front → 0 < front.length
  padded : ∀ n, n ≤ pad n
  record : ∀ record front bytes, form record front → front <+: bytes →
    next bytes = .ok (some record,bytes.drop (pad front.length))
  stops : ∀ bytes, NoneAt form bytes 0 → ∃ rest, next bytes = .ok (none,rest)

namespace Walks
variable {α : Type*} {form : α → List UInt8 → Prop} {pad : ℕ → ℕ}
  {next : List UInt8 → Except Fault (Option α × List UInt8)} (h : Walks form pad next)
include h

/-- The walk ends whatever the bytes are, and gives the records up to the first place that has none. -/
theorem collect_ok {fuel : ℕ} (bytes : List UInt8) (place : ℕ) (hfuel : (bytes.drop place).length < fuel) :
    ∃ records stop, collect next fuel (bytes.drop place) = .ok records ∧
      Laid form pad bytes place records stop ∧ NoneAt form bytes stop := by
  induction fuel generalizing place with
  | zero => omega
  | succ fuel ih =>
    by_cases hnone : NoneAt form bytes place
    · have hhere : NoneAt form (bytes.drop place) 0 := by simpa [NoneAt] using hnone
      obtain ⟨rest,hnext⟩ := h.stops _ hhere
      refine ⟨[],place,?_,.nil place,hnone⟩
      rw [collect,hnext]
    · obtain ⟨record,front,hform,hinside⟩ : ∃ record front, form record front ∧ front <+: bytes.drop place := by
        simpa [NoneAt] using hnone
      have hnext := h.record record front _ hform hinside
      rw [List.drop_drop] at hnext
      have hpos := h.proper record front hform
      have hpad := h.padded front.length
      have hlen := hinside.length_le
      obtain ⟨records,stop,hwalk,hlaid,hstop⟩ := ih (place+pad front.length) (by
        simp only [List.length_drop] at hfuel hlen ⊢
        omega)
      refine ⟨record::records,stop,?_,.cons hform hinside hlaid,hstop⟩
      rw [collect,hnext]
      dsimp only
      rw [hwalk]
      rfl

/-- Records that lie in the buffer up to a place without one are what the walk gives. -/
theorem collect_eq {fuel : ℕ} {bytes : List UInt8} {place stop : ℕ} {records : List α}
    (hlaid : Laid form pad bytes place records stop) (hstop : NoneAt form bytes stop)
    (hfuel : (bytes.drop place).length < fuel) : collect next fuel (bytes.drop place) = .ok records := by
  induction hlaid generalizing fuel with
  | nil place =>
    obtain ⟨fuel,rfl⟩ : ∃ n, fuel = n+1 := ⟨fuel-1,by omega⟩
    obtain ⟨rest,hnext⟩ := h.stops (bytes.drop place) (by simpa [NoneAt] using hstop)
    rw [collect,hnext]
  | @cons place stop record records front hform hinside _ ih =>
    obtain ⟨fuel,rfl⟩ : ∃ n, fuel = n+1 := ⟨fuel-1,by omega⟩
    have hnext := h.record record front _ hform hinside
    rw [List.drop_drop] at hnext
    have hpos := h.proper record front hform
    have hpad := h.padded front.length
    have hlen := hinside.length_le
    have hless : (bytes.drop (place+pad front.length)).length < fuel := by
      simp only [List.length_drop] at hfuel hlen ⊢
      omega
    have hwalk := ih hstop hless
    rw [collect,hnext]
    dsimp only
    rw [hwalk]
    rfl

/-- Past the end of the buffer there is no record. -/
lemma noneAt_end (bytes : List UInt8) : NoneAt form bytes bytes.length := by
  intro record front hform hinside
  have hpos := h.proper record front hform
  have hlen := hinside.length_le
  rw [List.drop_length,List.length_nil] at hlen
  omega

end Walks

end Nightshade.Foundation
