import Mathlib

/-! A stream of bytes that comes in pieces of any sizes, and reads of an exact number of bytes, which do
not depend on the pieces. -/
namespace Nightshade.Foundation

/-- What is still to come, and how much each read gives of it: at most a byte more than the pace says, and
all that is asked for when nothing is said. -/
structure Transport where
  bytes : List UInt8
  pace : List ℕ

namespace Transport

/-- One read. It gives nothing only at the end. -/
def read (want : ℕ) (t : Transport) : List UInt8 × Transport :=
  let size := match t.pace with
    | [] => want
    | n::_ => min want (n+1)
  (t.bytes.take size,⟨t.bytes.drop size,t.pace.tail⟩)

/-- Reads until so many bytes are there, or the stream has ended. Each read gives a byte, so a fuel of the
number of bytes is enough. -/
def fill : (fuel want : ℕ) → Transport → Option (List UInt8) × Transport
  | _, 0, t => (some [],t)
  | 0, _+1, t => (none,t)
  | fuel+1, want+1, t =>
    let r := t.read (want+1)
    if r.1 = [] then (none,r.2)
    else
      let s := fill fuel (want+1-r.1.length) r.2
      (s.1.map (r.1 ++ ·),s.2)

/-- Exactly so many bytes, or nothing if the stream ends before them. -/
def readExact (want : ℕ) (t : Transport) : Option (List UInt8) × Transport := fill want want t

lemma read_eq (want : ℕ) (t : Transport) : ∃ size, size ≤ want+1 ∧ 0 < size ∧
    t.read (want+1) = (t.bytes.take size,⟨t.bytes.drop size,t.pace.tail⟩) := by
  unfold read
  cases t.pace with
  | nil => exact ⟨want+1,le_rfl,by omega,rfl⟩
  | cons n pace => exact ⟨min (want+1) (n+1),by omega,by omega,rfl⟩

lemma fill_eq {fuel want : ℕ} (h : want ≤ fuel) (t : Transport) :
    (fill fuel want t).1 = (if want ≤ t.bytes.length then some (t.bytes.take want) else none) ∧
    (fill fuel want t).2.bytes = t.bytes.drop want := by
  induction fuel generalizing want t with
  | zero =>
    obtain rfl : want = 0 := by omega
    simp [fill]
  | succ fuel ih =>
    cases want with
    | zero => simp [fill]
    | succ want =>
      obtain ⟨size,hsize,hpos,hread⟩ := read_eq want t
      rw [fill,hread]
      dsimp only
      by_cases hend : t.bytes = []
      · simp [hend]
      · have hlen : 0 < t.bytes.length := List.length_pos_iff.mpr hend
        have hgot : t.bytes.take size ≠ [] := by
          rw [← List.length_pos_iff,List.length_take]
          omega
        have hless : want+1-(t.bytes.take size).length ≤ fuel := by
          rw [List.length_take]
          omega
        obtain ⟨hfound,hrest⟩ := ih hless ⟨t.bytes.drop size,t.pace.tail⟩
        rw [if_neg hgot,hfound,hrest]
        rw [List.length_take,List.length_drop]
        by_cases hall : want+1 ≤ t.bytes.length
        · have hsum : size + (want+1-min size t.bytes.length) = want+1 := by omega
          rw [if_pos (by omega),if_pos hall,Option.map_some,← List.take_add,List.drop_drop,hsum]
          exact ⟨rfl,rfl⟩
        · rw [if_neg (by omega),if_neg hall,List.drop_drop]
          refine ⟨rfl,?_⟩
          rw [List.drop_of_length_le (by omega),List.drop_of_length_le (by omega)]

/-- An exact read gives the bytes that come first, however they come. -/
theorem readExact_fst (want : ℕ) (t : Transport) :
    (readExact want t).1 = if want ≤ t.bytes.length then some (t.bytes.take want) else none :=
  (fill_eq le_rfl t).1

theorem readExact_snd (want : ℕ) (t : Transport) : (readExact want t).2.bytes = t.bytes.drop want :=
  (fill_eq le_rfl t).2

/-- Bytes that are all there are read, and the rest stays. -/
theorem readExact_append (front rest : List UInt8) (pace : List ℕ) :
    ∃ pace', readExact front.length ⟨front ++ rest,pace⟩ = (some front,⟨rest,pace'⟩) := by
  have hfst := readExact_fst front.length ⟨front ++ rest,pace⟩
  have hsnd := readExact_snd front.length ⟨front ++ rest,pace⟩
  rw [if_pos (by simp),List.take_left] at hfst
  rw [List.drop_left] at hsnd
  exact ⟨_,Prod.ext hfst (congrArg (fun b => Transport.mk b _) hsnd)⟩

/-- Where too few bytes are left, none are given. -/
theorem readExact_short {want : ℕ} {bytes : List UInt8} (h : bytes.length < want) (pace : List ℕ) :
    ∃ pace', readExact want ⟨bytes,pace⟩ = (none,⟨[],pace'⟩) := by
  have hfst := readExact_fst want ⟨bytes,pace⟩
  have hsnd := readExact_snd want ⟨bytes,pace⟩
  rw [if_neg (by simpa using h)] at hfst
  rw [List.drop_of_length_le h.le] at hsnd
  exact ⟨_,Prod.ext hfst (congrArg (fun b => Transport.mk b _) hsnd)⟩

end Transport
end Nightshade.Foundation
