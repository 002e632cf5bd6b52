import Mathlib

/-! Numbers as bytes, in either order. -/
namespace Nightshade.Foundation

/-- The number that bytes spell, the least first. -/
def ofLe : List UInt8 → ℕ
  | [] => 0
  | b::bytes => b.toNat + 256 * ofLe bytes

/-- A number in so many bytes, the least first; what does not fit is cut off. -/
def toLe : ℕ → ℕ → List UInt8
  | 0, _ => []
  | size+1, n => UInt8.ofNat n::toLe size (n/256)

@[simp] theorem length_toLe (size n : ℕ) : (toLe size n).length = size := by
  induction size generalizing n with
  | zero => rfl
  | succ size ih => rw [toLe,List.length_cons,ih]

theorem ofLe_lt (bytes : List UInt8) : ofLe bytes < 256^bytes.length := by
  induction bytes with
  | nil => decide
  | cons b bytes ih =>
    have hb := b.toNat_lt
    rw [ofLe,List.length_cons,pow_succ]
    omega

theorem ofLe_toLe {size n : ℕ} (h : n < 256^size) : ofLe (toLe size n) = n := by
  induction size generalizing n with
  | zero =>
    rw [pow_zero] at h
    obtain rfl : n = 0 := by omega
    rfl
  | succ size ih =>
    have hdiv : n/256 < 256^size := Nat.div_lt_of_lt_mul (by rw [pow_succ] at h; omega)
    rw [toLe,ofLe,ih hdiv,UInt8.toNat_ofNat']
    omega

theorem toLe_ofLe (bytes : List UInt8) : toLe bytes.length (ofLe bytes) = bytes := by
  induction bytes with
  | nil => rfl
  | cons b bytes ih =>
    have hb := b.toNat_lt
    have hlow : UInt8.ofNat (b.toNat + 256 * ofLe bytes) = b := by
      apply UInt8.toNat_inj.mp
      rw [UInt8.toNat_ofNat']
      omega
    have hhigh : (b.toNat + 256 * ofLe bytes)/256 = ofLe bytes := by omega
    rw [List.length_cons,ofLe,toLe,hlow,hhigh,ih]

/-- The order in which a machine or a protocol writes the bytes of a number. -/
inductive ByteOrder where
  | little
  | big
  deriving DecidableEq

namespace ByteOrder

/-- `from_be_bytes` and its like. -/
def decode : ByteOrder → List UInt8 → ℕ
  | little, bytes => ofLe bytes
  | big, bytes => ofLe bytes.reverse

/-- `to_be_bytes` and its like. -/
def encode : ByteOrder → ℕ → ℕ → List UInt8
  | little, size, n => toLe size n
  | big, size, n => (toLe size n).reverse

variable (order : ByteOrder)

@[simp] theorem length_encode (size n : ℕ) : (order.encode size n).length = size := by
  cases order <;> simp [encode]

theorem decode_encode {size n : ℕ} (h : n < 256^size) : order.decode (order.encode size n) = n := by
  cases order with
  | little => exact ofLe_toLe h
  | big => rw [decode,encode,List.reverse_reverse,ofLe_toLe h]

theorem encode_decode (bytes : List UInt8) : order.encode bytes.length (order.decode bytes) = bytes := by
  cases order with
  | little => exact toLe_ofLe bytes
  | big =>
    rw [encode,decode,← List.length_reverse,toLe_ofLe,List.reverse_reverse]

theorem decode_lt (bytes : List UInt8) : order.decode bytes < 256^bytes.length := by
  cases order with
  | little => exact ofLe_lt bytes
  | big => simpa [decode] using ofLe_lt bytes.reverse

end ByteOrder
end Nightshade.Foundation
