import Mathlib

/-! Text from bytes that may not be UTF-8. Each run of bytes that begins a character and does not end it
becomes one replacement character, as does each byte that begins none. -/
namespace Nightshade.Foundation.Utf8

def REPLACEMENT : Char := Char.ofNat 0xFFFD

/-- What a first byte above 127 says: how many bytes follow it, its own share of the character, and the bounds
of the byte behind it, which shut out the overlong, the surrogates and what is past the last character. -/
def follows (b : UInt8) : Option (ℕ × ℕ × UInt8 × UInt8) :=
  if 0xC2 ≤ b ∧ b ≤ 0xDF then some (1,b.toNat - 0xC0,0x80,0xBF)
  else if b = 0xE0 then some (2,0,0xA0,0xBF)
  else if b = 0xED then some (2,13,0x80,0x9F)
  else if 0xE1 ≤ b ∧ b ≤ 0xEF then some (2,b.toNat - 0xE0,0x80,0xBF)
  else if b = 0xF0 then some (3,0,0x90,0xBF)
  else if 0xF1 ≤ b ∧ b ≤ 0xF3 then some (3,b.toNat - 0xF0,0x80,0xBF)
  else if b = 0xF4 then some (3,4,0x80,0x8F)
  else none

/-- The rest of a character of so many more bytes. -/
def continued : (count value : ℕ) → (low high : UInt8) → List UInt8 → Char × List UInt8
  | 0, value, _, _, bytes => (Char.ofNat value,bytes)
  | _+1, _, _, _, [] => (REPLACEMENT,[])
  | count+1, value, low, high, b::bytes =>
    if low ≤ b ∧ b ≤ high then continued count (value*64 + (b.toNat - 0x80)) 0x80 0xBF bytes
    else (REPLACEMENT,b::bytes)

/-- The character that begins with a byte, and what is behind it. -/
def readChar (b : UInt8) (bytes : List UInt8) : Char × List UInt8 :=
  if b < 0x80 then (Char.ofNat b.toNat,bytes)
  else
    match follows b with
    | none => (REPLACEMENT,bytes)
    | some (count,value,low,high) => continued count value low high bytes

/-- The characters of bytes, of which each takes at least one. -/
def chars : ℕ → List UInt8 → List Char
  | 0, _ => []
  | _+1, [] => []
  | fuel+1, b::bytes =>
    let r := readChar b bytes
    r.1::chars fuel r.2

/-- `String::from_utf8_lossy`. -/
def lossy (bytes : List UInt8) : String := String.ofList (chars bytes.length bytes)

/-- Only no bytes at all are no text. -/
theorem lossy_eq_empty {bytes : List UInt8} : lossy bytes = "" ↔ bytes = [] := by
  unfold lossy
  cases bytes with
  | nil => simp [chars]
  | cons b bytes => simp [chars]

example : lossy [0x65,0x74,0xC3,0xA9,0xE2,0x82,0x30,0xFF] = "eté\uFFFD0\uFFFD" := by decide +kernel

end Nightshade.Foundation.Utf8
