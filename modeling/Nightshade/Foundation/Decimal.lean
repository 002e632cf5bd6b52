import Mathlib

/-! Decimal numbers as they are written, and how they compare: digit strings of one length as texts, those
without leading zeros by their lengths first. -/
namespace Nightshade.Foundation.Decimal

/-- The number that a string of digits writes. -/
abbrev value (s : List Char) : ℕ := Nat.ofDigitChars 10 s 0

variable {s t : List Char} {c d : Char}

lemma digit_range (h : c.isDigit = true) : 48 ≤ c.toNat ∧ c.toNat ≤ 57 := by
  simp only [Char.isDigit,Bool.and_eq_true,decide_eq_true_eq] at h
  exact ⟨h.1,h.2⟩

lemma value_cons (c : Char) (s : List Char) : value (c::s) = 10^s.length * (c.toNat-48) + value s := by
  rw [value,Nat.ofDigitChars_cons,Nat.ofDigitChars_eq_ofDigitChars_zero,Nat.mul_zero,Nat.zero_add]
  rfl

theorem value_lt (h : ∀ c ∈ s, c.isDigit = true) : value s < 10^s.length := by
  induction s with
  | nil => simp [value]
  | cons c s ih =>
    have hc := digit_range (h c List.mem_cons_self)
    have hs := ih (fun d hd => h d (List.mem_cons_of_mem _ hd))
    have hle : 10^s.length * (c.toNat-48) ≤ 10^s.length * 9 := Nat.mul_le_mul_left _ (by omega)
    rw [value_cons,List.length_cons,Nat.pow_succ]
    omega

/-- A number without leading zeros is as large as its length says. -/
theorem pow_le_value (hc : c.isDigit = true) (hzero : c ≠ '0') : 10^s.length ≤ value (c::s) := by
  have hrange := digit_range hc
  have hne : c.toNat ≠ 48 := fun h => hzero (Char.toNat_inj.mp h)
  have hle : 10^s.length * 1 ≤ 10^s.length * (c.toNat-48) := Nat.mul_le_mul_left _ (by omega)
  rw [value_cons]
  omega

theorem value_dropZeros (s : List Char) : value (s.dropWhile (· = '0')) = value s := by
  induction s with
  | nil => rfl
  | cons c s ih =>
    by_cases h : c = '0'
    · rw [List.dropWhile_cons_of_pos (by simpa using h),ih,value_cons,h]
      simp
    · rw [List.dropWhile_cons_of_neg (by simpa using h)]

lemma compare_char (c d : Char) : compare c d = compare c.toNat d.toNat := by
  rw [Ord.compare,Ord.compare]
  simp only [instOrdChar,instOrdNat,compareOfLessAndEq]
  have hlt : c < d ↔ c.toNat < d.toNat := Iff.rfl
  have heq : c = d ↔ c.toNat = d.toNat := Char.toNat_inj.symm
  simp only [hlt,heq]

/-- A digit in front of a number decides, and the rest if it does not. -/
lemma compare_lead {p x y : ℕ} (hx : x < p) (hy : y < p) (a b : ℕ) :
    compare (p*a+x) (p*b+y) = (compare a b).then (compare x y) := by
  obtain hlt | heq | hgt := Nat.lt_trichotomy a b
  · have hstep : p*(a+1) ≤ p*b := Nat.mul_le_mul_left _ hlt
    rw [Nat.mul_succ] at hstep
    rw [Nat.compare_eq_lt.mpr hlt]
    exact Nat.compare_eq_lt.mpr (by omega)
  · rw [heq,Nat.compare_eq_eq.mpr rfl,Ordering.then]
    obtain h | h | h := Nat.lt_trichotomy x y
    · rw [Nat.compare_eq_lt.mpr h]
      exact Nat.compare_eq_lt.mpr (by omega)
    · rw [h,Nat.compare_eq_eq.mpr rfl,Nat.compare_eq_eq.mpr rfl]
    · rw [Nat.compare_eq_gt.mpr h]
      exact Nat.compare_eq_gt.mpr (by omega)
  · have hstep : p*(b+1) ≤ p*a := Nat.mul_le_mul_left _ hgt
    rw [Nat.mul_succ] at hstep
    rw [Nat.compare_eq_gt.mpr hgt]
    exact Nat.compare_eq_gt.mpr (by omega)

lemma compare_digit (hc : c.isDigit = true) (hd : d.isDigit = true) :
    compare c d = compare (c.toNat-48) (d.toNat-48) := by
  have hc := digit_range hc
  have hd := digit_range hd
  rw [compare_char]
  obtain h | h | h := Nat.lt_trichotomy c.toNat d.toNat
  · rw [Nat.compare_eq_lt.mpr h,Nat.compare_eq_lt.mpr (by omega)]
  · rw [h,Nat.compare_eq_eq.mpr rfl,Nat.compare_eq_eq.mpr rfl]
  · rw [Nat.compare_eq_gt.mpr h,Nat.compare_eq_gt.mpr (by omega)]

/-- Digit strings of one length compare as the numbers do. -/
theorem compare_of_length_eq (hs : ∀ c ∈ s, c.isDigit = true) (ht : ∀ c ∈ t, c.isDigit = true)
    (h : s.length = t.length) : compare s t = compare (value s) (value t) := by
  induction s generalizing t with
  | nil =>
    cases t with
    | nil => rfl
    | cons d t => simp at h
  | cons c s ih =>
    cases t with
    | nil => simp at h
    | cons d t =>
      have hs' := fun e he => hs e (List.mem_cons_of_mem _ he)
      have ht' := fun e he => ht e (List.mem_cons_of_mem _ he)
      have hlen : s.length = t.length := by simpa using h
      have hsv := value_lt hs'
      rw [hlen] at hsv
      rw [List.compare_cons_cons,ih hs' ht' hlen,value_cons,value_cons,hlen,compare_lead hsv (value_lt ht'),
        compare_digit (hs c List.mem_cons_self) (ht d List.mem_cons_self)]

/-- Digits with no zero in front, unless there is nothing else. -/
structure Trimmed (s : List Char) : Prop where
  digits : ∀ c ∈ s, c.isDigit = true
  nonempty : s ≠ []
  lead : s.head? = some '0' → s = ['0']

lemma Trimmed.lt_of_length_lt (hs : Trimmed s) (ht : Trimmed t) (h : s.length < t.length) : value s < value t := by
  have hbound := value_lt hs.digits
  cases t with
  | nil => simp at h
  | cons d t =>
    have hpos : 0 < s.length := List.length_pos_iff.mpr hs.nonempty
    have hzero : d ≠ '0' := by
      rintro rfl
      rw [ht.lead rfl,List.length_singleton] at h
      omega
    have hlow := pow_le_value (s := t) (ht.digits d List.mem_cons_self) hzero
    have hpow : 10^s.length ≤ 10^t.length := Nat.pow_le_pow_right (by omega) (by simpa using Nat.le_of_lt_succ h)
    omega

/-- Length first and then as texts: that is how the numbers compare. -/
theorem Trimmed.compare_eq (hs : Trimmed s) (ht : Trimmed t) :
    (compare s.length t.length).then (compare s t) = compare (value s) (value t) := by
  obtain hlt | heq | hgt := Nat.lt_trichotomy s.length t.length
  · rw [Nat.compare_eq_lt.mpr hlt,Nat.compare_eq_lt.mpr (hs.lt_of_length_lt ht hlt)]
    rfl
  · rw [Nat.compare_eq_eq.mpr heq,Ordering.then]
    exact compare_of_length_eq hs.digits ht.digits heq
  · rw [Nat.compare_eq_gt.mpr hgt,Nat.compare_eq_gt.mpr (ht.lt_of_length_lt hs hgt)]
    rfl

end Nightshade.Foundation.Decimal
