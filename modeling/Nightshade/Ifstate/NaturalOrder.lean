import Mathlib
import Nightshade.Foundation.Decimal

/-! The order of interface names. Runs of digits count as numbers, all else by character; the walk over two
names is a comparison of what the names are as lists of numbers. -/
namespace Nightshade.Ifstate
open Foundation Foundation.Decimal

/-- A run of digits without leading zeros, and what is behind it. -/
def takeDigits (chars : List Char) : List Char × List Char :=
  let trimmed := (chars.takeWhile Char.isDigit).dropWhile (· = '0')
  (if trimmed = [] then ['0'] else trimmed,chars.dropWhile Char.isDigit)

lemma takeDigits_shorter {c : Char} {chars : List Char} (h : c.isDigit = true) :
    (takeDigits (c::chars)).2.length < (c::chars).length := by
  rw [takeDigits,List.dropWhile_cons_of_pos h,List.length_cons]
  exact Nat.lt_succ_of_le (List.dropWhile_sublist _).length_le

/-- The walk over two names: chunk by chunk where both have digits, else character by character. -/
def naturalWalk : List Char → List Char → Ordering
  | [], [] => .eq
  | [], _::_ => .lt
  | _::_, [] => .gt
  | l::left, r::right =>
    if _h : l.isDigit = true ∧ r.isDigit = true then
      let x := takeDigits (l::left)
      let y := takeDigits (r::right)
      let ordering := (compare x.1.length y.1.length).then (compare x.1 y.1)
      if ordering ≠ .eq then ordering else naturalWalk x.2 y.2
    else if l ≠ r then compare l r
    else naturalWalk left right
termination_by left => left.length
decreasing_by
  · exact takeDigits_shorter _h.1
  · exact Nat.lt_succ_self _

/-- Order two interface names the way a person counts. -/
def naturalCmp (a b : String) : Ordering := naturalWalk a.toList b.toList

/-- Sort interface names; the sort is stable. -/
def sortNames (names : List String) : List String := names.mergeSort (fun a b => (naturalCmp a b).isLE)

/-! ### Names as lists of numbers -/

/-- What a name is in the order: its characters by number, and each run of digits as the number of `0` and
its value. -/
def key : List Char → List ℕ
  | [] => []
  | c::rest =>
    if c.isDigit then 48::value ((c::rest).takeWhile Char.isDigit)::key (rest.dropWhile Char.isDigit)
    else c.toNat::key rest
termination_by chars => chars.length
decreasing_by
  · exact Nat.lt_succ_of_le (List.dropWhile_sublist _).length_le
  · exact Nat.lt_succ_self _

variable {c d : Char} {s t p : List Char}

lemma key_digit (h : c.isDigit = true) :
    key (c::s) = 48::value ((c::s).takeWhile Char.isDigit)::key ((c::s).dropWhile Char.isDigit) := by
  rw [key,if_pos h,List.dropWhile_cons_of_pos h]

lemma key_other (h : c.isDigit = false) : key (c::s) = c.toNat::key s := by
  rw [key,if_neg (by simp [h])]

lemma trimmed_zero : Trimmed ['0'] := ⟨by simp,by simp,fun _ => rfl⟩

/-- What is taken of a run counts what the run counts. -/
lemma trimmed_takeDigits (s : List Char) : Trimmed (takeDigits s).1 := by
  have hdigits : ∀ c ∈ (s.takeWhile Char.isDigit).dropWhile (· = '0'), c.isDigit = true :=
    fun c hc => List.mem_takeWhile_imp ((List.dropWhile_sublist _).mem hc)
  rw [takeDigits]
  split_ifs with hnil
  · exact trimmed_zero
  · refine ⟨hdigits,hnil,fun hlead => ?_⟩
    have hhead := List.head?_dropWhile_not (fun c : Char => decide (c = '0')) (s.takeWhile Char.isDigit)
    rw [hlead] at hhead
    simp at hhead

lemma value_takeDigits (s : List Char) : value (takeDigits s).1 = value (s.takeWhile Char.isDigit) := by
  rw [takeDigits]
  split_ifs with hnil
  · rw [← value_dropZeros (s.takeWhile Char.isDigit),hnil]
    rfl
  · exact value_dropZeros _

/-- Digits are apart from all other characters, whichever they are. -/
lemma compare_digit_other (hc : c.isDigit = true) (hd : d.isDigit = false) : compare c d = compare 48 d.toNat := by
  have hrange := digit_range hc
  have hout : d.toNat < 48 ∨ 57 < d.toNat := by
    by_contra hin
    have hdigit : d.isDigit = true := by
      simp only [Char.isDigit,Bool.and_eq_true,decide_eq_true_eq]
      exact ⟨by change 48 ≤ d.toNat; omega,by change d.toNat ≤ 57; omega⟩
    rw [hdigit] at hd
    cases hd
  rw [compare_char]
  obtain h | h := hout
  · rw [Nat.compare_eq_gt.mpr (by omega),Nat.compare_eq_gt.mpr h]
  · rw [Nat.compare_eq_lt.mpr (by omega),Nat.compare_eq_lt.mpr (by omega)]

lemma compare_other_digit (hc : c.isDigit = false) (hd : d.isDigit = true) : compare c d = compare c.toNat 48 := by
  rw [Std.OrientedOrd.eq_swap,compare_digit_other hd hc,← Std.OrientedOrd.eq_swap]

lemma compare_ne_eq (h : c ≠ d) : compare c d ≠ .eq :=
  fun heq => h (Std.LawfulEqOrd.eq_of_compare heq)

lemma then_of_ne {o : Ordering} (h : o ≠ .eq) (q : Ordering) : o.then q = o := by
  cases o with
  | eq => exact absurd rfl h
  | lt => rfl
  | gt => rfl

/-- Two runs of digits compare as the numbers. -/
lemma compare_takeDigits (s t : List Char) :
    (compare (takeDigits s).1.length (takeDigits t).1.length).then (compare (takeDigits s).1 (takeDigits t).1) =
      compare (value (s.takeWhile Char.isDigit)) (value (t.takeWhile Char.isDigit)) := by
  rw [(trimmed_takeDigits s).compare_eq (trimmed_takeDigits t),value_takeDigits,value_takeDigits]

/-- The walk compares the names as lists of numbers. -/
theorem naturalWalk_eq (a b : List Char) : naturalWalk a b = compare (key a) (key b) := by
  induction a, b using naturalWalk.induct with
  | case1 => rw [naturalWalk,key]; rfl
  | case2 r right =>
    rw [naturalWalk,key]
    by_cases hr : r.isDigit = true
    · rw [key_digit hr]; rfl
    · rw [key_other (by simpa using hr)]; rfl
  | case3 l left =>
    rw [naturalWalk]
    by_cases hl : l.isDigit = true
    · rw [key_digit hl,key]; rfl
    · rw [key_other (by simpa using hl),key]; rfl
  | case4 l left r right h x y ordering hne =>
    have hordering := compare_takeDigits (l::left) (r::right)
    rw [naturalWalk,dif_pos h,key_digit h.1,key_digit h.2,List.compare_cons_cons,List.compare_cons_cons]
    dsimp only
    rw [if_pos hne,hordering,then_of_ne (fun heq => hne (hordering.trans heq))]
    rfl
  | case5 l left r right h x y ordering heq ih =>
    have hordering := compare_takeDigits (l::left) (r::right)
    have hsame : compare (value ((l::left).takeWhile Char.isDigit)) (value ((r::right).takeWhile Char.isDigit)) = .eq :=
      hordering.symm.trans (not_not.mp heq)
    rw [naturalWalk,dif_pos h,key_digit h.1,key_digit h.2,List.compare_cons_cons,List.compare_cons_cons,hsame]
    dsimp only
    rw [if_neg heq]
    exact ih
  | case6 l left r right h hne =>
    rw [naturalWalk,dif_neg h,if_pos hne]
    have hcompare := compare_ne_eq hne
    by_cases hl : l.isDigit = true
    · have hr : r.isDigit = false := by
        cases hr : r.isDigit with
        | false => rfl
        | true => exact absurd ⟨hl,hr⟩ h
      rw [compare_digit_other hl hr] at hcompare ⊢
      rw [key_digit hl,key_other hr,List.compare_cons_cons,then_of_ne hcompare]
    · have hl : l.isDigit = false := by simpa using hl
      by_cases hr : r.isDigit = true
      · rw [compare_other_digit hl hr] at hcompare ⊢
        rw [key_other hl,key_digit hr,List.compare_cons_cons,then_of_ne hcompare]
      · have hr : r.isDigit = false := by simpa using hr
        rw [compare_char] at hcompare ⊢
        rw [key_other hl,key_other hr,List.compare_cons_cons,then_of_ne hcompare]
  | case7 l left r right h heq ih =>
    have heq : l = r := not_not.mp heq
    have hr : r.isDigit = false := by
      cases hr : r.isDigit with
      | false => rfl
      | true => exact absurd ⟨heq ▸ hr,hr⟩ h
    rw [naturalWalk,dif_neg h,if_neg (not_not.mpr heq),key_other (heq ▸ hr),key_other hr,heq,List.compare_cons_cons,
      Nat.compare_eq_eq.mpr rfl]
    exact ih

/-! ### A total preorder that counts -/

/-- A run of digits that neither begins before nor ends behind its place. -/
structure Run (p d s : List Char) : Prop where
  digits : ∀ c ∈ d, c.isDigit = true
  nonempty : d ≠ []
  before : ∀ c ∈ p.getLast?, c.isDigit = false
  behind : ∀ c ∈ s.head?, c.isDigit = false

lemma takeWhile_run (hd : ∀ c ∈ t, c.isDigit = true) (hs : ∀ c ∈ s.head?, c.isDigit = false) :
    (t ++ s).takeWhile Char.isDigit = t ∧ (t ++ s).dropWhile Char.isDigit = s := by
  induction t with
  | nil =>
    cases s with
    | nil => exact ⟨rfl,rfl⟩
    | cons c s =>
      have hc := hs c rfl
      rw [List.nil_append,List.takeWhile_cons_of_neg (by simp [hc]),List.dropWhile_cons_of_neg (by simp [hc])]
      exact ⟨rfl,rfl⟩
  | cons c t ih =>
    have hc := hd c List.mem_cons_self
    obtain ⟨htake,hdrop⟩ := ih (fun e he => hd e (List.mem_cons_of_mem _ he))
    rw [List.cons_append,List.takeWhile_cons_of_pos hc,List.dropWhile_cons_of_pos hc,htake,hdrop]
    exact ⟨rfl,rfl⟩

/-- No run goes over a place that has no digit before it. -/
theorem key_append (p s : List Char) (h : ∀ c ∈ p.getLast?, c.isDigit = false) : key (p ++ s) = key p ++ key s := by
  induction p using key.induct with
  | case1 => rw [List.nil_append,key,List.nil_append]
  | case2 c rest hc ih =>
    obtain ⟨last,hlast⟩ : ∃ last, (c::rest).getLast? = some last := ⟨_,List.getLast?_cons⟩
    have hlastdigit := h last hlast
    have hstops : ∃ x ∈ c::rest, ¬x.isDigit = true :=
      ⟨last,List.mem_of_getLast? hlast,by rw [hlastdigit]; decide⟩
    have hdropne : (c::rest).dropWhile Char.isDigit ≠ [] := by
      intro hnil
      rw [List.dropWhile_eq_nil_iff] at hnil
      obtain ⟨x,hx,hdigit⟩ := hstops
      exact hdigit (hnil x hx)
    have htakene : ((c::rest).takeWhile Char.isDigit).length ≠ (c::rest).length := by
      intro hlen
      have hall : (c::rest).takeWhile Char.isDigit = c::rest := (List.takeWhile_prefix _).eq_of_length hlen
      obtain ⟨x,hx,hdigit⟩ := hstops
      rw [← hall] at hx
      exact hdigit (List.mem_takeWhile_imp hx)
    have hend : ∀ e ∈ (rest.dropWhile Char.isDigit).getLast?, e.isDigit = false := by
      intro e he
      obtain ⟨front,hfront⟩ := List.dropWhile_suffix Char.isDigit (l := rest)
      refine h e ?_
      rw [Option.mem_def,List.getLast?_cons,← hfront,List.getLast?_append,Option.mem_def.mp he]
      rfl
    rw [List.cons_append,key_digit hc,key_digit hc,← List.cons_append,List.takeWhile_append,if_neg htakene,
      List.dropWhile_append,if_neg (by simpa using hdropne),List.dropWhile_cons_of_pos hc,ih hend]
    rfl
  | case3 c rest hc ih =>
    have hend : ∀ e ∈ rest.getLast?, e.isDigit = false := by
      intro e he
      refine h e ?_
      rw [Option.mem_def,List.getLast?_cons,Option.mem_def.mp he]
      rfl
    rw [List.cons_append,key_other (by simpa using hc),key_other (by simpa using hc),ih hend]
    rfl

lemma compare_append (k x y : List ℕ) : compare (k ++ x) (k ++ y) = compare x y := by
  induction k with
  | nil => rfl
  | cons n k ih =>
    rw [List.cons_append,List.cons_append,List.compare_cons_cons,Nat.compare_eq_eq.mpr rfl]
    exact ih

lemma key_run {d : List Char} (h : Run p d s) : key (p ++ d ++ s) = key p ++ 48::value d::key s := by
  obtain ⟨htake,hdrop⟩ := takeWhile_run h.digits h.behind
  obtain ⟨c,rest,rfl⟩ := List.exists_cons_of_ne_nil h.nonempty
  rw [List.append_assoc,key_append p _ h.before]
  rw [List.cons_append] at htake hdrop ⊢
  rw [key_digit (h.digits c List.mem_cons_self),htake,hdrop]

/-- Names that differ in one run of digits are in the order of the numbers there. -/
theorem naturalCmp_run {d e : List Char} (hd : Run p d s) (he : Run p e s) :
    naturalCmp (String.ofList (p ++ d ++ s)) (String.ofList (p ++ e ++ s)) = compare (value d) (value e) := by
  rw [naturalCmp,String.toList_ofList,String.toList_ofList,naturalWalk_eq,key_run hd,key_run he,compare_append,
    List.compare_cons_cons,List.compare_cons_cons,Nat.compare_eq_eq.mpr rfl,Std.ReflOrd.compare_self]
  cases compare (value d) (value e) <;> rfl

/-- The order of names is reflexive, gives the reversed answer the other way, is transitive, for equality
too, and counts the runs of digits. -/
theorem naturalCmp_counts :
    (∀ a, naturalCmp a a = .eq) ∧
    (∀ a b, naturalCmp a b = (naturalCmp b a).swap) ∧
    (∀ a b c, (naturalCmp a b).isLE → (naturalCmp b c).isLE → (naturalCmp a c).isLE) ∧
    (∀ a b c, naturalCmp a b = .eq → naturalCmp b c = .eq → naturalCmp a c = .eq) ∧
    ∀ p d e s, Run p d s → Run p e s →
      naturalCmp (String.ofList (p ++ d ++ s)) (String.ofList (p ++ e ++ s)) = compare (value d) (value e) := by
  refine ⟨fun a => ?_,fun a b => ?_,fun a b c hab hbc => ?_,fun a b c hab hbc => ?_,
    fun p d e s hd he => naturalCmp_run hd he⟩
  · rw [naturalCmp,naturalWalk_eq]
    exact Std.ReflOrd.compare_self
  · rw [naturalCmp,naturalCmp,naturalWalk_eq,naturalWalk_eq]
    exact Std.OrientedOrd.eq_swap
  · rw [naturalCmp,naturalWalk_eq] at hab hbc ⊢
    exact Std.TransOrd.isLE_trans hab hbc
  · rw [naturalCmp,naturalWalk_eq] at hab hbc ⊢
    rw [Std.LawfulEqOrd.eq_of_compare hab,Std.LawfulEqOrd.eq_of_compare hbc]
    exact Std.ReflOrd.compare_self

lemma run_eth {d : List Char} (h : d.all Char.isDigit = true) (hne : d ≠ []) : Run "eth".toList d ".7".toList :=
  ⟨List.all_eq_true.mp h,hne,fun c hc => by cases hc; rfl,fun c hc => by cases hc; rfl⟩

/-- Leading zeros count for nothing, however many there are, and ten comes after nine. -/
theorem naturalCmp_eth : naturalCmp "eth0007.7" "eth7.7" = .eq ∧ naturalCmp "eth9.7" "eth10.7" = .lt :=
  ⟨naturalCmp_counts.2.2.2.2 "eth".toList "0007".toList "7".toList ".7".toList (run_eth (by decide) (by decide))
      (run_eth (by decide) (by decide)),
    naturalCmp_counts.2.2.2.2 "eth".toList "9".toList "10".toList ".7".toList (run_eth (by decide) (by decide))
      (run_eth (by decide) (by decide))⟩

/-- Sorted names are the names, each no greater than those behind it. -/
theorem sortNames_sorted (names : List String) :
    (sortNames names).Perm names ∧ (sortNames names).Pairwise (fun a b => (naturalCmp a b).isLE) := by
  refine ⟨List.mergeSort_perm _ _,List.pairwise_mergeSort (fun a b c hab hbc => ?_) (fun a b => ?_) names⟩
  · rw [naturalCmp,naturalWalk_eq] at hab hbc ⊢
    exact Std.TransOrd.isLE_trans hab hbc
  · rw [naturalCmp,naturalCmp,naturalWalk_eq,naturalWalk_eq,
      Std.OrientedOrd.eq_swap (a := key b.toList) (b := key a.toList)]
    cases compare (key a.toList) (key b.toList) <;> rfl

end Nightshade.Ifstate
