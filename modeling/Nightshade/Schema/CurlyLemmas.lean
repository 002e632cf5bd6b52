import Mathlib
import Nightshade.Schema.Curly

/-! The parser without its fuel: `parseFrom` gives it a step for every token, which is enough,
and has one equation for each thing a step can come to. -/
namespace Nightshade.Schema
namespace CurlyParser

lemma run_length (line : ℕ) (toks : List Spanned) : (run line toks).2.length ≤ toks.length := by
  fun_induction run line toks with
  | case1 v pos toks h r ih => exact Nat.le_succ_of_le ih
  | case2 => exact le_rfl
  | case3 => exact le_rfl

lemma opens_length {line : ℕ} {toks : List Spanned} {r : Pos × List Spanned}
    (h : opens line toks = some r) : r.2.length ≤ toks.length := by
  unfold opens at h
  split at h
  · split_ifs at h
    cases h
    exact Nat.le_succ _
  · cases h

/-- How many tokens are left behind a step; a failure counts as none. -/
def Step.left : Step → ℕ
  | .stop (.ok r) => r.2.length
  | .stop (.error _) => 0
  | .next _ toks => toks.length
  | .enter _ _ _ toks => toks.length

@[simp] lemma left_atEnd (stop : Option LexError) (opened : Option Pos) (tree : ConfigTree) :
    (Step.stop (atEnd stop opened tree)).left = 0 := by
  cases stop <;> cases opened <;> rfl

lemma statement_left (path : Path) (s : State) (pos : Pos) (values : List String)
    (toks : List Spanned) : (statement path s pos values toks).left ≤ toks.length := by
  unfold statement
  split
  · next hopens =>
    have hlen := opens_length hopens
    split
    · exact Nat.zero_le _
    · exact hlen
  · split
    · exact Nat.zero_le _
    · exact le_rfl

/-- Every step takes a token. -/
lemma step_left (stop : Option LexError) (path : Path) (opened : Option Pos) (s : State)
    (t : Spanned) (toks : List Spanned) : (step stop path opened s (t::toks)).left ≤ toks.length := by
  obtain ⟨v | _ | _ | text,pos⟩ := t
  · rw [step]
    split_ifs
    · rw [left_atEnd]
      exact Nat.zero_le _
    · exact (statement_left ..).trans (run_length _ _)
  · exact Nat.zero_le _
  · cases opened
    · exact Nat.zero_le _
    · exact le_rfl
  · exact le_rfl

lemma atEnd_length {stop : Option LexError} {opened : Option Pos} {tree : ConfigTree}
    {r : ConfigTree × List Spanned} (h : atEnd stop opened tree = .ok r) (n : ℕ) :
    r.2.length ≤ n := by
  have hleft := left_atEnd stop opened tree
  rw [h] at hleft
  exact hleft.le.trans (Nat.zero_le n)

/-- A body gives back no more tokens than it was given. -/
lemma body_length {stop : Option LexError} {n depth : ℕ} {path : Path} {opened : Option Pos}
    {s : State} {toks : List Spanned} {r : ConfigTree × List Spanned}
    (h : body stop n path depth opened s toks = .ok r) : r.2.length ≤ toks.length := by
  induction n generalizing path depth opened s toks r with
  | zero => exact atEnd_length h _
  | succ n ih =>
    cases toks with
    | nil => exact atEnd_length h _
    | cons t toks =>
      have hleft := step_left stop path opened s t toks
      refine le_trans ?_ (Nat.le_succ _)
      rw [body] at h
      cases hstep : step stop path opened s (t::toks) with
      | stop result =>
        rw [hstep] at h hleft
        cases h
        exact hleft
      | next s' rest =>
        rw [hstep] at h hleft
        exact (ih h).trans hleft
      | enter brace inner tree rest =>
        rw [hstep] at h hleft
        dsimp only at h
        split_ifs at h with hdepth
        split at h
        · cases h
        · next tree' rest' hinner =>
          exact (ih h).trans ((ih hinner).trans hleft)

/-- Once there is a step for every token, more fuel changes nothing. -/
theorem body_fuel {stop : Option LexError} {m n depth : ℕ} {path : Path} {opened : Option Pos}
    {s : State} {toks : List Spanned} (hm : toks.length ≤ m) (hn : toks.length ≤ n) :
    body stop m path depth opened s toks = body stop n path depth opened s toks := by
  have hzero : ∀ {k path depth opened} {s : State} {toks : List Spanned}, toks.length ≤ 0 →
      body stop k path depth opened s toks = atEnd stop opened s.tree := by
    intro k path depth opened s toks h
    rw [List.eq_nil_of_length_eq_zero (Nat.le_zero.mp h)]
    cases k <;> rfl
  induction m generalizing n path depth opened s toks with
  | zero => rw [hzero hm,hzero hm]
  | succ m ih =>
    cases n with
    | zero => rw [hzero hn,hzero hn]
    | succ n =>
      cases toks with
      | nil => rfl
      | cons t toks =>
        have hleft := step_left stop path opened s t toks
        have hm : toks.length ≤ m := Nat.le_of_succ_le_succ hm
        have hn : toks.length ≤ n := Nat.le_of_succ_le_succ hn
        rw [body,body]
        cases hstep : step stop path opened s (t::toks) with
        | stop result => rfl
        | next s' rest =>
          rw [hstep] at hleft
          exact ih (hleft.trans hm) (hleft.trans hn)
        | enter brace inner tree rest =>
          rw [hstep] at hleft
          dsimp only
          rw [ih (hleft.trans hm) (hleft.trans hn)]
          split_ifs
          · rfl
          · split
            · rfl
            · next tree' rest' hinner =>
              have hlen := (body_length hinner).trans hleft
              exact ih (hlen.trans hm) (hlen.trans hn)

/-- The parser of a body, with a step for every token. -/
def parseFrom (stop : Option LexError) (path : Path) (depth : ℕ) (opened : Option Pos) (s : State)
    (toks : List Spanned) : Except ParseError (ConfigTree × List Spanned) :=
  body stop toks.length path depth opened s toks

variable {stop : Option LexError} {path inner : Path} {depth : ℕ} {opened : Option Pos}
  {s s' : State} {toks rest : List Spanned}

lemma parseFrom_nil : parseFrom stop path depth opened s [] = atEnd stop opened s.tree := rfl

theorem parseFrom_stop {result : Except ParseError (ConfigTree × List Spanned)}
    (h : step stop path opened s toks = .stop result) :
    parseFrom stop path depth opened s toks = result := by
  cases toks with
  | nil => cases h; rfl
  | cons t toks => rw [parseFrom,List.length_cons,body,h]

theorem parseFrom_next (h : step stop path opened s toks = .next s' rest) :
    parseFrom stop path depth opened s toks = parseFrom stop path depth opened s' rest := by
  cases toks with
  | nil => cases h
  | cons t toks =>
    have hleft := step_left stop path opened s t toks
    rw [h] at hleft
    rw [parseFrom,List.length_cons,body,h]
    exact body_fuel hleft le_rfl

theorem parseFrom_enter {brace : Pos} {tree tree' : ConfigTree} {left : List Spanned}
    (h : step stop path opened s toks = .enter brace inner tree rest)
    (hdepth : depth+1 ≤ maxDepth)
    (hinner : parseFrom stop inner (depth+1) (some brace) ⟨tree,none,none⟩ rest = .ok (tree',left)) :
    parseFrom stop path depth opened s toks =
      parseFrom stop path depth opened ⟨tree',none,none⟩ left := by
  cases toks with
  | nil => cases h
  | cons t toks =>
    have hleft := step_left stop path opened s t toks
    rw [h] at hleft
    rw [parseFrom,List.length_cons,body,h]
    dsimp only
    have hfuel : body stop toks.length inner (depth+1) (some brace) ⟨tree,none,none⟩ rest =
        body stop rest.length inner (depth+1) (some brace) ⟨tree,none,none⟩ rest :=
      body_fuel hleft le_rfl
    rw [if_neg (not_lt.mpr hdepth),hfuel]
    rw [parseFrom] at hinner
    rw [hinner]
    exact body_fuel ((body_length hinner).trans hleft) le_rfl

/-- A block that is too deep, or whose body fails, is as far as the parser comes. -/
theorem parseFrom_enter_error {brace : Pos} {tree : ConfigTree}
    (h : step stop path opened s toks = .enter brace inner tree rest)
    (hinner : depth+1 ≤ maxDepth →
      ∃ e, parseFrom stop inner (depth+1) (some brace) ⟨tree,none,none⟩ rest = .error e) :
    ∃ e, parseFrom stop path depth opened s toks = .error e := by
  cases toks with
  | nil => cases h
  | cons t toks =>
    have hleft := step_left stop path opened s t toks
    rw [h] at hleft
    rw [parseFrom,List.length_cons,body,h]
    dsimp only
    split_ifs with hdeep
    · exact ⟨_,rfl⟩
    · obtain ⟨e,he⟩ := hinner (not_lt.mp hdeep)
      have hfuel : body stop toks.length inner (depth+1) (some brace) ⟨tree,none,none⟩ rest =
          body stop rest.length inner (depth+1) (some brace) ⟨tree,none,none⟩ rest :=
        body_fuel hleft le_rfl
      rw [parseFrom] at he
      rw [hfuel,he]
      exact ⟨e,rfl⟩

end CurlyParser
end Nightshade.Schema
