import Mathlib
import Nightshade.Schema.Lex

/-! What the tokeniser makes of text that was written for it: a quoted value comes back, a
comment line comes back, and blanks between tokens do not matter. `Reads` says so for a stretch
of text whatever follows it. -/
namespace Nightshade.Schema
namespace Lexer

/-! ### Every token takes a character -/

@[simp] theorem span_fst (p : Char → Bool) (text : List Char) (pos : Pos) :
    (span p text pos).1 = text.takeWhile p := by
  induction text generalizing pos with
  | nil => rfl
  | cons c text ih =>
    rw [span,List.takeWhile_cons]
    split_ifs with h
    · simp [ih]
    · rfl

@[simp] theorem span_rest (p : Char → Bool) (text : List Char) (pos : Pos) :
    (span p text pos).2.rest = text.dropWhile p := by
  induction text generalizing pos with
  | nil => rfl
  | cons c text ih =>
    rw [span,List.dropWhile_cons]
    split_ifs with h
    · exact ih _
    · rfl

@[simp] theorem span_pos (p : Char → Bool) (text : List Char) (pos : Pos) :
    (span p text pos).2.pos = pos.after (text.takeWhile p) := by
  induction text generalizing pos with
  | nil => rfl
  | cons c text ih =>
    rw [span,List.takeWhile_cons]
    split_ifs with h
    · exact ih _
    · rfl

lemma map_eq_ok {E A B : Type} {f : A → B} {x : Except E A} {b : B} (h : x.map f = .ok b) :
    ∃ a, x = .ok a ∧ f a = b := by
  cases x with
  | error e => cases h
  | ok a => exact ⟨a,rfl,Except.ok.inj h⟩

lemma hexEscape_shorter {backslash : Pos} {lexer : Lexer} {r : Char × Lexer}
    (h : hexEscape backslash lexer = .ok r) : r.2.rest.length < lexer.rest.length := by
  unfold hexEscape at h
  split at h
  · next hrest =>
    split at h
    · split_ifs at h
      cases h
      simp [hrest]
    · cases h
  · cases h

lemma escape_shorter {backslash : Pos} {lexer : Lexer} {r : Char × Lexer}
    (h : escape backslash lexer = .ok r) : r.2.rest.length < lexer.rest.length := by
  unfold escape at h
  split at h
  · cases h
  · next c rest hrest =>
    rw [hrest,List.length_cons]
    dsimp only at h
    split_ifs at h
    all_goals first
      | (cases h; exact Nat.lt_succ_self _)
      | exact Nat.lt_succ_of_lt (hexEscape_shorter h)

lemma stringBody_shorter {opened : Pos} {n : ℕ} {lexer : Lexer} {r : List Char × Lexer}
    (h : stringBody opened n lexer = .ok r) : r.2.rest.length < lexer.rest.length := by
  induction n generalizing lexer r with
  | zero => cases h
  | succ n ih =>
    rw [stringBody] at h
    split at h
    · cases h
    · next c rest hrest =>
      rw [hrest,List.length_cons]
      dsimp only at h
      split_ifs at h
      · cases h
        exact Nat.lt_succ_self _
      · split at h
        · cases h
        · next e lexer' he =>
          obtain ⟨s,hs,rfl⟩ := map_eq_ok h
          have hlt := escape_shorter he
          exact Nat.lt_succ_of_lt ((ih hs).trans hlt)
      · obtain ⟨s,hs,rfl⟩ := map_eq_ok h
        exact Nat.lt_succ_of_lt (ih hs)

lemma commentBody_shorter {text : List Char} {pos : Pos} {r : List Char × Lexer}
    (h : commentBody text pos = some r) : r.2.rest.length < text.length := by
  induction text generalizing pos r with
  | nil => cases h
  | cons c text ih =>
    cases text with
    | nil => cases h
    | cons d rest =>
      rw [commentBody] at h
      split_ifs at h
      · cases h
        exact Nat.lt_succ_of_lt (Nat.lt_succ_self _)
      · obtain ⟨s,hs,rfl⟩ := Option.map_eq_some_iff.mp h
        have hlt := ih hs
        exact Nat.lt_succ_of_lt hlt

lemma blockComment_shorter {opened : Pos} {lexer : Lexer} {r : Spanned × Lexer}
    (h : blockComment opened lexer = .ok r) : r.2.rest.length < lexer.rest.length := by
  unfold blockComment at h
  split at h
  · next c d rest hrest =>
    split at h
    · next raw lexer' hbody =>
      cases h
      rw [hrest]
      exact Nat.lt_succ_of_lt (Nat.lt_succ_of_lt (commentBody_shorter hbody))
    · cases h
  · cases h

lemma dropWhile_length_le (p : Char → Bool) (text : List Char) :
    (text.dropWhile p).length ≤ text.length := (List.dropWhile_suffix p).length_le

lemma skipWhitespace_length (lexer : Lexer) : lexer.skipWhitespace.rest.length ≤ lexer.rest.length := by
  rw [skipWhitespace,span_rest]
  exact dropWhile_length_le _ _

lemma nextToken_shorter {lexer lexer' : Lexer} {t : Spanned}
    (h : nextToken lexer = .ok (some (t,lexer'))) : lexer'.rest.length < lexer.rest.length := by
  refine lt_of_lt_of_le ?_ (skipWhitespace_length lexer)
  unfold nextToken at h
  dsimp only at h
  split at h
  · cases h
  · next c rest hrest =>
    split_ifs at h with h1 h2 h3 h4 h5 h6
    · obtain ⟨r,hr,he⟩ := map_eq_ok h
      cases he
      exact blockComment_shorter hr
    · cases h
      simp [hrest]
    · cases h
      simp [hrest]
    · cases h
      simp only [lineComment,span_rest,hrest,List.length_cons]
      exact Nat.lt_succ_of_le (dropWhile_length_le _ _)
    · obtain ⟨r,hr,he⟩ := map_eq_ok h
      cases he
      rw [hrest]
      exact Nat.lt_succ_of_lt (stringBody_shorter hr)
    · cases h
      simp only [word,span_rest,hrest,List.length_cons,List.dropWhile_cons,h6,if_true]
      exact Nat.lt_succ_of_le (dropWhile_length_le _ _)

lemma nextToken_nil {lexer : Lexer} (h : lexer.rest = []) : nextToken lexer = .ok none := by
  have hs : lexer.skipWhitespace.rest = [] := by rw [skipWhitespace,span_rest,h]; rfl
  unfold nextToken
  dsimp only
  rw [hs]

/-- Once the fuel covers the text, more of it changes nothing. -/
theorem tokens_fuel {m n : ℕ} {lexer : Lexer} (hm : lexer.rest.length ≤ m)
    (hn : lexer.rest.length ≤ n) : tokens m lexer = tokens n lexer := by
  induction m generalizing n lexer with
  | zero =>
    cases n with
    | zero => rfl
    | succ n => rw [tokens,tokens,nextToken_nil (List.eq_nil_of_length_eq_zero (Nat.le_zero.mp hm))]
  | succ m ih =>
    cases n with
    | zero => rw [tokens,tokens,nextToken_nil (List.eq_nil_of_length_eq_zero (Nat.le_zero.mp hn))]
    | succ n =>
      rw [tokens,tokens]
      split
      · rfl
      · rfl
      · next t lexer' ht =>
        have hlt := nextToken_shorter ht
        dsimp only
        rw [ih (by omega : lexer'.rest.length ≤ m) (by omega : lexer'.rest.length ≤ n)]

/-! ### Characters -/

lemma bare_range {c : Char} (h : isBareChar c) : 37 ≤ c.toNat ∧ c.toNat ≤ 122 := by
  simp only [isBareChar,Char.isAlphanum,Char.isAlpha,Char.isUpper,Char.isLower,Char.isDigit,
    Bool.or_eq_true,Bool.and_eq_true,decide_eq_true_eq,ge_iff_le,UInt32.le_iff_toNat_le] at h
  rcases h with ((((((((h | h) | h) | h) | h) | h) | h) | h) | h) | h
  all_goals first
    | (subst h; decide)
    | (simp at h; omega)

lemma bare_not_whitespace {c : Char} (h : isBareChar c) : isWhitespace c = false := by
  have hr := bare_range h
  simp only [isWhitespace,Bool.or_eq_false_iff,Bool.and_eq_false_iff,decide_eq_false_iff_not]
  omega

lemma bare_ne {c d : Char} (h : isBareChar c) (hd : isBareChar d = false) : c ≠ d := by
  rintro rfl
  rw [h] at hd
  cases hd

lemma bare_of_mem {s : List Char} (h : isBare s) {c : Char} (hc : c ∈ s) : isBareChar c := by
  rw [isBare,Bool.and_eq_true] at h
  exact List.all_eq_true.mp h.2 c hc

lemma toDigit_hexDigit {n : ℕ} (h : n < 16) : toDigit (hexDigit n) = some n := by
  interval_cases n <;> decide

lemma hexDigit_ne_newline {n : ℕ} (h : n < 16) : hexDigit n ≠ '\n' := by
  interval_cases n <;> decide

lemma newline_not_mem_escaped (c : Char) : '\n' ∉ escaped c := by
  unfold escaped
  split_ifs with h1 h2 h3 h4 h5 h6
  · decide
  · decide
  · decide
  · decide
  · decide
  · have hlt : c.toNat < 128 := by simp at h6; omega
    have hhi := hexDigit_ne_newline (show c.toNat/16 < 16 by omega)
    have hlo := hexDigit_ne_newline (show c.toNat%16 < 16 by omega)
    simp [hhi.symm,hlo.symm]
  · simpa [eq_comm] using h3

lemma newline_not_mem_quote (s : String) : '\n' ∉ quote s := by
  unfold quote
  split_ifs with h
  · intro hm
    exact absurd (bare_of_mem h hm) (by decide)
  · simp only [List.mem_append,List.mem_cons,List.mem_flatMap,List.not_mem_nil,or_false,not_or]
    refine ⟨⟨by decide,?_⟩,by decide⟩
    rintro ⟨c,-,hc⟩
    exact newline_not_mem_escaped c hc

/-! ### Reading what was written -/

/-- From one place in the text to a later one, exactly these tokens are read. -/
def Reads (lexer : Lexer) (ts : List Spanned) (lexer' : Lexer) : Prop :=
  ∀ n, tokens (ts.length+n) lexer = (ts ++ (tokens n lexer').1,(tokens n lexer').2)

lemma Reads.trans {a b c : Lexer} {ts us : List Spanned} (h : Reads a ts b) (k : Reads b us c) :
    Reads a (ts ++ us) c := by
  intro n
  rw [List.length_append,Nat.add_assoc,h,k,List.append_assoc]

lemma Reads.token {lexer lexer' : Lexer} {t : Spanned}
    (h : nextToken lexer = .ok (some (t,lexer'))) : Reads lexer [t] lexer' := by
  intro n
  rw [List.length_singleton,Nat.add_comm,tokens,h]
  rfl

lemma reads_blank {c : Char} (h : isWhitespace c) (rest : List Char) (pos : Pos) :
    Reads ⟨c::rest,pos⟩ [] ⟨rest,pos.bump c⟩ := by
  have hskip : skipWhitespace ⟨c::rest,pos⟩ = skipWhitespace ⟨rest,pos.bump c⟩ := by
    rw [skipWhitespace,span,if_pos h,skipWhitespace]
  intro n
  rw [List.length_nil,Nat.zero_add,List.nil_append]
  cases n with
  | zero => rfl
  | succ n => rw [tokens,tokens,nextToken,nextToken,hskip]

lemma reads_blanks {blanks : List Char} (h : ∀ c ∈ blanks, isWhitespace c) (rest : List Char)
    (pos : Pos) : Reads ⟨blanks ++ rest,pos⟩ [] ⟨rest,pos.after blanks⟩ := by
  induction blanks generalizing pos with
  | nil => intro n; simp
  | cons c blanks ih =>
    exact (reads_blank (h c List.mem_cons_self) _ pos).trans
      (ih (fun d hd => h d (List.mem_cons_of_mem _ hd)) _)

lemma skipWhitespace_eq {c : Char} (h : isWhitespace c = false) (rest : List Char) (pos : Pos) :
    skipWhitespace ⟨c::rest,pos⟩ = ⟨c::rest,pos⟩ := by
  simp [skipWhitespace,span,h]

lemma reads_open (rest : List Char) (pos : Pos) :
    Reads ⟨'{'::rest,pos⟩ [⟨.openBrace,pos⟩] ⟨rest,pos.bump '{'⟩ := by
  apply Reads.token
  rw [nextToken,skipWhitespace_eq (by decide)]
  rfl

lemma reads_close (rest : List Char) (pos : Pos) :
    Reads ⟨'}'::rest,pos⟩ [⟨.closeBrace,pos⟩] ⟨rest,pos.bump '}'⟩ := by
  apply Reads.token
  rw [nextToken,skipWhitespace_eq (by decide)]
  rfl

lemma span_append {p : Char → Bool} {text : List Char} (h : ∀ c ∈ text, p c) {d : Char}
    (hd : p d = false) (rest : List Char) (pos : Pos) :
    span p (text ++ d::rest) pos = (text,⟨d::rest,pos.after text⟩) := by
  induction text generalizing pos with
  | nil => simp [span,hd]
  | cons c text ih =>
    rw [List.cons_append,span,if_pos (h c List.mem_cons_self),
      ih (fun e he => h e (List.mem_cons_of_mem _ he))]
    rfl

/-- A `#` line is one comment: what stands behind the `#`, less one leading space. -/
lemma reads_comment {text : List Char} (h : '\n' ∉ text) (rest : List Char) (pos : Pos) :
    Reads ⟨'#'::text ++ '\n'::rest,pos⟩ [⟨.comment (String.ofList (stripSpace text)),pos⟩]
      ⟨'\n'::rest,pos.after ('#'::text)⟩ := by
  have hspan : span (· ≠ '\n') (text ++ '\n'::rest) (pos.bump '#') =
      (text,⟨'\n'::rest,(pos.bump '#').after text⟩) :=
    span_append (fun c hc => by simpa using fun he : c = '\n' => h (he ▸ hc)) (by decide) rest _
  apply Reads.token
  rw [nextToken,List.cons_append,skipWhitespace_eq (by decide)]
  simp only [lineComment,hspan]
  rfl

/-- A value without quotes ends at the first character that is not bare. -/
lemma reads_bare {s : List Char} (h : isBare s) {d : Char} (hd : isBareChar d = false)
    (hstar : d ≠ '*') (rest : List Char) (pos : Pos) :
    Reads ⟨s ++ d::rest,pos⟩ [⟨.value (String.ofList s),pos⟩] ⟨d::rest,pos.after s⟩ := by
  cases s with
  | nil => cases h
  | cons c s =>
    have hc : isBareChar c := bare_of_mem h List.mem_cons_self
    have hspan := span_append (fun e he => bare_of_mem h he) hd rest pos
    have hhead : (s ++ d::rest).head? ≠ some '*' := by
      cases s with
      | nil => simpa using hstar
      | cons e s =>
        have he : isBareChar e := bare_of_mem h (by simp)
        simpa using bare_ne he (by decide)
    apply Reads.token
    rw [nextToken,List.cons_append,skipWhitespace_eq (bare_not_whitespace hc)]
    dsimp only
    rw [if_neg (fun hk => hhead hk.2),if_neg (bare_ne hc (by decide)),if_neg (bare_ne hc (by decide)),
      if_neg (bare_ne hc (by decide)),if_neg (bare_ne hc (by decide)),if_pos hc,word]
    rw [List.cons_append] at hspan
    rw [hspan]

/-- An escaped character is read back as itself. -/
lemma stringBody_escaped (opened : Pos) (c : Char) (n : ℕ) (rest : List Char) (pos : Pos) :
    stringBody opened (n+1) ⟨escaped c ++ rest,pos⟩ =
      (stringBody opened n ⟨rest,pos.after (escaped c)⟩).map (fun r => (c::r.1,r.2)) := by
  unfold escaped
  split_ifs with h1 h2 h3 h4 h5 h6
  · subst h1; rfl
  · subst h2; rfl
  · subst h3; rfl
  · subst h4; rfl
  · subst h5; rfl
  · have hlt : c.toNat < 128 := by simp at h6; omega
    have hhi := toDigit_hexDigit (show c.toNat/16 < 16 by omega)
    have hlo := toDigit_hexDigit (show c.toNat%16 < 16 by omega)
    have hsum : c.toNat/16*16 + c.toNat%16 = c.toNat := by omega
    have hesc : escape pos ⟨'x'::hexDigit (c.toNat/16)::hexDigit (c.toNat%16)::rest,pos.bump '\\'⟩ =
        .ok (c,⟨rest,(((pos.bump '\\').bump 'x').bump (hexDigit (c.toNat/16))).bump
          (hexDigit (c.toNat%16))⟩) := by
      simp only [escape,hexEscape,hhi,hlo,hsum]
      rw [if_neg (by decide),if_neg (by decide),if_neg (by decide),if_neg (by decide),
        if_neg (by decide),if_pos trivial,if_neg (by omega),Char.ofNat_toNat]
    simp only [List.cons_append,List.nil_append,stringBody]
    rw [if_neg (by decide),if_pos trivial,hesc]
    rfl
  · simp only [List.cons_append,List.nil_append,stringBody]
    rw [if_neg h2,if_neg h1]
    rfl

lemma stringBody_written (opened : Pos) (s : List Char) {n : ℕ} (hn : s.length < n)
    (rest : List Char) (pos : Pos) :
    stringBody opened n ⟨s.flatMap escaped ++ '"'::rest,pos⟩ =
      .ok (s,⟨rest,pos.after (s.flatMap escaped ++ ['"'])⟩) := by
  induction s generalizing n pos with
  | nil =>
    obtain ⟨n,rfl⟩ : ∃ m, n = m+1 := ⟨n-1,by simp at hn; omega⟩
    rfl
  | cons c s ih =>
    obtain ⟨n,rfl⟩ : ∃ m, n = m+1 := ⟨n-1,by simp at hn; omega⟩
    rw [List.flatMap_cons,List.append_assoc,stringBody_escaped,ih (by simpa using hn),
      List.append_assoc,Pos.after_append pos (escaped c)]
    rfl

lemma length_le_escaped (s : List Char) : s.length ≤ (s.flatMap escaped).length := by
  induction s with
  | nil => simp
  | cons c s ih =>
    have hc : 1 ≤ (escaped c).length := by
      unfold escaped
      split_ifs <;> simp
    simp only [List.flatMap_cons,List.length_append,List.length_cons]
    omega

/-- A written value is read back as one token, the value. -/
theorem reads_quote (s : String) {d : Char} (hd : isBareChar d = false) (hstar : d ≠ '*')
    (rest : List Char) (pos : Pos) :
    Reads ⟨quote s ++ d::rest,pos⟩ [⟨.value s,pos⟩] ⟨d::rest,pos.after (quote s)⟩ := by
  unfold quote
  split_ifs with h
  · simpa using reads_bare h hd hstar rest pos
  · have hlen := length_le_escaped s.toList
    have hbody := stringBody_written pos s.toList
      (n := (s.toList.flatMap escaped ++ '"'::d::rest).length)
      (by rw [List.length_append,List.length_cons]; omega) (d::rest) (pos.bump '"')
    apply Reads.token
    simp only [List.cons_append,List.append_assoc,List.nil_append]
    rw [nextToken,skipWhitespace_eq (by decide)]
    simp only [hbody]
    simp [Except.map]

/-- A text read to its end gives these tokens and no error. -/
theorem lex_of_reads {src : String} {ts : List Spanned} {pos : Pos}
    (h : Reads ⟨src.toList,Pos.start⟩ ts ⟨[],pos⟩) : lex src = (ts,none) := by
  have hnil : ∀ n, tokens n ⟨[],pos⟩ = ([],none) := fun n => by
    cases n with
    | zero => rfl
    | succ n => rw [tokens,nextToken_nil rfl]
  have hfuel : lex src = tokens (ts.length+src.toList.length) ⟨src.toList,Pos.start⟩ :=
    tokens_fuel le_rfl (Nat.le_add_left _ _)
  rw [hfuel,h,hnil,List.append_nil]

end Lexer
end Nightshade.Schema
