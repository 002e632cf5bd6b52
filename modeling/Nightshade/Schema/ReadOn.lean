import Mathlib
import Nightshade.Schema.Typed

/-! A text that is read to its end as words, and ends in white space, is read so at the front of any longer one. -/
namespace Nightshade.Schema

/-- Nothing is left open at the end of a text: it is empty, or there is white space. -/
def Separated (text : List Char) : Prop := ∀ c, text.getLast? = some c → isWhitespace c = true

theorem Separated.of_append {s t : List Char} (h : Separated (s ++ t)) : Separated t := by
  intro c hc
  refine h c ?_
  rw [List.getLast?_append,hc]
  rfl

namespace Lexer

lemma hexEscape_append {backslash pos q : Pos} {text rest : List Char} {c : Char}
    (h : hexEscape backslash ⟨text,pos⟩ = .ok (c,⟨rest,q⟩)) (more : List Char) :
    (∃ x, text = x ++ rest ∧ q = pos.after x) ∧
      hexEscape backslash ⟨text ++ more,pos⟩ = .ok (c,⟨rest ++ more,q⟩) := by
  unfold hexEscape at h ⊢
  dsimp only at h ⊢
  match text, h with
  | a::b::text, h =>
    dsimp only [List.cons_append] at h ⊢
    cases hd : toDigit a with
    | none =>
      rw [hd] at h
      cases h
    | some d =>
      cases he : toDigit b with
      | none =>
        rw [hd,he] at h
        cases h
      | some e =>
        rw [hd,he] at h
        dsimp only at h ⊢
        split_ifs at h ⊢ with hrange
        cases h
        exact ⟨⟨[a,b],rfl,rfl⟩,rfl⟩

lemma escape_append {backslash pos q : Pos} {text rest : List Char} {c : Char}
    (h : escape backslash ⟨text,pos⟩ = .ok (c,⟨rest,q⟩)) (more : List Char) :
    (∃ x, text = x ++ rest ∧ q = pos.after x) ∧
      escape backslash ⟨text ++ more,pos⟩ = .ok (c,⟨rest ++ more,q⟩) := by
  cases text with
  | nil => cases h
  | cons d text =>
    unfold escape at h ⊢
    dsimp only [List.cons_append] at h ⊢
    split_ifs at h ⊢
    all_goals first
      | (cases h; exact ⟨⟨[d],rfl,rfl⟩,rfl⟩)
      | skip
    obtain ⟨⟨x,rfl,rfl⟩,hmore⟩ := hexEscape_append h more
    exact ⟨⟨d::x,rfl,rfl⟩,hmore⟩

/-- A quoted string is read alike whatever comes behind it. -/
lemma stringBody_append {opened pos q : Pos} {n : ℕ} {text rest v : List Char}
    (h : stringBody opened n ⟨text,pos⟩ = .ok (v,⟨rest,q⟩)) (more : List Char) :
    (∃ x, text = x ++ rest ∧ q = pos.after x) ∧
      ∀ m, n ≤ m → stringBody opened m ⟨text ++ more,pos⟩ = .ok (v,⟨rest ++ more,q⟩) := by
  induction n generalizing text pos v with
  | zero => cases h
  | succ n ih =>
    cases text with
    | nil => cases h
    | cons c text =>
      rw [stringBody] at h
      dsimp only at h
      have hfuel : ∀ m, n + 1 ≤ m → ∃ k, m = k + 1 ∧ n ≤ k := fun m hm => ⟨m - 1,by omega,by omega⟩
      by_cases hquote : c = '"'
      · rw [if_pos hquote] at h
        cases h
        refine ⟨⟨[c],rfl,rfl⟩,fun m hm => ?_⟩
        obtain ⟨k,rfl,-⟩ := hfuel m hm
        rw [List.cons_append,stringBody]
        exact if_pos hquote
      · rw [if_neg hquote] at h
        by_cases hslash : c = '\\'
        · rw [if_pos hslash] at h
          cases hesc : escape pos ⟨text,pos.bump c⟩ with
          | error e =>
            rw [hesc] at h
            cases h
          | ok r =>
            obtain ⟨e,left,mid⟩ := r
            rw [hesc] at h
            dsimp only at h
            obtain ⟨⟨v',rest',q'⟩,hbody,heq⟩ := map_eq_ok h
            cases heq
            obtain ⟨⟨x,hx,hmid⟩,hmore⟩ := escape_append hesc more
            obtain ⟨⟨y,hy,hq⟩,hbody'⟩ := ih hbody
            refine ⟨⟨c::(x ++ y),by rw [hx,hy]; simp,?_⟩,fun m hm => ?_⟩
            · rw [hq,hmid,← Pos.after_append]
              rfl
            · obtain ⟨k,rfl,hk⟩ := hfuel m hm
              rw [List.cons_append,stringBody]
              dsimp only
              rw [if_neg hquote,if_pos hslash,hmore]
              dsimp only
              rw [hbody' k hk]
              rfl
        · rw [if_neg hslash] at h
          obtain ⟨⟨v',rest',q'⟩,hbody,heq⟩ := map_eq_ok h
          cases heq
          obtain ⟨⟨y,hy,hq⟩,hbody'⟩ := ih hbody
          refine ⟨⟨c::y,by rw [hy]; rfl,by rw [hq]; rfl⟩,fun m hm => ?_⟩
          obtain ⟨k,rfl,hk⟩ := hfuel m hm
          rw [List.cons_append,stringBody]
          dsimp only
          rw [if_neg hquote,if_neg hslash,hbody' k hk]
          rfl

/-- A bare word in front of white space is read alike whatever comes behind it. -/
lemma word_append {text : List Char} (hbare : ∃ c ∈ text, isBareChar c = false) (pos : Pos) (more : List Char) :
    (∃ x, text = x ++ (word ⟨text,pos⟩).2.rest ∧ (word ⟨text,pos⟩).2.pos = pos.after x) ∧
      word ⟨text ++ more,pos⟩ =
        ((word ⟨text,pos⟩).1,⟨(word ⟨text,pos⟩).2.rest ++ more,(word ⟨text,pos⟩).2.pos⟩) := by
  obtain ⟨c,hc,hnot⟩ := hbare
  have hrest : ∃ d rest, text.dropWhile isBareChar = d::rest ∧ isBareChar d = false := by
    cases hdrop : text.dropWhile isBareChar with
    | nil =>
      have hall := List.dropWhile_eq_nil_iff.mp hdrop c hc
      rw [hnot] at hall
      cases hall
    | cons d rest =>
      have hstop := List.head?_dropWhile_not isBareChar text
      rw [hdrop] at hstop
      exact ⟨d,rest,rfl,hstop⟩
  obtain ⟨d,rest,hdrop,hd⟩ := hrest
  have hsplit : text = text.takeWhile isBareChar ++ d::rest := by rw [← hdrop,List.takeWhile_append_dropWhile]
  have hword : ∀ more, word ⟨text ++ more,pos⟩ =
      (text.takeWhile isBareChar,⟨d::rest ++ more,pos.after (text.takeWhile isBareChar)⟩) := by
    intro more
    rw [word]
    dsimp only
    conv_lhs => rw [hsplit]
    rw [List.append_assoc]
    exact span_append (fun e he => List.mem_takeWhile_imp he) hd _ _
  have hhere := hword []
  rw [List.append_nil,List.append_nil] at hhere
  rw [hhere]
  exact ⟨⟨_,hsplit,rfl⟩,hword more⟩

/-- The first character behind the white space. -/
lemma exists_first (text : List Char) : (∀ c ∈ text, isWhitespace c = true) ∨
    ∃ blanks c rest, text = blanks ++ c::rest ∧ (∀ d ∈ blanks, isWhitespace d = true) ∧ isWhitespace c = false := by
  cases hdrop : text.dropWhile isWhitespace with
  | nil => exact .inl (List.dropWhile_eq_nil_iff.mp hdrop)
  | cons c rest =>
    have hstop := List.head?_dropWhile_not isWhitespace text
    rw [hdrop] at hstop
    refine .inr ⟨text.takeWhile isWhitespace,c,rest,?_,fun d hd => List.mem_takeWhile_imp hd,hstop⟩
    rw [← hdrop,List.takeWhile_append_dropWhile]

lemma skipWhitespace_append {blanks : List Char} (h : ∀ d ∈ blanks, isWhitespace d = true) {c : Char}
    (hc : isWhitespace c = false) (rest : List Char) (pos : Pos) :
    skipWhitespace ⟨blanks ++ c::rest,pos⟩ = ⟨c::rest,pos.after blanks⟩ :=
  congrArg Prod.snd (span_append h hc rest pos)

lemma nextToken_blank {text : List Char} (h : ∀ c ∈ text, isWhitespace c = true) (pos : Pos) :
    nextToken ⟨text,pos⟩ = .ok none := by
  have hskip : (skipWhitespace ⟨text,pos⟩).rest = [] := by
    rw [skipWhitespace,span_rest]
    exact List.dropWhile_eq_nil_iff.mpr h
  unfold nextToken
  dsimp only
  rw [hskip]

lemma blank_of_nextToken {text : List Char} {pos : Pos} (h : nextToken ⟨text,pos⟩ = .ok none) :
    ∀ c ∈ text, isWhitespace c = true := by
  obtain hblank | ⟨blanks,c,tail,rfl,hblanks,hc⟩ := exists_first text
  · exact hblank
  · exfalso
    unfold nextToken at h
    rw [skipWhitespace_append hblanks hc] at h
    dsimp only at h
    split_ifs at h
    all_goals first
      | cases h
      | (obtain ⟨r,-,heq⟩ := map_eq_ok h; cases heq)

lemma blockComment_token {opened : Pos} {lexer : Lexer} {r : Spanned × Lexer} (h : blockComment opened lexer = .ok r) :
    ∃ text, r.1.token = .comment text := by
  unfold blockComment at h
  split at h
  · split at h
    · cases h
      exact ⟨_,rfl⟩
    · cases h
  · cases h

/-- A word of a text that ends in white space is read alike whatever comes behind the text. -/
lemma nextToken_append {text rest : List Char} {pos at_ q : Pos} {v : String} (hsep : Separated text)
    (h : nextToken ⟨text,pos⟩ = .ok (some (⟨.value v,at_⟩,⟨rest,q⟩))) (more : List Char) :
    (∃ x, text = x ++ rest ∧ q = pos.after x) ∧
      nextToken ⟨text ++ more,pos⟩ = .ok (some (⟨.value v,at_⟩,⟨rest ++ more,q⟩)) := by
  obtain hblank | ⟨blanks,c,tail,rfl,hblanks,hc⟩ := exists_first text
  · rw [nextToken_blank hblank] at h
    cases h
  have hend : ∃ d, tail.getLast? = some d ∧ isWhitespace d = true := by
    cases htail : tail.getLast? with
    | none =>
      rw [List.getLast?_eq_none_iff.mp htail] at hsep
      have hlast := hsep.of_append c rfl
      rw [hc] at hlast
      cases hlast
    | some d => exact ⟨d,rfl,hsep d (by simp [List.getLast?_append,List.getLast?_cons,htail])⟩
  obtain ⟨d,hlast,hd⟩ := hend
  have hhead : (tail ++ more).head? = tail.head? := by
    cases tail with
    | nil => cases hlast
    | cons e tail => rfl
  rw [List.append_assoc,List.cons_append]
  unfold nextToken at h ⊢
  rw [skipWhitespace_append hblanks hc] at h
  rw [skipWhitespace_append hblanks hc]
  dsimp only at h ⊢
  rw [hhead]
  -- what the word is wrapped in: the blanks before it
  have hwrap : ∀ x rest, (∃ y, tail = y ++ rest ∧ x = ((pos.after blanks).bump c).after y) →
      ∃ y, blanks ++ c::tail = y ++ rest ∧ x = pos.after y := by
    rintro x rest ⟨y,rfl,rfl⟩
    exact ⟨blanks ++ c::y,by simp,by rw [Pos.after_append]; rfl⟩
  split_ifs at h ⊢ with h1 h2 h3 h4 h5 h6
  · obtain ⟨r,hr,heq⟩ := map_eq_ok h
    obtain ⟨text,htoken⟩ := blockComment_token hr
    cases heq
    cases htoken
  · cases h
  · cases h
  · cases h
  · obtain ⟨⟨v',rest',q'⟩,hbody,heq⟩ := map_eq_ok h
    cases heq
    obtain ⟨hx,hmore⟩ := stringBody_append hbody more
    refine ⟨hwrap _ _ hx,?_⟩
    rw [hmore _ (by simp)]
    rfl
  · have hbare : ∃ e ∈ c::tail, isBareChar e = false := by
      refine ⟨d,List.mem_cons_of_mem _ (List.mem_of_getLast? hlast),?_⟩
      by_contra hbare
      rw [bare_not_whitespace (by simpa using hbare)] at hd
      cases hd
    obtain ⟨⟨x,hx,hq⟩,hmore⟩ := word_append hbare (pos.after blanks) more
    generalize word ⟨c::tail,pos.after blanks⟩ = w at h hx hq hmore
    obtain ⟨w,rest',q'⟩ := w
    cases h
    dsimp only at hx hq hmore
    refine ⟨⟨blanks ++ x,?_,?_⟩,?_⟩
    · rw [List.append_assoc,← hx]
    · rw [hq,Pos.after_append]
    · rw [List.cons_append] at hmore
      rw [hmore]

/-- What is read of a text that ends in white space is read at the front of any longer text. -/
theorem reads_on {n : ℕ} {text : List Char} {pos : Pos} {ts : List Spanned} (hsep : Separated text)
    (hn : text.length ≤ n) (hread : tokens n ⟨text,pos⟩ = (ts,none)) (hvalues : ∀ t ∈ ts, ∃ v, t.token = .value v)
    (more : List Char) : Reads ⟨text ++ more,pos⟩ ts ⟨more,pos.after text⟩ := by
  induction n generalizing text pos ts with
  | zero =>
    obtain rfl := List.eq_nil_of_length_eq_zero (Nat.le_zero.mp hn)
    cases hread
    exact reads_blanks (fun c hc => absurd hc List.not_mem_nil) more pos
  | succ n ih =>
    rw [tokens] at hread
    split at hread
    · cases hread
    · next hnone =>
      cases hread
      exact reads_blanks (blank_of_nextToken hnone) more pos
    · next t lexer ht =>
      obtain ⟨rfl,hrest⟩ := Prod.mk.inj hread
      obtain ⟨token,at_⟩ := t
      obtain ⟨v,hv⟩ := hvalues _ List.mem_cons_self
      obtain rfl : token = .value v := hv
      obtain ⟨rest,q⟩ := lexer
      obtain ⟨⟨x,rfl,rfl⟩,hmore⟩ := nextToken_append hsep ht more
      have hshort := nextToken_shorter ht
      dsimp only at hshort
      rw [Pos.after_append]
      exact (Reads.token hmore).trans (ih hsep.of_append (by omega) (Prod.ext rfl hrest)
        (fun t ht => hvalues t (List.mem_cons_of_mem _ ht)))

/-! ### What is read as itself -/

lemma stringBody_length {opened : Pos} {n : ℕ} {lexer lexer' : Lexer} {v : List Char}
    (h : stringBody opened n lexer = .ok (v,lexer')) : v.length < lexer.rest.length := by
  induction n generalizing lexer v with
  | zero => cases h
  | succ n ih =>
    rw [stringBody] at h
    split at h
    · cases h
    · next c rest hrest =>
      rw [hrest,List.length_cons]
      dsimp only at h
      split_ifs at h
      · cases h
        exact Nat.succ_pos _
      · split at h
        · cases h
        · next e mid hesc =>
          obtain ⟨⟨v',left⟩,hbody,heq⟩ := map_eq_ok h
          cases heq
          have hlt := ih hbody
          have hshort : mid.rest.length < rest.length := escape_shorter hesc
          show v'.length + 1 < rest.length + 1
          omega
      · obtain ⟨⟨v',left⟩,hbody,heq⟩ := map_eq_ok h
        cases heq
        have hlt : v'.length < rest.length := ih hbody
        show v'.length + 1 < rest.length + 1
        omega

/-- Only a bare text is read as itself: of any other something goes into quotes or blanks. -/
theorem bare_of_nextToken {text : List Char} {pos at_ : Pos} {lexer : Lexer}
    (h : nextToken ⟨text,pos⟩ = .ok (some (⟨.value (String.ofList text),at_⟩,lexer))) : isBare text = true := by
  obtain hblank | ⟨blanks,c,tail,rfl,hblanks,hc⟩ := exists_first text
  · rw [nextToken_blank hblank] at h
    cases h
  unfold nextToken at h
  rw [skipWhitespace_append hblanks hc] at h
  dsimp only at h
  have hvalue : ∀ v : List Char, String.ofList v = String.ofList (blanks ++ c::tail) → v = blanks ++ c::tail :=
    fun v hv => String.ofList_injective hv
  split_ifs at h with h1 h2 h3 h4 h5 h6
  · obtain ⟨r,hr,heq⟩ := map_eq_ok h
    obtain ⟨text,htoken⟩ := blockComment_token hr
    cases heq
    cases htoken
  · cases h
  · cases h
  · cases h
  · obtain ⟨⟨v,left⟩,hbody,heq⟩ := map_eq_ok h
    have hlt : v.length < tail.length := stringBody_length hbody
    simp only [Option.some.injEq,Prod.mk.injEq,Spanned.mk.injEq,Token.value.injEq] at heq
    have hlength := congrArg List.length (hvalue v heq.1.1)
    rw [List.length_append,List.length_cons] at hlength
    omega
  · simp only [Except.ok.injEq,Option.some.injEq,Prod.mk.injEq,Spanned.mk.injEq,Token.value.injEq,word,span_fst] at h
    have hword := hvalue _ h.1.1
    have hlength : ((c::tail).takeWhile isBareChar).length ≤ (c::tail).length := (List.takeWhile_prefix _).length_le
    rw [hword,List.length_append] at hlength
    obtain rfl := List.eq_nil_of_length_eq_zero (show blanks.length = 0 by omega)
    rw [List.nil_append] at hword ⊢
    rw [isBare,List.isEmpty_cons,Bool.not_false,Bool.true_and]
    exact List.all_eq_true.mpr (List.takeWhile_eq_self_iff.mp hword)

end Lexer

namespace Path

theorem segments_eq_ok_iff {ts : List Spanned} {path : Path} :
    segments ts = .ok path ↔ ts.map Spanned.token = path.map Token.value := by
  refine ⟨fun h => ?_,segments_values⟩
  induction ts generalizing path with
  | nil =>
    cases h
    rfl
  | cons t ts ih =>
    obtain ⟨token,pos⟩ := t
    cases token with
    | value v =>
      obtain ⟨path',hpath,rfl⟩ := Lexer.map_eq_ok h
      rw [List.map_cons,List.map_cons,ih hpath]
    | openBrace => cases h
    | closeBrace => cases h
    | comment text => cases h

theorem parse_eq_ok_iff {src : String} {path : Path} :
    parse src = .ok path ↔ (lex src).2 = none ∧ (lex src).1.map Spanned.token = path.map Token.value := by
  rw [← segments_eq_ok_iff]
  unfold parse
  dsimp only
  generalize lex src = r
  obtain ⟨ts,e⟩ := r
  cases hseg : segments ts with
  | error e' => simp
  | ok path' =>
    cases e with
    | none => simp
    | some e => simp

variable {front : List Char} {path : Path}

/-- What is typed so far is read in any line that goes on from there. -/
theorem reads_typed (hsep : Separated front) (h : parse (String.ofList front) = .ok path) (more : List Char) :
    Lexer.Reads ⟨front ++ more,Pos.start⟩ (lex (String.ofList front)).1 ⟨more,Pos.start.after front⟩ := by
  obtain ⟨hnone,hvalues⟩ := parse_eq_ok_iff.mp h
  have hlex : Lexer.tokens front.length ⟨front,Pos.start⟩ = ((lex (String.ofList front)).1,none) := by
    rw [← hnone,lex,String.toList_ofList]
  refine Lexer.reads_on hsep le_rfl hlex (fun t ht => ?_) more
  have hmem : t.token ∈ path.map Token.value := hvalues ▸ List.mem_map_of_mem ht
  obtain ⟨v,-,hv⟩ := List.mem_map.mp hmem
  exact ⟨v,hv.symm⟩

/-- A text typed behind finished words is one more segment, and that text, just when it needs no quotes. -/
theorem parse_append_iff (hsep : Separated front) (h : parse (String.ofList front) = .ok path) (value : String) :
    parse (String.ofList (front ++ value.toList)) = .ok (path ++ [value]) ↔ isBare value.toList = true := by
  have hreads := reads_typed hsep h value.toList
  have hpath := (parse_eq_ok_iff.mp h).2
  constructor
  · intro happend
    obtain ⟨hnone,hvalues⟩ := parse_eq_ok_iff.mp happend
    have hfuel : Lexer.tokens (front ++ value.toList).length ⟨front ++ value.toList,Pos.start⟩ =
        Lexer.tokens ((lex (String.ofList front)).1.length + (front ++ value.toList).length)
          ⟨front ++ value.toList,Pos.start⟩ :=
      Lexer.tokens_fuel le_rfl (Nat.le_add_left _ _)
    rw [lex,String.toList_ofList,hfuel,hreads,List.map_append,hpath,List.map_append] at hvalues
    have hlast := List.append_cancel_left hvalues
    cases hn : (front ++ value.toList).length with
    | zero =>
      rw [hn] at hlast
      cases hlast
    | succ n =>
      rw [hn,Lexer.tokens] at hlast
      split at hlast
      · cases hlast
      · cases hlast
      · next t lexer hnext =>
        obtain ⟨token,at_⟩ := t
        obtain rfl : token = .value value := (List.cons.inj hlast).1
        have hself : String.ofList value.toList = value := String.ofList_toList
        exact Lexer.bare_of_nextToken (by rw [hself]; exact hnext)
  · intro hbare
    have hone := Lexer.reads_bare_end hbare (Pos.start.after front)
    have hall := hreads.trans hone
    have hlex : lex (String.ofList (front ++ value.toList)) =
        ((lex (String.ofList front)).1 ++ [⟨.value value,Pos.start.after front⟩],none) := by
      rw [String.ofList_toList] at hall
      rw [← String.toList_ofList (l := front ++ value.toList)] at hall
      exact Lexer.lex_of_reads hall
    rw [parse_eq_ok_iff,hlex,List.map_append,hpath,List.map_append]
    exact ⟨rfl,rfl⟩

end Path
end Nightshade.Schema
