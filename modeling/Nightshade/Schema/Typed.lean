import Mathlib
import Nightshade.Schema.Path
import Nightshade.Schema.LexLemmas

/-! Paths as they are typed. A displayed path is read back by the tokeniser that reads typed ones. -/
namespace Nightshade.Schema

inductive PathError where
  | lex (e : LexError)
  | brace (pos : Pos) (ch : Char)
  | comment (pos : Pos)
  deriving DecidableEq

def PathError.message : PathError → String
  | .lex e => e.message
  | .brace pos ch => pos.display ++ ": `" ++ ch.toString ++ "` is not allowed in a path"
  | .comment pos => pos.display ++ ": comments are not allowed in a path"

namespace Path

/-- The values of a run of tokens, up to the first that is none. -/
def segments : List Spanned → Except PathError Path
  | [] => .ok []
  | ⟨token,pos⟩::tokens =>
    match token with
    | .value v => (segments tokens).map (v::·)
    | .openBrace => .error (.brace pos '{')
    | .closeBrace => .error (.brace pos '}')
    | .comment _ => .error (.comment pos)

/-- Read a typed path. The tokeniser is asked for one token after the other, so its error is met only
behind the tokens before it. -/
def parse (s : String) : Except PathError Path :=
  let r := lex s
  match segments r.1, r.2 with
  | .error e, _ => .error e
  | .ok _, some e => .error (.lex e)
  | .ok path, none => .ok path

/-- What is displayed, as characters. -/
lemma toList_display (path : Path) : path.display.toList = [' '].intercalate (path.map quote) := by
  rw [display,String.toList_ofList]

lemma display_cons (segment : String) {path : Path} (h : path ≠ []) :
    (display (segment::path)).toList = quote segment ++ ' '::path.display.toList := by
  cases path with
  | nil => exact absurd rfl h
  | cons other path =>
    rw [toList_display,toList_display]
    simp [List.intercalate]

lemma display_singleton (segment : String) : (display [segment]).toList = quote segment := by
  rw [toList_display]
  simp [List.intercalate]

end Path

namespace Lexer

lemma span_all {p : Char → Bool} {text : List Char} (h : ∀ c ∈ text, p c) (pos : Pos) :
    span p text pos = (text,⟨[],pos.after text⟩) := by
  induction text generalizing pos with
  | nil => rfl
  | cons c text ih =>
    rw [span,if_pos (h c List.mem_cons_self),ih (fun e he => h e (List.mem_cons_of_mem _ he))]
    rfl

/-- A value without quotes also ends where the text does. -/
lemma reads_bare_end {s : List Char} (h : isBare s) (pos : Pos) :
    Reads ⟨s,pos⟩ [⟨.value (String.ofList s),pos⟩] ⟨[],pos.after s⟩ := by
  cases s with
  | nil => cases h
  | cons c s =>
    have hc : isBareChar c := bare_of_mem h List.mem_cons_self
    have hspan := span_all (fun e he => bare_of_mem h he) pos
    have hhead : s.head? ≠ some '*' := by
      cases s with
      | nil => simp
      | cons e s =>
        have he : isBareChar e := bare_of_mem h (by simp)
        simpa using bare_ne he (by decide)
    apply Reads.token
    rw [nextToken,skipWhitespace_eq (bare_not_whitespace hc)]
    dsimp only
    rw [if_neg (fun hk => hhead hk.2),if_neg (bare_ne hc (by decide)),if_neg (bare_ne hc (by decide)),
      if_neg (bare_ne hc (by decide)),if_neg (bare_ne hc (by decide)),if_pos hc,word]
    rw [hspan]

/-- A written value is read back at the end of the text too. -/
theorem reads_quote_end (s : String) (pos : Pos) :
    Reads ⟨quote s,pos⟩ [⟨.value s,pos⟩] ⟨[],pos.after (quote s)⟩ := by
  unfold quote
  split_ifs with h
  · simpa using reads_bare_end h pos
  · have hlen := length_le_escaped s.toList
    have hfuel : s.toList.length < (s.toList.flatMap escaped ++ ['"']).length := by
      rw [List.length_append,List.length_singleton]
      omega
    have hbody := stringBody_written pos s.toList hfuel [] (pos.bump '"')
    apply Reads.token
    rw [List.cons_append,nextToken,skipWhitespace_eq (by decide)]
    simp only [hbody]
    simp [Except.map]

/-- A displayed path is read as its segments. -/
theorem reads_display (path : Path) (pos : Pos) :
    ∃ ts pos', ts.map Spanned.token = path.map Token.value ∧
      Reads ⟨path.display.toList,pos⟩ ts ⟨[],pos'⟩ := by
  induction path generalizing pos with
  | nil => exact ⟨[],pos,rfl,fun n => by simp [Path.display,List.intercalate]⟩
  | cons segment path ih =>
    by_cases h : path = []
    · subst h
      refine ⟨[⟨.value segment,pos⟩],pos.after (quote segment),rfl,?_⟩
      rw [Path.display_singleton]
      exact reads_quote_end segment pos
    · obtain ⟨ts,pos',hts,hreads⟩ := ih ((pos.after (quote segment)).bump ' ')
      have hfirst := reads_quote segment (d := ' ') (by decide) (by decide) (Path.display path).toList pos
      have hblank := reads_blank (c := ' ') (by decide) (Path.display path).toList (pos.after (quote segment))
      refine ⟨⟨.value segment,pos⟩::ts,pos',by rw [List.map_cons,hts,List.map_cons],?_⟩
      rw [Path.display_cons segment h]
      exact (hfirst.trans hblank).trans hreads

end Lexer

namespace Path

lemma segments_values {ts : List Spanned} {path : Path} (h : ts.map Spanned.token = path.map Token.value) :
    segments ts = .ok path := by
  induction ts generalizing path with
  | nil =>
    rw [List.map_nil,eq_comm,List.map_eq_nil_iff] at h
    rw [h,segments]
  | cons t ts ih =>
    cases path with
    | nil => simp at h
    | cons segment path =>
      rw [List.map_cons,List.map_cons,List.cons.injEq] at h
      obtain ⟨token,pos⟩ := t
      obtain ⟨rfl,hts⟩ := h
      rw [segments,ih hts]
      rfl

/-- A displayed path is read back as the path. -/
theorem parse_display (path : Path) : parse path.display = .ok path := by
  obtain ⟨ts,pos,hts,hreads⟩ := Lexer.reads_display path Pos.start
  rw [parse,Lexer.lex_of_reads hreads]
  simp only [segments_values hts]

end Path
end Nightshade.Schema
