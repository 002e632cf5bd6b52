import Mathlib
import Nightshade.Installer.Words
import Nightshade.Installer.Parsed

/-! A hash with a character that is displayed by number stops the lexer, which has no such escape. -/
namespace Nightshade.Installer
open Schema Lexer CurlyParser

/-! ### A text that stops the lexer -/

/-- Whatever was read before, the lexer stops in an error. -/
def Stuck (lexer : Lexer) : Prop := ∀ n, lexer.rest.length ≤ n → (tokens n lexer).2.isSome

theorem stuck_of_reads {a b : Lexer} {ts : List Spanned} (h : Reads a ts b) (hb : Stuck b) : Stuck a := by
  intro n hn
  have hfuel : tokens n a = tokens (ts.length+(n+b.rest.length)) a := tokens_fuel hn (by omega)
  rw [hfuel,h]
  exact hb _ (by omega)

/-- The escape that the installer writes and the lexer does not know. -/
theorem stringBody_stuck (opened : Pos) (s rest : List Char) (n : ℕ) (pos : Pos) :
    ∃ e, stringBody opened n ⟨s.flatMap escaped ++ '\\':: 'u'::rest,pos⟩ = .error e := by
  induction s generalizing n pos with
  | nil =>
    cases n with
    | zero => exact ⟨_,rfl⟩
    | succ n => exact ⟨_,rfl⟩
  | cons c s ih =>
    cases n with
    | zero => exact ⟨_,rfl⟩
    | succ n =>
      obtain ⟨e,he⟩ := ih n (pos.after (escaped c))
      rw [List.flatMap_cons,List.append_assoc,stringBody_escaped,he]
      exact ⟨e,rfl⟩

theorem stuck_string (s rest : List Char) (pos : Pos) : Stuck ⟨'"'::(s.flatMap escaped ++ '\\':: 'u'::rest),pos⟩ := by
  intro n hn
  cases n with
  | zero => simp at hn
  | succ n =>
    obtain ⟨e,he⟩ := stringBody_stuck pos s rest (s.flatMap escaped ++ '\\':: 'u'::rest).length (pos.bump '"')
    have hnext : nextToken ⟨'"'::(s.flatMap escaped ++ '\\':: 'u'::rest),pos⟩ = .error e := by
      rw [nextToken,skipWhitespace_eq (by decide)]
      simp only [he]
      rfl
    rw [tokens,hnext]
    rfl

/-- Characters outside quotes and comments. -/
def isOpenText (c : Char) : Bool := isBareChar c || isWhitespace c || c = '{' || c = '}'

/-- Reading up to a quote. -/
theorem stuck_after {tail : List Char} (htail : ∀ pos, Stuck ⟨'"'::tail,pos⟩) {n : ℕ} {text : List Char}
    (hlength : text.length ≤ n) (h : ∀ c ∈ text, isOpenText c = true) (pos : Pos) : Stuck ⟨text ++ '"'::tail,pos⟩ := by
  induction n generalizing text pos with
  | zero =>
    have hnil : text = [] := List.length_eq_zero_iff.mp (Nat.le_zero.mp hlength)
    subst hnil
    exact htail pos
  | succ n ih =>
    cases text with
    | nil => exact htail pos
    | cons c text =>
      have hrest : ∀ c ∈ text, isOpenText c = true := fun d hd => h d (List.mem_cons_of_mem _ hd)
      have hnext := fun pos => ih (Nat.le_of_succ_le_succ hlength) hrest pos
      have hc := h c List.mem_cons_self
      unfold isOpenText at hc
      simp only [Bool.or_eq_true,decide_eq_true_eq] at hc
      obtain ((hbare | hblank) | rfl) | rfl := hc
      · -- the whole word is one token
        have hsplit : c::text = (c::text).takeWhile isBareChar ++ (c::text).dropWhile isBareChar :=
          (List.takeWhile_append_dropWhile).symm
        have hword : (c::text).takeWhile isBareChar = c::text.takeWhile isBareChar := List.takeWhile_cons_of_pos hbare
        have hleft : (c::text).dropWhile isBareChar = text.dropWhile isBareChar := List.dropWhile_cons_of_pos hbare
        have hall : isBare (c::text.takeWhile isBareChar) = true := by
          refine isBare_of (by simp) (fun d hd => ?_)
          obtain rfl | hd := List.mem_cons.mp hd
          · exact hbare
          · exact List.mem_takeWhile_imp hd
        have hshort : (text.dropWhile isBareChar).length ≤ n :=
          (List.length_dropWhile_le _ text).trans (Nat.le_of_succ_le_succ hlength)
        have hopen : ∀ d ∈ text.dropWhile isBareChar, isOpenText d = true := fun d hd =>
          hrest d ((List.dropWhile_suffix _).mem hd)
        rw [hsplit,hword,hleft,List.append_assoc]
        cases hend : text.dropWhile isBareChar with
        | nil => exact stuck_of_reads (reads_bare hall (by decide) (by decide) tail pos) (htail _)
        | cons d rest =>
          have hd : isBareChar d = false := by
            have hhead := List.head?_dropWhile_not isBareChar text
            simpa [hend] using hhead
          have hstar : d ≠ '*' := by
            rintro rfl
            exact absurd (hopen '*' (hend ▸ List.mem_cons_self)) (by decide)
          have hstuck := ih hshort hopen (pos.after (c::text.takeWhile isBareChar))
          rw [hend] at hstuck
          exact stuck_of_reads (reads_bare hall hd hstar _ pos) hstuck
      · exact stuck_of_reads (reads_blank hblank _ pos) (hnext _)
      · exact stuck_of_reads (reads_open _ pos) (hnext _)
      · exact stuck_of_reads (reads_close _ pos) (hnext _)

/-! ### A text that is not parsed -/

/-- The one way out of a body is its brace. -/
theorem body_stopped {e : LexError} {n depth : ℕ} {path : Path} {s : CurlyParser.State} {toks : List Spanned} :
    ∃ e', body (some e) n path depth none s toks = .error e' := by
  induction n generalizing path depth s toks with
  | zero => exact ⟨_,rfl⟩
  | succ n ih =>
    rw [body]
    cases hstep : step (some e) path none s toks with
    | stop result =>
      cases toks with
      | nil =>
        cases hstep
        exact ⟨_,rfl⟩
      | cons t toks =>
        obtain ⟨v | _ | _ | text,pos⟩ := t
        · rw [step] at hstep
          split_ifs at hstep
          · cases hstep
            exact ⟨_,rfl⟩
          · unfold statement at hstep
            repeat' split at hstep
            all_goals cases hstep
            all_goals exact ⟨_,rfl⟩
        · cases hstep
          exact ⟨_,rfl⟩
        · cases hstep
          exact ⟨_,rfl⟩
        · cases hstep
    | next s' rest => exact ih
    | enter brace inner tree rest =>
      dsimp only
      split_ifs
      · exact ⟨_,rfl⟩
      · split
        · exact ⟨_,rfl⟩
        · exact ih

theorem not_parsed {src : String} (h : (lex src).2.isSome) (tree : ConfigTree) : parse src ≠ .ok tree := by
  obtain ⟨e,he⟩ := Option.isSome_iff_exists.mp h
  obtain ⟨e',hbody⟩ := @body_stopped e (lex src).1.length 0 Path.root ⟨.new,none,none⟩ (lex src).1
  unfold parse
  simp only [he,hbody]
  nofun

/-! ### What the installer wrote -/

theorem debugEscaped_illegible {byNumber : Char → Bool} {c : Char} (htight : isTight c = true) (h : ¬Legible byNumber c) :
    ∃ rest, debugEscaped byNumber c = '\\':: 'u'::rest := by
  simp only [isTight,isControl,isWhitespace,Bool.and_eq_true,Bool.not_eq_true',Bool.or_eq_false_iff,
    Bool.and_eq_false_iff,decide_eq_false_iff_not] at htight
  have hnot : ∀ d : Char, d.toNat < 0x20 → c ≠ d := by
    intro d hd he
    rw [he] at htight
    omega
  unfold Legible at h
  push Not at h
  obtain ⟨hquote,hback,hnumber⟩ := h
  have hnumber : byNumber c = true := by simpa using hnumber
  unfold debugEscaped
  rw [if_neg (hnot _ (by decide)),if_neg (hnot _ (by decide)),if_neg (hnot _ (by decide)),
    if_neg (hnot _ (by decide)),if_neg hquote,if_neg hback,if_pos hnumber]
  exact ⟨_,rfl⟩

/-- What is displayed up to the first of them is as the lexer knows it. -/
theorem debugString_illegible {byNumber : Char → Bool} {hash : String} (h : Value.isEncryptedPassword hash = true)
    {c : Char} (hc : c ∈ hash.toList) (hbad : ¬Legible byNumber c) :
    ∃ s rest : List Char, (debugString byNumber hash).toList = '"'::(s.flatMap escaped ++ '\\':: 'u'::rest) := by
  have htight := Value.tight_encryptedPassword h
  obtain ⟨first,hfirst⟩ : ∃ first, hash.toList.find? (fun c => c ≠ '"' && c ≠ '\\' && byNumber c) = some first := by
    rw [← Option.isSome_iff_exists,List.find?_isSome]
    unfold Legible at hbad
    push Not at hbad
    exact ⟨c,hc,by simpa using and_assoc.mpr hbad⟩
  obtain ⟨hillegible,s,t,hsplit,hbefore⟩ := List.find?_eq_some_iff_append.mp hfirst
  have hs : s.flatMap (debugEscaped byNumber) = s.flatMap escaped := by
    refine List.flatMap_congr (fun d hd => debugEscaped_eq (htight d (by rw [hsplit]; simp [hd])) ?_)
    have hlegible := hbefore d hd
    unfold Legible
    cases hnumber : byNumber d with
    | false => exact .inr (.inr rfl)
    | true =>
      by_cases hquote : d = '"'
      · exact .inl hquote
      · exact .inr (.inl (by simpa [hquote,hnumber] using hlegible))
  have hnot : ¬Legible byNumber first := by
    unfold Legible
    push Not
    simpa [and_assoc] using hillegible
  obtain ⟨rest,hrest⟩ := debugEscaped_illegible (htight first (by rw [hsplit]; simp)) hnot
  refine ⟨s,rest ++ t.flatMap (debugEscaped byNumber) ++ ['"'],?_⟩
  rw [debugString,String.toList_ofList,hsplit,List.flatMap_append,List.flatMap_cons,hs,hrest]
  simp

/-- What stands between the note and the hash. -/
def opening (hostname : String) (named : List (String × Port)) : String :=
  "interfaces \x7b\n" ++
  String.join (named.map (fun e =>
    "    ethernet " ++ e.1 ++ " \x7b\n" ++
    "        hw-id " ++ e.2.mac ++ "\n" ++
    "    \x7d\n")) ++
  "    loopback lo \x7b\n" ++
  "    \x7d\n" ++
  "\x7d\n" ++
  "system \x7b\n" ++
  "    host-name " ++ hostname ++ "\n" ++
  "    login \x7b\n" ++
  "        user " ++ DEFAULT_USER ++ " \x7b\n" ++
  "            authentication \x7b\n" ++
  "                encrypted-password "

section Opening
variable {hostname : String} {named : List (String × Port)}

theorem open_bare {s : String} (h : isBare s.toList = true) : ∀ c ∈ s.toList, isOpenText c = true := by
  intro c hc
  have hbare := bare_of_mem h hc
  simp [isOpenText,hbare]

theorem open_literal {l : List Char} (h : l.all isOpenText = true) : ∀ c ∈ (String.ofList l).toList, isOpenText c = true := by
  rw [String.toList_ofList]
  exact List.all_eq_true.mp h

theorem open_opening (hhost : isBare hostname.toList = true)
    (hports : ∀ e ∈ named, isBare e.1.toList = true ∧ isBare e.2.mac.toList = true) :
    ∀ c ∈ (opening hostname named).toList, isOpenText c = true := by
  have hjoin : ∀ c ∈ (String.join (named.map (fun e => "    ethernet " ++ e.1 ++ " \x7b\n" ++
      "        hw-id " ++ e.2.mac ++ "\n" ++ "    \x7d\n"))).toList, isOpenText c = true := by
    intro c hc
    rw [String.toList_join,List.mem_flatMap] at hc
    obtain ⟨line,hline,hc⟩ := hc
    obtain ⟨e,he,rfl⟩ := List.mem_map.mp hline
    simp only [String.toList_append,List.mem_append] at hc
    obtain (((((hc | hc) | hc) | hc) | hc) | hc) | hc := hc
    · exact open_literal (by decide) c hc
    · exact open_bare (hports e he).1 c hc
    · exact open_literal (by decide) c hc
    · exact open_literal (by decide) c hc
    · exact open_bare (hports e he).2 c hc
    · exact open_literal (by decide) c hc
    · exact open_literal (by decide) c hc
  have huser : isBare DEFAULT_USER.toList = true := by decide
  unfold opening
  intro c hc
  simp only [String.toList_append,List.mem_append] at hc
  obtain (((((((((((((hc | hc) | hc) | hc) | hc) | hc) | hc) | hc) | hc) | hc) | hc) | hc) | hc) | hc) | hc := hc
  · exact open_literal (by decide) c hc
  · exact hjoin c hc
  · exact open_literal (by decide) c hc
  · exact open_literal (by decide) c hc
  · exact open_literal (by decide) c hc
  · exact open_literal (by decide) c hc
  · exact open_literal (by decide) c hc
  · exact open_bare hhost c hc
  · exact open_literal (by decide) c hc
  · exact open_literal (by decide) c hc
  · exact open_literal (by decide) c hc
  · exact open_bare huser c hc
  · exact open_literal (by decide) c hc
  · exact open_literal (by decide) c hc
  · exact open_literal (by decide) c hc

/-- The configuration is not read where its hash is not. -/
theorem configBoot_unread {byNumber : Char → Bool} {hash : String} (hhost : isBare hostname.toList = true)
    (hports : ∀ e ∈ named, isBare e.1.toList = true ∧ isBare e.2.mac.toList = true)
    (h : Value.isEncryptedPassword hash = true) {c : Char} (hc : c ∈ hash.toList) (hbad : ¬Legible byNumber c)
    (tree : ConfigTree) : parse (configBoot byNumber hostname named (some hash)) ≠ .ok tree := by
  obtain ⟨s,rest,hstring⟩ := debugString_illegible h hc hbad
  obtain ⟨tail,htext⟩ : ∃ tail : List Char, (configBoot byNumber hostname named (some hash)).toList =
      '/':: '*'::note ++ '*':: '/'::('\n'::(opening hostname named).toList ++
        '"'::(s.flatMap escaped ++ '\\':: 'u'::tail)) := by
    refine ⟨rest ++ ("\n" ++ "            \x7d\n" ++ "            full-name \"Nightshade administrator\"\n" ++
      "        \x7d\n" ++ "    \x7d\n" ++ "\x7d\n").toList,?_⟩
    have hnote : ∀ l, '/':: '*'::note ++ '*':: '/':: '\n'::l = '/':: '*'::note ++ ['*','/','\n'] ++ l := by simp
    have hafter : ∀ l, '\n'::(opening hostname named).toList ++ l = '\n'::((opening hostname named).toList ++ l) :=
      fun l => List.cons_append
    rw [hafter,hnote,note_eq]
    unfold configBoot opening
    simp only [String.toList_append,hstring,List.append_assoc,List.cons_append]
  have hnewline : ∀ c ∈ '\n'::(opening hostname named).toList, isOpenText c = true :=
    List.forall_mem_cons.mpr ⟨by decide,open_opening hhost hports⟩
  have hstuck := stuck_of_reads (reads_block_comment note_closed _ Pos.start)
    (stuck_after (stuck_string s tail) le_rfl hnewline _)
  refine not_parsed ?_ tree
  rw [lex,htext]
  exact hstuck _ le_rfl

end Opening

end Nightshade.Installer
