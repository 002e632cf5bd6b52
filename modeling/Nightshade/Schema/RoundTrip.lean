import Mathlib
import Nightshade.Schema.LexLemmas
import Nightshade.Schema.CurlyLemmas

/-! Rendering then parsing. `Takes` says what a stretch of rendered lines does to the parser,
whatever stands before and after it; stretches compose, and a tree is rendered as a composition
of comment lines, leaf lines and blocks. -/
namespace Nightshade.Schema
open Foundation Lexer CurlyParser Render

theorem Pos.line_le_after (pos : Pos) (text : List Char) : pos.line ≤ (pos.after text).line := by
  induction text generalizing pos with
  | nil => exact le_rfl
  | cons c text ih =>
    refine le_trans ?_ (ih (pos.bump c))
    rw [bump]
    split_ifs <;> simp

mutual

/-- How many blocks stand in one another where the children of a node are written. -/
def childrenDepth (tags : TagOracle) (at_ : Path) : Node → ℕ
  | ⟨_,.values _⟩ => 0
  | ⟨_,.interior cs⟩ => entriesDepth tags at_ cs
termination_by structural n => n

def entriesDepth (tags : TagOracle) (at_ : Path) : List (String × Node) → ℕ
  | [] => 0
  | (name,child)::rest =>
    max (entryDepth tags (at_.child name) child) (entriesDepth tags at_ rest)
termination_by structural cs => cs

def entryDepth (tags : TagOracle) (path : Path) : Node → ℕ
  | ⟨_,.values _⟩ => 0
  | ⟨c,.interior cs⟩ =>
    if compact tags path ⟨c,.interior cs⟩ cs then instancesDepth tags path cs
    else entriesDepth tags path cs + 1
termination_by structural n => n

def instancesDepth (tags : TagOracle) (path : Path) : List (String × Node) → ℕ
  | [] => 0
  | (key,inst)::rest =>
    max (childrenDepth tags (path.child key) inst + 1) (instancesDepth tags path rest)
termination_by structural cs => cs

end

/-- Blocks stand no deeper in one another than nodes do. -/
theorem depths_le_nesting (tags : TagOracle) (n : Node) :
    (∀ path, entryDepth tags path n ≤ n.nesting) ∧
    ∀ path, childrenDepth tags path n ≤ n.nesting-1 := by
  induction n using Node.induct with
  | values c vs => simp [entryDepth,childrenDepth]
  | interior c cs ih =>
    have hentries : ∀ path, entriesDepth tags path cs ≤ Node.nestingAll cs := by
      intro path
      induction cs with
      | nil => simp [entriesDepth]
      | cons e cs ihcs =>
        obtain ⟨name,n⟩ := e
        have hhead := (ih _ List.mem_cons_self).1 (path.child name)
        have htail := ihcs (fun d hd => ih d (List.mem_cons_of_mem _ hd))
        rw [entriesDepth,Node.nestingAll]
        exact max_le_max hhead htail
    have hinstances : ∀ path, instancesDepth tags path cs ≤ Node.nestingAll cs + 1 := by
      intro path
      clear hentries
      induction cs with
      | nil => simp [instancesDepth]
      | cons e cs ihcs =>
        obtain ⟨key,n⟩ := e
        have hhead := (ih _ List.mem_cons_self).2 (path.child key)
        have htail := ihcs (fun d hd => ih d (List.mem_cons_of_mem _ hd))
        rw [instancesDepth,Node.nestingAll]
        dsimp only at hhead
        omega
    rw [Node.nesting]
    refine ⟨fun path => ?_,fun path => ?_⟩
    · rw [entryDepth]
      split_ifs
      · exact hinstances path
      · exact Nat.succ_le_succ (hentries path)
    · rw [childrenDepth]
      exact hentries path

/-- A stretch of text takes the parser from one tree and pending comment to others. -/
def Takes (path : Path) (depth : ℕ) (text : List Char) (s s' : ConfigTree × Option String) : Prop :=
  ∀ (pos : Pos) (prev : Option (Path × ℕ)), (∀ p ∈ prev, p.2 < pos.line) →
    ∃ (ts : List Spanned) (prev' : Option (Path × ℕ)),
      (∀ rest, Reads ⟨text ++ rest,pos⟩ ts ⟨rest,pos.after text⟩) ∧
      (∀ t ∈ ts, pos.line ≤ t.pos.line) ∧ (∀ p ∈ prev', p.2 < (pos.after text).line) ∧
      ∀ opened toks, (∀ t ∈ toks, (pos.after text).line ≤ t.pos.line) →
        parseFrom none path depth opened ⟨s.1,s.2,prev⟩ (ts ++ toks) =
          parseFrom none path depth opened ⟨s'.1,s'.2,prev'⟩ toks

section Lines

variable {path : Path} {depth : ℕ}

theorem Takes.nil (s : ConfigTree × Option String) : Takes path depth [] s s :=
  fun _ prev hprev => ⟨[],prev,fun _ _ => by simp,by simp,hprev,fun _ _ _ => rfl⟩

theorem Takes.append {u v : List Char} {s s' s'' : ConfigTree × Option String}
    (hu : Takes path depth u s s') (hv : Takes path depth v s' s'') :
    Takes path depth (u ++ v) s s'' := by
  intro pos prev hprev
  obtain ⟨ts,prev',hreads,hlines,hprev',hparse⟩ := hu pos prev hprev
  obtain ⟨us,prev'',hreads',hlines',hprev'',hparse'⟩ := hv (pos.after u) prev' hprev'
  rw [← Pos.after_append] at hprev'' hreads' hparse'
  refine ⟨ts ++ us,prev'',fun rest => ?_,?_,hprev'',fun opened toks htoks => ?_⟩
  · rw [List.append_assoc]
    exact (hreads _).trans (hreads' rest)
  · intro t ht
    rcases List.mem_append.mp ht with ht | ht
    · exact hlines t ht
    · exact (Pos.line_le_after pos u).trans (hlines' t ht)
  · rw [List.append_assoc,hparse,hparse' opened toks htoks]
    intro t ht
    rcases List.mem_append.mp ht with ht | ht
    · exact hlines' t ht
    · have hle := htoks t ht
      rw [Pos.after_append] at hle
      exact (Pos.line_le_after _ v).trans hle

end Lines

/-! ### The three kinds of lines -/

variable (path : Path) (depth : ℕ)

lemma indent_blank (d : ℕ) : ∀ c ∈ indent d, isWhitespace c := by
  intro c hc
  simp only [indent,List.mem_flatten,List.mem_replicate] at hc
  obtain ⟨l,⟨-,rfl⟩,hc⟩ := hc
  have : c = ' ' := by simpa using hc
  subst this
  decide

lemma newline_not_mem_indent (d : ℕ) : '\n' ∉ indent d := by
  intro h
  simp only [indent,List.mem_flatten,List.mem_replicate] at h
  obtain ⟨l,⟨-,rfl⟩,hc⟩ := h
  exact absurd hc (by decide)

lemma after_newline (pos : Pos) (text : List Char) (h : '\n' ∉ text) :
    (pos.after (text ++ ['\n'])).line = pos.line+1 := by
  rw [Pos.after_append]
  change ((pos.after text).bump '\n').line = _
  rw [Pos.bump,if_pos rfl]
  simp only [Pos.after_line h]

/-- How a comment line adds to the comment that is pending. -/
def addLine (pending : Option String) (line : List Char) : Option String :=
  match pending with
  | some prev => some (prev ++ "\n" ++ String.ofList line)
  | none => some (String.ofList line)

lemma takeComment_later {tree : ConfigTree} {pending : Option String} {prev : Option (Path × ℕ)}
    {line : ℕ} (h : ∀ p ∈ prev, p.2 < line) (text : List Char) :
    State.takeComment ⟨tree,pending,prev⟩ (String.ofList text) line =
      ⟨tree,addLine pending text,prev⟩ := by
  cases pending with
  | some p => rfl
  | none =>
    have hf : prev.filter (fun p => p.2 = line ∧ tree.uncommented p.1) = none := by
      rw [Option.filter_eq_none_iff]
      intro p hp
      have := h p hp
      simp only [decide_eq_true_eq,not_and]
      omega
    simp only [State.takeComment,hf]
    rfl

lemma takes_comment_line (d : ℕ) {line : List Char} (h : '\n' ∉ line) (tree : ConfigTree)
    (pending : Option String) :
    Takes path depth (indent d ++ (if line = [] then ['#','\n'] else ['#',' '] ++ line ++ ['\n']))
      (tree,pending) (tree,addLine pending line) := by
  obtain ⟨body,hbody,hstrip,heq⟩ : ∃ body, '\n' ∉ body ∧ stripSpace body = line ∧
      (if line = [] then ['#','\n'] else ['#',' '] ++ line ++ ['\n']) = '#'::body ++ ['\n'] := by
    split_ifs with hl
    · exact ⟨[],by simp,by simp [hl,stripSpace],rfl⟩
    · exact ⟨' '::line,by simpa using h,by simp [stripSpace],rfl⟩
  rw [heq]
  intro pos prev hprev
  have hind := Pos.after_line (newline_not_mem_indent d) pos
  have hline : (pos.after (indent d ++ ('#'::body ++ ['\n']))).line = pos.line+1 := by
    rw [← List.append_assoc]
    exact after_newline pos _ (by simp [newline_not_mem_indent,hbody])
  refine ⟨[⟨.comment (String.ofList line),pos.after (indent d)⟩],prev,fun rest => ?_,?_,?_,?_⟩
  · have hcomment := reads_comment hbody rest (pos.after (indent d))
    rw [hstrip] at hcomment
    have hall := ((reads_blanks (indent_blank d) ('#'::body ++ '\n'::rest) pos).trans hcomment).trans
      (reads_blank (by decide) rest _)
    simpa [Pos.after_append] using hall
  · simpa using hind.ge
  · intro p hp
    have := hprev p hp
    omega
  · intro opened toks _
    rw [List.singleton_append]
    apply parseFrom_next
    rw [step,takeComment_later (by rw [hind]; exact hprev)]

lemma takes_comment_lines (d : ℕ) {lines : List (List Char)} (h : ∀ l ∈ lines, '\n' ∉ l)
    (tree : ConfigTree) (pending : Option String) :
    Takes path depth
      (lines.flatMap (fun line => indent d ++ (if line = [] then ['#','\n'] else ['#',' '] ++ line ++ ['\n'])))
      (tree,pending) (tree,lines.foldl addLine pending) := by
  induction lines generalizing pending with
  | nil => exact Takes.nil _
  | cons line lines ih =>
    rw [List.flatMap_cons]
    exact (takes_comment_line path depth d (h line List.mem_cons_self) tree pending).append
      (ih (fun l hl => h l (List.mem_cons_of_mem _ hl)) _)

lemma foldl_addLine (lines : List (List Char)) (first : List Char) :
    lines.foldl addLine (some (String.ofList first)) =
      some (String.ofList (['\n'].intercalate (first::lines))) := by
  induction lines generalizing first with
  | nil => simp
  | cons line lines ih =>
    have hjoin : addLine (some (String.ofList first)) line =
        some (String.ofList (first ++ ['\n'] ++ line)) := by
      simp only [addLine,Option.some.injEq]
      apply String.toList_inj.mp
      simp
    rw [List.foldl_cons,hjoin,ih]
    cases lines <;> simp [List.intercalate]

lemma newline_not_mem_splitOn (text : List Char) : ∀ l ∈ text.splitOn '\n', '\n' ∉ l := by
  induction text with
  | nil => simp [List.splitOn_nil]
  | cons c text ih =>
    rw [List.splitOn_cons_eq_if_modifyHead]
    split_ifs with hc
    · intro l hl
      rcases List.mem_cons.mp hl with rfl | hl
      · simp
      · exact ih l hl
    · intro l hl
      cases hs : text.splitOn '\n' with
      | nil => rw [hs] at hl; cases hl
      | cons first rest =>
        rw [hs] at hl ih
        rcases List.mem_cons.mp hl with rfl | hl
        · have hfirst := ih first List.mem_cons_self
          simp only [List.mem_cons,not_or]
          exact ⟨fun he => hc (by simp [← he]),hfirst⟩
        · exact ih l (List.mem_cons_of_mem _ hl)

/-- A rendered comment is pending when its lines are read. -/
theorem takes_comment (d : ℕ) (text : Option String) (tree : ConfigTree) :
    Takes path depth (comment d text) (tree,none) (tree,text) := by
  cases text with
  | none => exact Takes.nil _
  | some text =>
    have hlines := takes_comment_lines path depth d (newline_not_mem_splitOn text.toList) tree none
    have hfold : (text.toList.splitOn '\n').foldl addLine none = some text := by
      have hjoin : ['\n'].intercalate (text.toList.splitOn '\n') = text.toList :=
        List.intercalate_splitOn _
      cases hs : text.toList.splitOn '\n' with
      | nil => exact absurd hs (List.splitOn_ne_nil _ _)
      | cons first rest =>
        rw [hs] at hjoin
        rw [List.foldl_cons]
        change rest.foldl addLine (some (String.ofList first)) = _
        rw [foldl_addLine,hjoin,String.ofList_toList]
    rw [hfold] at hlines
    exact hlines

/-- Values on one line, one blank apart. -/
def wordsText : List String → List Char
  | [] => []
  | [word] => quote word
  | word::words => quote word ++ ' '::wordsText words

def wordToks (pos : Pos) : List String → List Spanned
  | [] => []
  | word::words => ⟨.value word,pos⟩::wordToks (pos.after (quote word ++ [' '])) words

lemma reads_words {words : List String} (hne : words ≠ []) {d : Char} (hd : isBareChar d = false)
    (hstar : d ≠ '*') (rest : List Char) (pos : Pos) :
    Reads ⟨wordsText words ++ d::rest,pos⟩ (wordToks pos words)
      ⟨d::rest,pos.after (wordsText words)⟩ := by
  induction words generalizing pos with
  | nil => exact absurd rfl hne
  | cons word words ih =>
    cases words with
    | nil => exact reads_quote word hd hstar rest pos
    | cons w ws =>
      have hfirst := reads_quote word (by decide : isBareChar ' ' = false) (by decide)
        (wordsText (w::ws) ++ d::rest) pos
      have hblank := reads_blank (by decide : isWhitespace ' ') (wordsText (w::ws) ++ d::rest)
        (pos.after (quote word))
      have hall := (hfirst.trans hblank).trans (ih (by simp) _)
      rw [wordsText,wordToks,Pos.after_append]
      · simpa [Pos.after_append] using hall
      · simp

lemma newline_not_mem_words (words : List String) : '\n' ∉ wordsText words := by
  fun_induction wordsText words with
  | case1 => simp
  | case2 word => exact newline_not_mem_quote word
  | case3 word words h ih => simp [newline_not_mem_quote,ih]

lemma wordToks_line (words : List String) (pos : Pos) : ∀ t ∈ wordToks pos words, t.pos.line = pos.line := by
  induction words generalizing pos with
  | nil => simp [wordToks]
  | cons word words ih =>
    intro t ht
    rcases List.mem_cons.mp ht with rfl | ht
    · rfl
    · rw [ih _ t ht]
      exact Pos.after_line (by simp [newline_not_mem_quote]) pos

lemma run_words {words : List String} {toks : List Spanned} {line : ℕ} {pos : Pos}
    (hpos : pos.line = line) (htoks : run line toks = ([],toks)) :
    run line (wordToks pos words ++ toks) = (words,toks) := by
  induction words generalizing pos with
  | nil => exact htoks
  | cons word words ih =>
    have hnext : (pos.after (quote word ++ [' '])).line = line := by
      rw [Pos.after_line (by simp [newline_not_mem_quote]),hpos]
    rw [wordToks,List.cons_append,run,if_pos hpos,ih hnext]

lemma run_later {toks : List Spanned} (line : ℕ) (h : ∀ t ∈ toks, line < t.pos.line) :
    run line toks = ([],toks) ∧ opens line toks = none := by
  cases toks with
  | nil => exact ⟨rfl,rfl⟩
  | cons t toks =>
    have ht := (h t List.mem_cons_self).ne'
    obtain ⟨v | _ | _ | text,pos⟩ := t
    · exact ⟨by rw [run,if_neg ht],rfl⟩
    · exact ⟨rfl,by rw [opens,if_neg ht]⟩
    · exact ⟨rfl,rfl⟩
    · exact ⟨rfl,rfl⟩

/-! What the tokeniser makes of the lines. -/

lemma reads_line (d : ℕ) {words : List String} (hne : words ≠ []) (rest : List Char) (pos : Pos) :
    Reads ⟨indent d ++ wordsText words ++ ['\n'] ++ rest,pos⟩ (wordToks (pos.after (indent d)) words)
      ⟨rest,pos.after (indent d ++ wordsText words ++ ['\n'])⟩ := by
  have hwords := reads_words hne (by decide : isBareChar '\n' = false) (by decide) rest
    (pos.after (indent d))
  have hall := ((reads_blanks (indent_blank d) _ pos).trans hwords).trans
    (reads_blank (by decide) rest _)
  simpa [Pos.after_append] using hall

lemma reads_header (d : ℕ) {words : List String} (hne : words ≠ []) (rest : List Char) (pos : Pos) :
    Reads ⟨indent d ++ wordsText words ++ [' ','{','\n'] ++ rest,pos⟩
      (wordToks (pos.after (indent d)) words ++
        [⟨.openBrace,(pos.after (indent d)).after (wordsText words ++ [' '])⟩])
      ⟨rest,pos.after (indent d ++ wordsText words ++ [' ','{','\n'])⟩ := by
  have hwords := reads_words hne (by decide : isBareChar ' ' = false) (by decide)
    ('{':: '\n'::rest) (pos.after (indent d))
  have hall := ((((reads_blanks (indent_blank d) _ pos).trans hwords).trans
    (reads_blank (by decide : isWhitespace ' ') _ _)).trans (reads_open _ _)).trans
    (reads_blank (by decide : isWhitespace '\n') _ _)
  simpa [Pos.after_append] using hall

lemma reads_footer (d : ℕ) (rest : List Char) (pos : Pos) :
    Reads ⟨indent d ++ ['}','\n'] ++ rest,pos⟩ [⟨.closeBrace,pos.after (indent d)⟩]
      ⟨rest,pos.after (indent d ++ ['}','\n'])⟩ := by
  have hall := ((reads_blanks (indent_blank d) ('}':: '\n'::rest) pos).trans
    (reads_close ('\n'::rest) _)).trans (reads_blank (by decide : isWhitespace '\n') _ _)
  simpa [Pos.after_append] using hall

section Statements

variable {path} {word : String} {words : List String} {tree tree' : ConfigTree}
  {pending : Option String} {prev : Option (Path × ℕ)} {opened : Option Pos} {start : Pos}
  {toks : List Spanned}

lemma step_leaf {at_ : Path} (h : leaf tree path start (word::words) = .ok (at_,tree'))
    (htoks : ∀ t ∈ toks, start.line < t.pos.line) :
    step none path opened ⟨tree,pending,prev⟩ (wordToks start (word::words) ++ toks) =
      .next ⟨attach tree' at_ pending,none,some (at_,start.line)⟩ toks := by
  have hlater := run_later start.line htoks
  have hnext : (start.after (quote word ++ [' '])).line = start.line :=
    Pos.after_line (by simp [newline_not_mem_quote]) start
  rw [wordToks,List.cons_append,step,run_words hnext hlater.1,Option.isSome_none,Bool.and_false,
    if_neg (by simp),statement,hlater.2]
  simp only [h]

lemma step_block {brace : Pos} (hbrace : brace.line = start.line)
    (h : tree.ensureInterior (path ++ word::words) = (.ok (),tree')) :
    step none path opened ⟨tree,pending,prev⟩
        (wordToks start (word::words) ++ ⟨.openBrace,brace⟩::toks) =
      .enter brace (path ++ word::words) (attach tree' (path ++ word::words) pending) toks := by
  have hnext : (start.after (quote word ++ [' '])).line = start.line :=
    Pos.after_line (by simp [newline_not_mem_quote]) start
  rw [wordToks,List.cons_append,step,run_words hnext (by simp [run]),Option.isSome_none,
    Bool.and_false,if_neg (by simp),statement,opens,if_pos hbrace]
  simp only [h]

end Statements

/-- A line of one or two values is a leaf. -/
theorem takes_leaf (d : ℕ) {word : String} {words : List String} {tree tree' : ConfigTree}
    (pending : Option String) {at_ : Path}
    (h : ∀ pos, leaf tree path pos (word::words) = .ok (at_,tree')) :
    Takes path depth (indent d ++ wordsText (word::words) ++ ['\n'])
      (tree,pending) (attach tree' at_ pending,none) := by
  intro pos prev hprev
  have hind := Pos.after_line (newline_not_mem_indent d) pos
  have hline : (pos.after (indent d ++ wordsText (word::words) ++ ['\n'])).line = pos.line+1 :=
    after_newline pos _ (by simp [newline_not_mem_indent,newline_not_mem_words])
  refine ⟨wordToks (pos.after (indent d)) (word::words),some (at_,pos.line),fun rest => ?_,?_,?_,?_⟩
  · exact reads_line d (List.cons_ne_nil word words) rest pos
  · intro t ht
    rw [wordToks_line _ _ t ht,hind]
  · simpa using hline.ge
  · intro opened toks htoks
    rw [← hind]
    exact parseFrom_next (step_leaf (h _) (fun t ht => by have := htoks t ht; omega))

/-- A block is what its body makes of the node it opens. -/
theorem takes_block (d : ℕ) {word : String} {words : List String} {tree tree' tree'' : ConfigTree}
    {pending pending' : Option String} {inner : List Char} (hdepth : depth+1 ≤ maxDepth)
    (h : tree.ensureInterior (path ++ word::words) = (.ok (),tree'))
    (hinner : Takes (path ++ word::words) (depth+1) inner
      (attach tree' (path ++ word::words) pending,none) (tree'',pending')) :
    Takes path depth
      (indent d ++ wordsText (word::words) ++ [' ','{','\n'] ++ inner ++ indent d ++ ['}','\n'])
      (tree,pending) (tree'',none) := by
  intro pos prev hprev
  have hind := Pos.after_line (newline_not_mem_indent d) pos
  set start := pos.after (indent d ++ wordsText (word::words) ++ [' ','{','\n']) with hstart
  set finish := start.after inner with hfinish
  have hline : start.line = pos.line+1 := by
    have := after_newline pos (indent d ++ wordsText (word::words) ++ [' ','{'])
      (by simp [newline_not_mem_indent,newline_not_mem_words])
    rw [List.append_assoc] at this
    exact this
  have hopen : ((pos.after (indent d)).after (wordsText (word::words) ++ [' '])).line = pos.line := by
    rw [Pos.after_line (by simp [newline_not_mem_words]),hind]
  have hle : pos.line ≤ finish.line := le_trans (by omega) (Pos.line_le_after start inner)
  have hclose := Pos.after_line (newline_not_mem_indent d) finish
  have hend : (pos.after (indent d ++ wordsText (word::words) ++ [' ','{','\n'] ++ inner ++ indent d ++
      ['}','\n'])).line = finish.line+1 := by
    have := after_newline finish (indent d ++ ['}']) (by simp [newline_not_mem_indent])
    simpa only [hfinish,hstart,← Pos.after_append,List.append_assoc,List.singleton_append] using this
  obtain ⟨ts,prev',hreads,hlines,-,hparse⟩ := hinner start none (by simp)
  refine ⟨wordToks (pos.after (indent d)) (word::words) ++
    ⟨.openBrace,(pos.after (indent d)).after (wordsText (word::words) ++ [' '])⟩::ts ++
    [⟨.closeBrace,finish.after (indent d)⟩],none,fun rest => ?_,?_,by simp,?_⟩
  · have hhead := reads_header d (List.cons_ne_nil word words)
      (inner ++ (indent d ++ ['}','\n'] ++ rest)) pos
    have hall := (hhead.trans (hreads _)).trans (reads_footer d rest finish)
    simpa [hstart,hfinish,Pos.after_append] using hall
  · intro t ht
    simp only [List.mem_append,List.mem_cons,List.not_mem_nil,or_false] at ht
    rcases ht with ((ht | rfl | ht) | rfl)
    · rw [wordToks_line _ _ t ht,hind]
    · exact hopen.ge
    · exact (by omega : pos.line ≤ start.line).trans (hlines t ht)
    · exact hle.trans hclose.ge
  · intro opened toks htoks
    simp only [List.append_assoc,List.cons_append,List.nil_append]
    refine parseFrom_enter (step_block (hopen.trans hind.symm) h) hdepth ?_
    rw [hparse,parseFrom_stop rfl]
    intro t ht
    rcases List.mem_cons.mp ht with rfl | ht
    · exact hclose.ge
    · have hlater := htoks t ht
      rw [hend] at hlater
      exact (Nat.le_succ _).trans hlater

/-! ### What the lines do to the tree -/

lemma put_last {c : Option String} {done : List (String × Node)} {name : String} {m n : Node}
    (h : ∀ e ∈ done, e.1 < name) (rest : Path) :
    Node.put m (name::rest) ⟨c,.interior (done ++ [(name,n)])⟩ =
      ⟨c,.interior (done ++ [(name,Node.put m rest n)])⟩ := by
  rw [Node.put,Node.modify,lookup_append_self n h]
  simp only [insertKey_append_self _ n h]
  rfl

lemma get_last {c : Option String} {done : List (String × Node)} {name : String} {n : Node}
    (h : ∀ e ∈ done, e.1 < name) (rest : Path) :
    Node.get (name::rest) ⟨c,.interior (done ++ [(name,n)])⟩ = n.get rest := by
  rw [Node.get,lookup_append_self n h]
  rfl

lemma attach_root {tree : ConfigTree} {at_ : Path} {body : Body Node} (comment : Option String)
    (h : tree.root.get at_ = some ⟨none,body⟩) :
    (attach tree at_ comment).root = Node.put ⟨comment,body⟩ at_ tree.root := by
  cases comment with
  | none => exact (Node.put_self tree.ordered h).symm
  | some comment =>
    have hfree : tree.uncommented at_ = true := by
      rw [ConfigTree.uncommented,ConfigTree.get,h]
      rfl
    rw [attach,if_pos hfree]
    exact Node.modify_congr h rfl

/-- The tree with other children at a path. -/
def Becomes (tree tree' : ConfigTree) (path : Path) (n : Node) : Prop :=
  tree'.root = Node.put n path tree.root

variable {path} {tree tree' : ConfigTree} {c cm : Option String} {done cs : List (String × Node)}
  {name : String}

lemma attach_child {body : Body Node} (hget : tree.root.get path = some ⟨c,.interior done⟩)
    (hgt : ∀ e ∈ done, e.1 < name)
    (h : Becomes tree tree' path ⟨c,.interior (done ++ [(name,⟨none,body⟩)])⟩) (comment : Option String) :
    Becomes tree (attach tree' (path ++ [name]) comment) path
      ⟨c,.interior (done ++ [(name,⟨comment,body⟩)])⟩ := by
  have hnew : tree'.root.get (path ++ [name]) = some ⟨none,body⟩ := by
    rw [h,Node.get_append,Node.get_put hget]
    exact get_last (c := c) hgt []
  rw [Becomes,attach_root comment hnew,h,Node.put_append_put,put_last hgt]
  rfl

lemma editLeaf_fresh (edit : List String → List String) (hedit)
    (hget : tree.root.get path = some ⟨c,.interior done⟩) (hgt : ∀ e ∈ done, e.1 < name) :
    ∃ tree', tree.editLeaf (path ++ [name]) edit hedit = (.ok (),tree') ∧
      Becomes tree tree' path ⟨c,.interior (done ++ [(name,⟨none,.values (edit [])⟩)])⟩ := by
  have hchild := Node.editLeaf_child edit name hget
  rw [Node.leafEntry,lookup_eq_none_of_gt hgt] at hchild
  simp only [insertKey_of_gt _ hgt] at hchild
  refine ⟨(tree.editLeaf (path ++ [name]) edit hedit).2,Prod.ext ?_ rfl,?_⟩
  · rw [ConfigTree.editLeaf_fst,hchild]
  · rw [Becomes,ConfigTree.editLeaf_root,hchild]

lemma editLeaf_more (edit : List String → List String) (hedit) {vs : List String}
    (hget : tree.root.get path = some ⟨c,.interior (done ++ [(name,⟨cm,.values vs⟩)])⟩)
    (hgt : ∀ e ∈ done, e.1 < name) :
    ∃ tree', tree.editLeaf (path ++ [name]) edit hedit = (.ok (),tree') ∧
      Becomes tree tree' path ⟨c,.interior (done ++ [(name,⟨cm,.values (edit vs)⟩)])⟩ := by
  have hchild := Node.editLeaf_child edit name hget
  rw [Node.leafEntry,lookup_append_self _ hgt] at hchild
  simp only [insertKey_append_self _ _ hgt] at hchild
  refine ⟨(tree.editLeaf (path ++ [name]) edit hedit).2,Prod.ext ?_ rfl,?_⟩
  · rw [ConfigTree.editLeaf_fst,hchild]
  · rw [Becomes,ConfigTree.editLeaf_root,hchild]

lemma ensureInterior_child (hget : tree.root.get path = some ⟨c,.interior done⟩)
    (hgt : ∀ e ∈ done, e.1 < name) :
    ∃ tree', tree.ensureInterior (path ++ [name]) = (.ok (),tree') ∧
      Becomes tree tree' path ⟨c,.interior (done ++ [(name,Node.newInterior)])⟩ := by
  have happ := Node.ensureInterior_append [] name hget
  rw [List.nil_append,Node.parentOf,Node.interiorEntry,lookup_eq_none_of_gt hgt] at happ
  simp only [insertKey_of_gt _ hgt] at happ
  refine ⟨(tree.ensureInterior (path ++ [name])).2,Prod.ext ?_ rfl,?_⟩
  · rw [ConfigTree.ensureInterior_fst,happ]
  · rw [Becomes,ConfigTree.ensureInterior_root,happ]

lemma ensureInterior_tag (key : String) (hget : tree.root.get path = some ⟨c,.interior done⟩)
    (hgt : ∀ e ∈ done, e.1 < name) :
    ∃ tree', tree.ensureInterior (path ++ [name,key]) = (.ok (),tree') ∧
      Becomes tree tree' path
        ⟨c,.interior (done ++ [(name,⟨none,.interior [(key,Node.newInterior)]⟩)])⟩ := by
  have happ := Node.ensureInterior_append [name] key hget
  rw [List.singleton_append,Node.parentOf,lookup_eq_none_of_gt hgt] at happ
  simp only [insertKey_of_gt _ hgt,Option.getD_none,Node.newInterior,Node.parentOf,
    Node.interiorEntry,List.lookup_nil,insertKey] at happ
  refine ⟨(tree.ensureInterior (path ++ [name,key])).2,Prod.ext ?_ rfl,?_⟩
  · rw [ConfigTree.ensureInterior_fst,happ]
  · rw [Becomes,ConfigTree.ensureInterior_root,happ]
    rfl

lemma leaf_add {value : String} (h : tree.add (path ++ [name]) value = (.ok (),tree')) (pos : Pos) :
    leaf tree path pos [name,value] = .ok (path ++ [name],tree') := by
  simp only [leaf,Path.child,h]

lemma leaf_declare (h : tree.declareLeaf (path ++ [name]) = (.ok (),tree')) (pos : Pos) :
    leaf tree path pos [name] = .ok (path ++ [name],tree') := by
  simp only [leaf,Path.child,h]

/-- Further values of a leaf, each on a line of its own. -/
lemma takes_values (us vs : List String) (hget : tree.root.get path =
      some ⟨c,.interior (done ++ [(name,⟨cm,.values us⟩)])⟩)
    (hgt : ∀ e ∈ done, e.1 < name) (hord : (us ++ vs).Pairwise (· < ·)) :
    ∃ tree', Becomes tree tree' path ⟨c,.interior (done ++ [(name,⟨cm,.values (us ++ vs)⟩)])⟩ ∧
      Takes path depth
        (vs.flatMap (fun value => indent depth ++ quote name ++ [' '] ++ quote value ++ ['\n']))
        (tree,none) (tree',none) := by
  induction vs generalizing us tree with
  | nil =>
    refine ⟨tree,?_,Takes.nil _⟩
    rw [List.append_nil]
    exact (Node.put_self tree.ordered hget).symm
  | cons v vs ih =>
    have hlast : insertElem v us = us ++ [v] := insertElem_of_gt (fun u hu =>
      (List.pairwise_append.mp hord).2.2 u hu v List.mem_cons_self)
    obtain ⟨tree₁,hadd,hbec⟩ := editLeaf_more (insertElem v)
      (fun _ h => sorted_insertElem v h) hget hgt
    rw [hlast] at hbec
    have hget₁ : tree₁.root.get path =
        some ⟨c,.interior (done ++ [(name,⟨cm,.values (us ++ [v])⟩)])⟩ := by
      rw [hbec,Node.get_put hget]
    obtain ⟨tree₂,hbec₂,htakes⟩ := ih (us ++ [v]) hget₁ (by simpa using hord)
    refine ⟨tree₂,?_,?_⟩
    · rw [Becomes,hbec₂,hbec,Node.put_put]
      simp
    · rw [List.flatMap_cons]
      have hleaf := takes_leaf path depth depth none
        (leaf_add hadd)
      refine Takes.append ?_ htakes
      simpa [wordsText,attach] using hleaf

/-- A rendered node becomes the last child of the node whose body is being read. -/
def EntryTaken (n : Node) : Prop :=
  ∀ (tags : TagOracle) (name : String) (path : Path) (depth : ℕ) (tree : ConfigTree)
    (c : Option String) (done : List (String × Node)),
    tree.root.get path = some ⟨c,.interior done⟩ → (∀ e ∈ done, e.1 < name) →
    depth + entryDepth tags (path.child name) n ≤ maxDepth →
    ∃ tree', Becomes tree tree' path ⟨c,.interior (done ++ [(name,n)])⟩ ∧
      Takes path depth (entry tags name (path.child name) depth n) (tree,none) (tree',none)

theorem entryTaken_values {vs : List String} (hord : vs.Pairwise (· < ·)) :
    EntryTaken ⟨cm,.values vs⟩ := by
  intro tags name path depth tree c done hget hgt _
  have hcomment := takes_comment path depth depth cm tree
  cases vs with
  | nil =>
    obtain ⟨tree₁,hdecl,hbec⟩ := editLeaf_fresh id (fun _ h => h) hget hgt
    refine ⟨_,attach_child hget hgt hbec cm,?_⟩
    have hleaf := takes_leaf path depth depth cm
      (leaf_declare hdecl)
    simpa [entry,wordsText] using hcomment.append hleaf
  | cons v vs =>
    obtain ⟨tree₁,hadd,hbec⟩ := editLeaf_fresh (insertElem v)
      (fun _ h => sorted_insertElem v h) hget hgt
    have hbec₁ := attach_child hget hgt hbec cm
    have hleaf := takes_leaf path depth depth cm
      (leaf_add hadd)
    have hget₁ := hbec₁ ▸ Node.get_put hget
    obtain ⟨tree₂,hbec₂,htakes⟩ := takes_values depth [v] vs hget₁ hgt hord
    refine ⟨tree₂,?_,?_⟩
    · rw [Becomes,hbec₂,hbec₁,Node.put_put]
      rfl
    · simpa [entry,wordsText] using (hcomment.append hleaf).append htakes

/-- Rendered children become children, one behind the other. -/
theorem entries_taken (tags : TagOracle) (hcs : ∀ e ∈ cs, EntryTaken e.2)
    (hget : tree.root.get path = some ⟨c,.interior done⟩) (hord : KeySorted (done ++ cs))
    (hdepth : depth + entriesDepth tags path cs ≤ maxDepth) :
    ∃ tree', Becomes tree tree' path ⟨c,.interior (done ++ cs)⟩ ∧
      Takes path depth (entries tags path depth cs) (tree,none) (tree',none) := by
  induction cs generalizing done tree with
  | nil =>
    refine ⟨tree,?_,by rw [entries]; exact Takes.nil _⟩
    rw [List.append_nil]
    exact (Node.put_self tree.ordered hget).symm
  | cons e cs ih =>
    obtain ⟨name,n⟩ := e
    rw [entriesDepth] at hdepth
    obtain ⟨-,-,hlt⟩ := keySorted_append.mp hord
    obtain ⟨tree₁,hbec₁,htakes₁⟩ := hcs (name,n) List.mem_cons_self tags name path depth tree c done
      hget (fun d hd => hlt d hd _ List.mem_cons_self)
      (show depth + entryDepth tags (path.child name) n ≤ maxDepth by omega)
    have hget₁ := hbec₁ ▸ Node.get_put hget
    obtain ⟨tree₂,hbec₂,htakes₂⟩ := ih (fun d hd => hcs d (List.mem_cons_of_mem _ hd)) hget₁
      (by simpa using hord) (by omega)
    refine ⟨tree₂,?_,by rw [entries]; exact htakes₁.append htakes₂⟩
    rw [Becomes,hbec₂,hbec₁,Node.put_put]
    simp

/-- A rendered block fills the node it has just created. -/
theorem block_taken (tags : TagOracle) (cm : Option String) {word : String} {words : List String}
    (hcs : ∀ e ∈ cs, EntryTaken e.2)
    (h : tree.ensureInterior (path ++ word::words) = (.ok (),tree'))
    (hget : tree'.root.get (path ++ word::words) = some Node.newInterior) (hord : KeySorted cs)
    (hdepth : depth + 1 + entriesDepth tags (path ++ word::words) cs ≤ maxDepth) :
    ∃ tree'', Becomes tree' tree'' (path ++ word::words) ⟨cm,.interior cs⟩ ∧
      Takes path depth (comment depth cm ++ (indent depth ++ wordsText (word::words) ++
        [' ','{','\n'] ++ entries tags (path ++ word::words) (depth+1) cs ++ indent depth ++ ['}','\n']))
        (tree,none) (tree'',none) := by
  have hroot := attach_root cm hget
  have hget₁ : (attach tree' (path ++ word::words) cm).root.get (path ++ word::words) =
      some ⟨cm,.interior []⟩ := by rw [hroot,Node.get_put hget]
  obtain ⟨tree₂,hbec,htakes⟩ := entries_taken (depth+1) tags hcs hget₁ (by simpa using hord) hdepth
  refine ⟨tree₂,?_,(takes_comment path depth depth cm tree).append (takes_block path depth depth (by omega) h htakes)⟩
  rw [Becomes,hbec,hroot,Node.put_put]
  rfl

/-- The instances of a tag node that has its first one already. -/
theorem instances_taken (tags : TagOracle)
    (hcs : ∀ e ∈ cs, e.2.isInterior ∧ ∀ ds, e.2.children = some ds → ∀ d ∈ ds, EntryTaken d.2)
    (hall : ∀ e ∈ cs, e.2.Ordered)
    (hget : tree.root.get (path ++ [name]) = some ⟨none,.interior done⟩)
    (hord : KeySorted (done ++ cs))
    (hdepth : depth + instancesDepth tags (path ++ [name]) cs ≤ maxDepth) :
    ∃ tree', Becomes tree tree' (path ++ [name]) ⟨none,.interior (done ++ cs)⟩ ∧
      Takes path depth (instances tags name (path ++ [name]) depth cs) (tree,none) (tree',none) := by
  induction cs generalizing done tree with
  | nil =>
    refine ⟨tree,?_,by rw [instances]; exact Takes.nil _⟩
    rw [List.append_nil]
    exact (Node.put_self tree.ordered hget).symm
  | cons e cs ih =>
    obtain ⟨key,inst⟩ := e
    rw [instancesDepth] at hdepth
    obtain ⟨hin,hds⟩ := hcs (key,inst) List.mem_cons_self
    have hinst := hall (key,inst) List.mem_cons_self
    obtain ⟨im,ds | vs⟩ := inst
    · obtain ⟨-,-,hlt⟩ := keySorted_append.mp hord
      have hgt : ∀ d ∈ done, d.1 < key := fun d hd => hlt d hd _ List.mem_cons_self
      obtain ⟨tree₁,hens,hbec₁⟩ := ensureInterior_child hget hgt
      rw [List.append_assoc,List.singleton_append] at hens
      have hget₁ : tree₁.root.get (path ++ [name,key]) = some Node.newInterior := by
        rw [show path ++ [name,key] = (path ++ [name]) ++ [key] by simp,Node.get_append,hbec₁,
          Node.get_put hget]
        exact get_last (c := none) hgt []
      have hblock : depth + 1 + entriesDepth tags (path ++ [name,key]) ds ≤ maxDepth := by
        rw [childrenDepth,Path.child,List.append_assoc,List.singleton_append] at hdepth
        omega
      obtain ⟨tree₂,hbec₂,htakes₂⟩ := block_taken depth tags im (hds ds rfl) hens
        hget₁ (Node.ordered_interior.mp hinst).1 hblock
      have hroot₂ : Becomes tree tree₂ (path ++ [name])
          ⟨none,.interior (done ++ [(key,⟨im,.interior ds⟩)])⟩ := by
        rw [Becomes,hbec₂,hbec₁,show path ++ [name,key] = (path ++ [name]) ++ [key] by simp,
          Node.put_append_put,put_last hgt]
        rfl
      obtain ⟨tree₃,hbec₃,htakes₃⟩ := ih (fun d hd => hcs d (List.mem_cons_of_mem _ hd))
        (fun d hd => hall d (List.mem_cons_of_mem _ hd)) (hroot₂ ▸ Node.get_put hget)
        (by simpa using hord) (by omega)
      refine ⟨tree₃,?_,?_⟩
      · rw [Becomes,hbec₃,hroot₂,Node.put_put]
        simp
      · rw [instances]
        simpa [wordsText,children,Path.child] using htakes₂.append htakes₃
    · cases hin

theorem entryTaken_interior (ih : ∀ e ∈ cs, EntryTaken e.2 ∧
      ∀ ds, e.2.children = some ds → ∀ d ∈ ds, EntryTaken d.2)
    (hord : Node.Ordered ⟨cm,.interior cs⟩) : EntryTaken ⟨cm,.interior cs⟩ := by
  intro tags name path depth tree c done hget hgt hdepth
  obtain ⟨hsorted,hall⟩ := Node.ordered_interior.mp hord
  rw [entryDepth] at hdepth
  rw [entry]
  split_ifs at hdepth ⊢ with hcompact
  · -- the first instance creates the tag node, the others find it there
    simp only [compact,Bool.and_eq_true,Bool.not_eq_true',Option.isNone_iff_eq_none,
      List.all_eq_true] at hcompact
    obtain ⟨⟨⟨-,hnone⟩,hne⟩,hint⟩ := hcompact
    subst hnone
    cases cs with
    | nil => simp at hne
    | cons e cs =>
      obtain ⟨key,im,ds | vs⟩ := e
      · obtain ⟨tree₁,hens,hbec₁⟩ := ensureInterior_tag key hget hgt
        have hget₁ : tree₁.root.get (path ++ [name,key]) = some Node.newInterior := by
          rw [Node.get_append,hbec₁,Node.get_put hget]
          exact (get_last (c := c) hgt [key]).trans (by simp [Node.get])
        rw [instancesDepth,childrenDepth] at hdepth
        have hblock : depth + 1 + entriesDepth tags (path ++ [name,key]) ds ≤ maxDepth := by
          rw [Path.child,Path.child,List.append_assoc,List.singleton_append] at hdepth
          omega
        obtain ⟨tree₂,hbec₂,htakes₂⟩ := block_taken depth tags im
          ((ih _ List.mem_cons_self).2 ds rfl) hens hget₁
          (Node.ordered_interior.mp (hall _ List.mem_cons_self)).1 hblock
        have hroot₂ : Becomes tree tree₂ path
            ⟨c,.interior (done ++ [(name,⟨none,.interior [(key,⟨im,.interior ds⟩)]⟩)])⟩ := by
          rw [Becomes,hbec₂,hbec₁,Node.put_append_put,put_last hgt]
          simp [Node.put,Node.modify,insertKey]
        have hget₂ : tree₂.root.get (path ++ [name]) =
            some ⟨none,.interior [(key,⟨im,.interior ds⟩)]⟩ := by
          rw [Node.get_append,hroot₂,Node.get_put hget]
          exact get_last (c := c) hgt []
        obtain ⟨tree₃,hbec₃,htakes₃⟩ := instances_taken depth tags
          (fun d hd => ⟨hint d (List.mem_cons_of_mem _ hd),(ih d (List.mem_cons_of_mem _ hd)).2⟩)
          (fun d hd => hall d (List.mem_cons_of_mem _ hd)) hget₂ hsorted
          ((Nat.add_le_add_left (le_max_right _ _) depth).trans hdepth)
        refine ⟨tree₃,?_,?_⟩
        · rw [Becomes,hbec₃,hroot₂,Node.put_append_put,put_last hgt]
          rfl
        · rw [instances]
          simpa [wordsText,children,Path.child] using htakes₂.append htakes₃
      · cases hint _ List.mem_cons_self
  · obtain ⟨tree₁,hens,hbec₁⟩ := ensureInterior_child hget hgt
    have hget₁ : tree₁.root.get (path ++ [name]) = some Node.newInterior := by
      rw [Node.get_append,hbec₁,Node.get_put hget]
      exact get_last (c := c) hgt []
    obtain ⟨tree₂,hbec₂,htakes₂⟩ := block_taken depth tags cm
      (fun e he => (ih e he).1) hens hget₁ hsorted
      (by rw [Path.child] at hdepth; omega)
    refine ⟨tree₂,?_,by simpa [wordsText,Path.child] using htakes₂⟩
    rw [Becomes,hbec₂,hbec₁,Node.put_append_put,put_last hgt]
    rfl

theorem entryTaken (n : Node) (hord : n.Ordered) :
    EntryTaken n ∧ ∀ ds, n.children = some ds → ∀ d ∈ ds, EntryTaken d.2 := by
  induction n using Node.induct with
  | values c vs => exact ⟨entryTaken_values (Node.ordered_values.mp hord),fun ds h => by cases h⟩
  | interior c cs ih =>
    have hall := (Node.ordered_interior.mp hord).2
    refine ⟨entryTaken_interior (fun e he => ih e he (hall e he)) hord,fun ds h => ?_⟩
    cases h
    exact fun d hd => (ih d hd (hall d hd)).1

/-- Where the blocks that a tree is written in are not too deep, parsing what was rendered gives back
everything but a comment on the root. -/
theorem parse_render_depth (tree : ConfigTree) (tags : TagOracle)
    (hdepth : childrenDepth tags Path.root tree.root ≤ maxDepth) :
    parse (render tree tags) = .ok (tree.setComment Path.root none).2 := by
  obtain ⟨⟨c,cs | vs⟩,hint,hord⟩ := tree
  · obtain ⟨hsorted,hall⟩ := Node.ordered_interior.mp hord
    have hget : ConfigTree.new.root.get Path.root = some ⟨none,.interior []⟩ := rfl
    rw [childrenDepth] at hdepth
    obtain ⟨tree',hbec,htakes⟩ := entries_taken 0 tags (fun e he => (entryTaken e.2 (hall e he)).1)
      hget hsorted (by simpa using hdepth)
    obtain ⟨ts,prev,hreads,-,-,hparse⟩ := htakes Pos.start none (by simp)
    have hlex : lex (String.ofList (entries tags Path.root 0 cs)) = (ts,none) :=
      lex_of_reads (by simpa using hreads [])
    have hbody := hparse none [] (by simp)
    rw [List.append_nil,parseFrom_nil] at hbody
    have htree : tree' = (ConfigTree.setComment ⟨⟨c,.interior cs⟩,hint,hord⟩ Path.root none).2 :=
      ConfigTree.ext hbec
    rw [render,children,parse,hlex]
    rw [parseFrom] at hbody
    simp only [hbody,atEnd,htree]
    rfl
  · cases hint

/-- Parsing what was rendered gives back everything but a comment on the root. -/
theorem parse_render_body (tree : ConfigTree) (tags : TagOracle) (hdepth : tree.nesting ≤ maxDepth) :
    parse (render tree tags) = .ok (tree.setComment Path.root none).2 := by
  have hle := (depths_le_nesting tags tree.root).2 Path.root
  have hnesting : tree.root.nesting-1 = tree.nesting := by
    obtain ⟨⟨c,cs | vs⟩,hint,hord⟩ := tree
    · rw [Node.nesting]
      rfl
    · cases hint
  exact parse_render_depth tree tags (by omega)

theorem setComment_none {tree : ConfigTree} (hroot : tree.root.comment = none) :
    (tree.setComment Path.root none).2 = tree := by
  apply ConfigTree.ext
  obtain ⟨⟨c,body⟩,hint,hord⟩ := tree
  obtain rfl : c = none := hroot
  rfl

/-- Parsing what was rendered gives back the tree, whatever the tag oracle says. -/
theorem parse_render (tree : ConfigTree) (tags : TagOracle) (hroot : tree.root.comment = none)
    (hdepth : tree.nesting ≤ maxDepth) : parse (render tree tags) = .ok tree := by
  rw [parse_render_body tree tags hdepth,setComment_none hroot]

/-- An interface with a blank in its name, a comment of two lines, a flag and an odd value. -/
def sampleTree : ConfigTree :=
  ((((ConfigTree.new.add ["interfaces","ethernet","eth 0","description"] "up\n\"link\"").2.setFlag
    ["interfaces","ethernet","eth 0","disable"]).2.setComment
    ["interfaces","ethernet","eth 0"] (some "the\n uplink")).2.add ["system",""] "").2

theorem parse_render_sample : parse (render sampleTree (fun _ => true)) = .ok sampleTree :=
  parse_render sampleTree (fun _ => true) rfl (by decide)

end Nightshade.Schema
