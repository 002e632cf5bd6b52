import Mathlib

/-! Files of settings in sections, by the syntax of unit files: a setting is a line with a key and a
value, blanks around the sign between them do not count, a line that ends in a backslash goes on in
the next that is no comment, and lines that start with a hash or a semicolon are comments. -/
namespace Nightshade.Foundation.UnitSyntax

/-- A setting: its section, its key, and its value. -/
abbrev Entry := (String × String) × String

/-! ### Reading -/

def isBlank (c : Char) : Bool := c = ' ' || c = '\t' || c = '\n' || c = '\r'

def isComment (l : List Char) : Bool := l.head? = some '#' || l.head? = some ';'

/-- A line that goes on in the next. -/
def isOpen (l : List Char) : Bool := l.getLast? = some '\\'

/-- Lines put together, a space for each backslash at an end; `begun` is what is to be gone on with. -/
def joined : Option (List Char) → List (List Char) → List (List Char)
  | begun, [] => begun.toList
  | begun, l::ls =>
    if isComment l then joined begun ls
    else
      let line := begun.getD [] ++ l
      if isOpen line then joined (some (line.dropLast ++ [' '])) ls else line::joined none ls

/-- What stands before and after the first sign of equality. -/
def assignment (line : List Char) : Option (List Char × List Char) :=
  match line.dropWhile (· ≠ '=') with
  | [] => none
  | _::value => some ((line.takeWhile (· ≠ '=')).rdropWhile isBlank,value.dropWhile isBlank)

/-- The name between the brackets of a section. -/
def heading : List Char → Option String
  | '['::rest => if rest.getLast? = some ']' then some (String.ofList rest.dropLast) else none
  | _ => none

/-- One more line: the section it leaves behind, and the settings so far. -/
def readLine (r : String × List Entry) (line : List Char) : String × List Entry :=
  match heading line with
  | some name => (name,r.2)
  | none =>
    match assignment line with
    | some (key,value) => (r.1,r.2 ++ [((r.1,String.ofList key),String.ofList value)])
    | none => r

/-- The settings of a file, in order. -/
def readLines (ls : List (List Char)) : List Entry := ((joined none ls).foldl readLine ("",[])).2

/-! ### Writing -/

/-- What a key or a section is named with. -/
def IsWord (s : List Char) : Prop := s ≠ [] ∧ ∀ c ∈ s, c.isAlphanum = true

/-- A file that was laid out line by line: comments, empty lines, headings and settings. -/
inductive Laid : List (List Char) → String → List Entry → Prop where
  | nil : Laid [] "" []
  | comment {ls : List (List Char)} {sec : String} {es : List Entry} (l : List Char) (h : Laid ls sec es) :
    Laid (ls ++ ['#'::l]) sec es
  | empty {ls : List (List Char)} {sec : String} {es : List Entry} (h : Laid ls sec es) : Laid (ls ++ [[]]) sec es
  | heading {ls : List (List Char)} {sec : String} {es : List Entry} {name : String} (h : Laid ls sec es)
    (word : IsWord name.toList) : Laid (ls ++ ['['::name.toList ++ [']']]) name es
  | setting {ls : List (List Char)} {sec : String} {es : List Entry} {key : String} (h : Laid ls sec es)
    (word : IsWord key.toList) (value : String) :
    Laid (ls ++ [key.toList ++ '='::value.toList]) sec (es ++ [((sec,key),value)])

/-- A value that ends where its line does. -/
def Closed (value : String) : Prop := isOpen value.toList = false

/-- A value that starts where it is read from. -/
def Flush (value : String) : Prop := ∀ c ∈ value.toList.head?, isBlank c = false

/-- The value that is read where another was written. -/
def flushed (value : String) : String := String.ofList (value.toList.dropWhile isBlank)

theorem flushed_eq_iff {value : String} : flushed value = value ↔ Flush value := by
  unfold flushed Flush
  rw [← String.toList_inj,String.toList_ofList,List.dropWhile_eq_self_iff]
  cases value.toList with
  | nil => simp
  | cons c l => simp

/-! ### One line -/

theorem word_head {s t : List Char} (h : IsWord s) : ∃ c, (s ++ t).head? = some c ∧ c.isAlphanum = true := by
  obtain ⟨c,rest,rfl⟩ := List.exists_cons_of_ne_nil h.1
  exact ⟨c,rfl,h.2 c List.mem_cons_self⟩

theorem not_comment_setting {key value : List Char} (h : IsWord key) :
    isComment (key ++ '='::value) = false := by
  obtain ⟨c,hhead,halnum⟩ := @word_head key ('='::value) h
  unfold isComment
  rw [hhead]
  have hhash : c ≠ '#' := fun he => absurd halnum (by rw [he]; decide)
  have hsemicolon : c ≠ ';' := fun he => absurd halnum (by rw [he]; decide)
  simp [hhash,hsemicolon]

theorem isOpen_setting (key value : List Char) : isOpen (key ++ '='::value) = isOpen value := by
  unfold isOpen
  cases value with
  | nil => simp
  | cons c value => simp

theorem readLine_heading (r : String × List Entry) (name : String) :
    readLine r ('['::name.toList ++ [']']) = (name,r.2) := by
  have hheading : heading ('['::name.toList ++ [']']) = some name := by simp [heading]
  rw [readLine,hheading]

theorem readLine_setting (r : String × List Entry) {key : String} (h : IsWord key.toList) (value : String) :
    readLine r (key.toList ++ '='::value.toList) = (r.1,r.2 ++ [((r.1,key),flushed value)]) := by
  have hequals : ∀ c ∈ key.toList, decide (c ≠ '=') = true := by
    intro c hc
    have halnum := h.2 c hc
    by_contra he
    simp only [decide_eq_true_eq,not_not] at he
    rw [he] at halnum
    exact absurd halnum (by decide)
  have hblank : key.toList.rdropWhile isBlank = key.toList := by
    rw [List.rdropWhile_eq_self_iff]
    intro hne hlast
    have halnum := h.2 _ (List.getLast_mem hne)
    simp only [isBlank,Bool.or_eq_true,decide_eq_true_eq] at hlast
    obtain ((he | he) | he) | he := hlast
    all_goals
      rw [he] at halnum
      exact absurd halnum (by decide)
  have hassignment : assignment (key.toList ++ '='::value.toList) =
      some (key.toList,value.toList.dropWhile isBlank) := by
    have hdrop := @List.dropWhile_append_of_pos _ _ _ ( '='::value.toList) hequals
    have htake := @List.takeWhile_append_of_pos _ _ _ ( '='::value.toList) hequals
    unfold assignment
    rw [hdrop,htake]
    simp [hblank]
  have hheading : heading (key.toList ++ '='::value.toList) = none := by
    obtain ⟨c,rest,hkey⟩ := List.exists_cons_of_ne_nil h.1
    have halnum := h.2 c (by rw [hkey]; exact List.mem_cons_self)
    have hbracket : c ≠ '[' := fun he => absurd halnum (by rw [he]; decide)
    rw [hkey]
    unfold heading
    split
    · next heq => exact absurd (List.cons.inj heq).1 hbracket
    · rfl
  rw [readLine,hheading,hassignment]
  simp [flushed]

/-! ### Files without open lines -/

theorem joined_closed {ls : List (List Char)} (h : ∀ l ∈ ls, isComment l = false → isOpen l = false) :
    joined none ls = ls.filter (fun l => !isComment l) := by
  induction ls with
  | nil => rfl
  | cons l ls ih =>
    have hrest := ih (fun m hm => h m (List.mem_cons_of_mem _ hm))
    cases hcomment : isComment l with
    | true => simp [joined,hcomment,hrest]
    | false => simp [joined,hcomment,h l List.mem_cons_self hcomment,hrest]

variable {ls : List (List Char)} {sec : String} {es : List Entry}

theorem Laid.closed (h : Laid ls sec es) (hes : ∀ e ∈ es, Closed e.2) :
    ∀ l ∈ ls, isComment l = false → isOpen l = false := by
  induction h with
  | nil => exact nofun
  | comment l h ih =>
    intro m hm hcomment
    obtain hm | hm := List.mem_append.mp hm
    · exact ih hes m hm hcomment
    · rw [List.mem_singleton.mp hm] at hcomment
      cases hcomment
  | empty h ih =>
    intro m hm hcomment
    obtain hm | hm := List.mem_append.mp hm
    · exact ih hes m hm hcomment
    · rw [List.mem_singleton.mp hm]
      rfl
  | @heading ls sec es name h word ih =>
    intro m hm hcomment
    obtain hm | hm := List.mem_append.mp hm
    · exact ih hes m hm hcomment
    · rw [List.mem_singleton.mp hm,isOpen,List.getLast?_concat]
      decide
  | @setting ls sec es key h word value ih =>
    intro m hm hcomment
    obtain hm | hm := List.mem_append.mp hm
    · exact ih (fun e he => hes e (List.mem_append_left _ he)) m hm hcomment
    · rw [List.mem_singleton.mp hm,isOpen_setting]
      exact hes ((sec,key),value) (by simp)

/-- The lines of a file are read as its settings, each without the blanks in front of it. -/
theorem Laid.fold (h : Laid ls sec es) : (ls.filter (fun l => !isComment l)).foldl readLine ("",[]) =
    (sec,es.map (fun e => (e.1,flushed e.2))) := by
  induction h with
  | nil => rfl
  | comment l h ih =>
    have hcomment : isComment ('#'::l) = true := rfl
    rw [List.filter_append,List.foldl_append,ih]
    simp [hcomment]
  | empty h ih =>
    rw [List.filter_append,List.foldl_append,ih]
    rfl
  | @heading ls sec es name h word ih =>
    have hcomment : isComment ('['::name.toList ++ [']']) = false := rfl
    rw [List.filter_append,List.foldl_append,ih]
    simp only [List.filter_cons,hcomment,Bool.not_false,if_true,List.filter_nil,List.foldl_cons,
      List.foldl_nil,readLine_heading]
  | @setting ls sec es key h word value ih =>
    have hcomment := @not_comment_setting key.toList value.toList word
    rw [List.filter_append,List.foldl_append,ih]
    simp only [List.filter_cons,hcomment,Bool.not_false,if_true,List.filter_nil,List.foldl_cons,
      List.foldl_nil,readLine_setting _ word,List.map_append,List.map_cons,List.map_nil]

theorem Laid.read_closed (h : Laid ls sec es) (hes : ∀ e ∈ es, Closed e.2) :
    readLines ls = es.map (fun e => (e.1,flushed e.2)) := by
  rw [readLines,joined_closed (h.closed hes),h.fold]

/-! ### Files with open lines: what is joined loses a backslash -/

/-- How many backslashes lines have. -/
def escapes (ls : List (List Char)) : ℕ := (ls.map (List.count '\\')).sum

/-- How many backslashes values have. -/
def escapesIn (es : List Entry) : ℕ := (es.map (fun e => e.2.toList.count '\\')).sum

/-- A line that goes on has a backslash to lose. -/
theorem count_open {l : List Char} (h : isOpen l) : (l.dropLast ++ [' ']).count '\\' + 1 = l.count '\\' := by
  obtain ⟨init,rfl⟩ := List.getLast?_eq_some_iff.mp (of_decide_eq_true h)
  have hspace : (' ' == '\\') = false := by decide
  rw [List.dropLast_concat,List.count_append,List.count_append,List.count_singleton,List.count_singleton]
  simp [hspace]

theorem isOpen_append {l : List Char} (begun : List Char) (h : isOpen l) : isOpen (begun ++ l) := by
  obtain ⟨init,rfl⟩ := List.getLast?_eq_some_iff.mp (of_decide_eq_true h)
  rw [isOpen,← List.append_assoc,List.getLast?_concat]
  decide

theorem escapes_cons (l : List Char) (ls : List (List Char)) :
    escapes (l::ls) = l.count '\\' + escapes ls := by
  rw [escapes,List.map_cons,List.sum_cons]
  rfl

theorem escapes_joined (ls : List (List Char)) (begun : Option (List Char)) :
    escapes (joined begun ls) ≤ (begun.getD []).count '\\' + escapes (ls.filter (fun l => !isComment l)) := by
  induction ls generalizing begun with
  | nil => cases begun <;> simp [joined,escapes]
  | cons l ls ih =>
    cases hcomment : isComment l with
    | true =>
      have hrest := ih begun
      simpa [joined,hcomment] using hrest
    | false =>
      have hcount : (begun.getD [] ++ l).count '\\' = (begun.getD []).count '\\' + l.count '\\' :=
        List.count_append
      rw [joined,hcomment,List.filter_cons_of_pos (by simp [hcomment]),escapes_cons]
      simp only [Bool.false_eq_true,if_false]
      split_ifs with hopen
      · have hrest := ih (some ((begun.getD [] ++ l).dropLast ++ [' ']))
        have hlost := count_open hopen
        rw [Option.getD_some] at hrest
        omega
      · have hrest := ih none
        rw [Option.getD_none,List.count_nil] at hrest
        rw [escapes_cons]
        omega

theorem escapes_joined_lt {ls : List (List Char)} (begun : Option (List Char))
    (h : ∃ l ∈ ls, isComment l = false ∧ isOpen l = true) :
    escapes (joined begun ls) < (begun.getD []).count '\\' + escapes (ls.filter (fun l => !isComment l)) := by
  induction ls generalizing begun with
  | nil =>
    obtain ⟨l,hl,-⟩ := h
    cases hl
  | cons l ls ih =>
    obtain ⟨m,hm,hplain,hm'⟩ := h
    cases hcomment : isComment l with
    | true =>
      obtain rfl | hm := List.mem_cons.mp hm
      · rw [hcomment] at hplain
        cases hplain
      · have hrest := ih begun ⟨m,hm,hplain,hm'⟩
        simpa [joined,hcomment] using hrest
    | false =>
      have hcount : (begun.getD [] ++ l).count '\\' = (begun.getD []).count '\\' + l.count '\\' :=
        List.count_append
      rw [joined,hcomment,List.filter_cons_of_pos (by simp [hcomment]),escapes_cons]
      simp only [Bool.false_eq_true,if_false]
      split_ifs with hopen
      · have hrest := escapes_joined ls (some ((begun.getD [] ++ l).dropLast ++ [' ']))
        have hlost := count_open hopen
        rw [Option.getD_some] at hrest
        omega
      · obtain rfl | hm := List.mem_cons.mp hm
        · exact absurd (isOpen_append _ hm') hopen
        · have hrest := ih none ⟨m,hm,hplain,hm'⟩
          rw [Option.getD_none,List.count_nil] at hrest
          rw [escapes_cons]
          omega

theorem escapesIn_concat (es : List Entry) (e : Entry) :
    escapesIn (es ++ [e]) = escapesIn es + e.2.toList.count '\\' := by simp [escapesIn]

/-- What is read has no backslash that the lines have not. -/
theorem escapesIn_fold (ls : List (List Char)) (r : String × List Entry) :
    escapesIn (ls.foldl readLine r).2 ≤ escapesIn r.2 + escapes ls := by
  induction ls generalizing r with
  | nil => simp
  | cons l ls ih =>
    have hrest := ih (readLine r l)
    have hone : escapesIn (readLine r l).2 ≤ escapesIn r.2 + l.count '\\' := by
      unfold readLine
      cases hheading : heading l with
      | some name => simp
      | none =>
        cases hassignment : assignment l with
        | none => simp
        | some parts =>
          obtain ⟨key,value⟩ := parts
          have hsublist : value.Sublist l := by
            unfold assignment at hassignment
            split at hassignment
            · cases hassignment
            · next c rest hdrop =>
              cases hassignment
              have hlast : (c::rest).Sublist l := by
                rw [← hdrop]
                exact List.dropWhile_sublist _
              exact ((List.dropWhile_sublist _).trans (List.sublist_cons_self c rest)).trans hlast
          have hcount := hsublist.count_le '\\'
          dsimp only
          rw [escapesIn_concat,String.toList_ofList]
          omega
    rw [List.foldl_cons,escapes_cons]
    omega

theorem escapes_append (ls ms : List (List Char)) : escapes (ls ++ ms) = escapes ls + escapes ms := by
  simp [escapes]

theorem count_word {s : List Char} (h : IsWord s) : s.count '\\' = 0 := by
  rw [List.count_eq_zero]
  exact fun hmem => absurd (h.2 _ hmem) (by decide)

/-- A file that was laid out has the backslashes of its values. -/
theorem Laid.escapes (h : Laid ls sec es) :
    UnitSyntax.escapes (ls.filter (fun l => !isComment l)) = escapesIn es := by
  induction h with
  | nil => rfl
  | comment l h ih =>
    have hcomment : isComment ('#'::l) = true := rfl
    rw [List.filter_append,escapes_append,ih]
    simp [hcomment,UnitSyntax.escapes]
  | empty h ih =>
    rw [List.filter_append,escapes_append,ih]
    rfl
  | @heading ls sec es name h word ih =>
    have hcomment : isComment ('['::name.toList ++ [']']) = false := rfl
    have hname : ('['::name.toList ++ [']']).count '\\' = 0 := by
      have hword := count_word word
      simp [hword]
    rw [List.filter_append,escapes_append,ih]
    simp only [List.filter_cons,hcomment,Bool.not_false,if_true,List.filter_nil,escapes_cons,hname]
    rfl
  | @setting ls sec es key h word value ih =>
    have hcomment := @not_comment_setting key.toList value.toList word
    have hkey := count_word word
    rw [List.filter_append,escapes_append,ih,escapesIn_concat]
    simp [hcomment,UnitSyntax.escapes,hkey]

theorem Laid.exists_open (h : Laid ls sec es) (hes : ∃ e ∈ es, ¬Closed e.2) :
    ∃ l ∈ ls, isComment l = false ∧ isOpen l = true := by
  induction h with
  | nil =>
    obtain ⟨e,he,-⟩ := hes
    cases he
  | comment l h ih =>
    obtain ⟨m,hm,hm'⟩ := ih hes
    exact ⟨m,List.mem_append_left _ hm,hm'⟩
  | empty h ih =>
    obtain ⟨m,hm,hm'⟩ := ih hes
    exact ⟨m,List.mem_append_left _ hm,hm'⟩
  | heading h word ih =>
    obtain ⟨m,hm,hm'⟩ := ih hes
    exact ⟨m,List.mem_append_left _ hm,hm'⟩
  | @setting ls sec es key h word value ih =>
    obtain ⟨e,he,hopen⟩ := hes
    obtain he | he := List.mem_append.mp he
    · obtain ⟨m,hm,hm'⟩ := ih ⟨e,he,hopen⟩
      exact ⟨m,List.mem_append_left _ hm,hm'⟩
    · rw [List.mem_singleton.mp he] at hopen
      refine ⟨_,List.mem_append_right _ (List.mem_singleton.mpr rfl),not_comment_setting word,?_⟩
      rw [isOpen_setting]
      exact Bool.eq_true_of_not_eq_false hopen

/-- A file reads back as what it was laid out with just where every value starts and ends on its own
line. -/
theorem Laid.read_iff (h : Laid ls sec es) : readLines ls = es ↔ ∀ e ∈ es, Closed e.2 ∧ Flush e.2 := by
  by_cases hclosed : ∀ e ∈ es, Closed e.2
  · rw [h.read_closed hclosed]
    constructor
    · intro hread e he
      have hmap : es.map (fun e => (e.1,flushed e.2)) = es.map id := by rw [hread,List.map_id]
      have hvalue : (e.1,flushed e.2) = e := List.map_inj_left.mp hmap e he
      exact ⟨hclosed e he,flushed_eq_iff.mp (congrArg Prod.snd hvalue)⟩
    · intro hall
      have hmap : es.map (fun e => (e.1,flushed e.2)) = es.map id :=
        List.map_congr_left (fun e he => Prod.ext rfl (flushed_eq_iff.mpr (hall e he).2))
      rw [hmap,List.map_id]
  · constructor
    · intro hread
      push Not at hclosed
      have hlost := escapes_joined_lt none (h.exists_open hclosed)
      have hkept := escapesIn_fold (joined none ls) ("",[])
      have hheld := h.escapes
      rw [readLines] at hread
      rw [hread] at hkept
      simp only [Option.getD_none,List.count_nil] at hlost
      have hstart : escapesIn [] = 0 := rfl
      dsimp only at hkept
      omega
    · exact fun hall => absurd (fun e he => (hall e he).1) hclosed

end Nightshade.Foundation.UnitSyntax
