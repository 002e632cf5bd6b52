import Mathlib

/-! Cells that are written one behind the other with blanks around them, and when splitting at the blanks
gives the cells back: when no cell is empty or holds a blank, and there is a blank between any two. -/
namespace Nightshade.Foundation.Columns

/-- The stretches between runs of spaces. -/
def words (text : List Char) : List (List Char) := (text.splitOn ' ').filter (· ≠ [])

/-- A text that is one word. -/
structure Solid (s : List Char) : Prop where
  nonempty : s ≠ []
  tight : ' ' ∉ s

def blanks (n : ℕ) : List Char := List.replicate n ' '

/-- A cell, and how many blanks stand before and behind it. -/
structure Cell where
  front : ℕ
  text : List Char
  behind : ℕ

def Cell.written (cell : Cell) : List Char := blanks cell.front ++ cell.text ++ blanks cell.behind

/-- A blank between two cells. -/
def Cell.Apart (c d : Cell) : Prop := 0 < c.behind + d.front

variable {s t : List Char}

@[simp] theorem words_nil : words [] = [] := rfl

/-- A blank parts the words before it from those behind it. -/
theorem words_append_space (s t : List Char) : words (s ++ ' '::t) = words s ++ words t := by
  rw [words,List.splitOn_append_cons_self,List.filter_append]
  rfl

theorem words_solid (hs : Solid s) : words s = [s] := by
  rw [words,List.splitOn_eq_singleton hs.tight,List.filter_cons_of_pos (by simpa using hs.nonempty)]
  rfl

theorem words_blanks_append (n : ℕ) (t : List Char) : words (blanks n ++ t) = words t := by
  induction n with
  | zero => rfl
  | succ n ih =>
    rw [blanks,List.replicate_succ,List.cons_append]
    exact (words_append_space [] _).trans ih

theorem words_append_blanks (t : List Char) (n : ℕ) : words (t ++ blanks n) = words t := by
  induction n with
  | zero => rw [blanks,List.replicate_zero,List.append_nil]
  | succ n ih =>
    have hblanks : words (blanks n) = [] := by
      have h := words_blanks_append n []
      rwa [List.append_nil] at h
    rw [blanks,List.replicate_succ,words_append_space]
    exact (congrArg _ hblanks).trans (List.append_nil _)

theorem solid_of_mem_words (h : s ∈ words t) : Solid s := by
  rw [words,List.mem_filter] at h
  refine ⟨by simpa using h.2,?_⟩
  have hparts : ∀ t : List Char, ∀ s ∈ t.splitOn ' ', ' ' ∉ s := by
    intro t
    induction t with
    | nil => simp
    | cons c t ih =>
      intro s hs
      rw [List.splitOn_cons_eq_if_modifyHead] at hs
      split_ifs at hs with hc
      · obtain rfl | hs := List.mem_cons.mp hs
        · simp
        · exact ih s hs
      · obtain ⟨first,rest,hsplit⟩ := List.exists_cons_of_ne_nil (List.splitOn_ne_nil ' ' t)
        rw [hsplit] at hs ih
        rw [List.modifyHead_cons,List.mem_cons] at hs
        obtain rfl | hs := hs
        · rw [List.mem_cons,not_or]
          exact ⟨fun heq => hc (by simp [← heq]),ih first List.mem_cons_self⟩
        · exact ih s (List.mem_cons_of_mem _ hs)
  exact hparts t s h.1

/-- A word goes on into what stands right behind it. -/
theorem words_solid_append (hs : Solid s) (t : List Char) :
    ∃ e ws, words (s ++ t) = (s ++ e)::ws ∧ ∀ c ∈ t.head?, c ≠ ' ' → c ∈ e := by
  induction t generalizing s with
  | nil => exact ⟨[],[],by rw [List.append_nil,words_solid hs],by simp⟩
  | cons c t ih =>
    by_cases hc : c = ' '
    · subst hc
      refine ⟨[],words t,?_,by simp⟩
      rw [words_append_space,words_solid hs,List.append_nil]
      rfl
    · have hlonger : Solid (s ++ [c]) := by
        refine ⟨by simp,?_⟩
        rw [List.mem_append,List.mem_singleton,not_or]
        exact ⟨hs.tight,fun heq => hc heq.symm⟩
      obtain ⟨e,ws,hwords,-⟩ := ih hlonger
      rw [List.append_assoc,List.append_assoc] at hwords
      exact ⟨c::e,ws,hwords,by simp⟩

/-! ### Cells in a row -/

def written (cells : List Cell) : List Char := cells.flatMap Cell.written

lemma written_cons (c : Cell) (cells : List Cell) :
    written (c::cells) = blanks c.front ++ (c.text ++ (blanks c.behind ++ written cells)) := by
  rw [written,List.flatMap_cons,Cell.written,List.append_assoc,List.append_assoc]
  rfl

/-- Blanks that are there part a cell from the next. -/
lemma words_apart {c d : Cell} (hc : Solid c.text) (happart : c.Apart d) (cells : List Cell) :
    words (written (c::d::cells)) = c.text::words (written (d::cells)) := by
  have hblanks : blanks c.behind ++ blanks d.front = ' '::blanks (c.behind + d.front - 1) := by
    have happart : 0 < c.behind + d.front := happart
    obtain ⟨n,hn⟩ : ∃ n, c.behind + d.front = n+1 := ⟨c.behind + d.front - 1,by omega⟩
    rw [blanks,blanks,List.replicate_append_replicate,hn,List.replicate_succ]
    rfl
  rw [written_cons,words_blanks_append,written_cons d,words_blanks_append,← List.append_assoc (blanks c.behind),hblanks,
    List.cons_append,words_append_space,words_solid hc,words_blanks_append]
  rfl

/-- Splitting gives just the cells where each is one word and there is a blank between any two. -/
theorem words_written_iff (cells : List Cell) :
    words (written cells) = cells.map Cell.text ↔
      (∀ c ∈ cells, Solid c.text) ∧ cells.IsChain Cell.Apart := by
  constructor
  · intro h
    have hsolid : ∀ c ∈ cells, Solid c.text := by
      intro c hc
      refine solid_of_mem_words (t := written cells) ?_
      rw [h]
      exact List.mem_map_of_mem hc
    refine ⟨hsolid,?_⟩
    induction cells with
    | nil => exact List.isChain_nil
    | cons c cells ih =>
      cases cells with
      | nil => exact List.isChain_singleton c
      | cons d cells =>
        have hc := hsolid c List.mem_cons_self
        have hd := hsolid d (by simp)
        by_cases happart : c.Apart d
        · rw [words_apart hc happart,List.map_cons,List.cons.injEq] at h
          exact List.isChain_cons_cons.mpr ⟨happart,ih h.2 (fun e he => hsolid e (List.mem_cons_of_mem _ he))⟩
        · have hzero : c.behind = 0 ∧ d.front = 0 := by
            unfold Cell.Apart at happart
            omega
          -- nothing stands between the cells, and the first word goes on into the second cell
          obtain ⟨x,rest,hx⟩ := List.exists_cons_of_ne_nil hd.nonempty
          rw [written_cons,words_blanks_append,written_cons,hzero.1,hzero.2,hx] at h
          obtain ⟨e,ws,hwords,hlead⟩ := words_solid_append hc (x::(rest ++ (blanks d.behind ++ written cells)))
          have htight : x ≠ ' ' := by
            rintro rfl
            exact hd.tight (by rw [hx]; exact List.mem_cons_self)
          have hmem := hlead x rfl htight
          have hfirst := h.symm.trans hwords
          rw [List.map_cons,List.cons.injEq] at hfirst
          have hnil : e = [] := List.append_right_eq_self.mp hfirst.1.symm
          rw [hnil] at hmem
          cases hmem
  · rintro ⟨hsolid,hchain⟩
    induction cells with
    | nil => rfl
    | cons c cells ih =>
      have hc := hsolid c List.mem_cons_self
      cases cells with
      | nil =>
        rw [written_cons,words_blanks_append,written,List.flatMap_nil,List.append_nil,words_append_blanks,
          words_solid hc]
        rfl
      | cons d cells =>
        obtain ⟨happart,hrest⟩ := List.isChain_cons_cons.mp hchain
        rw [words_apart hc happart,ih (fun e he => hsolid e (List.mem_cons_of_mem _ he)) hrest]
        rfl

end Nightshade.Foundation.Columns
