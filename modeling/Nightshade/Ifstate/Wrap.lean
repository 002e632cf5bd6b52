import Mathlib
import Nightshade.Schema.Words

/-! Text that is wrapped at the blanks between its words. -/
namespace Nightshade.Ifstate
open Foundation Schema

/-- One more word: on the line that is being filled where there is room for it, else on the next. -/
def wrapWord (width : ℕ) (filled : List String × String) (word : String) : List String × String :=
  if filled.2 = "" then (filled.1,word)
  else if filled.2.length + 1 + word.length ≤ width then (filled.1,filled.2 ++ " " ++ word)
  else (filled.1 ++ [filled.2],word)

/-- The lines, with the one that was being filled. -/
def flush (filled : List String × String) : List String :=
  if filled.2 = "" then filled.1 else filled.1 ++ [filled.2]

/-- Greedy word wrap. A word longer than the width is left long. -/
def wrap (text : String) (width : ℕ) : List String :=
  flush ((splitWhitespace text).foldl (wrapWord width) ([],""))

/-- Lines that hold some words: each has one, none is wider than it has to be, and none has room for
the first word of the next. -/
structure Wrapped (width : ℕ) (words lines : List String) : Prop where
  carried : lines.flatMap splitWhitespace = words
  filled : ∀ line ∈ lines, splitWhitespace line ≠ []
  narrow : ∀ line ∈ lines, line.length ≤ width ∨ splitWhitespace line = [line]
  full : lines.IsChain (fun line next => ∀ word ∈ (splitWhitespace next).head?, width < line.length + 1 + word.length)

theorem Wrapped.nonempty {width : ℕ} {words lines : List String} (h : Wrapped width words lines) : "" ∉ lines :=
  fun hmem => h.filled "" hmem rfl

/-- The line that is being filled holds something where there is any line. -/
structure Filling (width : ℕ) (words : List String) (filled : List String × String) : Prop where
  wrapped : Wrapped width words (flush filled)
  started : filled.2 = "" → filled.1 = []

variable {width : ℕ} {words : List String} {filled : List String × String}

theorem Filling.step {word : String} (h : Filling width words filled) (hword : Word word) :
    Filling width (words ++ [word]) (wrapWord width filled word) := by
  obtain ⟨lines,current⟩ := filled
  have hne : word ≠ "" := fun he => hword.nonempty (by rw [he]; rfl)
  have hone := splitWhitespace_word hword
  have hlines : ∀ next, flush (next,word) = next ++ [word] := fun next => if_neg hne
  unfold wrapWord
  by_cases hempty : current = ""
  · obtain rfl : lines = [] := h.started hempty
    have hwords : words = [] := by
      rw [← h.wrapped.carried]
      simp [flush,hempty]
    rw [if_pos hempty,hwords]
    refine ⟨?_,fun _ => rfl⟩
    rw [hlines]
    exact ⟨by simp [hone],by simp [hone],by simp [hone],List.isChain_singleton _⟩
  · have hflush : flush (lines,current) = lines ++ [current] := if_neg hempty
    obtain ⟨⟨hcarried,hfilled,hnarrow,hfull⟩,-⟩ := h
    rw [hflush] at hcarried hfilled hnarrow hfull
    rw [if_neg hempty]
    by_cases hroom : current.length + 1 + word.length ≤ width
    · have hmore := splitWhitespace_append current hword
      have hlonger : current ++ " " ++ word ≠ "" := fun he => hempty (by simpa using congrArg String.toList he)
      obtain ⟨first,rest,hfirst⟩ := List.exists_cons_of_ne_nil (hfilled current (by simp))
      rw [if_pos hroom]
      refine ⟨?_,fun he => absurd he hlonger⟩
      rw [flush,if_neg hlonger]
      refine ⟨?_,?_,?_,?_⟩
      · rw [← hcarried]
        simp [hmore]
      · intro line hline
        obtain hline | hline := List.mem_append.mp hline
        · exact hfilled line (List.mem_append_left _ hline)
        · rw [List.mem_singleton.mp hline,hmore]
          simp
      · intro line hline
        obtain hline | hline := List.mem_append.mp hline
        · exact hnarrow line (List.mem_append_left _ hline)
        · rw [List.mem_singleton.mp hline]
          left
          simp only [String.length_append]
          exact hroom
      · -- what stands first on the line has not changed
        rw [List.isChain_append] at hfull ⊢
        refine ⟨hfull.1,List.isChain_singleton _,fun line hline next hnext => ?_⟩
        have hlast := hfull.2.2 line hline current rfl
        obtain rfl : current ++ " " ++ word = next := by simpa using hnext
        rw [hmore,hfirst]
        rw [hfirst] at hlast
        exact hlast
    · rw [if_neg hroom]
      refine ⟨?_,fun he => absurd he hne⟩
      rw [hlines]
      refine ⟨?_,?_,?_,?_⟩
      · rw [← hcarried]
        simp [hone]
      · intro line hline
        obtain hline | hline := List.mem_append.mp hline
        · exact hfilled line hline
        · rw [List.mem_singleton.mp hline,hone]
          simp
      · intro line hline
        obtain hline | hline := List.mem_append.mp hline
        · exact hnarrow line hline
        · rw [List.mem_singleton.mp hline]
          exact .inr hone
      · rw [List.isChain_append]
        refine ⟨hfull,List.isChain_singleton _,fun line hline next hnext => ?_⟩
        obtain rfl : current = line := by simpa using hline
        obtain rfl : word = next := by simpa using hnext
        rw [hone]
        rintro _ ⟨rfl⟩
        exact not_le.mp hroom

theorem Filling.foldl {more : List String} (h : Filling width words filled) (hmore : ∀ word ∈ more, Word word) :
    Filling width (words ++ more) (more.foldl (wrapWord width) filled) := by
  induction more generalizing words filled with
  | nil => simpa using h
  | cons word more ih =>
    have hstep := h.step (hmore word List.mem_cons_self)
    have hrest := ih hstep (fun w hw => hmore w (List.mem_cons_of_mem _ hw))
    rwa [List.append_assoc] at hrest

/-- Wrapping loses nothing: the lines hold the words of the text in order, with no line empty, none wider than
the width but for a word that is, and none with room for the word that starts the next. -/
theorem wrap_wrapped (text : String) (width : ℕ) : Wrapped width (splitWhitespace text) (wrap text width) := by
  have hnone : Filling width [] ([],"") := by
    refine ⟨?_,fun _ => rfl⟩
    exact ⟨rfl,nofun,nofun,List.isChain_nil⟩
  exact (hnone.foldl (fun word hword => word_of_mem hword)).wrapped

example : wrap "10M/half 10M/full\t100M/full" 17 = ["10M/half 10M/full","100M/full"] := by decide +kernel

end Nightshade.Ifstate
