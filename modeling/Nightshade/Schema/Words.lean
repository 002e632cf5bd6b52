import Mathlib
import Nightshade.Foundation.Words
import Nightshade.Schema.Lex

/-! The words of a text, as everything but the tokeniser takes it apart: at the white space. -/
namespace Nightshade.Schema
open Foundation

/-- `str::split_whitespace`. -/
def splitWhitespace (text : String) : List String := (stretches isWhitespace text.toList).map String.ofList

/-- A text that is one word. -/
abbrev Word (word : String) : Prop := Whole isWhitespace word.toList

theorem word_of_mem {word text : String} (h : word ∈ splitWhitespace text) : Word word := by
  obtain ⟨s,hs,rfl⟩ := List.mem_map.mp h
  rw [Word,String.toList_ofList]
  exact whole_of_mem_stretches hs

theorem splitWhitespace_word {word : String} (h : Word word) : splitWhitespace word = [word] := by
  rw [splitWhitespace,stretches_whole h]
  simp

theorem splitWhitespace_append (text : String) {word : String} (h : Word word) :
    splitWhitespace (text ++ " " ++ word) = splitWhitespace text ++ [word] := by
  have htext : (text ++ " " ++ word).toList = text.toList ++ ' '::word.toList := by simp
  rw [splitWhitespace,htext,stretches_append_cons (by decide),stretches_whole h,List.map_append]
  simp [splitWhitespace]

end Nightshade.Schema
