import Mathlib
import Nightshade.Schema.Plain
import Nightshade.Render.Networkd

/-! Unit files read back: the settings of a file that was written key by key are the keys it was
written with. -/
namespace Nightshade.Render
open Foundation Schema Lexer

/-! ### Lines -/

/-- Lines, each with its end. -/
def unlines (ls : List (List Char)) : List Char := ls.flatMap (· ++ ['\n'])

theorem unlines_append (ls ms : List (List Char)) : unlines (ls ++ ms) = unlines ls ++ unlines ms :=
  List.flatMap_append

theorem not_newline {l : List Char} (h : Plain l) : '\n' ∉ l := by
  intro hmem
  exact absurd (h '\n' hmem) (by decide)

theorem not_return {l : List Char} (h : Plain l) : l.getLast? ≠ some '\r' := by
  intro hlast
  exact absurd (h '\r' (List.mem_of_getLast? hlast)) (by decide)

theorem splitOn_unlines {ls : List (List Char)} (h : ∀ l ∈ ls, '\n' ∉ l) :
    (unlines ls).splitOn '\n' = ls ++ [[]] := by
  induction ls with
  | nil => rfl
  | cons l ls ih =>
    have hrest := ih (fun m hm => h m (List.mem_cons_of_mem _ hm))
    have hl := h l List.mem_cons_self
    have htext : unlines (l::ls) = l ++ '\n'::unlines ls := by simp [unlines]
    rw [htext,List.splitOn_eq_splitOnP,
      List.splitOnP_append_cons_of_forall_mem (fun c hc => by simpa using fun he : c = '\n' => hl (he ▸ hc)) _ (by simp),
      ← List.splitOn_eq_splitOnP,hrest]
    rfl

theorem lines_unlines {ls : List (List Char)} (h : ∀ l ∈ ls, Plain l) : lines (unlines ls) = ls := by
  unfold lines
  rw [splitOn_unlines (fun l hl => not_newline (h l hl))]
  dsimp only
  rw [List.dropLast_concat,List.getLast?_concat]
  have hmap : ls.map (fun l => if l.getLast? = some '\r' then l.dropLast else l) = ls.map id :=
    List.map_congr_left (fun l hl => if_neg (not_return (h l hl)))
  rw [hmap,List.map_id]
  simp

/-! ### Trimming -/

/-- Without the blanks at either end. -/
abbrev trimmed (s : List Char) : List Char := trim isWhitespace s

theorem trim_eq (p : Char → Bool) (s : List Char) : trim p s = (s.dropWhile p).rdropWhile p := rfl

theorem trimmed_eq_self {s : List Char} (h : ∀ c ∈ s, isWhitespace c = false) : trimmed s = s := by
  have hfront : s.dropWhile isWhitespace = s := by
    cases s with
    | nil => rfl
    | cons c s => rw [List.dropWhile_cons_of_neg (by simp [h c List.mem_cons_self])]
  rw [trimmed,trim_eq,hfront,List.rdropWhile_eq_self_iff]
  intro hne
  simp [h _ (List.getLast_mem hne)]

theorem trimmed_tight {s : String} (h : Tight s.toList) : String.ofList (trimmed s.toList) = s := by
  rw [trimmed_eq_self h.unspaced,String.ofList_toList]

/-- What follows a character that is no blank keeps its blanks in front. -/
theorem trim_after {p : Char → Bool} {k v : List Char} {d : Char} (hk : ∀ c ∈ k, p c = false) (hd : p d = false) :
    trim p (k ++ d::v) = k ++ d::v.rdropWhile p := by
  have hfront : (k ++ d::v).dropWhile p = k ++ d::v := by
    cases k with
    | nil => rw [List.nil_append,List.dropWhile_cons_of_neg (by simp [hd])]
    | cons c k => rw [List.cons_append,List.dropWhile_cons_of_neg (by simp [hk c List.mem_cons_self])]
  rw [trim_eq,hfront]
  induction v using List.reverseRecOn with
  | nil =>
    rw [List.rdropWhile_nil,List.rdropWhile_concat_neg]
    simp [hd]
  | append_singleton v c ih =>
    have hassoc : k ++ d::(v ++ [c]) = (k ++ d::v) ++ [c] := by simp
    by_cases hc : p c
    · rw [hassoc,List.rdropWhile_concat_pos _ _ _ hc,List.rdropWhile_concat_pos _ _ _ hc,ih]
      cases k with
      | nil => rw [List.nil_append,List.dropWhile_cons_of_neg (by simp [hd])]
      | cons e k => rw [List.cons_append,List.dropWhile_cons_of_neg (by simp [hk e List.mem_cons_self])]
    · rw [hassoc,List.rdropWhile_concat_neg _ _ _ hc,List.rdropWhile_concat_neg _ _ _ hc]
      simp

theorem trim_rdropWhile (p : Char → Bool) (s : List Char) : trim p (s.rdropWhile p) = trim p s := by
  induction s using List.reverseRecOn with
  | nil => rfl
  | append_singleton s c ih =>
    by_cases hc : p c
    · rw [List.rdropWhile_concat_pos _ _ _ hc,ih,trim_eq,trim_eq,List.dropWhile_append]
      split_ifs with hempty
      · rw [List.isEmpty_iff.mp hempty,List.dropWhile_cons_of_pos hc]
        rfl
      · rw [List.rdropWhile_concat_pos _ _ _ hc]
    · rw [List.rdropWhile_concat_neg _ _ _ hc]

/-! ### One line -/

/-- Words that keys and sections are named with. -/
def Word (s : String) : Prop := s.toList ≠ [] ∧ ∀ c ∈ s.toList, c.isAlphanum = true

theorem word_ofList {l : List Char} (hne : l ≠ []) (h : l.all Char.isAlphanum = true) : Word (String.ofList l) := by
  unfold Word
  rewrite [String.toList_ofList]
  exact ⟨hne,List.all_eq_true.mp h⟩

theorem alphanum_tight {s : String} (h : Word s) : Tight s.toList := fun c hc => Value.tight_alphanum (h.2 c hc)

namespace Networkd

theorem settingsLine_blank (r : String × Settings) : settingsLine r [] = r := rfl

theorem settingsLine_comment (r : String × Settings) (l : List Char) : settingsLine r ('#'::l) = r := by
  have htrim : trimmed ('#'::l) = '#'::l.rdropWhile isWhitespace :=
    @trim_after isWhitespace [] l '#' (by simp) (by decide)
  unfold settingsLine
  dsimp only
  rw [trimmed] at htrim
  rw [htrim]
  simp

theorem foldl_comments {ls : List (List Char)} (h : ∀ l ∈ ls, ∃ m, l = '#'::m) (r : String × Settings) :
    ls.foldl settingsLine r = r := by
  induction ls with
  | nil => rfl
  | cons l ls ih =>
    obtain ⟨m,rfl⟩ := h l List.mem_cons_self
    rw [List.foldl_cons,settingsLine_comment,ih (fun k hk => h k (List.mem_cons_of_mem _ hk))]

theorem settingsLine_section (r : String × Settings) {name : String} (h : Word name) :
    settingsLine r ('['::name.toList ++ [']']) = (name,r.2) := by
  have htrim : trimmed ('['::name.toList ++ [']']) = '['::name.toList ++ [']'] := by
    apply trimmed_eq_self
    intro c hc
    simp only [List.mem_append,List.mem_cons,List.not_mem_nil,or_false] at hc
    obtain (rfl | hc) | rfl := hc
    · decide
    · exact (alphanum_tight h).unspaced c hc
    · decide
  unfold settingsLine
  dsimp only
  rw [trimmed] at htrim
  rw [htrim]
  simp [sectionName]

theorem splitOnce_at {k v : List Char} (hk : '=' ∉ k) : splitOnce ['='] (k ++ '='::v) = some (k,v) := by
  induction k with
  | nil => simp [splitOnce]
  | cons c k ih =>
    have hc : c ≠ '=' := fun he => hk (he ▸ List.mem_cons_self)
    rw [List.cons_append,splitOnce,if_neg (by simp [Ne.symm hc]),ih (fun hmem => hk (List.mem_cons_of_mem _ hmem))]
    rfl

theorem settingsLine_key (r : String × Settings) {key : String} (hkey : Word key) (value : List Char) :
    settingsLine r (key.toList ++ '='::value) =
      (r.1,r.2.insert (toLex (r.1,key)) ((r.2.get? (toLex (r.1,key))).getD [] ++
        [String.ofList (trimmed value)])) := by
  have htrim : trimmed (key.toList ++ '='::value) = key.toList ++ '='::value.rdropWhile isWhitespace :=
    trim_after (alphanum_tight hkey).unspaced (by decide)
  have hequals : '=' ∉ key.toList := fun hmem => absurd (hkey.2 _ hmem) (by decide)
  have hsplit := @splitOnce_at key.toList (value.rdropWhile isWhitespace) hequals
  have hkeyTrim : trimmed key.toList = key.toList := trimmed_eq_self (alphanum_tight hkey).unspaced
  have hvalueTrim := trim_rdropWhile isWhitespace value
  obtain ⟨c,cs,hcs⟩ := List.exists_cons_of_ne_nil hkey.1
  have halnum : c.isAlphanum = true := hkey.2 c (by rw [hcs]; exact List.mem_cons_self)
  have hhash : c ≠ '#' := fun he => absurd halnum (by rw [he]; decide)
  have hbracket : c ≠ '[' := fun he => absurd halnum (by rw [he]; decide)
  have hsection : sectionName (key.toList ++ '='::value.rdropWhile isWhitespace) = none := by
    rw [hcs,List.cons_append]
    unfold sectionName
    split
    · next rest heq => exact absurd (List.cons.inj heq).1 hbracket
    · rfl
  have hfull : ((key.toList ++ '='::value.rdropWhile isWhitespace).isEmpty ||
      (key.toList ++ '='::value.rdropWhile isWhitespace).head? = some '#') = false := by
    rw [hcs]
    simp [hhash]
  unfold settingsLine
  dsimp only
  rw [trimmed] at htrim hkeyTrim ⊢
  rw [htrim,hsection,hsplit]
  simp only [hfull,Bool.false_eq_true,if_false,hkeyTrim,hvalueTrim,String.ofList_toList]

/-! ### What a file says -/

/-- The settings of a list of keys in sections, values of one key together. -/
def collect (es : List ((String × String) × String)) : Settings :=
  es.foldl (fun out e => out.insert (toLex e.1) ((out.get? (toLex e.1)).getD [] ++ [e.2])) SortedMap.empty

theorem collect_concat (es : List ((String × String) × String)) (e : (String × String) × String) :
    collect (es ++ [e]) =
      (collect es).insert (toLex e.1) (((collect es).get? (toLex e.1)).getD [] ++ [e.2]) := by
  rw [collect,List.foldl_append]
  rfl

/-- The values of a key in a section. -/
def valuesOf (es : List ((String × String) × String)) (sec key : String) : List String :=
  es.filterMap (fun e => if e.1 = (sec,key) then some e.2 else none)

theorem collect_get? (es : List ((String × String) × String)) (sec key : String) :
    (collect es).get? (toLex (sec,key)) =
      if valuesOf es sec key = [] then none else some (valuesOf es sec key) := by
  induction es using List.reverseRecOn with
  | nil => rfl
  | append_singleton es e ih =>
    rw [collect_concat,SortedMap.get?_insert]
    by_cases he : e.1 = (sec,key)
    · have hvalues : valuesOf (es ++ [e]) sec key = valuesOf es sec key ++ [e.2] := by
        simp [valuesOf,List.filterMap_append,he]
      rw [if_pos (by rw [he]),hvalues,if_neg (by simp),he,ih]
      split_ifs with hnone
      · rw [hnone]
        rfl
      · rfl
    · have hvalues : valuesOf (es ++ [e]) sec key = valuesOf es sec key := by
        simp [valuesOf,List.filterMap_append,he]
      have hne : toLex (sec,key) ≠ toLex e.1 := fun h => he (toLex_inj.mp h).symm
      rw [if_neg hne,hvalues,ih]

theorem collect_getD (es : List ((String × String) × String)) (sec key : String) :
    ((collect es).get? (toLex (sec,key))).getD [] = valuesOf es sec key := by
  rw [collect_get?]
  split_ifs with hnone
  · rw [hnone]
    rfl
  · rfl

end Networkd

namespace Ini
open Networkd

/-- What has been written so far: keys in sections, and the section the next key goes into. -/
structure Wrote (ini : Ini) (sec : String) (es : List ((String × String) × String)) : Prop where
  lines : ∃ ls, ini.out.toList = unlines ls ∧ (∀ l ∈ ls, Plain l) ∧
    ∃ last, ls.foldl settingsLine ("",SortedMap.empty) = (last,collect es) ∧ ini.pending.getD last = sec
  pending : ∀ name ∈ ini.pending, Word name

variable {ini : Ini} {sec : String} {es : List ((String × String) × String)}

/-- A file says what was written. -/
theorem Wrote.settings (h : Wrote ini sec es) : settings ini.out = collect es := by
  obtain ⟨ls,hout,hplain,last,hfold,-⟩ := h.lines
  rw [Networkd.settings,hout,lines_unlines hplain,hfold]

/-- The lines of the header. -/
def headerLines : List String :=
  ["# Managed by Nightshade. Do not edit.",
   "#",
   "# This file is generated from /etc/nightshade/config.boot and is rewritten on",
   "# every commit. Changes made here are lost, and are not part of the config the",
   "# next boot will apply."]

/-- The header is its lines. -/
theorem header_lines : new.out.toList = unlines (headerLines.map String.toList) := by
  -- a literal is its characters, which a rewrite sees without evaluating it
  simp only [new,headerLines,List.map_cons,List.map_nil]
  unfold HEADER
  rewrite [String.toList_append,String.toList_append,String.toList_append,String.toList_append]
  iterate 10 rewrite [String.toList_ofList]
  rfl

theorem header_plain : ∀ l ∈ headerLines.map String.toList, Plain l := by
  simp only [headerLines,List.map_cons,List.map_nil]
  iterate 5 rewrite [String.toList_ofList]
  decide

theorem header_comments : ∀ l ∈ headerLines.map String.toList, ∃ m, l = '#'::m := by
  intro l hl
  obtain ⟨line,hline,rfl⟩ := List.mem_map.mp hl
  simp only [headerLines,List.mem_cons,List.not_mem_nil,or_false] at hline
  obtain rfl | rfl | rfl | rfl | rfl := hline
  all_goals
    rewrite [String.toList_ofList]
    exact ⟨_,rfl⟩

theorem wrote_new : Wrote new "" [] where
  lines := ⟨headerLines.map String.toList,header_lines,header_plain,"",foldl_comments header_comments _,rfl⟩
  pending := by simp [new]

theorem Wrote.inSection (h : Wrote ini sec es) {name : String} (hname : Word name) :
    Wrote (ini.inSection name) name es where
  lines := by
    obtain ⟨ls,hout,hplain,last,hfold,-⟩ := h.lines
    exact ⟨ls,hout,hplain,last,hfold,rfl⟩
  pending := by
    intro other hother
    cases hother
    exact hname

theorem plain_assignment {key value : String} (hkey : Word key) (hvalue : Plain value.toList) :
    Plain (key.toList ++ '='::value.toList) := by
  intro c hc
  obtain hc | hc := List.mem_append.mp hc
  · exact (alphanum_tight hkey).plain c hc
  · obtain rfl | hc := List.mem_cons.mp hc
    · decide
    · exact hvalue c hc

theorem plain_header {name : String} (hname : Word name) : Plain ('['::name.toList ++ [']']) := by
  intro c hc
  simp only [List.mem_append,List.mem_cons,List.not_mem_nil,or_false] at hc
  obtain (rfl | hc) | rfl := hc
  · decide
  · exact (alphanum_tight hname).plain c hc
  · decide

theorem Wrote.key (h : Wrote ini sec es) {key value : String} (hkey : Word key) (hvalue : Plain value.toList) :
    Wrote (ini.key key value) sec (es ++ [((sec,key),String.ofList (trimmed value.toList))]) where
  lines := by
    obtain ⟨ls,hout,hplain,last,hfold,hsec⟩ := h.lines
    have hassignment := plain_assignment hkey hvalue
    cases hpending : ini.pending with
    | none =>
      rw [hpending,Option.getD_none] at hsec
      refine ⟨ls ++ [key.toList ++ '='::value.toList],?_,?_,last,?_,hsec⟩
      · simp [Ini.key,hpending,hout,unlines]
      · intro l hl
        obtain hl | hl := List.mem_append.mp hl
        · exact hplain l hl
        · rw [List.mem_singleton.mp hl]
          exact hassignment
      · rw [List.foldl_append,hfold,List.foldl_cons,List.foldl_nil,settingsLine_key _ hkey,collect_concat,hsec]
    | some name =>
      have hname := h.pending name hpending
      rw [hpending,Option.getD_some] at hsec
      refine ⟨ls ++ [[],'['::name.toList ++ [']'],key.toList ++ '='::value.toList],?_,?_,name,?_,hsec⟩
      · simp [Ini.key,hpending,hout,unlines]
      · intro l hl
        simp only [List.mem_append,List.mem_cons,List.not_mem_nil,or_false] at hl
        obtain hl | rfl | rfl | rfl := hl
        · exact hplain l hl
        · simp [Plain]
        · exact plain_header hname
        · exact hassignment
      · rw [List.foldl_append,hfold,List.foldl_cons,List.foldl_cons,List.foldl_cons,List.foldl_nil,
          settingsLine_blank,settingsLine_section _ hname,settingsLine_key _ hkey,collect_concat,hsec]
  pending := by
    intro name hname
    cases hname

theorem Wrote.maybe (h : Wrote ini sec es) {key : String} {value : Option String} (hkey : Word key)
    (hvalue : ∀ v ∈ value, Plain v.toList) :
    Wrote (ini.maybe key value) sec
      (es ++ value.toList.map (fun v => ((sec,key),String.ofList (trimmed v.toList)))) := by
  cases value with
  | none => simpa [Ini.maybe] using h
  | some v => exact h.key hkey (hvalue v rfl)

theorem Wrote.each (h : Wrote ini sec es) {key : String} {values : List String} (hkey : Word key)
    (hvalues : ∀ v ∈ values, Plain v.toList) :
    Wrote (ini.each key values) sec
      (es ++ values.map (fun v => ((sec,key),String.ofList (trimmed v.toList)))) := by
  induction values generalizing ini es with
  | nil => simpa [Ini.each] using h
  | cons v values ih =>
    have hfirst := h.key hkey (hvalues v List.mem_cons_self)
    have hrest := ih hfirst (fun w hw => hvalues w (List.mem_cons_of_mem _ hw))
    rw [List.append_assoc] at hrest
    exact hrest

theorem Wrote.ite (h : Wrote ini sec es) {key value : String} (c : Prop) [Decidable c] (hkey : Word key)
    (hvalue : Tight value.toList) :
    Wrote (if c then ini.key key value else ini) sec (es ++ if c then [((sec,key),value)] else []) := by
  split_ifs with hc
  · have hwritten := h.key hkey hvalue.plain
    rwa [trimmed_tight hvalue] at hwritten
  · simpa using h

end Ini
end Nightshade.Render
