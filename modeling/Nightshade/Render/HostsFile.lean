import Mathlib
import Nightshade.Schema.RoundTrip
import Nightshade.Render.System
import Nightshade.Render.UnitFile

/-! The file of host names, which belongs to the administrator: which lines of it are left as they are. -/
namespace Nightshade.Render.System
open Foundation Schema Lexer

/-- The lines of a file byte by byte: what stands before each newline, and behind the last one. -/
def rawLines (text : List Char) : List (List Char) :=
  (text.splitOn '\n').dropLast ++ (text.splitOn '\n').getLast?.toList.filter (· ≠ [])

/-- A line that is maintained here. -/
def marked (line : List Char) : Bool :=
  HOSTS_MARKER.toList.isSuffixOf ((line.reverse.dropWhile isWhitespace).reverse)

/-- The lines of the administrator. -/
def foreign (text : List Char) : List (List Char) := (rawLines text).filter (fun line => !marked line)

/-- The line for a name. -/
def hostsLine (name : String) (domain : Option String) : List Char :=
  ("127.0.1.1\t" ++ (match domain with
    | some domain => name ++ "." ++ domain ++ "\t" ++ name
    | none => name) ++ "\t" ++ HOSTS_MARKER).toList

/-- An edit that leaves the lines of the administrator alone, puts one line for the name, and would change
nothing if it were made again. -/
structure Conservative (existing name : String) (domain : Option String) : Prop where
  kept : foreign (hostsText existing name domain).toList = foreign existing.toList
  one : (rawLines (hostsText existing name domain).toList).filter marked = [hostsLine name domain]
  again : hostsText (hostsText existing name domain) name domain = hostsText existing name domain

/-! ### Carriage returns -/

/-- A line as it is read, less the carriage return before its end. -/
def chomped (line : List Char) : List Char := if line.getLast? = some '\r' then line.dropLast else line

theorem chomped_eq_self {line : List Char} : chomped line = line ↔ line.getLast? ≠ some '\r' := by
  unfold chomped
  by_cases hlast : line.getLast? = some '\r'
  · rw [if_pos hlast]
    refine ⟨fun h => ?_,fun h => absurd hlast h⟩
    have hlength := congrArg List.length h
    have hne : line ≠ [] := fun hnil => by simp [hnil] at hlast
    have hpos := List.length_pos_of_ne_nil hne
    rw [List.length_dropLast] at hlength
    omega
  · rw [if_neg hlast]
    exact ⟨fun _ => hlast,fun _ => rfl⟩

theorem map_chomped {ls : List (List Char)} : ls.map chomped = ls ↔ ∀ l ∈ ls, l.getLast? ≠ some '\r' := by
  have heach : ls.map chomped = ls.map id ↔ ∀ l ∈ ls, chomped l = id l := List.map_inj_left
  rw [List.map_id] at heach
  rw [heach]
  exact forall₂_congr (fun _ _ => chomped_eq_self)

/-- The end of a line does not make it another's. -/
theorem marked_chomped (line : List Char) : marked (chomped line) = marked line := by
  unfold chomped
  by_cases hlast : line.getLast? = some '\r'
  · obtain ⟨front,rfl⟩ := List.getLast?_eq_some_iff.mp hlast
    rw [if_pos hlast,List.dropLast_concat,marked,marked,List.reverse_append]
    rfl
  · rw [if_neg hlast]

theorem lines_eq (text : List Char) : lines text =
    (text.splitOn '\n').dropLast.map chomped ++ (text.splitOn '\n').getLast?.toList.filter (· ≠ []) := rfl

theorem hostsText_toList (existing name : String) (domain : Option String) :
    (hostsText existing name domain).toList =
      unlines ((lines existing.toList).filter (fun line => !marked line) ++ [hostsLine name domain]) := by
  have hjoin : ∀ (ls : List (List Char)) (last : List Char), ['\n'].intercalate (ls ++ [last]) ++ ['\n'] =
      unlines (ls ++ [last]) := by
    intro ls last
    induction ls with
    | nil => simp [unlines]
    | cons l ls ih =>
      have hne : ls ++ [last] ≠ [] := by simp
      rw [List.cons_append,List.intercalate_cons_of_ne_nil hne,List.append_assoc,ih]
      simp [unlines]
  have hmap : ∀ ls : List (List Char), (ls.map String.ofList).map String.toList = ls := by
    intro ls
    rw [List.map_map]
    exact List.map_id'' (fun l => String.toList_ofList) ls
  have hend : "\n".toList = ['\n'] := by decide
  unfold hostsText
  rw [String.toList_append,String.toList_intercalate,List.map_append,hmap,List.map_singleton,hend,hjoin]
  rfl

section Edit
variable {existing name : String} {domain : Option String}

theorem marked_hostsLine (name : String) (domain : Option String) : marked (hostsLine name domain) = true := by
  have hmarker : HOSTS_MARKER.toList = "# nightshade hostnam".toList ++ ['e'] := by decide +kernel
  have hword : isWhitespace 'e' = false := by decide
  unfold marked hostsLine
  rw [String.toList_append,hmarker,← List.append_assoc,List.reverse_concat,
    List.dropWhile_cons_of_neg (by rw [hword]; exact Bool.false_ne_true),List.reverse_cons,List.reverse_reverse,
    List.append_assoc,List.isSuffixOf_iff_suffix]
  exact List.suffix_append _ _

theorem newline_hostsLine (hname : '\n' ∉ name.toList) (hdomain : ∀ d ∈ domain, '\n' ∉ d.toList) :
    '\n' ∉ hostsLine name domain := by
  have haddress : '\n' ∉ "127.0.1.1\t".toList := by decide +kernel
  have htab : '\n' ∉ "\t".toList := by decide +kernel
  have hdot : '\n' ∉ ".".toList := by decide +kernel
  have hmarker : '\n' ∉ HOSTS_MARKER.toList := by decide +kernel
  unfold hostsLine
  cases domain with
  | none => simp only [String.toList_append,List.mem_append,not_or]; exact ⟨⟨⟨haddress,hname⟩,htab⟩,hmarker⟩
  | some d =>
    simp only [String.toList_append,List.mem_append,not_or]
    exact ⟨⟨⟨haddress,⟨⟨⟨hname,hdot⟩,hdomain d rfl⟩,htab⟩,hname⟩,htab⟩,hmarker⟩

theorem rawLines_pure (text : List Char) : ∀ line ∈ rawLines text, '\n' ∉ line := by
  intro line hline
  apply newline_not_mem_splitOn text line
  obtain hline | hline := List.mem_append.mp hline
  · exact List.mem_of_mem_dropLast hline
  · exact List.mem_of_getLast? (Option.mem_toList.mp (List.mem_filter.mp hline).1)

theorem lines_pure (text : List Char) : ∀ line ∈ lines text, '\n' ∉ line := by
  intro line hline
  rw [lines_eq] at hline
  obtain hline | hline := List.mem_append.mp hline
  · obtain ⟨raw,hraw,rfl⟩ := List.mem_map.mp hline
    have hpure := newline_not_mem_splitOn text raw (List.mem_of_mem_dropLast hraw)
    unfold chomped
    split_ifs
    · exact fun hmem => hpure (List.mem_of_mem_dropLast hmem)
    · exact hpure
  · exact rawLines_pure text line (List.mem_append_right _ hline)

/-- Without a carriage return before an end the lines are read as they are. -/
theorem lines_foreign {text : List Char} (h : ∀ line ∈ foreign text, line.getLast? ≠ some '\r') :
    (lines text).filter (fun line => !marked line) = foreign text := by
  unfold foreign at h ⊢
  rw [lines_eq,rawLines,List.filter_append,List.filter_append,List.filter_map] 
  have hsame : (fun line => !marked line) ∘ chomped = fun line => !marked line :=
    funext fun line => congrArg Bool.not (marked_chomped line)
  rw [hsame]
  congr 1
  apply map_chomped.mpr
  intro line hline
  apply h
  rw [rawLines,List.filter_append]
  exact List.mem_append_left _ hline

/-- What is written back has the lines that were kept, and the one for the name. -/
theorem rawLines_unlines {ls : List (List Char)} (h : ∀ l ∈ ls, '\n' ∉ l) :
    rawLines (unlines ls) = ls ∧ lines (unlines ls) = ls.map chomped := by
  rw [rawLines,lines_eq,splitOn_unlines h]
  simp

/-- The lines that are written back, as bytes and as they are read again. -/
theorem written_lines (hname : '\n' ∉ name.toList) (hdomain : ∀ d ∈ domain, '\n' ∉ d.toList) {ls : List (List Char)}
    (hpure : ∀ l ∈ ls, '\n' ∉ l) (hforeign : ∀ l ∈ ls, marked l = false) :
    foreign (unlines (ls ++ [hostsLine name domain])) = ls ∧
      (rawLines (unlines (ls ++ [hostsLine name domain]))).filter marked = [hostsLine name domain] ∧
      (lines (unlines (ls ++ [hostsLine name domain]))).filter (fun line => !marked line) = ls.map chomped := by
  have hall : ∀ l ∈ ls ++ [hostsLine name domain], '\n' ∉ l := by
    intro l hl
    obtain hl | hl := List.mem_append.mp hl
    · exact hpure l hl
    · rw [List.mem_singleton.mp hl]
      exact newline_hostsLine hname hdomain
  obtain ⟨hraw,hlines⟩ := rawLines_unlines hall
  have hline := marked_hostsLine name domain
  have hkeep : ls.filter (fun line => !marked line) = ls := by
    rw [List.filter_eq_self]
    intro l hl
    rw [hforeign l hl]
    rfl
  have hdrop : ls.filter marked = [] := by
    rw [List.filter_eq_nil_iff]
    intro l hl
    simp [hforeign l hl]
  have hkeep' : (ls.map chomped).filter (fun line => !marked line) = ls.map chomped := by
    rw [List.filter_eq_self]
    intro l hl
    obtain ⟨raw,hmem,rfl⟩ := List.mem_map.mp hl
    rw [marked_chomped,hforeign raw hmem]
    rfl
  refine ⟨?_,?_,?_⟩
  · rw [foreign,hraw,List.filter_append,hkeep]
    simp [hline]
  · rw [hraw,List.filter_append,hdrop]
    simp [hline]
  · rw [hlines,List.map_append,List.filter_append,hkeep']
    simp [marked_chomped,hline]

/-- The edit is conservative exactly when no line of the administrator ends in a carriage return. -/
theorem conservative_iff (existing name : String) (domain : Option String) (hname : '\n' ∉ name.toList)
    (hdomain : ∀ d ∈ domain, '\n' ∉ d.toList) :
    Conservative existing name domain ↔ ∀ line ∈ foreign existing.toList, line.getLast? ≠ some '\r' := by
  let kept := (lines existing.toList).filter (fun line => !marked line)
  have hpure : ∀ l ∈ kept, '\n' ∉ l := fun l hl => lines_pure _ l (List.mem_filter.mp hl).1
  have hforeign : ∀ l ∈ kept, marked l = false := fun l hl => by simpa using (List.mem_filter.mp hl).2
  have htext : (hostsText existing name domain).toList = unlines (kept ++ [hostsLine name domain]) :=
    hostsText_toList existing name domain
  obtain ⟨hkept,hone,hread⟩ := written_lines hname hdomain hpure hforeign
  have hagain : (hostsText (hostsText existing name domain) name domain).toList =
      unlines (kept.map chomped ++ [hostsLine name domain]) := by
    rw [hostsText_toList,htext,hread]
  constructor
  · rintro ⟨hsame,-,hidem⟩
    rw [htext,hkept] at hsame
    -- What is read a second time is what was read the first time.
    have hchomped : kept.map chomped = kept := by
      rw [← String.toList_inj,hagain,htext] at hidem
      have hlines := congrArg foreign hidem
      rw [hkept,(written_lines hname hdomain (fun l hl => ?_) (fun l hl => ?_)).1] at hlines
      · exact hlines
      · obtain ⟨raw,hraw,rfl⟩ := List.mem_map.mp hl
        unfold chomped
        split_ifs
        · exact fun hmem => hpure raw hraw (List.mem_of_mem_dropLast hmem)
        · exact hpure raw hraw
      · obtain ⟨raw,hraw,rfl⟩ := List.mem_map.mp hl
        rw [marked_chomped,hforeign raw hraw]
    intro line hline
    rw [← hsame] at hline
    exact map_chomped.mp hchomped line hline
  · intro hends
    have hsame : kept = foreign existing.toList := lines_foreign hends
    have hchomped : kept.map chomped = kept := map_chomped.mpr (fun l hl => hends l (hsame ▸ hl))
    refine ⟨?_,?_,?_⟩
    · rw [htext,hkept,hsame]
    · rw [htext,hone]
    · apply String.toList_inj.mp
      rw [hagain,htext,hchomped]

end Edit

/-- A file without a newline at its end, and an old name in it. -/
theorem unended_conservative : Conservative "127.0.1.1\tbox\t# nightshade hostname\n10.0.0.1\tfiles" "fw" none :=
  (conservative_iff "127.0.1.1\tbox\t# nightshade hostname\n10.0.0.1\tfiles" "fw" none (by decide) nofun).mpr
    (by decide +kernel)

/-- A file from another system loses its carriage returns. -/
theorem returns_lost : ¬Conservative "10.0.0.1\tfiles\r\n" "fw" none :=
  fun h => absurd h.kept (by decide +kernel)

end Nightshade.Render.System
