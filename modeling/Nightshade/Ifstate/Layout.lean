import Mathlib
import Nightshade.Foundation.Columns

/-! Rows of a table. A column has a width that includes the gap to the next one, and a cell that is wider
than its column pushes the others on. -/
namespace Nightshade.Ifstate
open Foundation.Columns

/-- Which edge of its column a cell is pushed against. -/
inductive Align where
  | left
  | right
  deriving DecidableEq

/-- A fixed set of column widths. -/
structure Layout where
  columns : List (ℕ × Align)

/-- A cell in its column, with the blanks that pad it. -/
def padInto (column : ℕ × Align) (cell : String) : Cell :=
  let pad := column.1 - cell.toList.length
  match column.2 with
  | .left => ⟨0,cell.toList,pad⟩
  | .right => ⟨pad,cell.toList,0⟩

/-- The cells in their columns; those past the last column are not padded. -/
def placed : List (ℕ × Align) → List String → List Cell
  | _, [] => []
  | [], cell::cells => ⟨0,cell.toList,0⟩::placed [] cells
  | column::columns, cell::cells => padInto column cell::placed columns cells

/-- One row; the blanks at its end are taken off. -/
def Layout.row (layout : Layout) (cells : List String) : String :=
  String.ofList ((written (placed layout.columns cells)).rdropWhile (· = ' '))

/-- How wide the column of names has to be. -/
def nameWidth (names : List String) (minimum : ℕ) : ℕ :=
  max minimum ((names.map (fun name => name.toList.length)).foldl max 0 + 1)

/-- A table: how it is laid out, what stands above it, and its rows. -/
structure Table where
  layout : Layout
  header : List String
  rows : List (List String)

def Table.text (table : Table) : String :=
  String.join ((table.header::table.rows).map (fun cells => table.layout.row cells ++ "\n"))

/-- The rows of a table are read back: splitting each at its blanks gives its cells in order. -/
def Table.ReadBack (table : Table) : Prop :=
  ∀ cells ∈ table.rows, words (table.layout.row cells).toList = cells.map String.toList

/-- A column of names, and columns of numbers behind it. -/
def right (nameWidth : ℕ) (widths : List ℕ) : Layout := ⟨(nameWidth,.left)::widths.map (fun width => (width,.right))⟩

/-! ### When a row is read back -/

lemma text_placed (columns : List (ℕ × Align)) (cells : List String) :
    (placed columns cells).map Cell.text = cells.map String.toList := by
  induction cells generalizing columns with
  | nil => cases columns <;> rfl
  | cons cell cells ih =>
    cases columns with
    | nil => rw [placed,List.map_cons,ih,List.map_cons]
    | cons column columns =>
      have htext : (padInto column cell).text = cell.toList := by
        unfold padInto
        cases column.2 <;> rfl
      rw [placed,List.map_cons,htext,ih,List.map_cons]

lemma words_rdropWhile (t : List Char) : words (t.rdropWhile (· = ' ')) = words t := by
  have hblanks : t.rtakeWhile (· = ' ') = blanks (t.rtakeWhile (· = ' ')).length :=
    List.eq_replicate_iff.mpr ⟨rfl,fun c hc => by simpa using List.mem_rtakeWhile_imp hc⟩
  have hsplit := List.rdropWhile_append_rtakeWhile (p := (· = ' ')) (l := t)
  calc words (t.rdropWhile (· = ' '))
      = words (t.rdropWhile (· = ' ') ++ t.rtakeWhile (· = ' ')) := by rw [hblanks,words_append_blanks]
    _ = words t := by rw [hsplit]

/-- A row is read back where each cell is one word and there is a blank between any two. -/
theorem row_readBack_iff (layout : Layout) (cells : List String) :
    words (layout.row cells).toList = cells.map String.toList ↔
      (∀ cell ∈ cells, Solid cell.toList) ∧ (placed layout.columns cells).IsChain Cell.Apart := by
  have hsolid : (∀ c ∈ placed layout.columns cells, Solid c.text) ↔ ∀ cell ∈ cells, Solid cell.toList := by
    have htext := text_placed layout.columns cells
    constructor
    · intro h cell hcell
      have hmem : cell.toList ∈ (placed layout.columns cells).map Cell.text := htext ▸ List.mem_map_of_mem hcell
      obtain ⟨c,hc,heq⟩ := List.mem_map.mp hmem
      exact heq ▸ h c hc
    · intro h c hc
      have hmem : c.text ∈ cells.map String.toList := htext ▸ List.mem_map_of_mem hc
      obtain ⟨cell,hcell,heq⟩ := List.mem_map.mp hmem
      exact heq ▸ h cell hcell
  rw [Layout.row,String.toList_ofList,words_rdropWhile,← text_placed layout.columns cells,words_written_iff,hsolid]

/-- Numbers in a row: each but the first needs a blank in its own column. -/
lemma chain_right_iff (widths : List ℕ) (cells : List String) (h : cells.length = widths.length) :
    (placed (widths.map (fun width => (width,Align.right))) cells).IsChain Cell.Apart ↔
      ∀ p ∈ widths.tail.zip cells.tail, p.2.toList.length < p.1 := by
  induction widths generalizing cells with
  | nil =>
    rw [List.eq_nil_of_length_eq_zero h]
    simp [placed]
  | cons width widths ih =>
    obtain ⟨cell,cells,rfl⟩ := List.exists_cons_of_length_eq_add_one h
    have hlen : cells.length = widths.length := by simpa using h
    cases widths with
    | nil =>
      rw [List.eq_nil_of_length_eq_zero hlen]
      simp [placed]
    | cons next widths =>
      obtain ⟨other,cells,rfl⟩ := List.exists_cons_of_length_eq_add_one hlen
      have ih := ih (other::cells) hlen
      rw [List.map_cons,placed] at ih ⊢
      rw [List.map_cons,placed,List.isChain_cons_cons,ih,List.tail_cons,List.tail_cons,List.tail_cons,List.tail_cons,
        List.zip_cons_cons,List.forall_mem_cons]
      have hgap : (padInto (width,.right) cell).Apart (padInto (next,.right) other) ↔ other.toList.length < next := by
        simp only [Cell.Apart,padInto]
        omega
      rw [hgap]

/-- A name that leaves a blank in its column, and numbers behind it. -/
theorem row_right_iff {width : ℕ} {name : String} (widths : List ℕ) (cells : List String)
    (hlen : cells.length = widths.length) (hname : name.toList.length < width)
    (hcells : ∀ cell ∈ cells, Solid cell.toList) :
    words ((right width widths).row (name::cells)).toList = (name::cells).map String.toList ↔
      Solid name.toList ∧ ∀ p ∈ widths.tail.zip cells.tail, p.2.toList.length < p.1 := by
  have hchain : (placed (right width widths).columns (name::cells)).IsChain Cell.Apart ↔
      (placed (widths.map (fun width => (width,Align.right))) cells).IsChain Cell.Apart := by
    rw [right,placed]
    cases widths with
    | nil =>
      rw [List.eq_nil_of_length_eq_zero hlen]
      simp [placed]
    | cons first widths =>
      obtain ⟨cell,cells,rfl⟩ := List.exists_cons_of_length_eq_add_one hlen
      rw [List.map_cons,placed,List.isChain_cons_cons]
      have hgap : (padInto (width,.left) name).Apart (padInto (first,.right) cell) := by
        simp only [Cell.Apart,padInto]
        omega
      exact and_iff_right hgap
  rw [row_readBack_iff,hchain,chain_right_iff widths cells hlen,List.forall_mem_cons,and_iff_left hcells]

lemma le_foldl_max {l : List ℕ} {n m : ℕ} (h : n ∈ l ∨ n ≤ m) : n ≤ l.foldl max m := by
  induction l generalizing m with
  | nil =>
    obtain h | h := h
    · cases h
    · exact h
  | cons k l ih =>
    rw [List.foldl_cons]
    obtain h | h := h
    · obtain rfl | h := List.mem_cons.mp h
      · exact ih (.inr (le_max_right _ _))
      · exact ih (.inl h)
    · exact ih (.inr (h.trans (le_max_left _ _)))

/-- The column of names holds each of them and a blank. -/
theorem lt_nameWidth {names : List String} {name : String} (h : name ∈ names) (minimum : ℕ) :
    name.toList.length < nameWidth names minimum := by
  have hle := le_foldl_max (m := 0) (.inl (List.mem_map_of_mem (f := fun name : String => name.toList.length) h))
  unfold nameWidth
  omega

/-- A printed number is one word. -/
theorem solid_number (n : ℕ) : Solid (toString n).toList := by
  rw [Nat.toString_eq_repr,Nat.toList_repr]
  refine ⟨Nat.toDigits_ne_nil,fun h => ?_⟩
  have hdigit := Nat.isDigit_of_mem_toDigits (b := 10) (by decide) (by decide) h
  revert hdigit
  decide

/-- A number has room, and a blank before it, while it is below a power of ten. -/
theorem length_number_lt {n width : ℕ} (h : 1 < width) : (toString n).toList.length < width ↔ n < 10^(width-1) := by
  rw [Nat.toString_eq_repr,Nat.toList_repr,← Nat.length_toDigits_le_iff (by decide : 1 < 10) (by omega)]
  omega

end Nightshade.Ifstate
