import Mathlib

/-! JSON values, and the text they are printed as. Printing is unambiguous: what follows a value
can be told from the value. -/
namespace Nightshade.Foundation

/-- Keys are text, and stand in some order. -/
inductive Json where
  | null
  | number (n : ℕ)
  | string (s : String)
  | array (items : List Json)
  | object (fields : List (String × Json))

namespace Json

/-- Induction over values: what holds of the items holds of an array, and so for objects. -/
theorem induct {P : Json → Prop} (null : P .null) (number : ∀ n, P (.number n)) (string : ∀ s, P (.string s))
    (array : ∀ items, (∀ j ∈ items, P j) → P (.array items))
    (object : ∀ fields, (∀ e ∈ fields, P e.2) → P (.object fields)) (j : Json) : P j := by
  refine @Json.rec P (fun items => ∀ j ∈ items, P j) (fun fields => ∀ e ∈ fields, P e.2) (fun e => P e.2)
    null number string (fun items h => array items h) (fun fields h => object fields h)
    (by simp) (fun j items hj hitems => ?_) (by simp) (fun e fields he hfields => ?_) (fun _ _ h => h) j
  · exact List.forall_mem_cons.mpr ⟨hj,hitems⟩
  · exact List.forall_mem_cons.mpr ⟨he,hfields⟩

/-! ### Printing -/

def hexDigit (n : ℕ) : Char := (['0','1','2','3','4','5','6','7','8','9','a','b','c','d','e','f'][n]?).getD '0'

/-- A character as it stands in a string. -/
def escape (c : Char) : List Char :=
  if c = '"' then ['\\','"']
  else if c = '\\' then ['\\','\\']
  else if c = '\x08' then ['\\','b']
  else if c = '\t' then ['\\','t']
  else if c = '\n' then ['\\','n']
  else if c = '\x0c' then ['\\','f']
  else if c = '\r' then ['\\','r']
  else if c.toNat < 32 then ['\\','u','0','0',hexDigit (c.toNat / 16),hexDigit (c.toNat % 16)]
  else [c]

def text (s : String) : List Char := '"'::s.toList.flatMap escape ++ ['"']

/-- The start of a line, so many levels in. -/
def newline (depth : ℕ) : List Char := '\n'::List.replicate (2*depth) ' '

/-- The parts behind the first one, and the end. -/
def rest (depth : ℕ) (close : Char) : List (List Char) → List Char
  | [] => newline depth ++ [close]
  | part::parts => ','::newline (depth+1) ++ part ++ rest depth close parts

/-- Parts on lines of their own, between two brackets. -/
def wrap (depth : ℕ) (opening close : Char) : List (List Char) → List Char
  | [] => [opening,close]
  | part::parts => opening::newline (depth+1) ++ part ++ rest depth close parts

mutual

def print (depth : ℕ) : Json → List Char
  | .null => ['n','u','l','l']
  | .number n => (toString n).toList
  | .string s => text s
  | .array items => wrap depth '[' ']' (printAll (depth+1) items)
  | .object fields => wrap depth '{' '}' (printFields (depth+1) fields)
termination_by structural j => j

def printAll (depth : ℕ) : List Json → List (List Char)
  | [] => []
  | j::items => j.print depth::printAll depth items
termination_by structural items => items

def printFields (depth : ℕ) : List (String × Json) → List (List Char)
  | [] => []
  | (key,j)::fields => (text key ++ [':',' '] ++ j.print depth)::printFields depth fields
termination_by structural fields => fields

end

/-- A value on lines, each level two columns further in. -/
def pretty (j : Json) : String := String.ofList (j.print 0)

example : (object [("a",array [number 1,string "b\n"]),("c",array [])]).pretty =
    "\x7b\n  \"a\": [\n    1,\n    \"b\\n\"\n  ],\n  \"c\": []\n\x7d" := by decide +kernel

/-! ### Reading back -/

/-- The character that a text starts with, and what follows it. -/
def unescape : List Char → Option (Char × List Char)
  | '\\':: 'u':: '0':: '0'::a::b::rest =>
    let digit := fun c : Char => if c.isDigit then c.toNat-48 else c.toNat-87
    some (Char.ofNat (16*digit a+digit b),rest)
  | '\\':: 'b'::rest => some ('\x08',rest)
  | '\\':: 't'::rest => some ('\t',rest)
  | '\\':: 'n'::rest => some ('\n',rest)
  | '\\':: 'f'::rest => some ('\x0c',rest)
  | '\\':: 'r'::rest => some ('\r',rest)
  | '\\'::c::rest => some (c,rest)
  | c::rest => some (c,rest)
  | [] => none

theorem unescape_escape (c : Char) (rest : List Char) : unescape (escape c ++ rest) = some (c,rest) := by
  unfold escape
  split_ifs with hquote hslash hb ht hn hf hr hcontrol
  · rw [hquote]
    rfl
  · rw [hslash]
    rfl
  · rw [hb]
    rfl
  · rw [ht]
    rfl
  · rw [hn]
    rfl
  · rw [hf]
    rfl
  · rw [hr]
    rfl
  · obtain ⟨n,hlt,rfl⟩ : ∃ n < 32, c = Char.ofNat n := ⟨c.toNat,hcontrol,(Char.ofNat_toNat c).symm⟩
    interval_cases n <;> rfl
  · simp only [List.cons_append,List.nil_append]
    unfold unescape
    split <;> simp_all

theorem escape_ne_quote (c : Char) (rest more : List Char) : escape c ++ rest ≠ '"'::more := by
  intro h
  have hread := unescape_escape c rest
  rw [h] at hread
  obtain ⟨rfl,-⟩ : '"' = c ∧ more = rest := by simpa [unescape] using hread
  simp [escape] at h

theorem escapes_inj (cs ds rest more : List Char)
    (h : cs.flatMap escape ++ '"'::rest = ds.flatMap escape ++ '"'::more) : cs = ds ∧ rest = more := by
  induction cs generalizing ds with
  | nil =>
    cases ds with
    | nil => exact ⟨rfl,List.tail_eq_of_cons_eq h⟩
    | cons d ds =>
      rw [List.flatMap_cons,List.append_assoc] at h
      exact absurd h.symm (escape_ne_quote d _ _)
  | cons c cs ih =>
    rw [List.flatMap_cons,List.append_assoc] at h
    cases ds with
    | nil => exact absurd h (escape_ne_quote c _ _)
    | cons d ds =>
      rw [List.flatMap_cons,List.append_assoc] at h
      have hread := congrArg unescape h
      rw [unescape_escape,unescape_escape,Option.some_inj,Prod.mk.injEq] at hread
      obtain ⟨hcs,hrest⟩ := ih ds hread.2
      exact ⟨by rw [hread.1,hcs],hrest⟩

theorem text_inj (s t : String) (rest more : List Char) (h : text s ++ rest = text t ++ more) :
    s = t ∧ rest = more := by
  simp only [text,List.cons_append,List.append_assoc,List.nil_append,List.cons.injEq,true_and] at h
  have hcs := escapes_inj s.toList t.toList rest more h
  exact ⟨String.toList_inj.mp hcs.1,hcs.2⟩

/-- What a number can be told from. -/
def Clear (rest : List Char) : Prop := ∀ c ∈ rest.head?, c.isDigit = false

theorem number_inj (n m : ℕ) {rest more : List Char} (hrest : Clear rest) (hmore : Clear more)
    (h : (toString n).toList ++ rest = (toString m).toList ++ more) : n = m ∧ rest = more := by
  have hdigits (k : ℕ) : ∀ c ∈ (toString k).toList, c.isDigit = true := by
    intro c hc
    rw [Nat.toString_eq_repr,Nat.toList_repr] at hc
    exact Nat.isDigit_of_mem_toDigits (by omega) (by omega) hc
  have hread (k : ℕ) (tail : List Char) (htail : Clear tail) :
      ((toString k).toList ++ tail).takeWhile Char.isDigit = (toString k).toList := by
    rw [List.takeWhile_append_of_pos (hdigits k)]
    cases tail with
    | nil => simp
    | cons c tail =>
      have hc : c.isDigit = false := htail c rfl
      simp [hc]
  have hsame : (toString n).toList = (toString m).toList := by
    rw [← hread n rest hrest,h,hread m more hmore]
  rw [hsame] at h
  exact ⟨Nat.repr_inj.mp (String.toList_inj.mp hsame),List.append_cancel_left h⟩

/-- A part is read off the front of any text that does not go on with a digit. -/
def ReadBy {α : Type} (code : α → List Char) (a : α) : Prop :=
  ∀ b rest more, Clear rest → Clear more → code a ++ rest = code b ++ more → a = b ∧ rest = more

theorem clear_rest (depth : ℕ) (close : Char) (parts : List (List Char)) (more : List Char) :
    Clear (rest depth close parts ++ more) := by
  cases parts with
  | nil => simp [Clear,rest,newline]
  | cons part parts => simp [Clear,rest]

section Parts

variable {α : Type} {code : α → List Char} (depth : ℕ) (close : Char)

theorem rest_inj (as bs : List α) (hread : ∀ a ∈ as, ReadBy code a) (tail more : List Char)
    (h : rest depth close (as.map code) ++ tail = rest depth close (bs.map code) ++ more) :
    as = bs ∧ tail = more := by
  induction as generalizing bs with
  | nil =>
    cases bs with
    | nil => exact ⟨rfl,List.append_cancel_left h⟩
    | cons b bs => simp [rest,newline] at h
  | cons a as ih =>
    cases bs with
    | nil => simp [rest,newline] at h
    | cons b bs =>
      simp only [List.map_cons,rest,List.cons_append,List.append_assoc,List.cons.injEq,true_and] at h
      have hpart := hread a (List.mem_cons_self) b _ _ (clear_rest depth close _ tail)
        (clear_rest depth close _ more) (List.append_cancel_left h)
      have hparts := ih bs (fun c hc => hread c (List.mem_cons_of_mem a hc)) hpart.2
      exact ⟨by rw [hpart.1,hparts.1],hparts.2⟩

theorem wrap_inj (opening : Char) (hclose : close ≠ '\n') (as bs : List α) (hread : ∀ a ∈ as, ReadBy code a)
    (tail more : List Char)
    (h : wrap depth opening close (as.map code) ++ tail = wrap depth opening close (bs.map code) ++ more) :
    as = bs ∧ tail = more := by
  cases as with
  | nil =>
    cases bs with
    | nil => exact ⟨rfl,List.append_cancel_left h⟩
    | cons b bs => simp [wrap,newline,hclose] at h
  | cons a as =>
    cases bs with
    | nil => simp [wrap,newline,Ne.symm hclose] at h
    | cons b bs =>
      simp only [List.map_cons,wrap,List.cons_append,List.append_assoc,List.cons.injEq,true_and] at h
      have hpart := hread a (List.mem_cons_self) b _ _ (clear_rest depth close _ tail)
        (clear_rest depth close _ more) (List.append_cancel_left h)
      have hparts := rest_inj depth close as bs (fun c hc => hread c (List.mem_cons_of_mem a hc)) tail more
        hpart.2
      exact ⟨by rw [hpart.1,hparts.1],hparts.2⟩

end Parts

theorem printAll_eq (depth : ℕ) (items : List Json) : printAll depth items = items.map (print depth) := by
  induction items with
  | nil => rfl
  | cons j items ih => rw [printAll,ih,List.map_cons]

def printField (depth : ℕ) (field : String × Json) : List Char :=
  text field.1 ++ [':',' '] ++ field.2.print depth

theorem printFields_eq (depth : ℕ) (fields : List (String × Json)) :
    printFields depth fields = fields.map (printField depth) := by
  induction fields with
  | nil => rfl
  | cons field fields ih => rw [printFields,ih,List.map_cons,printField]

/-- Which of the five sorts a value is of. -/
def sort : Json → ℕ
  | .null => 0
  | .number _ => 1
  | .string _ => 2
  | .array _ => 3
  | .object _ => 4

def sortOf (lead : Char) : ℕ :=
  if lead = 'n' then 0 else if lead.isDigit then 1 else if lead = '"' then 2 else if lead = '[' then 3 else 4

theorem wrap_head (depth : ℕ) (opening close : Char) (parts : List (List Char)) :
    ∃ cs, wrap depth opening close parts = opening::cs := by
  cases parts with
  | nil => exact ⟨_,rfl⟩
  | cons part parts => exact ⟨_,rfl⟩

/-- The first character tells the sort. -/
theorem print_head (j : Json) (depth : ℕ) : ∃ c cs, j.print depth = c::cs ∧ sortOf c = j.sort := by
  cases j with
  | null => exact ⟨_,_,rfl,rfl⟩
  | number n =>
    cases h : (toString n).toList with
    | nil =>
      rw [Nat.toString_eq_repr,Nat.toList_repr] at h
      exact absurd h Nat.toDigits_ne_nil
    | cons c cs =>
      have hdigit : c.isDigit = true := by
        rw [Nat.toString_eq_repr,Nat.toList_repr] at h
        refine Nat.isDigit_of_mem_toDigits (b := 10) (n := n) (by omega) (by omega) ?_
        rw [h]
        exact List.mem_cons_self
      have hn : c ≠ 'n' := by
        intro hc
        rw [hc] at hdigit
        exact absurd hdigit (by decide)
      exact ⟨c,cs,h,by simp [sortOf,sort,hdigit,hn]⟩
  | string s => exact ⟨_,_,rfl,rfl⟩
  | array items =>
    obtain ⟨cs,hcs⟩ := wrap_head depth '[' ']' (printAll (depth+1) items)
    exact ⟨_,cs,hcs,rfl⟩
  | object fields =>
    obtain ⟨cs,hcs⟩ := wrap_head depth '{' '}' (printFields (depth+1) fields)
    exact ⟨_,cs,hcs,rfl⟩

theorem sort_eq {j k : Json} {depth : ℕ} {rest more : List Char}
    (h : j.print depth ++ rest = k.print depth ++ more) : j.sort = k.sort := by
  obtain ⟨c,cs,hj,hc⟩ := print_head j depth
  obtain ⟨d,ds,hk,hd⟩ := print_head k depth
  rw [hj,hk] at h
  rw [← hc,← hd,(List.cons.inj h).1]

theorem readBy_printField {depth : ℕ} {field : String × Json} (h : ReadBy (print depth) field.2) :
    ReadBy (printField depth) field := by
  intro other rest more hrest hmore hsame
  simp only [printField,List.append_assoc] at hsame
  have hkey := text_inj _ _ _ _ hsame
  have hvalue := h other.2 rest more hrest hmore (List.append_cancel_left hkey.2)
  exact ⟨Prod.ext hkey.1 hvalue.1,hvalue.2⟩

theorem readBy_print (j : Json) : ∀ depth, ReadBy (print depth) j := by
  induction j using induct with
  | null =>
    intro depth k rest more _ _ h
    have hsort := sort_eq h
    cases k with
    | null => exact ⟨rfl,List.append_cancel_left h⟩
    | _ => simp [sort] at hsort
  | number n =>
    intro depth k rest more hrest hmore h
    have hsort := sort_eq h
    cases k with
    | number m =>
      have hsame := number_inj n m hrest hmore h
      exact ⟨by rw [hsame.1],hsame.2⟩
    | _ => simp [sort] at hsort
  | string s =>
    intro depth k rest more _ _ h
    have hsort := sort_eq h
    cases k with
    | string t =>
      have hsame := text_inj s t rest more h
      exact ⟨by rw [hsame.1],hsame.2⟩
    | _ => simp [sort] at hsort
  | array items ih =>
    intro depth k rest more _ _ h
    have hsort := sort_eq h
    cases k with
    | array others =>
      simp only [print,printAll_eq] at h
      have hsame := wrap_inj depth ']' '[' (by decide) items others (fun j hj => ih j hj (depth+1)) rest more h
      exact ⟨by rw [hsame.1],hsame.2⟩
    | _ => simp [sort] at hsort
  | object fields ih =>
    intro depth k rest more _ _ h
    have hsort := sort_eq h
    cases k with
    | object others =>
      simp only [print,printFields_eq] at h
      have hsame := wrap_inj depth '}' '{' (by decide) fields others
        (fun field hfield => readBy_printField (ih field hfield (depth+1))) rest more h
      exact ⟨by rw [hsame.1],hsame.2⟩
    | _ => simp [sort] at hsort

theorem pretty_injective : Function.Injective pretty := by
  intro j k h
  have hchars : j.print 0 = k.print 0 := by simpa [pretty] using congrArg String.toList h
  exact (readBy_print j 0 k [] [] (by simp [Clear]) (by simp [Clear]) (by rw [hchars])).1

end Json
end Nightshade.Foundation
