import Mathlib

/-! Finite maps and sets kept as lists in strictly increasing key order, as an ordered tree
iterates over them. The list functions carry no proof, so that an inductive type can nest
them; `SortedMap` packages a list with its order. -/
namespace Nightshade.Foundation

variable {K V : Type*} [LinearOrder K]

/-- The keys increase strictly from front to back. -/
def KeySorted (l : List (K × V)) : Prop := l.Pairwise (fun a b => a.1 < b.1)

/-- Put a value under a key, replacing the one that is there. -/
def insertKey (k : K) (v : V) : List (K × V) → List (K × V)
  | [] => [(k,v)]
  | (k',v')::rest =>
    if k < k' then (k,v)::(k',v')::rest
    else if k = k' then (k,v)::rest
    else (k',v')::insertKey k v rest

/-- Drop a key and its value. -/
def eraseKey (k : K) (l : List (K × V)) : List (K × V) := l.filter (fun e => e.1 ≠ k)

@[simp] theorem keySorted_nil : KeySorted ([] : List (K × V)) := List.Pairwise.nil

theorem keySorted_cons {e : K × V} {l : List (K × V)} :
    KeySorted (e::l) ↔ (∀ d ∈ l, e.1 < d.1) ∧ KeySorted l := List.pairwise_cons

theorem keySorted_append {l r : List (K × V)} :
    KeySorted (l ++ r) ↔ KeySorted l ∧ KeySorted r ∧ ∀ a ∈ l, ∀ b ∈ r, a.1 < b.1 :=
  List.pairwise_append

lemma mem_insertKey {k : K} {v : V} {l : List (K × V)} {e : K × V} (h : e ∈ insertKey k v l) :
    e = (k,v) ∨ e ∈ l := by
  induction l with
  | nil => simpa [insertKey] using h
  | cons d l ih =>
    obtain ⟨k',v'⟩ := d
    rw [insertKey] at h
    split_ifs at h <;> grind

theorem keySorted_insertKey (k : K) (v : V) {l : List (K × V)} (h : KeySorted l) :
    KeySorted (insertKey k v l) := by
  induction l with
  | nil => simp [insertKey,KeySorted]
  | cons d l ih =>
    obtain ⟨k',v'⟩ := d
    obtain ⟨hd,hl⟩ := keySorted_cons.mp h
    rw [insertKey]
    split_ifs with hlt heq
    · refine keySorted_cons.mpr ⟨fun e he => ?_,h⟩
      rcases List.mem_cons.mp he with rfl | he
      · exact hlt
      · exact hlt.trans (hd e he)
    · subst heq
      exact keySorted_cons.mpr ⟨hd,hl⟩
    · refine keySorted_cons.mpr ⟨fun e he => ?_,ih hl⟩
      rcases mem_insertKey he with rfl | he
      · exact lt_of_le_of_ne (not_lt.mp hlt) (Ne.symm heq)
      · exact hd e he

theorem keySorted_eraseKey (k : K) {l : List (K × V)} (h : KeySorted l) :
    KeySorted (eraseKey k l) := h.filter _

lemma lookup_cons_ite (k j : K) (v : V) (l : List (K × V)) :
    ((k,v)::l).lookup j = if j = k then some v else l.lookup j := by
  rw [List.lookup_cons]
  by_cases h : j = k
  · simp [h]
  · simp [h,beq_eq_false_iff_ne.mpr h]

@[simp] theorem lookup_insertKey_self (k : K) (v : V) (l : List (K × V)) :
    (insertKey k v l).lookup k = some v := by
  induction l with
  | nil => simp [insertKey]
  | cons d l ih =>
    obtain ⟨k',v'⟩ := d
    rw [insertKey]
    split_ifs with hlt heq
    · simp
    · simp
    · rw [lookup_cons_ite,if_neg heq,ih]

theorem lookup_insertKey_of_ne {k j : K} (h : j ≠ k) (v : V) (l : List (K × V)) :
    (insertKey k v l).lookup j = l.lookup j := by
  induction l with
  | nil => rw [insertKey,lookup_cons_ite,if_neg h]
  | cons d l ih =>
    obtain ⟨k',v'⟩ := d
    rw [insertKey]
    split_ifs with hlt heq
    · rw [lookup_cons_ite,if_neg h]
    · subst heq
      rw [lookup_cons_ite,lookup_cons_ite,if_neg h,if_neg h]
    · rw [lookup_cons_ite,lookup_cons_ite,ih]

theorem lookup_insertKey (k j : K) (v : V) (l : List (K × V)) :
    (insertKey k v l).lookup j = if j = k then some v else l.lookup j := by
  split_ifs with h
  · rw [h,lookup_insertKey_self]
  · exact lookup_insertKey_of_ne h v l

theorem lookup_eraseKey (k j : K) (l : List (K × V)) :
    (eraseKey k l).lookup j = if j = k then none else l.lookup j := by
  induction l with
  | nil => simp [eraseKey]
  | cons d l ih =>
    obtain ⟨k',v'⟩ := d
    unfold eraseKey at ih ⊢
    by_cases hk : k' = k
    · subst hk
      rw [List.filter_cons_of_neg (by simp),ih,lookup_cons_ite]
      split_ifs <;> rfl
    · rw [List.filter_cons_of_pos (by simpa using hk),lookup_cons_ite,lookup_cons_ite,ih]
      by_cases hj : j = k'
      · rw [if_pos hj,if_pos hj,if_neg (hj ▸ hk)]
      · rw [if_neg hj,if_neg hj]

lemma lookup_eq_none_of_lt {k : K} {l : List (K × V)} (h : ∀ e ∈ l, k < e.1) :
    l.lookup k = none := by
  rw [List.lookup_eq_none_iff]
  intro e he
  simpa using (h e he).ne

lemma lookup_eq_none_of_gt {k : K} {l : List (K × V)} (h : ∀ e ∈ l, e.1 < k) :
    l.lookup k = none := by
  rw [List.lookup_eq_none_iff]
  intro e he
  simpa using (h e he).ne'

theorem lookup_eq_some_iff_mem {l : List (K × V)} (h : KeySorted l) {k : K} {v : V} :
    l.lookup k = some v ↔ (k,v) ∈ l := by
  induction l with
  | nil => simp
  | cons d l ih =>
    obtain ⟨k',v'⟩ := d
    obtain ⟨hd,hl⟩ := keySorted_cons.mp h
    rw [lookup_cons_ite]
    by_cases hk : k = k'
    · subst hk
      have hn : (k,v) ∉ l := fun hm => lt_irrefl k (hd (k,v) hm)
      simp [hn,eq_comm]
    · simp [hk,ih hl]

/-- Two sorted lists with the same lookups are the same list. -/
theorem keySorted_ext {l r : List (K × V)} (hl : KeySorted l) (hr : KeySorted r)
    (h : ∀ k, l.lookup k = r.lookup k) : l = r := by
  have hnodup : ∀ {s : List (K × V)}, KeySorted s → s.Nodup := fun hs =>
    List.Pairwise.imp (S := (· ≠ ·)) (fun hab heq => (heq ▸ hab).ne rfl) hs
  have hp : l.Perm r := by
    rw [List.perm_ext_iff_of_nodup (hnodup hl) (hnodup hr)]
    rintro ⟨k,v⟩
    rw [← lookup_eq_some_iff_mem hl,← lookup_eq_some_iff_mem hr,h k]
  exact hp.eq_of_pairwise (fun a b _ _ hab hba => absurd hab (not_lt.mpr hba.le)) hl hr

@[simp] theorem insertKey_insertKey (k : K) (v w : V) (l : List (K × V)) :
    insertKey k v (insertKey k w l) = insertKey k v l := by
  induction l with
  | nil => simp [insertKey]
  | cons d l ih =>
    obtain ⟨k',v'⟩ := d
    rw [insertKey,insertKey]
    split_ifs with hlt heq
    · rw [insertKey,if_neg (lt_irrefl k),if_pos rfl]
    · rw [insertKey,if_neg (lt_irrefl k),if_pos rfl]
    · rw [insertKey,if_neg hlt,if_neg heq,ih]

/-- Putting back what is there. -/
theorem insertKey_lookup {k : K} {v : V} {l : List (K × V)} (hs : KeySorted l)
    (h : l.lookup k = some v) : insertKey k v l = l :=
  keySorted_ext (keySorted_insertKey k v hs) hs (fun j => by
    rw [lookup_insertKey]
    split_ifs with hj
    · rw [hj,h]
    · rfl)

/-- A key above all others goes to the back. -/
theorem insertKey_of_gt {k : K} (v : V) {l : List (K × V)} (h : ∀ e ∈ l, e.1 < k) :
    insertKey k v l = l ++ [(k,v)] := by
  induction l with
  | nil => rfl
  | cons d l ih =>
    obtain ⟨k',v'⟩ := d
    have hk : k' < k := h _ List.mem_cons_self
    rw [insertKey,if_neg hk.le.not_gt,if_neg hk.ne',ih (fun e he => h e (List.mem_cons_of_mem _ he))]
    rfl

/-- Replacing the value of the last key. -/
theorem insertKey_append_self {k : K} (v w : V) {l : List (K × V)} (h : ∀ e ∈ l, e.1 < k) :
    insertKey k v (l ++ [(k,w)]) = l ++ [(k,v)] := by
  induction l with
  | nil => simp [insertKey]
  | cons d l ih =>
    obtain ⟨k',v'⟩ := d
    have hk : k' < k := h _ List.mem_cons_self
    rw [List.cons_append,insertKey,if_neg hk.le.not_gt,if_neg hk.ne',
      ih (fun e he => h e (List.mem_cons_of_mem _ he))]
    rfl

theorem lookup_append_self {k : K} (v : V) {l : List (K × V)} (h : ∀ e ∈ l, e.1 < k) :
    (l ++ [(k,v)]).lookup k = some v := by
  rw [List.lookup_append,lookup_eq_none_of_gt h]
  simp

/-! ### Maps side by side -/

/-- What is found under a key is an entry. -/
theorem lookup_mem {k : K} {v : V} {l : List (K × V)} (h : l.lookup k = some v) : (k,v) ∈ l := by
  obtain ⟨before,after,rfl,-⟩ := List.lookup_eq_some_iff.mp h
  simp

/-- Lists that go side by side have a partner for every element. -/
theorem exists_of_forall₂_mem {α β : Type*} {R : α → β → Prop} {l : List α} {r : List β} (h : List.Forall₂ R l r)
    {b : β} (hb : b ∈ r) : ∃ a ∈ l, R a b := by
  induction h with
  | nil => cases hb
  | @cons a c l r hac _ ih =>
    obtain rfl | hb := List.mem_cons.mp hb
    · exact ⟨a,List.mem_cons_self,hac⟩
    · obtain ⟨d,hd,hR⟩ := ih hb
      exact ⟨d,List.mem_cons_of_mem a hd,hR⟩

/-- Entries with the keys of a map are in its order. -/
theorem keySorted_of_forall₂ {W : Type*} {l : List (K × V)} {r : List (K × W)} (hl : KeySorted l)
    (h : List.Forall₂ (fun e m => m.1 = e.1) l r) : KeySorted r := by
  induction h with
  | nil => exact keySorted_nil
  | @cons e m l r hem hrest ih =>
    obtain ⟨hfirst,hl⟩ := keySorted_cons.mp hl
    refine keySorted_cons.mpr ⟨fun d hd => ?_,ih hl⟩
    obtain ⟨e',he',hd⟩ := exists_of_forall₂_mem hrest hd
    rw [hem,hd]
    exact hfirst e' he'

theorem isSome_of_rel {W : Type*} {R : V → W → Prop} {x : Option V} {y : Option W} (h : Option.Rel R x y) :
    x.isSome = y.isSome := by
  cases h with
  | none => rfl
  | some _ => rfl

/-- Entries side by side are found under the same keys. -/
theorem rel_lookup {W : Type*} {R : V → W → Prop} {l : List (K × V)} {r : List (K × W)}
    (h : List.Forall₂ (fun e d => e.1 = d.1 ∧ R e.2 d.2) l r) (k : K) : Option.Rel R (l.lookup k) (r.lookup k) := by
  induction h with
  | nil => exact .none
  | @cons e d l r hed _ ih =>
    rw [lookup_cons_ite,lookup_cons_ite,hed.1]
    split
    · exact .some hed.2
    · exact ih

/-! ### Sorted sets -/

/-- Add an element to a list kept in increasing order; a second copy is not kept. -/
def insertElem (k : K) : List K → List K
  | [] => [k]
  | k'::rest => if k < k' then k::k'::rest else if k = k' then k'::rest else k'::insertElem k rest

theorem mem_insertElem {k j : K} {l : List K} : j ∈ insertElem k l ↔ j = k ∨ j ∈ l := by
  induction l with
  | nil => simp [insertElem]
  | cons k' l ih =>
    rw [insertElem]
    split_ifs with hlt heq
    · simp
    · subst heq; simp
    · simp [ih]; tauto

theorem sorted_insertElem (k : K) {l : List K} (h : l.Pairwise (· < ·)) :
    (insertElem k l).Pairwise (· < ·) := by
  induction l with
  | nil => simp [insertElem]
  | cons k' l ih =>
    obtain ⟨hd,hl⟩ := List.pairwise_cons.mp h
    rw [insertElem]
    split_ifs with hlt heq
    · refine List.pairwise_cons.mpr ⟨fun e he => ?_,h⟩
      rcases List.mem_cons.mp he with rfl | he
      · exact hlt
      · exact hlt.trans (hd e he)
    · exact h
    · refine List.pairwise_cons.mpr ⟨fun e he => ?_,ih hl⟩
      rcases mem_insertElem.mp he with rfl | he
      · exact lt_of_le_of_ne (not_lt.mp hlt) (Ne.symm heq)
      · exact hd e he

theorem insertElem_of_gt {k : K} {l : List K} (h : ∀ e ∈ l, e < k) :
    insertElem k l = l ++ [k] := by
  induction l with
  | nil => rfl
  | cons k' l ih =>
    have hk : k' < k := h _ List.mem_cons_self
    rw [insertElem,if_neg hk.le.not_gt,if_neg hk.ne',ih (fun e he => h e (List.mem_cons_of_mem _ he))]
    rfl

theorem mem_insertElems {j : K} {ks l : List K} :
    j ∈ ks.foldl (fun out k => insertElem k out) l ↔ j ∈ ks ∨ j ∈ l := by
  induction ks generalizing l with
  | nil => simp
  | cons k ks ih =>
    rw [List.foldl_cons,ih,mem_insertElem,List.mem_cons]
    tauto

theorem sorted_insertElems {ks l : List K} (h : l.Pairwise (· < ·)) :
    (ks.foldl (fun out k => insertElem k out) l).Pairwise (· < ·) := by
  induction ks generalizing l with
  | nil => exact h
  | cons k ks ih => exact ih (sorted_insertElem k h)

/-! ### Maps that carry their order -/

/-- A finite map over ordered keys, as its entries in key order. -/
structure SortedMap (K V : Type*) [LinearOrder K] where
  entries : List (K × V)
  sorted : KeySorted entries

namespace SortedMap

def empty : SortedMap K V := ⟨[],keySorted_nil⟩

def get? (m : SortedMap K V) (k : K) : Option V := m.entries.lookup k

def insert (m : SortedMap K V) (k : K) (v : V) : SortedMap K V :=
  ⟨insertKey k v m.entries,keySorted_insertKey k v m.sorted⟩

def erase (m : SortedMap K V) (k : K) : SortedMap K V :=
  ⟨eraseKey k m.entries,keySorted_eraseKey k m.sorted⟩

/-- Keep the entries whose key passes a test. -/
def filterKeys (m : SortedMap K V) (p : K → Bool) : SortedMap K V :=
  ⟨m.entries.filter (fun e => p e.1),m.sorted.filter _⟩

/-- Insert entries one after another; later ones win. -/
def insertAll (m : SortedMap K V) (l : List (K × V)) : SortedMap K V :=
  l.foldl (fun m e => m.insert e.1 e.2) m

def keys (m : SortedMap K V) : List K := m.entries.map Prod.fst

instance : Inhabited (SortedMap K V) := ⟨empty⟩

@[ext] theorem ext_get? {m n : SortedMap K V} (h : ∀ k, m.get? k = n.get? k) : m = n := by
  obtain ⟨l,hl⟩ := m
  obtain ⟨r,hr⟩ := n
  have he : l = r := keySorted_ext hl hr h
  subst he
  rfl

@[simp] theorem get?_empty (k : K) : (empty : SortedMap K V).get? k = none := rfl

@[simp] theorem get?_insert (m : SortedMap K V) (k j : K) (v : V) :
    (m.insert k v).get? j = if j = k then some v else m.get? j := lookup_insertKey k j v m.entries

@[simp] theorem get?_erase (m : SortedMap K V) (k j : K) :
    (m.erase k).get? j = if j = k then none else m.get? j := lookup_eraseKey k j m.entries

theorem get?_eq_some_iff {m : SortedMap K V} {k : K} {v : V} :
    m.get? k = some v ↔ (k,v) ∈ m.entries := lookup_eq_some_iff_mem m.sorted

@[simp] theorem get?_filterKeys (m : SortedMap K V) (p : K → Bool) (k : K) :
    (m.filterKeys p).get? k = if p k then m.get? k else none := by
  apply Option.ext
  intro v
  rw [get?_eq_some_iff,filterKeys,List.mem_filter,← get?_eq_some_iff]
  by_cases h : p k <;> simp [h]

theorem mem_keys {m : SortedMap K V} {k : K} : k ∈ m.keys ↔ (m.get? k).isSome := by
  rw [Option.isSome_iff_exists]
  simp [keys,get?_eq_some_iff]

/-! ### Inserting many entries -/

section InsertAll
variable {m : SortedMap K V} {l : List (K × V)} {k : K} {v : V}

theorem insertAll_concat (m : SortedMap K V) (l : List (K × V)) (e : K × V) :
    m.insertAll (l ++ [e]) = (m.insertAll l).insert e.1 e.2 := by
  rw [insertAll,List.foldl_append]
  rfl

theorem insertAll_append (m : SortedMap K V) (l r : List (K × V)) :
    m.insertAll (l ++ r) = (m.insertAll l).insertAll r := List.foldl_append

/-- Batch after batch is all of them at once. -/
theorem foldl_insertAll {A : Type*} (f : A → List (K × V)) (as : List A) (m : SortedMap K V) :
    as.foldl (fun out a => out.insertAll (f a)) m = m.insertAll (as.flatMap f) := by
  induction as generalizing m with
  | nil => rfl
  | cons a as ih => rw [List.foldl_cons,ih,List.flatMap_cons,insertAll_append]

theorem get?_insertAll_of_notMem (h : ∀ w, (k,w) ∉ l) : (m.insertAll l).get? k = m.get? k := by
  induction l using List.reverseRecOn with
  | nil => rfl
  | append_singleton l e ih =>
    have hne : k ≠ e.1 := by
      rintro rfl
      exact h e.2 (by simp)
    rw [insertAll_concat,get?_insert,if_neg hne,ih (fun w hw => h w (by simp [hw]))]

theorem isSome_get?_insertAll (h : (k,v) ∈ l) : ((m.insertAll l).get? k).isSome := by
  induction l using List.reverseRecOn with
  | nil => cases h
  | append_singleton l e ih =>
    rw [insertAll_concat,get?_insert]
    by_cases heq : k = e.1
    · rw [if_pos heq]
      rfl
    · rw [if_neg heq]
      obtain h | h := List.mem_append.mp h
      · exact ih h
      · exact absurd (congrArg Prod.fst (List.mem_singleton.mp h)) heq

theorem mem_of_get?_insertAll (h : (empty.insertAll l).get? k = some v) : (k,v) ∈ l := by
  induction l using List.reverseRecOn with
  | nil => cases h
  | append_singleton l e ih =>
    rw [insertAll_concat,get?_insert] at h
    split_ifs at h with hk
    · cases h
      rw [hk]
      simp
    · exact List.mem_append_left _ (ih h)

/-- An entry is found when no other has its key. -/
theorem get?_insertAll_of_unique (hmem : (k,v) ∈ l) (hunique : ∀ w, (k,w) ∈ l → w = v) :
    (m.insertAll l).get? k = some v := by
  induction l using List.reverseRecOn with
  | nil => cases hmem
  | append_singleton l e ih =>
    rw [insertAll_concat,get?_insert]
    split_ifs with hk
    · rw [hunique e.2 (by rw [hk]; simp)]
    · refine ih ?_ (fun w hw => hunique w (List.mem_append_left _ hw))
      obtain hmem | hlast := List.mem_append.mp hmem
      · exact hmem
      · rw [← List.mem_singleton.mp hlast] at hk
        exact absurd rfl hk

end InsertAll

end SortedMap
end Nightshade.Foundation
