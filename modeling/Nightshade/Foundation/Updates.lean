import Mathlib
import Nightshade.Foundation.SortedMap

/-! Updates of a store that need something to update: each names a key, and goes through only where
something stands under it. -/
namespace Nightshade.Foundation
variable {K V : Type*} [LinearOrder K]

/-- A key, and what becomes of what stands under it: another value, or none. -/
abbrev Update (K V : Type*) := K × (V → Option V)

/-- Put a value under a key, or take away what is there. -/
def SortedMap.put (m : SortedMap K V) (k : K) : Option V → SortedMap K V
  | some v => m.insert k v
  | none => m.erase k

/-- One update after another; nothing is left where a key is missing. -/
def updated : List (Update K V) → SortedMap K V → Option (SortedMap K V)
  | [], m => some m
  | (k,change)::rest, m => (m.get? k).bind (fun v => updated rest (m.put k (change v)))

variable {m m' : SortedMap K V} {k j : K} {us us' : List (Update K V)}

@[simp] theorem SortedMap.get?_put (o : Option V) : (m.put k o).get? j = if j = k then o else m.get? j := by
  cases o with
  | some v => exact SortedMap.get?_insert m k j v
  | none => exact SortedMap.get?_erase m k j

@[simp] theorem updated_nil : updated [] m = some m := rfl

theorem updated_cons {u : Update K V} :
    updated (u::us) m = (m.get? u.1).bind (fun v => updated us (m.put u.1 (u.2 v))) := rfl

theorem updated_append : updated (us ++ us') m = (updated us m).bind (updated us') := by
  induction us generalizing m with
  | nil => rfl
  | cons u us ih =>
    rw [List.cons_append,updated_cons,updated_cons]
    cases m.get? u.1 with
    | none => rfl
    | some v => exact ih

/-- An update that leaves something behind, and one more of the same key, are one update. -/
theorem updated_merge {f : V → V} {g : V → Option V} :
    updated ((k,some ∘ f)::(k,g)::us) m = updated ((k,g ∘ f)::us) m := by
  rw [updated_cons,updated_cons]
  cases m.get? k with
  | none => rfl
  | some v =>
    have hput : (m.put k (some (f v))).put k (g (f v)) = m.put k (g (f v)) := by
      apply SortedMap.ext_get?
      intro j
      simp only [SortedMap.get?_put]
      split_ifs <;> rfl
    simp [updated_cons,hput]

/-- Groups of updates that are one update each. -/
theorem updated_flatMap {A : Type*} {l : List A} {f : A → List (Update K V)} {g : A → Update K V}
    (h : ∀ a ∈ l, ∀ m, updated (f a) m = updated [g a] m) : updated (l.flatMap f) m = updated (l.map g) m := by
  induction l generalizing m with
  | nil => rfl
  | cons a l ih =>
    have hrest : ∀ m, updated (l.flatMap f) m = updated (l.map g) m :=
      fun m => ih (fun b hb => h b (List.mem_cons_of_mem _ hb))
    rw [List.flatMap_cons,List.map_cons,← List.singleton_append,updated_append,updated_append,
      h a List.mem_cons_self m,funext hrest]

/-- Updates of different keys go through when every key is there. -/
theorem isSome_updated (h : (us.map Prod.fst).Nodup) :
    (updated us m).isSome ↔ ∀ u ∈ us, (m.get? u.1).isSome := by
  induction us generalizing m with
  | nil => simp
  | cons u us ih =>
    rw [List.map_cons,List.nodup_cons] at h
    have hother : ∀ e ∈ us, e.1 ≠ u.1 := fun e he heq => h.1 (heq ▸ List.mem_map_of_mem he)
    rw [updated_cons,List.forall_mem_cons]
    cases hget : m.get? u.1 with
    | none => simp
    | some v =>
      simp only [Option.bind_some,ih h.2,Option.isSome_some,true_and]
      refine forall₂_congr (fun e he => ?_)
      rw [SortedMap.get?_put,if_neg (hother e he)]

/-- What updates of different keys leave under a key. -/
theorem get?_updated (h : (us.map Prod.fst).Nodup) (hdone : updated us m = some m') :
    (∀ u ∈ us, m'.get? u.1 = (m.get? u.1).bind u.2) ∧
    ∀ k, (∀ u ∈ us, u.1 ≠ k) → m'.get? k = m.get? k := by
  induction us generalizing m with
  | nil =>
    cases hdone
    exact ⟨nofun,fun _ _ => rfl⟩
  | cons u us ih =>
    rw [List.map_cons,List.nodup_cons] at h
    rw [updated_cons] at hdone
    obtain ⟨v,hget,hrest⟩ := Option.bind_eq_some_iff.mp hdone
    obtain ⟨hchanged,hkept⟩ := ih h.2 hrest
    have hother : ∀ e ∈ us, e.1 ≠ u.1 := fun e he heq => h.1 (heq ▸ List.mem_map_of_mem he)
    refine ⟨List.forall_mem_cons.mpr ⟨?_,fun e he => ?_⟩,fun k hk => ?_⟩
    · rw [hkept u.1 hother,SortedMap.get?_put,if_pos rfl,hget]
      rfl
    · rw [hchanged e he,SortedMap.get?_put,if_neg (hother e he)]
    · rw [hkept k (fun e he => hk e (List.mem_cons_of_mem _ he)),SortedMap.get?_put,
        if_neg (hk u List.mem_cons_self).symm]

end Nightshade.Foundation
