import Mathlib

/-! A ledger of the configurations that a system has run, newest first. A change is kept at once,
or it waits to be confirmed and is undone when nobody confirms it; what is kept or confirmed may
be filed. The moves say what may be entered when, and every ledger they lead to is sound. -/
namespace Nightshade.Foundation

/-- What became of a configuration that was made the running one. -/
inductive EntryStatus where
  /-- It ran before there was anything to enter. -/
  | initial
  | adopted
  | kept
  /-- It is to be confirmed, and what would undo it is not armed yet. -/
  | attempted
  | waiting
  | confirmed
  | undone
  /-- It should have been undone, and that failed. -/
  | abandoned
  /-- It was put back in place of a change that is undone. -/
  | restored
  deriving DecidableEq

namespace EntryStatus

/-- Nothing more can become of it, and it was wanted. -/
def final : EntryStatus → Bool
  | kept | confirmed => true
  | _ => false

/-- It stands with what came before it and says nothing about it. -/
def plain : EntryStatus → Bool
  | adopted | kept | attempted | confirmed | abandoned => true
  | _ => false

end EntryStatus

structure Entry (C : Type*) where
  number : ℕ
  config : C
  standing : EntryStatus

/-- The entry of what runs, those before it, and what has been filed, each newest first. -/
structure Ledger (I C : Type*) where
  head : Entry C
  past : List (Entry C)
  filed : List (I × C)

/-- Entries in which nothing waits: numbered one after another, and whatever was undone is
followed by what ran before it. -/
inductive Settled {C : Type*} : List (Entry C) → Prop
  | opened (c : C) : Settled [⟨0,c,.initial⟩]
  | plain {b : Entry C} {rest : List (Entry C)} (c : C) {standing : EntryStatus}
      (hplain : standing.plain) (h : Settled (b::rest)) :
      Settled (⟨b.number+1,c,standing⟩::b::rest)
  | reverted {b : Entry C} {rest : List (Entry C)} (c : C) (h : Settled (b::rest)) :
      Settled (⟨b.number+2,b.config,.restored⟩::⟨b.number+1,c,.undone⟩::b::rest)

/-- Only the last change can wait, and while it is being undone only what ran before it is on top
of it. -/
inductive Orderly {C : Type*} : List (Entry C) → Prop
  | settled {l : List (Entry C)} (h : Settled l) : Orderly l
  | waiting {b : Entry C} {rest : List (Entry C)} (c : C) (h : Settled (b::rest)) :
      Orderly (⟨b.number+1,c,.waiting⟩::b::rest)
  | restoring {b : Entry C} {rest : List (Entry C)} (c : C) (h : Settled (b::rest)) :
      Orderly (⟨b.number+2,b.config,.restored⟩::⟨b.number+1,c,.waiting⟩::b::rest)

section Entries
variable {C : Type*} {l : List (Entry C)}

theorem Settled.ne_nil (h : Settled l) : l ≠ [] := by
  cases h <;> simp

theorem Settled.not_waiting (h : Settled l) : ∀ e ∈ l, e.standing ≠ .waiting := by
  induction h with
  | opened c => simp
  | plain c hplain h ih =>
    refine List.forall_mem_cons.mpr ⟨?_,ih⟩
    rintro rfl
    cases hplain
  | reverted c h ih => simpa using ih

theorem Settled.descending (h : Settled l) : l.Pairwise (fun a b => b.number < a.number) := by
  induction h with
  | opened c => simp
  | @plain b rest c standing hplain h ih =>
    refine List.pairwise_cons.mpr ⟨fun e he => ?_,ih⟩
    rcases List.mem_cons.mp he with rfl | he
    · exact Nat.lt_succ_self _
    · exact (List.rel_of_pairwise_cons ih he).trans (Nat.lt_succ_self _)
  | @reverted b rest c h ih =>
    have hbelow : ∀ e ∈ b::rest, e.number < b.number+1 := by
      intro e he
      rcases List.mem_cons.mp he with rfl | he
      · exact Nat.lt_succ_self _
      · exact (List.rel_of_pairwise_cons ih he).trans (Nat.lt_succ_self _)
    refine List.pairwise_cons.mpr ⟨fun e he => ?_,List.pairwise_cons.mpr ⟨hbelow,ih⟩⟩
    rcases List.mem_cons.mp he with rfl | he
    · exact Nat.lt_succ_self _
    · exact (hbelow e he).trans (Nat.lt_succ_self _)

/-- Whatever stands over settled entries with the next number keeps the numbers falling. -/
theorem Settled.descending_cons {b : Entry C} {rest : List (Entry C)} (h : Settled (b::rest)) (c : C)
    (standing : EntryStatus) :
    (⟨b.number+1,c,standing⟩::b::rest).Pairwise (fun a b : Entry C => b.number < a.number) := by
  refine List.pairwise_cons.mpr ⟨fun e he => ?_,h.descending⟩
  rcases List.mem_cons.mp he with rfl | he
  · exact Nat.lt_succ_self _
  · exact (List.rel_of_pairwise_cons h.descending he).trans (Nat.lt_succ_self _)

theorem Orderly.descending (h : Orderly l) : l.Pairwise (fun a b => b.number < a.number) := by
  cases h with
  | settled h => exact h.descending
  | waiting c h => exact h.descending_cons c _
  | restoring c h =>
    refine List.pairwise_cons.mpr ⟨fun e he => ?_,h.descending_cons c _⟩
    rcases List.mem_cons.mp he with rfl | he
    · exact Nat.lt_succ_self _
    · exact (List.rel_of_pairwise_cons (h.descending_cons c .waiting) he).trans (Nat.lt_succ_self _)

/-- A number is entered once. -/
theorem Orderly.number_inj (h : Orderly l) {a b : Entry C} (ha : a ∈ l) (hb : b ∈ l)
    (hn : a.number = b.number) : a = b := by
  have hnodup : (l.map Entry.number).Nodup :=
    List.pairwise_map.mpr (h.descending.imp (fun hlt => hlt.ne'))
  exact List.inj_on_of_nodup_map hnodup ha hb hn

/-- What was undone, and what is being undone, lies between what ran before it and the same
configuration put back. -/
theorem Orderly.undone (h : Orderly l) {u : Entry C} (hu : u ∈ l) (hundone : u.standing = .undone) :
    ∃ r ∈ l, ∃ b ∈ l, r.number = u.number+1 ∧ u.number = b.number+1 ∧ r.standing = .restored ∧
      r.config = b.config := by
  have hsettled : ∀ {l : List (Entry C)}, Settled l → u ∈ l → ∃ r ∈ l, ∃ b ∈ l,
      r.number = u.number+1 ∧ u.number = b.number+1 ∧ r.standing = .restored ∧
      r.config = b.config := by
    intro l h hu
    induction h with
    | opened c =>
      rw [List.mem_singleton.mp hu] at hundone
      cases hundone
    | plain c hplain h ih =>
      rcases List.mem_cons.mp hu with rfl | hu
      · subst hundone
        cases hplain
      · obtain ⟨r,hr,b,hb,hrest⟩ := ih hu
        exact ⟨r,List.mem_cons_of_mem _ hr,b,List.mem_cons_of_mem _ hb,hrest⟩
    | @reverted b rest c h ih =>
      rcases List.mem_cons.mp hu with rfl | hu
      · cases hundone
      · rcases List.mem_cons.mp hu with rfl | hu
        · exact ⟨_,List.mem_cons_self,b,by simp,rfl,rfl,rfl,rfl⟩
        · obtain ⟨r,hr,d,hd,hrest⟩ := ih hu
          exact ⟨r,by simp [List.mem_cons.mp hr],d,by simp [List.mem_cons.mp hd],hrest⟩
  cases h with
  | settled h => exact hsettled h hu
  | waiting c h =>
    rcases List.mem_cons.mp hu with rfl | hu
    · cases hundone
    · obtain ⟨r,hr,d,hd,hrest⟩ := hsettled h hu
      exact ⟨r,List.mem_cons_of_mem _ hr,d,List.mem_cons_of_mem _ hd,hrest⟩
  | restoring c h =>
    rcases List.mem_cons.mp hu with rfl | hu
    · cases hundone
    · rcases List.mem_cons.mp hu with rfl | hu
      · cases hundone
      · obtain ⟨r,hr,d,hd,hrest⟩ := hsettled h hu
        exact ⟨r,by simp [List.mem_cons.mp hr],d,by simp [List.mem_cons.mp hd],hrest⟩

/-- What was put back is what ran before a change, and lies over that change and nothing else. -/
theorem Orderly.restored (h : Orderly l) {r : Entry C} (hr : r ∈ l) (hrestored : r.standing = .restored) :
    ∃ u ∈ l, ∃ b ∈ l, r.number = u.number+1 ∧ u.number = b.number+1 ∧
      (u.standing = .undone ∨ u.standing = .waiting) ∧ r.config = b.config := by
  have hsettled : ∀ {l : List (Entry C)}, Settled l → r ∈ l → ∃ u ∈ l, ∃ b ∈ l,
      r.number = u.number+1 ∧ u.number = b.number+1 ∧
      (u.standing = .undone ∨ u.standing = .waiting) ∧ r.config = b.config := by
    intro l h hr
    induction h with
    | opened c =>
      rw [List.mem_singleton.mp hr] at hrestored
      cases hrestored
    | plain c hplain h ih =>
      rcases List.mem_cons.mp hr with rfl | hr
      · subst hrestored
        cases hplain
      · obtain ⟨u,hu,b,hb,hrest⟩ := ih hr
        exact ⟨u,List.mem_cons_of_mem _ hu,b,List.mem_cons_of_mem _ hb,hrest⟩
    | @reverted b rest c h ih =>
      rcases List.mem_cons.mp hr with rfl | hr
      · exact ⟨⟨b.number+1,c,.undone⟩,by simp,b,by simp,rfl,rfl,.inl rfl,rfl⟩
      · rcases List.mem_cons.mp hr with rfl | hr
        · cases hrestored
        · obtain ⟨u,hu,d,hd,hrest⟩ := ih hr
          exact ⟨u,by simp [List.mem_cons.mp hu],d,by simp [List.mem_cons.mp hd],hrest⟩
  cases h with
  | settled h => exact hsettled h hr
  | waiting c h =>
    rcases List.mem_cons.mp hr with rfl | hr
    · cases hrestored
    · obtain ⟨u,hu,d,hd,hrest⟩ := hsettled h hr
      exact ⟨u,List.mem_cons_of_mem _ hu,d,List.mem_cons_of_mem _ hd,hrest⟩
  | @restoring b rest c h =>
    rcases List.mem_cons.mp hr with rfl | hr
    · exact ⟨⟨b.number+1,c,.waiting⟩,by simp,b,by simp,rfl,rfl,.inr rfl,rfl⟩
    · rcases List.mem_cons.mp hr with rfl | hr
      · cases hrestored
      · obtain ⟨u,hu,d,hd,hrest⟩ := hsettled h hr
        exact ⟨u,by simp [List.mem_cons.mp hu],d,by simp [List.mem_cons.mp hd],hrest⟩

end Entries

namespace Ledger
variable {I C : Type*}

/-- A ledger in which nothing has been entered. -/
def opened (c : C) : Ledger I C := ⟨⟨0,c,.initial⟩,[],[]⟩

def entries (l : Ledger I C) : List (Entry C) := l.head::l.past

/-- Enter a configuration that has come to run. -/
def enter (l : Ledger I C) (c : C) (standing : EntryStatus) : Ledger I C :=
  ⟨⟨l.head.number+1,c,standing⟩,l.entries,l.filed⟩

/-- Note what has become of the configuration that runs. -/
def stamp (l : Ledger I C) (standing : EntryStatus) : Ledger I C :=
  {l with head := {l.head with standing := standing}}

/-- The change under the one that runs has been undone. -/
def settle (l : Ledger I C) : Ledger I C :=
  {l with past := l.past.modifyHead (fun e => {e with standing := .undone})}

def file (l : Ledger I C) (i : I) : Ledger I C := {l with filed := (i,l.head.config)::l.filed}

section Fields
variable (l : Ledger I C) (c : C) (standing : EntryStatus) (i : I)

@[simp] theorem enter_head : (l.enter c standing).head = ⟨l.head.number+1,c,standing⟩ := rfl
@[simp] theorem enter_past : (l.enter c standing).past = l.head::l.past := rfl
@[simp] theorem enter_filed : (l.enter c standing).filed = l.filed := rfl
@[simp] theorem stamp_head : (l.stamp standing).head = {l.head with standing := standing} := rfl
@[simp] theorem stamp_past : (l.stamp standing).past = l.past := rfl
@[simp] theorem stamp_filed : (l.stamp standing).filed = l.filed := rfl
@[simp] theorem settle_head : l.settle.head = l.head := rfl
@[simp] theorem settle_filed : l.settle.filed = l.filed := rfl
@[simp] theorem file_head : (l.file i).head = l.head := rfl
@[simp] theorem file_past : (l.file i).past = l.past := rfl
@[simp] theorem file_filed : (l.file i).filed = (i,l.head.config)::l.filed := rfl

end Fields

/-- Nothing waits to be confirmed. -/
def Idle (l : Ledger I C) : Prop := ∀ e ∈ l.entries, e.standing ≠ .waiting

variable (number : I → ℕ)

/-- What may be entered when. -/
inductive Moves : Ledger I C → Ledger I C → Prop
  | adopt {l : Ledger I C} (c : C) (h : l.Idle) : Moves l (l.enter c .adopted)
  | keep {l : Ledger I C} (c : C) (h : l.Idle) : Moves l (l.enter c .kept)
  | attempt {l : Ledger I C} (c : C) (h : l.Idle) : Moves l (l.enter c .attempted)
  | arm {l : Ledger I C} (h : l.head.standing = .attempted) : Moves l (l.stamp .waiting)
  | confirm {l : Ledger I C} (h : l.head.standing = .waiting) : Moves l (l.stamp .confirmed)
  | abandon {l : Ledger I C} (h : l.head.standing = .waiting) : Moves l (l.stamp .abandoned)
  /-- What ran before the change that waits is put back. -/
  | restore {l : Ledger I C} {b : Entry C} (h : l.head.standing = .waiting)
      (hb : l.past.head? = some b) : Moves l (l.enter b.config .restored)
  | settle {l : Ledger I C} {w : Entry C} (h : l.head.standing = .restored)
      (hw : l.past.head? = some w) (hwaiting : w.standing = .waiting) : Moves l l.settle
  /-- What runs and is wanted is filed under its number, once. -/
  | file {l : Ledger I C} (i : I) (h : l.head.standing.final) (hnumber : number i = l.head.number)
      (hnew : ∀ f ∈ l.filed, number f.1 ≠ l.head.number) : Moves l (l.file i)

/-- What is filed is in order, each under the number of an entry that was kept or confirmed. -/
structure InOrder (l : Ledger I C) : Prop where
  descending : l.filed.Pairwise (fun a b => number b.1 < number a.1)
  final : ∀ f ∈ l.filed, ∃ e ∈ l.entries, e.number = number f.1 ∧ e.config = f.2 ∧ e.standing.final

/-- The moves lead from one ledger to another. -/
def Reaches (l l' : Ledger I C) : Prop := Relation.ReflTransGen (Moves number) l l'

variable {number}

theorem Idle.settled {l : Ledger I C} (h : l.Idle) (hsound : Orderly l.entries) : Settled l.entries := by
  rcases hl : l.entries with _ | ⟨e,es⟩
  · cases hl
  · rw [hl] at hsound
    cases hsound with
    | settled hsettled => exact hsettled
    | waiting c hsettled =>
      exact absurd rfl (h _ (by rw [hl]; exact List.mem_cons_self))
    | restoring c hsettled =>
      exact absurd rfl (h _ (by rw [hl]; exact List.mem_cons_of_mem _ List.mem_cons_self))

/-- A change waits over settled entries. -/
theorem settled_past {l : Ledger I C} (h : l.head.standing = .waiting) (hsound : Orderly l.entries) :
    ∃ b rest, l.past = b::rest ∧ l.head.number = b.number+1 ∧ Settled (b::rest) := by
  obtain ⟨head,past,filed⟩ := l
  simp only [entries] at h hsound
  cases hsound with
  | settled hsettled => exact absurd h (hsettled.not_waiting _ List.mem_cons_self)
  | waiting c hsettled => exact ⟨_,_,rfl,rfl,hsettled⟩
  | restoring c hsettled => cases h

/-- Each move leaves the entries sound. -/
theorem Moves.sound {l l' : Ledger I C} (h : Moves number l l') (hsound : Orderly l.entries) :
    Orderly l'.entries := by
  cases h with
  | adopt c hidle => exact .settled (.plain c rfl (hidle.settled hsound))
  | keep c hidle => exact .settled (.plain c rfl (hidle.settled hsound))
  | attempt c hidle => exact .settled (.plain c rfl (hidle.settled hsound))
  | arm h =>
    obtain ⟨⟨n,c,standing⟩,past,filed⟩ := l
    cases h
    cases hsound with
    | settled hsettled =>
      cases hsettled with
      | plain c hplain hrest => exact .waiting c hrest
  | confirm h =>
    obtain ⟨b,rest,hpast,hnumber,hsettled⟩ := settled_past h hsound
    simp only [entries,stamp_head,stamp_past,hpast,hnumber]
    exact .settled (.plain _ rfl hsettled)
  | abandon h =>
    obtain ⟨b,rest,hpast,hnumber,hsettled⟩ := settled_past h hsound
    simp only [entries,stamp_head,stamp_past,hpast,hnumber]
    exact .settled (.plain _ rfl hsettled)
  | restore h hb =>
    obtain ⟨b,rest,hpast,hnumber,hsettled⟩ := settled_past h hsound
    rw [hpast] at hb
    cases hb
    obtain ⟨⟨n,c,standing⟩,past,filed⟩ := l
    cases h
    cases hpast
    cases hnumber
    exact .restoring c hsettled
  | settle h hw hwaiting =>
    obtain ⟨head,past,filed⟩ := l
    simp only [entries] at h hw hsound
    cases hsound with
    | settled hsettled =>
      exact absurd hwaiting (hsettled.not_waiting _ (List.mem_cons_of_mem _ (List.mem_of_mem_head? hw)))
    | waiting c hsettled => cases h
    | restoring c hsettled => exact .settled (.reverted c hsettled)
  | file i h hnumber hnew => exact hsound

/-- What was kept or confirmed stays entered. -/
theorem Moves.keeps {l l' : Ledger I C} (h : Moves number l l') {e : Entry C} (he : e ∈ l.entries)
    (hfinal : e.standing.final) : e ∈ l'.entries := by
  cases h with
  | adopt | keep | attempt | restore => exact List.mem_cons_of_mem _ he
  | arm h | confirm h | abandon h =>
    rcases List.mem_cons.mp he with rfl | he
    · rw [h] at hfinal
      cases hfinal
    · exact List.mem_cons_of_mem _ he
  | settle h hw hwaiting =>
    rcases List.mem_cons.mp he with rfl | he
    · exact List.mem_cons_self
    · refine List.mem_cons_of_mem _ ?_
      obtain ⟨head,past,filed⟩ := l
      cases past with
      | nil => cases hw
      | cons w past =>
        cases hw
        rcases List.mem_cons.mp he with rfl | he
        · rw [hwaiting] at hfinal
          cases hfinal
        · exact List.mem_cons_of_mem _ he
  | file => exact he

/-- What has once run is remembered under its number. -/
theorem Moves.remembers {l l' : Ledger I C} (h : Moves number l l') {e : Entry C} (he : e ∈ l.entries) :
    ∃ e' ∈ l'.entries, e'.number = e.number ∧ e'.config = e.config := by
  have hsame : e ∈ l'.entries → ∃ e' ∈ l'.entries, e'.number = e.number ∧ e'.config = e.config :=
    fun h => ⟨e,h,rfl,rfl⟩
  cases h with
  | adopt | keep | attempt | restore => exact hsame (List.mem_cons_of_mem _ he)
  | arm h | confirm h | abandon h =>
    rcases List.mem_cons.mp he with rfl | he
    · exact ⟨_,List.mem_cons_self,rfl,rfl⟩
    · exact hsame (List.mem_cons_of_mem _ he)
  | settle h hw hwaiting =>
    rcases List.mem_cons.mp he with rfl | he
    · exact hsame List.mem_cons_self
    · obtain ⟨head,past,filed⟩ := l
      cases past with
      | nil => cases hw
      | cons w past =>
        rcases List.mem_cons.mp he with rfl | he
        · exact ⟨{e with standing := .undone},List.mem_cons_of_mem _ List.mem_cons_self,rfl,rfl⟩
        · exact hsame (List.mem_cons_of_mem _ (List.mem_cons_of_mem _ he))
  | file => exact hsame he

/-- What is filed has a number of its own, no greater than that of what runs. -/
theorem InOrder.filed_le {l : Ledger I C} (h : InOrder number l) (hsound : Orderly l.entries) :
    ∀ f ∈ l.filed, number f.1 ≤ l.head.number := by
  intro f hf
  obtain ⟨e,he,hnumber,-⟩ := h.final f hf
  rw [← hnumber]
  rcases List.mem_cons.mp he with rfl | he
  · exact le_rfl
  · exact (List.rel_of_pairwise_cons hsound.descending he).le

theorem Moves.inOrder {l l' : Ledger I C} (h : Moves number l l') (hsound : Orderly l.entries)
    (horder : InOrder number l) : InOrder number l' := by
  have hsame : l'.filed = l.filed → InOrder number l' := by
    intro hfiled
    refine ⟨by rw [hfiled]; exact horder.descending,fun f hf => ?_⟩
    rw [hfiled] at hf
    obtain ⟨e,he,hnumber,hconfig,hfinal⟩ := horder.final f hf
    exact ⟨e,h.keeps he hfinal,hnumber,hconfig,hfinal⟩
  cases h with
  | file i hfinal hnumber hnew =>
    refine ⟨List.pairwise_cons.mpr ⟨fun f hf => ?_,horder.descending⟩,?_⟩
    · rw [hnumber]
      exact lt_of_le_of_ne (horder.filed_le hsound f hf) (hnew f hf)
    · rw [file_filed]
      refine List.forall_mem_cons.mpr ⟨⟨l.head,List.mem_cons_self,hnumber.symm,rfl,hfinal⟩,?_⟩
      exact horder.final
  | _ => exact hsame rfl

/-- One more move. -/
theorem Reaches.move {l l' l'' : Ledger I C} (h : Reaches number l l') (hmove : Moves number l' l'') :
    Reaches number l l'' := h.tail hmove

/-- Every ledger that the moves lead to is sound, with what is filed in order. -/
theorem Reaches.sound {c : C} {l : Ledger I C} (h : Reaches number (opened c) l) :
    Orderly l.entries ∧ InOrder number l := by
  induction h with
  | refl => exact ⟨.settled (.opened c),⟨List.Pairwise.nil,by simp [opened]⟩⟩
  | tail _ hmove ih => exact ⟨hmove.sound ih.1,hmove.inOrder ih.1 ih.2⟩

theorem Reaches.keeps {l l' : Ledger I C} (h : Reaches number l l') {e : Entry C} (he : e ∈ l.entries)
    (hfinal : e.standing.final) : e ∈ l'.entries := by
  induction h with
  | refl => exact he
  | tail _ hmove ih => exact hmove.keeps ih hfinal

end Ledger
end Nightshade.Foundation
