import Mathlib
import Nightshade.Foundation.Ledger
import Nightshade.Configd.Mirror
import Nightshade.Configd.Provenance
import Nightshade.Configd.Shelf

/-! The daemon under a bookkeeper, who enters in a ledger what comes to run, what becomes of it and
what is filed in the archive. Each of the daemon's steps is one of the ledger's moves or none, and
the files say what the ledger says. -/
namespace Nightshade.Configd
open Foundation Schema

/-- What a bookkeeper has written down. -/
structure Books where
  ledger : Ledger RevisionInfo ConfigTree
  /-- The running configuration that each session was level with when its base was last set. -/
  sighted : SortedMap SessionId ConfigTree

def Books.blank : Books := ⟨.opened .new,SortedMap.empty⟩

/-- The candidate that a request is to commit. -/
def committing : Action → Option Process → Option ConfigTree
  | .request _ (.commit id _ _), some ⟨_,s⟩ => (s.sessions.get? id).map Session.candidate
  | _, _ => none

/-- The configuration that a session which is written out is based on, if its base was just set. -/
def sighting (session : Session) : Action → Option Process → Option ConfigTree
  | .request _ .sessionOpen, some ⟨_,s⟩ => some s.running
  | .request _ (.discard _), some ⟨_,s⟩ => some s.running
  | .request _ (.commit _ _ _), _ => some session.candidate
  | _, _ => none

/-- A configuration that a commit has asked for. -/
def Asked (standing : EntryStatus) : Bool :=
  match standing with
  | .initial | .adopted | .restored => false
  | _ => true

/-- The commit at the head of a ledger waits to be confirmed, as its marker says. -/
structure Waits (ledger : Ledger RevisionInfo ConfigTree) (pending : Pending) : Prop where
  standing : ledger.head.standing = .waiting
  generation : pending.generation = ledger.head.number
  committed : pending.committed = ledger.head.config
  before : ∃ b, ledger.past.head? = some b ∧ pending.previous = b.config ∧
    pending.previousGeneration = b.number

/-- The files say what the books say, and the ledger's moves led to it from an earlier one. -/
structure Accounted {H : Type} (schema : Schema) (l₀ : Ledger RevisionInfo ConfigTree) (w : Box H × Books) :
    Prop where
  origin : Ledger.Reaches RevisionInfo.revision (.opened .new) l₀
  reached : Ledger.Reaches RevisionInfo.revision l₀ w.2.ledger
  running : w.1.running.getD ⟨0,.new⟩ = ⟨w.2.ledger.head.number,w.2.ledger.head.config⟩
  idle : w.1.marker = none → w.2.ledger.Idle
  waits : ∀ pending, w.1.marker = some pending → Waits w.2.ledger pending
  committable : ∀ e ∈ w.2.ledger.entries, Asked e.standing → Committable schema e.config
  shelved : Shelved schema w.1 w.2.ledger.filed
  sighted : ∀ id session, w.1.sessions.get? id = some session →
    ∃ e ∈ w.2.ledger.entries, e.number = session.baseGeneration ∧
      w.2.sighted.get? id = some e.config

/-- Two boxes with the same files, as far as the books speak of them. -/
structure SameFiles {H : Type} (b b' : Box H) : Prop where
  sessions : b'.sessions = b.sessions
  running : b'.running = b.running
  marker : b'.marker = b.marker
  infos : b'.infos = b.infos
  revisions : b'.revisions = b.revisions

section Files
variable {H F : Type} {site : Site H F} {schema : Schema} {box : Box H} {books : Books} {s : State}
  {l₀ : Ledger RevisionInfo ConfigTree}

theorem SameFiles.refl (b : Box H) : SameFiles b b := ⟨rfl,rfl,rfl,rfl,rfl⟩

theorem SameFiles.trans {b b' b'' : Box H} (h : SameFiles b b') (h' : SameFiles b' b'') :
    SameFiles b b'' :=
  ⟨h'.sessions.trans h.sessions,h'.running.trans h.running,h'.marker.trans h.marker,
    h'.infos.trans h.infos,h'.revisions.trans h.revisions⟩

theorem Mirrors.same {b b' : Box H} (h : Mirrors b s) (hsame : SameFiles b b') : Mirrors b' s :=
  ⟨h.sessions.trans hsame.sessions.symm,by rw [hsame.running,h.running],
    h.pending.trans hsame.marker.symm,h.timer⟩

theorem Accounted.sound (h : Accounted schema l₀ (box,books)) : Orderly books.ledger.entries :=
  (Ledger.Reaches.sound (h.origin.trans h.reached)).1

theorem Accounted.inOrder (h : Accounted schema l₀ (box,books)) :
    Ledger.InOrder RevisionInfo.revision books.ledger :=
  (Ledger.Reaches.sound (h.origin.trans h.reached)).2

theorem Accounted.filed_le (h : Accounted schema l₀ (box,books)) :
    ∀ f ∈ books.ledger.filed, f.1.revision ≤ books.ledger.head.number :=
  h.inOrder.filed_le h.sound

theorem Accounted.blank (host : H) (saved : Option String) :
    Accounted schema (.opened .new) (Box.fresh host saved,Books.blank) where
  origin := .refl
  reached := .refl
  running := rfl
  idle := by
    intro _ e he hwaiting
    rw [List.mem_singleton.mp he] at hwaiting
    cases hwaiting
  waits := nofun
  committable := by
    intro e he hasked
    rw [List.mem_singleton.mp he] at hasked
    cases hasked
  shelved := Shelved.empty host saved
  sighted := nofun

theorem Accounted.same {box' : Box H} (h : Accounted schema l₀ (box,books)) (hsame : SameFiles box box') :
    Accounted schema l₀ (box',books) where
  origin := h.origin
  reached := h.reached
  running := by rw [hsame.running,h.running]
  idle := by rw [hsame.marker]; exact h.idle
  waits := by rw [hsame.marker]; exact h.waits
  committable := h.committable
  shelved := h.shelved.frame hsame.infos hsame.revisions
  sighted := by rw [hsame.sessions]; exact h.sighted

/-- Sessions that have been level with what ran stay so, whatever is entered. -/
theorem sighted_moves {ledger' : Ledger RevisionInfo ConfigTree} {sessions : SortedMap SessionId Session}
    {sighted : SortedMap SessionId ConfigTree} {ledger : Ledger RevisionInfo ConfigTree}
    (h : ∀ id session, sessions.get? id = some session → ∃ e ∈ ledger.entries,
      e.number = session.baseGeneration ∧ sighted.get? id = some e.config)
    (hmove : Ledger.Moves RevisionInfo.revision ledger ledger') :
    ∀ id session, sessions.get? id = some session → ∃ e ∈ ledger'.entries,
      e.number = session.baseGeneration ∧ sighted.get? id = some e.config := by
  intro id session hget
  obtain ⟨e,he,hnumber,hconfig⟩ := h id session hget
  obtain ⟨e',he',hnumber',hconfig'⟩ := hmove.remembers he
  exact ⟨e',he',hnumber'.trans hnumber,by rw [hconfig,hconfig']⟩

/-- Something comes to run while nothing waits. -/
theorem Accounted.enter {config : ConfigTree} {standing : EntryStatus} (h : Accounted schema l₀ (box,books))
    (hmarker : box.marker = none) (hasked : Asked standing → Committable schema config)
    (hmove : Ledger.Moves RevisionInfo.revision books.ledger (books.ledger.enter config standing))
    (hwaiting : standing ≠ .waiting) :
    Accounted schema l₀ ({box with running := some ⟨books.ledger.head.number+1,config⟩},
      {books with ledger := books.ledger.enter config standing}) where
  origin := h.origin
  reached := h.reached.move hmove
  running := rfl
  idle := fun _ => List.forall_mem_cons.mpr ⟨hwaiting,h.idle hmarker⟩
  waits := by
    intro pending hpending
    rw [hmarker] at hpending
    cases hpending
  committable := List.forall_mem_cons.mpr ⟨hasked,h.committable⟩
  shelved := h.shelved.frame rfl rfl
  sighted := sighted_moves h.sighted hmove

/-- The marker of a commit that was just applied is written. -/
theorem Accounted.arm {pending : Pending} (h : Accounted schema l₀ (box,books))
    (hattempted : books.ledger.head.standing = .attempted)
    (hwaits : Waits (books.ledger.stamp .waiting) pending) :
    Accounted schema l₀ ({box with marker := some pending},{books with ledger := books.ledger.stamp .waiting}) where
  origin := h.origin
  reached := h.reached.move (.arm hattempted)
  running := h.running
  idle := nofun
  waits := by
    rintro _ ⟨⟩
    exact hwaits
  committable := by
    refine List.forall_mem_cons.mpr ⟨fun _ => h.committable books.ledger.head List.mem_cons_self ?_,
      fun e he => h.committable e (List.mem_cons_of_mem _ he)⟩
    rw [hattempted]
    rfl
  shelved := h.shelved.frame rfl rfl
  sighted := sighted_moves h.sighted (.arm hattempted)

/-- A session is written out with a base that the books know it to be level with. -/
theorem Accounted.saveSession {session : Session} {sighted : SortedMap SessionId ConfigTree}
    (h : Accounted schema l₀ (box,books))
    (hothers : ∀ id, id ≠ session.id → sighted.get? id = books.sighted.get? id)
    (hsession : ∃ e ∈ books.ledger.entries, e.number = session.baseGeneration ∧
      sighted.get? session.id = some e.config) :
    Accounted schema l₀ ({box with sessions := box.sessions.insert session.id session},
      {books with sighted := sighted}) where
  origin := h.origin
  reached := h.reached
  running := h.running
  idle := h.idle
  waits := h.waits
  committable := h.committable
  shelved := h.shelved.frame rfl rfl
  sighted := by
    intro id session' hget
    rw [SortedMap.get?_insert] at hget
    split_ifs at hget with hid
    · cases hget
      rw [hid]
      exact hsession
    · rw [hothers id hid]
      exact h.sighted id session' hget

theorem Accounted.forget (h : Accounted schema l₀ (box,books)) (id : SessionId) :
    Accounted schema l₀ ({box with sessions := box.sessions.erase id},books) where
  origin := h.origin
  reached := h.reached
  running := h.running
  idle := h.idle
  waits := h.waits
  committable := h.committable
  shelved := h.shelved.frame rfl rfl
  sighted := by
    intro id' session hget
    rw [SortedMap.get?_erase] at hget
    split_ifs at hget
    exact h.sighted id' session hget

/-- A revision is filed once its text is written. -/
theorem Accounted.file {info : RevisionInfo} (h : Accounted schema l₀ (box,books))
    (hfinal : books.ledger.head.standing.final) (hnumber : info.revision = books.ledger.head.number)
    (hnew : ∀ f ∈ books.ledger.filed, f.1.revision < info.revision)
    (htext : box.revisions.get? info.stem = some (render books.ledger.head.config (tagOracle schema))) :
    Accounted schema l₀ ({box with infos := box.infos.insert info.stem info},
      {books with ledger := books.ledger.file info}) where
  origin := h.origin
  reached := h.reached.move (.file info hfinal hnumber (fun f hf => hnumber ▸ (hnew f hf).ne))
  running := h.running
  idle := h.idle
  waits := fun pending hpending =>
    ⟨(h.waits pending hpending).standing,(h.waits pending hpending).generation,
      (h.waits pending hpending).committed,(h.waits pending hpending).before⟩
  committable := h.committable
  shelved := h.shelved.writeInfo hnew htext
  sighted := h.sighted

end Files
end Nightshade.Configd
