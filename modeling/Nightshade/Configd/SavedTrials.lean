import Mathlib
import Nightshade.Configd.Unconfirmed

/-! What `config.boot` holds. A save writes whatever is running, so the file holds an unconfirmed
configuration only if someone saved while one was waiting to be confirmed. -/
namespace Nightshade.Configd
open Foundation Schema

/-- A step that leaves `config.boot` alone. -/
def Effect.Unsaved (e : Effect) : Prop := e.part ≠ .saved

theorem Effect.Among.unsaved {ps : List Part} (hp : .saved ∉ ps) (e : Effect) (h : e.Among ps) :
    e.Unsaved := by
  rcases h with h | h
  · rw [Effect.Unsaved,h]
    nofun
  · exact fun he => hp (he ▸ h)

theorem Effect.Within.unsaved {p : Part} (hp : p ≠ .saved) (e : Effect) (h : e.Within p) :
    e.Unsaved := by
  rcases h with h | h <;> rw [Effect.Unsaved,h]
  · nofun
  · exact hp

section
variable {schema : Schema} {env : Env} {s : State} {actor : Actor}

theorem only_adopt_unsaved {config : ConfigTree} : (adopt s config).Only Effect.Unsaved :=
  ⟨nofun,fun _ => trivial⟩

theorem only_fallBack_unsaved {reason : String} : (fallBack schema s reason).Only Effect.Unsaved :=
  ⟨nofun,fun _ => only_adopt_unsaved.bind (fun _ => trivial)⟩

theorem only_boot_unsaved : (boot schema s).Only Effect.Unsaved := by
  unfold boot
  split
  · trivial
  · apply Prog.Only.bind
    · refine (only_saved.mono (Effect.Within.unsaved (by decide))).bind (fun r => ?_)
      rcases r with reason | _ | config
      · exact only_fallBack_unsaved
      · trivial
      · refine ⟨nofun,fun r => ?_⟩
        cases r with
        | error e => exact only_fallBack_unsaved
        | ok _ => exact only_adopt_unsaved.bind (fun _ => trivial)
    · intro r
      unfold noteOutcome
      split <;> exact ⟨nofun,fun _ => trivial⟩

theorem only_handle_unsaved {request : Request} (h : request ≠ .save) :
    (handle schema env s actor request).Only Effect.Unsaved := by
  have hedit : request.edits → (handle schema env s actor request).Only Effect.Unsaved :=
    fun he => (only_edits he).mono (Effect.Within.unsaved (by decide))
  cases request with
  | commit id comment minutes => exact only_commit.mono (Effect.Among.unsaved (by decide))
  | confirm id => exact only_confirm.mono (Effect.Among.unsaved (by decide))
  | save => exact absurd rfl h
  | _ => exact hedit rfl

/-- Only a request to save that is served writes `config.boot`. -/
theorem only_program_unsaved {action : Action} {process : Option Process}
    (h : ∀ actor s, action = .request actor .save → process ≠ some ⟨.serving,s⟩) :
    (action.program schema env process).Only Effect.Unsaved := by
  rcases action with _ | _ | _ | ⟨actor,request⟩ | _ | _ | _ <;>
    rcases process with _ | ⟨_ | _ | _,s⟩
  all_goals try trivial
  · exact (only_start.mono (Effect.Within.unsaved (by decide))).bind (fun _ => trivial)
  · exact (only_resume.mono (Effect.Among.unsaved (by decide))).bind (fun _ => trivial)
  · exact only_boot_unsaved.bind (fun _ => trivial)
  · exact (only_handle_unsaved (fun heq => h actor s (by rw [heq]) rfl)).bind (fun _ => trivial)
  all_goals
    rw [Action.program]
    split
    · exact (only_rollBack.mono (Effect.Among.unsaved (by decide))).bind (fun _ => trivial)
    · trivial

end

section
variable {H F : Type} {site : Site H F} {process : Option Process} {env : Env} {action : Action}

theorem during_unsaved {e : Effect} (h : e.Unsaved) (answer : Option e.Answer) (b : Box H)
    {n : Notes} (hn : n.saved = none) :
    ((unconfirmed site.schema).during env action process e answer b n).saved = none := by
  cases e with
  | apply config => rcases answer with _ | _ | _ <;> exact hn
  | saveRunning config generation => rcases answer with _ | _ | _ <;> exact hn
  | renameTemporary => exact absurd rfl h
  | disarmMarker =>
    rcases answer with _ | answer
    · exact hn
    · cases hc : confirming action process <;> simp [unconfirmed,hc,Notes.settle,hn]
  | _ => exact hn

/-- Where nothing runs unconfirmed, nothing unconfirmed is saved. -/
theorem during_confirmed {e : Effect} (answer : Option e.Answer) (b : Box H) {n : Notes}
    (hn : n.saved = none ∧ n.memory = none) :
    ((unconfirmed site.schema).during env action process e answer b n).saved = none ∧
    ((unconfirmed site.schema).during env action process e answer b n).memory = none := by
  obtain ⟨hsaved,hmemory⟩ := hn
  cases e with
  | apply config => rcases answer with _ | _ | _ <;> exact ⟨hsaved,hmemory⟩
  | saveRunning config generation => rcases answer with _ | _ | _ <;> exact ⟨hsaved,hmemory⟩
  | renameTemporary => rcases answer with _ | _ | _ <;> exact ⟨by first | exact hsaved | exact hmemory,hmemory⟩
  | disarmMarker =>
    rcases answer with _ | answer
    · exact ⟨hsaved,hmemory⟩
    · cases hc : confirming action process <;> simp [unconfirmed,hc,Notes.settle,hsaved,hmemory]
  | _ => exact ⟨hsaved,hmemory⟩

end

section Runs
variable {H F : Type} (site : Site H F)

/-- An event that is careful, and no save while a commit waits to be confirmed. -/
def SavesConfirmed (sys : System H) (ev : Event F) : Prop :=
  CarefulEvent site sys ev ∧
  ∀ actor, ev.action = .request actor .save → ∀ p, sys.process = some p → p.state.pending = none

variable {site}

theorem watch_saved {v : System H × Notes} {ev : Event F} (hev : SavesConfirmed site v.1 ev)
    (hguard : Guarded v.1.box.marker v.1.process v.2) (hsaved : v.2.saved = none) :
    (System.watch site (unconfirmed site.schema) v ev).2.saved = none := by
  obtain ⟨⟨-,hobeys⟩,hsave⟩ := hev
  let Inv : System H × Notes → Prop := fun v => v.2.saved = none
  show Inv _
  refine System.watch_of_ends hobeys ?_
  have hafter : ∀ (n : Notes) (q : Option Process), n.saved = none →
      ((unconfirmed (H := H) site.schema).after ev.env ev.action v.1.process q n).saved = none := by
    intro n q hn
    rcases v.1.process with _ | p <;> rcases q with _ | q
    · exact hn
    · exact hn
    · exact hn
    · simp only [unconfirmed]
      split_ifs <;> exact hn
  by_cases hserved : ∃ actor s, ev.action = .request actor .save ∧ v.1.process = some ⟨.serving,s⟩
  · -- Nothing waits, so what runs is confirmed.
    obtain ⟨actor,s,haction,hprocess⟩ := hserved
    rw [hprocess] at hguard
    have hmemory := (hguard.settled (by simp) (hsave actor haction _ hprocess)).2
    refine (Prog.ends_invariant (fun w => w.2.saved = none ∧ w.2.memory = none)
      (fun e f w _ hw => during_confirmed (perform site e f w.1).1 w.1 hw) ⟨hsaved,hmemory⟩).mono ?_ ?_
    · exact fun r w hw => hafter _ _ hw.1
    · exact fun w hw => hafter _ none hw.1
  · have honly : (ev.action.program site.schema ev.env v.1.process).Only Effect.Unsaved :=
      only_program_unsaved (fun actor s ha hp => hserved ⟨actor,s,ha,hp⟩)
    refine (honly.keeps (fun w => w.2.saved = none)
      (fun e f w he _ hw => during_unsaved he (perform site e f w.1).1 w.1 hw) hsaved).mono ?_ ?_
    · exact fun r w hw => hafter _ _ hw
    · exact fun w hw => hafter _ none hw

/-- In every run in which commits to be confirmed are not cut short and nothing is saved while one
waits, `config.boot` never holds the configuration of a commit that is unconfirmed. -/
theorem watchedRun_saved (host : H) (saved : Option String) {evs : List (Event F)}
    (h : Along (System.step site) (SavesConfirmed site) ⟨Box.fresh host saved,none⟩ evs) :
    (watchedRun site host saved evs).2.saved = none := by
  let Inv : System H × Notes → Prop := fun v =>
    Guarded v.1.box.marker v.1.process v.2 ∧ v.2.saved = none
  have hinv : Inv (watchedRun site host saved evs) := by
    refine System.watch_invariant (fun v ev hev hv => ?_) h ?_
    · exact ⟨watch_guarded hev.1 hv.1,watch_saved hev hv.1 hv.2⟩
    · exact ⟨⟨by simp [Notes.blank,Notes.Stands],by simp,by simp⟩,rfl⟩
  exact hinv.2

end Runs
/-- With nothing waiting, an event whose steps go through is allowed, and so is any other than a
save. -/
theorem savesConfirmed_smooth {schema : Schema} {action : Action} {sys : System (Option ConfigTree)}
    (hreboot : action ≠ .reboot)
    (hsave : (∀ actor, action ≠ .request actor .save) ∨
      sys.process.all (fun p => p.state.pending.isNone)) (id : SessionId) :
    SavesConfirmed (Site.taking schema) sys (Event.smooth action id) := by
  refine ⟨carefulEvent_smooth hreboot id sys,fun actor haction p hp => ?_⟩
  rcases hsave with hsave | hsave
  · exact absurd haction (hsave actor)
  · rw [hp] at hsave
    exact Option.isNone_iff_eq_none.mp hsave

/-- A commit is confirmed before anything is saved. -/
def confirmedFirst : List (Event Unit) :=
  (triedActions ++ [Action.request ⟨0,"root"⟩ (.confirm "0123456789abcdef")]).map
    (fun action => Event.smooth action "0123456789abcdef")

theorem confirmedFirst_saved :
    (watchedRun (Site.taking (Shipped.schema [])) none none
      (confirmedFirst ++ [Event.smooth (.request ⟨0,"root"⟩ .save) ""])).2.saved = none := by
  refine watchedRun_saved none none (along_append.mpr ⟨along_of_forall (fun ev hev sys => ?_),?_,?_⟩)
  · obtain ⟨action,haction,rfl⟩ := List.mem_map.mp hev
    refine savesConfirmed_smooth ?_ (.inl ?_) _
    · rintro rfl
      exact absurd haction (by decide)
    · rintro actor rfl
      simp [triedActions] at haction
  · refine savesConfirmed_smooth (by simp) (.inr ?_) _
    decide +kernel
  · trivial

/-- A save comes between the commit and the end of its timeout, which then undoes it. -/
def savedFirst : List (Event Unit) :=
  (triedActions ++ [Action.request ⟨0,"root"⟩ .save,Action.timer]).map
    (fun action => Event.smooth action "0123456789abcdef")

/-- The commit is undone, and `config.boot` still holds its configuration. -/
theorem savedFirst_kept :
    (watchedRun (Site.taking (Shipped.schema [])) none none savedFirst).2.saved =
      some ⟨.new,(ConfigTree.new.set ["system","host-name"] "edge").2,1⟩ ∧
    (watchedRun (Site.taking (Shipped.schema [])) none none savedFirst).1.process.map
      (fun p => (p.state.running,p.state.pending)) = some (.new,none) ∧
    (watchedRun (Site.taking (Shipped.schema [])) none none savedFirst).1.box.saved =
      some "system \x7b\n    host-name edge\n\x7d\n" := by
  refine ⟨?_,?_,?_⟩ <;> decide +kernel

end Nightshade.Configd
