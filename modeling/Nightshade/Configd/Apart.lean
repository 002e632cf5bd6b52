import Mathlib
import Nightshade.Configd.Isolation

/-! One session among the requests of others. What runs is replaced under a higher generation or not at all, and a
session changes by requests about it, from whoever owns it. -/
namespace Nightshade.Configd
open Foundation Schema

/-- What runs is what ran, or its generation is higher. -/
structure State.Onward (s s' : State) : Prop where
  generation : s.generation ≤ s'.generation
  running : s'.generation = s.generation → s'.running = s.running

/-- A session of a user has a candidate, on top of a configuration as far as nothing else was committed since. -/
def Drafting (uid : ℕ) (id : SessionId) (base candidate : ConfigTree) (s : State) : Prop :=
  ∃ session, s.sessions.get? id = some session ∧ session.uid = uid ∧ session.candidate = candidate ∧
    session.baseGeneration ≤ s.generation ∧ (session.baseGeneration = s.generation → s.running = base)

/-- What holds of a daemon that serves, while there is one. -/
def System.Holds {H : Type} (P : State → Prop) (sys : System H) : Prop := ∀ s, sys.process = some ⟨.serving,s⟩ → P s

/-- What anybody but the client of a session does: the timer, a stop, and requests, though none about the session in
the name of its user, and none that happens to draw its id. -/
def Outside {F : Type} (uid : ℕ) (id : SessionId) (ev : Event F) : Prop :=
  ev.action = .timer ∨ ev.action = .stop ∨ ∃ actor request, ev.action = .request actor request ∧
    (actor.uid = uid → request.names ≠ some id) ∧ (request = .sessionOpen → ev.env.entropy ≠ .ok id)

/-! ### Refusals -/

theorem owned_failed {s : State} {id : SessionId} {actor : Actor} {response : Response}
    (h : s.owned id actor = .error response) : response.isFailed := by
  unfold State.owned at h
  split at h
  · split at h <;> cases h
    rfl
  · cases h
    rfl

/-- What stands in the way of a commit is answered with a failure. -/
theorem plan_failed {schema : Schema} {env : Env} {s : State} {id : SessionId} {actor : Actor}
    {response : Response} (h : plan schema env s id actor = .error response) : response.isFailed := by
  unfold plan at h
  cases hown : s.owned id actor with
  | error response' =>
    rw [hown] at h
    cases h
    exact owned_failed hown
  | ok session =>
    rw [hown] at h
    cases hp : s.pending with
    | some pending =>
      rw [hp] at h
      cases h
      rfl
    | none =>
      simp only [hp] at h
      split at h
      · cases h
        rfl
      · split at h <;> cases h
        rfl

/-! ### What runs -/

section Onward
variable {schema : Schema} {env : Env} {s s' : State} {actor : Actor} {id : SessionId}

theorem State.Onward.refl : s.Onward s := ⟨le_rfl,fun _ => rfl⟩

theorem State.Onward.of_same (hgeneration : s'.generation = s.generation) (hrunning : s'.running = s.running) :
    s.Onward s' := ⟨hgeneration.ge,fun _ => hrunning⟩

theorem State.Onward.of_lt (h : s.generation < s'.generation) : s.Onward s' :=
  ⟨h.le,fun heq => absurd heq h.ne'⟩

theorem State.SameRun.onward (h : s.SameRun s') : s.Onward s' := by
  rw [h]
  exact .of_same rfl rfl

theorem returns_commit_onward {comment : Option String} {minutes : Option ℕ} :
    (commit schema env s id actor comment minutes).Returns (fun r => s.Onward r.2) := by
  unfold commit
  split
  · exact .refl
  · split
    · exact .refl
    · next session _ _ _ =>
      have hadvance : s.generation < (s.advance id session).generation := Nat.lt_succ_self _
      intro r
      cases r with
      | error e => exact .refl
      | ok _ =>
        intro _ _
        cases minutes with
        | none =>
          simp only [Prog.bind_eq,Prog.done_bind]
          apply Prog.Returns.bind
          exact Prog.returns_of_forall (fun _ => .of_lt hadvance)
        | some minutes =>
          intro r
          cases r <;> exact .of_lt hadvance

theorem returns_confirm_same :
    (confirm schema env s id actor).Returns
      (fun r => r.2.running = s.running ∧ r.2.generation = s.generation ∧ r.2.sessions = s.sessions) := by
  unfold confirm
  split
  · exact ⟨rfl,rfl,rfl⟩
  · split
    · exact ⟨rfl,rfl,rfl⟩
    · intro _
      simp only [Prog.bind_eq,Prog.done_bind]
      apply Prog.Returns.bind
      exact Prog.returns_of_forall (fun _ => ⟨rfl,rfl,rfl⟩)

/-- A request that does not commit leaves what runs. -/
theorem returns_handle_same {request : Request} (h : ∀ id comment minutes, request ≠ .commit id comment minutes) :
    (handle schema env s actor request).Returns
      (fun r => r.2.running = s.running ∧ r.2.generation = s.generation) := by
  cases request with
  | commit id comment minutes => exact absurd rfl (h id comment minutes)
  | confirm id => exact returns_confirm_same.mono (fun _ h => ⟨h.1,h.2.1⟩)
  | save =>
    refine returns_save.mono (fun r hr => ?_)
    rw [hr]
    exact ⟨rfl,rfl⟩
  | _ =>
    refine (returns_edits rfl).mono (fun r hr => ?_)
    rw [hr]
    exact ⟨rfl,rfl⟩

theorem returns_handle_onward (request : Request) :
    (handle schema env s actor request).Returns (fun r => s.Onward r.2) := by
  cases request with
  | commit id comment minutes => exact returns_commit_onward
  | _ => exact (returns_handle_same (fun _ _ _ h => by cases h)).mono (fun _ h => .of_same h.2 h.1)

theorem returns_rollBack_onward :
    (rollBack s).Returns (fun s' => s.Onward s' ∧ s'.sessions = s.sessions) := by
  unfold rollBack
  split
  · exact ⟨.refl,rfl⟩
  · intro r
    cases r with
    | error e => exact fun _ => ⟨.of_same rfl rfl,rfl⟩
    | ok _ => exact fun _ _ => ⟨.of_lt (Nat.lt_succ_self _),rfl⟩

end Onward

/-! ### A session that is not asked for -/

section Sessions
variable {schema : Schema} {env : Env} {s s' : State} {actor : Actor} {id id' : SessionId}

theorem State.get?_put_ne (hne : id' ≠ id) (session : Session) : (s.put id' session).sessions.get? id = s.sessions.get? id := by
  rw [put_sessions,SortedMap.get?_insert,if_neg hne.symm]

theorem returns_keep_ne (hne : id' ≠ id) (session : Session) :
    (keep s id' session).Returns (fun r => r.2.sessions.get? id = s.sessions.get? id) := by
  intro r
  cases r <;> exact State.get?_put_ne hne session

theorem returns_commit_ne {comment : Option String} {minutes : Option ℕ}
    (hne : ∀ session, s.owned id' actor = .ok session → id' ≠ id) :
    (commit schema env s id' actor comment minutes).Returns (fun r => r.2.sessions.get? id = s.sessions.get? id) := by
  unfold commit
  split
  · rfl
  · next session changes hplan =>
    have hadvance : (s.advance id' session).sessions.get? id = s.sessions.get? id :=
      State.get?_put_ne (hne session (plan_eq_ok.mp hplan).1) _
    split
    · rfl
    · intro r
      cases r with
      | error e => rfl
      | ok _ =>
        intro _ _
        cases minutes with
        | none =>
          simp only [Prog.bind_eq,Prog.done_bind]
          apply Prog.Returns.bind
          exact Prog.returns_of_forall (fun _ => hadvance)
        | some minutes =>
          intro r
          cases r <;> exact hadvance

/-- A request that does not name a session, or not as its owner, leaves it as it is. -/
theorem returns_handle_ne {request : Request}
    (hne : request.names = some id → ∀ session, s.owned id actor ≠ .ok session)
    (hfresh : request = .sessionOpen → env.entropy ≠ .ok id) :
    (handle schema env s actor request).Returns (fun r => r.2.sessions.get? id = s.sessions.get? id) := by
  have hother : ∀ id', request.names = some id' → ∀ session, s.owned id' actor = .ok session → id' ≠ id := by
    rintro id' hnames session hown rfl
    exact hne hnames session hown
  cases request with
  | sessionOpen =>
    rw [handle,sessionOpen]
    cases hentropy : env.entropy with
    | error e => rfl
    | ok id' =>
      have hne : id' ≠ id := by
        rintro rfl
        exact hfresh rfl hentropy
      intro r
      cases r with
      | error e => rfl
      | ok _ => exact State.get?_put_ne hne _
  | sessionClose id' =>
    rw [handle,sessionClose]
    split
    · rfl
    · next session hown =>
      intro _
      show (s.sessions.erase id').get? id = s.sessions.get? id
      rw [SortedMap.get?_erase,if_neg (hother id' rfl session hown).symm]
  | set id' path value =>
    rw [handle,set]
    split
    · rfl
    · next session hown =>
      split
      · rfl
      · exact returns_keep_ne (hother id' rfl session hown) _
  | delete id' path value =>
    rw [handle,delete]
    split
    · rfl
    · next session hown =>
      split
      · rfl
      · exact returns_keep_ne (hother id' rfl session hown) _
  | compare id' =>
    rw [handle,compare]
    split <;> rfl
  | discard id' =>
    rw [handle,discard]
    split
    · rfl
    · next session hown => exact returns_keep_ne (hother id' rfl session hown) _
  | commit id' comment minutes => exact returns_commit_ne (hother id' rfl)
  | confirm id' => exact returns_confirm_same.mono (fun _ h => by rw [h.2.2])
  | save => exact returns_save.mono (fun _ h => by rw [h])
  | load id' source =>
    rw [handle,load]
    split
    · rfl
    · next session hown =>
      apply Prog.Returns.bind
      apply Prog.returns_of_forall
      intro r
      dsimp only
      split
      · rfl
      · split
        · exact returns_keep_ne (hother id' rfl session hown) _
        · rfl
  | commitLog =>
    rw [handle,commitLog]
    apply Prog.Returns.bind
    apply Prog.returns_of_forall
    rintro (e | revisions) <;> rfl

end Sessions

/-! ### Drafting goes on -/

section Drafting
variable {H F : Type} {site : Site H F} {uid : ℕ} {id : SessionId} {base candidate : ConfigTree} {s s' : State}

theorem Drafting.owned {actor : Actor} (h : Drafting actor.uid id base candidate s) :
    ∃ session, s.owned id actor = .ok session ∧ session.candidate = candidate ∧
      (session.baseGeneration = s.generation → s.running = base) := by
  obtain ⟨session,hget,huid,hcandidate,-,hbase⟩ := h
  exact ⟨session,owned_eq_ok.mpr ⟨hget,decide_eq_true huid⟩,hcandidate,hbase⟩

theorem Drafting.onward (h : Drafting uid id base candidate s) (hrun : s.Onward s')
    (hget : s'.sessions.get? id = s.sessions.get? id) : Drafting uid id base candidate s' := by
  obtain ⟨session,hsession,huid,hcandidate,hle,hbase⟩ := h
  refine ⟨session,hget.trans hsession,huid,hcandidate,hle.trans hrun.generation,fun heq => ?_⟩
  have hsame : s'.generation = s.generation := le_antisymm (heq ▸ hle) hrun.generation
  rw [hrun.running hsame]
  exact hbase (heq.trans hsame)

/-- A draft is not touched by others. -/
theorem step_drafting {sys : System H} {ev : Event F} (hev : Outside uid id ev)
    (h : sys.Holds (Drafting uid id base candidate)) :
    (sys.step site ev).Holds (Drafting uid id base candidate) := by
  have hobeys : sys.Obeys site (fun _ _ _ _ _ => True) ev := Prog.obeys_of_forall (fun _ _ _ => trivial)
  have hreturns : (ev.action.program site.schema ev.env sys.process).Returns
      (fun r => ∀ s, r.2 = some ⟨.serving,s⟩ → Drafting uid id base candidate s) := by
    obtain ⟨box,process⟩ := sys
    obtain htimer | hstop | ⟨actor,request,haction,hnames,hfresh⟩ := hev
    · rw [htimer]
      cases process with
      | none => exact fun _ => nofun
      | some p =>
        obtain ⟨phase,s⟩ := p
        change (if s.timer then _ else _ : Act _).Returns _
        split
        · refine Prog.Returns.bind (returns_rollBack_onward.mono (fun s' hs' s'' heq => ?_))
          cases heq
          exact (h s rfl).onward hs'.1 (by rw [hs'.2])
        · exact h
    · rw [hstop]
      cases process <;> exact fun _ => nofun
    · rw [haction]
      cases process with
      | none => exact fun _ => nofun
      | some p =>
        obtain ⟨_ | _ | _,s⟩ := p
        · exact h
        · exact h
        · have hdraft := h s rfl
          have hne : request.names = some id → ∀ session, s.owned id actor ≠ .ok session := by
            intro hname session hown
            obtain ⟨session',hget,huid,-⟩ := hdraft
            obtain ⟨hget',howner⟩ := owned_eq_ok.mp hown
            obtain rfl : session' = session := Option.some.inj (hget.symm.trans hget')
            exact hnames ((of_decide_eq_true howner).symm.trans huid) hname
          refine Prog.Returns.bind ?_
          have honward := @returns_handle_onward site.schema ev.env s actor request
          have hkept := @returns_handle_ne site.schema ev.env s actor id request hne hfresh
          refine (honward.and hkept).mono (fun r hr s' heq => ?_)
          cases heq
          exact hdraft.onward hr.1 hr.2
  exact System.step_of_ends hobeys (hreturns.ends.mono (fun _ _ h => h) (fun _ _ => nofun))

theorem run_drafting {evs : List (Event F)} {sys : System H} (hevs : ∀ ev ∈ evs, Outside uid id ev)
    (h : sys.Holds (Drafting uid id base candidate)) :
    (evs.foldl (System.step site) sys).Holds (Drafting uid id base candidate) := by
  induction evs generalizing sys with
  | nil => exact h
  | cons ev evs ih =>
    exact ih (fun ev' hev' => hevs ev' (List.mem_cons_of_mem _ hev')) (step_drafting (hevs ev List.mem_cons_self) h)

end Drafting
end Nightshade.Configd
