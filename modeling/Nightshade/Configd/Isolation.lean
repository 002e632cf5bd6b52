import Mathlib
import Nightshade.Foundation.Lockstep
import Nightshade.Schema.Shipped
import Nightshade.Configd.Footprint

/-! Sessions are isolated. Nobody else's request touches a user's sessions, and while nothing is
committed or saved, what a user is answered does not depend on what others do to theirs. -/
namespace Nightshade.Configd
open Foundation Schema

/-! ### What is a user's own -/

/-- The sessions of a user are the same in two states. -/
def State.OwnKept (uid : ℕ) (s s' : State) : Prop :=
  ∀ id session, session.uid = uid → (s'.sessions.get? id = some session ↔ s.sessions.get? id = some session)

/-- Whatever is under an id is not a user's. -/
def State.Elses (s : State) (uid : ℕ) (id : SessionId) : Prop :=
  ∀ session, s.sessions.get? id = some session → session.uid ≠ uid

/-- Two states in which a user finds the same. -/
structure State.Alike (uid : ℕ) (s t : State) : Prop where
  running : s.running = t.running
  generation : s.generation = t.generation
  own : State.OwnKept uid t s

/-- Two boxes with the same saved configuration and the same archive. -/
structure Box.SameFiles {H : Type} (b c : Box H) : Prop where
  saved : b.saved = c.saved
  revisions : b.revisions = c.revisions
  infos : b.infos = c.infos

/-- Two systems in which a user finds the same. -/
structure System.Alike {H : Type} (uid : ℕ) (sys sys' : System H) : Prop where
  states : ∃ s t, sys.process = some ⟨.serving,s⟩ ∧ sys'.process = some ⟨.serving,t⟩ ∧ s.Alike uid t
  files : sys.box.SameFiles sys'.box

/-- The session that a request is about. -/
def Request.names : Request → Option SessionId
  | .sessionOpen | .save | .commitLog => none
  | .sessionClose id | .set id _ _ | .delete id _ _ | .compare id | .discard id | .commit id _ _
  | .confirm id | .load id _ => some id

/-- A request is about a session of whoever makes it, or about none. -/
def State.owns (s : State) (actor : Actor) (request : Request) : Bool :=
  request.names.all (fun id => (s.sessions.get? id).any (fun session => session.ownedBy actor))

section Own
variable {uid : ℕ} {s t : State} {id : SessionId} {actor : Actor} {session : Session}

theorem State.OwnKept.refl : s.OwnKept uid s := fun _ _ _ => Iff.rfl

theorem State.ownKept_put (hold : s.Elses uid id) (hnew : session.uid ≠ uid) :
    s.OwnKept uid (s.put id session) := by
  intro id' session' huid
  rw [put_sessions,SortedMap.get?_insert]
  split_ifs with hid
  · subst hid
    constructor
    · intro h
      cases h
      exact absurd huid hnew
    · intro h
      exact absurd huid (hold session' h)
  · rfl

theorem State.ownKept_erase (hold : s.Elses uid id) :
    s.OwnKept uid {s with sessions := s.sessions.erase id} := by
  intro id' session' huid
  rw [SortedMap.get?_erase]
  split_ifs with hid
  · subst hid
    constructor
    · nofun
    · intro h
      exact absurd huid (hold session' h)
  · rfl

/-- What one owns is nobody else's. -/
theorem elses_of_owned (hown : s.owned id actor = .ok session) (hother : actor.uid ≠ uid) :
    s.Elses uid id ∧ session.uid ≠ uid := by
  obtain ⟨hget,howner⟩ := owned_eq_ok.mp hown
  have huid : session.uid = actor.uid := of_decide_eq_true howner
  have hne : session.uid ≠ uid := huid ▸ hother
  refine ⟨fun session' hget' => ?_,hne⟩
  obtain rfl : session = session' := Option.some.inj (hget.symm.trans hget')
  exact hne

end Own

/-! ### Requests of others -/

section Others
variable {schema : Schema} {env : Env} {uid : ℕ} {s : State} {actor : Actor} {id : SessionId}

theorem returns_keep_own {session : Session} (hold : s.Elses uid id) (hnew : session.uid ≠ uid) :
    (keep s id session).Returns (fun r => s.OwnKept uid r.2) := by
  intro r
  cases r <;> exact State.ownKept_put hold hnew

theorem returns_commit_own {comment : Option String} {minutes : Option ℕ} (hother : actor.uid ≠ uid) :
    (commit schema env s id actor comment minutes).Returns (fun r => s.OwnKept uid r.2) := by
  unfold commit
  split
  · exact .refl
  · next session changes hplan =>
    obtain ⟨hold,hnew⟩ := elses_of_owned (plan_eq_ok.mp hplan).1 hother
    have hadvance : s.OwnKept uid (s.advance id session) := State.ownKept_put hold hnew
    split
    · exact .refl
    · intro r
      cases r with
      | error e => exact .refl
      | ok _ =>
        intro _ _
        cases minutes with
        | none =>
          simp only [Prog.bind_eq,Prog.done_bind]
          apply Prog.Returns.bind
          exact Prog.returns_of_forall (fun _ => hadvance)
        | some minutes =>
          intro r
          cases r <;> exact hadvance

/-- A request of somebody else leaves a user's sessions alone. -/
theorem returns_handle_own {request : Request} (hother : actor.uid ≠ uid)
    (hfresh : request = .sessionOpen → ∀ id, env.entropy = .ok id → s.Elses uid id) :
    (handle schema env s actor request).Returns (fun r => s.OwnKept uid r.2) := by
  cases request with
  | sessionOpen =>
    rw [handle,sessionOpen]
    cases hentropy : env.entropy with
    | error e => exact .refl
    | ok id =>
      intro r
      cases r with
      | error e => exact .refl
      | ok _ => exact State.ownKept_put (hfresh rfl id hentropy) hother
  | sessionClose id =>
    rw [handle,sessionClose]
    split
    · exact .refl
    · next session hown => exact fun _ => State.ownKept_erase (elses_of_owned hown hother).1
  | set id path value =>
    rw [handle,set]
    split
    · exact .refl
    · next session hown =>
      split
      · exact .refl
      · exact returns_keep_own (elses_of_owned hown hother).1 (elses_of_owned hown hother).2
  | delete id path value =>
    rw [handle,delete]
    split
    · exact .refl
    · next session hown =>
      split
      · exact .refl
      · exact returns_keep_own (elses_of_owned hown hother).1 (elses_of_owned hown hother).2
  | compare id =>
    rw [handle,compare]
    split <;> exact .refl
  | discard id =>
    rw [handle,discard]
    split
    · exact .refl
    · next session hown =>
      exact returns_keep_own (elses_of_owned hown hother).1 (elses_of_owned hown hother).2
  | commit id comment minutes => exact returns_commit_own hother
  | confirm id =>
    rw [handle,confirm]
    split
    · exact .refl
    · split
      · exact .refl
      · intro _
        simp only [Prog.bind_eq,Prog.done_bind]
        apply Prog.Returns.bind
        exact Prog.returns_of_forall (fun _ => .refl)
  | save =>
    refine (@returns_save schema s).mono (fun r h => ?_)
    rw [h]
    exact .refl
  | load id source =>
    rw [handle,load]
    split
    · exact .refl
    · next session hown =>
      apply Prog.Returns.bind
      apply Prog.returns_of_forall
      intro r
      dsimp only
      split
      · exact .refl
      · split
        · exact returns_keep_own (elses_of_owned hown hother).1 (elses_of_owned hown hother).2
        · exact .refl
  | commitLog =>
    rw [handle,commitLog]
    apply Prog.Returns.bind
    apply Prog.returns_of_forall
    rintro (e | revisions) <;> exact .refl

end Others

/-! ### Requests of one's own -/

/-- A step whose answer depends on nothing but the saved configuration and the archive. -/
def Effect.Plain : Effect → Prop
  | .saveSession _ | .forgetSession _ | .readSaved | .listInfos | .readRevision _ => True
  | _ => False

/-- The answers to one request in two runs, and what it leaves: answers about one's own session are
the same, and others are refusals. -/
def SameAnswer (uid : ℕ) (own : Bool) (r r' : Response × State) : Prop :=
  r.2.Alike uid r'.2 ∧
    if own then r.1 = r'.1 else ∃ text text', r.1 = .failed .request text ∧ r'.1 = .failed .request text'

section Own
variable {H F : Type} {site : Site H F} {schema : Schema} {env : Env} {uid : ℕ} {s t : State} {actor : Actor}
  {id : SessionId}

theorem perform_plain {e : Effect} {f : Fate F} {b c : Box H} (he : e.Plain) (h : b.SameFiles c) :
    (perform site e f b).1 = (perform site e f c).1 ∧
      (perform site e f b).2.SameFiles (perform site e f c).2 := by
  obtain ⟨hsaved,hrevisions,hinfos⟩ := h
  cases e with
  | saveSession session | forgetSession old =>
    cases hio : f.io <;> simp only [perform,hio,write_ok,write_fail,write_kill]
    all_goals exact ⟨trivial,hsaved,hrevisions,hinfos⟩
  | readSaved =>
    cases hio : f.io <;> simp only [perform,hio,read_ok,read_fail,read_kill,hsaved]
    all_goals exact ⟨trivial,hsaved,hrevisions,hinfos⟩
  | listInfos =>
    cases hio : f.io <;> simp only [perform,hio,read_ok,read_fail,read_kill,hinfos]
    all_goals exact ⟨trivial,hsaved,hrevisions,hinfos⟩
  | readRevision stem =>
    cases hio : f.io <;> simp only [perform,hio,look_ok,look_fail,look_kill,hrevisions]
    all_goals exact ⟨trivial,hsaved,hrevisions,hinfos⟩
  | _ => exact absurd he id

theorem State.Alike.symm (h : s.Alike uid t) : t.Alike uid s :=
  ⟨h.running.symm,h.generation.symm,fun id session huid => (h.own id session huid).symm⟩

theorem State.Alike.owned (h : s.Alike uid t) (huid : actor.uid = uid) {session : Session} :
    s.owned id actor = .ok session ↔ t.owned id actor = .ok session := by
  rw [owned_eq_ok,owned_eq_ok]
  refine and_congr_left (fun howner => h.own id session ?_)
  exact (of_decide_eq_true howner).trans huid

/-- Whoever does not own a session is refused. -/
theorem owned_refused (h : ∀ session, s.owned id actor ≠ .ok session) :
    ∃ text, s.owned id actor = .error (.failed .request text) := by
  unfold State.owned at h ⊢
  split
  · next session hget =>
    simp only [hget] at h
    split at h
    · exact absurd rfl (h session)
    · next hown =>
      rw [if_neg hown]
      exact ⟨_,rfl⟩
  · exact ⟨_,rfl⟩

theorem State.Alike.put (h : s.Alike uid t) (session : Session) : (s.put id session).Alike uid (t.put id session) := by
  refine ⟨h.running,h.generation,fun id' session' huid => ?_⟩
  rw [put_sessions,put_sessions,SortedMap.get?_insert,SortedMap.get?_insert]
  split_ifs
  · rfl
  · exact h.own id' session' huid

theorem keep_lockstep (h : s.Alike uid t) (session : Session) :
    (keep s id session).Lockstep Effect.Plain (SameAnswer uid true) (keep t id session) := by
  refine .perform trivial (fun r => ?_)
  cases r <;> exact .done ⟨h.put session,rfl⟩

/-- A request about a session: refused in both runs, or carried out in both on the same session. -/
theorem session_lockstep (h : s.Alike uid t) (huid : actor.uid = uid) {own : Bool}
    (hown : own = (s.sessions.get? id).any (fun session => session.ownedBy actor))
    {program program' : Act (Response × State)}
    (hrefused : ∀ text text', s.owned id actor = .error (.failed .request text) →
      t.owned id actor = .error (.failed .request text') →
        program = .done (.failed .request text,s) ∧ program' = .done (.failed .request text',t))
    (hserved : ∀ session, s.owned id actor = .ok session → t.owned id actor = .ok session →
      program.Lockstep Effect.Plain (SameAnswer uid true) program') :
    program.Lockstep Effect.Plain (SameAnswer uid own) program' := by
  by_cases hexists : ∃ session, s.owned id actor = .ok session
  · obtain ⟨session,hs⟩ := hexists
    obtain ⟨hget,howner⟩ := owned_eq_ok.mp hs
    rw [hget,Option.any_some,howner] at hown
    rw [hown]
    exact hserved session hs ((h.owned huid).mp hs)
  · have hnone : ∀ session, s.owned id actor ≠ .ok session := fun session hs => hexists ⟨session,hs⟩
    obtain ⟨text,htext⟩ := owned_refused hnone
    obtain ⟨text',htext'⟩ := owned_refused (fun session ht => hnone session ((h.owned huid).mpr ht))
    have hfalse : own = false := by
      rw [hown]
      cases hget : s.sessions.get? id with
      | none => rfl
      | some session =>
        rw [Option.any_some]
        by_contra howner
        rw [Bool.not_eq_false] at howner
        exact hnone session (owned_eq_ok.mpr ⟨hget,howner⟩)
    obtain ⟨hp,hp'⟩ := hrefused text text' htext htext'
    rw [hp,hp',hfalse]
    exact .done ⟨h,text,text',rfl,rfl⟩

theorem only_list_plain : Archive.list.Only Effect.Plain := by
  refine ⟨trivial,fun r => ?_⟩
  cases r <;> trivial

theorem only_fetch_plain (source : LoadSource) : (fetch source).Only Effect.Plain := by
  cases source with
  | saved =>
    refine ⟨trivial,fun r => ?_⟩
    rcases r with e | _ | text
    · trivial
    · trivial
    · simp only [Prog.done_bind]
      split <;> trivial
  | archive revision =>
    have hread : (Archive.read revision).Only Effect.Plain := by
      refine only_list_plain.bind (fun r => ?_)
      cases r with
      | error e => trivial
      | ok revisions =>
        dsimp only
        split
        · trivial
        · refine ⟨trivial,fun r => ?_⟩
          cases r with
          | error e => trivial
          | ok text =>
            simp only [Prog.done_bind]
            split <;> trivial
    refine hread.bind (fun r => ?_)
    cases r <;> trivial

theorem handle_lockstep (h : s.Alike uid t) (huid : actor.uid = uid) {request : Request}
    (hedits : request.edits) :
    (handle schema env s actor request).Lockstep Effect.Plain (SameAnswer uid (s.owns actor request))
      (handle schema env t actor request) := by
  cases request with
  | sessionOpen =>
    rw [handle,handle,sessionOpen,sessionOpen]
    cases env.entropy with
    | error e => exact .done ⟨h,rfl⟩
    | ok id =>
      dsimp only
      rw [h.running,h.generation]
      refine .perform trivial (fun r => ?_)
      cases r with
      | error e => exact .done ⟨h,rfl⟩
      | ok _ => exact .done ⟨h.put _,rfl⟩
  | sessionClose id =>
    refine session_lockstep h huid rfl (fun text text' hs ht => ?_) (fun session hs ht => ?_)
    · simp only [handle,sessionClose,hs,ht]
      exact ⟨rfl,rfl⟩
    · simp only [handle,sessionClose,hs,ht]
      refine .perform trivial (fun r => .done ⟨⟨h.running,h.generation,?_⟩,rfl⟩)
      intro id' session' huid'
      rw [SortedMap.get?_erase,SortedMap.get?_erase]
      split_ifs
      · rfl
      · exact h.own id' session' huid'
  | set id path value =>
    refine session_lockstep h huid rfl (fun text text' hs ht => ?_) (fun session hs ht => ?_)
    · simp only [handle,set,hs,ht]
      exact ⟨rfl,rfl⟩
    · simp only [handle,set,hs,ht]
      split
      · exact .done ⟨h,rfl⟩
      · exact keep_lockstep h _
  | delete id path value =>
    refine session_lockstep h huid rfl (fun text text' hs ht => ?_) (fun session hs ht => ?_)
    · simp only [handle,delete,hs,ht]
      exact ⟨rfl,rfl⟩
    · simp only [handle,delete,hs,ht]
      split
      · exact .done ⟨h,rfl⟩
      · exact keep_lockstep h _
  | compare id =>
    refine session_lockstep h huid rfl (fun text text' hs ht => ?_) (fun session hs ht => ?_)
    · simp only [handle,compare,hs,ht]
      exact ⟨rfl,rfl⟩
    · simp only [handle,compare,hs,ht,h.running]
      exact .done ⟨h,rfl⟩
  | discard id =>
    refine session_lockstep h huid rfl (fun text text' hs ht => ?_) (fun session hs ht => ?_)
    · simp only [handle,discard,hs,ht]
      exact ⟨rfl,rfl⟩
    · simp only [handle,discard,hs,ht,h.running,h.generation]
      exact keep_lockstep h _
  | load id source =>
    refine session_lockstep h huid rfl (fun text text' hs ht => ?_) (fun session hs ht => ?_)
    · simp only [handle,load,hs,ht]
      exact ⟨rfl,rfl⟩
    · simp only [handle,load,hs,ht]
      refine (only_fetch_plain source).lockstep.bind ?_
      rintro r _ rfl
      split
      · exact .done ⟨h,rfl⟩
      · split
        · exact keep_lockstep h _
        · exact .done ⟨h,rfl⟩
  | commitLog =>
    rw [handle,handle,commitLog,commitLog]
    refine .perform trivial (fun r => ?_)
    cases r <;> exact .done ⟨h,rfl⟩
  | commit | confirm | save => cases hedits

end Own

/-! ### Runs -/

/-- Who makes a request. -/
def Action.by (uid : ℕ) : Action → Bool
  | .request actor _ => actor.uid = uid
  | _ => false

section Runs
variable {H F : Type}

/-- An id drawn for a session is not one of a user's. -/
def Event.Spares (uid : ℕ) (sys : System H) (ev : Event F) : Prop :=
  ∀ s, sys.process = some ⟨.serving,s⟩ → ∀ id, ev.env.entropy = .ok id → s.Elses uid id

/-- A request of somebody else. -/
def ByOther (uid : ℕ) (sys : System H) (ev : Event F) : Prop :=
  ∃ actor request, ev.action = .request actor request ∧ actor.uid ≠ uid ∧
    (request = .sessionOpen → ev.Spares uid sys)

/-- A request that neither commits nor confirms nor saves. -/
def Quiet (uid : ℕ) (sys : System H) (ev : Event F) : Prop :=
  ∃ actor request, ev.action = .request actor request ∧ request.edits ∧
    (actor.uid ≠ uid → request = .sessionOpen → ev.Spares uid sys)

/-- Whether an event is about a session of whoever makes the request, or about none. -/
def System.owns (sys : System H) (ev : Event F) : Bool :=
  match sys.process,ev.action with
  | some p,.request actor request => p.state.owns actor request
  | _,_ => true

variable (site : Site H F)

/-- What a user is told: the answers to their requests, each with whether it is about a session of
theirs. -/
def told (uid : ℕ) : System H → List (Event F) → List (Bool × Option Response)
  | _, [] => []
  | sys, ev::evs =>
    if ev.action.by uid then (sys.owns ev,sys.reply site ev)::told uid (sys.step site ev) evs
    else told uid (sys.step site ev) evs

/-- The same answer about one's own session, or two refusals about another. -/
def AnswersAlike (a b : Bool × Option Response) : Prop :=
  a.1 = b.1 ∧
    if a.1 then a.2 = b.2
    else ∃ text text', a.2 = some (.failed .request text) ∧ b.2 = some (.failed .request text')

/-- The requests of one user. -/
def requestsOf (uid : ℕ) (evs : List (Event F)) : List (Event F) := evs.filter (fun ev => ev.action.by uid)

variable {site} {uid : ℕ}

theorem run_gone {sys : System H} {evs : List (Event F)} (h : sys.process = none)
    (hrequests : ∀ ev ∈ evs, ∃ actor request, ev.action = .request actor request) :
    (evs.foldl (System.step site) sys).process = none := by
  induction evs generalizing sys with
  | nil => exact h
  | cons ev evs ih =>
    refine ih ?_ (fun ev hev => hrequests ev (by simp [hev]))
    obtain ⟨actor,request,haction⟩ := hrequests ev (by simp)
    unfold System.step System.outcome
    rw [h,haction]
    rfl

/-- A request of somebody else, where the daemon lives on. -/
theorem step_own {sys : System H} {ev : Event F} {s : State} (hs : sys.process = some ⟨.serving,s⟩)
    (hev : ByOther uid sys ev) : ∀ q, (sys.step site ev).process = some q →
      ∃ s', q = ⟨.serving,s'⟩ ∧ s.OwnKept uid s' := by
  obtain ⟨actor,request,haction,hother,hspares⟩ := hev
  have hobeys : sys.Obeys site (fun _ _ _ _ _ => True) ev := Prog.obeys_of_forall (fun _ _ _ => trivial)
  let Inv : System H → Prop := fun sys' => ∀ q, sys'.process = some q → ∃ s', q = ⟨.serving,s'⟩ ∧ s.OwnKept uid s'
  have hinv : Inv (sys.step site ev) := by
    refine System.step_of_ends hobeys ?_
    rw [haction,hs]
    have hhandle := @returns_handle_own site.schema ev.env uid s actor request hother
      (fun hopen => hspares hopen s hs)
    have hprogram : (Action.program site.schema ev.env (.request actor request) (some ⟨.serving,s⟩)).Returns
        (fun r => ∀ q, r.2 = some q → ∃ s', q = ⟨.serving,s'⟩ ∧ s.OwnKept uid s') := by
      refine Prog.Returns.bind (hhandle.mono (fun r hr q hq => ?_))
      cases hq
      exact ⟨r.2,rfl,hr⟩
    exact hprogram.ends.mono (fun r box hr => hr) (fun box _ => nofun)
  exact hinv

/-- A quiet request of somebody else leaves the system as it was to a user. -/
theorem step_quiet {sys sys' : System H} {ev : Event F} (h : sys.Alike uid sys') (hev : Quiet uid sys ev)
    (hother : ev.action.by uid = false) (hlives : (sys.step site ev).process.isSome) :
    (sys.step site ev).Alike uid sys' := by
  obtain ⟨⟨s,t,hs,ht,hst⟩,hfiles⟩ := h
  obtain ⟨actor,request,haction,hedits,hspares⟩ := hev
  have hne : actor.uid ≠ uid := by simpa [haction,Action.by] using hother
  have hobeys : sys.Obeys site (fun _ _ _ _ _ => True) ev := Prog.obeys_of_forall (fun _ _ _ => trivial)
  let Inv : System H → Prop := fun next => next.process.isSome → next.Alike uid sys'
  have hinv : Inv (sys.step site ev) := by
    refine System.step_of_ends hobeys ?_
    have hfound : sys.found site ev = sys.box := by
      unfold System.found
      rw [haction]
      rfl
    rw [haction,hs,hfound]
    have hown := @returns_handle_own site.schema ev.env uid s actor request hne
      (fun hopen => hspares hne hopen s hs)
    have hkeep : (handle site.schema ev.env s actor request).Ends (perform site) (fun _ _ _ => True)
        (fun r box => s.SameRun r.2 ∧ box.SameFiles sys'.box) (fun box => box.SameFiles sys'.box) sys.box := by
      refine (only_edits hedits).ends (returns_edits hedits) (fun e f b he _ hb => ?_) hfiles
      have hpart : ∀ p : Part, p ≠ .nothing → p ≠ .sessions → e.part ≠ p := by
        intro p hnothing hsessions hpart
        rcases he with he | he
        · exact hnothing (hpart.symm.trans he)
        · exact hsessions (hpart.symm.trans he)
      exact ⟨(perform_saved f b (hpart .saved nofun nofun)).trans hb.saved,
        (perform_revisions f b (hpart .archive nofun nofun)).trans hb.revisions,
        (perform_infos f b (hpart .archive nofun nofun)).trans hb.infos⟩
    refine Prog.Ends.bind ((hown.ends.and hkeep).mono ?_ (fun _ _ => nofun))
    rintro r box ⟨hkept,hrun,hbox⟩ -
    refine ⟨⟨r.2,t,rfl,ht,?_,?_,?_⟩,hbox⟩
    · rw [hrun]
      exact hst.running
    · rw [hrun]
      exact hst.generation
    · intro id session huid
      exact (hkept id session huid).trans (hst.own id session huid)
  exact hinv hlives

theorem System.Alike.symm {sys sys' : System H} (h : sys.Alike uid sys') : sys'.Alike uid sys := by
  obtain ⟨⟨s,t,hs,ht,hst⟩,hfiles⟩ := h
  exact ⟨⟨t,s,ht,hs,hst.symm⟩,hfiles.saved.symm,hfiles.revisions.symm,hfiles.infos.symm⟩

/-- The answer, and the system that a run leaves. -/
def answered (r : Option (Option Response × Option Process) × Box H) : Option Response × System H :=
  match r with
  | (some (response,process),box) => (response,⟨box,process⟩)
  | (none,box) => (none,⟨box,none⟩)

/-- A user's own request is answered alike in two systems that are alike, and leaves them alike. -/
theorem step_lockstep {sys sys' : System H} {ev : Event F} (h : sys.Alike uid sys') (hev : Quiet uid sys ev)
    (hmine : ev.action.by uid) (hlives : (sys.step site ev).process.isSome) :
    (sys.step site ev).Alike uid (sys'.step site ev) ∧
      AnswersAlike (sys.owns ev,sys.reply site ev) (sys'.owns ev,sys'.reply site ev) := by
  obtain ⟨⟨s,t,hs,ht,hst⟩,hfiles⟩ := h
  obtain ⟨actor,request,haction,hedits,-⟩ := hev
  have huid : actor.uid = uid := by simpa [haction,Action.by] using hmine
  have hfound : ∀ sys : System H, sys.found site ev = sys.box := by
    intro sys
    unfold System.found
    rw [haction]
    rfl
  have howns : sys.owns ev = s.owns actor request ∧ sys'.owns ev = t.owns actor request := by
    unfold System.owns
    rw [hs,ht,haction]
    exact ⟨rfl,rfl⟩
  have hsame : t.owns actor request = s.owns actor request := by
    unfold State.owns
    cases request.names with
    | none => rfl
    | some id =>
      rw [Option.all_some,Option.all_some,Bool.eq_iff_iff,Option.any_eq_true,Option.any_eq_true]
      refine exists_congr (fun session => and_congr_left (fun howner => ?_))
      exact hst.symm.own id session ((of_decide_eq_true howner).trans huid)
  let program := fun s => Action.program site.schema ev.env (.request actor request) (some ⟨.serving,s⟩)
  let ends := fun (r r' : Option Response × Option Process) => ∃ a a' : Response × State,
    r = (some a.1,some ⟨.serving,a.2⟩) ∧ r' = (some a'.1,some ⟨.serving,a'.2⟩) ∧
      SameAnswer uid (s.owns actor request) a a'
  have hprogram : (program s).Lockstep Effect.Plain ends (program t) :=
    (handle_lockstep hst huid hedits).bind (fun a a' ha => .done ⟨a,a',rfl,rfl,ha⟩)
  have hplain : ∀ (e : Effect) (f : Fate F) (b c : Box H), e.Plain → b.SameFiles c →
      (perform site e f b).1 = (perform site e f c).1 ∧
        (perform site e f b).2.SameFiles (perform site e f c).2 := fun e f b c he hb => perform_plain he hb
  have hrun : Prog.SameEnd ends Box.SameFiles ((program s).run (perform site) ev.fate 0 sys.box)
      ((program t).run (perform site) ev.fate 0 sys'.box) := hprogram.run hplain ev.fate 0 hfiles
  have houtcome : ∀ (sys : System H) (s : State), sys.process = some ⟨.serving,s⟩ → sys.outcome site ev =
      answered ((program s).run (perform site) ev.fate 0 sys.box) := by
    intro sys s hs
    unfold System.outcome
    rewrite [hfound,hs,haction]
    rfl
  unfold System.step at hlives
  unfold System.step System.reply
  rw [houtcome sys s hs] at hlives ⊢
  rw [houtcome sys' t ht,howns.1,howns.2,hsame]
  rcases hr : (program s).run (perform site) ev.fate 0 sys.box with ⟨_ | r,box⟩
  · rw [hr] at hlives
    cases hlives
  · rcases hr' : (program t).run (perform site) ev.fate 0 sys'.box with ⟨_ | r',box'⟩
    · rw [hr,hr'] at hrun
      exact hrun.elim
    · rw [hr,hr'] at hrun
      obtain ⟨⟨a,a',rfl,rfl,hstates,hanswers⟩,hboxes⟩ := hrun
      refine ⟨⟨⟨a.2,a'.2,rfl,rfl,hstates⟩,hboxes⟩,rfl,?_⟩
      cases hown : s.owns actor request with
      | true =>
        rw [hown] at hanswers
        exact congrArg some hanswers
      | false =>
        rw [hown] at hanswers
        obtain ⟨text,text',htext,htext'⟩ := hanswers
        exact ⟨text,text',congrArg some htext,congrArg some htext'⟩

/-- Every event of an allowed run is allowed somewhere. -/
theorem allowed_of_along {S Ev : Type*} {step : S → Ev → S} {allowed : S → Ev → Prop} {s : S} {evs : List Ev}
    (h : Along step allowed s evs) : ∀ ev ∈ evs, ∃ s, allowed s ev := by
  induction evs generalizing s with
  | nil => nofun
  | cons ev evs ih => exact List.forall_mem_cons.mpr ⟨⟨s,h.1⟩,ih h.2⟩

theorem quiet_requests {sys : System H} {evs : List (Event F)} (h : Along (System.step site) (Quiet uid) sys evs) :
    ∀ ev ∈ evs, ∃ actor request, ev.action = .request actor request := by
  intro ev hev
  obtain ⟨_,actor,request,haction,-⟩ := allowed_of_along h ev hev
  exact ⟨actor,request,haction⟩

/-- A daemon that lives on after quiet requests has lived on after the first of them. -/
theorem lives_first {sys : System H} {ev : Event F} {evs : List (Event F)}
    (h : Along (System.step site) (Quiet uid) sys (ev::evs))
    (hlives : ((ev::evs).foldl (System.step site) sys).process.isSome) : (sys.step site ev).process.isSome := by
  by_contra hgone
  rw [Bool.not_eq_true,Option.isSome_eq_false_iff,Option.isNone_iff_eq_none] at hgone
  rw [List.foldl_cons,run_gone hgone (quiet_requests h.2)] at hlives
  cases hlives

theorem told_other {sys : System H} {ev : Event F} {evs : List (Event F)} (h : ev.action.by uid = false) :
    told site uid sys (ev::evs) = told site uid (sys.step site ev) evs ∧
      requestsOf uid (ev::evs) = requestsOf uid evs := by
  simp [told,requestsOf,h]

theorem told_mine {sys : System H} {ev : Event F} {evs : List (Event F)} (h : ev.action.by uid = true) :
    told site uid sys (ev::evs) = (sys.owns ev,sys.reply site ev)::told site uid (sys.step site ev) evs ∧
      requestsOf uid (ev::evs) = ev::requestsOf uid evs := by
  simp [told,requestsOf,h]

/-- Two quiet runs with the same requests of one user. -/
theorem runs_alike {sys sys' : System H} {evs evs' : List (Event F)} (h : sys.Alike uid sys')
    (hquiet : Along (System.step site) (Quiet uid) sys evs)
    (hquiet' : Along (System.step site) (Quiet uid) sys' evs')
    (hsame : requestsOf uid evs = requestsOf uid evs')
    (hlives : (evs.foldl (System.step site) sys).process.isSome)
    (hlives' : (evs'.foldl (System.step site) sys').process.isSome) :
    List.Forall₂ AnswersAlike (told site uid sys evs) (told site uid sys' evs') ∧
      (evs.foldl (System.step site) sys).Alike uid (evs'.foldl (System.step site) sys') := by
  -- Requests of others are taken from either run first, and the user's own from both together.
  induction evs generalizing sys sys' evs' with
  | nil =>
    induction evs' generalizing sys' with
    | nil => exact ⟨.nil,h⟩
    | cons ev' evs' ih =>
      cases hmine : ev'.action.by uid with
      | true =>
        rw [(@told_mine _ _ site uid sys' ev' evs' hmine).2] at hsame
        cases hsame
      | false =>
        obtain ⟨htold,hrest⟩ := @told_other _ _ site uid sys' ev' evs' hmine
        rw [htold]
        rw [hrest] at hsame
        exact ih (step_quiet h.symm hquiet'.1 hmine (lives_first hquiet' hlives')).symm hquiet'.2 hsame hlives'
  | cons ev evs ih =>
    have hfirst := lives_first hquiet hlives
    cases hmine : ev.action.by uid with
    | false =>
      obtain ⟨htold,hrest⟩ := @told_other _ _ site uid sys ev evs hmine
      rw [htold]
      rw [hrest] at hsame
      exact ih (step_quiet h hquiet.1 hmine hfirst) hquiet.2 hquiet' hsame hlives hlives'
    | true =>
      induction evs' generalizing sys' with
      | nil =>
        rw [(@told_mine _ _ site uid sys ev evs hmine).2] at hsame
        cases hsame
      | cons ev' evs' ih' =>
        have hfirst' := lives_first hquiet' hlives'
        cases hmine' : ev'.action.by uid with
        | false =>
          obtain ⟨htold,hrest⟩ := @told_other _ _ site uid sys' ev' evs' hmine'
          rw [htold]
          rw [hrest] at hsame
          exact ih' (step_quiet h.symm hquiet'.1 hmine' hfirst').symm hquiet'.2 hsame hlives'
        | true =>
          obtain ⟨htold,hrest⟩ := @told_mine _ _ site uid sys ev evs hmine
          obtain ⟨htold',hrest'⟩ := @told_mine _ _ site uid sys' ev' evs' hmine'
          rw [hrest,hrest'] at hsame
          obtain ⟨rfl,hothers⟩ := List.cons.inj hsame
          obtain ⟨hstep,hanswer⟩ := step_lockstep h hquiet.1 hmine hfirst
          obtain ⟨htolds,hend⟩ := ih hstep hquiet.2 hquiet'.2 hothers hlives hlives'
          rw [htold,htold']
          exact ⟨.cons hanswer htolds,hend⟩

/-- Requests of others leave a user's sessions alone, in every run of them. -/
theorem runs_own {sys : System H} {evs : List (Event F)} {s : State} (hs : sys.process = some ⟨.serving,s⟩)
    (hothers : Along (System.step site) (ByOther uid) sys evs) :
    ∀ q, (evs.foldl (System.step site) sys).process = some q → ∃ s', q = ⟨.serving,s'⟩ ∧ s.OwnKept uid s' := by
  induction evs generalizing sys s with
  | nil =>
    intro q hq
    obtain rfl : ⟨.serving,s⟩ = q := Option.some.inj (hs.symm.trans hq)
    exact ⟨s,rfl,.refl⟩
  | cons ev evs ih =>
    intro q hq
    have hrequests : ∀ ev ∈ evs, ∃ actor request, ev.action = .request actor request := by
      intro ev hev
      obtain ⟨_,actor,request,haction,-⟩ := allowed_of_along hothers.2 ev hev
      exact ⟨actor,request,haction⟩
    cases hnext : (sys.step site ev).process with
    | none =>
      rw [List.foldl_cons,run_gone hnext hrequests] at hq
      cases hq
    | some p =>
      obtain ⟨s₁,rfl,hkept⟩ := step_own hs hothers.1 p hnext
      obtain ⟨s₂,rfl,hkept'⟩ := ih hnext hothers.2 q hq
      exact ⟨s₂,rfl,fun id session huid => (hkept' id session huid).trans (hkept id session huid)⟩

/-- Sessions are isolated. In a run of requests of others a user's sessions stay as they are; and in two
runs without commits, confirmations and saves, from systems that are alike to a user and with the same
requests of that user, the user is told the same and ends up with the same sessions. -/
theorem sessions_isolated (site : Site H F) (uid : ℕ) :
    (∀ (sys : System H) (evs : List (Event F)) (s s' : State), sys.process = some ⟨.serving,s⟩ →
      Along (System.step site) (ByOther uid) sys evs →
      (evs.foldl (System.step site) sys).process = some ⟨.serving,s'⟩ → s.OwnKept uid s') ∧
    (∀ (sys sys' : System H) (evs evs' : List (Event F)), sys.Alike uid sys' →
      Along (System.step site) (Quiet uid) sys evs → Along (System.step site) (Quiet uid) sys' evs' →
      requestsOf uid evs = requestsOf uid evs' →
      (evs.foldl (System.step site) sys).process.isSome →
      (evs'.foldl (System.step site) sys').process.isSome →
      List.Forall₂ AnswersAlike (told site uid sys evs) (told site uid sys' evs') ∧
        (evs.foldl (System.step site) sys).Alike uid (evs'.foldl (System.step site) sys')) := by
  constructor
  · intro sys evs s s' hs hothers hend
    obtain ⟨s'',heq,hkept⟩ := runs_own hs hothers _ hend
    cases heq
    exact hkept
  · intro sys sys' evs evs' h hquiet hquiet' hsame hlives hlives'
    exact runs_alike h hquiet hquiet' hsame hlives hlives'

theorem System.Alike.refl {sys : System H} {s : State} (hs : sys.process = some ⟨.serving,s⟩) : sys.Alike uid sys :=
  ⟨⟨s,s,hs,hs,rfl,rfl,.refl⟩,rfl,rfl,rfl⟩

end Runs

/-- A box on which two users have each opened a session. -/
def shared : System (Option ConfigTree) :=
  ([.start,.resume,.boot,.request ⟨0,"root"⟩ .sessionOpen].map
      (fun action => Event.smooth action "0123456789abcdef") ++
    [Event.smooth (.request ⟨1,"admin"⟩ .sessionOpen) "fedcba9876543210"]).foldl
    (System.step (Site.taking (Shipped.schema []))) ⟨Box.fresh none none,none⟩

theorem shared_serves : shared.process.isSome := by decide +kernel

/-- One user's edit. -/
def rootSets (id : SessionId) : Event Unit :=
  Event.smooth (.request ⟨0,"root"⟩ (.set id ["system","host-name"] (some "edge"))) ""

/-- Another user's edit. -/
def adminSets : Event Unit :=
  Event.smooth (.request ⟨1,"admin"⟩ (.set "fedcba9876543210" ["system","host-name"] (some "core"))) ""

theorem shared_isolated :
    let site := Site.taking (Shipped.schema [])
    let evs := [adminSets,rootSets "0123456789abcdef"]
    let evs' := [rootSets "0123456789abcdef",adminSets]
    List.Forall₂ AnswersAlike (told site 0 shared evs) (told site 0 shared evs') ∧
      (evs.foldl (System.step site) shared).Alike 0 (evs'.foldl (System.step site) shared) := by
  have hquiet : ∀ evs : List (Event Unit), (∀ ev ∈ evs, ev = adminSets ∨ ev = rootSets "0123456789abcdef") →
      Along (System.step (Site.taking (Shipped.schema []))) (Quiet 0) shared evs := by
    intro evs hevs
    refine along_of_forall (fun ev hev sys => ?_)
    rcases hevs ev hev with rfl | rfl
    all_goals exact ⟨_,_,rfl,rfl,fun _ hopen => by cases hopen⟩
  exact (sessions_isolated (Site.taking (Shipped.schema [])) 0).2 shared shared
    [adminSets,rootSets "0123456789abcdef"] [rootSets "0123456789abcdef",adminSets]
    (.refl (process_eq shared_serves (by decide +kernel))) (hquiet _ (by simp)) (hquiet _ (by simp)) rfl
    (by decide +kernel) (by decide +kernel)

/-- What one is told of a session that is not one's own tells whether it is there. -/
theorem stranger_told_apart :
    requestsOf 0 [rootSets "fedcba9876543210"] = requestsOf 0
      [Event.smooth (.request ⟨1,"admin"⟩ (.sessionClose "fedcba9876543210")) "",rootSets "fedcba9876543210"] ∧
    told (Site.taking (Shipped.schema [])) 0 shared [rootSets "fedcba9876543210"] ≠
      told (Site.taking (Shipped.schema [])) 0 shared
        [Event.smooth (.request ⟨1,"admin"⟩ (.sessionClose "fedcba9876543210")) "",
          rootSets "fedcba9876543210"] :=
  ⟨rfl,by decide +kernel⟩

end Nightshade.Configd
