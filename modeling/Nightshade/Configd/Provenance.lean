import Mathlib
import Nightshade.Schema.Levels
import Nightshade.Configd.CommittedAnswer

/-! What can be saved can be booted. Whatever a commit makes the running configuration is valid
and carries no comment on its root, and such a configuration comes back from `config.boot`. -/
namespace Nightshade.Configd
open Foundation Schema

/-- A configuration that a commit accepts, built as candidates are. -/
structure Committable (schema : Schema) (config : ConfigTree) : Prop where
  valid : validate schema config = .ok ()
  unremarked : config.Unremarked

/-- Where a running configuration comes from. -/
def Sourced (schema : Schema) (config : ConfigTree) : Prop :=
  Committable schema config ∨ config = .new ∨ config = schema.defaults

def Action.isCommit : Action → Bool
  | .request _ (.commit _ _ _) => true
  | _ => false

/-- A commit notes what it records as running. -/
def notePromotion {H : Type} (action : Action) (e : Effect) (_ : Option e.Answer) (_ : Box H)
    (notes : List ConfigTree) : List ConfigTree :=
  match e,action with
  | .saveRunning config _,.request _ (.commit _ _ _) => notes ++ [config]
  | _,_ => notes

/-- One who notes every configuration that a commit makes the running one. -/
def promotions {H : Type} : Watcher H (List ConfigTree) where
  during := fun _ action _ => notePromotion action
  after := fun _ _ _ _ notes => notes

/-- A save that succeeds leaves a text that the next boot turns into the configuration that was
running. -/
def ComesBack {H F : Type} (site : Site H F) (sys : System H) (s : State) : Prop :=
  ∀ (actor : Actor) (env : Env) (fate : ℕ → Effect → Fate F),
    sys.reply site ⟨.request actor .save,env,fate⟩ = some .ok →
    ∀ (fate' : ℕ → Effect → Fate F) (n : ℕ), (∀ n e, (fate' n e).io = .ok) →
      ((saved site.schema).run (perform site) fate' n
        ((sys.step site ⟨.request actor .save,env,fate⟩).box.reboot site)).1 =
          some (.ok (some s.running))

section
variable {schema : Schema} {config : ConfigTree}

theorem validate_eq_ok : validate schema config = .ok () ↔ savedViolations schema config = [] := by
  unfold validate savedViolations
  cases hviolations : schema.validateTree config with
  | nil => cases schema.checkConstraints config <;> simp
  | cons v vs => simp

theorem Sourced.unremarked (h : Sourced schema config) : config.Unremarked := by
  rcases h with h | rfl | rfl
  · exact h.unremarked
  · exact ConfigTree.unremarked_new
  · exact defaults_unremarked

end

/-! ### Reading back what was saved -/

section Saved
variable {H F : Type} {site : Site H F} {box : Box H} {fate : ℕ → Effect → Fate F} {n : ℕ}

/-- What boot makes of a saved text. -/
theorem saved_run {text : String} (hsaved : box.saved = some text)
    (hfate : ∀ n e, (fate n e).io = .ok) :
    ((saved site.schema).run (perform site) fate n box).1 = some (.ok (some config)) ↔
      parse text = .ok config ∧ savedViolations site.schema config = [] := by
  have hio : (fate n .readSaved).io = .ok := hfate n .readSaved
  unfold saved
  simp only [Prog.bind_eq,Prog.call_bind,Prog.run,perform,hio,read_ok,hsaved]
  cases hparse : parse text with
  | error e => simp
  | ok read =>
    by_cases hempty : savedViolations site.schema read = []
    · simp only [hempty,List.isEmpty_nil,if_true,Prog.pure_eq,Prog.run_done,Option.some.injEq,
        Except.ok.injEq]
      constructor
      · rintro rfl
        exact ⟨rfl,hempty⟩
      · exact And.left
    · have hfalse : (savedViolations site.schema read).isEmpty = false := by simpa using hempty
      simp only [hfalse,Bool.false_eq_true,if_false,Prog.pure_eq,Prog.run_done,Option.some.injEq,
        reduceCtorEq,Except.ok.injEq,false_iff,not_and]
      rintro rfl
      exact hempty

/-- Boot accepts the text of a configuration exactly when a commit accepts the configuration. -/
theorem saved_render_iff (hschema : Shallow site.schema) (hroot : config.Unremarked)
    (hsaved : box.saved = some (render config (tagOracle site.schema)))
    (hfate : ∀ n e, (fate n e).io = .ok) :
    ((saved site.schema).run (perform site) fate n box).1 = some (.ok (some config)) ↔
      validate site.schema config = .ok () := by
  rw [saved_run hsaved hfate,validate_eq_ok]
  constructor
  · exact And.right
  · intro hvalid
    have hclean : site.schema.validateTree config = [] := (List.append_eq_nil_iff.mp hvalid).1
    exact ⟨parse_render_clean hschema hclean hroot _,hvalid⟩

end Saved

/-! ### Where configurations come from -/

/-- The files under `/run` hold configurations of known origin. -/
structure Vouched {H : Type} (schema : Schema) (w : Box H × List ConfigTree) : Prop where
  sessions : ∀ id session, w.1.sessions.get? id = some session → session.candidate.Unremarked
  running : ∀ recorded, w.1.running = some recorded → Sourced schema recorded.config
  marker : ∀ pending, w.1.marker = some pending → Sourced schema pending.previous
  promoted : ∀ config ∈ w.2, Committable schema config

/-- So does the daemon. -/
structure State.Vouched (schema : Schema) (s : State) : Prop where
  sessions : ∀ id session, s.sessions.get? id = some session → session.candidate.Unremarked
  running : Sourced schema s.running
  pending : ∀ pending, s.pending = some pending → Sourced schema pending.previous

/-- A step that writes only configurations of known origin. -/
def Effect.Vouched (schema : Schema) (action : Action) : Effect → Prop
  | .saveSession session => session.candidate.Unremarked
  | .saveRunning config _ => Sourced schema config ∧ (action.isCommit → Committable schema config)
  | .armMarker pending => Sourced schema pending.previous
  | _ => True

namespace State.Vouched
variable {schema : Schema} {s : State} {id : SessionId} {session : Session} {config : ConfigTree}

theorem owned {actor : Actor} (h : s.Vouched schema) (hown : s.owned id actor = .ok session) :
    session.candidate.Unremarked := h.sessions id session (owned_eq_ok.mp hown).1

theorem put (h : s.Vouched schema) (hsession : session.candidate.Unremarked) :
    (s.put id session).Vouched schema where
  sessions := by
    intro id' session' hget
    rw [put_sessions,SortedMap.get?_insert] at hget
    split_ifs at hget
    · cases hget
      exact hsession
    · exact h.sessions id' session' hget
  running := h.running
  pending := h.pending

theorem close (h : s.Vouched schema) (id : SessionId) :
    State.Vouched schema {s with sessions := s.sessions.erase id} where
  sessions := by
    intro id' session' hget
    rw [SortedMap.get?_erase] at hget
    split_ifs at hget
    exact h.sessions id' session' hget
  running := h.running
  pending := h.pending

theorem install (h : s.Vouched schema) (hconfig : Sourced schema config) :
    (s.install config).Vouched schema := ⟨h.sessions,hconfig,h.pending⟩

theorem release (h : s.Vouched schema) : s.release.Vouched schema := ⟨h.sessions,h.running,by simp⟩

theorem await {pending : Pending} (h : s.Vouched schema) (hpending : Sourced schema pending.previous) :
    (s.await pending).Vouched schema where
  sessions := h.sessions
  running := h.running
  pending := by
    intro p hp
    cases hp
    exact hpending

theorem advance (h : s.Vouched schema) (hsession : Committable schema session.candidate) :
    (s.advance id session).Vouched schema := by
  have hpromoted : (s.promote session.candidate).Vouched schema :=
    ⟨h.sessions,.inl hsession,h.pending⟩
  exact hpromoted.put hsession.unremarked

end State.Vouched

section Event
variable {H F α : Type} {site : Site H F} {action : Action} {w : Box H × List ConfigTree}
  {post : α → Prop}

/-- How a program ends that keeps the origins known. -/
abbrev Vouches (site : Site H F) (action : Action) (post : α → Prop) (program : Act α)
    (w : Box H × List ConfigTree) : Prop :=
  program.Ends (watched (perform site) (notePromotion action)) (fun _ _ _ => True)
    (fun a w => post a ∧ Vouched site.schema w) (Vouched site.schema) w

theorem Vouched.note (h : Vouched site.schema w) {e : Effect} (he : e.Vouched site.schema action)
    (r : Option e.Answer) (box : Box H) :
    ∀ config ∈ notePromotion action e r box w.2, Committable site.schema config := by
  unfold notePromotion
  split
  · next config generation =>
    intro c hc
    rcases List.mem_append.mp hc with hc | hc
    · exact h.promoted c hc
    · rw [List.mem_singleton.mp hc]
      exact he.2 rfl
  · exact h.promoted

/-- What a write leaves is what was there or what was to be written. -/
theorem write_cases (f : IoFate) (b b' : Box H) : (f.write b b').2 = b ∨ (f.write b b').2 = b' := by
  cases f with
  | ok => exact .inr rfl
  | fail reason => exact .inl rfl
  | kill => exact .inl rfl

theorem Vouched.step (h : Vouched site.schema w) {e : Effect} (he : e.Vouched site.schema action)
    (f : Fate F) : Vouched site.schema (watched (perform site) (notePromotion action) e f w).2 := by
  refine ⟨?_,?_,?_,h.note he (perform site e f w.1).1 w.1⟩
  · show ∀ id session, (perform site e f w.1).2.sessions.get? id = some session → _
    intro id session hget
    by_cases hpart : e.part = .sessions
    · cases e with
      | saveSession new =>
        simp only [perform] at hget
        rcases write_cases f.io w.1 {w.1 with sessions := w.1.sessions.insert new.id new}
          with hsame | hnew
        · rw [hsame] at hget
          exact h.sessions id session hget
        · rw [hnew,SortedMap.get?_insert] at hget
          split_ifs at hget
          · cases hget
            exact he
          · exact h.sessions id session hget
      | forgetSession old =>
        simp only [perform] at hget
        rcases write_cases f.io w.1 {w.1 with sessions := w.1.sessions.erase old} with hsame | hnew
        · rw [hsame] at hget
          exact h.sessions id session hget
        · rw [hnew,SortedMap.get?_erase] at hget
          split_ifs at hget
          exact h.sessions id session hget
      | _ => cases hpart
    · rw [perform_sessions f w.1 hpart] at hget
      exact h.sessions id session hget
  · show ∀ recorded, (perform site e f w.1).2.running = some recorded → _
    intro recorded hrecorded
    by_cases hpart : e.part = .running
    · cases e with
      | saveRunning config generation =>
        simp only [perform] at hrecorded
        rcases write_cases f.io w.1 {w.1 with running := some ⟨generation,config⟩} with hsame | hnew
        · rw [hsame] at hrecorded
          exact h.running recorded hrecorded
        · rw [hnew] at hrecorded
          cases hrecorded
          exact he.1
      | _ => cases hpart
    · rw [perform_running f w.1 hpart] at hrecorded
      exact h.running recorded hrecorded
  · show ∀ pending, (perform site e f w.1).2.marker = some pending → _
    intro pending hpending
    by_cases hpart : e.part = .marker
    · cases e with
      | armMarker new =>
        simp only [perform] at hpending
        rcases write_cases f.io w.1 {w.1 with marker := some new} with hsame | hnew
        · rw [hsame] at hpending
          exact h.marker pending hpending
        · rw [hnew] at hpending
          cases hpending
          exact he
      | disarmMarker =>
        simp only [perform] at hpending
        rcases write_cases f.io w.1 {w.1 with marker := none} with hsame | hnew
        · rw [hsame] at hpending
          exact h.marker pending hpending
        · rw [hnew] at hpending
          cases hpending
      | _ => cases hpart
    · rw [perform_marker f w.1 hpart] at hpending
      exact h.marker pending hpending

theorem vouched_step {e : Effect} {k : e.Answer → Act α} (h : Vouched site.schema w)
    (he : e.Vouched site.schema action)
    (hk : ∀ r w, Vouched site.schema w → Vouches site action post (k r) w) :
    Vouches site action post (.perform e k) w := by
  refine Prog.ends_step (Vouched site.schema) (fun f _ => ?_) hk
  have hstep := h.step he f
  rcases hr : watched (perform site) (notePromotion action) e f w with ⟨_ | r,w'⟩
  · rw [hr] at hstep
    exact hstep
  · rw [hr] at hstep
    exact hstep

/-- A step that records no configuration under `/run`. -/
def Effect.Impersonal (e : Effect) : Prop :=
  e.part ≠ .sessions ∧ e.part ≠ .running ∧ e.part ≠ .marker

theorem Effect.Impersonal.vouched {e : Effect} (h : e.Impersonal) : e.Vouched site.schema action := by
  cases e with
  | saveSession session => exact absurd rfl h.1
  | saveRunning config generation => exact absurd rfl h.2.1
  | armMarker pending => exact absurd rfl h.2.2
  | _ => trivial

theorem Effect.Within.impersonal {p : Part} (hsessions : p ≠ .sessions) (hrunning : p ≠ .running)
    (hmarker : p ≠ .marker) (e : Effect) (h : e.Within p) : e.Impersonal := by
  rcases h with h | h <;> rw [Effect.Impersonal,h]
  · decide
  · exact ⟨hsessions,hrunning,hmarker⟩

/-- A part that records no configuration under `/run`. -/
theorem impersonal_vouches {β : Type} {program : Act β} {k : β → Act α} (h : Vouched site.schema w)
    (honly : program.Only Effect.Impersonal)
    (hk : ∀ b w, Vouched site.schema w → Vouches site action post (k b) w) :
    Vouches site action post (program.bind k) w := by
  apply Prog.Ends.bind
  exact (honly.keeps (Vouched site.schema) (fun _ f _ he _ hw => hw.step he.vouched f) h).mono
    (fun b w hw => hk b w hw) (fun _ hw => hw)

/-! ### What each handler does -/

variable {env : Env} {s : State} {actor : Actor} {id : SessionId}

theorem keep_vouches {session : Session} (h : Vouched site.schema w) (hs : s.Vouched site.schema)
    (hsession : session.candidate.Unremarked) :
    Vouches site action (fun r => r.2.Vouched site.schema) (keep s id session) w :=
  vouched_step h hsession (fun r w hw => by cases r <;> exact ⟨hs.put hsession,hw⟩)

theorem sessionOpen_vouches (h : Vouched site.schema w) (hs : s.Vouched site.schema) :
    Vouches site action (fun r => r.2.Vouched site.schema) (sessionOpen env s actor) w := by
  unfold sessionOpen
  split
  · exact ⟨hs,h⟩
  · refine vouched_step h hs.running.unremarked (fun r w hw => ?_)
    cases r with
    | error e => exact ⟨hs,hw⟩
    | ok _ => exact ⟨hs.put hs.running.unremarked,hw⟩

theorem sessionClose_vouches (h : Vouched site.schema w) (hs : s.Vouched site.schema) :
    Vouches site action (fun r => r.2.Vouched site.schema) (sessionClose s id actor) w := by
  unfold sessionClose
  split
  · exact ⟨hs,h⟩
  · exact vouched_step h trivial (fun r w hw => ⟨hs.close id,hw⟩)

theorem discard_vouches (h : Vouched site.schema w) (hs : s.Vouched site.schema) :
    Vouches site action (fun r => r.2.Vouched site.schema) (discard s id actor) w := by
  unfold discard
  split
  · exact ⟨hs,h⟩
  · exact keep_vouches h hs hs.running.unremarked

theorem set_vouches {path : Path} {value : Option String} (h : Vouched site.schema w)
    (hs : s.Vouched site.schema) :
    Vouches site action (fun r => r.2.Vouched site.schema) (set site.schema s id actor path value) w := by
  unfold set
  split
  · exact ⟨hs,h⟩
  · next session hown =>
    have hset : (site.schema.applySet session.candidate path value).2.Unremarked :=
      applySet_unremarked (hs.owned hown)
    split
    · exact ⟨hs,h⟩
    · next candidate hr =>
      rw [hr] at hset
      exact keep_vouches h hs hset

theorem delete_vouches {path : Path} {value : Option String} (h : Vouched site.schema w)
    (hs : s.Vouched site.schema) :
    Vouches site action (fun r => r.2.Vouched site.schema) (delete site.schema s id actor path value)
      w := by
  unfold delete
  split
  · exact ⟨hs,h⟩
  · next session hown =>
    have hdelete : (site.schema.applyDelete session.candidate path value).2.Unremarked :=
      applyDelete_unremarked (hs.owned hown)
    split
    · exact ⟨hs,h⟩
    · next candidate hr =>
      rw [hr] at hdelete
      exact keep_vouches h hs hdelete

/-- Whatever is loaded was parsed. -/
theorem returns_fetch (source : LoadSource) :
    (fetch source).Returns (fun r => ∀ config described, r = .ok (config,described) →
      config.Unremarked) := by
  cases source with
  | saved =>
    intro r
    rcases r with e | _ | text
    · nofun
    · nofun
    · simp only [Prog.done_bind]
      split
      · next config hparse =>
        rintro _ _ ⟨⟩
        exact parse_unremarked hparse
      · nofun
  | archive revision =>
    have hread : (Archive.read revision).Returns
        (fun r => ∀ config, r = .ok config → config.Unremarked) := by
      apply Prog.Returns.bind
      refine Prog.returns_of_forall (fun r => ?_)
      rcases r with e | revisions
      · nofun
      · dsimp only
        split
        · nofun
        · intro r
          rcases r with e | text
          · nofun
          · simp only [Prog.done_bind]
            split
            · nofun
            · next config hparse =>
              rintro _ ⟨⟩
              exact parse_unremarked hparse
    apply Prog.Returns.bind
    refine hread.mono (fun r hr => ?_)
    rcases r with e | config
    · nofun
    · rintro _ _ ⟨⟩
      exact hr config rfl

theorem load_vouches {source : LoadSource} (h : Vouched site.schema w) (hs : s.Vouched site.schema) :
    Vouches site action (fun r => r.2.Vouched site.schema) (load site.schema s id actor source) w := by
  unfold load
  split
  · exact ⟨hs,h⟩
  · next session hown =>
    have honly : (fetch source).Only Effect.Impersonal :=
      (only_fetch source).mono (Effect.Within.impersonal (by decide) (by decide) (by decide))
    apply Prog.Ends.bind
    refine (honly.ends (returns_fetch source) (fun _ f _ he _ hw => hw.step he.vouched f) h).mono
      (fun r w hr => ?_) (fun _ hw => hw)
    obtain ⟨hr,hw⟩ := hr
    rcases r with response | ⟨config,described⟩
    · exact ⟨hs,hw⟩
    · dsimp only
      split_ifs
      · exact keep_vouches hw hs (hr config described rfl)
      · exact ⟨hs,hw⟩

theorem confirm_vouches (h : Vouched site.schema w) (hs : s.Vouched site.schema) :
    Vouches site action (fun r => r.2.Vouched site.schema) (confirm site.schema env s id actor) w := by
  unfold confirm
  split
  · exact ⟨hs,h⟩
  · split
    · exact ⟨hs,h⟩
    · next pending _ =>
      refine vouched_step h trivial (fun _ w hw => ?_)
      let changes := order site.schema (diff pending.previous pending.committed)
      have honly : (record site.schema env pending.committed actor pending.comment pending.generation
          changes).Only Effect.Impersonal :=
        (only_record _ _ _ _).mono (Effect.Within.impersonal (by decide) (by decide) (by decide))
      have hdone : ∀ (_ : Unit) w, Vouched site.schema w → Vouches site action
          (fun r => r.2.Vouched site.schema)
          (.done (Response.committed pending.generation changes none,s.release)) w := fun _ w hw => ⟨hs.release,hw⟩
      have hrest := impersonal_vouches hw honly hdone
      exact hrest

theorem promoted_vouches {comment : Option String} {minutes : Option ℕ} {session : Session}
    {changes : List Change} (h : Vouched site.schema w) (hs : s.Vouched site.schema)
    (hsession : Committable site.schema session.candidate) :
    Vouches site action (fun r => r.2.Vouched site.schema)
      (promoted site.schema env s id actor comment minutes session changes) w := by
  have hadvance : (s.advance id session).Vouched site.schema := hs.advance hsession
  refine vouched_step h ⟨.inl hsession,fun _ => hsession⟩ (fun _ w hw => ?_)
  refine vouched_step hw hsession.unremarked (fun _ w hw => ?_)
  cases minutes with
  | none =>
    have honly : (record site.schema env session.candidate actor comment (s.generation+1)
        changes).Only Effect.Impersonal :=
      (only_record _ comment _ changes).mono
        (Effect.Within.impersonal (by decide) (by decide) (by decide))
    have hdone : ∀ (_ : Unit) w, Vouched site.schema w → Vouches site action
        (fun r => r.2.Vouched site.schema)
        (.done (Response.committed (s.generation+1) changes none,s.advance id session)) w :=
      fun _ w hw => ⟨hadvance,hw⟩
    have hrest := impersonal_vouches hw honly hdone
    exact hrest
  | some minutes =>
    have hprevious : Sourced site.schema
        ((s.advance id session).tryout env id actor comment minutes s.generation).previous := by
      rw [State.tryout,State.getLast?_advance]
      exact hs.running
    refine vouched_step hw hprevious (fun r w hw => ?_)
    cases r with
    | error e => exact ⟨hadvance,hw⟩
    | ok _ => exact ⟨hadvance.await hprevious,hw⟩

theorem commit_vouches {comment : Option String} {minutes : Option ℕ} (h : Vouched site.schema w)
    (hs : s.Vouched site.schema) :
    Vouches site action (fun r => r.2.Vouched site.schema)
      (commit site.schema env s id actor comment minutes) w := by
  unfold commit
  split
  · exact ⟨hs,h⟩
  · next session changes hplan =>
    obtain ⟨hown,-,-,hvalid,-⟩ := plan_eq_ok.mp hplan
    split_ifs
    · exact ⟨hs,h⟩
    · refine vouched_step h trivial (fun r w hw => ?_)
      cases r with
      | error e => exact ⟨hs,hw⟩
      | ok _ => exact promoted_vouches hw hs ⟨hvalid,hs.owned hown⟩

theorem handle_vouches {request : Request} (h : Vouched site.schema w) (hs : s.Vouched site.schema) :
    Vouches site action (fun r => r.2.Vouched site.schema) (handle site.schema env s actor request)
      w := by
  cases request with
  | sessionOpen => exact sessionOpen_vouches h hs
  | sessionClose id => exact sessionClose_vouches h hs
  | set id path value => exact set_vouches h hs
  | delete id path value => exact delete_vouches h hs
  | compare id =>
    show Vouches site action _ (compare s id actor) w
    unfold compare
    split <;> exact ⟨hs,h⟩
  | discard id => exact discard_vouches h hs
  | commit id comment minutes => exact commit_vouches h hs
  | confirm id => exact confirm_vouches h hs
  | save =>
    have honly : (save site.schema s).Only Effect.Impersonal :=
      only_save.mono (Effect.Within.impersonal (by decide) (by decide) (by decide))
    refine (honly.ends returns_save (fun _ f _ he _ hw => hw.step he.vouched f) h).mono
      (fun r w hr => ⟨?_,hr.2⟩) (fun _ hw => hw)
    show r.2.Vouched site.schema
    rw [hr.1]
    exact hs
  | load id source => exact load_vouches h hs
  | commitLog =>
    have honly : Archive.list.Only Effect.Impersonal :=
      Archive.only_list.mono (Effect.Within.impersonal (by decide) (by decide) (by decide))
    exact impersonal_vouches h honly (fun r w hw => by cases r <;> exact ⟨hs,hw⟩)

/-! ### Starting, resuming, and booting -/

theorem start_vouches (h : Vouched site.schema w) :
    Vouches site action (fun r => ∀ s, r = some s → s.Vouched site.schema) start w := by
  refine vouched_step h trivial (fun r w h => ?_)
  rcases r with e | _
  · exact ⟨nofun,h⟩
  · intro f _
    rcases hio : f.io with _ | e | _ <;> simp only [watched,perform,hio,read_ok,read_fail,read_kill]
    · intro g _
      have hstart : ∀ recorded : Recorded, Sourced site.schema recorded.config →
          ∀ s, some (⟨recorded.config,recorded.generation,[],w.1.sessions,none,false⟩ : State) = some s →
            s.Vouched site.schema := by
        intro recorded hrecorded s hs
        cases hs
        exact ⟨h.sessions,hrecorded,by simp⟩
      rcases hg : g.io with _ | e | _ <;> simp only [watched,perform,hg,look_ok,look_fail,look_kill]
      · refine ⟨hstart (w.1.running.getD ⟨0,.new⟩) ?_,h⟩
        cases hrunning : w.1.running with
        | none => exact .inr (.inl rfl)
        | some recorded => exact h.running recorded hrunning
      · exact ⟨hstart ⟨0,.new⟩ (.inr (.inl rfl)),h⟩
      · exact h
    · exact ⟨nofun,h⟩
    · exact h

theorem putBack_vouches {pending : Pending} (h : Vouched site.schema w) (hs : s.Vouched site.schema)
    (hpending : Sourced site.schema pending.previous) (haction : action.isCommit = false) :
    Vouches site action (fun s => s.Vouched site.schema) (putBack s pending) w := by
  refine vouched_step h trivial (fun r w hw => ?_)
  cases r with
  | error e => exact ⟨hs,hw⟩
  | ok _ =>
    refine vouched_step hw ⟨hpending,by simp [haction]⟩ (fun _ w hw => ?_)
    exact ⟨hs.install hpending,hw⟩

theorem rollBack_vouches (h : Vouched site.schema w) (hs : s.Vouched site.schema)
    (haction : action.isCommit = false) :
    Vouches site action (fun s => s.Vouched site.schema) (rollBack s) w := by
  unfold rollBack
  split
  · exact ⟨hs,h⟩
  · next pending hpending =>
    apply Prog.Ends.bind
    refine (putBack_vouches h hs.release (hs.pending pending hpending) haction).mono
      (fun s w hs => ?_) (fun _ hw => hw)
    exact vouched_step hs.2 trivial (fun _ w hw => ⟨hs.1,hw⟩)

theorem resume_vouches (h : Vouched site.schema w) (hs : s.Vouched site.schema)
    (haction : action.isCommit = false) :
    Vouches site action (fun s => s.Vouched site.schema) (resume env s) w := by
  intro f _
  rcases hio : f.io with _ | e | _ <;> simp only [watched,perform,hio,read_ok,read_fail,read_kill]
  · cases hmarker : w.1.marker with
    | none => exact ⟨hs,h⟩
    | some pending =>
      have hprevious := h.marker pending hmarker
      simp only [Prog.done_bind]
      split
      · refine rollBack_vouches h ⟨hs.sessions,hs.running,?_⟩ haction
        rintro p ⟨⟩
        exact hprevious
      · exact ⟨hs.await hprevious,h⟩
  · exact ⟨hs,h⟩
  · exact h

/-- Boot takes nothing that a commit would not. -/
theorem returns_saved {schema : Schema} : (saved schema).Returns (fun r => ∀ config,
    r = .ok (some config) → Committable schema config) := by
  intro r
  rcases r with e | _ | text
  · nofun
  · nofun
  · simp only [Prog.done_bind]
    split
    · nofun
    · next config hparse =>
      split
      · next hempty =>
        rintro _ ⟨⟩
        exact ⟨validate_eq_ok.mpr (List.isEmpty_iff.mp hempty),parse_unremarked hparse⟩
      · nofun

theorem adopt_vouches {config : ConfigTree} (h : Vouched site.schema w) (hs : s.Vouched site.schema)
    (hconfig : Sourced site.schema config) :
    Vouches site .boot (fun s => s.Vouched site.schema) (adopt s config) w :=
  vouched_step h ⟨hconfig,nofun⟩ (fun _ _ hw => ⟨hs.install hconfig,hw⟩)

theorem fallBack_vouches {reason : String} (h : Vouched site.schema w) (hs : s.Vouched site.schema) :
    Vouches site .boot (fun r => r.2.Vouched site.schema) (fallBack site.schema s reason) w := by
  refine vouched_step h trivial (fun _ w hw => ?_)
  exact Prog.Ends.bind ((adopt_vouches hw hs (.inr (.inr rfl))).mono (fun _ _ hs => hs) (fun _ hw => hw))

theorem applyAtBoot_vouches {config : ConfigTree} (h : Vouched site.schema w)
    (hs : s.Vouched site.schema) (hconfig : Committable site.schema config) :
    Vouches site .boot (fun r => r.2.Vouched site.schema) (applyAtBoot site.schema s config) w := by
  refine vouched_step h trivial (fun r w hw => ?_)
  cases r with
  | error e => exact fallBack_vouches hw hs
  | ok _ =>
    exact Prog.Ends.bind ((adopt_vouches hw hs (.inl hconfig)).mono (fun _ _ hs => hs) (fun _ hw => hw))

theorem noteOutcome_vouches {r : Outcome × State} (h : Vouched site.schema w)
    (hs : r.2.Vouched site.schema) : Vouches site .boot (fun r => r.2.Vouched site.schema)
      ((noteOutcome r.1).bind (fun _ => .done r)) w := by
  have honly : (noteOutcome r.1).Only Effect.Impersonal := by
    unfold noteOutcome
    split <;> exact ⟨by simp [Effect.Impersonal,Effect.part],fun _ => trivial⟩
  exact impersonal_vouches h honly (fun _ _ hw => ⟨hs,hw⟩)

theorem boot_vouches (h : Vouched site.schema w) (hs : s.Vouched site.schema) :
    Vouches site .boot (fun r => r.2.Vouched site.schema) (boot site.schema s) w := by
  unfold boot
  split
  · exact ⟨hs,h⟩
  · apply Prog.Ends.bind
    apply Prog.Ends.bind
    have honly : (saved site.schema).Only Effect.Impersonal :=
      only_saved.mono (Effect.Within.impersonal (by decide) (by decide) (by decide))
    refine (honly.ends returns_saved (fun _ f _ he _ hw => hw.step he.vouched f) h).mono
      (fun r w hr => ?_) (fun _ hw => hw)
    obtain ⟨hr,hw⟩ := hr
    rcases r with reason | _ | config
    · exact (fallBack_vouches hw hs).mono (fun _ _ hr => noteOutcome_vouches hr.2 hr.1) (fun _ hw => hw)
    · exact noteOutcome_vouches (r := (.nothingSaved,s)) hw hs
    · exact (applyAtBoot_vouches hw hs (hr config rfl)).mono
        (fun _ _ hr => noteOutcome_vouches hr.2 hr.1) (fun _ hw => hw)

/-- Every event keeps the origins known. -/
theorem program_vouches {process : Option Process} (h : Vouched site.schema w)
    (hprocess : ∀ p, process = some p → p.state.Vouched site.schema) :
    Vouches site action (fun r => ∀ p, r.2 = some p → p.state.Vouched site.schema)
      (action.program site.schema env process) w := by
  rcases action with _ | _ | _ | ⟨actor,request⟩ | _ | _ | _ <;>
    rcases process with _ | ⟨_ | _ | _,s⟩
  all_goals try exact ⟨hprocess,h⟩
  all_goals try exact ⟨nofun,h⟩
  · refine Prog.Ends.bind ((start_vouches h).mono (fun r w hr => ⟨?_,hr.2⟩) (fun _ hw => hw))
    rintro p hp
    obtain ⟨s,hs,rfl⟩ := Option.map_eq_some_iff.mp hp
    exact hr.1 s hs
  · refine Prog.Ends.bind ((resume_vouches h (hprocess _ rfl) rfl).mono (fun r w hr => ⟨?_,hr.2⟩)
      (fun _ hw => hw))
    rintro p ⟨⟩
    exact hr.1
  · refine Prog.Ends.bind ((boot_vouches h (hprocess _ rfl)).mono (fun r w hr => ⟨?_,hr.2⟩)
      (fun _ hw => hw))
    rintro p ⟨⟩
    exact hr.1
  · refine Prog.Ends.bind ((handle_vouches h (hprocess _ rfl)).mono (fun r w hr => ⟨?_,hr.2⟩)
      (fun _ hw => hw))
    rintro p ⟨⟩
    exact hr.1
  all_goals
    rw [Action.program]
    split
    · refine Prog.Ends.bind ((rollBack_vouches h (hprocess _ rfl) rfl).mono
        (fun r w hr => ⟨?_,hr.2⟩) (fun _ hw => hw))
      rintro p ⟨⟩
      exact hr.1
    · exact ⟨hprocess,h⟩

end Event

/-! ### Whole runs -/

section Runs
variable {H F : Type} {site : Site H F}

/-- Whatever is recorded or held is of known origin. -/
structure KnownOrigins (schema : Schema) (v : System H × List ConfigTree) : Prop where
  files : Vouched schema (v.1.box,v.2)
  process : ∀ p, v.1.process = some p → p.state.Vouched schema

theorem watch_origins {v : System H × List ConfigTree} (ev : Event F)
    (h : KnownOrigins site.schema v) :
    KnownOrigins site.schema (System.watch site promotions v ev) := by
  have hfound : Vouched site.schema (v.1.found site ev,v.2) := by
    unfold System.found
    split
    · exact ⟨nofun,nofun,nofun,h.files.promoted⟩
    · exact h.files
  have hobeys : v.1.Obeys site (fun _ _ _ _ _ => True) ev := Prog.obeys_of_forall (fun _ _ _ => trivial)
  refine System.watch_of_ends hobeys ?_
  exact (program_vouches hfound h.process).mono (fun r w hr => ⟨hr.2,hr.1⟩) (fun w hw => ⟨hw,nofun⟩)

theorem run_origins (box : Box H) (evs : List (Event F)) :
    KnownOrigins site.schema
      (evs.foldl (System.watch site promotions) (⟨box.reboot site,none⟩,[])) := by
  have hall : Along (System.step site) (fun _ _ => True) ⟨box.reboot site,none⟩ evs :=
    along_of_forall (fun _ _ _ => trivial)
  refine System.watch_invariant (fun v ev _ hv => watch_origins ev hv) hall ?_
  exact ⟨⟨nofun,nofun,nofun,nofun⟩,nofun⟩

/-- What a save that was answered well has written. -/
theorem save_stored {sys : System H} {s : State} {actor : Actor} {env : Env}
    {fate : ℕ → Effect → Fate F} (hserves : sys.process = some ⟨.serving,s⟩)
    (hreply : sys.reply site ⟨.request actor .save,env,fate⟩ = some .ok) :
    (sys.step site ⟨.request actor .save,env,fate⟩).box.saved =
      some (render s.running (tagOracle site.schema)) := by
  have hends : ((Action.request actor .save).program site.schema env sys.process).Ends (perform site)
      (fun _ _ _ => True)
      (fun r box => r.1 = some .ok → box.saved = some (render s.running (tagOracle site.schema)))
      (fun _ => True) (sys.found site ⟨.request actor .save,env,fate⟩) := by
    rw [hserves]
    refine Prog.Ends.bind ((save_ends _).mono (fun r b hr hok => hr ?_) (fun _ _ => trivial))
    exact Option.some_inj.mp hok
  have hrun : Prog.Outcome _ _ (Prog.run (perform site) fate 0 _ _) := hends.run_all
  unfold System.reply System.outcome at hreply
  unfold System.step System.outcome
  rcases hr : ((Action.request actor .save).program site.schema env sys.process).run (perform site)
      fate 0 (sys.found site ⟨.request actor .save,env,fate⟩) with ⟨_ | ⟨response,process⟩,box⟩
  · simp only [hr] at hreply
    cases hreply
  · rw [hr] at hrun
    simp only [hr] at hreply ⊢
    exact hrun hreply

/-- What a commit accepts comes back after it is saved. -/
theorem comesBack_of_committable (hschema : Shallow site.schema) {sys : System H} {s : State}
    (hserves : sys.process = some ⟨.serving,s⟩) (h : Committable site.schema s.running) :
    ComesBack site sys s := by
  intro actor env fate hreply fate' n hfate
  have hstored : ((sys.step site ⟨.request actor .save,env,fate⟩).box.reboot site).saved =
      some (render s.running (tagOracle site.schema)) := save_stored hserves hreply
  exact (saved_render_iff hschema h.unremarked hstored hfate).mpr h.valid

end Runs

/-! ### The shipped schema -/

section Shipping
variable {H F : Type}

/-- A box with the schema that is compiled in, and some time zones. -/
def Site.shipping (zones : List String)
    (applyHost : ConfigTree → F → H → Option (Except CommitError Unit) × H) (rebootHost : H → H) :
    Site H F := ⟨Shipped.schema zones,applyHost,rebootHost⟩

/-- Boot accepts the text of a configuration exactly when a commit accepts the configuration. -/
def SameVerdict (site : Site H F) : Prop :=
  ∀ (config : ConfigTree) (box : Box H) (fate : ℕ → Effect → Fate F) (n : ℕ), config.Unremarked →
    box.saved = some (render config (tagOracle site.schema)) → (∀ n e, (fate n e).io = .ok) →
    (((saved site.schema).run (perform site) fate n box).1 = some (.ok (some config)) ↔
      validate site.schema config = .ok ())

theorem committable_new (zones : List String) : Committable (Shipped.schema zones) .new := by
  have hvalid : validate (Shipped.schema []) .new = .ok () := by decide +kernel
  exact ⟨hvalid,ConfigTree.unremarked_new⟩

/-- Whatever a commit has made the running configuration comes back from what a save of it writes,
however the daemon came to run it since; boot and commit accept the same configurations. Only the
defaults can come to run without a commit or a boot having accepted them. -/
theorem committed_comesBack (zones : List String)
    (applyHost : ConfigTree → F → H → Option (Except CommitError Unit) × H) (rebootHost : H → H)
    (box : Box H) (evs : List (Event F)) (s : State)
    (hserves : (evs.foldl (System.watch (Site.shipping zones applyHost rebootHost) promotions)
      (⟨box.reboot (Site.shipping zones applyHost rebootHost),none⟩,[])).1.process = some ⟨.serving,s⟩)
    (hcommitted : s.running ∈ (evs.foldl
        (System.watch (Site.shipping zones applyHost rebootHost) promotions)
        (⟨box.reboot (Site.shipping zones applyHost rebootHost),none⟩,[])).2 ∨
      s.running ≠ (Shipped.schema zones).defaults) :
    ComesBack (Site.shipping zones applyHost rebootHost)
      (evs.foldl (System.watch (Site.shipping zones applyHost rebootHost) promotions)
        (⟨box.reboot (Site.shipping zones applyHost rebootHost),none⟩,[])).1 s ∧
    SameVerdict (Site.shipping zones applyHost rebootHost) := by
  have horigins : KnownOrigins (Site.shipping zones applyHost rebootHost).schema (evs.foldl
      (System.watch (Site.shipping zones applyHost rebootHost) promotions)
      (⟨box.reboot (Site.shipping zones applyHost rebootHost),none⟩,[])) := run_origins box evs
  have hcommittable : Committable (Shipped.schema zones) s.running := by
    rcases hcommitted with hmem | hne
    · exact horigins.files.promoted _ hmem
    · have hsource := (horigins.process _ hserves).running
      rcases hsource with hcommittable | hnew | hdefaults
      · exact hcommittable
      · rw [hnew]
        exact committable_new zones
      · exact absurd hdefaults hne
  have hshallow := Shipped.shallow zones
  exact ⟨comesBack_of_committable hshallow hserves hcommittable,
    fun config box fate n hroot hsaved hfate => saved_render_iff hshallow hroot hsaved hfate⟩

end Shipping

/-- A box whose `config.boot` carries comments. -/
def commented : Box (Option ConfigTree) :=
  Box.fresh none (some "# the uplink\nsystem \x7b\n    # as labelled\n    host-name core\n\x7d\n")

/-- It boots, and another name is set and committed. -/
def newName : List (Event Unit) :=
  (triedActions.take 5 ++ [Action.request ⟨0,"root"⟩ (.commit "0123456789abcdef" none none)]).map
    (fun action => Event.smooth action "0123456789abcdef")

def takingSite : Site (Option ConfigTree) Unit :=
  Site.shipping [] (fun config _ _ => (some (.ok ()),some config)) (fun _ => none)

def renamed : System (Option ConfigTree) × List ConfigTree :=
  newName.foldl (System.watch takingSite promotions) (⟨commented.reboot takingSite,none⟩,[])

theorem renamed_eq : renamed =
    newName.foldl (System.watch takingSite promotions) (⟨commented.reboot takingSite,none⟩,[]) := rfl

theorem renamed_serves : renamed.1.process.isSome := by decide +kernel

theorem renamed_comesBack :
    ComesBack takingSite renamed.1 (renamed.1.process.get renamed_serves).state ∧
    SameVerdict takingSite := by
  have hserves := process_eq renamed_serves (by decide +kernel)
  have hcommitted : (renamed.1.process.get renamed_serves).state.running ∈ renamed.2 := by
    decide +kernel
  generalize (renamed.1.process.get renamed_serves).state = s at hserves hcommitted ⊢
  rw [renamed_eq,takingSite] at hserves hcommitted ⊢
  exact committed_comesBack [] (fun config _ _ => (some (.ok ()),some config)) (fun _ => none)
    commented newName s hserves (.inl hcommitted)

end Nightshade.Configd
