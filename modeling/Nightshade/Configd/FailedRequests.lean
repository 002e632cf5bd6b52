import Mathlib
import Nightshade.Configd.Footprint
import Nightshade.Schema.Shipped

/-! What a failed request leaves in memory. A request that fails before it has changed anything
changes nothing; the ones that change the state and write it out afterwards keep the change when
the write fails. -/
namespace Nightshade.Configd
open Foundation Schema

/-- The write fails and the daemon goes on. -/
def IoFate.fails : IoFate → Bool
  | .fail _ => true
  | _ => false

namespace LoadSource

def described : LoadSource → String
  | .saved => configBoot
  | .archive revision => "revision " ++ toString revision

/-- How many steps reading from a source takes. -/
def reads : LoadSource → ℕ
  | .saved => 1
  | .archive _ => 2

/-- The configuration that the files of the box hold for a source, when they can be read. -/
def stored {H F : Type} (fate : ℕ → Effect → Fate F) (box : Box H) : LoadSource → Option ConfigTree
  | .saved =>
    if (fate 0 .readSaved).io = .ok then box.saved.bind (fun text => (parse text).toOption) else none
  | .archive revision =>
    if (fate 0 .listInfos).io = .ok then
      let infos := (fate 0 .listInfos).shuffle.order (box.infos.entries.map Prod.snd)
      ((Archive.newestFirst infos).find? (fun info => info.revision = revision)).bind (fun info =>
        if (fate 1 (.readRevision info.stem)).io = .ok then
          (box.revisions.get? info.stem).bind (fun text => (parse text).toOption)
        else none)
    else none

end LoadSource

section
variable {H F : Type} (site : Site H F) (env : Env) (s : State) (actor : Actor)
  (fate : ℕ → Effect → Fate F) (box : Box H)

/-- If the request fails, the state is as it was. -/
def FailsCleanly (request : Request) : Prop :=
  Prog.Outcome (fun r _ => r.1.isFailed → r.2 = s) (fun _ => True)
    ((handle site.schema env s actor request).run (perform site) fate 0 box)

/-- The session that an edit arrives at and writes out: what it was, what it becomes, and how many
steps come before the write. -/
def edited : Request → Option (Session × Session × ℕ)
  | .set id path value =>
    (s.owned id actor).toOption.bind (fun session =>
      match site.schema.applySet session.candidate path value with
      | (.ok (),candidate) => some (session,{session with candidate := candidate},0)
      | (.error _,_) => none)
  | .delete id path value =>
    (s.owned id actor).toOption.bind (fun session =>
      match site.schema.applyDelete session.candidate path value with
      | (.ok (),candidate) => some (session,{session with candidate := candidate},0)
      | (.error _,_) => none)
  | .discard id =>
    (s.owned id actor).toOption.map (fun session =>
      (session,{session with candidate := s.running, baseGeneration := s.generation},0))
  | .load id source =>
    (s.owned id actor).toOption.bind (fun session =>
      (source.stored fate box).bind (fun config =>
        if (site.schema.validateTree config).isEmpty then
          some (session,{session with candidate := config},source.reads)
        else none))
  | _ => none

/-- The edit changes the session, and writing it out fails. -/
def UnsavedEdit (request : Request) : Prop :=
  ∃ old new n, edited site s actor fate box request = some (old,new,n) ∧ new ≠ old ∧
    (fate n (.saveSession new)).io.fails

/-- Nothing after the apply of a commit kills the daemon, and the marker cannot be written. -/
def MarkerLost (id : SessionId) (comment : Option String) (minutes : ℕ) (session : Session) : Prop :=
  let after := s.advance id session
  (fate 1 (.saveRunning after.running after.generation)).io ≠ .kill ∧
  (fate 2 (.saveSession (session.rebase after.generation))).io ≠ .kill ∧
  (fate 3 (.armMarker (after.tryout env id actor comment minutes s.generation))).io.fails

/-- The commit is to be confirmed, its apply goes through, and its marker cannot be written. -/
def UnarmedCommit : Request → Prop
  | .commit id comment (some minutes) =>
    ∃ session changes, plan site.schema env s id actor = .ok (session,changes) ∧ changes ≠ [] ∧
      (site.applyHost session.candidate (fate 0 (.apply session.candidate)).host box.host).1 =
        some (.ok ()) ∧ MarkerLost env s actor fate id comment minutes session
  | _ => False

end

variable {H F : Type} {site : Site H F} {env : Env} {s : State} {actor : Actor} {id : SessionId}
  {fate : ℕ → Effect → Fate F} {box : Box H}

theorem put_eq_self_iff {old : Session} (h : s.sessions.get? id = some old) (new : Session) :
    s.put id new = s ↔ new = old := by
  constructor
  · intro heq
    have hget : (s.put id new).sessions.get? id = some old := by rw [heq,h]
    simpa [State.put] using hget
  · rintro rfl
    have hmap : s.sessions.insert id new = s.sessions := by
      apply SortedMap.ext_get?
      intro k
      rw [SortedMap.get?_insert]
      split_ifs with hk
      · rw [hk,h]
      · rfl
    rw [State.put,hmap]

/-- An edit that is written out: it fails exactly when the write does, and keeps the edit. -/
theorem keep_cleanly {old : Session} (h : s.sessions.get? id = some old) (new : Session) (n : ℕ) :
    Prog.Outcome (fun r _ => r.1.isFailed → r.2 = s) (fun _ => True)
      ((keep s id new).run (perform site) fate n box) ↔
    ¬(new ≠ old ∧ (fate n (.saveSession new)).io.fails) := by
  have hput := put_eq_self_iff h new
  simp only [keep,Prog.bind_eq,Prog.call_bind,Prog.run,perform]
  rcases (fate n (.saveSession new)).io with _ | e | _
  · simp [IoFate.fails,Response.isFailed]
  · simp [IoFate.fails,hput]
  · simp [IoFate.fails]

/-- A request that never both fails and changes the state. -/
theorem cleanly_of_ends {p : Act (Response × State)} {n : ℕ}
    (h : p.Ends (perform site) (fun _ _ _ => True) (fun r _ => r.1.isFailed → r.2 = s)
      (fun _ => True) box) :
    Prog.Outcome (fun r _ => r.1.isFailed → r.2 = s) (fun _ => True)
      (p.run (perform site) fate n box) :=
  h.run (Prog.obeys_of_forall (fun _ _ _ => trivial))

theorem fetch_stored {α : Type} {source : LoadSource} {config : ConfigTree}
    (h : source.stored fate box = some config)
    (k : Except Response (ConfigTree × String) → Act α) :
    ((fetch source).bind k).run (perform site) fate 0 box =
      (k (.ok (config,source.described))).run (perform site) fate source.reads box := by
  cases source with
  | saved =>
    simp only [LoadSource.stored,Option.ite_none_right_eq_some] at h
    obtain ⟨hio,htext⟩ := h
    obtain ⟨text,hsaved,hparse⟩ := Option.bind_eq_some_iff.mp htext
    cases hp : parse text with
    | error e => simp [hp,Except.toOption] at hparse
    | ok tree =>
      obtain rfl : tree = config := by simpa [hp,Except.toOption] using hparse
      simp [fetch,Prog.run,perform,hio,hsaved,hp,LoadSource.described,LoadSource.reads]
  | archive revision =>
    simp only [LoadSource.stored,Option.ite_none_right_eq_some] at h
    obtain ⟨hlist,hinfo⟩ := h
    obtain ⟨info,hfind,hrest⟩ := Option.bind_eq_some_iff.mp hinfo
    obtain ⟨hread,htext⟩ := Option.ite_none_right_eq_some.mp hrest
    obtain ⟨text,hget,hparse⟩ := Option.bind_eq_some_iff.mp htext
    cases hp : parse text with
    | error e => simp [hp,Except.toOption] at hparse
    | ok tree =>
      obtain rfl : tree = config := by simpa [hp,Except.toOption] using hparse
      simp [fetch,Archive.read,Archive.list,Prog.run,perform,hlist,hfind,hread,hget,hp,
        LoadSource.described,LoadSource.reads]

theorem fetch_lost {α : Type} {source : LoadSource} (h : source.stored fate box = none)
    (k : Except Response (ConfigTree × String) → Act α) :
    (((fetch source).bind k).run (perform site) fate 0 box = (none,box)) ∨
    ∃ response n, ((fetch source).bind k).run (perform site) fate 0 box =
      (k (.error response)).run (perform site) fate n box := by
  cases source with
  | saved =>
    simp only [LoadSource.stored] at h
    rcases hio : (fate 0 .readSaved).io with _ | e | _
    · rw [if_pos hio] at h
      right
      cases hsaved : box.saved with
      | none => exact ⟨_,1,by simp [fetch,Prog.run,perform,hio,hsaved]; rfl⟩
      | some text =>
        cases hp : parse text with
        | error e => exact ⟨_,1,by simp [fetch,Prog.run,perform,hio,hsaved,hp]; rfl⟩
        | ok tree => simp [hsaved,hp,Except.toOption] at h
    · right
      exact ⟨_,1,by simp [fetch,Prog.run,perform,hio]; rfl⟩
    · left
      simp [fetch,Prog.run,perform,hio]
  | archive revision =>
    simp only [LoadSource.stored] at h
    rcases hlist : (fate 0 .listInfos).io with _ | e | _
    · rw [if_pos hlist] at h
      rcases hfind : (Archive.newestFirst ((fate 0 .listInfos).shuffle.order
        (box.infos.entries.map Prod.snd))).find? (fun info => info.revision = revision) with _ | info
      · right
        exact ⟨_,1,by simp [fetch,Archive.read,Archive.list,Prog.run,perform,hlist,hfind]; rfl⟩
      · rw [hfind,Option.bind_some] at h
        rcases hread : (fate 1 (.readRevision info.stem)).io with _ | e | _
        · rw [if_pos hread] at h
          right
          cases hget : box.revisions.get? info.stem with
          | none =>
            exact ⟨_,2,by
              simp [fetch,Archive.read,Archive.list,Prog.run,perform,hlist,hfind,hread,hget]; rfl⟩
          | some text =>
            cases hp : parse text with
            | error e =>
              exact ⟨_,2,by
                simp [fetch,Archive.read,Archive.list,Prog.run,perform,hlist,hfind,hread,hget,hp]; rfl⟩
            | ok tree => simp [hget,hp,Except.toOption] at h
        · right
          exact ⟨_,2,by
            simp [fetch,Archive.read,Archive.list,Prog.run,perform,hlist,hfind,hread]; rfl⟩
        · left
          simp [fetch,Archive.read,Archive.list,Prog.run,perform,hlist,hfind,hread]
    · right
      exact ⟨_,1,by simp [fetch,Archive.read,Archive.list,Prog.run,perform,hlist]; rfl⟩
    · left
      simp [fetch,Archive.read,Archive.list,Prog.run,perform,hlist]

/-! ### Each request -/

section
variable {schema : Schema} {comment : Option String}

/-- An edit behind the check of its owner. -/
theorem edit_cleanly (id : SessionId) (edit : Session → Option Session)
    (refused : Session → Response) {program : Act (Response × State)} {request : Request}
    (hprogram : program =
      match s.owned id actor with
      | .error response => .done (response,s)
      | .ok session =>
        match edit session with
        | some new => keep s id new
        | none => .done (refused session,s))
    (hedited : edited site s actor fate box request =
      (s.owned id actor).toOption.bind (fun session => (edit session).map (fun new => (session,new,0)))) :
    Prog.Outcome (fun r _ => r.1.isFailed → r.2 = s) (fun _ => True)
      (program.run (perform site) fate 0 box) ↔ ¬UnsavedEdit site s actor fate box request := by
  subst hprogram
  rw [UnsavedEdit,hedited]
  cases hown : s.owned id actor with
  | error response => simp [Except.toOption]
  | ok session =>
    cases hedit : edit session with
    | none => simp [Except.toOption,hedit]
    | some new =>
      simp only [hedit,keep_cleanly (owned_eq_ok.mp hown).1]
      simp [Except.toOption,hedit]

theorem set_cleanly {path : Path} {value : Option String} :
    FailsCleanly site env s actor fate box (.set id path value) ↔
      ¬UnsavedEdit site s actor fate box (.set id path value) := by
  apply edit_cleanly id
    (fun session =>
      match site.schema.applySet session.candidate path value with
      | (.ok (),candidate) => some {session with candidate := candidate}
      | (.error _,_) => none)
    (fun session =>
      match site.schema.applySet session.candidate path value with
      | (.error e,_) => .invalid e.message
      | _ => .ok)
  · rw [handle,set]
    rcases s.owned id actor with response | session
    · rfl
    · rcases hset : site.schema.applySet session.candidate path value with ⟨e | _,candidate⟩
      · simp only [hset]; rfl
      · simp only [hset]
  · rw [edited]
    congr 1
    funext session
    rcases site.schema.applySet session.candidate path value with ⟨e | _,candidate⟩ <;> rfl

theorem delete_cleanly {path : Path} {value : Option String} :
    FailsCleanly site env s actor fate box (.delete id path value) ↔
      ¬UnsavedEdit site s actor fate box (.delete id path value) := by
  apply edit_cleanly id
    (fun session =>
      match site.schema.applyDelete session.candidate path value with
      | (.ok (),candidate) => some {session with candidate := candidate}
      | (.error _,_) => none)
    (fun session =>
      match site.schema.applyDelete session.candidate path value with
      | (.error e,_) => .invalid e.message
      | _ => .ok)
  · rw [handle,delete]
    rcases s.owned id actor with response | session
    · rfl
    · rcases hset : site.schema.applyDelete session.candidate path value with ⟨e | _,candidate⟩
      · simp only [hset]; rfl
      · simp only [hset]
  · rw [edited]
    congr 1
    funext session
    rcases site.schema.applyDelete session.candidate path value with ⟨e | _,candidate⟩ <;> rfl

theorem discard_cleanly :
    FailsCleanly site env s actor fate box (.discard id) ↔
      ¬UnsavedEdit site s actor fate box (.discard id) := by
  apply edit_cleanly id
    (fun session =>
      some {session with candidate := s.running, baseGeneration := s.generation})
    (fun _ => .ok)
  · rfl
  · rw [edited]
    cases s.owned id actor <;> rfl

theorem load_cleanly {source : LoadSource} :
    FailsCleanly site env s actor fate box (.load id source) ↔
      ¬UnsavedEdit site s actor fate box (.load id source) := by
  rw [FailsCleanly,UnsavedEdit,handle,load,edited]
  cases hown : s.owned id actor with
  | error response => simp [Except.toOption]
  | ok session =>
    simp only [Prog.bind_eq,Except.toOption,Option.bind_some]
    cases hstored : source.stored fate box with
    | some config =>
      rw [fetch_stored hstored]
      simp only [Option.bind_some]
      split_ifs with hvalid
      · rw [keep_cleanly (owned_eq_ok.mp hown).1]
        simp
      · simp
    | none =>
      rcases fetch_lost hstored _ with hrun | ⟨response,n,hrun⟩
      · rw [hrun]
        simp
      · rw [hrun]
        simp

theorem sessionOpen_cleanly : FailsCleanly site env s actor fate box .sessionOpen := by
  rw [FailsCleanly,handle,sessionOpen]
  cases env.entropy with
  | error e => simp
  | ok id =>
    simp only [Prog.bind_eq,Prog.call_bind,Prog.run,perform]
    rcases (fate 0 (.saveSession (Session.new id actor s.running s.generation))).io with _ | e | _ <;>
      simp [Response.isFailed]

theorem sessionClose_cleanly : FailsCleanly site env s actor fate box (.sessionClose id) := by
  rw [FailsCleanly,handle,sessionClose]
  cases s.owned id actor with
  | error response => simp
  | ok session =>
    simp only [Prog.bind_eq,Prog.call_bind,Prog.run,perform]
    rcases (fate 0 (.forgetSession id)).io with _ | e | _ <;> simp [Response.isFailed]

theorem compare_cleanly : FailsCleanly site env s actor fate box (.compare id) := by
  rw [FailsCleanly,handle,compare]
  cases s.owned id actor <;> simp

theorem commitLog_cleanly : FailsCleanly site env s actor fate box .commitLog := by
  apply cleanly_of_ends
  rw [handle,commitLog]
  apply Prog.Ends.bind
  apply Prog.ends_of_forall
  · rintro (e | revisions) w <;> simp
  · exact fun _ => trivial

theorem confirm_cleanly : FailsCleanly site env s actor fate box (.confirm id) := by
  apply cleanly_of_ends
  rw [handle,confirm]
  cases s.owned id actor with
  | error response => simp
  | ok session =>
    cases hp : s.pending with
    | none => simp
    | some pending =>
      have hanswer : (confirmed site.schema env s actor pending).Ends (perform site)
          (fun _ _ _ => True) (fun r _ => r.1.isFailed = false) (fun _ => True) box := by
        intro f _
        rcases perform site .disarmMarker f box with ⟨_ | r,box'⟩
        · trivial
        · simp only [Prog.bind_eq,Prog.done_bind]
          apply Prog.Ends.bind
          exact Prog.ends_of_forall (fun _ _ => Prog.ends_done.mpr rfl) (fun _ => trivial)
      exact hanswer.mono (fun r _ hr hf => absurd hf (by simp [hr])) (fun _ _ => trivial)

theorem commit_kept_cleanly :
    FailsCleanly site env s actor fate box (.commit id comment none) := by
  apply cleanly_of_ends
  rw [handle,commit]
  rcases plan site.schema env s id actor with response | ⟨session,changes⟩
  · simp
  · simp only
    split_ifs with hempty
    · simp [Response.isFailed]
    · intro f _
      rcases perform site (.apply session.candidate) f box with ⟨_ | _ | _,box'⟩
      · trivial
      · simp
      · have hanswer : (promoted site.schema env s id actor comment none session changes).Ends
            (perform site) (fun _ _ _ => True) (fun r _ => r.1.isFailed = false) (fun _ => True)
            box' := by
          intro g _
          rcases perform site _ g box' with ⟨_ | r,box'⟩
          · trivial
          · intro g _
            rcases perform site _ g box' with ⟨_ | r,box'⟩
            · trivial
            · simp only [Prog.bind_eq,Prog.done_bind]
              apply Prog.Ends.bind
              exact Prog.ends_of_forall (fun _ _ => Prog.ends_done.mpr rfl) (fun _ => trivial)
        exact hanswer.mono (fun r _ hr hf => absurd hf (by simp [hr])) (fun _ _ => trivial)

theorem promoted_tried_cleanly {minutes : ℕ} {session : Session} {changes : List Change} :
    Prog.Outcome (fun r _ => r.1.isFailed → r.2 = s) (fun _ => True)
      ((promoted site.schema env s id actor comment (some minutes) session changes).run
        (perform site) fate 1 box) ↔ ¬MarkerLost env s actor fate id comment minutes session := by
  -- Whatever the answer, the generation has moved.
  have hmoved : s.advance id session ≠ s := fun h =>
    absurd (congrArg State.generation h) (Nat.succ_ne_self s.generation)
  unfold MarkerLost
  simp only [promoted,Prog.bind_eq,Prog.call_bind,Prog.run,perform]
  rcases (fate 1 _).io with _ | e | _
  · rcases (fate (1+1) _).io with _ | e | _
    · rcases (fate (1+1+1) _).io with _ | e | _ <;> simp [IoFate.fails,Response.isFailed,hmoved]
    · rcases (fate (1+1+1) _).io with _ | e | _ <;> simp [IoFate.fails,Response.isFailed,hmoved]
    · simp
  · rcases (fate (1+1) _).io with _ | e | _
    · rcases (fate (1+1+1) _).io with _ | e | _ <;> simp [IoFate.fails,Response.isFailed,hmoved]
    · rcases (fate (1+1+1) _).io with _ | e | _ <;> simp [IoFate.fails,Response.isFailed,hmoved]
    · simp
  · simp

theorem commit_tried_cleanly {minutes : ℕ} :
    FailsCleanly site env s actor fate box (.commit id comment (some minutes)) ↔
      ¬UnarmedCommit site env s actor fate box (.commit id comment (some minutes)) := by
  rw [FailsCleanly,handle,commit,UnarmedCommit]
  rcases hplan : plan site.schema env s id actor with response | ⟨session,changes⟩
  · simp
  · simp only [Except.ok.injEq,Prod.mk.injEq,and_assoc,exists_and_left,exists_eq_left']
    by_cases hempty : changes = []
    · subst hempty
      simp [Response.isFailed]
    · simp only [List.isEmpty_iff,hempty,if_false,Prog.bind_eq,Prog.call_bind,Prog.run,perform]
      rcases hr : site.applyHost session.candidate (fate 0 (.apply session.candidate)).host box.host
        with ⟨_ | e | _,host⟩
      · simp
      · simp
      · simp [promoted_tried_cleanly,hempty]

theorem save_cleanly : FailsCleanly site env s actor fate box .save := by
  apply cleanly_of_ends
  rw [handle,save]
  intro f _
  rcases perform site .createSavedDir f box with ⟨_ | e | _,box'⟩
  · trivial
  · simp
  · intro f _
    rcases perform site _ f box' with ⟨_ | e | _,box'⟩
    · trivial
    · simp
    · intro f _
      rcases perform site _ f box' with ⟨_ | e | _,box'⟩
      · trivial
      · simp
      · intro f _
        rcases perform site _ f box' with ⟨_ | e | _,box'⟩
        · trivial
        · simp
        · simp

end

/-- A failed request leaves the state as it was, unless it is an edit that changed a session whose
file could not be written, or a commit to be confirmed that was applied and whose marker could
not be written. -/
theorem failsCleanly_iff (site : Site H F) (env : Env) (s : State) (actor : Actor)
    (fate : ℕ → Effect → Fate F) (box : Box H) (request : Request) :
    FailsCleanly site env s actor fate box request ↔
      ¬(UnsavedEdit site s actor fate box request ∨ UnarmedCommit site env s actor fate box request) := by
  cases request with
  | set id path value => simp [set_cleanly,UnarmedCommit]
  | delete id path value => simp [delete_cleanly,UnarmedCommit]
  | discard id => simp [discard_cleanly,UnarmedCommit]
  | load id source => simp [load_cleanly,UnarmedCommit]
  | sessionOpen => simp [sessionOpen_cleanly,UnarmedCommit,UnsavedEdit,edited]
  | sessionClose id => simp [sessionClose_cleanly,UnarmedCommit,UnsavedEdit,edited]
  | confirm id => simp [confirm_cleanly,UnarmedCommit,UnsavedEdit,edited]
  | save => simp [save_cleanly,UnarmedCommit,UnsavedEdit,edited]
  | compare id => simp [compare_cleanly,UnarmedCommit,UnsavedEdit,edited]
  | commitLog => simp [commitLog_cleanly,UnarmedCommit,UnsavedEdit,edited]
  | commit id comment confirmMinutes =>
    cases confirmMinutes with
    | none => simp [commit_kept_cleanly,UnarmedCommit,UnsavedEdit,edited]
    | some minutes => simp [commit_tried_cleanly,UnsavedEdit,edited]

/-- What a clean failure comes to when the run is carried out. -/
theorem FailsCleanly.shows {request : Request} (h : FailsCleanly site env s actor fate box request) :
    ((handle site.schema env s actor request).run (perform site) fate 0 box).1.all
      (fun r => !r.1.isFailed || decide (r.2.sessions.entries = s.sessions.entries)) := by
  unfold FailsCleanly at h
  rcases hr : (handle site.schema env s actor request).run (perform site) fate 0 box with ⟨_ | r,box'⟩
  · rfl
  · rw [hr] at h
    cases hf : r.1.isFailed with
    | false => simp [hf]
    | true =>
      have heq : r.2 = s := h hf
      simp [heq]

/-- A box out of the installer on which a session has been opened. -/
def newlyOpened : System (Option ConfigTree) :=
  ([.start,.resume,.boot,.request ⟨0,"root"⟩ .sessionOpen].map
      (fun action => Event.smooth action "0123456789abcdef")).foldl
    (System.step (Site.taking (Shipped.schema []))) ⟨Box.fresh none none,none⟩

theorem newlyOpened_serves : newlyOpened.process.isSome := by decide +kernel

/-- The session keeps a setting whose `set` was answered as failed, because no file of a session
could be written. -/
theorem newlyOpened_set_fails :
    ¬FailsCleanly (Site.taking (Shipped.schema [])) ⟨0,"",.error ""⟩
      (newlyOpened.process.get newlyOpened_serves).state ⟨0,"root"⟩
      (fun _ _ => ⟨.fail "No space left on device (os error 28)",(),.asKept⟩) newlyOpened.box
      (.set "0123456789abcdef" ["system","host-name"] (some "edge")) :=
  mt FailsCleanly.shows (by decide +kernel)

end Nightshade.Configd
