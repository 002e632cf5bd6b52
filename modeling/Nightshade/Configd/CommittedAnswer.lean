import Mathlib
import Nightshade.Schema.DiffLemmas
import Nightshade.Schema.Shipped
import Nightshade.Configd.Footprint

/-! What an answer that a change was committed says about the session that made it. Whether there
is anything to commit is decided by a diff, and what a diff cannot see is not committed. -/
namespace Nightshade.Configd
open Foundation Schema

def Response.isCommitted : Response → Bool
  | .committed _ _ _ => true
  | _ => false

section
variable {H F : Type} (site : Site H F) (env : Env) (s : State) (id : SessionId) (actor : Actor)

/-- The session shows the running configuration and is level with it, and what is saved next is
what it shows. -/
def Level (schema : Schema) (session : Session) (s : State) : Prop :=
  session.candidate = s.running ∧ session.baseGeneration = s.generation ∧
  ∀ {H F : Type} (site : Site H F) (fate : ℕ → Effect → Fate F) (n : ℕ) (box : Box H),
    Prog.Outcome (fun r b => r.1 = .ok → b.saved = some (render session.candidate (tagOracle schema)))
      (fun _ => True) ((save schema s).run (perform site) fate n box)

/-- If the commit is answered as made, its session is level with what runs afterwards. -/
def AnswersTruly (comment : Option String) (minutes : Option ℕ) (fate : ℕ → Effect → Fate F)
    (box : Box H) : Prop :=
  Prog.Outcome (fun r _ => r.1.isCommitted → ∃ session, r.2.sessions.get? id = some session ∧
      Level site.schema session r.2) (fun _ => True)
    ((commit site.schema env s id actor comment minutes).run (perform site) fate 0 box)

/-- Nothing stands in the way of the commit, and its candidate differs from what is running in
nothing but comments, or in a node that holds nothing and is a flag in one and a container in the
other. -/
def UnseenChange : Prop :=
  ∃ session changes, plan site.schema env s id actor = .ok (session,changes) ∧
    session.candidate ≠ s.running ∧ session.candidate.bare = s.running.bare

end

variable {H F : Type} {site : Site H F} {env : Env} {s : State} {id : SessionId} {actor : Actor}

/-- A save that succeeds leaves the running configuration in `config.boot`. -/
theorem save_ends {schema : Schema} (box : Box H) :
    (save schema s).Ends (perform site) (fun _ _ _ => True)
      (fun r b => r.1 = .ok → b.saved = some (render s.running (tagOracle schema))) (fun _ => True)
      box := by
  intro f _
  rcases hf : f.io with _ | e | _ <;> simp only [perform,hf,write_ok,write_fail,write_kill]
  · intro g _
    rcases hg : g.io with _ | e | _ <;> simp only [perform,hg,write_ok,write_fail,write_kill]
    · intro k _
      rcases hk : k.io with _ | e | _ <;> simp only [perform,hk,write_ok,write_fail,write_kill]
      · intro l _
        rcases hl : l.io with _ | e | _ <;> simp only [perform,hl,write_ok,write_fail,write_kill]
        · exact fun _ => rfl
        · exact fun h => by cases h
      · exact fun h => by cases h
    · exact fun h => by cases h
  · exact fun h => by cases h

theorem save_writes {schema : Schema} (fate : ℕ → Effect → Fate F) (n : ℕ) (box : Box H) :
    Prog.Outcome (fun r b => r.1 = .ok → b.saved = some (render s.running (tagOracle schema)))
      (fun _ => True) ((save schema s).run (perform site) fate n box) := (save_ends box).run_all

theorem level_of_eq {schema : Schema} {session : Session} (hrunning : session.candidate = s.running)
    (hbase : session.baseGeneration = s.generation) : Level schema session s :=
  ⟨hrunning,hbase,fun _ fate n box => hrunning ▸ save_writes fate n box⟩

/-- A commit that is applied leaves its session level, whatever else goes wrong. -/
theorem promoted_level {schema : Schema} {comment : Option String} {minutes : Option ℕ}
    {session : Session} {changes : List Change} :
    (promoted schema env s id actor comment minutes session changes).Returns
      (fun r => ∃ session, r.2.sessions.get? id = some session ∧ Level schema session r.2) := by
  have hlevel : ∃ session', (s.advance id session).sessions.get? id = some session' ∧
      session'.candidate = session.candidate ∧ session'.baseGeneration = s.generation+1 :=
    ⟨session.rebase (s.generation+1),by simp,rfl,rfl⟩
  obtain ⟨session',hget,hrunning,hbase⟩ := hlevel
  intro _ _
  cases minutes with
  | none =>
    simp only [Prog.bind_eq,Prog.done_bind]
    apply Prog.Returns.bind
    exact Prog.returns_of_forall (fun _ => ⟨session',hget,level_of_eq hrunning hbase⟩)
  | some minutes =>
    intro r
    cases r with
    | error e => exact ⟨session',hget,level_of_eq hrunning hbase⟩
    | ok _ => exact ⟨session',hget,level_of_eq hrunning hbase⟩

/-- Whatever stands in the way of a commit is answered as a failure. -/
theorem plan_error {schema : Schema} {response : Response}
    (h : plan schema env s id actor = .error response) : response.isCommitted = false := by
  unfold plan State.owned State.changedUnderneath at h
  split at h
  · next hown =>
    cases h
    split at hown
    · split_ifs at hown
      cases hown
      rfl
    · cases hown
      rfl
  · split at h
    · cases h
      rfl
    · split_ifs at h
      · cases h
        rfl
      · split at h
        · cases h
          rfl
        · cases h

/-- An answer that a change was committed is true, unless the change is one that no diff sees. -/
theorem answersTruly_iff (site : Site H F) (env : Env) (s : State) (id : SessionId) (actor : Actor)
    (comment : Option String) (minutes : Option ℕ) (fate : ℕ → Effect → Fate F) (box : Box H) :
    AnswersTruly site env s id actor comment minutes fate box ↔
      ¬UnseenChange site env s id actor := by
  unfold AnswersTruly UnseenChange commit
  cases hplan : plan site.schema env s id actor with
  | error response => simp [plan_error hplan]
  | ok r =>
    obtain ⟨session,changes⟩ := r
    obtain ⟨hown,-,hbase,-,hchanges⟩ := plan_eq_ok.mp hplan
    obtain ⟨hget,-⟩ := owned_eq_ok.mp hown
    have hempty : changes = [] ↔ session.candidate.bare = s.running.bare := by
      rw [eq_comm (a := session.candidate.bare),← diff_eq_nil_iff,hchanges,order,
        ← List.length_eq_zero_iff,List.length_insertionSort,List.length_eq_zero_iff]
    simp only [List.isEmpty_iff]
    split_ifs with hc
    · -- Nothing is done, so the answer is true exactly when the two are the same.
      have hbare := hempty.mp hc
      constructor
      · intro h
        obtain ⟨session',hget',hrunning,-⟩ := h rfl
        rintro ⟨_,_,heq,hne,-⟩
        cases heq
        obtain rfl : session' = session := Option.some.inj (hget'.symm.trans hget)
        exact hne hrunning
      · intro h _
        refine ⟨session,hget,level_of_eq ?_ hbase⟩
        by_contra hne
        exact h ⟨session,changes,rfl,hne,hbare⟩
    · have htrue : ¬∃ session' changes', Except.ok (session,changes) =
          (Except.ok (session',changes') : Except Response (Session × List Change)) ∧
          session'.candidate ≠ s.running ∧ session'.candidate.bare = s.running.bare := by
        rintro ⟨_,_,heq,-,hbare⟩
        cases heq
        exact hc (hempty.mpr hbare)
      simp only [htrue,not_false_eq_true,iff_true]
      refine Prog.Ends.run_all ?_
      intro f _
      rcases perform site (.apply session.candidate) f box with ⟨_ | e | _,box'⟩
      · trivial
      · nofun
      · exact promoted_level.ends.mono (fun r _ h _ => h) (fun _ _ => trivial)

/-- A box whose `config.boot` carries a comment, on which a session has deleted and set again what
stands under it. -/
def commentDropped : System (Option ConfigTree) :=
  ([.start,.resume,.boot,.request ⟨0,"root"⟩ .sessionOpen,
    .request ⟨0,"root"⟩ (.delete "0123456789abcdef" ["system"] none),
    .request ⟨0,"root"⟩ (.set "0123456789abcdef" ["system","host-name"] (some "edge"))].map
      (fun action => Event.smooth action "0123456789abcdef")).foldl
    (System.step (Site.taking (Shipped.schema [])))
    ⟨Box.fresh none (some "# the uplink router\nsystem \x7b\n    host-name edge\n\x7d\n"),none⟩

theorem commentDropped_serves : commentDropped.process.isSome := by decide +kernel

/-- What a true answer comes to when the run is carried out. -/
theorem AnswersTruly.shows {comment : Option String} {minutes : Option ℕ}
    {fate : ℕ → Effect → Fate F} {box : Box H}
    (h : AnswersTruly site env s id actor comment minutes fate box) :
    ((commit site.schema env s id actor comment minutes).run (perform site) fate 0 box).1.all
      (fun r => !r.1.isCommitted ||
        decide ((r.2.sessions.get? id).map Session.candidate = some r.2.running)) := by
  unfold AnswersTruly at h
  rcases hr : (commit site.schema env s id actor comment minutes).run (perform site) fate 0 box with
    ⟨_ | r,box'⟩
  · rfl
  · rw [hr] at h
    cases hc : r.1.isCommitted with
    | false => simp [hc]
    | true =>
      obtain ⟨session,hget,hrunning,-⟩ := h hc
      simp [hget,hrunning]

/-- The commit that follows is answered as made, and the comment still runs that the session no
longer shows. -/
theorem commentDropped_lies :
    ¬AnswersTruly (Site.taking (Shipped.schema [])) ⟨0,"",.error ""⟩
      (commentDropped.process.get commentDropped_serves).state "0123456789abcdef" ⟨0,"root"⟩ none none
      (Fate.smooth ()) commentDropped.box :=
  mt AnswersTruly.shows (by decide +kernel)

end Nightshade.Configd
