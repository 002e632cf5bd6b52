import Mathlib
import Nightshade.Configd.Provenance

/-! What a refused commit is told. The daemon remembers the configurations that its commits took it
off, and no others, so it can tell a session what moved only where a commit moved it. -/
namespace Nightshade.Configd
open Foundation Schema

/-- The daemon has left a generation: what ran under it, and whether a commit took its place. -/
structure Departure where
  generation : ℕ
  config : ConfigTree
  committed : Bool

/-- One who notes every generation that a process of the daemon leaves. -/
def departures {H : Type} : Watcher H (List Departure) where
  during := fun _ _ _ _ _ _ notes => notes
  after := fun _ action before after notes =>
    match before,after with
    | some p,some q =>
      if q.state.generation = p.state.generation then notes
      else notes ++ [⟨p.state.generation,p.state.running,action.isCommit⟩]
    | _,_ => []

/-- What a refused commit is told that shows the changes from a configuration to the running one. -/
def State.report (s : State) (base : ℕ) (was candidate : ConfigTree) : Response :=
  let list := fun (changes : List Change) =>
    String.join (changes.map (fun c => "  " ++ c.display ++ "\n"))
  .failed .conflict
    ("the running configuration has changed since this session started (it was revision " ++
      toString base ++ ", it is now revision " ++ toString s.generation ++ ").\n" ++
      ("\nwhat changed underneath you:\n" ++ list (diff was s.running)) ++
      "\nyour own uncommitted changes:\n" ++ list (diff s.running candidate) ++
      "\nuse `discard` to start again from the current configuration.")

section Report
variable {s : State} {base : ℕ} {was candidate : ConfigTree}

theorem changedUnderneath_found (h : s.history.find? (fun e => e.1 = base) = some (base,was)) :
    s.changedUnderneath base candidate = s.report base was candidate := by
  unfold State.changedUnderneath State.report
  rw [h]

/-- Texts that begin alike go on alike. -/
theorem texts_after {start a b c d e f g h : String}
    (heq : start ++ (a ++ b) ++ c ++ d ++ e = start ++ (f ++ g) ++ c ++ d ++ h) :
    a ++ (b ++ c ++ d ++ e) = f ++ (g ++ c ++ d ++ h) := by
  simpa only [String.append_assoc,String.append_right_inj] using heq

/-- Without a memory of the base, the answer shows no such changes. -/
theorem changedUnderneath_lost (h : s.history.find? (fun e => e.1 = base) = none) :
    s.changedUnderneath base candidate ≠ s.report base was candidate := by
  unfold State.changedUnderneath State.report
  rw [h]
  intro heq
  have htexts := texts_after (Response.failed.inj heq).2
  -- The two go on with different letters after the line break.
  have hchars := congrArg (fun text => text.toList[1]?) htexts
  simp only [String.toList_append] at hchars
  rw [List.getElem?_append_left (by decide),List.getElem?_append_left (by decide)] at hchars
  revert hchars
  decide

end Report

/-! ### The latest entries of a log -/

section Latest
variable {α : Type*}

theorem rtake_concat (n : ℕ) (l : List α) (a : α) : (l.rtake n ++ [a]).rtake n = (l ++ [a]).rtake n := by
  cases n with
  | zero => simp
  | succ n =>
    simp only [List.rtake_eq_reverse_take_reverse,List.reverse_append,List.reverse_singleton,
      List.singleton_append,List.reverse_reverse,List.take_succ_cons,List.take_take]
    congr 2
    rw [min_eq_left (Nat.le_succ n)]

/-- Between two bounds there are only so many numbers in a rising list. -/
theorem length_le_of_rising {l : List ℕ} {a b : ℕ} (h : l.Pairwise (· < ·)) (hbounds : ∀ n ∈ l, a < n ∧ n < b) :
    l.length ≤ b-a-1 := by
  induction l generalizing a with
  | nil => exact Nat.zero_le _
  | cons n l ih =>
    obtain ⟨hhead,htail⟩ := List.pairwise_cons.mp h
    have hn := hbounds n (by simp)
    have hrest := ih htail (fun m hm => ⟨hhead m hm,(hbounds m (by simp [hm])).2⟩)
    rw [List.length_cons]
    omega

/-- In a log with rising keys, an entry is what a search for its key finds. -/
theorem find?_of_rising {l : List (ℕ × α)} {e : ℕ × α} (h : l.Pairwise (fun a b => a.1 < b.1)) (he : e ∈ l) :
    l.find? (fun d => d.1 = e.1) = some e := by
  induction l with
  | nil => cases he
  | cons d l ih =>
    obtain ⟨hhead,htail⟩ := List.pairwise_cons.mp h
    rcases List.mem_cons.mp he with rfl | he
    · rw [List.find?_cons_of_pos (by simp)]
    · have hlt := hhead e he
      rw [List.find?_cons_of_neg (by simpa using hlt.ne)]
      exact ih htail he

/-- In a log with rising keys, an entry that is recent enough is among the latest. -/
theorem mem_rtake_of_recent {l : List (ℕ × α)} {e : ℕ × α} {now n : ℕ}
    (h : l.Pairwise (fun a b => a.1 < b.1)) (hpast : ∀ d ∈ l, d.1 < now) (he : e ∈ l) (hrecent : now ≤ e.1+n) :
    e ∈ l.rtake n := by
  obtain ⟨old,new,rfl⟩ := List.append_of_mem he
  obtain ⟨-,hnew,-⟩ := List.pairwise_append.mp h
  obtain ⟨hlater,hrising⟩ := List.pairwise_cons.mp hnew
  have hnow := hpast e he
  have hshort := @length_le_of_rising (new.map Prod.fst) e.1 now (List.pairwise_map.mpr hrising) (by
    intro k hk
    obtain ⟨d,hd,rfl⟩ := List.mem_map.mp hk
    exact ⟨hlater d hd,hpast d (by simp [hd])⟩)
  rw [List.length_map] at hshort
  have hlength : (old ++ e::new).length-n ≤ old.length := by
    rw [List.length_append,List.length_cons]
    omega
  rw [List.rtake,List.drop_append_of_le_length hlength]
  simp

end Latest

/-! ### What an event does to the history -/

/-- The running configuration stays, or the daemon goes one generation on, and a commit puts into the
history what it takes the daemon off. -/
inductive State.Moves (s : State) (committing : Bool) (s' : State) : Prop where
  | stays (generation : s'.generation = s.generation) (running : s'.running = s.running)
    (history : s'.history = s.history)
  | leaves (generation : s'.generation = s.generation+1)
    (history : s'.history =
      if committing then (s.history ++ [(s.generation,s.running)]).rtake HISTORY else s.history)

namespace State.Moves
variable {s s' : State} {committing : Bool}

theorem refl : s.Moves committing s := .stays rfl rfl rfl

theorem of_sameRun (h : s.SameRun s') : s.Moves committing s' := by
  rw [h]
  exact .stays rfl rfl rfl

end State.Moves

section Handlers
variable {schema : Schema} {env : Env} {s : State} {id : SessionId} {actor : Actor}

theorem returns_promoted_moves {comment : Option String} {minutes : Option ℕ} {session : Session}
    {changes : List Change} :
    (promoted schema env s id actor comment minutes session changes).Returns (fun r => s.Moves true r.2) := by
  intro _ _
  cases minutes with
  | none =>
    simp only [Prog.bind_eq,Prog.done_bind]
    apply Prog.Returns.bind
    exact Prog.returns_of_forall (fun _ => .leaves rfl rfl)
  | some minutes =>
    intro r
    cases r <;> exact .leaves rfl rfl

theorem returns_commit_moves {comment : Option String} {minutes : Option ℕ} :
    (commit schema env s id actor comment minutes).Returns (fun r => s.Moves true r.2) := by
  unfold commit
  split
  · exact .refl
  · split
    · exact .refl
    · intro r
      cases r with
      | error e => exact .refl
      | ok _ => exact returns_promoted_moves

theorem returns_confirm_moves :
    (confirm schema env s id actor).Returns (fun r => s.Moves false r.2) := by
  unfold confirm
  split
  · exact .refl
  · split
    · exact .refl
    · intro _
      simp only [Prog.bind_eq,Prog.done_bind]
      apply Prog.Returns.bind
      exact Prog.returns_of_forall (fun _ => .stays rfl rfl rfl)

theorem returns_adopt_moves {config : ConfigTree} : (adopt s config).Returns (fun s' => s.Moves false s') :=
  fun _ => .leaves rfl rfl

theorem returns_fallBack_moves {reason : String} :
    (fallBack schema s reason).Returns (fun r => s.Moves false r.2) :=
  fun _ _ => .leaves rfl rfl

theorem returns_applyAtBoot_moves {config : ConfigTree} :
    (applyAtBoot schema s config).Returns (fun r => s.Moves false r.2) := by
  intro r
  cases r with
  | error e => exact returns_fallBack_moves
  | ok _ => exact fun _ => .leaves rfl rfl

theorem returns_boot_moves : (boot schema s).Returns (fun r => s.Moves false r.2) := by
  have hnote : ∀ r : Outcome × State, s.Moves false r.2 →
      ((noteOutcome r.1).bind (fun _ => Prog.done r)).Returns (fun r => s.Moves false r.2) :=
    fun r hr => (Prog.returns_of_forall (fun _ => hr)).bind
  unfold boot
  split
  · exact .refl
  · apply Prog.Returns.bind
    refine Prog.Returns.mono hnote ?_
    apply Prog.Returns.bind
    apply Prog.returns_of_forall
    rintro (reason | _ | config)
    · exact returns_fallBack_moves
    · exact .refl
    · exact returns_applyAtBoot_moves

theorem returns_rollBack_moves : (rollBack s).Returns (fun s' => s.Moves false s') := by
  unfold rollBack
  cases s.pending with
  | none => exact .refl
  | some pending =>
    intro r
    cases r with
    | error e => exact fun _ => .stays rfl rfl rfl
    | ok _ => exact fun _ _ => .leaves rfl rfl

theorem returns_resume_moves : (resume env s).Returns (fun s' => s.Moves false s') := by
  intro r
  rcases r with e | _ | pending
  · exact .refl
  · exact .refl
  · simp only [Prog.done_bind]
    split
    · refine (returns_rollBack_moves (s := {s with pending := some pending})).mono (fun s' h => ?_)
      cases h with
      | stays hgeneration hrunning hhistory => exact .stays hgeneration hrunning hhistory
      | leaves hgeneration hhistory => exact .leaves hgeneration hhistory
    · exact .stays rfl rfl rfl

theorem returns_handle_moves {request : Request} :
    (handle schema env s actor request).Returns
      (fun r => s.Moves (Action.isCommit (.request actor request)) r.2) := by
  have hedit : ∀ committing, request.edits →
      (handle schema env s actor request).Returns (fun r => s.Moves committing r.2) :=
    fun _ he => (returns_edits he).mono (fun _ h => .of_sameRun h)
  cases request with
  | commit id comment minutes => exact returns_commit_moves
  | confirm id => exact returns_confirm_moves
  | save =>
    refine (@returns_save schema s).mono (fun r h => ?_)
    rw [h]
    exact .refl
  | _ => exact hedit _ rfl

/-- A process that goes on has moved as its event lets it. -/
theorem returns_program_moves {action : Action} {p : Process} :
    (action.program schema env (some p)).Returns
      (fun r => ∀ q, r.2 = some q → p.state.Moves action.isCommit q.state) := by
  have hsame : ∀ {committing : Bool} (response : Option Response) (q : Process),
      (response,some p).2 = some q → p.state.Moves committing q.state := by
    intro committing response q hq
    cases hq
    exact .refl
  obtain ⟨phase,s⟩ := p
  rcases action with _ | _ | _ | ⟨actor,request⟩ | _ | _ | _
  case resume =>
    cases phase with
    | started =>
      refine Prog.Returns.bind (returns_resume_moves.mono (fun s' h q hq => ?_))
      cases hq
      exact h
    | resumed | serving => exact hsame none
  case boot =>
    cases phase with
    | resumed =>
      refine Prog.Returns.bind (returns_boot_moves.mono (fun r h q hq => ?_))
      cases hq
      exact h
    | started | serving => exact hsame none
  case request =>
    cases phase with
    | serving =>
      refine Prog.Returns.bind (returns_handle_moves.mono (fun r h q hq => ?_))
      cases hq
      exact h
    | started | resumed => exact hsame none
  case timer =>
    rw [Action.program]
    split
    · refine Prog.Returns.bind (returns_rollBack_moves.mono (fun s' h q hq => ?_))
      cases hq
      exact h
    · exact hsame none
  case start => exact hsame none
  case stop | reboot =>
    intro q hq
    cases hq

theorem returns_start_fresh :
    start.Returns (fun r => ∀ s, r = some s → s.history = []) := by
  intro r
  cases r with
  | error e => exact nofun
  | ok _ =>
    intro r
    cases r with
    | error e => exact nofun
    | ok sessions =>
      intro recorded s hs
      cases hs
      rfl

/-- A process that an event brings about has no history. -/
theorem returns_program_fresh {action : Action} :
    (action.program schema env none).Returns (fun r => ∀ q, r.2 = some q → q.state.history = []) := by
  cases action with
  | start =>
    refine Prog.Returns.bind (returns_start_fresh.mono (fun r h q hq => ?_))
    obtain ⟨s,hs,rfl⟩ := Option.map_eq_some_iff.mp hq
    exact h s hs
  | _ =>
    intro q hq
    cases hq

end Handlers

/-! ### What the history holds -/

/-- The departures that a commit brought about, as the history has them. -/
def committedOnes (past : List Departure) : List (ℕ × ConfigTree) :=
  (past.filter Departure.committed).map (fun d => (d.generation,d.config))

/-- The history is the latest of what commits took the daemon off. -/
structure Remembers (past : List Departure) (s : State) : Prop where
  rising : past.Pairwise (fun c d => c.generation < d.generation)
  behind : ∀ d ∈ past, d.generation < s.generation
  history : s.history = (committedOnes past).rtake HISTORY

section Remember
variable {past : List Departure} {s s' : State} {committing : Bool}

theorem Remembers.moves (h : Remembers past s) (hmoves : s.Moves committing s') :
    Remembers (if s'.generation = s.generation then past
      else past ++ [⟨s.generation,s.running,committing⟩]) s' := by
  cases hmoves with
  | stays hgeneration _ hhistory =>
    rw [if_pos hgeneration]
    exact ⟨h.rising,fun d hd => hgeneration ▸ h.behind d hd,hhistory.trans h.history⟩
  | leaves hgeneration hhistory =>
    rw [if_neg (by omega)]
    constructor
    · refine List.pairwise_append.mpr ⟨h.rising,List.pairwise_singleton _ _,fun c hc d hd => ?_⟩
      rw [List.mem_singleton.mp hd]
      exact h.behind c hc
    · intro d hd
      rcases List.mem_append.mp hd with hd | hd
      · have := h.behind d hd
        omega
      · rw [List.mem_singleton.mp hd]
        exact hgeneration ▸ Nat.lt_succ_self _
    · rw [hhistory,h.history]
      cases committing with
      | false => simp [committedOnes]
      | true =>
        rw [if_pos rfl,rtake_concat]
        simp [committedOnes]

/-- What is found of a generation within reach is what a commit took the daemon off. -/
theorem Remembers.find?_eq (h : Remembers past s) {base : ℕ} {was : ConfigTree}
    (hd : ⟨base,was,true⟩ ∈ past) (hreach : s.generation ≤ base+HISTORY) :
    s.history.find? (fun e => e.1 = base) = some (base,was) := by
  have hrising : (committedOnes past).Pairwise (fun a b => a.1 < b.1) :=
    List.pairwise_map.mpr (h.rising.filter _)
  have hmem : (base,was) ∈ committedOnes past :=
    List.mem_map.mpr ⟨_,List.mem_filter.mpr ⟨hd,rfl⟩,rfl⟩
  have hpast : ∀ e ∈ committedOnes past, e.1 < s.generation := by
    intro e he
    obtain ⟨d,hd,rfl⟩ := List.mem_map.mp he
    exact h.behind d (List.mem_filter.mp hd).1
  rw [h.history]
  exact find?_of_rising (hrising.sublist (List.drop_sublist _ _))
    (mem_rtake_of_recent hrising hpast hmem hreach)

theorem Remembers.find?_eq_none (h : Remembers past s) (base : ℕ)
    (hnone : ∀ was, ⟨base,was,true⟩ ∉ past) : s.history.find? (fun e => e.1 = base) = none := by
  rw [List.find?_eq_none]
  intro e he hbase
  rw [h.history] at he
  obtain ⟨d,hd,rfl⟩ := List.mem_map.mp (List.mem_of_mem_drop he)
  obtain ⟨hpast,hcommitted⟩ := List.mem_filter.mp hd
  obtain rfl : d.generation = base := of_decide_eq_true hbase
  obtain ⟨generation,config,committed⟩ := d
  obtain rfl : committed = true := hcommitted
  exact hnone config hpast

end Remember

/-! ### Whole runs -/

section Runs
variable {H F : Type} {site : Site H F}

/-- The notes on the daemon's process are right, when there is one. -/
def Chronicled (v : System H × List Departure) : Prop := ∀ p, v.1.process = some p → Remembers v.2 p.state

theorem watch_chronicled {v : System H × List Departure} {ev : Event F} (h : Chronicled v) :
    Chronicled (System.watch site departures v ev) := by
  have hobeys : v.1.Obeys site (fun _ _ _ _ _ => True) ev :=
    Prog.obeys_of_forall (fun _ _ _ => trivial)
  refine System.watch_of_ends hobeys ?_
  obtain ⟨⟨box,process⟩,past⟩ := v
  have hnotes := (Prog.ends_invariant (fun w : Box H × List Departure => w.2 = past) (fun _ _ _ _ hw => hw) rfl :
    (ev.action.program site.schema ev.env process).Ends
      (watched (perform site) ((departures (H := H)).during ev.env ev.action process)) (fun _ _ _ => True)
      (fun _ w => w.2 = past) (fun w => w.2 = past) (System.found site ⟨box,process⟩ ev,past))
  cases process with
  | none =>
    refine (hnotes.and returns_program_fresh.ends).mono ?_ (fun _ _ => nofun)
    rintro r w ⟨-,hfresh⟩ q hq
    exact ⟨.nil,nofun,hfresh q hq⟩
  | some p =>
    refine (hnotes.and returns_program_moves.ends).mono ?_ (fun _ _ => nofun)
    rintro r w ⟨hw,hmoves⟩ q hq
    have hquit : r.2 = some q := hq
    have hafter := (h p rfl).moves (hmoves q hquit)
    simp only [hquit,hw]
    exact hafter

/-- A run of the box, with notes on what the daemon's present process has left. -/
def departureRun (site : Site H F) (box : Box H) (evs : List (Event F)) : System H × List Departure :=
  evs.foldl (System.watch site departures) (⟨box,none⟩,[])

theorem departureRun_chronicled (site : Site H F) (box : Box H) (evs : List (Event F)) :
    Chronicled (departureRun site box evs) := by
  have halong : Along (System.step site) (fun _ _ => True) (⟨box,none⟩ : System H) evs :=
    along_of_forall (fun _ _ _ => trivial)
  exact System.watch_invariant (fun _ _ _ h => watch_chronicled h) halong (fun _ hp => by cases hp)

/-- The answer to a commit shows what changed since the configuration that ran at the base of its
session. -/
def ReportsTruly (site : Site H F) (v : System H × List Departure) (s : State) (session : Session)
    (ev : Event F) : Prop :=
  ∃ d ∈ v.2, d.generation = session.baseGeneration ∧
    v.1.reply site ev = some (s.report d.generation d.config session.candidate)

/-- A commit that is refused because the running configuration moved is told exactly what moved, if a
session's base is within reach, just where it was a commit of this process that took the daemon off
that base. -/
theorem reportsTruly_iff (site : Site H F) (box : Box H) (evs : List (Event F)) {s : State}
    (hserving : (departureRun site box evs).1.process = some ⟨.serving,s⟩) {id : SessionId} {actor : Actor}
    {session : Session} (hown : s.owned id actor = .ok session) (hpending : s.pending = none)
    (hbehind : session.baseGeneration ≠ s.generation)
    (hreach : s.generation ≤ session.baseGeneration+HISTORY) (comment : Option String)
    (minutes : Option ℕ) (env : Env) (fate : ℕ → Effect → Fate F) :
    ReportsTruly site (departureRun site box evs) s session
        ⟨.request actor (.commit id comment minutes),env,fate⟩ ↔
      ∃ d ∈ (departureRun site box evs).2, d.generation = session.baseGeneration ∧ d.committed := by
  have hchronicled := departureRun_chronicled site box evs _ hserving
  have hplan : plan site.schema env s id actor =
      .error (s.changedUnderneath session.baseGeneration session.candidate) := by
    simp only [plan,hown,hpending,ne_eq,hbehind,not_false_eq_true,if_true]
  have hreply : (departureRun site box evs).1.reply site
      ⟨.request actor (.commit id comment minutes),env,fate⟩ =
        some (s.changedUnderneath session.baseGeneration session.candidate) := by
    unfold System.reply System.outcome
    simp only [hserving,Action.program,handle,commit,hplan]
    rfl
  unfold ReportsTruly
  rw [hreply]
  constructor
  · rintro ⟨d,hd,hbase,htold⟩
    by_contra hnone
    have hlost := hchronicled.find?_eq_none session.baseGeneration
      (fun was hwas => hnone ⟨_,hwas,rfl,rfl⟩)
    rw [hbase] at htold
    exact changedUnderneath_lost hlost (Option.some.inj htold)
  · rintro ⟨⟨generation,config,committed⟩,hd,rfl,hcommitted⟩
    obtain rfl : committed = true := hcommitted
    exact ⟨_,hd,rfl,congrArg some (changedUnderneath_found (hchronicled.find?_eq hd hreach))⟩

end Runs

/-- Another session is opened and has its commit refused, since the first has made one. -/
def overtaken : List (Event Unit) :=
  [.start,.resume,.boot,.request ⟨0,"root"⟩ .sessionOpen].map
      (fun action => Event.smooth action "0123456789abcdef") ++
    [.request ⟨0,"root"⟩ .sessionOpen,
     .request ⟨0,"root"⟩ (.set "0123456789abcdef" ["system","host-name"] (some "edge")),
     .request ⟨0,"root"⟩ (.commit "0123456789abcdef" none none)].map
      (fun action => Event.smooth action "fedcba9876543210")

def overtakenRun : System (Option ConfigTree) × List Departure :=
  departureRun (Site.taking (Shipped.schema [])) (Box.fresh none none) overtaken

theorem overtakenRun_serves : overtakenRun.1.process.isSome := by decide +kernel

def overtakenState : State := (overtakenRun.1.process.get overtakenRun_serves).state

theorem overtakenState_has : (overtakenState.sessions.get? "fedcba9876543210").isSome := by decide +kernel

theorem overtaken_told :
    ReportsTruly (Site.taking (Shipped.schema [])) overtakenRun overtakenState
      ((overtakenState.sessions.get? "fedcba9876543210").get overtakenState_has)
      (Event.smooth (.request ⟨0,"root"⟩ (.commit "fedcba9876543210" none none)) "") :=
  (reportsTruly_iff (Site.taking (Shipped.schema [])) (Box.fresh none none) overtaken
    (process_eq overtakenRun_serves (by decide +kernel))
    (owned_eq_ok.mpr ⟨(Option.some_get overtakenState_has).symm,by decide +kernel⟩) (by decide +kernel)
    (by decide +kernel) (by decide +kernel) none none ⟨0,"",.ok ""⟩ (Fate.smooth ())).mpr (by decide +kernel)

/-- A commit that was not confirmed in time has been undone under its own session. -/
def rolledBackRun : System (Option ConfigTree) × List Departure :=
  departureRun (Site.taking (Shipped.schema [])) (Box.fresh none none)
    (tried ++ [Event.smooth .timer "0123456789abcdef"])

theorem rolledBackRun_serves : rolledBackRun.1.process.isSome := by decide +kernel

def rolledBackState : State := (rolledBackRun.1.process.get rolledBackRun_serves).state

theorem rolledBackState_has : (rolledBackState.sessions.get? "0123456789abcdef").isSome := by
  decide +kernel

/-- The session's base is one generation behind, and it is told that this was too long ago. -/
theorem rolledBack_not_told :
    rolledBackState.pending = none ∧ rolledBackState.generation =
      ((rolledBackState.sessions.get? "0123456789abcdef").get rolledBackState_has).baseGeneration+1 ∧
    ¬ReportsTruly (Site.taking (Shipped.schema [])) rolledBackRun rolledBackState
      ((rolledBackState.sessions.get? "0123456789abcdef").get rolledBackState_has)
      (Event.smooth (.request ⟨0,"root"⟩ (.commit "0123456789abcdef" none none)) "") := by
  refine ⟨by decide +kernel,by decide +kernel,?_⟩
  unfold ReportsTruly
  decide +kernel

end Nightshade.Configd
