import Mathlib
import Nightshade.Render.Secrets
import Nightshade.Configd.Machine

/-! No password hash gets out. Configurations that differ in hashes only are applied by the same
operations with the same outcome, one after another, whichever of the operations fail. -/
namespace Nightshade.Configd
open Foundation Schema Render

/-! ### The pipeline -/

namespace Pipeline

/-- The same renderers, with artifacts that are alike. -/
def AlikePlans : Plan → Plan → Prop :=
  List.Forall₂ (fun p q => p.1 = q.1 ∧ p.1.Discreet ∧ AlikeArtifacts p.2 q.2)

variable {s t : ConfigTree} {rs : List Renderer} {plan plan' : Plan}

theorem renderAll_alike (h : AlikeConfig s t) (hrs : ∀ r ∈ rs, r.Discreet) :
    Prog.AlikeResult AlikePlans (renderAll s rs) (renderAll t rs) := by
  induction rs with
  | nil => exact .ok .nil
  | cons r rs ih =>
    obtain ⟨hr,hrest⟩ := List.forall_mem_cons.mp hrs
    have hone := hr.render s t h
    have hall := ih hrest
    rw [renderAll,renderAll]
    revert hone hall
    generalize r.render s = one
    generalize r.render t = one'
    generalize renderAll s rs = all
    generalize renderAll t rs = all'
    intro hone hall
    cases hone with
    | error e => exact .error _
    | ok hab =>
      cases hall with
      | error e => exact .error e
      | ok hplans => exact .ok (.cons ⟨rfl,hr,hab⟩ hplans)

theorem checkAll_alike (h : AlikePlans plan plan') : checkAll plan = checkAll plan' := by
  induction h with
  | nil => rfl
  | @cons p q _ _ hpq _ ih =>
    obtain ⟨r,a⟩ := p
    obtain ⟨r',b⟩ := q
    obtain ⟨rfl,hr,hab⟩ := hpq
    rw [checkAll,checkAll,hr.check a b hab,ih]

theorem unseen_restoreAll (hrs : ∀ r ∈ rs, r.Discreet) : Unseen (restoreAll rs) (restoreAll rs) := by
  induction rs with
  | nil => exact .done rfl
  | cons r rs ih =>
    obtain ⟨hr,hrest⟩ := List.forall_mem_cons.mp hrs
    refine .perform (.load r.name) (fun previous previous' hprevious => ?_)
    cases hprevious with
    | none => exact ih hrest
    | some hab =>
      rw [Prog.done_bind,Prog.done_bind]
      refine unseen_bind (hr.apply _ _ hab) (fun answer => ?_)
      cases answer with
      | ok _ => exact ih hrest
      | error e =>
        refine unseen_bind (ih hrest) (fun problems => ?_)
        exact .done rfl

theorem unseen_restore (hrs : ∀ r ∈ rs, r.Discreet) : Unseen (restore rs) (restore rs) := by
  refine unseen_bind (unseen_restoreAll hrs) (fun problems => ?_)
  exact .done rfl

theorem unseen_applyAll (h : AlikePlans plan plan') (hrs : ∀ r ∈ rs, r.Discreet) :
    Unseen (applyAll rs plan) (applyAll rs plan') := by
  induction h generalizing rs with
  | nil => exact .done rfl
  | @cons p q _ _ hpq _ ih =>
    obtain ⟨r,a⟩ := p
    obtain ⟨r',b⟩ := q
    obtain ⟨rfl,hr,hab⟩ := hpq
    have hmore : ∀ other ∈ r::rs, other.Discreet := List.forall_mem_cons.mpr ⟨hr,hrs⟩
    unfold applyAll
    refine unseen_bind (unseen_bind (hr.apply a b hab) (fun answer => ?_)) (fun outcome => ?_)
    · cases answer with
      | error e => exact .done rfl
      | ok _ => exact hr.verify a b hab
    cases outcome with
    | ok _ => exact ih hmore
    | error source =>
      refine unseen_bind (unseen_restore hmore) (fun restored => ?_)
      cases restored <;> exact .done rfl

theorem unseen_rememberAll (h : AlikePlans plan plan') : Unseen (rememberAll plan) (rememberAll plan') := by
  induction h with
  | nil => exact .done rfl
  | @cons p q _ _ hpq _ ih =>
    obtain ⟨r,a⟩ := p
    obtain ⟨r',b⟩ := q
    obtain ⟨rfl,hr,hab⟩ := hpq
    exact .perform (.save r.name hab) (fun _ _ _ => ih)

/-- Applying alike configurations does the same, and comes to the same. -/
theorem unseen_apply (h : AlikeConfig s t) (hrs : ∀ r ∈ rs, r.Discreet) : Unseen (apply rs s) (apply rs t) := by
  have hplans := renderAll_alike h hrs
  unfold apply
  revert hplans
  generalize renderAll s rs = rendered
  generalize renderAll t rs = rendered'
  intro hplans
  cases hplans with
  | error e => exact .done rfl
  | @ok plan plan' hplans =>
    dsimp only
    rw [checkAll_alike hplans]
    cases checkAll plan' with
    | error e => exact .done rfl
    | ok _ =>
      refine unseen_bind (unseen_applyAll hplans (fun _ hr => absurd hr List.not_mem_nil)) (fun answer => ?_)
      cases answer with
      | error e => exact .done rfl
      | ok _ => exact (unseen_rememberAll hplans).bind (fun _ _ _ => .done rfl)

/-- Apply one configuration after another, whatever comes of each. -/
def applyEach (rs : List Renderer) : List ConfigTree → HostProg (List (Except CommitError Unit))
  | [] => return []
  | candidate::rest => do
    let answer ← apply rs candidate
    let answers ← applyEach rs rest
    return answer::answers

theorem unseen_applyEach {ss ts : List ConfigTree} (h : List.Forall₂ AlikeConfig ss ts) (hrs : ∀ r ∈ rs, r.Discreet) :
    Unseen (applyEach rs ss) (applyEach rs ts) := by
  induction h with
  | nil => exact .done rfl
  | cons hone _ ih =>
    refine unseen_bind (unseen_apply hone hrs) (fun answer => ?_)
    refine unseen_bind ih (fun answers => ?_)
    exact .done rfl

end Pipeline

/-- The renderers that are shipped are discreet. -/
theorem renderers_discreet (schema : Schema) : ∀ r ∈ renderers schema, r.Discreet := by
  intro r hr
  obtain ⟨e,he,rfl⟩ := List.mem_map.mp hr
  have hmem := (List.mem_insertionSort _).mp he
  simp only [List.mem_cons,List.not_mem_nil,or_false] at hmem
  obtain rfl | rfl | rfl := hmem
  · exact systemRenderer_discreet
  · exact loginRenderer_discreet
  · exact networkdRenderer_discreet

/-! ### What can be seen -/

/-- An operation as it is seen from outside: a command by its arguments, and a record by its name. -/
inductive Seen where
  | sync (managed : Managed)
  | write (path contents : String)
  | read (path : String)
  | command (argv : List String)
  | load (name : String)
  | save (name : String)

def seen : HostOp → Seen
  | .sync managed => .sync managed
  | .write path contents => .write path contents
  | .read path => .read path
  | .run argv | .runWithSecret argv _ => .command argv
  | .load name => .load name
  | .save name _ => .save name

/-- A machine apart from its passwords: how it answers on its files, and what becomes of it when a
command is run. -/
structure Ground (M F : Type) where
  files : Exec HostOp HostOp.Answer F M
  ran : List String → F → M → M

variable {M F : Type}

/-- Commands are run as the real host runs them. -/
def Ground.machine (ground : Ground M F) : Exec HostOp HostOp.Answer (F × ProcessFate) M
  | .run argv, f, m => (some ((RealHost.run argv f.2).mapError HostError.display),ground.ran argv f.1 m)
  | .runWithSecret argv secret, f, m =>
    (some ((RealHost.runWithSecret argv secret f.2).mapError HostError.display),ground.ran argv f.1 m)
  | op, f, m => ground.files op f.1 m

/-- The machine with its records, and with everything noted that was seen. -/
def Ground.exec (ground : Ground M F) :
    Exec HostOp HostOp.Answer (HostFate (F × ProcessFate)) ((M × Store) × List Seen) :=
  watched (onHost ground.machine) (fun op _ _ log => log ++ [seen op])

/-- Two stores with records that are alike. -/
def AlikeStores (store store' : Store) : Prop :=
  ∀ name, Option.Rel AlikeArtifacts (store.get? name) (store'.get? name)

theorem AlikeStores.insert {store store' : Store} (h : AlikeStores store store') (name : String) {a b : Artifacts}
    (hab : AlikeArtifacts a b) : AlikeStores (store.insert name a) (store'.insert name b) := by
  intro other
  rw [SortedMap.get?_insert,SortedMap.get?_insert]
  split_ifs
  · exact .some hab
  · exact h other

/-- Machines in the same state, with records that are alike, of which the same was seen. -/
structure AlikeHosts (v v' : (M × Store) × List Seen) : Prop where
  machine : v.1.1 = v'.1.1
  store : AlikeStores v.1.2 v'.1.2
  log : v.2 = v'.2

theorem AlikeOp.seen {op op' : HostOp} {answers : op.Answer → op'.Answer → Prop} (h : AlikeOp op op' answers) :
    Configd.seen op = Configd.seen op' := by
  cases h <;> rfl

/-- What fails for one host fails for the other: a fate is drawn for what is seen of an operation. -/
def drawn (fates : ℕ → Seen → HostFate (F × ProcessFate)) (n : ℕ) (op : HostOp) : HostFate (F × ProcessFate) :=
  fates n (seen op)

theorem exec_alike (ground : Ground M F) (fates : ℕ → Seen → HostFate (F × ProcessFate)) {n : ℕ} {op op' : HostOp}
    {answers : op.Answer → op'.Answer → Prop} {v v' : (M × Store) × List Seen} (h : AlikeOp op op' answers)
    (hv : AlikeHosts v v') :
    Prog.SameEnd answers AlikeHosts (ground.exec op (drawn fates n op) v) (ground.exec op' (drawn fates n op') v') := by
  obtain ⟨⟨m,store⟩,log⟩ := v
  obtain ⟨⟨m',store'⟩,log'⟩ := v'
  obtain ⟨rfl,hstore,rfl⟩ := hv
  have hsave : ∀ name {a b : Artifacts}, AlikeArtifacts a b →
      Prog.SameEnd (· = ·) AlikeHosts (ground.exec (.save name a) (drawn fates n (.save name a)) ((m,store),log))
        (ground.exec (.save name b) (drawn fates n (.save name b)) ((m,store'),log)) := by
    intro name a b hab
    unfold Ground.exec watched onHost drawn seen
    dsimp only
    cases (fates n (.save name)).store with
    | ok => exact ⟨rfl,rfl,AlikeStores.insert hstore name hab,rfl⟩
    | fail reason => exact ⟨rfl,rfl,hstore,rfl⟩
    | kill => exact ⟨rfl,hstore,rfl⟩
  have hmachine : ∀ op : HostOp, op.onMachine →
      Prog.SameEnd (· = ·) AlikeHosts (ground.exec op (drawn fates n op) ((m,store),log))
        (ground.exec op (drawn fates n op) ((m,store'),log)) := by
    intro op hop
    have hexec : ∀ store : Store, ground.exec op (drawn fates n op) ((m,store),log) =
        ((ground.machine op (drawn fates n op).machine m).1,
          ((ground.machine op (drawn fates n op).machine m).2,store),log ++ [seen op]) := by
      intro store
      cases op with
      | load name => cases hop
      | save name a => cases hop
      | _ => rfl
    rw [hexec,hexec]
    cases ground.machine op (drawn fates n op).machine m with
    | mk answer after =>
      cases answer with
      | none => exact ⟨rfl,hstore,rfl⟩
      | some r => exact ⟨rfl,rfl,hstore,rfl⟩
  cases h with
  | same hopen =>
    cases op with
    | load name => cases hopen
    | runWithSecret argv secret => cases hopen
    | save name a => exact hsave name (AlikeArtifacts.refl a)
    | _ => exact hmachine _ rfl
  | load name =>
    unfold Ground.exec watched onHost drawn seen
    dsimp only
    cases (fates n (.load name)).store with
    | ok => exact ⟨hstore name,rfl,hstore,rfl⟩
    | fail reason => exact ⟨.none,rfl,hstore,rfl⟩
    | kill => exact ⟨rfl,hstore,rfl⟩
  | save name hab => exact hsave name hab
  | secret name hash => exact ⟨rfl,rfl,hstore,rfl⟩

theorem sameEnd_eq {A W : Type} {same : W → W → Prop} {r r' : Option A × W} (h : Prog.SameEnd (· = ·) same r r') :
    r.1 = r'.1 ∧ same r.2 r'.2 := by
  obtain ⟨answer,w⟩ := r
  obtain ⟨answer',w'⟩ := r'
  cases answer with
  | none =>
    cases answer' with
    | none => exact ⟨rfl,h⟩
    | some a => exact h.elim
  | some a =>
    cases answer' with
    | none => exact h.elim
    | some a' => exact ⟨congrArg some h.1,h.2⟩

/-- Configurations that differ in hashes only are applied, one after another, with the same answers and
the same to be seen; whatever goes to a program in secret goes to chpasswd. -/
theorem hashes_unseen (schema : Schema) (ground : Ground M F) {ss ts : List ConfigTree}
    (h : List.Forall₂ AlikeConfig ss ts) (fates : ℕ → Seen → HostFate (F × ProcessFate)) (host : M × Store) :
    ((Pipeline.applyEach (renderers schema) ss).run ground.exec (drawn fates) 0 (host,[])).1 =
      ((Pipeline.applyEach (renderers schema) ts).run ground.exec (drawn fates) 0 (host,[])).1 ∧
    ((Pipeline.applyEach (renderers schema) ss).run ground.exec (drawn fates) 0 (host,[])).2.2 =
      ((Pipeline.applyEach (renderers schema) ts).run ground.exec (drawn fates) 0 (host,[])).2.2 ∧
    (Pipeline.applyEach (renderers schema) ss).Only (fun op => ∀ argv secret, op = .runWithSecret argv secret →
      argv = ["chpasswd","-e"] ∧ ∃ name hash, secret = name ++ ":" ++ hash ++ "\n") := by
  have hunseen := Pipeline.unseen_applyEach h (renderers_discreet schema)
  have hhosts : AlikeHosts (host,([] : List Seen)) (host,[]) := by
    refine ⟨rfl,fun name => ?_,rfl⟩
    cases host.2.get? name with
    | none => exact .none
    | some a => exact .some (AlikeArtifacts.refl a)
  obtain ⟨hanswers,hafter⟩ := sameEnd_eq (hunseen.run (fun n op op' answers v v' hop hv =>
    exec_alike ground fates (n := n) hop hv) 0 hhosts)
  refine ⟨hanswers,hafter.log,hunseen.only (fun op op' answers hop => ?_)⟩
  cases hop with
  | same hopen =>
    refine ⟨fun argv secret heq => ?_,fun r => ⟨r,rfl⟩⟩
    rw [heq] at hopen
    cases hopen
  | load name =>
    refine ⟨nofun,fun r => ⟨r,?_⟩⟩
    cases r with
    | none => exact .none
    | some a => exact .some (AlikeArtifacts.refl a)
  | save name hab => exact ⟨nofun,fun r => ⟨r,rfl⟩⟩
  | secret name hash =>
    refine ⟨fun argv secret heq => ?_,fun r => ⟨r,rfl⟩⟩
    obtain ⟨rfl,rfl⟩ := HostOp.runWithSecret.inj heq
    exact ⟨rfl,name,_,rfl⟩

/-! ### One administrator -/

/-- A tree of one branch, with a value at its end. -/
def branch (value : String) : Path → Node
  | [] => ⟨none,.values [value]⟩
  | s::rest => ⟨none,.interior [(s,branch value rest)]⟩

theorem get_branch (value : String) (path p : Path) :
    (branch value path).get p = if p <+: path then some (branch value (path.drop p.length)) else none := by
  induction p generalizing path with
  | nil => simp [Node.get]
  | cons s p ih =>
    cases path with
    | nil => simp [branch,Node.get]
    | cons k path =>
      by_cases hk : s = k
      · subst hk
        simp [branch,Node.get,ih]
      · simp [branch,Node.get,lookup_cons_ite,hk]

/-- A configuration of one user with a password. -/
def withHash (hash : String) : ConfigTree := (ConfigTree.new.set (password "alice") hash).2

theorem get_withHash (hash : String) (p : Path) : (withHash hash).get p =
    if p <+: password "alice" then some (branch hash ((password "alice").drop p.length)) else none :=
  get_branch hash (password "alice") p

/-- Changing a hash leaves a configuration that is alike. -/
theorem withHash_alike {hash hash' : String} (h : AlikeHash hash hash') : AlikeConfig (withHash hash) (withHash hash') where
  shape path := by
    rw [ConfigTree.contains,ConfigTree.contains,get_withHash,get_withHash]
    split_ifs <;> rfl
  elsewhere path hpath := by
    rw [get_withHash,get_withHash,if_neg (hpath "alice"),if_neg (hpath "alice")]
  hashes name := by
    rw [get_withHash,get_withHash]
    by_cases hname : password name <+: password "alice"
    · rw [if_pos hname,if_pos hname]
      exact .some h
    · rw [if_neg hname,if_neg hname]
      exact .none

/-- The bench, with its programs all at work. -/
def Bench.ground : Ground Bench Unit where
  files op _ bench := Bench.machine op [] bench
  ran argv _ bench := (bench.run [] argv).2

theorem alice_unseen :
    let fates : ℕ → Seen → HostFate (Unit × ProcessFate) := fun _ _ => ⟨((),.ended (some 0) id),.ok⟩
    let rs := renderers (Shipped.schema [])
    let one := [withHash "$6$salt$one",withHash "!",withHash "$6$salt$two"]
    let other := [withHash "$6$salt$two",withHash "!",withHash "$6$salt$three"]
    ((Pipeline.applyEach rs one).run Bench.ground.exec (drawn fates) 0 (default,[])).1 =
      ((Pipeline.applyEach rs other).run Bench.ground.exec (drawn fates) 0 (default,[])).1 :=
  (hashes_unseen (Shipped.schema []) Bench.ground
    (.cons (withHash_alike (.inr (by decide))) (.cons (withHash_alike (.inl rfl))
      (.cons (withHash_alike (.inr (by decide))) .nil))) _ default).1

end Nightshade.Configd
