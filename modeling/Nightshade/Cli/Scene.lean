import Mathlib
import Nightshade.Configd.Apart
import Nightshade.Cli.Main

/-! A client next to everybody else. Before each of its requests the daemon answers any number of requests of others,
and what the client asks may be lost on the way there or back. -/
namespace Nightshade.Cli
open Foundation Schema Configd

/-- How a request fares. -/
inductive Way where
  | answered
  /-- It does not arrive. -/
  | unsent
  /-- The daemon does what is asked, and its answer does not arrive. -/
  | unheard
  /-- The client is gone before it does anything. -/
  | gone
  deriving DecidableEq

/-- What happens around one deed of a client. -/
structure Turn (I F : Type) where
  /-- What others make the daemon do before it. -/
  others : List (Event F)
  env : Env
  fate : ℕ → Effect → Fate F
  way : Way
  /-- The words in which the client learns of a broken connection. -/
  error : String
  /-- What comes of a deed that the daemon has no part in; nothing when the client is gone in it. -/
  alone : (d : Deed) → Option (Deed.Answer I d)

/-- The daemon, and what there is to say about one of its clients. -/
structure Scene (H : Type) where
  system : System H
  /-- The session that the daemon has opened for the client last. -/
  session : Option SessionId
  /-- The configurations that its requests had the host take, each with the one that ran before. -/
  tried : List (ConfigTree × ConfigTree)
  /-- The changes that its requests made to what runs. -/
  moved : List (ConfigTree × ConfigTree)
  /-- Whether a request of its was carried out, or begun, without an answer. -/
  doubt : Bool

/-- The configurations that the host is given. -/
def handed {H : Type} : (e : Effect) → Option e.Answer → Box H → List ConfigTree → List ConfigTree
  | .apply config, _, _, configs => configs ++ [config]
  | _, _, _, configs => configs

/-- The session that an answer says was opened. -/
def opened {I : Type} : Reply I → Option SessionId
  | .response (.session id) => some id
  | _ => none

/-- Whether what is asked is a commit. -/
def commits : Ask → Bool
  | .request (.commit _ _ _) => true
  | _ => false

section
variable {I H F : Type}

/-- The scene once a request is carried out, from the state it found. -/
def Scene.served (scene : Scene H) (s : State) (reply : Reply I) (s' : State) (box : Box H)
    (configs : List ConfigTree) : Scene H where
  system := ⟨box,some ⟨.serving,s'⟩⟩
  session := (opened reply).or scene.session
  tried := scene.tried ++ configs.map (fun config => (s.running,config))
  moved := if s'.running = s.running then scene.moved else scene.moved ++ [(s.running,s'.running)]
  doubt := scene.doubt

/-- The scene when the daemon is killed in a request. -/
def Scene.killed (scene : Scene H) (s : State) (box : Box H) (configs : List ConfigTree) : Scene H :=
  {scene with
    system := ⟨box,none⟩
    tried := scene.tried ++ configs.map (fun config => (s.running,config))
    doubt := true}

variable (site : Site H F) (interfaces : Interfaces I) (actor : Actor)

/-- What the daemon makes of a request of the client's. -/
def Scene.ask (scene : Scene H) (turn : Turn I F) (ask : Ask) : Option (Reply I) × Scene H :=
  match scene.system.process with
  | some ⟨.serving,s⟩ =>
    match (answer site.schema interfaces turn.env s actor ask).run (watched (perform site) handed) turn.fate 0
        (scene.system.box,[]) with
    | (some r,w) => (some r.1,scene.served s r.1 r.2 w.1 w.2)
    | (none,w) => (none,scene.killed s w.1 w.2)
  | _ => (none,scene)

/-- One deed of a client, with everybody else before it. -/
def talk (files : String → Except String String) : Exec Deed (Deed.Answer I) (Turn I F) (Scene H)
  | .call ask, turn, scene =>
    let scene := {scene with system := turn.others.foldl (System.step site) scene.system}
    match turn.way with
    | .gone => (none,scene)
    | .unsent => (some (.error turn.error),scene)
    | .answered =>
      let r := scene.ask site interfaces actor turn ask
      (some (r.1.elim (.error turn.error) .ok),r.2)
    | .unheard =>
      let r := scene.ask site interfaces actor turn ask
      (some (.error turn.error),{r.2 with doubt := true})
  | .readFile path, turn, scene => if turn.way = .gone then (none,scene) else (some (files path),scene)
  | d, turn, scene => (turn.alone d,scene)

/-- Others keep away from the client's session. -/
def Fair (uid : ℕ) (_ : Deed) (turn : Turn I F) (scene : Scene H) : Prop :=
  ∀ id, scene.session = some id → ∀ ev ∈ turn.others, Outside uid id ev

/-- What a program of a client comes to, if it comes to its end. -/
abbrev Comes {α : Type} (files : String → Except String String) (post : α → Scene H → Prop) (p : Play I α)
    (scene : Scene H) : Prop :=
  p.Ends (talk site interfaces actor files) (Fair actor.uid) post (fun _ => True) scene

end

/-! ### Deeds that commit nothing -/

section Kept
variable {I H F : Type} {site : Site H F} {interfaces : Interfaces I} {actor : Actor}
  {files : String → Except String String} {schema : Schema} {env : Env} {s : State}

theorem part_within {p : Part} (hp : p ≠ .host) (e : Effect) (h : e.Within p) : e.part ≠ .host := by
  intro hhost
  obtain h | h := h
  · rw [h] at hhost
    cases hhost
  · exact hp (h.symm.trans hhost)

theorem only_answer {ask : Ask} (h : commits ask = false) :
    (answer schema interfaces env s actor ask).Only (fun e => e.part ≠ .host) := by
  cases ask with
  | request request =>
    refine Prog.Only.bind ?_ (fun _ => trivial)
    cases request with
    | commit => cases h
    | confirm id =>
      refine only_confirm.mono (fun e he hhost => ?_)
      unfold Effect.Among at he
      rw [hhost] at he
      simp at he
    | save =>
      have hpart : Part.saved ≠ .host := by decide
      exact only_save.mono (part_within hpart)
    | _ =>
      have hpart : Part.sessions ≠ .host := by decide
      exact (only_edits rfl).mono (part_within hpart)
  | showSaved path =>
    refine Prog.Only.bind ?_ (fun _ => trivial)
    refine ⟨nofun,fun r => ?_⟩
    cases r with
    | error e => trivial
    | ok text =>
      simp only [Prog.done_bind]
      split <;> trivial
  | _ => trivial

theorem returns_answer {ask : Ask} (h : commits ask = false) :
    (answer schema interfaces env s actor ask).Returns (fun r => r.2.running = s.running) := by
  cases ask with
  | request request =>
    refine Prog.Returns.bind ((returns_handle_same ?_).mono (fun _ hr => hr.1))
    rintro id comment minutes rfl
    cases h
  | showSaved path => exact Prog.Returns.bind (Prog.returns_of_forall (fun _ => rfl))
  | _ => rfl

/-- Nothing more is applied, and no doubt is forgotten. -/
structure Scene.Kept (scene scene' : Scene H) : Prop where
  tried : scene'.tried = scene.tried
  moved : scene'.moved = scene.moved
  doubt : scene.doubt = true → scene'.doubt = true

theorem Scene.Kept.refl {scene : Scene H} : scene.Kept scene := ⟨rfl,rfl,id⟩

theorem Scene.Kept.trans {a b c : Scene H} (h : a.Kept b) (h' : b.Kept c) : a.Kept c :=
  ⟨h'.tried.trans h.tried,h'.moved.trans h.moved,fun hdoubt => h'.doubt (h.doubt hdoubt)⟩

/-- What a request comes to: nobody is there, or it is carried out by whoever serves, or the daemon is killed in it. -/
theorem ask_cases {scene : Scene H} {turn : Turn I F} {ask : Ask} {P : Option (Reply I) × Scene H → Prop}
    (hnobody : P (none,scene))
    (hserves : ∀ s, scene.system.process = some ⟨.serving,s⟩ →
      (answer site.schema interfaces turn.env s actor ask).Ends (watched (perform site) handed) (fun _ _ _ => True)
        (fun r w => P (some r.1,scene.served s r.1 r.2 w.1 w.2)) (fun w => P (none,scene.killed s w.1 w.2))
        (scene.system.box,[])) :
    P (scene.ask site interfaces actor turn ask) := by
  unfold Scene.ask
  split
  · next s hs =>
    have hrun : Prog.Outcome _ _ (Prog.run (watched (perform site) handed) turn.fate 0 _ (scene.system.box,[])) :=
      (hserves s hs).run_all
    split
    · next r w hr => rw [hr] at hrun; exact hrun
    · next w hr => rw [hr] at hrun; exact hrun
  · exact hnobody

theorem handed_apart {e : Effect} (h : e.part ≠ .host) (r : Option e.Answer) (b : Box H) (configs : List ConfigTree) :
    handed e r b configs = configs := by
  cases e <;> first | rfl | exact absurd rfl h

theorem ask_kept {scene : Scene H} {turn : Turn I F} {ask : Ask} (h : commits ask = false) :
    scene.Kept (scene.ask site interfaces actor turn ask).2 := by
  refine ask_cases (P := fun r => scene.Kept r.2) .refl (fun s hs => ?_)
  have hends : (answer site.schema interfaces turn.env s actor ask).Ends (perform site) (fun _ _ _ => True)
      (fun r _ => r.2.running = s.running) (fun _ => True) scene.system.box := (returns_answer h).ends
  refine (hends.unnoted (only_answer h) (fun e he r w => handed_apart he r w [])).mono ?_ ?_
  · rintro r w ⟨hrunning,hnone⟩
    refine ⟨?_,if_pos hrunning,id⟩
    simp [Scene.served,hnone]
  · rintro w ⟨-,hnone⟩
    refine ⟨?_,rfl,fun _ => rfl⟩
    simp [Scene.killed,hnone]

/-- A deed that asks for no commit. -/
def Deed.Mild (d : Deed) : Prop := ∀ ask, d = .call ask → commits ask = false

theorem talk_kept {d : Deed} {turn : Turn I F} {scene : Scene H} (h : d.Mild) :
    scene.Kept (talk site interfaces actor files d turn scene).2 := by
  cases d with
  | call ask =>
    have hask : ∀ sys : System H, scene.Kept ({scene with system := sys}.ask site interfaces actor turn ask).2 :=
      fun sys => (⟨rfl,rfl,id⟩ : scene.Kept {scene with system := sys}).trans (ask_kept (h ask rfl))
    unfold talk
    dsimp only
    split
    · exact ⟨rfl,rfl,id⟩
    · exact ⟨rfl,rfl,id⟩
    · exact hask _
    · exact (hask _).trans ⟨rfl,rfl,fun _ => rfl⟩
  | readFile path =>
    dsimp only [talk]
    split <;> exact .refl
  | _ => exact .refl

/-- Programs that ask for no commit apply nothing. -/
theorem ends_kept {α : Type} {p : Play I α} {scene : Scene H} (h : p.Only Deed.Mild) :
    p.Ends (talk site interfaces actor files) (Fair actor.uid) (fun _ => scene.Kept) scene.Kept scene :=
  h.keeps scene.Kept (fun _ _ _ hd _ hkept => hkept.trans (talk_kept hd)) .refl

/-- What a request leaves behind: nothing of it, or what the daemon made of it. -/
def Scene.Leaves (P : State → Prop) (Q : Reply I → State → Prop) (scene scene' : Scene H) : Prop :=
  (scene'.session = scene.session ∧ scene'.system.Holds P) ∨
    ∃ reply s, scene'.session = (opened reply).or scene.session ∧ scene'.system.process = some ⟨.serving,s⟩ ∧ Q reply s

/-- A request as the client sees it: it fails, or it is answered by a daemon in the state that the answer speaks of. -/
theorem ends_query {α : Type} {ask : Ask} {k : Except String (Reply I) → Play I α} {scene : Scene H}
    {post : α → Scene H → Prop} {P : State → Prop} {Q : Reply I → State → Prop}
    (hothers : ∀ others : List (Event F), (∀ id, scene.session = some id → ∀ ev ∈ others, Outside actor.uid id ev) →
      (others.foldl (System.step site) scene.system).Holds P)
    (hanswer : ∀ env s, P s → (answer site.schema interfaces env s actor ask).Returns (fun r => Q r.1 r.2))
    (herror : ∀ e scene', scene.Leaves P Q scene' → Comes site interfaces actor files post (k (.error e)) scene')
    (hok : ∀ reply s scene', scene'.session = (opened reply).or scene.session →
      scene'.system.process = some ⟨.serving,s⟩ → Q reply s → Comes site interfaces actor files post (k (.ok reply)) scene') :
    Comes site interfaces actor files post (Client.call ask >>= k) scene := by
  intro turn hfair
  have hholds := hothers turn.others hfair
  have hasked : ∀ P' : Option (Reply I) × Scene H → Prop,
      (∀ scene', scene.Leaves P Q scene' → P' (none,scene')) →
      (∀ reply s scene', scene'.session = (opened reply).or scene.session →
        scene'.system.process = some ⟨.serving,s⟩ → Q reply s → P' (some reply,scene')) →
      P' ({scene with system := turn.others.foldl (System.step site) scene.system}.ask site interfaces actor turn ask) := by
    intro P' hnone hsome
    refine ask_cases (P := P') (hnone _ (.inl ⟨rfl,hholds⟩)) (fun s hs => ?_)
    have hends : (answer site.schema interfaces turn.env s actor ask).Ends (watched (perform site) handed)
        (fun _ _ _ => True) (fun r _ => Q r.1 r.2) (fun _ => True)
        ((turn.others.foldl (System.step site) scene.system).box,[]) := (hanswer turn.env s (hholds s hs)).ends
    refine hends.mono (fun r w hr => hsome r.1 r.2 _ rfl rfl hr) (fun w _ => hnone _ (.inl ⟨rfl,?_⟩))
    intro s' hs'
    cases hs'
  dsimp only [talk]
  split
  · next answered scene' hr =>
    split at hr
    · trivial
    · cases hr
    · cases hr
    · cases hr
  · next r scene' hr =>
    split at hr
    · cases hr
    · cases hr
      exact herror _ _ (.inl ⟨rfl,hholds⟩)
    · simp only [Prod.mk.injEq,Option.some.injEq] at hr
      obtain ⟨rfl,rfl⟩ := hr
      exact hasked (fun r => Comes site interfaces actor files post (k (r.1.elim (.error turn.error) .ok)) r.2)
        (fun scene' hleaves => herror _ _ hleaves) (fun reply s scene' hsession hprocess hq =>
          hok reply s scene' hsession hprocess hq)
    · cases hr
      refine herror _ _ (hasked (fun r => scene.Leaves P Q {r.2 with doubt := true}) (fun scene' hleaves => hleaves)
        (fun reply s scene' hsession hprocess hq => .inr ⟨reply,s,hsession,hprocess,hq⟩))

/-- A file is read as it is. -/
theorem ends_readFile {α : Type} {path : String} {k : Except String String → Play I α} {scene : Scene H}
    {post : α → Scene H → Prop} {crash : Scene H → Prop} (hgone : crash scene)
    (hk : (k (files path)).Ends (talk site interfaces actor files) (Fair actor.uid) post crash scene) :
    (readFile path >>= k).Ends (talk site interfaces actor files) (Fair actor.uid) post crash scene := by
  intro turn _
  dsimp only [talk]
  by_cases h : turn.way = .gone
  · rw [if_pos h]
    exact hgone
  · rw [if_neg h]
    exact hk

end Kept
end Nightshade.Cli
