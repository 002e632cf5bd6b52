import Mathlib
import Nightshade.Configd.Pipeline

/-! Nothing is touched before everything is checked, and what the renderers remember stays in step:
it all belongs to the last configuration that was applied and verified throughout. -/
namespace Nightshade.Configd.Pipeline
open Foundation Schema Render

/-- A configuration that some renderer cannot render, or whose artifacts it does not accept. -/
def Refused (renderers : List Renderer) (candidate : ConfigTree) : Prop :=
  ∃ renderer ∈ renderers, ∀ artifacts, renderer.render candidate = .ok artifacts →
    ∃ e, renderer.check artifacts = .error e

/-- Everything that is remembered under the name of a renderer is what a renderer of that name makes
of one and the same configuration. -/
def InStep (renderers : List Renderer) (config : ConfigTree) (store : Store) : Prop :=
  ∀ renderer ∈ renderers, ∃ owner ∈ renderers, owner.name = renderer.name ∧
    ∃ artifacts, owner.render config = .ok artifacts ∧ store.get? renderer.name = some artifacts

/-- Where names are not shared, each renderer remembers what it makes of the configuration itself. -/
theorem InStep.own {renderers : List Renderer} {config : ConfigTree} {store : Store}
    (h : InStep renderers config store) {renderer : Renderer} (hr : renderer ∈ renderers)
    (hown : ∀ other ∈ renderers, other.name = renderer.name → other = renderer) :
    ∃ artifacts, renderer.render config = .ok artifacts ∧
      store.get? renderer.name = some artifacts := by
  obtain ⟨owner,howner,hname,artifacts,hrender,hget⟩ := h renderer hr
  rw [hown owner howner hname] at hrender
  exact ⟨artifacts,hrender,hget⟩

/-! ### Before anything is touched -/

theorem renderAll_ok {renderers : List Renderer} {candidate : ConfigTree} {plan : Plan}
    (h : renderAll candidate renderers = .ok plan) :
    plan.map Prod.fst = renderers ∧ ∀ e ∈ plan, e.1.render candidate = .ok e.2 := by
  induction renderers generalizing plan with
  | nil => cases h; simp
  | cons renderer rest ih =>
    rw [renderAll] at h
    split at h
    · cases h
    · next artifacts hrender =>
      split at h
      · cases h
      · next plan' hrest =>
        cases h
        obtain ⟨hmap,hall⟩ := ih hrest
        refine ⟨by rw [List.map_cons,hmap],fun e he => ?_⟩
        rcases List.mem_cons.mp he with rfl | he
        · exact hrender
        · exact hall e he

theorem checkAll_ok {plan : Plan} (h : checkAll plan = .ok ()) : ∀ e ∈ plan, e.1.check e.2 = .ok () := by
  induction plan with
  | nil => simp
  | cons e rest ih =>
    obtain ⟨renderer,artifacts⟩ := e
    rw [checkAll] at h
    split at h
    · cases h
    · next hcheck =>
      intro e he
      rcases List.mem_cons.mp he with rfl | he
      · exact hcheck
      · exact ih h e he

/-- A configuration that is refused costs no operation at all. -/
theorem apply_refused {renderers : List Renderer} {candidate : ConfigTree}
    (h : Refused renderers candidate) : ∃ e, apply renderers candidate = .done (.error e) := by
  unfold apply
  cases hplan : renderAll candidate renderers with
  | error e => exact ⟨e,rfl⟩
  | ok plan =>
    cases hcheck : checkAll plan with
    | error e => exact ⟨e,by simp [hcheck]⟩
    | ok _ =>
      obtain ⟨renderer,hr,hrefuses⟩ := h
      obtain ⟨hmap,hall⟩ := renderAll_ok hplan
      rw [← hmap] at hr
      obtain ⟨e,he,rfl⟩ := List.mem_map.mp hr
      obtain ⟨problem,hproblem⟩ := hrefuses e.2 (hall e he)
      rw [checkAll_ok hcheck e he] at hproblem
      cases hproblem

/-! ### What is remembered -/

section
variable {M F : Type} {machine : Exec HostOp HostOp.Answer F M}

/-- What the renderers remember once a plan has been carried out. -/
def remembered (plan : Plan) (store : Store) : Store :=
  plan.foldl (fun store e => store.insert e.1.name e.2) store

/-- A step that records something records it. -/
def SavesWork (op : HostOp) (f : HostFate F) (_ : M × Store) : Prop :=
  ∀ name artifacts, op = .save name artifacts → f.store = .ok

/-- Something done to the machine: nothing is recorded. -/
def Unsaved (op : HostOp) : Prop := ∀ name artifacts, op ≠ .save name artifacts

theorem unsaved_load (name : String) : Unsaved (.load name) := nofun

theorem only_restoreAll (applied : List Renderer) : (restoreAll applied).Only Unsaved := by
  induction applied with
  | nil => trivial
  | cons renderer rest ih =>
    refine ⟨unsaved_load _,fun r => ?_⟩
    cases r with
    | none => exact ih
    | some previous =>
      simp only [Prog.done_bind]
      refine (renderer.apply_unsaved previous).bind (fun r => ?_)
      cases r with
      | error e => exact ih.bind (fun _ => trivial)
      | ok _ => exact ih

theorem only_restore (applied : List Renderer) : (restore applied).Only Unsaved :=
  (only_restoreAll applied).bind (fun _ => trivial)

theorem only_applyAll (applied : List Renderer) (plan : Plan) :
    (applyAll applied plan).Only Unsaved := by
  induction plan generalizing applied with
  | nil => trivial
  | cons e rest ih =>
    obtain ⟨renderer,artifacts⟩ := e
    apply Prog.Only.bind
    · refine (renderer.apply_unsaved artifacts).bind (fun r => ?_)
      cases r with
      | error e => trivial
      | ok _ => exact renderer.verify_unsaved artifacts
    · intro outcome
      cases outcome with
      | ok _ => exact ih _
      | error source =>
        refine (only_restore _).bind (fun r => ?_)
        cases r <;> trivial

/-- Operations that record nothing leave what is remembered. -/
theorem ends_unsaved {α : Type} {program : HostProg α} (h : program.Only Unsaved) {w : M × Store} :
    program.Ends (onHost machine) SavesWork (fun _ w' => w'.2 = w.2) (fun w' => w'.2 = w.2) w :=
  h.keeps (fun w' => w'.2 = w.2) (fun _ f w' hop _ hw => (onHost_store f w' hop).trans hw) rfl

theorem rememberAll_ends (plan : Plan) {w : M × Store} :
    (rememberAll plan).Ends (onHost machine) SavesWork (fun _ w' => w'.2 = remembered plan w.2)
      (fun _ => False) w := by
  induction plan generalizing w with
  | nil => exact rfl
  | cons e rest ih =>
    obtain ⟨renderer,artifacts⟩ := e
    intro f hf
    have hstore := hf _ _ rfl
    simp only [onHost,hstore]
    exact ih (w := (w.1,w.2.insert renderer.name artifacts))

/-- An apply that succeeds is remembered throughout; one that fails or is cut off is not at all. -/
theorem apply_ends (renderers : List Renderer) (candidate : ConfigTree) (w : M × Store) :
    (apply renderers candidate).Ends (onHost machine) SavesWork
      (fun r w' => (r = .ok () ∧ ∃ plan, renderAll candidate renderers = .ok plan ∧
        w'.2 = remembered plan w.2) ∨ (∃ e, r = .error e) ∧ w'.2 = w.2)
      (fun w' => w'.2 = w.2) w := by
  unfold apply
  cases hplan : renderAll candidate renderers with
  | error e => exact .inr ⟨⟨e,rfl⟩,rfl⟩
  | ok plan =>
    cases hcheck : checkAll plan with
    | error e =>
      simp only [hcheck]
      exact .inr ⟨⟨e,rfl⟩,rfl⟩
    | ok _ =>
      simp only [hcheck]
      apply Prog.Ends.bind
      refine (ends_unsaved (only_applyAll [] plan)).mono (fun r w' hw => ?_) (fun _ hw => hw)
      cases r with
      | error e => exact .inr ⟨⟨e,rfl⟩,hw⟩
      | ok _ =>
        apply Prog.Ends.bind
        refine (rememberAll_ends plan).mono (fun _ w'' hw' => ?_) (fun _ h => h.elim)
        exact .inl ⟨rfl,plan,rfl,by rw [hw',hw]⟩

theorem get?_remembered (plan : Plan) (store : Store) (name : String) :
    (remembered plan store).get? name = store.get? name ∧ (∀ e ∈ plan, e.1.name ≠ name) ∨
      ∃ e ∈ plan, e.1.name = name ∧ (remembered plan store).get? name = some e.2 := by
  induction plan generalizing store with
  | nil => exact .inl ⟨rfl,by simp⟩
  | cons e rest ih =>
    rcases ih (store.insert e.1.name e.2) with ⟨hget,hnone⟩ | ⟨e',he',hname,hget⟩
    · by_cases hname : e.1.name = name
      · refine .inr ⟨e,by simp,hname,?_⟩
        rw [remembered,List.foldl_cons]
        exact hget.trans (by simp [hname])
      · refine .inl ⟨?_,by simpa [hname] using hnone⟩
        rw [remembered,List.foldl_cons]
        exact hget.trans (by simp [Ne.symm hname])
    · exact .inr ⟨e',by simp [he'],hname,hget⟩

theorem inStep_remembered {renderers : List Renderer} {candidate : ConfigTree} {plan : Plan}
    (h : renderAll candidate renderers = .ok plan) (store : Store) :
    InStep renderers candidate (remembered plan store) := by
  obtain ⟨hmap,hall⟩ := renderAll_ok h
  intro renderer hr
  rw [← hmap] at hr
  obtain ⟨e,he,rfl⟩ := List.mem_map.mp hr
  rcases get?_remembered plan store e.1.name with ⟨-,hnone⟩ | ⟨e',he',hname,hget⟩
  · exact absurd rfl (hnone e he)
  · refine ⟨e'.1,?_,hname,e'.2,hall e' he',hget⟩
    rw [← hmap]
    exact List.mem_map_of_mem he'

/-! ### One apply after another -/

/-- One call: what is to be applied, and how its operations turn out. -/
structure Call (F : Type) where
  candidate : ConfigTree
  fate : ℕ → HostOp → HostFate F

variable (machine) (renderers : List Renderer)

/-- A call changes the machine; the last configuration that went through is noted. -/
def Call.step (v : (M × Store) × Option ConfigTree) (call : Call F) :
    (M × Store) × Option ConfigTree :=
  match (apply renderers call.candidate).run (onHost machine) call.fate 0 v.1 with
  | (some (.ok ()),w) => (w,some call.candidate)
  | (_,w) => (w,v.2)

/-- Whatever else happens in the call, what it records is recorded. -/
def Call.SavesWork (v : (M × Store) × Option ConfigTree) (call : Call F) : Prop :=
  (apply renderers call.candidate).Obeys (onHost machine) Pipeline.SavesWork call.fate 0 v.1

/-- What is remembered is what was there at first, or in step with the last configuration that
went through. -/
def Remembers (store : Store) (v : (M × Store) × Option ConfigTree) : Prop :=
  match v.2 with
  | none => v.1.2 = store
  | some config => InStep renderers config v.1.2

theorem step_remembers {store : Store} {v : (M × Store) × Option ConfigTree} {call : Call F}
    (hsaves : call.SavesWork machine renderers v) (h : Remembers renderers store v) :
    Remembers renderers store (call.step machine renderers v) := by
  have hrun := (apply_ends renderers call.candidate v.1).run hsaves
  rw [Call.step]
  rcases hr : (apply renderers call.candidate).run (onHost machine) call.fate 0 v.1 with
    ⟨_ | e | _,w⟩
  · rw [hr] at hrun
    have hstore : w.2 = v.1.2 := hrun
    simpa [Remembers,hstore] using h
  · rw [hr] at hrun
    have hstore : w.2 = v.1.2 := by
      rcases hrun with ⟨hok,-⟩ | ⟨-,hstore⟩
      · cases hok
      · exact hstore
    simpa [Remembers,hstore] using h
  · rw [hr] at hrun
    rcases hrun with ⟨-,plan,hplan,hstore⟩ | ⟨⟨e,he⟩,-⟩
    · have hstore : w.2 = remembered plan v.1.2 := hstore
      show InStep renderers call.candidate w.2
      rw [hstore]
      exact inStep_remembered hplan v.1.2
    · cases he

/-- A refused configuration costs no operation, and after any calls, whatever fails in them but the
recording itself, what the renderers remember belongs to the last configuration that went through. -/
theorem applied_in_step :
    (∀ candidate, Refused renderers candidate → ∃ e, apply renderers candidate = .done (.error e)) ∧
    ∀ (w : M × Store) (calls : List (Call F)),
      Along (Call.step machine renderers) (fun v call => call.SavesWork machine renderers v) (w,none) calls →
      Remembers renderers w.2 (calls.foldl (Call.step machine renderers) (w,none)) := by
  refine ⟨fun candidate => apply_refused,fun w calls hcalls => ?_⟩
  exact hcalls.invariant (fun v call hv hcall => step_remembers machine renderers hcall hv) rfl

end

/-- A renderer of one file that says whether there is anything to configure. -/
def indicator (name path : String) : Renderer where
  name := name
  render config :=
    .ok ⟨[],SortedMap.empty.insert path (if config.isEmpty then "off" else "on"),[]⟩
  check _ := .ok ()
  apply artifacts := writeFiles artifacts.files.entries
  verify := verifyFiles
  apply_unsaved _ := writeFiles_unsaved _
  verify_unsaved := verifyFiles_unsaved

/-- A machine of nothing but files, on which writing one path may fail. -/
def files : Exec HostOp HostOp.Answer (Option String) (SortedMap String String)
  | .write path contents, broken, w =>
    if broken = some path then (some (.error "Read-only file system (os error 30)"),w)
    else (some (.ok ()),w.insert path contents)
  | .read path, _, w => (some (.ok (w.get? path)),w)
  | .load _, _, w => (some none,w)
  | .sync _, _, w | .run _, _, w | .runWithSecret _ _, _, w | .save _ _, _, w => (some (.ok ()),w)

/-- A configuration that goes through, and then one for which the second file cannot be written. -/
def brokenOff : List (Call (Option String)) :=
  [⟨.new,fun _ _ => ⟨none,.ok⟩⟩,
    ⟨(ConfigTree.new.setFlag ["system"]).2,fun _ _ => ⟨some "/second",.ok⟩⟩]

def indicators : List Renderer := [indicator "first" "/first",indicator "second" "/second"]

/-- Both renderers remember the configuration that went through. -/
theorem brokenOff_in_step :
    Remembers indicators SortedMap.empty
      (brokenOff.foldl (Call.step files indicators) ((SortedMap.empty,SortedMap.empty),none)) ∧
    (brokenOff.foldl (Call.step files indicators) ((SortedMap.empty,SortedMap.empty),none)).2 =
      some .new := by
  refine ⟨(applied_in_step files indicators).2 (SortedMap.empty,SortedMap.empty) brokenOff
    (along_of_forall (fun call hcall v => ?_)),by decide +kernel⟩
  refine Prog.obeys_of_forall (fun n op w name artifacts _ => ?_)
  simp only [brokenOff,List.mem_cons,List.not_mem_nil,or_false] at hcall
  obtain rfl | rfl := hcall <;> rfl

end Nightshade.Configd.Pipeline
