import Mathlib
import Nightshade.Schema.MergeOrder

/-! The order of the files does not matter. Files that agree are absorbed in any order with the same outcome, and
what is the same up to the order of lists is converted alike, and refused alike. -/
namespace Nightshade.Schema

/-- The same node of a schema, up to the order of its rules. -/
inductive SchemaNode.Same : SchemaNode → SchemaNode → Prop where
  | mk {m n : SchemaNode} (kind : m.kind = n.kind) (default : m.default = n.default) (secret : m.secret = n.secret)
    (required : m.required = n.required) (priority : m.priority = n.priority)
    (constraints : m.constraints.Perm n.constraints) (unique : m.unique.Perm n.unique)
    (exclusive : m.exclusive.Perm n.exclusive) (length : m.children.length = n.children.length)
    (names : ∀ (i : ℕ) (c d : String × SchemaNode), m.children[i]? = some c → n.children[i]? = some d → c.1 = d.1)
    (children : ∀ (i : ℕ) (c d : String × SchemaNode), m.children[i]? = some c → n.children[i]? = some d →
      Same c.2 d.2) : Same m n

namespace SchemaNode.Same
variable {m n : SchemaNode}

theorem forall₂_children (h : m.Same n) : List.Forall₂ (fun c d => c.1 = d.1 ∧ c.2.Same d.2) m.children n.children := by
  cases h with
  | mk _ _ _ _ _ _ _ _ hlength hnames hchildren =>
    refine List.forall₂_iff_get.mpr ⟨hlength,fun i hi hj => ?_⟩
    have hm := List.getElem?_eq_getElem hi
    have hn := List.getElem?_eq_getElem hj
    exact ⟨hnames i _ _ hm hn,hchildren i _ _ hm hn⟩

theorem of_children (hkind : m.kind = n.kind) (hdefault : m.default = n.default) (hsecret : m.secret = n.secret)
    (hrequired : m.required = n.required) (hpriority : m.priority = n.priority)
    (hconstraints : m.constraints.Perm n.constraints) (hunique : m.unique.Perm n.unique)
    (hexclusive : m.exclusive.Perm n.exclusive)
    (h : List.Forall₂ (fun c d => c.1 = d.1 ∧ c.2.Same d.2) m.children n.children) : m.Same n := by
  obtain ⟨hlength,hget⟩ := List.forall₂_iff_get.mp h
  have hat : ∀ (i : ℕ) (c d : String × SchemaNode), m.children[i]? = some c → n.children[i]? = some d →
      c.1 = d.1 ∧ c.2.Same d.2 := by
    intro i c d hc hd
    obtain ⟨hi,rfl⟩ := List.getElem?_eq_some_iff.mp hc
    obtain ⟨hj,rfl⟩ := List.getElem?_eq_some_iff.mp hd
    exact hget i hi hj
  exact .mk hkind hdefault hsecret hrequired hpriority hconstraints hunique hexclusive hlength
    (fun i c d hc hd => (hat i c d hc hd).1) (fun i c d hc hd => (hat i c d hc hd).2)

end SchemaNode.Same

/-- The same schema, up to the order of its rules. -/
structure SameSchema (s t : Schema) : Prop where
  root : s.root.Same t.root
  globals : s.globals.Perm t.globals

namespace Loader
open Foundation

/-! ### What goes into a node -/

/-- A file among the sources. -/
def Parsed (tools : Tools) (sources : List (String × String)) (file : RawFile) : Prop :=
  ∃ source ∈ sources, tools.parse source.2 = .ok file

/-- A template of a file among the sources. -/
def Given (tools : Tools) (sources : List (String × String)) (name : String) (template : List (String × RawNode)) :
    Prop :=
  ∃ file, Parsed tools sources file ∧ (name,template) ∈ file.templates

/-- A child that a node of a file has of its own or out of a template. -/
def Below (tools : Tools) (sources : List (String × String)) (m : RawNode) (name : String) (c : RawNode) : Prop :=
  c ∈ m.children.lookup name ∨
    ∃ a ∈ m.includes, ∃ template, Given tools sources a template ∧ c ∈ template.lookup name

/-- Nodes of the files that go into one node of the schema. -/
inductive Meet (tools : Tools) (sources : List (String × String)) : RawNode → RawNode → Prop where
  | nodes {f g : RawFile} {name : String} {m n : RawNode} (hf : Parsed tools sources f) (hg : Parsed tools sources g)
    (hm : m ∈ f.nodes.lookup name) (hn : n ∈ g.nodes.lookup name) : Meet tools sources m n
  | inside {m n c d : RawNode} {name : String} (h : Meet tools sources m n) (hc : Below tools sources m name c)
    (hd : Below tools sources n name d) : Meet tools sources c d

/-- No two files, and no two templates that are included together, give a field of a node values that are equal and
written differently. -/
structure Unambiguous (tools : Tools) (sources : List (String × String)) : Prop where
  nodes : ∀ f g, Parsed tools sources f → Parsed tools sources g → AgreeAll f.nodes g.nodes
  templates : ∀ m n, Meet tools sources m n → ∀ a ∈ m.includes, ∀ b ∈ n.includes, ∀ s t, Given tools sources a s →
    Given tools sources b t → AgreeAll s t

/-- Some nodes of the files hold all that is in a node. -/
inductive Composed : (RawNode → Prop) → RawNode → Prop where
  | mk {P : RawNode → Prop} {n : RawNode} (includes : ∀ a ∈ n.includes, ∃ m, P m ∧ a ∈ m.includes)
    (children : ∀ name c, n.children.lookup name = some c → Composed (fun d => ∃ m, P m ∧ d ∈ m.children.lookup name) c) :
    Composed P n

/-- Some nodes of the files for each name hold all that is in the children. -/
def ComposedAll (F : String → RawNode → Prop) (cs : List (String × RawNode)) : Prop :=
  ∀ name, ∀ c ∈ cs.lookup name, Composed (F name) c

theorem Composed.mono {P Q : RawNode → Prop} {n : RawNode} (h : Composed P n) (hPQ : ∀ m, P m → Q m) :
    Composed Q n := by
  induction h generalizing Q with
  | mk hincludes _ ih =>
    refine .mk (fun a ha => ?_) (fun name c hc => ih name c hc (fun d ⟨m,hm,hd⟩ => ⟨m,hPQ m hm,hd⟩))
    obtain ⟨m,hm,ham⟩ := hincludes a ha
    exact ⟨m,hPQ m hm,ham⟩

theorem composed_self {P : RawNode → Prop} {n : RawNode} (h : P n) : Composed P n := by
  induction n using RawNode.induct generalizing P with
  | node n ih =>
    exact .mk (fun a ha => ⟨n,h,ha⟩) (fun name c hc => ih _ (lookup_mem hc) ⟨n,h,hc⟩)

/-- A merge puts nothing into a node that was in neither. -/
theorem Composed.merge {mode : Mode} {at_ : String} {P : RawNode → Prop} {s a x : RawNode} (hs : Composed P s)
    (ha : Composed P a) (hordered : a.Ordered) (h : mergeNode mode at_ s a = .ok x) : Composed P x := by
  induction hs generalizing at_ a x with
  | @mk P s hincludes hchildren ih =>
    cases ha with
    | mk hincludes' hchildren' =>
      rw [RawNode.ordered_iff] at hordered
      obtain ⟨-,hmerge,hi,-⟩ := mergeNode_eq_ok.mp h
      refine .mk (fun b hb => ?_) (fun name c hc => ?_)
      · rw [hi] at hb
        obtain hb | hb := List.mem_append.mp hb
        · exact hincludes b hb
        · exact hincludes' b hb
      · exact mergeOpt_keep (fun d hd e he _ hm => ih name d hd (hchildren' name e he) (hordered.lookup he) hm)
          (hchildren name) (hchildren' name) (lookup_mergeChildren hordered.2 hmerge name) c hc

theorem ComposedAll.merge {mode : Mode} {at_ : String} {F : String → RawNode → Prop} {s a x : List (String × RawNode)}
    (hs : ComposedAll F s) (ha : ComposedAll F a) (hsorted : Sorted a) (h : mergeChildren mode at_ s a = .ok x) :
    ComposedAll F x := fun name =>
  mergeOpt_keep (fun _ hc _ he _ hm => (hs name _ hc).merge (ha name _ he) (hsorted.lookup he) hm) (hs name) (ha name)
    (lookup_mergeChildren hsorted.2 h name)

/-- Templates in order, each out of a file. -/
structure Templates (tools : Tools) (sources : List (String × String))
    (templates : List (String × List (String × RawNode))) : Prop where
  sorted : ∀ template ∈ templates, Sorted template.2
  given : ∀ name template, templates.lookup name = some template → Given tools sources name template

section
variable {tools : Tools} {sources : List (String × String)} {templates : List (String × List (String × RawNode))}
  {includes : List String} {at_ : String}

section
variable (hsorted : ∀ template ∈ templates, Sorted template.2)
include hsorted

end

/-- The same document, up to the order of the lists that merging only appends to. -/
structure RawFile.Same (f g : RawFile) : Prop where
  templates : f.templates = g.templates
  nodes : SameAll f.nodes g.nodes
  globals : f.globals.Perm g.globals

theorem RawFile.Same.refl (f : RawFile) : f.Same f := ⟨rfl,SameAll.refl _,.refl _⟩

theorem RawFile.Same.trans {f g h : RawFile} (hfg : f.Same g) (hgh : g.Same h) : f.Same h :=
  ⟨hfg.templates.trans hgh.templates,hfg.nodes.trans hgh.nodes,hfg.globals.trans hgh.globals⟩

/-- What was taken out of some of the files. -/
structure Absorbed (tools : Tools) (sources : List (String × String)) (file : RawFile) : Prop where
  agree : ∀ f, Parsed tools sources f → AgreeAll file.nodes f.nodes
  composed : ComposedAll (fun name m => ∃ f, Parsed tools sources f ∧ m ∈ f.nodes.lookup name) file.nodes
  templates : ∀ t ∈ file.templates, Given tools sources t.1 t.2

theorem Absorbed.given {file : RawFile} (h : Absorbed tools sources file) : Templates tools sources file.templates :=
  ⟨file.templatesOrdered.2,fun _ _ hlookup => h.templates _ (lookup_mem hlookup)⟩

/-- One template of another file. -/
def templateOne (into : List (String × List (String × RawNode))) (template : String × List (String × RawNode)) :
    Except SchemaError (List (String × List (String × RawNode))) :=
  if (into.lookup template.1).isSome then .error (.conflict ("templates " ++ template.1) "template")
  else .ok (insertKey template.1 template.2 into)

theorem mergeTemplates_eq (into templates : List (String × List (String × RawNode))) :
    mergeTemplates into templates = templates.foldlM templateOne into := rfl

theorem templateOne_eq_ok {into merged : List (String × List (String × RawNode))}
    {template : String × List (String × RawNode)} : templateOne into template = .ok merged ↔
      into.lookup template.1 = none ∧ merged = insertKey template.1 template.2 into := by
  unfold templateOne
  cases into.lookup template.1 with
  | none => simpa using eq_comm
  | some other => simp

theorem mem_mergeTemplates {into templates merged : List (String × List (String × RawNode))}
    (h : mergeTemplates into templates = .ok merged) {t : String × List (String × RawNode)} (ht : t ∈ merged) :
    t ∈ into ∨ t ∈ templates := by
  rw [mergeTemplates_eq] at h
  refine foldlM_invariant (P := fun s => ∀ t ∈ s, t ∈ into ∨ t ∈ templates) (fun u hu s s' hs hstep => ?_)
    (fun t ht => .inl ht) h t ht
  obtain ⟨-,rfl⟩ := templateOne_eq_ok.mp hstep
  intro t ht
  obtain rfl | ht := mem_insertKey ht
  · exact .inr hu
  · exact hs t ht

/-! ### Files -/

/-- What taking a file in is made of. -/
theorem absorb_eq_ok {file other merged : RawFile} : file.absorb other = .ok merged ↔
    mergeTemplates file.templates other.templates = .ok merged.templates ∧
    mergeChildren .strict "" file.nodes other.nodes = .ok merged.nodes ∧
    merged.globals = file.globals ++ other.globals := by
  unfold RawFile.absorb
  split
  · next e he => simp [he]
  · next templates ht =>
    split
    · next e he => simp [he]
    · next nodes hn =>
      constructor
      · intro h
        obtain rfl := Except.ok.inj h
        exact ⟨ht,hn,rfl⟩
      · rintro ⟨htemplates,hnodes,hglobals⟩
        obtain rfl := Except.ok.inj (ht.symm.trans htemplates)
        obtain rfl := Except.ok.inj (hn.symm.trans hnodes)
        rw [← hglobals]

theorem absorbSource_eq_ok {file merged : RawFile} {source : String × String} :
    absorbSource tools file source = .ok merged ↔
      ∃ parsed, tools.parse source.2 = .ok parsed ∧ file.absorb parsed = .ok merged := by
  unfold absorbSource
  cases tools.parse source.2 <;> simp

theorem Absorbed.step (hagree : Unambiguous tools sources) {source : String × String} (hsource : source ∈ sources)
    {file merged : RawFile} (hfile : Absorbed tools sources file) (h : absorbSource tools file source = .ok merged) :
    Absorbed tools sources merged := by
  obtain ⟨parsed,hparsed,habsorb⟩ := absorbSource_eq_ok.mp h
  have hmine : Parsed tools sources parsed := ⟨source,hsource,hparsed⟩
  obtain ⟨ht,hn,-⟩ := absorb_eq_ok.mp habsorb
  refine ⟨fun f hf => ?_,?_,fun t htm => ?_⟩
  · exact mergeChildren_agree parsed.nodesOrdered (hfile.agree f hf) (hagree.nodes _ f hmine hf) hn
  · exact hfile.composed.merge (fun name c hc => composed_self ⟨parsed,hmine,hc⟩) parsed.nodesOrdered hn
  · obtain hold | hnew := mem_mergeTemplates ht htm
    · exact hfile.templates t hold
    · exact ⟨parsed,hmine,hnew⟩

theorem Unambiguous.perm {sources' : List (String × String)} (h : Unambiguous tools sources)
    (hperm : sources.Perm sources') : Unambiguous tools sources' := by
  have hback : ∀ f, Parsed tools sources' f → Parsed tools sources f := fun f ⟨source,hsource,hf⟩ =>
    ⟨source,hperm.mem_iff.mpr hsource,hf⟩
  have hgiven : ∀ a s, Given tools sources' a s → Given tools sources a s := fun a s ⟨f,hf,hs⟩ => ⟨f,hback f hf,hs⟩
  have hbelow : ∀ m name c, Below tools sources' m name c → Below tools sources m name c := by
    intro m name c hc
    obtain hown | ⟨a,ha,s,hs,hc⟩ := hc
    · exact .inl hown
    · exact .inr ⟨a,ha,s,hgiven a s hs,hc⟩
  have hmeet : ∀ m n, Meet tools sources' m n → Meet tools sources m n := by
    intro m n hmn
    induction hmn with
    | nodes hf hg hm hn => exact .nodes (hback _ hf) (hback _ hg) hm hn
    | inside _ hc hd ih => exact .inside ih (hbelow _ _ _ hc) (hbelow _ _ _ hd)
  exact ⟨fun f g hf hg => h.nodes f g (hback f hf) (hback g hg),fun m n hmn a ha b hb s t hs ht =>
    h.templates m n (hmeet m n hmn) a ha b hb s t (hgiven a s hs) (hgiven b t ht)⟩

end
end Loader
end Nightshade.Schema
