import Mathlib
import Nightshade.Schema.Loader

/-! Merging in any order. Where the files do not give a field values that are equal and written differently,
two of them may change places: the merge fails as before, or gives the same up to the order of additive lists. -/
namespace Nightshade.Schema.Loader
open Foundation

/-! ### Fields that may be set once -/

/-- Values that compare equal are written alike. -/
def FieldAgree {α : Type} [BEq α] (a b : Option α) : Prop := ∀ x ∈ a, ∀ y ∈ b, (x == y ∨ y == x) → x = y

section
variable {α : Type} [BEq α] {a b s x y : Option α} {mode : Mode} {at_ field : String}

theorem FieldAgree.symm (h : FieldAgree a b) : FieldAgree b a := fun y hy x hx he => (h x hx y hy he.symm).symm

theorem mergeField_eq_ok : mergeField mode at_ field a b = .ok x ↔
    (b = none ∧ x = a) ∨ ∃ v, b = some v ∧ x = some v ∧ (mode = .strict → ∀ u ∈ a, u == v) := by
  cases b with
  | none =>
    constructor
    · intro h
      exact .inl ⟨rfl,(Except.ok.inj h).symm⟩
    · rintro (⟨-,rfl⟩ | ⟨v,hv,-⟩)
      · rfl
      · cases hv
  | some v =>
    have hstep : mergeField mode at_ field a (some v) = .ok x ↔ x = some v ∧ (mode = .strict → ∀ u ∈ a, u == v) := by
      unfold mergeField
      cases a with
      | none => simpa using eq_comm
      | some u =>
        dsimp only
        split
        · next h => simp [h]
        · next h =>
          have hsame : mode = .strict → u == v := fun hmode => of_not_not (fun hne => h ⟨hmode,hne⟩)
          constructor
          · intro hx
            exact ⟨(Except.ok.inj hx).symm,fun hmode w hw => Option.some.inj hw ▸ hsame hmode⟩
          · rintro ⟨rfl,-⟩
            rfl
    rw [hstep]
    constructor
    · rintro ⟨rfl,hsame⟩
      exact .inr ⟨v,rfl,rfl,hsame⟩
    · rintro (⟨h,-⟩ | ⟨w,hw,rfl,hsame⟩)
      · cases h
      · cases hw
        exact ⟨rfl,hsame⟩

/-- What is merged agrees with whatever both agree with. -/
theorem FieldAgree.merge (hsb : FieldAgree s b) (hab : FieldAgree a b)
    (h : mergeField mode at_ field s a = .ok x) : FieldAgree x b := by
  obtain ⟨-,rfl⟩ | ⟨v,rfl,rfl,-⟩ := mergeField_eq_ok.mp h
  · exact hsb
  · exact hab

end

/-- The fields with values that a file may write in more than one way agree. -/
structure Definition.Agree (d e : Definition) : Prop where
  values : FieldAgree d.values e.values
  accepts : FieldAgree d.accepts e.accepts
  default : FieldAgree d.default e.default
  tag : FieldAgree d.tag e.tag

section
variable {a b s x y : Definition} {mode : Mode} {at_ : String}

theorem Definition.Agree.symm (h : a.Agree b) : b.Agree a :=
  ⟨h.values.symm,h.accepts.symm,h.default.symm,h.tag.symm⟩

theorem mergeDefinition_eq_ok : mergeDefinition mode at_ a b = .ok x ↔
    mergeField mode at_ "kind" a.kind b.kind = .ok x.kind ∧
    mergeField mode at_ "help" a.help b.help = .ok x.help ∧
    mergeField mode at_ "ty" a.ty b.ty = .ok x.ty ∧
    mergeField mode at_ "range" a.range b.range = .ok x.range ∧
    mergeField mode at_ "values" a.values b.values = .ok x.values ∧
    mergeField mode at_ "regex" a.regex b.regex = .ok x.regex ∧
    mergeField mode at_ "accepts" a.accepts b.accepts = .ok x.accepts ∧
    mergeField mode at_ "default" a.default b.default = .ok x.default ∧
    mergeField mode at_ "secret" a.secret b.secret = .ok x.secret ∧
    mergeField mode at_ "required" a.required b.required = .ok x.required ∧
    mergeField mode at_ "priority" a.priority b.priority = .ok x.priority ∧
    mergeField mode at_ "tag" a.tag b.tag = .ok x.tag := by
  unfold mergeDefinition
  obtain ⟨k,h,t,r,v,e,c,d,s,q,p,g⟩ := x
  simp only [bind_eq_ok,pure,Except.pure,Except.ok.injEq,Definition.mk.injEq]
  constructor
  · rintro ⟨_,h₁,_,h₂,_,h₃,_,h₄,_,h₅,_,h₆,_,h₇,_,h₈,_,h₉,_,h₁₀,_,h₁₁,_,h₁₂,rfl,rfl,rfl,rfl,rfl,rfl,rfl,rfl,
      rfl,rfl,rfl,rfl⟩
    exact ⟨h₁,h₂,h₃,h₄,h₅,h₆,h₇,h₈,h₉,h₁₀,h₁₁,h₁₂⟩
  · rintro ⟨h₁,h₂,h₃,h₄,h₅,h₆,h₇,h₈,h₉,h₁₀,h₁₁,h₁₂⟩
    exact ⟨_,h₁,_,h₂,_,h₃,_,h₄,_,h₅,_,h₆,_,h₇,_,h₈,_,h₉,_,h₁₀,_,h₁₁,_,h₁₂,rfl,rfl,rfl,rfl,rfl,rfl,rfl,rfl,
      rfl,rfl,rfl,rfl⟩

theorem Definition.Agree.merge (hsb : s.Agree b) (hab : a.Agree b) (h : mergeDefinition mode at_ s a = .ok x) :
    x.Agree b := by
  obtain ⟨-,-,-,-,hvalues,-,haccepts,hdefault,-,-,-,htag⟩ := mergeDefinition_eq_ok.mp h
  exact ⟨hsb.values.merge hab.values hvalues,hsb.accepts.merge hab.accepts haccepts,
    hsb.default.merge hab.default hdefault,hsb.tag.merge hab.tag htag⟩

end
/-! ### Nodes -/

/-- Nodes of two files, with all that is below both, agree. -/
inductive RawNode.Agree : RawNode → RawNode → Prop where
  | mk {m n : RawNode} (definition : m.definition.Agree n.definition)
    (children : ∀ name c d, m.children.lookup name = some c → n.children.lookup name = some d → Agree c d) :
    Agree m n

/-- The same node, up to the order of the lists that merging only appends to. -/
inductive RawNode.Same : RawNode → RawNode → Prop where
  | mk {m n : RawNode} (definition : m.definition = n.definition) (includes : m.includes.Perm n.includes)
    (excludes : m.excludes.Perm n.excludes) (constraints : m.constraints.Perm n.constraints)
    (unique : m.unique.Perm n.unique) (exclusive : m.mutuallyExclusive.Perm n.mutuallyExclusive)
    (names : ∀ name, (m.children.lookup name).isSome = (n.children.lookup name).isSome)
    (children : ∀ name c d, m.children.lookup name = some c → n.children.lookup name = some d → Same c d) :
    Same m n

/-- Children of one name agree. -/
def AgreeAll (cs ds : List (String × RawNode)) : Prop :=
  ∀ name, ∀ c ∈ cs.lookup name, ∀ d ∈ ds.lookup name, c.Agree d

/-- The same children. -/
def SameAll (cs ds : List (String × RawNode)) : Prop :=
  ∀ name, Option.Rel RawNode.Same (cs.lookup name) (ds.lookup name)

section
variable {m n : RawNode}

theorem RawNode.Agree.children (h : m.Agree n) : AgreeAll m.children n.children := by
  cases h with
  | mk _ hchildren => exact fun name c hc d hd => hchildren name c d hc hd

theorem RawNode.Agree.definition (h : m.Agree n) : m.definition.Agree n.definition := by
  cases h with
  | mk hdefinition _ => exact hdefinition

theorem RawNode.Same.children (h : m.Same n) : SameAll m.children n.children := by
  cases h with
  | mk _ _ _ _ _ _ hnames hchildren =>
    intro name
    have hname := hnames name
    cases hm : m.children.lookup name with
    | none =>
      cases hn : n.children.lookup name with
      | none => exact .none
      | some d => simp [hm,hn] at hname
    | some c =>
      cases hn : n.children.lookup name with
      | none => simp [hm,hn] at hname
      | some d => exact .some (hchildren name c d hm hn)

/-- Nodes that are the same but for their children are the same if these are. -/
theorem RawNode.Same.of_children (hdefinition : m.definition = n.definition) (hincludes : m.includes.Perm n.includes)
    (hexcludes : m.excludes.Perm n.excludes) (hconstraints : m.constraints.Perm n.constraints)
    (hunique : m.unique.Perm n.unique) (hexclusive : m.mutuallyExclusive.Perm n.mutuallyExclusive)
    (hchildren : SameAll m.children n.children) : m.Same n := by
  refine .mk hdefinition hincludes hexcludes hconstraints hunique hexclusive (fun name => isSome_of_rel (hchildren name))
    (fun name c d hc hd => ?_)
  have hname := hchildren name
  rw [hc,hd] at hname
  cases hname with
  | some h => exact h

theorem RawNode.Same.refl (n : RawNode) : n.Same n := by
  induction n using RawNode.induct with
  | node n ih =>
    refine .of_children rfl (.refl _) (.refl _) (.refl _) (.refl _) (.refl _) (fun name => ?_)
    cases h : n.children.lookup name with
    | none => exact .none
    | some c => exact .some (ih _ (lookup_mem h))

theorem SameAll.refl (cs : List (String × RawNode)) : SameAll cs cs := by
  intro name
  cases cs.lookup name with
  | none => exact .none
  | some c => exact .some (.refl c)

theorem RawNode.Agree.symm (h : m.Agree n) : n.Agree m := by
  induction h with
  | mk hdefinition _ ih => exact .mk hdefinition.symm (fun name c d hc hd => ih name d c hd hc)

theorem RawNode.Same.trans {l m n : RawNode} (h : l.Same m) (h' : m.Same n) : l.Same n := by
  induction h generalizing n with
  | @mk l m hd hi he hc hu hx hnames hchildren ih =>
    cases h' with
    | mk hd' hi' he' hc' hu' hx' hnames' hchildren' =>
      refine .mk (hd.trans hd') (hi.trans hi') (he.trans he') (hc.trans hc') (hu.trans hu') (hx.trans hx')
        (fun name => (hnames name).trans (hnames' name)) (fun name c e hl hn => ?_)
      obtain ⟨d,hm⟩ := Option.isSome_iff_exists.mp ((hnames name).symm.trans (by rw [hl]; rfl))
      exact ih name c d hl hm (hchildren' name d e hm hn)

theorem SameAll.trans {bs cs ds : List (String × RawNode)} (h : SameAll bs cs) (h' : SameAll cs ds) :
    SameAll bs ds := by
  intro name
  have hb := h name
  have hc := h' name
  generalize bs.lookup name = x at hb
  generalize cs.lookup name = y at hb hc
  generalize ds.lookup name = z at hc
  cases hb with
  | none => exact hc
  | some hxy =>
    cases hc with
    | some hyz => exact .some (hxy.trans hyz)

end

/-! ### One name at a time -/

/-- What a merge makes of the two children of a name. -/
def mergeOpt (mode : Mode) (at_ : String) (existing : Option RawNode) : Option RawNode → Except SchemaError (Option RawNode)
  | none => .ok existing
  | some node =>
    match existing with
    | none => .ok (some node)
    | some existing => (mergeNode mode at_ existing node).map some

section
variable {mode : Mode} {at_ : String} {into cs merged : List (String × RawNode)}

/-- A merge of children goes name by name. -/
theorem lookup_mergeChildren (hcs : KeySorted cs) (h : mergeChildren mode at_ into cs = .ok merged) (name : String) :
    mergeOpt mode (childAt at_ name) (into.lookup name) (cs.lookup name) = .ok (merged.lookup name) := by
  induction cs generalizing into with
  | nil =>
    rw [mergeChildren] at h
    obtain rfl := Except.ok.inj h
    rfl
  | cons e cs ih =>
    obtain ⟨hfirst,hcs⟩ := keySorted_cons.mp hcs
    obtain ⟨first,hsome,hnone,hrest⟩ := mergeChildren_cons.mp h
    have hlater := ih hcs hrest
    rw [lookup_insertKey] at hlater
    obtain ⟨key,node⟩ := e
    rw [lookup_cons_ite]
    by_cases hname : name = key
    · subst hname
      rw [if_pos rfl,lookup_eq_none_of_lt hfirst,mergeOpt] at hlater
      rw [if_pos rfl,← hlater]
      cases hinto : into.lookup name with
      | none => rw [hnone hinto,mergeOpt]
      | some existing =>
        rw [mergeOpt,hsome existing hinto]
        rfl
    · rw [if_neg hname] at hlater ⊢
      exact hlater

end

section
variable {at_ : String} {s a b x y : Option RawNode}

end

section
variable {at_ : String} {s a b x y : List (String × RawNode)}

end

/-- What is true of both children of a name, and of what they are merged to, is true of what the merge makes. -/
theorem mergeOpt_keep {mode : Mode} {at_ : String} {s a x : Option RawNode} {K : RawNode → Prop}
    (hnode : ∀ c ∈ s, ∀ e ∈ a, ∀ m, mergeNode mode at_ c e = .ok m → K m) (hs : ∀ c ∈ s, K c) (ha : ∀ e ∈ a, K e)
    (h : mergeOpt mode at_ s a = .ok x) : ∀ c ∈ x, K c := by
  cases a with
  | none =>
    obtain rfl := Except.ok.inj h
    exact hs
  | some e =>
    cases s with
    | none =>
      obtain rfl := Except.ok.inj h
      exact ha
    | some c =>
      obtain ⟨m,hm,rfl⟩ := map_eq_ok.mp h
      intro c' hc'
      exact Option.some.inj hc' ▸ hnode c rfl e rfl m hm

/-- What is merged out of two nodes agrees with whatever both agree with. -/
theorem mergeNode_agree {mode : Mode} {at_ : String} {s a b x : RawNode} (ha : a.Ordered) (hsb : s.Agree b)
    (hab : a.Agree b) (h : mergeNode mode at_ s a = .ok x) : x.Agree b := by
  induction s using RawNode.induct generalizing at_ a b x with
  | node s ih =>
    rw [RawNode.ordered_iff] at ha
    obtain ⟨hdefinition,hchildren,-⟩ := mergeNode_eq_ok.mp h
    refine .mk (hsb.definition.merge hab.definition hdefinition) (fun name c d hc hd => ?_)
    have hname := lookup_mergeChildren ha.2 hchildren name
    exact mergeOpt_keep (fun f hf e he _ hm => ih _ (lookup_mem hf) (ha.lookup he) (hsb.children name f hf d hd)
      (hab.children name e he d hd) hm) (fun f hf => hsb.children name f hf d hd)
      (fun e he => hab.children name e he d hd) hname c hc

/-! ### Children -/

section
variable {mode : Mode} {at_ : String} {s t a b x y : List (String × RawNode)}

theorem mergeChildren_agree (ha : Sorted a) (hsb : AgreeAll s b) (hab : AgreeAll a b)
    (h : mergeChildren mode at_ s a = .ok x) : AgreeAll x b := by
  intro name c hc d hd
  exact mergeOpt_keep (fun f hf e he _ hm => mergeNode_agree (ha.lookup he) (hsb name f hf d hd) (hab name e he d hd) hm)
    (fun f hf => hsb name f hf d hd) (fun e he => hab name e he d hd) (lookup_mergeChildren ha.2 h name) c hc

end
end Nightshade.Schema.Loader
