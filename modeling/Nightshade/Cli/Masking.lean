import Nightshade.Cli.Output
import Nightshade.Configd.State
import Nightshade.Schema.Shipped

/-! What a masked output tells about the secrets of a configuration. Trees are masked whatever
they look like; the values in lists of changes are not. -/
namespace Nightshade.Cli
open Schema Configd Foundation

/-! ### Outputs that differ in secrets only -/

mutual

/-- The same nodes with the same values, except that a leaf marked secret may have other ones. -/
def NodesAlike (schema : Schema) (at_ : Path) : Node → Node → Prop
  | ⟨c,.values vs⟩, ⟨d,.values ws⟩ =>
    c = d ∧ (vs = ws ∨ isSecret schema at_ = true ∧ vs ≠ [] ∧ ws ≠ [])
  | ⟨c,.interior cs⟩, ⟨d,.interior ds⟩ => c = d ∧ ChildrenAlike schema at_ cs ds
  | _, _ => False
termination_by structural n => n

def ChildrenAlike (schema : Schema) (at_ : Path) :
    List (String × Node) → List (String × Node) → Prop
  | [], [] => True
  | (name,n)::rest, (other,m)::more =>
    name = other ∧ NodesAlike schema (at_.child name) n m ∧ ChildrenAlike schema at_ rest more
  | _, _ => False
termination_by structural cs => cs

end

def TreesAlike (schema : Schema) (tree other : ConfigTree) : Prop :=
  NodesAlike schema Path.root tree.root other.root

structure ChangeAlike (schema : Schema) (c d : Change) : Prop where
  path : c.path = d.path
  op : c.op = d.op
  shape : c.value.isSome = d.value.isSome
  value : isSecret schema c.path = false → c.value = d.value

def ChangesAlike (schema : Schema) : List Change → List Change → Prop := List.Forall₂ (ChangeAlike schema)

structure RevisionAlike (schema : Schema) (r q : RevisionInfo) : Prop where
  others : {r with changes := []} = {q with changes := []}
  changes : ChangesAlike schema r.changes q.changes

/-- The text of a refused commit as it is shown: the changes since the base, as far as they are
remembered, and the session's own. -/
def refusal (base now : ℕ) (underneath : Option (List Change)) (own : List Change) : String :=
  let list := fun (changes : List Change) =>
    String.join (changes.map (fun c => "  " ++ c.display ++ "\n"))
  "the running configuration has changed since this session started (it was revision " ++
    toString base ++ ", it is now revision " ++ toString now ++ ").\n" ++
    (match underneath with
     | some changes => "\nwhat changed underneath you:\n" ++ list changes
     | none =>
       "\nthat was too long ago to show what changed; " ++
       "`compare` against running to see where you stand.\n") ++
    "\nyour own uncommitted changes:\n" ++ list own ++
    "\nuse `discard` to start again from the current configuration." ++ "\n"

/-- What a session is told whose commit is refused because others moved first. -/
theorem refusal_told (s : State) (base : ℕ) (candidate : ConfigTree) :
    ∃ message, s.changedUnderneath base candidate = .failed .conflict message ∧
      message ++ "\n" = refusal base s.generation
        ((s.history.find? (fun e => e.1 = base)).map (fun e => diff e.2 s.running))
        (diff s.running candidate) := by
  refine ⟨_,rfl,?_⟩
  unfold refusal
  cases s.history.find? (fun e => e.1 = base) with
  | none => rfl
  | some e => rfl

/-- Outputs of the same shape that differ in the values of leaves marked secret only. -/
inductive Alike (schema : Schema) {I : Type} : Output I → Output I → Prop where
  | same (o : Output I) : Alike schema o o
  | refused (base now : ℕ) (underneath underneath' : Option (List Change)) (own own' : List Change)
      (hunderneath : Option.Rel (ChangesAlike schema) underneath underneath')
      (hown : ChangesAlike schema own own') :
      Alike schema (.text (refusal base now underneath own)) (.text (refusal base now underneath' own'))
  | config {tree tree' : ConfigTree} (h : TreesAlike schema tree tree') :
      Alike schema (.config tree) (.config tree')
  | configDiff {candidate candidate' running running' : ConfigTree}
      (hcandidate : TreesAlike schema candidate candidate') (hrunning : TreesAlike schema running running') :
      Alike schema (.configDiff candidate running) (.configDiff candidate' running')
  | changes {list list' : List Change} (h : ChangesAlike schema list list') :
      Alike schema (.changes list) (.changes list')
  | revisions {log log' : List RevisionInfo} (h : List.Forall₂ (RevisionAlike schema) log log') :
      Alike schema (.revisions log) (.revisions log')

/-! ### Trees -/

theorem mask_values {schema : Schema} {at_ : Path} {c d : Option String} {vs ws : List String}
    (h : NodesAlike schema at_ ⟨c,.values vs⟩ ⟨d,.values ws⟩) :
    maskNode schema at_ ⟨c,.values vs⟩ = maskNode schema at_ ⟨d,.values ws⟩ := by
  rw [NodesAlike] at h
  obtain ⟨rfl,hvalues⟩ := h
  obtain rfl | ⟨hsecret,hvs,hws⟩ := hvalues
  · rfl
  · simp [maskNode,hsecret,hvs,hws]

theorem mask_children {schema : Schema} {at_ : Path} (cs : List (String × Node))
    (hnodes : ∀ e ∈ cs, ∀ at_ m,
      NodesAlike schema at_ e.2 m → maskNode schema at_ e.2 = maskNode schema at_ m) :
    ∀ ds, ChildrenAlike schema at_ cs ds → maskAll schema at_ cs = maskAll schema at_ ds := by
  induction cs with
  | nil =>
    intro ds h
    cases ds with
    | nil => rfl
    | cons e ds => exact absurd h (by simp [ChildrenAlike])
  | cons e cs ih =>
    intro ds h
    cases ds with
    | nil => exact absurd h (by simp [ChildrenAlike])
    | cons e' ds =>
      rw [ChildrenAlike] at h
      obtain ⟨hname,hnode,hrest⟩ := h
      have hfirst := hnodes e List.mem_cons_self _ _ hnode
      have hothers := ih (fun e he => hnodes e (List.mem_cons_of_mem _ he)) ds hrest
      rw [maskAll,maskAll,hothers,hfirst,hname]

/-- Nodes that differ in secrets only are the same when masked. -/
theorem mask_alike {schema : Schema} (n : Node) :
    ∀ at_ m, NodesAlike schema at_ n m → maskNode schema at_ n = maskNode schema at_ m := by
  induction n using Node.induct with
  | values c vs =>
    intro at_ m h
    obtain ⟨d,body⟩ := m
    cases body with
    | values ws => exact mask_values h
    | interior ds => exact absurd h (by simp [NodesAlike])
  | interior c cs ih =>
    intro at_ m h
    obtain ⟨d,body⟩ := m
    cases body with
    | values ws => exact absurd h (by simp [NodesAlike])
    | interior ds =>
      rw [NodesAlike] at h
      rw [maskNode,maskNode,h.1,mask_children cs ih ds h.2]

/-- Configurations that differ in secrets only are the same when masked. -/
theorem prepare_alike {style : Style} (hmasked : style.secrets = false) {tree other : ConfigTree}
    (h : TreesAlike style.schema tree other) : prepare style tree = prepare style other := by
  have hroot := mask_alike tree.root Path.root other.root h
  rw [root_eq tree,root_eq other,maskNode,maskNode,Node.mk.injEq,Body.interior.injEq] at hroot
  simp only [prepare,hmasked,Bool.false_eq_true,if_false]
  apply ConfigTree.ext
  simp only [maskSecrets,hroot.2]

/-! ### Lists of changes -/

/-- Whether a list shows a value of a leaf that is marked secret. -/
def ShowsSecret (schema : Schema) (changes : List Change) : Prop :=
  ∃ c ∈ changes, isSecret schema c.path = true ∧ c.value.isSome = true

section Lists
variable {schema : Schema}

theorem changeAlike_refl (c : Change) : ChangeAlike schema c c := ⟨rfl,rfl,rfl,fun _ => rfl⟩

theorem eq_of_alike {list other : List Change} (h : ChangesAlike schema list other)
    (hnone : ¬ShowsSecret schema list) : list = other := by
  induction h with
  | nil => rfl
  | @cons c d list other hhead _ ih =>
    have hlist := ih (fun ⟨e,he,hshown⟩ => hnone ⟨e,List.mem_cons_of_mem _ he,hshown⟩)
    have hvalue : c.value = d.value := by
      by_cases hsecret : isSecret schema c.path = true
      · have hc : c.value.isSome = false := by
          by_contra hsome
          exact hnone ⟨c,List.mem_cons_self,hsecret,Bool.not_eq_false _ ▸ hsome⟩
        have hd : d.value.isSome = false := by rw [← hhead.shape,hc]
        rw [Option.isSome_eq_false_iff,Option.isNone_iff_eq_none] at hc hd
        rw [hc,hd]
      · exact hhead.value (by simpa using hsecret)
    have hchange : c = d := by
      cases c
      cases d
      simp only [Change.mk.injEq]
      exact ⟨hhead.path,hhead.op,hvalue⟩
    rw [hchange,hlist]

theorem eq_of_revisions_alike {log other : List RevisionInfo} (h : List.Forall₂ (RevisionAlike schema) log other)
    (hnone : ∀ r ∈ log, ¬ShowsSecret schema r.changes) : log = other := by
  induction h with
  | nil => rfl
  | @cons r q log other hhead _ ih =>
    have hlog := ih (fun e he => hnone e (List.mem_cons_of_mem _ he))
    have hchanges := eq_of_alike hhead.changes (hnone r List.mem_cons_self)
    have hothers := hhead.others
    have hrevision : r = q := by
      cases r
      cases q
      simp_all
    rw [hrevision,hlog]

/-- Another secret in place of one. -/
def respell (schema : Schema) (c : Change) : Change :=
  if isSecret schema c.path then {c with value := c.value.map (· ++ "xxx")} else c

theorem respell_alike (c : Change) : ChangeAlike schema c (respell schema c) := by
  unfold respell
  split_ifs with hsecret
  · exact ⟨rfl,rfl,by simp,fun hopen => absurd hsecret (by simp [hopen])⟩
  · exact changeAlike_refl c

theorem respelled_alike (list : List Change) : ChangesAlike schema list (list.map (respell schema)) := by
  induction list with
  | nil => exact List.Forall₂.nil
  | cons c list ih => exact List.Forall₂.cons (respell_alike c) ih

theorem quote_shorter (s : String) : (quote s).length < (quote (s ++ "xxx")).length := by
  have hchars : (s ++ "xxx").toList = s.toList ++ ['x','x','x'] := String.toList_append
  unfold quote
  rw [hchars]
  by_cases hempty : s.toList = []
  · rw [hempty]
    decide
  · by_cases hbare : isBare s.toList = true
    · have hmore : isBare (s.toList ++ ['x','x','x']) = true := by
        simp only [isBare,Bool.and_eq_true] at hbare
        simp [isBare,hbare.2,isBareChar]
      simp [hbare,hmore]
    · have hmore : isBare (s.toList ++ ['x','x','x']) = false := by
        have hfull : s.toList.isEmpty = false := by simpa using hempty
        rw [isBare,hfull,Bool.not_false,Bool.true_and,Bool.not_eq_true] at hbare
        rw [isBare,List.all_append,hbare,Bool.false_and,Bool.and_false]
      simp [hbare,hmore,List.flatMap_append,escaped]

theorem respell_longer (c : Change) : c.display.length ≤ (respell schema c).display.length := by
  unfold respell
  split_ifs with hsecret
  · unfold Change.display
    cases hvalue : c.value with
    | none => simp
    | some value =>
      have hquote := quote_shorter value
      simp only [Option.map_some,String.length_append,String.length_ofList]
      omega
  · exact le_refl _

theorem respell_longer_of_secret {c : Change} (hsecret : isSecret schema c.path = true)
    (hvalue : c.value.isSome = true) : c.display.length < (respell schema c).display.length := by
  obtain ⟨value,hvalue⟩ := Option.isSome_iff_exists.mp hvalue
  have hquote := quote_shorter value
  unfold respell
  rw [if_pos hsecret]
  simp only [Change.display,hvalue,Option.map_some,String.length_append,String.length_ofList]
  omega

theorem listed_longer (list : List Change) :
    (String.join (list.map (fun c => "  " ++ c.display ++ "\n"))).length ≤
      (String.join ((list.map (respell schema)).map (fun c => "  " ++ c.display ++ "\n"))).length := by
  rw [String.length_join,String.length_join,List.map_map,List.map_map,List.map_map]
  refine List.sum_le_sum (fun c _ => ?_)
  have hlonger := @respell_longer schema c
  simp only [Function.comp_apply,String.length_append]
  omega

theorem listed_longer_of_secret {list : List Change} (h : ShowsSecret schema list) :
    (String.join (list.map (fun c => "  " ++ c.display ++ "\n"))).length <
      (String.join ((list.map (respell schema)).map (fun c => "  " ++ c.display ++ "\n"))).length := by
  obtain ⟨c,hc,hsecret,hvalue⟩ := h
  have hlonger := respell_longer_of_secret hsecret hvalue
  rw [String.length_join,String.length_join,List.map_map,List.map_map,List.map_map]
  refine List.sum_lt_sum _ _ (fun d _ => ?_) ⟨c,hc,?_⟩
  · have hother := @respell_longer schema d
    simp only [Function.comp_apply,String.length_append]
    omega
  · simp only [Function.comp_apply,String.length_append]
    omega

/-- Other secrets make the text of a refused commit longer. -/
theorem refusal_longer {underneath : Option (List Change)} {own : List Change} (base now : ℕ)
    (h : ShowsSecret schema (underneath.getD [] ++ own)) :
    (refusal base now underneath own).length <
      (refusal base now (underneath.map (List.map (respell schema))) (own.map (respell schema))).length := by
  obtain ⟨c,hc,hsecret⟩ := h
  have hown := @listed_longer schema own
  unfold refusal
  cases underneath with
  | none =>
    have hlonger := listed_longer_of_secret ⟨c,hc,hsecret⟩
    simp only [Option.map_none,Option.getD_none,List.nil_append,String.length_append] at hlonger ⊢
    omega
  | some list =>
    have hlist := @listed_longer schema list
    simp only [Option.map_some,String.length_append]
    obtain hmem | hmem := List.mem_append.mp hc
    · have hshows : ShowsSecret schema list := ⟨c,hmem,hsecret⟩
      have hlonger := listed_longer_of_secret hshows
      omega
    · have hshows : ShowsSecret schema own := ⟨c,hmem,hsecret⟩
      have hlonger := listed_longer_of_secret hshows
      omega

/-- A list that shows a secret is another one when its secrets are. -/
theorem respelled_ne {list : List Change} (h : ShowsSecret schema list) : list.map (respell schema) ≠ list := by
  intro heq
  have hlonger := listed_longer_of_secret h
  rw [heq] at hlonger
  exact lt_irrefl _ hlonger

end Lists

/-! ### What is printed as JSON -/

theorem optionJson_injective : Function.Injective optionJson := by
  intro a b h
  cases a <;> cases b <;> simp_all [optionJson]

theorem changeJson_injective : Function.Injective changeJson := by
  intro c d h
  simp only [changeJson,Json.object.injEq,List.cons.injEq,Prod.mk.injEq,true_and,and_true,Json.string.injEq,
    Json.array.injEq] at h
  obtain ⟨hop,hpath,hvalue⟩ := h
  have hsame : c.path = d.path := List.map_injective_iff.mpr (fun _ _ => Json.string.inj) hpath
  have hvalues : c.value = d.value := optionJson_injective hvalue
  obtain ⟨cpath,cop,cvalue⟩ := c
  obtain ⟨dpath,dop,dvalue⟩ := d
  cases cop <;> cases dop <;> simp_all

theorem changesJson_injective : Function.Injective changesJson := by
  intro list other h
  exact List.map_injective_iff.mpr changeJson_injective (Json.array.inj h)

theorem changes_of_revisionJson {r q : RevisionInfo} (h : revisionJson r = revisionJson q) :
    r.changes = q.changes := by
  simp only [revisionJson,Json.object.injEq,List.cons.injEq,Prod.mk.injEq,true_and] at h
  exact changesJson_injective h.2.2.1

/-! ### Which outputs tell -/

section Outputs
variable {I : Type}

/-- The outputs that show a value of a leaf marked secret. -/
inductive Leaks (schema : Schema) : Output I → Prop where
  | refused {base now : ℕ} {underneath : Option (List Change)} {own : List Change}
      (h : ShowsSecret schema (underneath.getD [] ++ own)) :
      Leaks schema (.text (refusal base now underneath own))
  | changes {list : List Change} (h : ShowsSecret schema list) : Leaks schema (.changes list)
  | revisions {log : List RevisionInfo} {r : RevisionInfo} (hr : r ∈ log) (h : ShowsSecret schema r.changes) :
      Leaks schema (.revisions log)

/-- An output tells nothing of the secrets: with others in their place it is the same bytes. -/
def Masks (pretty : Json → String) (report : I → String) (reportJson : I → Json) (style : Style)
    (o : Output I) : Prop :=
  ∀ o', Alike style.schema o o' →
    o.render report style = o'.render report style ∧
    o.renderJson pretty reportJson style = o'.renderJson pretty reportJson style

variable {pretty : Json → String} {report : I → String} {reportJson : I → Json} {style : Style} {o : Output I}

theorem renderJson_inj (hpretty : Function.Injective pretty) {o' : Output I}
    (h : o.renderJson pretty reportJson style = o'.renderJson pretty reportJson style) :
    o.json reportJson style = o'.json reportJson style :=
  hpretty (String.append_left_inj "\n" |>.mp h)

theorem not_masks_of_leaks (hpretty : Function.Injective pretty) (h : Leaks style.schema o) :
    ¬Masks pretty report reportJson style o := by
  intro hmasks
  cases h with
  | @refused base now underneath own h =>
    have hrel : Option.Rel (ChangesAlike style.schema) underneath
        (underneath.map (List.map (respell style.schema))) := by
      cases underneath with
      | none => exact Option.Rel.none
      | some list => exact Option.Rel.some (respelled_alike list)
    have hsame := (hmasks _ (.refused base now _ _ _ _ hrel (respelled_alike own))).1
    have hlonger := refusal_longer base now h
    simp only [Output.render] at hsame
    rw [← hsame] at hlonger
    exact lt_irrefl _ hlonger
  | @changes list h =>
    have hsame := renderJson_inj hpretty (hmasks _ (.changes (respelled_alike list))).2
    exact respelled_ne h (changesJson_injective hsame).symm
  | @revisions log r hr h =>
    have halike : List.Forall₂ (RevisionAlike style.schema) log
        (log.map (fun q => {q with changes := q.changes.map (respell style.schema)})) := by
      refine List.forall₂_map_right_iff.mpr (List.forall₂_same.mpr (fun q _ => ?_))
      exact ⟨rfl,respelled_alike q.changes⟩
    have hsame := renderJson_inj hpretty (hmasks _ (.revisions halike)).2
    have hlog := Json.array.inj hsame
    rw [List.map_map] at hlog
    have hrevision := changes_of_revisionJson (List.map_inj_left.mp hlog r hr)
    exact respelled_ne h hrevision.symm

theorem masks_of_not_leaks (hmasked : style.secrets = false) (h : ¬Leaks style.schema o) :
    Masks pretty report reportJson style o := by
  intro o' halike
  cases halike with
  | same => exact ⟨rfl,rfl⟩
  | refused base now underneath underneath' own own' hunderneath hown =>
    have hsame : own = own' := eq_of_alike hown (fun ⟨c,hc,hshown⟩ =>
      h (.refused ⟨c,List.mem_append_right _ hc,hshown⟩))
    have hsame' : underneath = underneath' := by
      cases hunderneath with
      | none => rfl
      | some hlist =>
        rw [eq_of_alike hlist (fun ⟨c,hc,hshown⟩ => h (.refused ⟨c,List.mem_append_left _ hc,hshown⟩))]
    rw [hsame,hsame']
    exact ⟨rfl,rfl⟩
  | config htree =>
    simp only [Output.render,Output.renderJson,Output.json,prepare_alike hmasked htree,and_self]
  | configDiff hcandidate hrunning =>
    simp only [Output.render,Output.renderJson,Output.json,markedUp,shownLines,
      prepare_alike hmasked hcandidate,prepare_alike hmasked hrunning,and_self]
  | changes hlist =>
    rw [eq_of_alike hlist (fun hshows => h (.changes hshows))]
    exact ⟨rfl,rfl⟩
  | @revisions log log' hlog =>
    rw [eq_of_revisions_alike hlog (fun r hr hshows => h (.revisions hr hshows))]
    exact ⟨rfl,rfl⟩

end Outputs

/-- Masked, an output is the same whatever the secrets are, as text and as JSON, unless it is one
that lists the change of a secret. -/
theorem masks_iff {I : Type} (pretty : Json → String) (hpretty : Function.Injective pretty) (report : I → String)
    (reportJson : I → Json) (style : Style) (hmasked : style.secrets = false) (o : Output I) :
    Masks pretty report reportJson style o ↔ ¬Leaks style.schema o := by
  constructor
  · intro hmasks hleaks
    exact not_masks_of_leaks hpretty hleaks hmasks
  · exact masks_of_not_leaks hmasked

namespace Shipped

/-- The shipped settings, shown to a terminal without the secrets. -/
def plainly : Style := ⟨Schema.Shipped.schema [],true,false⟩

/-- A password of the administrator. -/
def password (hash : String) : Change :=
  ⟨["system","login","user","admin","authentication","encrypted-password"],.add,some hash⟩

theorem masks_shown : Masks Json.pretty (fun _ : Unit => "") (fun _ => .null) plainly
    (.config (ConfigTree.new.set (password "").path "$6$salt$hash").2) :=
  (masks_iff Json.pretty Json.pretty_injective _ _ plainly rfl _).mpr (fun h => nomatch h)

/-- A compare shows a new password, as text and as JSON. -/
theorem compare_tells :
    Alike plainly.schema (.changes [password "$6$salt$hash"] : Output Unit) (.changes [password "$6$salt$other"]) ∧
    (Output.changes [password "$6$salt$hash"]).render (fun _ : Unit => "") plainly ≠
      (Output.changes [password "$6$salt$other"]).render (fun _ : Unit => "") plainly ∧
    (Output.changes [password "$6$salt$hash"]).renderJson Json.pretty (fun _ : Unit => .null) plainly ≠
      (Output.changes [password "$6$salt$other"]).renderJson Json.pretty (fun _ : Unit => .null) plainly := by
  have hsecret : isSecret plainly.schema (password "$6$salt$hash").path = true := by decide +kernel
  refine ⟨.changes (.cons ⟨rfl,rfl,rfl,fun hopen => ?_⟩ .nil),by decide +kernel,by decide +kernel⟩
  exact absurd hsecret (by rw [hopen]; simp)

end Shipped
end Nightshade.Cli
