import Mathlib
import Nightshade.Render.Complete

/-! Interfaces stacked on one another: which circles the rules between them leave open. -/
namespace Nightshade.Render.Networkd
open Foundation Schema Schema.Shipped

section Stacks
variable {config : ConfigTree} {zones : List String} {kind kind' name upper lower : String}

/-- An interface stands on another: on its parent, its member, or the one it is tunnelled over. -/
def StandsOn (config : ConfigTree) (upper lower : String) : Prop :=
  ∃ kind leaf kinds, (kind,leaf,kinds) ∈ Shipped.references ∧ config.Holds (Shipped.setting kind upper leaf) lower

/-- A bridge has a member that is a vlan on another bridge. -/
def BridgedOver (config : ConfigTree) (upper lower : String) : Prop :=
  ∃ vlan, config.Holds (Shipped.setting "bridge" upper "member") vlan ∧
    config.Holds (Shipped.setting "vlan" vlan "parent") lower

/-! ### Names -/

theorem contains_of_setting {leaf value : String} (h : config.Holds (Shipped.setting kind name leaf) value) :
    config.contains (interface kind name) := by
  obtain ⟨node,hget⟩ := interface_of_holds h
  exact Option.isSome_iff_exists.mpr ⟨node,hget⟩

/-- Whoever wrote the file last, it is matched by the name of its interface. -/
theorem network_matched {artifacts : Artifacts} (hclean : (schema zones).validateTree config = [])
    (hrender : render config = .ok artifacts) (hthere : config.contains (interface kind name)) :
    ∃ text, (files artifacts).get? (networkName kind name) = some text ∧ matchedName text = some name := by
  obtain ⟨node,hget⟩ := Option.isSome_iff_exists.mp hthere
  have hmatched : ∀ {k : String} {n : Node}, config.get (interface k name) = some n →
      matchedName (networkFile name n (Attachments.of config)) = some name := by
    intro k n hn
    rw [matchedName_eq,stated_networkFile hclean hn]
    simp [networkEntries]
  have hmem : (networkName kind name,networkFile name node (Attachments.of config)) ∈ networkdFiles config := by
    rw [mem_networkdFiles]
    refine ⟨kind,name,node,hget,?_⟩
    obtain hkind | ⟨hkind,device,hdevice⟩ := kind_cases hclean hget
    · exact .inl ⟨hkind,if_pos hkind,rfl⟩
    · exact .inr ⟨device,hdevice,.inr ⟨if_neg hkind,rfl⟩⟩
  rw [(files_of_render hrender).1]
  obtain ⟨text,htext⟩ := Option.isSome_iff_exists.mp (SortedMap.isSome_get?_insertAll (m := SortedMap.empty) hmem)
  refine ⟨text,htext,?_⟩
  obtain ⟨kind',name',node',hget',hwrites⟩ := mem_networkdFiles.mp (SortedMap.mem_of_get?_insertAll htext)
  have hname : name' = name ∧ text = networkFile name' node' (Attachments.of config) := by
    unfold networkName at hwrites
    obtain ⟨-,hfile,rfl⟩ | ⟨device,-,⟨hfile,rfl⟩ | ⟨hfile,rfl⟩⟩ := hwrites
    · split_ifs at hfile
      · exact ⟨(physicalFile_injective (by decide) (by decide) hfile).1.symm,rfl⟩
      · exact (physicalFile_ne hfile.symm).elim
    · split_ifs at hfile
      · exact (physicalFile_ne hfile).elim
      · exact absurd (virtualFile_injective (by decide) (by decide) hfile).2 (by decide)
    · split_ifs at hfile
      · exact (physicalFile_ne hfile).elim
      · exact ⟨(virtualFile_injective (by decide) (by decide) hfile).1.symm,rfl⟩
  obtain ⟨rfl,rfl⟩ := hname
  exact hmatched hget'

/-- The kinds of interface that another may stand on. -/
def carriers : List String := ["ethernet","bonding","bridge","vlan"]

/-- An interface has one kind, of those that stand on others or are stood on. -/
theorem kind_unique {artifacts : Artifacts} (hclean : (schema zones).validateTree config = [])
    (hrender : render config = .ok artifacts) (hcheck : check artifacts = .ok ()) (hkind : kind ∈ "vxlan"::carriers)
    (hkind' : kind' ∈ "vxlan"::carriers) (hthere : config.contains (interface kind name))
    (hthere' : config.contains (interface kind' name)) : kind = kind' := by
  have hsort : ∀ k ∈ "vxlan"::carriers, k = "ethernet" ∨ (k ∉ PHYSICAL ∧ ∃ e ∈ VIRTUAL, e.1 = k) := by decide
  obtain ⟨node,hget⟩ := Option.isSome_iff_exists.mp hthere
  obtain ⟨node',hget'⟩ := Option.isSome_iff_exists.mp hthere'
  obtain ⟨text,hfile,hmatched⟩ := network_matched hclean hrender hthere
  obtain ⟨text',hfile',hmatched'⟩ := network_matched hclean hrender hthere'
  have hsame := check_apart hcheck hfile hfile' (isNetwork_networkName kind name) (isNetwork_networkName kind' name)
    hmatched hmatched'
  unfold networkName at hsame
  obtain rfl | ⟨hvirtual,e,he,rfl⟩ := hsort kind hkind
  · obtain rfl | ⟨hvirtual',-⟩ := hsort kind' hkind'
    · rfl
    · rw [if_pos (by decide),if_neg hvirtual'] at hsame
      exact (physicalFile_ne hsame).elim
  · obtain rfl | ⟨hvirtual',d,hd,rfl⟩ := hsort kind' hkind'
    · rw [if_neg hvirtual,if_pos (by decide)] at hsame
      exact (physicalFile_ne hsame.symm).elim
    · exact virtual_unique hclean he hd hget hget'

/-! ### Steps of a stack -/

/-- What stands on an interface is of a kind that does, and the interface of a kind that it may be. -/
inductive Step (config : ConfigTree) (upper lower : String) : Prop where
  | bond (there : config.contains (interface "bonding" upper)) (below : config.contains (interface "ethernet" lower))
  | bridge {kind : String} (member : config.Holds (Shipped.setting "bridge" upper "member") lower)
    (mem : kind ∈ ["ethernet","bonding","vlan"]) (below : config.contains (interface kind lower))
  | vlan {kind : String} (parent : config.Holds (Shipped.setting "vlan" upper "parent") lower)
    (mem : kind ∈ ["ethernet","bonding","bridge"]) (below : config.contains (interface kind lower))
  | vxlan {kind : String} (there : config.contains (interface "vxlan" upper)) (mem : kind ∈ carriers)
    (below : config.contains (interface kind lower))

theorem step_of_standsOn (hconsistent : Consistent config) (h : StandsOn config upper lower) :
    Step config upper lower := by
  obtain ⟨kind,leaf,kinds,hreference,hholds⟩ := h
  obtain ⟨k,hk,hbelow⟩ := hconsistent.configured kind leaf kinds hreference upper lower hholds
  simp only [Shipped.references,List.mem_cons,List.not_mem_nil,or_false,Prod.mk.injEq] at hreference
  obtain ⟨rfl,rfl,rfl⟩ | ⟨rfl,rfl,rfl⟩ | ⟨rfl,rfl,rfl⟩ | ⟨rfl,rfl,rfl⟩ := hreference
  · rw [List.mem_singleton.mp hk] at hbelow
    exact .bond (contains_of_setting hholds) hbelow
  · exact .bridge hholds hk hbelow
  · exact .vlan hholds hk hbelow
  · exact .vxlan (contains_of_setting hholds) hk hbelow

/-- The kinds of upper interfaces, one by one. -/
theorem Step.upper_kind (h : Step config upper lower) : ∃ kind ∈ ["bonding","bridge","vlan","vxlan"],
    config.contains (interface kind upper) := by
  cases h with
  | bond hthere _ => exact ⟨_,by decide,hthere⟩
  | bridge hmember _ _ => exact ⟨_,by decide,contains_of_setting hmember⟩
  | vlan hparent _ _ => exact ⟨_,by decide,contains_of_setting hparent⟩
  | vxlan hthere _ _ => exact ⟨_,by decide,hthere⟩

section Circles
variable (hstep : ∀ upper lower, StandsOn config upper lower → Step config upper lower)
  (hunique : ∀ {kind kind' name}, kind ∈ "vxlan"::carriers → kind' ∈ "vxlan"::carriers →
    config.contains (interface kind name) → config.contains (interface kind' name) → kind = kind')
include hstep hunique

/-- What stands on something is no port. -/
theorem not_port (h : Relation.TransGen (StandsOn config) upper lower) :
    ¬config.contains (interface "ethernet" upper) := by
  intro hport
  obtain ⟨next,hnext,-⟩ := Relation.TransGen.head'_iff.mp h
  obtain ⟨kind,hkind,hthere⟩ := (hstep upper next hnext).upper_kind
  have hall : ∀ k ∈ ["bonding","bridge","vlan","vxlan"], k ∈ "vxlan"::carriers ∧ k ≠ "ethernet" := by decide
  exact (hall kind hkind).2 (hunique (hall kind hkind).1 (by decide) hthere hport)

/-- The way down to a bridge: by no bond, from bridge to bridge over a vlan each time. -/
theorem descends (hbridge : config.contains (interface "bridge" lower))
    (h : Relation.TransGen (StandsOn config) upper lower) :
    ¬config.contains (interface "bonding" upper) ∧
    (config.contains (interface "bridge" upper) → Relation.TransGen (BridgedOver config) upper lower) ∧
    (config.contains (interface "vlan" upper) → ∃ next, config.Holds (Shipped.setting "vlan" upper "parent") next ∧
      Relation.ReflTransGen (BridgedOver config) next lower) := by
  have hkinds : ∀ k ∈ ["ethernet","bonding","vlan"], k ∈ "vxlan"::carriers ∧ k ≠ "bridge" := by decide
  have hcarriers : ∀ k ∈ carriers, k ∈ "vxlan"::carriers := by decide
  induction h using Relation.TransGen.head_induction_on with
  | single h =>
    cases hstep _ _ h with
    | bond _ hbelow => exact absurd (hunique (by decide) (by decide) hbelow hbridge) (by decide)
    | bridge _ hmem hbelow =>
      exact absurd (hunique (hkinds _ hmem).1 (by decide) hbelow hbridge) (hkinds _ hmem).2
    | vlan hparent _ _ =>
      have hvlan := contains_of_setting hparent
      refine ⟨fun hbond => ?_,fun hother => ?_,fun _ => ⟨_,hparent,.refl⟩⟩
      · exact absurd (hunique (by decide) (by decide) hvlan hbond) (by decide)
      · exact absurd (hunique (by decide) (by decide) hvlan hother) (by decide)
    | vxlan hvxlan _ _ =>
      refine ⟨fun hother => ?_,fun hother => ?_,fun hother => ?_⟩
      all_goals exact absurd (hunique (by decide) (by decide) hvxlan hother) (by decide)
  | head h hrest ih =>
    obtain ⟨hnobond,hover,hunder⟩ := ih
    cases hstep _ _ h with
    | bond _ hbelow => exact absurd hbelow (not_port hstep hunique hrest)
    | bridge hmember hmem hbelow =>
      have hthere := contains_of_setting hmember
      refine ⟨fun hother => ?_,fun _ => ?_,fun hother => ?_⟩
      · exact absurd (hunique (by decide) (by decide) hthere hother) (by decide)
      · simp only [List.mem_cons,List.not_mem_nil,or_false] at hmem
        obtain rfl | rfl | rfl := hmem
        · exact absurd hbelow (not_port hstep hunique hrest)
        · exact absurd hbelow hnobond
        · obtain ⟨next,hparent,hpath⟩ := hunder hbelow
          exact Relation.TransGen.head' ⟨_,hmember,hparent⟩ hpath
      · exact absurd (hunique (by decide) (by decide) hthere hother) (by decide)
    | vlan hparent hmem hbelow =>
      have hthere := contains_of_setting hparent
      refine ⟨fun hother => ?_,fun hother => ?_,fun _ => ⟨_,hparent,?_⟩⟩
      · exact absurd (hunique (by decide) (by decide) hthere hother) (by decide)
      · exact absurd (hunique (by decide) (by decide) hthere hother) (by decide)
      · simp only [List.mem_cons,List.not_mem_nil,or_false] at hmem
        obtain rfl | rfl | rfl := hmem
        · exact absurd hbelow (not_port hstep hunique hrest)
        · exact absurd hbelow hnobond
        · exact (hover hbelow).to_reflTransGen
    | vxlan hvxlan _ _ =>
      refine ⟨fun hother => ?_,fun hother => ?_,fun hother => ?_⟩
      all_goals exact absurd (hunique (by decide) (by decide) hvxlan hother) (by decide)

/-- A circle goes through a bridge, and comes back to it from bridge to bridge. -/
theorem bridged_of_circle (h : Relation.TransGen (StandsOn config) name name) :
    ∃ bridge, Relation.TransGen (BridgedOver config) bridge bridge := by
  have hbridge : ∀ n, config.contains (interface "bridge" n) → Relation.TransGen (StandsOn config) n n →
      ∃ bridge, Relation.TransGen (BridgedOver config) bridge bridge := fun n hthere hcircle =>
    ⟨n,(descends hstep hunique hthere hcircle).2.1 hthere⟩
  -- The next interface of the circle is on the circle too.
  have hnext : ∀ n, Relation.TransGen (StandsOn config) n n → ∃ m, Step config n m ∧
      Relation.TransGen (StandsOn config) m m := by
    intro n hcircle
    obtain ⟨m,hm,hback⟩ := Relation.TransGen.head'_iff.mp hcircle
    exact ⟨m,hstep n m hm,Relation.TransGen.tail' hback hm⟩
  have hbond : ∀ n, config.contains (interface "bonding" n) → ¬Relation.TransGen (StandsOn config) n n := by
    intro n hthere hcircle
    obtain ⟨m,hm,hcircle'⟩ := hnext n hcircle
    cases hm with
    | bond _ hbelow => exact not_port hstep hunique hcircle' hbelow
    | bridge hmember _ _ =>
      exact absurd (hunique (by decide) (by decide) (contains_of_setting hmember) hthere) (by decide)
    | vlan hparent _ _ =>
      exact absurd (hunique (by decide) (by decide) (contains_of_setting hparent) hthere) (by decide)
    | vxlan hvxlan _ _ => exact absurd (hunique (by decide) (by decide) hvxlan hthere) (by decide)
  have hvlan : ∀ n, config.contains (interface "vlan" n) → Relation.TransGen (StandsOn config) n n →
      ∃ bridge, Relation.TransGen (BridgedOver config) bridge bridge := by
    intro n hthere hcircle
    obtain ⟨m,hm,hcircle'⟩ := hnext n hcircle
    cases hm with
    | bond hother _ => exact absurd (hunique (by decide) (by decide) hother hthere) (by decide)
    | bridge hmember _ _ =>
      exact absurd (hunique (by decide) (by decide) (contains_of_setting hmember) hthere) (by decide)
    | vlan hparent hmem hbelow =>
      simp only [List.mem_cons,List.not_mem_nil,or_false] at hmem
      obtain rfl | rfl | rfl := hmem
      · exact absurd hbelow (not_port hstep hunique hcircle')
      · exact absurd hcircle' (hbond m hbelow)
      · exact hbridge m hbelow hcircle'
    | vxlan hvxlan _ _ => exact absurd (hunique (by decide) (by decide) hvxlan hthere) (by decide)
  obtain ⟨m,hm,hcircle⟩ := hnext name h
  cases hm with
  | bond hthere _ => exact absurd h (hbond name hthere)
  | bridge hmember _ _ => exact hbridge name (contains_of_setting hmember) h
  | vlan hparent _ _ => exact hvlan name (contains_of_setting hparent) h
  | vxlan _ hmem hbelow =>
    simp only [carriers,List.mem_cons,List.not_mem_nil,or_false] at hmem
    obtain rfl | rfl | rfl | rfl := hmem
    · exact absurd hbelow (not_port hstep hunique hcircle)
    · exact absurd hcircle (hbond m hbelow)
    · exact hbridge m hbelow hcircle
    · exact hvlan m hbelow hcircle

end Circles

/-- Interfaces stand in no circle exactly when no bridge comes back to itself over vlans that are members
of bridges. -/
theorem acyclic_iff (zones : List String) (config : ConfigTree) (artifacts : Artifacts)
    (hclean : (schema zones).validateTree config = []) (hcross : (schema zones).checkConstraints config = [])
    (hrender : render config = .ok artifacts) (hcheck : check artifacts = .ok ()) :
    (∀ name, ¬Relation.TransGen (StandsOn config) name name) ↔
      ∀ bridge, ¬Relation.TransGen (BridgedOver config) bridge bridge := by
  constructor
  · intro h bridge hcircle
    have hover : ∀ upper lower, BridgedOver config upper lower → Relation.TransGen (StandsOn config) upper lower := by
      rintro upper lower ⟨vlan,hmember,hparent⟩
      have hmember' : StandsOn config upper vlan := ⟨_,_,_,.tail _ (.head _),hmember⟩
      have hparent' : StandsOn config vlan lower := ⟨_,_,_,.tail _ (.tail _ (.head _)),hparent⟩
      exact .head hmember' (.single hparent')
    exact h bridge (Relation.TransGen.closed hover bridge bridge hcircle)
  · intro h name hcircle
    obtain ⟨bridge,hbridge⟩ := bridged_of_circle
      (fun _ _ => step_of_standsOn (consistent_of_checked hclean hcross))
      (fun hkind hkind' => kind_unique hclean hrender hcheck hkind hkind') hcircle
    exact h bridge hbridge

/-- Where there are no bridges there are no circles. -/
theorem trunk_acyclic : ¬∃ name, Relation.TransGen (StandsOn trunk) name name := by
  have hclean : (schema []).validateTree trunk = [] := by decide +kernel
  have hcross : (schema []).checkConstraints trunk = [] := by decide +kernel
  have hcheck := check_of_apart hclean hcross rfl (namesApart_of hclean (by decide +kernel))
  refine not_exists.mpr ((acyclic_iff [] trunk _ hclean hcross rfl hcheck).mpr (fun bridge hcircle => ?_))
  have hnone : instances trunk "bridge" = [] := List.isEmpty_iff.mp (by decide +kernel)
  obtain ⟨next,⟨vlan,hmember,-⟩,-⟩ := Relation.TransGen.head'_iff.mp hcircle
  obtain ⟨node,hget⟩ := interface_of_holds hmember
  have hmem := mem_instances.mpr hget
  rw [hnone] at hmem
  cases hmem

/-- A bridge with a vlan as its member that is on the bridge itself. -/
def looped : ConfigTree :=
  [(Shipped.setting "bridge" "br0" "member","vlan1"),(Shipped.setting "vlan" "vlan1" "parent","br0"),
   (Shipped.setting "vlan" "vlan1" "id","10")].foldl (fun tree e => (tree.set e.1 e.2).2) .new

theorem looped_accepted : ∃ artifacts, (schema []).validateTree looped = [] ∧
    (schema []).checkConstraints looped = [] ∧ render looped = .ok artifacts ∧ check artifacts = .ok () ∧
    Relation.TransGen (StandsOn looped) "br0" "br0" := by
  have hclean : (schema []).validateTree looped = [] := by decide +kernel
  have hcross : (schema []).checkConstraints looped = [] := by decide +kernel
  have hnames : NamesApart looped := namesApart_of hclean (by decide +kernel)
  have hmember : StandsOn looped "br0" "vlan1" := ⟨_,_,_,.tail _ (.head _),["vlan1"],by decide +kernel,by decide⟩
  have hparent : StandsOn looped "vlan1" "br0" := ⟨_,_,_,.tail _ (.tail _ (.head _)),["br0"],by decide +kernel,by decide⟩
  exact ⟨_,hclean,hcross,rfl,check_of_apart hclean hcross rfl hnames,.head hmember (.single hparent)⟩

end Stacks

end Nightshade.Render.Networkd
