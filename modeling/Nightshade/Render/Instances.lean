import Mathlib
import Nightshade.Schema.Consistent
import Nightshade.Render.UnitFile

/-! What the renderer reads of a valid configuration is what the configuration holds at the paths
of its interfaces, and all of it can stand in a unit file. -/
namespace Nightshade.Render.Networkd
open Foundation Schema Schema.Shipped

variable {config : ConfigTree} {kind name : String} {node : Node} {zones : List String}

theorem mem_instances : (name,node) ∈ instances config kind ↔ config.get (interface kind name) = some node := by
  unfold instances ConfigTree.get
  rw [show interface kind name = ["interfaces",kind] ++ [name] from rfl,Node.get_concat]
  cases hget : config.root.get ["interfaces",kind] with
  | none => simp
  | some m =>
    have hordered := Node.ordered_get config.ordered hget
    obtain ⟨c,cs | vs⟩ := m
    · have hlookup := lookup_eq_some_iff_mem (Node.ordered_interior.mp hordered).1 (k := name) (v := node)
      simp [Node.children,hlookup]
    · simp [Node.children]

theorem child_eq (hget : config.get (interface kind name) = some node) (leaf : String) :
    child node leaf = config.get (Shipped.setting kind name leaf) := by
  unfold child
  rw [ConfigTree.get,show Shipped.setting kind name leaf = interface kind name ++ [leaf] from rfl]
  rw [ConfigTree.get] at hget
  rw [Node.get_append,hget,Option.bind_some]
  obtain ⟨c,cs | vs⟩ := node
  · cases hlookup : cs.lookup leaf <;> simp [Node.children,Node.get,hlookup]
  · rfl

/-- A list of values is what the configuration holds. -/
theorem mem_list (hget : config.get (interface kind name) = some node) {leaf value : String} :
    value ∈ list node leaf ↔ config.Holds (Shipped.setting kind name leaf) value := by
  unfold list ConfigTree.Holds ConfigTree.valuesAt
  rw [child_eq hget]
  cases (config.get (Shipped.setting kind name leaf)).bind Node.valueSet with
  | none => simp
  | some vs => simp

/-! ### What the schema says of interfaces -/

/-- The kinds of interface, as the schema has them. -/
def tags : List (String × SchemaNode) :=
  [("bonding",bonding),("bridge",bridge),("ethernet",ethernet),("loopback",loopback),("vlan",vlan),
   ("vxlan",vxlan)]

/-- The values that a node of the schema takes, if it takes any. -/
def specOf (n : SchemaNode) : Option ValueSpec :=
  match n.kind with
  | .leaf spec | .multiLeaf spec | .tag spec => some spec
  | .container | .flag => none

theorem enter_interface {location : Location}
    (h : (interface kind name).foldlM Location.enter (.node (schema zones).root) = some location) :
    ∃ tag spec, tags.lookup kind = some tag ∧ tag.kind = .tag spec ∧ spec.check name = .ok () ∧
      location = .inst tag := by
  have hkind : (["interfaces",kind].foldlM Location.enter (.node (schema zones).root)) =
      (tags.lookup kind).map .node := by
    change ((tags.lookup kind).map Location.node).bind some = _
    cases tags.lookup kind <;> rfl
  rw [show interface kind name = ["interfaces",kind] ++ [name] from rfl,List.foldlM_append,hkind] at h
  cases htag : tags.lookup kind with
  | none => simp [htag] at h
  | some tag =>
    have hspec : ∃ spec, tag.kind = .tag spec := by
      have hmem : (kind,tag) ∈ tags := lookup_mem htag
      simp only [tags,List.mem_cons,Prod.mk.injEq,List.not_mem_nil,or_false] at hmem
      obtain ⟨-,rfl⟩ | ⟨-,rfl⟩ | ⟨-,rfl⟩ | ⟨-,rfl⟩ | ⟨-,rfl⟩ | ⟨-,rfl⟩ := hmem
      all_goals exact ⟨_,rfl⟩
    obtain ⟨spec,hspec⟩ := hspec
    have henter : Location.enter (.node tag) name = some location := by
      rw [htag] at h
      simpa using h
    simp only [Location.enter,hspec] at henter
    cases hcheck : spec.check name with
    | error e => simp [hcheck] at henter
    | ok u =>
      rw [hcheck] at henter
      exact ⟨tag,spec,rfl,hspec,hcheck,(Option.some.inj henter).symm⟩

/-- Whether the words that are taken literally are tight, and only a description is free text. -/
def fine (leaf : String) (n : SchemaNode) : Bool :=
  (specOf n).all (fun spec => (spec.accepts ++ spec.ty.listed).all (fun v => v.toList.all isTight) &&
    (spec.ty ≠ .text || leaf = "description"))

theorem tags_fine : tags.all (fun t => fine t.1 t.2 && t.2.children.all (fun e => fine e.1 e.2)) = true := by
  decide +kernel

/-- Whether a node has one value, if any. -/
def isSingle (n : SchemaNode) : Bool :=
  match n.kind with
  | .leaf _ => true
  | _ => false

theorem tags_single : tags.all (fun t => t.2.children.all (fun e =>
    isSingle e.2 || e.1 ∈ ["address","disable","member","stp"])) = true := by decide +kernel

/-- Whether a node takes no value. -/
def isFlag (n : SchemaNode) : Bool :=
  match n.kind with
  | .flag => true
  | _ => false

theorem tags_flag : tags.all (fun t => t.2.children.all (fun e => isFlag e.2 || e.1 ≠ "disable")) = true := by
  decide +kernel

section Table
variable {tag child : SchemaNode} {leaf : String}

theorem fine_tag (htag : tags.lookup kind = some tag) : fine kind tag := by
  have hall := List.all_eq_true.mp tags_fine _ (lookup_mem htag)
  rw [Bool.and_eq_true] at hall
  exact hall.1

theorem fine_child (htag : tags.lookup kind = some tag) (hchild : tag.child leaf = some child) :
    fine leaf child := by
  have hall := List.all_eq_true.mp tags_fine _ (lookup_mem htag)
  rw [Bool.and_eq_true] at hall
  exact List.all_eq_true.mp hall.2 _ (lookup_mem hchild)

theorem single_child (htag : tags.lookup kind = some tag) (hchild : tag.child leaf = some child)
    (hleaf : leaf ∉ ["address","disable","member","stp"]) : isSingle child := by
  have hall := List.all_eq_true.mp tags_single _ (lookup_mem htag)
  have hone := List.all_eq_true.mp hall _ (lookup_mem hchild)
  simpa [hleaf] using hone

theorem words_of_fine {spec : ValueSpec} (h : fine leaf child) (hspec : specOf child = some spec) :
    spec.WordsTight ∧ (spec.ty ≠ .text ∨ leaf = "description") := by
  unfold fine at h
  rw [hspec,Option.all_some,Bool.and_eq_true,List.all_append,Bool.and_eq_true] at h
  refine ⟨⟨fun v hv => ?_,fun v hv => ?_⟩,by simpa using h.2⟩
  · exact List.all_eq_true.mp (List.all_eq_true.mp h.1.1 v hv)
  · exact List.all_eq_true.mp (List.all_eq_true.mp h.1.2 v hv)

end Table

section Clean
variable (hclean : (schema zones).validateTree config = [])
include hclean

/-- An interface of a valid configuration has a name of its kind. -/
theorem name_checked (hget : config.get (interface kind name) = some node) :
    ∃ tag spec, tags.lookup kind = some tag ∧ tag.kind = .tag spec ∧ spec.check name = .ok () := by
  obtain ⟨location,henter,-⟩ := Node.fits_of_get (validateTree_eq_nil.mp hclean) hget
  obtain ⟨tag,spec,htag,hkind,hcheck,-⟩ := enter_interface henter
  exact ⟨tag,spec,htag,hkind,hcheck⟩

/-- What is set in an interface is a setting of its kind. -/
theorem setting_placed {leaf : String} {n : Node} (hget : config.get (Shipped.setting kind name leaf) = some n) :
    ∃ tag child, tags.lookup kind = some tag ∧ tag.child leaf = some child ∧ n.Fits (.node child) := by
  obtain ⟨location,henter,hfits⟩ := Node.fits_of_get (validateTree_eq_nil.mp hclean) hget
  rw [show Shipped.setting kind name leaf = interface kind name ++ [leaf] from rfl,List.foldlM_append] at henter
  obtain ⟨inst,hinst,hlast⟩ := Option.bind_eq_some_iff.mp henter
  obtain ⟨tag,spec,htag,-,-,rfl⟩ := enter_interface hinst
  have hmap : (tag.child leaf).map Location.node = some location := by simpa [Location.enter] using hlast
  obtain ⟨child,hchild,rfl⟩ := Option.map_eq_some_iff.mp hmap
  exact ⟨tag,child,htag,hchild,hfits⟩

/-- What an interface holds was checked. -/
theorem value_checked {leaf value : String} (h : config.Holds (Shipped.setting kind name leaf) value) :
    ∃ tag child spec, tags.lookup kind = some tag ∧ tag.child leaf = some child ∧ specOf child = some spec ∧
      spec.check value = .ok () := by
  obtain ⟨m,vs,hget,hset,hvalue⟩ := get_of_holds h
  obtain ⟨tag,child,htag,hchild,hfits⟩ := setting_placed hclean hget
  obtain ⟨c,cs | ws⟩ := m
  · cases hset
  · obtain rfl : ws = vs := Option.some.inj hset
    have hplace := Node.fits_values.mp hfits
    refine ⟨tag,child,?_⟩
    unfold Location.Holds at hplace
    unfold specOf
    cases hkind : child.kind with
    | leaf spec =>
      simp only [hkind] at hplace
      obtain ⟨v,rfl,hcheck⟩ := hplace
      obtain rfl := List.mem_singleton.mp hvalue
      exact ⟨spec,htag,hchild,rfl,hcheck⟩
    | multiLeaf spec =>
      simp only [hkind] at hplace
      exact ⟨spec,htag,hchild,rfl,hplace.2 value hvalue⟩
    | flag =>
      simp only [hkind] at hplace
      rw [hplace] at hvalue
      cases hvalue
    | container => simp only [hkind] at hplace
    | tag spec => simp only [hkind] at hplace

theorem plain_setting {leaf value : String} (h : config.Holds (Shipped.setting kind name leaf) value) :
    Plain value.toList := by
  obtain ⟨tag,child,spec,htag,hchild,hspec,hcheck⟩ := value_checked hclean h
  exact ValueSpec.plain_of_check (words_of_fine (fine_child htag hchild) hspec).1 hcheck

/-- Only a description holds a blank. -/
theorem tight_setting {leaf value : String} (hleaf : leaf ≠ "description")
    (h : config.Holds (Shipped.setting kind name leaf) value) : Tight value.toList := by
  obtain ⟨tag,child,spec,htag,hchild,hspec,hcheck⟩ := value_checked hclean h
  obtain ⟨hwords,htext | hdescription⟩ := words_of_fine (fine_child htag hchild) hspec
  · exact ValueSpec.tight_of_check htext hwords hcheck
  · exact absurd hdescription hleaf

theorem tight_name (hget : config.get (interface kind name) = some node) : Tight name.toList := by
  obtain ⟨tag,spec,htag,hkind,hcheck⟩ := name_checked hclean hget
  have hspec : specOf tag = some spec := by rw [specOf,hkind]
  obtain ⟨hwords,htext | hdescription⟩ := words_of_fine (fine_tag htag) hspec
  · exact ValueSpec.tight_of_check htext hwords hcheck
  · rw [hdescription] at htag
    cases htag

/-- A value of a leaf is what the configuration holds. -/
theorem leaf_iff {leaf value : String} (hget : config.get (interface kind name) = some node)
    (hleaf : leaf ∉ ["address","disable","member","stp"]) :
    Networkd.leaf node leaf = some value ↔ config.Holds (Shipped.setting kind name leaf) value := by
  unfold Networkd.leaf ConfigTree.Holds ConfigTree.valuesAt
  rw [child_eq hget]
  cases hn : config.get (Shipped.setting kind name leaf) with
  | none => simp
  | some n =>
    obtain ⟨tag,child,htag,hchild,hfits⟩ := setting_placed hclean hn
    have hsingle := single_child htag hchild hleaf
    obtain ⟨c,cs | vs⟩ := n
    · simp [Node.value,Node.valueSet]
    · have hplace := Node.fits_values.mp hfits
      unfold isSingle at hsingle
      unfold Location.Holds at hplace
      cases hkind : child.kind with
      | leaf spec =>
        simp only [hkind] at hplace
        obtain ⟨v,rfl,-⟩ := hplace
        simp [Node.value,Node.valueSet,eq_comm]
      | _ => simp [hkind] at hsingle

/-- A flag is there or not. -/
theorem flag_iff (hget : config.get (interface kind name) = some node) :
    flag node "disable" = true ↔ config.contains (Shipped.setting kind name "disable") := by
  unfold flag ConfigTree.contains
  rw [child_eq hget]
  cases hn : config.get (Shipped.setting kind name "disable") with
  | none => simp
  | some n =>
    obtain ⟨tag,child,htag,hchild,hfits⟩ := setting_placed hclean hn
    have hall := List.all_eq_true.mp tags_flag _ (lookup_mem htag)
    have hflag : isFlag child := by simpa using List.all_eq_true.mp hall _ (lookup_mem hchild)
    unfold isFlag at hflag
    obtain ⟨c,cs | vs⟩ := n
    · have hinner := (Node.fits_interior.mp hfits).1
      unfold Location.isInner at hinner
      cases hkind : child.kind <;> simp_all
    · have hplace := Node.fits_values.mp hfits
      unfold Location.Holds at hplace
      cases hkind : child.kind with
      | flag =>
        simp only [hkind] at hplace
        simp [Node.valueSet,hplace]
      | _ => simp [hkind] at hflag

end Clean

/-! ### What is attached to what -/

/-- The entries of the table of masters: each member with the key and the name of its master. -/
def memberships (config : ConfigTree) : List (String × String × String) :=
  ["bonding","bridge"].flatMap (fun kind => (instances config kind).flatMap (fun e =>
    (list e.2 "member").map (fun member => (member,if kind = "bonding" then "Bond" else "Bridge",e.1))))

theorem master_eq (config : ConfigTree) :
    (Attachments.of config).master = SortedMap.empty.insertAll (memberships config) := by
  unfold Attachments.of memberships
  simp only [SortedMap.foldl_insertAll]

theorem interface_of_holds {leaf value : String} (h : config.Holds (Shipped.setting kind name leaf) value) :
    ∃ node, config.get (interface kind name) = some node := by
  obtain ⟨m,vs,hget,-,-⟩ := get_of_holds h
  obtain ⟨c,cs,hinterface,-⟩ := (@Node.get_concat (interface kind name) leaf config.root m).mp hget
  exact ⟨_,hinterface⟩

theorem mem_members {kind word member key master : String} :
    (member,key,master) ∈ (instances config kind).flatMap (fun e =>
      (list e.2 "member").map (fun member => (member,word,e.1))) ↔
    key = word ∧ config.Holds (Shipped.setting kind master "member") member := by
  rw [List.mem_flatMap]
  constructor
  · rintro ⟨⟨name,node⟩,hmem,hentry⟩
    obtain ⟨other,hother,heq⟩ := List.mem_map.mp hentry
    cases heq
    exact ⟨rfl,(mem_list (mem_instances.mp hmem)).mp hother⟩
  · rintro ⟨rfl,hholds⟩
    obtain ⟨node,hget⟩ := interface_of_holds hholds
    exact ⟨(master,node),mem_instances.mpr hget,
      List.mem_map.mpr ⟨member,(mem_list hget).mpr hholds,rfl⟩⟩

theorem mem_memberships {member key master : String} : (member,key,master) ∈ memberships config ↔
    (key = "Bond" ∧ config.Holds (Shipped.setting "bonding" master "member") member) ∨
    (key = "Bridge" ∧ config.Holds (Shipped.setting "bridge" master "member") member) := by
  unfold memberships
  rw [List.flatMap_cons,List.flatMap_cons,List.flatMap_nil,List.append_nil,List.mem_append,mem_members,
    mem_members]
  simp

theorem riders_eq (config : ConfigTree) (kind leaf carrier : String) :
    ((riders config kind leaf).get? carrier).getD [] =
      (instances config kind).filterMap (fun e =>
        if Networkd.leaf e.2 leaf = some carrier then some e.1 else none) := by
  unfold riders
  generalize instances config kind = es
  induction es using List.reverseRecOn with
  | nil => rfl
  | append_singleton es e ih =>
    rw [List.foldl_append,List.filterMap_append,← ih,List.foldl_cons,List.foldl_nil]
    cases hleaf : Networkd.leaf e.2 leaf with
    | none => simp [hleaf]
    | some other =>
      dsimp only
      rw [SortedMap.get?_insert]
      by_cases hsame : carrier = other
      · rw [if_pos hsame]
        simp [hleaf,hsame]
      · have hother : some other ≠ some carrier := fun h => hsame (Option.some.inj h).symm
        rw [if_neg hsame]
        simp [hleaf,hother]

/-- The interfaces that name another one in a leaf of theirs. -/
theorem mem_riders (hclean : (schema zones).validateTree config = []) {leaf carrier rider : String}
    (hleaf : leaf ∉ ["address","disable","member","stp"]) :
    rider ∈ ((riders config kind leaf).get? carrier).getD [] ↔
      config.Holds (Shipped.setting kind rider leaf) carrier := by
  rw [riders_eq,List.mem_filterMap]
  constructor
  · rintro ⟨⟨name,node⟩,hmem,hsome⟩
    have hget := mem_instances.mp hmem
    dsimp only at hsome
    split_ifs at hsome with hcarrier
    cases hsome
    exact (leaf_iff hclean hget hleaf).mp hcarrier
  · intro hholds
    obtain ⟨node,hget⟩ := interface_of_holds hholds
    refine ⟨(rider,node),mem_instances.mpr hget,?_⟩
    rw [if_pos ((leaf_iff hclean hget hleaf).mpr hholds)]

end Nightshade.Render.Networkd
