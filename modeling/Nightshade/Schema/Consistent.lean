import Mathlib
import Nightshade.Schema.Cross

/-! What the shipped rules between nodes mean: the relations between interfaces that they are there
for, and where it is reported that one of them is broken. -/
namespace Nightshade.Schema
open Foundation

/-- What is within a range is read as a number of it. -/
theorem Range.parse_of_check {r : Range} {value : String}
    (h : ValueSpec.check ⟨.number r,[],none⟩ value = .ok ()) :
    ∃ n, Value.parseInt value.toList = some n ∧ r.min ≤ n ∧ n ≤ r.max := by
  have hcheck : r.check value = .ok () := by
    cases hr : r.check value with
    | ok u => rfl
    | error e => simp [ValueSpec.check,ValueType.check,hr] at h
  unfold Range.check at hcheck
  cases hread : Value.parseInt value.toList with
  | none =>
    rw [hread] at hcheck
    cases hcheck
  | some n =>
    simp only [hread] at hcheck
    by_cases hout : n < r.min ∨ r.max < n
    · rw [if_pos hout] at hcheck
      cases hcheck
    · push Not at hout
      exact ⟨n,rfl,hout⟩

/-! ### Reading a tree -/

section Reading
variable {tree : ConfigTree} {path : Path} {value : String} {current : Option String}

theorem mem_patternValues {pattern : PathPattern} : value ∈ patternValues tree pattern current ↔
    ∃ p, (tree.contains p ∧ pattern.Matches current p) ∧ value ∈ contributed tree p := by
  unfold patternValues
  rw [List.mem_flatMap]
  exact exists_congr (fun p => and_congr_left' mem_expand)

theorem get_of_holds (h : tree.Holds path value) :
    ∃ n vs, tree.get path = some n ∧ n.valueSet = some vs ∧ value ∈ vs := by
  obtain ⟨vs,hvs,hvalue⟩ := h
  obtain ⟨n,hn,hset⟩ := Option.bind_eq_some_iff.mp hvs
  exact ⟨n,vs,hn,hset,hvalue⟩

theorem contains_of_holds (h : tree.Holds path value) : tree.contains path := by
  obtain ⟨n,-,hn,-⟩ := get_of_holds h
  exact Option.isSome_iff_exists.mpr ⟨n,hn⟩

namespace Schema

/-- What a rule of a node has to say is said at the node. -/
theorem mem_atNode {location : Location} {at_ : Path} {n : Node} {k : Constraint} {v : ConstraintViolation}
    (hplace : location.isPlace) (hk : k ∈ location.schemaNode.constraints)
    (hv : v ∈ checkConstraint k n at_ current tree) : v ∈ atNode tree location at_ current n := by
  cases location with
  | value leaf => cases hplace
  | node s | inst s =>
    rw [atNode,List.mem_append]
    exact .inl (List.mem_flatMap.mpr ⟨k,hk,hv⟩)

theorem mem_valueInPathSet {paths : List PathPattern} {message : String} {at_ : Path} {n : Node}
    {vs : List String} (hset : n.valueSet = some vs) (hvalue : value ∈ vs)
    (hnone : ∀ pattern ∈ paths, value ∉ patternValues tree pattern current) :
    ∃ v ∈ checkConstraint (.valueInPathSet paths message) n at_ current tree, v.path = at_ := by
  refine ⟨⟨at_,fill message [("value",value),("path",at_.display)]⟩,?_,rfl⟩
  rw [checkConstraint,hset,Option.getD_some]
  refine List.mem_flatMap.mpr ⟨value,hvalue,?_⟩
  have hallowed : ¬((paths.flatMap (fun p => patternValues tree p current)).contains value) := by
    rw [List.contains_iff_mem,List.mem_flatMap]
    rintro ⟨pattern,hpattern,hmem⟩
    exact hnone pattern hpattern hmem
  rw [if_neg hallowed]
  exact List.mem_singleton.mpr rfl

theorem mem_pathExists {pattern : PathPattern} {message : String} {at_ : Path} {n : Node}
    (hnone : ∀ p, tree.contains p → ¬pattern.Matches current p) :
    ∃ v ∈ checkConstraint (.pathExists pattern message) n at_ current tree, v.path = at_ := by
  have hempty : expand tree pattern current = [] := by
    rw [List.eq_nil_iff_forall_not_mem]
    intro p hp
    obtain ⟨hthere,hmatches⟩ := mem_expand.mp hp
    exact hnone p hthere hmatches
  refine ⟨⟨at_,fill message [("path",pattern.display)]⟩,?_,rfl⟩
  simp [checkConstraint,hempty]

theorem mem_pathHasValue {pattern : PathPattern} {message : String} {at_ : Path} {n : Node}
    (hnone : ∀ p, pattern.Matches current p → ¬tree.Holds p value) :
    ∃ v ∈ checkConstraint (.pathHasValue pattern value message) n at_ current tree, v.path = at_ := by
  refine ⟨⟨at_,fill message [("path",pattern.display),("value",value)]⟩,?_,rfl⟩
  have hany : ¬(expand tree pattern current).any
      (fun p => (tree.valuesAt p).any (fun v => v.contains value)) := by
    rw [List.any_eq_true]
    rintro ⟨p,hp,hvalue⟩
    cases hvs : tree.valuesAt p with
    | none =>
      rw [hvs] at hvalue
      cases hvalue
    | some vs =>
      rw [hvs,Option.any_some] at hvalue
      exact hnone p (mem_expand.mp hp).2 ⟨vs,hvs,List.contains_iff_mem.mp hvalue⟩
  rw [checkConstraint,if_neg hany]
  exact List.mem_singleton.mpr rfl

end Schema
end Reading

open Schema

namespace Shipped

/-! ### Interfaces -/

/-- Where an interface is configured. -/
def interface (kind name : String) : Path := ["interfaces",kind,name]

/-- Where a setting of an interface is. -/
def setting (kind name leaf : String) : Path := ["interfaces",kind,name,leaf]

/-- The pattern for the interfaces of one kind. -/
def every (kind : String) : PathPattern := [.literal "interfaces",.literal kind,.any]

theorem every_matches {kind : String} {current : Option String} {p : Path} :
    (every kind).Matches current p ↔ ∃ name, p = interface kind name := by
  constructor
  · intro h
    obtain ⟨a,u₁,ha,h₁,rfl⟩ := List.forall₂_cons_left_iff.mp h
    obtain ⟨b,u₂,hb,h₂,rfl⟩ := List.forall₂_cons_left_iff.mp h₁
    obtain ⟨name,u₃,-,h₃,rfl⟩ := List.forall₂_cons_left_iff.mp h₂
    obtain rfl := List.forall₂_nil_left_iff.mp h₃
    cases ha
    cases hb
    exact ⟨name,rfl⟩
  · rintro ⟨name,rfl⟩
    exact .cons rfl (.cons rfl (.cons trivial .nil))

/-- Bonds and bridges, which have members. -/
def masters : List String := ["bonding","bridge"]

/-- The kinds of interface whose members must have no address. -/
def slaves : List String := ["ethernet","bonding","vlan"]

/-- The settings that name an interface, and the kinds that it may be of. -/
def references : List (String × String × List String) :=
  [("bonding","member",["ethernet"]),
   ("bridge","member",["ethernet","bonding","vlan"]),
   ("vlan","parent",["ethernet","bonding","bridge"]),
   ("vxlan","source-interface",["ethernet","bonding","bridge","vlan"])]

/-- What the interfaces of a configuration have to do with one another. -/
structure Consistent (tree : ConfigTree) : Prop where
  /-- Nothing is a member twice. -/
  exclusive : ∀ kind ∈ masters, ∀ kind' ∈ masters, ∀ name name' member,
    tree.Holds (setting kind name "member") member → tree.Holds (setting kind' name' "member") member →
      kind = kind' ∧ name = name'
  /-- No member has an address. -/
  unaddressed : ∀ kind ∈ masters, ∀ name member, tree.Holds (setting kind name "member") member →
    ∀ slave ∈ slaves, ¬tree.contains (setting slave member "address")
  /-- What is named is configured, as one of the kinds that it may be of. -/
  configured : ∀ kind leaf kinds, (kind,leaf,kinds) ∈ references → ∀ name value,
    tree.Holds (setting kind name leaf) value → ∃ k ∈ kinds, tree.contains (interface k value)
  /-- A primary is a member of its own bond, in the mode that has one. -/
  primary : ∀ name value, tree.Holds (setting "bonding" name "primary") value →
    tree.Holds (setting "bonding" name "member") value ∧
      tree.Holds (setting "bonding" name "mode") "active-backup"
  /-- A group is joined from somewhere. -/
  grouped : ∀ name, tree.contains (setting "vxlan" name "group") →
    tree.contains (setting "vxlan" name "source-interface")

/-- One of these relations is broken, and the interface that it is broken at. -/
inductive Broken (tree : ConfigTree) : Path → Prop where
  | shared {kind kind' name name' member : String} (master : kind ∈ masters) (other : kind' ∈ masters)
    (apart : ¬(kind = kind' ∧ name = name')) (holds : tree.Holds (setting kind name "member") member)
    (holds' : tree.Holds (setting kind' name' "member") member) : Broken tree (interface kind name)
  | addressed {kind name member slave : String} (master : kind ∈ masters)
    (holds : tree.Holds (setting kind name "member") member) (slaves : slave ∈ slaves)
    (there : tree.contains (setting slave member "address")) : Broken tree (interface slave member)
  | dangling {kind leaf name value : String} {kinds : List String}
    (reference : (kind,leaf,kinds) ∈ references) (holds : tree.Holds (setting kind name leaf) value)
    (nowhere : ∀ k ∈ kinds, ¬tree.contains (interface k value)) : Broken tree (interface kind name)
  | stranger {name value : String} (holds : tree.Holds (setting "bonding" name "primary") value)
    (absent : ¬tree.Holds (setting "bonding" name "member") value) :
    Broken tree (interface "bonding" name)
  | mode {name value : String} (holds : tree.Holds (setting "bonding" name "primary") value)
    (other : ¬tree.Holds (setting "bonding" name "mode") "active-backup") :
    Broken tree (interface "bonding" name)
  | unjoined {name : String} (there : tree.contains (setting "vxlan" name "group"))
    (absent : ¬tree.contains (setting "vxlan" name "source-interface")) :
    Broken tree (interface "vxlan" name)

theorem consistent_iff {tree : ConfigTree} : Consistent tree ↔ ∀ at_, ¬Broken tree at_ := by
  constructor
  · intro h at_ hbroken
    cases hbroken with
    | shared hmaster hother hapart hholds hholds' =>
      exact hapart (h.exclusive _ hmaster _ hother _ _ _ hholds hholds')
    | addressed hmaster hholds hslave hthere => exact h.unaddressed _ hmaster _ _ hholds _ hslave hthere
    | dangling hreference hholds hnowhere =>
      obtain ⟨k,hk,hthere⟩ := h.configured _ _ _ hreference _ _ hholds
      exact hnowhere k hk hthere
    | stranger hholds habsent => exact habsent (h.primary _ _ hholds).1
    | mode hholds hother => exact hother (h.primary _ _ hholds).2
    | unjoined hthere habsent => exact habsent (h.grouped _ hthere)
  · intro h
    constructor
    · intro kind hmaster kind' hother name name' member hholds hholds'
      by_contra hapart
      exact h _ (.shared hmaster hother hapart hholds hholds')
    · intro kind hmaster name member hholds slave hslave hthere
      exact h _ (.addressed hmaster hholds hslave hthere)
    · intro kind leaf kinds hreference name value hholds
      by_contra hnone
      push Not at hnone
      exact h _ (.dangling hreference hholds hnone)
    · intro name value hholds
      constructor
      · by_contra habsent
        exact h _ (.stranger hholds habsent)
      · by_contra hother
        exact h _ (.mode hholds hother)
    · intro name hthere
      by_contra habsent
      exact h _ (.unjoined hthere habsent)

/-! ### The shipped rules -/

section Rules
variable {zones : List String} {tree : ConfigTree}

/-- The rule for a setting that names an interface is where the walk looks for it. -/
theorem rule_of_references (zones : List String) {kind leaf : String} {kinds : List String}
    (h : (kind,leaf,kinds) ∈ references) (name : String) : ∃ n message,
      (setting kind name leaf).foldlM Location.crossNext (.node (schema zones).root,none) =
        some (.node n,some name) ∧
      .valueInPathSet (kinds.map every) message ∈ n.constraints := by
  unfold references at h
  simp only [List.mem_cons,Prod.mk.injEq,List.not_mem_nil,or_false] at h
  obtain ⟨rfl,rfl,rfl⟩ | ⟨rfl,rfl,rfl⟩ | ⟨rfl,rfl,rfl⟩ | ⟨rfl,rfl,rfl⟩ := h
  all_goals exact ⟨_,_,rfl,.head _⟩

/-- Nodes of a clean tree are what the schema says of their places. -/
theorem fits_at (hclean : (schema zones).validateTree tree = []) {path : Path} {n : Node}
    {location : Location} (hget : tree.get path = some n)
    (hnext : path.foldlM Location.next (.node (schema zones).root) = some location) : n.Fits location := by
  obtain ⟨inner,hreach,hfits⟩ := Node.fits_of_get (validateTree_eq_nil.mp hclean) hget
  have hsame := (next_of_enters hreach).symm.trans hnext
  rwa [Option.some.inj hsame] at hfits

theorem valuesAt_interface (hclean : (schema zones).validateTree tree = []) {kind : String} (name : String)
    (hkind : kind ∈ ["ethernet","bonding","bridge","vlan"]) : tree.valuesAt (interface kind name) = none := by
  have hinst : ∃ tag, (interface kind name).foldlM Location.next (.node (schema zones).root) =
      some (.inst tag) := by
    simp only [List.mem_cons,List.not_mem_nil,or_false] at hkind
    obtain rfl | rfl | rfl | rfl := hkind
    all_goals exact ⟨_,rfl⟩
  obtain ⟨tag,hinst⟩ := hinst
  unfold ConfigTree.valuesAt
  cases hget : tree.get (interface kind name) with
  | none => rfl
  | some n =>
    have hfits := fits_at hclean hget hinst
    obtain ⟨c,cs | vs⟩ := n
    · rfl
    · exact absurd (Node.fits_values.mp hfits) id

/-- The names that a pattern for interfaces stands for are those of configured ones. -/
theorem contains_of_every (hclean : (schema zones).validateTree tree = []) {kind value : String}
    {current : Option String} (hkind : kind ∈ ["ethernet","bonding","bridge","vlan"])
    (h : value ∈ patternValues tree (every kind) current) : tree.contains (interface kind value) := by
  obtain ⟨p,⟨hthere,hmatches⟩,hvalue⟩ := mem_patternValues.mp h
  obtain ⟨name,rfl⟩ := every_matches.mp hmatches
  rcases mem_contributed.mp hvalue with ⟨vs,hvs,-⟩ | ⟨-,hlast⟩
  · rw [valuesAt_interface hclean name hkind] at hvs
    cases hvs
  · obtain rfl : name = value := Option.some.inj hlast
    exact hthere

theorem reported_dangling (hclean : (schema zones).validateTree tree = []) {kind leaf name value : String}
    {kinds : List String} (hreference : (kind,leaf,kinds) ∈ references)
    (hholds : tree.Holds (setting kind name leaf) value)
    (hnowhere : ∀ k ∈ kinds, ¬tree.contains (interface k value)) :
    ∃ v ∈ (schema zones).checkConstraints tree, v.path = setting kind name leaf := by
  obtain ⟨n,message,hreach,hrule⟩ := rule_of_references zones hreference name
  obtain ⟨m,vs,hget,hset,hvalue⟩ := get_of_holds hholds
  have hkinds : kinds ⊆ ["ethernet","bonding","bridge","vlan"] := by
    simp only [references,List.mem_cons,Prod.mk.injEq,List.not_mem_nil,or_false] at hreference
    obtain ⟨-,-,rfl⟩ | ⟨-,-,rfl⟩ | ⟨-,-,rfl⟩ | ⟨-,-,rfl⟩ := hreference
    all_goals simp
  have hnone : ∀ pattern ∈ kinds.map every, value ∉ patternValues tree pattern (some name) := by
    intro pattern hpattern hmem
    obtain ⟨k,hk,rfl⟩ := List.mem_map.mp hpattern
    exact hnowhere k hk (contains_of_every hclean (hkinds hk) hmem)
  obtain ⟨v,hv,hpath⟩ := mem_valueInPathSet hset hvalue hnone
  exact ⟨v,reported_at hget hreach (mem_atNode rfl hrule hv),hpath⟩

/-- The rules of a primary: it is a member, and its bond has a mode for it. -/
theorem rules_of_primary (zones : List String) (name : String) : ∃ n message message',
    (setting "bonding" name "primary").foldlM Location.crossNext (.node (schema zones).root,none) =
      some (.node n,some name) ∧
    .valueInPathSet [[.literal "interfaces",.literal "bonding",.current,.literal "member"]] message ∈
      n.constraints ∧
    .pathHasValue [.literal "interfaces",.literal "bonding",.current,.literal "mode"] "active-backup" message' ∈
      n.constraints :=
  ⟨_,_,_,rfl,.head _,.tail _ (.head _)⟩

theorem rule_of_group (zones : List String) (name : String) : ∃ n message,
    (setting "vxlan" name "group").foldlM Location.crossNext (.node (schema zones).root,none) =
      some (.node n,some name) ∧
    .pathExists [.literal "interfaces",.literal "vxlan",.current,.literal "source-interface"] message ∈
      n.constraints :=
  ⟨_,_,rfl,.head _⟩

theorem current_matches {kind leaf name : String} {p : Path} :
    PathPattern.Matches (some name) [.literal "interfaces",.literal kind,.current,.literal leaf] p ↔
      p = setting kind name leaf := by
  constructor
  · intro h
    obtain ⟨a,u₁,ha,h₁,rfl⟩ := List.forall₂_cons_left_iff.mp h
    obtain ⟨b,u₂,hb,h₂,rfl⟩ := List.forall₂_cons_left_iff.mp h₁
    obtain ⟨c,u₃,hc,h₃,rfl⟩ := List.forall₂_cons_left_iff.mp h₂
    obtain ⟨d,u₄,hd,h₄,rfl⟩ := List.forall₂_cons_left_iff.mp h₃
    obtain rfl := List.forall₂_nil_left_iff.mp h₄
    cases ha
    cases hb
    cases hc
    cases hd
    rfl
  · rintro rfl
    exact .cons rfl (.cons rfl (.cons rfl (.cons rfl .nil)))

theorem reported_stranger (hclean : (schema zones).validateTree tree = []) {name value : String}
    (hholds : tree.Holds (setting "bonding" name "primary") value)
    (habsent : ¬tree.Holds (setting "bonding" name "member") value) :
    ∃ v ∈ (schema zones).checkConstraints tree, v.path = setting "bonding" name "primary" := by
  obtain ⟨n,message,-,hreach,hrule,-⟩ := rules_of_primary zones name
  obtain ⟨m,vs,hget,hset,hvalue⟩ := get_of_holds hholds
  have hnone : ∀ pattern ∈ [[.literal "interfaces",.literal "bonding",.current,.literal "member"]],
      value ∉ patternValues tree pattern (some name) := by
    intro pattern hpattern hmem
    obtain rfl := List.mem_singleton.mp hpattern
    obtain ⟨p,⟨hthere,hmatches⟩,hcontributed⟩ := mem_patternValues.mp hmem
    obtain rfl := current_matches.mp hmatches
    rcases mem_contributed.mp hcontributed with hmember | ⟨hvalues,-⟩
    · exact habsent hmember
    · -- Members are values and not nodes of their own.
      obtain ⟨m',hget'⟩ := Option.isSome_iff_exists.mp hthere
      have hfits := fits_at hclean hget' rfl
      obtain ⟨c,cs | ws⟩ := m'
      · exact absurd (Node.fits_interior.mp hfits).1 (by decide)
      · rw [ConfigTree.valuesAt,hget'] at hvalues
        cases hvalues
  obtain ⟨v,hv,hpath⟩ := mem_valueInPathSet hset hvalue hnone
  exact ⟨v,reported_at hget hreach (mem_atNode rfl hrule hv),hpath⟩

theorem reported_mode {name value : String} (hholds : tree.Holds (setting "bonding" name "primary") value)
    (hother : ¬tree.Holds (setting "bonding" name "mode") "active-backup") :
    ∃ v ∈ (schema zones).checkConstraints tree, v.path = setting "bonding" name "primary" := by
  obtain ⟨n,-,message,hreach,-,hrule⟩ := rules_of_primary zones name
  obtain ⟨m,vs,hget,-,-⟩ := get_of_holds hholds
  obtain ⟨v,hv,hpath⟩ := mem_pathHasValue (fun p hp => by rwa [current_matches.mp hp])
  exact ⟨v,reported_at hget hreach (mem_atNode rfl hrule hv),hpath⟩

theorem reported_unjoined {name : String} (hthere : tree.contains (setting "vxlan" name "group"))
    (habsent : ¬tree.contains (setting "vxlan" name "source-interface")) :
    ∃ v ∈ (schema zones).checkConstraints tree, v.path = setting "vxlan" name "group" := by
  obtain ⟨n,message,hreach,hrule⟩ := rule_of_group zones name
  obtain ⟨m,hget⟩ := Option.isSome_iff_exists.mp hthere
  obtain ⟨v,hv,hpath⟩ := mem_pathExists (fun p hp hmatches =>
    habsent (by rwa [← current_matches.mp hmatches]))
  exact ⟨v,reported_at hget hreach (mem_atNode rfl hrule hv),hpath⟩

/-! ### Members -/

/-- The pattern for the members of masters of one kind. -/
def members (kind : String) : PathPattern :=
  [.literal "interfaces",.literal kind,.any,.literal "member"]

theorem claims_member {kind name member : String} (hmaster : kind ∈ masters)
    (hholds : tree.Holds (setting kind name "member") member) :
    Claims tree (masters.map members) member (setting kind name "member") := by
  refine ⟨⟨members kind,List.mem_map.mpr ⟨kind,hmaster,rfl⟩,contains_of_holds hholds,?_⟩,
    mem_contributed.mpr (.inl hholds)⟩
  exact .cons rfl (.cons rfl (.cons trivial (.cons rfl .nil)))

theorem reported_shared {kind kind' name name' member : String} (hmaster : kind ∈ masters)
    (hother : kind' ∈ masters) (hapart : ¬(kind = kind' ∧ name = name'))
    (hholds : tree.Holds (setting kind name "member") member)
    (hholds' : tree.Holds (setting kind' name' "member") member) :
    ∃ v ∈ (schema zones).checkConstraints tree, v.path = setting kind name "member" := by
  have hne : setting kind name "member" ≠ setting kind' name' "member" := by
    simpa [setting] using hapart
  have hrule : ∃ message, .uniqueAcross (masters.map members) message ∈ (schema zones).globals :=
    ⟨_,.head _⟩
  obtain ⟨message,hrule⟩ := hrule
  obtain ⟨v,hv,hpath⟩ := mem_uniqueAcross (claims_member hmaster hholds) (claims_member hother hholds') hne
  exact ⟨v,mem_checkConstraints.mpr (.inr ⟨_,hrule,hv⟩),hpath⟩

theorem reported_addressed {kind name member slave : String} (hmaster : kind ∈ masters)
    (hholds : tree.Holds (setting kind name "member") member) (hslave : slave ∈ slaves)
    (hthere : tree.contains (setting slave member "address")) :
    ∃ v ∈ (schema zones).checkConstraints tree, v.path = setting slave member "address" := by
  have hrule : ∃ message, .forbidChildOnReferenced (masters.map members)
      (slaves.map (fun kind => [.literal "interfaces",.literal kind])) "address" message ∈
        (schema zones).globals := ⟨_,.tail _ (.head _)⟩
  obtain ⟨message,hrule⟩ := hrule
  have hinst := @contains_of_concat tree (interface slave member) "address" hthere
  have hbase := @contains_of_concat tree ["interfaces",slave] member hinst
  have hmatches : PathPattern.Matches none [.literal "interfaces",.literal slave] ["interfaces",slave] :=
    .cons rfl (.cons rfl .nil)
  have hsearch : [.literal "interfaces",.literal slave] ∈
      slaves.map (fun kind => [PatternSegment.literal "interfaces",.literal kind]) :=
    List.mem_map.mpr ⟨slave,hslave,rfl⟩
  obtain ⟨v,hv,hpath⟩ := mem_forbidChild (claims_member hmaster hholds) hsearch ⟨hbase,hmatches⟩ hthere
  exact ⟨v,mem_checkConstraints.mpr (.inr ⟨_,hrule,hv⟩),hpath⟩

/-- A relation that is broken is reported at a setting of the interface that it is broken at. -/
theorem reported_broken (hclean : (schema zones).validateTree tree = []) {at_ : Path}
    (h : Broken tree at_) : ∃ v ∈ (schema zones).checkConstraints tree, at_ <+: v.path := by
  have hunder : ∀ kind name leaf, interface kind name <+: setting kind name leaf :=
    fun kind name leaf => ⟨[leaf],rfl⟩
  have hreported : ∃ kind name leaf, at_ = interface kind name ∧
      ∃ v ∈ (schema zones).checkConstraints tree, v.path = setting kind name leaf := by
    cases h with
    | shared hmaster hother hapart hholds hholds' =>
      exact ⟨_,_,_,rfl,reported_shared hmaster hother hapart hholds hholds'⟩
    | addressed hmaster hholds hslave hthere =>
      exact ⟨_,_,_,rfl,reported_addressed hmaster hholds hslave hthere⟩
    | dangling hreference hholds hnowhere =>
      exact ⟨_,_,_,rfl,reported_dangling hclean hreference hholds hnowhere⟩
    | stranger hholds habsent => exact ⟨_,_,_,rfl,reported_stranger hclean hholds habsent⟩
    | mode hholds hother => exact ⟨_,_,_,rfl,reported_mode hholds hother⟩
    | unjoined hthere habsent => exact ⟨_,_,_,rfl,reported_unjoined hthere habsent⟩
  obtain ⟨kind,name,leaf,rfl,v,hv,hpath⟩ := hreported
  exact ⟨v,hv,hpath ▸ hunder kind name leaf⟩

theorem consistent_of_checked (hclean : (schema zones).validateTree tree = [])
    (hcross : (schema zones).checkConstraints tree = []) : Consistent tree := by
  refine consistent_iff.mpr (fun at_ hbroken => ?_)
  obtain ⟨v,hv,-⟩ := reported_broken hclean hbroken
  rw [hcross] at hv
  cases hv

/-- The rules between nodes mean what they say: interfaces are consistent wherever the rules have
nothing to report, and what is broken is reported where it is. -/
theorem rules_mean_consistent (zones : List String) (tree : ConfigTree)
    (hclean : (schema zones).validateTree tree = []) :
    ((schema zones).checkConstraints tree = [] → Consistent tree) ∧
      ∀ at_, Broken tree at_ → ∃ v ∈ (schema zones).checkConstraints tree, at_ <+: v.path := by
  constructor
  · exact consistent_of_checked hclean
  · exact fun at_ hbroken => reported_broken hclean hbroken

/-- A port with an address of its own, in a bond. -/
def enslaved : ConfigTree :=
  [(setting "ethernet" "eth0" "address","192.0.2.1/24"),(setting "bonding" "bond0" "member","eth0")].foldl
    (fun tree e => (tree.set e.1 e.2).2) .new

theorem enslaved_reported : ∃ v ∈ (schema []).checkConstraints enslaved, interface "ethernet" "eth0" <+: v.path :=
  (rules_mean_consistent [] enslaved (by decide +kernel)).2 _
    (@Broken.addressed enslaved "bonding" "bond0" "eth0" "ethernet" (by decide)
      ⟨["eth0"],by decide +kernel,by decide⟩ (by decide) (by decide +kernel))

/-! ### Tags -/

/-- A leaf of a clean tree has one value, and its type has nothing against it. -/
theorem leaf_of_holds (hclean : (schema zones).validateTree tree = []) {kind name leaf value : String}
    {n : SchemaNode} {spec : ValueSpec}
    (hnext : (setting kind name leaf).foldlM Location.next (.node (schema zones).root) = some (.node n))
    (hkind : n.kind = .leaf spec) (hholds : tree.Holds (setting kind name leaf) value) :
    tree.valuesAt (setting kind name leaf) = some [value] ∧ spec.check value = .ok () := by
  obtain ⟨m,vs,hget,hset,hvalue⟩ := get_of_holds hholds
  have hfits := fits_at hclean hget hnext
  obtain ⟨c,cs | ws⟩ := m
  · cases hset
  · obtain rfl : ws = vs := Option.some.inj hset
    have hplace := Node.fits_values.mp hfits
    simp only [Location.Holds,hkind] at hplace
    obtain ⟨v,rfl,hcheck⟩ := hplace
    obtain rfl := List.mem_singleton.mp hvalue
    refine ⟨?_,hcheck⟩
    rw [ConfigTree.valuesAt,hget]
    rfl

/-- The instances of a kind, and the one of a setting among them. -/
theorem instance_of_setting {kind name leaf value : String}
    (hvalue : tree.valuesAt (setting kind name leaf) = some [value]) :
    ∃ c cs inst, tree.get ["interfaces",kind] = some ⟨c,.interior cs⟩ ∧ (name,inst) ∈ cs ∧
      (inst.children.bind (fun ds => ds.lookup leaf)).bind Node.value = some value := by
  obtain ⟨m,hget,hset⟩ := Option.bind_eq_some_iff.mp hvalue
  obtain ⟨c',ds,hinst,hleaf⟩ := (@Node.get_concat (interface kind name) leaf tree.root m).mp hget
  obtain ⟨c,cs,hkind,hname⟩ := (@Node.get_concat ["interfaces",kind] name tree.root _).mp hinst
  have hord := Node.ordered_get tree.ordered hkind
  refine ⟨c,cs,_,hkind,(lookup_eq_some_iff_mem (Node.ordered_interior.mp hord).1).mp hname,?_⟩
  rw [Node.children,Option.bind_some,hleaf,Option.bind_some,Node.value,hset]

/-- No two instances of a kind hold one tuple of values that must be unique. -/
theorem unique_of_checked (hchecked : (schema zones).checkConstraints tree = []) {kind a b : String}
    {n : SchemaNode} {tuple values : List String}
    (hreach : ["interfaces",kind].foldlM Location.crossNext (.node (schema zones).root,none) =
      some (.node n,none))
    (htag : n.isTag) (htuple : tuple ∈ n.unique) {c : Option String} {cs : List (String × Node)}
    (hget : tree.get ["interfaces",kind] = some ⟨c,.interior cs⟩) {e d : Node} (he : (a,e) ∈ cs)
    (hd : (b,d) ∈ cs) (hvalues : tupleValues e tuple = some values)
    (hvalues' : tupleValues d tuple = some values) : a = b := by
  have hunique : checkUnique n cs ["interfaces",kind] = [] := by
    rw [List.eq_nil_iff_forall_not_mem]
    intro v hv
    have hreported : v ∈ (schema zones).checkConstraints tree := by
      refine reported_at hget hreach ?_
      simp only [atNode,Node.children,Option.elim_some,htag,if_true]
      exact List.mem_append_right _ hv
    rw [hchecked] at hreported
    cases hreported
  have hsymm : Std.Symm (Apart tuple) := ⟨fun e d h values hd he => h values he hd⟩
  by_contra hne
  have hapart := (apart_of_checkUnique hunique htuple).forall he hd (by simp [hne])
  exact hapart values hvalues hvalues'

/-- A setting holds a text that the parser of numbers reads as a number. -/
def NumberAt (tree : ConfigTree) (path : Path) (number : ℤ) : Prop :=
  ∃ text, tree.Holds path text ∧ Value.parseInt text.toList = some number

/-- No two devices have one tag on one network. -/
structure TaggedApart (tree : ConfigTree) : Prop where
  vlan : ∀ a b parent number, tree.Holds (setting "vlan" a "parent") parent →
    tree.Holds (setting "vlan" b "parent") parent → NumberAt tree (setting "vlan" a "id") number →
      NumberAt tree (setting "vlan" b "id") number → a = b
  vxlan : ∀ a b number, NumberAt tree (setting "vxlan" a "vni") number →
    NumberAt tree (setting "vxlan" b "vni") number → a = b

/-- One number is written in one way, wherever two would collide. -/
structure SpelledAlike (tree : ConfigTree) : Prop where
  vlan : ∀ a b parent s t, tree.Holds (setting "vlan" a "parent") parent →
    tree.Holds (setting "vlan" b "parent") parent → tree.Holds (setting "vlan" a "id") s →
      tree.Holds (setting "vlan" b "id") t → Value.parseInt s.toList = Value.parseInt t.toList → s = t
  vxlan : ∀ a b s t, tree.Holds (setting "vxlan" a "vni") s → tree.Holds (setting "vxlan" b "vni") t →
    Value.parseInt s.toList = Value.parseInt t.toList → s = t

theorem vlan_unique (hclean : (schema zones).validateTree tree = [])
    (hchecked : (schema zones).checkConstraints tree = []) {a b parent text : String}
    (hparent : tree.Holds (setting "vlan" a "parent") parent)
    (hparent' : tree.Holds (setting "vlan" b "parent") parent) (hid : tree.Holds (setting "vlan" a "id") text)
    (hid' : tree.Holds (setting "vlan" b "id") text) : a = b := by
  have hinstance : ∀ name, tree.Holds (setting "vlan" name "parent") parent →
      tree.Holds (setting "vlan" name "id") text → ∃ c cs inst,
        tree.get ["interfaces","vlan"] = some ⟨c,.interior cs⟩ ∧ (name,inst) ∈ cs ∧
        tupleValues inst ["parent","id"] = some [parent,text] := by
    intro name hp hi
    obtain ⟨c,cs,inst,hget,hmem,hfirst⟩ := instance_of_setting (leaf_of_holds hclean rfl rfl hp).1
    obtain ⟨c',cs',inst',hget',hmem',hsecond⟩ := instance_of_setting (leaf_of_holds hclean rfl rfl hi).1
    rw [hget] at hget'
    cases hget'
    have hord := (Node.ordered_interior.mp (Node.ordered_get tree.ordered hget)).1
    have hsame := ((lookup_eq_some_iff_mem hord).mpr hmem).symm.trans ((lookup_eq_some_iff_mem hord).mpr hmem')
    cases hsame
    exact ⟨c,cs,inst,hget,hmem,by simp [tupleValues,hfirst,hsecond]⟩
  obtain ⟨c,cs,inst,hget,hmem,hvalues⟩ := hinstance a hparent hid
  obtain ⟨c',cs',inst',hget',hmem',hvalues'⟩ := hinstance b hparent' hid'
  rw [hget] at hget'
  cases hget'
  exact unique_of_checked hchecked rfl rfl (.head _) hget hmem hmem' hvalues hvalues'

theorem vxlan_unique (hclean : (schema zones).validateTree tree = [])
    (hchecked : (schema zones).checkConstraints tree = []) {a b text : String}
    (hvni : tree.Holds (setting "vxlan" a "vni") text) (hvni' : tree.Holds (setting "vxlan" b "vni") text) :
    a = b := by
  obtain ⟨c,cs,inst,hget,hmem,hvalue⟩ := instance_of_setting (leaf_of_holds hclean rfl rfl hvni).1
  obtain ⟨c',cs',inst',hget',hmem',hvalue'⟩ := instance_of_setting (leaf_of_holds hclean rfl rfl hvni').1
  rw [hget] at hget'
  cases hget'
  have hvalues : tupleValues inst ["vni"] = some [text] := by simp [tupleValues,hvalue]
  have hvalues' : tupleValues inst' ["vni"] = some [text] := by simp [tupleValues,hvalue']
  exact unique_of_checked hchecked rfl rfl (.head _) hget hmem hmem' hvalues hvalues'

/-- The rule compares texts: the tags of an accepted configuration are apart just where none of them
is spelled in two ways. -/
theorem taggedApart_iff (zones : List String) (tree : ConfigTree)
    (hclean : (schema zones).validateTree tree = [])
    (hchecked : (schema zones).checkConstraints tree = []) : TaggedApart tree ↔ SpelledAlike tree := by
  constructor
  · intro h
    constructor
    · intro a b parent s t hparent hparent' hs ht hsame
      obtain ⟨number,hread,-⟩ := Range.parse_of_check (leaf_of_holds hclean rfl rfl hs).2
      obtain rfl := h.vlan a b parent number hparent hparent' ⟨s,hs,hread⟩ ⟨t,ht,hsame ▸ hread⟩
      have hone := (leaf_of_holds hclean rfl rfl hs).1.symm.trans (leaf_of_holds hclean rfl rfl ht).1
      simpa using hone
    · intro a b s t hs ht hsame
      obtain ⟨number,hread,-⟩ := Range.parse_of_check (leaf_of_holds hclean rfl rfl hs).2
      obtain rfl := h.vxlan a b number ⟨s,hs,hread⟩ ⟨t,ht,hsame ▸ hread⟩
      have hone := (leaf_of_holds hclean rfl rfl hs).1.symm.trans (leaf_of_holds hclean rfl rfl ht).1
      simpa using hone
  · intro h
    constructor
    · intro a b parent number hparent hparent' ⟨s,hs,hread⟩ ⟨t,ht,hread'⟩
      obtain rfl := h.vlan a b parent s t hparent hparent' hs ht (hread.trans hread'.symm)
      exact vlan_unique hclean hchecked hparent hparent' hs ht
    · intro a b number ⟨s,hs,hread⟩ ⟨t,ht,hread'⟩
      obtain rfl := h.vxlan a b s t hs ht (hread.trans hread'.symm)
      exact vxlan_unique hclean hchecked hs ht

end Rules

/-- Two interfaces on one port that are given tag ten, in two spellings. -/
def spelledTwice : ConfigTree :=
  [(setting "ethernet" "eth0" "mtu","1500"),(setting "vlan" "vlan1" "parent","eth0"),
   (setting "vlan" "vlan1" "id","10"),(setting "vlan" "vlan2" "parent","eth0"),
   (setting "vlan" "vlan2" "id","010")].foldl (fun tree e => (tree.set e.1 e.2).2) .new

theorem tag_given_twice : (schema []).validateTree spelledTwice = [] ∧
    (schema []).checkConstraints spelledTwice = [] ∧ ¬TaggedApart spelledTwice := by
  refine ⟨by decide +kernel,by decide +kernel,fun h => ?_⟩
  have hparent : ∀ name ∈ ["vlan1","vlan2"], spelledTwice.Holds (setting "vlan" name "parent") "eth0" := by
    intro name hname
    simp only [List.mem_cons,List.not_mem_nil,or_false] at hname
    obtain rfl | rfl := hname
    all_goals exact ⟨["eth0"],by decide +kernel,by decide⟩
  have hid : NumberAt spelledTwice (setting "vlan" "vlan1" "id") 10 :=
    ⟨"10",⟨["10"],by decide +kernel,by decide⟩,by decide⟩
  have hid' : NumberAt spelledTwice (setting "vlan" "vlan2" "id") 10 :=
    ⟨"010",⟨["010"],by decide +kernel,by decide⟩,by decide⟩
  exact absurd (h.vlan "vlan1" "vlan2" "eth0" 10 (hparent _ (by simp)) (hparent _ (by simp)) hid hid')
    (by decide)

theorem spelledTwice_apart_iff : TaggedApart spelledTwice ↔ SpelledAlike spelledTwice :=
  taggedApart_iff [] spelledTwice (by decide +kernel) (by decide +kernel)

end Shipped
end Nightshade.Schema
