import Mathlib
import Nightshade.Schema.Gate
import Nightshade.Schema.Loader

/-! The defaults of a schema that loads. Each is held against the type of its own node while that is converted,
and what is checked there is all that a default needs to be accepted at any later time. -/
namespace Nightshade.Schema
open Foundation Schema

/-- Every default below a node is one that its node accepts, and no name is there twice. -/
inductive SoundDefaults : SchemaNode → Prop where
  | mk {n : SchemaNode} (accepted : ∀ spec, n.kind.valueSpec = some spec → ∀ d ∈ n.default, spec.check d = .ok ())
      (sorted : KeySorted n.children) (children : ∀ e ∈ n.children, SoundDefaults e.2) : SoundDefaults n

namespace SoundDefaults
variable {n : SchemaNode}

theorem accepted (h : SoundDefaults n) {spec : ValueSpec} (hspec : n.kind.valueSpec = some spec) {d : String}
    (hd : n.default = some d) : spec.check d = .ok () := by
  cases h with
  | mk haccepted _ _ => exact haccepted spec hspec d hd

theorem sorted (h : SoundDefaults n) : KeySorted n.children := by
  cases h with
  | mk _ hsorted _ => exact hsorted

theorem child (h : SoundDefaults n) {name : String} {c : SchemaNode} (hc : n.child name = some c) :
    SoundDefaults c := by
  cases h with
  | mk _ hsorted hchildren => exact hchildren _ ((lookup_eq_some_iff_mem hsorted).mp hc)

end SoundDefaults

namespace Location

/-- A path leads from sound nodes to sound nodes. -/
theorem soundDefaults_of_enters {location last : Location} {path : Path}
    (hreach : path.foldlM enter location = some last) (h : SoundDefaults location.schemaNode) :
    SoundDefaults last.schemaNode := by
  induction path generalizing location with
  | nil =>
    cases hreach
    exact h
  | cons name path ih =>
    rw [List.foldlM_cons] at hreach
    obtain ⟨inner,henter,hrest⟩ := Option.bind_eq_some_iff.mp hreach
    refine ih hrest ?_
    unfold enter at henter
    cases location with
    | node n =>
      cases hkind : n.kind <;> simp only [hkind] at henter
      case container =>
        obtain ⟨c,hc,rfl⟩ := Option.map_eq_some_iff.mp henter
        exact h.child hc
      case tag spec =>
        split at henter
        · cases henter
          exact h
        · cases henter
      all_goals cases henter
    | inst tag =>
      obtain ⟨c,hc,rfl⟩ := Option.map_eq_some_iff.mp henter
      exact h.child hc
    | value leaf => cases henter

end Location

/-- Where a path leads to a node that takes values, it may be set to any of them. -/
theorem validateSet_of_check {schema : Schema} {path : Path} {n : SchemaNode} {spec : ValueSpec} {value : String}
    (hreach : path.foldlM Location.enter (.node schema.root) = some (.node n)) (hspec : n.kind.valueSpec = some spec)
    (hcheck : spec.check value = .ok ()) : schema.validateSet path (some value) = .ok () := by
  unfold validateSet
  rw [walk_eq_ok.mpr hreach]
  cases hkind : n.kind with
  | leaf spec' | multiLeaf spec' =>
    rw [hkind] at hspec
    cases hspec
    simp only [hkind,hcheck]
    rfl
  | container | tag spec' | flag =>
    rw [hkind] at hspec
    cases hspec

/-- A value that its node accepts is what the node may hold. -/
theorem holds_of_check {n : SchemaNode} {spec : ValueSpec} {value : String} (hspec : n.kind.valueSpec = some spec)
    (hcheck : spec.check value = .ok ()) : (Location.node n).Holds [value] := by
  unfold Location.Holds
  cases hkind : n.kind with
  | leaf spec' | multiLeaf spec' =>
    rw [hkind] at hspec
    cases hspec
    simpa [hkind] using hcheck
  | container | tag spec' | flag =>
    rw [hkind] at hspec
    cases hspec

/-- A path into a container goes on to its children. -/
theorem enters_child {location : Location} {path : Path} {n c : SchemaNode} {name : String}
    (hreach : path.foldlM Location.enter location = some (.node n)) (hkind : n.kind = .container)
    (hc : n.child name = some c) : (path.child name).foldlM Location.enter location = some (.node c) := by
  have henter : (Location.node n).enter name = some (.node c) := by simp [Location.enter,hkind,hc]
  rw [Path.child,List.foldlM_append,hreach]
  simpa using henter

/-- One default more. -/
theorem fits_setDefault {location : Location} {tree : ConfigTree} {at_ : Path} {n : SchemaNode} {spec : ValueSpec}
    {d : String} (hlocation : location.isInner) (htree : tree.root.Fits location)
    (hreach : at_.foldlM Location.enter location = some (.node n)) (hsound : SoundDefaults n)
    (hspec : n.kind.valueSpec = some spec) (hd : n.default = some d) : (setDefault tree at_ d).root.Fits location := by
  have hleaf : (Location.node n).isInner = false := by
    unfold Location.isInner
    cases hkind : n.kind with
    | leaf spec' | multiLeaf spec' | flag => simp [hkind]
    | container | tag spec' =>
      rw [hkind] at hspec
      cases hspec
  exact (Node.fits_editLeaf hreach hlocation hleaf (fun _ _ => holds_of_check hspec (hsound.accepted hspec hd)) htree).2

mutual

/-- The defaults below a node are placed where the schema has them. -/
theorem collectDefaults_fits {location : Location} (hlocation : location.isInner) (at_ : Path) (tree : ConfigTree)
    (htree : tree.root.Fits location) : (n : SchemaNode) → SoundDefaults n →
      at_.foldlM Location.enter location = some (.node n) → (collectDefaults at_ tree n).root.Fits location
  | ⟨.container,default,secret,required,priority,cs,constraints,unique,exclusive⟩, hsound, hreach => by
    rw [collectDefaults]
    refine collectDefaultsAll_fits hlocation at_ tree htree cs (fun e he => ?_)
    have hchild := (lookup_eq_some_iff_mem hsound.sorted).mpr he
    exact ⟨hsound.child hchild,enters_child hreach rfl hchild⟩
  | ⟨.leaf _,some d,_,_,_,_,_,_,_⟩, hsound, hreach => fits_setDefault hlocation htree hreach hsound rfl rfl
  | ⟨.multiLeaf _,some d,_,_,_,_,_,_,_⟩, hsound, hreach => fits_setDefault hlocation htree hreach hsound rfl rfl
  | ⟨.leaf _,none,_,_,_,_,_,_,_⟩, _, _ => htree
  | ⟨.multiLeaf _,none,_,_,_,_,_,_,_⟩, _, _ => htree
  | ⟨.tag _,_,_,_,_,_,_,_,_⟩, _, _ => htree
  | ⟨.flag,_,_,_,_,_,_,_,_⟩, _, _ => htree
termination_by structural n => n

theorem collectDefaultsAll_fits {location : Location} (hlocation : location.isInner) (at_ : Path) (tree : ConfigTree)
    (htree : tree.root.Fits location) : (cs : List (String × SchemaNode)) → (∀ e ∈ cs, SoundDefaults e.2 ∧
      (at_.child e.1).foldlM Location.enter location = some (.node e.2)) →
      (collectDefaultsAll at_ tree cs).root.Fits location
  | [], _ => htree
  | (name,n)::rest, hall => by
    obtain ⟨hsound,hreach⟩ := hall (name,n) List.mem_cons_self
    rw [collectDefaultsAll]
    exact collectDefaultsAll_fits hlocation at_ _
      (collectDefaults_fits hlocation (at_.child name) tree htree n hsound hreach) rest
      (fun e he => hall e (List.mem_cons_of_mem _ he))
termination_by structural cs => cs

end

namespace Loader

/-- A node that was converted has sound defaults, whatever files and templates it came from. -/
theorem soundDefaults_of_convert {tools : Tools} {templates : List (String × List (String × RawNode))}
    (htemplates : ∀ template ∈ templates, Sorted template.2) {fuel : ℕ} {raw : RawNode} {at_ : String}
    {inherited : ℕ} {node : SchemaNode} (hraw : raw.Ordered)
    (h : convert tools templates fuel raw at_ inherited = .ok node) : SoundDefaults node := by
  induction fuel generalizing raw at_ inherited node with
  | zero => simp [convert] at h
  | succ fuel ih =>
    obtain ⟨expanded,rawChildren,s,hexpanded,hraws,-,-,hchildren,-,-,hdefault,hnode⟩ :=
      (convert_eq_ok htemplates hraw).mp h
    have hsorted := sorted_dropExcluded (sorted_expandIncludes htemplates (RawNode.ordered_iff.mp hraw) hexpanded) hraws
    have hnames := keySorted_of_forall₂ hsorted.2 (hchildren.imp (fun _ _ hc => hc.1))
    refine .mk (fun spec hspec d hd => ?_) hnames (fun c hc => ?_)
    · rw [hnode] at hspec
      unfold checkDefault at hdefault
      rw [hd,hspec] at hdefault
      exact mapError_eq_ok_iff.mp hdefault
    · obtain ⟨e,he,-,hconvert⟩ := exists_of_forall₂_mem hchildren hc
      exact ih (RawNode.orderedAll_iff.mp hsorted.1 e he) hconvert

theorem soundDefaults_of_build {tools : Tools} {fuel : ℕ} {raw : RawFile} {schema : Schema}
    (h : build tools fuel raw = .ok schema) : SoundDefaults schema.root := by
  obtain ⟨hchildren,-,hroot⟩ := build_eq_ok.mp h
  have hnames := keySorted_of_forall₂ raw.nodesOrdered.2 (hchildren.imp (fun _ _ hc => hc.1))
  refine .mk (fun spec hspec => ?_) hnames (fun c hc => ?_)
  · rw [hroot] at hspec
    cases hspec
  · obtain ⟨e,he,-,hconvert⟩ := exists_of_forall₂_mem hchildren hc
    exact soundDefaults_of_convert raw.templatesOrdered.2 (RawNode.orderedAll_iff.mp raw.nodesOrdered.1 e he) hconvert

/-- The defaults of a schema that loads are a clean configuration, and each of them is accepted wherever its leaf
is, in any instance. -/
theorem defaults_valid {tools : Tools} {fuel : ℕ} {sources : List (String × String)} {schema : Schema}
    (h : loadSources tools fuel sources = .ok schema) :
    schema.validateTree schema.defaults = [] ∧
    ∀ path n spec d, path.foldlM Location.enter (.node schema.root) = some (.node n) → n.kind.valueSpec = some spec →
      n.default = some d → spec.check d = .ok () ∧ schema.validateSet path (some d) = .ok () := by
  obtain ⟨raw,-,hbuild⟩ := bind_eq_ok.mp h
  have hsound := soundDefaults_of_build hbuild
  have hroot : schema.root.kind = .container := by
    obtain ⟨-,-,hroot⟩ := build_eq_ok.mp hbuild
    rw [hroot]
  have hinner : (Location.node schema.root).isInner := Loaded.isInner hroot
  constructor
  · rw [validateTree_eq_nil]
    exact collectDefaults_fits hinner Path.root .new (Node.fits_newInterior hinner) schema.root hsound rfl
  · intro path n spec d hreach hspec hd
    have hcheck := (Location.soundDefaults_of_enters hreach hsound).accepted hspec hd
    exact ⟨hcheck,validateSet_of_check hreach hspec hcheck⟩

/-- A node of a file with no rules and no templates. -/
def plainNode (definition : Definition) (children : List (String × RawNode)) : RawNode :=
  ⟨definition,[],[],children,[],[],[]⟩

/-- A host name with a default. -/
def systemFile : RawFile where
  templates := []
  nodes := [("system",plainNode {(default : Definition) with kind := some "container",help := some "System"}
    [("host-name",plainNode {(default : Definition) with
      kind := some "leaf",help := some "Host name",ty := some "hostname",default := some (.str "nightshade")} [])])]
  globals := []
  templatesOrdered := RawFile.templatesOrdered_nil
  nodesOrdered := by simp [Sorted,plainNode,RawNode.OrderedAll,RawNode.Ordered,KeySorted]

/-- Ports with an MTU out of a template. -/
def portsFile : RawFile where
  templates := [("common",[("mtu",plainNode {(default : Definition) with
    kind := some "leaf",help := some "MTU",ty := some "uint",range := some ⟨68,9216,none⟩,default := some (.int 1500)} [])])]
  nodes := [("ethernet",⟨{(default : Definition) with
    kind := some "tag",help := some "Ports",tag := some ⟨"interface-name","Name",none,none,none⟩},["common"],[],[],[],[],[]⟩)]
  globals := []
  templatesOrdered := by simp [Sorted,plainNode,RawNode.OrderedAll,RawNode.Ordered,KeySorted]
  nodesOrdered := by simp [Sorted,RawNode.OrderedAll,RawNode.Ordered,KeySorted]

/-- Tools that read these two files. -/
def twoFiles : Tools where
  parse text := if text = "system" then .ok systemFile else if text = "ports" then .ok portsFile else .error "no file"
  regex _ := .error "no regular expressions"
  display _ := ""
  zones := []

/-- The schema of the two files. -/
def twoFilesSchema : Schema where
  root := ⟨.container,none,false,false,500,
    [("ethernet",⟨.tag ⟨.interfaceName,[],none⟩,none,false,false,500,
      [("mtu",⟨.leaf ⟨.number ⟨68,9216,none⟩,[],none⟩,some "1500",false,false,500,[],[],[],[]⟩)],[],[],[]⟩),
     ("system",⟨.container,none,false,false,500,
      [("host-name",⟨.leaf ⟨.hostname,[],none⟩,some "nightshade",false,false,500,[],[],[],[]⟩)],[],[],[]⟩)],[],[],[]⟩
  globals := []

/-- A port takes the MTU that it has by default. -/
theorem twoFiles_valid : loadSources twoFiles 3 [("b.yaml","system"),("a.yaml","ports")] = .ok twoFilesSchema ∧
    twoFilesSchema.validateSet ["ethernet","eth0","mtu"] (some "1500") = .ok () := by
  have h : loadSources twoFiles 3 [("b.yaml","system"),("a.yaml","ports")] = .ok twoFilesSchema := rfl
  exact ⟨h,((defaults_valid h).2 _ _ _ _ rfl rfl rfl).2⟩

end Loader
end Nightshade.Schema
