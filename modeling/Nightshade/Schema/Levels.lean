import Mathlib
import Nightshade.Schema.Gate
import Nightshade.Schema.Reload

/-! A clean tree nests no deeper than its schema does, so it comes back when it is saved and read
again; and editing puts no comment on the root. -/
namespace Nightshade.Schema
open Schema

namespace SchemaNode

mutual

/-- How many interior nodes can stand below one another where a node of the schema is, its own
included. -/
def levels : SchemaNode → ℕ
  | ⟨.container,_,_,_,_,cs,_,_,_⟩ => levelsAll cs + 1
  -- The tag node itself, and its instances.
  | ⟨.tag _,_,_,_,_,cs,_,_,_⟩ => levelsAll cs + 2
  | _ => 0
termination_by structural n => n

def levelsAll : List (String × SchemaNode) → ℕ
  | [] => 0
  | (_,n)::rest => max n.levels (levelsAll rest)
termination_by structural cs => cs

end

variable {n child : SchemaNode}

theorem levels_container (h : n.kind = .container) : n.levels = levelsAll n.children + 1 := by
  obtain ⟨kind,d,s,r,p,cs,k,u,x⟩ := n
  cases h
  rw [levels]

theorem levels_tag {spec : ValueSpec} (h : n.kind = .tag spec) :
    n.levels = levelsAll n.children + 2 := by
  obtain ⟨kind,d,s,r,p,cs,k,u,x⟩ := n
  cases h
  rw [levels]

theorem levels_le_levelsAll {cs : List (String × SchemaNode)} {name : String}
    (h : cs.lookup name = some child) : child.levels ≤ levelsAll cs := by
  induction cs with
  | nil => cases h
  | cons e cs ih =>
    rw [levelsAll]
    rw [List.lookup_cons] at h
    split at h
    · cases h
      exact le_max_left _ _
    · exact le_max_of_le_right (ih h)

end SchemaNode

/-- How many interior nodes can stand below one another at a place. -/
def Location.levels : Location → ℕ
  | .node n => n.levels
  | .inst tag => SchemaNode.levelsAll tag.children + 1
  | .value _ => 0

theorem Location.levels_enter {location inner : Location} {name : String}
    (h : location.enter name = some inner) : inner.levels + 1 ≤ location.levels := by
  unfold enter at h
  cases location with
  | node n =>
    cases hkind : n.kind with
    | container =>
      simp only [hkind] at h
      obtain ⟨child,hchild,rfl⟩ := Option.map_eq_some_iff.mp h
      have hle := SchemaNode.levels_le_levelsAll hchild
      have hlevels := SchemaNode.levels_container hkind
      simp only [levels]
      omega
    | tag spec =>
      simp only [hkind] at h
      split at h
      · cases h
        have hlevels := SchemaNode.levels_tag hkind
        simp only [levels]
        omega
      · cases h
    | leaf spec | multiLeaf spec | flag =>
      simp only [hkind] at h
      cases h
  | inst tag =>
    obtain ⟨child,hchild,rfl⟩ := Option.map_eq_some_iff.mp h
    have hle := SchemaNode.levels_le_levelsAll hchild
    simp only [levels]
    omega
  | value leaf => cases h

theorem Location.levels_of_isInner {location : Location} (h : location.isInner) :
    1 ≤ location.levels := by
  unfold isInner at h
  cases location with
  | node n =>
    cases hkind : n.kind with
    | container =>
      have hlevels := SchemaNode.levels_container hkind
      simp only [levels]
      omega
    | tag spec =>
      have hlevels := SchemaNode.levels_tag hkind
      simp only [levels]
      omega
    | leaf spec | multiLeaf spec | flag => simp [hkind] at h
  | inst tag =>
    simp only [levels]
    omega
  | value leaf => cases h

theorem Node.nestingAll_le {cs : List (String × Node)} {d : ℕ} (h : ∀ e ∈ cs, e.2.nesting ≤ d) :
    Node.nestingAll cs ≤ d := by
  induction cs with
  | nil => exact Nat.zero_le d
  | cons e cs ih =>
    rw [Node.nestingAll]
    have hhead := h e (by simp)
    have hrest := ih (fun e he => h e (by simp [he]))
    omega

theorem Node.nesting_le_levels (n : Node) {location : Location} (h : n.Fits location) :
    n.nesting ≤ location.levels := by
  induction n using Node.induct generalizing location with
  | values c vs =>
    rw [Node.nesting]
    omega
  | interior c cs ih =>
    obtain ⟨hinner,hall⟩ := Node.fits_interior.mp h
    have hlevels := Location.levels_of_isInner hinner
    have hchildren : Node.nestingAll cs ≤ location.levels-1 := by
      apply Node.nestingAll_le
      intro e he
      obtain ⟨inner,henter,hfits⟩ := hall e he
      have hle := ih e he hfits
      have hstep := Location.levels_enter henter
      omega
    rw [Node.nesting]
    omega

/-- No clean tree is too deep to be read back. -/
def Shallow (schema : Schema) : Prop := schema.root.levels ≤ maxDepth+1

/-- A clean tree without a comment on its root comes back from its text. -/
theorem parse_render_clean {schema : Schema} (hschema : Shallow schema) {tree : ConfigTree}
    (hclean : schema.validateTree tree = []) (hroot : tree.Unremarked) (tags : TagOracle) :
    parse (render tree tags) = .ok tree := by
  rw [parse_render_body tree tags,setComment_none hroot]
  have hnesting := tree.root.nesting_le_levels (validateTree_eq_nil.mp hclean)
  have hlevels : schema.root.levels ≤ maxDepth+1 := hschema
  obtain ⟨⟨c,cs | vs⟩,hint,hord⟩ := tree
  · rw [Node.nesting] at hnesting
    show Node.nestingAll cs ≤ maxDepth
    have hle : Node.nestingAll cs + 1 ≤ schema.root.levels := hnesting
    omega
  · cases hint

theorem Shipped.shallow (zones : List String) : Shallow (Shipped.schema zones) := by
  have hlevels : (Shipped.schema []).root.levels ≤ maxDepth+1 := by decide
  exact hlevels

/-! ### Editing puts no comment on the root -/

section
variable {schema : Schema} {tree : ConfigTree} {path : Path} {value : Option String}

theorem ConfigTree.Unremarked.remove (h : tree.Unremarked) (path : Path) :
    (tree.remove path).2.Unremarked := by
  unfold ConfigTree.Unremarked at h ⊢
  show (Node.remove path tree.root).2.comment = none
  unfold Node.remove
  split
  · rfl
  · split
    · exact h
    · exact (Node.comment_modify (fun _ => rfl)).trans h

theorem ConfigTree.Unremarked.removeValue (h : tree.Unremarked) (path : Path) (value : String) :
    (tree.removeValue path value).2.Unremarked := by
  unfold ConfigTree.removeValue
  split
  · exact h
  · dsimp only
    split_ifs
    · exact (h.editLeaf path _ (fun _ h => h.filter _)).remove path
    · exact h.editLeaf path _ (fun _ h => h.filter _)
    · exact h

theorem applySet_unremarked (h : tree.Unremarked) : (schema.applySet tree path value).2.Unremarked := by
  unfold applySet
  split
  · exact h
  · split
    · dsimp only
      split_ifs
      · exact h.editLeaf path _ _
      · exact h.editLeaf path _ _
    · dsimp only
      split
      · exact h.ensureInterior path
      · exact h.editLeaf path _ _

theorem applyDelete_unremarked (h : tree.Unremarked) :
    (schema.applyDelete tree path value).2.Unremarked := by
  unfold applyDelete
  split_ifs
  · exact h
  · cases value with
    | some value => exact h.removeValue path value
    | none => exact h.remove path

theorem setDefault_unremarked {at_ : Path} {default : String} (h : tree.Unremarked) :
    (setDefault tree at_ default).Unremarked := h.editLeaf at_ _ (fun _ _ => List.pairwise_singleton _ _)

mutual

theorem collectDefaults_unremarked (at_ : Path) (tree : ConfigTree) (h : tree.Unremarked) :
    (n : SchemaNode) → (collectDefaults at_ tree n).Unremarked
  | ⟨.container,_,_,_,_,cs,_,_,_⟩ => by
    rw [collectDefaults]
    exact collectDefaultsAll_unremarked at_ tree h cs
  | ⟨.leaf _,some default,_,_,_,_,_,_,_⟩ => setDefault_unremarked h
  | ⟨.multiLeaf _,some default,_,_,_,_,_,_,_⟩ => setDefault_unremarked h
  | ⟨.leaf _,none,_,_,_,_,_,_,_⟩ => h
  | ⟨.multiLeaf _,none,_,_,_,_,_,_,_⟩ => h
  | ⟨.tag _,_,_,_,_,_,_,_,_⟩ => h
  | ⟨.flag,_,_,_,_,_,_,_,_⟩ => h
termination_by structural n => n

theorem collectDefaultsAll_unremarked (at_ : Path) (tree : ConfigTree) (h : tree.Unremarked) :
    (cs : List (String × SchemaNode)) → (collectDefaultsAll at_ tree cs).Unremarked
  | [] => h
  | (name,n)::rest => by
    rw [collectDefaultsAll]
    exact collectDefaultsAll_unremarked at_ _ (collectDefaults_unremarked (at_.child name) tree h n) rest
termination_by structural cs => cs

end

theorem defaults_unremarked : schema.defaults.Unremarked :=
  collectDefaults_unremarked Path.root .new ConfigTree.unremarked_new schema.root

end

end Nightshade.Schema
