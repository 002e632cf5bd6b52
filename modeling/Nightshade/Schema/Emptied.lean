import Mathlib
import Nightshade.Schema.DiffAlgebra
import Nightshade.Schema.Shipped

/-! Which configurations a diff tells apart. What is lost to sight is whether a node that held
something is left behind with nothing in it or is gone. -/
namespace Nightshade.Schema
open Foundation

/-- There is something under the node at a path. -/
def ConfigTree.filled (tree : ConfigTree) (path : Path) : Bool :=
  ((tree.get path).bind Node.children).any (fun cs => !cs.isEmpty)

namespace ConfigTree
variable {tree : ConfigTree} {path : Path}

theorem filled_iff : tree.filled path ↔
    ∃ c e cs, tree.get path = some ⟨c,.interior (e::cs)⟩ := by
  unfold filled
  rcases hget : tree.get path with _ | ⟨c,cs | vs⟩
  · simp
  · cases cs <;> simp [Node.children]
  · simp [Node.children]

theorem filled_of_get_child {name : String} {n : Node} (h : tree.get (path ++ [name]) = some n) :
    tree.filled path := by
  obtain ⟨c,cs,hget,hlookup⟩ := Node.get_concat.mp h
  cases cs with
  | nil => cases hlookup
  | cons e cs => exact filled_iff.mpr ⟨c,e,cs,hget⟩

/-- A filled node has a line below it. -/
theorem exists_line (h : tree.filled path) :
    ∃ name rest value, (path ++ name::rest,value) ∈ tree.lines := by
  obtain ⟨c,e,cs,hget⟩ := filled_iff.mp h
  have hord := Node.ordered_get tree.ordered hget
  obtain ⟨rest,value,m,hm,hends⟩ :=
    (Node.lookup_isSome_iff_hasLine hord e.1).mp (by simp [List.lookup])
  refine ⟨e.1,rest,value,(Node.mem_lines_root _).mpr ⟨by simp,m,?_,hends⟩⟩
  have hroot : tree.root.get path = some ⟨c,.interior (e::cs)⟩ := hget
  rw [Node.get_append,hroot]
  exact hm

/-- There is no line below a node that has one of its own without a value. -/
theorem no_line_below {name : String} {rest : Path} {value : Option String}
    (h : (path,none) ∈ tree.lines) : (path ++ name::rest,value) ∉ tree.lines := by
  intro hbelow
  obtain ⟨-,m,hm,hends⟩ := (Node.mem_lines_root _).mp h
  obtain ⟨-,k,hk,-⟩ := (Node.mem_lines_root _).mp hbelow
  rw [Node.get_append,hm] at hk
  obtain ⟨c,cs | vs⟩ := m
  · obtain ⟨rfl,-⟩ := hends
    simp [Node.get] at hk
  · simp [Node.get] at hk

theorem not_filled_of_line (h : (path,none) ∈ tree.lines) : ¬tree.filled path := by
  intro hfilled
  obtain ⟨name,rest,value,hline⟩ := exists_line hfilled
  exact no_line_below h hline

end ConfigTree

section Sees
variable {f a b : ConfigTree}

/-- A diff gives away every line of its target but those of nodes that were filled. -/
theorem line_of_diff_eq (h : diff f a = diff f b) {l : DiffLine} (hl : l ∈ a.lines)
    (hseen : l.2 = none → ¬f.filled l.1) : l ∈ b.lines := by
  obtain ⟨p,v⟩ := l
  by_cases hf : (p,v) ∈ f.lines
  · by_contra hb
    by_cases hv : v = none → ¬survives f b p
    · have hchange : (⟨p,.remove,v⟩ : Change) ∈ diff f b := mem_diff.mpr ⟨⟨hf,hb⟩,hv⟩
      rw [← h] at hchange
      exact (mem_diff.mp hchange).1.2 hl
    · push Not at hv
      obtain ⟨rfl,hsurvives⟩ := hv
      rw [survives_comm] at hsurvives
      -- Something was added below, and a line of its own says there is nothing.
      obtain ⟨⟨q,w⟩,hline,hnew,hshown,name,rest,hq⟩ := exists_hidden hf hb hsurvives
      have hchange : (⟨q,.add,w⟩ : Change) ∈ diff f b :=
        mem_diff.mpr ⟨⟨hline,hnew⟩,fun hw => by rw [survives_comm]; exact hshown hw⟩
      rw [← h] at hchange
      have hbelow := (mem_diff.mp hchange).1.1
      dsimp only at hq hbelow
      rw [hq] at hbelow
      exact ConfigTree.no_line_below hl hbelow
  · have hchange : (⟨p,.add,v⟩ : Change) ∈ diff f a := by
      refine mem_diff.mpr ⟨⟨hl,hf⟩,?_⟩
      rintro rfl hsurvives
      simp only [survives,Bool.and_eq_true,Option.any_eq_true] at hsurvives
      obtain ⟨⟨⟨c,cs | vs⟩,hget,hinterior⟩,-⟩ := hsurvives
      · cases cs with
        | nil =>
          exact hf ((Node.mem_lines_root _).mpr ⟨((Node.mem_lines_root _).mp hl).1,_,hget,rfl,rfl⟩)
        | cons e cs => exact hseen rfl (ConfigTree.filled_iff.mpr ⟨c,e,cs,hget⟩)
      · cases hinterior
    rw [h] at hchange
    exact (mem_diff.mp hchange).1.1

/-- Where everything that was filled still is, the diff gives the target away. -/
theorem lines_of_diff_eq (h : diff f a = diff f b) (hkeeps : ∀ p, p ≠ [] → f.filled p → a.filled p)
    (l : DiffLine) : l ∈ a.lines ↔ l ∈ b.lines := by
  have hforth : ∀ l ∈ a.lines, l ∈ b.lines := by
    intro l hl
    refine line_of_diff_eq h hl (fun hnone hfilled => ?_)
    obtain ⟨p,v⟩ := l
    cases hnone
    exact ConfigTree.not_filled_of_line hl (hkeeps p ((Node.mem_lines_root _).mp hl).1 hfilled)
  refine ⟨hforth l,fun hl => line_of_diff_eq h.symm hl (fun hnone hfilled => ?_)⟩
  obtain ⟨p,v⟩ := l
  cases hnone
  obtain ⟨name,rest,value,hline⟩ :=
    ConfigTree.exists_line (hkeeps p ((Node.mem_lines_root _).mp hl).1 hfilled)
  exact ConfigTree.no_line_below hl (hforth _ hline)

end Sees

/-! ### Leaving an empty node, or none -/

namespace Node

theorem get_plain (n : Node) (path : Path) : n.plain.get path = (n.get path).map plain := by
  induction path generalizing n with
  | nil => rfl
  | cons s path ih =>
    obtain ⟨c,cs | vs⟩ := n
    · have hlookup : (plainAll cs).lookup s = (cs.lookup s).map plain := by
        clear ih
        induction cs with
        | nil => rfl
        | cons e cs ih =>
          rw [plainAll,lookup_cons_ite,lookup_cons_ite,ih]
          split_ifs <;> rfl
      rw [plain,Node.get,Node.get,hlookup]
      cases cs.lookup s with
      | none => rfl
      | some m => exact ih m
    · rfl

/-- Nothing is under a name, or a node that holds nothing. -/
def Vacant (n : Option Node) : Prop := ∀ m, n = some m → ∃ c, m = ⟨c,.interior []⟩

variable {name : String} {q : Path} {n : Node} {c d : Option String} {cs ds : List (String × Node)}

theorem Vacant.get {m : Option Node} (h : Vacant m) (s : String) (rest : Path) :
    m.bind (Node.get (s::rest)) = none := by
  cases m with
  | none => rfl
  | some m =>
    obtain ⟨c,rfl⟩ := h m rfl
    simp [Node.get]

/-- What differs between two trees of which one has an empty node and the other has it not. -/
theorem put_vacant (hget : n.get q = some ⟨c,.interior cs⟩)
    (hsame : ∀ s, s ≠ name → cs.lookup s = ds.lookup s) (hcs : Vacant (cs.lookup name))
    (hds : Vacant (ds.lookup name)) (path : Path) :
    (path ≠ q ++ [name] → (n.get path).any isInterior =
      ((put ⟨d,.interior ds⟩ q n).get path).any isInterior) ∧
    ∀ value, (value = none → path ≠ q ∧ path ≠ q ++ [name]) →
      (n.HasLine path value ↔ (put ⟨d,.interior ds⟩ q n).HasLine path value) := by
  induction q generalizing n path with
  | nil =>
    cases hget
    rw [put,modify]
    cases path with
    | nil =>
      refine ⟨fun _ => rfl,fun value hvalue => ?_⟩
      rw [hasLine_nil,hasLine_nil]
      constructor
      · rintro ⟨-,hnone⟩
        exact absurd rfl (hvalue hnone).1
      · rintro ⟨-,hnone⟩
        exact absurd rfl (hvalue hnone).1
    | cons s rest =>
      by_cases hs : s = name
      · subst hs
        cases rest with
        | nil =>
          refine ⟨fun hne => absurd rfl hne,fun value hvalue => ?_⟩
          rw [hasLine_cons_interior,hasLine_cons_interior]
          have hnone : ∀ es : List (String × Node), Vacant (es.lookup s) →
              ¬∃ k, es.lookup s = some k ∧ k.HasLine [] value := by
            rintro es hes ⟨k,hk,hline⟩
            obtain ⟨c',rfl⟩ := hes k hk
            exact absurd rfl (hvalue (hasLine_nil.mp hline).2).2
          exact iff_of_false (hnone cs hcs) (hnone ds hds)
        | cons s' rest =>
          rw [Node.get,Node.get,hcs.get,hds.get]
          refine ⟨fun _ => rfl,fun value _ => ?_⟩
          unfold HasLine
          rw [Node.get,Node.get,hcs.get,hds.get]
      · have heq := hsame s hs
        refine ⟨fun _ => ?_,fun value _ => ?_⟩
        · rw [Node.get,Node.get,heq]
        · rw [hasLine_cons_interior,hasLine_cons_interior,heq]
  | cons s q ih =>
    obtain ⟨c',es | vs⟩ := n
    · obtain ⟨k,hk,hbelow⟩ := Option.bind_eq_some_iff.mp hget
      have hput : put ⟨d,.interior ds⟩ (s::q) ⟨c',.interior es⟩ =
          ⟨c',.interior (insertKey s (put ⟨d,.interior ds⟩ q k) es)⟩ := by
        rw [put,modify,hk]
        rfl
      rw [hput]
      cases path with
      | nil =>
        refine ⟨fun _ => rfl,fun value _ => ?_⟩
        rw [hasLine_nil,hasLine_nil]
        have hne : es ≠ [] := by
          rintro rfl
          cases hk
        have hne' : insertKey s (put ⟨d,.interior ds⟩ q k) es ≠ [] := by
          intro hnil
          have hself := lookup_insertKey_self s (put ⟨d,.interior ds⟩ q k) es
          rw [hnil] at hself
          cases hself
        exact iff_of_false (fun h => hne h.1) (fun h => hne' h.1)
      | cons s' rest =>
        by_cases hs : s' = s
        · subst hs
          obtain ⟨hinterior,hline⟩ := ih hbelow rest
          refine ⟨fun hne => ?_,fun value hvalue => ?_⟩
          · rw [Node.get,Node.get,hk,lookup_insertKey_self]
            exact hinterior (fun heq => hne (by rw [heq]; rfl))
          · rw [hasLine_cons_interior,hasLine_cons_interior,hk,lookup_insertKey_self]
            have hrest := hline value (fun hnone =>
              ⟨fun heq => (hvalue hnone).1 (by rw [heq]),fun heq => (hvalue hnone).2 (by rw [heq]; rfl)⟩)
            simpa using hrest
        · refine ⟨fun _ => ?_,fun value _ => ?_⟩
          · rw [Node.get,Node.get,lookup_insertKey_of_ne hs]
          · rw [hasLine_cons_interior,hasLine_cons_interior,lookup_insertKey_of_ne hs]
    · cases hget

end Node

theorem SameButComments.isSome_get {s t : ConfigTree} (h : SameButComments s t) (path : Path) :
    (s.root.get path).isSome = (t.root.get path).isSome := by
  have hplain : s.root.plain.get path = t.root.plain.get path := congrArg (Node.get path) h
  rw [Node.get_plain,Node.get_plain] at hplain
  rw [← Option.isSome_map (f := Node.plain),hplain,Option.isSome_map]

section Hidden
variable {schema : Schema} {f a b : ConfigTree}

/-- In clean configurations a node is a leaf in both or in neither. -/
theorem interior_of_clean (hf : schema.validateTree f = []) (ha : schema.validateTree a = [])
    {p : Path} {n m : Node} (hn : f.get p = some n) (hm : a.get p = some m) :
    n.isInterior = m.isInterior := by
  obtain ⟨inner,hreach,hfits⟩ := Node.fits_of_get (validateTree_eq_nil.mp hf) hn
  obtain ⟨inner',hreach',hfits'⟩ := Node.fits_of_get (validateTree_eq_nil.mp ha) hm
  rw [hreach] at hreach'
  cases hreach'
  obtain ⟨c,cs | vs⟩ := n
  · obtain ⟨d,ds | ws⟩ := m
    · rfl
    · exact absurd (Node.fits_values.mp hfits')
        (Location.not_holds_of_isInner (Node.fits_interior.mp hfits).1 ws)
  · obtain ⟨d,ds | ws⟩ := m
    · exact absurd (Node.fits_values.mp hfits)
        (Location.not_holds_of_isInner (Node.fits_interior.mp hfits').1 vs)
    · rfl

/-- A filled node that is left with nothing in it is not reported. -/
theorem not_reports_filled (hf : schema.validateTree f = []) (ha : schema.validateTree a = [])
    {p : Path} (hfilled : f.filled p) (op : Op) : ¬Reports f a ⟨p,op,none⟩ := by
  rintro ⟨hsign,hshown⟩
  obtain ⟨c,e,cs,hget⟩ := ConfigTree.filled_iff.mp hfilled
  cases op with
  | add =>
    obtain ⟨-,m,hm,-⟩ := (Node.mem_lines_root _).mp hsign.1
    have hinterior := interior_of_clean hf ha hget hm
    apply hshown rfl
    have hm' : a.get p = some m := hm
    rw [survives,hget,hm',Option.any_some,Option.any_some,← hinterior]
    rfl
  | remove => exact ConfigTree.not_filled_of_line hsign.1 hfilled

/-- Two targets that differ in one empty node, where the start has a filled one. -/
theorem diff_eq_of_vacant (hf : schema.validateTree f = []) (ha : schema.validateTree a = [])
    (hb : schema.validateTree b = []) {q : Path} {name : String} {c d : Option String}
    {cs ds : List (String × Node)} (hfilled : f.filled (q ++ [name]))
    (hget : a.root.get q = some ⟨c,.interior cs⟩)
    (hroot : b.root = Node.put ⟨d,.interior ds⟩ q a.root)
    (hsame : ∀ s, s ≠ name → cs.lookup s = ds.lookup s) (hcs : Node.Vacant (cs.lookup name))
    (hds : Node.Vacant (ds.lookup name)) : diff f a = diff f b := by
  have hagree := Node.put_vacant (d := d) hget hsame hcs hds
  rw [← hroot] at hagree
  obtain ⟨c',e,es,hgetf⟩ := ConfigTree.filled_iff.mp hfilled
  have hunder : f.filled q := ConfigTree.filled_of_get_child hgetf
  have hreports : ∀ change, Reports f a change ↔ Reports f b change := by
    rintro ⟨p,op,v⟩
    by_cases hhidden : v = none ∧ (p = q ∨ p = q ++ [name])
    · obtain ⟨rfl,hp⟩ := hhidden
      have hfilledp : f.filled p := by
        rcases hp with rfl | rfl
        · exact hunder
        · exact hfilled
      exact iff_of_false (not_reports_filled hf ha hfilledp op) (not_reports_filled hf hb hfilledp op)
    · push Not at hhidden
      obtain ⟨hinterior,hlines⟩ := hagree p
      have hline : (p,v) ∈ a.lines ↔ (p,v) ∈ b.lines := by
        rw [Node.mem_lines_root,Node.mem_lines_root]
        exact and_congr_right (fun _ => hlines v hhidden)
      unfold Reports
      refine and_congr ?_ ?_
      · cases op <;> simp only [hline]
      · refine forall_congr' (fun hnone => ?_)
        have hinner : (a.get p).any Node.isInterior = (b.get p).any Node.isInterior :=
          hinterior (hhidden hnone).2
        rw [survives,survives,hinner]
  have hperm : (diff f a).Perm (diff f b) :=
    (List.perm_ext_iff_of_nodup (nodup_diff f a) (nodup_diff f b)).mpr
      (fun change => by rw [mem_diff,mem_diff,hreports])
  refine hperm.eq_of_pairwise ?_ (diff_pairwise f a) (diff_pairwise f b)
  exact fun c d _ _ hcd hdc => Change.key_inj (le_antisymm hcd hdc)

/-- Only the target itself has its diff, up to comments, exactly when every node below the root that
was filled still is. -/
theorem diff_determines_iff (hf : schema.validateTree f = []) (ha : schema.validateTree a = []) :
    (∀ b : ConfigTree, schema.validateTree b = [] → diff f a = diff f b → SameButComments a b) ↔
      ∀ p, p ≠ [] → f.filled p → a.filled p := by
  constructor
  · intro honly p
    -- From the top down: the node above is still there, and an empty node can be put or taken away.
    induction p using List.reverseRecOn with
    | nil => exact fun hne => absurd rfl hne
    | append_singleton q name ih =>
      intro _ hfilled
      by_contra hlost
      obtain ⟨cf,e,es,hgetf⟩ := ConfigTree.filled_iff.mp hfilled
      have habove : ∃ c cs, a.root.get q = some ⟨c,.interior cs⟩ := by
        by_cases hq : q = []
        · subst hq
          obtain ⟨⟨c,cs | vs⟩,hi,ho⟩ := a
          · exact ⟨c,cs,rfl⟩
          · cases hi
        · obtain ⟨c,e,cs,hget⟩ :=
            ConfigTree.filled_iff.mp (ih hq (ConfigTree.filled_of_get_child hgetf))
          exact ⟨c,e::cs,hget⟩
      obtain ⟨c,cs,hget⟩ := habove
      have hvacant : Node.Vacant (cs.lookup name) := by
        intro m hm
        have hgetm : a.get (q ++ [name]) = some m := Node.get_concat.mpr ⟨c,cs,hget,hm⟩
        have hinterior := interior_of_clean hf ha hgetf hgetm
        obtain ⟨d,ds | ws⟩ := m
        · cases ds with
          | nil => exact ⟨d,rfl⟩
          | cons e ds => exact absurd (ConfigTree.filled_iff.mpr ⟨d,e,ds,hgetm⟩) hlost
        · cases hinterior
      -- A target that differs in that node alone has the same diff, and is not the same.
      have hother : ∀ (b : ConfigTree) (ds : List (String × Node)), schema.validateTree b = [] →
          b.root = Node.put ⟨c,.interior ds⟩ q a.root → (∀ s, s ≠ name → cs.lookup s = ds.lookup s) →
          Node.Vacant (ds.lookup name) → (cs.lookup name).isSome = (ds.lookup name).isSome := by
        intro b ds hb hroot hsame hds
        have heq := honly b hb (diff_eq_of_vacant hf ha hb hfilled hget hroot hsame hvacant hds)
        have hgetb : b.root.get q = some ⟨c,.interior ds⟩ := by
          rw [hroot]
          exact Node.get_put hget
        have hsome := heq.isSome_get (q ++ [name])
        rw [Node.get_append,Node.get_append,hget,hgetb] at hsome
        simpa [Node.get] using hsome
      cases hlookup : cs.lookup name with
      | none =>
        obtain ⟨inner,hreach,hfits⟩ := Node.fits_of_get (validateTree_eq_nil.mp hf) hgetf
        have hclean := Node.fits_ensureInterior hreach (Node.fits_interior.mp hfits).1
          (validateTree_eq_nil.mp ha)
        have hput := Node.ensureInterior_append [] name hget
        simp only [List.nil_append,Node.parentOf,Node.interiorEntry,hlookup] at hput
        have hsome := hother (a.ensureInterior (q ++ [name])).2 (insertKey name Node.newInterior cs)
          (validateTree_eq_nil.mpr hclean.2) (congrArg Prod.snd hput)
          (fun s hs => (lookup_insertKey_of_ne hs _ _).symm) ?_
        · simp [hlookup] at hsome
        · intro m hm
          rw [lookup_insertKey_self] at hm
          cases hm
          exact ⟨none,rfl⟩
      | some m =>
        have hroot : (Location.node schema.root).isInner := by
          have hfits := validateTree_eq_nil.mp ha
          obtain ⟨⟨d,ds | ws⟩,hi,ho⟩ := a
          · exact (Node.fits_interior.mp hfits).1
          · cases hi
        have hclean : (Node.remove (q ++ [name]) a.root).2.Fits (.node schema.root) :=
          Node.fits_remove hroot (validateTree_eq_nil.mp ha)
        have hput := Node.remove_child name hget
        have hsome := hother (a.remove (q ++ [name])).2 (eraseKey name cs)
          (validateTree_eq_nil.mpr hclean) (congrArg Prod.snd hput)
          (fun s hs => by rw [lookup_eraseKey,if_neg hs]) ?_
        · simp [hlookup,lookup_eraseKey] at hsome
        · intro m hm
          rw [lookup_eraseKey,if_pos rfl] at hm
          cases hm
  · intro hkeeps b hb heq
    exact (bare_eq_iff ha hb).mp (ConfigTree.bare_eq_of_lines (lines_of_diff_eq heq hkeeps))

end Hidden

instance (s t : ConfigTree) : Decidable (SameButComments s t) :=
  inferInstanceAs (Decidable (s.root.plain = t.root.plain))

/-- An interface with one setting, the same without the setting, and none at all. -/
def wired : ConfigTree := ((Shipped.schema []).applySet .new ["interfaces","ethernet","eth0","mtu"] "9000").2
def unset : ConfigTree :=
  ((Shipped.schema []).applyDelete wired ["interfaces","ethernet","eth0","mtu"] none).2
def unplugged : ConfigTree := ((Shipped.schema []).applyDelete wired ["interfaces","ethernet","eth0"] none).2

/-- Emptying an interface and deleting it are shown alike. -/
theorem unset_unplugged_alike :
    (Shipped.schema []).validateTree wired = [] ∧ (Shipped.schema []).validateTree unset = [] ∧
    (Shipped.schema []).validateTree unplugged = [] ∧ diff wired unset = diff wired unplugged ∧
    ¬SameButComments unset unplugged := by decide +kernel

theorem wired_determines_iff :
    (∀ b : ConfigTree, (Shipped.schema []).validateTree b = [] → diff unset wired = diff unset b →
      SameButComments wired b) ↔ ∀ p, p ≠ [] → unset.filled p → wired.filled p :=
  diff_determines_iff (by decide +kernel) (by decide +kernel)

end Nightshade.Schema
