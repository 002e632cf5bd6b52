import Mathlib
import Nightshade.Schema.Diff

/-! What a diff can see. Two configurations without a change between them are the same but for
comments, and for whether a node that holds nothing is written as a container or as a flag. -/
namespace Nightshade.Schema
open Foundation

namespace Node

mutual

/-- A node without its comments, with a container of nothing taken as a flag. -/
def bare : Node → Node
  | ⟨_,.values vs⟩ => ⟨none,.values vs⟩
  | ⟨_,.interior cs⟩ => if cs.isEmpty then flag else ⟨none,.interior (bareAll cs)⟩
termination_by structural n => n

def bareAll : List (String × Node) → List (String × Node)
  | [] => []
  | (name,n)::rest => (name,n.bare)::bareAll rest
termination_by structural cs => cs

end

theorem bareAll_eq_map (cs : List (String × Node)) : bareAll cs = cs.map (fun e => (e.1,e.2.bare)) := by
  induction cs with
  | nil => rfl
  | cons e cs ih => simp [bareAll,ih]

/-- The line a node itself contributes. -/
def Ends (n : Node) (value : Option String) : Prop :=
  match n.body with
  | .values vs => vs = [] ∧ value = none ∨ ∃ v ∈ vs, value = some v
  | .interior cs => cs = [] ∧ value = none

/-- A line at a path below a node. -/
def HasLine (n : Node) (path : Path) (value : Option String) : Prop :=
  ∃ m, n.get path = some m ∧ m.Ends value

theorem hasLine_nil {n : Node} {value : Option String} : n.HasLine [] value ↔ n.Ends value := by
  simp [HasLine,get]

theorem hasLine_cons_values {c : Option String} {vs : List String} {s : String} {path : Path}
    {value : Option String} : ¬HasLine ⟨c,.values vs⟩ (s::path) value := by
  simp [HasLine,get]

theorem hasLine_cons_interior {c : Option String} {cs : List (String × Node)} {s : String}
    {path : Path} {value : Option String} :
    HasLine ⟨c,.interior cs⟩ (s::path) value ↔ ∃ n, cs.lookup s = some n ∧ n.HasLine path value := by
  simp only [HasLine,get,Option.bind_eq_some_iff]
  constructor
  · rintro ⟨m,⟨n,hn,hm⟩,hv⟩
    exact ⟨n,hn,m,hm,hv⟩
  · rintro ⟨n,hn,m,hm,hv⟩
    exact ⟨m,⟨n,hn,hm⟩,hv⟩

/-- There is no node below which there is nothing to see. -/
theorem exists_hasLine (n : Node) (h : n.Ordered) : ∃ path value, n.HasLine path value := by
  induction n using Node.induct with
  | values c vs =>
    refine ⟨[],vs.head?,hasLine_nil.mpr ?_⟩
    cases vs <;> simp [Ends]
  | interior c cs ih =>
    cases cs with
    | nil => exact ⟨[],none,hasLine_nil.mpr ⟨rfl,rfl⟩⟩
    | cons e cs =>
      have hl : (e::cs).lookup e.1 = some e.2 := by simp [List.lookup]
      obtain ⟨path,value,hline⟩ := ih e (by simp) (ordered_of_lookup h hl)
      exact ⟨e.1::path,value,hasLine_cons_interior.mpr ⟨_,hl,hline⟩⟩

theorem lines_ne_nil (n : Node) {at_ : Path} (h : at_ ≠ []) : n.lines at_ ≠ [] := by
  obtain ⟨c,cs | vs⟩ := n
  · rw [lines]
    split_ifs with hempty
    · simp
    · simpa [h] using hempty
  · rw [lines]
    split_ifs with hempty
    · simp
    · simpa using hempty

theorem linesAll_isEmpty {at_ : Path} {cs : List (String × Node)} :
    (linesAll at_ cs).isEmpty = cs.isEmpty := by
  cases cs with
  | nil => rfl
  | cons e cs => simp [linesAll,lines_ne_nil,Path.child]

/-- The lines of children, each under its name. -/
theorem mem_linesAll (at_ : Path) {cs : List (String × Node)} (hs : KeySorted cs)
    (ih : ∀ e ∈ cs, ∀ at_ : Path, at_ ≠ [] → ∀ l, l ∈ e.2.lines at_ ↔
      ∃ path, l.1 = at_ ++ path ∧ e.2.HasLine path l.2) (l : DiffLine) :
    l ∈ linesAll at_ cs ↔ ∃ s path, l.1 = at_ ++ s::path ∧
      ∃ n, cs.lookup s = some n ∧ n.HasLine path l.2 := by
  have hmem : l ∈ linesAll at_ cs ↔ ∃ e ∈ cs, l ∈ e.2.lines (at_.child e.1) := by
    clear ih hs
    induction cs with
    | nil => simp [linesAll]
    | cons e cs ih => simp [linesAll,ih]
  rw [hmem]
  constructor
  · rintro ⟨e,he,hl⟩
    obtain ⟨path,hpath,hline⟩ := (ih e he _ (by simp [Path.child]) l).mp hl
    exact ⟨e.1,path,by simpa [Path.child] using hpath,e.2,(lookup_eq_some_iff_mem hs).mpr he,hline⟩
  · rintro ⟨s,path,hpath,n,hn,hline⟩
    have he := (lookup_eq_some_iff_mem hs).mp hn
    exact ⟨(s,n),he,(ih _ he _ (by simp [Path.child]) l).mpr ⟨path,by simpa [Path.child] using hpath,hline⟩⟩

theorem lines_values {c : Option String} {vs : List String} {at_ : Path} (l : DiffLine) :
    l ∈ lines at_ ⟨c,.values vs⟩ ↔ l.1 = at_ ∧ Ends ⟨c,.values vs⟩ l.2 := by
  obtain ⟨p,value⟩ := l
  rw [lines]
  cases vs with
  | nil => simp [Ends]
  | cons v vs =>
    simp only [List.isEmpty_cons,Bool.false_eq_true,if_false,List.mem_map,Prod.mk.injEq,Ends,
      reduceCtorEq,false_and,false_or]
    constructor
    · rintro ⟨w,hw,rfl,rfl⟩
      exact ⟨rfl,w,hw,rfl⟩
    · rintro ⟨rfl,w,hw,rfl⟩
      exact ⟨w,hw,rfl,rfl⟩

/-- The lines of a node below the root are the lines at the paths below it. -/
theorem mem_lines {n : Node} (ho : n.Ordered) {at_ : Path} (hat : at_ ≠ []) (l : DiffLine) :
    l ∈ n.lines at_ ↔ ∃ path, l.1 = at_ ++ path ∧ n.HasLine path l.2 := by
  induction n using Node.induct generalizing at_ l with
  | values c vs =>
    rw [lines_values]
    constructor
    · rintro ⟨hpath,hends⟩
      exact ⟨[],by simpa using hpath,hasLine_nil.mpr hends⟩
    · rintro ⟨_ | ⟨s,path⟩,hpath,hline⟩
      · exact ⟨by simpa using hpath,hasLine_nil.mp hline⟩
      · exact absurd hline hasLine_cons_values
  | interior c cs ih =>
    obtain ⟨hs,hall⟩ := ordered_interior.mp ho
    have hbelow := mem_linesAll at_ hs (fun e he at_ hat l => ih e he (hall e he) hat l) l
    rw [lines,linesAll_isEmpty]
    have hcons : (∃ path, l.1 = at_ ++ path ∧ HasLine ⟨c,.interior cs⟩ path l.2) ↔
        (l.1 = at_ ∧ cs = [] ∧ l.2 = none) ∨ l ∈ linesAll at_ cs := by
      rw [hbelow]
      constructor
      · rintro ⟨_ | ⟨s,path⟩,hpath,hline⟩
        · exact .inl ⟨by simpa using hpath,hasLine_nil.mp hline⟩
        · exact .inr ⟨s,path,hpath,hasLine_cons_interior.mp hline⟩
      · rintro (⟨hpath,hends⟩ | ⟨s,path,hpath,hline⟩)
        · exact ⟨[],by simpa using hpath,hasLine_nil.mpr hends⟩
        · exact ⟨s::path,hpath,hasLine_cons_interior.mpr hline⟩
    rw [hcons]
    obtain ⟨p,value⟩ := l
    cases cs with
    | nil => simp [hat,linesAll]
    | cons e cs => simp

/-- The lines of a whole configuration: only an empty root contributes none. -/
theorem mem_lines_root {tree : ConfigTree} (l : DiffLine) :
    l ∈ tree.lines ↔ l.1 ≠ [] ∧ tree.root.HasLine l.1 l.2 := by
  obtain ⟨⟨c,cs | vs⟩,hi,ho⟩ := tree
  · obtain ⟨hs,hall⟩ := ordered_interior.mp ho
    have hbelow := mem_linesAll [] hs (fun e he at_ hat l => mem_lines (hall e he) hat l) l
    have hlines : (⟨⟨c,.interior cs⟩,hi,ho⟩ : ConfigTree).lines = linesAll [] cs := by
      rw [ConfigTree.lines,lines,Path.root]
      simp
    rw [hlines,hbelow]
    constructor
    · rintro ⟨s,path,hpath,hline⟩
      rw [hpath]
      exact ⟨by simp,hasLine_cons_interior.mpr hline⟩
    · rintro ⟨hne,hline⟩
      obtain ⟨s,path,hpath⟩ := List.exists_cons_of_ne_nil hne
      rw [hpath] at hline
      exact ⟨s,path,hpath,hasLine_cons_interior.mp hline⟩
  · cases hi

/-- A container has a line at every child. -/
theorem lookup_isSome_iff_hasLine {c : Option String} {cs : List (String × Node)}
    (ho : Ordered ⟨c,.interior cs⟩) (s : String) :
    (cs.lookup s).isSome ↔ ∃ path value, HasLine ⟨c,.interior cs⟩ (s::path) value := by
  simp only [hasLine_cons_interior]
  constructor
  · intro h
    obtain ⟨n,hn⟩ := Option.isSome_iff_exists.mp h
    obtain ⟨path,value,hline⟩ := n.exists_hasLine (ordered_of_lookup ho hn)
    exact ⟨path,value,n,hn,hline⟩
  · rintro ⟨path,value,n,hn,-⟩
    simp [hn]

/-- Children are the same but for comments when they are so name by name. -/
theorem bareAll_ext {cs ds : List (String × Node)} (hcs : KeySorted cs) (hds : KeySorted ds)
    (h : ∀ s, (cs.lookup s).map bare = (ds.lookup s).map bare) : bareAll cs = bareAll ds := by
  have hsorted : ∀ {es : List (String × Node)}, KeySorted es → KeySorted (bareAll es) := by
    intro es hes
    rw [bareAll_eq_map,KeySorted,List.pairwise_map]
    exact hes
  have hlookup : ∀ (es : List (String × Node)) (s : String),
      (bareAll es).lookup s = (es.lookup s).map bare := by
    intro es s
    induction es with
    | nil => rfl
    | cons e es ih => rw [bareAll,lookup_cons_ite,lookup_cons_ite,ih]; split_ifs <;> rfl
  exact keySorted_ext (hsorted hcs) (hsorted hds) (fun s => by rw [hlookup,hlookup,h s])

theorem values_of_hasLine {c d : Option String} {vs ws : List String}
    (h : ∀ path value, HasLine ⟨c,.values vs⟩ path value ↔ HasLine ⟨d,.values ws⟩ path value)
    (v : String) : v ∈ vs ↔ v ∈ ws := by
  have hv := h [] (some v)
  simpa [hasLine_nil,Ends] using hv

/-- A leaf and a container have the same lines only where both hold nothing. -/
theorem bare_values_interior {c d : Option String} {vs : List String} {cs : List (String × Node)}
    (ho : Ordered ⟨d,.interior cs⟩)
    (h : ∀ path value, HasLine ⟨c,.values vs⟩ path value ↔ HasLine ⟨d,.interior cs⟩ path value) :
    bare ⟨c,.values vs⟩ = bare ⟨d,.interior cs⟩ := by
  cases cs with
  | nil =>
    have hnil := (h [] none).mpr (hasLine_nil.mpr ⟨rfl,rfl⟩)
    have hvs : vs = [] := by simpa [hasLine_nil,Ends] using hnil
    simp [bare,hvs,flag]
  | cons e cs =>
    obtain ⟨path,value,hline⟩ := (lookup_isSome_iff_hasLine ho e.1).mp (by simp [List.lookup])
    exact absurd ((h _ _).mpr hline) hasLine_cons_values

/-- Containers with the same lines below them hold children that are the same but for comments,
when children with the same lines are. -/
theorem bareAll_eq_of_hasLine {c d : Option String} {cs ds : List (String × Node)}
    (hcs : Ordered ⟨c,.interior cs⟩) (hds : Ordered ⟨d,.interior ds⟩)
    (h : ∀ s path value, HasLine ⟨c,.interior cs⟩ (s::path) value ↔
      HasLine ⟨d,.interior ds⟩ (s::path) value)
    (hbare : ∀ s n m, cs.lookup s = some n → ds.lookup s = some m →
      (∀ path value, n.HasLine path value ↔ m.HasLine path value) → n.bare = m.bare) :
    bareAll cs = bareAll ds := by
  apply bareAll_ext (ordered_interior.mp hcs).1 (ordered_interior.mp hds).1
  intro s
  have hiff : (cs.lookup s).isSome ↔ (ds.lookup s).isSome := by
    rw [lookup_isSome_iff_hasLine hcs,lookup_isSome_iff_hasLine hds]
    simp only [h]
  rcases hn : cs.lookup s with _ | n <;> rcases hm : ds.lookup s with _ | m
  · rfl
  · simp [hn,hm] at hiff
  · simp [hn,hm] at hiff
  · have heq : n.bare = m.bare := by
      apply hbare s n m hn hm
      intro path value
      have hline := h s path value
      simpa [hasLine_cons_interior,hn,hm] using hline
    simp [heq]

/-- Nodes with the same lines are the same but for comments. -/
theorem bare_eq_of_hasLine {n m : Node} (hn : n.Ordered) (hm : m.Ordered)
    (h : ∀ path value, n.HasLine path value ↔ m.HasLine path value) : n.bare = m.bare := by
  induction n using Node.induct generalizing m with
  | values c vs =>
    obtain ⟨d,ds | ws⟩ := m
    · exact bare_values_interior hm h
    · have hvs : vs = ws :=
        (ordered_values.mp hn).eq_of_mem_iff (ordered_values.mp hm) (values_of_hasLine h)
      rw [hvs,bare,bare]
  | interior c cs ih =>
    obtain ⟨d,ds | ws⟩ := m
    · have hempty : cs = [] ↔ ds = [] := by
        have hnil := h [] none
        simpa [hasLine_nil,Ends] using hnil
      have hall : bareAll cs = bareAll ds := by
        apply bareAll_eq_of_hasLine hn hm (fun s path value => h (s::path) value)
        intro s k l hk hl hline
        have hmem := (lookup_eq_some_iff_mem (ordered_interior.mp hn).1).mp hk
        exact ih _ hmem (ordered_of_lookup hn hk) (ordered_of_lookup hm hl) hline
      simp only [bare,List.isEmpty_iff,hempty,hall]
    · exact (bare_values_interior hn (fun path value => (h path value).symm)).symm

theorem lines_bare (n : Node) (at_ : Path) (hat : at_ ≠ []) : n.bare.lines at_ = n.lines at_ := by
  induction n using Node.induct generalizing at_ with
  | values c vs => rw [bare,lines,lines]
  | interior c cs ih =>
    have hall : ∀ es : List (String × Node), (∀ e ∈ es, e ∈ cs) →
        linesAll at_ (bareAll es) = linesAll at_ es := by
      intro es hes
      induction es with
      | nil => rfl
      | cons e es ihes =>
        rw [bareAll,linesAll,linesAll,ihes (fun d hd => hes d (by simp [hd])),
          ih e (hes e (by simp)) _ (by simp [Path.child])]
    cases cs with
    | nil => simp [bare,flag,lines,linesAll,hat]
    | cons e cs =>
      have hlines := hall (e::cs) (fun _ => id)
      rw [bare,List.isEmpty_cons,if_neg (by simp),lines,lines,hlines]

end Node

namespace ConfigTree

/-- A configuration without its comments, with containers of nothing taken as flags. -/
def bare (tree : ConfigTree) : List (String × Node) := Node.bareAll tree.children

theorem lines_eq (tree : ConfigTree) : tree.lines = linesAll [] tree.children := by
  obtain ⟨⟨c,cs | vs⟩,hi,ho⟩ := tree
  · simp [lines,Node.lines,Path.root,children,Node.children]
  · cases hi

theorem linesAll_bareAll (cs : List (String × Node)) :
    linesAll [] (Node.bareAll cs) = linesAll [] cs := by
  induction cs with
  | nil => rfl
  | cons e cs ih =>
    rw [Node.bareAll,linesAll,linesAll,ih,Node.lines_bare _ _ (by simp [Path.child])]

theorem bare_eq_of_lines {s t : ConfigTree} (h : ∀ l, l ∈ s.lines ↔ l ∈ t.lines) :
    s.bare = t.bare := by
  obtain ⟨⟨c,cs | vs⟩,hsi,hso⟩ := s
  · obtain ⟨⟨d,ds | ws⟩,hti,hto⟩ := t
    · apply Node.bareAll_eq_of_hasLine hso hto
      · intro k path value
        have hl := h (k::path,value)
        simpa [Node.mem_lines_root] using hl
      · intro k n m hn hm hline
        exact Node.bare_eq_of_hasLine (Node.ordered_of_lookup hso hn) (Node.ordered_of_lookup hto hm)
          hline
    · cases hti
  · cases hsi

end ConfigTree

/-! ### What an empty diff says -/

/-- A placeholder line of a node that the other configuration fills gives away what it holds. -/
theorem exists_hidden {s t : ConfigTree} {p : Path} (hp : (p,none) ∈ t.lines)
    (hno : (p,none) ∉ s.lines) (hsurvives : survives s t p) :
    ∃ l ∈ s.lines, l ∉ t.lines ∧ (l.2 = none → ¬survives s t l.1) ∧
      ∃ name rest, l.1 = p ++ name::rest := by
  obtain ⟨hne,m,hm,hends⟩ := (Node.mem_lines_root _).mp hp
  simp only [survives,Bool.and_eq_true,Option.any_eq_true] at hsurvives
  obtain ⟨⟨n,hn,hni⟩,m',hm',hmi⟩ := hsurvives
  have hmm : m = m' := by
    rw [ConfigTree.get] at hm'
    simpa [hm] using hm'
  subst hmm
  obtain ⟨d,ds | ws⟩ := m
  · obtain ⟨rfl,-⟩ := hends
    obtain ⟨c,cs | vs⟩ := n
    · have ho := Node.ordered_get s.ordered hn
      cases cs with
      | nil =>
        exact absurd ((Node.mem_lines_root _).mpr ⟨hne,_,hn,⟨rfl,rfl⟩⟩) hno
      | cons e cs =>
        obtain ⟨path,value,k,hk,hline⟩ :=
          (Node.lookup_isSome_iff_hasLine ho e.1).mp (by simp [List.lookup])
        have hgone : t.root.get (p ++ e.1::path) = none := by
          rw [Node.get_append,hm]
          rfl
        refine ⟨(p ++ e.1::path,value),(Node.mem_lines_root _).mpr ⟨by simp,k,?_,hline⟩,?_,?_,
          e.1,path,rfl⟩
        · rw [ConfigTree.get] at hn
          rw [Node.get_append,hn]
          exact hk
        · rw [Node.mem_lines_root]
          rintro ⟨-,l,hl,-⟩
          rw [hgone] at hl
          cases hl
        · intro _ hsurvives
          simp [survives,ConfigTree.get,hgone] at hsurvives
    · cases hni
  · cases hmi

/-- There is no change exactly when the configurations are the same but for comments, and for
whether a node that holds nothing is a container or a flag. -/
theorem diff_eq_nil_iff (s t : ConfigTree) : diff s t = [] ↔ s.bare = t.bare := by
  have hnil : diff s t = [] ↔
      (∀ l ∈ t.lines, l ∉ s.lines → l.2 = none ∧ survives s t l.1) ∧
      (∀ l ∈ s.lines, l ∉ t.lines → l.2 = none ∧ survives s t l.1) := by
    rw [diff,← List.length_eq_zero_iff,List.length_insertionSort,List.length_eq_zero_iff]
    simp only [List.filter_append,List.append_eq_nil_iff,List.filter_eq_nil_iff,List.mem_map,
      List.mem_filter,decide_eq_true_eq,Bool.or_eq_true,not_or,Bool.not_eq_true,
      Option.isSome_eq_false_iff,Option.isNone_iff_eq_none,Bool.not_eq_false']
    constructor
    · rintro ⟨hcome,hgone⟩
      exact ⟨fun l hl hno => hcome _ ⟨l,⟨hl,hno⟩,rfl⟩,fun l hl hno => hgone _ ⟨l,⟨hl,hno⟩,rfl⟩⟩
    · rintro ⟨hcome,hgone⟩
      constructor
      · rintro _ ⟨l,⟨hl,hno⟩,rfl⟩
        exact hcome l hl hno
      · rintro _ ⟨l,⟨hl,hno⟩,rfl⟩
        exact hgone l hl hno
  have hsymm : ∀ p, survives t s p = survives s t p := fun p => Bool.and_comm _ _
  rw [hnil]
  constructor
  · rintro ⟨hcome,hgone⟩
    apply ConfigTree.bare_eq_of_lines
    intro l
    constructor
    · intro hl
      by_contra hno
      obtain ⟨hnone,hsurvives⟩ := hgone l hl hno
      obtain ⟨p,value⟩ := l
      cases hnone
      obtain ⟨l,hl,hno,hseen,-⟩ := exists_hidden hl hno (by rwa [hsymm])
      obtain ⟨hnone,hsurvives⟩ := hcome l hl hno
      exact hseen hnone (by rwa [hsymm])
    · intro hl
      by_contra hno
      obtain ⟨hnone,hsurvives⟩ := hcome l hl hno
      obtain ⟨p,value⟩ := l
      cases hnone
      obtain ⟨l,hl,hno,hseen,-⟩ := exists_hidden hl hno hsurvives
      obtain ⟨hnone,hsurvives⟩ := hgone l hl hno
      exact hseen hnone hsurvives
  · intro h
    have hlines : s.lines = t.lines := by
      rw [s.lines_eq,t.lines_eq,← ConfigTree.linesAll_bareAll,← ConfigTree.linesAll_bareAll t.children]
      exact congrArg _ h
    rw [hlines]
    exact ⟨fun l hl hno => absurd hl hno,fun l hl hno => absurd hl hno⟩

end Nightshade.Schema
