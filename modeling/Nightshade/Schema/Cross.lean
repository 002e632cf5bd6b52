import Mathlib
import Nightshade.Schema.Gate
import Nightshade.Schema.DiffAlgebra

/-! What the rules between nodes range over: the paths that a pattern stands for, the nodes that the
walk comes to, and what of it all is reported. -/
namespace Nightshade.Schema
open Foundation

/-! ### Patterns -/

namespace PatternSegment

/-- A name that a segment of a pattern stands for, in an instance or in none. -/
def Matches (current : Option String) (segment : PatternSegment) (name : String) : Prop :=
  match segment with
  | .literal s => name = s
  | .any => True
  | .current => current = some name

end PatternSegment

/-- The names on a path are such as the pattern says, one by one. -/
def PathPattern.Matches (current : Option String) (pattern : PathPattern) (path : Path) : Prop :=
  List.Forall₂ (PatternSegment.Matches current) pattern path

theorem forall₂_concat {α β : Type*} {R : α → β → Prop} {l : List α} {a : α} {u : List β}
    (h : List.Forall₂ R (l ++ [a]) u) : ∃ v b, u = v ++ [b] ∧ List.Forall₂ R l v ∧ R a b := by
  have hrev := List.rel_reverse h
  rw [List.reverse_append,List.reverse_singleton,List.singleton_append,List.forall₂_cons_left_iff] at hrev
  obtain ⟨b,v,hab,hlv,hu⟩ := hrev
  refine ⟨v.reverse,b,?_,?_,hab⟩
  · rw [← List.reverse_reverse u,hu,List.reverse_cons]
  · have := List.rel_reverse hlv
    rwa [List.reverse_reverse] at this

section Patterns
variable {tree : ConfigTree} {pattern : PathPattern} {current : Option String} {path : Path}

theorem contains_concat {name : String} : tree.contains (path ++ [name]) ↔
    ∃ cs, (tree.get path).bind Node.children = some cs ∧ (cs.lookup name).isSome := by
  unfold ConfigTree.contains ConfigTree.get
  rw [Node.get_append]
  cases hget : tree.root.get path with
  | none => simp
  | some n =>
    obtain ⟨c,cs | vs⟩ := n
    · simp only [Option.bind_some,Node.children,Option.some.injEq,exists_eq_left']
      cases hlookup : cs.lookup name <;> simp [Node.get,hlookup]
    · simp [Node.get,Node.children]

theorem contains_of_concat {name : String} (h : tree.contains (path ++ [name])) : tree.contains path := by
  obtain ⟨cs,hcs,-⟩ := contains_concat.mp h
  obtain ⟨n,hn,-⟩ := Option.bind_eq_some_iff.mp hcs
  exact Option.isSome_iff_exists.mpr ⟨n,hn⟩

theorem mem_ifThere {p : Path} {name : String} :
    path ∈ (if tree.contains (p.child name) then [p.child name] else []) ↔
      path = p ++ [name] ∧ tree.contains (p ++ [name]) := by
  unfold Path.child
  by_cases hthere : tree.contains (p ++ [name])
  · simp [hthere]
  · simp [hthere]

/-- A pattern stands for the paths that match it and are there. -/
theorem mem_expand : path ∈ expand tree pattern current ↔
    tree.contains path ∧ pattern.Matches current path := by
  unfold PathPattern.Matches
  induction pattern using List.reverseRecOn generalizing path with
  | nil =>
    rw [List.forall₂_nil_left_iff]
    constructor
    · intro h
      obtain rfl : path = Path.root := by simpa [expand] using h
      exact ⟨rfl,rfl⟩
    · rintro ⟨-,rfl⟩
      simp [expand,Path.root]
  | append_singleton pattern segment ih =>
    have hstep : path ∈ expand tree (pattern ++ [segment]) current ↔
        ∃ p ∈ expand tree pattern current, ∃ name, path = p ++ [name] ∧ tree.contains (p ++ [name]) ∧
          segment.Matches current name := by
      unfold expand
      rw [List.foldl_append,List.foldl_cons,List.foldl_nil,List.mem_flatMap]
      refine exists_congr (fun p => and_congr_right (fun _ => ?_))
      unfold PatternSegment.Matches
      cases segment with
      | literal s =>
        refine mem_ifThere.trans ⟨?_,?_⟩
        · rintro ⟨rfl,hthere⟩
          exact ⟨s,rfl,hthere,rfl⟩
        · rintro ⟨name,rfl,hthere,rfl⟩
          exact ⟨rfl,hthere⟩
      | current =>
        cases current with
        | none => simp
        | some key =>
          refine mem_ifThere.trans ⟨?_,?_⟩
          · rintro ⟨rfl,hthere⟩
            exact ⟨key,rfl,hthere,rfl⟩
          · rintro ⟨name,rfl,hthere,hname⟩
            obtain rfl : key = name := Option.some.inj hname
            exact ⟨rfl,hthere⟩
      | any =>
        simp only [Path.child,List.mem_map,and_true,contains_concat]
        constructor
        · rintro ⟨e,he,rfl⟩
          cases hcs : (tree.get p).bind Node.children with
          | none =>
            rw [hcs] at he
            cases he
          | some cs =>
            rw [hcs] at he
            obtain ⟨n,hn,hchildren⟩ := Option.bind_eq_some_iff.mp hcs
            obtain ⟨c,ds | vs⟩ := n
            · obtain rfl : ds = cs := Option.some.inj hchildren
              have hord := Node.ordered_get tree.ordered hn
              have hlookup := (lookup_eq_some_iff_mem (Node.ordered_interior.mp hord).1).mpr he
              exact ⟨e.1,rfl,ds,rfl,Option.isSome_iff_exists.mpr ⟨e.2,hlookup⟩⟩
            · cases hchildren
        · rintro ⟨name,rfl,cs,hcs,hsome⟩
          obtain ⟨m,hm⟩ := Option.isSome_iff_exists.mp hsome
          exact ⟨(name,m),hcs ▸ lookup_mem hm,rfl⟩
    rw [hstep]
    constructor
    · rintro ⟨p,hp,name,rfl,hcontains,hname⟩
      exact ⟨hcontains,List.rel_append (ih.mp hp).2 (.cons hname .nil)⟩
    · rintro ⟨hcontains,hmatches⟩
      obtain ⟨p,name,rfl,hp,hname⟩ := forall₂_concat hmatches
      exact ⟨p,ih.mpr ⟨contains_of_concat hcontains,hp⟩,name,rfl,hcontains,hname⟩

/-- What a path contributes: the values that a leaf holds, or the name of a node that is none. -/
theorem mem_contributed {value : String} :
    value ∈ contributed tree path ↔
      tree.Holds path value ∨ tree.valuesAt path = none ∧ path.getLast? = some value := by
  unfold contributed ConfigTree.Holds
  cases tree.valuesAt path <;> simp [eq_comm]

end Patterns

/-! ### The walk -/

/-- One segment further down the walk, with the instance that it is in. -/
def Location.crossNext : Location × Option String → String → Option (Location × Option String)
  | (.node n,current), name =>
    if n.isTag then some (.inst n,some name) else (n.child name).map (fun child => (.node child,current))
  | (.inst tag,current), name => (tag.child name).map (fun child => (.node child,current))
  | (.value _,_), _ => none

namespace Schema

/-- What the walk has to say about a node itself. -/
def atNode (tree : ConfigTree) (location : Location) (at_ : Path) (current : Option String) (n : Node) :
    List ConstraintViolation :=
  match location with
  | .value _ => []
  | .node s =>
    s.constraints.flatMap (fun k => checkConstraint k n at_ current tree) ++
    (n.children.elim [] (fun cs =>
      if s.isTag then checkUnique s cs at_ else checkRequired s cs at_ ++ checkExclusive s cs at_))
  | .inst s =>
    s.constraints.flatMap (fun k => checkConstraint k n at_ current tree) ++
    (n.children.elim [] (fun cs => checkRequired s cs at_ ++ checkExclusive s cs at_))

section Walk
variable {tree : ConfigTree} {location : Location} {at_ : Path} {current : Option String}
  {v : ConstraintViolation}

theorem mem_crossInstances {n : SchemaNode} {cs : List (String × Node)} {e : String × Node} (he : e ∈ cs)
    (hv : v ∈ checkCross tree (.inst n) (at_ ++ [e.1]) (some e.1) e.2) :
    v ∈ crossInstances tree n at_ cs := by
  induction cs with
  | nil => cases he
  | cons d cs ih =>
    rw [crossInstances,List.mem_append]
    rcases List.mem_cons.mp he with rfl | he
    · exact .inl hv
    · exact .inr (ih he)

theorem mem_crossChildren {n child : SchemaNode} {cs : List (String × Node)} {e : String × Node}
    (he : e ∈ cs) (hchild : n.child e.1 = some child)
    (hv : v ∈ checkCross tree (.node child) (at_ ++ [e.1]) current e.2) :
    v ∈ crossChildren tree n at_ current cs := by
  induction cs with
  | nil => cases he
  | cons d cs ih =>
    rw [crossChildren,List.mem_append]
    rcases List.mem_cons.mp he with rfl | he
    · left
      rw [hchild]
      exact hv
    · exact .inr (ih he)

theorem mem_checkCross_of_atNode {n : Node} (hv : v ∈ atNode tree location at_ current n) :
    v ∈ checkCross tree location at_ current n := by
  obtain ⟨c,cs | vs⟩ := n
  · cases location with
    | value leaf => cases hv
    | inst tag =>
      rw [checkCross]
      simp only [atNode,Node.children,Option.elim_some,List.mem_append] at hv ⊢
      tauto
    | node s =>
      rw [checkCross]
      simp only [atNode,Node.children,Option.elim_some] at hv ⊢
      by_cases htag : s.isTag
      · simp only [htag,if_true,List.mem_append] at hv ⊢
        tauto
      · simp only [htag,Bool.false_eq_true,if_false,List.mem_append] at hv ⊢
        tauto
  · cases location with
    | value leaf => cases hv
    | inst tag | node s =>
      rw [checkCross]
      simpa [atNode,Node.children] using hv

/-- Whatever is found one segment down is found. -/
theorem mem_checkCross_child {state : Location × Option String} {c : Option String}
    {cs : List (String × Node)} {e : String × Node} (he : e ∈ cs)
    (hnext : Location.crossNext (location,current) e.1 = some state)
    (hv : v ∈ checkCross tree state.1 (at_ ++ [e.1]) state.2 e.2) :
    v ∈ checkCross tree location at_ current ⟨c,.interior cs⟩ := by
  cases location with
  | value leaf => cases hnext
  | inst tag =>
    obtain ⟨child,hchild,rfl⟩ := Option.map_eq_some_iff.mp hnext
    rw [checkCross,List.mem_append]
    exact .inr (mem_crossChildren he hchild hv)
  | node s =>
    rw [checkCross,List.mem_append]
    right
    simp only [Location.crossNext] at hnext
    split_ifs at hnext ⊢ with htag
    · obtain rfl := Option.some.inj hnext
      exact List.mem_append_right _ (mem_crossInstances he hv)
    · obtain ⟨child,hchild,rfl⟩ := Option.map_eq_some_iff.mp hnext
      exact List.mem_append_right _ (mem_crossChildren he hchild hv)

/-- The walk comes to every node that the schema knows of, and leaves out nothing of what it finds. -/
theorem mem_checkCross {n m : Node} {path : Path} {state : Location × Option String}
    (hget : n.get path = some m) (hreach : path.foldlM Location.crossNext (location,current) = some state)
    (hv : v ∈ atNode tree state.1 (at_ ++ path) state.2 m) :
    v ∈ checkCross tree location at_ current n := by
  induction path generalizing n location at_ current with
  | nil =>
    cases hget
    cases hreach
    rw [List.append_nil] at hv
    exact mem_checkCross_of_atNode hv
  | cons name path ih =>
    obtain ⟨c,cs | vs⟩ := n
    · obtain ⟨child,hchild,hrest⟩ := Option.bind_eq_some_iff.mp hget
      rw [List.foldlM_cons] at hreach
      obtain ⟨next,hnext,hlast⟩ := Option.bind_eq_some_iff.mp hreach
      have hmem : (name,child) ∈ cs := lookup_mem hchild
      refine mem_checkCross_child hmem hnext (ih hrest hlast ?_)
      rwa [List.append_assoc,List.singleton_append]
    · cases hget

end Walk

/-! ### Reports -/

section Reports
variable {schema : Schema} {tree : ConfigTree} {v : ConstraintViolation}

theorem mem_checkConstraints : v ∈ schema.checkConstraints tree ↔
    v ∈ checkCross tree (.node schema.root) Path.root none tree.root ∨
      ∃ g ∈ schema.globals, v ∈ checkGlobal tree g := by
  have hanti : Std.Antisymm (fun a b : ConstraintViolation =>
      toLex (a.path,a.message) ≤ toLex (b.path,b.message)) := by
    refine ⟨fun a b hab hba => ?_⟩
    obtain ⟨p,m⟩ := a
    obtain ⟨q,m'⟩ := b
    have heq := toLex.injective (le_antisymm hab hba)
    cases heq
    rfl
  have htotal : Std.Total (fun a b : ConstraintViolation =>
      toLex (a.path,a.message) ≤ toLex (b.path,b.message)) := ⟨fun a b => le_total _ _⟩
  have htrans : IsTrans ConstraintViolation (fun a b =>
      toLex (a.path,a.message) ≤ toLex (b.path,b.message)) := ⟨fun a b c hab hbc => le_trans hab hbc⟩
  unfold checkConstraints
  rw [(List.pairwise_insertionSort _ _).destutter_eq_dedup,List.mem_dedup,List.mem_insertionSort,
    List.mem_append,List.mem_flatMap]

/-- What is found at a node is reported. -/
theorem reported_at {path : Path} {m : Node} {state : Location × Option String}
    (hget : tree.get path = some m)
    (hreach : path.foldlM Location.crossNext (.node schema.root,none) = some state)
    (hv : v ∈ atNode tree state.1 path state.2 m) : v ∈ schema.checkConstraints tree :=
  mem_checkConstraints.mpr (.inl (mem_checkCross hget hreach (by simpa [Path.root] using hv)))

end Reports

/-! ### Claims -/

/-- One claim more on a value. -/
def claim (claims : List (String × List Path)) (e : String × Path) : List (String × List Path) :=
  insertKey e.1 (((claims.lookup e.1).getD []) ++ [e.2]) claims

theorem keySorted_claims (new : List (String × Path)) {claims : List (String × List Path)}
    (h : KeySorted claims) : KeySorted (new.foldl claim claims) := by
  induction new generalizing claims with
  | nil => exact h
  | cons e new ih => exact ih (keySorted_insertKey _ _ h)

theorem lookup_claims (new : List (String × Path)) (claims : List (String × List Path)) (value : String) :
    ((new.foldl claim claims).lookup value).getD [] =
      (claims.lookup value).getD [] ++ (new.filter (fun e => e.1 = value)).map Prod.snd := by
  induction new generalizing claims with
  | nil => simp
  | cons e new ih =>
    rw [List.foldl_cons,ih,claim,lookup_insertKey]
    by_cases hvalue : e.1 = value
    · simp [hvalue]
    · simp [hvalue,Ne.symm hvalue]

section Claims
variable {tree : ConfigTree} {paths : List PathPattern} {value : String}

/-- A path that a pattern stands for contributes a value. -/
def Claims (tree : ConfigTree) (paths : List PathPattern) (value : String) (path : Path) : Prop :=
  (∃ pattern ∈ paths, tree.contains path ∧ pattern.Matches none path) ∧ value ∈ contributed tree path

/-- Two claims on one value are reported, each where it is made. -/
theorem mem_uniqueAcross {message : String} {p q : Path} (hp : Claims tree paths value p)
    (hq : Claims tree paths value q) (hne : p ≠ q) :
    ∃ v ∈ checkGlobal tree (.uniqueAcross paths message), v.path = p := by
  let new := paths.flatMap (fun pattern => (expand tree pattern none).flatMap (fun path =>
    (contributed tree path).map (fun value => (value,path))))
  have hclaims : claimed tree paths = new.foldl claim [] := rfl
  have hnew : ∀ path, Claims tree paths value path → (value,path) ∈ new := by
    rintro path ⟨⟨pattern,hpattern,hpath⟩,hvalue⟩
    exact List.mem_flatMap.mpr ⟨pattern,hpattern,
      List.mem_flatMap.mpr ⟨path,mem_expand.mpr hpath,List.mem_map.mpr ⟨value,hvalue,rfl⟩⟩⟩
  let referrers := (new.filter (fun e => e.1 = value)).map Prod.snd
  have hmem : ∀ path, Claims tree paths value path → path ∈ referrers := fun path hpath =>
    List.mem_map.mpr ⟨(value,path),List.mem_filter.mpr ⟨hnew path hpath,by simp⟩,rfl⟩
  have hlookup : (claimed tree paths).lookup value = some referrers := by
    have h := lookup_claims new [] value
    rw [← hclaims] at h
    cases hfound : (claimed tree paths).lookup value with
    | none =>
      rw [hfound] at h
      have hempty : referrers = [] := h.symm
      have hp' := hmem p hp
      rw [hempty] at hp'
      cases hp'
    | some ps =>
      rw [hfound] at h
      exact congrArg some h
  have hlength : ¬referrers.length < 2 := by
    intro hshort
    have hsame : ∀ l : List Path, l.length < 2 → p ∈ l → q ∈ l → p = q := by
      intro l hl hpl hql
      match l with
      | [] => cases hpl
      | [r] => rw [List.mem_singleton.mp hpl,List.mem_singleton.mp hql]
      | _::_::_ => simp at hl
    exact hne (hsame referrers hshort (hmem p hp) (hmem q hq))
  have hentry : (value,referrers) ∈ claimed tree paths :=
    (lookup_eq_some_iff_mem (hclaims ▸ keySorted_claims new keySorted_nil)).mp hlookup
  let names := (referrers.insertionSort (· ≤ ·)).map ownerName
  refine ⟨⟨p,fill message [("value",value),("referrers",", ".intercalate names)]⟩,
    List.mem_flatMap.mpr ⟨(value,referrers),hentry,?_⟩,rfl⟩
  simp only [hlength,if_false]
  exact List.mem_map.mpr ⟨p,(List.mem_insertionSort _).mpr (hmem p hp),rfl⟩

/-- A node forbidden to what is referred to is reported, where it is. -/
theorem mem_forbidChild {search : List PathPattern} {forbid message : String} {base p : Path}
    {pattern : PathPattern} (hp : Claims tree paths value p) (hpattern : pattern ∈ search)
    (hbase : tree.contains base ∧ pattern.Matches none base)
    (hthere : tree.contains (base ++ [value] ++ [forbid])) :
    ∃ v ∈ checkGlobal tree (.forbidChildOnReferenced paths search forbid message),
      v.path = base ++ [value] ++ [forbid] := by
  obtain ⟨⟨reference,hreference,hpath⟩,hvalue⟩ := hp
  refine ⟨⟨base ++ [value] ++ [forbid],fill message [("value",value),("referrer",ownerName p),
    ("referrer-path",p.display)]⟩,List.mem_flatMap.mpr ⟨reference,hreference,List.mem_flatMap.mpr ⟨p,mem_expand.mpr hpath,
    List.mem_flatMap.mpr ⟨value,hvalue,List.mem_flatMap.mpr ⟨pattern,hpattern,
    List.mem_flatMap.mpr ⟨base,mem_expand.mpr hbase,?_⟩⟩⟩⟩⟩,rfl⟩
  simp only [Path.child,hthere,if_true]
  exact List.mem_singleton.mpr rfl

end Claims

/-! ### Tuples -/

/-- One instance more, against the tuples seen so far. -/
def tupleStep (tuple : List String) (at_ : Path)
    (acc : List (List String × String) × List ConstraintViolation) (e : String × Node) :
    List (List String × String) × List ConstraintViolation :=
  match tupleValues e.2 tuple with
  | none => acc
  | some values =>
    match acc.1.lookup values with
    | some other =>
      (acc.1,acc.2 ++ [⟨at_.child e.1,"has the same " ++ " and ".intercalate tuple ++ " as " ++ other ++
        " (" ++ ", ".intercalate values ++ ")"⟩])
    | none => ((values,e.1)::acc.1,acc.2)

/-- Instances with different tuples, or without. -/
def Apart (tuple : List String) (e d : String × Node) : Prop :=
  ∀ values, tupleValues e.2 tuple = some values → tupleValues d.2 tuple ≠ some values

section Tuples
variable {tuple : List String} {at_ : Path}

/-- Where nothing is reported, nothing was, no tuple was seen before, and none is there twice. -/
theorem apart_of_tupleStep {instances : List (String × Node)} {seen : List (List String × String)}
    {out : List ConstraintViolation}
    (h : (instances.foldl (tupleStep tuple at_) (seen,out)).2 = []) :
    out = [] ∧ instances.Pairwise (Apart tuple) ∧
      ∀ e ∈ instances, ∀ values, tupleValues e.2 tuple = some values → seen.lookup values = none := by
  induction instances generalizing seen out with
  | nil => exact ⟨h,.nil,by simp⟩
  | cons e instances ih =>
    rw [List.foldl_cons,tupleStep] at h
    cases hvalues : tupleValues e.2 tuple with
    | none =>
      simp only [hvalues] at h
      obtain ⟨hout,hapart,hseen⟩ := ih h
      refine ⟨hout,.cons (fun d _ values hsome => ?_) hapart,List.forall_mem_cons.mpr ⟨?_,hseen⟩⟩
      · rw [hvalues] at hsome
        cases hsome
      · intro values hsome
        rw [hvalues] at hsome
        cases hsome
    | some values =>
      simp only [hvalues] at h
      cases hother : seen.lookup values with
      | some other =>
        simp only [hother] at h
        exact absurd (ih h).1 (by simp)
      | none =>
        simp only [hother] at h
        obtain ⟨hout,hapart,hseen⟩ := ih h
        refine ⟨hout,.cons (fun d hd values' hsome hd' => ?_) hapart,
          List.forall_mem_cons.mpr ⟨fun values' hsome => ?_,fun d hd values' hsome => ?_⟩⟩
        · -- A later instance with this tuple would have found it seen.
          obtain rfl : values = values' := Option.some.inj (hvalues.symm.trans hsome)
          have hlater := hseen d hd values hd'
          simp at hlater
        · obtain rfl : values = values' := Option.some.inj (hvalues.symm.trans hsome)
          exact hother
        · have hlater := hseen d hd values' hsome
          rw [List.lookup_cons] at hlater
          split at hlater
          · cases hlater
          · exact hlater

theorem apart_of_checkUnique {n : SchemaNode} {instances : List (String × Node)}
    (h : checkUnique n instances at_ = []) (htuple : tuple ∈ n.unique) :
    instances.Pairwise (Apart tuple) :=
  (apart_of_tupleStep (List.flatMap_eq_nil_iff.mp h tuple htuple)).2.1

end Tuples
end Schema

/-! ### Without rules -/

namespace SchemaNode

mutual

/-- Whether a part of the schema has no rule that involves more than one node. -/
def unruled : SchemaNode → Bool
  | ⟨_,_,_,_,_,cs,constraints,unique,exclusive⟩ =>
    constraints.isEmpty && unique.isEmpty && exclusive.isEmpty && unruledAll cs
termination_by structural n => n

def unruledAll : List (String × SchemaNode) → Bool
  | [] => true
  | (_,n)::rest => !n.required && n.unruled && unruledAll rest
termination_by structural cs => cs

end

theorem unruledAll_iff {cs : List (String × SchemaNode)} :
    unruledAll cs = true ↔ ∀ e ∈ cs, e.2.required = false ∧ e.2.unruled = true := by
  induction cs with
  | nil => simp [unruledAll]
  | cons e cs ih => simp [unruledAll,ih]

theorem unruled_iff {n : SchemaNode} : n.unruled = true ↔
    n.constraints = [] ∧ n.unique = [] ∧ n.exclusive = [] ∧ ∀ e ∈ n.children, e.2.required = false ∧ e.2.unruled = true := by
  obtain ⟨kind,default,secret,required,priority,cs,constraints,unique,exclusive⟩ := n
  rw [unruled]
  simp [unruledAll_iff,and_assoc]

end SchemaNode

namespace Schema

theorem crossChildren_eq_nil {tree : ConfigTree} {n : SchemaNode} {at_ : Path} {current : Option String}
    {cs : List (String × Node)} (h : ∀ e ∈ cs, ∀ s, (e.1,s) ∈ n.children →
      checkCross tree (.node s) (at_.child e.1) current e.2 = []) : crossChildren tree n at_ current cs = [] := by
  induction cs with
  | nil => rfl
  | cons e cs ih =>
    obtain ⟨name,child⟩ := e
    rw [crossChildren,ih (fun e he => h e (List.mem_cons_of_mem _ he)),List.append_nil]
    cases hchild : n.child name with
    | none => rfl
    | some s => exact h (name,child) List.mem_cons_self s (lookup_mem hchild)

theorem checkCross_unruled (tree : ConfigTree) (m : Node) {n : SchemaNode} (h : n.unruled = true) (at_ : Path)
    (current : Option String) :
    checkCross tree (.node n) at_ current m = [] ∧ checkCross tree (.inst n) at_ current m = [] := by
  induction m using Node.induct generalizing n at_ current with
  | values c vs =>
    obtain ⟨hconstraints,-⟩ := SchemaNode.unruled_iff.mp h
    rw [checkCross,checkCross]
    simp [hconstraints]
  | interior c cs ih =>
    obtain ⟨hconstraints,hunique,hexclusive,hchildren⟩ := SchemaNode.unruled_iff.mp h
    have hrequired : checkRequired n cs at_ = [] := by
      unfold checkRequired
      rw [List.flatMap_eq_nil_iff]
      intro e he
      simp [(hchildren e he).1]
    have hexclude : checkExclusive n cs at_ = [] := by
      rw [checkExclusive,hexclusive,List.flatMap_nil]
    have hdistinct : checkUnique n cs at_ = [] := by
      rw [checkUnique,hunique,List.flatMap_nil]
    have hinstances : ∀ es : List (String × Node), (∀ e ∈ es, e ∈ cs) → crossInstances tree n at_ es = [] := by
      intro es hes
      induction es with
      | nil => rfl
      | cons e es ihes =>
        obtain ⟨key,inst⟩ := e
        have hinst := (ih (key,inst) (hes _ List.mem_cons_self) h (at_.child key) (some key)).2
        rw [crossInstances,hinst,ihes (fun e he => hes e (List.mem_cons_of_mem _ he)),List.append_nil]
    have hcross : crossChildren tree n at_ current cs = [] :=
      crossChildren_eq_nil (fun e he s hs => (ih e he (hchildren _ hs).2 (at_.child e.1) current).1)
    rw [checkCross,checkCross]
    simp [hconstraints,hrequired,hexclude,hdistinct,hinstances cs (fun _ he => he),hcross]

theorem checkGlobal_unclaimed {tree : ConfigTree} {references : List PathPattern}
    (h : ∀ pattern ∈ references, expand tree pattern none = []) {g : GlobalConstraint}
    (hg : (∃ message, g = .uniqueAcross references message) ∨
      ∃ search forbid message, g = .forbidChildOnReferenced references search forbid message) :
    checkGlobal tree g = [] := by
  obtain ⟨message,rfl⟩ | ⟨search,forbid,message,rfl⟩ := hg
  · have hnone : claimed tree references = [] := by
      unfold claimed
      rw [List.flatMap_eq_nil_iff.mpr (fun pattern hpattern => by rw [h pattern hpattern]; rfl)]
      rfl
    rw [checkGlobal,hnone,List.flatMap_nil]
  · rw [checkGlobal,List.flatMap_eq_nil_iff]
    intro pattern hpattern
    rw [h pattern hpattern,List.flatMap_nil]

end Schema
end Nightshade.Schema
