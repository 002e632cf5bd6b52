import Mathlib
import Nightshade.Schema.RoundTrip

/-! Loading what was saved after it was loaded. A header may open many nodes at once where the renderer
writes a block for each of them, so a tree that was read need not be read back; it is exactly when the
blocks it is written in are not too deep. -/
namespace Nightshade.Schema
open Foundation Lexer CurlyParser Render

/-! ### What is rendered is tokens -/

/-- A stretch of text is tokens, whatever stands behind it. -/
def Lexes (text : List Char) : Prop :=
  ∀ pos : Pos, ∃ ts : List Spanned, (∀ rest, Reads ⟨text ++ rest,pos⟩ ts ⟨rest,pos.after text⟩) ∧
    ∀ t ∈ ts, pos.line ≤ t.pos.line

theorem Lexes.append {u v : List Char} (hu : Lexes u) (hv : Lexes v) : Lexes (u ++ v) := by
  intro pos
  obtain ⟨ts,hreads,hlines⟩ := hu pos
  obtain ⟨us,hreads',hlines'⟩ := hv (pos.after u)
  refine ⟨ts ++ us,fun rest => ?_,fun t ht => ?_⟩
  · rw [List.append_assoc,Pos.after_append]
    exact (hreads _).trans (hreads' rest)
  · rcases List.mem_append.mp ht with ht | ht
    · exact hlines t ht
    · exact (Pos.line_le_after pos u).trans (hlines' t ht)

theorem Takes.lexes {path : Path} {depth : ℕ} {text : List Char} {s s' : ConfigTree × Option String}
    (h : Takes path depth text s s') : Lexes text := by
  intro pos
  obtain ⟨ts,-,hreads,hlines,-⟩ := h pos none (by simp)
  exact ⟨ts,hreads,hlines⟩

theorem lexes_nil : Lexes [] := fun _ => ⟨[],fun _ _ => by simp,by simp⟩

theorem lexes_comment (d : ℕ) (text : Option String) : Lexes (comment d text) :=
  (takes_comment [] 0 d text .new).lexes

theorem lexes_line (d : ℕ) {words : List String} (hne : words ≠ []) :
    Lexes (indent d ++ wordsText words ++ ['\n']) := by
  intro pos
  refine ⟨_,fun rest => reads_line d hne rest pos,fun t ht => ?_⟩
  rw [wordToks_line _ _ t ht,Pos.after_line (newline_not_mem_indent d)]

theorem lexes_header (d : ℕ) {words : List String} (hne : words ≠ []) :
    Lexes (indent d ++ wordsText words ++ [' ','{','\n']) := by
  intro pos
  have hind := Pos.after_line (newline_not_mem_indent d) pos
  refine ⟨_,fun rest => reads_header d hne rest pos,fun t ht => ?_⟩
  rcases List.mem_append.mp ht with ht | ht
  · rw [wordToks_line _ _ t ht,hind]
  · rw [List.mem_singleton.mp ht,Pos.after_line (by simp [newline_not_mem_words]),hind]

theorem lexes_footer (d : ℕ) : Lexes (indent d ++ ['}','\n']) := by
  intro pos
  refine ⟨_,fun rest => reads_footer d rest pos,fun t ht => ?_⟩
  rw [List.mem_singleton.mp ht,Pos.after_line (newline_not_mem_indent d)]

theorem lexes_flatMap {α : Type} {f : α → List Char} {l : List α} (h : ∀ a ∈ l, Lexes (f a)) :
    Lexes (l.flatMap f) := by
  induction l with
  | nil => exact lexes_nil
  | cons a l ih =>
    rw [List.flatMap_cons]
    exact (h a List.mem_cons_self).append (ih (fun b hb => h b (List.mem_cons_of_mem _ hb)))

section
variable (tags : TagOracle)

theorem lexes_values (d : ℕ) (name : String) (vs : List String) :
    Lexes (vs.flatMap (fun value => indent d ++ quote name ++ [' '] ++ quote value ++ ['\n'])) := by
  refine lexes_flatMap (fun value _ => ?_)
  have hline := lexes_line d (by simp : [name,value] ≠ [])
  simpa [wordsText] using hline

theorem lexes_entries {cs : List (String × Node)}
    (h : ∀ e ∈ cs, ∀ name path depth, Lexes (entry tags name path depth e.2)) (path : Path) (depth : ℕ) :
    Lexes (entries tags path depth cs) := by
  induction cs with
  | nil =>
    rw [entries]
    exact lexes_nil
  | cons e cs ih =>
    rw [entries]
    exact (h e List.mem_cons_self _ _ _).append (ih (fun d hd => h d (List.mem_cons_of_mem _ hd)))

theorem lexes_instances {cs : List (String × Node)}
    (h : ∀ e ∈ cs, ∀ path depth, Lexes (children tags path depth e.2)) (name : String) (path : Path)
    (depth : ℕ) : Lexes (instances tags name path depth cs) := by
  induction cs with
  | nil =>
    rw [instances]
    exact lexes_nil
  | cons e cs ih =>
    have hhead := (lexes_comment depth e.2.comment).append
      (lexes_header depth (by simp : [name,e.1] ≠ []))
    have hall := ((hhead.append (h e List.mem_cons_self (path.child e.1) (depth+1))).append
      (lexes_footer depth)).append (ih (fun d hd => h d (List.mem_cons_of_mem _ hd)))
    rw [instances]
    simpa [wordsText] using hall

/-- However deep it is, a node is written as tokens. -/
theorem lexes_node (n : Node) : (∀ name path depth, Lexes (entry tags name path depth n)) ∧
    ∀ path depth, Lexes (children tags path depth n) := by
  induction n using Node.induct with
  | values c vs =>
    refine ⟨fun name path depth => ?_,fun path depth => ?_⟩
    · have hflag : Lexes (if vs.isEmpty then indent depth ++ quote name ++ ['\n'] else []) := by
        split_ifs
        · exact lexes_line depth (by simp : [name] ≠ [])
        · exact lexes_nil
      rw [entry]
      exact ((lexes_comment depth c).append hflag).append (lexes_values depth name vs)
    · rw [children]
      exact lexes_nil
  | interior c cs ih =>
    have hentries := lexes_entries tags (fun e he => (ih e he).1)
    refine ⟨fun name path depth => ?_,fun path depth => ?_⟩
    · rw [entry]
      split_ifs
      · exact lexes_instances tags (fun e he => (ih e he).2) name path depth
      · have hall := (((lexes_comment depth c).append
          (lexes_header depth (by simp : [name] ≠ []))).append (hentries path (depth+1))).append
          (lexes_footer depth)
        simpa [wordsText] using hall
    · rw [children]
      exact hentries path depth

end

/-! ### Where the parser gives up -/

/-- A stretch of text brings the parser to an error, whatever stands behind it. -/
def Rejects (path : Path) (depth : ℕ) (text : List Char) (s : ConfigTree × Option String) : Prop :=
  ∀ (pos : Pos) (prev : Option (Path × ℕ)), (∀ p ∈ prev, p.2 < pos.line) →
    ∃ ts : List Spanned, (∀ rest, Reads ⟨text ++ rest,pos⟩ ts ⟨rest,pos.after text⟩) ∧
      (∀ t ∈ ts, pos.line ≤ t.pos.line) ∧
      ∀ opened toks, (∀ t ∈ toks, (pos.after text).line ≤ t.pos.line) →
        ∃ e, parseFrom none path depth opened ⟨s.1,s.2,prev⟩ (ts ++ toks) = .error e

section
variable {path : Path} {depth : ℕ}

theorem Takes.rejects {u v : List Char} {s s' : ConfigTree × Option String}
    (hu : Takes path depth u s s') (hv : Rejects path depth v s') : Rejects path depth (u ++ v) s := by
  intro pos prev hprev
  obtain ⟨ts,prev',hreads,hlines,hprev',hparse⟩ := hu pos prev hprev
  obtain ⟨us,hreads',hlines',hparse'⟩ := hv (pos.after u) prev' hprev'
  rw [← Pos.after_append] at hreads' hparse'
  refine ⟨ts ++ us,fun rest => ?_,fun t ht => ?_,fun opened toks htoks => ?_⟩
  · rw [List.append_assoc]
    exact (hreads _).trans (hreads' rest)
  · rcases List.mem_append.mp ht with ht | ht
    · exact hlines t ht
    · exact (Pos.line_le_after pos u).trans (hlines' t ht)
  · rw [List.append_assoc,hparse]
    · exact hparse' opened toks htoks
    · intro t ht
      rcases List.mem_append.mp ht with ht | ht
      · exact hlines' t ht
      · have hle := htoks t ht
        rw [Pos.after_append] at hle
        exact (Pos.line_le_after _ v).trans hle

theorem Rejects.append {u v : List Char} {s : ConfigTree × Option String} (hu : Rejects path depth u s)
    (hv : Lexes v) : Rejects path depth (u ++ v) s := by
  intro pos prev hprev
  obtain ⟨ts,hreads,hlines,hparse⟩ := hu pos prev hprev
  obtain ⟨us,hreads',hlines'⟩ := hv (pos.after u)
  refine ⟨ts ++ us,fun rest => ?_,fun t ht => ?_,fun opened toks htoks => ?_⟩
  · rw [List.append_assoc,Pos.after_append]
    exact (hreads _).trans (hreads' rest)
  · rcases List.mem_append.mp ht with ht | ht
    · exact hlines t ht
    · exact (Pos.line_le_after pos u).trans (hlines' t ht)
  · rw [List.append_assoc]
    refine hparse opened (us ++ toks) (fun t ht => ?_)
    rcases List.mem_append.mp ht with ht | ht
    · exact hlines' t ht
    · have hle := htoks t ht
      rw [Pos.after_append] at hle
      exact (Pos.line_le_after _ v).trans hle

/-- A block that is too deep, or whose body the parser gives up in. -/
theorem rejects_block (d : ℕ) {word : String} {words : List String} {tree tree' : ConfigTree}
    {pending : Option String} {inner : List Char}
    (h : tree.ensureInterior (path ++ word::words) = (.ok (),tree')) (hlex : Lexes inner)
    (hinner : depth+1 ≤ maxDepth → Rejects (path ++ word::words) (depth+1) inner
      (attach tree' (path ++ word::words) pending,none)) :
    Rejects path depth
      (indent d ++ wordsText (word::words) ++ [' ','{','\n'] ++ inner ++ indent d ++ ['}','\n'])
      (tree,pending) := by
  intro pos prev hprev
  set start := pos.after (indent d ++ wordsText (word::words) ++ [' ','{','\n']) with hstart
  set finish := start.after inner with hfinish
  have hopen : ((pos.after (indent d)).after (wordsText (word::words) ++ [' '])).line =
      (pos.after (indent d)).line := Pos.after_line (by simp [newline_not_mem_words]) _
  have hind := Pos.after_line (newline_not_mem_indent d) pos
  have hclose := Pos.after_line (newline_not_mem_indent d) finish
  have hstartline : pos.line ≤ start.line := Pos.line_le_after pos _
  have hfinishline : start.line ≤ finish.line := Pos.line_le_after start inner
  obtain ⟨ts,hreads,hlines,hparse⟩ : ∃ ts : List Spanned,
      (∀ rest, Reads ⟨inner ++ rest,start⟩ ts ⟨rest,finish⟩) ∧ (∀ t ∈ ts, start.line ≤ t.pos.line) ∧
      (depth+1 ≤ maxDepth → ∀ opened toks, (∀ t ∈ toks, finish.line ≤ t.pos.line) →
        ∃ e, parseFrom none (path ++ word::words) (depth+1) opened
          ⟨attach tree' (path ++ word::words) pending,none,none⟩ (ts ++ toks) = .error e) := by
    by_cases hdepth : depth+1 ≤ maxDepth
    · obtain ⟨ts,hreads,hlines,hparse⟩ := hinner hdepth start none (by simp)
      exact ⟨ts,hreads,hlines,fun _ => hparse⟩
    · obtain ⟨ts,hreads,hlines⟩ := hlex start
      exact ⟨ts,hreads,hlines,fun hle => absurd hle hdepth⟩
  refine ⟨wordToks (pos.after (indent d)) (word::words) ++
    ⟨.openBrace,(pos.after (indent d)).after (wordsText (word::words) ++ [' '])⟩::ts ++
    [⟨.closeBrace,finish.after (indent d)⟩],fun rest => ?_,?_,?_⟩
  · have hhead := reads_header d (List.cons_ne_nil word words)
      (inner ++ (indent d ++ ['}','\n'] ++ rest)) pos
    have hall := (hhead.trans (hreads _)).trans (reads_footer d rest finish)
    simpa [hstart,hfinish,Pos.after_append] using hall
  · intro t ht
    simp only [List.mem_append,List.mem_cons,List.not_mem_nil,or_false] at ht
    rcases ht with ((ht | rfl | ht) | rfl)
    · rw [wordToks_line _ _ t ht,hind]
    · exact (hopen.trans hind).ge
    · exact hstartline.trans (hlines t ht)
    · exact (hstartline.trans hfinishline).trans hclose.ge
  · intro opened toks htoks
    simp only [List.append_assoc,List.cons_append,List.nil_append]
    refine parseFrom_enter_error (step_block hopen h) (fun hdepth => hparse hdepth _ _ ?_)
    intro t ht
    rcases List.mem_cons.mp ht with rfl | ht
    · exact hclose.ge
    · refine le_trans ?_ (htoks t ht)
      have hle := Pos.line_le_after finish (indent d ++ ['}','\n'])
      simpa only [hfinish,hstart,← Pos.after_append,List.append_assoc] using hle

/-! ### Trees whose blocks are too deep -/

variable {tree tree' : ConfigTree} {c cm : Option String} {done cs : List (String × Node)}
  {name : String}

/-- A node whose blocks are too deep brings the parser to an error. -/
def EntryRejected (n : Node) : Prop :=
  ∀ (tags : TagOracle) (name : String) (path : Path) (depth : ℕ) (tree : ConfigTree)
    (c : Option String) (done : List (String × Node)),
    tree.root.get path = some ⟨c,.interior done⟩ → (∀ e ∈ done, e.1 < name) → depth ≤ maxDepth →
    maxDepth < depth + entryDepth tags (path.child name) n →
    Rejects path depth (entry tags name (path.child name) depth n) (tree,none)

/-- The first entry that is too deep is where the parser gives up. -/
theorem entries_rejected (tags : TagOracle) (hcs : ∀ e ∈ cs, EntryTaken e.2 ∧ EntryRejected e.2)
    (hget : tree.root.get path = some ⟨c,.interior done⟩) (hord : KeySorted (done ++ cs))
    (hle : depth ≤ maxDepth) (hdepth : maxDepth < depth + entriesDepth tags path cs) :
    Rejects path depth (entries tags path depth cs) (tree,none) := by
  induction cs generalizing done tree with
  | nil =>
    rw [entriesDepth] at hdepth
    omega
  | cons e cs ih =>
    obtain ⟨name,n⟩ := e
    obtain ⟨-,-,hlt⟩ := keySorted_append.mp hord
    have hgt : ∀ d ∈ done, d.1 < name := fun d hd => hlt d hd _ List.mem_cons_self
    rw [entriesDepth] at hdepth
    rw [entries]
    by_cases hhead : maxDepth < depth + entryDepth tags (path.child name) n
    · have hrejects := (hcs _ List.mem_cons_self).2 tags name path depth tree c done hget hgt hle hhead
      exact hrejects.append (lexes_entries tags (fun e _ => (lexes_node tags e.2).1) path depth)
    · obtain ⟨tree₁,hbec₁,htakes₁⟩ := (hcs _ List.mem_cons_self).1 tags name path depth tree c done
        hget hgt (not_lt.mp hhead)
      have hget₁ := hbec₁ ▸ Node.get_put hget
      refine htakes₁.rejects (ih (fun d hd => hcs d (List.mem_cons_of_mem _ hd)) hget₁
        (by simpa using hord) ?_)
      omega

theorem block_rejected (tags : TagOracle) (cm : Option String) {word : String} {words : List String}
    (hcs : ∀ e ∈ cs, EntryTaken e.2 ∧ EntryRejected e.2)
    (h : tree.ensureInterior (path ++ word::words) = (.ok (),tree'))
    (hget : tree'.root.get (path ++ word::words) = some Node.newInterior) (hord : KeySorted cs)
    (hdepth : maxDepth < depth + 1 + entriesDepth tags (path ++ word::words) cs) :
    Rejects path depth (comment depth cm ++ (indent depth ++ wordsText (word::words) ++
      [' ','{','\n'] ++ entries tags (path ++ word::words) (depth+1) cs ++ indent depth ++ ['}','\n']))
      (tree,none) := by
  have hget₁ : (attach tree' (path ++ word::words) cm).root.get (path ++ word::words) =
      some ⟨cm,.interior []⟩ := by rw [attach_root cm hget,Node.get_put hget]
  refine (takes_comment path depth depth cm tree).rejects (rejects_block depth h ?_ (fun hle => ?_))
  · exact lexes_entries tags (fun e _ => (lexes_node tags e.2).1) _ _
  · exact entries_rejected tags hcs hget₁ (by simpa using hord) hle hdepth

/-- Among the instances of a tag node that has its first one already. -/
theorem instances_rejected (tags : TagOracle)
    (hcs : ∀ e ∈ cs, e.2.isInterior ∧
      ∀ ds, e.2.children = some ds → ∀ d ∈ ds, EntryTaken d.2 ∧ EntryRejected d.2)
    (hall : ∀ e ∈ cs, e.2.Ordered)
    (hget : tree.root.get (path ++ [name]) = some ⟨none,.interior done⟩)
    (hord : KeySorted (done ++ cs)) (hle : depth ≤ maxDepth)
    (hdepth : maxDepth < depth + instancesDepth tags (path ++ [name]) cs) :
    Rejects path depth (instances tags name (path ++ [name]) depth cs) (tree,none) := by
  induction cs generalizing done tree with
  | nil =>
    rw [instancesDepth] at hdepth
    omega
  | cons e cs ih =>
    obtain ⟨key,inst⟩ := e
    obtain ⟨hin,hds⟩ := hcs (key,inst) List.mem_cons_self
    have hinst := hall (key,inst) List.mem_cons_self
    obtain ⟨im,ds | vs⟩ := inst
    · obtain ⟨-,-,hlt⟩ := keySorted_append.mp hord
      have hgt : ∀ d ∈ done, d.1 < key := fun d hd => hlt d hd _ List.mem_cons_self
      obtain ⟨tree₁,hens,hbec₁⟩ := ensureInterior_child hget hgt
      rw [List.append_assoc,List.singleton_append] at hens
      have hget₁ : tree₁.root.get (path ++ [name,key]) = some Node.newInterior := by
        rw [show path ++ [name,key] = (path ++ [name]) ++ [key] by simp,Node.get_append,hbec₁,
          Node.get_put hget]
        exact get_last (c := none) hgt []
      have hsorted := (Node.ordered_interior.mp hinst).1
      rw [instancesDepth,childrenDepth,Path.child,List.append_assoc,List.singleton_append] at hdepth
      rw [instances]
      by_cases hhead : maxDepth < depth + 1 + entriesDepth tags (path ++ [name,key]) ds
      · have hrest : Lexes (instances tags name (path ++ [name]) depth cs) :=
          lexes_instances tags (fun e _ => (lexes_node tags e.2).2) _ _ _
        have hrejects := (block_rejected tags im (hds ds rfl) hens hget₁ hsorted hhead).append hrest
        simpa [wordsText,children,Path.child] using hrejects
      · obtain ⟨tree₂,hbec₂,htakes₂⟩ := block_taken depth tags im
          (fun d hd => (hds ds rfl d hd).1) hens hget₁ hsorted (not_lt.mp hhead)
        have hroot₂ : Becomes tree tree₂ (path ++ [name])
            ⟨none,.interior (done ++ [(key,⟨im,.interior ds⟩)])⟩ := by
          rw [Becomes,hbec₂,hbec₁,show path ++ [name,key] = (path ++ [name]) ++ [key] by simp,
            Node.put_append_put,put_last hgt]
          rfl
        have hrejects := htakes₂.rejects (ih (fun d hd => hcs d (List.mem_cons_of_mem _ hd))
          (fun d hd => hall d (List.mem_cons_of_mem _ hd)) (hroot₂ ▸ Node.get_put hget)
          (by simpa using hord) (by omega))
        simpa [wordsText,children,Path.child] using hrejects
    · cases hin

theorem entryRejected_interior (ih : ∀ e ∈ cs, (EntryTaken e.2 ∧ EntryRejected e.2) ∧
      ∀ ds, e.2.children = some ds → ∀ d ∈ ds, EntryTaken d.2 ∧ EntryRejected d.2)
    (hord : Node.Ordered ⟨cm,.interior cs⟩) : EntryRejected ⟨cm,.interior cs⟩ := by
  intro tags name path depth tree c done hget hgt hle hdepth
  obtain ⟨hsorted,hall⟩ := Node.ordered_interior.mp hord
  rw [entryDepth] at hdepth
  rw [entry]
  split_ifs at hdepth ⊢ with hcompact
  · simp only [compact,Bool.and_eq_true,Bool.not_eq_true',Option.isNone_iff_eq_none,
      List.all_eq_true] at hcompact
    obtain ⟨⟨⟨-,hnone⟩,hne⟩,hint⟩ := hcompact
    subst hnone
    cases cs with
    | nil => simp at hne
    | cons e cs =>
      obtain ⟨key,im,ds | vs⟩ := e
      · obtain ⟨tree₁,hens,hbec₁⟩ := ensureInterior_tag key hget hgt
        have hget₁ : tree₁.root.get (path ++ [name,key]) = some Node.newInterior := by
          rw [Node.get_append,hbec₁,Node.get_put hget]
          exact (get_last (c := c) hgt [key]).trans (by simp [Node.get])
        have hds := (ih _ List.mem_cons_self).2 ds rfl
        have hinst := (Node.ordered_interior.mp (hall _ List.mem_cons_self)).1
        rw [instancesDepth,childrenDepth,Path.child,Path.child,List.append_assoc,
          List.singleton_append] at hdepth
        rw [instances]
        by_cases hhead : maxDepth < depth + 1 + entriesDepth tags (path ++ [name,key]) ds
        · have hrest : Lexes (instances tags name (path ++ [name]) depth cs) :=
            lexes_instances tags (fun e _ => (lexes_node tags e.2).2) _ _ _
          have hrejects := (block_rejected tags im hds hens hget₁ hinst hhead).append hrest
          simpa [wordsText,children,Path.child] using hrejects
        · obtain ⟨tree₂,hbec₂,htakes₂⟩ := block_taken depth tags im (fun d hd => (hds d hd).1) hens
            hget₁ hinst (not_lt.mp hhead)
          have hroot₂ : Becomes tree tree₂ path
              ⟨c,.interior (done ++ [(name,⟨none,.interior [(key,⟨im,.interior ds⟩)]⟩)])⟩ := by
            rw [Becomes,hbec₂,hbec₁,Node.put_append_put,put_last hgt]
            simp [Node.put,Node.modify,insertKey]
          have hget₂ : tree₂.root.get (path ++ [name]) =
              some ⟨none,.interior [(key,⟨im,.interior ds⟩)]⟩ := by
            rw [Node.get_append,hroot₂,Node.get_put hget]
            exact get_last (c := c) hgt []
          have hrejects := htakes₂.rejects (instances_rejected tags
            (fun d hd => ⟨hint d (List.mem_cons_of_mem _ hd),(ih d (List.mem_cons_of_mem _ hd)).2⟩)
            (fun d hd => hall d (List.mem_cons_of_mem _ hd)) hget₂ hsorted hle (by omega))
          simpa [wordsText,children,Path.child] using hrejects
      · cases hint _ List.mem_cons_self
  · obtain ⟨tree₁,hens,hbec₁⟩ := ensureInterior_child hget hgt
    have hget₁ : tree₁.root.get (path ++ [name]) = some Node.newInterior := by
      rw [Node.get_append,hbec₁,Node.get_put hget]
      exact get_last (c := c) hgt []
    rw [Path.child] at hdepth
    have hrejects := block_rejected tags cm (fun e he => (ih e he).1) hens hget₁ hsorted
      (by omega : maxDepth < depth + 1 + entriesDepth tags (path ++ [name]) cs)
    simpa [wordsText,Path.child] using hrejects

theorem entryRejected (n : Node) (hord : n.Ordered) : (EntryTaken n ∧ EntryRejected n) ∧
    ∀ ds, n.children = some ds → ∀ d ∈ ds, EntryTaken d.2 ∧ EntryRejected d.2 := by
  induction n using Node.induct with
  | values c vs =>
    refine ⟨⟨(entryTaken _ hord).1,?_⟩,fun ds h => by cases h⟩
    intro tags name path depth tree c done _ _ hle hdepth
    rw [entryDepth] at hdepth
    omega
  | interior c cs ih =>
    have hall := (Node.ordered_interior.mp hord).2
    have ih := fun e he => ih e he (hall e he)
    refine ⟨⟨(entryTaken _ hord).1,entryRejected_interior ih hord⟩,fun ds h => ?_⟩
    cases h
    exact fun d hd => (ih d hd).1

/-- What is written in blocks that are too deep is not read back. -/
theorem parse_render_tooDeep (tree : ConfigTree) (tags : TagOracle)
    (hdepth : maxDepth < childrenDepth tags Path.root tree.root) :
    ∃ e, parse (render tree tags) = .error e := by
  obtain ⟨⟨c,cs | vs⟩,hint,hord⟩ := tree
  · obtain ⟨hsorted,hall⟩ := Node.ordered_interior.mp hord
    have hget : ConfigTree.new.root.get Path.root = some ⟨none,.interior []⟩ := rfl
    rw [childrenDepth] at hdepth
    have hrejects := entries_rejected tags (fun e he => (entryRejected e.2 (hall e he)).1) hget
      hsorted (Nat.zero_le maxDepth) (by simpa using hdepth)
    obtain ⟨ts,hreads,-,hparse⟩ := hrejects Pos.start none (by simp)
    have hlex : lex (String.ofList (entries tags Path.root 0 cs)) = (ts,none) :=
      lex_of_reads (by simpa using hreads [])
    obtain ⟨e,hbody⟩ := hparse none [] (by simp)
    rw [List.append_nil,parseFrom] at hbody
    rw [render,children,parse,hlex]
    simp only [hbody]
    exact ⟨e,rfl⟩
  · cases hint

/-- A tree without a comment on its root comes back exactly when the blocks it is written in are
not too deep. -/
theorem parse_render_iff (tree : ConfigTree) (tags : TagOracle) (hroot : tree.root.comment = none) :
    parse (render tree tags) = .ok tree ↔ childrenDepth tags Path.root tree.root ≤ maxDepth := by
  constructor
  · intro hparse
    by_contra hdeep
    obtain ⟨e,he⟩ := parse_render_tooDeep tree tags (not_le.mp hdeep)
    rw [hparse] at he
    cases he
  · intro hdepth
    rw [parse_render_depth tree tags hdepth]
    obtain ⟨⟨c,body⟩,hint,hord⟩ := tree
    obtain rfl : c = none := hroot
    rfl

end

/-! ### No comment on the root -/

namespace Node

theorem comment_parentOf (full : Path)
    (edit : List (String × Node) → Except TreeError Unit × List (String × Node)) (walked path : Path)
    (n : Node) : (parentOf full edit walked path n).2.comment = n.comment := by
  obtain ⟨c,cs | vs⟩ := n <;> cases path <;> rfl

@[simp] theorem comment_ensureInterior (path : Path) (n : Node) :
    (ensureInterior path n).2.comment = n.comment := by
  unfold ensureInterior
  split
  · rfl
  · exact comment_parentOf _ _ _ _ _

@[simp] theorem comment_editLeaf (path : Path) (edit : List String → List String) (n : Node) :
    (editLeaf path edit n).2.comment = n.comment := by
  unfold editLeaf
  split
  · rfl
  · exact comment_parentOf _ _ _ _ _

theorem comment_modify {g : Node → Node} {path : Path} {n : Node}
    (h : path = [] → (g n).comment = n.comment) : (n.modify g path).comment = n.comment := by
  obtain ⟨c,cs | vs⟩ := n <;> cases path with
  | nil => exact h rfl
  | cons name path =>
    rw [modify]
    try (split <;> rfl)

end Node

namespace ConfigTree

/-- Nothing is said about the whole configuration: a text has no place for it. -/
def Unremarked (tree : ConfigTree) : Prop := tree.root.comment = none

theorem unremarked_new : new.Unremarked := rfl

variable {tree : ConfigTree} {path : Path}

theorem Unremarked.ensureInterior (h : tree.Unremarked) (path : Path) :
    (tree.ensureInterior path).2.Unremarked := (Node.comment_ensureInterior _ _).trans h

theorem Unremarked.editLeaf (h : tree.Unremarked) (path : Path) (edit : List String → List String)
    (hedit) : (tree.editLeaf path edit hedit).2.Unremarked := (Node.comment_editLeaf _ _ _).trans h

theorem Unremarked.setComment (h : tree.Unremarked) (hpath : path ≠ []) (comment : Option String) :
    (tree.setComment path comment).2.Unremarked :=
  (Node.comment_modify (fun hnil => absurd hnil hpath)).trans h

end ConfigTree

namespace CurlyParser

/-- Between two statements, neither the tree nor what a comment may go to is the whole. -/
structure State.Unremarked (s : State) : Prop where
  tree : s.tree.Unremarked
  previous : ∀ p ∈ s.previous, p.1 ≠ []

variable {tree tree' : ConfigTree} {path : Path} {s : State}

theorem attach_unremarked (h : tree.Unremarked) (hpath : path ≠ []) (comment : Option String) :
    (attach tree path comment).Unremarked := by
  cases comment with
  | none => exact h
  | some comment =>
    rw [attach]
    split_ifs
    · exact h.setComment hpath _
    · exact h

theorem leaf_unremarked {at_ : Path} {pos : Pos} {values : List String} (h : tree.Unremarked)
    (hleaf : leaf tree path pos values = .ok (at_,tree')) : tree'.Unremarked ∧ at_ ≠ [] := by
  unfold leaf at hleaf
  split at hleaf
  · next name =>
    split at hleaf
    · next tree'' hdeclare =>
      cases hleaf
      have hedit := h.editLeaf (path.child name) id (fun _ h => h)
      rw [ConfigTree.declareLeaf] at hdeclare
      rw [hdeclare] at hedit
      exact ⟨hedit,by simp [Path.child]⟩
    · cases hleaf
  · next name value =>
    split at hleaf
    · next tree'' hadd =>
      cases hleaf
      have hedit := h.editLeaf (path.child name) (insertElem value) (fun _ h => sorted_insertElem value h)
      rw [ConfigTree.add] at hadd
      rw [hadd] at hedit
      exact ⟨hedit,by simp [Path.child]⟩
    · cases hleaf
  · cases hleaf

theorem takeComment_unremarked (h : s.Unremarked) (text : String) (line : ℕ) :
    (s.takeComment text line).Unremarked := by
  unfold State.takeComment
  split
  · exact ⟨h.tree,h.previous⟩
  · split
    · next at_ line' hfilter =>
      have hprevious := h.previous _ (Option.filter_eq_some_iff.mp hfilter).1
      exact ⟨h.tree.setComment hprevious _,h.previous⟩
    · exact ⟨h.tree,h.previous⟩

/-- A step of the parser says nothing about the whole. -/
def Step.Unremarked : Step → Prop
  | .stop (.ok r) => r.1.Unremarked
  | .stop (.error _) => True
  | .next s _ => s.Unremarked
  | .enter _ _ tree _ => tree.Unremarked

theorem atEnd_unremarked {stop : Option LexError} {opened : Option Pos} (h : tree.Unremarked) :
    (Step.stop (atEnd stop opened tree)).Unremarked := by
  cases stop <;> cases opened <;> trivial

theorem statement_unremarked {pos : Pos} {values : List String} {toks : List Spanned}
    (h : s.Unremarked) (hvalues : values ≠ []) : (statement path s pos values toks).Unremarked := by
  unfold statement
  split
  · split
    · trivial
    · next tree' hensure =>
      have hinterior := h.tree.ensureInterior (path ++ values)
      rw [hensure] at hinterior
      exact attach_unremarked hinterior (by simp [hvalues]) _
  · split
    · trivial
    · next at_ tree' hleaf =>
      obtain ⟨htree,hat⟩ := leaf_unremarked h.tree hleaf
      exact ⟨attach_unremarked htree hat _,by simpa using hat⟩

theorem step_unremarked {stop : Option LexError} {opened : Option Pos} {toks : List Spanned}
    (h : s.Unremarked) : (step stop path opened s toks).Unremarked := by
  unfold step
  split
  · exact atEnd_unremarked h.tree
  · exact takeComment_unremarked h _ _
  · split
    · exact h.tree
    · trivial
  · trivial
  · dsimp only
    split_ifs
    · exact atEnd_unremarked h.tree
    · exact statement_unremarked h (by simp)

theorem body_unremarked {stop : Option LexError} {n depth : ℕ} {opened : Option Pos}
    {toks : List Spanned} {r : ConfigTree × List Spanned} (h : s.Unremarked)
    (hbody : body stop n path depth opened s toks = .ok r) : r.1.Unremarked := by
  induction n generalizing path depth opened s toks r with
  | zero =>
    have hend : (Step.stop (atEnd stop opened s.tree)).Unremarked := atEnd_unremarked h.tree
    rw [body] at hbody
    rwa [hbody] at hend
  | succ n ih =>
    have hstep : (step stop path opened s toks).Unremarked := step_unremarked h
    rw [body] at hbody
    cases hnext : step stop path opened s toks with
    | stop result =>
      rw [hnext] at hbody hstep
      cases hbody
      exact hstep
    | next s' rest =>
      rw [hnext] at hbody hstep
      exact ih hstep hbody
    | enter brace inner tree rest =>
      rw [hnext] at hbody hstep
      dsimp only at hbody
      split_ifs at hbody
      split at hbody
      · cases hbody
      · next tree' rest' hinner =>
        have hinside : (⟨tree,none,none⟩ : State).Unremarked := ⟨hstep,by simp⟩
        have htree : tree'.Unremarked := ih hinside hinner
        exact ih ⟨htree,by simp⟩ hbody

end CurlyParser

theorem parse_unremarked {src : String} {tree : ConfigTree} (h : parse src = .ok tree) :
    tree.Unremarked := by
  unfold parse at h
  dsimp only at h
  cases hbody : CurlyParser.body (lex src).2 (lex src).1.length Path.root 0 none ⟨.new,none,none⟩
      (lex src).1 with
  | error e =>
    rw [hbody] at h
    cases h
  | ok r =>
    rw [hbody] at h
    cases h
    exact CurlyParser.body_unremarked ⟨ConfigTree.unremarked_new,by simp⟩ hbody

/-- A text that was loaded is loaded again after it is saved exactly when the blocks that its tree is
written in are not too deep. -/
theorem reload_iff (src : String) (tree : ConfigTree) (h : parse src = .ok tree) (tags : TagOracle) :
    parse (render tree tags) = .ok tree ↔ childrenDepth tags Path.root tree.root ≤ maxDepth :=
  parse_render_iff tree tags (parse_unremarked h)

/-- A block with a header of so many words. -/
def chain (words : ℕ) : String :=
  String.ofList ((List.replicate words ['a',' ']).flatten ++ ['{','}'])

def chainTree (words : ℕ) : ConfigTree := (ConfigTree.new.ensureInterior (List.replicate words "a")).2

/-- The longest header that can be written in blocks. -/
theorem chain_reloaded :
    parse (chain 64) = .ok (chainTree 64) ∧
    parse (render (chainTree 64) (fun _ => false)) = .ok (chainTree 64) :=
  ⟨by decide +kernel,(reload_iff (chain 64) (chainTree 64) (by decide +kernel) _).mpr (by decide +kernel)⟩

/-- One word more is read, but not when it is written in blocks. -/
theorem chain_not_reloaded :
    parse (chain 65) = .ok (chainTree 65) ∧
    parse (render (chainTree 65) (fun _ => false)) ≠ .ok (chainTree 65) :=
  ⟨by decide +kernel,mt (parse_render_iff (chainTree 65) _ (by decide +kernel)).mp (by decide +kernel)⟩

end Nightshade.Schema
