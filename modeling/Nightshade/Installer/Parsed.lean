import Mathlib
import Nightshade.Schema.RoundTrip
import Nightshade.Schema.DiffAlgebra
import Nightshade.Installer.Seed

/-! The parser reads what the installer wrote: which configuration the text comes to, where nothing in
it has to be quoted that is not. -/
namespace Nightshade.Installer
open Foundation Schema Lexer CurlyParser Schema.Render

/-! ### The configuration that is meant -/

def portNode (mac : String) : Node := ⟨none,.interior [("hw-id",⟨none,.values [mac]⟩)]⟩

/-- The ports, in the order of their names. -/
def portNodes (named : List (String × Port)) : List (String × Node) :=
  named.foldl (fun es e => insertKey e.1 (portNode e.2.mac) es) []

/-- Ports stand under their kind, where there are any. -/
def underEthernet (es : List (String × Node)) : List (String × Node) :=
  if es.isEmpty then [] else [("ethernet",⟨none,.interior es⟩)]

def loopbackNode : Node := ⟨none,.interior [("lo",Node.newInterior)]⟩

def systemNode (hostname hash : String) : Node :=
  ⟨none,.interior
    [("host-name",⟨none,.values [hostname]⟩),
     ("login",⟨none,.interior [("user",⟨none,.interior [(DEFAULT_USER,⟨none,.interior
       [("authentication",⟨none,.interior [("encrypted-password",⟨none,.values [hash]⟩)]⟩),
        ("full-name",⟨none,.values ["Nightshade administrator"]⟩)]⟩)]⟩)]⟩)]⟩

/-! ### A comment at the top -/

theorem commentBody_written {raw : List Char} (h : '/' ∉ raw) (rest : List Char) (pos : Pos) :
    commentBody (raw ++ '*':: '/'::rest) pos = some (raw,⟨rest,((pos.after raw).bump '*').bump '/'⟩) := by
  induction raw generalizing pos with
  | nil => rfl
  | cons c raw ih =>
    have hraw : '/' ∉ raw := fun hmem => h (List.mem_cons_of_mem _ hmem)
    obtain ⟨d,ds,hds,hd⟩ : ∃ d ds, raw ++ '*':: '/'::rest = d::ds ∧ d ≠ '/' := by
      cases raw with
      | nil => exact ⟨'*',_,rfl,by decide⟩
      | cons d raw => exact ⟨d,_,rfl,fun he => hraw (he ▸ List.mem_cons_self)⟩
    have hnext := ih hraw (pos.bump c)
    rw [List.cons_append,hds,commentBody,if_neg (fun hend => hd hend.2),← hds,hnext]
    rfl

theorem reads_block_comment {raw : List Char} (h : '/' ∉ raw) (rest : List Char) (pos : Pos) :
    Reads ⟨'/':: '*'::raw ++ '*':: '/'::rest,pos⟩ [⟨.comment (String.ofList (normalise raw)),pos⟩]
      ⟨rest,pos.after ('/':: '*'::raw ++ ['*','/'])⟩ := by
  have hbody := commentBody_written h rest ((pos.bump '/').bump '*')
  apply Reads.token
  rw [nextToken,List.cons_append,skipWhitespace_eq (by decide)]
  simp only [List.cons_append,List.head?_cons,and_self,if_true,blockComment,hbody]
  simp [Except.map,Pos.after_append]

/-- A comment between the marks is pending when it has been read. -/
theorem takes_block_comment {path : Path} {depth : ℕ} {raw : List Char} (h : '/' ∉ raw) (tree : ConfigTree) :
    Takes path depth ('/':: '*'::raw ++ ['*','/','\n']) (tree,none)
      (tree,some (String.ofList (normalise raw))) := by
  intro pos prev hprev
  refine ⟨[⟨.comment (String.ofList (normalise raw)),pos⟩],prev,fun rest => ?_,by simp,?_,?_⟩
  · have hall := (reads_block_comment h ('\n'::rest) pos).trans (reads_blank (by decide) rest _)
    simpa [Pos.after_append] using hall
  · intro p hp
    exact (hprev p hp).trans_le (Pos.line_le_after pos _)
  · intro opened toks _
    rw [List.singleton_append]
    apply parseFrom_next
    rw [step,takeComment_later hprev]
    rfl

/-! ### The ports -/

theorem underEthernet_insert (name : String) (n : Node) (es : List (String × Node)) :
    underEthernet (insertKey name n es) = [("ethernet",⟨none,.interior (insertKey name n es)⟩)] := by
  have hne : (insertKey name n es).isEmpty = false := by
    cases es with
    | nil => rfl
    | cons e es =>
      rw [insertKey]
      split_ifs <;> rfl
  rw [underEthernet,hne]
  rfl

theorem lookup_underEthernet (es : List (String × Node)) :
    ((underEthernet es).lookup "ethernet").getD Node.newInterior = ⟨none,.interior es⟩ := by
  cases es with
  | nil => rfl
  | cons e es => rfl

/-- What one port comes to. -/
def portText (name mac : String) : List Char :=
  indent 1 ++ wordsText ["ethernet",name] ++ [' ','{','\n'] ++ (indent 2 ++ wordsText ["hw-id",mac] ++ ['\n']) ++
    indent 1 ++ ['}','\n']

theorem takes_port {tree : ConfigTree} {c : Option String} {es : List (String × Node)} {name : String}
    (mac : String) (hget : tree.root.get ["interfaces"] = some ⟨c,.interior (underEthernet es)⟩)
    (hfresh : es.lookup name = none) :
    ∃ tree', Becomes tree tree' ["interfaces"] ⟨c,.interior (underEthernet (insertKey name (portNode mac) es))⟩ ∧
      Takes ["interfaces"] 1 (portText name mac) (tree,none) (tree',none) := by
  have happ := Node.ensureInterior_append ["ethernet"] name hget
  have hinsert : insertKey "ethernet" ⟨none,.interior (insertKey name Node.newInterior es)⟩ (underEthernet es) =
      underEthernet (insertKey name Node.newInterior es) := by
    rw [underEthernet_insert]
    cases es with
    | nil => rfl
    | cons e es => rfl
  rw [Node.parentOf,lookup_underEthernet,Node.parentOf,Node.interiorEntry,hfresh,hinsert] at happ
  obtain ⟨tree₁,hens,hbec₁⟩ : ∃ tree₁, tree.ensureInterior (["interfaces"] ++ ["ethernet",name]) = (.ok (),tree₁) ∧
      Becomes tree tree₁ ["interfaces"] ⟨c,.interior (underEthernet (insertKey name Node.newInterior es))⟩ := by
    refine ⟨(tree.ensureInterior (["interfaces"] ++ ["ethernet",name])).2,Prod.ext ?_ rfl,?_⟩
    · rw [ConfigTree.ensureInterior_fst]
      exact congrArg Prod.fst happ
    · rw [Becomes,ConfigTree.ensureInterior_root]
      exact congrArg Prod.snd happ
  have hget₁ : tree₁.root.get ["interfaces","ethernet",name] = some ⟨none,.interior []⟩ := by
    rw [show ["interfaces","ethernet",name] = ["interfaces"] ++ ["ethernet",name] from rfl,Node.get_append,hbec₁,
      Node.get_put hget,Option.bind_some,underEthernet_insert]
    simp [Node.get,Node.newInterior]
  have hfirst : ∀ e ∈ ([] : List (String × Node)), e.1 < "hw-id" := List.forall_mem_nil _
  obtain ⟨tree₂,hadd,hbec₂⟩ := editLeaf_fresh (insertElem mac) (fun _ h => sorted_insertElem mac h) hget₁ hfirst
  refine ⟨tree₂,?_,?_⟩
  · rw [Becomes,hbec₂,hbec₁,show ["interfaces","ethernet",name] = ["interfaces"] ++ ["ethernet",name] from rfl,
      Node.put_append_put,underEthernet_insert,underEthernet_insert]
    simp [Node.put,Node.modify,insertKey,insertElem,portNode]
  · have hleaf := takes_leaf ["interfaces","ethernet",name] 2 2 none (leaf_add hadd)
    exact takes_block ["interfaces"] 1 1 (by decide) hens hleaf

/-- Ports with names of their own, one behind the other. -/
theorem takes_ports {named : List (String × Port)} {tree : ConfigTree} {c : Option String}
    {es : List (String × Node)} (hget : tree.root.get ["interfaces"] = some ⟨c,.interior (underEthernet es)⟩)
    (hfresh : ∀ e ∈ named, es.lookup e.1 = none) (hdistinct : (named.map Prod.fst).Nodup) :
    ∃ tree', Becomes tree tree' ["interfaces"]
        ⟨c,.interior (underEthernet (named.foldl (fun es e => insertKey e.1 (portNode e.2.mac) es) es))⟩ ∧
      Takes ["interfaces"] 1 (named.flatMap (fun e => portText e.1 e.2.mac)) (tree,none) (tree',none) := by
  induction named generalizing es tree with
  | nil => exact ⟨tree,(Node.put_self tree.ordered hget).symm,Takes.nil _⟩
  | cons e named ih =>
    obtain ⟨hnot,hrest⟩ := List.nodup_cons.mp hdistinct
    obtain ⟨tree₁,hbec₁,htakes₁⟩ := takes_port e.2.mac hget (hfresh e List.mem_cons_self)
    have hfresh₁ : ∀ d ∈ named, (insertKey e.1 (portNode e.2.mac) es).lookup d.1 = none := by
      intro d hd
      have hne : d.1 ≠ e.1 := fun he => hnot (he ▸ List.mem_map.mpr ⟨d,hd,rfl⟩)
      rw [lookup_insertKey_of_ne hne]
      exact hfresh d (List.mem_cons_of_mem _ hd)
    obtain ⟨tree₂,hbec₂,htakes₂⟩ := ih (hbec₁ ▸ Node.get_put hget) hfresh₁ hrest
    refine ⟨tree₂,?_,?_⟩
    · rw [Becomes,hbec₂,hbec₁,Node.put_put]
      rfl
    · rw [List.flatMap_cons]
      exact htakes₁.append htakes₂

/-! ### The whole text -/

/-- Nodes whose instances are written with the name of the node in front. -/
def instanced : TagOracle := fun path => path = ["interfaces","loopback"] || path = ["system","login","user"]

/-- The comment, less its marks. -/
def note : List Char :=
  (" Written by the Nightshade installer. This is the configuration the\n" ++
  " * system boots with; edit it with `configure` rather than by hand. ").toList

theorem note_closed : '/' ∉ note := by
  unfold note
  rewrite [String.toList_append]
  iterate 2 rewrite [String.toList_ofList]
  decide

/-- The text, in the pieces that the parser takes. -/
def pieces (hostname : String) (named : List (String × Port)) (hash : String) : List Char :=
  '/':: '*'::note ++ ['*','/','\n'] ++
  (indent 0 ++ wordsText ["interfaces"] ++ [' ','{','\n'] ++
    (named.flatMap (fun e => portText e.1 e.2.mac) ++
      entry instanced "loopback" ["interfaces","loopback"] 1 loopbackNode) ++ indent 0 ++ ['}','\n']) ++
  entry instanced "system" ["system"] 0 (systemNode hostname hash)

/-- The configuration of a freshly installed box. -/
def seedRoot (hostname : String) (named : List (String × Port)) (hash : String) : Node :=
  ⟨none,.interior
    [("interfaces",⟨some (String.ofList (normalise note)),
      .interior (underEthernet (portNodes named) ++ [("loopback",loopbackNode)])⟩),
     ("system",systemNode hostname hash)]⟩

theorem ordered_systemNode (hostname hash : String) : (systemNode hostname hash).Ordered := by
  simp only [systemNode,Node.ordered_interior,Node.ordered_values,KeySorted,List.pairwise_cons,List.mem_cons,
    List.not_mem_nil,or_false,forall_eq,forall_eq_or_imp,List.Pairwise.nil,and_true,false_implies,implies_true]
  exact ⟨by decide,by decide⟩

theorem ordered_loopbackNode : loopbackNode.Ordered := by
  simp [loopbackNode,Node.ordered_interior,KeySorted]

/-- Text that takes the parser from nothing to a tree parses as that tree. -/
theorem parse_of_takes {text : List Char} {tree : ConfigTree} (h : Takes Path.root 0 text (.new,none) (tree,none)) :
    parse (String.ofList text) = .ok tree := by
  obtain ⟨ts,prev,hreads,-,-,hparse⟩ := h Pos.start none (by simp)
  have hlex : lex (String.ofList text) = (ts,none) := lex_of_reads (by simpa using hreads [])
  have hbody := hparse none [] (by simp)
  rw [List.append_nil,parseFrom_nil] at hbody
  rw [parse,hlex]
  rw [parseFrom] at hbody
  simp only [hbody,atEnd]
  rfl

theorem parse_pieces {hostname hash : String} {named : List (String × Port)}
    (hdistinct : (named.map Prod.fst).Nodup) :
    ∃ tree, parse (String.ofList (pieces hostname named hash)) = .ok tree ∧
      tree.root = seedRoot hostname named hash := by
  have hroot : ConfigTree.new.root.get Path.root = some ⟨none,.interior []⟩ := rfl
  obtain ⟨tree₁,hens,hbec₁⟩ := @ensureInterior_child Path.root ConfigTree.new none [] "interfaces" hroot (by simp)
  have hnoted := attach_child hroot (by simp) hbec₁ (some (String.ofList (normalise note)))
  generalize htree : attach tree₁ (Path.root ++ ["interfaces"]) (some (String.ofList (normalise note))) = start at hnoted
  have hget₁ : start.root.get ["interfaces"] =
      some ⟨some (String.ofList (normalise note)),.interior (underEthernet [])⟩ := by
    rw [hnoted]
    rfl
  obtain ⟨tree₂,hbec₂,hports⟩ := takes_ports hget₁ (fun _ _ => rfl) hdistinct
  have hget₂ := hbec₂ ▸ Node.get_put hget₁
  have hbefore : ∀ e ∈ underEthernet (portNodes named), e.1 < "loopback" := by
    intro e he
    unfold underEthernet at he
    split_ifs at he
    · cases he
    · rw [List.mem_singleton.mp he]
      show ("ethernet" : String) < "loopback"
      decide
  obtain ⟨tree₃,hbec₃,hloopback⟩ := (entryTaken loopbackNode ordered_loopbackNode).1 instanced "loopback" ["interfaces"]
    1 tree₂ _ _ hget₂ hbefore (by decide)
  have hblock := takes_block Path.root 0 0 (by decide) hens (htree ▸ hports.append hloopback)
  have hwhole : tree₃.root = ⟨none,.interior [("interfaces",⟨some (String.ofList (normalise note)),
      .interior (underEthernet (portNodes named) ++ [("loopback",loopbackNode)])⟩)]⟩ := by
    rw [hbec₃,hbec₂,Node.put_put,hnoted]
    rfl
  have hget₃ : tree₃.root.get Path.root = some tree₃.root := rfl
  have hlast : ("interfaces" : String) < "system" := by decide
  obtain ⟨tree₄,hbec₄,hsystem⟩ := (entryTaken (systemNode hostname hash) (ordered_systemNode hostname hash)).1 instanced
    "system" Path.root 0 tree₃ none [_] (hget₃.trans (congrArg some hwhole))
    (fun e he => (List.mem_singleton.mp he) ▸ hlast) (show (0 : ℕ) + 4 ≤ maxDepth by decide)
  refine ⟨tree₄,?_,?_⟩
  · exact parse_of_takes (((takes_block_comment note_closed .new).append hblock).append hsystem)
  · rw [hbec₄]
    rfl

/-! ### What was written -/

section Entries
variable {tags : TagOracle} {name : String} {path : Path} {depth : ℕ}

theorem entry_block {cs : List (String × Node)} (h : compact tags path ⟨none,.interior cs⟩ cs = false) :
    entry tags name path depth ⟨none,.interior cs⟩ = indent depth ++ quote name ++ [' ','{','\n'] ++
      entries tags path (depth+1) cs ++ indent depth ++ ['}','\n'] := by
  rw [entry,h]
  rfl

theorem entry_leaf (value : String) : entry tags name path depth ⟨none,.values [value]⟩ =
    indent depth ++ quote name ++ [' '] ++ quote value ++ ['\n'] := by
  rw [entry]
  simp [comment]

theorem entry_instance {key : String} {cs : List (String × Node)}
    (h : compact tags path ⟨none,.interior [(key,⟨none,.interior cs⟩)]⟩ [(key,⟨none,.interior cs⟩)] = true) :
    entry tags name path depth ⟨none,.interior [(key,⟨none,.interior cs⟩)]⟩ =
      indent depth ++ quote name ++ [' '] ++ quote key ++ [' ','{','\n'] ++
        entries tags (path.child key) (depth+1) cs ++ indent depth ++ ['}','\n'] := by
  rw [entry,h]
  simp [instances,children,comment]

end Entries

theorem quote_bare {s : String} (h : isBare s.toList) : quote s = s.toList := if_pos h

/-- A line of a literal text begins with blanks and a word. -/
theorem line_toList {l w t : List Char} (d : ℕ) (hw : isBare w = true) (h : l = indent d ++ w ++ t) :
    (String.ofList l).toList = indent d ++ quote (String.ofList w) ++ t := by
  rw [quote_bare (by rwa [String.toList_ofList]),String.toList_ofList,String.toList_ofList,h]

theorem close_toList {l : List Char} (d : ℕ) (h : l = indent d ++ ['}','\n']) :
    (String.ofList l).toList = indent d ++ ['}','\n'] := by
  rw [String.toList_ofList,h]

theorem quote_spaced {l q : List Char} (hbare : isBare l = false) (h : '"'::l.flatMap escaped ++ ['"'] = q) :
    quote (String.ofList l) = q := by
  rw [quote,String.toList_ofList,hbare,← h]
  rfl

theorem entry_systemNode {hostname hash : String} :
    entry instanced "system" ["system"] 0 (systemNode hostname hash) =
      "system \x7b\n".toList ++ "    host-name ".toList ++ quote hostname ++ "\n".toList ++
      "    login \x7b\n".toList ++ "        user ".toList ++ DEFAULT_USER.toList ++ " \x7b\n".toList ++
      "            authentication \x7b\n".toList ++ "                encrypted-password ".toList ++ quote hash ++
      "\n".toList ++ "            \x7d\n".toList ++
      "            full-name \"Nightshade administrator\"\n".toList ++
      "        \x7d\n".toList ++ "    \x7d\n".toList ++ "\x7d\n".toList := by
  have h₁ : "system \x7b\n".toList = indent 0 ++ quote "system" ++ [' ','{','\n'] := line_toList 0 (by decide) rfl
  have h₂ : "    host-name ".toList = indent 1 ++ quote "host-name" ++ [' '] := line_toList 1 (by decide) rfl
  have h₃ : "    login \x7b\n".toList = indent 1 ++ quote "login" ++ [' ','{','\n'] := line_toList 1 (by decide) rfl
  have h₄ : "        user ".toList = indent 2 ++ quote "user" ++ [' '] := line_toList 2 (by decide) rfl
  have h₅ : "            authentication \x7b\n".toList = indent 3 ++ quote "authentication" ++ [' ','{','\n'] :=
    line_toList 3 (by decide) rfl
  have h₆ : "                encrypted-password ".toList = indent 4 ++ quote "encrypted-password" ++ [' '] :=
    line_toList 4 (by decide) rfl
  have h₇ : "            full-name \"Nightshade administrator\"\n".toList =
      indent 3 ++ quote "full-name" ++ ' '::(quote "Nightshade administrator" ++ ['\n']) := by
    have hspaced : quote "Nightshade administrator" = "\"Nightshade administrator\"".toList := by
      rewrite [String.toList_ofList]
      exact quote_spaced (by decide) (by decide)
    rewrite [hspaced,quote_bare (by decide : isBare "full-name".toList = true)]
    iterate 3 rewrite [String.toList_ofList]
    rfl
  have h₈ : DEFAULT_USER.toList = quote DEFAULT_USER := (quote_bare (by decide)).symm
  have h₉ : " \x7b\n".toList = [' ','{','\n'] := by
    rewrite [String.toList_ofList]
    rfl
  have hclose₃ : "            \x7d\n".toList = indent 3 ++ ['}','\n'] := close_toList 3 rfl
  have hclose₂ : "        \x7d\n".toList = indent 2 ++ ['}','\n'] := close_toList 2 rfl
  have hclose₁ : "    \x7d\n".toList = indent 1 ++ ['}','\n'] := close_toList 1 rfl
  have hclose₀ : "\x7d\n".toList = indent 0 ++ ['}','\n'] := close_toList 0 rfl
  have hend : "\n".toList = ['\n'] := by decide
  rw [h₁,h₂,h₃,h₄,h₅,h₆,h₇,h₈,h₉,hclose₃,hclose₂,hclose₁,hclose₀,hend,systemNode,entry_block rfl]
  simp only [entries,entry_leaf]
  rw [entry_block rfl]
  simp only [entries]
  rw [entry_instance rfl]
  simp only [entries,entry_leaf]
  rw [entry_block rfl]
  simp only [entries,entry_leaf,Nat.reduceAdd,List.append_assoc,List.append_nil,List.nil_append,List.cons_append]

theorem entry_loopbackNode : entry instanced "loopback" ["interfaces","loopback"] 1 loopbackNode =
    "    loopback lo \x7b\n".toList ++ "    \x7d\n".toList := by
  have h₁ : "    loopback lo \x7b\n".toList = indent 1 ++ quote "loopback" ++ [' ','l','o',' ','{','\n'] :=
    line_toList 1 (by decide) rfl
  have h₂ : "    \x7d\n".toList = indent 1 ++ ['}','\n'] := close_toList 1 rfl
  have h₃ : quote "lo" = ['l','o'] := by
    rewrite [quote_bare (by decide),String.toList_ofList]
    rfl
  rw [h₁,h₂,loopbackNode,Node.newInterior,entry_instance rfl,h₃]
  simp [entries]

theorem portText_eq {name mac : String} (hname : isBare name.toList = true) (hmac : isBare mac.toList = true) :
    portText name mac = ("    ethernet " ++ name ++ " \x7b\n" ++ "        hw-id " ++ mac ++ "\n" ++ "    \x7d\n").toList := by
  have h₁ : "    ethernet ".toList = indent 1 ++ quote "ethernet" ++ [' '] := line_toList 1 (by decide) rfl
  have h₂ : " \x7b\n".toList = [' ','{','\n'] := by
    rewrite [String.toList_ofList]
    rfl
  have h₃ : "        hw-id ".toList = indent 2 ++ quote "hw-id" ++ [' '] := line_toList 2 (by decide) rfl
  have h₄ : "\n".toList = ['\n'] := by decide
  have h₅ : "    \x7d\n".toList = indent 1 ++ ['}','\n'] := close_toList 1 rfl
  simp only [String.toList_append]
  rw [h₁,h₂,h₃,h₄,h₅,← quote_bare hname,← quote_bare hmac]
  simp [portText,wordsText]

theorem note_eq : '/':: '*'::note ++ ['*','/','\n'] =
    "/* Written by the Nightshade installer. This is the configuration the\n".toList ++
      " * system boots with; edit it with `configure` rather than by hand. */\n".toList := by
  unfold note
  rewrite [String.toList_append]
  iterate 4 rewrite [String.toList_ofList]
  rfl

/-- What is written without quotes, or quoted as it should be, is what the parser takes. -/
theorem configBoot_pieces {byNumber : Char → Bool} {hostname hash : String} {named : List (String × Port)}
    (hhost : isBare hostname.toList = true)
    (hports : ∀ e ∈ named, isBare e.1.toList = true ∧ isBare e.2.mac.toList = true)
    (hhash : (debugString byNumber hash).toList = quote hash) :
    configBoot byNumber hostname named (some hash) = String.ofList (pieces hostname named hash) := by
  have hinterfaces : indent 0 ++ wordsText ["interfaces"] ++ [' ','{','\n'] = "interfaces \x7b\n".toList :=
    (line_toList 0 (by decide) rfl).symm
  have hclose : indent 0 ++ ['}','\n'] = "\x7d\n".toList := (close_toList 0 rfl).symm
  have hnamed : named.flatMap (fun e => portText e.1 e.2.mac) = (named.map (fun e =>
      "    ethernet " ++ e.1 ++ " \x7b\n" ++ "        hw-id " ++ e.2.mac ++ "\n" ++ "    \x7d\n")).flatMap
        String.toList := by
    rw [List.flatMap_map]
    exact List.flatMap_congr (fun e he => portText_eq (hports e he).1 (hports e he).2)
  apply String.toList_inj.mp
  rewrite [String.toList_ofList]
  unfold configBoot pieces
  rw [entry_systemNode,entry_loopbackNode,quote_bare hhost,note_eq,hinterfaces,hnamed,← hhash,
    List.append_assoc _ (indent 0) ['}','\n'],hclose]
  simp only [String.toList_append,String.toList_join,List.append_assoc]

end Nightshade.Installer
