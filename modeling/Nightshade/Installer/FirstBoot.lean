import Mathlib
import Nightshade.Configd.Provenance
import Nightshade.Render.Complete
import Nightshade.Installer.Illegible

/-! The first boot: when the configuration that the installer left is the one that the daemon takes and
renders. -/
namespace Nightshade.Installer
open Foundation Schema Schema.Shipped Lexer CurlyParser Render.Networkd

/-! ### What the configuration says -/

/-- The lines of the configuration that is meant. -/
def seedLines (hostname : String) (named : List (String × Port)) (hash : String) : List DiffLine :=
  named.map (fun e => (Shipped.setting "ethernet" e.1 "hw-id",some e.2.mac)) ++
  [(interface "loopback" "lo",none),
   (["system","host-name"],some hostname),
   (["system","login","user",DEFAULT_USER,"authentication","encrypted-password"],some hash),
   (["system","login","user",DEFAULT_USER,"full-name"],some "Nightshade administrator")]

section Lines
variable {hostname hash : String} {named : List (String × Port)}

theorem mem_portNodes (hdistinct : (named.map Prod.fst).Nodup) {name : String} {n : Node} :
    (name,n) ∈ portNodes named ↔ ∃ e ∈ named, name = e.1 ∧ n = portNode e.2.mac := by
  have hfold : ∀ m : SortedMap String Node, (m.insertAll (named.map (fun e => (e.1,portNode e.2.mac)))).entries =
      named.foldl (fun es e => insertKey e.1 (portNode e.2.mac) es) m.entries := by
    intro m
    clear hdistinct
    induction named generalizing m with
    | nil => rfl
    | cons e named ih => exact ih (m.insert e.1 (portNode e.2.mac))
  rw [portNodes,show ([] : List (String × Node)) = SortedMap.empty.entries from rfl,← hfold,
    ← SortedMap.get?_eq_some_iff]
  constructor
  · intro h
    obtain ⟨e,he,heq⟩ := List.mem_map.mp (SortedMap.mem_of_get?_insertAll h)
    cases heq
    exact ⟨e,he,rfl,rfl⟩
  · rintro ⟨e,he,rfl,rfl⟩
    refine SortedMap.get?_insertAll_of_unique (List.mem_map.mpr ⟨e,he,rfl⟩) (fun w hw => ?_)
    obtain ⟨d,hd,heq⟩ := List.mem_map.mp hw
    obtain ⟨hname,rfl⟩ := Prod.mk.inj heq
    rw [List.inj_on_of_nodup_map hdistinct hd he hname]

theorem linesAll_append (at_ : Path) (cs ds : List (String × Node)) :
    linesAll at_ (cs ++ ds) = linesAll at_ cs ++ linesAll at_ ds := by
  induction cs with
  | nil => rfl
  | cons e cs ih =>
    obtain ⟨name,n⟩ := e
    rw [List.cons_append,linesAll,linesAll,ih,List.append_assoc]

theorem linesAll_underEthernet (es : List (String × Node)) :
    linesAll ["interfaces"] (underEthernet es) = linesAll ["interfaces","ethernet"] es := by
  cases es with
  | nil => rfl
  | cons e es =>
    have hfull : (linesAll ["interfaces","ethernet"] (e::es)).isEmpty = false := Node.linesAll_isEmpty
    have hunder : underEthernet (e::es) = [("ethernet",⟨none,.interior (e::es)⟩)] := rfl
    rw [hunder,linesAll,linesAll,List.append_nil,Node.lines]
    change (if (linesAll ["interfaces","ethernet"] (e::es)).isEmpty && _ then _ else _) = _
    rw [hfull]
    rfl

/-- Each port has one line. -/
theorem mem_linesAll_ports {es : List (String × Node)} {line : DiffLine}
    (h : ∀ e ∈ es, ∃ mac, e.2 = portNode mac) : line ∈ linesAll ["interfaces","ethernet"] es ↔
      ∃ name mac, (name,portNode mac) ∈ es ∧ line = (Shipped.setting "ethernet" name "hw-id",some mac) := by
  induction es with
  | nil => simp [linesAll]
  | cons e es ih =>
    obtain ⟨name,n⟩ := e
    obtain ⟨mac,rfl⟩ := h _ List.mem_cons_self
    have hone : (portNode mac).lines (Path.child ["interfaces","ethernet"] name) =
        [(Shipped.setting "ethernet" name "hw-id",some mac)] := rfl
    rw [linesAll,hone,List.mem_append,ih (fun d hd => h d (List.mem_cons_of_mem _ hd)),List.mem_singleton]
    constructor
    · rintro (rfl | ⟨name',mac',hmem,rfl⟩)
      · exact ⟨name,mac,List.mem_cons_self,rfl⟩
      · exact ⟨name',mac',List.mem_cons_of_mem _ hmem,rfl⟩
    · rintro ⟨name',mac',hmem,rfl⟩
      obtain heq | hmem := List.mem_cons.mp hmem
      · cases heq
        exact .inl rfl
      · exact .inr ⟨name',mac',hmem,rfl⟩

/-- The configuration says what was meant, and nothing else. -/
theorem lines_seedRoot (hdistinct : (named.map Prod.fst).Nodup) {tree : ConfigTree}
    (htree : tree.root = seedRoot hostname named hash) (line : DiffLine) :
    line ∈ tree.lines ↔ line ∈ seedLines hostname named hash := by
  have hports : ∀ e ∈ portNodes named, ∃ mac, e.2 = portNode mac := by
    rintro ⟨name,n⟩ he
    obtain ⟨e,-,-,hn⟩ := (mem_portNodes hdistinct).mp he
    exact ⟨e.2.mac,hn⟩
  have hline : (∃ name mac, (name,portNode mac) ∈ portNodes named ∧
        line = (Shipped.setting "ethernet" name "hw-id",some mac)) ↔
      line ∈ named.map (fun e => (Shipped.setting "ethernet" e.1 "hw-id",some e.2.mac)) := by
    rw [List.mem_map]
    constructor
    · rintro ⟨name,mac,hmem,rfl⟩
      obtain ⟨e,he,rfl,heq⟩ := (mem_portNodes hdistinct).mp hmem
      have hmac : mac = e.2.mac := by simpa [portNode] using heq
      exact ⟨e,he,by rw [hmac]⟩
    · rintro ⟨e,he,rfl⟩
      exact ⟨e.1,e.2.mac,(mem_portNodes hdistinct).mpr ⟨e,he,rfl,rfl⟩,rfl⟩
  have hinterfaces : tree.lines = linesAll ["interfaces"] (underEthernet (portNodes named)) ++
      (interface "loopback" "lo",none)::(systemNode hostname hash).lines ["system"] := by
    have hfull : (linesAll ["interfaces"] (underEthernet (portNodes named) ++ [("loopback",loopbackNode)])).isEmpty =
        false := by
      rw [Node.linesAll_isEmpty]
      simp
    have hloopback : linesAll ["interfaces"] [("loopback",loopbackNode)] = [(interface "loopback" "lo",none)] := rfl
    rw [ConfigTree.lines_eq,ConfigTree.children,htree]
    change linesAll [] [(_,_),(_,_)] = _
    rw [linesAll,linesAll,linesAll,List.append_nil,Node.lines]
    change (if (linesAll ["interfaces"] _).isEmpty && _ then _ else linesAll ["interfaces"] _) ++ _ = _
    rw [hfull,Bool.false_and,if_neg Bool.false_ne_true,linesAll_append,hloopback,List.append_assoc]
    rfl
  rw [hinterfaces,linesAll_underEthernet,List.mem_append,mem_linesAll_ports hports,hline,seedLines,List.mem_append]
  exact Iff.rfl

end Lines

/-! ### The daemon takes it -/

section Accepted
variable {hostname hash : String} {named : List (String × Port)} {zones : List String}

theorem check_of_type {ty : ValueType} {value : String} (h : ty.check value = .ok ()) :
    ValueSpec.check ⟨ty,[],none⟩ value = .ok () := by
  simp [ValueSpec.check,h]

theorem check_of_that {ok : Bool} {ty : ValueType} {value : String} (h : ok = true) :
    ValueType.checkThat ok ty value = .ok () := by
  rw [h]
  rfl

/-- A leaf with one value that was checked. -/
theorem fits_leaf {n : SchemaNode} {spec : ValueSpec} {c : Option String} {value : String}
    (hkind : n.kind = .leaf spec) (h : spec.check value = .ok ()) : Node.Fits (.node n) ⟨c,.values [value]⟩ := by
  rw [Node.fits_values,Location.Holds]
  simp only [hkind]
  exact ⟨value,rfl,h⟩

/-- A node with one child. -/
theorem fits_one {location inner : Location} {c : Option String} {name : String} {n : Node}
    (henter : location.enter name = some inner) (h : n.Fits inner) :
    Node.Fits location ⟨c,.interior [(name,n)]⟩ := by
  rw [Node.fits_interior]
  refine ⟨Location.isInner_of_enter henter,fun e he => ?_⟩
  rw [List.mem_singleton.mp he]
  exact ⟨inner,henter,h⟩

theorem fits_portNode {mac : String} (h : Value.isUnicastMac mac = true) : (portNode mac).Fits (.inst ethernet) :=
  fits_one rfl (fits_leaf rfl (check_of_type (check_of_that h)))

theorem enter_instance {n : SchemaNode} {spec : ValueSpec} {key : String} (hkind : n.kind = .tag spec)
    (h : spec.check key = .ok ()) : Location.enter (.node n) key = some (.inst n) := by
  rw [Location.enter]
  simp only [hkind,h]

theorem fits_loopbackNode : loopbackNode.Fits (.node loopback) :=
  fits_one (enter_instance rfl (by decide)) (Node.fits_newInterior rfl)

theorem fits_two {location inner inner' : Location} {c : Option String} {name name' : String} {n n' : Node}
    (henter : location.enter name = some inner) (h : n.Fits inner) (henter' : location.enter name' = some inner')
    (h' : n'.Fits inner') : Node.Fits location ⟨c,.interior [(name,n),(name',n')]⟩ := by
  rw [Node.fits_interior,List.forall_mem_cons,List.forall_mem_singleton]
  exact ⟨Location.isInner_of_enter henter,⟨inner,henter,h⟩,inner',henter',h'⟩

theorem fits_systemNode (hhost : Value.isHostname hostname = true) (hhash : Value.isEncryptedPassword hash = true) :
    (systemNode hostname hash).Fits (.node (system zones)) := by
  have hname : ValueSpec.check ⟨.hostname,[],none⟩ hostname = .ok () := check_of_type (check_of_that hhost)
  have huser : ValueSpec.check ⟨.userName,[],none⟩ DEFAULT_USER = .ok () := check_of_type (check_of_that (by decide))
  have hpassword : ValueSpec.check ⟨.encryptedPassword,[],none⟩ hash = .ok () := check_of_type (check_of_that hhash)
  have hfull : ValueSpec.check ⟨.text,[],none⟩ "Nightshade administrator" = .ok () := by decide
  refine fits_two rfl (fits_leaf rfl hname) rfl (fits_one rfl (fits_one (enter_instance rfl huser) ?_))
  exact fits_two rfl (fits_one rfl (fits_leaf rfl hpassword)) rfl (fits_leaf rfl hfull)

/-- The configuration fits the schema, where its words do. -/
theorem fits_seedRoot (hports : ∀ e ∈ named, Value.isInterfaceName e.1 = true ∧ Value.isUnicastMac e.2.mac = true)
    (hdistinct : (named.map Prod.fst).Nodup) (hhost : Value.isHostname hostname = true)
    (hhash : Value.isEncryptedPassword hash = true) :
    (seedRoot hostname named hash).Fits (.node (schema zones).root) := by
  refine fits_two rfl ?_ rfl (fits_systemNode hhost hhash)
  rw [Node.fits_interior]
  refine ⟨rfl,fun e he => ?_⟩
  obtain he | he := List.mem_append.mp he
  · unfold underEthernet at he
    split_ifs at he
    · cases he
    rw [List.mem_singleton.mp he]
    refine ⟨.node ethernet,rfl,Node.fits_interior.mpr ⟨rfl,?_⟩⟩
    rintro ⟨name,n⟩ hmem
    obtain ⟨d,hd,rfl,rfl⟩ := (mem_portNodes hdistinct).mp hmem
    obtain ⟨hname,hmac⟩ := hports d hd
    exact ⟨_,enter_instance rfl (check_of_type (check_of_that hname)),fits_portNode hmac⟩
  · rw [List.mem_singleton.mp he]
    exact ⟨.node loopback,rfl,fits_loopbackNode⟩

end Accepted

/-! ### No rule is broken -/

section Unbroken
variable {hostname hash : String} {named : List (String × Port)} {zones : List String} {tree : ConfigTree}

theorem cross_seedRoot :
    Schema.checkCross tree (.node (schema zones).root) Path.root none (seedRoot hostname named hash) = [] := by
  have hethernet : ethernet.unruled = true := by decide
  have hloopback : loopback.unruled = true := by decide
  have hsystem : (system zones).unruled = true := rfl
  have hkinds : ∀ e ∈ underEthernet (portNodes named) ++ [("loopback",loopbackNode)],
      e.1 = "ethernet" ∨ e.1 = "loopback" := by
    intro e he
    obtain he | he := List.mem_append.mp he
    · unfold underEthernet at he
      split_ifs at he
      · cases he
      · exact .inl (congrArg Prod.fst (List.mem_singleton.mp he))
    · exact .inr (congrArg Prod.fst (List.mem_singleton.mp he))
  have hplain : ∀ name, name = "ethernet" ∨ name = "loopback" → ∀ n, (name,n) ∈ tags → n.unruled = true := by
    rintro name (rfl | rfl) n hn
    · have heq : n = ethernet := by simpa [tags] using hn
      exact heq ▸ hethernet
    · have heq : n = loopback := by simpa [tags] using hn
      exact heq ▸ hloopback
  rw [seedRoot,Schema.checkCross]
  apply Schema.crossChildren_eq_nil
  intro e he s hs
  obtain rfl | he := List.mem_cons.mp he
  · have heq : s = container 200 tags := by simpa [schema,container,tags] using hs
    rw [heq,Schema.checkCross]
    exact Schema.crossChildren_eq_nil (fun d hd n hn =>
      (Schema.checkCross_unruled tree d.2 (hplain d.1 (hkinds d hd) n hn) _ none).1)
  · obtain rfl := List.mem_singleton.mp he
    have heq : s = system zones := by simpa [schema,container] using hs
    exact (Schema.checkCross_unruled tree _ (heq ▸ hsystem) _ none).1

/-- With neither bonds nor bridges there are no members. -/
theorem globals_unmastered (h : ∀ kind ∈ masters, ∀ name, ¬tree.contains (interface kind name)) :
    ∀ g ∈ (schema zones).globals, Schema.checkGlobal tree g = [] := by
  have hnone : ∀ pattern ∈ masters.map members, expand tree pattern none = [] := by
    intro pattern hpattern
    obtain ⟨kind,hkind,rfl⟩ := List.mem_map.mp hpattern
    rw [List.eq_nil_iff_forall_not_mem]
    intro path hpath
    obtain ⟨hthere,hmatches⟩ := mem_expand.mp hpath
    obtain ⟨above,last,rfl,habove,-⟩ := @forall₂_concat _ _ _ (every kind) (.literal "member") path hmatches
    obtain ⟨name,rfl⟩ := every_matches.mp habove
    exact h kind hkind name (contains_of_concat hthere)
  intro g hg
  obtain rfl | hg := List.mem_cons.mp hg
  · exact Schema.checkGlobal_unclaimed hnone (.inl ⟨_,rfl⟩)
  · obtain rfl := List.mem_singleton.mp hg
    exact Schema.checkGlobal_unclaimed hnone (.inr ⟨_,_,_,rfl⟩)

end Unbroken

/-! ### What is rendered of it -/

section Rendered
variable {hostname hash name kind : String} {named : List (String × Port)} {zones : List String} {tree : ConfigTree}
  {node : Node}

theorem lookup_single {α : Type} (name other : String) (a : α) :
    [(name,a)].lookup other = if other = name then some a else none := by
  by_cases h : other = name
  · rw [if_pos h,h,List.lookup_cons_self]
  · rw [if_neg h,List.lookup_cons,beq_false_of_ne h]
    rfl

theorem lookup_kinds (es : List (String × Node)) (kind : String) :
    (((underEthernet es ++ [("loopback",loopbackNode)]).lookup kind).bind Node.children).getD [] =
      if kind = "ethernet" then es else if kind = "loopback" then [("lo",Node.newInterior)] else [] := by
  have hports : (underEthernet es).lookup kind =
      if kind = "ethernet" ∧ es ≠ [] then some ⟨none,.interior es⟩ else none := by
    cases es with
    | nil => simp [underEthernet]
    | cons e es =>
      have hone : underEthernet (e::es) = [("ethernet",⟨none,.interior (e::es)⟩)] := rfl
      rw [hone,lookup_single]
      simp
  rw [List.lookup_append,hports,lookup_single]
  by_cases hethernet : kind = "ethernet"
  · subst hethernet
    by_cases hempty : es = []
    · simp [hempty]
    · simp [hempty,Node.children]
  · by_cases hloopback : kind = "loopback"
    · simp [hloopback,loopbackNode,Node.children]
    · simp [hethernet,hloopback]

/-- Its interfaces are the ports and the loopback. -/
theorem get_interface (hdistinct : (named.map Prod.fst).Nodup) (htree : tree.root = seedRoot hostname named hash) :
    tree.get (interface kind name) = some node ↔
      (kind = "ethernet" ∧ ∃ e ∈ named, name = e.1 ∧ node = portNode e.2.mac) ∨
      (kind = "loopback" ∧ name = "lo" ∧ node = Node.newInterior) := by
  have hkinds : tree.get ["interfaces",kind] =
      (underEthernet (portNodes named) ++ [("loopback",loopbackNode)]).lookup kind := by
    rw [ConfigTree.get,htree]
    simp [seedRoot,Node.get]
  rw [← mem_instances,instances,hkinds,lookup_kinds,← mem_portNodes hdistinct]
  by_cases hethernet : kind = "ethernet"
  · subst hethernet
    simp
  · by_cases hloopback : kind = "loopback"
    · subst hloopback
      simp
    · simp [hethernet,hloopback]

theorem linkFile_port (name : String) (port : Port) :
    Render.Networkd.linkFile name (portNode port.mac) = some (linkFile name port) := by
  have hmatch : "\n[" ++ "Match" ++ "]\n" ++ "PermanentMACAddress" ++ "=" = "\n[Match]\nPermanentMACAddress=" := by decide
  have hlink : "\n" ++ ("\n[" ++ "Link" ++ "]\n") ++ "Name" ++ "=" = "\n\n[Link]\nName=" := by decide
  have hheader : MANAGED_HEADER = Render.Ini.HEADER := rfl
  have hwritten : Render.Networkd.linkFile name (portNode port.mac) = some (Render.Ini.HEADER ++
      ("\n[" ++ "Match" ++ "]\n") ++ "PermanentMACAddress" ++ "=" ++ port.mac ++ "\n" ++
      ("\n[" ++ "Link" ++ "]\n") ++ "Name" ++ "=" ++ name ++ "\n") := rfl
  rw [hwritten,linkFile,hheader,← hmatch,← hlink]
  simp only [String.append_assoc]

theorem physicalFile_link (name : String) : physicalFile name "link" = "10-ns-" ++ name ++ ".link" := by
  have hmarker : "10" ++ Render.managedMarker = "10-ns-" := by decide
  have hextension : "." ++ "link" = ".link" := by decide
  rw [physicalFile,hmarker,String.append_assoc,hextension]

/-- The files are the ones that were left. -/
theorem links_seedRoot (hdistinct : (named.map Prod.fst).Nodup) (hlo : ∀ e ∈ named, e.1 ≠ "lo")
    (htree : tree.root = seedRoot hostname named hash) (hclean : (schema zones).validateTree tree = [])
    {artifacts : Render.Artifacts} (hrender : Render.Networkd.render tree = .ok artifacts) (file text : String) :
    (links artifacts).get? file = some text ↔
      (file,text) ∈ named.map (fun e => ("10-ns-" ++ e.1 ++ ".link",linkFile e.1 e.2)) := by
  have hfree : ¬NameTaken tree := by
    intro h
    obtain ⟨n,hn⟩ := Option.isSome_iff_exists.mp h.1
    obtain ⟨-,e,he,hname,-⟩ | ⟨hkind,-⟩ := (get_interface hdistinct htree).mp hn
    · exact hlo e he hname.symm
    · exact absurd hkind (by decide)
  rw [get?_links hclean hrender hfree,mem_linkFiles,List.mem_map]
  constructor
  · intro h
    obtain ⟨kind,hkind,name,n,hget,rfl,hlink⟩ := h
    obtain ⟨-,e,he,rfl,rfl⟩ | ⟨-,rfl,rfl⟩ := (get_interface hdistinct htree).mp hget
    · rw [linkFile_port] at hlink
      exact ⟨e,he,Prod.ext (physicalFile_link e.1).symm (Option.some.inj hlink)⟩
    · cases hlink
  · intro h
    obtain ⟨e,he,heq⟩ := h
    obtain ⟨rfl,rfl⟩ := Prod.mk.inj heq
    exact ⟨"ethernet",by decide,e.1,_,(get_interface hdistinct htree).mpr (.inl ⟨rfl,e,he,rfl,rfl⟩),
      (physicalFile_link e.1).symm,linkFile_port e.1 e.2⟩

end Rendered

/-! ### The first boot -/

/-- What the installer left is what the daemon boots with, and what it renders. -/
structure Boots {H F : Type} (site : Configd.Site H F) (host : H) (fate : ℕ → Configd.Effect → Configd.Fate F) (n : ℕ)
    (hostname : String) (ports : List Port) (hash : String) (seeded : Seeded) (config : ConfigTree) : Prop where
  accepted : ((Configd.saved site.schema).run (Configd.perform site) fate n
    (Configd.Box.fresh host (some seeded.configBoot))).1 = some (.ok (some config))
  meant : ∀ line, line ∈ config.lines ↔ line ∈ seedLines hostname (assignNames ports) hash
  linked : ∃ artifacts, Render.Networkd.render config = .ok artifacts ∧ ∀ file text,
    (links artifacts).get? file = some text ↔ (file,text) ∈ seeded.links

/-- What the installer takes from the box and the schema has rules for. -/
structure Sound (byNumber : Char → Bool) (ports : List Port) (hash : String) : Prop where
  named : ∀ e ∈ assignNames ports, Value.isInterfaceName e.1 = true
  addressed : ∀ port ∈ ports, Value.isUnicastMac port.mac = true
  hashed : Value.isEncryptedPassword hash = true
  legible : ∀ c ∈ hash.toList, Legible byNumber c

section Sound
variable {byNumber : Char → Bool} {ports : List Port} {hash : String}

theorem Sound.bare (h : Sound byNumber ports hash) :
    ∀ e ∈ assignNames ports, isBare e.1.toList = true ∧ isBare e.2.mac.toList = true := by
  intro e he
  obtain ⟨i,hi,-⟩ := mem_assignNames.mp he
  exact ⟨bare_interfaceName (h.named e he),bare_mac (h.addressed e.2 (List.mem_of_getElem? hi))⟩

end Sound

/-- What a leaf of the schema holds was checked. -/
theorem checked_of_holds {schema : Schema} {config : ConfigTree} (hclean : schema.validateTree config = [])
    {path : Path} {leaf : SchemaNode} {spec : ValueSpec}
    (hplace : path.foldlM Location.enter (.node schema.root) = some (.node leaf)) (hkind : leaf.kind = .leaf spec)
    {value : String} (h : config.Holds path value) : spec.check value = .ok () := by
  obtain ⟨m,vs,hget,hset,hvalue⟩ := get_of_holds h
  obtain ⟨location,henter,hfits⟩ := Node.fits_of_get (validateTree_eq_nil.mp hclean) hget
  obtain rfl := Option.some.inj (henter.symm.trans hplace)
  obtain ⟨c,cs | ws⟩ := m
  · cases hset
  · obtain rfl : ws = vs := Option.some.inj hset
    have hholds := Node.fits_values.mp hfits
    unfold Location.Holds at hholds
    simp only [hkind] at hholds
    obtain ⟨v,rfl,hcheck⟩ := hholds
    obtain rfl := List.mem_singleton.mp hvalue
    exact hcheck

section Boots
variable {H F : Type} {byNumber : Char → Bool} {zones : List String}
  {applyHost : ConfigTree → F → H → Option (Except Configd.CommitError Unit) × H} {rebootHost : H → H} {host : H}
  {fate : ℕ → Configd.Effect → Configd.Fate F} {n : ℕ} {name shadow hash : String} {entries : List Entry}

/-- What is sound is booted with. -/
theorem boots_of_sound (hname : hostname name = .ok ()) (hshadow : hashFromShadow shadow DEFAULT_USER = some hash)
    (hfate : ∀ n e, (fate n e).io = .ok) (h : Sound byNumber (enumeratePorts entries) hash) :
    ∃ config, Boots (Configd.Site.shipping zones applyHost rebootHost) host fate n name (enumeratePorts entries) hash
      (writeConfiguration byNumber name entries shadow) config := by
  have hhost := hostname_eq_ok.mp hname
  have hdistinct := nodup_assignNames (enumeratePorts entries)
  have htext : (writeConfiguration byNumber name entries shadow).configBoot =
      String.ofList (pieces name (assignNames (enumeratePorts entries)) hash) := by
    rw [writeConfiguration,hshadow]
    exact configBoot_pieces (bare_hostname hhost) h.bare (debugString_eq h.hashed h.legible)
  obtain ⟨config,hparse,hroot⟩ := @parse_pieces name hash _ hdistinct
  have hports : ∀ e ∈ assignNames (enumeratePorts entries),
      Value.isInterfaceName e.1 = true ∧ Value.isUnicastMac e.2.mac = true := by
    intro e he
    obtain ⟨i,hi,-⟩ := mem_assignNames.mp he
    exact ⟨h.named e he,h.addressed e.2 (List.mem_of_getElem? hi)⟩
  have hclean : (schema zones).validateTree config = [] :=
    validateTree_eq_nil.mpr (hroot ▸ fits_seedRoot hports hdistinct hhost h.hashed)
  have hrules : (schema zones).checkConstraints config = [] := by
    have hunmastered : ∀ kind ∈ masters, ∀ name, ¬config.contains (interface kind name) := by
      intro kind hkind name hthere
      obtain ⟨node,hget⟩ := Option.isSome_iff_exists.mp hthere
      obtain ⟨rfl,-⟩ | ⟨rfl,-⟩ := (get_interface hdistinct hroot).mp hget
      · exact absurd hkind (by decide)
      · exact absurd hkind (by decide)
    rw [List.eq_nil_iff_forall_not_mem]
    intro v hv
    obtain hv | ⟨g,hg,hv⟩ := Schema.mem_checkConstraints.mp hv
    · rw [hroot,cross_seedRoot] at hv
      cases hv
    · rw [globals_unmastered hunmastered g hg] at hv
      cases hv
  have hlo : ∀ e ∈ assignNames (enumeratePorts entries), e.1 ≠ "lo" := by
    intro e he
    obtain ⟨i,-,hi⟩ := mem_assignNames.mp he
    rw [hi]
    exact portName_ne_lo i
  refine ⟨config,?_,fun line => lines_seedRoot hdistinct hroot line,_,rfl,
    fun file text => links_seedRoot hdistinct hlo hroot hclean rfl file text⟩
  refine (Configd.saved_run rfl hfate).mpr ⟨htext ▸ hparse,?_⟩
  exact List.append_eq_nil_iff.mpr ⟨hclean,hrules⟩

/-- What is booted with was sound. -/
theorem sound_of_boots (hname : hostname name = .ok ()) (hshadow : hashFromShadow shadow DEFAULT_USER = some hash)
    (hfate : ∀ n e, (fate n e).io = .ok) {config : ConfigTree}
    (h : Boots (Configd.Site.shipping zones applyHost rebootHost) host fate n name (enumeratePorts entries) hash
      (writeConfiguration byNumber name entries shadow) config) : Sound byNumber (enumeratePorts entries) hash := by
  obtain ⟨hparse,hvalid⟩ := (Configd.saved_run rfl hfate).mp h.accepted
  have hclean : (schema zones).validateTree config = [] := (List.append_eq_nil_iff.mp hvalid).1
  have hport : ∀ e ∈ assignNames (enumeratePorts entries), config.Holds (Shipped.setting "ethernet" e.1 "hw-id") e.2.mac := by
    intro e he
    exact holds_iff_line.mp ((h.meant _).mpr (List.mem_append_left _ (List.mem_map.mpr ⟨e,he,rfl⟩)))
  have hpassword : config.Holds ["system","login","user",DEFAULT_USER,"authentication","encrypted-password"] hash := by
    refine holds_iff_line.mp ((h.meant _).mpr (List.mem_append_right _ ?_))
    simp
  have hnames : ∀ e ∈ assignNames (enumeratePorts entries), Value.isInterfaceName e.1 = true := by
    intro e he
    obtain ⟨node,hget⟩ := interface_of_holds (hport e he)
    obtain ⟨tag,spec,htag,hkind,hcheck⟩ := name_checked hclean hget
    cases htag
    cases hkind
    obtain hword | hok := ValueSpec.ok_type hcheck
    · cases hword
    · exact ok_of_checkThat hok
  have haddresses : ∀ port ∈ enumeratePorts entries, Value.isUnicastMac port.mac = true := by
    intro port hp
    obtain ⟨i,hi⟩ := List.mem_iff_getElem?.mp hp
    have hheld := hport (portName i,port) (mem_assignNames.mpr ⟨i,hi,rfl⟩)
    obtain ⟨tag,child,spec,htag,hchild,hspec,hcheck⟩ := value_checked hclean hheld
    cases htag
    cases hchild
    cases hspec
    obtain hword | hok := ValueSpec.ok_type hcheck
    · cases hword
    · exact ok_of_checkThat hok
  have hhashed : Value.isEncryptedPassword hash = true := by
    obtain ⟨leaf,hplace,hkind⟩ : ∃ leaf,
        ["system","login","user",DEFAULT_USER,"authentication","encrypted-password"].foldlM Location.enter
          (.node (schema zones).root) = some (.node leaf) ∧ leaf.kind = .leaf ⟨.encryptedPassword,[],none⟩ :=
      ⟨_,rfl,rfl⟩
    obtain hword | hok := ValueSpec.ok_type (checked_of_holds hclean hplace hkind hpassword)
    · cases hword
    · exact ok_of_checkThat hok
  have hbare : ∀ e ∈ assignNames (enumeratePorts entries), isBare e.1.toList = true ∧ isBare e.2.mac.toList = true := by
    intro e he
    obtain ⟨i,hi,-⟩ := mem_assignNames.mp he
    exact ⟨bare_interfaceName (hnames e he),bare_mac (haddresses e.2 (List.mem_of_getElem? hi))⟩
  refine ⟨hnames,haddresses,hhashed,fun c hc => ?_⟩
  by_contra hbad
  rw [writeConfiguration,hshadow] at hparse
  exact configBoot_unread (bare_hostname (hostname_eq_ok.mp hname)) hbare hhashed hc hbad config hparse

end Boots

/-- The daemon boots with what the installer left, and renders the same files, just where the names, the
addresses and the hash are such as the schema has rules for, and the hash is displayed as the lexer knows it. -/
theorem boots_iff {H F : Type} (byNumber : Char → Bool) (zones : List String)
    (applyHost : ConfigTree → F → H → Option (Except Configd.CommitError Unit) × H) (rebootHost : H → H) (host : H)
    (fate : ℕ → Configd.Effect → Configd.Fate F) (n : ℕ) (name shadow hash : String) (entries : List Entry)
    (hname : hostname name = .ok ()) (hshadow : hashFromShadow shadow DEFAULT_USER = some hash)
    (hfate : ∀ n e, (fate n e).io = .ok) :
    (∃ config, Boots (Configd.Site.shipping zones applyHost rebootHost) host fate n name (enumeratePorts entries) hash
      (writeConfiguration byNumber name entries shadow) config) ↔ Sound byNumber (enumeratePorts entries) hash := by
  constructor
  · intro h
    obtain ⟨config,hboots⟩ := h
    exact sound_of_boots hname hshadow hfate hboots
  · exact boots_of_sound hname hshadow hfate

/-- A port, as the kernel presents it. -/
def onboard : Entry := ⟨"enp1s0",some "0000:01:00.0",some "0\n",some "02:00:5e:10:00:01\n"⟩

/-- One with an address of twenty octets. -/
def wide : Entry :=
  ⟨"ibp2s0",some "0000:02:00.0",some "0\n",some "80:00:00:48:fe:80:00:00:00:00:00:00:00:02:c9:03:00:0a:4f:31\n"⟩

def shadowed : String := "root:*:20000:0:99999:7:::\nnightshade:$6$salt$hash:20000:0:99999:7:::\n"

theorem onboard_boots_iff :
    (∃ config, Boots (Configd.Site.shipping [] (fun _ (_ : Unit) (h : Unit) => (some (.ok ()),h)) id) ()
      (Configd.Fate.smooth ()) 0 "core" (enumeratePorts [onboard]) "$6$salt$hash"
      (writeConfiguration (fun _ => false) "core" [onboard] shadowed) config) ↔
    Sound (fun _ => false) (enumeratePorts [onboard]) "$6$salt$hash" :=
  boots_iff _ [] _ id () _ 0 "core" shadowed "$6$salt$hash" [onboard] (by decide +kernel) (by decide +kernel)
    (fun _ _ => rfl)

theorem wide_not_booted : hostname "core" = .ok () ∧ hashFromShadow shadowed DEFAULT_USER = some "$6$salt$hash" ∧
    ∀ config, ¬Boots (Configd.Site.shipping [] (fun _ (_ : Unit) (h : Unit) => (some (.ok ()),h)) id) ()
      (Configd.Fate.smooth ()) 0 "core" (enumeratePorts [wide]) "$6$salt$hash"
      (writeConfiguration (fun _ => false) "core" [wide] shadowed) config := by
  have hname : hostname "core" = .ok () := by decide +kernel
  have hshadow : hashFromShadow shadowed DEFAULT_USER = some "$6$salt$hash" := by decide +kernel
  refine ⟨hname,hshadow,fun config h => ?_⟩
  have hsound := sound_of_boots hname hshadow (fun _ _ => rfl) h
  obtain ⟨port,hport,hbad⟩ : ∃ port ∈ enumeratePorts [wide], Value.isUnicastMac port.mac = false :=
    ⟨_,List.mem_singleton.mpr rfl,by decide +kernel⟩
  rw [hsound.addressed port hport] at hbad
  cases hbad

end Nightshade.Installer
