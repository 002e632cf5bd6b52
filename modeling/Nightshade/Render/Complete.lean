import Mathlib
import Nightshade.Render.Written

/-! What validates is rendered completely: each interface has files of its own that say what the
configuration says of it, unless two interfaces go by one name or two ports by one address. -/
namespace Nightshade.Render.Networkd
open Foundation Schema Schema.Shipped

variable {config : ConfigTree} {kind name : String} {node : Node} {zones : List String}

/-! ### The set of files -/

/-- The kinds of interface that are there without a device being made. -/
def PHYSICAL : List String := ["ethernet","loopback"]

/-- The files that an interface is written to. -/
def ownFiles (kind name : String) : List String :=
  if kind ∈ PHYSICAL then [physicalFile name "network",physicalFile name "link"]
  else [virtualFile name "network",virtualFile name "netdev"]

/-- The `.network` among them. -/
def networkName (kind name : String) : String :=
  if kind ∈ PHYSICAL then physicalFile name "network" else virtualFile name "network"

/-- The files of the devices and of the networks, in the order they are written in. -/
def networkdFiles (config : ConfigTree) : List (String × String) :=
  ((PHYSICAL.flatMap (instances config)).map (fun e =>
    (physicalFile e.1 "network",networkFile e.1 e.2 (Attachments.of config)))) ++
  VIRTUAL.flatMap (fun kinds => (instances config kinds.1).flatMap (fun e =>
    virtualFiles (Attachments.of config) kinds.2 e.1 e.2))

def linkFiles (config : ConfigTree) : List (String × String) :=
  (PHYSICAL.flatMap (instances config)).filterMap (fun e =>
    (linkFile e.1 e.2).map (fun text => (physicalFile e.1 "link",text)))

/-- The `.link` files of what was rendered. -/
def links (artifacts : Artifacts) : SortedMap String String :=
  (artifacts.managed[1]?.map Managed.files).getD SortedMap.empty

theorem files_of_render {artifacts : Artifacts} (h : render config = .ok artifacts) :
    files artifacts = SortedMap.empty.insertAll (networkdFiles config) ∧
      links artifacts = SortedMap.empty.insertAll (linkFiles config) := by
  cases h
  exact ⟨rfl,rfl⟩

theorem mem_physical {e : String × Node} : e ∈ PHYSICAL.flatMap (instances config) ↔
    ∃ kind ∈ PHYSICAL, config.get (interface kind e.1) = some e.2 := by
  rw [List.mem_flatMap]
  exact exists_congr (fun kind => and_congr_right' mem_instances)

/-- What networkd is given of an interface. -/
def Writes (config : ConfigTree) (kind name : String) (node : Node) (file text : String) : Prop :=
  (kind ∈ PHYSICAL ∧ file = physicalFile name "network" ∧ text = networkFile name node (Attachments.of config)) ∨
  ∃ device, (kind,device) ∈ VIRTUAL ∧
    ((file = virtualFile name "netdev" ∧ text = netdevFile device name node) ∨
      (file = virtualFile name "network" ∧ text = networkFile name node (Attachments.of config)))

theorem mem_networkdFiles {file text : String} : (file,text) ∈ networkdFiles config ↔
    ∃ kind name node, config.get (interface kind name) = some node ∧ Writes config kind name node file text := by
  unfold networkdFiles virtualFiles Writes
  rw [List.mem_append]
  constructor
  · rintro (h | h)
    · obtain ⟨e,he,heq⟩ := List.mem_map.mp h
      obtain ⟨kind,hkind,hget⟩ := mem_physical.mp he
      cases heq
      exact ⟨kind,e.1,e.2,hget,.inl ⟨hkind,rfl,rfl⟩⟩
    · obtain ⟨kinds,hkinds,h⟩ := List.mem_flatMap.mp h
      obtain ⟨e,he,hfile⟩ := List.mem_flatMap.mp h
      refine ⟨kinds.1,e.1,e.2,mem_instances.mp he,.inr ⟨kinds.2,hkinds,?_⟩⟩
      simpa using hfile
  · rintro ⟨kind,name,node,hget,⟨hkind,rfl,rfl⟩ | ⟨device,hdevice,hfile⟩⟩
    · exact .inl (List.mem_map.mpr ⟨(name,node),mem_physical.mpr ⟨kind,hkind,hget⟩,rfl⟩)
    · refine .inr (List.mem_flatMap.mpr ⟨_,hdevice,List.mem_flatMap.mpr ⟨_,mem_instances.mpr hget,?_⟩⟩)
      simpa using hfile

theorem mem_linkFiles {file text : String} : (file,text) ∈ linkFiles config ↔
    ∃ kind ∈ PHYSICAL, ∃ name node, config.get (interface kind name) = some node ∧
      file = physicalFile name "link" ∧ linkFile name node = some text := by
  unfold linkFiles
  rw [List.mem_filterMap]
  constructor
  · rintro ⟨e,he,hlink⟩
    obtain ⟨kind,hkind,hget⟩ := mem_physical.mp he
    obtain ⟨other,hother,heq⟩ := Option.map_eq_some_iff.mp hlink
    cases heq
    exact ⟨kind,hkind,e.1,e.2,hget,rfl,hother⟩
  · rintro ⟨kind,hkind,name,node,hget,rfl,hlink⟩
    exact ⟨(name,node),mem_physical.mpr ⟨kind,hkind,hget⟩,by rw [hlink]; rfl⟩

/-! ### Names of files -/

theorem extension_unique {n n' ext ext' : List Char} (h : n ++ '.'::ext = n' ++ '.'::ext') (hext : '.' ∉ ext)
    (hext' : '.' ∉ ext') : n = n' ∧ ext = ext' := by
  obtain ⟨a,hn,hrest⟩ | ⟨a,hn,hrest⟩ := List.append_eq_append_iff.mp h
  · cases a with
    | nil =>
      obtain ⟨-,rfl⟩ := List.cons.inj hrest
      exact ⟨by rw [hn,List.append_nil],rfl⟩
    | cons c a =>
      obtain ⟨-,rfl⟩ := List.cons.inj hrest
      simp at hext
  · cases a with
    | nil =>
      obtain ⟨-,rfl⟩ := List.cons.inj hrest
      exact ⟨by rw [hn,List.append_nil],rfl⟩
    | cons c a =>
      obtain ⟨-,rfl⟩ := List.cons.inj hrest
      simp at hext'

theorem physicalFile_toList (name extension : String) : (physicalFile name extension).toList =
    '1':: '0':: '-':: 'n':: 's':: '-'::(name.toList ++ '.'::extension.toList) := by
  simp [physicalFile,managedMarker]

theorem virtualFile_toList (name extension : String) : (virtualFile name extension).toList =
    '2':: '0':: '-':: 'n':: 's':: '-'::(name.toList ++ '.'::extension.toList) := by
  simp [virtualFile,managedMarker]

/-- The endings of the files. -/
def EXTENSIONS : List String := ["network","netdev","link"]

theorem undotted {extension : String} (h : extension ∈ EXTENSIONS) : '.' ∉ extension.toList := by
  simp only [EXTENSIONS,List.mem_cons,List.not_mem_nil,or_false] at h
  obtain rfl | rfl | rfl := h
  all_goals decide

section Names
variable {name' extension extension' : String} (he : extension ∈ EXTENSIONS) (he' : extension' ∈ EXTENSIONS)
include he he'

theorem physicalFile_injective (h : physicalFile name extension = physicalFile name' extension') :
    name = name' ∧ extension = extension' := by
  rw [← String.toList_inj,physicalFile_toList,physicalFile_toList] at h
  obtain ⟨hname,hextension⟩ := extension_unique (by simpa using h) (undotted he) (undotted he')
  exact ⟨String.toList_inj.mp hname,String.toList_inj.mp hextension⟩

theorem virtualFile_injective (h : virtualFile name extension = virtualFile name' extension') :
    name = name' ∧ extension = extension' := by
  rw [← String.toList_inj,virtualFile_toList,virtualFile_toList] at h
  obtain ⟨hname,hextension⟩ := extension_unique (by simpa using h) (undotted he) (undotted he')
  exact ⟨String.toList_inj.mp hname,String.toList_inj.mp hextension⟩

omit he he' in
theorem physicalFile_ne (h : physicalFile name extension = virtualFile name' extension') : False := by
  rw [← String.toList_inj,physicalFile_toList,virtualFile_toList] at h
  exact absurd (List.cons.inj h).1 (by decide)

end Names

/-! ### Names of devices -/

/-- How the schema has devices of each kind named, before their numbers. -/
def STEMS : List (String × String) :=
  [("vlan","vlan"),("bonding","bond"),("bridge","br"),("vxlan","vxlan")]

/-- A name up to its number. -/
def stem (name : String) : List Char := name.toList.takeWhile (fun c => !c.isDigit)

theorem stem_of_numbered {word : String} (hword : word.toList.all (fun c => !c.isDigit) = true)
    (h : (Shipped.numbered word).isMatch name) : stem name = word.toList := by
  simp only [Shipped.numbered,Bool.and_eq_true,List.isPrefixOf_iff_prefix] at h
  obtain ⟨⟨⟨digits,hname⟩,-⟩,hdigits⟩ := h
  rw [← hname,List.drop_left] at hdigits
  rw [stem,← hname,List.takeWhile_append_of_pos (fun c hc => List.all_eq_true.mp hword c hc)]
  have hnone : digits.takeWhile (fun c => !c.isDigit) = [] := by
    cases digits with
    | nil => rfl
    | cons d digits =>
      have hd : d.isDigit = true := List.all_eq_true.mp hdigits d List.mem_cons_self
      simp [hd]
  rw [hnone,List.append_nil]

theorem stem_of_device (hclean : (schema zones).validateTree config = []) {word : String}
    (hstem : (kind,word) ∈ STEMS) (hget : config.get (interface kind name) = some node) :
    stem name = word.toList := by
  obtain ⟨tag,spec,htag,hkind,hcheck⟩ := name_checked hclean hget
  simp only [STEMS,List.mem_cons,Prod.mk.injEq,List.not_mem_nil,or_false] at hstem
  obtain ⟨rfl,rfl⟩ | ⟨rfl,rfl⟩ | ⟨rfl,rfl⟩ | ⟨rfl,rfl⟩ := hstem
  all_goals
    cases htag
    cases hkind
    exact stem_of_numbered (by decide) (ValueSpec.matches_of_check rfl rfl hcheck)

/-- The name of a device tells its kind, in one configuration and another. -/
theorem virtual_kind {config' : ConfigTree} (hclean : (schema zones).validateTree config = [])
    (hclean' : (schema zones).validateTree config' = []) {kind' device device' : String} {node' : Node}
    (hdevice : (kind,device) ∈ VIRTUAL) (hdevice' : (kind',device') ∈ VIRTUAL)
    (hget : config.get (interface kind name) = some node)
    (hget' : config'.get (interface kind' name) = some node') : kind = kind' := by
  have hstems : ∀ e ∈ VIRTUAL, ∃ d ∈ STEMS, d.1 = e.1 := by decide
  have hwords : ∀ e ∈ STEMS, ∀ d ∈ STEMS, e.2 = d.2 → e.1 = d.1 := by decide
  obtain ⟨e,he,rfl⟩ := hstems _ hdevice
  obtain ⟨d,hd,rfl⟩ := hstems _ hdevice'
  have hword := (stem_of_device hclean he hget).symm.trans (stem_of_device hclean' hd hget')
  exact hwords e he d hd (String.toList_inj.mp hword)

theorem virtual_unique (hclean : (schema zones).validateTree config = []) {kind' device device' : String}
    {node' : Node} (hdevice : (kind,device) ∈ VIRTUAL) (hdevice' : (kind',device') ∈ VIRTUAL)
    (hget : config.get (interface kind name) = some node)
    (hget' : config.get (interface kind' name) = some node') : kind = kind' :=
  virtual_kind hclean hclean hdevice hdevice' hget hget'

/-- Two interfaces go by one name. -/
def NameTaken (config : ConfigTree) : Prop :=
  config.contains (interface "ethernet" "lo") ∧ config.contains (interface "loopback" "lo")

theorem loopback_name (hclean : (schema zones).validateTree config = [])
    (hget : config.get (interface "loopback" name) = some node) : name = "lo" := by
  obtain ⟨tag,spec,htag,hkind,hcheck⟩ := name_checked hclean hget
  cases htag
  cases hkind
  by_contra hne
  simp [ValueSpec.check,ValueType.check,ValueType.checkThat,hne] at hcheck

theorem physical_unique (hclean : (schema zones).validateTree config = []) (hfree : ¬NameTaken config)
    {kind' : String} {node' : Node} (hkind : kind ∈ PHYSICAL) (hkind' : kind' ∈ PHYSICAL)
    (hget : config.get (interface kind name) = some node)
    (hget' : config.get (interface kind' name) = some node') : kind = kind' := by
  have hthere : ∀ {k : String} {n : Node}, config.get (interface k name) = some n → config.contains (interface k name) :=
    fun h => Option.isSome_iff_exists.mpr ⟨_,h⟩
  simp only [PHYSICAL,List.mem_cons,List.not_mem_nil,or_false] at hkind hkind'
  obtain rfl | rfl := hkind
  · obtain rfl | rfl := hkind'
    · rfl
    · obtain rfl := loopback_name hclean hget'
      exact absurd ⟨hthere hget,hthere hget'⟩ hfree
  · obtain rfl | rfl := hkind'
    · obtain rfl := loopback_name hclean hget
      exact absurd ⟨hthere hget',hthere hget⟩ hfree
    · rfl

theorem kind_cases (hclean : (schema zones).validateTree config = [])
    (hget : config.get (interface kind name) = some node) :
    kind ∈ PHYSICAL ∨ (kind ∉ PHYSICAL ∧ ∃ device, (kind,device) ∈ VIRTUAL) := by
  have hkinds : ∀ t ∈ tags.map Prod.fst, t ∈ PHYSICAL ∨ (t ∉ PHYSICAL ∧ ∃ e ∈ VIRTUAL, e.1 = t) := by decide
  obtain ⟨tag,spec,htag,-,-⟩ := name_checked hclean hget
  obtain hphysical | ⟨hphysical,e,he,rfl⟩ := hkinds kind (List.mem_map.mpr ⟨_,lookup_mem htag,rfl⟩)
  · exact .inl hphysical
  · exact .inr ⟨hphysical,e.2,he⟩

/-- A file is of one interface. -/
theorem file_apart (hclean : (schema zones).validateTree config = []) (hfree : ¬NameTaken config)
    {kind' name' file : String} {node' : Node} (hget : config.get (interface kind name) = some node)
    (hget' : config.get (interface kind' name') = some node') (hfile : file ∈ ownFiles kind name)
    (hfile' : file ∈ ownFiles kind' name') : kind = kind' ∧ name = name' := by
  unfold ownFiles at hfile hfile'
  obtain hkind | ⟨hkind,device,hdevice⟩ := kind_cases hclean hget
  · obtain hkind' | ⟨hkind',-⟩ := kind_cases hclean hget'
    · have hname : name = name' := by
        rw [if_pos hkind,List.mem_pair] at hfile
        rw [if_pos hkind',List.mem_pair] at hfile'
        obtain rfl | rfl := hfile
        all_goals
          obtain h | h := hfile'
          all_goals exact (physicalFile_injective (by decide) (by decide) h).1
      subst hname
      exact ⟨physical_unique hclean hfree hkind hkind' hget hget',rfl⟩
    · exfalso
      rw [if_pos hkind,List.mem_pair] at hfile
      rw [if_neg hkind',List.mem_pair] at hfile'
      obtain rfl | rfl := hfile
      all_goals
        obtain h | h := hfile'
        all_goals exact physicalFile_ne h
  · obtain hkind' | ⟨hkind',device',hdevice'⟩ := kind_cases hclean hget'
    · exfalso
      rw [if_neg hkind,List.mem_pair] at hfile
      rw [if_pos hkind',List.mem_pair] at hfile'
      obtain rfl | rfl := hfile
      all_goals
        obtain h | h := hfile'
        all_goals exact physicalFile_ne h.symm
    · have hname : name = name' := by
        rw [if_neg hkind,List.mem_pair] at hfile
        rw [if_neg hkind',List.mem_pair] at hfile'
        obtain rfl | rfl := hfile
        all_goals
          obtain h | h := hfile'
          all_goals exact (virtualFile_injective (by decide) (by decide) h).1
      subst hname
      exact ⟨virtual_unique hclean hdevice hdevice' hget hget',rfl⟩

theorem not_physical : ∀ e ∈ VIRTUAL, e.1 ∉ PHYSICAL := by decide

theorem device_unique : ∀ e ∈ VIRTUAL, ∀ d ∈ VIRTUAL, e.1 = d.1 → e.2 = d.2 := by decide

theorem own_of_written {file text : String}
    (h : Writes config kind name node file text) :
    file ∈ ownFiles kind name := by
  unfold ownFiles
  obtain ⟨hkind,rfl,-⟩ | ⟨device,hdevice,⟨rfl,-⟩ | ⟨rfl,-⟩⟩ := h
  · simp [hkind]
  · simp [not_physical _ hdevice]
  · simp [not_physical _ hdevice]

/-- No file is written twice with different contents. -/
theorem networkdFiles_unique (hclean : (schema zones).validateTree config = []) (hfree : ¬NameTaken config)
    {file text text' : String} (h : (file,text) ∈ networkdFiles config) (h' : (file,text') ∈ networkdFiles config) :
    text' = text := by
  obtain ⟨kind,name,node,hget,hfile⟩ := mem_networkdFiles.mp h
  obtain ⟨kind',name',node',hget',hfile'⟩ := mem_networkdFiles.mp h'
  obtain ⟨rfl,rfl⟩ := file_apart hclean hfree hget hget' (own_of_written hfile) (own_of_written hfile')
  rw [hget] at hget'
  cases hget'
  obtain ⟨hkind,-,rfl⟩ | ⟨device,hdevice,hfile⟩ := hfile
  · obtain ⟨-,-,rfl⟩ | ⟨device',hdevice',-⟩ := hfile'
    · rfl
    · exact absurd hkind (not_physical _ hdevice')
  · obtain ⟨hkind,-⟩ | ⟨device',hdevice',hfile'⟩ := hfile'
    · exact absurd hkind (not_physical _ hdevice)
    · obtain rfl : device = device' := device_unique _ hdevice _ hdevice' rfl
      obtain ⟨rfl,rfl⟩ | ⟨rfl,rfl⟩ := hfile
      · obtain ⟨-,rfl⟩ | ⟨hname,-⟩ := hfile'
        · rfl
        · exact absurd (virtualFile_injective (by decide) (by decide) hname).2 (by decide)
      · obtain ⟨hname,-⟩ | ⟨-,rfl⟩ := hfile'
        · exact absurd (virtualFile_injective (by decide) (by decide) hname).2 (by decide)
        · rfl

theorem linkFiles_unique (hclean : (schema zones).validateTree config = []) (hfree : ¬NameTaken config)
    {file text text' : String} (h : (file,text) ∈ linkFiles config) (h' : (file,text') ∈ linkFiles config) :
    text' = text := by
  obtain ⟨kind,hkind,name,node,hget,rfl,hlink⟩ := mem_linkFiles.mp h
  obtain ⟨kind',hkind',name',node',hget',hfile,hlink'⟩ := mem_linkFiles.mp h'
  obtain ⟨rfl,-⟩ := physicalFile_injective (by decide) (by decide) hfile
  obtain rfl := physical_unique hclean hfree hkind hkind' hget hget'
  rw [hget] at hget'
  cases hget'
  exact Option.some.inj (hlink'.symm.trans hlink)

/-! ### Completeness -/

/-- The octets of an address. -/
def octets (mac : String) : List ℕ :=
  (Value.split ':' mac).map (fun p => p.foldl (fun n c => n*16 + (Lexer.toDigit c).getD 0) 0)

/-- Interfaces are rendered completely and without collision. -/
structure Complete (config : ConfigTree) (artifacts : Artifacts) : Prop where
  /-- Each interface has a file that says what is configured of it. -/
  configured : ∀ kind name, config.contains (interface kind name) →
    ∃ text, (files artifacts).get? (networkName kind name) = some text ∧ Configures config kind name text
  /-- Each virtual one has a file that makes it. -/
  created : ∀ kind device name, (kind,device) ∈ VIRTUAL → config.contains (interface kind name) →
    ∃ text, (files artifacts).get? (virtualFile name "netdev") = some text ∧
      stated text "NetDev" "Name" = [name] ∧ stated text "NetDev" "Kind" = [device]
  /-- No two share a file. -/
  apart : ∀ kind kind' name name' file, config.contains (interface kind name) →
    config.contains (interface kind' name') → file ∈ ownFiles kind name → file ∈ ownFiles kind' name' →
      kind = kind' ∧ name = name'
  /-- No two files configure one interface. -/
  matched : ∀ file file' text text' name, (files artifacts).get? file = some text →
    (files artifacts).get? file' = some text' → name ∈ stated text "Match" "Name" →
      name ∈ stated text' "Match" "Name" → file = file'
  /-- No two files make one device. -/
  devices : ∀ file file' text text' name, (files artifacts).get? file = some text →
    (files artifacts).get? file' = some text' → name ∈ stated text "NetDev" "Name" →
      name ∈ stated text' "NetDev" "Name" → file = file'
  /-- No two files are for one port. -/
  ports : ∀ file file' text text' mac mac', (links artifacts).get? file = some text →
    (links artifacts).get? file' = some text' → mac ∈ stated text "Match" "PermanentMACAddress" →
      mac' ∈ stated text' "Match" "PermanentMACAddress" → octets mac = octets mac' → file = file'
  /-- What is referred to is made. -/
  references : ∀ file text, (files artifacts).get? file = some text → ∀ key ∈ ["Bond","Bridge","VLAN","VXLAN"],
    ∀ name ∈ stated text "Network" key, ∃ text', (files artifacts).get? (virtualFile name "netdev") = some text' ∧
      stated text' "NetDev" "Name" = [name]

/-- No two ports are given by one address. -/
def PortsApart (config : ConfigTree) : Prop :=
  ∀ name name' mac mac', config.Holds (Shipped.setting "ethernet" name "hw-id") mac →
    config.Holds (Shipped.setting "ethernet" name' "hw-id") mac' → octets mac = octets mac' → name = name'

section Rendered
variable {artifacts : Artifacts} (hclean : (schema zones).validateTree config = [])
  (hrender : render config = .ok artifacts)
include hclean hrender

/-- What was rendered is what was written, where nothing is written twice. -/
theorem get?_files (hfree : ¬NameTaken config) {file text : String} :
    (files artifacts).get? file = some text ↔ (file,text) ∈ networkdFiles config := by
  rw [(files_of_render hrender).1]
  constructor
  · exact fun h => SortedMap.mem_of_get?_insertAll h
  · exact fun h => SortedMap.get?_insertAll_of_unique h (fun w hw => networkdFiles_unique hclean hfree h hw)

theorem get?_links (hfree : ¬NameTaken config) {file text : String} :
    (links artifacts).get? file = some text ↔ (file,text) ∈ linkFiles config := by
  rw [(files_of_render hrender).2]
  constructor
  · exact fun h => SortedMap.mem_of_get?_insertAll h
  · exact fun h => SortedMap.get?_insertAll_of_unique h (fun w hw => linkFiles_unique hclean hfree h hw)

variable (hcross : (schema zones).checkConstraints config = [])
include hcross

theorem rendered_configured (hfree : ¬NameTaken config) (hget : config.get (interface kind name) = some node) :
    ∃ text, (files artifacts).get? (networkName kind name) = some text ∧ Configures config kind name text := by
  refine ⟨networkFile name node (Attachments.of config),(get?_files hclean hrender hfree).mpr ?_,
    networkFile_configures hclean hcross hget⟩
  rw [mem_networkdFiles]
  refine ⟨kind,name,node,hget,?_⟩
  unfold networkName
  obtain hkind | ⟨hkind,device,hdevice⟩ := kind_cases hclean hget
  · exact .inl ⟨hkind,if_pos hkind,rfl⟩
  · exact .inr ⟨device,hdevice,.inr ⟨if_neg hkind,rfl⟩⟩

omit hcross in
theorem rendered_created (hfree : ¬NameTaken config) {device : String} (hdevice : (kind,device) ∈ VIRTUAL)
    (hget : config.get (interface kind name) = some node) :
    ∃ text, (files artifacts).get? (virtualFile name "netdev") = some text ∧
      stated text "NetDev" "Name" = [name] ∧ stated text "NetDev" "Kind" = [device] := by
  have hstated := stated_netdevFile hclean hget hdevice
  refine ⟨netdevFile device name node,(get?_files hclean hrender hfree).mpr ?_,?_⟩
  · exact mem_networkdFiles.mpr ⟨kind,name,node,hget,.inr ⟨device,hdevice,.inl ⟨rfl,rfl⟩⟩⟩
  · simp [hstated,netdevEntries]

theorem rendered_references (hfree : ¬NameTaken config) {file text key : String}
    (hfile : (files artifacts).get? file = some text) (hkey : key ∈ ["Bond","Bridge","VLAN","VXLAN"]) {v : String}
    (hv : v ∈ stated text "Network" key) : ∃ text', (files artifacts).get? (virtualFile v "netdev") = some text' ∧
      stated text' "NetDev" "Name" = [v] := by
  have hmade : ∀ {kind leaf value : String}, (∃ device, (kind,device) ∈ VIRTUAL) →
      config.Holds (Shipped.setting kind v leaf) value → ∃ text',
        (files artifacts).get? (virtualFile v "netdev") = some text' ∧ stated text' "NetDev" "Name" = [v] := by
    intro kind leaf value hvirtual hholds
    obtain ⟨device,hdevice⟩ := hvirtual
    obtain ⟨node,hget⟩ := interface_of_holds hholds
    obtain ⟨text',htext,hname,-⟩ := rendered_created hclean hrender hfree hdevice hget
    exact ⟨text',htext,hname⟩
  obtain ⟨kind,name,node,hget,hwrites⟩ := mem_networkdFiles.mp ((get?_files hclean hrender hfree).mp hfile)
  have hnetwork : text = networkFile name node (Attachments.of config) := by
    obtain ⟨-,-,rfl⟩ | ⟨device,hdevice,⟨-,rfl⟩ | ⟨-,rfl⟩⟩ := hwrites
    · rfl
    · rw [stated_netdevFile hclean hget hdevice] at hv
      simp [netdevEntries] at hv
    · rfl
  have hnames := networkFile_configures hclean hcross hget
  rw [← hnetwork] at hnames
  simp only [List.mem_cons,List.not_mem_nil,or_false] at hkey
  obtain rfl | rfl | rfl | rfl := hkey
  · exact hmade ⟨"bond",by decide⟩ ((hnames.bond v).mp hv)
  · exact hmade ⟨"bridge",by decide⟩ ((hnames.bridge v).mp hv)
  · exact hmade ⟨"vlan",by decide⟩ ((hnames.vlans v).mp hv)
  · exact hmade ⟨"vxlan",by decide⟩ ((hnames.vxlans v).mp hv)

omit hcross in
/-- A device is made where its name says. -/
theorem rendered_device (hfree : ¬NameTaken config) {file text v : String}
    (hfile : (files artifacts).get? file = some text) (hv : v ∈ stated text "NetDev" "Name") :
    file = virtualFile v "netdev" := by
  obtain ⟨kind,name,node,hget,hwrites⟩ := mem_networkdFiles.mp ((get?_files hclean hrender hfree).mp hfile)
  have hnetwork : stated (networkFile name node (Attachments.of config)) "NetDev" "Name" = [] := by
    rw [stated_networkFile hclean hget]
    simp [networkEntries]
  obtain ⟨-,-,rfl⟩ | ⟨device,hdevice,⟨rfl,rfl⟩ | ⟨-,rfl⟩⟩ := hwrites
  · rw [hnetwork] at hv
    cases hv
  · rw [stated_netdevFile hclean hget hdevice] at hv
    simp [netdevEntries] at hv
    rw [hv]
  · rw [hnetwork] at hv
    cases hv

omit hcross in
/-- The address in a `.link` is that of its port. -/
theorem rendered_port (hfree : ¬NameTaken config) {file text mac : String}
    (hfile : (links artifacts).get? file = some text) (hmac : mac ∈ stated text "Match" "PermanentMACAddress") :
    ∃ name, file = physicalFile name "link" ∧ config.Holds (Shipped.setting "ethernet" name "hw-id") mac := by
  obtain ⟨kind,hkind,name,node,hget,rfl,hlink⟩ := mem_linkFiles.mp ((get?_links hclean hrender hfree).mp hfile)
  rw [stated_linkFile hclean hget hlink,valuesOf_port] at hmac
  have hholds := (leaf_iff hclean hget (by decide)).mp (Option.mem_toList.mp hmac)
  obtain ⟨m,vs,hset,-,-⟩ := get_of_holds hholds
  obtain ⟨tag,child,htag,hchild,-⟩ := setting_placed hclean hset
  simp only [PHYSICAL,List.mem_cons,List.not_mem_nil,or_false] at hkind
  obtain rfl | rfl := hkind
  · exact ⟨name,rfl,hholds⟩
  · cases htag
    cases hchild

end Rendered

/-! ### The check -/

/-- The interface that a file is for. -/
def matchedName (text : String) : Option String :=
  ((settings text).get? (toLex ("Match","Name"))).bind List.head?

/-- The files that the check looks into. -/
def isNetwork (file : String) : Bool := ".network".toList.isSuffixOf file.toList

theorem isNetwork_iff {file : String} : isNetwork file = true ↔ ".network".toList <:+ file.toList :=
  List.isSuffixOf_iff_suffix

/-- What the check asks of the files that it has still to look into. -/
structure Passes (devices : List String) (claimed : SortedMap String String) (es : List (String × String)) :
    Prop where
  unclaimed : ∀ e ∈ es, isNetwork e.1 → ∀ v ∈ matchedName e.2, claimed.get? v = none
  apart : es.Pairwise (fun e d => isNetwork e.1 → isNetwork d.1 → ∀ v ∈ matchedName e.2, v ∉ matchedName d.2)
  made : ∀ e ∈ es, isNetwork e.1 → ∀ r ∈ references (settings e.2), r.2 ∈ devices

/-- The names that are taken once a file has been looked into. -/
def claim (claimed : SortedMap String String) (e : String × String) : SortedMap String String :=
  match matchedName e.2 with
  | some v => claimed.insert v e.1
  | none => claimed

theorem get?_claim {claimed : SortedMap String String} {e : String × String} {v : String} :
    (claim claimed e).get? v = none ↔ v ∉ matchedName e.2 ∧ claimed.get? v = none := by
  unfold claim
  cases matchedName e.2 with
  | none => simp
  | some w =>
    simp only [SortedMap.get?_insert,Option.mem_some_iff]
    by_cases hsame : v = w
    · simp [hsame]
    · simp [hsame,Ne.symm hsame]

section Passes
variable {devices : List String} {claimed : SortedMap String String} {e : String × String}
  {es : List (String × String)}

theorem passes_skip (hskip : ¬isNetwork e.1) : Passes devices claimed (e::es) ↔ Passes devices claimed es := by
  constructor
  · exact fun h => ⟨fun d hd => h.unclaimed d (.tail _ hd),(List.pairwise_cons.mp h.apart).2,
      fun d hd => h.made d (.tail _ hd)⟩
  · intro h
    refine ⟨fun d hd hthis => ?_,.cons (fun d _ hthis => absurd hthis hskip) h.apart,fun d hd hthis => ?_⟩
    · obtain rfl | hd := List.mem_cons.mp hd
      · exact absurd hthis hskip
      · exact h.unclaimed d hd hthis
    · obtain rfl | hd := List.mem_cons.mp hd
      · exact absurd hthis hskip
      · exact h.made d hd hthis

theorem passes_cons (hnetwork : isNetwork e.1) : Passes devices claimed (e::es) ↔
    (∀ v ∈ matchedName e.2, claimed.get? v = none) ∧ (∀ r ∈ references (settings e.2), r.2 ∈ devices) ∧
      Passes devices (claim claimed e) es := by
  constructor
  · intro h
    refine ⟨h.unclaimed e (.head _) hnetwork,h.made e (.head _) hnetwork,fun d hd hthis v hv => ?_,
      (List.pairwise_cons.mp h.apart).2,fun d hd => h.made d (.tail _ hd)⟩
    have hother := (List.pairwise_cons.mp h.apart).1 d hd hnetwork hthis
    exact get?_claim.mpr ⟨fun he => hother v he hv,h.unclaimed d (.tail _ hd) hthis v hv⟩
  · rintro ⟨hunclaimed,hmade,hrest⟩
    refine ⟨fun d hd hthis v hv => ?_,.cons (fun d hd _ hthis v hv hv' => ?_) hrest.apart,fun d hd hthis => ?_⟩
    · obtain rfl | hd := List.mem_cons.mp hd
      · exact hunclaimed v hv
      · exact (get?_claim.mp (hrest.unclaimed d hd hthis v hv)).2
    · exact (get?_claim.mp (hrest.unclaimed d hd hthis v hv')).1 hv
    · obtain rfl | hd := List.mem_cons.mp hd
      · exact hmade
      · exact hrest.made d hd hthis

/-- Files that pass are for different interfaces and point at what is made. -/
theorem checkNetworks_iff : checkNetworks devices claimed es = .ok () ↔ Passes devices claimed es := by
  induction es generalizing claimed with
  | nil => exact ⟨fun _ => ⟨nofun,.nil,nofun⟩,fun _ => rfl⟩
  | cons e es ih =>
    obtain ⟨name,contents⟩ := e
    unfold checkNetworks
    by_cases hnetwork : isNetwork name
    · have hlook : ¬((!".network".toList.isSuffixOf name.toList) = true) := by
        rewrite [show ".network".toList.isSuffixOf name.toList = true from hnetwork]
        exact nofun
      rw [if_neg hlook,@passes_cons devices claimed (name,contents) es hnetwork,← ih]
      dsimp only
      rw [show ((settings contents).get? (toLex ("Match","Name"))).bind List.head? = matchedName contents from rfl]
      unfold claim
      dsimp only
      cases hfind : (references (settings contents)).find? (fun r => r.2 ∉ devices) with
      | none =>
        have hmade : ∀ r ∈ references (settings contents), r.2 ∈ devices := by
          simpa using List.find?_eq_none.mp hfind
        cases hmatched : matchedName contents with
        | none => simpa using fun _ => hmade
        | some v =>
          cases hclaimed : claimed.get? v with
          | none => simpa [hclaimed] using fun _ => hmade
          | some other => simp [hclaimed]
      | some r =>
        have hr : r.2 ∉ devices := by simpa using List.find?_some hfind
        have hnot : (∀ r ∈ references (settings contents), r.2 ∈ devices) ↔ False :=
          iff_false_intro (fun hall => hr (hall r (List.mem_of_find?_eq_some hfind)))
        rw [hnot]
        cases hmatched : matchedName contents with
        | none => simp
        | some v =>
          cases hclaimed : claimed.get? v with
          | none => simp [hclaimed]
          | some other => simp [hclaimed]
    · have hskip : (!".network".toList.isSuffixOf name.toList) = true := by
        rewrite [show ".network".toList.isSuffixOf name.toList = false from Bool.eq_false_iff.mpr hnetwork]
        rfl
      rw [if_pos hskip,@passes_skip devices claimed (name,contents) es hnetwork,ih]

end Passes

theorem matchedName_eq (text : String) : matchedName text = (stated text "Match" "Name").head? := by
  unfold matchedName stated
  cases (settings text).get? (toLex ("Match","Name")) <;> rfl

/-- The devices that files are for. -/
def devicesOf (artifacts : Artifacts) : List String :=
  ((files artifacts).keys.filterMap device).foldl (fun out device => insertElem device out) []

theorem check_iff {artifacts : Artifacts} : check artifacts = .ok () ↔
    Passes (devicesOf artifacts) SortedMap.empty (files artifacts).entries ∧
      ∀ device ∈ devicesOf artifacts, ((files artifacts).get? (virtualFile device "network")).isSome := by
  rw [← checkNetworks_iff]
  unfold check
  dsimp only
  rw [show ((files artifacts).keys.filterMap device).foldl (fun out device => insertElem device out) [] =
    devicesOf artifacts from rfl]
  cases hnetworks : checkNetworks (devicesOf artifacts) SortedMap.empty (files artifacts).entries with
  | error e => simp
  | ok u =>
    cases hfind : (devicesOf artifacts).find? (fun d => ((files artifacts).get? (virtualFile d "network")).isNone) with
    | none => simpa [Option.isSome_iff_ne_none] using List.find?_eq_none.mp hfind
    | some d =>
      have hnone := List.find?_some hfind
      have hmem := List.mem_of_find?_eq_some hfind
      simp only [reduceCtorEq,true_and,false_iff,not_forall]
      exact ⟨d,hmem,by simpa using hnone⟩

theorem check_apart {artifacts : Artifacts} (h : check artifacts = .ok ()) {file file' text text' v : String}
    (hfile : (files artifacts).get? file = some text) (hfile' : (files artifacts).get? file' = some text')
    (hnetwork : isNetwork file) (hnetwork' : isNetwork file') (hv : matchedName text = some v)
    (hv' : matchedName text' = some v) : file = file' := by
  have hpasses := (check_iff.mp h).1
  have hmem := SortedMap.get?_eq_some_iff.mp hfile
  have hmem' := SortedMap.get?_eq_some_iff.mp hfile'
  have hsymm : Std.Symm (fun e d : String × String => isNetwork e.1 = true → isNetwork d.1 = true →
      ∀ v ∈ matchedName e.2, v ∉ matchedName d.2) :=
    ⟨fun e d happart hd he v hvd hve => happart he hd v hve hvd⟩
  by_contra hne
  have hentries : (file,text) ≠ (file',text') := fun he => hne (Prod.mk.inj he).1
  exact hpasses.apart.forall hmem hmem' hentries hnetwork hnetwork' v hv hv'

theorem isNetwork_networkName (kind name : String) : isNetwork (networkName kind name) := by
  unfold networkName
  rw [isNetwork_iff]
  split_ifs
  · rw [physicalFile_toList]
    exact ⟨'1':: '0':: '-':: 'n':: 's':: '-'::name.toList,by simp⟩
  · rw [virtualFile_toList]
    exact ⟨'2':: '0':: '-':: 'n':: 's':: '-'::name.toList,by simp⟩

/-- The file that matches a name is the one of an interface of that name. -/
theorem rendered_matched {artifacts : Artifacts} (hclean : (schema zones).validateTree config = [])
    (hrender : render config = .ok artifacts) (hfree : ¬NameTaken config) {file text v : String}
    (hfile : (files artifacts).get? file = some text) (hv : v ∈ stated text "Match" "Name") :
    matchedName text = some v ∧ ∃ kind, config.contains (interface kind v) ∧ file = networkName kind v := by
  obtain ⟨kind,name,node,hget,hwrites⟩ := mem_networkdFiles.mp ((get?_files hclean hrender hfree).mp hfile)
  have hname : stated (networkFile name node (Attachments.of config)) "Match" "Name" = [name] := by
    rw [stated_networkFile hclean hget]
    simp [networkEntries]
  have hthere : config.contains (interface kind name) := Option.isSome_iff_exists.mpr ⟨node,hget⟩
  rw [matchedName_eq]
  obtain ⟨hkind,rfl,rfl⟩ | ⟨device,hdevice,⟨rfl,rfl⟩ | ⟨rfl,rfl⟩⟩ := hwrites
  · rw [hname] at hv ⊢
    obtain rfl := List.mem_singleton.mp hv
    exact ⟨rfl,kind,hthere,(if_pos hkind).symm⟩
  · rw [stated_netdevFile hclean hget hdevice] at hv
    simp [netdevEntries] at hv
  · rw [hname] at hv ⊢
    obtain rfl := List.mem_singleton.mp hv
    exact ⟨rfl,kind,hthere,(if_neg (not_physical _ hdevice)).symm⟩

/-- No two interfaces go by one name. -/
def NamesApart (config : ConfigTree) : Prop :=
  ∀ kind kind' name, config.contains (interface kind name) → config.contains (interface kind' name) → kind = kind'

theorem device_netdev (name : String) : device (virtualFile name "netdev") = some name := by
  have htext : (virtualFile name "netdev").toList = ('2':: '0':: '-':: 'n':: 's':: '-'::name.toList) ++ ".netdev".toList := by
    rw [virtualFile_toList]
    simp
  have hstrip : stripSuffix ".netdev".toList (virtualFile name "netdev").toList =
      some ('2':: '0':: '-':: 'n':: 's':: '-'::name.toList) := by
    unfold stripSuffix
    rw [htext,if_pos (List.isSuffixOf_iff_suffix.mpr ⟨_,rfl⟩),List.length_append,Nat.add_sub_cancel,List.take_left]
  unfold device
  rw [hstrip]
  simp [splitOnce,managedMarker]

theorem device_network (kind name : String) : device (networkName kind name) = none := by
  have hother : ¬(".netdev".toList.isSuffixOf (networkName kind name).toList) := by
    rw [List.isSuffixOf_iff_suffix]
    intro hnetdev
    have hnetwork := isNetwork_iff.mp (isNetwork_networkName kind name)
    obtain h | h := List.suffix_or_suffix_of_suffix hnetdev hnetwork
    · exact absurd h (by decide)
    · exact absurd h (by decide)
  unfold device stripSuffix
  rw [if_neg hother]
  rfl

theorem mem_devicesOf {artifacts : Artifacts} {d : String} :
    d ∈ devicesOf artifacts ↔ ∃ file text, (files artifacts).get? file = some text ∧ device file = some d := by
  unfold devicesOf
  rw [mem_insertElems,List.mem_filterMap]
  simp only [List.not_mem_nil,or_false,SortedMap.mem_keys,Option.isSome_iff_exists]
  constructor
  · rintro ⟨file,⟨text,hfile⟩,hdevice⟩
    exact ⟨file,text,hfile,hdevice⟩
  · rintro ⟨file,text,hfile,hdevice⟩
    exact ⟨file,⟨text,hfile⟩,hdevice⟩

/-- Interfaces pass where no two of them go by one name. -/
theorem check_of_apart {artifacts : Artifacts} (hclean : (schema zones).validateTree config = [])
    (hcross : (schema zones).checkConstraints config = []) (hrender : render config = .ok artifacts)
    (hnames : NamesApart config) : check artifacts = .ok () := by
  have hfree : ¬NameTaken config := fun h => absurd (hnames _ _ _ h.1 h.2) (by decide)
  have hentry : ∀ e ∈ (files artifacts).entries, (files artifacts).get? e.1 = some e.2 := fun e he =>
    SortedMap.get?_eq_some_iff.mpr he
  have hmatched : ∀ e ∈ (files artifacts).entries, ∀ v ∈ matchedName e.2,
      ∃ kind, config.contains (interface kind v) ∧ e.1 = networkName kind v := by
    intro e he v hv
    rw [matchedName_eq] at hv
    exact (rendered_matched hclean hrender hfree (hentry e he) (List.mem_of_head? hv)).2
  rw [check_iff]
  refine ⟨⟨fun e he _ v hv => rfl,?_,?_⟩,?_⟩
  · refine (files artifacts).sorted.imp_of_mem (fun {e d} he hd hlt _ _ v hv hv' => ?_)
    obtain ⟨kind,hthere,hfile⟩ := hmatched e he v hv
    obtain ⟨kind',hthere',hfile'⟩ := hmatched d hd v hv'
    rw [hfile,hfile',hnames _ _ _ hthere hthere'] at hlt
    exact lt_irrefl _ hlt
  · intro e he _ r hr
    obtain ⟨key,hkey,hr⟩ := List.mem_flatMap.mp hr
    obtain ⟨d,hd,rfl⟩ := List.mem_map.mp hr
    obtain ⟨text,htext,-⟩ := rendered_references hclean hrender hcross hfree (hentry e he) hkey hd
    exact mem_devicesOf.mpr ⟨_,text,htext,device_netdev d⟩
  · intro d hd
    obtain ⟨file,text,hfile,hdevice⟩ := mem_devicesOf.mp hd
    obtain ⟨kind,name,node,hget,hwrites⟩ := mem_networkdFiles.mp ((get?_files hclean hrender hfree).mp hfile)
    obtain ⟨text',htext',-⟩ := rendered_configured hclean hrender hcross hfree hget
    have hnone := device_network kind name
    unfold networkName at htext' hnone
    obtain ⟨hkind,rfl,-⟩ | ⟨made,hmade,⟨rfl,-⟩ | ⟨rfl,-⟩⟩ := hwrites
    · rw [if_pos hkind,hdevice] at hnone
      cases hnone
    · rw [device_netdev] at hdevice
      cases hdevice
      rw [if_neg (not_physical _ hmade)] at htext'
      exact Option.isSome_iff_exists.mpr ⟨_,htext'⟩
    · rw [if_neg (not_physical _ hmade),hdevice] at hnone
      cases hnone

/-- The names of the interfaces of each kind are there to be compared. -/
theorem namesApart_of (hclean : (schema zones).validateTree config = [])
    (h : ∀ k ∈ tags.map Prod.fst, ∀ k' ∈ tags.map Prod.fst, ∀ n ∈ (instances config k).map Prod.fst,
      n ∈ (instances config k').map Prod.fst → k = k') : NamesApart config := by
  have hlisted : ∀ {k n : String}, config.contains (interface k n) →
      k ∈ tags.map Prod.fst ∧ n ∈ (instances config k).map Prod.fst := by
    intro k n hthere
    obtain ⟨node,hget⟩ := Option.isSome_iff_exists.mp hthere
    obtain ⟨tag,-,htag,-,-⟩ := name_checked hclean hget
    exact ⟨List.mem_map.mpr ⟨_,lookup_mem htag,rfl⟩,List.mem_map.mpr ⟨_,mem_instances.mpr hget,rfl⟩⟩
  intro kind kind' name hthere hthere'
  obtain ⟨hkind,hname⟩ := hlisted hthere
  obtain ⟨hkind',hname'⟩ := hlisted hthere'
  exact h kind hkind kind' hkind' name hname hname'

/-! ### When it is complete -/

theorem port_written {name mac : String} {artifacts : Artifacts} (hclean : (schema zones).validateTree config = [])
    (hrender : render config = .ok artifacts) (hfree : ¬NameTaken config)
    (h : config.Holds (Shipped.setting "ethernet" name "hw-id") mac) :
    ∃ text, (links artifacts).get? (physicalFile name "link") = some text ∧
      mac ∈ stated text "Match" "PermanentMACAddress" := by
  obtain ⟨node,hget⟩ := interface_of_holds h
  have hid := (leaf_iff hclean hget (by decide)).mpr h
  obtain ⟨text,hlink⟩ : ∃ text, linkFile name node = some text := by
    unfold linkFile
    rw [hid]
    exact ⟨_,rfl⟩
  refine ⟨text,(get?_links hclean hrender hfree).mpr ?_,?_⟩
  · exact mem_linkFiles.mpr ⟨"ethernet",by decide,name,node,hget,rfl,hlink⟩
  · rw [stated_linkFile hclean hget hlink,valuesOf_port,hid]
    exact List.mem_singleton.mpr rfl

/-- Interfaces that are accepted are rendered completely just where no two of them go by one name and
no two ports by one address. -/
theorem complete_iff (zones : List String) (config : ConfigTree) (artifacts : Artifacts)
    (hclean : (schema zones).validateTree config = []) (hcross : (schema zones).checkConstraints config = [])
    (hrender : render config = .ok artifacts) (hcheck : check artifacts = .ok ()) :
    Complete config artifacts ↔ ¬NameTaken config ∧ PortsApart config := by
  constructor
  · intro h
    have hfree : ¬NameTaken config := by
      rintro ⟨hport,hloopback⟩
      have hsame := h.apart "ethernet" "loopback" "lo" "lo" (physicalFile "lo" "network") hport hloopback
        (.head _) (.head _)
      exact absurd hsame.1 (by decide)
    refine ⟨hfree,fun name name' mac mac' hmac hmac' hoctets => ?_⟩
    obtain ⟨text,hlink,hstated⟩ := port_written hclean hrender hfree hmac
    obtain ⟨text',hlink',hstated'⟩ := port_written hclean hrender hfree hmac'
    have hfile := h.ports _ _ text text' mac mac' hlink hlink' hstated hstated' hoctets
    exact (physicalFile_injective (by decide) (by decide) hfile).1
  · rintro ⟨hfree,hports⟩
    constructor
    · intro kind name hthere
      obtain ⟨node,hget⟩ := Option.isSome_iff_exists.mp hthere
      exact rendered_configured hclean hrender hcross hfree hget
    · intro kind device name hdevice hthere
      obtain ⟨node,hget⟩ := Option.isSome_iff_exists.mp hthere
      exact rendered_created hclean hrender hfree hdevice hget
    · intro kind kind' name name' file hthere hthere' hfile hfile'
      obtain ⟨node,hget⟩ := Option.isSome_iff_exists.mp hthere
      obtain ⟨node',hget'⟩ := Option.isSome_iff_exists.mp hthere'
      exact file_apart hclean hfree hget hget' hfile hfile'
    · intro file file' text text' name hfile hfile' hname hname'
      obtain ⟨hmatched,kind,-,rfl⟩ := rendered_matched hclean hrender hfree hfile hname
      obtain ⟨hmatched',kind',-,rfl⟩ := rendered_matched hclean hrender hfree hfile' hname'
      exact check_apart hcheck hfile hfile' (isNetwork_networkName _ _) (isNetwork_networkName _ _) hmatched hmatched'
    · intro file file' text text' name hfile hfile' hname hname'
      rw [rendered_device hclean hrender hfree hfile hname,rendered_device hclean hrender hfree hfile' hname']
    · intro file file' text text' mac mac' hfile hfile' hmac hmac' hoctets
      obtain ⟨name,rfl,hholds⟩ := rendered_port hclean hrender hfree hfile hmac
      obtain ⟨name',rfl,hholds'⟩ := rendered_port hclean hrender hfree hfile' hmac'
      rw [hports name name' mac mac' hholds hholds' hoctets]
    · intro file text hfile key hkey name hname
      exact rendered_references hclean hrender hcross hfree hfile hkey hname

/-- A port and a network on it. -/
def trunk : ConfigTree :=
  [(Shipped.setting "ethernet" "eth0" "hw-id","02:00:5e:10:00:01"),(Shipped.setting "ethernet" "eth0" "mtu","9000"),
   (Shipped.setting "vlan" "vlan1" "parent","eth0"),(Shipped.setting "vlan" "vlan1" "id","10")].foldl
    (fun tree e => (tree.set e.1 e.2).2) .new

theorem trunk_complete_iff : ∃ artifacts, render trunk = .ok artifacts ∧
    (Complete trunk artifacts ↔ ¬NameTaken trunk ∧ PortsApart trunk) := by
  have hclean : (schema []).validateTree trunk = [] := by decide +kernel
  have hcross : (schema []).checkConstraints trunk = [] := by decide +kernel
  have hnames : NamesApart trunk := namesApart_of hclean (by decide +kernel)
  exact ⟨_,rfl,complete_iff [] trunk _ hclean hcross rfl (check_of_apart hclean hcross rfl hnames)⟩

/-- Two ports that are given by one address. -/
def twins : ConfigTree :=
  [(Shipped.setting "ethernet" "eth0" "hw-id","02:00:5e:10:00:01"),
   (Shipped.setting "ethernet" "eth1" "hw-id","02:00:5e:10:00:01")].foldl (fun tree e => (tree.set e.1 e.2).2) .new

theorem twins_claimed_twice : ∃ artifacts, (schema []).validateTree twins = [] ∧
    (schema []).checkConstraints twins = [] ∧ render twins = .ok artifacts ∧ check artifacts = .ok () ∧
    ¬Complete twins artifacts := by
  have hclean : (schema []).validateTree twins = [] := by decide +kernel
  have hcross : (schema []).checkConstraints twins = [] := by decide +kernel
  have hnames : NamesApart twins := namesApart_of hclean (by decide +kernel)
  have hfree : ¬NameTaken twins := fun h => absurd (hnames _ _ _ h.1 h.2) (by decide)
  refine ⟨_,hclean,hcross,rfl,check_of_apart hclean hcross rfl hnames,fun h => ?_⟩
  have hport : ∀ name ∈ ["eth0","eth1"], twins.Holds (Shipped.setting "ethernet" name "hw-id") "02:00:5e:10:00:01" := by
    intro name hname
    simp only [List.mem_cons,List.not_mem_nil,or_false] at hname
    obtain rfl | rfl := hname
    all_goals exact ⟨["02:00:5e:10:00:01"],by decide +kernel,by decide⟩
  obtain ⟨text,hlink,hmac⟩ := port_written hclean rfl hfree (hport "eth0" (by decide))
  obtain ⟨text',hlink',hmac'⟩ := port_written hclean rfl hfree (hport "eth1" (by decide))
  have hfile := h.ports _ _ text text' _ _ hlink hlink' hmac hmac' rfl
  exact absurd (physicalFile_injective (by decide) (by decide) hfile).1 (by decide)

end Nightshade.Render.Networkd
