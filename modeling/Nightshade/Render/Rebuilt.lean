import Mathlib
import Nightshade.Render.Complete

/-! Which devices are taken down for a new configuration: what the comparison of rendered files
finds, against what was fixed when they were created. -/
namespace Nightshade.Render.Networkd
open Foundation Schema Schema.Shipped

/-! ### Settings found by their keys alone -/

theorem setting_eq_get? {m : Settings} {sec key : String}
    (h : ∀ other values, m.get? (toLex (other,key)) = some values → other = sec) :
    setting m key = m.get? (toLex (sec,key)) := by
  unfold setting
  cases hfind : m.entries.find? (fun e => decide ((ofLex e.1).2 = key)) with
  | some e =>
    obtain ⟨name,values⟩ := e
    have hkey : (ofLex name).2 = key := by simpa using List.find?_some hfind
    have hname : name = toLex ((ofLex name).1,key) := by rw [← hkey]; rfl
    have hget : m.get? (toLex ((ofLex name).1,key)) = some values := by
      rw [← hname]
      exact SortedMap.get?_eq_some_iff.mpr (List.mem_of_find?_eq_some hfind)
    rw [← h _ values hget,hget]
    rfl
  | none =>
    cases hget : m.get? (toLex (sec,key)) with
    | none => rfl
    | some values =>
      have hno := List.find?_eq_none.mp hfind _ (SortedMap.get?_eq_some_iff.mp hget)
      exact absurd (decide_eq_true rfl) hno

/-- A key that is written in one section only is found there. -/
theorem setting_collect {es : List ((String × String) × String)} {sec key : String}
    (h : ∀ e ∈ es, e.1.2 = key → e.1.1 = sec) : setting (collect es) key = (collect es).get? (toLex (sec,key)) := by
  refine setting_eq_get? (fun other values hget => ?_)
  rw [collect_get?] at hget
  split_ifs at hget with hnone
  obtain ⟨v,hv⟩ := List.exists_mem_of_ne_nil _ hnone
  obtain ⟨e,he,hvalue⟩ := List.mem_filterMap.mp hv
  split_ifs at hvalue with hname
  have hsec := h e he (by rw [hname])
  rw [hname] at hsec
  exact hsec

/-! ### What two descriptions of a device differ in -/

/-- The keys of a `.netdev`, each in the one section that it stands in. -/
def NETDEV_KEYS : List (String × String) :=
  ["Name","Kind","Description","MTUBytes","MACAddress"].map (("NetDev",·)) ++ [("VLAN","Id")] ++
  ["Mode","TransmitHashPolicy","LACPTransmitRate","MinLinks","PrimarySlave"].map (("Bond",·)) ++
  ["STP","Priority","AgeingTimeSec"].map (("Bridge",·)) ++
  ["VNI","Remote","Group","Local","DestinationPort","TTL","Independent"].map (("VXLAN",·))

theorem mem_under {sec key : String} {values : List String} {e : (String × String) × String}
    (h : e ∈ under sec key values) : e.1 = (sec,key) := by
  obtain ⟨v,-,rfl⟩ := List.mem_map.mp h
  rfl

theorem netdevEntries_keys {device name : String} {node : Node} : ∀ e ∈ netdevEntries device name node,
    e.1 ∈ NETDEV_KEYS := by
  have hunder : ∀ {sec key : String} {values : List String}, (sec,key) ∈ NETDEV_KEYS →
      ∀ e ∈ under sec key values, e.1 ∈ NETDEV_KEYS := by
    intro sec key values hkey e he
    rw [mem_under he]
    exact hkey
  have hkind : ∀ e ∈ kindEntries device node, e.1 ∈ NETDEV_KEYS := by
    unfold kindEntries
    split_ifs
    · exact hunder (by decide)
    all_goals simp only [List.forall_mem_append]
    · exact ⟨⟨⟨⟨hunder (by decide),hunder (by decide)⟩,hunder (by decide)⟩,hunder (by decide)⟩,hunder (by decide)⟩
    · exact ⟨⟨hunder (by decide),hunder (by decide)⟩,hunder (by decide)⟩
    · exact ⟨⟨hunder (by decide),hunder (by decide)⟩,hunder (by decide)⟩
    · exact ⟨⟨⟨⟨⟨⟨hunder (by decide),hunder (by decide)⟩,hunder (by decide)⟩,hunder (by decide)⟩,hunder (by decide)⟩,
        hunder (by decide)⟩,hunder (by decide)⟩
    · exact ⟨⟨⟨⟨⟨⟨hunder (by decide),hunder (by decide)⟩,hunder (by decide)⟩,hunder (by decide)⟩,hunder (by decide)⟩,
        hunder (by decide)⟩,nofun⟩
  unfold netdevEntries
  simp only [List.forall_mem_append]
  exact ⟨⟨⟨⟨⟨hunder (by decide),hunder (by decide)⟩,hunder (by decide)⟩,hunder (by decide)⟩,hunder (by decide)⟩,hkind⟩

variable {config s t : ConfigTree} {kind device name : String} {node node' : Node} {zones : List String}

/-- A list of values as a table has it: none rather than an empty one. -/
def listed (values : List String) : Option (List String) := if values = [] then none else some values

theorem listed_inj {vs ws : List String} : listed vs = listed ws ↔ vs = ws := by
  unfold listed
  split_ifs with hv hw hw
  · simp [hv,hw]
  · simp [hv,Ne.symm hw]
  · simp [hw,hv]
  · simp

section Compared
variable (hs : (schema zones).validateTree s = []) (ht : (schema zones).validateTree t = [])
  (hdevice : (kind,device) ∈ VIRTUAL)
include hdevice

theorem setting_netdevFile (hclean : (schema zones).validateTree config = [])
    (hget : config.get (interface kind name) = some node) {sec key : String}
    (hkey : ∀ k ∈ NETDEV_KEYS, k.2 = key → k.1 = sec) :
    setting (settings (netdevFile device name node)) key =
      listed (valuesOf (netdevEntries device name node) sec key) := by
  obtain ⟨ini,hout,last,hwrote⟩ := wrote_netdevFile hclean hget hdevice
  rw [hout,hwrote.settings,setting_collect (fun e he hname => hkey e.1 (netdevEntries_keys e he) hname),collect_get?]
  rfl

theorem kindOf_netdevFile (hclean : (schema zones).validateTree config = [])
    (hget : config.get (interface kind name) = some node) : kindOf (netdevFile device name node) = some device := by
  obtain ⟨ini,hout,last,hwrote⟩ := wrote_netdevFile hclean hget hdevice
  have hkind : valuesOf (netdevEntries device name node) "NetDev" "Kind" = [device] := by simp [netdevEntries]
  unfold kindOf
  rw [hout,hwrote.settings,collect_get?,hkind]
  rfl

include hs ht

/-- Two descriptions of a device are compared by the settings that are watched for its kind. -/
theorem needsRecreating_iff {watched : List String} (hwatched : RECREATE.lookup device = some watched)
    (hget : s.get (interface kind name) = some node) (hget' : t.get (interface kind name) = some node') :
    needsRecreating (netdevFile device name node) (netdevFile device name node') = true ↔
      ∃ k ∈ NETDEV_KEYS.filter (fun k => k.2 ∈ watched),
        valuesOf (netdevEntries device name node) k.1 k.2 ≠ valuesOf (netdevEntries device name node') k.1 k.2 := by
  have hone : ∀ e ∈ RECREATE, ∀ key ∈ e.2, ∃ k ∈ NETDEV_KEYS, k.2 = key := by decide
  have hsole : ∀ e ∈ RECREATE, ∀ key ∈ e.2, ∀ k ∈ NETDEV_KEYS, k.2 = key → ∀ j ∈ NETDEV_KEYS, j.2 = key → j.1 = k.1 := by
    decide
  have hcompared : ∀ k ∈ NETDEV_KEYS, k.2 ∈ watched →
      (setting (settings (netdevFile device name node)) k.2 ≠ setting (settings (netdevFile device name node')) k.2 ↔
        valuesOf (netdevEntries device name node) k.1 k.2 ≠ valuesOf (netdevEntries device name node') k.1 k.2) := by
    intro k hk hkey
    have hsec := hsole _ (lookup_mem hwatched) k.2 hkey k hk rfl
    rw [setting_netdevFile hdevice hs hget hsec,setting_netdevFile hdevice ht hget' hsec,ne_eq,listed_inj]
  unfold needsRecreating
  rw [kindOf_netdevFile hdevice hs hget,kindOf_netdevFile hdevice ht hget']
  simp only [ne_eq,not_true_eq_false,if_false,hwatched,List.any_eq_true,decide_eq_true_eq,List.mem_filter]
  constructor
  · rintro ⟨key,hkey,hne⟩
    obtain ⟨k,hk,rfl⟩ := hone _ (lookup_mem hwatched) key hkey
    exact ⟨k,⟨hk,hkey⟩,(hcompared k hk hkey).mp hne⟩
  · rintro ⟨k,⟨hk,hkey⟩,hne⟩
    exact ⟨k.2,hkey,(hcompared k hk hkey).mpr hne⟩

/-- The leaves of an interface that the comparison sees. -/
def SEEN : List (String × List String) :=
  [("vlan",["id"]),("bonding",["mode","hash-policy","lacp-rate"]),("bridge",[]),
   ("vxlan",["vni","remote","group","source-address","port","ttl"])]

omit hdevice hs ht in
theorem toList_inj {o o' : Option String} : o.toList = o'.toList ↔ o = o' := by
  cases o <;> cases o' <;> simp

theorem needsRecreating_leaves {leaves : List String} (hseen : SEEN.lookup kind = some leaves)
    (hget : s.get (interface kind name) = some node) (hget' : t.get (interface kind name) = some node') :
    needsRecreating (netdevFile device name node) (netdevFile device name node') = true ↔
      (∃ l ∈ leaves, leaf node l ≠ leaf node' l) ∨
      kind = "vxlan" ∧ (leaf node "source-interface").isNone ≠ (leaf node' "source-interface").isNone := by
  have hdevice' := hdevice
  simp only [VIRTUAL,List.mem_cons,Prod.mk.injEq,List.not_mem_nil,or_false] at hdevice'
  obtain ⟨rfl,rfl⟩ | ⟨rfl,rfl⟩ | ⟨rfl,rfl⟩ | ⟨rfl,rfl⟩ := hdevice'
  · cases hseen
    have hkeys : NETDEV_KEYS.filter (fun k => k.2 ∈ ["Id"]) = [("VLAN","Id")] := by decide
    rw [needsRecreating_iff hs ht hdevice rfl hget hget',hkeys]
    simp [netdevEntries,kindEntries,toList_inj]
  · cases hseen
    have hkeys : NETDEV_KEYS.filter (fun k => k.2 ∈ ["Mode","TransmitHashPolicy","LACPTransmitRate"]) =
        [("Bond","Mode"),("Bond","TransmitHashPolicy"),("Bond","LACPTransmitRate")] := by decide
    rw [needsRecreating_iff hs ht hdevice rfl hget hget',hkeys]
    simp [netdevEntries,kindEntries,toList_inj]
  · cases hseen
    have hkeys : NETDEV_KEYS.filter (fun k => k.2 ∈ ([] : List String)) = [] := by decide
    rw [needsRecreating_iff hs ht hdevice rfl hget hget',hkeys]
    simp
  · cases hseen
    have hkeys : NETDEV_KEYS.filter
        (fun k => k.2 ∈ ["VNI","Remote","Group","Local","DestinationPort","TTL","Independent"]) =
        [("VXLAN","VNI"),("VXLAN","Remote"),("VXLAN","Group"),("VXLAN","Local"),("VXLAN","DestinationPort"),
         ("VXLAN","TTL"),("VXLAN","Independent")] := by decide
    have halone : ((if leaf node "source-interface" = none then ["true"] else []) =
        if leaf node' "source-interface" = none then ["true"] else []) ↔
        (leaf node "source-interface").isNone = (leaf node' "source-interface").isNone := by
      cases leaf node "source-interface" <;> cases leaf node' "source-interface" <;> simp
    rw [needsRecreating_iff hs ht hdevice rfl hget hget',hkeys]
    simp [netdevEntries,kindEntries,toList_inj,halone,or_assoc]

end Compared

/-! ### Which devices go -/

section Recreations
variable {a b : Artifacts}

/-- What makes a device is in the one file that its name says. -/
theorem get?_netdev (hclean : (schema zones).validateTree config = []) (hrender : render config = .ok a)
    {text : String} : (files a).get? (virtualFile name "netdev") = some text ↔
      ∃ kind device node, (kind,device) ∈ VIRTUAL ∧ config.get (interface kind name) = some node ∧
        text = netdevFile device name node := by
  have hwritten : ∀ {text : String}, (virtualFile name "netdev",text) ∈ networkdFiles config ↔
      ∃ kind device node, (kind,device) ∈ VIRTUAL ∧ config.get (interface kind name) = some node ∧
        text = netdevFile device name node := by
    intro text
    rw [mem_networkdFiles]
    constructor
    · rintro ⟨kind,other,node,hget,⟨-,hfile,-⟩ | ⟨device,hdevice,⟨hfile,rfl⟩ | ⟨hfile,-⟩⟩⟩
      · exact (physicalFile_ne hfile.symm).elim
      · obtain ⟨rfl,-⟩ := virtualFile_injective (by decide) (by decide) hfile
        exact ⟨kind,device,node,hdevice,hget,rfl⟩
      · exact absurd (virtualFile_injective (by decide) (by decide) hfile).2 (by decide)
    · rintro ⟨kind,device,node,hdevice,hget,rfl⟩
      exact ⟨kind,name,node,hget,.inr ⟨device,hdevice,.inl ⟨rfl,rfl⟩⟩⟩
  rw [(files_of_render hrender).1]
  constructor
  · exact fun h => hwritten.mp (SortedMap.mem_of_get?_insertAll h)
  · intro h
    refine SortedMap.get?_insertAll_of_unique (hwritten.mpr h) (fun w hw => ?_)
    obtain ⟨kind,device,node,hdevice,hget,rfl⟩ := h
    obtain ⟨kind',device',node',hdevice',hget',rfl⟩ := hwritten.mp hw
    obtain rfl := virtual_unique hclean hdevice hdevice' hget hget'
    obtain rfl : device = device' := device_unique _ hdevice _ hdevice' rfl
    rw [hget] at hget'
    cases hget'
    rfl

theorem mem_recreations (hclean : (schema zones).validateTree config = []) (hrender : render config = .ok a) :
    name ∈ recreations (some a) b ↔ ∃ kind device node, (kind,device) ∈ VIRTUAL ∧
      config.get (interface kind name) = some node ∧
      ∀ text, (files b).get? (virtualFile name "netdev") = some text →
        needsRecreating (netdevFile device name node) text = true := by
  unfold recreations
  rw [mem_insertElems,List.mem_filterMap]
  simp only [List.not_mem_nil,or_false,Option.map_some,Option.getD_some]
  constructor
  · rintro ⟨⟨file,old⟩,hmem,hgone⟩
    obtain ⟨other,hother,hgone⟩ := Option.bind_eq_some_iff.mp hgone
    have hold := SortedMap.get?_eq_some_iff.mpr hmem
    have hfile : file = virtualFile other "netdev" := by
      rw [(files_of_render hrender).1] at hold
      obtain ⟨kind,n,node,hget,hwrites⟩ := mem_networkdFiles.mp (SortedMap.mem_of_get?_insertAll hold)
      have hnetwork : ∀ file, file = networkName kind n → device file = none := by
        rintro _ rfl
        exact device_network kind n
      dsimp only at hother hwrites
      obtain ⟨hkind,hfile,-⟩ | ⟨d,hd,⟨hfile,-⟩ | ⟨hfile,-⟩⟩ := hwrites
      · rw [hnetwork file (by rw [networkName,if_pos hkind,hfile])] at hother
        cases hother
      · rw [hfile,device_netdev] at hother
        rw [hfile,Option.some.inj hother]
      · rw [hnetwork file (by rw [networkName,if_neg (not_physical _ hd),hfile])] at hother
        cases hother
    subst hfile
    obtain ⟨kind,d,node,hd,hget,rfl⟩ := (get?_netdev hclean hrender).mp hold
    have hsame : other = name ∧ ∀ text, (files b).get? (virtualFile other "netdev") = some text →
        needsRecreating (netdevFile d other node) text = true := by
      dsimp only at hgone
      cases hnew : (files b).get? (virtualFile other "netdev") with
      | none =>
        rw [hnew] at hgone
        refine ⟨Option.some.inj hgone,fun text htext => ?_⟩
        cases htext
      | some new =>
        rw [hnew] at hgone
        dsimp only at hgone
        split_ifs at hgone with hneeds
        refine ⟨Option.some.inj hgone,fun text htext => ?_⟩
        rw [← Option.some.inj htext]
        exact hneeds
    obtain ⟨rfl,hneeds⟩ := hsame
    exact ⟨kind,d,node,hd,hget,hneeds⟩
  · rintro ⟨kind,d,node,hd,hget,hneeds⟩
    refine ⟨(virtualFile name "netdev",netdevFile d name node),SortedMap.get?_eq_some_iff.mp
      ((get?_netdev hclean hrender).mpr ⟨kind,d,node,hd,hget,rfl⟩),Option.bind_eq_some_iff.mpr ⟨name,device_netdev name,?_⟩⟩
    dsimp only
    cases hnew : (files b).get? (virtualFile name "netdev") with
    | none => rfl
    | some new => exact if_pos (hneeds new hnew)

end Recreations

/-! ### Which devices have to go -/

/-- The settings that are fixed when a device is created, by the kind of interface. -/
def FIXED : List (String × List String) :=
  [("vlan",["id","parent"]),("bonding",["mode","hash-policy","lacp-rate"]),("bridge",[]),
   ("vxlan",["vni","remote","group","source-address","source-interface","port","ttl"])]

/-- A setting of an interface has another value. -/
def Differs (s t : ConfigTree) (kind name leaf : String) : Prop :=
  ∃ v, ¬(s.Holds (Shipped.setting kind name leaf) v ↔ t.Holds (Shipped.setting kind name leaf) v)

/-- A device that is there has to go: it is no longer configured, or what was fixed is to be otherwise. -/
def HasToGo (s t : ConfigTree) (name : String) : Prop :=
  ∃ kind leaves, (kind,leaves) ∈ FIXED ∧ s.contains (interface kind name) ∧
    (¬t.contains (interface kind name) ∨ ∃ leaf ∈ leaves, Differs s t kind name leaf)

/-- A tunnel over one interface is to be over another. -/
def Moved (s t : ConfigTree) (name : String) : Prop :=
  ∃ v w, s.Holds (Shipped.setting "vxlan" name "source-interface") v ∧
    t.Holds (Shipped.setting "vxlan" name "source-interface") w ∧ v ≠ w

section Fixed
variable (hs : (schema zones).validateTree s = []) (ht : (schema zones).validateTree t = [])
  (hget : s.get (interface kind name) = some node) (hget' : t.get (interface kind name) = some node')
include hs ht hget hget'

theorem differs_iff {l : String} (hleaf : l ∉ ["address","disable","member","stp"]) :
    Differs s t kind name l ↔ leaf node l ≠ leaf node' l := by
  unfold Differs
  simp only [← leaf_iff hs hget hleaf,← leaf_iff ht hget' hleaf]
  rw [← not_forall,not_iff_not]
  exact ⟨fun h => Option.ext h,fun h v => by rw [h]⟩

/-- What the comparison finds is a change of a setting that it sees, or of whether a tunnel stands alone. -/
theorem needsRecreating_differs {leaves : List String} (hdevice : (kind,device) ∈ VIRTUAL)
    (hseen : SEEN.lookup kind = some leaves) :
    needsRecreating (netdevFile device name node) (netdevFile device name node') = true ↔
      (∃ l ∈ leaves, Differs s t kind name l) ∨
      kind = "vxlan" ∧ (leaf node "source-interface").isNone ≠ (leaf node' "source-interface").isNone := by
  have hsingle : ∀ e ∈ SEEN, ∀ l ∈ e.2, l ∉ ["address","disable","member","stp"] := by decide
  rw [needsRecreating_leaves hs ht hdevice hseen hget hget']
  refine or_congr_left (exists_congr (fun l => and_congr_right (fun hl => ?_)))
  exact (differs_iff hs ht hget hget' (hsingle _ (lookup_mem hseen) l hl)).symm

end Fixed

section Exact
variable {a b : Artifacts} (hs : (schema zones).validateTree s = []) (ht : (schema zones).validateTree t = [])
  (ha : render s = .ok a) (hb : render t = .ok b)
include hs ht ha hb

/-- A device goes when its interface does, or when the comparison finds a change. -/
theorem mem_recreations_iff (hdevice : (kind,device) ∈ VIRTUAL) (hget : s.get (interface kind name) = some node) :
    name ∈ recreations (some a) b ↔ ∀ node', t.get (interface kind name) = some node' →
      needsRecreating (netdevFile device name node) (netdevFile device name node') = true := by
  rw [mem_recreations hs ha]
  constructor
  · rintro ⟨kind',device',n,hdevice',hn,hneeds⟩ node' hget'
    obtain rfl := virtual_unique hs hdevice hdevice' hget hn
    obtain rfl : device = device' := device_unique _ hdevice _ hdevice' rfl
    rw [hget] at hn
    cases hn
    exact hneeds _ ((get?_netdev ht hb).mpr ⟨kind,device,node',hdevice,hget',rfl⟩)
  · intro hneeds
    refine ⟨kind,device,node,hdevice,hget,fun text htext => ?_⟩
    obtain ⟨kind',device',node',hdevice',hget',rfl⟩ := (get?_netdev ht hb).mp htext
    obtain rfl := virtual_kind hs ht hdevice hdevice' hget hget'
    obtain rfl : device = device' := device_unique _ hdevice _ hdevice' rfl
    exact hneeds node' hget'

omit ht ha hb in
theorem hasToGo_iff {leaves : List String} (hdevice : (kind,device) ∈ VIRTUAL) (hfixed : (kind,leaves) ∈ FIXED)
    (hget : s.get (interface kind name) = some node) :
    HasToGo s t name ↔ ∀ node', t.get (interface kind name) = some node' →
      ∃ leaf ∈ leaves, Differs s t kind name leaf := by
  have hvirtual : ∀ e ∈ FIXED, ∃ d ∈ VIRTUAL, d.1 = e.1 := by decide
  have hone : ∀ e ∈ FIXED, ∀ d ∈ FIXED, e.1 = d.1 → e.2 = d.2 := by decide
  constructor
  · rintro ⟨kind',leaves',hfixed',hthere,hgone⟩ node' hget'
    obtain ⟨n,hn⟩ := Option.isSome_iff_exists.mp hthere
    obtain ⟨d,hd,hkind⟩ := hvirtual _ hfixed'
    obtain rfl : kind = kind' := (virtual_unique hs hdevice hd hget (by rw [hkind]; exact hn)).trans hkind
    obtain rfl : leaves = leaves' := hone _ hfixed _ hfixed' rfl
    obtain hgone | hdiffers := hgone
    · simp [ConfigTree.contains,hget'] at hgone
    · exact hdiffers
  · intro h
    refine ⟨kind,leaves,hfixed,Option.isSome_iff_exists.mpr ⟨node,hget⟩,?_⟩
    cases hget' : t.get (interface kind name) with
    | none => exact .inl (by simp [ConfigTree.contains,hget'])
    | some node' => exact .inr (h node' hget')

end Exact

/-- The devices that are taken down are those that have to go just where no network that keeps its number
gets another parent, and no tunnel that is otherwise kept gets another interface to go over. -/
theorem recreations_exact_iff (zones : List String) (s t : ConfigTree) (a b : Artifacts)
    (hs : (schema zones).validateTree s = []) (ht : (schema zones).validateTree t = [])
    (ha : render s = .ok a) (hb : render t = .ok b) :
    (∀ name, name ∈ recreations (some a) b ↔ HasToGo s t name) ↔
    (∀ name, s.contains (interface "vlan" name) → t.contains (interface "vlan" name) →
      Differs s t "vlan" name "parent" → Differs s t "vlan" name "id") ∧
    ∀ name, Moved s t name → ∃ leaf ∈ ["vni","remote","group","source-address","port","ttl"],
      Differs s t "vxlan" name leaf := by
  have hvlan : ("vlan","vlan") ∈ VIRTUAL := by decide
  have hvxlan : ("vxlan","vxlan") ∈ VIRTUAL := by decide
  have hvlanFixed : ("vlan",["id","parent"]) ∈ FIXED := by decide
  have hvxlanFixed : ("vxlan",["vni","remote","group","source-address","source-interface","port","ttl"]) ∈ FIXED := by
    decide
  constructor
  · intro h
    constructor
    · intro name hthere hthere' hparent
      obtain ⟨node,hget⟩ := Option.isSome_iff_exists.mp hthere
      obtain ⟨node',hget'⟩ := Option.isSome_iff_exists.mp hthere'
      have hgo : HasToGo s t name := (hasToGo_iff hs hvlan hvlanFixed hget).mpr
        (fun _ _ => ⟨"parent",by decide,hparent⟩)
      have hneeds := (mem_recreations_iff hs ht ha hb hvlan hget).mp ((h name).mpr hgo) node' hget'
      obtain ⟨l,hl,hdiffers⟩ | ⟨hkind,-⟩ := (needsRecreating_differs hs ht hget hget' hvlan rfl).mp hneeds
      · rwa [List.mem_singleton.mp hl] at hdiffers
      · exact absurd hkind (by decide)
    · rintro name ⟨v,w,hv,hw,hne⟩
      obtain ⟨node,hget⟩ := interface_of_holds hv
      obtain ⟨node',hget'⟩ := interface_of_holds hw
      have hleaf := (leaf_iff hs hget (by decide)).mpr hv
      have hleaf' := (leaf_iff ht hget' (by decide)).mpr hw
      have hsource : Differs s t "vxlan" name "source-interface" := by
        rw [differs_iff hs ht hget hget' (by decide),hleaf,hleaf']
        simpa using hne
      have hgo : HasToGo s t name :=
        (hasToGo_iff hs hvxlan hvxlanFixed hget).mpr (fun _ _ => ⟨"source-interface",by decide,hsource⟩)
      have hneeds := (mem_recreations_iff hs ht ha hb hvxlan hget).mp ((h name).mpr hgo) node' hget'
      obtain hdiffers | ⟨-,halone⟩ := (needsRecreating_differs hs ht hget hget' hvxlan rfl).mp hneeds
      · exact hdiffers
      · rw [hleaf,hleaf'] at halone
        exact absurd rfl halone
  · rintro ⟨hparents,hmoved⟩ name
    have hkept : ∀ {kind device : String} {seen fixed : List String} {node node' : Node}, (kind,device) ∈ VIRTUAL →
        SEEN.lookup kind = some seen → FIXED.lookup kind = some fixed → s.get (interface kind name) = some node →
        t.get (interface kind name) = some node' →
        (needsRecreating (netdevFile device name node) (netdevFile device name node') = true ↔
          ∃ leaf ∈ fixed, Differs s t kind name leaf) := by
      intro kind device seen fixed node node' hdevice hseen hfixed hget hget'
      rw [needsRecreating_differs hs ht hget hget' hdevice hseen]
      simp only [VIRTUAL,List.mem_cons,Prod.mk.injEq,List.not_mem_nil,or_false] at hdevice
      obtain ⟨rfl,rfl⟩ | ⟨rfl,rfl⟩ | ⟨rfl,rfl⟩ | ⟨rfl,rfl⟩ := hdevice
      · cases hseen
        cases hfixed
        have hid := hparents name (Option.isSome_iff_exists.mpr ⟨_,hget⟩) (Option.isSome_iff_exists.mpr ⟨_,hget'⟩)
        simpa using hid
      · cases hseen
        cases hfixed
        simp
      · cases hseen
        cases hfixed
        simp
      · cases hseen
        cases hfixed
        have hsource := differs_iff hs ht hget hget' (by decide : "source-interface" ∉ _)
        have hsplit : ∀ l ∈ ["vni","remote","group","source-address","source-interface","port","ttl"],
            l ∈ ["vni","remote","group","source-address","port","ttl"] ∨ l = "source-interface" := by decide
        have hsub : ∀ l ∈ ["vni","remote","group","source-address","port","ttl"],
            l ∈ ["vni","remote","group","source-address","source-interface","port","ttl"] := by decide
        constructor
        · rintro (⟨l,hl,hdiffers⟩ | ⟨-,halone⟩)
          · exact ⟨l,hsub l hl,hdiffers⟩
          · exact ⟨"source-interface",by decide,hsource.mpr (fun heq => halone (by rw [heq]))⟩
        · rintro ⟨l,hl,hdiffers⟩
          obtain hl | rfl := hsplit l hl
          · exact .inl ⟨l,hl,hdiffers⟩
          · rw [hsource] at hdiffers
            -- A tunnel that stood alone, or is to, is told apart; of others the comparison knows nothing.
            cases hleaf : leaf node "source-interface" with
            | none =>
              cases hleaf' : leaf node' "source-interface" with
              | none => exact absurd (hleaf.trans hleaf'.symm) hdiffers
              | some w => exact .inr ⟨rfl,by simp⟩
            | some v =>
              cases hleaf' : leaf node' "source-interface" with
              | none => exact .inr ⟨rfl,by simp⟩
              | some w =>
                rw [hleaf,hleaf'] at hdiffers
                exact .inl (hmoved name ⟨v,w,(leaf_iff hs hget (by decide)).mp hleaf,
                  (leaf_iff ht hget' (by decide)).mp hleaf',by simpa using hdiffers⟩)
    have htables : ∀ e ∈ VIRTUAL, (SEEN.lookup e.1).isSome ∧ (FIXED.lookup e.1).isSome := by decide
    have hsame : ∀ {kind device : String} {node : Node}, (kind,device) ∈ VIRTUAL →
        s.get (interface kind name) = some node → (name ∈ recreations (some a) b ↔ HasToGo s t name) := by
      intro kind device node hdevice hget
      obtain ⟨hseen,hfixed⟩ := htables _ hdevice
      obtain ⟨seen,hseen⟩ := Option.isSome_iff_exists.mp hseen
      obtain ⟨fixed,hfixed⟩ := Option.isSome_iff_exists.mp hfixed
      rw [mem_recreations_iff hs ht ha hb hdevice hget,hasToGo_iff hs hdevice (lookup_mem hfixed) hget]
      exact forall_congr' (fun node' => forall_congr' (fun hget' => hkept hdevice hseen hfixed hget hget'))
    constructor
    · intro hmem
      obtain ⟨kind,device,node,hdevice,hget,-⟩ := (mem_recreations hs ha).mp hmem
      exact (hsame hdevice hget).mp hmem
    · intro hgo
      have hvirtual : ∀ e ∈ FIXED, ∃ d ∈ VIRTUAL, d.1 = e.1 := by decide
      obtain ⟨kind,leaves,hfixed,hthere,-⟩ := id hgo
      obtain ⟨d,hd,rfl⟩ := hvirtual _ hfixed
      obtain ⟨node,hget⟩ := Option.isSome_iff_exists.mp hthere
      exact (hsame hd hget).mpr hgo

/-- Two ports, and a network on one of them. -/
def vlanOn (parent : String) : ConfigTree :=
  [(Shipped.setting "ethernet" "eth0" "mtu","9000"),(Shipped.setting "ethernet" "eth1" "mtu","9000"),
   (Shipped.setting "vlan" "vlan1" "id","10"),(Shipped.setting "vlan" "vlan1" "parent",parent)].foldl
    (fun tree e => (tree.set e.1 e.2).2) .new

theorem vlanOn_exact_iff : ∃ a b, render (vlanOn "eth0") = .ok a ∧ render (vlanOn "eth1") = .ok b ∧
    ((∀ name, name ∈ recreations (some a) b ↔ HasToGo (vlanOn "eth0") (vlanOn "eth1") name) ↔
      (∀ name, (vlanOn "eth0").contains (interface "vlan" name) → (vlanOn "eth1").contains (interface "vlan" name) →
        Differs (vlanOn "eth0") (vlanOn "eth1") "vlan" name "parent" →
          Differs (vlanOn "eth0") (vlanOn "eth1") "vlan" name "id") ∧
      ∀ name, Moved (vlanOn "eth0") (vlanOn "eth1") name →
        ∃ leaf ∈ ["vni","remote","group","source-address","port","ttl"],
          Differs (vlanOn "eth0") (vlanOn "eth1") "vxlan" name leaf) :=
  ⟨_,_,rfl,rfl,recreations_exact_iff [] _ _ _ _ (by decide +kernel) (by decide +kernel) rfl rfl⟩

/-- A network that is moved to another port has to go, and is left where it is. -/
theorem vlan_left_behind : ∃ a b, (schema []).validateTree (vlanOn "eth0") = [] ∧
    (schema []).checkConstraints (vlanOn "eth0") = [] ∧ (schema []).validateTree (vlanOn "eth1") = [] ∧
    (schema []).checkConstraints (vlanOn "eth1") = [] ∧ render (vlanOn "eth0") = .ok a ∧
    render (vlanOn "eth1") = .ok b ∧ HasToGo (vlanOn "eth0") (vlanOn "eth1") "vlan1" ∧
    "vlan1" ∉ recreations (some a) b := by
  have hs : (schema []).validateTree (vlanOn "eth0") = [] := by decide +kernel
  have ht : (schema []).validateTree (vlanOn "eth1") = [] := by decide +kernel
  have hvlan : ("vlan","vlan") ∈ VIRTUAL := by decide
  have hthere : ∀ parent ∈ ["eth0","eth1"], (vlanOn parent).contains (interface "vlan" "vlan1") := by decide +kernel
  have hon : ∀ parent ∈ ["eth0","eth1"], (vlanOn parent).valuesAt (Shipped.setting "vlan" "vlan1" "parent") =
      some [parent] := by decide +kernel
  have hid : ∀ parent ∈ ["eth0","eth1"], (vlanOn parent).valuesAt (Shipped.setting "vlan" "vlan1" "id") =
      some ["10"] := by decide +kernel
  refine ⟨_,_,hs,by decide +kernel,ht,by decide +kernel,rfl,rfl,?_,fun hmem => ?_⟩
  · refine ⟨"vlan",["id","parent"],by decide,hthere _ (by decide),.inr ⟨"parent",by decide,"eth0",?_⟩⟩
    intro h
    obtain ⟨vs,hvs,hmem⟩ := h.mp ⟨_,hon _ (by decide),by decide⟩
    rw [hon _ (by decide)] at hvs
    cases hvs
    exact absurd hmem (by decide)
  · obtain ⟨node,hget⟩ := Option.isSome_iff_exists.mp (hthere "eth0" (by decide))
    obtain ⟨node',hget'⟩ := Option.isSome_iff_exists.mp (hthere "eth1" (by decide))
    have hneeds := (mem_recreations_iff hs ht rfl rfl hvlan hget).mp hmem node' hget'
    obtain ⟨l,hl,v,hv⟩ | ⟨hkind,-⟩ := (needsRecreating_differs hs ht hget hget' hvlan rfl).mp hneeds
    · rw [List.mem_singleton.mp hl] at hv
      apply hv
      unfold ConfigTree.Holds
      rw [hid _ (by decide),hid _ (by decide)]
    · exact absurd hkind (by decide)

end Nightshade.Render.Networkd
