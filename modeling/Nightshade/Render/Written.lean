import Mathlib
import Nightshade.Render.Instances

/-! What the files of an interface say: what was written into each of them, and that this is what
the configuration says of the interface. -/
namespace Nightshade.Render.Networkd
open Foundation Schema Schema.Shipped

/-! ### What the files say -/

/-- What a file states under a key of a section. -/
def stated (text sec key : String) : List String := ((settings text).get? (toLex (sec,key))).getD []

theorem stated_of_wrote {ini : Ini} {sec : String} {es : List ((String × String) × String)} (h : ini.Wrote sec es)
    (section_ key : String) : stated ini.out section_ key = valuesOf es section_ key := by
  rw [stated,h.settings,collect_getD]

variable {config : ConfigTree} {kind name : String} {node : Node} {zones : List String}

/-- The values under one key. -/
def under (sec key : String) (values : List String) : List ((String × String) × String) :=
  values.map (fun v => ((sec,key),v))

def trimmedText (v : String) : String := String.ofList (trimmed v.toList)

theorem map_tight {sec key : String} {values : List String} (h : ∀ v ∈ values, Tight v.toList) :
    values.map (fun v => ((sec,key),trimmedText v)) = under sec key values :=
  List.map_congr_left (fun v hv => by rw [trimmedText,trimmed_tight (h v hv)])

/-- What the `.network` of an interface says. -/
def networkEntries (name : String) (node : Node) (attachments : Attachments) :
    List ((String × String) × String) :=
  under "Match" "Name" [name] ++ under "Link" "MTUBytes" (leaf node "mtu").toList ++
  (if flag node "disable" then under "Link" "ActivationPolicy" ["always-down"] else []) ++
  under "Network" "Description" ((leaf node "description").map trimmedText).toList ++
  (if "dhcp" ∈ list node "address" then under "Network" "DHCP" ["yes"] else []) ++
  under "Network" "Address" ((list node "address").filter (· ≠ "dhcp")) ++
  ((attachments.master.get? name).toList.flatMap (fun m => under "Network" m.1 [m.2])) ++
  under "Network" "VLAN" ((attachments.vlans.get? name).getD []) ++
  under "Network" "VXLAN" ((attachments.vxlans.get? name).getD [])

theorem wrote_each {ini : Ini} {sec key : String} {es : List ((String × String) × String)} {values : List String}
    (h : ini.Wrote sec es) (hkey : Word key) (hvalues : ∀ v ∈ values, Tight v.toList) :
    (ini.each key values).Wrote sec (es ++ under sec key values) := by
  have hwritten := h.each hkey (fun v hv => (hvalues v hv).plain)
  rwa [show (fun v => ((sec,key),String.ofList (trimmed v.toList))) =
    (fun v => ((sec,key),trimmedText v)) from rfl,map_tight hvalues] at hwritten

theorem maybe_eq (ini : Ini) (key : String) (value : Option String) :
    ini.maybe key value = ini.each key value.toList := by cases value <;> rfl

/-- Free text loses the blanks around it. -/
theorem wrote_text {ini : Ini} {sec key : String} {es : List ((String × String) × String)} {value : Option String}
    (h : ini.Wrote sec es) (hkey : Word key) (hvalue : ∀ v ∈ value, Plain v.toList) :
    (ini.maybe key value).Wrote sec (es ++ under sec key (value.map trimmedText).toList) := by
  have hwritten := h.maybe hkey hvalue
  cases value with
  | none => exact hwritten
  | some v => exact hwritten

/-- A bond or a bridge, and its name. -/
theorem wrote_master {ini : Ini} {es : List ((String × String) × String)} {m : String × String}
    (h : ini.Wrote "Network" es) (hkey : m.1 = "Bond" ∨ m.1 = "Bridge") (hname : Tight m.2.toList) :
    (ini.key m.1 m.2).Wrote "Network" (es ++ under "Network" m.1 [m.2]) := by
  have hword : Word m.1 := by
    obtain hbond | hbridge := hkey
    · rw [hbond]
      exact word_ofList (by decide) (by decide)
    · rw [hbridge]
      exact word_ofList (by decide) (by decide)
  have hone : ∀ v ∈ [m.2], Tight v.toList := by simpa using hname
  exact @wrote_each ini "Network" m.1 es [m.2] h hword hone

/-- What a kind of device has of its own. -/
def kindEntries (device : String) (node : Node) : List ((String × String) × String) :=
  if device = "vlan" then under "VLAN" "Id" (leaf node "id").toList
  else if device = "bond" then
    under "Bond" "Mode" (leaf node "mode").toList ++
    under "Bond" "TransmitHashPolicy" (leaf node "hash-policy").toList ++
    under "Bond" "LACPTransmitRate" (leaf node "lacp-rate").toList ++
    under "Bond" "MinLinks" (leaf node "min-links").toList ++
    under "Bond" "PrimarySlave" (leaf node "primary").toList
  else if device = "bridge" then
    under "Bridge" "STP" [if flag node "stp" then "yes" else "no"] ++
    under "Bridge" "Priority" (leaf node "priority").toList ++
    under "Bridge" "AgeingTimeSec" (leaf node "aging-time").toList
  else
    under "VXLAN" "VNI" (leaf node "vni").toList ++
    under "VXLAN" "Remote" (leaf node "remote").toList ++
    under "VXLAN" "Group" (leaf node "group").toList ++
    under "VXLAN" "Local" (leaf node "source-address").toList ++
    under "VXLAN" "DestinationPort" (leaf node "port").toList ++
    under "VXLAN" "TTL" (leaf node "ttl").toList ++
    (if (leaf node "source-interface").isNone then under "VXLAN" "Independent" ["true"] else [])

/-- What the `.netdev` of a virtual interface says. -/
def netdevEntries (device name : String) (node : Node) : List ((String × String) × String) :=
  under "NetDev" "Name" [name] ++ under "NetDev" "Kind" [device] ++
  under "NetDev" "Description" ((leaf node "description").map trimmedText).toList ++
  under "NetDev" "MTUBytes" (leaf node "mtu").toList ++
  under "NetDev" "MACAddress" (leaf node "mac").toList ++ kindEntries device node

/-- What the `.link` of a port says. -/
def linkEntries (name : String) (node : Node) : List ((String × String) × String) :=
  (match leaf node "hw-id" with
    | some hwId => under "Match" "PermanentMACAddress" [hwId] ++ under "Link" "Name" [name]
    | none => under "Match" "OriginalName" [name]) ++
  under "Link" "MACAddress" (leaf node "mac").toList ++
  under "Link" "BitsPerSecond" (((leaf node "speed").filter (· ≠ "auto")).map (fun s => s ++ "M")).toList ++
  under "Link" "Duplex" ((leaf node "duplex").filter (· ≠ "auto")).toList

section Written
variable (hclean : (schema zones).validateTree config = [])
include hclean

/-- What names this interface is an interface. -/
theorem tight_rider {kind leaf v : String} (hleaf : leaf ∉ ["address","disable","member","stp"])
    (hv : v ∈ ((riders config kind leaf).get? name).getD []) : Tight v.toList := by
  obtain ⟨rider,hrider⟩ := interface_of_holds ((mem_riders hclean hleaf).mp hv)
  exact tight_name hclean hrider

theorem tight_master {m : String × String} (hm : (Attachments.of config).master.get? name = some m) :
    (m.1 = "Bond" ∨ m.1 = "Bridge") ∧ Tight m.2.toList := by
  rw [master_eq] at hm
  have hmem : (name,m.1,m.2) ∈ memberships config := SortedMap.mem_of_get?_insertAll hm
  obtain ⟨hkey,hholds⟩ | ⟨hkey,hholds⟩ := mem_memberships.mp hmem
  · obtain ⟨master,hmaster⟩ := interface_of_holds hholds
    exact ⟨.inl hkey,tight_name hclean hmaster⟩
  · obtain ⟨master,hmaster⟩ := interface_of_holds hholds
    exact ⟨.inr hkey,tight_name hclean hmaster⟩

variable (hget : config.get (interface kind name) = some node)
include hget

theorem plain_leaf {leaf v : String} (hleaf : leaf ∉ ["address","disable","member","stp"])
    (hv : Networkd.leaf node leaf = some v) : Plain v.toList :=
  plain_setting hclean ((leaf_iff hclean hget hleaf).mp hv)

theorem tight_leaf {leaf : String} (hleaf : leaf ∉ ["address","disable","member","stp","description"]) :
    ∀ v ∈ (Networkd.leaf node leaf).toList, Tight v.toList := by
  intro v hv
  have hsingle : leaf ∉ ["address","disable","member","stp"] := fun h => hleaf (List.mem_append_left ["description"] h)
  have htext : leaf ≠ "description" := fun h => hleaf (by simp [h])
  exact tight_setting hclean htext ((leaf_iff hclean hget hsingle).mp (Option.mem_toList.mp hv))

theorem tight_address : ∀ v ∈ (list node "address").filter (· ≠ "dhcp"), Tight v.toList := fun _ hv =>
  tight_setting hclean (by decide) ((mem_list hget).mp (List.mem_of_mem_filter hv))

/-- A device's file, with what holds the device named in it. -/
def attached (master : Option (String × String)) (ini : Ini) : Ini :=
  match master with
  | some master => ini.key master.1 master.2
  | none => ini

theorem wrote_networkFile : ∃ ini : Ini, networkFile name node (Attachments.of config) = ini.out ∧
    ini.Wrote "Network" (networkEntries name node (Attachments.of config)) := by
  refine ⟨_,rfl,?_⟩
  unfold networkEntries
  refine wrote_each ?_ (word_ofList (by decide) (by decide)) (fun v hv => tight_rider hclean (by decide) hv)
  refine wrote_each ?_ (word_ofList (by decide) (by decide)) (fun v hv => tight_rider hclean (by decide) hv)
  have hattached : ∀ {ini : Ini} {es : List ((String × String) × String)}, ini.Wrote "Network" es →
      (attached ((Attachments.of config).master.get? name) ini).Wrote "Network"
        (es ++ ((Attachments.of config).master.get? name).toList.flatMap (fun m => under "Network" m.1 [m.2])) := by
    intro ini es h
    cases hmaster : (Attachments.of config).master.get? name with
    | none => simpa [attached] using h
    | some m =>
      obtain ⟨hkey,hname⟩ := tight_master hclean hmaster
      simpa [attached] using wrote_master h hkey hname
  refine hattached ?_
  refine wrote_each ?_ (word_ofList (by decide) (by decide)) (tight_address hclean hget)
  refine Ini.Wrote.ite ?_ _ (word_ofList (by decide) (by decide)) (by decide)
  refine wrote_text ?_ (word_ofList (by decide) (by decide)) (fun v hv => plain_leaf hclean hget (by decide) hv)
  refine @Ini.Wrote.inSection _ "Link" _ ?_ _ (word_ofList (by decide) (by decide))
  refine Ini.Wrote.ite ?_ _ (word_ofList (by decide) (by decide)) (by decide)
  rw [maybe_eq]
  refine wrote_each ?_ (word_ofList (by decide) (by decide)) (tight_leaf hclean hget (by decide))
  refine @Ini.Wrote.inSection _ "Match" _ ?_ _ (word_ofList (by decide) (by decide))
  exact wrote_each (Ini.wrote_new.inSection (word_ofList (by decide) (by decide)))
    (word_ofList (by decide) (by decide)) (fun v hv => (List.mem_singleton.mp hv) ▸ tight_name hclean hget)

theorem wrote_setting {ini : Ini} {sec key leaf : String} {es : List ((String × String) × String)}
    (h : ini.Wrote sec es) (hkey : Word key) (hleaf : leaf ∉ ["address","disable","member","stp","description"]) :
    (ini.maybe key (Networkd.leaf node leaf)).Wrote sec (es ++ under sec key (Networkd.leaf node leaf).toList) := by
  rw [maybe_eq]
  exact wrote_each h hkey (tight_leaf hclean hget hleaf)

theorem wrote_kindSettings {device : String} (hdevice : (kind,device) ∈ VIRTUAL) {ini : Ini}
    {es : List ((String × String) × String)} (h : ini.Wrote "NetDev" es) :
    ∃ sec, (kindSettings device node ini).Wrote sec (es ++ kindEntries device node) := by
  simp only [VIRTUAL,List.mem_cons,Prod.mk.injEq,List.not_mem_nil,or_false] at hdevice
  obtain ⟨-,rfl⟩ | ⟨-,rfl⟩ | ⟨-,rfl⟩ | ⟨-,rfl⟩ := hdevice
  · refine ⟨"VLAN",?_⟩
    exact wrote_setting hclean hget (h.inSection (word_ofList (by decide) (by decide)))
      (word_ofList (by decide) (by decide)) (by decide)
  · refine ⟨"Bond",?_⟩
    simp only [kindEntries,kindSettings,String.reduceEq,if_true,if_false,← List.append_assoc]
    refine wrote_setting hclean hget ?_ (word_ofList (by decide) (by decide)) (by decide)
    refine wrote_setting hclean hget ?_ (word_ofList (by decide) (by decide)) (by decide)
    refine wrote_setting hclean hget ?_ (word_ofList (by decide) (by decide)) (by decide)
    refine wrote_setting hclean hget ?_ (word_ofList (by decide) (by decide)) (by decide)
    refine wrote_setting hclean hget ?_ (word_ofList (by decide) (by decide)) (by decide)
    exact h.inSection (word_ofList (by decide) (by decide))
  · refine ⟨"Bridge",?_⟩
    simp only [kindEntries,kindSettings,String.reduceEq,if_true,if_false,← List.append_assoc]
    refine wrote_setting hclean hget ?_ (word_ofList (by decide) (by decide)) (by decide)
    refine wrote_setting hclean hget ?_ (word_ofList (by decide) (by decide)) (by decide)
    refine @wrote_each _ _ _ _ [_] ?_ (word_ofList (by decide) (by decide)) (fun v hv => ?_)
    · exact h.inSection (word_ofList (by decide) (by decide))
    · rw [List.mem_singleton.mp hv]
      split_ifs
      all_goals exact by decide
  · refine ⟨"VXLAN",?_⟩
    simp only [kindEntries,kindSettings,String.reduceEq,if_true,if_false,← List.append_assoc]
    refine Ini.Wrote.ite ?_ _ (word_ofList (by decide) (by decide)) (by decide)
    refine wrote_setting hclean hget ?_ (word_ofList (by decide) (by decide)) (by decide)
    refine wrote_setting hclean hget ?_ (word_ofList (by decide) (by decide)) (by decide)
    refine wrote_setting hclean hget ?_ (word_ofList (by decide) (by decide)) (by decide)
    refine wrote_setting hclean hget ?_ (word_ofList (by decide) (by decide)) (by decide)
    refine wrote_setting hclean hget ?_ (word_ofList (by decide) (by decide)) (by decide)
    refine wrote_setting hclean hget ?_ (word_ofList (by decide) (by decide)) (by decide)
    exact h.inSection (word_ofList (by decide) (by decide))

/-- What the `.netdev` of a virtual interface says. -/
theorem wrote_netdevFile {device : String} (hdevice : (kind,device) ∈ VIRTUAL) :
    ∃ ini : Ini, netdevFile device name node = ini.out ∧ ∃ sec,
      ini.Wrote sec (netdevEntries device name node) := by
  have hword : Tight device.toList := by
    simp only [VIRTUAL,List.mem_cons,Prod.mk.injEq,List.not_mem_nil,or_false] at hdevice
    obtain ⟨-,rfl⟩ | ⟨-,rfl⟩ | ⟨-,rfl⟩ | ⟨-,rfl⟩ := hdevice
    all_goals exact by decide
  have hbase : (((Ini.new.inSection "NetDev").key "Name" name).key "Kind" device).Wrote "NetDev"
      (under "NetDev" "Name" [name] ++ under "NetDev" "Kind" [device]) := by
    have hname : ((Ini.new.inSection "NetDev").key "Name" name).Wrote "NetDev" (under "NetDev" "Name" [name]) :=
      @wrote_each _ _ _ [] [name] (Ini.wrote_new.inSection (word_ofList (by decide) (by decide)))
        (word_ofList (by decide) (by decide)) (fun v hv => (List.mem_singleton.mp hv) ▸ tight_name hclean hget)
    exact @wrote_each _ _ _ _ [device] hname (word_ofList (by decide) (by decide)) (by simpa using hword)
  refine ⟨_,rfl,wrote_kindSettings hclean hget hdevice ?_⟩
  refine wrote_setting hclean hget ?_ (word_ofList (by decide) (by decide)) (by decide)
  refine wrote_setting hclean hget ?_ (word_ofList (by decide) (by decide)) (by decide)
  exact wrote_text hbase (word_ofList (by decide) (by decide)) (fun v hv => plain_leaf hclean hget (by decide) hv)

/-- What the `.link` of a port says. -/
theorem wrote_linkFile {text : String} (h : linkFile name node = some text) :
    ∃ ini : Ini, text = ini.out ∧ ini.Wrote "Link" (linkEntries name node) := by
  have hname : ∀ v ∈ [name], Tight v.toList := fun v hv => (List.mem_singleton.mp hv) ▸ tight_name hclean hget
  have hspeed : ∀ v ∈ (((leaf node "speed").filter (· ≠ "auto")).map (fun s => s ++ "M")).toList,
      Tight v.toList := by
    intro v hv
    obtain ⟨s,hs,rfl⟩ := Option.map_eq_some_iff.mp (Option.mem_toList.mp hv)
    have htight := tight_leaf hclean hget (by decide) s (Option.mem_toList.mpr (Option.eq_some_of_filter_eq_some hs))
    rw [String.toList_append]
    intro c hc
    obtain hc | hc := List.mem_append.mp hc
    · exact htight c hc
    · have hunit : Tight "M".toList := by decide
      exact hunit c hc
  have hduplex : ∀ v ∈ ((leaf node "duplex").filter (· ≠ "auto")).toList, Tight v.toList := by
    intro v hv
    have hset := Option.eq_some_of_filter_eq_some (Option.mem_toList.mp hv)
    exact tight_leaf hclean hget (by decide) v (Option.mem_toList.mpr hset)
  have htail : ∀ {ini : Ini} {es : List ((String × String) × String)}, ini.Wrote "Link" es →
      (((ini.maybe "MACAddress" (leaf node "mac")).maybe "BitsPerSecond"
        (((leaf node "speed").filter (· ≠ "auto")).map (fun s => s ++ "M"))).maybe "Duplex"
        ((leaf node "duplex").filter (· ≠ "auto"))).Wrote "Link"
      (es ++ under "Link" "MACAddress" (leaf node "mac").toList ++
        under "Link" "BitsPerSecond" (((leaf node "speed").filter (· ≠ "auto")).map (fun s => s ++ "M")).toList ++
        under "Link" "Duplex" ((leaf node "duplex").filter (· ≠ "auto")).toList) := by
    intro ini es hini
    rw [maybe_eq _ "Duplex",maybe_eq _ "BitsPerSecond"]
    have hmac := @wrote_setting _ _ _ _ _ hclean hget _ _ "MACAddress" "mac" _ hini (word_ofList (by decide) (by decide)) (by decide)
    exact wrote_each (wrote_each hmac (word_ofList (by decide) (by decide)) hspeed) (word_ofList (by decide) (by decide)) hduplex
  have hmatch : (Ini.new.inSection "Match").Wrote "Match" [] := Ini.wrote_new.inSection (word_ofList (by decide) (by decide))
  unfold linkFile at h
  unfold linkEntries
  cases hid : leaf node "hw-id" with
  | some hwId =>
    have hvalue : ∀ v ∈ [hwId], Tight v.toList := by
      simpa [hid] using @tight_leaf _ _ _ _ _ hclean hget "hw-id" (by decide)
    have hpinned := @wrote_each _ _ "PermanentMACAddress" [] [hwId] hmatch (word_ofList (by decide) (by decide)) hvalue
    have hnamed := @wrote_each _ "Link" "Name" _ [name] (hpinned.inSection (word_ofList (by decide) (by decide))) (word_ofList (by decide) (by decide)) hname
    rw [hid] at h
    exact ⟨_,(Option.some.inj h).symm,htail hnamed⟩
  | none =>
    have hnamed := @wrote_each _ _ "OriginalName" [] [name] hmatch (word_ofList (by decide) (by decide)) hname
    rw [hid] at h
    simp only [Option.isNone_none,Bool.true_and,Option.isSome_none,Bool.false_eq_true,if_false] at h
    split_ifs at h
    exact ⟨_,(Option.some.inj h).symm,htail (hnamed.inSection (word_ofList (by decide) (by decide)))⟩

theorem stated_networkFile (sec key : String) : stated (networkFile name node (Attachments.of config)) sec key =
    valuesOf (networkEntries name node (Attachments.of config)) sec key := by
  obtain ⟨ini,hout,hwrote⟩ := wrote_networkFile hclean hget
  rw [hout,stated_of_wrote hwrote]

theorem stated_netdevFile {device : String} (hdevice : (kind,device) ∈ VIRTUAL) (sec key : String) :
    stated (netdevFile device name node) sec key = valuesOf (netdevEntries device name node) sec key := by
  obtain ⟨ini,hout,last,hwrote⟩ := wrote_netdevFile hclean hget hdevice
  rw [hout,stated_of_wrote hwrote]

theorem stated_linkFile {text : String} (h : linkFile name node = some text) (sec key : String) :
    stated text sec key = valuesOf (linkEntries name node) sec key := by
  obtain ⟨ini,rfl,hwrote⟩ := wrote_linkFile hclean hget h
  rw [stated_of_wrote hwrote]

end Written

/-! ### What they say of the configuration -/

@[simp] theorem valuesOf_append (es ds : List ((String × String) × String)) (sec key : String) :
    valuesOf (es ++ ds) sec key = valuesOf es sec key ++ valuesOf ds sec key := List.filterMap_append

@[simp] theorem valuesOf_under (sec key sec' key' : String) (values : List String) :
    valuesOf (under sec key values) sec' key' = if (sec,key) = (sec',key') then values else [] := by
  unfold valuesOf under
  rw [List.filterMap_map]
  split_ifs with h
  · simp [h]
  · simp [h]

@[simp] theorem valuesOf_ite (c : Prop) [Decidable c] (es : List ((String × String) × String)) (sec key : String) :
    valuesOf (if c then es else []) sec key = if c then valuesOf es sec key else [] := by
  split_ifs <;> rfl

@[simp] theorem valuesOf_master (master : Option (String × String)) (sec key : String) :
    valuesOf (master.toList.flatMap (fun m => under "Network" m.1 [m.2])) sec key =
      if sec = "Network" then ((master.filter (fun m => m.1 = key)).map Prod.snd).toList else [] := by
  cases master with
  | none => simp [valuesOf]
  | some m =>
    rw [Option.toList_some,List.flatMap_singleton,valuesOf_under]
    by_cases hsec : sec = "Network"
    · by_cases hkey : m.1 = key
      · simp [hsec,hkey,Option.filter_some]
      · simp [hsec,hkey,Option.filter_some]
    · simp [hsec,Ne.symm hsec]

@[simp] theorem valuesOf_kindEntries {device sec key : String} (h : sec ∉ ["VLAN","Bond","Bridge","VXLAN"]) :
    valuesOf (kindEntries device node) sec key = [] := by
  simp only [List.mem_cons,List.not_mem_nil,or_false,not_or] at h
  unfold kindEntries
  split_ifs
  all_goals simp [Ne.symm h.1,Ne.symm h.2.1,Ne.symm h.2.2.1,Ne.symm h.2.2.2]

theorem valuesOf_port (name : String) (node : Node) :
    valuesOf (linkEntries name node) "Match" "PermanentMACAddress" = (leaf node "hw-id").toList := by
  unfold linkEntries
  cases leaf node "hw-id" with
  | none => simp
  | some hwId => simp

/-- A `.network` says of an interface what the configuration says of it. -/
structure Configures (config : ConfigTree) (kind name text : String) : Prop where
  matched : stated text "Match" "Name" = [name]
  mtu : ∀ v, v ∈ stated text "Link" "MTUBytes" ↔ config.Holds (Shipped.setting kind name "mtu") v
  disabled : stated text "Link" "ActivationPolicy" =
    if config.contains (Shipped.setting kind name "disable") then ["always-down"] else []
  description : ∀ v, v ∈ stated text "Network" "Description" ↔
    ∃ d, config.Holds (Shipped.setting kind name "description") d ∧ v = trimmedText d
  dhcp : "yes" ∈ stated text "Network" "DHCP" ↔ config.Holds (Shipped.setting kind name "address") "dhcp"
  addresses : ∀ v, v ∈ stated text "Network" "Address" ↔
    config.Holds (Shipped.setting kind name "address") v ∧ v ≠ "dhcp"
  bond : ∀ v, v ∈ stated text "Network" "Bond" ↔ config.Holds (Shipped.setting "bonding" v "member") name
  bridge : ∀ v, v ∈ stated text "Network" "Bridge" ↔ config.Holds (Shipped.setting "bridge" v "member") name
  vlans : ∀ v, v ∈ stated text "Network" "VLAN" ↔ config.Holds (Shipped.setting "vlan" v "parent") name
  vxlans : ∀ v, v ∈ stated text "Network" "VXLAN" ↔
    config.Holds (Shipped.setting "vxlan" v "source-interface") name

section Says
variable (hclean : (schema zones).validateTree config = [])
include hclean

/-- An interface has one master at most. -/
theorem master_iff (hcross : (schema zones).checkConstraints config = []) {key master : String} :
    (Attachments.of config).master.get? name = some (key,master) ↔
      (key = "Bond" ∧ config.Holds (Shipped.setting "bonding" master "member") name) ∨
      (key = "Bridge" ∧ config.Holds (Shipped.setting "bridge" master "member") name) := by
  have hconsistent := consistent_of_checked hclean hcross
  rw [master_eq,← mem_memberships]
  constructor
  · exact fun h => SortedMap.mem_of_get?_insertAll h
  · intro hmem
    refine SortedMap.get?_insertAll_of_unique hmem (fun w hw => ?_)
    have hone := fun kind hkind kind' hkind' m m' => hconsistent.exclusive kind hkind kind' hkind' m m' name
    have hbond : "bonding" ∈ masters := by decide
    have hbridge : "bridge" ∈ masters := by decide
    obtain ⟨rfl,hholds⟩ | ⟨rfl,hholds⟩ := mem_memberships.mp hmem
    · obtain ⟨hkey,hother⟩ | ⟨hkey,hother⟩ := mem_memberships.mp hw
      · exact Prod.ext hkey (hone _ hbond _ hbond _ _ hother hholds).2
      · exact absurd (hone _ hbridge _ hbond _ _ hother hholds).1 (by decide)
    · obtain ⟨hkey,hother⟩ | ⟨hkey,hother⟩ := mem_memberships.mp hw
      · exact absurd (hone _ hbond _ hbridge _ _ hother hholds).1 (by decide)
      · exact Prod.ext hkey (hone _ hbridge _ hbridge _ _ hother hholds).2

theorem networkFile_configures (hcross : (schema zones).checkConstraints config = [])
    (hget : config.get (interface kind name) = some node) :
    Configures config kind name (networkFile name node (Attachments.of config)) := by
  have hstated := stated_networkFile hclean hget
  have hmaster : ∀ key v, (Attachments.of config).master.get? name = some (key,v) ↔ _ := fun key v =>
    master_iff hclean hcross
  have hvlans : (Attachments.of config).vlans = riders config "vlan" "parent" := rfl
  have hvxlans : (Attachments.of config).vxlans = riders config "vxlan" "source-interface" := rfl
  constructor
  · simp [hstated,networkEntries]
  · intro v
    rw [← leaf_iff hclean hget (by decide)]
    simp [hstated,networkEntries]
  · simp [hstated,networkEntries,← flag_iff hclean hget]
  · intro v
    have hdescription : ∀ d, config.Holds (Shipped.setting kind name "description") d ↔
        leaf node "description" = some d := fun d => (leaf_iff hclean hget (by decide)).symm
    simp [hstated,networkEntries,hmaster,hdescription,@eq_comm _ v]
  · simp [hstated,networkEntries,mem_list hget,hmaster]
  · intro v
    simp [hstated,networkEntries,mem_list hget,hmaster]
  · intro v
    simp [hstated,networkEntries,hmaster]
  · intro v
    simp [hstated,networkEntries,hmaster]
  · intro v
    rw [← mem_riders hclean (by decide),← hvlans]
    simp [hstated,networkEntries,hmaster]
  · intro v
    rw [← mem_riders hclean (by decide),← hvxlans]
    simp [hstated,networkEntries,hmaster]

end Says

end Nightshade.Render.Networkd
