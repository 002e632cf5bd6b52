import Mathlib
import Nightshade.Schema.Lex
import Nightshade.Render.Host

/-! Interfaces, as systemd-networkd sees them: the files it reads, and the devices that have to be
destroyed before a change to them takes effect. -/
namespace Nightshade.Render
open Foundation Schema

/-- A unit file as it is written. A section header waits until something goes into its section. -/
structure Ini where
  out : String
  pending : Option String

namespace Ini

def HEADER : String :=
  "# Managed by Nightshade. Do not edit.\n" ++
  "#\n" ++
  "# This file is generated from /etc/nightshade/config.boot and is rewritten on\n" ++
  "# every commit. Changes made here are lost, and are not part of the config the\n" ++
  "# next boot will apply.\n"

def new : Ini := ⟨HEADER,none⟩

/-- Begin a section. -/
def inSection (ini : Ini) (name : String) : Ini := {ini with pending := some name}

def key (ini : Ini) (key value : String) : Ini :=
  let header := match ini.pending with | some name => "\n[" ++ name ++ "]\n" | none => ""
  ⟨ini.out ++ header ++ key ++ "=" ++ value ++ "\n",none⟩

/-- Write the key only if there is a value for it. -/
def maybe (ini : Ini) (key : String) (value : Option String) : Ini :=
  match value with
  | some value => ini.key key value
  | none => ini

/-- Write the key once per value. -/
def each (ini : Ini) (key : String) (values : List String) : Ini :=
  values.foldl (fun ini value => ini.key key value) ini

def flag (ini : Ini) (key : String) (set : Bool) : Ini := ini.key key (if set then "yes" else "no")

end Ini

namespace Networkd

/-- Settings the kernel fixes when a device is created, by the kind of device. -/
def RECREATE : List (String × List String) :=
  [("bond",["Mode","TransmitHashPolicy","LACPTransmitRate"]),
    ("vlan",["Id"]),
    ("vxlan",["VNI","Remote","Group","Local","DestinationPort","TTL","Independent"]),
    ("bridge",[])]

/-- Interface types that get a device, and the kinds they map to. -/
def VIRTUAL : List (String × String) :=
  [("vlan","vlan"),("bonding","bond"),("bridge","bridge"),("vxlan","vxlan")]

def networkdDir : String := "/run/systemd/network"

def linkDir : String := "/etc/systemd/network"

/-! ### Reading the config -/

def instances (config : ConfigTree) (kind : String) : List (String × Node) :=
  ((config.get ["interfaces",kind]).bind Node.children).getD []

def child (node : Node) (name : String) : Option Node := node.children.bind (fun cs => cs.lookup name)

def leaf (node : Node) (name : String) : Option String := (child node name).bind Node.value

def list (node : Node) (name : String) : List String :=
  ((child node name).bind Node.valueSet).getD []

def flag (node : Node) (name : String) : Bool :=
  match (child node name).bind Node.valueSet with
  | some values => values.isEmpty
  | none => false

/-- Which interface is enslaved to what, and what rides on each interface. -/
structure Attachments where
  /-- The key that names the master, and the master. -/
  master : SortedMap String (String × String)
  vlans : SortedMap String (List String)
  vxlans : SortedMap String (List String)

/-- The instances of a kind by the interface that a leaf of theirs names. -/
def riders (config : ConfigTree) (kind name : String) : SortedMap String (List String) :=
  (instances config kind).foldl (fun out e =>
    match leaf e.2 name with
    | some carrier => out.insert carrier ((out.get? carrier).getD [] ++ [e.1])
    | none => out) SortedMap.empty

def Attachments.of (config : ConfigTree) : Attachments where
  master := ["bonding","bridge"].foldl (fun out kind =>
    (instances config kind).foldl (fun out e =>
      out.insertAll ((list e.2 "member").map (fun member =>
        (member,if kind = "bonding" then "Bond" else "Bridge",e.1)))) out) SortedMap.empty
  vlans := riders config "vlan" "parent"
  vxlans := riders config "vxlan" "source-interface"

/-! ### Emitting -/

def physicalFile (name extension : String) : String :=
  "10" ++ managedMarker ++ name ++ "." ++ extension

def virtualFile (name extension : String) : String :=
  "20" ++ managedMarker ++ name ++ "." ++ extension

/-- The `.network` every interface gets, whatever type it is. -/
def networkFile (name : String) (node : Node) (attachments : Attachments) : String :=
  let ini := (Ini.new.inSection "Match").key "Name" name
  let ini := (ini.inSection "Link").maybe "MTUBytes" (leaf node "mtu")
  let ini := if flag node "disable" then ini.key "ActivationPolicy" "always-down" else ini
  let ini := (ini.inSection "Network").maybe "Description" (leaf node "description")
  let addresses := list node "address"
  let ini := if "dhcp" ∈ addresses then ini.key "DHCP" "yes" else ini
  let ini := ini.each "Address" (addresses.filter (· ≠ "dhcp"))
  let ini :=
    match attachments.master.get? name with
    | some master => ini.key master.1 master.2
    | none => ini
  let ini := ini.each "VLAN" ((attachments.vlans.get? name).getD [])
  (ini.each "VXLAN" ((attachments.vxlans.get? name).getD [])).out

/-- The `.link` file, which udev applies: nothing when there would be nothing to say. -/
def linkFile (name : String) (node : Node) : Option String :=
  let hwId := leaf node "hw-id"
  let mac := leaf node "mac"
  let speed := (leaf node "speed").filter (· ≠ "auto")
  let duplex := (leaf node "duplex").filter (· ≠ "auto")
  if hwId.isNone && mac.isNone && speed.isNone && duplex.isNone then none
  else
    let ini := Ini.new.inSection "Match"
    let ini :=
      match hwId with
      | some hwId => ini.key "PermanentMACAddress" hwId
      | none => ini.key "OriginalName" name
    let ini := ini.inSection "Link"
    -- Only when the port was pinned: otherwise this is a rename to what it is already called.
    let ini := if hwId.isSome then ini.key "Name" name else ini
    let ini := ini.maybe "MACAddress" mac
    let ini := ini.maybe "BitsPerSecond" (speed.map (fun s => s ++ "M"))
    some (ini.maybe "Duplex" duplex).out

/-- What a kind of device has of its own. -/
def kindSettings (kind : String) (node : Node) (ini : Ini) : Ini :=
  if kind = "vlan" then (ini.inSection "VLAN").maybe "Id" (leaf node "id")
  else if kind = "bond" then
    let ini := (ini.inSection "Bond").maybe "Mode" (leaf node "mode")
    let ini := ini.maybe "TransmitHashPolicy" (leaf node "hash-policy")
    let ini := ini.maybe "LACPTransmitRate" (leaf node "lacp-rate")
    let ini := ini.maybe "MinLinks" (leaf node "min-links")
    ini.maybe "PrimarySlave" (leaf node "primary")
  else if kind = "bridge" then
    let ini := (ini.inSection "Bridge").flag "STP" (flag node "stp")
    let ini := ini.maybe "Priority" (leaf node "priority")
    ini.maybe "AgeingTimeSec" (leaf node "aging-time")
  else if kind = "vxlan" then
    let ini := (ini.inSection "VXLAN").maybe "VNI" (leaf node "vni")
    let ini := ini.maybe "Remote" (leaf node "remote")
    let ini := ini.maybe "Group" (leaf node "group")
    let ini := ini.maybe "Local" (leaf node "source-address")
    let ini := ini.maybe "DestinationPort" (leaf node "port")
    let ini := ini.maybe "TTL" (leaf node "ttl")
    -- With no source interface the tunnel has to be told to stand alone.
    if (leaf node "source-interface").isNone then ini.key "Independent" "true" else ini
  else ini

def netdevFile (kind name : String) (node : Node) : String :=
  let ini := ((Ini.new.inSection "NetDev").key "Name" name).key "Kind" kind
  let ini := ini.maybe "Description" (leaf node "description")
  let ini := ini.maybe "MTUBytes" (leaf node "mtu")
  let ini := ini.maybe "MACAddress" (leaf node "mac")
  (kindSettings kind node ini).out

/-! ### Reading back what was written last time -/

/-- What stands before the first separator, and what stands after it. -/
def splitOnce (separator : List Char) : List Char → Option (List Char × List Char)
  | [] => if separator.isEmpty then some ([],[]) else none
  | c::rest =>
    if separator.isPrefixOf (c::rest) then some ([],(c::rest).drop separator.length)
    else (splitOnce separator rest).map (fun r => (c::r.1,r.2))

def stripSuffix (suffix text : List Char) : Option (List Char) :=
  if suffix.isSuffixOf text then some (text.take (text.length-suffix.length)) else none

/-- `(section, key)` to values. -/
abbrev Settings := SortedMap (String ×ₗ String) (List String)

/-- The name between the brackets of a section header. -/
def sectionName : List Char → Option String
  | '['::rest => if rest.getLast? = some ']' then some (String.ofList rest.dropLast) else none
  | _ => none

/-- One more line: the section it leaves behind, and the settings. -/
def settingsLine (r : String × Settings) (line : List Char) : String × Settings :=
  let line := Lexer.trim isWhitespace line
  if line.isEmpty || line.head? = some '#' then r
  else
    match sectionName line with
    | some name => (name,r.2)
    | none =>
      match splitOnce ['='] line with
      | some (key,value) =>
        let name := toLex (r.1,String.ofList (Lexer.trim isWhitespace key))
        let value := String.ofList (Lexer.trim isWhitespace value)
        (r.1,r.2.insert name ((r.2.get? name).getD [] ++ [value]))
      | none => r

def settings (text : String) : Settings :=
  ((Lexer.lines text.toList).foldl settingsLine ("",SortedMap.empty)).2

def kindOf (netdev : String) : Option String :=
  ((settings netdev).get? (toLex ("NetDev","Kind"))).bind List.head?

/-- The values of a key in the first section that has it. -/
def setting (settings : Settings) (key : String) : Option (List String) :=
  (settings.entries.find? (fun e => (ofLex e.1).2 = key)).map Prod.snd

/-- Whether a device has to be destroyed for a new description of it to take effect. -/
def needsRecreating (before after : String) : Bool :=
  match kindOf before,kindOf after with
  | some old,some new =>
    if old ≠ new then true
    else
      match RECREATE.lookup old with
      -- Nobody has decided about such a kind, and rebuilding cannot silently do nothing.
      | none => true
      | some watched =>
        watched.any (fun key => setting (settings before) key ≠ setting (settings after) key)
  | _,_ => true

/-- The device whose `.netdev` a file is. -/
def device (name : String) : Option String :=
  ((stripSuffix ".netdev".toList name.toList).bind (splitOnce managedMarker.toList)).map
    (fun r => String.ofList r.2)

/-- The files for networkd itself. -/
def files (artifacts : Artifacts) : SortedMap String String :=
  (artifacts.managed.head?.map Managed.files).getD SortedMap.empty

/-- Devices to destroy before the new files take effect. -/
def recreations (previous : Option Artifacts) (next : Artifacts) : List String :=
  let before := (previous.map files).getD SortedMap.empty
  (before.entries.filterMap (fun e =>
    (device e.1).bind (fun device =>
      match (files next).get? e.1 with
      | none => some device
      | some new => if needsRecreating e.2 new then some device else none))).foldl
    (fun out device => insertElem device out) []

/-! ### The renderer -/

/-- A device in two files: one creates it and one configures it. -/
def virtualFiles (attachments : Attachments) (kind name : String) (node : Node) :
    List (String × String) :=
  [(virtualFile name "netdev",netdevFile kind name node),
    (virtualFile name "network",networkFile name node attachments)]

def render (config : ConfigTree) : Except RenderError Artifacts :=
  let attachments := Attachments.of config
  let physical := ["ethernet","loopback"].flatMap (instances config)
  let networks := physical.map (fun e =>
    (physicalFile e.1 "network",networkFile e.1 e.2 attachments))
  let devices := VIRTUAL.flatMap (fun kinds =>
    (instances config kinds.1).flatMap (fun e => virtualFiles attachments kinds.2 e.1 e.2))
  let links := physical.filterMap (fun e =>
    (linkFile e.1 e.2).map (fun text => (physicalFile e.1 "link",text)))
  .ok
    { managed :=
        [⟨networkdDir,managedMarker,SortedMap.empty.insertAll (networks ++ devices)⟩,
          ⟨linkDir,managedMarker,SortedMap.empty.insertAll links⟩]
      files := SortedMap.empty
      actions := [.reloadNetworkd] }

/-- What a file points at, which has to exist as a device. -/
def references (parsed : Settings) : List (String × String) :=
  ["Bond","Bridge","VLAN","VXLAN"].flatMap (fun key =>
    ((parsed.get? (toLex ("Network",key))).getD []).map (fun device => (key,device)))

/-- Each interface is configured by one file, and no file points at what nothing creates. -/
def checkNetworks (devices : List String) (claimed : SortedMap String String) :
    List (String × String) → Except RenderError Unit
  | [] => .ok ()
  | (name,contents)::rest =>
    if !".network".toList.isSuffixOf name.toList then checkNetworks devices claimed rest
    else
      let parsed := settings contents
      let matched := (parsed.get? (toLex ("Match","Name"))).bind List.head?
      match matched.bind (fun name => (claimed.get? name).map (fun other => (name,other))) with
      | some (matched,other) =>
        .error ⟨"networkd",name ++ " and " ++ other ++ " both configure " ++ matched⟩
      | none =>
        match (references parsed).find? (fun r => r.2 ∉ devices) with
        | some (key,device) =>
          .error ⟨"networkd",name ++ " refers to " ++ device ++ " as " ++ key ++
            ", but nothing creates it"⟩
        | none =>
          checkNetworks devices
            (match matched with | some matched => claimed.insert matched name | none => claimed) rest

def check (artifacts : Artifacts) : Except RenderError Unit :=
  let files := files artifacts
  let devices := (files.keys.filterMap device).foldl (fun out device => insertElem device out) []
  match checkNetworks devices SortedMap.empty files.entries with
  | .error e => .error e
  | .ok () =>
    match devices.find? (fun device => (files.get? (virtualFile device "network")).isNone) with
    | some device => .error ⟨"networkd",device ++ " is created but has no .network file"⟩
    | none => .ok ()

/-- Files first, then what has to be rebuilt is destroyed, then networkd reloads: when a device goes
its new description is already there. -/
def apply (artifacts : Artifacts) : HostProg (Except ApplyError Unit) := do
  match ← forEach (fun managed => orHost (Host.sync managed)) artifacts.managed with
  | .error e => return .error e
  | .ok () =>
    match ← writeFiles artifacts.files.entries with
    | .error e => return .error e
    | .ok () =>
      let previous ← LastApplied.load "networkd"
      match ← forEach (fun device => orHost (Host.run (Action.recreateNetdev device).argv))
        (recreations previous artifacts) with
      | .error e => return .error e
      | .ok () => forEach (fun action => orHost (Host.run (Action.argv action))) artifacts.actions

theorem apply_unsaved (artifacts : Artifacts) :
    (apply artifacts).Only (fun op => ∀ name artifacts, op ≠ .save name artifacts) := by
  apply (only_forEach (fun _ => only_orHost (Prog.only_call nofun)) _).bind
  intro r
  cases r with
  | error e => trivial
  | ok _ =>
    apply (writeFiles_unsaved _).bind
    intro r
    cases r with
    | error e => trivial
    | ok _ =>
      refine ⟨nofun,fun previous => ?_⟩
      apply (only_forEach (fun _ => only_orHost (Prog.only_call nofun)) _).bind
      intro r
      cases r with
      | error e => trivial
      | ok _ => exact only_forEach (fun _ => only_orHost (Prog.only_call nofun)) _

end Networkd

/-- The renderer of the interfaces. -/
def NetworkdRenderer : Renderer where
  name := "networkd"
  render := Networkd.render
  check := Networkd.check
  apply := Networkd.apply
  verify := verifyFiles
  apply_unsaved := Networkd.apply_unsaved
  verify_unsaved := verifyFiles_unsaved

end Nightshade.Render
