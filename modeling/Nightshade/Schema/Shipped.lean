import Mathlib
import Nightshade.Schema.Validate

/-! The schema the system ships with, as its loader builds it from the source files: templates
expanded, children in order of their names, and priorities handed down. -/
namespace Nightshade.Schema.Shipped

/-- `^name[0-9]+$`. -/
def numbered (name : String) : Regex where
  source := "^" ++ name ++ "[0-9]+$"
  isMatch := fun s =>
    let digits := s.toList.drop name.toList.length
    name.toList.isPrefixOf s.toList && !digits.isEmpty && digits.all Value.isAsciiDigit

/-- A node with nothing but its kind and its place in the order. -/
def node (priority : ℕ) (kind : NodeKind) : SchemaNode where
  kind := kind
  default := none
  secret := false
  required := false
  priority := priority
  children := []
  constraints := []
  unique := []
  exclusive := []

def container (priority : ℕ) (children : List (String × SchemaNode)) : SchemaNode :=
  {node priority .container with children := children}

def tag (priority : ℕ) (value : ValueSpec) (children : List (String × SchemaNode)) : SchemaNode :=
  {node priority (.tag value) with children := children}

def leaf (priority : ℕ) (ty : ValueType) : SchemaNode := node priority (.leaf ⟨ty,[],none⟩)

def leafWith (priority : ℕ) (ty : ValueType) (default : String) : SchemaNode :=
  {leaf priority ty with default := some default}

def number (priority : ℕ) (min max : ℤ) (default : String) : SchemaNode :=
  leafWith priority (.number ⟨min,max,none⟩) default

def path (words : String) : PathPattern :=
  PathPattern.ofWords ((words.toList.splitOn ' ').map String.ofList)

/-- The rule that a value names something configured at one of these paths. -/
def inPathSet (paths : List String) (message : String) : Constraint :=
  .valueInPathSet (paths.map path) message

/-- System parameters. -/
def system (zones : List String) : SchemaNode :=
  container 100
    [("domain-name",leaf 100 .hostname),
     ("host-name",leafWith 100 .hostname "nightshade"),
     ("login",container 100
       [("user",tag 100 ⟨.userName,[],none⟩
         [("authentication",container 100
            [("encrypted-password",{leaf 100 .encryptedPassword with secret := true})]),
          ("full-name",leaf 100 .text)])]),
     ("name-server",node 100 (.multiLeaf ⟨.ipAddress,[],none⟩)),
     ("platform-model",leaf 100 .text),
     ("time-zone",leafWith 100 (.timeZone zones) "UTC")]

/-- What interfaces have in common. -/
def address (priority : ℕ) (accepts : List String) : String × SchemaNode :=
  ("address",node priority (.multiLeaf ⟨.ipPrefix,accepts,none⟩))
def description (priority : ℕ) : String × SchemaNode := ("description",leaf priority .text)
def disable (priority : ℕ) : String × SchemaNode := ("disable",node priority .flag)
def loadInterval (priority : ℕ) : String × SchemaNode :=
  ("load-interval",number priority 5 600 "300")
def mac (priority : ℕ) : String × SchemaNode := ("mac",leaf priority .macAddress)
def mtu (priority : ℕ) : String × SchemaNode := ("mtu",number priority 68 9216 "1500")

def bonding : SchemaNode :=
  tag 210 ⟨.interfaceName,[],some (numbered "bond")⟩
    [address 210 ["dhcp"],description 210,disable 210,
     ("hash-policy",leafWith 210 (.enum ["layer2","layer2+3","layer3+4"]) "layer3+4"),
     ("lacp-rate",leafWith 210 (.enum ["slow","fast"]) "slow"),
     loadInterval 210,mac 210,
     ("member",{node 210 (.multiLeaf ⟨.interfaceName,[],none⟩) with
       constraints := [inPathSet ["interfaces ethernet *"]
         "\x7bvalue\x7d is not a configured ethernet interface; a bond can only enslave physical ports"]}),
     ("min-links",number 210 0 32 "0"),
     ("mode",leafWith 210 (.enum ["802.3ad","active-backup","balance-xor","broadcast","balance-tlb",
       "balance-alb"]) "802.3ad"),
     mtu 210,
     ("primary",{leaf 210 .interfaceName with
       constraints := [inPathSet ["interfaces bonding @ member"]
         "\x7bvalue\x7d is not a member of this bond",
         .pathHasValue (path "interfaces bonding @ mode") "active-backup"
           "primary only applies in active-backup mode"]})]

def bridge : SchemaNode :=
  tag 220 ⟨.interfaceName,[],some (numbered "br")⟩
    [address 220 ["dhcp"],
     ("aging-time",number 220 0 1000000 "300"),
     description 220,disable 220,loadInterval 220,mac 220,
     ("member",{node 220 (.multiLeaf ⟨.interfaceName,[],none⟩) with
       constraints := [inPathSet ["interfaces ethernet *","interfaces bonding *","interfaces vlan *"]
         "\x7bvalue\x7d is not a configured ethernet, bond or vlan interface"]}),
     mtu 220,
     ("priority",leafWith 220 (.number ⟨0,61440,some 4096⟩) "32768"),
     ("stp",node 220 .flag)]

def ethernet : SchemaNode :=
  tag 200 ⟨.interfaceName,[],none⟩
    [address 200 ["dhcp"],description 200,disable 200,
     ("duplex",leafWith 200 (.enum ["auto","half","full"]) "auto"),
     ("hw-id",leaf 200 .macAddress),
     loadInterval 200,mac 200,mtu 200,
     ("speed",leafWith 200 (.enum ["auto","10","100","1000","2500","10000","25000","40000","100000"])
       "auto")]

def loopback : SchemaNode :=
  tag 190 ⟨.enum ["lo"],[],none⟩ [address 190 [],description 190,loadInterval 190]

def vlan : SchemaNode :=
  {tag 230 ⟨.interfaceName,[],some (numbered "vlan")⟩
    [address 230 ["dhcp"],description 230,disable 230,
     ("id",{leaf 230 (.number ⟨1,4094,none⟩) with required := true}),
     loadInterval 230,mtu 230,
     ("parent",{leaf 230 .interfaceName with
       required := true
       constraints := [inPathSet ["interfaces ethernet *","interfaces bonding *","interfaces bridge *"]
         "\x7bvalue\x7d is not a configured ethernet, bond or bridge interface"]})] with
    unique := [["parent","id"]]}

def vxlan : SchemaNode :=
  {tag 240 ⟨.interfaceName,[],some (numbered "vxlan")⟩
    [address 240 ["dhcp"],description 240,disable 240,
     ("group",{leaf 240 .multicastAddress with
       constraints := [.pathExists (path "interfaces vxlan @ source-interface")
         "a multicast group also needs source-interface, to say which interface joins it"]}),
     loadInterval 240,mac 240,mtu 240,
     ("port",leafWith 240 .port "4789"),
     ("remote",leaf 240 .ipAddress),
     ("source-address",leaf 240 .ipAddress),
     ("source-interface",{leaf 240 .interfaceName with
       constraints := [inPathSet ["interfaces ethernet *","interfaces bonding *","interfaces bridge *",
         "interfaces vlan *"] "\x7bvalue\x7d is not a configured interface"]}),
     ("ttl",number 240 1 255 "64"),
     ("vni",{leaf 240 (.number ⟨1,16777215,none⟩) with required := true})] with
    unique := [["vni"]]
    exclusive := [["remote","group"]]}

/-- Bonds and bridges share their members with nothing, and members have no addresses. -/
def globals : List GlobalConstraint :=
  [.uniqueAcross [path "interfaces bonding * member",path "interfaces bridge * member"]
     "\x7bvalue\x7d is a member of more than one bond or bridge",
   .forbidChildOnReferenced [path "interfaces bonding * member",path "interfaces bridge * member"]
     [path "interfaces ethernet",path "interfaces bonding",path "interfaces vlan"] "address"
     ("\x7bvalue\x7d is a member of \x7breferrer\x7d, so it cannot have an address of its own; " ++
       "configure the address on \x7breferrer\x7d")]

/-- The shipped schema, on a box with a time zone database. -/
def schema (zones : List String) : Schema where
  root := container 500
    [("interfaces",container 200
       [("bonding",bonding),("bridge",bridge),("ethernet",ethernet),("loopback",loopback),
        ("vlan",vlan),("vxlan",vxlan)]),
     ("system",system zones)]
  globals := globals

example : (schema []).defaults.valuesAt ["system","host-name"] = some ["nightshade"] := by decide

end Nightshade.Schema.Shipped
