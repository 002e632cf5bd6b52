import Mathlib
import Nightshade.Schema.Value

/-! What the installer writes for the first boot: the ports that the kernel shows, the configuration
that names them, and the files by which udev gives them their names. -/
namespace Nightshade.Installer
open Schema

/-- The account that the installer creates. -/
def DEFAULT_USER : String := "nightshade"

/-! ### The host name -/

/-- What is wrong with one label of a host name, if anything is. -/
def checkLabel (label : List Char) : Except String Unit :=
  if label.isEmpty then .error "Hostname must not contain an empty label."
  else if 63 < (String.ofList label).utf8ByteSize then
    .error ("Hostname label '" ++ String.ofList label ++ "' is longer than 63 characters.")
  else if label.head? = some '-' ∨ label.getLast? = some '-' then
    .error ("Hostname label '" ++ String.ofList label ++ "' must not start or end with a hyphen.")
  else
    match label.find? (fun c => !c.isAlphanum && c ≠ '-') with
    | some bad =>
      .error ("Hostname contains an invalid character: '" ++ bad.toString ++
        "'. Use letters, digits and hyphens only.")
    | none => .ok ()

def checkLabels : List (List Char) → Except String Unit
  | [] => .ok ()
  | label::rest =>
    match checkLabel label with
    | .error e => .error e
    | .ok () => checkLabels rest

/-- RFC 1123 host name. -/
def hostname (name : String) : Except String Unit :=
  if name = "" then .error "Hostname must not be empty."
  else if 253 < name.utf8ByteSize then .error "Hostname must be at most 253 characters."
  else if name.toList.head? = some '.' ∨ name.toList.getLast? = some '.' then
    .error "Hostname must not start or end with a dot."
  else checkLabels (Value.split '.' name)

/-! ### The ports -/

/-- An entry under `/sys/class/net`: what its `device` link ends in, if it has one, and the contents
of its files. -/
structure Entry where
  name : String
  device : Option String
  addrAssignType : Option String
  address : Option String

/-- A physical port, as the kernel currently presents it. -/
structure Port where
  kernelName : String
  /-- Permanent MAC, lower case. -/
  mac : String
  /-- Bus address of the slot, used only to order the ports. -/
  slot : String
  deriving DecidableEq

def trimmed (content : String) : String := String.ofList (Lexer.trim isWhitespace content.toList)

def toAsciiLowercase (s : String) : String := String.ofList (s.toList.map Char.toLower)

/-- A port with an address that stays. -/
def Entry.port (entry : Entry) : Option Port :=
  match entry.device with
  | none => none
  | some slot =>
    if entry.addrAssignType.map trimmed ≠ some "0" then none
    else
      match entry.address.map trimmed with
      | none => none
      | some mac =>
        if mac = "" ∨ mac = "00:00:00:00:00:00" then none
        else some ⟨entry.name,toAsciiLowercase mac,slot⟩

/-- Slot first, then name. -/
def Port.Before (a b : Port) : Prop := a.slot < b.slot ∨ (a.slot = b.slot ∧ a.kernelName ≤ b.kernelName)

instance : DecidableRel Port.Before := fun a b => by
  unfold Port.Before
  infer_instance

/-- Every port that the box has, in the order they will be named. -/
def enumeratePorts (entries : List Entry) : List Port := (entries.filterMap Entry.port).insertionSort Port.Before

/-- The name of a port by its place. -/
def portName (i : ℕ) : String := "eth" ++ toString i

/-- `eth0`, `eth1`, ... with the port that each of them names. -/
def assignNames (ports : List Port) : List (String × Port) := ports.zipIdx.map (fun e => (portName e.2,e.1))

/-! ### The files -/

/-- A character as it is displayed for debugging in a string. Those that are not for print, or extend
others, are written by number: which these are is a matter of the language's tables. -/
def debugEscaped (byNumber : Char → Bool) (c : Char) : List Char :=
  if c = '\x00' then ['\\','0']
  else if c = '\t' then ['\\','t']
  else if c = '\r' then ['\\','r']
  else if c = '\n' then ['\\','n']
  else if c = '"' then ['\\','"']
  else if c = '\\' then ['\\','\\']
  else if byNumber c then ['\\','u','{'] ++ Nat.toDigits 16 c.toNat ++ ['}']
  else [c]

def debugString (byNumber : Char → Bool) (s : String) : String :=
  String.ofList ('"'::s.toList.flatMap (debugEscaped byNumber) ++ ['"'])

/-- The `config.boot` of a freshly installed box. -/
def configBoot (byNumber : Char → Bool) (hostname : String) (named : List (String × Port))
    (hash : Option String) : String :=
  "/* Written by the Nightshade installer. This is the configuration the\n" ++
  " * system boots with; edit it with `configure` rather than by hand. */\n" ++
  "interfaces \x7b\n" ++
  String.join (named.map (fun e =>
    "    ethernet " ++ e.1 ++ " \x7b\n" ++
    "        hw-id " ++ e.2.mac ++ "\n" ++
    "    \x7d\n")) ++
  "    loopback lo \x7b\n" ++
  "    \x7d\n" ++
  "\x7d\n" ++
  "system \x7b\n" ++
  "    host-name " ++ hostname ++ "\n" ++
  (match hash with
  | some hash =>
    "    login \x7b\n" ++
    "        user " ++ DEFAULT_USER ++ " \x7b\n" ++
    "            authentication \x7b\n" ++
    "                encrypted-password " ++ debugString byNumber hash ++ "\n" ++
    "            \x7d\n" ++
    "            full-name \"Nightshade administrator\"\n" ++
    "        \x7d\n" ++
    "    \x7d\n"
  | none => "") ++
  "\x7d\n"

def MANAGED_HEADER : String :=
  "# Managed by Nightshade. Do not edit.\n" ++
  "#\n" ++
  "# This file is generated from /etc/nightshade/config.boot and is rewritten on\n" ++
  "# every commit. Changes made here are lost, and are not part of the config the\n" ++
  "# next boot will apply.\n"

/-- The `.link` file that renames one port. -/
def linkFile (name : String) (port : Port) : String :=
  MANAGED_HEADER ++ "\n[Match]\nPermanentMACAddress=" ++ port.mac ++ "\n\n[Link]\nName=" ++ name ++ "\n"

/-- The account's hash, read back out of `/etc/shadow`. An empty field is no password at all. -/
def hashFromShadow (shadow user : String) : Option String :=
  ((Lexer.lines shadow.toList).find? (fun line => (line.splitOn ':').head? = some user.toList)).bind
    (fun line => ((line.splitOn ':')[1]?).bind (fun field =>
      let hash := Lexer.trim isWhitespace field
      if hash.isEmpty then none else some (String.ofList hash)))

/-- What is left on the target: the text of `config.boot`, and the `.link` files by their names. -/
structure Seeded where
  configBoot : String
  links : List (String × String)

def writeConfiguration (byNumber : Char → Bool) (hostname : String) (entries : List Entry) (shadow : String) :
    Seeded :=
  let named := assignNames (enumeratePorts entries)
  ⟨configBoot byNumber hostname named (hashFromShadow shadow DEFAULT_USER),
    named.map (fun e => ("10-ns-" ++ e.1 ++ ".link",linkFile e.1 e.2))⟩

end Nightshade.Installer
