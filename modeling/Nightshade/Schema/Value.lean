import Mathlib
import Nightshade.Schema.Lex

/-! Value types and their validators. Addresses are read the way the standard library of the
source reads them; a pattern is its text together with the function that matches it, and the
time zones are those of the box. -/
namespace Nightshade.Schema

/-- A value that was refused, and what was expected instead. -/
structure ValueError where
  value : String
  expected : String
  deriving Repr, DecidableEq

namespace Value

/-- `str::split` at a character. -/
def split (sep : Char) (s : String) : List (List Char) := s.toList.splitOn sep

/-- `str::split_once`: what stands before and after the first occurrence. -/
def splitOnce (sep : Char) (s : List Char) : Option (List Char × List Char) :=
  match s.dropWhile (· ≠ sep) with
  | [] => none
  | _::rest => some (s.takeWhile (· ≠ sep),rest)

def isAsciiDigit (c : Char) : Bool := c.isDigit

/-- A string as the source displays it for debugging. -/
def debug (s : String) : String := "\"" ++ String.join (s.toList.map (debugChar '"')) ++ "\""

/-- The number written by a list of decimal digits. -/
def ofDigits (s : List Char) : ℕ := s.foldl (fun n c => n*10 + (c.toNat-48)) 0

/-- `str::parse` for an unsigned number below a bound: digits after an optional plus sign. -/
def parseNat (bound : ℕ) (s : List Char) : Option ℕ :=
  let digits := if s.head? = some '+' then s.tail else s
  if !digits.isEmpty && digits.all isAsciiDigit && ofDigits digits < bound then some (ofDigits digits)
  else none

/-- `str::parse` for a signed 64-bit number. -/
def parseInt (s : List Char) : Option ℤ :=
  if s.head? = some '-' then
    if !s.tail.isEmpty && s.tail.all isAsciiDigit && ofDigits s.tail ≤ 2^63 then
      some (-(ofDigits s.tail : ℤ))
    else none
  else (parseNat (2^63) s).map (fun n => (n : ℤ))

/-! ### Addresses -/

/-- Read up to `most` characters that pass a test, at least one. -/
def readSome (p : Char → Bool) (most : ℕ) (s : List Char) : Option (List Char × List Char) :=
  let taken := s.takeWhile p
  if taken.isEmpty || most < taken.length then none else some (taken,s.drop taken.length)

/-- One octet of a dotted address: no leading zero, at most 255. -/
def readOctet (s : List Char) : Option (ℕ × List Char) :=
  match readSome isAsciiDigit 3 s with
  | none => none
  | some (digits,rest) =>
    if (1 < digits.length && digits.head? = some '0') || 255 < ofDigits digits then none
    else some (ofDigits digits,rest)

/-- A character that has to come next. -/
def readChar (c : Char) : List Char → Option (List Char)
  | [] => none
  | d::rest => if d = c then some rest else none

/-- Four octets with dots between them. -/
def readIpv4 (s : List Char) : Option (List ℕ × List Char) := do
  let (a,s) ← readOctet s
  let (b,s) ← readOctet (← readChar '.' s)
  let (c,s) ← readOctet (← readChar '.' s)
  let (d,s) ← readOctet (← readChar '.' s)
  return ([a,b,c,d],s)

/-- One group of an IPv6 address: up to four hexadecimal digits. -/
def readGroup (s : List Char) : Option (ℕ × List Char) :=
  match readSome (fun c => (Lexer.toDigit c).isSome) 4 s with
  | none => none
  | some (digits,rest) => some (digits.foldl (fun n c => n*16 + (Lexer.toDigit c).getD 0) 0,rest)

/-- Groups with colons between them, at most `limit`, the last two perhaps as an IPv4 address.
Also says whether they were. -/
def readGroups : (limit i : ℕ) → List Char → List ℕ × Bool × List Char
  | 0, _, s => ([],false,s)
  | limit+1, i, s =>
    let separated := if i = 0 then some s else readChar ':' s
    match (if 0 < limit then separated.bind readIpv4 else none) with
    | some ([a,b,c,d],rest) => ([a*256+b,c*256+d],true,rest)
    | _ =>
      match separated.bind readGroup with
      | some (group,rest) =>
        let r := readGroups limit (i+1) rest
        (group::r.1,r.2)
      | none => ([],false,s)

/-- The eight groups of an IPv6 address. -/
def readIpv6 (s : List Char) : Option (List ℕ × List Char) :=
  let (head,dotted,rest) := readGroups 8 0 s
  if head.length = 8 then some (head,rest)
  else if dotted then none
  else
    match (readChar ':' rest).bind (readChar ':') with
    | none => none
    | some rest =>
      let (tail,_,rest) := readGroups (7-head.length) 0 rest
      some (head ++ List.replicate (8-head.length-tail.length) 0 ++ tail,rest)

/-- An IP address: the octets of one family or the groups of the other. -/
inductive IpAddr where
  | v4 (octets : List ℕ)
  | v6 (groups : List ℕ)
  deriving Repr, DecidableEq

def parseIpv4 (s : List Char) : Option (List ℕ) :=
  match readIpv4 s with
  | some (octets,[]) => some octets
  | _ => none

def parseIpv6 (s : List Char) : Option (List ℕ) :=
  match readIpv6 s with
  | some (groups,[]) => some groups
  | _ => none

def parseIp (s : List Char) : Option IpAddr :=
  match parseIpv4 s with
  | some octets => some (.v4 octets)
  | none => (parseIpv6 s).map .v6

def IpAddr.isMulticast : IpAddr → Bool
  | .v4 octets => 224 ≤ octets.headD 0 && octets.headD 0 ≤ 239
  | .v6 groups => groups.headD 0 / 256 = 255

inductive Family where
  | v4
  | v6
  | any
  deriving DecidableEq

/-- An address and a prefix length, the length written without leading zeros. -/
def isPrefix (value : String) (family : Family) : Bool :=
  match splitOnce '/' value.toList with
  | none => false
  | some (addr,len) =>
    if len.isEmpty || 3 < len.length || !len.all isAsciiDigit then false
    else if 1 < len.length && len.head? = some '0' then false
    else
      match parseIp addr with
      | some (.v4 _) => family ≠ .v6 && ofDigits len ≤ 32
      | some (.v6 _) => family ≠ .v4 && ofDigits len ≤ 128
      | none => false

/-! ### The individual rules -/

/-- Six colon-separated hexadecimal octets, unicast, not all zero. -/
def isUnicastMac (value : String) : Bool :=
  let parts := split ':' value
  let octet := fun (part : List Char) => part.foldl (fun n c => n*16 + (Lexer.toDigit c).getD 0) 0
  parts.length = 6 && parts.all (fun p => p.length = 2 && p.all (fun c => (Lexer.toDigit c).isSome)) &&
  parts.any (fun p => octet p ≠ 0) && octet (parts.headD []) % 2 = 0

def port (s : List Char) : Option ℕ :=
  if s.isEmpty || (1 < s.length && s.head? = some '0') then none
  else (parseNat 65536 s).filter (0 < ·)

def isPortRange (value : String) : Bool :=
  match splitOnce '-' value.toList with
  | some (low,high) =>
    match port low, port high with
    | some l, some h => l ≤ h
    | _, _ => false
  | none => (port value.toList).isSome

/-- Longest interface name the kernel accepts. -/
def ifnamsizMax : ℕ := 15

/-- Longest login name. -/
def usernameMax : ℕ := 32

/-- What the kernel will accept as an interface name. -/
def isInterfaceName (value : String) : Bool :=
  !(value = "" || ifnamsizMax < value.utf8ByteSize || value = "." || value = "..") &&
  value.toList.all (fun c => c.isAlphanum || c = '-' || c = '_' || c = '.')

/-- RFC 1123. -/
def isHostname (value : String) : Bool :=
  !(value = "" || 253 < value.utf8ByteSize || value.toList.head? = some '.' ||
    value.toList.getLast? = some '.') &&
  (split '.' value).all (fun label =>
    !label.isEmpty && (String.ofList label).utf8ByteSize ≤ 63 && label.head? ≠ some '-' &&
    label.getLast? ≠ some '-' && label.all (fun c => c.isAlphanum || c = '-'))

/-- A login name, by the rules `useradd` enforces: lower case, and a final `$` is allowed. -/
def isUserName (value : String) : Bool :=
  match value.toList with
  | [] => false
  | first::rest =>
    let body := if rest.getLast? = some '$' then rest.dropLast else rest
    value.utf8ByteSize ≤ usernameMax && (first.isLower || first = '_') &&
    body.all (fun c => c.isLower || c.isDigit || c = '-' || c = '_')

/-- A crypt hash by its shape, or one of the two marks of an account without a password. -/
def isEncryptedPassword (value : String) : Bool :=
  value = "!" || value = "*" ||
  (let fields := split '$' value
   value.toList.head? = some '$' && 4 ≤ fields.length && fields.tail.all (fun f => !f.isEmpty) &&
   !value.toList.contains ':' && !value.toList.any (fun c => isWhitespace c || isControl c))

/-- What a zone name looks like. -/
def isZoneShaped (value : String) : Bool :=
  value ≠ "" && value.utf8ByteSize ≤ 64 && value.toList.head? ≠ some '/' &&
  value.toList.getLast? ≠ some '/' && !decide (['.','.'] <:+: value.toList) &&
  value.toList.all (fun c => c.isAlphanum || c = '/' || c = '_' || c = '-' || c = '+')

end Value

/-- The text a refused value is reported with. -/
def ValueError.message (e : ValueError) : String := Value.debug e.value ++ " is not " ++ e.expected

/-- A bounded integer range, optionally stepped. -/
structure Range where
  min : ℤ
  max : ℤ
  step : Option ℕ := none
  deriving Repr, DecidableEq

namespace Range

def describe (r : Range) : String :=
  "a whole number between " ++ toString r.min ++ " and " ++ toString r.max ++
  match r.step with
  | some step => " in steps of " ++ toString step
  | none => ""

def check (r : Range) (value : String) : Except ValueError Unit :=
  match Value.parseInt value.toList with
  | none => .error ⟨value,r.describe⟩
  | some n =>
    if n < r.min ∨ r.max < n then .error ⟨value,r.describe⟩
    else
      match r.step with
      | some step => if (n-r.min).natAbs % step = 0 then .ok () else .error ⟨value,r.describe⟩
      | none => .ok ()

end Range

/-- What a leaf, or a tag node's key, is allowed to hold. -/
inductive ValueType where
  | text
  | bool
  | number (range : Range)
  | ipv4Address
  | ipv6Address
  | ipAddress
  | ipv4Prefix
  | ipv6Prefix
  | ipPrefix
  | ipOrPrefix
  | multicastAddress
  | macAddress
  | port
  | portRange
  | interfaceName
  | hostname
  /-- The zones of the box; none when it has no database, and then any well-shaped name will do. -/
  | timeZone (database : List String)
  | userName
  | encryptedPassword
  | enum (values : List String)
  deriving Repr, DecidableEq

namespace ValueType

/-- What completion and help show in place of a value. -/
def placeholder : ValueType → String
  | .text => "<text>"
  | .bool => "<true|false>"
  | .number r => "<" ++ toString r.min ++ "-" ++ toString r.max ++ ">"
  | .ipv4Address => "<x.x.x.x>"
  | .ipv6Address => "<h:h:h:h:h:h:h:h>"
  | .ipAddress => "<ip-address>"
  | .ipv4Prefix => "<x.x.x.x/x>"
  | .ipv6Prefix => "<h:h:h:h:h:h:h:h/x>"
  | .ipPrefix => "<ip-address/prefix>"
  | .ipOrPrefix => "<ip-address[/prefix]>"
  | .multicastAddress => "<multicast-address>"
  | .macAddress => "<xx:xx:xx:xx:xx:xx>"
  | .port => "<1-65535>"
  | .portRange => "<port[-port]>"
  | .interfaceName => "<interface>"
  | .hostname => "<hostname>"
  | .timeZone _ => "<Area/Location>"
  | .userName => "<user>"
  | .encryptedPassword => "<crypt-hash>"
  | .enum values => "<" ++ "|".intercalate values ++ ">"

/-- The phrase that follows "is not" in an error. -/
def expected : ValueType → String
  | .text => "text"
  | .bool => "`true` or `false`"
  | .number r => r.describe
  | .ipv4Address => "an IPv4 address"
  | .ipv6Address => "an IPv6 address"
  | .ipAddress => "an IP address"
  | .ipv4Prefix => "an IPv4 address and prefix length, e.g. 192.168.1.1/24"
  | .ipv6Prefix => "an IPv6 address and prefix length, e.g. 2001:db8::1/64"
  | .ipPrefix => "an IP address and prefix length"
  | .ipOrPrefix => "an IP address, with or without a prefix length"
  | .multicastAddress => "a multicast IP address"
  | .macAddress => "a unicast MAC address, e.g. 02:00:5e:10:00:01"
  | .port => "a port number between 1 and 65535"
  | .portRange => "a port or a port range, e.g. 1024-2048"
  | .interfaceName => "a valid interface name (up to " ++ toString Value.ifnamsizMax ++ " characters)"
  | .hostname => "a valid host name"
  | .timeZone _ => "a known time zone, e.g. Europe/London"
  | .userName => "a valid login name (lower-case, up to " ++ toString Value.usernameMax ++ " characters)"
  | .encryptedPassword => "a crypt(3) hash, e.g. $6$... -- not a plaintext password"
  | .enum values => "one of: " ++ ", ".intercalate values

/-- A check that either passes or says what was expected. -/
def checkThat (ok : Bool) (ty : ValueType) (value : String) : Except ValueError Unit :=
  if ok then .ok () else .error ⟨value,ty.expected⟩

def check (ty : ValueType) (value : String) : Except ValueError Unit :=
  match ty with
  | .text =>
    if value.toList.any isControl then
      .error ⟨value,"text without control characters or line breaks"⟩
    else .ok ()
  | .bool => checkThat (value = "true" || value = "false") ty value
  | .number range => range.check value
  | .ipv4Address => checkThat (Value.parseIpv4 value.toList).isSome ty value
  | .ipv6Address => checkThat (Value.parseIpv6 value.toList).isSome ty value
  | .ipAddress => checkThat (Value.parseIp value.toList).isSome ty value
  | .ipv4Prefix => checkThat (Value.isPrefix value .v4) ty value
  | .ipv6Prefix => checkThat (Value.isPrefix value .v6) ty value
  | .ipPrefix => checkThat (Value.isPrefix value .any) ty value
  | .ipOrPrefix =>
    checkThat ((Value.parseIp value.toList).isSome || Value.isPrefix value .any) ty value
  | .multicastAddress => checkThat ((Value.parseIp value.toList).any Value.IpAddr.isMulticast) ty value
  | .macAddress => checkThat (Value.isUnicastMac value) ty value
  | .port => checkThat (Range.check ⟨1,65535,none⟩ value).toOption.isSome ty value
  | .portRange => checkThat (Value.isPortRange value) ty value
  | .interfaceName => checkThat (Value.isInterfaceName value) ty value
  | .hostname => checkThat (Value.isHostname value) ty value
  | .timeZone database =>
    if !Value.isZoneShaped value then .error ⟨value,ty.expected⟩
    else if !database.isEmpty && !database.contains value then
      .error ⟨value,ty.expected ++ " (not in this system's time zone database)"⟩
    else .ok ()
  | .userName => checkThat (Value.isUserName value) ty value
  | .encryptedPassword => checkThat (Value.isEncryptedPassword value) ty value
  | .enum values => checkThat (values.contains value) ty value

end ValueType

/-- A regular expression: its text, and what it matches. -/
structure Regex where
  source : String
  isMatch : String → Bool

/-- A type, plus the extra rules the schema layered on it. -/
structure ValueSpec where
  ty : ValueType
  accepts : List String := []
  pattern : Option Regex := none

namespace ValueSpec

def check (spec : ValueSpec) (value : String) : Except ValueError Unit :=
  if spec.accepts.contains value then .ok ()
  else
    match spec.ty.check value with
    | .error e =>
      if spec.accepts.isEmpty then .error e
      else .error ⟨e.value,e.expected ++ ", or one of: " ++ ", ".intercalate spec.accepts⟩
    | .ok () =>
      match spec.pattern with
      | some pattern =>
        if pattern.isMatch value then .ok ()
        else .error ⟨value,spec.ty.expected ++ " matching " ++ pattern.source⟩
      | none => .ok ()

def placeholder (spec : ValueSpec) : String :=
  if spec.accepts.isEmpty then spec.ty.placeholder
  else
    "<" ++ String.ofList (Lexer.trim (fun c => c = '<' || c = '>') spec.ty.placeholder.toList) ++ "|" ++
      "|".intercalate spec.accepts ++ ">"

end ValueSpec
end Nightshade.Schema
