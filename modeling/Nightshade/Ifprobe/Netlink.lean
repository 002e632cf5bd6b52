import Nightshade.Foundation.Bytes
import Nightshade.Foundation.Records
import Nightshade.Foundation.Utf8
import Nightshade.Ifprobe.Tracker

/-! What the kernel's replies say. Lengths come out of the replies themselves, so every one of them is held
against the buffer before anything is taken. -/
namespace Nightshade.Ifprobe.Netlink
open Foundation

def RTM_NEWLINK : ℕ := 16
def RTM_DELLINK : ℕ := 17

def IFLA_ADDRESS : ℕ := 1
def IFLA_IFNAME : ℕ := 3
def IFLA_MTU : ℕ := 4
def IFLA_MASTER : ℕ := 10
def IFLA_OPERSTATE : ℕ := 16
def IFLA_LINKINFO : ℕ := 18
def IFLA_STATS64 : ℕ := 23
def IFLA_PERM_ADDRESS : ℕ := 54

def IFLA_INFO_KIND : ℕ := 1

def IFA_ADDRESS : ℕ := 1
def IFA_LOCAL : ℕ := 2
def IFA_BROADCAST : ℕ := 4

def IF_OPER_NOTPRESENT : ℕ := 1

def AF_INET : ℕ := 2
def AF_INET6 : ℕ := 10

def NLMSG_HEADER : ℕ := 16
def IFINFOMSG : ℕ := 16
def IFADDRMSG : ℕ := 8
def RTATTR_HEADER : ℕ := 4

/-- Messages and attributes alike begin at every fourth byte. -/
def align (length : ℕ) : ℕ := (length+3)/4*4

/-- One interface. Of this the tracker keeps an eye on the name, the state and the counters. -/
structure Link where
  index : ℕ
  name : String
  flags : ℕ
  mtu : Option ℕ
  address : Option (List UInt8)
  permanentAddress : Option (List UInt8)
  operstate : ℕ
  /-- The bond or bridge that it belongs to, by its index. -/
  master : Option ℕ
  kind : Option String
  stats : Option Stats
  deriving DecidableEq

/-- One address of an interface. -/
structure Address where
  index : ℕ
  addressPrefix : String
  broadcast : Option String
  deriving DecidableEq

/-- Bytes that may be there. -/
def getBytes (bytes : List UInt8) (start stop : ℕ) : Option (List UInt8) := (slice bytes start stop).toOption

/-- An attribute or a message: what kind it is of, and what is in it. -/
abbrev Record := ℕ × List UInt8

section
variable (order : ByteOrder)

/-- The number between two places. -/
def number (bytes : List UInt8) (start stop : ℕ) : Except Fault ℕ := do
  return order.decode (← slice bytes start stop)

/-- The first message of a buffer and the rest. -/
def splitMessage (bytes : List UInt8) : Except Fault (Option Record × List UInt8) := do
  if bytes.length < NLMSG_HEADER then return (none,bytes)
  let length ← number order bytes 0 4
  let kind ← number order bytes 4 6
  if length < NLMSG_HEADER ∨ bytes.length < length then return (none,bytes)
  let payload ← slice bytes NLMSG_HEADER length
  let next := min (align length) bytes.length
  return (some (kind,payload),← slice bytes next bytes.length)

/-- The next attribute; a malformed one ends the walk. -/
def next (rest : List UInt8) : Except Fault (Option Record × List UInt8) := do
  if rest.length < RTATTR_HEADER then return (none,rest)
  let length ← number order rest 0 2
  let kind ← number order rest 2 4
  if length < RTATTR_HEADER ∨ rest.length < length then return (none,[])
  let value ← slice rest RTATTR_HEADER length
  return (some (kind,value),← slice rest (min (align length) rest.length) rest.length)

variable (fuel : ℕ)

/-- The messages of a buffer. -/
def messages (bytes : List UInt8) : Except Fault (List Record) := collect (splitMessage order) fuel bytes

def attributes (bytes : List UInt8) : Except Fault (List Record) := collect (next order) fuel bytes

def asU32 (bytes : List UInt8) : Option ℕ := (getBytes bytes 0 4).map order.decode

/-- A text that ends at the first zero. -/
def asString (bytes : List UInt8) : String := Utf8.lossy (bytes.takeWhile (· ≠ 0))

def parseStats (bytes : List UInt8) : Option Stats :=
  let field (index : ℕ) : ℕ := ((getBytes bytes (index*8) (index*8+8)).map order.decode).getD 0
  if bytes.length < 32 then none
  else some {
    rxPackets := field 0
    txPackets := field 1
    rxBytes := field 2
    txBytes := field 3
    rxErrors := field 4
    txErrors := field 5
    rxDropped := field 6
    txDropped := field 7
    multicast := field 8
    collisions := field 9
    rxLengthErrors := field 10
    rxOverErrors := field 11
    rxCrcErrors := field 12
    rxFrameErrors := field 13 }

/-- What one attribute says of a link. -/
def linkAttribute (link : Link) (entry : Record) : Except Fault Link := do
  let (kind,value) := entry
  if kind = IFLA_IFNAME then return {link with name := asString value}
  else if kind = IFLA_MTU then return {link with mtu := asU32 order value}
  else if kind = IFLA_ADDRESS then return {link with address := some value}
  else if kind = IFLA_PERM_ADDRESS then return {link with permanentAddress := some value}
  else if kind = IFLA_OPERSTATE then return {link with operstate := (value.head?.map UInt8.toNat).getD 0}
  else if kind = IFLA_MASTER then return {link with master := asU32 order value}
  else if kind = IFLA_STATS64 then return {link with stats := parseStats order value}
  else if kind = IFLA_LINKINFO then
    return (← attributes order fuel value).foldl (fun link (nested : Record) =>
      if nested.1 = IFLA_INFO_KIND then {link with kind := some (asString nested.2)} else link) link
  else return link

def parseLink (payload : List UInt8) : Except Fault (Option Link) := do
  if payload.length < IFINFOMSG then return none
  let index ← number order payload 4 8
  let flags ← number order payload 8 12
  let found ← attributes order fuel (← slice payload IFINFOMSG payload.length)
  let link ← found.foldlM (linkAttribute order fuel)
    ⟨index,"",flags,none,none,none,0,none,none,none⟩
  return if link.name = "" then none else some link

/-- The links that a round of events names. One that is gone is not in the state that it had. -/
def linkEvents (buffer : List UInt8) : Except Fault (List Link) := do
  let found ← (← messages order fuel buffer).mapM (fun message : Record => do
    if message.1 = RTM_NEWLINK ∨ message.1 = RTM_DELLINK then
      let link ← parseLink order fuel message.2
      return link.map (fun link =>
        if message.1 = RTM_DELLINK then {link with operstate := IF_OPER_NOTPRESENT} else link)
    else return none)
  return found.filterMap id

end

/-- The longest run of zeros among groups, the first of the longest: where it begins and how long it is. -/
def longestZeros (groups : List ℕ) : ℕ × ℕ :=
  let starts := (List.range groups.length).map (fun i => (i,((groups.drop i).takeWhile (· = 0)).length))
  starts.foldl (fun longest run => if longest.2 < run.2 then run else longest) (0,0)

/-- Groups with colons between them, in hexadecimal digits. -/
def colons (groups : List ℕ) : String :=
  String.intercalate ":" (groups.map (fun group => String.ofList (Nat.toDigits 16 group)))

def dotted (octets : List ℕ) : String := String.intercalate "." (octets.map toString)

/-- `Ipv6Addr` as text. -/
def displayIpv6 (groups : List ℕ) : String :=
  if groups.take 6 = [0,0,0,0,0,0xffff] then
    "::ffff:" ++ dotted ((groups.drop 6).flatMap (fun group => [group/256,group%256]))
  else
    let (start,length) := longestZeros groups
    if 1 < length then colons (groups.take start) ++ "::" ++ colons (groups.drop (start+length))
    else colons groups

def formatAddress (family : ℕ) (bytes : List UInt8) : Except Fault (Option String) := do
  if family = AF_INET ∧ 4 ≤ bytes.length then
    let octets ← [0,1,2,3].mapM (byteAt bytes)
    return some (dotted (octets.map UInt8.toNat))
  else if family = AF_INET6 ∧ 16 ≤ bytes.length then
    let groups ← (List.range 8).mapM (fun index => do
      return ByteOrder.big.decode [← byteAt bytes (index*2),← byteAt bytes (index*2+1)])
    return some (displayIpv6 groups)
  else return none

/-- The addresses that the attributes give: our own end, the address, and the broadcast address. -/
structure Ends where
  local_ : Option String
  address : Option String
  broadcast : Option String

def addressAttribute (family : ℕ) (ends : Ends) (entry : Record) : Except Fault Ends := do
  let (kind,value) := entry
  if kind = IFA_LOCAL then return {ends with local_ := ← formatAddress family value}
  else if kind = IFA_ADDRESS then return {ends with address := ← formatAddress family value}
  else if kind = IFA_BROADCAST then return {ends with broadcast := ← formatAddress family value}
  else return ends

def parseAddress (order : ByteOrder) (fuel : ℕ) (payload : List UInt8) : Except Fault (Option Address) := do
  if payload.length < IFADDRMSG then return none
  let family := (← byteAt payload 0).toNat
  let prefixLength := (← byteAt payload 1).toNat
  let index ← number order payload 4 8
  let found ← attributes order fuel (← slice payload IFADDRMSG payload.length)
  let ends ← found.foldlM (addressAttribute family) ⟨none,none,none⟩
  -- on a point-to-point link the address is the peer's and the local one is ours
  return (ends.local_ <|> ends.address).map (fun text =>
    ⟨index,text ++ "/" ++ toString prefixLength,ends.broadcast⟩)

/-- The bytes of a record of the kernel's, without its padding: the length of the whole in so many bytes, the
kind, so many other bytes, and what is in it. -/
def IsRecord (order : ByteOrder) (width others : ℕ) (record : Record) (front : List UInt8) : Prop :=
  record.1 < 2^16 ∧ width+2+others+record.2.length < 256^width ∧
    ∃ between : List UInt8, between.length = others ∧
      front = order.encode width (width+2+others+record.2.length) ++
        (order.encode 2 record.1 ++ (between ++ record.2))

/-- An attribute has nothing between its kind and its value. -/
def IsAttribute (order : ByteOrder) : Record → List UInt8 → Prop := IsRecord order 2 0

/-- A message has flags, a sequence number and a port behind its kind. -/
def IsMessage (order : ByteOrder) : Record → List UInt8 → Prop := IsRecord order 4 10

/-- Attributes with their padding, as the kernel lays them out. -/
def serialize (order : ByteOrder) : List Record → List UInt8
  | [] => []
  | (kind,value)::records =>
    let length := RTATTR_HEADER+value.length
    order.encode 2 length ++ (order.encode 2 kind ++ value) ++ List.replicate (align length - length) 0 ++
      serialize order records

lemma le_align (n : ℕ) : n ≤ align n := by
  unfold align
  omega

section
variable (order : ByteOrder)

lemma number_ok {bytes : List UInt8} {start stop : ℕ} (h : start ≤ stop) (hstop : stop ≤ bytes.length) :
    number order bytes start stop = .ok (order.decode ((bytes.drop start).take (stop-start))) := by
  unfold number
  rw [slice_ok h hstop]
  rfl

/-- All that is done with the rest behind a record is to drop what is before it. -/
lemma slice_rest (bytes : List UInt8) (n : ℕ) :
    slice bytes (min n bytes.length) bytes.length = .ok (bytes.drop n) := by
  rw [slice_ok (by omega) le_rfl,List.take_of_length_le (by simp)]
  obtain h | h := Nat.le_total n bytes.length
  · rw [min_eq_left h]
  · rw [min_eq_right h,List.drop_of_length_le h,List.drop_length]

section
variable (width others : ℕ)

/-- The length that the bytes give for the record at the front. -/
def declared (bytes : List UInt8) : ℕ := order.decode (bytes.take width)

/-- The record at the front, by its declared length, and what is behind its padding. -/
def front (bytes : List UInt8) : Record × List UInt8 :=
  ((order.decode ((bytes.drop width).take 2),
    (bytes.drop (width+2+others)).take (declared order width bytes - (width+2+others))),
    bytes.drop (align (declared order width bytes)))

/-- The declared length covers the header and does not go past the buffer. -/
def WellFormed (bytes : List UInt8) : Prop :=
  width+2+others ≤ declared order width bytes ∧ declared order width bytes ≤ bytes.length

end

lemma next_wellFormed {rest : List UInt8} (h : WellFormed order 2 0 rest) :
    next order rest = .ok (some (front order 2 0 rest).1,(front order 2 0 rest).2) := by
  obtain ⟨hheader,hwhole⟩ := h
  unfold next RTATTR_HEADER
  rw [if_neg (by omega),number_ok order (by omega) (by omega),number_ok order (by omega) (by omega)]
  unfold declared at hheader hwhole
  simp only [bind,Except.bind,pure,Except.pure,List.drop_zero,Nat.sub_zero]
  rw [if_neg (by omega),slice_ok (by omega) hwhole]
  dsimp only
  rw [slice_rest]
  rfl

lemma next_malformed {rest : List UInt8} (h : ¬ WellFormed order 2 0 rest) :
    ∃ left, next order rest = .ok (none,left) := by
  unfold next RTATTR_HEADER
  by_cases hshort : rest.length < 4
  · rw [if_pos hshort]
    exact ⟨rest,rfl⟩
  · rw [if_neg hshort,number_ok order (by omega) (by omega),number_ok order (by omega) (by omega)]
    unfold WellFormed declared at h
    simp only [bind,Except.bind,pure,Except.pure,List.drop_zero,Nat.sub_zero]
    rw [if_pos (by omega)]
    exact ⟨[],rfl⟩

lemma splitMessage_wellFormed {bytes : List UInt8} (h : WellFormed order 4 10 bytes) :
    splitMessage order bytes = .ok (some (front order 4 10 bytes).1,(front order 4 10 bytes).2) := by
  obtain ⟨hheader,hwhole⟩ := h
  unfold splitMessage NLMSG_HEADER
  rw [if_neg (by omega),number_ok order (by omega) (by omega),number_ok order (by omega) (by omega)]
  unfold declared at hheader hwhole
  simp only [bind,Except.bind,pure,Except.pure,List.drop_zero,Nat.sub_zero]
  rw [if_neg (by omega),slice_ok (by omega) hwhole]
  dsimp only
  rw [slice_rest]
  rfl

lemma splitMessage_malformed {bytes : List UInt8} (h : ¬ WellFormed order 4 10 bytes) :
    ∃ left, splitMessage order bytes = .ok (none,left) := by
  unfold splitMessage NLMSG_HEADER
  by_cases hshort : bytes.length < 16
  · rw [if_pos hshort]
    exact ⟨bytes,rfl⟩
  · rw [if_neg hshort,number_ok order (by omega) (by omega),number_ok order (by omega) (by omega)]
    unfold WellFormed declared at h
    simp only [bind,Except.bind,pure,Except.pure,List.drop_zero,Nat.sub_zero]
    rw [if_pos (by omega)]
    exact ⟨bytes,rfl⟩

/-- The bytes of a number are those that spell it. -/
lemma encode_part (bytes : List UInt8) (start size : ℕ) (h : start+size ≤ bytes.length) :
    order.encode size (order.decode ((bytes.drop start).take size)) = (bytes.drop start).take size := by
  have hlen : ((bytes.drop start).take size).length = size := by
    rw [List.length_take,List.length_drop]
    omega
  have hback := order.encode_decode ((bytes.drop start).take size)
  rwa [hlen] at hback

lemma decode_take_lt (bytes : List UInt8) (size : ℕ) : order.decode (bytes.take size) < 256^size :=
  (order.decode_lt _).trans_le (Nat.pow_le_pow_right (by omega) (List.length_take_le _ _))

/-- What is taken for a record is one by the rules of the kernel. -/
lemma isRecord_front {width others : ℕ} {bytes : List UInt8} (h : WellFormed order width others bytes) :
    IsRecord order width others (front order width others bytes).1 (bytes.take (declared order width bytes)) := by
  obtain ⟨hheader,hwhole⟩ := h
  have hlt : declared order width bytes < 256^width := decode_take_lt order bytes width
  have hvalue : (front order width others bytes).1.2.length = declared order width bytes - (width+2+others) := by
    unfold front
    rw [List.length_take,List.length_drop]
    omega
  have hsum : width+2+others+(front order width others bytes).1.2.length = declared order width bytes := by omega
  refine ⟨decode_take_lt order _ 2,by rw [hsum]; exact hlt,(bytes.drop (width+2)).take others,?_,?_⟩
  · rw [List.length_take,List.length_drop]
    omega
  · have hlength : order.encode width (declared order width bytes) = bytes.take width := by
      simpa [declared] using encode_part order bytes 0 width (by omega)
    have hkind := encode_part order bytes width 2 (by omega)
    rw [hsum,hlength]
    unfold front
    dsimp only
    rw [hkind]
    conv_lhs => rw [← Nat.add_sub_cancel' hheader,List.take_add,List.take_add,List.take_add]
    simp only [List.append_assoc]

/-- Where a record lies, it is what is taken. -/
lemma front_of_isRecord {width others : ℕ} {record : Record} {lead bytes : List UInt8}
    (h : IsRecord order width others record lead) (hlead : lead <+: bytes) :
    WellFormed order width others bytes ∧ front order width others bytes = (record,bytes.drop (align lead.length)) := by
  obtain ⟨hkind,hfits,between,hbetween,rfl⟩ := h
  obtain ⟨behind,rfl⟩ := hlead
  have hwidth := order.length_encode width (width+2+others+record.2.length)
  have htwo := order.length_encode 2 record.1
  have hlen : (order.encode width (width+2+others+record.2.length) ++
      (order.encode 2 record.1 ++ (between ++ record.2))).length = width+2+others+record.2.length := by
    simp only [List.length_append,hwidth,htwo,hbetween]
    omega
  have hdeclared : declared order width (order.encode width (width+2+others+record.2.length) ++
      (order.encode 2 record.1 ++ (between ++ record.2)) ++ behind) = width+2+others+record.2.length := by
    unfold declared
    rw [List.append_assoc,List.take_left' hwidth,order.decode_encode hfits]
  refine ⟨⟨by omega,by rw [hdeclared,List.length_append,hlen]; omega⟩,?_⟩
  unfold front
  rw [hdeclared,hlen,Nat.add_sub_cancel_left,← List.drop_drop,← List.drop_drop]
  simp only [List.append_assoc]
  rw [List.drop_left' hwidth,List.take_left' htwo,order.decode_encode (by simpa using hkind),
    List.drop_left' htwo,List.drop_left' hbetween,List.take_left' rfl]

/-- A step that takes what is at the front, if its length is in order, walks over the records of the kernel. -/
lemma walks_of_front {width others : ℕ} {step : List UInt8 → Except Fault (Option Record × List UInt8)}
    (hwell : ∀ {bytes}, WellFormed order width others bytes →
      step bytes = .ok (some (front order width others bytes).1,(front order width others bytes).2))
    (hmal : ∀ {bytes}, ¬ WellFormed order width others bytes → ∃ left, step bytes = .ok (none,left)) :
    Walks (IsRecord order width others) align step where
  proper record lead h := by
    obtain ⟨-,-,between,-,rfl⟩ := h
    simp only [List.length_append,ByteOrder.length_encode]
    omega
  padded := le_align
  record record lead bytes h hlead := by
    obtain ⟨hformed,hfront⟩ := front_of_isRecord order h hlead
    rw [hwell hformed,hfront]
  stops bytes h := by
    refine hmal (fun hformed => ?_)
    exact h _ _ (isRecord_front order hformed) (by simpa using List.take_prefix _ _)

theorem next_walks : Walks (IsAttribute order) align (next order) :=
  walks_of_front order (next_wellFormed order) (next_malformed order)

theorem splitMessage_walks : Walks (IsMessage order) align (splitMessage order) :=
  walks_of_front order (splitMessage_wellFormed order) (splitMessage_malformed order)

variable {fuel : ℕ} {bytes : List UInt8}

/-- The walk over any bytes ends and gives the attributes up to the first place that has none. -/
lemma attributes_ok (h : bytes.length < fuel) : ∃ entries stop, attributes order fuel bytes = .ok entries ∧
    Laid (IsAttribute order) align bytes 0 entries stop ∧ NoneAt (IsAttribute order) bytes stop :=
  (next_walks order).collect_ok bytes 0 h

lemma messages_ok (h : bytes.length < fuel) : ∃ found stop, messages order fuel bytes = .ok found ∧
    Laid (IsMessage order) align bytes 0 found stop ∧ NoneAt (IsMessage order) bytes stop :=
  (splitMessage_walks order).collect_ok bytes 0 h

/-- What is in a record is no longer than the buffer that it is in. -/
lemma length_of_laid {width others place stop : ℕ} {records : List Record}
    (h : Laid (IsRecord order width others) align bytes place records stop) :
    ∀ record ∈ records, record.2.length ≤ bytes.length := by
  intro record hrecord
  obtain ⟨start,lead,⟨-,-,between,-,rfl⟩,hinside⟩ := h.mem record hrecord
  have hlen := hinside.length_le
  simp only [List.length_append,List.length_drop] at hlen
  omega

/-- Attributes by the rules of the kernel lie one after the other. -/
lemma laid_serialize {records : List Record}
    (h : ∀ record ∈ records, record.1 < 2^16 ∧ RTATTR_HEADER+record.2.length < 2^16) (before : List UInt8) :
    Laid (IsAttribute order) align (before ++ serialize order records) before.length records
      (before ++ serialize order records).length := by
  induction records generalizing before with
  | nil =>
    rw [serialize,List.append_nil]
    exact .nil before.length
  | cons record records ih =>
    obtain ⟨kind,value⟩ := record
    obtain ⟨hkind,hfits⟩ := h (kind,value) List.mem_cons_self
    have hlen : (order.encode 2 (RTATTR_HEADER+value.length) ++ (order.encode 2 kind ++ value)).length =
        RTATTR_HEADER+value.length := by
      simp only [List.length_append,ByteOrder.length_encode,RTATTR_HEADER]
      omega
    have hothers := ih (fun other hother => h other (List.mem_cons_of_mem _ hother))
      (before ++ (order.encode 2 (RTATTR_HEADER+value.length) ++ (order.encode 2 kind ++ value) ++
        List.replicate (align (RTATTR_HEADER+value.length) - (RTATTR_HEADER+value.length)) 0))
    have hplace : (before ++ (order.encode 2 (RTATTR_HEADER+value.length) ++ (order.encode 2 kind ++ value) ++
        List.replicate (align (RTATTR_HEADER+value.length) - (RTATTR_HEADER+value.length)) 0)).length =
        before.length + align (order.encode 2 (RTATTR_HEADER+value.length) ++ (order.encode 2 kind ++ value)).length := by
      have halign := le_align (RTATTR_HEADER+value.length)
      rw [List.length_append,List.length_append,List.length_replicate,hlen]
      omega
    rw [hplace] at hothers
    rw [serialize]
    rw [List.append_assoc] at hothers
    have hspelled : IsAttribute order (kind,value)
        (order.encode 2 (RTATTR_HEADER+value.length) ++ (order.encode 2 kind ++ value)) :=
      ⟨hkind,by simpa [RTATTR_HEADER] using hfits,[],rfl,rfl⟩
    refine .cons hspelled ?_ hothers
    rw [List.drop_left,List.append_assoc _ (List.replicate _ _)]
    exact List.prefix_append _ _

lemma attributes_serialize {records : List Record}
    (h : ∀ record ∈ records, record.1 < 2^16 ∧ RTATTR_HEADER+record.2.length < 2^16)
    (hfuel : (serialize order records).length < fuel) : attributes order fuel (serialize order records) = .ok records :=
  (next_walks order).collect_eq (laid_serialize order h []) ((next_walks order).noneAt_end _) hfuel

/-- No attribute of a link makes a fault, the nested ones included. -/
lemma linkAttribute_ok {entry : Record} (h : entry.2.length < fuel) (link : Link) :
    ∃ link', linkAttribute order fuel link entry = .ok link' := by
  obtain ⟨kind,value⟩ := entry
  obtain ⟨entries,stop,hwalk,-,-⟩ := attributes_ok order h
  dsimp only at hwalk
  simp only [linkAttribute,hwalk,bind,Except.bind,pure,Except.pure]
  split_ifs <;> exact ⟨_,rfl⟩

lemma parseLink_ok (h : bytes.length < fuel) : ∃ link, parseLink order fuel bytes = .ok link := by
  unfold parseLink IFINFOMSG
  by_cases hshort : bytes.length < 16
  · rw [if_pos hshort]
    exact ⟨none,rfl⟩
  · have hbody : ((bytes.drop 16).take (bytes.length-16)).length < fuel := by
      rw [List.length_take,List.length_drop]
      omega
    obtain ⟨entries,stop,hwalk,hlaid,-⟩ := attributes_ok order hbody
    have hall : ∀ entry ∈ entries, ∀ link, ∃ link', linkAttribute order fuel link entry = .ok link' := by
      intro entry hentry link
      have hlen := length_of_laid order hlaid entry hentry
      exact linkAttribute_ok order (by omega) link
    obtain ⟨link,hlink⟩ := foldlM_ok hall
      ⟨order.decode ((bytes.drop 4).take (8-4)),"",order.decode ((bytes.drop 8).take (12-8)),none,none,none,0,
        none,none,none⟩
    rw [if_neg hshort,number_ok order (by omega) (by omega),number_ok order (by omega) (by omega),
      slice_ok (by omega) le_rfl]
    simp only [bind,Except.bind,hwalk] at hlink ⊢
    rw [hlink]
    exact ⟨_,rfl⟩

lemma linkEvents_ok (h : bytes.length < fuel) : ∃ links, linkEvents order fuel bytes = .ok links := by
  obtain ⟨found,stop,hwalk,hlaid,-⟩ := messages_ok order h
  unfold linkEvents
  rw [hwalk]
  have hall : ∀ message ∈ found, ∃ link : Option Link, (do
      if message.1 = RTM_NEWLINK ∨ message.1 = RTM_DELLINK then
        let link ← parseLink order fuel message.2
        return link.map (fun link =>
          if message.1 = RTM_DELLINK then {link with operstate := IF_OPER_NOTPRESENT} else link)
      else return none : Except Fault (Option Link)) = .ok link := by
    intro message hmessage
    have hlen := length_of_laid order hlaid message hmessage
    obtain ⟨link,hlink⟩ := parseLink_ok order (hlen.trans_lt h)
    rw [hlink]
    split
    · exact ⟨_,rfl⟩
    · exact ⟨none,rfl⟩
  obtain ⟨links,hlinks⟩ := mapM_ok hall
  refine ⟨links.filterMap id,?_⟩
  simp only [bind,Except.bind] at hlinks ⊢
  rw [hlinks]
  rfl

end

/-- An address of any length is formatted without a fault. -/
lemma formatAddress_ok (family : ℕ) (bytes : List UInt8) : ∃ text, formatAddress family bytes = .ok text := by
  unfold formatAddress
  by_cases hfour : family = AF_INET ∧ 4 ≤ bytes.length
  · have hall : ∀ place ∈ [0,1,2,3], ∃ b, byteAt bytes place = .ok b := by
      intro place hplace
      have hlt : place < 4 := by
        simp only [List.mem_cons,List.not_mem_nil,or_false] at hplace
        omega
      exact ⟨_,byteAt_ok (by omega)⟩
    obtain ⟨octets,hoctets⟩ := mapM_ok hall
    rw [if_pos hfour,hoctets]
    exact ⟨_,rfl⟩
  · rw [if_neg hfour]
    by_cases hsix : family = AF_INET6 ∧ 16 ≤ bytes.length
    · have hall : ∀ index ∈ List.range 8, ∃ group : ℕ, (do
          return ByteOrder.big.decode [← byteAt bytes (index*2),← byteAt bytes (index*2+1)] : Except Fault ℕ) =
            .ok group := by
        intro index hindex
        have hlt := List.mem_range.mp hindex
        rw [byteAt_ok (by omega),byteAt_ok (by omega)]
        exact ⟨_,rfl⟩
      obtain ⟨groups,hgroups⟩ := mapM_ok hall
      rw [if_pos hsix,hgroups]
      exact ⟨_,rfl⟩
    · rw [if_neg hsix]
      exact ⟨none,rfl⟩

lemma addressAttribute_ok (family : ℕ) (ends : Ends) (entry : Record) :
    ∃ ends', addressAttribute family ends entry = .ok ends' := by
  obtain ⟨text,htext⟩ := formatAddress_ok family entry.2
  unfold addressAttribute
  simp only [htext,bind,Except.bind,pure,Except.pure]
  split_ifs <;> exact ⟨_,rfl⟩

lemma parseAddress_ok (order : ByteOrder) {fuel : ℕ} {bytes : List UInt8} (h : bytes.length < fuel) :
    ∃ address, parseAddress order fuel bytes = .ok address := by
  unfold parseAddress IFADDRMSG
  by_cases hshort : bytes.length < 8
  · rw [if_pos hshort]
    exact ⟨none,rfl⟩
  · have hbody : ((bytes.drop 8).take (bytes.length-8)).length < fuel := by
      rw [List.length_take,List.length_drop]
      omega
    obtain ⟨entries,stop,hwalk,-,-⟩ := attributes_ok order hbody
    rw [if_neg hshort,byteAt_ok (by omega),byteAt_ok (by omega),number_ok order (by omega) (by omega),
      slice_ok (by omega) le_rfl]
    simp only [bind,Except.bind,hwalk]
    have hall : ∀ entry ∈ entries, ∀ ends, ∃ ends', addressAttribute bytes[0].toNat ends entry = .ok ends' :=
      fun entry _ ends => addressAttribute_ok bytes[0].toNat ends entry
    obtain ⟨ends,hends⟩ := foldlM_ok hall ⟨none,none,none⟩
    rw [hends]
    exact ⟨_,rfl⟩

lemma parseStats_isSome (order : ByteOrder) (bytes : List UInt8) :
    (parseStats order bytes).isSome = decide (32 ≤ bytes.length) := by
  unfold parseStats
  by_cases h : bytes.length < 32
  · rw [if_pos h]
    simpa using h
  · rw [if_neg h]
    simpa using h

/-- The kernel's attributes are read as they were written. Whatever the bytes are, the walks over messages and
over attributes end and stay in the buffer, and give what lies before the first place where nothing lies whole;
and no reply makes a reader fault. -/
theorem decoded (order : ByteOrder) {fuel : ℕ} {bytes : List UInt8} (hfuel : bytes.length < fuel) :
    (∀ records : List Record, (∀ record ∈ records, record.1 < 2^16 ∧ RTATTR_HEADER+record.2.length < 2^16) →
      bytes = serialize order records → attributes order fuel bytes = .ok records) ∧
    (∃ entries stop, attributes order fuel bytes = .ok entries ∧
      Laid (IsAttribute order) align bytes 0 entries stop ∧ NoneAt (IsAttribute order) bytes stop) ∧
    (∃ found stop, messages order fuel bytes = .ok found ∧
      Laid (IsMessage order) align bytes 0 found stop ∧ NoneAt (IsMessage order) bytes stop) ∧
    (∃ link, parseLink order fuel bytes = .ok link) ∧
    ((parseStats order bytes).isSome = decide (32 ≤ bytes.length)) ∧
    (∃ address, parseAddress order fuel bytes = .ok address) ∧
    (∃ links, linkEvents order fuel bytes = .ok links) := by
  refine ⟨?_,attributes_ok order hfuel,messages_ok order hfuel,parseLink_ok order hfuel,parseStats_isSome order bytes,
    parseAddress_ok order hfuel,linkEvents_ok order hfuel⟩
  rintro records hrecords rfl
  exact attributes_serialize order hrecords hfuel

/-- A name and an MTU. -/
theorem decoded_eth0 :
    attributes .little 20 [9,0,3,0,101,116,104,48,0,0,0,0,8,0,4,0,220,5,0] = .ok [(3,[101,116,104,48,0])] ∧
    attributes .little 21 [9,0,3,0,101,116,104,48,0,0,0,0,8,0,4,0,220,5,0,0] =
      .ok [(3,[101,116,104,48,0]),(4,[220,5,0,0])] := by
  refine ⟨by decide,?_⟩
  exact (@decoded .little 21 _ (by decide)).1 [(3,[101,116,104,48,0]),(4,[220,5,0,0])] (by decide) (by decide)

end Nightshade.Ifprobe.Netlink
