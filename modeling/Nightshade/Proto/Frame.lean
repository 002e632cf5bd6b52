import Nightshade.Foundation.Bytes
import Nightshade.Foundation.Transport

/-! Frames on a stream, with the reader of the client and the one of the daemon. They take the same messages
out of the same bytes; the daemon takes a stream that ends inside a prefix for one that ended well. -/
namespace Nightshade.Proto
open Foundation

/-- Bytes of length prefix. -/
def HEADER : ℕ := 4

/-- Largest body accepted, in bytes. -/
def MAX_BODY : ℕ := 4*1024*1024

/-- The way a read of these streams fails. -/
inductive ErrorKind where
  | unexpectedEof
  deriving DecidableEq

inductive FrameError where
  | tooLarge (len : ℕ)
  | empty
  | malformed (reason : String)
  | encode (reason : String)
  | io (kind : ErrorKind)
  deriving DecidableEq

/-- The words of an error, given those of the transport's own. -/
def FrameError.message (words : ErrorKind → String) : FrameError → String
  | .tooLarge len =>
    "message of " ++ toString len ++ " bytes exceeds the " ++ toString MAX_BODY ++ " byte limit"
  | .empty => "empty message"
  | .malformed reason => "malformed message: " ++ reason
  | .encode reason => "encoding a message: " ++ reason
  | .io kind => words kind

/-- The encoding of messages as CBOR and back. -/
structure Cbor (T : Type) where
  intoWriter : T → Except String (List UInt8)
  fromReader : List UInt8 → Except String T

/-- What the frames rely on: what is written is read back, and takes at least a byte. -/
structure Cbor.Faithful {T : Type} (cbor : Cbor T) : Prop where
  roundTrip : ∀ message body, cbor.intoWriter message = .ok body → cbor.fromReader body = .ok message
  nonempty : ∀ message body, cbor.intoWriter message = .ok body → body ≠ []

/-- The length of the body that a header promises. -/
def bodyLen (header : List UInt8) : Except FrameError ℕ :=
  let len := ByteOrder.big.decode header
  if len = 0 then .error .empty
  else if MAX_BODY < len then .error (.tooLarge len)
  else .ok len

/-- What one read gives, what it leaves, and the sizes of the buffers it allocated for bodies. -/
structure Reading (ε T : Type) where
  result : Except ε T
  rest : Transport
  buffers : List ℕ

section
variable {T : Type} (cbor : Cbor T)

/-- A message as a complete frame. -/
def encode (message : T) : Except FrameError (List UInt8) :=
  match cbor.intoWriter message with
  | .error reason => .error (.encode reason)
  | .ok body =>
    if MAX_BODY < body.length then .error (.tooLarge body.length)
    else .ok (ByteOrder.big.encode HEADER body.length ++ body)

def decode (body : List UInt8) : Except FrameError T :=
  match cbor.fromReader body with
  | .error reason => .error (.malformed reason)
  | .ok message => .ok message

/-- The read of one message that the client makes. -/
def readBlocking (reader : Transport) : Reading FrameError T :=
  match reader.readExact HEADER with
  | (none,rest) => ⟨.error (.io .unexpectedEof),rest,[]⟩
  | (some header,rest) =>
    match bodyLen header with
    | .error e => ⟨.error e,rest,[]⟩
    | .ok len =>
      match rest.readExact len with
      | (none,rest) => ⟨.error (.io .unexpectedEof),rest,[len]⟩
      | (some body,rest) => ⟨decode cbor body,rest,[len]⟩

inductive ReadError where
  | frame (error : FrameError)
  | io (kind : ErrorKind)
  deriving DecidableEq

/-- The read of the daemon: one request, or nothing at a clean end of stream. -/
def read (stream : Transport) : Reading ReadError (Option T) :=
  match stream.readExact HEADER with
  | (none,rest) => ⟨.ok none,rest,[]⟩ -- the end, wherever in the header it comes
  | (some header,rest) =>
    match bodyLen header with
    | .error e => ⟨.error (.frame e),rest,[]⟩
    | .ok len =>
      match rest.readExact len with
      | (none,rest) => ⟨.error (.io .unexpectedEof),rest,[len]⟩
      | (some body,rest) =>
        match decode cbor body with
        | .error e => ⟨.error (.frame e),rest,[len]⟩
        | .ok message => ⟨.ok (some message),rest,[len]⟩

/-- How a sequence of reads ends. -/
inductive Ending (ε : Type) where
  | clean
  | failed (error : ε)
  | unfinished
  deriving DecidableEq

/-- Reads one message after the other, up to the first read that gives none. -/
def drain {ε : Type} (next : Transport → Reading ε (Option T)) : ℕ → Transport → List T × Ending ε
  | 0, _ => ([],.unfinished)
  | fuel+1, stream =>
    match (next stream).result with
    | .error e => ([],.failed e)
    | .ok none => ([],.clean)
    | .ok (some message) =>
      let others := drain next fuel (next stream).rest
      (message::others.1,others.2)

/-- The client's read as one of a sequence. It knows no end of stream but the failure to read. -/
def readNext (reader : Transport) : Reading FrameError (Option T) :=
  let r := readBlocking cbor reader
  ⟨r.result.map some,r.rest,r.buffers⟩

variable {cbor}

lemma bodyLen_encode {n : ℕ} (hpos : 0 < n) (hle : n ≤ MAX_BODY) :
    bodyLen (ByteOrder.big.encode HEADER n) = .ok n := by
  have hfits : n < 256^HEADER := by
    unfold MAX_BODY at hle
    unfold HEADER
    omega
  unfold bodyLen
  rw [ByteOrder.decode_encode _ hfits]
  dsimp only
  rw [if_neg (by omega),if_neg (by omega)]

/-- What a frame is made of. -/
lemma encode_ok {message : T} {frame : List UInt8} (h : encode cbor message = .ok frame) :
    ∃ body, cbor.intoWriter message = .ok body ∧ body.length ≤ MAX_BODY ∧
      frame = ByteOrder.big.encode HEADER body.length ++ body := by
  unfold encode at h
  cases hbody : cbor.intoWriter message with
  | error reason => simp [hbody] at h
  | ok body =>
    rw [hbody] at h
    dsimp only at h
    split at h
    · cases h
    · exact ⟨body,rfl,by omega,(Except.ok.inj h).symm⟩

/-- A header that is there is all that the checks of the length need. -/
lemma read_header (cbor : Cbor T) {header : List UInt8} (h : header.length = HEADER) (rest : List UInt8) (pace : List ℕ) :
    ∃ pace', readBlocking cbor ⟨header ++ rest,pace⟩ =
        (match bodyLen header with
        | .error e => ⟨.error e,⟨rest,pace'⟩,[]⟩
        | .ok len =>
          match Transport.readExact len ⟨rest,pace'⟩ with
          | (none,rest) => ⟨.error (.io .unexpectedEof),rest,[len]⟩
          | (some body,rest) => ⟨decode cbor body,rest,[len]⟩) ∧
      read cbor ⟨header ++ rest,pace⟩ =
        (match bodyLen header with
        | .error e => ⟨.error (.frame e),⟨rest,pace'⟩,[]⟩
        | .ok len =>
          match Transport.readExact len ⟨rest,pace'⟩ with
          | (none,rest) => ⟨.error (.io .unexpectedEof),rest,[len]⟩
          | (some body,rest) =>
            match decode cbor body with
            | .error e => ⟨.error (.frame e),rest,[len]⟩
            | .ok message => ⟨.ok (some message),rest,[len]⟩) := by
  obtain ⟨pace',hread⟩ := Transport.readExact_append header rest pace
  rw [h] at hread
  refine ⟨pace',?_,?_⟩
  · unfold readBlocking
    rw [hread]
  · unfold read
    rw [hread]

/-- A whole frame is read as its message by both readers, and nothing behind it is. -/
lemma read_frame (hcbor : cbor.Faithful) {message : T} {frame : List UInt8} (h : encode cbor message = .ok frame)
    (rest : List UInt8) (pace : List ℕ) :
    ∃ len pace', readNext cbor ⟨frame ++ rest,pace⟩ = ⟨.ok (some message),⟨rest,pace'⟩,[len]⟩ ∧
      read cbor ⟨frame ++ rest,pace⟩ = ⟨.ok (some message),⟨rest,pace'⟩,[len]⟩ := by
  obtain ⟨body,hbody,hle,rfl⟩ := encode_ok h
  have hpos := List.length_pos_iff.mpr (hcbor.nonempty message body hbody)
  have hdecode : decode cbor body = .ok message := by
    unfold decode
    rw [hcbor.roundTrip message body hbody]
  obtain ⟨pace₁,hclient,hdaemon⟩ := read_header cbor
    (ByteOrder.length_encode .big HEADER body.length) (body ++ rest) pace
  obtain ⟨pace₂,hexact⟩ := Transport.readExact_append body rest pace₁
  rw [bodyLen_encode hpos hle] at hclient hdaemon
  dsimp only at hclient hdaemon
  rw [hexact] at hclient hdaemon
  dsimp only at hclient hdaemon
  rw [hdecode] at hclient hdaemon
  refine ⟨body.length,pace₂,?_,?_⟩
  · unfold readNext
    rw [List.append_assoc,hclient]
    rfl
  · rw [List.append_assoc,hdaemon]

/-- Inside a prefix the client fails and the daemon sees the end. -/
lemma read_short (cbor : Cbor T) {bytes : List UInt8} (h : bytes.length < HEADER) (pace : List ℕ) :
    ∃ pace', readNext cbor ⟨bytes,pace⟩ = ⟨.error (.io .unexpectedEof),⟨[],pace'⟩,[]⟩ ∧
      read cbor ⟨bytes,pace⟩ = ⟨.ok none,⟨[],pace'⟩,[]⟩ := by
  obtain ⟨pace',hread⟩ := Transport.readExact_short h pace
  refine ⟨pace',?_,?_⟩
  · unfold readNext readBlocking
    rw [hread]
    rfl
  · unfold read
    rw [hread]

/-- Inside a body both readers fail. -/
lemma read_cut (hcbor : cbor.Faithful) {message : T} {frame cut : List UInt8} (h : encode cbor message = .ok frame)
    (hcut : cut <+: frame) (hlen : cut.length < frame.length) (hheader : HEADER ≤ cut.length) (pace : List ℕ) :
    (readNext cbor ⟨cut,pace⟩).result = .error (.io .unexpectedEof) ∧
      (read cbor ⟨cut,pace⟩).result = .error (.io .unexpectedEof) := by
  obtain ⟨body,hbody,hle,rfl⟩ := encode_ok h
  have hpos := List.length_pos_iff.mpr (hcbor.nonempty message body hbody)
  have hhead := ByteOrder.length_encode .big HEADER body.length
  obtain ⟨part,rfl⟩ : ByteOrder.big.encode HEADER body.length <+: cut :=
    List.prefix_of_prefix_length_le (List.prefix_append _ _) hcut (by omega)
  have hpart : part.length < body.length := by
    simp only [List.length_append] at hlen
    omega
  obtain ⟨pace₁,hclient,hdaemon⟩ := read_header cbor hhead part pace
  obtain ⟨pace₂,hexact⟩ := Transport.readExact_short hpart pace₁
  rw [bodyLen_encode hpos hle] at hclient hdaemon
  dsimp only at hclient hdaemon
  rw [hexact] at hclient hdaemon
  constructor
  · unfold readNext
    rw [hclient]
    rfl
  · rw [hdaemon]

/-- Reads that take the frames one after the other give the messages, and then end as they do on what is
behind the frames. -/
lemma drain_frames {ε : Type} (next : Transport → Reading ε (Option T))
    (hnext : ∀ message frame, encode cbor message = .ok frame → ∀ rest pace, ∃ pace',
      (next ⟨frame ++ rest,pace⟩).result = .ok (some message) ∧ (next ⟨frame ++ rest,pace⟩).rest = ⟨rest,pace'⟩)
    {messages : List T} {frames : List (List UInt8)}
    (hframes : List.Forall₂ (fun message frame => encode cbor message = .ok frame) messages frames)
    (cut : List UInt8) (fuel : ℕ) (pace : List ℕ) :
    ∃ pace', drain next (messages.length+fuel) ⟨frames.flatten ++ cut,pace⟩ =
      (messages ++ (drain next fuel ⟨cut,pace'⟩).1,(drain next fuel ⟨cut,pace'⟩).2) := by
  induction hframes generalizing pace with
  | nil => exact ⟨pace,by simp⟩
  | @cons message frame messages frames hframe _ ih =>
    obtain ⟨pace₁,hresult,hrest⟩ := hnext message frame hframe (frames.flatten ++ cut) pace
    obtain ⟨pace₂,hothers⟩ := ih pace₁
    refine ⟨pace₂,?_⟩
    rw [List.length_cons,Nat.succ_add,List.flatten_cons,List.append_assoc,drain,hresult]
    dsimp only
    rw [hrest,hothers]
    rfl

/-- A length above the limit is refused on the header alone: no byte of the body is read and no buffer
allocated. -/
lemma read_tooLarge {header : List UInt8} (h : header.length = HEADER)
    (hlarge : MAX_BODY < ByteOrder.big.decode header) (rest : List UInt8) (pace : List ℕ) :
    ∃ pace', readBlocking cbor ⟨header ++ rest,pace⟩ =
        ⟨.error (.tooLarge (ByteOrder.big.decode header)),⟨rest,pace'⟩,[]⟩ ∧
      read cbor ⟨header ++ rest,pace⟩ =
        ⟨.error (.frame (.tooLarge (ByteOrder.big.decode header))),⟨rest,pace'⟩,[]⟩ := by
  have hlen : bodyLen header = .error (.tooLarge (ByteOrder.big.decode header)) := by
    unfold bodyLen
    dsimp only
    rw [if_neg (by omega),if_pos hlarge]
  obtain ⟨pace',hclient,hdaemon⟩ := read_header cbor h rest pace
  rw [hlen] at hclient hdaemon
  exact ⟨pace',hclient,hdaemon⟩

/-- The messages come back, however the bytes come, and then the end. Behind a whole frame the daemon sees a
clean end, and inside a body both readers fail; inside a prefix the client fails, but the daemon's end is as
clean as behind a whole frame. A length above the limit is refused by both, before a body is read or a buffer
allocated for it. -/
theorem lossless_iff (hcbor : cbor.Faithful) {messages : List T} {frames : List (List UInt8)}
    (hframes : List.Forall₂ (fun message frame => encode cbor message = .ok frame) messages frames)
    {cut : List UInt8}
    (hcut : cut = [] ∨ ∃ message frame, encode cbor message = .ok frame ∧ cut <+: frame ∧ cut ≠ frame)
    (pace : List ℕ) {fuel : ℕ} (hfuel : messages.length < fuel) :
    (drain (read cbor) fuel ⟨frames.flatten ++ cut,pace⟩ =
        (messages,if cut = [] then .clean else .failed (.io .unexpectedEof)) ↔
      cut = [] ∨ HEADER ≤ cut.length) ∧
    (drain (read cbor) fuel ⟨frames.flatten ++ cut,pace⟩).1 = messages ∧
    drain (readNext cbor) fuel ⟨frames.flatten ++ cut,pace⟩ = (messages,.failed (.io .unexpectedEof)) ∧
    ∀ header : List UInt8, header.length = HEADER → MAX_BODY < ByteOrder.big.decode header → ∀ rest pace,
      ∃ pace', readBlocking cbor ⟨header ++ rest,pace⟩ =
          ⟨.error (.tooLarge (ByteOrder.big.decode header)),⟨rest,pace'⟩,[]⟩ ∧
        read cbor ⟨header ++ rest,pace⟩ =
          ⟨.error (.frame (.tooLarge (ByteOrder.big.decode header))),⟨rest,pace'⟩,[]⟩ := by
  obtain ⟨more,rfl⟩ : ∃ more, fuel = messages.length+(more+1) := ⟨fuel-messages.length-1,by omega⟩
  obtain ⟨paceD,hdaemon⟩ := drain_frames (read cbor)
    (fun message frame h rest pace => by
      obtain ⟨len,pace',-,hread⟩ := read_frame hcbor h rest pace
      exact ⟨pace',by rw [hread],by rw [hread]⟩) hframes cut (more+1) pace
  obtain ⟨paceC,hclient⟩ := drain_frames (readNext cbor)
    (fun message frame h rest pace => by
      obtain ⟨len,pace',hread,-⟩ := read_frame hcbor h rest pace
      exact ⟨pace',by rw [hread],by rw [hread]⟩) hframes cut (more+1) pace
  rw [hdaemon,hclient]
  by_cases hheader : HEADER ≤ cut.length
  · have hne : cut ≠ [] := by
      rintro rfl
      simp [HEADER] at hheader
    obtain ⟨message,frame,hframe,hpre,hproper⟩ := hcut.resolve_left hne
    have hlen : cut.length < frame.length :=
      lt_of_le_of_ne hpre.length_le (fun h => hproper (hpre.eq_of_length h))
    have hreadC := (read_cut hcbor hframe hpre hlen hheader paceC).1
    have hreadD := (read_cut hcbor hframe hpre hlen hheader paceD).2
    simp only [drain,hreadC,hreadD,List.append_nil,if_neg hne,hheader,or_true]
    exact ⟨trivial,trivial,trivial,fun _ h => read_tooLarge h⟩
  · obtain ⟨paceC',hreadC,-⟩ := read_short cbor (not_le.mp hheader) paceC
    obtain ⟨paceD',-,hreadD⟩ := read_short cbor (not_le.mp hheader) paceD
    simp only [drain,hreadC,hreadD,List.append_nil,hheader,or_false]
    refine ⟨?_,trivial,trivial,fun _ h => read_tooLarge h⟩
    by_cases hend : cut = [] <;> simp [hend]

end

/-- A byte in CBOR: itself up to 23, and behind a mark above. -/
def cborByte : Cbor UInt8 where
  intoWriter value := .ok (if value < 24 then [value] else [0x18,value])
  fromReader
    | [] => .error "unexpected end"
    | [value] => if value < 24 then .ok value else .error "not a byte"
    | mark::value::_ => if mark < 24 then .ok mark else if mark = 0x18 then .ok value else .error "not a byte"

lemma cborByte_faithful : cborByte.Faithful where
  roundTrip message body h := by
    obtain rfl := Except.ok.inj h
    by_cases hsmall : message < 24 <;> simp [cborByte,hsmall]
  nonempty message body h := by
    obtain rfl := Except.ok.inj h
    split <;> simp

/-- Two bytes come back a byte or two at a time, and a third that is cut in its body is an error. -/
theorem lossless_bytes :
    drain (read cborByte) 3 ⟨[0,0,0,1,5,0,0,0,2,0x18,200,0,0,0,2,0x18],[0,1,0]⟩ =
      ([5,200],.failed (.io .unexpectedEof)) := by
  have hframes : List.Forall₂ (fun message frame => encode cborByte message = .ok frame) [5,200]
      [[0,0,0,1,5],[0,0,0,2,0x18,200]] := .cons (by decide) (.cons (by decide) .nil)
  have hcut : ([0,0,0,2,0x18] : List UInt8) = [] ∨ ∃ message frame, encode cborByte message = .ok frame ∧
      [0,0,0,2,0x18] <+: frame ∧ [0,0,0,2,0x18] ≠ frame :=
    .inr ⟨30,[0,0,0,2,0x18,30],by decide,by decide,by decide⟩
  exact (lossless_iff cborByte_faithful hframes hcut [0,1,0] (by decide)).1.mpr (.inr (by decide))

/-- A stream that is cut inside a frame ends well for the daemon. -/
theorem cut_is_clean : ∃ frame cut : List UInt8, encode cborByte 5 = .ok frame ∧
    cut <+: frame ∧ cut ≠ [] ∧ cut ≠ frame ∧ drain (read cborByte) 2 ⟨frame ++ cut,[]⟩ = ([5],.clean) :=
  ⟨[0,0,0,1,5],[0,0],by decide,by decide,by decide,by decide,by decide⟩

end Nightshade.Proto
