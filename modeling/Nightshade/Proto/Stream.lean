import Nightshade.Proto.Frame

/-! Messages on a stream, whoever wrote it. What was taken from the front of a stream is settled by its bytes, so two
who look at the same stream from its start see the same messages. -/
namespace Nightshade.Proto
open Foundation

/-- Whether a read needs no more bytes than these: a header that promises none, or all that it promises. -/
def isWhole (bytes : List UInt8) : Bool :=
  HEADER ≤ bytes.length &&
    match bodyLen (bytes.take HEADER) with
    | .error _ => true
    | .ok len => HEADER+len ≤ bytes.length

section
variable {T : Type} {cbor : Cbor T}

/-- Bytes that are read as one message. -/
def Framed (cbor : Cbor T) (message : T) (bytes : List UInt8) : Prop :=
  ∃ header body, bytes = header ++ body ∧ header.length = HEADER ∧ bodyLen header = .ok body.length ∧
    decode cbor body = .ok message

variable {message message' : T} {front front' bytes : List UInt8}

theorem framed_encode (hcbor : cbor.Faithful) (h : encode cbor message = .ok front) : Framed cbor message front := by
  obtain ⟨body,hbody,hle,rfl⟩ := encode_ok h
  have hpos := List.length_pos_iff.mpr (hcbor.nonempty message body hbody)
  refine ⟨_,body,rfl,ByteOrder.length_encode .big HEADER body.length,bodyLen_encode hpos hle,?_⟩
  unfold decode
  rw [hcbor.roundTrip message body hbody]

theorem Framed.ne_nil (h : Framed cbor message front) : front ≠ [] := by
  obtain ⟨header,body,rfl,hheader,-⟩ := h
  intro hnil
  rw [(List.append_eq_nil_iff.mp hnil).1] at hheader
  cases hheader

/-- At the front of a stream there is one message at most. -/
theorem Framed.unique (h : Framed cbor message front) (h' : Framed cbor message' front') (hfront : front <+: bytes)
    (hfront' : front' <+: bytes) : front = front' ∧ message = message' := by
  obtain ⟨header,body,rfl,hheader,hlen,hdecode⟩ := h
  obtain ⟨header',body',rfl,hheader',hlen',hdecode'⟩ := h'
  obtain rfl : header = header' := by
    refine List.IsPrefix.eq_of_length ?_ (hheader.trans hheader'.symm)
    exact List.prefix_of_prefix_length_le ((List.prefix_append header body).trans hfront)
      ((List.prefix_append header' body').trans hfront') (hheader.trans hheader'.symm).le
  have hbody : body.length = body'.length := Except.ok.inj (hlen.symm.trans hlen')
  have heq : header ++ body = header ++ body' := by
    refine List.IsPrefix.eq_of_length (List.prefix_of_prefix_length_le hfront hfront' ?_) ?_
    all_goals simp [hbody]
  obtain rfl := List.append_cancel_left heq
  exact ⟨rfl,Except.ok.inj (hdecode.symm.trans hdecode')⟩

/-- A message that is read was framed at the front of what was there, and what is behind it stays. -/
theorem framed_of_read {pace : List ℕ} (h : (read cbor ⟨bytes,pace⟩).result = .ok (some message)) :
    ∃ front, Framed cbor message front ∧ bytes = front ++ (read cbor ⟨bytes,pace⟩).rest.bytes := by
  by_cases hshort : bytes.length < HEADER
  · obtain ⟨pace',-,hread⟩ := read_short cbor hshort pace
    rw [hread] at h
    cases h
  obtain ⟨header,rest,rfl,hheader⟩ : ∃ header rest, bytes = header ++ rest ∧ header.length = HEADER :=
    ⟨bytes.take HEADER,bytes.drop HEADER,(List.take_append_drop _ _).symm,by rw [List.length_take]; omega⟩
  obtain ⟨pace',-,hread⟩ := read_header cbor hheader rest pace
  rw [hread] at h ⊢
  cases hlen : bodyLen header with
  | error e =>
    rw [hlen] at h
    cases h
  | ok len =>
    rw [hlen] at h
    dsimp only at h ⊢
    have hfst := Transport.readExact_fst len ⟨rest,pace'⟩
    have hsnd := Transport.readExact_snd len ⟨rest,pace'⟩
    rcases hexact : Transport.readExact len ⟨rest,pace'⟩ with ⟨_ | body,left⟩
    · rw [hexact] at h
      cases h
    · rw [hexact] at h hfst hsnd
      dsimp only at h hfst hsnd ⊢
      split at hfst
      · next hle =>
        obtain rfl := Option.some.inj hfst
        cases hdecode : decode cbor (rest.take len) with
        | error e =>
          rw [hdecode] at h
          cases h
        | ok message' =>
          rw [hdecode] at h
          obtain rfl : message' = message := by simpa using h
          refine ⟨header ++ rest.take len,⟨header,rest.take len,rfl,hheader,?_,hdecode⟩,?_⟩
          · rw [hlen,List.length_take,min_eq_left hle]
          · show header ++ rest = (header ++ rest.take len) ++ left.bytes
            rw [hsnd,List.append_assoc,List.take_append_drop]
      · cases hfst

/-- The two readers find the same message at the front. -/
theorem read_of_readNext {pace : List ℕ} (h : (readNext cbor ⟨bytes,pace⟩).result = .ok (some message)) :
    (read cbor ⟨bytes,pace⟩).result = .ok (some message) ∧
      (read cbor ⟨bytes,pace⟩).rest = (readNext cbor ⟨bytes,pace⟩).rest := by
  unfold readNext readBlocking at h ⊢
  unfold read
  rcases hheader : Transport.readExact HEADER ⟨bytes,pace⟩ with ⟨_ | header,rest⟩
  · rw [hheader] at h
    cases h
  rw [hheader] at h
  dsimp only at h ⊢
  cases hlen : bodyLen header with
  | error e =>
    rw [hlen] at h
    cases h
  | ok len =>
    rw [hlen] at h
    dsimp only at h ⊢
    rcases hbody : rest.readExact len with ⟨_ | body,left⟩
    · rw [hbody] at h
      cases h
    · rw [hbody] at h
      dsimp only at h ⊢
      cases hdecode : decode cbor body with
      | error e =>
        rw [hdecode] at h
        cases h
      | ok message' =>
        rw [hdecode] at h
        obtain rfl : message' = message := by simpa [Except.map] using h
        exact ⟨rfl,rfl⟩

variable {messages messages' : List T} {fronts fronts' : List (List UInt8)}

/-- Of two sequences of messages on one stream the shorter one begins the longer. -/
theorem framed_prefix (h : List.Forall₂ (Framed cbor) messages fronts) (h' : List.Forall₂ (Framed cbor) messages' fronts')
    (hbegins : fronts.flatten <+: fronts'.flatten) : messages <+: messages' := by
  induction h generalizing messages' fronts' with
  | nil => exact List.nil_prefix
  | @cons message front messages fronts hfront _ ih =>
    rw [List.flatten_cons] at hbegins
    cases h' with
    | nil =>
      have hnil := List.prefix_nil.mp hbegins
      exact absurd (List.append_eq_nil_iff.mp hnil).1 hfront.ne_nil
    | @cons message' front' messages' fronts' hfront' h' =>
      rw [List.flatten_cons] at hbegins
      obtain ⟨rfl,rfl⟩ := hfront.unique hfront' ((List.prefix_append _ _).trans hbegins) (List.prefix_append _ _)
      exact List.cons_prefix_cons.mpr ⟨rfl,ih h' ((List.prefix_append_right_inj front).mp hbegins)⟩

/-- Whoever reads a stream that was cut somewhere reads the messages that come first on it. -/
theorem drain_prefix (h : List.Forall₂ (Framed cbor) messages fronts) (hbegins : bytes <+: fronts.flatten) (fuel : ℕ)
    (pace : List ℕ) : (drain (readNext cbor) fuel ⟨bytes,pace⟩).1 <+: messages := by
  induction fuel generalizing messages fronts bytes pace with
  | zero => exact List.nil_prefix
  | succ fuel ih =>
    unfold drain
    split
    · exact List.nil_prefix
    · exact List.nil_prefix
    · next message hresult =>
      obtain ⟨hread,hrest⟩ := read_of_readNext hresult
      obtain ⟨front,hfront,hbytes⟩ := framed_of_read hread
      rw [hrest] at hbytes
      have hsome : front ++ (readNext cbor ⟨bytes,pace⟩).rest.bytes <+: fronts.flatten := hbytes ▸ hbegins
      cases h with
      | nil =>
        have hnil := List.prefix_nil.mp hsome
        exact absurd (List.append_eq_nil_iff.mp hnil).1 hfront.ne_nil
      | @cons message' front' messages fronts hfront' h =>
        rw [List.flatten_cons] at hsome
        obtain ⟨rfl,rfl⟩ := hfront.unique hfront' ((List.prefix_append _ _).trans hsome) (List.prefix_append _ _)
        exact List.cons_prefix_cons.mpr ⟨rfl,ih h ((List.prefix_append_right_inj front).mp hsome) _⟩

/-- Whoever reads a whole stream reads all of its messages. -/
theorem drain_all (hcbor : cbor.Faithful)
    (h : List.Forall₂ (fun message front => encode cbor message = .ok front) messages fronts) {fuel : ℕ}
    (hfuel : messages.length < fuel) (pace : List ℕ) :
    (drain (readNext cbor) fuel ⟨fronts.flatten,pace⟩).1 = messages := by
  obtain ⟨more,rfl⟩ : ∃ more, fuel = messages.length+(more+1) := ⟨fuel-messages.length-1,by omega⟩
  obtain ⟨pace',hdrain⟩ := drain_frames (readNext cbor) (fun message frame hframe rest pace => by
    obtain ⟨len,pace',hread,-⟩ := read_frame hcbor hframe rest pace
    exact ⟨pace',by rw [hread],by rw [hread]⟩) h [] (more+1) pace
  obtain ⟨pace'',hread,-⟩ := @read_short _ cbor [] (by decide) pace'
  rw [List.append_nil] at hdrain
  rw [hdrain]
  simp only [drain,hread,List.append_nil]

end
end Nightshade.Proto
