import Mission10.Uwb.HostCodec

/-!
# Round trip of the host codec

Both directions of the link use one codec with two types of envelope. Every
current envelope has a frame, which fits the frame buffer, ends at its only zero
byte and is decoded to the envelope; and a frame that is decoded holds the
checksum of the packed envelope and nothing after it.
-/
namespace Mission10.Uwb

open Wire

namespace HostCodec

variable {α : Type} [Wire α]

/-- The codec at one type of envelope. -/
def decodeEnvelope (crates : Crates) (version : α → UInt8) (frame : List UInt8) :
    Except HostFrameError α := do
  let payload ← decodePayload crates frame
  match crates.deserialize α payload with
  | none => .error .hubpack
  | some (envelope, rest) =>
    validateDecoded (version envelope) rest
    .ok envelope

theorem decodeHostToRadio_eq (crates : Crates) :
    decodeHostToRadio crates = decodeEnvelope crates HostToRadioEnvelope.protocolVersion := by
  funext frame
  unfold decodeHostToRadio decodeEnvelope
  congr 1
  funext payload
  cases crates.deserialize HostToRadioEnvelope payload with
  | none => rfl
  | some out => rfl

theorem decodeRadioToHost_eq (crates : Crates) :
    decodeRadioToHost crates = decodeEnvelope crates RadioToHostEnvelope.protocolVersion := by
  funext frame
  unfold decodeRadioToHost decodeEnvelope
  congr 1
  funext payload
  cases crates.deserialize RadioToHostEnvelope payload with
  | none => rfl
  | some out => rfl

/-- The frame of an envelope. -/
structure Framed (crates : Crates) (decoder : List UInt8 → Except HostFrameError α)
    (envelope : α) (frame : List UInt8) : Prop where
  zeroLast : ∃ body, frame = body ++ [0] ∧ (0 : UInt8) ∉ body
  fits : frame.length ≤ hostFrameMaxSize crates
  decoded : decoder frame = .ok envelope

/-- What an accepted frame holds: the packed envelope and its checksum. -/
structure Accepted (crates : Crates) (version : α → UInt8) (frame : List UInt8) (envelope : α)
    (payload : List UInt8) (suffix : List UInt8) : Prop where
  raw : crates.decodeBuf frame = some (payload ++ suffix)
  suffixLength : suffix.length = 4
  checksum : crates.checksum payload = UInt32.ofNat (leNat suffix)
  noTrailing : crates.deserialize α payload = some (envelope, [])
  current : version envelope = hostProtocolVersion
  repacked : crates.serialize hostEnvelopeMaxSize envelope = some payload

/-- The two laws of the codec at one type of envelope. -/
structure RoundTrip (crates : Crates) (version : α → UInt8)
    (encoder : α → Except HostFrameError (List UInt8))
    (decoder : List UInt8 → Except HostFrameError α) : Prop where
  encodes : ∀ envelope, version envelope = hostProtocolVersion →
    ∃ frame, encoder envelope = .ok frame ∧ Framed crates decoder envelope frame
  decodes : ∀ frame envelope, decoder frame = .ok envelope →
    ∃ payload suffix, Accepted crates version frame envelope payload suffix

/-! ### Accepted frames -/

theorem validateDecoded_ok {version : UInt8} {rest : List UInt8} {u : Unit}
    (h : validateDecoded version rest = .ok u) : rest = [] ∧ version = hostProtocolVersion := by
  unfold validateDecoded at h
  split_ifs at h with hrest hversion
  exact ⟨not_not.mp hrest, not_not.mp hversion⟩

/-- A payload comes out only before a matching checksum. -/
theorem decodePayload_ok {crates : Crates} {frame payload : List UInt8}
    (h : decodePayload crates frame = .ok payload) :
    ∃ suffix, crates.decodeBuf frame = some (payload ++ suffix) ∧ suffix.length = 4 ∧
      crates.checksum payload = UInt32.ofNat (leNat suffix) := by
  unfold decodePayload at h
  cases hraw : crates.decodeBuf frame with
  | none =>
    rw [hraw] at h
    cases h
  | some raw =>
    rw [hraw] at h
    dsimp only at h
    split_ifs at h with hshort hchecksum
    obtain rfl := Except.ok.inj h
    refine ⟨raw.drop (raw.length - 4), ?_, ?_, not_not.mp hchecksum⟩
    · rw [List.take_append_drop]
    · rw [List.length_drop]
      omega

/-- A decoded envelope passed all four checks. -/
theorem decodeEnvelope_ok {crates : Crates} {version : α → UInt8} {frame : List UInt8}
    {envelope : α} (h : decodeEnvelope crates version frame = .ok envelope) :
    ∃ payload, decodePayload crates frame = .ok payload ∧
      crates.deserialize α payload = some (envelope, []) ∧
      version envelope = hostProtocolVersion := by
  unfold decodeEnvelope at h
  cases hpayload : decodePayload crates frame with
  | error e =>
    rw [hpayload] at h
    cases h
  | ok payload =>
    rw [hpayload] at h
    simp only [bind, Except.bind] at h
    refine ⟨payload, rfl, ?_⟩
    cases hread : crates.deserialize α payload with
    | none =>
      rw [hread] at h
      cases h
    | some out =>
      obtain ⟨decoded, rest⟩ := out
      rw [hread] at h
      dsimp only at h
      cases hcheck : validateDecoded (version decoded) rest with
      | error e =>
        rw [hcheck] at h
        cases h
      | ok u =>
        rw [hcheck] at h
        obtain rfl := Except.ok.inj h
        obtain ⟨rfl, hversion⟩ := validateDecoded_ok hcheck
        exact ⟨rfl, hversion⟩

variable [LawfulWire α] {crates : Crates}

theorem decodeEnvelope_accepted (documented : crates.Documented)
    (hsize : maxSize α ≤ hostEnvelopeMaxSize) {version : α → UInt8} {frame : List UInt8}
    {envelope : α} (h : decodeEnvelope crates version frame = .ok envelope) :
    ∃ payload suffix, Accepted crates version frame envelope payload suffix := by
  obtain ⟨payload, hpayload, hread, hversion⟩ := decodeEnvelope_ok h
  obtain ⟨suffix, hraw, hlen, hsum⟩ := decodePayload_ok hpayload
  have hdecode : decode payload = some (envelope, []) := by
    rw [← documented.deserialize payload]
    exact hread
  have hbytes : payload = encode envelope := by
    have happend := LawfulWire.encode_of_decode hdecode
    rwa [List.append_nil] at happend
  have hfits : (encode envelope).length ≤ hostEnvelopeMaxSize :=
    (LawfulWire.length_le envelope).trans hsize
  have hpacked : crates.serialize hostEnvelopeMaxSize envelope = some payload := by
    rw [documented.serialize hostEnvelopeMaxSize envelope hfits, hbytes]
  exact ⟨payload, suffix, hraw, hlen, hsum, hread, hversion, hpacked⟩

/-! ### Frames of envelopes -/

theorem length_protect (payload : List UInt8) : (protect payload).length = payload.length + 4 := by
  rw [protect, List.length_append, length_leBytes]

/-- The stuffed payload of an envelope fits the frame buffer. -/
theorem length_frame_protect_le (documented : crates.Documented)
    (hsize : maxSize α ≤ hostEnvelopeMaxSize) (envelope : α) :
    (Cobs.frame (protect (encode envelope))).length ≤ hostFrameMaxSize crates := by
  have hraw : hostRawMaxSize < Cobs.maxRun := by decide
  have hlen : (protect (encode envelope)).length ≤ hostRawMaxSize := by
    have hpacked := (LawfulWire.length_le envelope).trans hsize
    rw [length_protect, hostRawMaxSize]
    omega
  have hshort : (protect (encode envelope)).length / Cobs.maxRun = 0 :=
    Nat.div_eq_of_lt (Nat.lt_of_le_of_lt hlen hraw)
  have hframe := Cobs.length_frame_le (protect (encode envelope))
  rw [hshort] at hframe
  rw [hostFrameMaxSize, documented.maxEncodedLen _ hraw]
  omega

theorem decodeEnvelope_frame (documented : crates.Documented)
    (hsize : maxSize α ≤ hostEnvelopeMaxSize) {version : α → UInt8} {envelope : α}
    (hversion : version envelope = hostProtocolVersion) :
    decodeEnvelope crates version (Cobs.frame (protect (encode envelope))) = .ok envelope := by
  have hpacked := (LawfulWire.length_le envelope).trans hsize
  have hmax : hostEnvelopeMaxSize + 4 < Cobs.maxRun := by decide
  unfold decodeEnvelope
  rw [decodePayload_protect documented (by omega)]
  simp [documented.deserialize, decode_encode_nil, validateDecoded, hversion, bind, Except.bind]

/-- Both laws, for any type of envelope that fits the buffers. -/
theorem roundTrip (documented : crates.Documented) (hsize : maxSize α ≤ hostEnvelopeMaxSize)
    (version : α → UInt8) :
    RoundTrip crates version (encodeEnvelope crates) (decodeEnvelope crates version) := by
  constructor
  · intro envelope hversion
    refine ⟨_, encodeEnvelope_ok documented envelope hsize, ?_⟩
    exact ⟨⟨_, rfl, Cobs.zero_notMem_stuff _⟩, length_frame_protect_le documented hsize envelope,
      decodeEnvelope_frame documented hsize hversion⟩
  · intro frame envelope h
    exact decodeEnvelope_accepted documented hsize h

/-- The host codec keeps both laws in both directions of the link. -/
theorem host_codec_round_trip (documented : crates.Documented) :
    RoundTrip crates HostToRadioEnvelope.protocolVersion (encodeHostToRadio crates)
      (decodeHostToRadio crates) ∧
    RoundTrip crates RadioToHostEnvelope.protocolVersion (encodeRadioToHost crates)
      (decodeRadioToHost crates) := by
  constructor
  · rw [decodeHostToRadio_eq]
    exact roundTrip documented (Nat.le_max_left _ _) _
  · rw [decodeRadioToHost_eq]
    exact roundTrip documented (Nat.le_max_right _ _) _

/-- Both laws with the reference crates. -/
theorem host_codec_round_trip_reference :
    RoundTrip Crates.reference HostToRadioEnvelope.protocolVersion
      (encodeHostToRadio Crates.reference) (decodeHostToRadio Crates.reference) ∧
    RoundTrip Crates.reference RadioToHostEnvelope.protocolVersion
      (encodeRadioToHost Crates.reference) (decodeRadioToHost Crates.reference) :=
  host_codec_round_trip Crates.reference_documented

end HostCodec

end Mission10.Uwb
