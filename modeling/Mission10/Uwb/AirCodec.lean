import Mathlib
import Mission10.Uwb.HostCodec

/-!
# Addressed air frames

The five messages of a ranging exchange and the fleet mode, packed behind a
short-addressed 802.15.4 data header. The header codec is a crate; what it
documents for a header of this form is that it takes nine bytes and is read
back in front of any payload.
-/
namespace Mission10.Uwb

open Wire

def airProtocolVersion : UInt8 := 6
def panId : UInt16 := 0x4d10
def broadcastAddress : UInt16 := 0xffff
def airFrameMaxNoFcs : ℕ := 125
def reportStatusClose : UInt16 := 1
def macHeaderSize : ℕ := 9

inductive AirMessage where
  | poll (state : EgoState)
  | response (pollRx responseTx : UInt64) (state : EgoState)
  | final (pollTx responseRx finalTx : UInt64)
  | report (finalRx : UInt64) (status : UInt16)
  | fleetMode (mode : FleetMode)
  deriving DecidableEq

namespace AirMessage

abbrev Response := UInt64 × UInt64 × EgoState
abbrev Final := UInt64 × UInt64 × UInt64
abbrev Report := UInt64 × UInt16

def ofResponse (fields : Response) : AirMessage := .response fields.1 fields.2.1 fields.2.2
def ofFinal (fields : Final) : AirMessage := .final fields.1 fields.2.1 fields.2.2
def ofReport (fields : Report) : AirMessage := .report fields.1 fields.2

/-- The device timestamps a message carries. -/
def timestamps : AirMessage → List UInt64
  | .response pollRx responseTx _ => [pollRx, responseTx]
  | .final pollTx responseRx finalTx => [pollTx, responseRx, finalTx]
  | .report finalRx _ => [finalRx]
  | _ => []

def isFleetMode : AirMessage → Bool
  | .fleetMode _ => true
  | _ => false

end AirMessage

instance : Wire AirMessage where
  encode
    | .poll state => 0 :: encode state
    | .response pollRx responseTx state => 1 :: encode (pollRx, responseTx, state)
    | .final pollTx responseRx finalTx => 2 :: encode (pollTx, responseRx, finalTx)
    | .report finalRx status => 3 :: encode (finalRx, status)
    | .fleetMode mode => 4 :: encode mode
  decode
    | [] => none
    | tag :: bytes =>
      match tag.toNat with
      | 0 => decodeAs AirMessage.poll bytes
      | 1 => decodeAs AirMessage.ofResponse bytes
      | 2 => decodeAs AirMessage.ofFinal bytes
      | 3 => decodeAs AirMessage.ofReport bytes
      | 4 => decodeAs AirMessage.fleetMode bytes
      | _ => none
  maxSize := 1 + max (maxSize EgoState) (max (maxSize AirMessage.Response)
    (max (maxSize AirMessage.Final) (max (maxSize AirMessage.Report) (maxSize FleetMode))))

instance : LawfulWire AirMessage where
  decode_encode := by
    intro message rest
    cases message with
    | poll state => exact decodeAs_encode AirMessage.poll _ _
    | response pollRx responseTx state =>
      exact decodeAs_encode AirMessage.ofResponse (pollRx, responseTx, state) _
    | final pollTx responseRx finalTx =>
      exact decodeAs_encode AirMessage.ofFinal (pollTx, responseRx, finalTx) _
    | report finalRx status => exact decodeAs_encode AirMessage.ofReport (finalRx, status) _
    | fleetMode mode => exact decodeAs_encode AirMessage.fleetMode _ _
  encode_of_decode := by
    intro bytes message rest h
    cases bytes with
    | nil => cases h
    | cons tag bytes =>
      simp only [decode] at h
      split at h
      case h_6 => cases h
      all_goals
        next htag =>
          obtain ⟨payload, rfl, rfl⟩ := decodeAs_some h
          obtain rfl := byte_of_toNat htag
          rfl
  length_le := by
    intro message
    cases message with
    | poll state => exact length_tagged_le 0 (LawfulWire.length_le _) (by decide)
    | response pollRx responseTx state =>
      exact length_tagged_le 1 (LawfulWire.length_le (pollRx, responseTx, state)) (by decide)
    | final pollTx responseRx finalTx =>
      exact length_tagged_le 2 (LawfulWire.length_le (pollTx, responseRx, finalTx)) (by decide)
    | report finalRx status =>
      exact length_tagged_le 3 (LawfulWire.length_le (finalRx, status)) (by decide)
    | fleetMode mode => exact length_tagged_le 4 (LawfulWire.length_le _) (by decide)

structure AirEnvelope where
  protocolVersion : UInt8 := airProtocolVersion
  exchangeId : ExchangeId
  message : AirMessage
  deriving DecidableEq

namespace AirEnvelope

abbrev Fields := UInt8 × ExchangeId × AirMessage

def toFields (envelope : AirEnvelope) : Fields :=
  (envelope.protocolVersion, envelope.exchangeId, envelope.message)

def ofFields (fields : Fields) : AirEnvelope := ⟨fields.1, fields.2.1, fields.2.2⟩

end AirEnvelope

instance : Wire AirEnvelope := via AirEnvelope.toFields fun fields => some (.ofFields fields)

instance : LawfulWire AirEnvelope :=
  via_lawful AirEnvelope.toFields (fun fields => some (.ofFields fields)) (fun _ => rfl)
    fun _ _ h => by rw [← Option.some.inj h]; rfl

def airEnvelopeMaxSize : ℕ := maxSize AirEnvelope

example : macHeaderSize + airEnvelopeMaxSize ≤ airFrameMaxNoFcs := by decide

/-- The IEEE short-address representation. -/
def Destination.get : Destination → UInt16
  | .node address => address.get
  | .broadcast => broadcastAddress

inductive FrameType where
  | beacon
  | data
  | acknowledgement
  | macCommand
  | other (bits : UInt8)
  deriving DecidableEq

inductive FrameVersion where
  | ieee802154_2003
  | ieee802154_2006
  | ieee802154
  | other (bits : UInt8)
  deriving DecidableEq

/-- A header address. A short address is two bytes, the high one first. -/
inductive MacAddress where
  | absent
  | short (high low : UInt8)
  | extended (bytes : List UInt8)
  deriving DecidableEq

/-- The header fields of the 802.15.4 crate. -/
structure MacRepr where
  frameType : FrameType
  securityEnabled : Bool
  framePending : Bool
  ackRequest : Bool
  sequenceNumber : Option UInt8
  panIdCompression : Bool
  frameVersion : FrameVersion
  dstPanId : Option UInt16
  dstAddr : Option MacAddress
  srcPanId : Option UInt16
  srcAddr : Option MacAddress
  deriving DecidableEq

/-- The 802.15.4 crate: writing a header, and reading a header and the payload
after it. -/
structure MacCrate where
  emit : MacRepr → List UInt8
  parse : List UInt8 → Option (MacRepr × Option (List UInt8))

/-- A data header with short addresses in one network. -/
structure MacRepr.ShortData (repr : MacRepr) : Prop where
  frameType : repr.frameType = .data
  securityEnabled : repr.securityEnabled = false
  sequenceNumber : repr.sequenceNumber.isSome
  panIdCompression : repr.panIdCompression = true
  frameVersion : repr.frameVersion = .ieee802154_2006
  dstPanId : repr.dstPanId.isSome
  dstAddr : ∃ high low, repr.dstAddr = some (.short high low)
  srcPanId : repr.srcPanId = none
  srcAddr : ∃ high low, repr.srcAddr = some (.short high low)

/-- What the crate documents about such a header. -/
structure MacCrate.Documented (mac : MacCrate) : Prop where
  emit_length : ∀ repr, repr.ShortData → (mac.emit repr).length = macHeaderSize
  parse_emit : ∀ repr payload, repr.ShortData →
    mac.parse (mac.emit repr ++ payload) = some (repr, some payload)

inductive AirEncodeError where
  | broadcastRanging
  | fleetModeUnicast
  | invalidTimestamp
  | hubpack
  deriving DecidableEq

inductive AirDecodeError where
  | mac
  | frameType
  | security
  | frameVersion
  | pan
  | addressing
  | destination
  | broadcastRanging
  | fleetModeUnicast
  | hubpack
  | trailingData
  | protocolVersion (version : UInt8)
  | invalidTimestamp
  deriving DecidableEq

structure DecodedAirFrame where
  source : NodeAddress
  destination : Destination
  macSequence : UInt8
  envelope : AirEnvelope
  deriving DecidableEq

namespace AirCodec

def shortAddress (address : UInt16) : MacAddress :=
  .short (address >>> 8).toUInt8 address.toUInt8

def decodeShort : Option MacAddress → Option UInt16
  | some (.short high low) => some (high.toUInt16 <<< 8 ||| low.toUInt16)
  | _ => none

def timestampValid (timestamp : UInt64) : Bool := timestamp ≤ timestampMask

def timestampsValid : AirMessage → Bool
  | .poll _ => true
  | .response pollRx responseTx _ => timestampValid pollRx && timestampValid responseTx
  | .final pollTx responseRx finalTx =>
    timestampValid pollTx && timestampValid responseRx && timestampValid finalTx
  | .report finalRx _ => timestampValid finalRx
  | .fleetMode _ => true

/-- Bytes written over the front of a buffer. -/
def overwrite (front buffer : List UInt8) : List UInt8 := front ++ buffer.drop front.length

section Codec

variable (crates : Crates) (mac : MacCrate)

/-- The header of a frame. -/
def header (source : NodeAddress) (destination : Destination) (macSequence : UInt8) :
    MacRepr where
  frameType := .data
  securityEnabled := false
  framePending := false
  ackRequest := false
  sequenceNumber := some macSequence
  panIdCompression := true
  frameVersion := .ieee802154_2006
  dstPanId := some panId
  dstAddr := some (shortAddress destination.get)
  srcPanId := none
  srcAddr := some (shortAddress source.get)

def encode (source : NodeAddress) (destination : Destination) (macSequence : UInt8)
    (envelope : AirEnvelope) : Except AirEncodeError (List UInt8) :=
  if destination = .broadcast ∧ !envelope.message.isFleetMode then .error .broadcastRanging
  else if destination ≠ .broadcast ∧ envelope.message.isFleetMode then .error .fleetModeUnicast
  else if !timestampsValid envelope.message then .error .invalidTimestamp
  else
    match crates.serialize airEnvelopeMaxSize envelope with
    | none => .error .hubpack
    | some payload =>
      .ok (overwrite (mac.emit (header source destination macSequence))
        (List.replicate macHeaderSize 0 ++ payload))

/-- The checks on the addresses of a header, for the radio at `local`. -/
def addressing (repr : MacRepr) (localAddress : NodeAddress) :
    Except AirDecodeError (NodeAddress × Destination) :=
  match (decodeShort repr.srcAddr).bind NodeAddress.new, decodeShort repr.dstAddr with
  | none, _ => .error .addressing
  | some _, none => .error .addressing
  | some source, some raw =>
    if raw ≠ localAddress.get ∧ raw ≠ broadcastAddress then .error .destination
    else if raw = broadcastAddress then .ok (source, .broadcast)
    else
      match NodeAddress.new raw with
      | none => .error .addressing
      | some node => .ok (source, .node node)

/-- The checks on the payload of a frame. -/
def openEnvelope (destination : Destination) (payload : List UInt8) :
    Except AirDecodeError AirEnvelope :=
  match crates.deserialize AirEnvelope payload with
  | none => .error .hubpack
  | some (envelope, rest) =>
    if rest ≠ [] then .error .trailingData
    else if envelope.protocolVersion ≠ airProtocolVersion then
      .error (.protocolVersion envelope.protocolVersion)
    else if destination = .broadcast ∧ !envelope.message.isFleetMode then
      .error .broadcastRanging
    else if destination ≠ .broadcast ∧ envelope.message.isFleetMode then
      .error .fleetModeUnicast
    else if !timestampsValid envelope.message then .error .invalidTimestamp
    else .ok envelope

def decode (bytes : List UInt8) (localAddress : NodeAddress) :
    Except AirDecodeError DecodedAirFrame :=
  match mac.parse bytes with
  | none => .error .mac
  | some (repr, payload) =>
    if repr.frameType ≠ .data then .error .frameType
    else if repr.securityEnabled then .error .security
    else if repr.frameVersion ≠ .ieee802154_2006 then .error .frameVersion
    else if repr.dstPanId ≠ some panId then .error .pan
    else
      match addressing repr localAddress with
      | .error err => .error err
      | .ok (source, destination) =>
        match repr.sequenceNumber, payload with
        | none, _ => .error .addressing
        | some _, none => .error .frameType
        | some macSequence, some payload =>
          match openEnvelope crates destination payload with
          | .error err => .error err
          | .ok envelope => .ok { source, destination, macSequence, envelope }

end Codec

theorem decodeShort_shortAddress (address : UInt16) :
    decodeShort (some (shortAddress address)) = some address := by
  have hlt := address.toNat_lt
  have hhigh : (address.toNat >>> 8 % 256) <<< 8 % 65536 = (address.toNat / 256) <<< 8 := by
    rw [Nat.shiftRight_eq_div_pow, Nat.shiftLeft_eq, Nat.shiftLeft_eq]
    omega
  have hor := Nat.shiftLeft_add_eq_or_of_lt (show address.toNat % 256 < 2 ^ 8 by omega)
    (address.toNat / 256)
  rw [shortAddress, decodeShort, Option.some.injEq]
  apply UInt16.toNat_inj.mp
  simp only [UInt16.toNat_or, UInt16.toNat_shiftLeft, UInt8.toNat_toUInt16, UInt16.toNat_toUInt8,
    UInt16.toNat_shiftRight]
  change (address.toNat >>> 8 % 256) <<< 8 % 65536 ||| address.toNat % 256 = address.toNat
  rw [hhigh, ← hor, Nat.shiftLeft_eq]
  omega

theorem timestampValid_iff (timestamp : UInt64) :
    timestampValid timestamp = true ↔ timestamp.toNat < 2 ^ 40 := by
  have hmask : timestampMask.toNat = 2 ^ 40 - 1 := by decide
  rw [timestampValid, decide_eq_true_iff, UInt64.le_iff_toNat_le, hmask]
  omega

/-- A message is valid when all its timestamps are 40-bit counts. -/
theorem timestampsValid_iff (message : AirMessage) :
    timestampsValid message = true ↔ ∀ t ∈ message.timestamps, t.toNat < 2 ^ 40 := by
  cases message <;> simp [timestampsValid, AirMessage.timestamps, timestampValid_iff, and_assoc]

/-- A node address is not the broadcast address. -/
theorem get_ne_broadcast (address : NodeAddress) : address.get ≠ broadcastAddress := by
  intro h
  have hvalid := address.valid
  rw [h] at hvalid
  revert hvalid
  decide

theorem header_shortData (source : NodeAddress) (destination : Destination) (macSequence : UInt8) :
    (header source destination macSequence).ShortData where
  frameType := rfl
  securityEnabled := rfl
  sequenceNumber := rfl
  panIdCompression := rfl
  frameVersion := rfl
  dstPanId := rfl
  dstAddr := ⟨_, _, rfl⟩
  srcPanId := rfl
  srcAddr := ⟨_, _, rfl⟩

/-- An envelope may go to a destination: it is of the current version, a fleet
mode exactly when it is broadcast, and its timestamps are 40-bit counts. -/
structure Sendable (destination : Destination) (envelope : AirEnvelope) : Prop where
  protocolVersion : envelope.protocolVersion = airProtocolVersion
  addressing : destination = .broadcast ↔ envelope.message.isFleetMode = true
  timestamps : ∀ t ∈ envelope.message.timestamps, t.toNat < 2 ^ 40

/-- Neither side refuses it. -/
theorem Sendable.checks {destination : Destination} {envelope : AirEnvelope}
    (h : Sendable destination envelope) :
    ¬ (destination = .broadcast ∧ !envelope.message.isFleetMode) ∧
      ¬ (destination ≠ .broadcast ∧ envelope.message.isFleetMode) ∧
        timestampsValid envelope.message = true := by
  refine ⟨?_, ?_, (timestampsValid_iff _).mpr h.timestamps⟩
  · rintro ⟨hb, hm⟩
    simp [h.addressing.mp hb] at hm
  · rintro ⟨hb, hm⟩
    exact hb (h.addressing.mpr hm)

section Documented

variable {crates : Crates} {mac : MacCrate} (hcrates : crates.Documented)
  (hmac : mac.Documented)

include hcrates hmac in
theorem encode_ok {source : NodeAddress} {destination : Destination} {macSequence : UInt8}
    {envelope : AirEnvelope} (h : Sendable destination envelope) :
    encode crates mac source destination macSequence envelope =
      .ok (mac.emit (header source destination macSequence) ++ Wire.encode envelope) := by
  obtain ⟨hfleet, hunicast, htimes⟩ := h.checks
  have hlength := hmac.emit_length _ (header_shortData source destination macSequence)
  rw [encode, if_neg hfleet, if_neg hunicast, if_neg (by simp [htimes]),
    hcrates.serialize airEnvelopeMaxSize envelope (LawfulWire.length_le envelope)]
  simp [overwrite, hlength, macHeaderSize]

include hcrates in
theorem openEnvelope_ok {destination : Destination} {envelope : AirEnvelope}
    (h : Sendable destination envelope) :
    openEnvelope crates destination (Wire.encode envelope) = .ok envelope := by
  obtain ⟨hfleet, hunicast, htimes⟩ := h.checks
  simp only [openEnvelope, hcrates.deserialize, decode_encode_nil]
  rw [if_neg (by simp), if_neg (by simp [h.protocolVersion]), if_neg hfleet, if_neg hunicast,
    if_neg (by simp [htimes])]

theorem addressing_header {source : NodeAddress} {destination : Destination}
    {macSequence : UInt8} {localAddress : NodeAddress}
    (hlocal : destination = .node localAddress ∨ destination = .broadcast) :
    addressing (header source destination macSequence) localAddress =
      .ok (source, destination) := by
  simp only [addressing, header, decodeShort_shortAddress, Option.bind_some,
    NodeAddress.new_get]
  rcases hlocal with rfl | rfl
  · have hne := get_ne_broadcast localAddress
    simp [Destination.get, hne]
  · simp [Destination.get]

include hcrates hmac in
theorem decode_frame {source : NodeAddress} {destination : Destination} {macSequence : UInt8}
    {envelope : AirEnvelope} {localAddress : NodeAddress} (h : Sendable destination envelope)
    (hlocal : destination = .node localAddress ∨ destination = .broadcast) :
    decode crates mac
        (mac.emit (header source destination macSequence) ++ Wire.encode envelope) localAddress =
      .ok { source, destination, macSequence, envelope } := by
  have hparse := hmac.parse_emit _ (Wire.encode envelope)
    (header_shortData source destination macSequence)
  unfold decode
  rw [hparse]
  simp only [addressing_header hlocal]
  simp [header, openEnvelope_ok hcrates h]

include hcrates in
theorem openEnvelope_sound {destination : Destination} {payload : List UInt8}
    {envelope : AirEnvelope} (h : openEnvelope crates destination payload = .ok envelope) :
    payload = Wire.encode envelope ∧ Sendable destination envelope := by
  simp only [openEnvelope, hcrates.deserialize] at h
  cases hdecode : (Wire.decode payload : Option (AirEnvelope × List UInt8)) with
  | none => simp [hdecode] at h
  | some out =>
    obtain ⟨read, rest⟩ := out
    simp only [hdecode] at h
    split_ifs at h with hrest hversion hfleet hunicast htimes
    obtain rfl := Except.ok.inj h
    rw [not_not] at hrest hversion
    refine ⟨?_, hversion, ?_, ?_⟩
    · have hbytes := LawfulWire.encode_of_decode hdecode
      rw [hrest, List.append_nil] at hbytes
      exact hbytes
    · constructor
      · intro hb
        by_contra hm
        exact hfleet ⟨hb, by simpa using hm⟩
      · intro hm
        by_contra hb
        exact hunicast ⟨hb, hm⟩
    · exact (timestampsValid_iff _).mp (by simpa using htimes)

theorem addressing_sound {repr : MacRepr} {localAddress source : NodeAddress}
    {destination : Destination} (h : addressing repr localAddress = .ok (source, destination)) :
    decodeShort repr.srcAddr = some source.get ∧
      decodeShort repr.dstAddr = some destination.get ∧
      (destination = .node localAddress ∨ destination = .broadcast) := by
  unfold addressing at h
  split at h
  · cases h
  · cases h
  · rename_i node raw hsource hraw
    obtain ⟨word, hword, hnode⟩ := Option.bind_eq_some_iff.mp hsource
    rw [← NodeAddress.new_eq_some.mp hnode] at hword
    split_ifs at h with hother hbroadcast
    · obtain ⟨rfl, rfl⟩ := Prod.mk.inj (Except.ok.inj h)
      exact ⟨hword, by rw [hraw, hbroadcast]; rfl, Or.inr rfl⟩
    · split at h
      · cases h
      · rename_i node' hnode'
        obtain ⟨rfl, rfl⟩ := Prod.mk.inj (Except.ok.inj h)
        have hget := NodeAddress.new_eq_some.mp hnode'
        have hlocal : raw = localAddress.get := by
          by_contra hne
          exact hother ⟨hne, hbroadcast⟩
        refine ⟨hword, by rw [hraw, ← hget]; rfl, Or.inl ?_⟩
        rw [NodeAddress.ext_get (hget.trans hlocal)]

/-- What a frame carried that was accepted at `localAddress` as `frame`. -/
structure Accepted (mac : MacCrate) (bytes : List UInt8) (localAddress : NodeAddress)
    (frame : DecodedAirFrame) : Prop where
  /-- The header was that of a plain data frame of the mission network. -/
  header : ∃ repr, mac.parse bytes = some (repr, some (Wire.encode frame.envelope)) ∧
    repr.frameType = .data ∧ repr.securityEnabled = false ∧
    repr.frameVersion = .ieee802154_2006 ∧ repr.dstPanId = some panId ∧
    decodeShort repr.srcAddr = some frame.source.get ∧
    decodeShort repr.dstAddr = some frame.destination.get ∧
    repr.sequenceNumber = some frame.macSequence
  destination : frame.destination = .node localAddress ∨ frame.destination = .broadcast
  sendable : Sendable frame.destination frame.envelope

include hcrates in
theorem decode_sound {bytes : List UInt8} {localAddress : NodeAddress} {frame : DecodedAirFrame}
    (h : decode crates mac bytes localAddress = .ok frame) :
    Accepted mac bytes localAddress frame := by
  unfold decode at h
  cases hparse : mac.parse bytes with
  | none => simp [hparse] at h
  | some out =>
    obtain ⟨repr, payload⟩ := out
    simp only [hparse] at h
    split_ifs at h with htype hsecurity hversion hpan
    rw [not_not] at htype hversion hpan
    cases haddress : addressing repr localAddress with
    | error err => simp [haddress] at h
    | ok out =>
      obtain ⟨source, destination⟩ := out
      simp only [haddress] at h
      obtain ⟨hsource, hdest, hlocal⟩ := addressing_sound haddress
      split at h
      · cases h
      · cases h
      · rename_i macSequence payload hsequence
        cases hopen : openEnvelope crates destination payload with
        | error err => simp [hopen] at h
        | ok envelope =>
          simp only [hopen, Except.ok.injEq] at h
          subst h
          obtain ⟨rfl, hsendable⟩ := openEnvelope_sound hcrates hopen
          exact ⟨⟨repr, hparse, htype, by simpa using hsecurity, hversion, hpan, hsource, hdest,
            hsequence⟩, hlocal, hsendable⟩

/-- A sendable envelope is read back by the radio it is sent to, a broadcast by
any radio, with all its addresses; and whatever a radio accepts was addressed to
it in the mission network and carried one sendable envelope and nothing more. -/
theorem air_codec (hcrates : crates.Documented) (hmac : mac.Documented) :
    (∀ source destination macSequence envelope, Sendable destination envelope →
      ∃ bytes, encode crates mac source destination macSequence envelope = .ok bytes ∧
        ∀ localAddress, destination = .node localAddress ∨ destination = .broadcast →
          decode crates mac bytes localAddress =
            .ok { source, destination, macSequence, envelope }) ∧
    ∀ bytes localAddress frame, decode crates mac bytes localAddress = .ok frame →
      Accepted mac bytes localAddress frame := by
  constructor
  · intro source destination macSequence envelope h
    exact ⟨_, encode_ok hcrates hmac h, fun localAddress hlocal =>
      decode_frame hcrates hmac h hlocal⟩
  · intro bytes localAddress frame h
    exact decode_sound hcrates h

end Documented

/-- The first byte of the frame control field of a short data header. -/
def controlByte (framePending ackRequest : Bool) : UInt8 :=
  0x41 ||| (if framePending then 0x10 else 0) ||| (if ackRequest then 0x20 else 0)

/-- A header codec for short data headers alone. -/
def referenceMac : MacCrate where
  emit repr :=
    match repr.sequenceNumber, repr.dstPanId, repr.dstAddr, repr.srcAddr with
    | some sequence, some pan, some (.short dstHigh dstLow), some (.short srcHigh srcLow) =>
      [controlByte repr.framePending repr.ackRequest, 0x98, sequence, pan.toUInt8,
        (pan >>> 8).toUInt8, dstLow, dstHigh, srcLow, srcHigh]
    | _, _, _, _ => []
  parse
    | control :: 0x98 :: sequence :: panLow :: panHigh :: dstLow :: dstHigh :: srcLow :: srcHigh ::
        payload =>
      if control &&& 0xcf = 0x41 then
        some ({ frameType := .data
                securityEnabled := false
                framePending := control &&& 0x10 ≠ 0
                ackRequest := control &&& 0x20 ≠ 0
                sequenceNumber := some sequence
                panIdCompression := true
                frameVersion := .ieee802154_2006
                dstPanId := some (panHigh.toUInt16 <<< 8 ||| panLow.toUInt16)
                dstAddr := some (.short dstHigh dstLow)
                srcPanId := none
                srcAddr := some (.short srcHigh srcLow) }, some payload)
      else none
    | _ => none

theorem referenceMac_documented : referenceMac.Documented where
  emit_length repr h := by
    obtain ⟨sequence, hsequence⟩ := Option.isSome_iff_exists.mp h.sequenceNumber
    obtain ⟨pan, hpan⟩ := Option.isSome_iff_exists.mp h.dstPanId
    obtain ⟨dstHigh, dstLow, hdst⟩ := h.dstAddr
    obtain ⟨srcHigh, srcLow, hsrc⟩ := h.srcAddr
    simp [referenceMac, hsequence, hpan, hdst, hsrc, macHeaderSize]
  parse_emit repr payload h := by
    obtain ⟨htype, hsecurity, hsequence, hcompression, hversion, hpan, hdst, hsrcPan, hsrc⟩ := h
    obtain ⟨frameType, security, pending, ack, sequence, compression, version, pan, dst, srcPan,
      src⟩ := repr
    obtain ⟨sequence, rfl⟩ := Option.isSome_iff_exists.mp hsequence
    obtain ⟨pan, rfl⟩ := Option.isSome_iff_exists.mp hpan
    obtain ⟨dstHigh, dstLow, rfl⟩ := hdst
    obtain ⟨srcHigh, srcLow, rfl⟩ := hsrc
    dsimp only at htype hsecurity hcompression hversion hsrcPan
    subst htype hsecurity hcompression hversion hsrcPan
    have hpan := decodeShort_shortAddress pan
    rw [shortAddress, decodeShort, Option.some.injEq] at hpan
    have hcontrol : controlByte pending ack &&& 0xcf = 0x41 := by
      cases pending <;> cases ack <;> decide
    have hpending : decide (controlByte pending ack &&& 0x10 ≠ 0) = pending := by
      cases pending <;> cases ack <;> decide
    have hack : decide (controlByte pending ack &&& 0x20 ≠ 0) = ack := by
      cases pending <;> cases ack <;> decide
    simp only [referenceMac, List.cons_append, List.nil_append, hcontrol, hpending, hack, hpan,
      if_true]

/-- A report of node 1 to node 2. -/
def sampleReport : AirEnvelope where
  exchangeId := ⟨0x5678⟩
  message := .report 0x3132333435 reportStatusClose

theorem air_codec_report : ∃ bytes,
    encode .reference referenceMac ⟨1, by decide⟩ (.node ⟨2, by decide⟩) 3 sampleReport =
      .ok bytes ∧
    decode .reference referenceMac bytes ⟨2, by decide⟩ =
      .ok ⟨⟨1, by decide⟩, .node ⟨2, by decide⟩, 3, sampleReport⟩ ∧
    Accepted referenceMac bytes ⟨2, by decide⟩
      ⟨⟨1, by decide⟩, .node ⟨2, by decide⟩, 3, sampleReport⟩ := by
  obtain ⟨hround, hsound⟩ := air_codec Crates.reference_documented referenceMac_documented
  obtain ⟨bytes, hencode, hdecode⟩ := hround ⟨1, by decide⟩ (.node ⟨2, by decide⟩) 3 sampleReport
    ⟨rfl, by decide, by simp [sampleReport, AirMessage.timestamps]⟩
  have hread := hdecode ⟨2, by decide⟩ (Or.inl rfl)
  exact ⟨bytes, hencode, hread, hsound bytes _ _ hread⟩

end AirCodec

end Mission10.Uwb
