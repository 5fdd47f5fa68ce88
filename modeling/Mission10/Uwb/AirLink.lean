import Mission10.Uwb.AirCodec

/-!
# Frames between radios

The two radio backends address a frame and hand its bytes to the radio, and
decode the bytes of each frame they hear. `send` and `heardAt` say what comes of
the two without the bytes; `encode_send` connects them to the codec. A backend
reports what it does as a list of actions.
-/
namespace Mission10.Uwb

namespace AirCodec

/-- The checks of `encode`, with the frame in place of its bytes. -/
def send (source : NodeAddress) (destination : Destination) (macSequence : UInt8)
    (envelope : AirEnvelope) : Except AirEncodeError DecodedAirFrame :=
  if destination = .broadcast ∧ !envelope.message.isFleetMode then .error .broadcastRanging
  else if destination ≠ .broadcast ∧ envelope.message.isFleetMode then .error .fleetModeUnicast
  else if !timestampsValid envelope.message then .error .invalidTimestamp
  else .ok { source, destination, macSequence, envelope }

end AirCodec

namespace DecodedAirFrame

/-- What the radio at an address decodes from the bytes of a frame. -/
def heardAt (frame : DecodedAirFrame) (localAddress : NodeAddress) :
    Except AirDecodeError DecodedAirFrame :=
  if frame.destination = .node localAddress ∨ frame.destination = .broadcast then .ok frame
  else .error .destination

end DecodedAirFrame

namespace AirCodec

theorem send_eq_ok {source : NodeAddress} {destination : Destination} {macSequence : UInt8}
    {envelope : AirEnvelope} {frame : DecodedAirFrame}
    (h : send source destination macSequence envelope = .ok frame) :
    frame = { source, destination, macSequence, envelope } ∧
      (destination = .broadcast ↔ envelope.message.isFleetMode = true) ∧
      timestampsValid envelope.message = true := by
  unfold send at h
  split_ifs at h with hfleet hunicast htimes
  refine ⟨(Except.ok.inj h).symm, ?_, by simpa using htimes⟩
  constructor
  · intro hb
    simpa [hb] using hfleet
  · intro hm
    simpa [hm] using hunicast

theorem send_ok {source : NodeAddress} {destination : Destination} {macSequence : UInt8}
    {envelope : AirEnvelope} (h : Sendable destination envelope) :
    send source destination macSequence envelope =
      .ok { source, destination, macSequence, envelope } := by
  have htimes := (timestampsValid_iff _).mpr h.timestamps
  by_cases hb : destination = .broadcast
  · simp [send, htimes, hb, h.addressing.mp hb]
  · have hm : envelope.message.isFleetMode = false := by
      rw [← Bool.not_eq_true]
      exact fun hm => hb (h.addressing.mpr hm)
    simp [send, htimes, hb, hm]

theorem addressing_other {source : NodeAddress} {destination : Destination}
    {macSequence : UInt8} {localAddress : NodeAddress}
    (hlocal : ¬ (destination = .node localAddress ∨ destination = .broadcast)) :
    addressing (header source destination macSequence) localAddress = .error .destination := by
  simp only [addressing, header, decodeShort_shortAddress, Option.bind_some, NodeAddress.new_get]
  cases destination with
  | broadcast => exact absurd (Or.inr rfl) hlocal
  | node address =>
    have hne : address.get ≠ localAddress.get := by
      intro heq
      exact hlocal (Or.inl (congrArg Destination.node (NodeAddress.ext_get heq)))
    rw [if_pos ⟨hne, get_ne_broadcast address⟩]

section Documented

variable {crates : Crates} {mac : MacCrate} (hcrates : crates.Documented)
  (hmac : mac.Documented)

include hcrates hmac in
/-- The bytes of a frame that passes the checks are decoded at every radio as
`heardAt` says. -/
theorem encode_send {source : NodeAddress} {destination : Destination} {macSequence : UInt8}
    {envelope : AirEnvelope} {frame : DecodedAirFrame}
    (hversion : envelope.protocolVersion = airProtocolVersion)
    (h : send source destination macSequence envelope = .ok frame) :
    ∃ bytes, encode crates mac source destination macSequence envelope = .ok bytes ∧
      ∀ localAddress, decode crates mac bytes localAddress = frame.heardAt localAddress := by
  obtain ⟨rfl, haddressing, htimes⟩ := send_eq_ok h
  have hsendable : Sendable destination envelope :=
    ⟨hversion, haddressing, (timestampsValid_iff _).mp htimes⟩
  refine ⟨_, encode_ok hcrates hmac hsendable, fun localAddress => ?_⟩
  by_cases hlocal : destination = .node localAddress ∨ destination = .broadcast
  · rw [decode_frame hcrates hmac hsendable hlocal, DecodedAirFrame.heardAt, if_pos hlocal]
  · rw [DecodedAirFrame.heardAt, if_neg hlocal]
    have hparse := hmac.parse_emit _ (Wire.encode envelope)
      (header_shortData source destination macSequence)
    unfold decode
    rw [hparse]
    simp only [addressing_other hlocal]
    simp [header]

end Documented

end AirCodec

/-- A range as the DW1000 service emits it. -/
structure RangeMeasurement where
  receiver : NodeAddress
  source : NodeAddress
  distanceMetres : ℚ
  sequence : UInt64
  rangeEventTimeDtu : UInt64
  missionEventTimeUs : Option UInt64
  missionGeneration : Option UInt32
  missionTimeErrorUs : UInt32
  exchangeId : ExchangeId
  peerState : EgoState
  deriving DecidableEq

/-- What a backend does: its calls on the scheduler state of a pair, the ranging
arithmetic it evaluates, the frames it transmits and the events it reports. A
recorded success is listed with the exchange it ends. -/
inductive RadioAction where
  | beginAttempt (pair : Pair)
  | recordSuccess (pair : Pair) (exchangeId : ExchangeId) (close : Bool)
  | recordFailure (pair : Pair)
  | evaluate (peer : NodeAddress) (exchangeId : ExchangeId) (initiator : InitiatorTimestamps)
      (responder : ResponderTimestamps)
  | transmit (frame : DecodedAirFrame)
  | range (measurement : RangeMeasurement)
  | completed (exchange : CompletedExchange)
  | fleetMode (source : NodeAddress) (mode : FleetMode)
  deriving DecidableEq

end Mission10.Uwb
