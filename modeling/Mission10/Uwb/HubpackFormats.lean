import Mathlib.Tactic.IntervalCases
import Mission10.Library.Wire
import Mission10.Uwb.HostMessages

/-!
# Wire formats of the host messages

The formats that the source derives for its messages: the fields of a record in
declaration order, an enumeration by one byte for the variant, integers little
endian. Only the node address has a hand-written format, which refuses the
values outside its two ranges.
-/
namespace Mission10.Uwb

open Wire

instance : Wire NodeAddress := via NodeAddress.get NodeAddress.new

instance : LawfulWire NodeAddress :=
  via_lawful _ _ NodeAddress.new_get fun _ _ h => NodeAddress.new_eq_some.mp h

instance : Wire ExchangeId := via ExchangeId.get fun value => some ⟨value⟩

instance : LawfulWire ExchangeId :=
  via_lawful ExchangeId.get (fun value => some ⟨value⟩) (fun _ => rfl) fun _ _ h => by
    rw [← Option.some.inj h]

def AvoidanceMode.variants : List AvoidanceMode :=
  [.nominal, .phase, .reflex, .deconflict, .yielding, .saturated, .climb]

instance : Wire AvoidanceMode := enumeration AvoidanceMode.variants

instance : LawfulWire AvoidanceMode :=
  enumeration_lawful (by intro mode; cases mode <;> decide) (by decide) (by decide)

def FleetNetwork.variants : List FleetNetwork := [.field, .internet]

instance : Wire FleetNetwork := enumeration FleetNetwork.variants

instance : LawfulWire FleetNetwork :=
  enumeration_lawful (by intro network; cases network <;> decide) (by decide) (by decide)

def Diagnostic.variants : List Diagnostic :=
  [.rxFcs, .rxPhy, .rxBufferTooSmall, .rxReedSolomon, .rxFrameWaitTimeout, .rxOverrun,
    .rxPreambleDetectionTimeout, .rxSfdTimeout, .rxFrameFilteringRejection, .spi, .frameDecode,
    .invalidDistance, .delayedSendTooLate, .delayedSendPowerUpWarning, .radioState, .hostFrame,
    .invalidConfiguration, .malformedAir, .unexpectedAir, .invalidTimestamp, .unknown,
    .radioReset, .watchdogReset]

instance : Wire Diagnostic := enumeration Diagnostic.variants

instance : LawfulWire Diagnostic :=
  enumeration_lawful (by intro diagnostic; cases diagnostic <;> decide) (by decide) (by decide)

def FleetMode.toFields (mode : FleetMode) : UInt8 × FleetNetwork := (mode.master, mode.network)

def FleetMode.ofFields (fields : UInt8 × FleetNetwork) : FleetMode := ⟨fields.1, fields.2⟩

instance : Wire FleetMode := via FleetMode.toFields fun fields => some (.ofFields fields)

instance : LawfulWire FleetMode :=
  via_lawful FleetMode.toFields (fun fields => some (.ofFields fields)) (fun _ => rfl)
    fun _ _ h => by rw [← Option.some.inj h]; rfl

namespace EgoState

abbrev Fields := UInt64 × UInt32 × UInt16 × Int16 × Int16 × Int16 × Int32 × Int32 × Int32 ×
  Int16 × Int16 × Int16 × AvoidanceMode × UInt16

def toFields (state : EgoState) : Fields :=
  (state.sampleTimeUs, state.sequence, state.frameEpoch, state.phaseMrad, state.phaseRateMradS,
    state.yawMrad, state.positionEnuMm.1, state.positionEnuMm.2.1, state.positionEnuMm.2.2,
    state.velocityEnuMmS.1, state.velocityEnuMmS.2.1, state.velocityEnuMmS.2.2, state.mode,
    state.validity)

def ofFields : Fields → EgoState
  | (sampleTimeUs, sequence, frameEpoch, phaseMrad, phaseRateMradS, yawMrad, east, north, up,
      velocityEast, velocityNorth, velocityUp, mode, validity) =>
    { sampleTimeUs, sequence, frameEpoch, phaseMrad, phaseRateMradS, yawMrad,
      positionEnuMm := (east, north, up)
      velocityEnuMmS := (velocityEast, velocityNorth, velocityUp)
      mode, validity }

end EgoState

instance : Wire EgoState := via EgoState.toFields fun fields => some (.ofFields fields)

instance : LawfulWire EgoState :=
  via_lawful EgoState.toFields (fun fields => some (.ofFields fields)) (fun _ => rfl)
    fun _ _ h => by rw [← Option.some.inj h]; rfl

namespace RadioConfiguration

abbrev Fields := NodeAddress × UInt8 × Vector NodeAddress maxPeers

def toFields (configuration : RadioConfiguration) : Fields :=
  (configuration.nodeAddress, configuration.peerCount, configuration.peers)

def ofFields (fields : Fields) : RadioConfiguration := ⟨fields.1, fields.2.1, fields.2.2⟩

end RadioConfiguration

instance : Wire RadioConfiguration :=
  via RadioConfiguration.toFields fun fields => some (.ofFields fields)

instance : LawfulWire RadioConfiguration :=
  via_lawful RadioConfiguration.toFields (fun fields => some (.ofFields fields)) (fun _ => rfl)
    fun _ _ h => by rw [← Option.some.inj h]; rfl

namespace HealthCounters

/-- The counters in declaration order. -/
def toVector (counters : HealthCounters) : Vector UInt32 30 :=
  #v[counters.irqWakes, counters.spuriousIrqWakes, counters.waitTimeouts, counters.recoveries,
    counters.malformedAirFrames, counters.unexpectedAirFrames, counters.clockSamplesAccepted,
    counters.clockSamplesRejected, counters.timeMappingUnavailable,
    counters.clockGenerationChanges, counters.pollsSent, counters.pollsReceived,
    counters.responsesSent, counters.responsesReceived, counters.finalsSent,
    counters.finalsReceived, counters.reportsSent, counters.reportsReceived,
    counters.exchangeCompletions, counters.exchangeTimeouts, counters.contentionBackoffs,
    counters.lateDelayedTransmits, counters.hostStaleTransitions, counters.peerStaleTransitions,
    counters.radioReinitializations, counters.hostDecodeErrors, counters.hostCommandDrops,
    counters.controlDrops, counters.measurementDrops, counters.diagnosticDrops]

def ofVector (fields : Vector UInt32 30) : HealthCounters where
  irqWakes := fields[0]
  spuriousIrqWakes := fields[1]
  waitTimeouts := fields[2]
  recoveries := fields[3]
  malformedAirFrames := fields[4]
  unexpectedAirFrames := fields[5]
  clockSamplesAccepted := fields[6]
  clockSamplesRejected := fields[7]
  timeMappingUnavailable := fields[8]
  clockGenerationChanges := fields[9]
  pollsSent := fields[10]
  pollsReceived := fields[11]
  responsesSent := fields[12]
  responsesReceived := fields[13]
  finalsSent := fields[14]
  finalsReceived := fields[15]
  reportsSent := fields[16]
  reportsReceived := fields[17]
  exchangeCompletions := fields[18]
  exchangeTimeouts := fields[19]
  contentionBackoffs := fields[20]
  lateDelayedTransmits := fields[21]
  hostStaleTransitions := fields[22]
  peerStaleTransitions := fields[23]
  radioReinitializations := fields[24]
  hostDecodeErrors := fields[25]
  hostCommandDrops := fields[26]
  controlDrops := fields[27]
  measurementDrops := fields[28]
  diagnosticDrops := fields[29]

theorem toVector_ofVector (fields : Vector UInt32 30) : (ofVector fields).toVector = fields := by
  apply Vector.ext
  intro i hi
  interval_cases i <;> rfl

end HealthCounters

instance : Wire HealthCounters := via HealthCounters.toVector fun fields => some (.ofVector fields)

instance : LawfulWire HealthCounters :=
  via_lawful HealthCounters.toVector (fun fields => some (.ofVector fields)) (fun _ => rfl)
    fun fields _ h => by rw [← Option.some.inj h, HealthCounters.toVector_ofVector]

namespace MissionEventTime

abbrev Mapping := UInt64 × UInt32 × UInt32

def ofMapping (mapping : Mapping) : MissionEventTime :=
  .mapped mapping.1 mapping.2.1 mapping.2.2

end MissionEventTime

instance : Wire MissionEventTime where
  encode
    | .unavailable => [0]
    | .mapped missionTimeUs generation errorUs => 1 :: encode (missionTimeUs, generation, errorUs)
  decode
    | [] => none
    | tag :: bytes =>
      match tag.toNat with
      | 0 => some (.unavailable, bytes)
      | 1 => decodeAs MissionEventTime.ofMapping bytes
      | _ => none
  maxSize := 1 + maxSize MissionEventTime.Mapping

instance : LawfulWire MissionEventTime where
  decode_encode := by
    intro time rest
    cases time with
    | unavailable => rfl
    | mapped missionTimeUs generation errorUs => exact decodeAs_encode MissionEventTime.ofMapping _ _
  encode_of_decode := by
    intro bytes time rest h
    cases bytes with
    | nil => cases h
    | cons tag bytes =>
      simp only [decode] at h
      split at h
      next htag =>
        obtain rfl := byte_of_toNat htag
        obtain ⟨rfl, rfl⟩ := Prod.mk.inj (Option.some.inj h)
        rfl
      next htag =>
        obtain rfl := byte_of_toNat htag
        obtain ⟨mapping, rfl, rfl⟩ := decodeAs_some h
        rfl
      next => cases h
  length_le := by
    intro time
    cases time with
    | unavailable => decide
    | mapped missionTimeUs generation errorUs =>
      exact length_tagged_le 1 (LawfulWire.length_le (missionTimeUs, generation, errorUs))
        (by decide)

namespace CompletedExchange

abbrev Fields := NodeAddress × ExchangeId × UInt64 × MissionEventTime × UInt32 × Int16 ×
  UInt16 × EgoState

def toFields (exchange : CompletedExchange) : Fields :=
  (exchange.peer, exchange.exchangeId, exchange.rangeEventTimeDtu, exchange.missionEventTime,
    exchange.millimetres, exchange.rssiCdbm, exchange.qualityFlags, exchange.state)

def ofFields : Fields → CompletedExchange
  | (peer, exchangeId, rangeEventTimeDtu, missionEventTime, millimetres, rssiCdbm, qualityFlags,
      state) =>
    { peer, exchangeId, rangeEventTimeDtu, missionEventTime, millimetres, rssiCdbm, qualityFlags,
      state }

end CompletedExchange

instance : Wire CompletedExchange :=
  via CompletedExchange.toFields fun fields => some (.ofFields fields)

instance : LawfulWire CompletedExchange :=
  via_lawful CompletedExchange.toFields (fun fields => some (.ofFields fields)) (fun _ => rfl)
    fun _ _ h => by rw [← Option.some.inj h]; rfl

namespace HostToRadio

abbrev ClockReply := UInt16 × UInt64 × UInt64 × UInt32 × UInt32

def ofClockReply : ClockReply → HostToRadio
  | (requestId, missionRxUs, missionTxUs, missionGeneration, sourceErrorUs) =>
    .clockReply requestId missionRxUs missionTxUs missionGeneration sourceErrorUs

end HostToRadio

instance : Wire HostToRadio where
  encode
    | .configure configuration => 0 :: encode configuration
    | .setEgoState state => 1 :: encode state
    | .requestHealth requestId => 2 :: encode requestId
    | .clockReply requestId missionRxUs missionTxUs missionGeneration sourceErrorUs =>
      3 :: encode (requestId, missionRxUs, missionTxUs, missionGeneration, sourceErrorUs)
    | .broadcastFleetMode mode => 4 :: encode mode
  decode
    | [] => none
    | tag :: bytes =>
      match tag.toNat with
      | 0 => decodeAs HostToRadio.configure bytes
      | 1 => decodeAs HostToRadio.setEgoState bytes
      | 2 => decodeAs HostToRadio.requestHealth bytes
      | 3 => decodeAs HostToRadio.ofClockReply bytes
      | 4 => decodeAs HostToRadio.broadcastFleetMode bytes
      | _ => none
  maxSize := 1 + max (maxSize RadioConfiguration) (max (maxSize EgoState) (max (maxSize UInt32)
    (max (maxSize HostToRadio.ClockReply) (maxSize FleetMode))))

instance : LawfulWire HostToRadio where
  decode_encode := by
    intro message rest
    cases message with
    | configure configuration => exact decodeAs_encode HostToRadio.configure _ _
    | setEgoState state => exact decodeAs_encode HostToRadio.setEgoState _ _
    | requestHealth requestId => exact decodeAs_encode HostToRadio.requestHealth _ _
    | clockReply requestId rxUs txUs generation errorUs =>
      exact decodeAs_encode HostToRadio.ofClockReply (requestId, rxUs, txUs, generation, errorUs) _
    | broadcastFleetMode mode => exact decodeAs_encode HostToRadio.broadcastFleetMode _ _
  encode_of_decode := by
    intro bytes message rest h
    cases bytes with
    | nil => cases h
    | cons tag bytes =>
      simp only [decode] at h
      split at h
      case h_6 => cases h
      all_goals
        next htag =>
          obtain ⟨payload, rfl, rfl⟩ := decodeAs_some h
          obtain rfl := byte_of_toNat htag
          rfl
  length_le := by
    intro message
    cases message with
    | configure configuration => exact length_tagged_le 0 (LawfulWire.length_le _) (by decide)
    | setEgoState state => exact length_tagged_le 1 (LawfulWire.length_le _) (by decide)
    | requestHealth requestId => exact length_tagged_le 2 (LawfulWire.length_le _) (by decide)
    | clockReply requestId rxUs txUs generation errorUs =>
      exact length_tagged_le 3 (LawfulWire.length_le (requestId, rxUs, txUs, generation, errorUs))
        (by decide)
    | broadcastFleetMode mode => exact length_tagged_le 4 (LawfulWire.length_le _) (by decide)

namespace HostToRadioEnvelope

abbrev Fields := UInt8 × UInt32 × HostToRadio

def toFields (envelope : HostToRadioEnvelope) : Fields :=
  (envelope.protocolVersion, envelope.sequence, envelope.message)

def ofFields (fields : Fields) : HostToRadioEnvelope := ⟨fields.1, fields.2.1, fields.2.2⟩

end HostToRadioEnvelope

instance : Wire HostToRadioEnvelope :=
  via HostToRadioEnvelope.toFields fun fields => some (.ofFields fields)

instance : LawfulWire HostToRadioEnvelope :=
  via_lawful HostToRadioEnvelope.toFields (fun fields => some (.ofFields fields)) (fun _ => rfl)
    fun _ _ h => by rw [← Option.some.inj h]; rfl

namespace RadioToHost

abbrev RadioId := UInt16 × UInt8 × UInt8 × UInt8
abbrev Otp := UInt32 × UInt32 × UInt32 × UInt32
abbrev Ready := UInt16 × UInt16
abbrev ClockStatus := UInt32 × UInt32 × UInt32 × Bool
abbrev Health := UInt32 × HealthCounters
abbrev FleetModeReceived := NodeAddress × FleetMode

def ofRadioId : RadioId → RadioToHost
  | (ridtag, model, version, revision) => .radioId ridtag model version revision

def ofOtp : Otp → RadioToHost
  | (txPower, antenna, xtal, revision) => .otp txPower antenna xtal revision

def ofReady : Ready → RadioToHost
  | (rxDelay, txDelay) => .ready rxDelay txDelay

def ofClockStatus : ClockStatus → RadioToHost
  | (generation, errorUs, ageUs, mapped) => .clockStatus generation errorUs ageUs mapped

def ofHealth : Health → RadioToHost
  | (requestId, counters) => .health requestId counters

def ofFleetModeReceived : FleetModeReceived → RadioToHost
  | (source, mode) => .fleetModeReceived source mode

end RadioToHost

instance : Wire RadioToHost where
  encode
    | .radioId ridtag model version revision => 0 :: encode (ridtag, model, version, revision)
    | .otp txPower antenna xtal revision => 1 :: encode (txPower, antenna, xtal, revision)
    | .ready rxDelay txDelay => 2 :: encode (rxDelay, txDelay)
    | .clockProbe requestId => 3 :: encode requestId
    | .clockStatus generation errorUs ageUs mapped =>
      4 :: encode (generation, errorUs, ageUs, mapped)
    | .configured configuration => 5 :: encode configuration
    | .completedExchange exchange => 6 :: encode exchange
    | .error diagnostic => 7 :: encode diagnostic
    | .health requestId counters => 8 :: encode (requestId, counters)
    | .fleetModeReceived source mode => 9 :: encode (source, mode)
  decode
    | [] => none
    | tag :: bytes =>
      match tag.toNat with
      | 0 => decodeAs RadioToHost.ofRadioId bytes
      | 1 => decodeAs RadioToHost.ofOtp bytes
      | 2 => decodeAs RadioToHost.ofReady bytes
      | 3 => decodeAs RadioToHost.clockProbe bytes
      | 4 => decodeAs RadioToHost.ofClockStatus bytes
      | 5 => decodeAs RadioToHost.configured bytes
      | 6 => decodeAs RadioToHost.completedExchange bytes
      | 7 => decodeAs RadioToHost.error bytes
      | 8 => decodeAs RadioToHost.ofHealth bytes
      | 9 => decodeAs RadioToHost.ofFleetModeReceived bytes
      | _ => none
  maxSize := 1 + max (maxSize RadioToHost.RadioId) (max (maxSize RadioToHost.Otp)
    (max (maxSize RadioToHost.Ready) (max (maxSize UInt16) (max (maxSize RadioToHost.ClockStatus)
    (max (maxSize RadioConfiguration) (max (maxSize CompletedExchange) (max (maxSize Diagnostic)
    (max (maxSize RadioToHost.Health) (maxSize RadioToHost.FleetModeReceived)))))))))

instance : LawfulWire RadioToHost where
  decode_encode := by
    intro message rest
    cases message with
    | radioId ridtag model version revision =>
      exact decodeAs_encode RadioToHost.ofRadioId (ridtag, model, version, revision) _
    | otp txPower antenna xtal revision =>
      exact decodeAs_encode RadioToHost.ofOtp (txPower, antenna, xtal, revision) _
    | ready rxDelay txDelay => exact decodeAs_encode RadioToHost.ofReady (rxDelay, txDelay) _
    | clockProbe requestId => exact decodeAs_encode RadioToHost.clockProbe _ _
    | clockStatus generation errorUs ageUs mapped =>
      exact decodeAs_encode RadioToHost.ofClockStatus (generation, errorUs, ageUs, mapped) _
    | configured configuration => exact decodeAs_encode RadioToHost.configured _ _
    | completedExchange exchange => exact decodeAs_encode RadioToHost.completedExchange _ _
    | error diagnostic => exact decodeAs_encode RadioToHost.error _ _
    | health requestId counters =>
      exact decodeAs_encode RadioToHost.ofHealth (requestId, counters) _
    | fleetModeReceived source mode =>
      exact decodeAs_encode RadioToHost.ofFleetModeReceived (source, mode) _
  encode_of_decode := by
    intro bytes message rest h
    cases bytes with
    | nil => cases h
    | cons tag bytes =>
      simp only [decode] at h
      split at h
      case h_11 => cases h
      all_goals
        next htag =>
          obtain ⟨payload, rfl, rfl⟩ := decodeAs_some h
          obtain rfl := byte_of_toNat htag
          rfl
  length_le := by
    intro message
    cases message with
    | radioId ridtag model version revision =>
      exact length_tagged_le 0 (LawfulWire.length_le (ridtag, model, version, revision)) (by decide)
    | otp txPower antenna xtal revision =>
      exact length_tagged_le 1 (LawfulWire.length_le (txPower, antenna, xtal, revision)) (by decide)
    | ready rxDelay txDelay =>
      exact length_tagged_le 2 (LawfulWire.length_le (rxDelay, txDelay)) (by decide)
    | clockProbe requestId => exact length_tagged_le 3 (LawfulWire.length_le _) (by decide)
    | clockStatus generation errorUs ageUs mapped =>
      exact length_tagged_le 4 (LawfulWire.length_le (generation, errorUs, ageUs, mapped))
        (by decide)
    | configured configuration => exact length_tagged_le 5 (LawfulWire.length_le _) (by decide)
    | completedExchange exchange => exact length_tagged_le 6 (LawfulWire.length_le _) (by decide)
    | error diagnostic => exact length_tagged_le 7 (LawfulWire.length_le _) (by decide)
    | health requestId counters =>
      exact length_tagged_le 8 (LawfulWire.length_le (requestId, counters)) (by decide)
    | fleetModeReceived source mode =>
      exact length_tagged_le 9 (LawfulWire.length_le (source, mode)) (by decide)

namespace RadioToHostEnvelope

abbrev Fields := UInt8 × UInt32 × RadioToHost

def toFields (envelope : RadioToHostEnvelope) : Fields :=
  (envelope.protocolVersion, envelope.sequence, envelope.message)

def ofFields (fields : Fields) : RadioToHostEnvelope := ⟨fields.1, fields.2.1, fields.2.2⟩

end RadioToHostEnvelope

instance : Wire RadioToHostEnvelope :=
  via RadioToHostEnvelope.toFields fun fields => some (.ofFields fields)

instance : LawfulWire RadioToHostEnvelope :=
  via_lawful RadioToHostEnvelope.toFields (fun fields => some (.ofFields fields)) (fun _ => rfl)
    fun _ _ h => by rw [← Option.some.inj h]; rfl

end Mission10.Uwb
