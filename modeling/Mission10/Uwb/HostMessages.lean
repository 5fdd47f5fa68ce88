import Mission10.Uwb.Scheduler

/-!
# Host protocol messages

The two envelopes of the host stream and every record they carry, in the
declaration order that fixes their wire form.
-/
namespace Mission10.Uwb

def hostProtocolVersion : UInt8 := 9
/-- The other five radios in the complete development inventory. -/
def maxPeers : ℕ := 5

structure RadioConfiguration where
  nodeAddress : NodeAddress
  peerCount : UInt8
  peers : Vector NodeAddress maxPeers
  deriving DecidableEq

namespace RadioConfiguration

/-- The first `peerCount` slots, or `none` when the count exceeds the slots. -/
def peerSlice (configuration : RadioConfiguration) : Option (List NodeAddress) :=
  if configuration.peerCount.toNat ≤ maxPeers then
    some (configuration.peers.toList.take configuration.peerCount.toNat)
  else none

def roster (configuration : RadioConfiguration) : Option FlightRoster :=
  configuration.peerSlice.bind (FlightRoster.new configuration.nodeAddress)

def isValid (configuration : RadioConfiguration) : Bool := configuration.roster.isSome

end RadioConfiguration

inductive HostToRadio where
  | configure (configuration : RadioConfiguration)
  | setEgoState (state : EgoState)
  | requestHealth (requestId : UInt32)
  | clockReply (requestId : UInt16) (missionRxUs missionTxUs : UInt64)
      (missionGeneration sourceErrorUs : UInt32)
  | broadcastFleetMode (mode : FleetMode)
  deriving DecidableEq

structure HostToRadioEnvelope where
  protocolVersion : UInt8
  sequence : UInt32
  message : HostToRadio
  deriving DecidableEq

inductive Diagnostic where
  | rxFcs
  | rxPhy
  | rxBufferTooSmall
  | rxReedSolomon
  | rxFrameWaitTimeout
  | rxOverrun
  | rxPreambleDetectionTimeout
  | rxSfdTimeout
  | rxFrameFilteringRejection
  | spi
  | frameDecode
  | invalidDistance
  | delayedSendTooLate
  | delayedSendPowerUpWarning
  | radioState
  | hostFrame
  | invalidConfiguration
  | malformedAir
  | unexpectedAir
  | invalidTimestamp
  | unknown
  | radioReset
  | watchdogReset
  deriving DecidableEq

structure HealthCounters where
  irqWakes : UInt32 := 0
  spuriousIrqWakes : UInt32 := 0
  waitTimeouts : UInt32 := 0
  recoveries : UInt32 := 0
  malformedAirFrames : UInt32 := 0
  unexpectedAirFrames : UInt32 := 0
  clockSamplesAccepted : UInt32 := 0
  clockSamplesRejected : UInt32 := 0
  timeMappingUnavailable : UInt32 := 0
  clockGenerationChanges : UInt32 := 0
  pollsSent : UInt32 := 0
  pollsReceived : UInt32 := 0
  responsesSent : UInt32 := 0
  responsesReceived : UInt32 := 0
  finalsSent : UInt32 := 0
  finalsReceived : UInt32 := 0
  reportsSent : UInt32 := 0
  reportsReceived : UInt32 := 0
  exchangeCompletions : UInt32 := 0
  exchangeTimeouts : UInt32 := 0
  contentionBackoffs : UInt32 := 0
  lateDelayedTransmits : UInt32 := 0
  hostStaleTransitions : UInt32 := 0
  peerStaleTransitions : UInt32 := 0
  radioReinitializations : UInt32 := 0
  hostDecodeErrors : UInt32 := 0
  hostCommandDrops : UInt32 := 0
  controlDrops : UInt32 := 0
  measurementDrops : UInt32 := 0
  diagnosticDrops : UInt32 := 0
  deriving DecidableEq

inductive MissionEventTime where
  | unavailable
  | mapped (missionTimeUs : UInt64) (generation errorUs : UInt32)
  deriving DecidableEq

structure CompletedExchange where
  peer : NodeAddress
  exchangeId : ExchangeId
  rangeEventTimeDtu : UInt64
  missionEventTime : MissionEventTime
  millimetres : UInt32
  rssiCdbm : Int16
  qualityFlags : UInt16
  state : EgoState
  deriving DecidableEq

inductive RadioToHost where
  | radioId (ridtag : UInt16) (model version revision : UInt8)
  | otp (txPower antenna xtal revision : UInt32)
  | ready (rxDelay txDelay : UInt16)
  | clockProbe (requestId : UInt16)
  | clockStatus (generation errorUs ageUs : UInt32) (mapped : Bool)
  | configured (configuration : RadioConfiguration)
  | completedExchange (exchange : CompletedExchange)
  | error (diagnostic : Diagnostic)
  | health (requestId : UInt32) (counters : HealthCounters)
  | fleetModeReceived (source : NodeAddress) (mode : FleetMode)
  deriving DecidableEq

structure RadioToHostEnvelope where
  protocolVersion : UInt8
  sequence : UInt32
  message : RadioToHost
  deriving DecidableEq

end Mission10.Uwb
