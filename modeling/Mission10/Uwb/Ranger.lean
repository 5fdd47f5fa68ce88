import Mission10.Uwb.AirLink
import Mission10.Uwb.Roster

/-!
# The DW1000 ranging service

One state machine both initiates and answers exchanges. Its handlers run one at
a time from the service loop, on commands, on the schedule, on a sent frame, on
a received frame or a receiver error, and when the deadline passes. What the
clock and the radio answer to a handler is given with the event, instants in
nanoseconds since the service started. A handler that returns an error ends the
service.
-/
namespace Mission10.Uwb

def defaultAntennaDelay : UInt16 := 16390
def pollProgramLeadUs : UInt64 := 1000
def fleetModeRepeats : UInt8 := 8
def fleetModeInterval : ℕ := 125000000
def duplicateWindow : ℕ := 20000000

/-- A device time as a 40-bit count. -/
def ticks (time : UInt64) : UInt64 := time &&& timestampMask

theorem timestampValid_ticks (time : UInt64) : AirCodec.timestampValid (ticks time) = true := by
  rw [AirCodec.timestampValid, decide_eq_true_eq, UInt64.le_iff_toNat_le, ticks, UInt64.toNat_and]
  exact Nat.and_le_right

inductive RadioCommand where
  | setEgoState (state : EgoState)
  | broadcastFleetMode (mode : FleetMode)
  deriving DecidableEq

structure PendingFleetMode where
  mode : FleetMode
  remaining : UInt8
  nextAt : ℕ
  deriving DecidableEq

/-- The text of an address: four hexadecimal digits. -/
def NodeAddress.display (address : NodeAddress) : String :=
  "0x" ++ String.ofList ((Nat.toDigits 16 address.get.toNat).leftpad 4 '0')

/-- Addresses that form a roster, and positive reply and response times. -/
structure RangingConfig where
  address : NodeAddress
  peers : List NodeAddress
  replyDelayUs : UInt32
  responseTimeout : ℕ
  roster : FlightRoster
  forms_roster : FlightRoster.new address peers = some roster
  few_peers : peers.length ≤ maxPeers
  peers_nodup : peers.Nodup
  delay_positive : 0 < replyDelayUs
  timeout_bounds : 0 < responseTimeout ∧ responseTimeout ≤ 10000000

def RangingConfig.new (address : NodeAddress) (peers : List NodeAddress) (replyDelayUs : UInt32)
    (responseTimeout : ℕ) : Except String RangingConfig :=
  if peers = [] then .error "at least one peer is required"
  else if hfew : peers.length ≤ maxPeers then
    if address ∈ peers then
      .error ("node " ++ address.display ++ " cannot range with itself")
    else if hnodup : peers.Nodup then
      if hdelay : 0 < replyDelayUs then
        if hpositive : 0 < responseTimeout then
          if hbound : responseTimeout ≤ 10000000 then
            match hroster : FlightRoster.new address peers with
            | none => .error "addresses do not form a valid fixed roster"
            | some roster =>
              .ok { address, peers, replyDelayUs, responseTimeout, roster,
                    forms_roster := hroster, few_peers := hfew, peers_nodup := hnodup,
                    delay_positive := hdelay, timeout_bounds := ⟨hpositive, hbound⟩ }
          else .error "response timeout must not exceed 10 ms"
        else .error "response timeout must be positive"
      else .error "reply delay must be positive"
    else .error "peer addresses must be unique"
  else .error "at most 5 peers are supported"

inductive ExchangeState where
  | idle
  | sendingPoll (peer : NodeAddress) (exchangeId : ExchangeId) (pollTx : UInt64)
  | awaitResponse (peer : NodeAddress) (exchangeId : ExchangeId) (pollTx : UInt64)
  | sendingResponse (peer : NodeAddress) (exchangeId : ExchangeId) (pollRx responseTx : UInt64)
      (peerState : EgoState)
  | awaitFinal (peer : NodeAddress) (exchangeId : ExchangeId) (pollRx responseTx : UInt64)
      (peerState : EgoState)
  | sendingFinal (peer : NodeAddress) (exchangeId : ExchangeId)
      (pollTx pollRx responseTx responseRx finalTx : UInt64) (peerState : EgoState)
  | awaitReport (peer : NodeAddress) (exchangeId : ExchangeId)
      (pollTx pollRx responseTx responseRx finalTx finalEventTime : UInt64) (peerState : EgoState)
  | sendingReport (peer : NodeAddress) (exchangeId : ExchangeId)
  | sendingFleetMode
  deriving DecidableEq

/-- How a handler fails: the radio answers with an error, a frame does not pass
its checks, or a value the source expects is absent. -/
inductive RangerFault where
  | radio
  | encode (error : AirEncodeError)
  | expectation
  deriving DecidableEq

/-- What the clock and the radio answer to one handler, each reading under the
name of its use. -/
structure RangerIo where
  /-- The reading of the schedule, and of a Poll's admission. -/
  checkedAt : ℕ
  /-- The reading a pending fleet mode is due at. -/
  fleetCheckedAt : ℕ
  /-- The reading a range is classified at. -/
  classifiedAt : ℕ
  /-- The reading a success or failure is recorded at. -/
  recordedAt : ℕ
  /-- The reading a deadline counts from. -/
  sentAt : ℕ
  /-- The reading the next repeat of a fleet mode counts from. -/
  repeatedAt : ℕ
  plannedPoll : Option UInt64
  txTimestamp : Option UInt64
  transmitted : Bool
  armed : Bool
  hostBeforeUs : Option UInt64
  radioNow : Option UInt64
  hostAfterUs : Option UInt64

structure Ranger where
  config : RangingConfig
  pairStates : List PairMacState
  state : ExchangeState := .idle
  deadline : Option ℕ := none
  activePair : Option Pair := none
  nextExchangeId : UInt16 := 0
  missionGeneration : UInt32
  lastReceivedExchange : List (Option (ExchangeId × ℕ)) := List.replicate maxPeers none
  macSequence : UInt8 := 0
  sequence : UInt64 := 0
  egoState : EgoState := {}
  pendingFleetMode : Option PendingFleetMode := none

namespace Ranger

/-- The ranger a handler leaves, and what it did. -/
abbrev Handled := Except RangerFault (Ranger × List RadioAction)

def roster (ranger : Ranger) : FlightRoster := ranger.config.roster

/-- A new service; the generators of the pair states start from a nonce. -/
def new (config : RangingConfig) (bootNonce : UInt32) : Ranger where
  config := config
  pairStates := (List.range maxPairs).map fun index =>
    match config.roster.pairs[index]? with
    | some pair => (PairMacState.new bootNonce).initializeMac 0 pair
    | none => PairMacState.new bootNonce
  missionGeneration := bootNonce

/-- Whole microseconds of an instant, at most the largest `u64`. -/
def monotonicUs (instant : ℕ) : UInt64 := UInt64.ofNat (min (instant / 1000) (UInt64.size - 1))

def peerForAddress (ranger : Ranger) (address : NodeAddress) : Option NodeAddress :=
  ranger.config.peers.find? (· = address)

def updatePair (ranger : Ranger) (index : ℕ) (update : PairMacState → PairMacState) : Ranger :=
  { ranger with pairStates := ranger.pairStates.modify index update }

def armReceive (io : RangerIo) : Except RangerFault Unit :=
  if io.armed then .ok () else .error .radio

def transmitted (io : RangerIo) : Except RangerFault Unit :=
  if io.transmitted then .ok () else .error .radio

def radioAnswer {α : Type} : Option α → Except RangerFault α
  | some value => .ok value
  | none => .error .radio

def expect {α : Type} : Option α → Except RangerFault α
  | some value => .ok value
  | none => .error .expectation

def encodeDestination (ranger : Ranger) (destination : Destination) (envelope : AirEnvelope) :
    Except RangerFault (Ranger × DecodedAirFrame) :=
  match AirCodec.send ranger.config.address destination ranger.macSequence envelope with
  | .ok frame => .ok ({ ranger with macSequence := ranger.macSequence + 1 }, frame)
  | .error err => .error (.encode err)

def encode (ranger : Ranger) (peer : NodeAddress) (envelope : AirEnvelope) :
    Except RangerFault (Ranger × DecodedAirFrame) :=
  ranger.encodeDestination (.node peer) envelope

/-- The time on the air of a frame sent a delay after another was received. -/
def plannedTxAfter (receivedAt : UInt64) (delayUs : UInt32) : UInt64 :=
  (delayedTxTime receivedAt delayUs + defaultAntennaDelay.toUInt64) &&& timestampMask

/-- Clears the active pair, with a failure when the local node initiated. -/
def recordTimeout (ranger : Ranger) (io : RangerIo) : Ranger × List RadioAction :=
  match ranger.activePair with
  | none => (ranger, [])
  | some pair =>
    let ranger := { ranger with activePair := none }
    if pair.initiator = ranger.config.address then
      match pairIndex ranger.roster pair with
      | none => (ranger, [])
      | some index =>
        (ranger.updatePair index (·.recordFailure (monotonicUs io.recordedAt)),
          [.recordFailure pair])
    else (ranger, [])

def recoverExchange (ranger : Ranger) (io : RangerIo) : Handled := do
  let (ranger, actions) := ranger.recordTimeout io
  armReceive io
  return ({ ranger with state := .idle, deadline := none }, actions)

def sendPoll (ranger : Ranger) (peer : NodeAddress) (exchangeId : ExchangeId) (io : RangerIo) :
    Handled := do
  let planned ← radioAnswer io.plannedPoll
  let (ranger, frame) ← ranger.encode peer { exchangeId, message := .poll ranger.egoState }
  transmitted io
  return ({ ranger with
    state := .sendingPoll peer exchangeId (ticks planned)
    deadline := some (io.sentAt + ranger.config.responseTimeout) }, [.transmit frame])

def sendResponse (ranger : Ranger) (peer : NodeAddress) (exchangeId : ExchangeId)
    (pollRx : UInt64) (peerState : EgoState) (io : RangerIo) : Handled := do
  let responseTx := ticks (plannedTxAfter pollRx ranger.config.replyDelayUs)
  let (ranger, frame) ← ranger.encode peer
    { exchangeId, message := .response pollRx responseTx ranger.egoState }
  transmitted io
  return ({ ranger with
    state := .sendingResponse peer exchangeId pollRx responseTx peerState
    deadline := some (io.sentAt + ranger.config.responseTimeout) }, [.transmit frame])

def sendFinal (ranger : Ranger) (peer : NodeAddress) (exchangeId : ExchangeId)
    (pollTx pollRx responseTx responseRx : UInt64) (peerState : EgoState) (io : RangerIo) :
    Handled := do
  let finalTx := ticks (plannedTxAfter responseRx ranger.config.replyDelayUs)
  let (ranger, frame) ← ranger.encode peer
    { exchangeId, message := .final pollTx responseRx finalTx }
  transmitted io
  return ({ ranger with
    state := .sendingFinal peer exchangeId pollTx pollRx responseTx responseRx finalTx peerState
    deadline := some (io.sentAt + ranger.config.responseTimeout) }, [.transmit frame])

def sendReport (ranger : Ranger) (peer : NodeAddress) (exchangeId : ExchangeId)
    (finalRx : UInt64) (close : Bool) (io : RangerIo) : Handled := do
  let (ranger, frame) ← ranger.encode peer
    { exchangeId, message := .report finalRx (if close then reportStatusClose else 0) }
  transmitted io
  return ({ ranger with
    state := .sendingReport peer exchangeId
    deadline := some (io.sentAt + ranger.config.responseTimeout) }, [.transmit frame])

def sendFleetMode (ranger : Ranger) (io : RangerIo) : Handled := do
  let pending ← expect ranger.pendingFleetMode
  let exchangeId : ExchangeId := ⟨ranger.nextExchangeId⟩
  let ranger := { ranger with nextExchangeId := ranger.nextExchangeId + 1 }
  let (ranger, frame) ← ranger.encodeDestination .broadcast
    { exchangeId, message := .fleetMode pending.mode }
  transmitted io
  return ({ ranger with
    state := .sendingFleetMode
    deadline := some (io.sentAt + ranger.config.responseTimeout)
    pendingFleetMode :=
      if pending.remaining = 1 then none
      else some { pending with
        remaining := pending.remaining - 1
        nextAt := io.repeatedAt + fleetModeInterval } }, [.transmit frame])

def serviceSchedule (ranger : Ranger) (io : RangerIo) : Handled :=
  if ranger.state ≠ .idle then .ok (ranger, [])
  else if ranger.pendingFleetMode.any (·.nextAt ≤ io.fleetCheckedAt) then ranger.sendFleetMode io
  else
    let nowUs := monotonicUs io.checkedAt
    let ranger := { ranger with pairStates := ranger.pairStates.map (·.expire nowUs) }
    match duePair ranger.roster ranger.config.address nowUs ranger.pairStates with
    | none => .ok (ranger, [])
    | some pair => do
      let exchangeId : ExchangeId := ⟨ranger.nextExchangeId⟩
      let ranger := { ranger with nextExchangeId := ranger.nextExchangeId + 1 }
      let index ← expect (pairIndex ranger.roster pair)
      let ranger := ranger.updatePair index (·.beginAttempt nowUs)
      let ranger := { ranger with activePair := some pair }
      let (ranger, actions) ← ranger.sendPoll pair.responder exchangeId io
      return (ranger, .beginAttempt pair :: actions)

def handleCommand (ranger : Ranger) (command : RadioCommand) (now : ℕ) : Ranger :=
  match command with
  | .setEgoState state => { ranger with egoState := state }
  | .broadcastFleetMode mode =>
    { ranger with pendingFleetMode := some ⟨mode, fleetModeRepeats, now⟩ }

/-- A sent frame whose time on the air missed its plan ends the exchange. -/
def missedTransmission (ranger : Ranger) (io : RangerIo) : Handled := do
  let (ranger, failed) := ranger.recordTimeout io
  let (ranger, actions) ← ranger.recoverExchange io
  return (ranger, failed ++ actions)

def handleTxDone (ranger : Ranger) (io : RangerIo) : Handled :=
  match ranger.state with
  | .sendingPoll peer exchangeId pollTx => do
    let actualPollTx := ticks (← radioAnswer io.txTimestamp)
    if !scheduledTxMatches pollTx actualPollTx then ranger.missedTransmission io
    else return ({ ranger with state := .awaitResponse peer exchangeId actualPollTx }, [])
  | .sendingResponse peer exchangeId pollRx responseTx peerState => do
    let actualResponseTx := ticks (← radioAnswer io.txTimestamp)
    if !scheduledTxMatches responseTx actualResponseTx then ranger.missedTransmission io
    else return ({ ranger with
      state := .awaitFinal peer exchangeId pollRx responseTx peerState }, [])
  | .sendingFinal peer exchangeId pollTx pollRx responseTx responseRx finalTx peerState => do
    let actualFinalTx := ticks (← radioAnswer io.txTimestamp)
    if !scheduledTxMatches finalTx actualFinalTx then ranger.missedTransmission io
    else
      armReceive io
      return ({ ranger with
        state := .awaitReport peer exchangeId pollTx pollRx responseTx responseRx finalTx
          actualFinalTx peerState }, [])
  | .sendingReport _ _ => do
    armReceive io
    return ({ ranger with state := .idle, deadline := none, activePair := none }, [])
  | .sendingFleetMode => do
    armReceive io
    return ({ ranger with state := .idle, deadline := none }, [])
  | .idle | .awaitResponse .. | .awaitFinal .. | .awaitReport .. => .ok (ranger, [])

/-- The host time of an event, from readings on both sides of the radio's. -/
def mapEventTime (io : RangerIo) (eventDtu : UInt64) : Option (UInt64 × UInt32) := do
  let hostBeforeUs ← io.hostBeforeUs
  let radioNowDtu := ticks (← io.radioNow)
  let hostAfterUs ← io.hostAfterUs
  if hostAfterUs < hostBeforeUs then none
  else
    let bracketUs := hostAfterUs - hostBeforeUs
    let hostNowUs := saturatingAdd hostBeforeUs (bracketUs / 2)
    let ageUs := UInt64.ofNat (((wrappingDelta radioNowDtu eventDtu).toNat + dtuPerUs.toNat - 1) /
      dtuPerUs.toNat)
    if hostNowUs < ageUs then none
    else
      let errorUs := UInt32.ofNat (min ((bracketUs.toNat + 1) / 2) (UInt32.size - 1))
      if errorUs ≤ 750 then some (hostNowUs - ageUs, errorUs) else none

def emit (ranger : Ranger) (source : NodeAddress) (exchangeId : ExchangeId)
    (peerState : EgoState) (distance : ℚ) (rangeEventTimeDtu : UInt64) (io : RangerIo) :
    Ranger × List RadioAction :=
  let mapped := mapEventTime io rangeEventTimeDtu
  let measurement : RangeMeasurement := {
    receiver := ranger.config.address
    source
    distanceMetres := distance
    sequence := ranger.sequence
    rangeEventTimeDtu
    missionEventTimeUs := mapped.map Prod.fst
    missionGeneration := mapped.map fun _ => ranger.missionGeneration
    missionTimeErrorUs := (mapped.map Prod.snd).getD (UInt32.ofNat (UInt32.size - 1))
    exchangeId
    peerState }
  ({ ranger with sequence := ranger.sequence + 1 }, [.range measurement])

/-- The responder's rule: the source has the lower address, is a listed peer, and
its last admitted exchange is another one or older than the window. -/
def pollIsValid (ranger : Ranger) (source : NodeAddress) (exchangeId : ExchangeId)
    (io : RangerIo) : Ranger × Bool :=
  match Pair.new source ranger.config.address with
  | none => (ranger, false)
  | some pair =>
    if pair.role ranger.config.address ≠ .responder source ∨ !ranger.roster.contains source then
      (ranger, false)
    else
      match ranger.config.peers.findIdx? (· = source) with
      | none => (ranger, false)
      | some peerIndex =>
        if (ranger.lastReceivedExchange[peerIndex]?.join).any fun last =>
            last.1 = exchangeId ∧ io.checkedAt - last.2 < duplicateWindow then
          (ranger, false)
        else
          ({ ranger with lastReceivedExchange :=
              ranger.lastReceivedExchange.set peerIndex (some (exchangeId, io.checkedAt)) }, true)

def observeRange (ranger : Ranger) (peer : NodeAddress) (exchangeId : ExchangeId) (close : Bool)
    (io : RangerIo) : Handled := do
  let pair ← expect (Pair.new ranger.config.address peer)
  let index ← expect (pairIndex ranger.roster pair)
  let ranger := ranger.updatePair index (·.recordSuccess (monotonicUs io.recordedAt) close)
  return ({ ranger with activePair := none }, [.recordSuccess pair exchangeId close])

def pairIsClose (ranger : Ranger) (index : ℕ) (nowUs : UInt64) : Bool :=
  (ranger.pairStates[index]?).any (·.isClose nowUs)

/-- The responder's last step: the range, its class and the Report. -/
def handleFinal (ranger : Ranger) (source : NodeAddress) (exchangeId : ExchangeId)
    (initiator : InitiatorTimestamps) (pollRx responseTx rxTime : UInt64) (peerState : EgoState)
    (io : RangerIo) : Handled :=
  let responder : ResponderTimestamps := ⟨pollRx, responseTx, rxTime⟩
  match distanceMetres initiator responder with
  | none => ranger.recoverExchange io
  | some distance => do
    let pair ← expect (Pair.new ranger.config.address source)
    let index ← expect (pairIndex ranger.roster pair)
    let close := classifyRange (ranger.pairIsClose index (monotonicUs io.classifiedAt))
      (millimetres distance)
    let ranger := ranger.updatePair index (·.recordSuccess (monotonicUs io.recordedAt) close)
    let (ranger, sent) ← ranger.sendReport source exchangeId rxTime close io
    let (ranger, emitted) := ranger.emit source exchangeId peerState distance rxTime io
    return (ranger, [.evaluate source exchangeId initiator responder,
      .recordSuccess pair exchangeId close] ++ sent ++ emitted)

/-- The initiator's last step. -/
def handleReport (ranger : Ranger) (source : NodeAddress) (exchangeId : ExchangeId)
    (initiator : InitiatorTimestamps) (pollRx responseTx finalRx finalEventTime : UInt64)
    (peerState : EgoState) (status : UInt16) (io : RangerIo) : Handled :=
  let responder : ResponderTimestamps := ⟨pollRx, responseTx, finalRx⟩
  match distanceMetres initiator responder with
  | none => ranger.recoverExchange io
  | some distance => do
    let ranger := { ranger with state := .idle, deadline := none }
    let (ranger, recorded) ← ranger.observeRange source exchangeId
      (status &&& reportStatusClose ≠ 0) io
    let (ranger, emitted) := ranger.emit source exchangeId peerState distance finalEventTime io
    armReceive io
    return (ranger, .evaluate source exchangeId initiator responder :: (recorded ++ emitted))

def ignoreFrame (ranger : Ranger) (io : RangerIo) : Handled := do
  armReceive io
  return (ranger, [])

def handleMessage (ranger : Ranger) (source : NodeAddress) (frameId : ExchangeId)
    (message : AirMessage) (rxTime : UInt64) (io : RangerIo) : Handled :=
  match ranger.state, message with
  | .idle, .poll state =>
    match ranger.pollIsValid source frameId io with
    | (ranger, true) =>
      ({ ranger with activePair := Pair.new ranger.config.address source } : Ranger).sendResponse
        source frameId rxTime state io
    | (ranger, false) => ranger.ignoreFrame io
  | .awaitResponse peer exchangeId pollTx, .response pollRx responseTx state =>
    if peer = source ∧ exchangeId = frameId then
      ranger.sendFinal source exchangeId pollTx pollRx responseTx rxTime state io
    else ranger.ignoreFrame io
  | .awaitFinal peer exchangeId pollRx responseTx peerState, .final pollTx responseRx finalTx =>
    if peer = source ∧ exchangeId = frameId then
      ranger.handleFinal source exchangeId ⟨pollTx, responseRx, finalTx⟩ pollRx responseTx rxTime
        peerState io
    else ranger.ignoreFrame io
  | .awaitReport peer exchangeId pollTx pollRx responseTx responseRx finalTx finalEventTime
      peerState, .report finalRx status =>
    if peer = source ∧ exchangeId = frameId then
      ranger.handleReport source exchangeId ⟨pollTx, responseRx, finalTx⟩ pollRx responseTx finalRx
        finalEventTime peerState status io
    else ranger.ignoreFrame io
  | _, _ => ranger.ignoreFrame io

def handleFrame (ranger : Ranger) (decoded : Except AirDecodeError DecodedAirFrame)
    (rxTime : UInt64) (io : RangerIo) : Handled :=
  match decoded with
  | .error _ => ranger.ignoreFrame io
  | .ok frame =>
    match frame.envelope.message with
    | .fleetMode mode => do
      let (ranger, actions) ← ranger.recoverExchange io
      return (ranger, .fleetMode frame.source mode :: actions)
    | message =>
      match ranger.peerForAddress frame.source with
      | none => ranger.ignoreFrame io
      | some source => ranger.handleMessage source frame.envelope.exchangeId message rxTime io

end Ranger

/-- What the service loop hands to the state machine. A receiver error and a
frame that cannot be read from the radio are handled alike. -/
inductive RangerEvent where
  | command (command : RadioCommand) (now : ℕ)
  | schedule (io : RangerIo)
  | txDone (io : RangerIo)
  | received (decoded : Except AirDecodeError DecodedAirFrame) (rxTime : UInt64) (io : RangerIo)
  | receiveError (io : RangerIo)
  | deadline (now : ℕ) (io : RangerIo)

namespace Ranger

def step (ranger : Ranger) : RangerEvent → Handled
  | .command command now => .ok (ranger.handleCommand command now, [])
  | .schedule io => ranger.serviceSchedule io
  | .txDone io => ranger.handleTxDone io
  | .received decoded rxTime io => ranger.handleFrame decoded (ticks rxTime) io
  | .receiveError io => ranger.recoverExchange io
  | .deadline now io =>
    if ranger.deadline.any (· ≤ now) then ranger.recoverExchange io else .ok (ranger, [])

/-- The service with everything it has done, over events none of which ends it. -/
def loggedStep (logged : Ranger × List RadioAction) (event : RangerEvent) :
    Option (Ranger × List RadioAction) :=
  match logged.1.step event with
  | .ok (ranger, actions) => some (ranger, logged.2 ++ actions)
  | .error _ => none

end Ranger

end Mission10.Uwb
