import Mission10.Uwb.AirLink
import Mission10.Uwb.Roster

/-!
# The DWM3001 firmware

The firmware runs one exchange at a time from its main loop, as initiator of a
due pair or listening as responder, and waits inside the exchange for each
transmission to end and each frame to arrive. The phase is the point it waits
at. What the clock, the host and the radio answer between two waits is given
with the event. An error of a step is a reset of the device.
-/
namespace Mission10.Uwb

def replyDelayUs : UInt32 := 2000
def pollLeadUs : UInt32 := 1000
def rxReleaseLeadUs : UInt64 := 1000
def maxIdleListenUs : UInt64 := 100000
def duplicateWindowUs : UInt64 := 20000
def fleetModeRepeatCount : UInt8 := 8
def fleetModeIntervalUs : UInt64 := 125000

/-- A radio time: a 40-bit count. -/
structure RadioInstant where
  value : UInt64
  valid : AirCodec.timestampValid value = true
  deriving DecidableEq

def RadioInstant.new (value : UInt64) : Option RadioInstant :=
  if h : AirCodec.timestampValid value = true then some ⟨value, h⟩ else none

def recoverableReceiveError : Diagnostic → Bool
  | .rxFcs | .rxPhy | .rxReedSolomon | .rxFrameWaitTimeout | .rxOverrun
  | .rxPreambleDetectionTimeout | .rxSfdTimeout | .rxFrameFilteringRejection => true
  | _ => false

structure QueuedFleetMode where
  mode : FleetMode
  remaining : UInt8
  nextAtUs : UInt64
  deriving DecidableEq

/-- What is left to broadcast after a repeat. -/
def QueuedFleetMode.afterRepeat (pending : QueuedFleetMode) (nowUs : UInt64) :
    Option QueuedFleetMode :=
  if pending.remaining = 1 then none
  else some { pending with
    remaining := pending.remaining - 1
    nextAtUs := nowUs + fleetModeIntervalUs }

/-- What an exchange that completed hands back to the main loop. -/
structure ExchangeOutcome where
  exchange : CompletedExchange
  close : Bool
  deriving DecidableEq

inductive FirmwarePhase where
  | mainLoop
  | sendingFleetMode (pending : QueuedFleetMode)
  | sendingPoll (pair : Pair) (exchangeId : ExchangeId) (predictedPollTx : UInt64)
  | awaitResponse (pair : Pair) (exchangeId : ExchangeId) (pollTx : RadioInstant)
  | sendingFinal (pair : Pair) (exchangeId : ExchangeId) (pollTx : RadioInstant)
      (pollRx responseTx : UInt64) (responseRx : RadioInstant) (predictedFinalTx : UInt64)
      (peerState : EgoState)
  | awaitReport (pair : Pair) (exchangeId : ExchangeId) (pollTx : RadioInstant)
      (pollRx responseTx : UInt64) (responseRx : RadioInstant) (predictedFinalTx : UInt64)
      (actualFinalTx : RadioInstant) (peerState : EgoState)
  | listening
  | sendingResponse (pair : Pair) (peer : NodeAddress) (exchangeId : ExchangeId)
      (pollRx : RadioInstant) (predictedResponseTx : UInt64) (peerState : EgoState)
  | awaitFinal (pair : Pair) (peer : NodeAddress) (exchangeId : ExchangeId)
      (pollRx : RadioInstant) (predictedResponseTx : UInt64) (peerState : EgoState)
  | sendingReport (peer : NodeAddress) (exchangeId : ExchangeId) (finalRx : RadioInstant)
      (millimetres : UInt32) (close : Bool) (peerState : EgoState)
  deriving DecidableEq

namespace FirmwarePhase

/-- The pair of an exchange this node initiates. -/
def initiated : FirmwarePhase → Option Pair
  | sendingPoll pair _ _ | awaitResponse pair _ _ | sendingFinal pair _ _ _ _ _ _ _
  | awaitReport pair _ _ _ _ _ _ _ _ => some pair
  | _ => none

/-- The phase waits for a frame. -/
def receives : FirmwarePhase → Bool
  | awaitResponse .. | awaitReport .. | listening | awaitFinal .. => true
  | _ => false

end FirmwarePhase

/-- What the clock, the host and the radio answer between two waits, each clock
reading under the name of its use. -/
structure FirmwareIo where
  configuration : Option RadioConfiguration
  addressWritten : Bool
  bootNonce : UInt32
  configuredAtUs : UInt64
  fleetMode : Option FleetMode
  egoState : EgoState
  checkedAtUs : UInt64
  receivedAtUs : UInt64
  classifiedAtUs : UInt64
  finishedAtUs : UInt64
  repeatedAtUs : UInt64
  /-- The radio is prepared to send or to receive. -/
  prepared : Except Diagnostic Unit
  sysTime : Option UInt32
  /-- The transmission or the reception starts. -/
  started : Except Diagnostic Unit
  /-- The last transmission or reception is finished, after retries. -/
  finished : Except Diagnostic Unit
  missionEventTime : MissionEventTime

structure Firmware where
  configuration : RadioConfiguration
  /-- The antenna delay of transmissions, fixed at start. -/
  txDelay : UInt16
  localNode : NodeAddress
  pairStates : List PairMacState
  activePair : Option Pair := none
  nextExchangeId : UInt16 := 0
  lastReceivedExchange : List (Option (ExchangeId × UInt64)) := List.replicate maxPeers none
  macSequence : UInt8 := 0
  spiErrorsSinceRange : UInt8 := 0
  pendingFleetMode : Option QueuedFleetMode := none
  phase : FirmwarePhase := .mainLoop

namespace Firmware

/-- The firmware after a step and what it did, or the diagnostic of a reset. -/
abbrev Stepped := Except Diagnostic (Firmware × List RadioAction)

def resetUnless {α : Type} (diagnostic : Diagnostic) : Option α → Except Diagnostic α
  | some value => .ok value
  | none => .error diagnostic

def roster (firmware : Firmware) : Except Diagnostic FlightRoster :=
  resetUnless .invalidConfiguration firmware.configuration.roster

/-- The state after a valid configuration: everything of the last one is dropped. -/
def reconfigure (firmware : Firmware) (configuration : RadioConfiguration) (roster : FlightRoster)
    (io : FirmwareIo) : Firmware :=
  { firmware with
    configuration
    localNode := configuration.nodeAddress
    pairStates := (List.range maxPairs).map fun index =>
      match roster.pairs[index]? with
      | some pair => (PairMacState.new io.bootNonce).initializeMac io.configuredAtUs pair
      | none => PairMacState.new io.bootNonce
    activePair := none
    nextExchangeId := 0
    lastReceivedExchange := List.replicate maxPeers none
    spiErrorsSinceRange := 0
    pendingFleetMode := none }

/-- An invalid configuration and a failed write of the address reset the device. -/
def applyConfiguration (firmware : Firmware) (configuration : RadioConfiguration)
    (io : FirmwareIo) : Except Diagnostic Firmware :=
  match configuration.roster with
  | none => .error .invalidConfiguration
  | some roster =>
    if io.addressWritten then .ok (firmware.reconfigure configuration roster io)
    else .error .spi

/-- A failed exchange is counted; the third SPI error in a row resets. -/
def recoverExchange (firmware : Firmware) (diagnostic : Diagnostic) : Except Diagnostic Firmware :=
  if diagnostic = .spi then
    let errors :=
      if firmware.spiErrorsSinceRange = 255 then 255 else firmware.spiErrorsSinceRange + 1
    if 3 ≤ errors then .error diagnostic
    else .ok { firmware with spiErrorsSinceRange := errors }
  else .ok { firmware with spiErrorsSinceRange := 0 }

def encodeAir (firmware : Firmware) (destination : Destination) (envelope : AirEnvelope) :
    Except Diagnostic (Firmware × DecodedAirFrame) :=
  match AirCodec.send firmware.localNode destination firmware.macSequence envelope with
  | .ok frame => .ok ({ firmware with macSequence := firmware.macSequence + 1 }, frame)
  | .error _ => .error .malformedAir

/-- The time on the air of a frame whose transmission starts at `startAt`. -/
def predictedTx (firmware : Firmware) (startAt : UInt64) : UInt64 :=
  (startAt + firmware.txDelay.toUInt64) &&& timestampMask

def updatePair (firmware : Firmware) (index : ℕ) (update : PairMacState → PairMacState) :
    Firmware :=
  { firmware with pairStates := firmware.pairStates.modify index update }

/-- The main loop's record of an attempt that ended. -/
def finishAttempt (firmware : Firmware) (pair : Pair) (outcome : Option ExchangeOutcome)
    (io : FirmwareIo) : Stepped := do
  let roster ← firmware.roster
  let index ← resetUnless .invalidConfiguration (pairIndex roster pair)
  let peer := if pair.initiator = firmware.localNode then pair.responder else pair.initiator
  let _ ← resetUnless .invalidConfiguration
    (firmware.configuration.peerSlice.bind fun peers => peers.findIdx? (· = peer))
  match outcome with
  | some outcome =>
    return (firmware.updatePair index (·.recordSuccess io.finishedAtUs outcome.close),
      [.recordSuccess pair outcome.exchange.exchangeId outcome.close,
        .completed outcome.exchange])
  | none =>
    return (firmware.updatePair index (·.recordFailure io.finishedAtUs), [.recordFailure pair])

/-- Back at the top of the main loop. -/
def idle (firmware : Firmware) : Firmware :=
  { firmware with activePair := none, phase := .mainLoop }

/-- The initiator's attempt ends without an outcome. -/
def failAttempt (firmware : Firmware) (pair : Pair) (io : FirmwareIo) : Stepped := do
  let (firmware, actions) ← firmware.finishAttempt pair none io
  return (firmware.idle, actions)

/-- A listening period ends without an outcome. -/
def stopListening (firmware : Firmware) : Stepped := .ok (firmware.idle, [])

/-- `recoverExchange`, and then the end of the attempt. -/
def recoverAttempt (firmware : Firmware) (pair : Pair) (diagnostic : Diagnostic)
    (io : FirmwareIo) : Stepped := do
  let firmware ← firmware.recoverExchange diagnostic
  firmware.failAttempt pair io

def recoverListening (firmware : Firmware) (diagnostic : Diagnostic) : Stepped := do
  let firmware ← firmware.recoverExchange diagnostic
  firmware.stopListening

def broadcastFleetMode (firmware : Firmware) (pending : QueuedFleetMode) (io : FirmwareIo) :
    Stepped := do
  io.prepared
  let exchangeId : ExchangeId := ⟨firmware.nextExchangeId⟩
  let firmware := { firmware with nextExchangeId := firmware.nextExchangeId + 1 }
  let (firmware, frame) ← firmware.encodeAir .broadcast
    { exchangeId, message := .fleetMode pending.mode }
  io.started
  return ({ firmware with phase := .sendingFleetMode pending }, [.transmit frame])

/-- The first part of an exchange this node initiates, up to the Poll. -/
def initiateExchange (firmware : Firmware) (pair : Pair) (exchangeId : ExchangeId)
    (io : FirmwareIo) : Stepped :=
  match io.prepared with
  | .error diagnostic => firmware.recoverAttempt pair diagnostic io
  | .ok () => do
    let (firmware, frame) ← firmware.encodeAir (.node pair.responder)
      { exchangeId, message := .poll io.egoState }
    let now ← resetUnless .spi io.sysTime
    let pollAtValue := delayedTxTime (now.toUInt64 <<< 8) pollLeadUs
    let _ ← resetUnless .invalidTimestamp (RadioInstant.new pollAtValue)
    io.started
    let phase := .sendingPoll pair exchangeId (firmware.predictedTx pollAtValue)
    return ({ firmware with phase }, [.transmit frame])

/-- The first part of an exchange this node answers: it waits for a Poll. -/
def respondExchange (firmware : Firmware) (io : FirmwareIo) : Stepped :=
  match io.prepared with
  | .error diagnostic => firmware.recoverListening diagnostic
  | .ok () => do
    io.started
    return ({ firmware with phase := .listening }, [])

/-- The smallest due time of the pairs this node initiates. -/
def nextDueUs (roster : FlightRoster) (localNode : NodeAddress)
    (pairStates : List PairMacState) : Option UInt64 :=
  (((roster.pairs.zip pairStates).filter fun entry => entry.1.initiator = localNode).map
    (·.2.nextDueUs.toNat)).min?.map UInt64.ofNat

def queueFleetMode (firmware : Firmware) (mode : Option FleetMode) : Firmware :=
  match mode with
  | some mode => { firmware with pendingFleetMode := some ⟨mode, fleetModeRepeatCount, 0⟩ }
  | none => firmware

/-- What the host asked for since the last turn. -/
def applyHostRequests (firmware : Firmware) (io : FirmwareIo) : Except Diagnostic Firmware :=
  match io.configuration with
  | some configuration => do
    let firmware ← firmware.applyConfiguration configuration io
    return firmware.queueFleetMode io.fleetMode
  | none => .ok (firmware.queueFleetMode io.fleetMode)

def expirePairs (firmware : Firmware) (nowUs : UInt64) : Firmware :=
  { firmware with pairStates := firmware.pairStates.map (·.expire nowUs) }

/-- An attempt of a due pair. -/
def beginDuePair (firmware : Firmware) (roster : FlightRoster) (pair : Pair) (io : FirmwareIo) :
    Stepped := do
  let exchangeId : ExchangeId := ⟨firmware.nextExchangeId⟩
  let firmware := { firmware with nextExchangeId := firmware.nextExchangeId + 1 }
  let index ← resetUnless .invalidConfiguration (pairIndex roster pair)
  let firmware := firmware.updatePair index (·.beginAttempt io.checkedAtUs)
  let firmware := { firmware with activePair := some pair }
  let (firmware, actions) ← firmware.initiateExchange pair exchangeId io
  return (firmware, .beginAttempt pair :: actions)

def untilDueUs (firmware : Firmware) (roster : FlightRoster) (nowUs : UInt64) : UInt64 :=
  match nextDueUs roster firmware.localNode firmware.pairStates with
  | some due => saturatingSub due nowUs
  | none => maxIdleListenUs

/-- Listening until the next due time, or nothing when it is near. -/
def listenUntilDue (firmware : Firmware) (roster : FlightRoster) (io : FirmwareIo) : Stepped :=
  if firmware.untilDueUs roster io.checkedAtUs ≤ rxReleaseLeadUs then .ok (firmware, [])
  else firmware.respondExchange io

/-- One turn of the main loop, up to the wait it leads to. -/
def turn (firmware : Firmware) (io : FirmwareIo) : Stepped := do
  let firmware ← firmware.applyHostRequests io
  let firmware := firmware.expirePairs io.checkedAtUs
  match firmware.pendingFleetMode.filter fun pending => pending.nextAtUs ≤ io.checkedAtUs with
  | some pending => firmware.broadcastFleetMode pending io
  | none =>
    let roster ← firmware.roster
    match duePair roster firmware.localNode io.checkedAtUs firmware.pairStates with
    | some pair => firmware.beginDuePair roster pair io
    | none => firmware.listenUntilDue roster io

/-- A transmission ends, with its time on the air or an error. -/
def sent (firmware : Firmware) (result : Except Diagnostic RadioInstant) (io : FirmwareIo) :
    Stepped :=
  match firmware.phase with
  | .sendingFleetMode pending => do
    let _ ← result
    io.finished
    let pendingFleetMode := pending.afterRepeat io.repeatedAtUs
    return (({ firmware with pendingFleetMode } : Firmware).idle, [])
  | .sendingPoll pair exchangeId predictedPollTx => do
    let pollTx ← result
    io.finished
    if !scheduledTxMatches predictedPollTx pollTx.value then
      firmware.recoverAttempt pair .delayedSendTooLate io
    else
      match io.prepared with
      | .error diagnostic => firmware.recoverAttempt pair diagnostic io
      | .ok () =>
        io.started
        return ({ firmware with phase := .awaitResponse pair exchangeId pollTx }, [])
  | .sendingFinal pair exchangeId pollTx pollRx responseTx responseRx predictedFinalTx
      peerState =>
    match result with
    | .error diagnostic => do
      let firmware ← firmware.recoverExchange diagnostic
      io.finished
      firmware.failAttempt pair io
    | .ok actualFinalTx => do
      io.finished
      if !scheduledTxMatches predictedFinalTx actualFinalTx.value then
        firmware.recoverAttempt pair .delayedSendTooLate io
      else
        match io.prepared with
        | .error diagnostic => firmware.recoverAttempt pair diagnostic io
        | .ok () =>
          io.started
          let phase := .awaitReport pair exchangeId pollTx pollRx responseTx responseRx
            predictedFinalTx actualFinalTx peerState
          return ({ firmware with phase }, [])
  | .sendingResponse pair peer exchangeId pollRx predictedResponseTx peerState =>
    match result with
    | .error diagnostic => do
      let firmware ← firmware.recoverExchange diagnostic
      io.finished
      firmware.stopListening
    | .ok actualResponseTx => do
      io.finished
      if !scheduledTxMatches predictedResponseTx actualResponseTx.value then
        firmware.recoverListening .delayedSendTooLate
      else
        match io.prepared with
        | .error diagnostic => firmware.recoverListening diagnostic
        | .ok () =>
          io.started
          let phase := .awaitFinal pair peer exchangeId pollRx predictedResponseTx peerState
          return ({ firmware with phase }, [])
  | .sendingReport peer exchangeId finalRx millimetres close peerState =>
    match result with
    | .error diagnostic => do
      let firmware ← firmware.recoverExchange diagnostic
      io.finished
      firmware.stopListening
    | .ok _ => do
      io.finished
      let firmware := { firmware with spiErrorsSinceRange := 0 }
      let outcome : ExchangeOutcome := {
        exchange := {
          peer
          exchangeId
          rangeEventTimeDtu := finalRx.value
          missionEventTime := io.missionEventTime
          millimetres
          rssiCdbm := -32768
          qualityFlags := 0
          state := peerState }
        close }
      let pair ← resetUnless .invalidConfiguration (Pair.new firmware.localNode peer)
      let (firmware, actions) ← firmware.finishAttempt pair (some outcome) io
      return (firmware.idle, actions)
  | .mainLoop | .awaitResponse .. | .awaitReport .. | .listening | .awaitFinal .. =>
    .ok (firmware, [])

def firstPeerIndex (firmware : Firmware) (peer : NodeAddress) : Option ℕ :=
  firmware.configuration.peerSlice.bind fun peers => peers.findIdx? (· = peer)

def isDuplicate (firmware : Firmware) (peerIndex : Option ℕ) (exchangeId : ExchangeId)
    (receivedNowUs : UInt64) : Bool :=
  peerIndex.any fun index =>
    (firmware.lastReceivedExchange[index]?.join).any fun last =>
      last.1 = exchangeId ∧ saturatingSub receivedNowUs last.2 < duplicateWindowUs

def rememberExchange (firmware : Firmware) (peerIndex : Option ℕ) (exchangeId : ExchangeId)
    (receivedNowUs : UInt64) : Firmware :=
  match peerIndex with
  | some index => { firmware with
      lastReceivedExchange :=
        firmware.lastReceivedExchange.set index (some (exchangeId, receivedNowUs)) }
  | none => firmware

/-- The responder's rule: the source initiates the pair, is in the roster, and the
Poll is no duplicate. -/
def pollAllowed (firmware : Firmware) (pair : Pair) (peer : NodeAddress) (duplicate : Bool) :
    Except Diagnostic Bool :=
  if pair.initiator ≠ peer then .ok false
  else firmware.roster.map fun roster => roster.contains peer && !duplicate

/-- The Response to an admitted Poll. -/
def answerPoll (firmware : Firmware) (pair : Pair) (peer : NodeAddress)
    (exchangeId : ExchangeId) (pollRx : RadioInstant) (peerState : EgoState) (io : FirmwareIo) :
    Stepped :=
  let responseAtValue := delayedTxTime pollRx.value replyDelayUs
  let predictedResponseTx := firmware.predictedTx responseAtValue
  match io.prepared with
  | .error diagnostic => firmware.recoverListening diagnostic
  | .ok () => do
    let (firmware, frame) ← firmware.encodeAir (.node peer)
      { exchangeId, message := .response pollRx.value predictedResponseTx io.egoState }
    let _ ← resetUnless .invalidTimestamp (RadioInstant.new responseAtValue)
    io.started
    let phase := .sendingResponse pair peer exchangeId pollRx predictedResponseTx peerState
    return ({ firmware with phase }, [.transmit frame])

def handlePoll (firmware : Firmware) (poll : DecodedAirFrame) (pollRx : RadioInstant)
    (io : FirmwareIo) : Stepped := do
  let peer := poll.source
  let exchangeId := poll.envelope.exchangeId
  let pair ← resetUnless .invalidConfiguration (Pair.new firmware.localNode peer)
  let peerIndex := firmware.firstPeerIndex peer
  let duplicate := firmware.isDuplicate peerIndex exchangeId io.receivedAtUs
  let allowed ← firmware.pollAllowed pair peer duplicate
  match poll.envelope.message with
  | .poll peerState =>
    if allowed then
      let firmware := firmware.rememberExchange peerIndex exchangeId io.receivedAtUs
      let firmware := { firmware with activePair := some pair }
      firmware.answerPoll pair peer exchangeId pollRx peerState io
    else firmware.stopListening
  | _ => firmware.stopListening

/-- The initiator's Final, after a Response. -/
def handleResponse (firmware : Firmware) (pair : Pair) (exchangeId : ExchangeId)
    (pollTx : RadioInstant) (response : DecodedAirFrame) (responseRx : RadioInstant)
    (io : FirmwareIo) : Stepped :=
  match response.envelope.message with
  | .response pollRx responseTx peerState =>
    if response.source = pair.responder ∧ response.envelope.exchangeId = exchangeId then do
      let finalAtValue := delayedTxTime responseRx.value replyDelayUs
      let predictedFinalTx := firmware.predictedTx finalAtValue
      let (firmware, frame) ← firmware.encodeAir (.node pair.responder)
        { exchangeId, message := .final pollTx.value responseRx.value predictedFinalTx }
      match io.prepared with
      | .error diagnostic => firmware.recoverAttempt pair diagnostic io
      | .ok () =>
        let _ ← resetUnless .invalidTimestamp (RadioInstant.new finalAtValue)
        io.started
        let phase := .sendingFinal pair exchangeId pollTx pollRx responseTx responseRx
          predictedFinalTx peerState
        return ({ firmware with phase }, [.transmit frame])
    else firmware.failAttempt pair io
  | _ => firmware.failAttempt pair io

/-- The initiator's last step. -/
def handleReport (firmware : Firmware) (pair : Pair) (exchangeId : ExchangeId)
    (pollTx : RadioInstant) (pollRx responseTx : UInt64) (responseRx : RadioInstant)
    (predictedFinalTx : UInt64) (actualFinalTx : RadioInstant) (peerState : EgoState)
    (report : DecodedAirFrame) (io : FirmwareIo) : Stepped :=
  match report.envelope.message with
  | .report finalRx status =>
    if report.source = pair.responder ∧ report.envelope.exchangeId = exchangeId then
      let initiator : InitiatorTimestamps := ⟨pollTx.value, responseRx.value, predictedFinalTx⟩
      let responder : ResponderTimestamps := ⟨pollRx, responseTx, finalRx⟩
      match distanceMetres initiator responder with
      | none => firmware.recoverAttempt pair .invalidDistance io
      | some distance => do
        let firmware := { firmware with spiErrorsSinceRange := 0 }
        let outcome : ExchangeOutcome := {
          exchange := {
            peer := pair.responder
            exchangeId
            rangeEventTimeDtu := actualFinalTx.value
            missionEventTime := io.missionEventTime
            millimetres := millimetres distance
            rssiCdbm := -32768
            qualityFlags := 0
            state := peerState }
          close := status &&& reportStatusClose ≠ 0 }
        let (firmware, actions) ← firmware.finishAttempt pair (some outcome) io
        return (firmware.idle, .evaluate pair.responder exchangeId initiator responder :: actions)
    else firmware.failAttempt pair io
  | _ => firmware.failAttempt pair io

def pairIsClose (firmware : Firmware) (index : ℕ) (nowUs : UInt64) : Bool :=
  (firmware.pairStates[index]?).any (·.isClose nowUs)

/-- The responder's range, its class and the Report. -/
def handleFinal (firmware : Firmware) (pair : Pair) (peer : NodeAddress)
    (exchangeId : ExchangeId) (pollRx : RadioInstant) (predictedResponseTx : UInt64)
    (peerState : EgoState) (final : DecodedAirFrame) (finalRx : RadioInstant) (io : FirmwareIo) :
    Stepped :=
  match final.envelope.message with
  | .final pollTx responseRx finalTx =>
    if final.source = peer ∧ final.envelope.exchangeId = exchangeId then
      let initiator : InitiatorTimestamps := ⟨pollTx, responseRx, finalTx⟩
      let responder : ResponderTimestamps := ⟨pollRx.value, predictedResponseTx, finalRx.value⟩
      match distanceMetres initiator responder with
      | none => firmware.recoverListening .invalidDistance
      | some distance => do
        let roster ← firmware.roster
        let index ← resetUnless .invalidConfiguration (pairIndex roster pair)
        let close := classifyRange (firmware.pairIsClose index io.classifiedAtUs)
          (millimetres distance)
        let evaluated : RadioAction := .evaluate peer exchangeId initiator responder
        match io.prepared with
        | .error diagnostic =>
          let (firmware, actions) ← firmware.recoverListening diagnostic
          return (firmware, evaluated :: actions)
        | .ok () =>
          let (firmware, frame) ← firmware.encodeAir (.node peer)
            { exchangeId
              message := .report finalRx.value (if close then reportStatusClose else 0) }
          let _ ← resetUnless .invalidTimestamp
            (RadioInstant.new (delayedTxTime finalRx.value reportTurnaroundUs))
          io.started
          let phase := .sendingReport peer exchangeId finalRx (millimetres distance) close
            peerState
          return ({ firmware with phase }, [evaluated, .transmit frame])
    else firmware.stopListening
  | _ => firmware.stopListening

/-- A frame for another address is dropped; one that does not decode is an error
of the exchange; a fleet mode is published. -/
def decodeAir (decoded : Except AirDecodeError DecodedAirFrame) :
    Except Diagnostic (Option DecodedAirFrame) :=
  match decoded with
  | .ok frame => .ok (some frame)
  | .error .destination => .ok none
  | .error _ => .error .malformedAir

/-- The end of an exchange without an outcome, on the side the phase is on. -/
def endAttempt (firmware : Firmware) (io : FirmwareIo) : Stepped :=
  match firmware.phase.initiated with
  | some pair => firmware.failAttempt pair io
  | none => firmware.stopListening

def recoverAndEnd (firmware : Firmware) (diagnostic : Diagnostic) (io : FirmwareIo) : Stepped := do
  let firmware ← firmware.recoverExchange diagnostic
  firmware.endAttempt io

/-- The step of the exchange for a decoded frame that is not a fleet mode. -/
def handleFrame (firmware : Firmware) (frame : DecodedAirFrame) (rxTime : RadioInstant)
    (io : FirmwareIo) : Stepped :=
  match firmware.phase with
  | .listening => firmware.handlePoll frame rxTime io
  | .awaitResponse pair exchangeId pollTx =>
    firmware.handleResponse pair exchangeId pollTx frame rxTime io
  | .awaitReport pair exchangeId pollTx pollRx responseTx responseRx predictedFinalTx
      actualFinalTx peerState =>
    firmware.handleReport pair exchangeId pollTx pollRx responseTx responseRx predictedFinalTx
      actualFinalTx peerState frame io
  | .awaitFinal pair peer exchangeId pollRx predictedResponseTx peerState =>
    firmware.handleFinal pair peer exchangeId pollRx predictedResponseTx peerState frame rxTime io
  | _ => .ok (firmware, [])

/-- A reception ends, with a frame and its time or an error. -/
def received (firmware : Firmware)
    (result : Except Diagnostic (Except AirDecodeError DecodedAirFrame × RadioInstant))
    (io : FirmwareIo) : Stepped :=
  if !firmware.phase.receives then .ok (firmware, [])
  else do
    io.finished
    match result with
    | .error diagnostic =>
      if !recoverableReceiveError diagnostic then .error diagnostic
      else if firmware.phase = .listening ∧ diagnostic = .rxFrameWaitTimeout then
        firmware.stopListening
      else firmware.recoverAndEnd diagnostic io
    | .ok (decoded, rxTime) =>
      match decodeAir decoded with
      | .error diagnostic => firmware.recoverAndEnd diagnostic io
      | .ok none => firmware.endAttempt io
      | .ok (some frame) =>
        match frame.envelope.message with
        | .fleetMode mode =>
          let (firmware, actions) ← firmware.endAttempt io
          return (firmware, .fleetMode frame.source mode :: actions)
        | _ => firmware.handleFrame frame rxTime io

end Firmware

/-- What ends a wait of the firmware. -/
inductive FirmwareEvent where
  | turn (io : FirmwareIo)
  | sent (result : Except Diagnostic RadioInstant) (io : FirmwareIo)
  | received (result : Except Diagnostic (Except AirDecodeError DecodedAirFrame × RadioInstant))
      (io : FirmwareIo)

namespace Firmware

/-- The state with which the main loop is entered: a first valid configuration. -/
def start (configuration : RadioConfiguration) (txDelay : UInt16) (io : FirmwareIo) :
    Except Diagnostic Firmware :=
  applyConfiguration
    { configuration, txDelay, localNode := configuration.nodeAddress, pairStates := [] }
    configuration io

def step (firmware : Firmware) : FirmwareEvent → Stepped
  | .turn io => if firmware.phase = .mainLoop then firmware.turn io else .ok (firmware, [])
  | .sent result io => firmware.sent result io
  | .received result io => firmware.received result io

/-- The firmware with everything it has done, over events none of which resets it. -/
def loggedStep (logged : Firmware × List RadioAction) (event : FirmwareEvent) :
    Option (Firmware × List RadioAction) :=
  match logged.1.step event with
  | .ok (firmware, actions) => some (firmware, logged.2 ++ actions)
  | .error _ => none

end Firmware

end Mission10.Uwb
