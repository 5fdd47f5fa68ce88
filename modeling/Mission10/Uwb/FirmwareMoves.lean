import Mission10.Library.Outcome
import Mission10.Uwb.Firmware

/-!
# What one wait's end does to the firmware

One specification lemma for each part of an exchange, and from them the moves of
the phases: a turn of the main loop starts a broadcast, an attempt or a listening
period, and the end of a wait advances the exchange, ends it without an outcome,
or is one of its steps.
-/
namespace Mission10.Uwb

namespace Firmware

open Outcome

variable {firmware firmware' : Firmware} {io : FirmwareIo} {actions : List RadioAction}
  {pair : Pair} {diagnostic : Diagnostic}

/-- The configuration has a roster, and the local node is the configured one. -/
structure Configured (firmware : Firmware) (roster : FlightRoster) : Prop where
  roster_eq : firmware.configuration.roster = some roster
  localNode_eq : firmware.localNode = firmware.configuration.nodeAddress

/-- The two states are configured alike. -/
def SameNode (firmware firmware' : Firmware) : Prop :=
  firmware'.configuration = firmware.configuration ∧ firmware'.localNode = firmware.localNode

theorem SameNode.refl (firmware : Firmware) : SameNode firmware firmware := ⟨rfl, rfl⟩

theorem SameNode.configured {roster : FlightRoster} (h : SameNode firmware firmware')
    (hconfigured : Configured firmware roster) : Configured firmware' roster := by
  obtain ⟨hconfiguration, hlocal⟩ := h
  exact ⟨hconfiguration ▸ hconfigured.roster_eq,
    by rw [hlocal, hconfiguration]; exact hconfigured.localNode_eq⟩

theorem resetUnless_ok {α : Type} {value : Option α} {a : α}
    (h : resetUnless diagnostic value = .ok a) : value = some a := by
  cases value with
  | none => cases h
  | some b => rw [Except.ok.inj h]

theorem roster_ok {roster : FlightRoster} (h : firmware.roster = .ok roster) :
    firmware.configuration.roster = some roster := resetUnless_ok h

theorem recoverExchange_ok (h : firmware.recoverExchange diagnostic = .ok firmware') :
    ∃ errors, firmware' = { firmware with spiErrorsSinceRange := errors } := by
  unfold recoverExchange at h
  split at h
  · generalize (if firmware.spiErrorsSinceRange = 255 then (255 : UInt8)
      else firmware.spiErrorsSinceRange + 1) = errors at h
    dsimp only at h
    split at h
    · contradiction
    · exact ⟨errors, (Except.ok.inj h).symm⟩
  · exact ⟨0, (Except.ok.inj h).symm⟩

theorem encodeAir_ok {destination : Destination} {envelope : AirEnvelope}
    {frame : DecodedAirFrame} (h : firmware.encodeAir destination envelope = .ok (firmware', frame)) :
    firmware' = { firmware with macSequence := firmware.macSequence + 1 } ∧
      frame = ⟨firmware.localNode, destination, firmware.macSequence, envelope⟩ := by
  unfold encodeAir at h
  split at h
  · rename_i sent hsend
    obtain ⟨rfl, rfl⟩ := Prod.mk.inj (Except.ok.inj h)
    exact ⟨rfl, (AirCodec.send_eq_ok hsend).1⟩
  · contradiction

/-- What finishing an attempt reports. -/
def outcomeActions (pair : Pair) : Option ExchangeOutcome → List RadioAction
  | some outcome => [.recordSuccess pair outcome.exchange.exchangeId outcome.close,
      .completed outcome.exchange]
  | none => [.recordFailure pair]

theorem finishAttempt_ok {outcome : Option ExchangeOutcome}
    (h : firmware.finishAttempt pair outcome io = .ok (firmware', actions)) :
    actions = outcomeActions pair outcome ∧
      ∃ pairStates, firmware' = { firmware with pairStates } := by
  obtain ⟨roster, -, h⟩ := bind_ok h
  obtain ⟨index, -, h⟩ := bind_ok h
  obtain ⟨_, -, h⟩ := bind_ok h
  cases outcome with
  | some outcome =>
    obtain ⟨rfl, rfl⟩ := Prod.mk.inj (pure_ok h)
    exact ⟨rfl, _, rfl⟩
  | none =>
    obtain ⟨rfl, rfl⟩ := Prod.mk.inj (pure_ok h)
    exact ⟨rfl, _, rfl⟩

theorem failAttempt_ok (h : firmware.failAttempt pair io = .ok (firmware', actions)) :
    actions = [.recordFailure pair] ∧ SameNode firmware firmware' ∧
      firmware'.phase = .mainLoop := by
  obtain ⟨⟨finished, failed⟩, hfinish, h⟩ := bind_ok h
  obtain ⟨rfl, pairStates, rfl⟩ := finishAttempt_ok hfinish
  obtain ⟨rfl, rfl⟩ := Prod.mk.inj (pure_ok h)
  exact ⟨rfl, ⟨rfl, rfl⟩, rfl⟩

theorem stopListening_ok (h : firmware.stopListening = .ok (firmware', actions)) :
    actions = [] ∧ SameNode firmware firmware' ∧ firmware'.phase = .mainLoop := by
  obtain ⟨rfl, rfl⟩ := Prod.mk.inj (Except.ok.inj h)
  exact ⟨rfl, ⟨rfl, rfl⟩, rfl⟩

theorem recoverAttempt_ok (h : firmware.recoverAttempt pair diagnostic io = .ok (firmware', actions)) :
    actions = [.recordFailure pair] ∧ SameNode firmware firmware' ∧
      firmware'.phase = .mainLoop := by
  obtain ⟨recovered, hrecover, h⟩ := bind_ok h
  obtain ⟨errors, rfl⟩ := recoverExchange_ok hrecover
  obtain ⟨rfl, hsame, hafter⟩ := failAttempt_ok h
  exact ⟨rfl, hsame, hafter⟩

theorem recoverListening_ok (h : firmware.recoverListening diagnostic = .ok (firmware', actions)) :
    actions = [] ∧ SameNode firmware firmware' ∧ firmware'.phase = .mainLoop := by
  obtain ⟨recovered, hrecover, h⟩ := bind_ok h
  obtain ⟨errors, rfl⟩ := recoverExchange_ok hrecover
  obtain ⟨rfl, hsame, hafter⟩ := stopListening_ok h
  exact ⟨rfl, hsame, hafter⟩

/-- The failure recorded when the exchange of a phase ends without an outcome. -/
def failures (firmware : Firmware) : List RadioAction :=
  match firmware.phase.initiated with
  | some pair => [.recordFailure pair]
  | none => []

theorem endAttempt_ok (h : firmware.endAttempt io = .ok (firmware', actions)) :
    actions = firmware.failures ∧ SameNode firmware firmware' ∧ firmware'.phase = .mainLoop := by
  unfold endAttempt at h
  unfold failures
  cases hinitiated : firmware.phase.initiated with
  | some pair =>
    rw [hinitiated] at h
    exact failAttempt_ok h
  | none =>
    rw [hinitiated] at h
    exact stopListening_ok h

theorem recoverAndEnd_ok (h : firmware.recoverAndEnd diagnostic io = .ok (firmware', actions)) :
    actions = firmware.failures ∧ SameNode firmware firmware' ∧ firmware'.phase = .mainLoop := by
  obtain ⟨recovered, hrecover, h⟩ := bind_ok h
  obtain ⟨errors, rfl⟩ := recoverExchange_ok hrecover
  obtain ⟨rfl, hsame, hafter⟩ := endAttempt_ok h
  exact ⟨rfl, hsame, hafter⟩

/-- The end of a transmission that is answered. -/
inductive Advances : FirmwarePhase → FirmwarePhase → Prop where
  | poll {pair : Pair} {exchangeId : ExchangeId} {predictedPollTx : UInt64}
      {pollTx : RadioInstant} :
    Advances (.sendingPoll pair exchangeId predictedPollTx) (.awaitResponse pair exchangeId pollTx)
  | response {pair : Pair} {peer : NodeAddress} {exchangeId : ExchangeId} {pollRx : RadioInstant}
      {predictedResponseTx : UInt64} {peerState : EgoState} :
    Advances (.sendingResponse pair peer exchangeId pollRx predictedResponseTx peerState)
      (.awaitFinal pair peer exchangeId pollRx predictedResponseTx peerState)
  | final {pair : Pair} {exchangeId : ExchangeId} {pollTx : RadioInstant}
      {pollRx responseTx : UInt64} {responseRx : RadioInstant} {predictedFinalTx : UInt64}
      {actualFinalTx : RadioInstant} {peerState : EgoState} :
    Advances
      (.sendingFinal pair exchangeId pollTx pollRx responseTx responseRx predictedFinalTx peerState)
      (.awaitReport pair exchangeId pollTx pollRx responseTx responseRx predictedFinalTx
        actualFinalTx peerState)

/-- The moves of the phases, with the frame heard at the end of the wait and the
actions of the move. -/
inductive Moves (firmware : Firmware) (heard : Option (DecodedAirFrame × UInt64))
    (firmware' : Firmware) : List RadioAction → Prop where
  | stays (hafter : firmware'.phase = firmware.phase) : Moves firmware heard firmware' []
  | advances (hafter : Advances firmware.phase firmware'.phase) : Moves firmware heard firmware' []
  | listens (hbefore : firmware.phase = .mainLoop) (hafter : firmware'.phase = .listening) :
      Moves firmware heard firmware' []
  | ends {reports failed : List RadioAction}
      (hreports : ∀ action ∈ reports, ∃ source mode, action = .fleetMode source mode)
      (hfailed : failed = firmware.failures ∨ failed = [])
      (hafter : firmware'.phase = .mainLoop) : Moves firmware heard firmware' (reports ++ failed)
  | fails {pair : Pair} (hbefore : firmware.phase = .mainLoop)
      (hafter : firmware'.phase = .mainLoop) :
      Moves firmware heard firmware' [.beginAttempt pair, .recordFailure pair]
  | broadcasts {pending : QueuedFleetMode} {macSequence : UInt8} {exchangeId : ExchangeId}
      {mode : FleetMode} (hbefore : firmware.phase = .mainLoop)
      (hafter : firmware'.phase = .sendingFleetMode pending) :
      Moves firmware heard firmware' [.transmit ⟨firmware'.localNode, .broadcast, macSequence,
        { exchangeId, message := .fleetMode mode }⟩]
  | begins {roster : FlightRoster} {pair : Pair} {exchangeId : ExchangeId}
      {predictedPollTx : UInt64} {macSequence : UInt8} {egoState : EgoState}
      (hbefore : firmware.phase = .mainLoop)
      (hroster : firmware'.configuration.roster = some roster) (hpair : pair ∈ roster.pairs)
      (hinitiator : pair.initiator = firmware'.localNode)
      (hafter : firmware'.phase = .sendingPoll pair exchangeId predictedPollTx) :
      Moves firmware heard firmware' [.beginAttempt pair, .transmit ⟨firmware'.localNode,
        .node pair.responder, macSequence, { exchangeId, message := .poll egoState }⟩]
  | admits {roster : FlightRoster} {frame : DecodedAirFrame} {pollRx : RadioInstant}
      {predictedResponseTx : UInt64} {peerState egoState : EgoState} {macSequence : UInt8}
      {pair : Pair}
      (hheard : heard = some (frame, pollRx.value))
      (hmessage : frame.envelope.message = .poll peerState) (hbefore : firmware.phase = .listening)
      (hpair : Pair.new firmware.localNode frame.source = some pair)
      (hinitiator : pair.initiator = frame.source)
      (hroster : firmware.configuration.roster = some roster)
      (hlisted : roster.contains frame.source = true)
      (hafter : firmware'.phase = .sendingResponse pair frame.source frame.envelope.exchangeId
        pollRx predictedResponseTx peerState) :
      Moves firmware heard firmware' [.transmit ⟨firmware.localNode, .node frame.source,
        macSequence, { exchangeId := frame.envelope.exchangeId
                       message := .response pollRx.value predictedResponseTx egoState }⟩]
  | finalises {frame : DecodedAirFrame} {pair : Pair} {pollTx responseRx : RadioInstant}
      {pollRx responseTx predictedFinalTx : UInt64} {peerState : EgoState} {macSequence : UInt8}
      (hheard : heard = some (frame, responseRx.value))
      (hmessage : frame.envelope.message = .response pollRx responseTx peerState)
      (hsource : frame.source = pair.responder)
      (hbefore : firmware.phase = .awaitResponse pair frame.envelope.exchangeId pollTx)
      (hafter : firmware'.phase = .sendingFinal pair frame.envelope.exchangeId pollTx pollRx
        responseTx responseRx predictedFinalTx peerState) :
      Moves firmware heard firmware' [.transmit ⟨firmware.localNode, .node pair.responder,
        macSequence, { exchangeId := frame.envelope.exchangeId
                       message := .final pollTx.value responseRx.value predictedFinalTx }⟩]
  | evaluates {frame : DecodedAirFrame} {pair : Pair} {pollTx responseRx finalTx : UInt64}
      {pollRx finalRx : RadioInstant} {predictedResponseTx : UInt64} {peerState : EgoState}
      {macSequence : UInt8} {millimetres : UInt32} {close : Bool}
      (hheard : heard = some (frame, finalRx.value))
      (hmessage : frame.envelope.message = .final pollTx responseRx finalTx)
      (hbefore : firmware.phase = .awaitFinal pair frame.source frame.envelope.exchangeId pollRx
        predictedResponseTx peerState)
      (hafter : firmware'.phase = .sendingReport frame.source frame.envelope.exchangeId finalRx
        millimetres close peerState) :
      Moves firmware heard firmware'
        [.evaluate frame.source frame.envelope.exchangeId ⟨pollTx, responseRx, finalTx⟩
          ⟨pollRx.value, predictedResponseTx, finalRx.value⟩,
        .transmit ⟨firmware.localNode, .node frame.source, macSequence,
          { exchangeId := frame.envelope.exchangeId
            message := .report finalRx.value (if close then reportStatusClose else 0) }⟩]
  | givesUp {frame : DecodedAirFrame} {pair : Pair} {pollTx responseRx finalTx : UInt64}
      {pollRx finalRx : RadioInstant} {predictedResponseTx : UInt64} {peerState : EgoState}
      (hheard : heard = some (frame, finalRx.value))
      (hmessage : frame.envelope.message = .final pollTx responseRx finalTx)
      (hbefore : firmware.phase = .awaitFinal pair frame.source frame.envelope.exchangeId pollRx
        predictedResponseTx peerState)
      (hafter : firmware'.phase = .mainLoop) :
      Moves firmware heard firmware'
        [.evaluate frame.source frame.envelope.exchangeId ⟨pollTx, responseRx, finalTx⟩
          ⟨pollRx.value, predictedResponseTx, finalRx.value⟩]
  | records {peer : NodeAddress} {exchange : CompletedExchange} {finalRx : RadioInstant}
      {millimetres : UInt32} {close : Bool} {peerState : EgoState} {pair : Pair}
      (hbefore : firmware.phase = .sendingReport peer exchange.exchangeId finalRx millimetres
        close peerState)
      (hpair : Pair.new firmware.localNode peer = some pair)
      (hafter : firmware'.phase = .mainLoop) :
      Moves firmware heard firmware'
        [.recordSuccess pair exchange.exchangeId close, .completed exchange]
  | completes {frame : DecodedAirFrame} {pair : Pair} {pollTx responseRx : RadioInstant}
      {pollRx responseTx finalRx predictedFinalTx reportRx : UInt64}
      {actualFinalTx : RadioInstant} {peerState : EgoState} {status : UInt16}
      {exchange : CompletedExchange}
      (hheard : heard = some (frame, reportRx))
      (hmessage : frame.envelope.message = .report finalRx status)
      (hsource : frame.source = pair.responder)
      (hid : exchange.exchangeId = frame.envelope.exchangeId)
      (hbefore : firmware.phase = .awaitReport pair frame.envelope.exchangeId pollTx pollRx
        responseTx responseRx predictedFinalTx actualFinalTx peerState)
      (hafter : firmware'.phase = .mainLoop) :
      Moves firmware heard firmware'
        [.evaluate pair.responder frame.envelope.exchangeId
          ⟨pollTx.value, responseRx.value, predictedFinalTx⟩ ⟨pollRx, responseTx, finalRx⟩,
        .recordSuccess pair frame.envelope.exchangeId (status &&& reportStatusClose ≠ 0),
        .completed exchange]

variable {heard : Option (DecodedAirFrame × UInt64)}

theorem Moves.stops {failed : List RadioAction} (hfailed : failed = firmware.failures ∨ failed = [])
    (hafter : firmware'.phase = .mainLoop) : Moves firmware heard firmware' failed := by
  have hnone : ∀ action ∈ ([] : List RadioAction), ∃ source mode, action = .fleetMode source mode := by
    simp
  exact Moves.ends hnone hfailed hafter

theorem Moves.fleetMode {failed : List RadioAction} (source : NodeAddress) (mode : FleetMode)
    (hfailed : failed = firmware.failures ∨ failed = []) (hafter : firmware'.phase = .mainLoop) :
    Moves firmware heard firmware' (.fleetMode source mode :: failed) := by
  have hreport : ∀ action ∈ [RadioAction.fleetMode source mode],
      ∃ source mode, action = .fleetMode source mode := by
    simp
  exact Moves.ends hreport hfailed hafter

theorem failAttempt_moves (hpair : firmware.phase.initiated = some pair)
    (h : firmware.failAttempt pair io = .ok (firmware', actions)) :
    SameNode firmware firmware' ∧ Moves firmware heard firmware' actions := by
  obtain ⟨rfl, hsame, hafter⟩ := failAttempt_ok h
  exact ⟨hsame, .stops (Or.inl (by simp [failures, hpair])) hafter⟩

theorem recoverAttempt_moves (hpair : firmware.phase.initiated = some pair)
    (h : firmware.recoverAttempt pair diagnostic io = .ok (firmware', actions)) :
    SameNode firmware firmware' ∧ Moves firmware heard firmware' actions := by
  obtain ⟨rfl, hsame, hafter⟩ := recoverAttempt_ok h
  exact ⟨hsame, .stops (Or.inl (by simp [failures, hpair])) hafter⟩

theorem stopListening_moves (h : firmware.stopListening = .ok (firmware', actions)) :
    SameNode firmware firmware' ∧ Moves firmware heard firmware' actions := by
  obtain ⟨rfl, hsame, hafter⟩ := stopListening_ok h
  exact ⟨hsame, .stops (Or.inr rfl) hafter⟩

theorem recoverListening_moves (h : firmware.recoverListening diagnostic = .ok (firmware', actions)) :
    SameNode firmware firmware' ∧ Moves firmware heard firmware' actions := by
  obtain ⟨rfl, hsame, hafter⟩ := recoverListening_ok h
  exact ⟨hsame, .stops (Or.inr rfl) hafter⟩

theorem initiateExchange_moves {exchangeId : ExchangeId}
    (h : firmware.initiateExchange pair exchangeId io = .ok (firmware', actions)) :
    SameNode firmware firmware' ∧
      (firmware'.phase = .mainLoop ∧ actions = [.recordFailure pair] ∨
      ∃ predictedPollTx macSequence egoState,
        firmware'.phase = .sendingPoll pair exchangeId predictedPollTx ∧
        actions = [.transmit ⟨firmware'.localNode, .node pair.responder, macSequence,
          { exchangeId, message := .poll egoState }⟩]) := by
  unfold initiateExchange at h
  split at h
  · obtain ⟨rfl, hsame, hafter⟩ := recoverAttempt_ok h
    exact ⟨hsame, Or.inl ⟨hafter, rfl⟩⟩
  · obtain ⟨⟨encoded, frame⟩, hencode, h⟩ := bind_ok h
    obtain ⟨rfl, rfl⟩ := encodeAir_ok hencode
    obtain ⟨now, -, h⟩ := bind_ok h
    obtain ⟨_, -, h⟩ := bind_ok h
    obtain ⟨_, -, h⟩ := bind_ok h
    obtain ⟨rfl, rfl⟩ := Prod.mk.inj (pure_ok h)
    exact ⟨⟨rfl, rfl⟩, Or.inr ⟨_, _, _, rfl, rfl⟩⟩

theorem applyHostRequests_configured {roster : FlightRoster} (hconfigured : Configured firmware roster)
    (h : firmware.applyHostRequests io = .ok firmware') :
    firmware'.phase = firmware.phase ∧ ∃ roster', Configured firmware' roster' := by
  have hqueue : ∀ (queued : Firmware) (mode : Option FleetMode) (listed : FlightRoster),
      Configured queued listed → (queued.queueFleetMode mode).phase = queued.phase ∧
        Configured (queued.queueFleetMode mode) listed := by
    intro queued mode listed hlisted
    cases mode with
    | none => exact ⟨rfl, hlisted⟩
    | some mode => exact ⟨rfl, hlisted.roster_eq, hlisted.localNode_eq⟩
  unfold applyHostRequests at h
  split at h
  · rename_i configuration hconfiguration
    obtain ⟨applied, happly, h⟩ := bind_ok h
    unfold applyConfiguration at happly
    split at happly
    · contradiction
    · rename_i roster' hroster
      split_ifs at happly
      obtain rfl := Except.ok.inj happly
      rw [pure_ok h]
      obtain ⟨hphase, hafter⟩ := hqueue (firmware.reconfigure configuration roster' io)
        io.fleetMode roster' ⟨hroster, rfl⟩
      exact ⟨hphase, roster', hafter⟩
  · rw [← Except.ok.inj h]
    obtain ⟨hphase, hafter⟩ := hqueue _ io.fleetMode roster hconfigured
    exact ⟨hphase, roster, hafter⟩

/-- A turn of the main loop. -/
theorem turn_moves {roster : FlightRoster} (hconfigured : Configured firmware roster)
    (hloop : firmware.phase = .mainLoop) (h : firmware.turn io = .ok (firmware', actions)) :
    (∃ roster', Configured firmware' roster') ∧ Moves firmware none firmware' actions := by
  obtain ⟨requested, hrequest, h⟩ := bind_ok h
  obtain ⟨hphase, roster', hroster'⟩ := applyHostRequests_configured hconfigured hrequest
  have hexpired : Configured (requested.expirePairs io.checkedAtUs) roster' :=
    ⟨hroster'.roster_eq, hroster'.localNode_eq⟩
  have hexpiredPhase : (requested.expirePairs io.checkedAtUs).phase = .mainLoop :=
    hphase.trans hloop
  revert h hexpired hexpiredPhase
  generalize requested.expirePairs io.checkedAtUs = ready
  intro h hready hreadyPhase
  dsimp only at h
  split at h
  · rename_i pending hpending
    obtain ⟨_, -, h⟩ := bind_ok h
    obtain ⟨⟨encoded, frame⟩, hencode, h⟩ := bind_ok h
    obtain ⟨rfl, rfl⟩ := encodeAir_ok hencode
    obtain ⟨_, -, h⟩ := bind_ok h
    obtain ⟨rfl, rfl⟩ := Prod.mk.inj (pure_ok h)
    exact ⟨⟨roster', hready.roster_eq, hready.localNode_eq⟩, .broadcasts hloop rfl⟩
  · obtain ⟨listed, hlisted, h⟩ := bind_ok h
    obtain rfl : roster' = listed :=
      Option.some.inj (hready.roster_eq.symm.trans (roster_ok hlisted))
    split at h
    · rename_i pair hdue
      obtain ⟨hmem, hinitiator, -⟩ := duePair_spec hdue
      obtain ⟨index, -, h⟩ := bind_ok h
      obtain ⟨⟨initiated, sent⟩, hinitiate, h⟩ := bind_ok h
      obtain ⟨rfl, rfl⟩ := Prod.mk.inj (pure_ok h)
      obtain ⟨hsame, hcases⟩ := initiateExchange_moves hinitiate
      have hafter : Configured firmware' roster' :=
        hsame.configured ⟨hready.roster_eq, hready.localNode_eq⟩
      refine ⟨⟨roster', hafter⟩, ?_⟩
      rcases hcases with ⟨hend, rfl⟩ | ⟨predictedPollTx, macSequence, egoState, hphase', rfl⟩
      · exact .fails hloop hend
      · refine .begins hloop hafter.roster_eq hmem ?_ hphase'
        rw [hinitiator, hsame.2]
        rfl
    · unfold listenUntilDue at h
      split at h
      · obtain ⟨rfl, rfl⟩ := Prod.mk.inj (Except.ok.inj h)
        exact ⟨⟨roster', hready⟩, .stays (hreadyPhase.trans hloop.symm)⟩
      · unfold respondExchange at h
        split at h
        · obtain ⟨rfl, hsame, hafter⟩ := recoverListening_ok h
          exact ⟨⟨roster', hsame.configured hready⟩, .stays (hafter.trans hloop.symm)⟩
        · obtain ⟨_, -, h⟩ := bind_ok h
          obtain ⟨rfl, rfl⟩ := Prod.mk.inj (pure_ok h)
          exact ⟨⟨roster', hready.roster_eq, hready.localNode_eq⟩, .listens hloop rfl⟩

theorem sent_moves {result : Except Diagnostic RadioInstant}
    (h : firmware.sent result io = .ok (firmware', actions)) :
    SameNode firmware firmware' ∧ Moves firmware none firmware' actions := by
  unfold sent at h
  split at h
  case h_1 pending hphase =>
    obtain ⟨_, -, h⟩ := bind_ok h
    obtain ⟨_, -, h⟩ := bind_ok h
    obtain ⟨rfl, rfl⟩ := Prod.mk.inj (pure_ok h)
    exact ⟨⟨rfl, rfl⟩, .stops (Or.inr rfl) rfl⟩
  case h_2 pair exchangeId predictedPollTx hphase =>
    have hpair : firmware.phase.initiated = some pair := by rw [hphase]; rfl
    obtain ⟨pollTx, -, h⟩ := bind_ok h
    obtain ⟨_, -, h⟩ := bind_ok h
    split at h
    · exact recoverAttempt_moves hpair h
    · split at h
      · exact recoverAttempt_moves hpair h
      · obtain ⟨_, -, h⟩ := bind_ok h
        obtain ⟨rfl, rfl⟩ := Prod.mk.inj (pure_ok h)
        exact ⟨⟨rfl, rfl⟩, .advances (hphase ▸ .poll)⟩
  case h_3 pair exchangeId pollTx pollRx responseTx responseRx predictedFinalTx peerState hphase =>
    have hpair : firmware.phase.initiated = some pair := by rw [hphase]; rfl
    split at h
    · obtain ⟨recovered, hrecover, h⟩ := bind_ok h
      obtain ⟨errors, rfl⟩ := recoverExchange_ok hrecover
      obtain ⟨_, -, h⟩ := bind_ok h
      obtain ⟨rfl, hsame, hafter⟩ := failAttempt_ok h
      exact ⟨hsame, .stops (Or.inl (by simp [failures, hpair])) hafter⟩
    · obtain ⟨_, -, h⟩ := bind_ok h
      split at h
      · exact recoverAttempt_moves hpair h
      · split at h
        · exact recoverAttempt_moves hpair h
        · obtain ⟨_, -, h⟩ := bind_ok h
          obtain ⟨rfl, rfl⟩ := Prod.mk.inj (pure_ok h)
          exact ⟨⟨rfl, rfl⟩, .advances (hphase ▸ .final)⟩
  case h_4 pair peer exchangeId pollRx predictedResponseTx peerState hphase =>
    split at h
    · obtain ⟨recovered, hrecover, h⟩ := bind_ok h
      obtain ⟨errors, rfl⟩ := recoverExchange_ok hrecover
      obtain ⟨_, -, h⟩ := bind_ok h
      obtain ⟨rfl, hsame, hafter⟩ := stopListening_ok h
      exact ⟨hsame, .stops (Or.inr rfl) hafter⟩
    · obtain ⟨_, -, h⟩ := bind_ok h
      split at h
      · exact recoverListening_moves h
      · split at h
        · exact recoverListening_moves h
        · obtain ⟨_, -, h⟩ := bind_ok h
          obtain ⟨rfl, rfl⟩ := Prod.mk.inj (pure_ok h)
          exact ⟨⟨rfl, rfl⟩, .advances (hphase ▸ .response)⟩
  case h_5 peer exchangeId finalRx millimetres close peerState hphase =>
    split at h
    · obtain ⟨recovered, hrecover, h⟩ := bind_ok h
      obtain ⟨errors, rfl⟩ := recoverExchange_ok hrecover
      obtain ⟨_, -, h⟩ := bind_ok h
      obtain ⟨rfl, hsame, hafter⟩ := stopListening_ok h
      exact ⟨hsame, .stops (Or.inr rfl) hafter⟩
    · obtain ⟨_, -, h⟩ := bind_ok h
      obtain ⟨pair, hpair, h⟩ := bind_ok h
      obtain ⟨⟨finished, recorded⟩, hfinish, h⟩ := bind_ok h
      obtain ⟨rfl, pairStates, rfl⟩ := finishAttempt_ok hfinish
      obtain ⟨rfl, rfl⟩ := Prod.mk.inj (pure_ok h)
      exact ⟨⟨rfl, rfl⟩, .records hphase (resetUnless_ok hpair) rfl⟩
  all_goals
    obtain ⟨rfl, rfl⟩ := Prod.mk.inj (Except.ok.inj h)
    exact ⟨.refl _, .stays rfl⟩

theorem pollAllowed_ok {peer : NodeAddress} {duplicate allowed : Bool}
    (h : firmware.pollAllowed pair peer duplicate = .ok allowed) (hallowed : allowed = true) :
    pair.initiator = peer ∧ duplicate = false ∧ ∃ roster,
      firmware.configuration.roster = some roster ∧ roster.contains peer = true := by
  unfold pollAllowed at h
  split at h
  · rw [← Except.ok.inj h] at hallowed
    contradiction
  · rename_i hinitiator
    cases hroster : firmware.roster with
    | error diagnostic => simp [hroster, Except.map] at h
    | ok roster =>
      simp only [hroster, Except.map, Except.ok.injEq] at h
      rw [← h, Bool.and_eq_true, Bool.not_eq_true'] at hallowed
      exact ⟨not_not.mp hinitiator, hallowed.2, roster, roster_ok hroster, hallowed.1⟩

theorem rememberExchange_eq (firmware : Firmware) (peerIndex : Option ℕ)
    (exchangeId : ExchangeId) (nowUs : UInt64) :
    ∃ last, firmware.rememberExchange peerIndex exchangeId nowUs =
      { firmware with lastReceivedExchange := last } := by
  cases peerIndex with
  | none => exact ⟨_, rfl⟩
  | some index => exact ⟨_, rfl⟩

theorem handlePoll_moves {frame : DecodedAirFrame} {pollRx : RadioInstant}
    (hphase : firmware.phase = .listening)
    (h : firmware.handlePoll frame pollRx io = .ok (firmware', actions)) :
    SameNode firmware firmware' ∧
      Moves firmware (some (frame, pollRx.value)) firmware' actions := by
  obtain ⟨pair, hpair, h⟩ := bind_ok h
  dsimp only at h
  obtain ⟨allowed, hallowed, h⟩ := bind_ok h
  split at h
  · rename_i peerState hmessage
    split at h
    · rename_i htrue
      obtain ⟨hinitiator, -, roster, hroster, hlisted⟩ := pollAllowed_ok hallowed htrue
      obtain ⟨last, hlast⟩ := rememberExchange_eq firmware (firmware.firstPeerIndex frame.source)
        frame.envelope.exchangeId io.receivedAtUs
      rw [hlast] at h
      unfold answerPoll at h
      dsimp only at h
      split at h
      · obtain ⟨rfl, hsame, hafter⟩ := recoverListening_ok h
        exact ⟨hsame, .stops (Or.inr rfl) hafter⟩
      · obtain ⟨⟨encoded, sentFrame⟩, hencode, h⟩ := bind_ok h
        obtain ⟨rfl, rfl⟩ := encodeAir_ok hencode
        obtain ⟨_, -, h⟩ := bind_ok h
        obtain ⟨_, -, h⟩ := bind_ok h
        obtain ⟨rfl, rfl⟩ := Prod.mk.inj (pure_ok h)
        exact ⟨⟨rfl, rfl⟩, .admits rfl hmessage hphase (resetUnless_ok hpair) hinitiator hroster
          hlisted rfl⟩
    · exact stopListening_moves h
  · exact stopListening_moves h

theorem handleResponse_moves {exchangeId : ExchangeId} {pollTx responseRx : RadioInstant}
    {frame : DecodedAirFrame} (hphase : firmware.phase = .awaitResponse pair exchangeId pollTx)
    (h : firmware.handleResponse pair exchangeId pollTx frame responseRx io =
      .ok (firmware', actions)) :
    SameNode firmware firmware' ∧
      Moves firmware (some (frame, responseRx.value)) firmware' actions := by
  have hpair : firmware.phase.initiated = some pair := by rw [hphase]; rfl
  unfold handleResponse at h
  split at h
  · rename_i pollRx responseTx peerState hmessage
    split at h
    · rename_i hsame
      obtain ⟨hsource, rfl⟩ := hsame
      dsimp only at h
      obtain ⟨⟨encoded, sentFrame⟩, hencode, h⟩ := bind_ok h
      obtain ⟨rfl, rfl⟩ := encodeAir_ok hencode
      split at h
      · obtain ⟨rfl, hsame, hafter⟩ := recoverAttempt_ok h
        exact ⟨hsame, .stops (Or.inl (by simp [failures, hpair])) hafter⟩
      · obtain ⟨_, -, h⟩ := bind_ok h
        obtain ⟨_, -, h⟩ := bind_ok h
        obtain ⟨rfl, rfl⟩ := Prod.mk.inj (pure_ok h)
        exact ⟨⟨rfl, rfl⟩, .finalises rfl hmessage hsource hphase rfl⟩
    · exact failAttempt_moves hpair h
  · exact failAttempt_moves hpair h

theorem handleReport_moves {exchangeId : ExchangeId} {pollTx responseRx actualFinalTx : RadioInstant}
    {pollRx responseTx predictedFinalTx reportRx : UInt64} {peerState : EgoState}
    {frame : DecodedAirFrame}
    (hphase : firmware.phase = .awaitReport pair exchangeId pollTx pollRx responseTx responseRx
      predictedFinalTx actualFinalTx peerState)
    (h : firmware.handleReport pair exchangeId pollTx pollRx responseTx responseRx
      predictedFinalTx actualFinalTx peerState frame io = .ok (firmware', actions)) :
    SameNode firmware firmware' ∧ Moves firmware (some (frame, reportRx)) firmware' actions := by
  have hpair : firmware.phase.initiated = some pair := by rw [hphase]; rfl
  unfold handleReport at h
  split at h
  · rename_i finalRx status hmessage
    split at h
    · rename_i hsame
      obtain ⟨hsource, rfl⟩ := hsame
      dsimp only at h
      split at h
      · exact recoverAttempt_moves hpair h
      · obtain ⟨⟨finished, recorded⟩, hfinish, h⟩ := bind_ok h
        obtain ⟨rfl, pairStates, rfl⟩ := finishAttempt_ok hfinish
        obtain ⟨rfl, rfl⟩ := Prod.mk.inj (pure_ok h)
        exact ⟨⟨rfl, rfl⟩, .completes rfl hmessage hsource rfl hphase rfl⟩
    · exact failAttempt_moves hpair h
  · exact failAttempt_moves hpair h

theorem handleFinal_moves {peer : NodeAddress} {exchangeId : ExchangeId}
    {pollRx finalRx : RadioInstant} {predictedResponseTx : UInt64} {peerState : EgoState}
    {frame : DecodedAirFrame}
    (hphase : firmware.phase = .awaitFinal pair peer exchangeId pollRx predictedResponseTx
      peerState)
    (h : firmware.handleFinal pair peer exchangeId pollRx predictedResponseTx peerState frame
      finalRx io = .ok (firmware', actions)) :
    SameNode firmware firmware' ∧
      Moves firmware (some (frame, finalRx.value)) firmware' actions := by
  unfold handleFinal at h
  split at h
  · rename_i pollTx responseRx finalTx hmessage
    split at h
    · rename_i hsame
      obtain ⟨rfl, rfl⟩ := hsame
      dsimp only at h
      split at h
      · exact recoverListening_moves h
      · obtain ⟨roster, -, h⟩ := bind_ok h
        obtain ⟨index, -, h⟩ := bind_ok h
        split at h
        · obtain ⟨⟨recovered, none⟩, hrecover, h⟩ := bind_ok h
          obtain ⟨rfl, hsame, hafter⟩ := recoverListening_ok hrecover
          obtain ⟨rfl, rfl⟩ := Prod.mk.inj (pure_ok h)
          exact ⟨hsame, .givesUp rfl hmessage hphase hafter⟩
        · obtain ⟨⟨encoded, sentFrame⟩, hencode, h⟩ := bind_ok h
          obtain ⟨rfl, rfl⟩ := encodeAir_ok hencode
          obtain ⟨_, -, h⟩ := bind_ok h
          obtain ⟨_, -, h⟩ := bind_ok h
          obtain ⟨rfl, rfl⟩ := Prod.mk.inj (pure_ok h)
          exact ⟨⟨rfl, rfl⟩, .evaluates rfl hmessage hphase rfl⟩
    · exact stopListening_moves h
  · exact stopListening_moves h

theorem handleFrame_moves {frame : DecodedAirFrame} {rxTime : RadioInstant}
    (h : firmware.handleFrame frame rxTime io = .ok (firmware', actions)) :
    SameNode firmware firmware' ∧
      Moves firmware (some (frame, rxTime.value)) firmware' actions := by
  unfold handleFrame at h
  split at h
  · rename_i hphase
    exact handlePoll_moves hphase h
  · rename_i pair exchangeId pollTx hphase
    exact handleResponse_moves hphase h
  · rename_i hphase
    exact handleReport_moves hphase h
  · rename_i hphase
    exact handleFinal_moves hphase h
  · obtain ⟨rfl, rfl⟩ := Prod.mk.inj (Except.ok.inj h)
    exact ⟨.refl _, .stays rfl⟩

end Firmware

namespace FirmwareEvent

/-- The frame an event brings, with its receive time. -/
def heard : FirmwareEvent → Option (DecodedAirFrame × UInt64)
  | received (.ok (decoded, rxTime)) _ => decoded.toOption.map (·, rxTime.value)
  | _ => none

end FirmwareEvent

namespace Firmware

open Outcome

variable {firmware firmware' : Firmware} {actions : List RadioAction}

theorem endAttempt_moves {io : FirmwareIo} {heard : Option (DecodedAirFrame × UInt64)}
    (h : firmware.endAttempt io = .ok (firmware', actions)) :
    SameNode firmware firmware' ∧ Moves firmware heard firmware' actions := by
  obtain ⟨rfl, hsame, hafter⟩ := endAttempt_ok h
  exact ⟨hsame, .stops (Or.inl rfl) hafter⟩

theorem recoverAndEnd_moves {io : FirmwareIo} {diagnostic : Diagnostic}
    {heard : Option (DecodedAirFrame × UInt64)}
    (h : firmware.recoverAndEnd diagnostic io = .ok (firmware', actions)) :
    SameNode firmware firmware' ∧ Moves firmware heard firmware' actions := by
  obtain ⟨rfl, hsame, hafter⟩ := recoverAndEnd_ok h
  exact ⟨hsame, .stops (Or.inl rfl) hafter⟩

theorem received_moves
    {result : Except Diagnostic (Except AirDecodeError DecodedAirFrame × RadioInstant)}
    {io : FirmwareIo} (h : firmware.received result io = .ok (firmware', actions)) :
    SameNode firmware firmware' ∧
      Moves firmware (FirmwareEvent.received result io).heard firmware' actions := by
  unfold received at h
  split at h
  · obtain ⟨rfl, rfl⟩ := Prod.mk.inj (Except.ok.inj h)
    exact ⟨.refl _, .stays rfl⟩
  · obtain ⟨_, -, h⟩ := bind_ok h
    split at h
    · split_ifs at h
      · exact stopListening_moves h
      · exact recoverAndEnd_moves h
    · rename_i decoded rxTime hresult
      split at h
      · exact recoverAndEnd_moves h
      · exact endAttempt_moves h
      · rename_i frame hdecoded
        have hframe : decoded = .ok frame := by
          unfold decodeAir at hdecoded
          split at hdecoded
          · simpa using hdecoded
          · simp at hdecoded
          · contradiction
        subst hframe
        split at h
        · obtain ⟨⟨ended, failed⟩, hend, h⟩ := bind_ok h
          obtain ⟨rfl, hsame, hafter⟩ := endAttempt_ok hend
          obtain ⟨rfl, rfl⟩ := Prod.mk.inj (pure_ok h)
          exact ⟨hsame, .fleetMode _ _ (Or.inl rfl) hafter⟩
        · exact handleFrame_moves h

/-- Outside the main loop a step keeps the configuration, and every step is a
move. -/
theorem step_moves {roster : FlightRoster} {event : FirmwareEvent}
    (hconfigured : Configured firmware roster)
    (h : firmware.step event = .ok (firmware', actions)) :
    (firmware.phase = .mainLoop ∨ SameNode firmware firmware') ∧
      (∃ roster', Configured firmware' roster') ∧
      Moves firmware event.heard firmware' actions := by
  have hsame : SameNode firmware firmware' ∧ Moves firmware event.heard firmware' actions →
      (firmware.phase = .mainLoop ∨ SameNode firmware firmware') ∧
        (∃ roster', Configured firmware' roster') ∧
        Moves firmware event.heard firmware' actions := fun hmoves =>
    ⟨Or.inr hmoves.1, ⟨roster, hmoves.1.configured hconfigured⟩, hmoves.2⟩
  cases event with
  | turn io =>
    simp only [step] at h
    split at h
    · rename_i hloop
      exact ⟨Or.inl hloop, turn_moves hconfigured hloop h⟩
    · obtain ⟨rfl, rfl⟩ := Prod.mk.inj (Except.ok.inj h)
      exact hsame ⟨.refl _, .stays rfl⟩
  | sent result io => exact hsame (sent_moves h)
  | received result io => exact hsame (received_moves h)

end Firmware

end Mission10.Uwb
