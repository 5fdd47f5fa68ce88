import Mission10.Library.Outcome
import Mission10.Uwb.Ranger

/-!
# What one event does to the ranger

One specification lemma for each handler, and from them the moves of the state
machine: every event that does not end the service keeps the exchange, advances
it past a transmission, abandons it, or is one of the steps of the exchange.
-/
namespace Mission10.Uwb

namespace Ranger

open Outcome

variable {ranger ranger' : Ranger} {io : RangerIo} {actions : List RadioAction}

/-- The failure that abandoning the exchange records. -/
def failures (ranger : Ranger) : List RadioAction :=
  match ranger.activePair with
  | some pair =>
    if pair.initiator = ranger.config.address ∧ (pairIndex ranger.roster pair).isSome then
      [.recordFailure pair]
    else []
  | none => []

theorem recordTimeout_eq (ranger : Ranger) (io : RangerIo) :
    ∃ pairStates, ranger.recordTimeout io =
      ({ ranger with activePair := none, pairStates }, ranger.failures) := by
  unfold recordTimeout failures
  cases hpair : ranger.activePair with
  | none =>
    refine ⟨ranger.pairStates, ?_⟩
    cases ranger
    cases hpair
    rfl
  | some pair =>
    by_cases hlocal : pair.initiator = ranger.config.address
    · cases hindex : pairIndex ranger.roster pair with
      | none =>
        have hnone : pairIndex ranger.config.roster pair = none := hindex
        exact ⟨ranger.pairStates, by simp [hlocal, hnone, roster]⟩
      | some index =>
        have hsome : pairIndex ranger.config.roster pair = some index := hindex
        exact ⟨ranger.pairStates.modify index (·.recordFailure (monotonicUs io.recordedAt)), by
          simp [hlocal, hsome, roster, updatePair]⟩
    · exact ⟨ranger.pairStates, by simp [hlocal]⟩

theorem recoverExchange_ok (h : ranger.recoverExchange io = .ok (ranger', actions)) :
    actions = ranger.failures ∧ ∃ pairStates, ranger' =
      { ranger with activePair := none, pairStates, state := .idle, deadline := none } := by
  obtain ⟨pairStates, heq⟩ := recordTimeout_eq ranger io
  simp only [recoverExchange, heq] at h
  obtain ⟨_, -, h⟩ := bind_ok h
  obtain ⟨rfl, rfl⟩ := Prod.mk.inj (pure_ok h)
  exact ⟨rfl, pairStates, rfl⟩

theorem missedTransmission_ok (h : ranger.missedTransmission io = .ok (ranger', actions)) :
    actions = ranger.failures ∧ ∃ pairStates, ranger' =
      { ranger with activePair := none, pairStates, state := .idle, deadline := none } := by
  obtain ⟨pairStates, heq⟩ := recordTimeout_eq ranger io
  simp only [missedTransmission, heq] at h
  obtain ⟨⟨recovered, again⟩, hrecover, h⟩ := bind_ok h
  obtain ⟨rfl, pairStates', rfl⟩ := recoverExchange_ok hrecover
  obtain ⟨rfl, rfl⟩ := Prod.mk.inj (pure_ok h)
  exact ⟨by simp [failures], pairStates', rfl⟩

theorem encodeDestination_ok {destination : Destination} {envelope : AirEnvelope}
    {frame : DecodedAirFrame}
    (h : ranger.encodeDestination destination envelope = .ok (ranger', frame)) :
    ranger' = { ranger with macSequence := ranger.macSequence + 1 } ∧
      frame = ⟨ranger.config.address, destination, ranger.macSequence, envelope⟩ := by
  unfold encodeDestination at h
  split at h
  · rename_i sent hsend
    obtain ⟨rfl, rfl⟩ := Prod.mk.inj (Except.ok.inj h)
    exact ⟨rfl, (AirCodec.send_eq_ok hsend).1⟩
  · contradiction

theorem sendPoll_ok {peer : NodeAddress} {exchangeId : ExchangeId}
    (h : ranger.sendPoll peer exchangeId io = .ok (ranger', actions)) :
    ∃ pollTx deadline, ranger' = { ranger with
        macSequence := ranger.macSequence + 1
        state := .sendingPoll peer exchangeId pollTx
        deadline := some deadline } ∧
      actions = [.transmit ⟨ranger.config.address, .node peer, ranger.macSequence,
        { exchangeId, message := .poll ranger.egoState }⟩] := by
  obtain ⟨planned, -, h⟩ := bind_ok h
  obtain ⟨⟨encoded, frame⟩, hencode, h⟩ := bind_ok h
  obtain ⟨rfl, rfl⟩ := encodeDestination_ok hencode
  obtain ⟨_, -, h⟩ := bind_ok h
  obtain ⟨rfl, rfl⟩ := Prod.mk.inj (pure_ok h)
  exact ⟨_, _, rfl, rfl⟩

theorem sendResponse_ok {peer : NodeAddress} {exchangeId : ExchangeId} {pollRx : UInt64}
    {peerState : EgoState}
    (h : ranger.sendResponse peer exchangeId pollRx peerState io = .ok (ranger', actions)) :
    ∃ responseTx deadline, ranger' = { ranger with
        macSequence := ranger.macSequence + 1
        state := .sendingResponse peer exchangeId pollRx responseTx peerState
        deadline := some deadline } ∧
      actions = [.transmit ⟨ranger.config.address, .node peer, ranger.macSequence,
        { exchangeId, message := .response pollRx responseTx ranger.egoState }⟩] := by
  obtain ⟨⟨encoded, frame⟩, hencode, h⟩ := bind_ok h
  obtain ⟨rfl, rfl⟩ := encodeDestination_ok hencode
  obtain ⟨_, -, h⟩ := bind_ok h
  obtain ⟨rfl, rfl⟩ := Prod.mk.inj (pure_ok h)
  exact ⟨_, _, rfl, rfl⟩

theorem sendFinal_ok {peer : NodeAddress} {exchangeId : ExchangeId}
    {pollTx pollRx responseTx responseRx : UInt64} {peerState : EgoState}
    (h : ranger.sendFinal peer exchangeId pollTx pollRx responseTx responseRx peerState io =
      .ok (ranger', actions)) :
    ∃ finalTx deadline, ranger' = { ranger with
        macSequence := ranger.macSequence + 1
        state := .sendingFinal peer exchangeId pollTx pollRx responseTx responseRx finalTx
          peerState
        deadline := some deadline } ∧
      actions = [.transmit ⟨ranger.config.address, .node peer, ranger.macSequence,
        { exchangeId, message := .final pollTx responseRx finalTx }⟩] := by
  obtain ⟨⟨encoded, frame⟩, hencode, h⟩ := bind_ok h
  obtain ⟨rfl, rfl⟩ := encodeDestination_ok hencode
  obtain ⟨_, -, h⟩ := bind_ok h
  obtain ⟨rfl, rfl⟩ := Prod.mk.inj (pure_ok h)
  exact ⟨_, _, rfl, rfl⟩

theorem sendReport_ok {peer : NodeAddress} {exchangeId : ExchangeId} {finalRx : UInt64}
    {close : Bool} (h : ranger.sendReport peer exchangeId finalRx close io = .ok (ranger', actions)) :
    ∃ deadline, ranger' = { ranger with
        macSequence := ranger.macSequence + 1
        state := .sendingReport peer exchangeId
        deadline := some deadline } ∧
      actions = [.transmit ⟨ranger.config.address, .node peer, ranger.macSequence,
        { exchangeId, message := .report finalRx (if close then reportStatusClose else 0) }⟩] := by
  obtain ⟨⟨encoded, frame⟩, hencode, h⟩ := bind_ok h
  obtain ⟨rfl, rfl⟩ := encodeDestination_ok hencode
  obtain ⟨_, -, h⟩ := bind_ok h
  obtain ⟨rfl, rfl⟩ := Prod.mk.inj (pure_ok h)
  exact ⟨_, rfl, rfl⟩

theorem sendFleetMode_ok (h : ranger.sendFleetMode io = .ok (ranger', actions)) :
    ∃ pending exchangeId mode deadline, ranger' = { ranger with
        nextExchangeId := ranger.nextExchangeId + 1
        macSequence := ranger.macSequence + 1
        state := .sendingFleetMode
        deadline := some deadline
        pendingFleetMode := pending } ∧
      actions = [.transmit ⟨ranger.config.address, .broadcast, ranger.macSequence,
        { exchangeId, message := .fleetMode mode }⟩] := by
  obtain ⟨pending, -, h⟩ := bind_ok h
  obtain ⟨⟨encoded, frame⟩, hencode, h⟩ := bind_ok h
  obtain ⟨rfl, rfl⟩ := encodeDestination_ok hencode
  obtain ⟨_, -, h⟩ := bind_ok h
  obtain ⟨rfl, rfl⟩ := Prod.mk.inj (pure_ok h)
  exact ⟨_, _, _, _, rfl, rfl⟩

theorem ignoreFrame_ok (h : ranger.ignoreFrame io = .ok (ranger', actions)) :
    ranger' = ranger ∧ actions = [] := by
  obtain ⟨_, -, h⟩ := bind_ok h
  exact Prod.mk.inj (pure_ok h)

theorem pollIsValid_eq (ranger : Ranger) (source : NodeAddress) (exchangeId : ExchangeId)
    (io : RangerIo) :
    ∃ last, (ranger.pollIsValid source exchangeId io).1 =
      { ranger with lastReceivedExchange := last } := by
  unfold pollIsValid
  split
  · exact ⟨_, rfl⟩
  · split
    · exact ⟨_, rfl⟩
    · split
      · exact ⟨_, rfl⟩
      · split <;> exact ⟨_, rfl⟩

/-- Only a peer with the lower address is answered. -/
theorem pollIsValid_responder {source : NodeAddress} {exchangeId : ExchangeId}
    (h : (ranger.pollIsValid source exchangeId io).2 = true) :
    source < ranger.config.address ∧
      Pair.new ranger.config.address source = some ⟨source, ranger.config.address⟩ := by
  unfold pollIsValid at h
  cases hpair : Pair.new source ranger.config.address with
  | none => simp [hpair] at h
  | some pair =>
    obtain ⟨hne, ⟨rfl, hlt⟩ | ⟨rfl, hlt⟩⟩ := Pair.new_eq_some hpair
    · exact ⟨hlt, Pair.new_of_gt hlt⟩
    · simp [hpair, Pair.role] at h

/-- The state, the deadline and the active pair: what an event does to them is a
move. -/
def exchange (ranger : Ranger) : ExchangeState × Option ℕ × Option Pair :=
  (ranger.state, ranger.deadline, ranger.activePair)

/-- The end of a transmission that is answered. -/
inductive Advances : ExchangeState → ExchangeState → Prop where
  | poll {peer : NodeAddress} {exchangeId : ExchangeId} {pollTx actualPollTx : UInt64}
      (hvalid : AirCodec.timestampValid actualPollTx = true) :
    Advances (.sendingPoll peer exchangeId pollTx) (.awaitResponse peer exchangeId actualPollTx)
  | response {peer : NodeAddress} {exchangeId : ExchangeId} {pollRx responseTx : UInt64}
      {peerState : EgoState} :
    Advances (.sendingResponse peer exchangeId pollRx responseTx peerState)
      (.awaitFinal peer exchangeId pollRx responseTx peerState)
  | final {peer : NodeAddress} {exchangeId : ExchangeId}
      {pollTx pollRx responseTx responseRx finalTx actualFinalTx : UInt64}
      {peerState : EgoState} :
    Advances (.sendingFinal peer exchangeId pollTx pollRx responseTx responseRx finalTx peerState)
      (.awaitReport peer exchangeId pollTx pollRx responseTx responseRx finalTx actualFinalTx
        peerState)

/-- The moves of the state machine, with the frame heard by the event and the
actions of the move. -/
inductive Moves (ranger : Ranger) (heard : Option (DecodedAirFrame × UInt64))
    (ranger' : Ranger) : List RadioAction → Prop where
  | stays (hafter : ranger'.exchange = ranger.exchange) : Moves ranger heard ranger' []
  | advances {state : ExchangeState} (hbefore : Advances ranger.state state)
      (hafter : ranger'.exchange = (state, ranger.deadline, ranger.activePair)) :
      Moves ranger heard ranger' []
  | abandons {reports : List RadioAction}
      (hreports : ∀ action ∈ reports, ∃ source mode, action = .fleetMode source mode)
      (hafter : ranger'.exchange = (.idle, none, none)) :
      Moves ranger heard ranger' (reports ++ ranger.failures)
  | reports {peer : NodeAddress} {exchangeId : ExchangeId}
      (hbefore : ranger.state = .sendingReport peer exchangeId)
      (hafter : ranger'.exchange = (.idle, none, none)) : Moves ranger heard ranger' []
  | ceases (hbefore : ranger.state = .sendingFleetMode)
      (hafter : ranger'.exchange = (.idle, none, ranger.activePair)) :
      Moves ranger heard ranger' []
  | broadcasts {deadline : ℕ} {macSequence : UInt8} {exchangeId : ExchangeId} {mode : FleetMode}
      (hbefore : ranger.state = .idle)
      (hafter : ranger'.exchange = (.sendingFleetMode, some deadline, ranger.activePair)) :
      Moves ranger heard ranger' [.transmit ⟨ranger.config.address, .broadcast, macSequence,
        { exchangeId, message := .fleetMode mode }⟩]
  | begins {pair : Pair} {exchangeId : ExchangeId} {pollTx : UInt64} {deadline : ℕ}
      {macSequence : UInt8} {egoState : EgoState}
      (hbefore : ranger.state = .idle) (hpair : pair ∈ ranger.roster.pairs)
      (hinitiator : pair.initiator = ranger.config.address)
      (hafter : ranger'.exchange =
        (.sendingPoll pair.responder exchangeId pollTx, some deadline, some pair)) :
      Moves ranger heard ranger' [.beginAttempt pair, .transmit ⟨ranger.config.address,
        .node pair.responder, macSequence, { exchangeId, message := .poll egoState }⟩]
  | admits {frame : DecodedAirFrame} {pollRx responseTx : UInt64} {peerState egoState : EgoState}
      {deadline : ℕ} {macSequence : UInt8}
      (hheard : heard = some (frame, pollRx)) (hmessage : frame.envelope.message = .poll peerState)
      (hbefore : ranger.state = .idle) (hsource : frame.source < ranger.config.address)
      (hafter : ranger'.exchange =
        (.sendingResponse frame.source frame.envelope.exchangeId pollRx responseTx peerState,
          some deadline, some ⟨frame.source, ranger.config.address⟩)) :
      Moves ranger heard ranger' [.transmit ⟨ranger.config.address, .node frame.source,
        macSequence, { exchangeId := frame.envelope.exchangeId
                       message := .response pollRx responseTx egoState }⟩]
  | finalises {frame : DecodedAirFrame} {pollTx pollRx responseTx responseRx finalTx : UInt64}
      {peerState : EgoState} {deadline : ℕ} {macSequence : UInt8}
      (hheard : heard = some (frame, responseRx))
      (hmessage : frame.envelope.message = .response pollRx responseTx peerState)
      (hbefore : ranger.state = .awaitResponse frame.source frame.envelope.exchangeId pollTx)
      (hafter : ranger'.exchange =
        (.sendingFinal frame.source frame.envelope.exchangeId pollTx pollRx responseTx responseRx
          finalTx peerState, some deadline, ranger.activePair)) :
      Moves ranger heard ranger' [.transmit ⟨ranger.config.address, .node frame.source,
        macSequence, { exchangeId := frame.envelope.exchangeId
                       message := .final pollTx responseRx finalTx }⟩]
  | evaluates {frame : DecodedAirFrame} {pollTx pollRx responseTx responseRx finalTx finalRx : UInt64}
      {peerState : EgoState} {deadline : ℕ} {macSequence : UInt8} {pair : Pair} {close : Bool}
      {measurement : RangeMeasurement}
      (hheard : heard = some (frame, finalRx))
      (hmessage : frame.envelope.message = .final pollTx responseRx finalTx)
      (hbefore : ranger.state =
        .awaitFinal frame.source frame.envelope.exchangeId pollRx responseTx peerState)
      (hpair : Pair.new ranger.config.address frame.source = some pair)
      (hafter : ranger'.exchange =
        (.sendingReport frame.source frame.envelope.exchangeId, some deadline,
          ranger.activePair)) :
      Moves ranger heard ranger'
        [.evaluate frame.source frame.envelope.exchangeId ⟨pollTx, responseRx, finalTx⟩
          ⟨pollRx, responseTx, finalRx⟩,
        .recordSuccess pair frame.envelope.exchangeId close,
        .transmit ⟨ranger.config.address, .node frame.source, macSequence,
          { exchangeId := frame.envelope.exchangeId
            message := .report finalRx (if close then reportStatusClose else 0) }⟩,
        .range measurement]
  | completes {frame : DecodedAirFrame}
      {pollTx pollRx responseTx responseRx finalTx finalRx finalEventTime reportRx : UInt64}
      {status : UInt16} {peerState : EgoState} {pair : Pair} {measurement : RangeMeasurement}
      (hheard : heard = some (frame, reportRx))
      (hmessage : frame.envelope.message = .report finalRx status)
      (hbefore : ranger.state =
        .awaitReport frame.source frame.envelope.exchangeId pollTx pollRx responseTx responseRx
          finalTx finalEventTime peerState)
      (hpair : Pair.new ranger.config.address frame.source = some pair)
      (hafter : ranger'.exchange = (.idle, none, none)) :
      Moves ranger heard ranger'
        [.evaluate frame.source frame.envelope.exchangeId ⟨pollTx, responseRx, finalTx⟩
          ⟨pollRx, responseTx, finalRx⟩,
        .recordSuccess pair frame.envelope.exchangeId (status &&& reportStatusClose ≠ 0),
        .range measurement]

theorem Moves.fails {heard : Option (DecodedAirFrame × UInt64)}
    (hafter : ranger'.exchange = (.idle, none, none)) :
    Moves ranger heard ranger' ranger.failures := by
  have hnone : ∀ action ∈ ([] : List RadioAction), ∃ source mode, action = .fleetMode source mode := by
    simp
  exact Moves.abandons hnone hafter

theorem Moves.fleetMode {heard : Option (DecodedAirFrame × UInt64)} (source : NodeAddress)
    (mode : FleetMode) (hafter : ranger'.exchange = (.idle, none, none)) :
    Moves ranger heard ranger' (.fleetMode source mode :: ranger.failures) := by
  have hreport : ∀ action ∈ [RadioAction.fleetMode source mode],
      ∃ source mode, action = .fleetMode source mode := by
    simp
  exact Moves.abandons hreport hafter

theorem recoverExchange_moves {heard : Option (DecodedAirFrame × UInt64)}
    (h : ranger.recoverExchange io = .ok (ranger', actions)) :
    ranger'.config = ranger.config ∧ Moves ranger heard ranger' actions := by
  obtain ⟨rfl, pairStates, rfl⟩ := recoverExchange_ok h
  exact ⟨rfl, .fails rfl⟩

theorem missedTransmission_moves {heard : Option (DecodedAirFrame × UInt64)}
    (h : ranger.missedTransmission io = .ok (ranger', actions)) :
    ranger'.config = ranger.config ∧ Moves ranger heard ranger' actions := by
  obtain ⟨rfl, pairStates, rfl⟩ := missedTransmission_ok h
  exact ⟨rfl, .fails rfl⟩

theorem ignoreFrame_moves {heard : Option (DecodedAirFrame × UInt64)}
    (h : ranger.ignoreFrame io = .ok (ranger', actions)) :
    ranger'.config = ranger.config ∧ Moves ranger heard ranger' actions := by
  obtain ⟨rfl, rfl⟩ := ignoreFrame_ok h
  exact ⟨rfl, .stays rfl⟩

theorem serviceSchedule_moves (h : ranger.serviceSchedule io = .ok (ranger', actions)) :
    ranger'.config = ranger.config ∧ Moves ranger none ranger' actions := by
  unfold serviceSchedule at h
  split at h
  · obtain ⟨rfl, rfl⟩ := Prod.mk.inj (Except.ok.inj h)
    exact ⟨rfl, .stays rfl⟩
  · rename_i hidle
    have hidle : ranger.state = .idle := by simpa using hidle
    split at h
    · obtain ⟨pending, exchangeId, mode, deadline, rfl, rfl⟩ := sendFleetMode_ok h
      exact ⟨rfl, .broadcasts hidle rfl⟩
    · dsimp only at h
      split at h
      · obtain ⟨rfl, rfl⟩ := Prod.mk.inj (Except.ok.inj h)
        exact ⟨rfl, .stays rfl⟩
      · rename_i pair hdue
        obtain ⟨hmem, hinitiator, -⟩ := duePair_spec hdue
        obtain ⟨index, -, h⟩ := bind_ok h
        obtain ⟨⟨polled, sent⟩, hpoll, h⟩ := bind_ok h
        obtain ⟨pollTx, deadline, rfl, rfl⟩ := sendPoll_ok hpoll
        obtain ⟨rfl, rfl⟩ := Prod.mk.inj (pure_ok h)
        exact ⟨rfl, .begins hidle hmem hinitiator rfl⟩

theorem handleTxDone_moves (h : ranger.handleTxDone io = .ok (ranger', actions)) :
    ranger'.config = ranger.config ∧ Moves ranger none ranger' actions := by
  unfold handleTxDone at h
  split at h
  case h_1 peer exchangeId pollTx hstate =>
    obtain ⟨tx, -, h⟩ := bind_ok h
    dsimp only at h
    split at h
    · exact missedTransmission_moves h
    · obtain ⟨rfl, rfl⟩ := Prod.mk.inj (pure_ok h)
      exact ⟨rfl, .advances (hstate ▸ .poll (timestampValid_ticks tx)) rfl⟩
  case h_2 peer exchangeId pollRx responseTx peerState hstate =>
    obtain ⟨tx, -, h⟩ := bind_ok h
    dsimp only at h
    split at h
    · exact missedTransmission_moves h
    · obtain ⟨rfl, rfl⟩ := Prod.mk.inj (pure_ok h)
      exact ⟨rfl, .advances (hstate ▸ .response) rfl⟩
  case h_3 peer exchangeId pollTx pollRx responseTx responseRx finalTx peerState hstate =>
    obtain ⟨tx, -, h⟩ := bind_ok h
    dsimp only at h
    split at h
    · exact missedTransmission_moves h
    · obtain ⟨_, -, h⟩ := bind_ok h
      obtain ⟨rfl, rfl⟩ := Prod.mk.inj (pure_ok h)
      exact ⟨rfl, .advances (hstate ▸ .final) rfl⟩
  case h_4 peer exchangeId hstate =>
    obtain ⟨_, -, h⟩ := bind_ok h
    obtain ⟨rfl, rfl⟩ := Prod.mk.inj (pure_ok h)
    exact ⟨rfl, .reports hstate rfl⟩
  case h_5 hstate =>
    obtain ⟨_, -, h⟩ := bind_ok h
    obtain ⟨rfl, rfl⟩ := Prod.mk.inj (pure_ok h)
    exact ⟨rfl, .ceases hstate rfl⟩
  all_goals
    obtain ⟨rfl, rfl⟩ := Prod.mk.inj (Except.ok.inj h)
    exact ⟨rfl, .stays rfl⟩

theorem expect_ok {α : Type} {value : Option α} {a : α} (h : expect value = .ok a) :
    value = some a := by
  cases value with
  | none => cases h
  | some b => rw [Except.ok.inj h]

theorem handleFinal_moves {frame : DecodedAirFrame}
    {pollTx pollRx responseTx responseRx finalTx rxTime : UInt64} {peerState : EgoState}
    (hmessage : frame.envelope.message = .final pollTx responseRx finalTx)
    (hbefore : ranger.state =
      .awaitFinal frame.source frame.envelope.exchangeId pollRx responseTx peerState)
    (h : ranger.handleFinal frame.source frame.envelope.exchangeId ⟨pollTx, responseRx, finalTx⟩
      pollRx responseTx rxTime peerState io = .ok (ranger', actions)) :
    ranger'.config = ranger.config ∧ Moves ranger (some (frame, rxTime)) ranger' actions := by
  unfold handleFinal at h
  dsimp only at h
  split at h
  · exact recoverExchange_moves h
  · rename_i distance hdistance
    obtain ⟨pair, hpair, h⟩ := bind_ok h
    obtain ⟨index, -, h⟩ := bind_ok h
    obtain ⟨⟨sentRanger, sent⟩, hsent, h⟩ := bind_ok h
    obtain ⟨deadline, rfl, rfl⟩ := sendReport_ok hsent
    obtain ⟨rfl, rfl⟩ := Prod.mk.inj (pure_ok h)
    exact ⟨rfl, .evaluates rfl hmessage hbefore (expect_ok hpair) rfl⟩

theorem handleReport_moves {frame : DecodedAirFrame}
    {pollTx pollRx responseTx responseRx finalTx finalRx finalEventTime rxTime : UInt64}
    {peerState : EgoState} {status : UInt16}
    (hmessage : frame.envelope.message = .report finalRx status)
    (hbefore : ranger.state =
      .awaitReport frame.source frame.envelope.exchangeId pollTx pollRx responseTx responseRx
        finalTx finalEventTime peerState)
    (h : ranger.handleReport frame.source frame.envelope.exchangeId
      ⟨pollTx, responseRx, finalTx⟩ pollRx responseTx finalRx finalEventTime peerState status io =
        .ok (ranger', actions)) :
    ranger'.config = ranger.config ∧ Moves ranger (some (frame, rxTime)) ranger' actions := by
  unfold handleReport at h
  dsimp only at h
  split at h
  · exact recoverExchange_moves h
  · rename_i distance hdistance
    obtain ⟨⟨observed, recorded⟩, hobserved, h⟩ := bind_ok h
    obtain ⟨pair, hpair, hobserved⟩ := bind_ok hobserved
    obtain ⟨index, -, hobserved⟩ := bind_ok hobserved
    obtain ⟨rfl, rfl⟩ := Prod.mk.inj (pure_ok hobserved)
    obtain ⟨_, -, h⟩ := bind_ok h
    obtain ⟨rfl, rfl⟩ := Prod.mk.inj (pure_ok h)
    exact ⟨rfl, .completes rfl hmessage hbefore (expect_ok hpair) rfl⟩

theorem handleMessage_moves {frame : DecodedAirFrame} {message : AirMessage} {rxTime : UInt64}
    (hmessage : frame.envelope.message = message)
    (h : ranger.handleMessage frame.source frame.envelope.exchangeId message rxTime io =
      .ok (ranger', actions)) :
    ranger'.config = ranger.config ∧ Moves ranger (some (frame, rxTime)) ranger' actions := by
  unfold handleMessage at h
  split at h
  case h_1 state hbefore =>
    split at h
    · rename_i admitted hvalid
      obtain ⟨last, hlast⟩ := pollIsValid_eq ranger frame.source frame.envelope.exchangeId io
      have hadmitted : admitted = { ranger with lastReceivedExchange := last } := by
        rw [← hlast, hvalid]
      have hadmits : (ranger.pollIsValid frame.source frame.envelope.exchangeId io).2 = true := by
        rw [hvalid]
      obtain ⟨hsource, hpair⟩ := pollIsValid_responder hadmits
      subst hadmitted
      dsimp only at h
      rw [hpair] at h
      obtain ⟨responseTx, deadline, rfl, rfl⟩ := sendResponse_ok h
      exact ⟨rfl, .admits rfl hmessage hbefore hsource rfl⟩
    · rename_i refused hvalid
      obtain ⟨last, hlast⟩ := pollIsValid_eq ranger frame.source frame.envelope.exchangeId io
      rw [hvalid] at hlast
      dsimp only at hlast
      subst hlast
      obtain ⟨rfl, rfl⟩ := ignoreFrame_ok h
      exact ⟨rfl, .stays rfl⟩
  case h_2 peer exchangeId pollTx pollRx responseTx state hbefore =>
    split at h
    · rename_i hsame
      obtain ⟨rfl, rfl⟩ := hsame
      obtain ⟨finalTx, deadline, rfl, rfl⟩ := sendFinal_ok h
      exact ⟨rfl, .finalises rfl hmessage hbefore rfl⟩
    · exact ignoreFrame_moves h
  case h_3 peer exchangeId pollRx responseTx peerState pollTx responseRx finalTx hbefore =>
    split at h
    · rename_i hsame
      obtain ⟨rfl, rfl⟩ := hsame
      exact handleFinal_moves hmessage hbefore h
    · exact ignoreFrame_moves h
  case h_4 peer exchangeId pollTx pollRx responseTx responseRx finalTx finalEventTime peerState
      finalRx status hbefore =>
    split at h
    · rename_i hsame
      obtain ⟨rfl, rfl⟩ := hsame
      exact handleReport_moves hmessage hbefore h
    · exact ignoreFrame_moves h
  case h_5 => exact ignoreFrame_moves h

theorem handleFrame_moves {decoded : Except AirDecodeError DecodedAirFrame} {rxTime : UInt64}
    (h : ranger.handleFrame decoded rxTime io = .ok (ranger', actions)) :
    ranger'.config = ranger.config ∧
      Moves ranger (decoded.toOption.map (·, rxTime)) ranger' actions := by
  unfold handleFrame at h
  split at h
  · exact ignoreFrame_moves h
  · rename_i frame
    split at h
    · obtain ⟨⟨recovered, failed⟩, hrecover, h⟩ := bind_ok h
      obtain ⟨rfl, pairStates, rfl⟩ := recoverExchange_ok hrecover
      obtain ⟨rfl, rfl⟩ := Prod.mk.inj (pure_ok h)
      exact ⟨rfl, .fleetMode _ _ rfl⟩
    · split at h
      · exact ignoreFrame_moves h
      · rename_i source hsource
        have hfound := List.find?_some hsource
        rw [decide_eq_true_eq] at hfound
        subst hfound
        exact handleMessage_moves rfl h

end Ranger

namespace RangerEvent

/-- The frame an event brings, with its receive time. -/
def heard : RangerEvent → Option (DecodedAirFrame × UInt64)
  | received decoded rxTime _ => decoded.toOption.map (·, ticks rxTime)
  | _ => none

end RangerEvent

namespace Ranger

open Outcome

variable {ranger ranger' : Ranger} {event : RangerEvent} {actions : List RadioAction}

theorem step_moves (h : ranger.step event = .ok (ranger', actions)) :
    ranger'.config = ranger.config ∧ Moves ranger event.heard ranger' actions := by
  cases event with
  | command command now =>
    obtain ⟨rfl, rfl⟩ := Prod.mk.inj (Except.ok.inj h)
    cases command <;> exact ⟨rfl, .stays rfl⟩
  | schedule io => exact serviceSchedule_moves h
  | txDone io => exact handleTxDone_moves h
  | received decoded rxTime io => exact handleFrame_moves h
  | receiveError io => exact recoverExchange_moves h
  | deadline now io =>
    simp only [step] at h
    split at h
    · exact recoverExchange_moves h
    · obtain ⟨rfl, rfl⟩ := Prod.mk.inj (Except.ok.inj h)
      exact ⟨rfl, .stays rfl⟩

end Ranger

end Mission10.Uwb
