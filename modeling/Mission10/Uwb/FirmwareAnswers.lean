import Mission10.Uwb.FirmwareMoves
import Mission10.Uwb.RangerAnswers

/-!
# The frames that reset the firmware

While the radio answers, the firmware resets on a received frame in one case: it
listens and a ranging frame names the local node as its source. In every other
phase, and for every other source, the frame is handled: the pair of the exchange
is one of the roster, and the times of the answer are 40-bit counts.
-/
namespace Mission10.Uwb

theorem RadioInstant.new_of_valid {value : UInt64} (h : AirCodec.timestampValid value = true) :
    RadioInstant.new value = some ⟨value, h⟩ := dif_pos h

namespace FirmwarePhase

/-- The pair of an exchange this node answers. -/
def answered : FirmwarePhase → Option Pair
  | sendingResponse pair _ _ _ _ _ | awaitFinal pair _ _ _ _ _ => some pair
  | _ => none

end FirmwarePhase

namespace Firmware

open Outcome

variable {firmware firmware' : Firmware} {io : FirmwareIo} {actions : List RadioAction}
  {roster roster' : FlightRoster} {pair : Pair}

theorem Advances.initiated_eq {before after : FirmwarePhase} (h : Advances before after) :
    after.initiated = before.initiated ∧ after.answered = before.answered := by
  cases h <;> exact ⟨rfl, rfl⟩

/-- The pair of the exchange is one of the roster, initiated here when the phase
says so. -/
structure Sound (firmware : Firmware) (roster : FlightRoster) : Prop where
  configured : Configured firmware roster
  initiated : ∀ pair, firmware.phase.initiated = some pair →
    pair ∈ roster.pairs ∧ pair.initiator = firmware.localNode
  answered : ∀ pair, firmware.phase.answered = some pair → pair ∈ roster.pairs

theorem Configured.roster_answers (h : Configured firmware roster) :
    firmware.roster = .ok roster := by
  rw [Firmware.roster, h.roster_eq]
  rfl

theorem Configured.peers (h : Configured firmware roster) :
    ∃ peers, firmware.configuration.peerSlice = some peers ∧
      FlightRoster.new firmware.localNode peers = some roster := by
  obtain ⟨peers, hpeers, hnew⟩ := Option.bind_eq_some_iff.mp h.roster_eq
  exact ⟨peers, hpeers, h.localNode_eq ▸ hnew⟩

theorem Configured.new_mem (h : Configured firmware roster) {peer : NodeAddress}
    (hpeer : roster.contains peer = true) (hpair : Pair.new firmware.localNode peer = some pair) :
    pair ∈ roster.pairs := by
  obtain ⟨peers, -, hnew⟩ := h.peers
  have hlocal : roster.contains firmware.localNode = true :=
    (FlightRoster.contains_new hnew).mpr (Or.inl rfl)
  rw [FlightRoster.mem_pairs]
  rcases (Pair.new_eq_some hpair).2 with ⟨rfl, hlt⟩ | ⟨rfl, hgt⟩
  · exact ⟨hlocal, hpeer, hlt⟩
  · exact ⟨hpeer, hlocal, hgt⟩

theorem Configured.clearErrors (h : Configured firmware roster) :
    Configured { firmware with spiErrorsSinceRange := 0 } roster :=
  ⟨h.roster_eq, h.localNode_eq⟩

theorem Sound.of_idle (h : Configured firmware roster) (hinitiated : firmware.phase.initiated = none)
    (hanswered : firmware.phase.answered = none) : Sound firmware roster :=
  ⟨h, by simp [hinitiated], by simp [hanswered]⟩

theorem sound_moves {heard : Option (DecodedAirFrame × UInt64)} (h : Sound firmware roster)
    (hsame : firmware.phase = .mainLoop ∨ SameNode firmware firmware')
    (hconfigured : Configured firmware' roster')
    (hmoves : Moves firmware heard firmware' actions) : Sound firmware' roster' := by
  have hkept : firmware.phase ≠ .mainLoop →
      roster' = roster ∧ firmware'.localNode = firmware.localNode := by
    intro hphase
    obtain ⟨hconfiguration, hlocal⟩ := hsame.resolve_left hphase
    have hroster := hconfigured.roster_eq
    rw [hconfiguration, h.configured.roster_eq, Option.some.injEq] at hroster
    exact ⟨hroster.symm, hlocal⟩
  have hcarried : firmware'.phase.initiated = firmware.phase.initiated →
      firmware'.phase.answered = firmware.phase.answered → Sound firmware' roster' := by
    intro hinitiated hanswered
    refine ⟨hconfigured, fun pair hpair => ?_, fun pair hpair => ?_⟩
    · rw [hinitiated] at hpair
      obtain ⟨rfl, hlocal⟩ := hkept (by rintro hphase; simp [hphase, FirmwarePhase.initiated] at hpair)
      rw [hlocal]
      exact h.initiated pair hpair
    · rw [hanswered] at hpair
      obtain ⟨rfl, -⟩ := hkept (by rintro hphase; simp [hphase, FirmwarePhase.answered] at hpair)
      exact h.answered pair hpair
  cases hmoves with
  | stays hafter => exact hcarried (by rw [hafter]) (by rw [hafter])
  | advances hafter => exact hcarried hafter.initiated_eq.1 hafter.initiated_eq.2
  | listens _ hafter | ends _ _ hafter | fails _ hafter | broadcasts _ hafter
  | evaluates _ _ _ hafter | givesUp _ _ _ hafter | records _ _ hafter
  | completes _ _ _ _ _ hafter =>
    exact .of_idle hconfigured (by rw [hafter]; rfl) (by rw [hafter]; rfl)
  | begins hbefore hroster hpair hinitiator hafter =>
    rw [hconfigured.roster_eq, Option.some.injEq] at hroster
    subst hroster
    refine ⟨hconfigured, fun pair' hpair' => ?_, fun pair' hpair' => ?_⟩
    · rw [hafter] at hpair'
      obtain rfl := Option.some.inj hpair'
      exact ⟨hpair, hinitiator⟩
    · rw [hafter] at hpair'
      contradiction
  | admits hheard hmessage hbefore hpair hinitiator hroster hlisted hafter =>
    rw [h.configured.roster_eq, Option.some.injEq] at hroster
    subst hroster
    obtain ⟨rfl, -⟩ := hkept (by simp [hbefore])
    refine ⟨hconfigured, fun pair' hpair' => ?_, fun pair' hpair' => ?_⟩
    · rw [hafter] at hpair'
      contradiction
    · rw [hafter] at hpair'
      obtain rfl := Option.some.inj hpair'
      exact h.configured.new_mem hlisted hpair
  | finalises hheard hmessage hsource hbefore hafter =>
    exact hcarried (by rw [hbefore, hafter]; rfl) (by rw [hbefore, hafter]; rfl)

theorem sound_step {event : FirmwareEvent} (h : Sound firmware roster)
    (hstep : firmware.step event = .ok (firmware', actions)) :
    ∃ roster', Sound firmware' roster' := by
  obtain ⟨hsame, ⟨roster', hconfigured⟩, hmoves⟩ := step_moves h.configured hstep
  exact ⟨roster', sound_moves h hsame hconfigured hmoves⟩

/-- The radio is prepared, starts and finishes without an error. -/
structure Answers (io : FirmwareIo) : Prop where
  prepared : io.prepared = .ok ()
  started : io.started = .ok ()
  finished : io.finished = .ok ()

theorem firstPeerIndex_isSome (h : Configured firmware roster) {peer : NodeAddress}
    (hpeer : roster.contains peer = true) (hne : peer ≠ firmware.localNode) :
    ∃ index, firmware.firstPeerIndex peer = some index := by
  obtain ⟨peers, hpeers, hnew⟩ := h.peers
  have hmem : peer ∈ peers :=
    ((FlightRoster.contains_new hnew).mp hpeer).resolve_left hne
  rw [← Option.isSome_iff_exists, firstPeerIndex, hpeers, Option.bind_some,
    List.findIdx?_isSome, List.any_eq_true]
  exact ⟨peer, hmem, by simp⟩

theorem finishAttempt_answers (h : Configured firmware roster) (hpair : pair ∈ roster.pairs)
    (hinitiator : pair.initiator = firmware.localNode) (outcome : Option ExchangeOutcome)
    (io : FirmwareIo) : ∃ after, firmware.finishAttempt pair outcome io = .ok after := by
  obtain ⟨-, hresponder, hlt⟩ := (FlightRoster.mem_pairs roster pair).mp hpair
  have hne : pair.responder ≠ firmware.localNode :=
    hinitiator ▸ (NodeAddress.ne_of_lt hlt).symm
  obtain ⟨index, hindex⟩ := pairIndex_isSome hpair
  obtain ⟨peerIndex, hpeerIndex⟩ := firstPeerIndex_isSome h hresponder hne
  have hroster := h.roster_answers
  unfold firstPeerIndex at hpeerIndex
  refine bind_total hroster (bind_total (a := index) (by rw [hindex]; rfl) ?_)
  refine bind_total (a := peerIndex) (by rw [if_pos hinitiator, hpeerIndex]; rfl) ?_
  cases outcome with
  | none => exact ⟨_, rfl⟩
  | some outcome => exact ⟨_, rfl⟩

theorem failAttempt_answers (h : Configured firmware roster) (hpair : pair ∈ roster.pairs)
    (hinitiator : pair.initiator = firmware.localNode) (io : FirmwareIo) :
    ∃ after, firmware.failAttempt pair io = .ok after :=
  bind_total_of (finishAttempt_answers h hpair hinitiator none io) fun _ => ⟨_, rfl⟩

theorem recoverExchange_answers (firmware : Firmware) {diagnostic : Diagnostic}
    (h : diagnostic ≠ .spi) :
    firmware.recoverExchange diagnostic = .ok { firmware with spiErrorsSinceRange := 0 } := by
  rw [recoverExchange, if_neg h]

theorem recoverAttempt_answers (h : Configured firmware roster) (hpair : pair ∈ roster.pairs)
    (hinitiator : pair.initiator = firmware.localNode) {diagnostic : Diagnostic}
    (hdiagnostic : diagnostic ≠ .spi) (io : FirmwareIo) :
    ∃ after, firmware.recoverAttempt pair diagnostic io = .ok after :=
  bind_total (recoverExchange_answers firmware hdiagnostic)
    (failAttempt_answers h.clearErrors hpair hinitiator io)

theorem endAttempt_answers (h : Sound firmware roster) (io : FirmwareIo) :
    ∃ after, firmware.endAttempt io = .ok after := by
  unfold endAttempt
  split
  · rename_i pair hpair
    obtain ⟨hmem, hinitiator⟩ := h.initiated pair hpair
    exact failAttempt_answers h.configured hmem hinitiator io
  · exact ⟨_, rfl⟩

theorem encodeAir_answers (firmware : Firmware) (peer : NodeAddress) {exchangeId : ExchangeId}
    {message : AirMessage} (hmessage : message.isFleetMode = false)
    (htimes : AirCodec.timestampsValid message = true) :
    ∃ after, firmware.encodeAir (.node peer) { exchangeId, message } = .ok after := by
  have hsendable : AirCodec.Sendable (.node peer) { exchangeId, message } :=
    ⟨rfl, by simp [hmessage], (AirCodec.timestampsValid_iff _).mp htimes⟩
  rw [encodeAir, AirCodec.send_ok hsendable]
  exact ⟨_, rfl⟩

theorem scheduled_answers (base : UInt64) (delayUs : UInt32) :
    ∃ time, resetUnless .invalidTimestamp (RadioInstant.new (delayedTxTime base delayUs)) =
      .ok time := by
  rw [RadioInstant.new_of_valid (timestampValid_delayedTxTime base delayUs)]
  exact ⟨_, rfl⟩

theorem answerPoll_answers (firmware : Firmware) (pair : Pair) (peer : NodeAddress)
    (exchangeId : ExchangeId) (pollRx : RadioInstant) (peerState : EgoState) (hio : Answers io) :
    ∃ firmware' actions, firmware.answerPoll pair peer exchangeId pollRx peerState io =
      .ok (firmware', actions) ∧ firmware'.phase ≠ .mainLoop := by
  obtain ⟨⟨encoded, frame⟩, hencode⟩ := @encodeAir_answers firmware peer exchangeId
    (.response pollRx.value (firmware.predictedTx (delayedTxTime pollRx.value replyDelayUs))
      io.egoState) rfl
    (by simp [AirCodec.timestampsValid, pollRx.valid, predictedTx, timestampValid_mask])
  obtain ⟨time, htime⟩ := scheduled_answers pollRx.value replyDelayUs
  unfold answerPoll
  simp only [hio.prepared, hencode, htime, hio.started]
  exact ⟨_, _, rfl, by simp⟩

theorem handleResponse_answers (h : Configured firmware roster) (hpair : pair ∈ roster.pairs)
    (hinitiator : pair.initiator = firmware.localNode) (exchangeId : ExchangeId)
    (pollTx : RadioInstant) (response : DecodedAirFrame) (responseRx : RadioInstant)
    (hio : Answers io) :
    ∃ after, firmware.handleResponse pair exchangeId pollTx response responseRx io = .ok after := by
  unfold handleResponse
  split
  · split
    · refine bind_total_of (encodeAir_answers firmware pair.responder rfl ?_) fun encoded => ?_
      · simp [AirCodec.timestampsValid, pollTx.valid, responseRx.valid, predictedTx,
          timestampValid_mask]
      · simp only [hio.prepared]
        exact bind_total_of (scheduled_answers _ _) fun _ => bind_total hio.started ⟨_, rfl⟩
    · exact failAttempt_answers h hpair hinitiator io
  · exact failAttempt_answers h hpair hinitiator io

theorem handleReport_answers (h : Configured firmware roster) (hpair : pair ∈ roster.pairs)
    (hinitiator : pair.initiator = firmware.localNode) (exchangeId : ExchangeId)
    (pollTx : RadioInstant) (pollRx responseTx : UInt64) (responseRx : RadioInstant)
    (predictedFinalTx : UInt64) (actualFinalTx : RadioInstant) (peerState : EgoState)
    (report : DecodedAirFrame) (io : FirmwareIo) :
    ∃ after, firmware.handleReport pair exchangeId pollTx pollRx responseTx responseRx
      predictedFinalTx actualFinalTx peerState report io = .ok after := by
  unfold handleReport
  split
  · split
    · dsimp only
      split
      · exact recoverAttempt_answers h hpair hinitiator (by decide) io
      · refine bind_total_of ?_ fun _ => ⟨_, rfl⟩
        exact finishAttempt_answers h.clearErrors hpair hinitiator _ io
    · exact failAttempt_answers h hpair hinitiator io
  · exact failAttempt_answers h hpair hinitiator io

theorem recoverListening_answers (firmware : Firmware) {diagnostic : Diagnostic}
    (h : diagnostic ≠ .spi) : ∃ after, firmware.recoverListening diagnostic = .ok after :=
  bind_total (recoverExchange_answers firmware h) ⟨_, rfl⟩

theorem handleFinal_answers (h : Configured firmware roster) (hpair : pair ∈ roster.pairs)
    (peer : NodeAddress) (exchangeId : ExchangeId) (pollRx : RadioInstant)
    (predictedResponseTx : UInt64) (peerState : EgoState) (final : DecodedAirFrame)
    (finalRx : RadioInstant) (hio : Answers io) :
    ∃ after, firmware.handleFinal pair peer exchangeId pollRx predictedResponseTx peerState final
      finalRx io = .ok after := by
  have hroster := h.roster_answers
  obtain ⟨index, hindex⟩ := pairIndex_isSome hpair
  unfold handleFinal
  split
  · split
    · dsimp only
      split
      · exact recoverListening_answers firmware (by decide)
      · refine bind_total hroster (bind_total (a := index) (by rw [hindex]; rfl) ?_)
        simp only [hio.prepared]
        refine bind_total_of (encodeAir_answers firmware peer rfl ?_) fun encoded => ?_
        · simp [AirCodec.timestampsValid, finalRx.valid]
        · exact bind_total_of (scheduled_answers _ _) fun _ => bind_total hio.started ⟨_, rfl⟩
    · exact ⟨_, rfl⟩
  · exact ⟨_, rfl⟩

theorem pollAllowed_answers (h : Configured firmware roster) (pair : Pair) (peer : NodeAddress)
    (duplicate : Bool) :
    firmware.pollAllowed pair peer duplicate =
      .ok (decide (pair.initiator = peer) && (roster.contains peer && !duplicate)) := by
  have hroster := h.roster_answers
  unfold pollAllowed
  split
  · rename_i hne
    simp [hne]
  · rename_i heq
    rw [not_not] at heq
    simp [heq, hroster, Except.map]

theorem handlePoll_self {poll : DecodedAirFrame} (hself : poll.source = firmware.localNode)
    (pollRx : RadioInstant) (io : FirmwareIo) :
    firmware.handlePoll poll pollRx io = .error .invalidConfiguration := by
  unfold handlePoll
  simp only [hself, Pair.new_self]
  rfl

/-- What a listening firmware makes of a frame from another node. -/
theorem handlePoll_answers (h : Configured firmware roster) {poll : DecodedAirFrame}
    (hother : poll.source ≠ firmware.localNode) (pollRx : RadioInstant) (hio : Answers io) :
    ∃ firmware' actions, firmware.handlePoll poll pollRx io = .ok (firmware', actions) ∧
      (firmware'.phase ≠ .mainLoop ↔ poll.source < firmware.localNode ∧
        roster.contains poll.source = true ∧
        firmware.isDuplicate (firmware.firstPeerIndex poll.source) poll.envelope.exchangeId
          io.receivedAtUs = false ∧
        ∃ peerState, poll.envelope.message = .poll peerState) := by
  obtain ⟨pair, hpair, hinitiator⟩ : ∃ pair, Pair.new firmware.localNode poll.source = some pair ∧
      (pair.initiator = poll.source ↔ poll.source < firmware.localNode) := by
    rcases NodeAddress.lt_or_gt_of_ne hother with hlt | hgt
    · exact ⟨_, Pair.new_of_gt hlt, by simp [hlt]⟩
    · exact ⟨_, Pair.new_of_lt hgt, by simp [NodeAddress.lt_asymm hgt, hother.symm]⟩
  have hallowed := pollAllowed_answers h pair poll.source
    (firmware.isDuplicate (firmware.firstPeerIndex poll.source) poll.envelope.exchangeId
      io.receivedAtUs)
  unfold handlePoll
  simp only [hpair, resetUnless, hallowed, bind, Except.bind]
  split
  · rename_i peerState hmessage
    split
    · rename_i hpasses
      obtain ⟨firmware', actions, hanswer, hphase⟩ := answerPoll_answers
        { firmware.rememberExchange (firmware.firstPeerIndex poll.source)
            poll.envelope.exchangeId io.receivedAtUs with activePair := some pair }
        pair poll.source poll.envelope.exchangeId pollRx peerState hio
      refine ⟨firmware', actions, hanswer, iff_of_true hphase ?_⟩
      simp only [Bool.and_eq_true, decide_eq_true_eq, Bool.not_eq_true'] at hpasses
      exact ⟨hinitiator.mp hpasses.1, hpasses.2.1, hpasses.2.2, peerState, hmessage⟩
    · rename_i hrefused
      refine ⟨_, _, rfl, iff_of_false (by simp [idle]) ?_⟩
      rintro ⟨hlt, hlisted, hfresh, -⟩
      exact hrefused (by simp [hinitiator.mpr hlt, hlisted, hfresh])
  · rename_i hmessage
    refine ⟨_, _, rfl, iff_of_false (by simp [idle]) ?_⟩
    rintro ⟨-, -, -, peerState, hpoll⟩
    exact hmessage peerState hpoll

/-- The firmware listens, and the frame is a ranging frame that names the local
node as its source. -/
def ResetsOn (firmware : Firmware) (frame : DecodedAirFrame) : Prop :=
  firmware.phase = .listening ∧ frame.source = firmware.localNode ∧
    frame.envelope.message.isFleetMode = false

theorem received_frame (firmware : Firmware) (frame : DecodedAirFrame) (rxTime : RadioInstant)
    (hreceives : firmware.phase.receives = true) (hio : Answers io)
    (hranging : frame.envelope.message.isFleetMode = false) :
    firmware.step (.received (.ok (.ok frame, rxTime)) io) =
      firmware.handleFrame frame rxTime io := by
  simp only [step, received, hreceives, Bool.not_true, if_false, Bool.false_eq_true, hio.finished,
    decodeAir]
  generalize hmessage : frame.envelope.message = message at hranging ⊢
  cases message with
  | fleetMode mode => simp [AirMessage.isFleetMode] at hranging
  | _ => rfl

/-- Of the decodable frames exactly those reset the firmware. -/
theorem received_answers_iff (h : Sound firmware roster) (frame : DecodedAirFrame)
    (rxTime : RadioInstant) (hio : Answers io) :
    (∃ after, firmware.step (.received (.ok (.ok frame, rxTime)) io) = .ok after) ↔
      ¬ firmware.ResetsOn frame := by
  constructor
  · rintro ⟨after, hafter⟩ ⟨hphase, hself, hranging⟩
    rw [received_frame firmware frame rxTime (by rw [hphase]; rfl) hio hranging, handleFrame,
      hphase] at hafter
    simp only [handlePoll_self hself] at hafter
    contradiction
  · intro hother
    by_cases hreceives : firmware.phase.receives = true
    · cases hranging : frame.envelope.message.isFleetMode with
      | true =>
        cases hmessage : frame.envelope.message with
        | fleetMode mode =>
          simp only [step, received, hreceives, Bool.not_true, if_false, Bool.false_eq_true,
            hio.finished, decodeAir, hmessage]
          exact bind_total rfl (bind_total_of (endAttempt_answers h io) fun _ => ⟨_, rfl⟩)
        | _ => simp [hmessage, AirMessage.isFleetMode] at hranging
      | false =>
        rw [received_frame firmware frame rxTime hreceives hio hranging]
        unfold handleFrame
        split
        · rename_i hphase
          have hsource : frame.source ≠ firmware.localNode := fun hself =>
            hother ⟨hphase, hself, hranging⟩
          obtain ⟨firmware', actions, hanswer, -⟩ :=
            handlePoll_answers h.configured hsource rxTime hio
          exact ⟨_, hanswer⟩
        · rename_i hphase
          obtain ⟨hpair, hinitiator⟩ := h.initiated _ (by rw [hphase]; rfl)
          exact handleResponse_answers h.configured hpair hinitiator _ _ _ _ hio
        · rename_i hphase
          obtain ⟨hpair, hinitiator⟩ := h.initiated _ (by rw [hphase]; rfl)
          exact handleReport_answers h.configured hpair hinitiator _ _ _ _ _ _ _ _ _ _
        · rename_i hphase
          exact handleFinal_answers h.configured (h.answered _ (by rw [hphase]; rfl)) _ _ _ _ _ _ _
            hio
        · exact ⟨_, rfl⟩
    · refine ⟨(firmware, []), ?_⟩
      simp [step, received, hreceives]

theorem sound_start {configuration : RadioConfiguration} {txDelay : UInt16}
    (h : start configuration txDelay io = .ok firmware) : ∃ roster, Sound firmware roster := by
  unfold start applyConfiguration at h
  split at h
  · contradiction
  · rename_i roster hroster
    split_ifs at h
    obtain rfl := Except.ok.inj h
    exact ⟨roster, .of_idle ⟨hroster, rfl⟩ rfl rfl⟩

theorem sound_run {started : Firmware} {events : List FirmwareEvent} {trace : List RadioAction}
    (h : Sound started roster)
    (hrun : Runs.run loggedStep (started, []) events = some (firmware, trace)) :
    ∃ roster', Sound firmware roster' := by
  refine Runs.run_invariant loggedStep (fun logged => ∃ roster', Sound logged.1 roster') ?_
    ⟨roster, h⟩ hrun
  rintro logged event logged' ⟨roster', hsound⟩ hstep
  unfold loggedStep at hstep
  split at hstep
  · rename_i after actions hafter
    rw [Option.some.injEq] at hstep
    subst hstep
    exact sound_step hsound hafter
  · contradiction

end Firmware

end Mission10.Uwb
