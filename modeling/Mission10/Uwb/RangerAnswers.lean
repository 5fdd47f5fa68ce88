import Mission10.Library.Outcome
import Mission10.Uwb.RangerRuns

/-!
# The ranging service handles every frame

A handler of a received frame fails on a radio that does not answer, on a frame
of its own that does not pass the checks of the codec, and on a source that forms
no pair of the roster. The last two do not occur: the times a frame carries are
40-bit counts and a frame from outside the listed peers is ignored.
-/
namespace Mission10.Uwb

open Runs

namespace RangingConfig

/-- A listed peer and the local node form a pair of the roster. -/
theorem exists_pair (config : RangingConfig) {source : NodeAddress} (h : source ∈ config.peers) :
    ∃ pair index, Pair.new config.address source = some pair ∧
      pairIndex config.roster pair = some index := by
  obtain ⟨-, hself⟩ := FlightRoster.new_perm config.forms_roster
  have hne : config.address ≠ source := by
    rintro rfl
    exact hself h
  have hsource := (FlightRoster.contains_new config.forms_roster).mpr (Or.inr h)
  have hlocal : config.roster.contains config.address = true :=
    (FlightRoster.contains_new config.forms_roster).mpr (Or.inl rfl)
  rcases NodeAddress.lt_or_gt_of_ne hne with hlt | hgt
  · obtain ⟨index, hindex⟩ := pairIndex_isSome
      ((FlightRoster.mem_pairs config.roster ⟨_, _⟩).mpr ⟨hlocal, hsource, hlt⟩)
    exact ⟨_, index, Pair.new_of_lt hlt, hindex⟩
  · obtain ⟨index, hindex⟩ := pairIndex_isSome
      ((FlightRoster.mem_pairs config.roster ⟨_, _⟩).mpr ⟨hsource, hlocal, hgt⟩)
    exact ⟨_, index, Pair.new_of_gt hgt, hindex⟩

end RangingConfig

/-- A 40-bit count keeps its value under the mask, and masking gives one. -/
theorem timestampValid_mask (time : UInt64) :
    AirCodec.timestampValid (time &&& timestampMask) = true := timestampValid_ticks time

theorem timestampValid_delayedTxTime (base : UInt64) (delayUs : UInt32) :
    AirCodec.timestampValid (delayedTxTime base delayUs) = true := by
  have hmask := timestampValid_mask (base + delayUs.toUInt64 * dtuPerUs)
  rw [AirCodec.timestampValid, decide_eq_true_eq, UInt64.le_iff_toNat_le] at hmask ⊢
  rw [delayedTxTime, UInt64.toNat_and]
  exact Nat.and_le_left.trans hmask

namespace Ranger

open Outcome

variable {ranger ranger' : Ranger} {io : RangerIo} {actions : List RadioAction}

/-- The Poll time of an exchange that waits for a Response is a 40-bit count. -/
def Timed (ranger : Ranger) : Prop :=
  ∀ peer exchangeId pollTx, ranger.state = .awaitResponse peer exchangeId pollTx →
    AirCodec.timestampValid pollTx = true

theorem timed_moves {heard : Option (DecodedAirFrame × UInt64)} (h : Timed ranger)
    (hmoves : Moves ranger heard ranger' actions) : Timed ranger' := by
  intro peer exchangeId pollTx hstate
  cases hmoves with
  | stays hafter =>
    obtain ⟨hsame, -, -⟩ := exchange_eq hafter
    exact h peer exchangeId pollTx (hsame ▸ hstate)
  | advances hbefore hafter =>
    obtain ⟨hnew, -, -⟩ := exchange_eq hafter
    rw [hnew] at hstate
    subst hstate
    generalize ranger.state = state at hbefore
    cases hbefore with
    | poll hvalid => exact hvalid
  | abandons _ hafter | reports _ hafter | ceases _ hafter | broadcasts _ hafter
  | begins _ _ _ hafter | admits _ _ _ _ hafter | finalises _ _ _ hafter
  | evaluates _ _ _ _ hafter | completes _ _ _ _ hafter =>
    obtain ⟨hnew, -, -⟩ := exchange_eq hafter
    rw [hnew] at hstate
    contradiction

theorem timed_run {config : RangingConfig} {bootNonce : UInt32} {events : List RangerEvent}
    {trace : List RadioAction}
    (hrun : run loggedStep (new config bootNonce, []) events = some (ranger, trace)) :
    Timed ranger := by
  refine run_invariant loggedStep (fun logged => Timed logged.1) ?_ ?_ hrun
  · intro logged event logged' htimed hstep
    unfold loggedStep at hstep
    split at hstep
    · rename_i after actions hafter
      rw [Option.some.injEq] at hstep
      subst hstep
      exact timed_moves htimed (step_moves hafter).2
    · contradiction
  · intro peer exchangeId pollTx hstate
    contradiction

/-- The radio answers every call. -/
structure RadioAnswers (io : RangerIo) : Prop where
  transmitted : io.transmitted = true
  armed : io.armed = true

theorem armReceive_answers (hio : RadioAnswers io) : armReceive io = .ok () := by
  rw [armReceive, if_pos hio.armed]

theorem transmitted_answers (hio : RadioAnswers io) : transmitted io = .ok () := by
  rw [transmitted, if_pos hio.transmitted]

theorem ignoreFrame_answers (ranger : Ranger) (hio : RadioAnswers io) :
    ranger.ignoreFrame io = .ok (ranger, []) := by
  rw [ignoreFrame, armReceive_answers hio]
  rfl

theorem recoverExchange_answers (ranger : Ranger) (hio : RadioAnswers io) :
    ∃ after, ranger.recoverExchange io = .ok after :=
  bind_total (armReceive_answers hio) ⟨_, rfl⟩

theorem encode_answers (ranger : Ranger) (peer : NodeAddress) {exchangeId : ExchangeId}
    {message : AirMessage} (hmessage : message.isFleetMode = false)
    (htimes : AirCodec.timestampsValid message = true) :
    ∃ encoded, ranger.encode peer { exchangeId, message } = .ok encoded := by
  have hsendable : AirCodec.Sendable (.node peer) { exchangeId, message } :=
    ⟨rfl, by simp [hmessage], (AirCodec.timestampsValid_iff _).mp htimes⟩
  simp [encode, encodeDestination, AirCodec.send_ok hsendable]

theorem sendResponse_answers (ranger : Ranger) (peer : NodeAddress) (exchangeId : ExchangeId)
    {pollRx : UInt64} (peerState : EgoState) (hio : RadioAnswers io)
    (hrx : AirCodec.timestampValid pollRx = true) :
    ∃ after, ranger.sendResponse peer exchangeId pollRx peerState io = .ok after := by
  refine bind_total_of (encode_answers ranger peer rfl ?_) fun encoded => ?_
  · simp [AirCodec.timestampsValid, hrx, timestampValid_ticks]
  · exact bind_total (transmitted_answers hio) ⟨_, rfl⟩

theorem sendFinal_answers (ranger : Ranger) (peer : NodeAddress) (exchangeId : ExchangeId)
    {pollTx responseRx : UInt64} (pollRx responseTx : UInt64) (peerState : EgoState)
    (hio : RadioAnswers io) (htx : AirCodec.timestampValid pollTx = true)
    (hrx : AirCodec.timestampValid responseRx = true) :
    ∃ after, ranger.sendFinal peer exchangeId pollTx pollRx responseTx responseRx
      peerState io = .ok after := by
  refine bind_total_of (encode_answers ranger peer rfl ?_) fun encoded => ?_
  · simp [AirCodec.timestampsValid, htx, hrx, timestampValid_ticks]
  · exact bind_total (transmitted_answers hio) ⟨_, rfl⟩

theorem sendReport_answers (ranger : Ranger) (peer : NodeAddress) (exchangeId : ExchangeId)
    {finalRx : UInt64} (close : Bool) (hio : RadioAnswers io)
    (hrx : AirCodec.timestampValid finalRx = true) :
    ∃ after, ranger.sendReport peer exchangeId finalRx close io = .ok after := by
  refine bind_total_of (encode_answers ranger peer rfl ?_) fun encoded => ?_
  · simp [AirCodec.timestampsValid, hrx]
  · exact bind_total (transmitted_answers hio) ⟨_, rfl⟩

theorem expect_some {α : Type} {value : Option α} {a : α} (h : value = some a) :
    expect value = .ok a := by
  rw [h]
  rfl

theorem handleFinal_answers (ranger : Ranger) {source : NodeAddress} (exchangeId : ExchangeId)
    (initiator : InitiatorTimestamps) (pollRx responseTx : UInt64) {rxTime : UInt64}
    (peerState : EgoState) (hio : RadioAnswers io) (hsource : source ∈ ranger.config.peers)
    (hrx : AirCodec.timestampValid rxTime = true) :
    ∃ after, ranger.handleFinal source exchangeId initiator pollRx responseTx rxTime
      peerState io = .ok after := by
  unfold handleFinal
  dsimp only
  split
  · exact recoverExchange_answers ranger hio
  · obtain ⟨pair, index, hpair, hindex⟩ := ranger.config.exists_pair hsource
    refine bind_total (expect_some hpair) (bind_total (expect_some hindex) ?_)
    exact bind_total_of (sendReport_answers _ _ _ _ hio hrx) fun sent => ⟨_, rfl⟩

theorem handleReport_answers (ranger : Ranger) {source : NodeAddress} (exchangeId : ExchangeId)
    (initiator : InitiatorTimestamps) (pollRx responseTx finalRx finalEventTime : UInt64)
    (peerState : EgoState) (status : UInt16) (hio : RadioAnswers io)
    (hsource : source ∈ ranger.config.peers) :
    ∃ after, ranger.handleReport source exchangeId initiator pollRx responseTx finalRx
      finalEventTime peerState status io = .ok after := by
  unfold handleReport
  dsimp only
  split
  · exact recoverExchange_answers ranger hio
  · obtain ⟨pair, index, hpair, hindex⟩ := ranger.config.exists_pair hsource
    refine bind_total_of ?_ fun observed => bind_total (armReceive_answers hio) ⟨_, rfl⟩
    exact bind_total (expect_some hpair) (bind_total (expect_some hindex) ⟨_, rfl⟩)

/-- The service handles every frame. -/
theorem received_answers (ranger : Ranger) (htimed : Timed ranger)
    (decoded : Except AirDecodeError DecodedAirFrame) (rxTime : UInt64) (hio : RadioAnswers io) :
    ∃ after, ranger.step (.received decoded rxTime io) = .ok after := by
  have hrx := timestampValid_ticks rxTime
  have hignore : ∀ r : Ranger, ∃ after, r.ignoreFrame io = .ok after := fun r =>
    ⟨_, ignoreFrame_answers r hio⟩
  simp only [step, handleFrame]
  split
  · exact hignore ranger
  · rename_i frame
    split
    · exact bind_total_of (recoverExchange_answers ranger hio) fun recovered => ⟨_, rfl⟩
    · split
      · exact hignore ranger
      · rename_i source hfound
        have hsource : source ∈ ranger.config.peers := List.mem_of_find?_eq_some hfound
        unfold handleMessage
        split
        case h_1 =>
          split
          · exact sendResponse_answers _ _ _ _ hio hrx
          · exact hignore _
        case h_2 peer exchangeId pollTx pollRx responseTx state hstate hmessage =>
          split
          · exact sendFinal_answers _ _ _ _ _ _ hio (htimed _ _ _ hstate) hrx
          · exact hignore ranger
        case h_3 =>
          split
          · exact handleFinal_answers ranger _ _ _ _ _ hio hsource hrx
          · exact hignore ranger
        case h_4 =>
          split
          · exact handleReport_answers ranger _ _ _ _ _ _ _ _ hio hsource
          · exact hignore ranger
        case h_5 => exact hignore ranger

end Ranger

end Mission10.Uwb
