import Mission10.Library.Grouping
import Mission10.Uwb.PairSelection
import Mission10.Uwb.RangerRuns
import Mission10.Uwb.RateLaw

/-!
# The attempts of the ranging service

The service keeps the scheduler state of each pair in a list, and one handler may
expire it, begin an attempt and record its outcome. Seen from one pair that the local
node initiates, each handler is a step of the radio loop of that pair, so the rate law
holds of the service: over clock readings that do not decrease, the attempts of each
pair are a close period apart, and the Polls of a node in any window are bounded.
-/
namespace Mission10.Uwb

open Runs

namespace RangerEvent

/-- The reading of the clock the scheduler gets with an event. -/
def readAt : RangerEvent → Option ℕ
  | command _ _ => none
  | schedule io => some io.checkedAt
  | txDone io | received _ _ io | receiveError io | deadline _ io => some io.recordedAt

/-- The reading in microseconds. -/
def nowUs (event : RangerEvent) : UInt64 := Ranger.monotonicUs (event.readAt.getD 0)

end RangerEvent

namespace RadioAction

/-- The pair whose attempt an action begins. -/
def begun : RadioAction → Option Pair
  | beginAttempt pair => some pair
  | _ => none

end RadioAction

/-- The service with the reading of its clock and the attempts it has begun, each with
its time. -/
structure TimedRanger where
  ranger : Ranger
  clock : ℕ := 0
  begun : List (Pair × UInt64) := []

namespace TimedRanger

/-- An event whose reading is not before the last one. -/
def step (timed : TimedRanger) (event : RangerEvent) : Option TimedRanger :=
  if event.readAt.any (· < timed.clock) then none
  else
    match timed.ranger.step event with
    | .ok (ranger, actions) => some {
        ranger
        clock := event.readAt.getD timed.clock
        begun := timed.begun ++ (actions.filterMap RadioAction.begun).map (·, event.nowUs) }
    | .error _ => none

end TimedRanger

namespace Ranger

variable {ranger ranger' : Ranger} {io : RangerIo} {event : RangerEvent}
  {actions : List RadioAction} {pair : Pair} {index : ℕ}

/-- The pair is one of the roster that the local node initiates, at its index. -/
structure Initiated (ranger : Ranger) (pair : Pair) (index : ℕ) : Prop where
  listed : pairIndex ranger.roster pair = some index
  initiator : pair.initiator = ranger.config.address

theorem Initiated.config (h : Initiated ranger pair index) (hconfig : ranger'.config = ranger.config) :
    Initiated ranger' pair index :=
  ⟨by rw [roster, hconfig]; exact h.listed, by rw [hconfig]; exact h.initiator⟩

/-- What one handler does to the scheduler state of a pair: nothing, or what the radio
loop does with it at one reading. -/
inductive Shifts (pair : Pair) (index : ℕ) (nowUs : UInt64) (ranger ranger' : Ranger) :
    List Pair → Prop where
  | rests {begun : List Pair}
      (hstates : ranger'.pairStates[index]? = ranger.pairStates[index]?)
      (hactive : ranger'.activePair = some pair ↔ ranger.activePair = some pair)
      (hbegun : pair ∉ begun) : Shifts pair index nowUs ranger ranger' begun
  | expires {begun : List Pair}
      (hstates : ranger'.pairStates[index]? =
        (ranger.pairStates[index]?).map (·.expire nowUs))
      (hactive : ranger'.activePair = some pair ↔ ranger.activePair = some pair)
      (hbegun : pair ∉ begun) : Shifts pair index nowUs ranger ranger' begun
  | begins
      (hstates : ranger'.pairStates[index]? =
        (ranger.pairStates[index]?).map fun state => (state.expire nowUs).beginAttempt nowUs)
      (hdue : ∀ state, ranger.pairStates[index]? = some state →
        (state.expire nowUs).isDue nowUs = true)
      (hidle : ranger.activePair ≠ some pair) (hactive : ranger'.activePair = some pair) :
      Shifts pair index nowUs ranger ranger' [pair]
  | fails
      (hstates : ranger'.pairStates[index]? =
        (ranger.pairStates[index]?).map (·.recordFailure nowUs))
      (hbefore : ranger.activePair = some pair) (hafter : ranger'.activePair ≠ some pair) :
      Shifts pair index nowUs ranger ranger' []
  | succeeds (close : Bool)
      (hstates : ranger'.pairStates[index]? =
        (ranger.pairStates[index]?).map (·.recordSuccess nowUs close))
      (hbefore : ranger.activePair = some pair) (hafter : ranger'.activePair ≠ some pair) :
      Shifts pair index nowUs ranger ranger' []

section Handlers

theorem states_modify (states : List PairMacState) (other : ℕ)
    (update : PairMacState → PairMacState) :
    (states.modify other update)[index]? =
      if other = index then states[index]?.map update else states[index]? := by
  rw [List.getElem?_modify]
  split
  · simp_all
  · simp_all

/-- Two pairs at one index are the same. -/
theorem index_ne {other : Pair} {otherIndex : ℕ} (h : Initiated ranger pair index)
    (hother : pairIndex ranger.roster other = some otherIndex) (hne : other ≠ pair) :
    otherIndex ≠ index := by
  rintro rfl
  have hget := pairIndex_eq_some.mp hother
  rw [pairIndex_eq_some.mp h.listed, Option.some.injEq] at hget
  exact hne hget.symm

/-- The failure that abandoning the exchange records with the pair. -/
theorem recordTimeout_states (h : Initiated ranger pair index) (io : RangerIo) :
    (ranger.recordTimeout io).1.pairStates[index]? =
        (if ranger.activePair = some pair then
          (ranger.pairStates[index]?).map (·.recordFailure (monotonicUs io.recordedAt))
        else ranger.pairStates[index]?) ∧
      (ranger.recordTimeout io).1.activePair = none ∧
      (ranger.recordTimeout io).1.config = ranger.config ∧
      (ranger.recordTimeout io).2.filterMap RadioAction.begun = [] := by
  unfold recordTimeout
  cases hactive : ranger.activePair with
  | none => simp [hactive]
  | some active =>
    by_cases hlocal : active.initiator = ranger.config.address
    · cases hindex : pairIndex ranger.roster active with
      | none =>
        have hne : active ≠ pair := by
          rintro rfl
          rw [h.listed] at hindex
          contradiction
        have hsome : pairIndex ranger.config.roster active = none := hindex
        simp [hlocal, roster, hsome, hne]
      | some other =>
        have hsome : pairIndex ranger.config.roster active = some other := hindex
        simp only [hlocal, if_true, roster, hsome, updatePair, states_modify]
        by_cases hsame : active = pair
        · subst hsame
          obtain rfl : other = index := by
            rw [h.listed, Option.some.injEq] at hindex
            exact hindex.symm
          simp [RadioAction.begun]
        · simp [index_ne h hindex hsame, hsame, RadioAction.begun]
    · have hne : active ≠ pair := by
        rintro rfl
        exact hlocal h.initiator
      simp [hlocal, hne]

/-- Abandoning the exchange, with whatever else a handler changes but the schedule. -/
theorem abandoned_shifts (h : Initiated ranger pair index) {done : Ranger}
    {failed : List RadioAction} (htimeout : ranger.recordTimeout io = (done, failed))
    (hstates : ranger'.pairStates = done.pairStates) (hactive : ranger'.activePair = none)
    (hactions : actions.filterMap RadioAction.begun = failed.filterMap RadioAction.begun) :
    Shifts pair index (monotonicUs io.recordedAt) ranger ranger'
      (actions.filterMap RadioAction.begun) := by
  obtain ⟨hdone, -, -, hbegun⟩ := recordTimeout_states h io
  rw [htimeout] at hdone hbegun
  rw [hactions, hbegun]
  by_cases hopen : ranger.activePair = some pair
  · rw [if_pos hopen] at hdone
    exact .fails (by rw [hstates, hdone]) hopen (by simp [hactive])
  · rw [if_neg hopen] at hdone
    exact .rests (by rw [hstates, hdone]) (by simp [hactive, hopen]) List.not_mem_nil

theorem recoverExchange_shifts (h : Initiated ranger pair index)
    (hok : ranger.recoverExchange io = .ok (ranger', actions)) :
    Shifts pair index (monotonicUs io.recordedAt) ranger ranger'
      (actions.filterMap RadioAction.begun) := by
  unfold recoverExchange at hok
  obtain ⟨-, hnone, -, -⟩ := recordTimeout_states h io
  cases htimeout : ranger.recordTimeout io with
  | mk done failed =>
    rw [htimeout] at hok hnone
    obtain ⟨_, -, hok⟩ := Outcome.bind_ok hok
    obtain ⟨rfl, rfl⟩ := Prod.mk.inj (Outcome.pure_ok hok)
    exact abandoned_shifts h htimeout rfl hnone rfl

theorem missedTransmission_shifts (h : Initiated ranger pair index)
    (hok : ranger.missedTransmission io = .ok (ranger', actions)) :
    Shifts pair index (monotonicUs io.recordedAt) ranger ranger'
      (actions.filterMap RadioAction.begun) := by
  unfold missedTransmission at hok
  obtain ⟨-, hnone, -, -⟩ := recordTimeout_states h io
  cases htimeout : ranger.recordTimeout io with
  | mk done failed =>
    rw [htimeout] at hok hnone
    have hagain : done.recordTimeout io = (done, []) := by
      unfold recordTimeout
      rw [hnone]
    obtain ⟨⟨recovered, again⟩, hrecover, hok⟩ := Outcome.bind_ok hok
    simp only [recoverExchange, hagain] at hrecover
    obtain ⟨_, -, hrecover⟩ := Outcome.bind_ok hrecover
    obtain ⟨rfl, rfl⟩ := Prod.mk.inj (Outcome.pure_ok hrecover)
    obtain ⟨rfl, rfl⟩ := Prod.mk.inj (Outcome.pure_ok hok)
    exact abandoned_shifts h htimeout rfl hnone (by rw [List.append_nil])

/-- A handler that leaves the schedule alone. -/
theorem untouched_shifts (nowUs : UInt64) (hstates : ranger'.pairStates = ranger.pairStates)
    (hactive : ranger'.activePair = some pair ↔ ranger.activePair = some pair)
    (hactions : actions.filterMap RadioAction.begun = []) :
    Shifts pair index nowUs ranger ranger' (actions.filterMap RadioAction.begun) := by
  rw [hactions]
  exact .rests (by rw [hstates]) hactive List.not_mem_nil

theorem serviceSchedule_shifts (h : Initiated ranger pair index) (hconsistent : Consistent ranger)
    (hok : ranger.serviceSchedule io = .ok (ranger', actions)) :
    Shifts pair index (monotonicUs io.checkedAt) ranger ranger'
      (actions.filterMap RadioAction.begun) := by
  unfold serviceSchedule at hok
  split at hok
  · obtain ⟨rfl, rfl⟩ := Prod.mk.inj (Except.ok.inj hok)
    exact untouched_shifts _ rfl Iff.rfl rfl
  · rename_i hidle
    have hidle : ranger.state = .idle := by simpa using hidle
    have hnone : ranger.activePair = none := by
      rw [hconsistent.active, hidle]
      rfl
    split at hok
    · obtain ⟨pending, exchangeId, mode, deadline, rfl, rfl⟩ := sendFleetMode_ok hok
      exact untouched_shifts _ rfl Iff.rfl rfl
    · dsimp only at hok
      have hexpired : (ranger.pairStates.map (·.expire (monotonicUs io.checkedAt)))[index]? =
          (ranger.pairStates[index]?).map (·.expire (monotonicUs io.checkedAt)) :=
        List.getElem?_map
      split at hok
      · obtain ⟨rfl, rfl⟩ := Prod.mk.inj (Except.ok.inj hok)
        exact .expires hexpired Iff.rfl List.not_mem_nil
      · rename_i due hdue
        obtain ⟨hmem, hinitiator, state, hstate, hready⟩ := duePair_spec hdue
        obtain ⟨other, hother, hok⟩ := Outcome.bind_ok hok
        have hother : pairIndex ranger.roster due = some other := expect_ok hother
        obtain ⟨⟨polled, sent⟩, hpoll, hok⟩ := Outcome.bind_ok hok
        obtain ⟨pollTx, deadline, rfl, rfl⟩ := sendPoll_ok hpoll
        obtain ⟨rfl, rfl⟩ := Prod.mk.inj (Outcome.pure_ok hok)
        change Shifts pair index (monotonicUs io.checkedAt) ranger _ [due]
        by_cases hsame : due = pair
        · subst hsame
          obtain rfl : other = index := by
            rw [h.listed, Option.some.injEq] at hother
            exact hother.symm
          refine .begins ?_ ?_ (by simp [hnone]) rfl
          · simp only [updatePair, states_modify, if_true, hexpired, Option.map_map]
            rfl
          · intro state' hstate'
            obtain ⟨position, hzip⟩ := List.getElem?_of_mem hstate
            rw [List.getElem?_zip_eq_some] at hzip
            obtain ⟨hpair, hexpire⟩ := hzip
            obtain rfl : position = other := by
              have hindex := pairIndex_eq_some.mpr hpair
              have hsamePair : pairIndex ranger.roster due = some position := hindex
              rw [h.listed, Option.some.injEq] at hsamePair
              exact hsamePair.symm
            rw [hexpired, hstate', Option.map_some, Option.some.injEq] at hexpire
            rw [hexpire]
            exact hready
        · refine .expires ?_ (by simp [hnone, hsame]) ?_
          · simp only [updatePair, states_modify, index_ne h hother hsame, if_false, hexpired]
          · rw [List.mem_singleton]
            exact fun heq => hsame heq.symm

theorem handleTxDone_shifts (h : Initiated ranger pair index) (hconsistent : Consistent ranger)
    (hok : ranger.handleTxDone io = .ok (ranger', actions)) :
    Shifts pair index (monotonicUs io.recordedAt) ranger ranger'
      (actions.filterMap RadioAction.begun) := by
  unfold handleTxDone at hok
  split at hok
  case h_1 | h_2 =>
    obtain ⟨tx, -, hok⟩ := Outcome.bind_ok hok
    dsimp only at hok
    split at hok
    · exact missedTransmission_shifts h hok
    · obtain ⟨rfl, rfl⟩ := Prod.mk.inj (Outcome.pure_ok hok)
      exact untouched_shifts _ rfl Iff.rfl rfl
  case h_3 =>
    obtain ⟨tx, -, hok⟩ := Outcome.bind_ok hok
    dsimp only at hok
    split at hok
    · exact missedTransmission_shifts h hok
    · obtain ⟨_, -, hok⟩ := Outcome.bind_ok hok
      obtain ⟨rfl, rfl⟩ := Prod.mk.inj (Outcome.pure_ok hok)
      exact untouched_shifts _ rfl Iff.rfl rfl
  case h_4 peer exchangeId hstate =>
    -- The answerer's exchange ends; the pair is one the peer initiates.
    obtain ⟨_, -, hok⟩ := Outcome.bind_ok hok
    obtain ⟨rfl, rfl⟩ := Prod.mk.inj (Outcome.pure_ok hok)
    refine untouched_shifts _ rfl (iff_of_false (by simp) ?_) rfl
    intro hactive
    have hpair := hconsistent.active
    rw [hactive, hstate, ExchangeState.pairAt, Option.some.injEq] at hpair
    have hlt := hconsistent.ordered pair hactive
    rw [h.initiator, hpair] at hlt
    exact NodeAddress.lt_irrefl _ hlt
  case h_5 =>
    obtain ⟨_, -, hok⟩ := Outcome.bind_ok hok
    obtain ⟨rfl, rfl⟩ := Prod.mk.inj (Outcome.pure_ok hok)
    exact untouched_shifts _ rfl Iff.rfl rfl
  all_goals
    obtain ⟨rfl, rfl⟩ := Prod.mk.inj (Except.ok.inj hok)
    exact untouched_shifts _ rfl Iff.rfl rfl

/-- The answerer's record is of another pair than those the local node initiates. -/
theorem handleFinal_shifts (h : Initiated ranger pair index) (hconsistent : Consistent ranger)
    {source : NodeAddress} {exchangeId : ExchangeId} {initiator : InitiatorTimestamps}
    {pollRx responseTx rxTime : UInt64} {peerState : EgoState}
    (hstate : ranger.state = .awaitFinal source exchangeId pollRx responseTx peerState)
    (hok : ranger.handleFinal source exchangeId initiator pollRx responseTx rxTime peerState io =
      .ok (ranger', actions)) :
    Shifts pair index (monotonicUs io.recordedAt) ranger ranger'
      (actions.filterMap RadioAction.begun) := by
  unfold handleFinal at hok
  dsimp only at hok
  split at hok
  · exact recoverExchange_shifts h hok
  · obtain ⟨answered, hanswered, hok⟩ := Outcome.bind_ok hok
    obtain ⟨other, hother, hok⟩ := Outcome.bind_ok hok
    obtain ⟨⟨sentRanger, sent⟩, hsent, hok⟩ := Outcome.bind_ok hok
    obtain ⟨deadline, rfl, rfl⟩ := sendReport_ok hsent
    obtain ⟨rfl, rfl⟩ := Prod.mk.inj (Outcome.pure_ok hok)
    have hactive := hconsistent.active
    rw [hstate, ExchangeState.pairAt] at hactive
    have hlt := hconsistent.ordered _ hactive
    have hpair := expect_ok hanswered
    rw [Pair.new_of_gt hlt, Option.some.injEq] at hpair
    have hne : answered ≠ pair := by
      rintro rfl
      rw [← h.initiator, ← hpair] at hlt
      exact NodeAddress.lt_irrefl _ hlt
    refine .rests ?_ Iff.rfl List.not_mem_nil
    simp only [emit, updatePair, states_modify, index_ne h (expect_ok hother) hne, if_false]

theorem handleReport_shifts (h : Initiated ranger pair index) (hconsistent : Consistent ranger)
    {source : NodeAddress} {exchangeId : ExchangeId} {initiator : InitiatorTimestamps}
    {pollTx pollRx responseTx responseRx finalTx finalRx finalEventTime eventTime : UInt64}
    {peerState : EgoState} {status : UInt16}
    (hstate : ranger.state = .awaitReport source exchangeId pollTx pollRx responseTx responseRx
      finalTx finalEventTime peerState)
    (hok : ranger.handleReport source exchangeId initiator pollRx responseTx finalRx eventTime
      peerState status io = .ok (ranger', actions)) :
    Shifts pair index (monotonicUs io.recordedAt) ranger ranger'
      (actions.filterMap RadioAction.begun) := by
  unfold handleReport at hok
  dsimp only at hok
  split at hok
  · exact recoverExchange_shifts h hok
  · obtain ⟨⟨observed, recorded⟩, hobserved, hok⟩ := Outcome.bind_ok hok
    obtain ⟨called, hcalled, hobserved⟩ := Outcome.bind_ok hobserved
    obtain ⟨other, hother, hobserved⟩ := Outcome.bind_ok hobserved
    obtain ⟨rfl, rfl⟩ := Prod.mk.inj (Outcome.pure_ok hobserved)
    obtain ⟨_, -, hok⟩ := Outcome.bind_ok hok
    obtain ⟨rfl, rfl⟩ := Prod.mk.inj (Outcome.pure_ok hok)
    have hactive := hconsistent.active
    rw [hstate, ExchangeState.pairAt] at hactive
    have hpair := expect_ok hcalled
    rw [Pair.new_of_lt (hconsistent.ordered _ hactive), Option.some.injEq] at hpair
    have hother : pairIndex ranger.roster called = some other := expect_ok hother
    rw [hpair] at hactive
    change Shifts pair index (monotonicUs io.recordedAt) ranger _ []
    by_cases hsame : called = pair
    · subst hsame
      obtain rfl : other = index := by
        rw [h.listed, Option.some.injEq] at hother
        exact hother.symm
      refine .succeeds (status &&& reportStatusClose ≠ 0) ?_ hactive (by simp [emit])
      simp only [emit, updatePair, states_modify, if_true]
    · refine .rests ?_ ?_ List.not_mem_nil
      · simp only [emit, updatePair, states_modify, index_ne h hother hsame, if_false]
      · simp [emit, hactive, hsame]

theorem handleMessage_shifts (h : Initiated ranger pair index) (hconsistent : Consistent ranger)
    {source : NodeAddress} {frameId : ExchangeId} {message : AirMessage} {rxTime : UInt64}
    (hok : ranger.handleMessage source frameId message rxTime io = .ok (ranger', actions)) :
    Shifts pair index (monotonicUs io.recordedAt) ranger ranger'
      (actions.filterMap RadioAction.begun) := by
  have hignores : ranger.ignoreFrame io = .ok (ranger', actions) →
      Shifts pair index (monotonicUs io.recordedAt) ranger ranger'
        (actions.filterMap RadioAction.begun) := by
    intro hignore
    obtain ⟨rfl, rfl⟩ := ignoreFrame_ok hignore
    exact untouched_shifts _ rfl Iff.rfl rfl
  unfold handleMessage at hok
  split at hok
  case h_1 state hstate =>
    have hnone : ranger.activePair = none := by
      rw [hconsistent.active, hstate]
      rfl
    split at hok
    · rename_i admitted hvalid
      obtain ⟨last, hlast⟩ := pollIsValid_eq ranger source frameId io
      have hadmitted : admitted = { ranger with lastReceivedExchange := last } := by
        rw [← hlast, hvalid]
      have hadmits : (ranger.pollIsValid source frameId io).2 = true := by rw [hvalid]
      obtain ⟨hlt, hpair⟩ := pollIsValid_responder hadmits
      subst hadmitted
      obtain ⟨responseTx, deadline, rfl, rfl⟩ := sendResponse_ok hok
      refine untouched_shifts _ rfl (iff_of_false ?_ (by simp [hnone])) rfl
      dsimp only
      rw [hpair, Option.some.injEq]
      rintro rfl
      exact NodeAddress.ne_of_lt hlt h.initiator
    · rename_i refused hvalid
      obtain ⟨last, hlast⟩ := pollIsValid_eq ranger source frameId io
      rw [hvalid] at hlast
      dsimp only at hlast
      subst hlast
      obtain ⟨rfl, rfl⟩ := ignoreFrame_ok hok
      exact untouched_shifts _ rfl Iff.rfl rfl
  case h_2 =>
    split at hok
    · obtain ⟨finalTx, deadline, rfl, rfl⟩ := sendFinal_ok hok
      exact untouched_shifts _ rfl Iff.rfl rfl
    · exact hignores hok
  case h_3 peer exchangeId pollRx responseTx peerState pollTx responseRx finalTx hstate =>
    split at hok
    · rename_i hsame
      obtain ⟨rfl, rfl⟩ := hsame
      exact handleFinal_shifts h hconsistent hstate hok
    · exact hignores hok
  case h_4 hstate =>
    split at hok
    · rename_i hsame
      obtain ⟨rfl, rfl⟩ := hsame
      exact handleReport_shifts h hconsistent hstate hok
    · exact hignores hok
  case h_5 => exact hignores hok

theorem handleFrame_shifts (h : Initiated ranger pair index) (hconsistent : Consistent ranger)
    {decoded : Except AirDecodeError DecodedAirFrame} {rxTime : UInt64}
    (hok : ranger.handleFrame decoded rxTime io = .ok (ranger', actions)) :
    Shifts pair index (monotonicUs io.recordedAt) ranger ranger'
      (actions.filterMap RadioAction.begun) := by
  have hignores : ranger.ignoreFrame io = .ok (ranger', actions) →
      Shifts pair index (monotonicUs io.recordedAt) ranger ranger'
        (actions.filterMap RadioAction.begun) := by
    intro hignore
    obtain ⟨rfl, rfl⟩ := ignoreFrame_ok hignore
    exact untouched_shifts _ rfl Iff.rfl rfl
  unfold handleFrame at hok
  split at hok
  · exact hignores hok
  · split at hok
    · obtain ⟨⟨recovered, failed⟩, hrecover, hok⟩ := Outcome.bind_ok hok
      obtain ⟨rfl, rfl⟩ := Prod.mk.inj (Outcome.pure_ok hok)
      have hshifts := recoverExchange_shifts h hrecover
      exact hshifts
    · split at hok
      · exact hignores hok
      · exact handleMessage_shifts h hconsistent hok

end Handlers

/-- Each event is one step of the radio loop of the pair, at the reading of the event. -/
theorem step_shifts (h : Initiated ranger pair index) (hconsistent : Consistent ranger)
    (hok : ranger.step event = .ok (ranger', actions)) :
    Shifts pair index event.nowUs ranger ranger' (actions.filterMap RadioAction.begun) := by
  cases event with
  | command command now =>
    obtain ⟨rfl, rfl⟩ := Prod.mk.inj (Except.ok.inj hok)
    cases command <;> exact untouched_shifts _ rfl Iff.rfl rfl
  | schedule io => exact serviceSchedule_shifts h hconsistent hok
  | txDone io => exact handleTxDone_shifts h hconsistent hok
  | received decoded rxTime io => exact handleFrame_shifts h hconsistent hok
  | receiveError io => exact recoverExchange_shifts h hok
  | deadline now io =>
    simp only [step] at hok
    split at hok
    · exact recoverExchange_shifts h hok
    · obtain ⟨rfl, rfl⟩ := Prod.mk.inj (Except.ok.inj hok)
      exact untouched_shifts _ rfl Iff.rfl rfl

/-- The radio loop of the pair, as the service has it. -/
structure Looped (pair : Pair) (index : ℕ) (ranger : Ranger) (loop : MacLoop) : Prop where
  mac : ranger.pairStates[index]? = some loop.mac
  attempting : loop.attempting = true ↔ ranger.activePair = some pair

/-- The attempts so far are a close period apart, and the last one is under way or keeps
the next from being due before. -/
structure Paced (pair : Pair) (index : ℕ) (ranger : Ranger) (clockUs : ℕ) (times : List UInt64) :
    Prop where
  loop : ∃ loop, Looped pair index ranger loop ∧ loop.Tracked ∧ loop.nowUs.toNat ≤ clockUs ∧
    ∀ last, times.getLast? = some last → loop.Begun last
  spaced : times.Pairwise fun earlier later =>
    earlier.toNat + closePeriodUs.toNat ≤ later.toNat

section Paced
variable {loop loop' : MacLoop} {nowUs : UInt64} {clockUs : ℕ} {times : List UInt64}
  {begun : List Pair}

/-- The loop after one more event that begins nothing. -/
theorem paced_event (hlooped : Looped pair index ranger' loop') {mac : MacEvent}
    (htracked : loop.Tracked) (hlast : ∀ last, times.getLast? = some last → loop.Begun last)
    (hspaced : times.Pairwise fun earlier later =>
      earlier.toNat + closePeriodUs.toNat ≤ later.toNat)
    (hbegins : mac.begins = false) (hsat : loop.Unsaturated mac)
    (hstep : loop.step mac = some loop') (hclock : mac.nowUs.toNat ≤ clockUs) :
    Paced pair index ranger' clockUs times := by
  obtain ⟨-, hnow⟩ := MacLoop.step_clock hstep
  refine ⟨⟨loop', hlooped, MacLoop.tracked_step _ _ _ htracked hstep, hnow ▸ hclock, ?_⟩, hspaced⟩
  intro last htimes
  exact MacLoop.begun_step last _ _ _ (hlast last htimes) ⟨hbegins, hsat⟩ hstep

/-- Attempts of other pairs add no time. -/
theorem times_of_notMem {others : List Pair} (hothers : pair ∉ others) :
    (times ++ (others.filter (· = pair)).map fun _ => nowUs) = times := by
  have hempty : others.filter (· = pair) = [] := by
    rw [List.filter_eq_nil_iff]
    intro other hmem heq
    exact hothers (of_decide_eq_true heq ▸ hmem)
  rw [hempty, List.map_nil, List.append_nil]

/-- A time a close period after the last of the spaced times is spaced as well. -/
theorem spaced_concat
    (hspaced : times.Pairwise fun earlier later =>
      earlier.toNat + closePeriodUs.toNat ≤ later.toNat)
    (hlast : ∀ last, times.getLast? = some last →
      last.toNat + closePeriodUs.toNat ≤ nowUs.toNat) :
    (times ++ [nowUs]).Pairwise fun earlier later =>
      earlier.toNat + closePeriodUs.toNat ≤ later.toNat := by
  rw [List.pairwise_append]
  refine ⟨hspaced, List.pairwise_singleton _ _, ?_⟩
  intro earlier hmem later hlater
  rw [List.mem_singleton.mp hlater]
  rcases List.eq_nil_or_concat times with rfl | ⟨front, last, rfl⟩
  · exact absurd hmem List.not_mem_nil
  · rw [List.concat_eq_append] at hmem hlast hspaced
    have hgap := hlast last (by simp)
    rcases List.mem_append.mp hmem with hmem | hmem
    · have hbefore := (List.pairwise_append.mp hspaced).2.2 earlier hmem last (by simp)
      omega
    · rw [List.mem_singleton.mp hmem]
      exact hgap

/-- An idle loop that is due begins an attempt, a close period after the last one. -/
theorem paced_begin (hmac : ranger'.pairStates[index]? =
      some ((loop.mac.expire nowUs).beginAttempt nowUs))
    (hactive : ranger'.activePair = some pair) (hlate : ¬ nowUs < loop.nowUs)
    (hresting : loop.attempting = false) (hdue : (loop.mac.expire nowUs).isDue nowUs = true)
    (htracked : loop.Tracked) (hlast : ∀ last, times.getLast? = some last → loop.Begun last)
    (hspaced : times.Pairwise fun earlier later =>
      earlier.toNat + closePeriodUs.toNat ≤ later.toNat) :
    Paced pair index ranger' nowUs.toNat (times ++ [nowUs]) := by
  have hexpire : loop.step (.expire nowUs) =
      some { loop with mac := loop.mac.expire nowUs, nowUs } := if_neg hlate
  have hbegin : MacLoop.step { loop with mac := loop.mac.expire nowUs, nowUs }
      (.beginAttempt nowUs) =
        some ⟨(loop.mac.expire nowUs).beginAttempt nowUs, nowUs, true⟩ := by
    simp [MacLoop.step, MacEvent.nowUs, hresting, hdue]
  obtain ⟨-, hnext, -⟩ := MacLoop.step_begin hbegin
  have hexpired := MacLoop.tracked_step _ _ _ htracked hexpire
  have hbegun := MacLoop.begun_of_step hexpired hbegin
  have hgap : ∀ last, times.getLast? = some last →
      last.toNat + closePeriodUs.toNat ≤ nowUs.toNat := by
    intro last htimes
    have hsat : loop.Unsaturated (.expire nowUs) := trivial
    have hended := (MacLoop.begun_step last _ _ _ (hlast last htimes) ⟨rfl, hsat⟩
      hexpire).ended hresting
    omega
  refine ⟨⟨_, ⟨hmac, iff_of_true rfl hactive⟩, hbegun.tracked, le_rfl, ?_⟩,
    spaced_concat hspaced hgap⟩
  intro last heq
  rw [List.getLast?_concat, Option.some.injEq] at heq
  exact heq ▸ hbegun

theorem paced_shift (h : Paced pair index ranger clockUs times) (hclock : clockUs ≤ nowUs.toNat)
    (hsize : nowUs.toNat + maxBackoffUs.toNat < UInt64.size)
    (hshift : Shifts pair index nowUs ranger ranger' begun) :
    Paced pair index ranger' nowUs.toNat
      (times ++ (begun.filter (· = pair)).map fun _ => nowUs) := by
  obtain ⟨⟨loop, hlooped, htracked, hnow, hlast⟩, hspaced⟩ := h
  have hlate : ¬ nowUs < loop.nowUs := by
    rw [UInt64.lt_iff_toNat_lt]
    omega
  cases hshift with
  | rests hstates hactive hbegun =>
    rw [times_of_notMem hbegun]
    exact ⟨⟨loop, ⟨hstates.trans hlooped.mac, hlooped.attempting.trans hactive.symm⟩, htracked,
      hnow.trans hclock, hlast⟩, hspaced⟩
  | expires hstates hactive hbegun =>
    rw [times_of_notMem hbegun]
    rw [hlooped.mac, Option.map_some] at hstates
    have hstep : loop.step (.expire nowUs) =
        some { loop with mac := loop.mac.expire nowUs, nowUs } := if_neg hlate
    have hsat : loop.Unsaturated (.expire nowUs) := trivial
    have hafter : Looped pair index ranger' { loop with mac := loop.mac.expire nowUs, nowUs } :=
      ⟨hstates, hlooped.attempting.trans hactive.symm⟩
    exact paced_event hafter htracked hlast hspaced rfl hsat hstep le_rfl
  | begins hstates hdue hidle hactive =>
    rw [hlooped.mac, Option.map_some] at hstates
    have hresting : loop.attempting = false := by
      rw [← Bool.not_eq_true, hlooped.attempting]
      exact hidle
    have htimes : (times ++ ([pair].filter (· = pair)).map fun _ => nowUs) = times ++ [nowUs] := by
      simp
    rw [htimes]
    exact paced_begin hstates hactive hlate hresting (hdue loop.mac hlooped.mac) htracked hlast
      hspaced
  | fails hstates hbefore hafter =>
    rw [times_of_notMem List.not_mem_nil]
    rw [hlooped.mac, Option.map_some] at hstates
    have hgoing := hlooped.attempting.mpr hbefore
    have hstep : loop.step (.recordFailure nowUs) =
        some { mac := loop.mac.recordFailure nowUs, nowUs, attempting := false } := by
      simp [MacLoop.step, MacEvent.nowUs, hlate, hgoing]
    have hperiod := loop.mac.periodUs_le_maxBackoff nowUs
    have hsat : loop.Unsaturated (.recordFailure nowUs) := by
      unfold MacLoop.Unsaturated
      omega
    exact paced_event ⟨hstates, by simp [hafter]⟩ htracked hlast hspaced rfl hsat hstep le_rfl
  | succeeds close hstates hbefore hafter =>
    rw [times_of_notMem List.not_mem_nil]
    rw [hlooped.mac, Option.map_some] at hstates
    have hgoing := hlooped.attempting.mpr hbefore
    have hstep : loop.step (.recordSuccess nowUs close) =
        some { mac := loop.mac.recordSuccess nowUs close, nowUs, attempting := false } := by
      simp [MacLoop.step, MacEvent.nowUs, hlate, hgoing]
    have hperiod := (loop.mac.recordSuccess nowUs close).periodUs_le_maxBackoff nowUs
    have hstart := (htracked.attempted hgoing).2
    have hsat : loop.Unsaturated (.recordSuccess nowUs close) := by
      unfold MacLoop.Unsaturated
      omega
    exact paced_event ⟨hstates, by simp [hafter]⟩ htracked hlast hspaced rfl hsat hstep le_rfl

end Paced

end Ranger

namespace TimedRanger

variable {timed timed' : TimedRanger} {event : RangerEvent}

theorem step_eq_some (h : timed.step event = some timed') :
    ∃ ranger actions, timed.ranger.step event = .ok (ranger, actions) ∧
      (∀ reading, event.readAt = some reading → timed.clock ≤ reading) ∧
      timed' = { ranger
                 clock := event.readAt.getD timed.clock
                 begun := timed.begun ++
                  (actions.filterMap RadioAction.begun).map (·, event.nowUs) } := by
  unfold step at h
  split at h
  · contradiction
  · rename_i hlate
    split at h
    · rename_i ranger actions hok
      refine ⟨ranger, actions, hok, fun reading hreading => ?_, (Option.some.inj h).symm⟩
      rw [hreading] at hlate
      simpa using hlate
    · contradiction

/-- The times of the attempts of one pair. -/
def timesOf (begun : List (Pair × UInt64)) (pair : Pair) : List UInt64 :=
  begun.filterMap fun attempt => if attempt.1 = pair then some attempt.2 else none

theorem timesOf_append (begun : List (Pair × UInt64)) (pair : Pair) (others : List Pair)
    (nowUs : UInt64) :
    timesOf (begun ++ others.map (·, nowUs)) pair =
      timesOf begun pair ++ (others.filter (· = pair)).map fun _ => nowUs := by
  rw [timesOf, List.filterMap_append]
  congr 1
  induction others with
  | nil => rfl
  | cons other others ih =>
    rw [List.map_cons, List.filterMap_cons, List.filter_cons]
    by_cases hsame : other = pair <;> simp [hsame, ih]

/-- What holds of the service while its clock is far from the end of its range. -/
structure Paces (config : RangingConfig) (timed : TimedRanger) : Prop where
  consistent : timed.ranger.Consistent
  configured : timed.ranger.config = config
  initiated : ∀ attempt ∈ timed.begun,
    attempt.1.initiator = config.address ∧ attempt.1 ∈ config.roster.pairs
  paced : ∀ pair index, timed.ranger.Initiated pair index →
    Ranger.Paced pair index timed.ranger (Ranger.monotonicUs timed.clock).toNat
      (timesOf timed.begun pair)

/-- The attempts a move begins are of pairs the local node initiates. -/
theorem begun_of_moves {ranger ranger' : Ranger} {heard : Option (DecodedAirFrame × UInt64)}
    {actions : List RadioAction} (hmoves : ranger.Moves heard ranger' actions) {pair : Pair}
    (hmem : pair ∈ actions.filterMap RadioAction.begun) :
    pair.initiator = ranger.config.address ∧ pair ∈ ranger.config.roster.pairs := by
  cases hmoves with
  | begins hbefore hpair hinitiator hafter =>
    obtain rfl := List.mem_singleton.mp hmem
    exact ⟨hinitiator, hpair⟩
  | abandons hreports hafter =>
    obtain ⟨action, haction, hbegun⟩ := List.mem_filterMap.mp hmem
    rcases List.mem_append.mp haction with haction | haction
    · obtain ⟨source, mode, rfl⟩ := hreports action haction
      contradiction
    · unfold Ranger.failures at haction
      split at haction
      · split_ifs at haction
        · rw [List.mem_singleton.mp haction] at hbegun
          contradiction
        · exact absurd haction List.not_mem_nil
      · exact absurd haction List.not_mem_nil
  | _ => exact absurd hmem List.not_mem_nil

/-- A command leaves the schedule alone. -/
theorem step_command {command : RadioCommand} {now : ℕ}
    (h : timed.step (.command command now) = some timed') :
    timed'.begun = timed.begun ∧ timed'.clock = timed.clock ∧
      timed'.ranger.pairStates = timed.ranger.pairStates ∧
      timed'.ranger.activePair = timed.ranger.activePair := by
  obtain ⟨ranger, actions, hok, -, rfl⟩ := step_eq_some h
  obtain ⟨rfl, rfl⟩ := Prod.mk.inj (Except.ok.inj hok)
  refine ⟨List.append_nil _, rfl, ?_⟩
  cases command <;> exact ⟨rfl, rfl⟩

theorem toNat_monotonicUs_le {earlier later : ℕ} (h : earlier ≤ later) :
    (Ranger.monotonicUs earlier).toNat ≤ (Ranger.monotonicUs later).toNat := by
  have hle : earlier / 1000 ≤ later / 1000 := Nat.div_le_div_right h
  have hsize : UInt64.size = 2 ^ 64 := rfl
  unfold Ranger.monotonicUs
  rw [UInt64.toNat_ofNat', UInt64.toNat_ofNat', Nat.mod_eq_of_lt, Nat.mod_eq_of_lt] <;> omega

theorem paces_step {config : RangingConfig} (h : Paces config timed)
    (hfar : (Ranger.monotonicUs timed'.clock).toNat + maxBackoffUs.toNat < UInt64.size)
    (hstep : timed.step event = some timed') : Paces config timed' := by
  obtain ⟨ranger, actions, hok, hclock, heq⟩ := step_eq_some hstep
  obtain ⟨hconfig, hmoves⟩ := Ranger.step_moves hok
  have hsame : timed'.ranger = ranger := by rw [heq]
  have hbegun : timed'.begun = timed.begun ++
      (actions.filterMap RadioAction.begun).map (·, event.nowUs) := by rw [heq]
  refine ⟨?_, ?_, ?_, ?_⟩
  · rw [hsame]
    exact Ranger.consistent_moves h.consistent hconfig hmoves
  · rw [hsame, hconfig, h.configured]
  · intro attempt hmem
    rw [hbegun] at hmem
    rcases List.mem_append.mp hmem with hmem | hmem
    · exact h.initiated attempt hmem
    · obtain ⟨pair, hpair, rfl⟩ := List.mem_map.mp hmem
      have hlocal := begun_of_moves hmoves hpair
      rwa [h.configured] at hlocal
  · intro pair index hinitiated
    rw [hsame] at hinitiated ⊢
    have hbefore := h.paced pair index (hinitiated.config hconfig.symm)
    rw [hbegun, timesOf_append]
    cases hread : event.readAt with
    | none =>
      cases event with
      | command command now =>
        obtain ⟨-, hkept, hstates, hactive⟩ := step_command hstep
        obtain ⟨rfl, rfl⟩ := Prod.mk.inj (Except.ok.inj hok)
        rw [hsame] at hstates hactive
        obtain ⟨⟨loop, hlooped, hrest⟩, hspaced⟩ := hbefore
        rw [hkept, List.filterMap_nil, List.filter_nil, List.map_nil, List.append_nil]
        exact ⟨⟨loop, ⟨by rw [hstates]; exact hlooped.mac, by rw [hactive]; exact hlooped.attempting⟩,
          hrest⟩, hspaced⟩
      | _ => contradiction
    | some reading =>
      have hnow : event.nowUs = Ranger.monotonicUs timed'.clock := by
        rw [heq, RangerEvent.nowUs, hread]
        rfl
      have hlater := toNat_monotonicUs_le (hclock reading hread)
      have hreading : timed'.clock = reading := by rw [heq, hread]; rfl
      rw [← hreading] at hlater
      have hshift := Ranger.step_shifts (hinitiated.config hconfig.symm) h.consistent hok
      rw [hnow] at hshift ⊢
      exact Ranger.paced_shift hbefore hlater hfar hshift

theorem paces_new (config : RangingConfig) (bootNonce : UInt32) :
    Paces config { ranger := Ranger.new config bootNonce } := by
  refine ⟨(Ranger.orderly_new config bootNonce).1, rfl,
    fun attempt hmem => absurd hmem List.not_mem_nil, ?_⟩
  intro pair index hinitiated
  have hlisted : config.roster.pairs[index]? = some pair :=
    pairIndex_eq_some.mp hinitiated.listed
  have hindex : index < maxPairs := by
    have hlength := config.roster.length_pairs_le
    have hlt := (List.getElem?_eq_some_iff.mp hlisted).1
    omega
  have hstate : (Ranger.new config bootNonce).pairStates[index]? =
      some ((PairMacState.new bootNonce).initializeMac 0 pair) := by
    simp only [Ranger.new, List.getElem?_map, List.getElem?_range hindex, Option.map_some, hlisted]
  refine ⟨⟨MacLoop.idle ((PairMacState.new bootNonce).initializeMac 0 pair) 0,
    ⟨hstate, by simp [MacLoop.idle, Ranger.new]⟩, MacLoop.tracked_idle rfl, Nat.zero_le _, ?_⟩, ?_⟩
  · intro last hlast
    contradiction
  · exact List.Pairwise.nil

theorem clock_le_of_step (h : timed.step event = some timed') : timed.clock ≤ timed'.clock := by
  obtain ⟨ranger, actions, -, hclock, rfl⟩ := step_eq_some h
  cases hread : event.readAt with
  | none => simp
  | some reading =>
    have hle := hclock reading hread
    simpa using hle

theorem paces_run {config : RangingConfig} {bootNonce : UInt32} {events : List RangerEvent}
    (hrun : run step { ranger := Ranger.new config bootNonce } events = some timed)
    (hfar : (Ranger.monotonicUs timed.clock).toNat + maxBackoffUs.toNat < UInt64.size) :
    Paces config timed := by
  refine run_invariant step (fun reached =>
    (Ranger.monotonicUs reached.clock).toNat + maxBackoffUs.toNat < UInt64.size →
      Paces config reached) ?_ (fun _ => paces_new config bootNonce) hrun hfar
  intro reached event next hreached hstep hnext
  refine paces_step (hreached ?_) hnext hstep
  have hle := toNat_monotonicUs_le (clock_le_of_step hstep)
  omega

/-- The attempts of one pair are a close period apart. -/
theorem Paces.spaced {config : RangingConfig} (h : Paces config timed) (pair : Pair) :
    (timesOf timed.begun pair).Pairwise fun earlier later =>
      earlier.toNat + closePeriodUs.toNat ≤ later.toNat := by
  by_cases hlocal : pair.initiator = config.address ∧ pair ∈ config.roster.pairs
  · obtain ⟨index, hindex⟩ := pairIndex_isSome hlocal.2
    refine (h.paced pair index ⟨?_, ?_⟩).spaced
    · rw [Ranger.roster, h.configured]
      exact hindex
    · rw [h.configured]
      exact hlocal.1
  · have hnone : timesOf timed.begun pair = [] := by
      rw [timesOf, List.filterMap_eq_nil_iff]
      intro attempt hmem
      refine if_neg fun hsame => hlocal ?_
      exact hsame ▸ h.initiated attempt hmem
    rw [hnone]
    exact List.Pairwise.nil

/-- Every attempt is to a peer of the configuration. -/
theorem Paces.responder_mem {config : RangingConfig} (h : Paces config timed)
    {attempt : Pair × UInt64} (hmem : attempt ∈ timed.begun) :
    attempt.1.responder ∈ config.peers := by
  obtain ⟨hinitiator, hlisted⟩ := h.initiated attempt hmem
  obtain ⟨-, hresponder, hlt⟩ := (FlightRoster.mem_pairs _ _).mp hlisted
  rw [FlightRoster.contains_new config.forms_roster] at hresponder
  exact hresponder.resolve_left fun hself =>
    NodeAddress.ne_of_lt hlt (hinitiator.trans hself.symm)

/-- In a window the attempts to one peer are bounded. -/
theorem Paces.countP_peer_le {config : RangingConfig} (h : Paces config timed)
    (peer : NodeAddress) (low high : ℕ) :
    timed.begun.countP (fun attempt => decide (attempt.1.responder = peer) &&
      decide (low ≤ attempt.2.toNat ∧ attempt.2.toNat ≤ high)) ≤
      (high - low) / closePeriodUs.toNat + 1 := by
  have hwindow := Grouping.length_le_of_apart (show 0 < closePeriodUs.toNat by decide) low high
    (((h.spaced ⟨config.address, peer⟩).map UInt64.toNat fun _ _ h => h).filter
      fun time => decide (low ≤ time ∧ time ≤ high)) (by simp)
  refine le_trans (le_of_eq ?_) hwindow
  rw [← List.countP_eq_length_filter, List.countP_map, timesOf, List.countP_filterMap]
  refine List.countP_congr fun attempt hmem => ?_
  have hpair : attempt.1 = ⟨config.address, peer⟩ ↔ attempt.1.responder = peer := by
    rw [← (h.initiated attempt hmem).1]
    constructor
    · intro heq
      rw [heq]
    · rintro rfl
      rfl
  by_cases hsame : attempt.1.responder = peer <;> simp [hpair, hsame]

/-- Over every run of the service on a clock that does not go back, the attempts of one
pair are a close period apart, and in a window the node sends a bounded number of Polls
to each peer. -/
theorem attempts_apart {config : RangingConfig} {bootNonce : UInt32} {events : List RangerEvent}
    (hrun : run step { ranger := Ranger.new config bootNonce } events = some timed)
    (hfar : timed.clock / 1000 + maxBackoffUs.toNat < UInt64.size) :
    (∀ pair, (timesOf timed.begun pair).Pairwise fun earlier later =>
      earlier.toNat + closePeriodUs.toNat ≤ later.toNat) ∧
    ∀ low high, timed.begun.countP (fun attempt => low ≤ attempt.2.toNat ∧ attempt.2.toNat ≤ high) ≤
      config.peers.length * ((high - low) / closePeriodUs.toNat + 1) := by
  have hpaces := paces_run hrun (by
    have hsize : UInt64.size = 2 ^ 64 := rfl
    unfold Ranger.monotonicUs
    rw [UInt64.toNat_ofNat', Nat.mod_eq_of_lt] <;> omega)
  refine ⟨hpaces.spaced, fun low high => ?_⟩
  have hkeys : ∀ attempt ∈ timed.begun, attempt.1.responder ∈ config.peers :=
    fun attempt hmem => hpaces.responder_mem hmem
  refine (Grouping.countP_le_sum hkeys).trans ?_
  calc _ ≤ config.peers.length • ((high - low) / closePeriodUs.toNat + 1) := by
        refine (List.sum_le_card_nsmul _ _ fun count hcount => ?_).trans (by rw [List.length_map])
        obtain ⟨peer, hpeer, rfl⟩ := List.mem_map.mp hcount
        exact hpaces.countP_peer_le peer low high
    _ = config.peers.length * ((high - low) / closePeriodUs.toNat + 1) := smul_eq_mul _ _

theorem attempts_apart_sample : ∃ timed,
    run step { ranger := Ranger.new Ranger.sampleConfig 7 } Ranger.sampleEvents = some timed ∧
      timed.begun = [(⟨.aircraft 0, .aircraft 1⟩, 200000), (⟨.aircraft 0, .aircraft 1⟩, 700000)] ∧
      timed.begun.countP (fun attempt => 0 ≤ attempt.2.toNat ∧ attempt.2.toNat ≤ 700000) ≤
        1 * ((700000 - 0) / closePeriodUs.toNat + 1) := by
  have hrun : (run step { ranger := Ranger.new Ranger.sampleConfig 7 } Ranger.sampleEvents).any
      (fun timed => decide (timed.clock = 700000000 ∧ timed.begun =
        [(⟨.aircraft 0, .aircraft 1⟩, 200000), (⟨.aircraft 0, .aircraft 1⟩, 700000)])) = true := by
    decide +kernel
  obtain ⟨timed, hfinal, hreached⟩ := (Option.any_eq_true _ _).mp hrun
  obtain ⟨hclock, hbegun⟩ := of_decide_eq_true hreached
  have hfar : timed.clock / 1000 + maxBackoffUs.toNat < UInt64.size := by
    rw [hclock]
    decide
  exact ⟨timed, hfinal, hbegun, (attempts_apart hfinal hfar).2 0 700000⟩

end TimedRanger

end Mission10.Uwb
