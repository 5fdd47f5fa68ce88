import Mission10.Library.Runs
import Mission10.Uwb.RangerMoves

/-!
# Runs of the ranging service

In every state the service reaches, a deadline is armed exactly outside the idle
state, and the active pair is the one the state ranges with. The scheduler sees
an orderly ledger: an attempt is begun only when none is open, and each begun
attempt is closed by one record. The ledger is a monitor of the actions; its
open attempt is the active pair when the local node initiates it.
-/
namespace Mission10.Uwb

open Runs

namespace ExchangeState

def isRanging : ExchangeState → Bool
  | idle | sendingFleetMode => false
  | _ => true

/-- The pair a state ranges with, the initiator first. -/
def pairAt (address : NodeAddress) : ExchangeState → Option Pair
  | sendingPoll peer _ _ | awaitResponse peer _ _ | sendingFinal peer _ _ _ _ _ _ _
  | awaitReport peer _ _ _ _ _ _ _ _ => some ⟨address, peer⟩
  | sendingResponse peer _ _ _ _ | awaitFinal peer _ _ _ _ | sendingReport peer _ =>
    some ⟨peer, address⟩
  | idle | sendingFleetMode => none

theorem pairAt_isSome (address : NodeAddress) (state : ExchangeState) :
    (state.pairAt address).isSome = state.isRanging := by
  cases state <;> rfl

end ExchangeState

namespace RadioAction

/-- The action records the outcome of an attempt of the pair. -/
def records (pair : Pair) : RadioAction → Bool
  | recordSuccess recorded _ _ => recorded = pair
  | recordFailure recorded => recorded = pair
  | _ => false

end RadioAction

/-- The attempt begun last: none yet, still open, or closed by a record. -/
inductive AttemptLedger where
  | unused
  | opened (pair : Pair)
  | closed (pair : Pair)
  deriving DecidableEq

namespace AttemptLedger

/-- The ledger after a record of a pair; a closed attempt takes no second one. -/
def record : AttemptLedger → Pair → Option AttemptLedger
  | unused, _ => some unused
  | opened pair, recorded => some (if recorded = pair then closed pair else opened pair)
  | closed pair, recorded => if recorded = pair then none else some (closed pair)

/-- The ledger after an action; an attempt begins only when none is open. -/
def step (ledger : AttemptLedger) : RadioAction → Option AttemptLedger
  | .beginAttempt pair =>
    match ledger with
    | opened _ => none
    | _ => some (opened pair)
  | .recordSuccess pair _ _ => ledger.record pair
  | .recordFailure pair => ledger.record pair
  | _ => some ledger

/-- The attempt that is open. -/
def current : AttemptLedger → Option Pair
  | opened pair => some pair
  | _ => none

/-- The pair of the attempt begun last. -/
def last : AttemptLedger → Option Pair
  | unused => none
  | opened pair => some pair
  | closed pair => some pair

theorem step_begin {ledger ledger' : AttemptLedger} {pair : Pair}
    (h : step ledger (.beginAttempt pair) = some ledger') :
    ledger.current = none ∧ ledger' = opened pair := by
  cases ledger with
  | opened other => simp [step] at h
  | unused | closed other => exact ⟨rfl, (Option.some.inj h).symm⟩

/-- Between two begins, the ledger counts the records of the first attempt. -/
theorem count_records {pair : Pair} {mid : List RadioAction} {ledger ledger' : AttemptLedger}
    (hmid : ∀ begun, RadioAction.beginAttempt begun ∉ mid)
    (hrun : run step ledger mid = some ledger') :
    (ledger = closed pair → ledger' = closed pair ∧ mid.countP (·.records pair) = 0) ∧
    (ledger = opened pair →
      (ledger' = opened pair ∧ mid.countP (·.records pair) = 0) ∨
      (ledger' = closed pair ∧ mid.countP (·.records pair) = 1)) := by
  induction mid generalizing ledger with
  | nil =>
    rw [run_nil, Option.some.injEq] at hrun
    subst hrun
    simp
  | cons action mid ih =>
    obtain ⟨next, hnext, hrest⟩ := run_cons_some step hrun
    have hmid' : ∀ begun, RadioAction.beginAttempt begun ∉ mid := fun begun hmem =>
      hmid begun (List.mem_cons_of_mem _ hmem)
    obtain ⟨hclosed, hopened⟩ := ih hmid' hrest
    have hrecord : ∀ recorded, ledger.record recorded = some next →
        action.records pair = decide (recorded = pair) →
        (ledger = closed pair → ledger' = closed pair ∧
          (action :: mid).countP (·.records pair) = 0) ∧
        (ledger = opened pair →
          (ledger' = opened pair ∧ (action :: mid).countP (·.records pair) = 0) ∨
          (ledger' = closed pair ∧ (action :: mid).countP (·.records pair) = 1)) := by
      intro recorded hstep hrecords
      rw [List.countP_cons, hrecords]
      constructor
      · rintro rfl
        by_cases hsame : recorded = pair
        · simp [record, hsame] at hstep
        · simp only [record, hsame, if_false, Option.some.injEq] at hstep
          simpa [hsame] using hclosed hstep.symm
      · rintro rfl
        by_cases hsame : recorded = pair
        · simp only [record, hsame, if_true, Option.some.injEq] at hstep
          simpa [hsame] using hclosed hstep.symm
        · simp only [record, hsame, if_false, Option.some.injEq] at hstep
          simpa [hsame] using hopened hstep.symm
    cases action with
    | beginAttempt begun => exact absurd List.mem_cons_self (hmid begun)
    | recordSuccess recorded exchangeId close => exact hrecord recorded hnext rfl
    | recordFailure recorded => exact hrecord recorded hnext rfl
    | evaluate | transmit | range | completed | fleetMode =>
      obtain rfl : ledger = next := Option.some.inj hnext
      rw [List.countP_cons_of_neg (by simp [RadioAction.records])]
      exact ⟨hclosed, hopened⟩

/-- In an orderly trace, one record of the first attempt lies between two
consecutive begins. -/
theorem one_record {trace front mid back : List RadioAction} {first second : Pair}
    {ledger : AttemptLedger} (hrun : run step unused trace = some ledger)
    (htrace : trace = front ++ .beginAttempt first :: mid ++ .beginAttempt second :: back)
    (hmid : ∀ begun, RadioAction.beginAttempt begun ∉ mid) :
    mid.countP (·.records first) = 1 := by
  subst htrace
  obtain ⟨before, hbefore, hafter⟩ := run_append_some step hrun
  obtain ⟨start, -, hattempt⟩ := run_append_some step hbefore
  obtain ⟨begun, hbegun, hmiddle⟩ := run_cons_some step hattempt
  obtain ⟨again, hagain, -⟩ := run_cons_some step hafter
  obtain ⟨-, rfl⟩ := step_begin hbegun
  obtain ⟨hnone, -⟩ := step_begin hagain
  rcases (count_records hmid hmiddle).2 rfl with ⟨rfl, -⟩ | ⟨-, hone⟩
  · simp [current] at hnone
  · exact hone

end AttemptLedger

namespace Ranger

/-- The deadline and the active pair are those of the state, the pair is ordered,
and a pair the local node initiates is one of the roster's. -/
structure Consistent (ranger : Ranger) : Prop where
  deadline : ranger.state = .idle ↔ ranger.deadline = none
  active : ranger.activePair = ranger.state.pairAt ranger.config.address
  ordered : ∀ pair, ranger.activePair = some pair → pair.initiator < pair.responder
  listed : ∀ pair, ranger.activePair = some pair → pair.initiator = ranger.config.address →
    pair ∈ ranger.roster.pairs

/-- The open attempt is the active pair when the local node initiates it, and the
attempt begun last is one the local node initiates. -/
structure Balanced (ranger : Ranger) (ledger : AttemptLedger) : Prop where
  current : ledger.current =
    ranger.activePair.filter (·.initiator = ranger.config.address)
  last : ∀ pair, ledger.last = some pair → pair.initiator = ranger.config.address

variable {ranger ranger' : Ranger} {heard : Option (DecodedAirFrame × UInt64)}
  {actions : List RadioAction}

theorem Advances.pairAt {state state' : ExchangeState} (h : Advances state state')
    (address : NodeAddress) :
    state'.pairAt address = state.pairAt address ∧ state ≠ .idle ∧ state' ≠ .idle := by
  cases h <;> exact ⟨rfl, by simp, by simp⟩

theorem exchange_eq {state : ExchangeState} {deadline : Option ℕ} {active : Option Pair}
    (h : ranger.exchange = (state, deadline, active)) :
    ranger.state = state ∧ ranger.deadline = deadline ∧ ranger.activePair = active := by
  simpa [exchange, Prod.ext_iff] using h

theorem consistent_of_exchange {state : ExchangeState} {deadline : Option ℕ} {active : Option Pair}
    (hconfig : ranger'.config = ranger.config)
    (hafter : ranger'.exchange = (state, deadline, active))
    (hdeadline : state = .idle ↔ deadline = none)
    (hactive : active = state.pairAt ranger.config.address)
    (hordered : ∀ pair, active = some pair → pair.initiator < pair.responder)
    (hlisted : ∀ pair, active = some pair → pair.initiator = ranger.config.address →
      pair ∈ ranger.roster.pairs) : Consistent ranger' := by
  obtain ⟨rfl, rfl, rfl⟩ := exchange_eq hafter
  refine ⟨hdeadline, hconfig ▸ hactive, hordered, fun pair hpair hinitiator => ?_⟩
  rw [roster, hconfig]
  exact hlisted pair hpair (hconfig ▸ hinitiator)

theorem consistent_moves (h : Consistent ranger) (hconfig : ranger'.config = ranger.config)
    (hmoves : Moves ranger heard ranger' actions) : Consistent ranger' := by
  have hidle : Consistent ranger' ∨ ranger'.exchange ≠ (.idle, none, none) := by
    by_cases hafter : ranger'.exchange = (.idle, none, none)
    · exact Or.inl (consistent_of_exchange hconfig hafter (by simp) rfl (by simp) (by simp))
    · exact Or.inr hafter
  cases hmoves with
  | stays hafter =>
    exact consistent_of_exchange hconfig hafter h.deadline h.active h.ordered h.listed
  | advances hbefore hafter =>
    obtain ⟨hsame, hold, hnew⟩ := hbefore.pairAt ranger.config.address
    have hsome : ranger.deadline ≠ none := fun hnone => hold (h.deadline.mpr hnone)
    exact consistent_of_exchange hconfig hafter (iff_of_false hnew hsome)
      (hsame ▸ h.active) h.ordered h.listed
  | abandons hreports hafter => exact hidle.resolve_right (fun hne => hne hafter)
  | reports hbefore hafter => exact hidle.resolve_right (fun hne => hne hafter)
  | completes hheard hmessage hbefore hpair hafter =>
    exact hidle.resolve_right (fun hne => hne hafter)
  | ceases hbefore hafter =>
    refine consistent_of_exchange hconfig hafter (by simp) ?_ h.ordered h.listed
    rw [h.active, hbefore]
    rfl
  | broadcasts hbefore hafter =>
    refine consistent_of_exchange hconfig hafter (by simp) ?_ h.ordered h.listed
    rw [h.active, hbefore]
    rfl
  | begins hbefore hpair hinitiator hafter =>
    obtain ⟨-, -, hordered⟩ := (FlightRoster.mem_pairs _ _).mp hpair
    refine consistent_of_exchange hconfig hafter (by simp) ?_ ?_ ?_
    · rw [ExchangeState.pairAt, ← hinitiator]
    · rintro pair' heq
      exact Option.some.inj heq ▸ hordered
    · rintro pair' heq -
      exact Option.some.inj heq ▸ hpair
  | admits hheard hmessage hbefore hsource hafter =>
    refine consistent_of_exchange hconfig hafter (by simp) rfl ?_ ?_
    · rintro pair heq
      exact Option.some.inj heq ▸ hsource
    · rintro pair heq hinitiator
      rw [← Option.some.inj heq] at hinitiator
      exact absurd hinitiator (NodeAddress.ne_of_lt hsource)
  | finalises hheard hmessage hbefore hafter =>
    refine consistent_of_exchange hconfig hafter (by simp) ?_ h.ordered h.listed
    rw [h.active, hbefore]
    rfl
  | evaluates hheard hmessage hbefore hpair hafter =>
    refine consistent_of_exchange hconfig hafter (by simp) ?_ h.ordered h.listed
    rw [h.active, hbefore]
    rfl

/-- The pair of an exchange the local node answers is not one it initiates. -/
theorem filter_answering {peer : NodeAddress} (h : Consistent ranger)
    (hactive : ranger.activePair = some ⟨peer, ranger.config.address⟩) :
    ranger.activePair.filter (·.initiator = ranger.config.address) = none := by
  have hlt := h.ordered _ hactive
  have hne : peer ≠ ranger.config.address := NodeAddress.ne_of_lt hlt
  simp [hactive, hne]

theorem balanced_of_active {ledger : AttemptLedger} (h : Balanced ranger ledger)
    (hconfig : ranger'.config = ranger.config)
    (hactive : ranger'.activePair.filter (·.initiator = ranger.config.address) =
      ranger.activePair.filter (·.initiator = ranger.config.address)) :
    Balanced ranger' ledger := by
  refine ⟨?_, ?_⟩
  · rw [hconfig, hactive]
    exact h.current
  · rw [hconfig]
    exact h.last

/-- A record of the open attempt closes it. -/
theorem balanced_record {ledger : AttemptLedger} {pair : Pair} (h : Balanced ranger ledger)
    (hconfig : ranger'.config = ranger.config) (hactive : ranger.activePair = some pair)
    (hlocal : pair.initiator = ranger.config.address) (hidle : ranger'.activePair = none) :
    ledger.record pair = some (.closed pair) ∧ Balanced ranger' (.closed pair) := by
  have hcurrent : ledger.current = some pair := by
    rw [h.current, hactive]
    simp [hlocal]
  cases ledger with
  | opened other =>
    obtain rfl : other = pair := Option.some.inj hcurrent
    refine ⟨by simp [AttemptLedger.record], by simp [AttemptLedger.current, hidle], ?_⟩
    rintro _ ⟨⟩
    rw [hconfig]
    exact hlocal
  | unused | closed other => simp [AttemptLedger.current] at hcurrent

theorem fleetMode_run {ledger : AttemptLedger} {reports : List RadioAction}
    (h : ∀ action ∈ reports, ∃ source mode, action = .fleetMode source mode) :
    run AttemptLedger.step ledger reports = some ledger := by
  induction reports with
  | nil => rfl
  | cons action reports ih =>
    obtain ⟨⟨source, mode, rfl⟩, hrest⟩ := List.forall_mem_cons.mp h
    rw [run_cons]
    exact ih hrest

theorem balanced_failures {ledger : AttemptLedger} (h : Consistent ranger)
    (hbalanced : Balanced ranger ledger) (hconfig : ranger'.config = ranger.config)
    (hidle : ranger'.activePair = none) :
    ∃ ledger', run AttemptLedger.step ledger ranger.failures = some ledger' ∧
      Balanced ranger' ledger' := by
  unfold failures
  cases hactive : ranger.activePair with
  | none => exact ⟨ledger, rfl, balanced_of_active hbalanced hconfig (by simp [hactive, hidle])⟩
  | some pair =>
    by_cases hlocal : pair.initiator = ranger.config.address
    · obtain ⟨index, hindex⟩ := pairIndex_isSome (h.listed pair hactive hlocal)
      obtain ⟨hrecord, hafter⟩ := balanced_record hbalanced hconfig hactive hlocal hidle
      refine ⟨.closed pair, ?_, hafter⟩
      simp [hlocal, hindex, run_cons, AttemptLedger.step, hrecord]
    · refine ⟨ledger, by simp [hlocal], balanced_of_active hbalanced hconfig ?_⟩
      rw [hactive, hidle]
      simp [Option.filter, hlocal]

/-- Each move leaves the ledger orderly and in step with the active pair. -/
theorem balanced_moves {ledger : AttemptLedger} (h : Consistent ranger)
    (hbalanced : Balanced ranger ledger) (hconfig : ranger'.config = ranger.config)
    (hmoves : Moves ranger heard ranger' actions) :
    ∃ ledger', run AttemptLedger.step ledger actions = some ledger' ∧ Balanced ranger' ledger' := by
  cases hmoves with
  | stays hafter =>
    obtain ⟨-, -, hactive⟩ := exchange_eq hafter
    exact ⟨ledger, rfl, balanced_of_active hbalanced hconfig (by rw [hactive])⟩
  | advances hbefore hafter | ceases hbefore hafter | broadcasts hbefore hafter
  | finalises hheard hmessage hbefore hafter =>
    obtain ⟨-, -, hactive⟩ := exchange_eq hafter
    exact ⟨ledger, rfl, balanced_of_active hbalanced hconfig (by rw [hactive])⟩
  | abandons hreports hafter =>
    obtain ⟨-, -, hactive⟩ := exchange_eq hafter
    obtain ⟨ledger', hrun, hafter'⟩ := balanced_failures h hbalanced hconfig hactive
    refine ⟨ledger', ?_, hafter'⟩
    rw [run_append, fleetMode_run hreports]
    exact hrun
  | reports hbefore hafter =>
    obtain ⟨-, -, hactive⟩ := exchange_eq hafter
    have hpair := h.active
    rw [hbefore] at hpair
    refine ⟨ledger, rfl, balanced_of_active hbalanced hconfig ?_⟩
    rw [hactive, filter_answering h hpair]
    rfl
  | @begins pair _ _ _ _ _ hbefore hpair hinitiator hafter =>
    obtain ⟨-, -, hactive⟩ := exchange_eq hafter
    have hnone := h.active
    rw [hbefore] at hnone
    have hcurrent := hbalanced.current
    rw [hnone] at hcurrent
    refine ⟨.opened pair, ?_, ?_, ?_⟩
    · cases ledger with
      | opened other => simp [AttemptLedger.current, ExchangeState.pairAt] at hcurrent
      | unused | closed other => rfl
    · rw [hactive, hconfig]
      simp [AttemptLedger.current, Option.filter, hinitiator]
    · rintro _ ⟨⟩
      rw [hconfig]
      exact hinitiator
  | admits hheard hmessage hbefore hsource hafter =>
    obtain ⟨-, -, hactive⟩ := exchange_eq hafter
    have hnone := h.active
    rw [hbefore] at hnone
    refine ⟨ledger, rfl, balanced_of_active hbalanced hconfig ?_⟩
    rw [hactive, hnone]
    simp [ExchangeState.pairAt, NodeAddress.ne_of_lt hsource]
  | @evaluates frame _ _ _ _ _ _ _ _ _ _ _ _ hheard hmessage hbefore hpair hafter =>
    obtain ⟨-, -, hactive⟩ := exchange_eq hafter
    have hold := h.active
    rw [hbefore] at hold
    have hlt := h.ordered _ hold
    rw [Pair.new_of_gt hlt, Option.some.injEq] at hpair
    subst hpair
    refine ⟨ledger, ?_, balanced_of_active hbalanced hconfig (by rw [hactive])⟩
    have hcurrent := hbalanced.current
    rw [filter_answering h hold] at hcurrent
    cases ledger with
    | unused => rfl
    | opened other => simp [AttemptLedger.current] at hcurrent
    | closed other =>
      have hother := hbalanced.last other rfl
      have hne : (⟨frame.source, ranger.config.address⟩ : Pair) ≠ other := by
        rintro rfl
        exact NodeAddress.ne_of_lt hlt hother
      simp [run_cons, AttemptLedger.step, AttemptLedger.record, hne]
  | completes hheard hmessage hbefore hpair hafter =>
    obtain ⟨-, -, hactive⟩ := exchange_eq hafter
    have hold := h.active
    rw [hbefore] at hold
    rw [Pair.new_of_lt (h.ordered _ hold), Option.some.injEq] at hpair
    subst hpair
    obtain ⟨hrecord, hafter'⟩ := balanced_record hbalanced hconfig hold rfl hactive
    refine ⟨.closed _, ?_, hafter'⟩
    simp [run_cons, AttemptLedger.step, hrecord]

/-- What holds of the service and everything it has done. -/
def Orderly (logged : Ranger × List RadioAction) : Prop :=
  Consistent logged.1 ∧ ∃ ledger, run AttemptLedger.step .unused logged.2 = some ledger ∧
    Balanced logged.1 ledger

theorem orderly_step (logged : Ranger × List RadioAction) (event : RangerEvent)
    (logged' : Ranger × List RadioAction) (h : Orderly logged)
    (hstep : loggedStep logged event = some logged') : Orderly logged' := by
  obtain ⟨hconsistent, ledger, hrun, hbalanced⟩ := h
  unfold loggedStep at hstep
  split at hstep
  · rename_i after actions hafter
    rw [Option.some.injEq] at hstep
    subst hstep
    obtain ⟨hconfig, hmoves⟩ := step_moves hafter
    obtain ⟨ledger', hrun', hbalanced'⟩ := balanced_moves hconsistent hbalanced hconfig hmoves
    refine ⟨consistent_moves hconsistent hconfig hmoves, ledger', ?_, hbalanced'⟩
    rw [run_append, hrun]
    exact hrun'
  · contradiction

theorem orderly_new (config : RangingConfig) (bootNonce : UInt32) :
    Orderly (new config bootNonce, []) :=
  ⟨⟨by simp [new], rfl, by simp [new], by simp [new]⟩, .unused, rfl, rfl, by simp [AttemptLedger.last]⟩

/-- In every state the service reaches, the state is idle exactly when no
deadline is armed and ranging exactly when a pair is active, and between two
consecutive begins of attempts lies one record of the first. -/
theorem run_orderly {config : RangingConfig} {bootNonce : UInt32} {events : List RangerEvent}
    {ranger : Ranger} {trace : List RadioAction}
    (hrun : run loggedStep (new config bootNonce, []) events = some (ranger, trace)) :
    (ranger.state = .idle ↔ ranger.deadline = none) ∧
    (ranger.activePair.isSome = true ↔ ranger.state.isRanging = true) ∧
    ∀ front mid back first second,
      trace = front ++ .beginAttempt first :: mid ++ .beginAttempt second :: back →
      (∀ begun, RadioAction.beginAttempt begun ∉ mid) →
        mid.countP (·.records first) = 1 := by
  obtain ⟨hconsistent, ledger, hledger, -⟩ :=
    run_invariant loggedStep Orderly orderly_step (orderly_new config bootNonce) hrun
  refine ⟨hconsistent.deadline, ?_, ?_⟩
  · rw [hconsistent.active, ExchangeState.pairAt_isSome]
  · intro front mid back first second htrace hmid
    exact AttemptLedger.one_record hledger htrace hmid

/-- Node 0 with one peer, node 1. -/
def sampleConfig : RangingConfig where
  address := .aircraft 0
  peers := [.aircraft 1]
  replyDelayUs := 2000
  responseTimeout := 5000000
  roster := ⟨[.aircraft 0, .aircraft 1], by decide, by decide⟩
  forms_roster := FlightRoster.new_of_sorted (by decide) (by decide)
  few_peers := by decide
  peers_nodup := by decide
  delay_positive := by decide
  timeout_bounds := by decide

/-- A radio that answers, with the clock at one instant. -/
def sampleIo (now : ℕ) : RangerIo where
  checkedAt := now
  fleetCheckedAt := now
  classifiedAt := now
  recordedAt := now
  sentAt := now
  repeatedAt := now
  plannedPoll := some 1000
  txTimestamp := some 1000
  transmitted := true
  armed := true
  hostBeforeUs := none
  radioNow := none
  hostAfterUs := none

/-- A Poll that is sent and not answered, and the next attempt. -/
def sampleEvents : List RangerEvent :=
  [.schedule (sampleIo 200000000), .txDone (sampleIo 201000000),
    .deadline 205000000 (sampleIo 205000000), .schedule (sampleIo 700000000)]

theorem run_orderly_sample : ∃ ranger trace,
    run loggedStep (new sampleConfig 7, []) sampleEvents = some (ranger, trace) ∧
      (ranger.activePair.isSome = true ↔ ranger.state.isRanging = true) := by
  have hrun : (run loggedStep (new sampleConfig 7, []) sampleEvents).isSome = true := by
    decide +kernel
  obtain ⟨⟨ranger, trace⟩, hfinal⟩ := Option.isSome_iff_exists.mp hrun
  obtain ⟨-, hactive, -⟩ := run_orderly hfinal
  exact ⟨ranger, trace, hfinal, hactive⟩

end Ranger

end Mission10.Uwb
