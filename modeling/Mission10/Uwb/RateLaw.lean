import Mission10.Library.Runs
import Mission10.Uwb.Scheduler

/-!
# The rate of attempts of one pair

The radio loop drives the scheduler state of a pair: it initialises and expires
it at will, begins an attempt only when one is due, and ends each attempt with
one record. The clock readings do not decrease. The law bounds the distance
between the starts of consecutive attempts and the due time after each record;
one record bounds the due time from the start of its attempt, and nothing moves
the due time until the next record.
-/
namespace Mission10.Uwb

open Runs

theorem toNat_max (a b : UInt64) : (max a b).toNat = max a.toNat b.toNat := by
  have hdef : max a b = if a ≤ b then b else a := rfl
  rw [hdef]
  split
  · rename_i h
    rw [max_eq_right (UInt64.le_iff_toNat_le.mp h)]
  · rename_i h
    rw [UInt64.le_iff_toNat_le] at h
    omega

theorem toNat_min_le (a b : UInt64) : (min a b).toNat ≤ b.toNat := by
  have hdef : min a b = if a ≤ b then a else b := rfl
  rw [hdef]
  split
  · rename_i h
    exact UInt64.le_iff_toNat_le.mp h
  · exact le_rfl

theorem toNat_mod_succ_le (a b : UInt64) : (a % (b + 1)).toNat ≤ b.toNat := by
  rw [UInt64.toNat_mod, UInt64.toNat_add, UInt64.toNat_one]
  rcases Nat.lt_or_ge (b.toNat + 1) (2 ^ 64) with hlt | hge
  · rw [Nat.mod_eq_of_lt hlt]
    exact Nat.le_of_lt_succ (Nat.mod_lt _ (Nat.succ_pos _))
  · have hb := b.toNat_lt
    have ha := a.toNat_lt
    have hmax : b.toNat + 1 = 2 ^ 64 := by omega
    rw [hmax, Nat.mod_self, Nat.mod_zero]
    omega

/-- What the radio loop does to one pair, with the clock reading it does it at. -/
inductive MacEvent where
  | initializeMac (nowUs : UInt64) (pair : Pair)
  | beginAttempt (nowUs : UInt64)
  | expire (nowUs : UInt64)
  | recordSuccess (nowUs : UInt64) (close : Bool)
  | recordFailure (nowUs : UInt64)
  deriving DecidableEq

namespace MacEvent

def nowUs : MacEvent → UInt64
  | initializeMac nowUs _ => nowUs
  | beginAttempt nowUs => nowUs
  | expire nowUs => nowUs
  | recordSuccess nowUs _ => nowUs
  | recordFailure nowUs => nowUs

/-- The event ends an attempt. -/
def completes : MacEvent → Bool
  | recordSuccess _ _ => true
  | recordFailure _ => true
  | _ => false

def begins : MacEvent → Bool
  | beginAttempt _ => true
  | _ => false

end MacEvent

/-- A pair's scheduler state with the last clock reading and whether an attempt
is under way. -/
structure MacLoop where
  mac : PairMacState
  nowUs : UInt64
  attempting : Bool := false
  deriving DecidableEq

namespace MacLoop

def step (loop : MacLoop) (event : MacEvent) : Option MacLoop :=
  if event.nowUs < loop.nowUs then none
  else match event with
    | .initializeMac nowUs pair =>
      some { loop with mac := loop.mac.initializeMac nowUs pair, nowUs }
    | .beginAttempt nowUs =>
      if !loop.attempting && loop.mac.isDue nowUs then
        some { mac := loop.mac.beginAttempt nowUs, nowUs, attempting := true }
      else none
    | .expire nowUs => some { loop with mac := loop.mac.expire nowUs, nowUs }
    | .recordSuccess nowUs close =>
      if loop.attempting then
        some { mac := loop.mac.recordSuccess nowUs close, nowUs, attempting := false }
      else none
    | .recordFailure nowUs =>
      if loop.attempting then
        some { mac := loop.mac.recordFailure nowUs, nowUs, attempting := false }
      else none

/-- The time from which a record counts its period does not carry the sum past
the last clock value. -/
def Unsaturated (loop : MacLoop) : MacEvent → Prop
  | .recordSuccess nowUs close =>
    loop.mac.lastAttemptUs.toNat + ((loop.mac.recordSuccess nowUs close).periodUs nowUs).toNat <
      UInt64.size
  | .recordFailure nowUs => nowUs.toNat + (loop.mac.periodUs nowUs).toNat < UInt64.size
  | _ => True

instance (loop : MacLoop) (event : MacEvent) : Decidable (loop.Unsaturated event) := by
  cases event <;> unfold Unsaturated <;> infer_instance

end MacLoop

namespace PairMacState

theorem periodUs_eq (state : PairMacState) (nowUs : UInt64) :
    state.periodUs nowUs = if state.isClose nowUs then closePeriodUs else farPeriodUs := rfl

theorem closePeriod_le_periodUs (state : PairMacState) (nowUs : UInt64) :
    closePeriodUs.toNat ≤ (state.periodUs nowUs).toNat := by
  rw [periodUs_eq]
  split <;> decide

theorem periodUs_le_maxBackoff (state : PairMacState) (nowUs : UInt64) :
    (state.periodUs nowUs).toNat ≤ maxBackoffUs.toNat := by
  rw [periodUs_eq]
  split <;> decide

theorem periodUs_far {state : PairMacState} {nowUs : UInt64} (h : state.isClose nowUs = false) :
    state.periodUs nowUs = farPeriodUs := by
  rw [periodUs_eq, h]
  rfl

theorem initializeMac_eq {state : PairMacState} (nowUs : UInt64) (pair : Pair)
    (h : state.initialized = true) : state.initializeMac nowUs pair = state := by
  rw [initializeMac, if_pos h]

@[simp] theorem expire_nextDueUs (state : PairMacState) (nowUs : UInt64) :
    (state.expire nowUs).nextDueUs = state.nextDueUs := by
  unfold expire
  split <;> rfl

@[simp] theorem expire_lastAttemptUs (state : PairMacState) (nowUs : UInt64) :
    (state.expire nowUs).lastAttemptUs = state.lastAttemptUs := by
  unfold expire
  split <;> rfl

@[simp] theorem expire_attempted (state : PairMacState) (nowUs : UInt64) :
    (state.expire nowUs).attempted = state.attempted := by
  unfold expire
  split <;> rfl

@[simp] theorem expire_initialized (state : PairMacState) (nowUs : UInt64) :
    (state.expire nowUs).initialized = state.initialized := by
  unfold expire
  split <;> rfl

@[simp] theorem recordSuccess_initialized (state : PairMacState) (nowUs : UInt64) (close : Bool) :
    (state.recordSuccess nowUs close).initialized = state.initialized := rfl

/-- After a success the pair is close exactly when the range was. -/
theorem recordSuccess_isClose (state : PairMacState) (nowUs : UInt64) (close : Bool) :
    (state.recordSuccess nowUs close).isClose nowUs = close := by
  cases close with
  | false => rfl
  | true =>
    have hsum := toNat_saturatingAdd nowUs closeExpiryUs
    have hexpiry : closeExpiryUs.toNat = 300000 := rfl
    have hsize : UInt64.size = 2 ^ 64 := rfl
    have hnow := nowUs.toNat_lt
    have hne : saturatingAdd nowUs closeExpiryUs ≠ 0 := by
      intro hzero
      rw [hzero, UInt64.toNat_zero] at hsum
      omega
    have hle : nowUs ≤ saturatingAdd nowUs closeExpiryUs := by
      rw [UInt64.le_iff_toNat_le]
      omega
    simp [isClose, recordSuccess, hne, hle]

/-- The period counted after a success is that of the recorded range. -/
theorem recordSuccess_periodUs (state : PairMacState) (nowUs : UInt64) (close : Bool) :
    (state.recordSuccess nowUs close).periodUs nowUs =
      if close then closePeriodUs else farPeriodUs := by
  rw [periodUs_eq, recordSuccess_isClose]

/-- A success of a begun attempt counts the period from the attempt's start, and
is never due before it is recorded. -/
theorem recordSuccess_nextDueUs {state : PairMacState} (nowUs : UInt64) (close : Bool)
    (h : state.attempted = true) :
    (state.recordSuccess nowUs close).nextDueUs.toNat =
      max (min (state.lastAttemptUs.toNat +
        ((state.recordSuccess nowUs close).periodUs nowUs).toNat) (UInt64.size - 1))
        nowUs.toNat := by
  have hdue : (state.recordSuccess nowUs close).nextDueUs =
      max (saturatingAdd state.lastAttemptUs
        ((state.recordSuccess nowUs close).periodUs nowUs)) nowUs := by
    simp only [recordSuccess, h, if_true]
    rfl
  rw [hdue, toNat_max, toNat_saturatingAdd]

/-- A failure moves the streak and the draw, and is due one period and a draw of
at most the window's width later. -/
theorem recordFailure_eq (state : PairMacState) (nowUs : UInt64) :
    ∃ (failures : UInt8) (upper : UInt64) (drawn : UInt32) (extra : UInt64),
      upper.toNat ≤ maxBackoffUs.toNat ∧
      extra.toNat ≤ (saturatingSub upper (state.periodUs nowUs)).toNat ∧
      state.recordFailure nowUs = { state with
        consecutiveFailures := failures
        randomState := drawn
        nextDueUs := saturatingAdd (saturatingAdd nowUs (state.periodUs nowUs)) extra } := by
  unfold recordFailure
  dsimp only
  generalize hfailures : (if state.consecutiveFailures = 255 then (255 : UInt8)
    else state.consecutiveFailures + 1) = failures
  have hperiod : ({ state with consecutiveFailures := failures } : PairMacState).periodUs nowUs =
      state.periodUs nowUs := rfl
  rw [hperiod]
  generalize hupper : min (saturatingMul (state.periodUs nowUs)
    ((1 : UInt64) <<< (min failures 3).toUInt64)) maxBackoffUs = upper
  have hle : upper.toNat ≤ maxBackoffUs.toNat := by
    rw [← hupper]
    exact toNat_min_le _ _
  by_cases hwidth : saturatingSub upper (state.periodUs nowUs) = 0
  · refine ⟨failures, upper, state.randomState, 0, hle, Nat.zero_le _, ?_⟩
    rw [if_pos hwidth]
  · refine ⟨failures, upper, ({ state with consecutiveFailures := failures }).random.2,
      ({ state with consecutiveFailures := failures }).random.2.toUInt64 %
        (saturatingSub upper (state.periodUs nowUs) + 1), hle, toNat_mod_succ_le _ _, ?_⟩
    rw [if_neg hwidth]
    rfl

theorem recordFailure_isClose (state : PairMacState) (nowUs laterUs : UInt64) :
    (state.recordFailure nowUs).isClose laterUs = state.isClose laterUs := by
  obtain ⟨failures, upper, drawn, extra, -, -, heq⟩ := recordFailure_eq state nowUs
  rw [heq]
  rfl

theorem recordFailure_periodUs (state : PairMacState) (nowUs laterUs : UInt64) :
    (state.recordFailure nowUs).periodUs laterUs = state.periodUs laterUs := by
  rw [periodUs_eq, periodUs_eq, recordFailure_isClose]

@[simp] theorem recordFailure_initialized (state : PairMacState) (nowUs : UInt64) :
    (state.recordFailure nowUs).initialized = state.initialized := by
  obtain ⟨failures, upper, drawn, extra, -, -, heq⟩ := recordFailure_eq state nowUs
  rw [heq]

/-- Whatever the streak of failures, the retry is drawn from a window that
starts one period after the failure and ends with the longest backoff. -/
theorem recordFailure_nextDueUs (state : PairMacState) (nowUs : UInt64) :
    ∃ extra : ℕ, extra ≤ maxBackoffUs.toNat - (state.periodUs nowUs).toNat ∧
      (state.recordFailure nowUs).nextDueUs.toNat =
        min (nowUs.toNat + (state.periodUs nowUs).toNat + extra) (UInt64.size - 1) := by
  obtain ⟨failures, upper, drawn, extra, hupper, hextra, heq⟩ := recordFailure_eq state nowUs
  have hwidth := toNat_saturatingSub upper (state.periodUs nowUs)
  refine ⟨extra.toNat, by omega, ?_⟩
  rw [heq, toNat_saturatingAdd, toNat_saturatingAdd]
  omega

end PairMacState

namespace MacLoop

/-- The loop before its first attempt. -/
def idle (mac : PairMacState) (nowUs : UInt64) : MacLoop := { mac, nowUs }

theorem step_clock {loop loop' : MacLoop} {event : MacEvent} (h : step loop event = some loop') :
    loop.nowUs.toNat ≤ event.nowUs.toNat ∧ loop'.nowUs = event.nowUs := by
  unfold step at h
  split at h
  · contradiction
  · rename_i hlt
    rw [UInt64.lt_iff_toNat_lt] at hlt
    refine ⟨by omega, ?_⟩
    cases event <;> dsimp only at h
    case initializeMac | expire =>
      rw [Option.some.injEq] at h
      rw [← h]
      rfl
    all_goals
      split at h
      · rw [Option.some.injEq] at h
        rw [← h]
        rfl
      · contradiction

theorem step_begin {loop loop' : MacLoop} {nowUs : UInt64}
    (h : step loop (.beginAttempt nowUs) = some loop') :
    loop.attempting = false ∧ loop.mac.nextDueUs.toNat ≤ nowUs.toNat ∧
      loop' = { mac := loop.mac.beginAttempt nowUs, nowUs, attempting := true } := by
  unfold step at h
  split at h
  · contradiction
  · dsimp only at h
    split at h
    · rename_i hdue
      simp only [Bool.and_eq_true, Bool.not_eq_true', PairMacState.isDue, decide_eq_true_eq] at hdue
      obtain ⟨hattempting, -, hnext⟩ := hdue
      rw [Option.some.injEq] at h
      exact ⟨hattempting, UInt64.le_iff_toNat_le.mp hnext, h.symm⟩
    · contradiction

theorem step_success {loop loop' : MacLoop} {nowUs : UInt64} {close : Bool}
    (h : step loop (.recordSuccess nowUs close) = some loop') :
    loop.attempting = true ∧
      loop' = { mac := loop.mac.recordSuccess nowUs close, nowUs, attempting := false } := by
  unfold step at h
  split at h
  · contradiction
  · dsimp only at h
    split at h
    · rename_i hattempting
      rw [Option.some.injEq] at h
      exact ⟨hattempting, h.symm⟩
    · contradiction

theorem step_failure {loop loop' : MacLoop} {nowUs : UInt64}
    (h : step loop (.recordFailure nowUs) = some loop') :
    loop.attempting = true ∧
      loop' = { mac := loop.mac.recordFailure nowUs, nowUs, attempting := false } := by
  unfold step at h
  split at h
  · contradiction
  · dsimp only at h
    split at h
    · rename_i hattempting
      rw [Option.some.injEq] at h
      exact ⟨hattempting, h.symm⟩
    · contradiction

/-- Initialising again and expiring move neither the due time nor the attempt. -/
theorem step_frame {loop loop' : MacLoop} {event : MacEvent} (h : step loop event = some loop')
    (hinit : loop.mac.initialized = true) (hbegins : event.begins = false)
    (hcompletes : event.completes = false) :
    loop'.attempting = loop.attempting ∧ loop'.mac.initialized = true ∧
      loop'.mac.attempted = loop.mac.attempted ∧
      loop'.mac.lastAttemptUs = loop.mac.lastAttemptUs ∧
      loop'.mac.nextDueUs = loop.mac.nextDueUs := by
  unfold step at h
  split at h
  · contradiction
  · cases event with
    | initializeMac nowUs pair =>
      simp only [PairMacState.initializeMac_eq nowUs pair hinit, Option.some.injEq] at h
      subst h
      exact ⟨rfl, hinit, rfl, rfl, rfl⟩
    | expire nowUs =>
      simp only [Option.some.injEq] at h
      subst h
      simp [hinit]
    | beginAttempt nowUs => simp [MacEvent.begins] at hbegins
    | recordSuccess nowUs close => simp [MacEvent.completes] at hcompletes
    | recordFailure nowUs => simp [MacEvent.completes] at hcompletes

/-- The pair is initialised, and an attempt under way is the one begun last. -/
structure Tracked (loop : MacLoop) : Prop where
  initialized : loop.mac.initialized = true
  attempted : loop.attempting = true →
    loop.mac.attempted = true ∧ loop.mac.lastAttemptUs.toNat ≤ loop.nowUs.toNat

theorem tracked_step (loop : MacLoop) (event : MacEvent) (loop' : MacLoop) (h : Tracked loop)
    (hstep : step loop event = some loop') : Tracked loop' := by
  obtain ⟨hclock, hnow⟩ := step_clock hstep
  cases event with
  | beginAttempt nowUs =>
    obtain ⟨-, -, rfl⟩ := step_begin hstep
    exact ⟨h.initialized, fun _ => ⟨rfl, le_rfl⟩⟩
  | recordSuccess nowUs close =>
    obtain ⟨-, rfl⟩ := step_success hstep
    exact ⟨by simp [h.initialized], by simp⟩
  | recordFailure nowUs =>
    obtain ⟨-, rfl⟩ := step_failure hstep
    exact ⟨by simp [h.initialized], by simp⟩
  | initializeMac nowUs pair | expire nowUs =>
    obtain ⟨hattempting, hinit, hattempted, hlast, -⟩ := step_frame hstep h.initialized rfl rfl
    refine ⟨hinit, fun hgoing => ?_⟩
    rw [hattempting] at hgoing
    obtain ⟨hbegun, hle⟩ := h.attempted hgoing
    rw [hattempted, hlast, hnow]
    exact ⟨hbegun, hle.trans hclock⟩

/-- A record makes the pair due one period after the start of its attempt. -/
theorem record_due {loop loop' : MacLoop} {record : MacEvent} (h : Tracked loop)
    (hsat : loop.Unsaturated record) (hcompletes : record.completes = true)
    (hstep : step loop record = some loop') :
    loop.attempting = true ∧ loop'.attempting = false ∧
      loop.mac.lastAttemptUs.toNat + (loop'.mac.periodUs record.nowUs).toNat ≤
        loop'.mac.nextDueUs.toNat := by
  obtain ⟨hclock, hnow⟩ := step_clock hstep
  cases record with
  | recordSuccess nowUs close =>
    obtain ⟨hattempting, rfl⟩ := step_success hstep
    obtain ⟨hattempted, hle⟩ := h.attempted hattempting
    refine ⟨hattempting, rfl, ?_⟩
    rw [PairMacState.recordSuccess_nextDueUs nowUs close hattempted]
    unfold Unsaturated at hsat
    dsimp only [MacEvent.nowUs]
    omega
  | recordFailure nowUs =>
    obtain ⟨hattempting, rfl⟩ := step_failure hstep
    obtain ⟨hattempted, hle⟩ := h.attempted hattempting
    obtain ⟨extra, -, hdue⟩ := PairMacState.recordFailure_nextDueUs loop.mac nowUs
    refine ⟨hattempting, rfl, ?_⟩
    unfold Unsaturated at hsat
    dsimp only [MacEvent.nowUs] at hclock ⊢
    rw [hdue, PairMacState.recordFailure_periodUs]
    omega
  | initializeMac nowUs pair | expire nowUs | beginAttempt nowUs =>
    simp [MacEvent.completes] at hcompletes

/-- No attempt is under way and the next is not due before `dueUs`. -/
structure Rested (dueUs : ℕ) (loop : MacLoop) : Prop where
  initialized : loop.mac.initialized = true
  resting : loop.attempting = false
  due : dueUs ≤ loop.mac.nextDueUs.toNat

theorem rested_step (dueUs : ℕ) (loop : MacLoop) (event : MacEvent) (loop' : MacLoop)
    (h : Rested dueUs loop) (hbegins : event.begins = false)
    (hstep : step loop event = some loop') : Rested dueUs loop' := by
  cases event with
  | beginAttempt nowUs => simp [MacEvent.begins] at hbegins
  | recordSuccess nowUs close =>
    obtain ⟨hattempting, -⟩ := step_success hstep
    simp [h.resting] at hattempting
  | recordFailure nowUs =>
    obtain ⟨hattempting, -⟩ := step_failure hstep
    simp [h.resting] at hattempting
  | initializeMac nowUs pair | expire nowUs =>
    obtain ⟨hattempting, hinit, -, -, hdue⟩ := step_frame hstep h.initialized rfl rfl
    exact ⟨hinit, hattempting.trans h.resting, hdue ▸ h.due⟩

/-- The attempt begun at `startUs` is under way, or the next one is not due
before the close period has passed since then. -/
structure Begun (startUs : UInt64) (loop : MacLoop) : Prop where
  tracked : Tracked loop
  ongoing : loop.attempting = true → loop.mac.lastAttemptUs = startUs
  ended : loop.attempting = false →
    startUs.toNat + closePeriodUs.toNat ≤ loop.mac.nextDueUs.toNat

theorem begun_step (startUs : UInt64) (loop : MacLoop) (event : MacEvent) (loop' : MacLoop)
    (h : Begun startUs loop) (hevent : event.begins = false ∧ loop.Unsaturated event)
    (hstep : step loop event = some loop') : Begun startUs loop' := by
  obtain ⟨hbegins, hsat⟩ := hevent
  have htracked := tracked_step loop event loop' h.tracked hstep
  cases hcompletes : event.completes with
  | true =>
    obtain ⟨hgoing, hdone, hdue⟩ := record_due h.tracked hsat hcompletes hstep
    have hperiod := loop'.mac.closePeriod_le_periodUs event.nowUs
    refine ⟨htracked, by simp [hdone], fun _ => ?_⟩
    rw [h.ongoing hgoing] at hdue
    omega
  | false =>
    obtain ⟨hattempting, -, -, hlast, hdue⟩ :=
      step_frame hstep h.tracked.initialized hbegins hcompletes
    refine ⟨htracked, fun hgoing => ?_, fun hrest => ?_⟩
    · rw [hlast]
      exact h.ongoing (hattempting ▸ hgoing)
    · rw [hdue]
      exact h.ended (hattempting ▸ hrest)

/-- The state right after an attempt begins. -/
theorem begun_of_step {loop loop' : MacLoop} {nowUs : UInt64} (h : Tracked loop)
    (hstep : step loop (.beginAttempt nowUs) = some loop') : Begun nowUs loop' := by
  have htracked := tracked_step loop _ loop' h hstep
  obtain ⟨-, -, rfl⟩ := step_begin hstep
  exact ⟨htracked, fun _ => rfl, by simp⟩

theorem begun_run {startUs : UInt64} {loop loop' : MacLoop} {mid : List MacEvent}
    (h : Begun startUs loop) (hsat : Along step Unsaturated loop mid)
    (hbegins : ∀ event ∈ mid, event.begins = false) (hrun : run step loop mid = some loop') :
    Begun startUs loop' :=
  run_invariant_along step (Begun startUs) _ (begun_step startUs) h (hsat.and_mem step hbegins) hrun

theorem rested_run {dueUs : ℕ} {loop loop' : MacLoop} {mid : List MacEvent}
    (h : Rested dueUs loop) (hbegins : ∀ event ∈ mid, event.begins = false)
    (hrun : run step loop mid = some loop') : Rested dueUs loop' :=
  run_invariant_along step (Rested dueUs) _ (rested_step dueUs) h (along_of_mem step hbegins) hrun

section Law

variable {mac : PairMacState} {nowUs : UInt64} {events : List MacEvent} {final : MacLoop}

theorem tracked_idle (hinit : mac.initialized = true) : Tracked (idle mac nowUs) :=
  ⟨hinit, by simp [idle]⟩

/-- The rate law of one pair. Between two attempts with none between them lies at
least the close period, and the far period when the record of the earlier one
left the pair not close; a success is due again within its period, and a failure
between one period and the longest backoff later. -/
theorem rate_law (hinit : mac.initialized = true)
    (hrun : run step (idle mac nowUs) events = some final)
    (hsat : Along step Unsaturated (idle mac nowUs) events) :
    (∀ front mid back t₁ t₂,
      events = front ++ .beginAttempt t₁ :: mid ++ .beginAttempt t₂ :: back →
      (∀ event ∈ mid, event.begins = false) →
        t₁.toNat + closePeriodUs.toNat ≤ t₂.toNat ∧
        ∀ done record rest completed, mid = done ++ record :: rest → record.completes = true →
          run step (idle mac nowUs) (front ++ .beginAttempt t₁ :: done ++ [record]) =
            some completed →
          completed.mac.isClose record.nowUs = false →
            t₁.toNat + farPeriodUs.toNat ≤ t₂.toNat) ∧
    (∀ front t close back completed, events = front ++ .recordSuccess t close :: back →
      run step (idle mac nowUs) (front ++ [.recordSuccess t close]) = some completed →
        completed.mac.nextDueUs.toNat ≤
          t.toNat + (if close then closePeriodUs else farPeriodUs).toNat) ∧
    ∀ front t back completed, events = front ++ .recordFailure t :: back →
      run step (idle mac nowUs) (front ++ [.recordFailure t]) = some completed →
        t.toNat + (completed.mac.periodUs t).toNat ≤ completed.mac.nextDueUs.toNat ∧
        completed.mac.nextDueUs.toNat ≤ t.toNat + maxBackoffUs.toNat := by
  have htracked : ∀ {front m}, run step (idle mac nowUs) front = some m → Tracked m :=
    fun h => run_invariant step Tracked tracked_step (tracked_idle hinit) h
  refine ⟨?_, ?_, ?_⟩
  · rintro front mid back t₁ t₂ rfl hbegins
    obtain ⟨before, hbefore, hlast⟩ := run_append_some step hrun
    obtain ⟨m₀, hm₀, hattempt⟩ := run_append_some step hbefore
    obtain ⟨m₁, hm₁, hmid⟩ := run_cons_some step hattempt
    obtain ⟨m₂, hm₂, -⟩ := run_cons_some step hlast
    obtain ⟨hrest, hdue, -⟩ := step_begin hm₂
    have halong := ((along_append step hm₀).mp ((along_append step hbefore).mp hsat).1).2
    have hmidsat := ((along_cons step hm₁).mp halong).2
    have hbegun := begun_of_step (htracked hm₀) hm₁
    refine ⟨((begun_run hbegun hmidsat hbegins hmid).ended hrest).trans hdue, ?_⟩
    rintro done record rest completed rfl hcompletes hcompleted hfar
    obtain ⟨m₃, hm₃, hrecorded⟩ := run_append_some step hmid
    obtain ⟨m₄, hm₄, hafter⟩ := run_cons_some step hrecorded
    have hsame : run step (idle mac nowUs) (front ++ .beginAttempt t₁ :: done ++ [record]) =
        some m₄ := by
      rw [run_append, run_append, hm₀]
      simp [run_cons, hm₁, hm₃, hm₄]
    rw [hsame, Option.some.injEq] at hcompleted
    subst hcompleted
    obtain ⟨hdone, hdonesat⟩ := (along_append step hm₃).mp hmidsat
    have hbegun₃ := begun_run hbegun hdone
      (fun event hmem => hbegins event (List.mem_append_left _ hmem)) hm₃
    obtain ⟨hgoing, hended, hperiod⟩ := record_due hbegun₃.tracked hdonesat.1 hcompletes hm₄
    rw [hbegun₃.ongoing hgoing, PairMacState.periodUs_far hfar] at hperiod
    have hrested : Rested (t₁.toNat + farPeriodUs.toNat) m₄ :=
      ⟨(tracked_step _ _ _ hbegun₃.tracked hm₄).initialized, hended, hperiod⟩
    refine (rested_run hrested (fun event hmem => hbegins event ?_) hafter).due.trans hdue
    exact List.mem_append_right _ (List.mem_cons_of_mem _ hmem)
  · rintro front t close back completed rfl hcompleted
    obtain ⟨m, hm, hstep⟩ := run_snoc_some step hcompleted
    obtain ⟨hclock, -⟩ := step_clock hstep
    obtain ⟨hgoing, rfl⟩ := step_success hstep
    obtain ⟨hattempted, hle⟩ := (htracked hm).attempted hgoing
    dsimp only [MacEvent.nowUs] at hclock ⊢
    rw [PairMacState.recordSuccess_nextDueUs t close hattempted,
      PairMacState.recordSuccess_periodUs]
    omega
  · rintro front t back completed rfl hcompleted
    obtain ⟨m, hm, hstep⟩ := run_snoc_some step hcompleted
    have hunsat := ((along_append step hm).mp hsat).2.1
    obtain ⟨-, rfl⟩ := step_failure hstep
    obtain ⟨extra, hextra, hdue⟩ := PairMacState.recordFailure_nextDueUs m.mac t
    have hperiod := m.mac.periodUs_le_maxBackoff t
    unfold Unsaturated at hunsat
    dsimp only
    rw [hdue, PairMacState.recordFailure_periodUs]
    omega

end Law

def samplePair : Pair := ⟨.aircraft 0, .aircraft 1⟩

/-- A far attempt, a close one, its expiry, a failure and a retry. -/
def sampleEvents : List MacEvent :=
  [.beginAttempt 100000, .recordSuccess 106000 false, .beginAttempt 200000,
    .recordSuccess 206000 true, .initializeMac 206500 samplePair,
    .beginAttempt 210000, .expire 211000, .recordFailure 216000, .beginAttempt 296000]

def sampleMac : PairMacState := (PairMacState.new 7).initializeMac 0 samplePair

theorem rate_law_sample : (run step (idle sampleMac 0) sampleEvents).isSome = true ∧
    (100000 : UInt64).toNat + farPeriodUs.toNat ≤ (200000 : UInt64).toNat := by
  have hrun : (run step (idle sampleMac 0) sampleEvents).isSome = true := by decide
  obtain ⟨final, hfinal⟩ := Option.isSome_iff_exists.mp hrun
  obtain ⟨hspacing, -, -⟩ := rate_law (by decide) hfinal (by decide)
  refine ⟨hrun, ?_⟩
  exact (hspacing [] [.recordSuccess 106000 false] _ 100000 200000 rfl (by decide)).2 []
    (.recordSuccess 106000 false) [] _ rfl rfl rfl (by decide)

end MacLoop

end Mission10.Uwb
