import Mission10.Flight.PropIdleMoves
import Mission10.Library.Outcome

/-!
# Arming discipline of the prop-idle mission

Over every run the node arms at most once, only after the start gate, a fresh
disarmed status and a fresh OFFBOARD status; once a cleanup has begun no output
runs the motors; and the armed hold ends one tick after its time at the latest.
-/
namespace Mission10.Flight

open Engine MathOps

set_option linter.unusedSectionVars false

variable {K : Type*} [Field K] [LinearOrder K] [IsStrictOrderedRing K] [MathOps K]

namespace IdleEvent

def status? : IdleEvent → Option (ℤ × VehicleStatus)
  | .status nowUs msg => some (nowUs, msg)
  | _ => none

def tick? : IdleEvent → Option ℤ
  | .tick nowUs => some nowUs
  | _ => none

end IdleEvent

/-- The last status of a run and when it was heard. -/
def lastStatus (events : List IdleEvent) : Option (ℤ × VehicleStatus) :=
  (events.filterMap IdleEvent.status?).getLast?

theorem lastStatus_snoc (events : List IdleEvent) (event : IdleEvent) :
    lastStatus (events ++ [event]) = event.status?.or (lastStatus events) := by
  unfold lastStatus
  rw [List.filterMap_append, List.getLast?_append]
  cases hstatus : event.status? with
  | none => simp [hstatus]
  | some heard => simp [hstatus]

/-- The last status was heard recently enough to be acted on. -/
def SeesFresh (params : IdleParams K) (events : List IdleEvent) (nowUs : ℤ)
    (status : VehicleStatus) : Prop :=
  ∃ heardUs, lastStatus events = some (heardUs, status) ∧
    nowUs - heardUs ≤ truncate (params.statusStaleTimeoutSeconds * 10 ^ 6)

/-- A tick after a start gate has seen the vehicle disarmed. -/
def Attempted (params : IdleParams K) (events : List IdleEvent) : Prop :=
  ∃ front nowUs back status, events = front ++ .tick nowUs :: back ∧ .start true ∈ front ∧
    SeesFresh params front nowUs status ∧ status.armingState = armingStateDisarmed

theorem Attempted.snoc {params : IdleParams K} {events : List IdleEvent}
    (h : Attempted params events) (event : IdleEvent) : Attempted params (events ++ [event]) := by
  obtain ⟨front, nowUs, back, status, rfl, hrest⟩ := h
  exact ⟨front, nowUs, back ++ [event], status, by simp, hrest⟩

namespace PropIdle

variable {n n' : PropIdle K} {event : IdleEvent} {outputs : List IdleOutput}

/-! ### What the moves say about arming -/

theorem Move.params_eq (h : Move n event n' outputs) : n'.params = n.params := by
  cases h <;> rfl

/-- The stages follow one another; only before the attempt there is a way back. -/
theorem Move.rank_le (h : Move n event n' outputs) : n.state.rank ≤ n'.state.rank := by
  cases h with
  | heard | requested | idle | streams | stops | forcesAgain | shutsDown => exact le_rfl
  | linked nowUs state hstate hnext =>
    rw [IdleState.waiting_iff] at hstate
    omega
  | attempts nowUs status hstate =>
    rw [IdleState.waiting_iff] at hstate
    omega
  | refused event nowUs message hevent hstate =>
    rw [IdleState.waiting_iff] at hstate
    omega
  | asksOffboard nowUs hstate =>
    exact hstate ▸ (by decide : IdleState.prestream.rank ≤ IdleState.waitOffboard.rank)
  | arms nowUs _ hstate =>
    exact hstate ▸ (by decide : IdleState.waitOffboard.rank ≤ IdleState.waitArm.rank)
  | holds nowUs hstate =>
    exact hstate ▸ (by decide : IdleState.waitArm.rank ≤ IdleState.holdMinimum.rank)
  | disarms _ nowUs _ _ _ hstate =>
    exact ((IdleState.streaming_iff _).mp hstate).2.trans
      (by decide : 4 ≤ IdleState.normalDisarm.rank)
  | ends _ nowUs _ _ _ hstate =>
    exact ((IdleState.streaming_iff _).mp hstate).2.trans (by decide : 4 ≤ IdleState.done.rank)
  | forces nowUs reason stopped hstate =>
    rcases hstate with hstate | hstate
    · exact ((IdleState.streaming_iff _).mp hstate).2.trans
        (by decide : 4 ≤ IdleState.forceDisarm.rank)
    · exact hstate ▸ (by decide : IdleState.normalDisarm.rank ≤ IdleState.forceDisarm.rank)
  | finishes nowUs message stopped hstate =>
    rcases hstate with hstate | hstate | hstate
    · exact hstate ▸ (by decide : IdleState.holdMinimum.rank ≤ IdleState.done.rank)
    · exact hstate ▸ (by decide : IdleState.normalDisarm.rank ≤ IdleState.done.rank)
    · exact hstate ▸ (by decide : IdleState.forceDisarm.rank ≤ IdleState.done.rank)

/-- The only move that arms, and what it has seen. -/
theorem Move.of_arm (h : Move n event n' outputs) (harm : .arm ∈ outputs) :
    n.state = .waitOffboard ∧ n'.state = .waitArm ∧ outputs.count .arm = 1 ∧
      ∃ nowUs status, event = .tick nowUs ∧ n.status = some status ∧
        status.navState = .offboard ∧ n.statusFresh nowUs = true := by
  cases h with
  | arms nowUs status hstate hstatus hoffboard hfresh =>
    exact ⟨hstate, rfl, rfl, nowUs, status, rfl, hstatus, hoffboard, hfresh⟩
  | disarms event nowUs reason front hevent hstate hfront =>
    rcases hfront with rfl | ⟨rfl, -⟩ <;> simp at harm
  | ends event nowUs reason front hevent hstate harmed hfront =>
    rcases hfront with ⟨rfl, -⟩ | ⟨rfl, -⟩ <;> simp at harm
  | stops nowUs outputs hstate houtputs => cases houtputs _ harm
  | shutsDown nowUs nextUs outputs houtputs => simpa using houtputs _ harm
  | _ => simp at harm

/-- The only move that begins an attempt, and what it has seen. -/
theorem Move.of_attempt (h : Move n event n' outputs)
    (hstate' : n'.state = .prestream ∨ n'.state = .waitOffboard) :
    n.state = .prestream ∨ n.state = .waitOffboard ∨
      ∃ nowUs status, event = .tick nowUs ∧ n.startRequested = true ∧
        n.status = some status ∧ status.armingState = armingStateDisarmed ∧
        n.statusFresh nowUs = true := by
  cases h with
  | heard | requested | idle | streams | stops | forcesAgain | shutsDown =>
    exact hstate'.imp_right Or.inl
  | linked nowUs state hstate hnext =>
    rcases hstate' with hstate' | hstate' <;> cases hstate' <;> cases hnext
  | attempts nowUs status hstate hrequested hstatus hdisarmed hfresh =>
    exact .inr (.inr ⟨nowUs, status, rfl, hrequested, hstatus, hdisarmed, hfresh⟩)
  | asksOffboard nowUs hstate => exact .inl hstate
  | _ => simp [setState] at hstate'

theorem Move.of_cleanup (h : Move n event n' outputs) {reason : String}
    (hcleanup : .cleanup reason ∈ outputs) : n'.state.cleaning = true := by
  cases h with
  | disarms | ends | forces | finishes => rfl
  | refused => rfl
  | stops nowUs outputs hstate houtputs => cases houtputs _ hcleanup
  | shutsDown nowUs nextUs outputs houtputs => simpa using houtputs _ hcleanup
  | _ => simp at hcleanup

/-- Outputs that run the motors come from the ticks of the stages that stream. -/
theorem Move.of_motors (h : Move n event n' outputs) {timestampUs : ℤ}
    (hmotors : .motors false timestampUs ∈ outputs) :
    event = .tick timestampUs ∧ n.state.cleaning = false := by
  cases h with
  | streams nowUs hstate =>
    obtain rfl : timestampUs = nowUs := by simpa using hmotors
    exact ⟨rfl, IdleState.cleaning_of_streaming hstate⟩
  | asksOffboard nowUs hstate =>
    obtain rfl : timestampUs = nowUs := by simpa using hmotors
    exact ⟨rfl, by rw [hstate]; rfl⟩
  | arms nowUs status hstate =>
    obtain rfl : timestampUs = nowUs := by simpa using hmotors
    exact ⟨rfl, by rw [hstate]; rfl⟩
  | holds nowUs hstate =>
    obtain rfl : timestampUs = nowUs := by simpa using hmotors
    exact ⟨rfl, by rw [hstate]; rfl⟩
  | disarms event nowUs reason front hevent hstate hfront =>
    rcases hfront with rfl | ⟨rfl, hevent⟩
    · simp at hmotors
    · obtain rfl : timestampUs = nowUs := by simpa using hmotors
      exact ⟨hevent, IdleState.cleaning_of_streaming hstate⟩
  | ends event nowUs reason front hevent hstate harmed hfront =>
    rcases hfront with ⟨rfl, -⟩ | ⟨rfl, hevent, -⟩
    · simp at hmotors
    · obtain rfl : timestampUs = nowUs := by simpa using hmotors
      exact ⟨hevent, IdleState.cleaning_of_streaming hstate⟩
  | forces nowUs reason stopped hstate hstopped =>
    simp only [List.mem_cons, IdleOutput.motors.injEq, reduceCtorEq, List.not_mem_nil,
      or_self, or_false] at hmotors
    obtain ⟨hfalse, rfl⟩ := hmotors
    exact ⟨rfl, IdleState.cleaning_of_streaming (hstopped hfalse.symm)⟩
  | finishes nowUs message stopped hstate hstopped =>
    simp only [List.mem_cons, IdleOutput.motors.injEq, reduceCtorEq, List.not_mem_nil,
      or_self, or_false] at hmotors
    obtain ⟨hfalse, rfl⟩ := hmotors
    exact ⟨rfl, by rw [hstopped hfalse.symm]; rfl⟩
  | stops nowUs outputs hstate houtputs => simpa using houtputs _ hmotors
  | shutsDown nowUs nextUs outputs houtputs => simpa using houtputs _ hmotors
  | _ => simp at hmotors

theorem Move.of_hold (h : Move n event n' outputs) (hstate : n.state = .holdMinimum) :
    (n'.state = .holdMinimum ∧ n'.stateStartedUs = n.stateStartedUs ∧
      ∀ nowUs, event = .tick nowUs → n.elapsed nowUs < n.params.armedSeconds) ∨
    n'.state.cleaning = true := by
  cases h with
  | heard | requested | shutsDown => exact .inl ⟨hstate, rfl, by simp⟩
  | idle event hevent htick =>
    refine .inl ⟨hstate, rfl, fun nowUs ht => ?_⟩
    have hquiet := htick nowUs ht
    rw [hstate] at hquiet
    cases hquiet
  | streams nowUs hstreaming hhold =>
    refine .inl ⟨hstate, rfl, fun t ht => ?_⟩
    obtain rfl : nowUs = t := IdleEvent.tick.inj ht
    exact hhold hstate
  | disarms | ends | forces | finishes | refused => exact .inr rfl
  | _ => simp_all [IdleState.waiting]

theorem status?_eq_none (hevent : ∀ nowUs msg, event ≠ .status nowUs msg) :
    event.status? = none := by
  cases event with
  | status nowUs msg => exact absurd rfl (hevent nowUs msg)
  | _ => rfl

/-- The status of the node is the one that the event brings, or the old one. -/
theorem Move.of_status (h : Move n event n' outputs) :
    (event.status? = none ∧ n'.status = n.status ∧ n'.lastStatusUs = n.lastStatusUs) ∨
      ∃ msg, event.status? = some (n'.lastStatusUs, msg) ∧ n'.status = some msg := by
  cases h with
  | heard nowUs msg => exact .inr ⟨msg, rfl, rfl⟩
  | idle event hevent | refused event _ _ hevent | disarms event _ _ _ hevent
  | ends event _ _ _ hevent => exact .inl ⟨status?_eq_none hevent, rfl, rfl⟩
  | _ => exact .inl ⟨rfl, rfl, rfl⟩

theorem Move.of_requested (h : Move n event n' outputs) (hrequested : n'.startRequested = true) :
    n.startRequested = true ∨ event = .start true := by
  cases h with
  | requested => exact .inr rfl
  | _ => exact .inl hrequested

/-! ### Runs -/

/-- What a node and all that it published say about the events so far. -/
structure Tracked (params : IdleParams K) (events : List IdleEvent)
    (s : PropIdle K × List IdleOutput) : Prop where
  params_eq : s.1.params = params
  heard : ∀ status, s.1.status = some status →
    lastStatus events = some (s.1.lastStatusUs, status)
  requested : s.1.startRequested = true → .start true ∈ events
  attempted : s.1.state = .prestream ∨ s.1.state = .waitOffboard → Attempted params events
  once : s.2.count .arm ≤ 1
  armed : .arm ∈ s.2 → 3 ≤ s.1.state.rank
  cleaned : ∀ reason, .cleanup reason ∈ s.2 → s.1.state.cleaning = true

theorem Tracked.new (params : IdleParams K) (bornUs : ℤ) :
    Tracked params [] (init params bornUs, []) where
  params_eq := rfl
  heard := by simp [init]
  requested := by simp [init]
  attempted := by simp [init]
  once := by simp
  armed := by simp
  cleaned := by simp

section Tracked

variable {params : IdleParams K} {events : List IdleEvent} {s s' : PropIdle K × List IdleOutput}

/-- A fresh status is the last one of the run, heard not long ago. -/
theorem Tracked.seesFresh (h : Tracked params events s) {nowUs : ℤ} {status : VehicleStatus}
    (hstatus : s.1.status = some status) (hfresh : s.1.statusFresh nowUs = true) :
    SeesFresh params events nowUs status := by
  simp only [statusFresh, Bool.and_eq_true, decide_eq_true_eq] at hfresh
  exact ⟨s.1.lastStatusUs, h.heard status hstatus, h.params_eq ▸ hfresh.2⟩

theorem Tracked.step (h : Tracked params events s) (hstep : PropIdle.step s event = some s') :
    Tracked params (events ++ [event]) s' := by
  obtain rfl := Option.some.inj hstep
  have hmove := react_moves s.1 event
  refine ⟨hmove.params_eq.trans h.params_eq, ?_, ?_, ?_, ?_, ?_, ?_⟩
  · intro status hstatus
    rw [lastStatus_snoc]
    rcases hmove.of_status with ⟨hnone, hsame, hat⟩ | ⟨msg, hsome, hmsg⟩
    · rw [hnone, hat]
      exact h.heard status (hsame ▸ hstatus)
    · rw [hsome]
      obtain rfl : msg = status := Option.some.inj (hmsg.symm.trans hstatus)
      rfl
  · intro hrequested
    rcases hmove.of_requested hrequested with hold | rfl
    · exact List.mem_append_left _ (h.requested hold)
    · simp
  · intro hstate
    rcases hmove.of_attempt hstate with hold | hold | ⟨nowUs, status, rfl, hattempt⟩
    · exact (h.attempted (.inl hold)).snoc event
    · exact (h.attempted (.inr hold)).snoc event
    · obtain ⟨hrequested, hstatus, hdisarmed, hfresh⟩ := hattempt
      exact ⟨events, nowUs, [], status, rfl, h.requested hrequested,
        h.seesFresh hstatus hfresh, hdisarmed⟩
  · by_cases harm : .arm ∈ (s.1.react event).2
    · obtain ⟨hbefore, -, hcount, -⟩ := hmove.of_arm harm
      have hnone : .arm ∉ s.2 := by
        intro hmem
        have hrank := h.armed hmem
        rw [hbefore] at hrank
        exact absurd hrank (by decide)
      rw [List.count_append, hcount, List.count_eq_zero.mpr hnone]
    · rw [List.count_append, List.count_eq_zero.mpr harm]
      exact h.once
  · intro harm
    rcases List.mem_append.mp harm with harm | harm
    · exact (h.armed harm).trans hmove.rank_le
    · obtain ⟨-, hafter, -⟩ := hmove.of_arm harm
      rw [hafter]
      decide
  · intro reason hcleanup
    rcases List.mem_append.mp hcleanup with hcleanup | hcleanup
    · have hbefore := h.cleaned reason hcleanup
      rw [IdleState.cleaning_iff] at hbefore ⊢
      exact hbefore.trans hmove.rank_le
    · exact hmove.of_cleanup hcleanup

theorem run_tracked {bornUs : ℤ}
    (hrun : Runs.run PropIdle.step (init params bornUs, []) events = some s) :
    Tracked params events s :=
  Runs.run_history PropIdle.step (Tracked params) (fun _ _ _ _ h hstep => h.step hstep)
    (Tracked.new params bornUs) hrun

end Tracked

/-! ### The armed hold -/

/-- Two readings of the timer are at most a period apart. -/
def Within (period : K) (firstUs secondUs : ℤ) : Prop :=
  ((secondUs - firstUs : ℤ) : K) / 10 ^ 6 ≤ period

/-- The seconds of two intervals add up. -/
theorem seconds_add (aUs bUs cUs : ℤ) :
    ((cUs - aUs : ℤ) : K) / 10 ^ 6 =
      ((bUs - aUs : ℤ) : K) / 10 ^ 6 + ((cUs - bUs : ℤ) : K) / 10 ^ 6 := by
  rw [← add_div, ← Int.cast_add]
  congr 2
  omega

/-- Once the cleanup has begun it goes on. -/
theorem run_cleaning {s t : PropIdle K × List IdleOutput} {events : List IdleEvent}
    (hstate : s.1.state.cleaning = true) (hrun : Runs.run PropIdle.step s events = some t) :
    t.1.state.cleaning = true := by
  refine Runs.run_invariant PropIdle.step (fun s => s.1.state.cleaning = true) ?_ hstate hrun
  intro s event s' hs hstep
  obtain rfl := Option.some.inj hstep
  rw [IdleState.cleaning_iff] at hs ⊢
  exact hs.trans (react_moves s.1 event).rank_le

/-- No output after the start of the cleanup runs the motors. -/
theorem motors_of_cleaning (hstate : n.state.cleaning = true) (timestampUs : ℤ) :
    .motors false timestampUs ∉ (n.react event).2 := by
  intro hmotors
  have hrunning := ((react_moves n event).of_motors hmotors).2
  rw [hstate] at hrunning
  cases hrunning

/-- The last tick before an output of a hold saw that its time was not over. -/
theorem hold_outputs {s t : PropIdle K × List IdleOutput} {events : List IdleEvent}
    {previousUs timestampUs : ℤ} {period : K} (hstate : s.1.state = .holdMinimum)
    (hprevious : s.1.elapsed previousUs < s.1.params.armedSeconds)
    (hrun : Runs.run PropIdle.step s events = some t)
    (hmotors : .motors false timestampUs ∈ (t.1.react event).2)
    (hticks : List.IsChain (Within period)
      (previousUs :: (events.filterMap IdleEvent.tick? ++ [timestampUs]))) :
    s.1.elapsed timestampUs < s.1.params.armedSeconds + period := by
  induction events generalizing s previousUs with
  | nil =>
    rw [List.filterMap_nil, List.nil_append, List.isChain_cons_cons] at hticks
    have hlast : ((timestampUs - previousUs : ℤ) : K) / 10 ^ 6 ≤ period := hticks.1
    calc s.1.elapsed timestampUs
        = s.1.elapsed previousUs + ((timestampUs - previousUs : ℤ) : K) / 10 ^ 6 :=
          seconds_add _ _ _
      _ < s.1.params.armedSeconds + period := add_lt_add_of_lt_of_le hprevious hlast
  | cons first rest ih =>
    obtain ⟨m, hm, hrest⟩ := Runs.run_cons_some PropIdle.step hrun
    obtain rfl := Option.some.inj hm
    have hmove := react_moves s.1 first
    rcases hmove.of_hold hstate with ⟨hstays, hstarted, hearly⟩ | hcleaning
    · have helapsed (nowUs : ℤ) : (s.1.react first).1.elapsed nowUs = s.1.elapsed nowUs := by
        rw [elapsed, hstarted, elapsed]
      have hgo {lastUs : ℤ} (hlast : s.1.elapsed lastUs < s.1.params.armedSeconds)
          (hchain : List.IsChain (Within period)
            (lastUs :: (rest.filterMap IdleEvent.tick? ++ [timestampUs]))) :
          s.1.elapsed timestampUs < s.1.params.armedSeconds + period := by
        have hnext := ih (s := ((s.1.react first).1, s.2 ++ (s.1.react first).2)) hstays
          (by rw [helapsed, hmove.params_eq]; exact hlast) hrest hchain
        rwa [helapsed, hmove.params_eq] at hnext
      cases htick : first.tick? with
      | none =>
        rw [List.filterMap_cons_none htick] at hticks
        exact hgo hprevious hticks
      | some nowUs =>
        obtain rfl : first = .tick nowUs := by
          cases first <;> simp_all [IdleEvent.tick?]
        rw [List.filterMap_cons_some htick, List.cons_append, List.isChain_cons_cons] at hticks
        exact hgo (hearly nowUs rfl) hticks.2
    · have hdone := run_cleaning (s := ((s.1.react first).1, s.2 ++ (s.1.react first).2))
        hcleaning hrest
      exact absurd hmotors (motors_of_cleaning hdone timestampUs)

/-- The hold begins at the tick that enters it. -/
theorem Move.to_hold {heldUs : ℤ} (h : Move n (.tick heldUs) n' outputs)
    (hbefore : n.state = .waitArm) (hafter : n'.state = .holdMinimum) :
    n'.stateStartedUs = heldUs := by
  cases h with
  | holds => rfl
  | linked nowUs state hstate => simp [hbefore, IdleState.waiting] at hstate
  | idle | streams | stops | forcesAgain => simp [hbefore] at hafter
  | _ => cases hafter

end PropIdle

theorem IdleParams.checkRange_ok {low high value : K} {message : String} {u : Unit}
    (h : checkRange low high value message = .ok u) : low ≤ value ∧ value ≤ high := by
  unfold checkRange at h
  split at h
  · assumption
  · cases h

/-- With valid parameters the hold lasts for some time. -/
theorem IdleParams.armedSeconds_pos {params : IdleParams K} {u : Unit}
    (h : params.validate = .ok u) : 0 < params.armedSeconds := by
  obtain ⟨_, -, h⟩ := Outcome.bind_ok h
  obtain ⟨_, -, h⟩ := Outcome.bind_ok h
  obtain ⟨_, harmed, -⟩ := Outcome.bind_ok h
  have hlow : (1 / 10 : K) ≤ params.armedSeconds := (checkRange_ok harmed).1
  have htenth : (0 : K) < 1 / 10 := by positivity
  exact htenth.trans_le hlow

/-- A node is created with valid parameters only. -/
theorem PropIdle.new_ok {params : IdleParams K} {bornUs : ℤ} {node : PropIdle K}
    (h : PropIdle.new params bornUs = .ok node) :
    node = PropIdle.init params bornUs ∧ 0 < params.armedSeconds := by
  unfold PropIdle.new at h
  cases hvalid : params.validate with
  | error message =>
    rw [hvalid] at h
    cases h
  | ok u =>
    rw [hvalid] at h
    exact ⟨(Except.ok.inj h).symm, IdleParams.armedSeconds_pos hvalid⟩

/-- After the events, by which the node came to `n` and published the log: one arm
command at most was published; one is published next only after the start gate
and a fresh disarmed status, at a tick that sees a fresh OFFBOARD status; after
the start of a cleanup no output runs the motors; and one that runs them comes
less than the time of the armed hold and a period of the ticks after its start. -/
structure ArmingDiscipline (params : IdleParams K) (node : PropIdle K) (events : List IdleEvent)
    (n : PropIdle K) (log : List IdleOutput) : Prop where
  once : log.count .arm ≤ 1
  gated : ∀ event, .arm ∈ (n.react event).2 → Attempted params events ∧ ∃ nowUs status,
    event = .tick nowUs ∧ SeesFresh params events nowUs status ∧ status.navState = .offboard
  stopped : ∀ reason, .cleanup reason ∈ log → ∀ event timestampUs,
    .motors false timestampUs ∉ (n.react event).2
  bounded : ∀ front heldUs back before published event timestampUs period,
    events = front ++ .tick heldUs :: back →
    Runs.run PropIdle.step (node, []) front = some (before, published) →
    before.state = .waitArm → (before.react (.tick heldUs)).1.state = .holdMinimum →
    .motors false timestampUs ∈ (n.react event).2 →
    List.IsChain (PropIdle.Within period)
      (heldUs :: (back.filterMap IdleEvent.tick? ++ [timestampUs])) →
    ((timestampUs - heldUs : ℤ) : K) / 10 ^ 6 < params.armedSeconds + period

/-- Every run of a node with valid parameters keeps the discipline. -/
theorem run_disciplined {params : IdleParams K} {bornUs : ℤ} {node : PropIdle K}
    (hnew : PropIdle.new params bornUs = .ok node) {events : List IdleEvent} {n : PropIdle K}
    {log : List IdleOutput} (hrun : Runs.run PropIdle.step (node, []) events = some (n, log)) :
    ArmingDiscipline params node events n log := by
  obtain ⟨rfl, hpositive⟩ := PropIdle.new_ok hnew
  have htracked := PropIdle.run_tracked hrun
  refine ⟨htracked.once, ?_, ?_, ?_⟩
  · intro event harm
    obtain ⟨hstate, -, -, nowUs, status, hevent, hstatus, hoffboard, hfresh⟩ :=
      (PropIdle.react_moves n event).of_arm harm
    exact ⟨htracked.attempted (.inr hstate), nowUs, status, hevent,
      htracked.seesFresh hstatus hfresh, hoffboard⟩
  · intro reason hcleanup event timestampUs
    exact PropIdle.motors_of_cleaning (htracked.cleaned reason hcleanup) timestampUs
  · intro front heldUs back before published event timestampUs period heq hfront hwait hhold
      hmotors hticks
    rw [heq] at hrun
    obtain ⟨middle, hmiddle, hrest⟩ := Runs.run_append_some PropIdle.step hrun
    obtain rfl : (before, published) = middle := Option.some.inj (hfront.symm.trans hmiddle)
    obtain ⟨entered, hentered, hback⟩ := Runs.run_cons_some PropIdle.step hrest
    obtain rfl := Option.some.inj hentered
    have hmove := PropIdle.react_moves before (.tick heldUs)
    have hstarted := hmove.to_hold hwait hhold
    have hparams : (before.react (.tick heldUs)).1.params = params :=
      hmove.params_eq.trans (PropIdle.run_tracked hfront).params_eq
    have hearly : (before.react (.tick heldUs)).1.elapsed heldUs <
        (before.react (.tick heldUs)).1.params.armedSeconds := by
      rw [PropIdle.elapsed, hstarted, sub_self, Int.cast_zero, zero_div, hparams]
      exact hpositive
    have hlast := PropIdle.hold_outputs
      (s := ((before.react (.tick heldUs)).1, published ++ (before.react (.tick heldUs)).2))
      hhold hearly hback hmotors hticks
    rw [PropIdle.elapsed, hstarted, hparams] at hlast
    exact hlast

/-- A bench run until the motors idle. -/
def benchEvents : List IdleEvent :=
  [.status 0 ⟨.other, armingStateDisarmed, false⟩, .start true, .tick 100000,
    .status 1100000 ⟨.other, armingStateDisarmed, false⟩, .tick 1200000,
    .status 1300000 ⟨.offboard, armingStateDisarmed, false⟩, .tick 1400000,
    .status 1500000 ⟨.offboard, armingStateArmed, false⟩, .tick 1600000]

/-- A run of the default node that meets a test is a run from its construction. -/
theorem bench_run (events : List IdleEvent) (test : PropIdle ℚ × List IdleOutput → Bool)
    (h : ((PropIdle.new ({} : IdleParams ℚ) 0).toOption.any fun node =>
      (Runs.run PropIdle.step (node, []) events).any test) = true) :
    ∃ node, PropIdle.new ({} : IdleParams ℚ) 0 = .ok node ∧ ∃ s,
      Runs.run PropIdle.step (node, []) events = some s ∧ test s = true := by
  obtain ⟨node, hnode, hrun⟩ := (Option.any_eq_true _ _).mp h
  obtain ⟨s, hs, htest⟩ := (Option.any_eq_true _ _).mp hrun
  refine ⟨node, ?_, s, hs, htest⟩
  cases hcase : PropIdle.new ({} : IdleParams ℚ) 0 with
  | error message =>
    rw [hcase] at hnode
    cases hnode
  | ok made =>
    rw [hcase] at hnode
    rw [Option.some.inj hnode]

theorem run_disciplined_bench : ∃ (node n : PropIdle ℚ) (log : List IdleOutput),
    PropIdle.new {} 0 = .ok node ∧
    Runs.run PropIdle.step (node, []) benchEvents = some (n, log) ∧
    log.count .arm = 1 ∧ n.state = .holdMinimum ∧
    ArmingDiscipline {} node benchEvents n log := by
  obtain ⟨node, hnew, s, hs, hend⟩ := bench_run benchEvents
    (fun s => decide (s.2.count .arm = 1) && decide (s.1.state = .holdMinimum))
    (by decide +kernel)
  simp only [Bool.and_eq_true, decide_eq_true_eq] at hend
  exact ⟨node, s.1, s.2, hnew, hs, hend.1, hend.2, run_disciplined hnew hs⟩

end Mission10.Flight
