import Mission10.Flight.ArmingDiscipline

/-!
# How the prop-idle mission finishes after it has armed

The mission is done on a status that is not armed. From the cleanup stages a
disarm command went out first; the armed hold is done without one when the
vehicle disarms by itself.
-/
namespace Mission10.Flight

open Engine MathOps

set_option linter.unusedSectionVars false

variable {K : Type*} [Field K] [LinearOrder K] [IsStrictOrderedRing K] [MathOps K]

/-- A disarm command was published after the arm command. -/
def DisarmedSince (log : List IdleOutput) : Prop :=
  ∃ front back force, log = front ++ .arm :: back ∧ .disarm force ∈ back

theorem DisarmedSince.append {log : List IdleOutput} (h : DisarmedSince log)
    (outputs : List IdleOutput) : DisarmedSince (log ++ outputs) := by
  obtain ⟨front, back, force, rfl, hdisarm⟩ := h
  exact ⟨front, back ++ outputs, force, by simp, List.mem_append_left _ hdisarm⟩

/-- A disarm command after a log that has the arm command. -/
theorem disarmedSince_of_disarm {log outputs : List IdleOutput} {force : Bool}
    (harm : .arm ∈ log) (hdisarm : .disarm force ∈ outputs) : DisarmedSince (log ++ outputs) := by
  obtain ⟨front, back, rfl⟩ := List.append_of_mem harm
  exact ⟨front, back ++ outputs, force, by simp, List.mem_append_right _ hdisarm⟩

namespace PropIdle

variable {n n' : PropIdle K} {event : IdleEvent} {outputs : List IdleOutput}

/-- The mission leaves an attempt for good only on a status that is not armed. -/
theorem Move.of_done (h : Move n event n' outputs) (hbefore : n.state ≠ .done)
    (hstarted : 1 ≤ n.state.rank) (hafter : n'.state = .done) :
    n.isArmed = false ∧ ∀ nowUs, event = .tick nowUs → n.statusFresh nowUs = true := by
  cases h with
  | heard | requested | idle | streams | stops | forcesAgain | shutsDown =>
    exact absurd hafter hbefore
  | linked nowUs state hstate hnext =>
    obtain rfl : state = .done := hafter
    cases hnext
  | refused event nowUs message hevent hstate =>
    rw [IdleState.waiting_iff] at hstate
    omega
  | ends event nowUs reason front hevent hstate harmed hfront =>
    refine ⟨harmed, fun t ht => ?_⟩
    rcases hfront with ⟨-, hnot⟩ | ⟨-, hsame, hfresh⟩
    · exact absurd ht (hnot t)
    · obtain rfl : nowUs = t := IdleEvent.tick.inj (hsame.symm.trans ht)
      exact hfresh
  | finishes nowUs message stopped hstate hstopped harmed hfresh =>
    refine ⟨harmed, fun t ht => ?_⟩
    obtain rfl : nowUs = t := IdleEvent.tick.inj ht
    exact hfresh
  | _ => cases hafter

/-- The normal disarm begins with its command. -/
theorem Move.of_normalDisarm (h : Move n event n' outputs) (hafter : n'.state = .normalDisarm) :
    n.state = .normalDisarm ∨ .disarm false ∈ outputs := by
  cases h with
  | disarms => exact .inr (by simp)
  | linked nowUs state hstate hnext =>
    obtain rfl : state = .normalDisarm := hafter
    cases hnext
  | heard | requested | idle | streams | stops | forcesAgain | shutsDown => exact .inl hafter
  | _ => cases hafter

/-- The forced disarm begins after the normal one or with no command sent. -/
theorem Move.of_forceDisarm (h : Move n event n' outputs) (hafter : n'.state = .forceDisarm) :
    (n.state = .forceDisarm ∧ n'.lastForceDisarmUs = n.lastForceDisarmUs) ∨
      .disarm true ∈ outputs ∨ n'.lastForceDisarmUs = 0 := by
  cases h with
  | forces => exact .inr (.inr rfl)
  | forcesAgain => exact .inr (.inl (by simp))
  | linked nowUs state hstate hnext =>
    obtain rfl : state = .forceDisarm := hafter
    cases hnext
  | heard | requested | idle | streams | stops | shutsDown => exact .inl ⟨hafter, rfl⟩
  | _ => cases hafter

/-- What holds of the cleanup stages once the arm command was published. -/
structure Disarming (s : PropIdle K × List IdleOutput) : Prop where
  heard : .arm ∈ s.2 → s.1.status.isSome = true
  normal : .arm ∈ s.2 → s.1.state = .normalDisarm → DisarmedSince s.2
  forced : .arm ∈ s.2 → s.1.state = .forceDisarm →
    DisarmedSince s.2 ∨ s.1.lastForceDisarmUs = 0

theorem Disarming.step {s s' : PropIdle K × List IdleOutput} (h : Disarming s)
    (hstep : PropIdle.step s event = some s') : Disarming s' := by
  obtain rfl := Option.some.inj hstep
  have hmove := react_moves s.1 event
  -- the arm command leads to the stage that waits for it, not to a cleanup
  have hearlier {state : IdleState} (hstate : (s.1.react event).1.state = state)
      (hnot : state ≠ .waitArm) (harm : .arm ∈ s.2 ++ (s.1.react event).2) : .arm ∈ s.2 := by
    rcases List.mem_append.mp harm with harm | harm
    · exact harm
    · exact absurd (hstate.symm.trans (hmove.of_arm harm).2.1) hnot
  refine ⟨fun harm => ?_, fun harm hstate => ?_, fun harm hstate => ?_⟩
  · rcases hmove.of_status with ⟨-, hsame, -⟩ | ⟨msg, -, hmsg⟩
    · rcases List.mem_append.mp harm with harm | harm
      · exact hsame ▸ h.heard harm
      · obtain ⟨-, -, -, nowUs, status, -, hstatus, -⟩ := hmove.of_arm harm
        rw [hsame, hstatus]
        rfl
    · rw [hmsg]
      rfl
  · have hbefore := hearlier hstate (by decide) harm
    rcases hmove.of_normalDisarm hstate with hold | hdisarm
    · exact (h.normal hbefore hold).append _
    · exact disarmedSince_of_disarm hbefore hdisarm
  · have hbefore := hearlier hstate (by decide) harm
    rcases hmove.of_forceDisarm hstate with ⟨hold, hsame⟩ | hdisarm | hzero
    · rcases h.forced hbefore hold with hsince | hzero
      · exact .inl (hsince.append _)
      · exact .inr (hsame.trans hzero)
    · exact .inl (disarmedSince_of_disarm hbefore hdisarm)
    · exact .inr hzero

theorem run_disarming {params : IdleParams K} {bornUs : ℤ} {events : List IdleEvent}
    {s : PropIdle K × List IdleOutput}
    (hrun : Runs.run PropIdle.step (init params bornUs, []) events = some s) : Disarming s :=
  Runs.run_invariant PropIdle.step Disarming (fun _ _ _ h hstep => h.step hstep)
    ⟨by simp, by simp, by simp⟩ hrun

end PropIdle

/-- In every run that has published an arm command, the mission is done only on a
last status that is not armed, and fresh at a tick; and only after a disarm
command, unless the vehicle was seen to be not armed in the wait for the arm, in
the hold, or in a forced cleanup before its first command. -/
theorem finishes_disarmed {params : IdleParams K} {bornUs : ℤ} {node : PropIdle K}
    (hnew : PropIdle.new params bornUs = .ok node) {events : List IdleEvent} {n : PropIdle K}
    {log : List IdleOutput} (hrun : Runs.run PropIdle.step (node, []) events = some (n, log))
    (harm : .arm ∈ log) {event : IdleEvent} (hbefore : n.state ≠ .done)
    (hafter : (n.react event).1.state = .done) :
    (∃ heardUs status, lastStatus events = some (heardUs, status) ∧
      status.armingState ≠ armingStateArmed ∧
      ∀ nowUs, event = .tick nowUs → SeesFresh params events nowUs status) ∧
    (DisarmedSince log ∨ n.state = .waitArm ∨ n.state = .holdMinimum ∨
      n.state = .forceDisarm ∧ n.lastForceDisarmUs = 0) := by
  obtain ⟨rfl, -⟩ := PropIdle.new_ok hnew
  have htracked := PropIdle.run_tracked hrun
  have hdisarming := PropIdle.run_disarming hrun
  have hrank : 3 ≤ n.state.rank := htracked.armed harm
  obtain ⟨hnotArmed, hfresh⟩ :=
    (PropIdle.react_moves n event).of_done hbefore (by omega) hafter
  obtain ⟨status, hstatus⟩ : ∃ status, n.status = some status :=
    Option.isSome_iff_exists.mp (hdisarming.heard harm)
  constructor
  · refine ⟨n.lastStatusUs, status, htracked.heard status hstatus, ?_, fun nowUs hevent =>
      htracked.seesFresh hstatus (hfresh nowUs hevent)⟩
    simpa [PropIdle.isArmed, hstatus] using hnotArmed
  · cases hstate : n.state with
    | waitArm => exact .inr (.inl rfl)
    | holdMinimum => exact .inr (.inr (.inl rfl))
    | normalDisarm => exact .inl (hdisarming.normal harm hstate)
    | forceDisarm =>
      exact (hdisarming.forced harm hstate).imp_right fun hzero => .inr (.inr ⟨rfl, hzero⟩)
    | done => exact absurd hstate hbefore
    | _ => simp [hstate, IdleState.rank] at hrank

/-- The bench run is ended early and the vehicle confirms the disarm. -/
def benchEnd : List IdleEvent :=
  benchEvents ++ [.endMission 1700000 true, .status 1800000 ⟨.offboard, armingStateDisarmed, false⟩]

theorem finishes_disarmed_bench : ∃ (node n : PropIdle ℚ) (log : List IdleOutput),
    PropIdle.new {} 0 = .ok node ∧ Runs.run PropIdle.step (node, []) benchEnd = some (n, log) ∧
    n.state = .normalDisarm ∧ (n.react (.tick 1900000)).1.state = .done ∧
    (∃ heardUs status, lastStatus benchEnd = some (heardUs, status) ∧
      status.armingState ≠ armingStateArmed ∧
      ∀ nowUs, .tick 1900000 = IdleEvent.tick nowUs →
        SeesFresh ({} : IdleParams ℚ) benchEnd nowUs status) ∧
    (DisarmedSince log ∨ n.state = .waitArm ∨ n.state = .holdMinimum ∨
      n.state = .forceDisarm ∧ n.lastForceDisarmUs = 0) := by
  obtain ⟨node, hnew, s, hs, hend⟩ := bench_run benchEnd
    (fun s => decide (.arm ∈ s.2) && decide (s.1.state = .normalDisarm) &&
      decide ((s.1.react (.tick 1900000)).1.state = .done)) (by decide +kernel)
  simp only [Bool.and_eq_true, decide_eq_true_eq] at hend
  obtain ⟨⟨harm, hstate⟩, hdone⟩ := hend
  exact ⟨node, s.1, s.2, hnew, hs, hstate, hdone,
    finishes_disarmed hnew hs harm (by rw [hstate]; decide) hdone⟩

/-- The vehicle disarms by itself in the hold: the mission is done, and never
asked for the disarm. -/
theorem hold_finishes_without_disarm :
    ¬ ∀ (params : IdleParams ℚ) (bornUs : ℤ) (node n : PropIdle ℚ) (events : List IdleEvent)
      (log : List IdleOutput), PropIdle.new params bornUs = .ok node →
        Runs.run PropIdle.step (node, []) events = some (n, log) → .arm ∈ log →
          n.state = .done → DisarmedSince log := by
  intro hall
  obtain ⟨node, hnew, s, hs, hend⟩ := bench_run
    (benchEvents ++ [.status 1700000 ⟨.offboard, armingStateDisarmed, false⟩, .tick 1800000])
    (fun s => decide (.arm ∈ s.2) && decide (s.1.state = .done) &&
      decide (.disarm true ∉ s.2) && decide (.disarm false ∉ s.2)) (by decide +kernel)
  simp only [Bool.and_eq_true, decide_eq_true_eq] at hend
  obtain ⟨⟨⟨harm, hdone⟩, hnotForced⟩, hnotNormal⟩ := hend
  obtain ⟨front, back, force, hlog, hdisarm⟩ := hall {} 0 node s.1 _ s.2 hnew hs harm hdone
  have hmem : .disarm force ∈ s.2 := by
    rw [hlog]
    exact List.mem_append_right _ (List.mem_cons_of_mem _ hdisarm)
  cases force with
  | true => exact hnotForced hmem
  | false => exact hnotNormal hmem

end Mission10.Flight
