import Mission10.Flight.ControllerMoves
import Mission10.Library.Runs

/-!
# What leads out of the failsafe state

The interlock yields to the autopilot for good: the tick publishes no stream and
waits for the vehicle to be disarmed. The hooks of the mission are still called,
and a return that one of them asks for is not refused in this state. A run that
has entered the failsafe state yields exactly when no hook asks for a return.
-/
namespace Mission10.Flight

open Engine MathOps

set_option linter.unusedSectionVars false

variable {K : Type*} [Field K] [LinearOrder K] [MathOps K] {M I : Type*}

/-- The states of a controller that has yielded. -/
def FlightState.yielded : FlightState → Bool
  | .failsafe | .done => true
  | _ => false

namespace Node

/-- What the hook asks for that a callback of a node without an active mission
calls. -/
def asked (mission : Mission K M I) (n : Node K M) : NodeEvent K I → List (Request K)
  | .position nowUs msg =>
    match n.base.frameReset msg with
    | none => []
    | some reset =>
      (mission.onLocalFrameReset n.mission ((n.base.noteCounters nowUs msg).rebase reset)
        reset.deltaXy reset.deltaZ reset.deltaHeading).2
  | .endMission nowUs data =>
    if data && !n.base.homeRequested then
      (mission.onReturnHome n.mission { n.base with homeRequested := true } nowUs).2
    else []
  | .input nowUs input => (mission.onInput n.mission n.base nowUs input).2
  | _ => []

/-- In the failsafe state no hook asks for a return. -/
def ReturnsNot (mission : Mission K M I) (n : Node K M) (event : NodeEvent K I) : Prop :=
  n.base.state = .failsafe → Request.beginReturn ∉ n.asked mission event

/-- The step stays in the state or is done, and publishes no stream. -/
def Yields (mission : Mission K M I) (n : Node K M) (event : NodeEvent K I) : Prop :=
  ∀ after, n.react mission event = some after →
    (after.1.base.state = n.base.state ∨ after.1.base.state = .done) ∧
      ∀ output ∈ after.2, output.streamed = false

variable {mission : Mission K M I} {n : Node K M} {after : Effect K M} {nowUs : ℤ}

/-- The answer of a hook, in a state that is the node's. -/
structure Answers (n : Node K M) (asked : List (Request K)) (after : Effect K M) : Prop where
  silent : ∀ output ∈ after.2, output.streamed = false
  stays : Request.beginReturn ∉ asked → after.1.base.state = n.base.state
  done : n.base.state = .done → after.1.base.state = .done
  returns : n.base.state = .failsafe → Request.beginReturn ∈ asked →
    after.1.base.state = .returning ∨ after.1.base.state = .landRequested

theorem answer_answers {c : Controller K} (hook : M × List (Request K))
    (hstate : c.state = n.base.state) : Answers n hook.2 (answer c nowUs hook) where
  silent := fun output hout =>
    ((Controller.requests_commands nowUs c hook.2).commanded output hout).1
  stays := fun hasked => (Controller.requests_state hasked).trans hstate
  done := fun hdone => by
    have hunder : c.state = .done := hstate.trans hdone
    have hkept := Controller.requests_under_way (c := c) (by simp [hunder]) nowUs hook.2
    exact hkept.trans hunder
  returns := fun hfailsafe hasked => by
    have hopen : c.state = .failsafe := hstate.trans hfailsafe
    exact Controller.requests_return (by simp [hopen]) hasked

theorem answers_nothing {after : Effect K M} (hsilent : ∀ output ∈ after.2, output.streamed = false)
    (hstate : after.1.base.state = n.base.state) : Answers n [] after where
  silent := hsilent
  stays := fun _ => hstate
  done := fun hdone => hstate.trans hdone
  returns := by simp

/-- The callbacks other than the tick do what their hook asks for. -/
theorem react_answers {event : NodeEvent K I} (hevent : ∀ nowUs, event ≠ .tick nowUs)
    (h : n.react mission event = some after) : Answers n (n.asked mission event) after := by
  cases event with
  | status nowUs msg =>
    obtain rfl := Option.some.inj h
    exact answers_nothing (by simp) rfl
  | position nowUs msg =>
    obtain rfl := Option.some.inj h
    cases hreset : n.base.frameReset msg with
    | none =>
      simp only [posCb, asked, hreset]
      exact answers_nothing (by simp) rfl
    | some reset =>
      simp only [posCb, asked, hreset]
      let c := (n.base.noteCounters nowUs msg).rebase reset
      have hanswer : Answers n _ (answer c nowUs (mission.onLocalFrameReset n.mission c
        reset.deltaXy reset.deltaZ reset.deltaHeading)) := answer_answers _ rfl
      exact ⟨hanswer.silent, hanswer.stays, hanswer.done, hanswer.returns⟩
  | attitude q yawFinite =>
    obtain rfl := Option.some.inj h
    refine answers_nothing (by simp) ?_
    simp only [Controller.attCb]
    split <;> rfl
  | globalPosition latLonValid altValid =>
    obtain rfl := Option.some.inj h
    exact answers_nothing (by simp) rfl
  | start data =>
    obtain rfl := Option.some.inj h
    refine answers_nothing (by simp) ?_
    simp only [Controller.startCb]
    split <;> rfl
  | endMission nowUs data =>
    obtain rfl := Option.some.inj h
    simp only [endCb, asked]
    split
    · exact answer_answers _ rfl
    · exact answers_nothing (by simp) rfl
  | abort data =>
    obtain rfl := Option.some.inj h
    refine answers_nothing (by simp) ?_
    simp only [Controller.abortCb]
    split <;> rfl
  | input nowUs input =>
    obtain rfl := Option.some.inj h
    exact answer_answers _ rfl
  | tick nowUs => exact absurd rfl (hevent nowUs)

/-- A tick of a node that has yielded sends the origin at most. -/
theorem tick_yields (hyielded : n.base.state.yielded = true)
    (h : n.tick mission nowUs = some after) :
    (after.1.base.state = n.base.state ∨ after.1.base.state = .done) ∧
      ∀ output ∈ after.2, output.streamed = false := by
  obtain ⟨sent, hsent, htick⟩ := Option.bind_eq_some_iff.mp h
  obtain ⟨ticked, hticked, rfl⟩ := Option.map_eq_some_iff.mp htick
  obtain ⟨hcommands, hsame, -⟩ := Controller.sendPendingOrigin_commands hsent
  have hstate : sent.1.state = .failsafe ∨ sent.1.state = .done := by
    rw [hsame]
    cases hcase : n.base.state <;> simp_all [FlightState.yielded]
  have hquiet : sent.1.streams = false := by
    rcases hstate with hstate | hstate <;> simp [Controller.streams, hstate]
  have hmoved : ticked.2 = [] ∧
      (ticked.1.base.state = sent.1.state ∨ ticked.1.base.state = .done) := by
    rcases hstate with hstate | hstate
    · simp only [tickState, hstate, Option.some.injEq] at hticked
      subst hticked
      refine ⟨rfl, ?_⟩
      unfold Controller.tickUntilDisarmed
      split
      · exact .inl rfl
      · exact .inr rfl
    · simp only [tickState, hstate, Option.some.injEq] at hticked
      subst hticked
      exact ⟨rfl, .inl rfl⟩
  refine ⟨hsame ▸ hmoved.2, fun output hout => ?_⟩
  rw [hmoved.1, hquiet] at hout
  simp only [Bool.false_eq_true, if_false, List.append_nil] at hout
  exact (hcommands.commanded output hout).1

theorem yielded_cases (h : n.base.state.yielded = true) :
    n.base.state = .failsafe ∨ n.base.state = .done := by
  cases hstate : n.base.state <;> simp_all [FlightState.yielded]

/-- In a node that has yielded, a step yields exactly when its hook asks for no
return. -/
theorem yields_iff (hyielded : n.base.state.yielded = true) (event : NodeEvent K I) :
    n.Yields mission event ↔ n.ReturnsNot mission event := by
  constructor
  · intro hyields hfailsafe hasked
    have hevent : ∀ nowUs, event ≠ .tick nowUs := by
      rintro nowUs rfl
      simp [asked] at hasked
    have hreact : ∃ after, n.react mission event = some after := by
      cases event with
      | tick nowUs => exact absurd rfl (hevent nowUs)
      | _ => exact ⟨_, rfl⟩
    obtain ⟨after, hafter⟩ := hreact
    have hreturns := (react_answers hevent hafter).returns hfailsafe hasked
    have hstays := (hyields after hafter).1
    rw [hfailsafe] at hstays
    rcases hreturns with hstate | hstate <;> simp [hstate] at hstays
  · intro hnot after hafter
    cases event with
    | tick nowUs => exact tick_yields hyielded hafter
    | _ =>
      have hanswer := react_answers (by simp) hafter
      refine ⟨?_, hanswer.silent⟩
      rcases yielded_cases hyielded with hfailsafe | hdone
      · exact .inl (hanswer.stays (hnot hfailsafe))
      · exact .inr (hanswer.done hdone)

theorem yielded_of_yields {event : NodeEvent K I} {n' : Node K M}
    (hyielded : n.base.state.yielded = true) (hyields : n.Yields mission event)
    (hstep : n.step mission event = some n') : n'.base.state.yielded = true := by
  obtain ⟨after, hafter, rfl⟩ := Option.map_eq_some_iff.mp hstep
  rcases (hyields after hafter).1 with hstate | hstate
  · rw [hstate, hyielded]
  · rw [hstate]
    rfl

/-- From a failsafe state on, all steps of a run yield exactly when no hook asks
for a return. -/
theorem along_yields_iff (hyielded : n.base.state.yielded = true)
    (events : List (NodeEvent K I)) :
    Runs.Along (step mission) (Yields mission) n events ↔
      Runs.Along (step mission) (ReturnsNot mission) n events :=
  Runs.along_iff_along (step mission) (fun n => n.base.state.yielded = true)
    (fun _ event _ hs hnot hstep =>
      yielded_of_yields hs ((yields_iff hs event).mpr hnot) hstep)
    (fun _ event hs => yields_iff hs event) hyielded

/-- After the failsafe state has been entered the run only yields. -/
def YieldsForGood (mission : Mission K M I) (start : Node K M)
    (events : List (NodeEvent K I)) : Prop :=
  ∀ front rest entered, events = front ++ rest →
    Runs.run (step mission) start front = some entered → entered.base.state = .failsafe →
      Runs.Along (step mission) (Yields mission) entered rest

end Node

/-- A run from the start of a node yields for good exactly when no hook asks for a
return in the failsafe state. -/
theorem yieldsForGood_iff (mission : Mission K M I) (params : Params K) (m : M)
    (events : List (NodeEvent K I)) :
    Node.YieldsForGood mission ⟨Controller.new params, m⟩ events ↔
      Runs.Along (Node.step mission) (Node.ReturnsNot mission) ⟨Controller.new params, m⟩
        events := by
  constructor
  · intro hyields
    refine (Runs.along_iff_forall (Node.step mission)).mpr ?_
    intro front event back n heq hrun hfailsafe
    have halong := hyields front (event :: back) n heq hrun hfailsafe
    have hyielded : n.base.state.yielded = true := by rw [hfailsafe]; rfl
    exact ((Node.along_yields_iff hyielded _).mp halong).1 hfailsafe
  · intro halong front rest entered heq hrun hfailsafe
    have hyielded : entered.base.state.yielded = true := by rw [hfailsafe]; rfl
    rw [heq, Runs.along_append (Node.step mission) hrun] at halong
    exact (Node.along_yields_iff hyielded rest).mpr halong.2

/-- The mission that opts in to the return of the autopilot. -/
def returningMission : Mission ℚ Unit Unit :=
  { Mission.base ℚ Unit with onReturnHome := fun _ _ _ => ((), [.beginReturn]) }

/-- A flight until the interlock trips. -/
def trippedEvents : List (NodeEvent ℚ Unit) :=
  [.status 0 ⟨.offboard, armingStateArmed, false⟩, .attitude ⟨1, 0, 0, 0⟩ true,
    .position 0 ⟨⟨1, 2, 0⟩, true, true, ⟨0, 0, 0⟩, true, true, true, ⟨0, 0, 0⟩, (0, 0), 0, 0⟩,
    .tick 1000000, .tick 4000000, .tick 5000000,
    .status 5000000 ⟨.offboard, armingStateArmed, true⟩, .tick 6000000]

/-- After the interlock a return is not refused. -/
theorem end_mission_leaves_failsafe :
    ¬ ∀ (mission : Mission ℚ Unit Unit) (params : Params ℚ) (m : Unit)
      (events : List (NodeEvent ℚ Unit)),
        Node.YieldsForGood mission ⟨Controller.new params, m⟩ events := by
  intro hall
  have hyields := hall returningMission { prestreamCycles := 1 } ()
    (trippedEvents ++ [.endMission 7000000 true])
  have hfailsafe : ((Runs.run (Node.step returningMission)
      ⟨Controller.new { prestreamCycles := 1 }, ()⟩ trippedEvents).any fun n =>
        decide (n.base.state = .failsafe) && !n.base.homeRequested) = true := by
    decide +kernel
  rw [Option.any_eq_true] at hfailsafe
  obtain ⟨n, hrun, hstate⟩ := hfailsafe
  simp only [Bool.and_eq_true, decide_eq_true_eq, Bool.not_eq_true'] at hstate
  have halong := hyields trippedEvents _ n rfl hrun hstate.1
  have hyielded : n.base.state.yielded = true := by rw [hstate.1]; rfl
  have hasked := ((Node.along_yields_iff hyielded _).mp halong).1 hstate.1
  simp [Node.asked, hstate.2, returningMission] at hasked

end Mission10.Flight
