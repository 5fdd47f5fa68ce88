import Mission10.Flight.SurveyCourse
import Mission10.Library.Outcome
import Mission10.Library.Runs

/-!
# The way home of the survey mission

When it is told to come home the node blends from where its schedule is, which it reads
from the time of the gate. Before the gate that time is zero, and the place is home only
if the clock is past the whole schedule. In every run in which it is, the first setpoint
of the way home is within the motion of one tick of the last one before.
-/
namespace Mission10.Flight

open Engine (MathOps wrapPi)
open Engine.MathOps
open Choreography (seconds)

set_option linter.unusedSectionVars false

variable {K : Type*} [Field K] [LinearOrder K] [MathOps K]

/-- The reading of the clock that an event brings. -/
def NodeEvent.us? {I : Type*} : NodeEvent K I → Option ℤ
  | .status nowUs _ | .position nowUs _ | .endMission nowUs _ | .input nowUs _ | .tick nowUs =>
    some nowUs
  | _ => none

/-- The node, what it commanded last, and the last reading of the clock. -/
structure SurveyWatch (K : Type*) [Field K] where
  node : Node K (SurveyMission K)
  last : Option (Commanded K)
  clockUs : ℤ

namespace SurveyWatch

/-- The node as it is constructed, at any reading of the clock. -/
def start (base : Params K) (params : SurveyParams K) (clockUs : ℤ) :
    Except SurveyError (SurveyWatch K) := do
  let s ← SurveyMission.new base params
  return ⟨⟨Controller.new base, s⟩, none, clockUs⟩

def step (w : SurveyWatch K) (event : NodeEvent K Bool) : Option (SurveyWatch K) :=
  (w.node.step (surveyMission K) event).map fun node =>
    ⟨node, (commanded w.node event).or w.last, event.us?.getD w.clockUs⟩

/-- The clock does not run back. -/
def Clocked (w : SurveyWatch K) (event : NodeEvent K Bool) : Prop :=
  ∀ nowUs, event.us? = some nowUs → w.clockUs ≤ nowUs

/-- Told to come home after the climb, the node has had its gate or the clock is past the
schedule; and the blend is not ahead of the speed when its first setpoint is due. -/
structure Timely (speed : ℝ) (w : SurveyWatch ℝ) (event : NodeEvent ℝ Bool) : Prop where
  clock : Clocked w event
  gate : ∀ nowUs, event = .endMission nowUs true → w.node.base.homeRequested = false →
    w.node.mission.climbed = true → w.node.mission.gateUs ≠ 0 ∨
      scheduleDuration w.node.mission.schedule ≤ seconds 0 nowUs
  blend : ∀ nowUs start last, event = .tick nowUs → w.node.mission.homeward = true →
    w.node.mission.homeFrom = some start → w.last = some last → last.home = false →
      smoothstep (w.node.mission.homeShare nowUs) * dist3 start w.node.mission.hold ≤
        speed * seconds w.node.mission.homeUs nowUs

/-- The first setpoint of the way home is no further from the last one before than the
speed reaches in the time between them. -/
def HomeJoins (speed : ℝ) (w : SurveyWatch ℝ) (event : NodeEvent ℝ Bool) : Prop :=
  ∀ last first, w.last = some last → last.home = false → commanded w.node event = some first →
    first.home = true →
      dist3 first.position last.position ≤ speed * seconds last.us first.us

end SurveyWatch

/-! ### Runs -/

namespace SurveyWatch

/-- The invariant of the runs: before the mission is active nothing is commanded. -/
structure Sound (plan : SurveyPlan ℝ) (w : SurveyWatch ℝ) : Prop where
  course : OnCourse plan w.node.mission.course w.last w.clockUs
  grounded : w.node.base.state.grounded = true →
    w.node.mission.climbed = false ∧ w.last = none

variable {plan : SurveyPlan ℝ} {w w' : SurveyWatch ℝ} {event : NodeEvent ℝ Bool}

theorem course_of_activeStart {s : SurveyMission ℝ} {last : Option (Commanded ℝ)} {clockUs : ℤ}
    (h : OnCourse plan s.course last clockUs) (hlast : last = none) (c : Controller ℝ) :
    OnCourse plan (s.onActiveStart c).course last clockUs := by
  subst hlast
  by_cases halign : s.params.postTakeoffYawAlignment = true
  · have hturned := h.turned s.params.postTakeoffYawEnu
    simpa [SurveyMission.onActiveStart, SurveyMission.course, halign] using hturned
  · by_cases hlaunch : s.params.alignToLaunchYaw = true
    · have hturned := h.turned (wrapPi (MathOps.pi / 2 - c.holdYaw))
      simpa [SurveyMission.onActiveStart, SurveyMission.course, halign, hlaunch] using hturned
    · simpa [SurveyMission.onActiveStart, SurveyMission.course, halign, hlaunch] using h

theorem course_of_gate {s : SurveyMission ℝ} {last : Option (Commanded ℝ)} {nowUs : ℤ}
    (h : OnCourse plan s.course last nowUs) (c : Controller ℝ) (data : Bool) :
    OnCourse plan (s.gateCb c nowUs data).course last nowUs := by
  unfold SurveyMission.gateCb
  split_ifs with hignored hwaiting
  · exact h
  · exact h
  · simp only [Bool.or_eq_true, decide_eq_true_eq, not_or, not_not] at hignored
    simp only [Bool.or_eq_true, Bool.not_eq_true', not_or, Bool.not_eq_false] at hwaiting
    exact h.gated hignored.1.2 hwaiting.1 hwaiting.2

theorem course_of_end (hspeed : 0 ≤ max plan.speedMps plan.cubeSpeedMps) {s : SurveyMission ℝ}
    {last : Option (Commanded ℝ)} {nowUs : ℤ} (h : OnCourse plan s.course last nowUs)
    (hgate : s.climbed = true → s.gateUs ≠ 0 ∨ scheduleDuration s.schedule ≤ seconds 0 nowUs) :
    OnCourse plan (s.onReturnHome nowUs).1.course last nowUs := by
  unfold SurveyMission.onReturnHome
  split_ifs with hdown hhome
  · exact h
  · have hclimbed : s.climbed = true := by simpa using hdown
    exact h.ended hspeed hhome hclimbed (hgate hclimbed)
  · exact h

/-- The clock after an event. -/
theorem Timely.later {speed : ℝ} (h : Timely speed w event) :
    w.clockUs ≤ event.us?.getD w.clockUs := by
  cases hus : event.us? with
  | none => exact le_rfl
  | some nowUs => exact h.clock nowUs hus

/-- A step without a command keeps the last one. -/
theorem Sound.unmoved (h : Sound plan w) {node : Node ℝ (SurveyMission ℝ)} {clockUs : ℤ}
    (hcourse : OnCourse plan node.mission.course w.last clockUs)
    (hground : node.base.state.grounded = true →
      node.mission.climbed = w.node.mission.climbed ∧ w.node.base.state.grounded = true) :
    Sound plan ⟨node, w.last, clockUs⟩ := by
  refine ⟨hcourse, fun hgrounded => ?_⟩
  obtain ⟨hclimbed, hbefore⟩ := hground hgrounded
  obtain ⟨hdown, hlast⟩ := h.grounded hbefore
  exact ⟨hclimbed.trans hdown, hlast⟩

theorem Sound.step (hspeed : 0 ≤ max plan.speedMps plan.cubeSpeedMps) (h : Sound plan w)
    (htimely : Timely (max plan.speedMps plan.cubeSpeedMps) w event)
    (hstep : w.step event = some w') : Sound plan w' := by
  obtain ⟨node, hnode, rfl⟩ := Option.map_eq_some_iff.mp hstep
  obtain ⟨hmove, hgrounded⟩ := survey_moves hnode
  have hlater := h.course.later htimely.later
  generalize commanded w.node event = command at hmove
  cases hmove with
  | quiet hmission =>
    rw [← hmission] at hlater
    exact h.unmoved hlater fun hground => ⟨by rw [hmission], hgrounded hground⟩
  | starts c hmission hground hflown =>
    have hturned := course_of_activeStart hlater (h.grounded hground).2 c
    rw [← hmission] at hturned
    exact h.unmoved hturned fun hback => by cases hflown.symm.trans hback
  | ends nowUs hevent hfirst hmission =>
    have hclock : event.us?.getD w.clockUs = nowUs := by rw [hevent]; rfl
    rw [hclock] at hlater ⊢
    have hended := course_of_end hspeed hlater (htimely.gate nowUs hevent hfirst)
    rw [← hmission] at hended
    refine h.unmoved hended fun hground => ⟨?_, hgrounded hground⟩
    rw [hmission]
    unfold SurveyMission.onReturnHome
    split_ifs <;> rfl
  | gates nowUs data hevent hmission =>
    have hclock : event.us?.getD w.clockUs = nowUs := by rw [hevent]; rfl
    rw [hclock] at hlater ⊢
    have hgated := course_of_gate hlater w.node.base data
    rw [← hmission] at hgated
    refine h.unmoved hgated fun hground => ⟨?_, hgrounded hground⟩
    rw [hmission]
    unfold SurveyMission.gateCb
    split_ifs <;> rfl
  | computes nowUs c asked hevent hactive hasked hmission =>
    have hclock : event.us?.getD w.clockUs = nowUs := by rw [hevent]; rfl
    have hcourse : node.mission.course = asked.1.course := by
      rw [hmission]
      exact SurveyMission.emit_course asked.1 nowUs asked.2.2
    have hnext := h.course.asked (SurveyMission.ask_moves hasked)
    rw [← hcourse, ← hclock] at hnext
    refine ⟨?_, fun hground => ?_⟩
    · rw [hclock] at hnext ⊢
      exact hnext
    · have hback := hgrounded hground
      rw [hactive] at hback
      cases hback

/-- In a sound state the step of a timely event joins. -/
theorem Sound.homeJoins (hspeed : 0 ≤ max plan.speedMps plan.cubeSpeedMps) (h : Sound plan w)
    (htimely : Timely (max plan.speedMps plan.cubeSpeedMps) w event) :
    HomeJoins (max plan.speedMps plan.cubeSpeedMps) w event := by
  intro last first hlast hstage hfirst hhome
  cases event with
  | tick nowUs =>
    obtain ⟨sent, -, hsent⟩ := Option.bind_eq_some_iff.mp hfirst
    split_ifs at hsent with hactive
    obtain ⟨asked, hasked, rfl⟩ := Option.map_eq_some_iff.mp hsent
    have hcourse := h.course
    rw [hlast] at hcourse
    refine hcourse.joins hspeed (htimely.clock nowUs rfl) (SurveyMission.ask_moves hasked) hhome
      hstage ?_
    intro start hstart
    exact htimely.blend nowUs start last rfl hhome hstart hlast hstage
  | _ => cases hfirst

theorem Sound.start {base : Params ℝ} {params : SurveyParams ℝ} {clockUs : ℤ}
    (haccepted : (params.plan base.takeoffAltitudeM).Accepted)
    (hflyable : (params.plan base.takeoffAltitudeM).Flyable)
    (hstart : SurveyWatch.start base params clockUs = .ok w) :
    Sound (params.plan base.takeoffAltitudeM) w := by
  obtain ⟨s, hnew, hw⟩ := Outcome.bind_ok hstart
  obtain ⟨schedule, hbuild, hs⟩ := Outcome.bind_ok hnew
  obtain rfl := Outcome.pure_ok hs
  obtain rfl := Outcome.pure_ok hw
  refine ⟨⟨haccepted.continuous hflyable hbuild, rfl, by simp, fun _ => ⟨rfl, rfl⟩,
    fun _ => ⟨rfl, fun hne => absurd rfl hne⟩, by simp, fun hne => absurd rfl hne⟩,
    fun _ => ⟨rfl, rfl⟩⟩

end SurveyWatch

theorem tick_of_state {M I : Type*} {mission : Mission K M I} {n n' : Node K M} {nowUs : ℤ}
    (hpending : n.base.pendingOrigin = none)
    (h : (n.tickState mission nowUs).map Prod.fst = some n') :
    n.step mission (.tick nowUs) = some n' := by
  have hsent : n.base.sendPendingOrigin nowUs = some (n.base, []) := by
    unfold Controller.sendPendingOrigin
    rw [hpending]
  show (n.tick mission nowUs).map Prod.fst = _
  rw [Node.tick, hsent]
  show ((Node.tickState mission n nowUs).map _).map Prod.fst = _
  rw [Option.map_map]
  exact h

theorem SurveyWatch.step_of_node {w : SurveyWatch K} {event : NodeEvent K Bool}
    {node : Node K (SurveyMission K)} (h : w.node.step (surveyMission K) event = some node) :
    w.step event = some ⟨node, (commanded w.node event).or w.last, event.us?.getD w.clockUs⟩ := by
  rw [SurveyWatch.step, h]
  rfl

/-- A tick of an active mission that asks for a setpoint only. -/
theorem SurveyWatch.step_of_ask {w : SurveyWatch ℝ} {nowUs : ℤ} {s : SurveyMission ℝ}
    {nominal : NominalSetpoint ℝ}
    (hstate : w.node.base.state = .active) (habort : w.node.base.abortRequested = false)
    (hinterlock : w.node.base.interlock = false) (hpending : w.node.base.pendingOrigin = none)
    (hgoto : w.node.base.gotoActive = false)
    (hasked : w.node.mission.ask w.node.base nowUs = some (s, [], nominal)) :
    w.step (.tick nowUs) =
      some ⟨⟨{ w.node.base with heartbeatVelocity := false },
          { (s.emit nowUs nominal).1 with lastTickUs := nowUs }⟩,
        some ⟨nowUs, nominal.position, w.node.mission.homeward⟩, nowUs⟩ := by
  have hsent : w.node.base.sendPendingOrigin nowUs = some (w.node.base, []) := by
    unfold Controller.sendPendingOrigin
    rw [hpending]
  have hcomputed : (surveyMission ℝ).computeSetpoint w.node.mission w.node.base nowUs =
      some ({ (s.emit nowUs nominal).1 with lastTickUs := nowUs }, [],
        some (s.emit nowUs nominal).2) := by
    show (w.node.mission.ask w.node.base nowUs).map _ = _
    rw [hasked]
    rfl
  have hpublished : ∃ outputs, w.node.base.publishMissionSetpoint (some (s.emit nowUs nominal).2) =
      some ({ w.node.base with heartbeatVelocity := false }, outputs) := by
    refine ⟨(w.node.base.publishPositionSetpoint ?target ?yaw).2, ?_⟩
    show some (w.node.base.publishTarget _ _) = _
    unfold Controller.publishTarget
    rw [if_neg (by simp [hgoto])]
    rfl
  obtain ⟨outputs, hpublished⟩ := hpublished
  have hactive : ((Node.tickState (surveyMission ℝ) w.node nowUs).map Prod.fst) =
      some ⟨{ w.node.base with heartbeatVelocity := false },
        { (s.emit nowUs nominal).1 with lastTickUs := nowUs }⟩ := by
    unfold Node.tickState
    rw [hstate]
    show (Node.tickActive _ _ _).map _ = _
    unfold Node.tickActive
    rw [if_neg (by simp [habort]), if_neg (by simp [hinterlock]), hcomputed, Option.bind_some]
    show ((Controller.publishMissionSetpoint w.node.base _).map _).map _ = _
    rw [hpublished]
    rfl
  have hcommanded : commanded w.node (.tick nowUs) =
      some ⟨nowUs, nominal.position, w.node.mission.homeward⟩ := by
    rw [commanded, hsent, Option.bind_some, if_pos ⟨hstate, habort, hinterlock⟩, hasked]
    rfl
  rw [SurveyWatch.step_of_node (tick_of_state hpending hactive), hcommanded]
  rfl

theorem SurveyWatch.Timely.of_quiet {speed : ℝ} {w : SurveyWatch ℝ} {event : NodeEvent ℝ Bool}
    (hclock : SurveyWatch.Clocked w event) (hquiet : ∀ nowUs, event ≠ .endMission nowUs true)
    (hhome : w.node.mission.homeward = false) : SurveyWatch.Timely speed w event where
  clock := hclock
  gate := fun nowUs hevent => absurd hevent (hquiet nowUs)
  blend := fun nowUs start last hevent hgo => by rw [hhome] at hgo; cases hgo

theorem clocked_at {w : SurveyWatch ℝ} {event : NodeEvent ℝ Bool} {us : ℤ}
    (hus : event.us? = some us) (hle : w.clockUs ≤ us) : SurveyWatch.Clocked w event := by
  intro nowUs hnow
  obtain rfl := Option.some.inj (hus.symm.trans hnow)
  exact hle

/-- The bench: a short stream, no wait for the estimate, and the height reached at once. -/
noncomputable def benchParams : Params ℝ :=
  { prestreamCycles := 1, launchStabilityS := 0, takeoffAcceptanceM := 5 }

noncomputable def benchSurvey : SurveyParams ℝ :=
  { fieldE0M := 0, fieldN0M := 0, fieldLengthM := 4, fieldWidthM := 2, speedMps := 1,
    setGlobalOriginOnLink := false }

noncomputable def benchPosition : LocalPosition ℝ :=
  ⟨⟨0, 0, 0⟩, true, true, ⟨0, 0, 0⟩, true, true, true, ⟨0, 0, 0⟩, (0, 0), 0, 0⟩

/-- The messages and ticks up to the first active tick. -/
noncomputable def benchTakeoff : List (NodeEvent ℝ Bool) :=
  [.status 1000 ⟨.offboard, 2, false⟩, .position 1000 benchPosition, .attitude ⟨1, 0, 0, 0⟩ true,
    .tick 50000, .tick 100000, .tick 150000]

noncomputable def benchMission : SurveyMission ℝ where
  params := benchSurvey
  alt := 5
  schedule := wholePlan.tour
  anchor := (0, 0)
  climbed := false
  yawAlignmentComplete := true
  yawAlignmentSettleUs := 0
  gateUs := 0
  holdYawEnu := none
  yawCmdEnu := none
  lastTickUs := 0
  homeUs := 0
  homeFrom := none
  landSettleUs := 0
  landRequested := false

noncomputable def benchStart : SurveyWatch ℝ :=
  ⟨⟨Controller.new benchParams, benchMission⟩, none, 0⟩

theorem benchStart_eq : SurveyWatch.start benchParams benchSurvey 0 = .ok benchStart := by
  have hplan : benchSurvey.plan benchParams.takeoffAltitudeM = wholePlan := rfl
  have hbuild := wholePlan.build_tour (by norm_num [wholePlan]) wholePlan_flyable.moves
  rw [SurveyWatch.start, SurveyMission.new, hplan, hbuild]
  rfl

noncomputable def benchHeard : Controller ℝ :=
  (((Controller.new benchParams).statusCb 1000 ⟨.offboard, 2, false⟩).noteCounters 1000
    benchPosition).trackPosition benchPosition

noncomputable def benchYaw : ℝ := atan2 (2 * (1 * 0 + 0 * 0)) (1 - 2 * (0 * 0 + 0 * 0))

noncomputable def benchTurned : Controller ℝ :=
  { benchHeard with yaw := benchYaw, attitudeSeen := true }

noncomputable def benchLinked : Controller ℝ :=
  { benchTurned with linkAcquiredFired := true, state := .prestream }

theorem bench_alive : benchTurned.linkAlive 50000 = true := by
  have hlimit : Engine.truncate (max 1 5 * 10 ^ 6 : ℝ) = 5000000 := by
    have hcast : (max 1 5 * 10 ^ 6 : ℝ) = ((5000000 : ℤ) : ℝ) := by norm_num
    rw [hcast, Engine.truncate, if_neg (by norm_num), Engine.floor_real, Int.floor_intCast]
  show (true && decide ((50000 : ℤ) - 1000 ≤ Engine.truncate (max 1 5 * 10 ^ 6 : ℝ))) = true
  rw [hlimit]
  decide

theorem bench_turned : SurveyWatch.step ⟨⟨benchHeard, benchMission⟩, none, 1000⟩
    (.attitude ⟨1, 0, 0, 0⟩ true) = some ⟨⟨benchTurned, benchMission⟩, none, 1000⟩ := by
  have hatt : benchHeard.attCb ⟨1, 0, 0, 0⟩ true = benchTurned := by
    unfold Controller.attCb
    rw [if_pos (by norm_num)]
    rfl
  rw [← hatt]
  rfl

theorem bench_linked : SurveyWatch.step ⟨⟨benchTurned, benchMission⟩, none, 1000⟩ (.tick 50000) =
    some ⟨⟨benchLinked, benchMission⟩, none, 50000⟩ := by
  have hstate : (Node.tickState (surveyMission ℝ) ⟨benchTurned, benchMission⟩ 50000).map Prod.fst =
      some ⟨benchLinked, benchMission⟩ := by
    show (some (Node.tickWaitLink _ _ _)).map _ = _
    unfold Node.tickWaitLink
    rw [if_pos bench_alive]
    rfl
  exact SurveyWatch.step_of_node (tick_of_state rfl hstate)

noncomputable def benchLatched : Controller ℝ :=
  { benchLinked with
    prestreamCount := 1
    launchXy := some (0, 0)
    launchZ := 0
    launchReferenceLatched := true
    launchZLatched := true
    launchYaw := benchYaw
    launchYawLatched := true }

theorem bench_engaged : SurveyWatch.step ⟨⟨benchLinked, benchMission⟩, none, 50000⟩ (.tick 100000) =
    some ⟨⟨benchLatched.engageAt 100000, benchMission⟩, none, 100000⟩ := by
  have hready : benchLinked.countPrestream.1.launchReady 100000 = true := by
    show (decide ((0 : ℝ) ≤ ((100000 - 1000 : ℤ) : ℝ) / 10 ^ 6) && true && true && true && true &&
      true) = true
    rw [decide_eq_true (by norm_num)]
    rfl
  have hlatch : benchLinked.countPrestream.1.latchLaunchReference 100000 = some benchLatched := by
    unfold Controller.latchLaunchReference
    rw [if_neg (by decide), if_pos hready]
    rfl
  have hstate : (Node.tickState (surveyMission ℝ) ⟨benchLinked, benchMission⟩ 100000).map Prod.fst =
      some ⟨benchLatched.engageAt 100000, benchMission⟩ := by
    show ((Controller.tickPrestream benchLinked 100000).map _).map _ = _
    unfold Controller.tickPrestream
    rw [if_pos (by decide), hlatch]
    rfl
  exact SurveyWatch.step_of_node (tick_of_state rfl hstate)

noncomputable def benchActive : Controller ℝ :=
  { benchLatched.engageAt 100000 with state := .active }

noncomputable def benchSettled : SurveyMission ℝ := benchMission.onActiveStart benchActive

theorem bench_active : SurveyWatch.step ⟨⟨benchLatched.engageAt 100000, benchMission⟩, none, 100000⟩
    (.tick 150000) = some ⟨⟨benchActive, benchSettled⟩, none, 150000⟩ := by
  have hstate : (Node.tickState (surveyMission ℝ)
      ⟨benchLatched.engageAt 100000, benchMission⟩ 150000).map Prod.fst =
        some ⟨benchActive, benchSettled⟩ := by
    show (some (Node.tickEngage _ _ _)).map _ = _
    unfold Node.tickEngage
    dsimp only
    rw [if_neg (by decide), if_pos (by decide)]
    rfl
  exact SurveyWatch.step_of_node (tick_of_state rfl hstate)

noncomputable def benchFlying : Controller ℝ := { benchActive with heartbeatVelocity := false }

noncomputable def benchClimbed : SurveyMission ℝ :=
  { ((benchSettled.climb benchActive 1950000).1.emit 1950000
      (benchSettled.climb benchActive 1950000).2.2).1 with lastTickUs := 1950000 }

theorem bench_course : benchClimbed.course = { benchMission.course with climbed := true } := by
  have hreached : |benchActive.pos.down - benchActive.takeoffTargetZ| ≤
      benchActive.params.takeoffAcceptanceM := by
    show |(0 : ℝ) - (0 - |(5 : ℝ)|)| ≤ 5
    norm_num
  show ((benchSettled.climb benchActive 1950000).1.emit 1950000
      (benchSettled.climb benchActive 1950000).2.2).1.course = _
  rw [SurveyMission.emit_course]
  unfold SurveyMission.climb
  dsimp only
  rw [if_pos hreached]
  rfl

theorem bench_climbs :
    SurveyWatch.step ⟨⟨benchActive, benchSettled⟩, none, 150000⟩ (.tick 1950000) =
      some ⟨⟨benchFlying, benchClimbed⟩, some ⟨1950000, ⟨0, 0, 5⟩, false⟩, 1950000⟩ := by
  have hposition : (benchSettled.climb benchActive 1950000).2.2.position = ⟨0, 0, 5⟩ := by
    unfold SurveyMission.climb
    dsimp only
    split <;> rfl
  have hasked : benchSettled.ask benchActive 1950000 =
      some ((benchSettled.climb benchActive 1950000).1, [],
        (benchSettled.climb benchActive 1950000).2.2) := rfl
  refine (SurveyWatch.step_of_ask rfl rfl rfl rfl rfl hasked).trans ?_
  rw [hposition]
  rfl

/-- The first lane of the plan, which starts at home. -/
theorem wholePlan_first {t : ℝ} (ht : 0 ≤ t) (hend : t ≤ 6) :
    (scheduleSetpoint wholePlan.tour t).position = ⟨4 * smoothstep (t / 6), 0, 5⟩ := by
  have hflown : flown (⟨0, 0, 5⟩ : EnuPoint ℝ) ⟨4, 0, 5⟩ := by
    norm_num [flown_iff]
  have hstill : ¬ flown (⟨0, 0, 5⟩ : EnuPoint ℝ) ⟨0, 0, 5⟩ := by
    norm_num [flown_iff]
  have hlanes : ∃ rest, wholePlan.tour =
      seg (⟨0, 0, 5⟩ : EnuPoint ℝ) ⟨4, 0, 5⟩ 1 "serpentine" :: rest := by
    have hhome : wholePlan.home = ⟨0, 0, 5⟩ := rfl
    rw [SurveyPlan.tour, SurveyPlan.lanes, wholePlan_lanes, hhome, polylineSchedule, if_neg hstill,
      polylineSchedule, if_pos hflown]
    exact ⟨_, rfl⟩
  have hduration : (seg (⟨0, 0, 5⟩ : EnuPoint ℝ) ⟨4, 0, 5⟩ 1 "serpentine").durationS = 6 := by
    have hdist : dist3 (⟨0, 0, 5⟩ : EnuPoint ℝ) ⟨4, 0, 5⟩ = 4 := by
      show √_ = 4
      rw [show ((0 : ℝ) - 4) * (0 - 4) + (0 - 0) * (0 - 0) + (5 - 5) * (5 - 5) = 4 ^ 2 by norm_num,
        Real.sqrt_sq (by norm_num)]
    show (if flown _ _ then 3 / 2 * dist3 _ _ / 1 else 0) = (6 : ℝ)
    rw [if_pos hflown, hdist]
    norm_num
  obtain ⟨rest, htour⟩ := hlanes
  rw [scheduleSetpoint, max_eq_right ht, htour, walkSchedule, if_pos (hend.trans hduration.ge)]
  show Segment.point _ _ = _
  rw [Segment.point, hduration, if_pos (by norm_num)]
  simp [seg]

/-- The mission after the command to come home, with a gate or without. -/
noncomputable def benchEnded (gateUs endUs : ℤ) (east : ℝ) : SurveyMission ℝ :=
  { benchClimbed with gateUs, homeFrom := some ⟨east, 0, 5⟩, homeUs := endUs }

theorem bench_ends {gateUs endUs : ℤ} {t : ℝ} (ht : seconds gateUs endUs = t) (hstart : 0 ≤ t)
    (hend : t ≤ 6) : ({ benchClimbed with gateUs } : SurveyMission ℝ).onReturnHome endUs =
      (benchEnded gateUs endUs (4 * smoothstep (t / 6)), []) := by
  have hclimbed : benchClimbed.climbed = true := congrArg SurveyCourse.climbed bench_course
  have hhome : benchClimbed.homeUs = 0 := congrArg SurveyCourse.homeUs bench_course
  have hschedule : benchClimbed.schedule = wholePlan.tour :=
    congrArg SurveyCourse.schedule bench_course
  have hnominal : (({ benchClimbed with gateUs } : SurveyMission ℝ).currentNominal endUs).1 =
      ⟨4 * smoothstep (t / 6), 0, 5⟩ := by
    show (scheduleSetpoint benchClimbed.schedule (max 0 (seconds gateUs endUs))).position = _
    rw [hschedule, ht, max_eq_right hstart, wholePlan_first hstart hend]
  unfold SurveyMission.onReturnHome
  rw [if_neg (by simp [hclimbed]), if_pos hhome, hnominal]
  rfl

noncomputable def benchReturning : Controller ℝ := { benchFlying with homeRequested := true }

/-- Fifty milliseconds into the blend. -/
theorem bench_share (gateUs endUs : ℤ) (east : ℝ) :
    (benchEnded gateUs endUs east).homeShare (endUs + 50000) = 1 / 80 := by
  have htime : benchClimbed.params.toHomeTimeS = 4 :=
    congrArg SurveyCourse.toHomeTimeS bench_course
  have hseconds : (seconds endUs (endUs + 50000) : ℝ) = 1 / 20 := by
    unfold Choreography.seconds
    push_cast
    ring_nf
  show min 1 (max 0 (seconds endUs (endUs + 50000)) /
    max (1 / 10 ^ 3) benchClimbed.params.toHomeTimeS) = _
  rw [hseconds, htime]
  norm_num

/-- The tick after the command to come home. -/
theorem bench_commanded (gateUs endUs : ℤ) (hend : endUs ≠ 0) (east : ℝ) :
    commanded ⟨benchReturning, benchEnded gateUs endUs east⟩ (.tick (endUs + 50000)) =
      some ⟨endUs + 50000, ⟨east * (1 - smoothstep (1 / 80)), 0, 5⟩, true⟩ := by
  have hclimbed : benchClimbed.climbed = true := congrArg SurveyCourse.climbed bench_course
  have haligned : benchClimbed.yawAlignmentComplete = true :=
    congrArg SurveyCourse.aligned bench_course
  have halt : benchClimbed.alt = 5 := congrArg SurveyCourse.alt bench_course
  have hasked : (benchEnded gateUs endUs east).ask benchReturning (endUs + 50000) =
      some (benchEnded gateUs endUs east, [],
        ⟨(benchEnded gateUs endUs east).homePosition (endUs + 50000) ⟨east, 0, 5⟩,
          (benchEnded gateUs endUs east).yawCmdEnu.getD 0, false⟩) := by
    unfold SurveyMission.ask
    rw [if_neg (by simp [benchEnded, hclimbed]), if_neg (by simp [benchEnded, haligned]),
      if_pos (show (benchEnded gateUs endUs east).homeUs ≠ 0 from hend)]
    show some (SurveyMission.homeSetpoint _ _ _ _) = _
    unfold SurveyMission.homeSetpoint
    dsimp only
    rw [bench_share, if_neg (by norm_num)]
  have hposition : (benchEnded gateUs endUs east).homePosition (endUs + 50000) ⟨east, 0, 5⟩ =
      ⟨east * (1 - smoothstep (1 / 80)), 0, 5⟩ := by
    unfold SurveyMission.homePosition
    dsimp only
    rw [bench_share]
    show (⟨_, _, 5 + (benchClimbed.alt - 5) * _⟩ : EnuPoint ℝ) = _
    rw [halt]
    simp [smoothstep]
  have hhomeward : (benchEnded gateUs endUs east).homeward = true := by
    simp [SurveyMission.homeward, benchEnded, hclimbed, haligned, hend]
  have hsent : benchReturning.sendPendingOrigin (endUs + 50000) = some (benchReturning, []) := rfl
  rw [commanded, hsent, Option.bind_some, if_pos ⟨rfl, rfl, rfl⟩, hasked, Option.map_some,
    hposition, hhomeward]

theorem bench_takeoff_run :
    Runs.run SurveyWatch.step benchStart (benchTakeoff ++ [.tick 1950000]) =
      some ⟨⟨benchFlying, benchClimbed⟩, some ⟨1950000, ⟨0, 0, 5⟩, false⟩, 1950000⟩ := by
  show Runs.run SurveyWatch.step ⟨⟨benchHeard, benchMission⟩, none, 1000⟩
    [.attitude ⟨1, 0, 0, 0⟩ true, .tick 50000, .tick 100000, .tick 150000, .tick 1950000] = _
  rw [Runs.run_cons, bench_turned, Option.bind_some, Runs.run_cons, bench_linked, Option.bind_some,
    Runs.run_cons, bench_engaged, Option.bind_some, Runs.run_cons, bench_active, Option.bind_some,
    Runs.run_cons]
  show (SurveyWatch.step ⟨⟨benchActive, benchSettled⟩, none, 150000⟩ (.tick 1950000)).bind _ = _
  rw [bench_climbs]
  rfl

theorem bench_timely (speed : ℝ) : Runs.Along SurveyWatch.step (SurveyWatch.Timely speed) benchStart
    (benchTakeoff ++ [.tick 1950000]) := by
  have hstatus : benchStart.step (.status 1000 ⟨.offboard, 2, false⟩) = some
      ⟨⟨(Controller.new benchParams).statusCb 1000 ⟨.offboard, 2, false⟩, benchMission⟩, none,
        1000⟩ := rfl
  have hposition : SurveyWatch.step
      ⟨⟨(Controller.new benchParams).statusCb 1000 ⟨.offboard, 2, false⟩, benchMission⟩, none, 1000⟩
      (.position 1000 benchPosition) = some ⟨⟨benchHeard, benchMission⟩, none, 1000⟩ := rfl
  have hquiet (w : SurveyWatch ℝ) (event : NodeEvent ℝ Bool) (us : ℤ) (hus : event.us? = some us)
      (hle : w.clockUs ≤ us) (hevent : ∀ nowUs, event ≠ .endMission nowUs true)
      (hhome : w.node.mission.homeward = false) : SurveyWatch.Timely speed w event :=
    .of_quiet (clocked_at hus hle) hevent hhome
  show Runs.Along SurveyWatch.step (SurveyWatch.Timely speed) benchStart
    [.status 1000 ⟨.offboard, 2, false⟩, .position 1000 benchPosition, .attitude ⟨1, 0, 0, 0⟩ true,
    .tick 50000, .tick 100000, .tick 150000, .tick 1950000]
  rw [Runs.along_cons _ hstatus, Runs.along_cons _ hposition, Runs.along_cons _ bench_turned,
    Runs.along_cons _ bench_linked, Runs.along_cons _ bench_engaged, Runs.along_cons _ bench_active,
    Runs.along_cons _ bench_climbs]
  refine ⟨hquiet _ _ 1000 rfl (by decide) (by simp) rfl,
    hquiet _ _ 1000 rfl (by decide) (by simp) rfl,
    .of_quiet (fun _ h => by cases h) (by simp) rfl, hquiet _ _ 50000 rfl (by decide) (by simp) rfl,
    hquiet _ _ 100000 rfl (by decide) (by simp) rfl,
    hquiet _ _ 150000 rfl (by decide) (by simp) rfl,
    hquiet _ _ 1950000 rfl (by decide) (by simp) rfl, trivial⟩

/-- The command to come home, after a gate or without one. -/
theorem bench_endCb (gateUs clockUs endUs : ℤ) (last : Option (Commanded ℝ)) {t : ℝ}
    (ht : seconds gateUs endUs = t) (hstart : 0 ≤ t) (hend : t ≤ 6) :
    SurveyWatch.step ⟨⟨benchFlying, { benchClimbed with gateUs }⟩, last, clockUs⟩
        (.endMission endUs true) =
      some ⟨⟨benchReturning, benchEnded gateUs endUs (4 * smoothstep (t / 6))⟩, last, endUs⟩ := by
  have hnode : Node.step (surveyMission ℝ) ⟨benchFlying, { benchClimbed with gateUs }⟩
      (.endMission endUs true) =
        some ⟨benchReturning, benchEnded gateUs endUs (4 * smoothstep (t / 6))⟩ := by
    show some (Node.answer benchReturning endUs
      (({ benchClimbed with gateUs } : SurveyMission ℝ).onReturnHome endUs)).1 = _
    rw [bench_ends ht hstart hend]
    rfl
  exact SurveyWatch.step_of_node hnode

/-- The gate at two seconds, and the command to come home a second later. -/
noncomputable def benchReturn : List (NodeEvent ℝ Bool) :=
  (benchTakeoff ++ [.tick 1950000]) ++
    [.input 2000000 true, .endMission 3000000 true, .tick 3050000]

theorem bench_gate : SurveyWatch.step ⟨⟨benchFlying, benchClimbed⟩,
    some ⟨1950000, ⟨0, 0, 5⟩, false⟩, 1950000⟩ (.input 2000000 true) =
      some ⟨⟨benchFlying, { benchClimbed with gateUs := 2000000 }⟩,
        some ⟨1950000, ⟨0, 0, 5⟩, false⟩, 2000000⟩ := by
  have hzero : benchClimbed.gateUs = 0 := congrArg SurveyCourse.gateUs bench_course
  have hclimbed : benchClimbed.climbed = true := congrArg SurveyCourse.climbed bench_course
  have haligned : benchClimbed.yawAlignmentComplete = true :=
    congrArg SurveyCourse.aligned bench_course
  have hgate : benchClimbed.gateCb benchFlying 2000000 true =
      { benchClimbed with gateUs := 2000000 } := by
    have hrequested : benchFlying.homeRequested = false := rfl
    unfold SurveyMission.gateCb
    rw [if_neg (by simp [hzero, hrequested]), if_neg (by simp [hclimbed, haligned])]
  have hnode : Node.step (surveyMission ℝ) ⟨benchFlying, benchClimbed⟩ (.input 2000000 true) =
      some ⟨benchFlying, { benchClimbed with gateUs := 2000000 }⟩ := by
    show some (⟨benchFlying, benchClimbed.gateCb benchFlying 2000000 true⟩ : Node ℝ _) = _
    rw [hgate]
  exact SurveyWatch.step_of_node hnode

end Mission10.Flight
