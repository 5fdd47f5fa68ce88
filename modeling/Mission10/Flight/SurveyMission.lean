import Mission10.Flight.OffboardController
import Mission10.Flight.SurveySchedule

/-!
# The survey mission

The node that flies a survey schedule, as hooks of the offboard controller. It holds
over the launch until the gate, walks the schedule from the gate on, and blends to the
launch when it is told to come home. The times that are zero until they are set are
zero here too. The progress messages are left out.
-/
namespace Mission10.Flight

open Engine (MathOps Vec3 Point2 hypot radians wrapPi)
open Engine.MathOps
open Choreography (seconds)

/-- `yaw_mode`. -/
inductive SurveyYawMode
  | track
  | hold
deriving DecidableEq, Repr

/-- The declared parameters, with their defaults. -/
structure SurveyParams (K : Type*) [Field K] where
  fieldE0M : K := 2
  fieldN0M : K := 2
  laneAxisDeg : K := 0
  fieldLengthM : K := 10
  fieldWidthM : K := 6
  laneSpacingM : K := 2
  speedMps : K := 3 / 2
  revisitGapS : K := 8
  crosshatch : Bool := true
  cubeSideM : K := 2
  cubeSpeedMps : K := 1
  yawMode : SurveyYawMode := .track
  yawRateMaxDps : K := ((45 : ℕ) : K)
  toHomeTimeS : K := 4
  landXyAcceptanceM : K := 7 / 20
  landVxyAcceptanceMps : K := 1 / 5
  landSettleTimeS : K := 1
  surveyAutoStart : Bool := false
  alignToLaunchYaw : Bool := false
  postTakeoffYawAlignment : Bool := false
  postTakeoffYawDeg : K := 180
  postTakeoffYawToleranceDeg : K := 5
  postTakeoffYawSettleS : K := 1
  originLat : K := ((422658783 : ℕ) : K) / 10 ^ 7
  originLon : K := -(((837487304 : ℕ) : K) / 10 ^ 7)
  originAlt : K := 0
  setGlobalOriginOnLink : Bool := true
  anchorFrameAfterClimb : Bool := true

/-- What a tick asks for before the yaw is slewed and the anchor added. -/
structure NominalSetpoint (K : Type*) where
  position : EnuPoint K
  yaw : K
  forceYawTarget : Bool

/-- The node's own fields. -/
structure SurveyMission (K : Type*) [Field K] where
  params : SurveyParams K
  alt : K
  schedule : List (Segment K)
  anchor : K × K
  climbed : Bool
  yawAlignmentComplete : Bool
  yawAlignmentSettleUs : ℤ
  gateUs : ℤ
  holdYawEnu : Option K
  yawCmdEnu : Option K
  lastTickUs : ℤ
  homeUs : ℤ
  homeFrom : Option (EnuPoint K)
  landSettleUs : ℤ
  landRequested : Bool

variable {K : Type*} [Field K] [LinearOrder K] [MathOps K]

namespace SurveyParams

variable (params : SurveyParams K)

/-- The arguments of the planner. -/
def plan (altitudeM : K) : SurveyPlan K where
  field := ⟨params.fieldE0M, params.fieldN0M, params.laneAxisDeg, params.fieldLengthM,
    params.fieldWidthM, params.laneSpacingM, altitudeM⟩
  speedMps := params.speedMps
  revisitGapS := params.revisitGapS
  crosshatch := params.crosshatch
  cubeSideM := params.cubeSideM
  cubeSpeedMps := params.cubeSpeedMps

def postTakeoffYawNed : K := wrapPi (radians params.postTakeoffYawDeg)

def postTakeoffYawEnu : K := wrapPi (pi / 2 - params.postTakeoffYawNed)

end SurveyParams

/-- `enu_to_ned_setpoint`. -/
def enuToNedSetpoint (position : EnuPoint K) (yawEnu : K) : MissionSetpoint K :=
  .position ⟨position.north, position.east, -position.up⟩ (wrapPi (pi / 2 - yawEnu))

namespace SurveyMission

/-- `__init__`: it raises what the planner raises. -/
def new (base : Params K) (params : SurveyParams K) : Except SurveyError (SurveyMission K) := do
  let schedule ← buildSurveySchedule (params.plan base.takeoffAltitudeM)
  return {
    params
    alt := base.takeoffAltitudeM
    schedule
    anchor := (0, 0)
    climbed := false
    yawAlignmentComplete := !params.postTakeoffYawAlignment
    yawAlignmentSettleUs := 0
    gateUs := 0
    holdYawEnu := none
    yawCmdEnu := none
    lastTickUs := 0
    homeUs := 0
    homeFrom := none
    landSettleUs := 0
    landRequested := false }

variable (s : SurveyMission K) (c : Controller K) (nowUs : ℤ)

/-! ### The schedule -/

def scheduleElapsedS : K := max 0 (seconds s.gateUs nowUs)

/-- The schedule at an instant: position, yaw target and whether it is over. -/
def currentNominal : EnuPoint K × K × Bool :=
  let setpoint := scheduleSetpoint s.schedule (s.scheduleElapsedS nowUs)
  let yaw := if setpoint.direction ≠ (0, 0) then atan2 setpoint.direction.2 setpoint.direction.1
    else s.holdYawEnu.getD 0
  (setpoint.position, yaw, setpoint.done)

/-- Over the launch, at the height of the survey. -/
def hold : EnuPoint K := ⟨0, 0, s.alt⟩

/-! ### Hooks -/

def onLinkAcquired : List (Request K) :=
  if s.params.setGlobalOriginOnLink then
    [.setGlobalOrigin s.params.originLat s.params.originLon s.params.originAlt]
  else []

/-- `_gate_cb`. -/
def gateCb (data : Bool) : SurveyMission K :=
  if !data || s.gateUs ≠ 0 || c.homeRequested then s
  else if !s.climbed || !s.yawAlignmentComplete then s
  else { s with gateUs := nowUs }

def onActiveStart : SurveyMission K :=
  let holdYawEnu := wrapPi (pi / 2 - c.holdYaw)
  let schedule :=
    if s.params.postTakeoffYawAlignment then
      rotateSchedule s.schedule s.params.postTakeoffYawEnu
    else if s.params.alignToLaunchYaw then rotateSchedule s.schedule holdYawEnu
    else s.schedule
  { s with holdYawEnu := some holdYawEnu, yawCmdEnu := some holdYawEnu, schedule }

/-- Before the climb is done the node lands; later it blends home from the schedule. -/
def onReturnHome : SurveyMission K × List (Request K) :=
  if !s.climbed then (s, [.requestLand])
  else if s.homeUs = 0 then
    ({ s with homeFrom := some (s.currentNominal nowUs).1, homeUs := nowUs }, [])
  else (s, [])

/-! ### The tick -/

/-- The slew limiter. -/
def slewedYaw (target : K) (forceTarget : Bool) : SurveyMission K × K :=
  match s.holdYawEnu, decide (s.params.yawMode = .hold) && !forceTarget with
  | some holdYaw, true => (s, holdYaw)
  | _, _ =>
    let yawCmd := s.yawCmdEnu.getD target
    let dt := if s.lastTickUs ≠ 0 then seconds s.lastTickUs nowUs else 0
    let dt := min (max dt 0) (1 / 4)
    let err := wrapPi (target - yawCmd)
    let step := radians s.params.yawRateMaxDps * dt
    let yawCmd := wrapPi (yawCmd + max (-step) (min step err))
    ({ s with yawCmdEnu := some yawCmd }, yawCmd)

/-- The yaw is slewed and the anchor added. -/
def emit (nominal : NominalSetpoint K) : SurveyMission K × MissionSetpoint K :=
  let (s, yaw) := s.slewedYaw nowUs nominal.yaw nominal.forceYawTarget
  let (ae, an) := s.anchor
  let position := nominal.position
  (s, enuToNedSetpoint ⟨position.east + ae, position.north + an, position.up⟩ yaw)

/-- Still enough over the anchor, for long enough, the node asks to land. -/
def settleAndLand : SurveyMission K × List (Request K) :=
  let (ae, an) := s.anchor
  let xyError := hypot (c.pos.north - an) (c.pos.east - ae)
  let vxy := hypot c.vel.north c.vel.east
  let settled := c.xyFinite && decide (xyError ≤ s.params.landXyAcceptanceM) &&
    decide (vxy ≤ s.params.landVxyAcceptanceMps)
  let settleUs := if settled then (if s.landSettleUs = 0 then nowUs else s.landSettleUs) else 0
  let dwell : K := if settled then seconds settleUs nowUs else 0
  let s := { s with landSettleUs := settleUs }
  if dwell ≥ s.params.landSettleTimeS ∧ s.landRequested = false then
    ({ s with landRequested := true }, [.requestLand])
  else (s, [])

/-- How far along the blend is, from nought to one. -/
def homeShare : K :=
  min 1 (max 0 (seconds s.homeUs nowUs) / max (1 / 10 ^ 3) s.params.toHomeTimeS)

/-- The blend from a point to the launch. -/
def homePosition (start : EnuPoint K) : EnuPoint K :=
  let u := s.homeShare nowUs
  let share := u * u * (3 - 2 * u)
  ⟨start.east * (1 - share), start.north * (1 - share), start.up + (s.alt - start.up) * share⟩

/-- The node with what it asks for and the setpoint of a tick. -/
abbrev Asked (K : Type*) [Field K] := SurveyMission K × List (Request K) × NominalSetpoint K

def homeSetpoint (start : EnuPoint K) : Asked K :=
  let nominal := ⟨s.homePosition nowUs start, s.yawCmdEnu.getD 0, false⟩
  if s.homeShare nowUs ≥ 1 then
    let landing := s.settleAndLand c nowUs
    (landing.1, landing.2, nominal)
  else (s, [], nominal)

/-- Since when the heading is within its tolerance, and for how long. -/
def alignmentDwell : ℤ × K :=
  let yawError := wrapPi (s.params.postTakeoffYawNed - c.yaw)
  if |yawError| ≤ radians s.params.postTakeoffYawToleranceDeg then
    let settleUs := if s.yawAlignmentSettleUs = 0 then nowUs else s.yawAlignmentSettleUs
    (settleUs, seconds settleUs nowUs)
  else (0, 0)

/-- The heading is held until the vehicle has turned and settled. -/
def postTakeoffAlignmentSetpoint : Asked K :=
  let dwell := s.alignmentDwell c nowUs
  let s := { s with yawAlignmentSettleUs := dwell.1 }
  let nominal := ⟨s.hold, s.params.postTakeoffYawEnu, true⟩
  if dwell.2 ≥ s.params.postTakeoffYawSettleS then
    ({ s with
        yawAlignmentComplete := true
        holdYawEnu := some s.params.postTakeoffYawEnu
        yawCmdEnu := some s.params.postTakeoffYawEnu
        gateUs := if s.params.surveyAutoStart && decide (s.gateUs = 0) then nowUs else s.gateUs },
      [], nominal)
  else (s, [], nominal)

/-- The climb: the anchor follows the vehicle until the height is reached. -/
def climb : Asked K :=
  let s := if s.params.anchorFrameAfterClimb then { s with anchor := (c.pos.east, c.pos.north) }
    else s
  let s :=
    if |c.pos.down - c.takeoffTargetZ| ≤ c.params.takeoffAcceptanceM then
      { s with
        climbed := true
        gateUs := if s.params.surveyAutoStart && s.yawAlignmentComplete && decide (s.gateUs = 0)
          then nowUs else s.gateUs }
    else s
  (s, [], ⟨s.hold, s.holdYawEnu.getD 0, false⟩)

/-- The schedule, and the landing after it. -/
def fly : Asked K :=
  let (position, yaw, done) := s.currentNominal nowUs
  if done then
    let landing := s.settleAndLand c nowUs
    (landing.1, landing.2, ⟨position, yaw, false⟩)
  else (s, [], ⟨position, yaw, false⟩)

/-- The branches of a tick, none when it raises. -/
def ask : Option (Asked K) :=
  if !s.climbed then some (s.climb c nowUs)
  else if !s.yawAlignmentComplete then some (s.postTakeoffAlignmentSetpoint c nowUs)
  else if s.homeUs ≠ 0 then s.homeFrom.map (s.homeSetpoint c nowUs)
  else if s.gateUs = 0 then some (s, [], ⟨s.hold, s.holdYawEnu.getD 0, false⟩)
  else some (s.fly c nowUs)

def computeSetpoint :
    Option (SurveyMission K × List (Request K) × Option (MissionSetpoint K)) :=
  (s.ask c nowUs).map fun asked =>
    let (s, requests, nominal) := asked
    let (s, setpoint) := s.emit nowUs nominal
    ({ s with lastTickUs := nowUs }, requests, some setpoint)

end SurveyMission

/-- The hooks of the survey mission; its own topic is the gate. -/
def surveyMission (K : Type*) [Field K] [LinearOrder K] [MathOps K] :
    Mission K (SurveyMission K) Bool where
  onLinkAcquired := fun s _ _ => (s, s.onLinkAcquired)
  onActiveStart := fun s c _ => (s.onActiveStart c, [])
  onReturnHome := fun s _ nowUs => s.onReturnHome nowUs
  onLocalFrameReset := fun s _ _ _ _ => (s, [])
  onInput := fun s c nowUs data => (s.gateCb c nowUs data, [])
  computeSetpoint := fun s c nowUs => s.computeSetpoint c nowUs

end Mission10.Flight
