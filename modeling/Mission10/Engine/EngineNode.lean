import Mission10.Engine.Mission
import Mission10.Engine.TagAnchor
import Mission10.Engine.Ingest

/-!
# The rim of the mission engine

The node joins detections to poses, keeps the tag anchor and the setpoint
correction, ticks the engine while the controller under it is active, sends the
payload and asks for the landing. The controller's own state machine enters as
events: whether it is active, whether the vehicle is armed, the launch reference.
-/
namespace Mission10.Engine

open MathOps

variable {K : Type*} [Field K] [LinearOrder K] [MathOps K]

/-- The parameters the node declares, with their defaults. -/
structure NodeParams (K : Type*) [Field K] where
  missionPattern : String := "serpentine"
  laneLengthM : K := 10
  nLanes : ℤ := 3
  laneSpacingM : K := 3
  laneHeadingDeg : K := 180
  lanesOffsetNe : Point2 K := (0, -3)
  rosetteRadiusM : K := 3 / 2
  rosetteOuterHoldS : K := 1 / 2
  rosetteCenterHoldS : K := 1 / 2
  rosettePetals : ℤ := 8
  surveyAltM : K := 4
  laneSpeedMps : K := 1
  reachToleranceM : K := 1 / 4
  landSettleS : K := 3
  landSpeedToleranceMps : K := 1 / 5
  fenceRadiusM : K := 12
  fieldPolygonGps : List K := []
  requireFieldPolygon : Bool := false
  fieldPolygonMarginM : K := 0
  launchGpsMaxAgeS : K := 2
  launchGpsMaxEphM : K := 5 / 2
  missionTimeoutS : K := 300
  maxDips : ℤ := 0
  detectorSilenceS : K := 0
  cameraFxPx : K := 129869385194 / 10 ^ 8
  cameraWidthPx : ℕ := 1640
  cameraHeightPx : ℕ := 1232
  cameraRollDeg : K := 0
  cameraTiltDeg : K := 0
  anchorGateM : K := 3 / 2
  anchorPersistS : K := 1
  anchorMaxRadialM : K := 3
  anchorTagIds : List ℤ := [6, 7]
  anchorAborts : Bool := true
  anchorCorrects : Bool := false
  anchorCorrectionRateMps : K := 3 / 10
  anchorCorrectionMaxM : K := 5
  anchorCorrectionFreshS : K := 1 / 2
  anchorCorrectionPairErrorM : K := 1 / 4
  anchorCorrectionSettleM : K := 1 / 10
  dumpHost : String := ""

/-- The reset counters of a local position. -/
structure ResetCounters where
  xy : ℤ
  z : ℤ
  heading : ℤ
deriving DecidableEq

/-- `VehicleLocalPosition`. -/
structure LocalPosition (K : Type*) where
  pos : Vec3 K
  vel : Vec3 K
  xyValid : Bool
  vXyValid : Bool
  counters : ResetCounters
  deltaXy : Point2 K
  deltaZ : K
  deltaHeading : K
  distBottomValid : Bool
  distBottom : K

/-- `DistanceSensor`. -/
structure DistanceSensor (K : Type*) where
  currentDistance : K
  minDistance : K
  maxDistance : K

/-- `SensorGps`. -/
structure SensorGps (K : Type*) where
  fixType : ℕ
  eph : K
  latitudeDeg : K
  longitudeDeg : K

/-- One entry of a `Detection2DArray`: its id, its best hypothesis and the box
center. -/
structure Detection (K : Type*) where
  id : String
  hypothesis : Option (K × String)
  center : Point2 K

/-- What became of one connection to the master. -/
inductive LinkOutcome
  | failed
  | replied (ack : List UInt8)
deriving DecidableEq

structure EngineNode (K : Type*) [Field K] [LinearOrder K] where
  params : NodeParams K
  cam : CameraModel K
  -- the controller underneath
  active : Bool
  armed : Bool
  startOk : Bool
  homeRequested : Bool
  abortRequested : Bool
  pos : Vec3 K
  vel : Vec3 K
  yaw : K
  xyValid : Bool
  vXyValid : Bool
  counters : Option ResetCounters
  launchXy : Option (Point2 K)
  launchZ : K
  launchYaw : K
  launchLatched : Bool
  -- the rim
  anchor : TagAnchorMap K
  correction : SetpointCorrection K
  poses : PoseHistory K
  engine : Option (MissionEngine K)
  q : Quat K
  agl : Option K
  aglT : K
  rangeAirborne : Bool
  groundRangeT0 : Option K
  crashDisarm : Bool
  lastCrashDisarmUs : ℤ
  anchorNe : Option (Point2 K)
  begun : Bool
  dumped : Bool
  landRequested : Bool
  rawGps : Option (SensorGps K)
  rawGpsReceivedUs : ℤ
  launchGpsReference : Option (Point2 K × Point2 K)

/-- The setpoint the node hands to the controller. -/
structure FlightSetpoint (K : Type*) where
  n : K
  e : K
  z : K
  yaw : Option K

/-- What an event makes the node put out: a setpoint, the result of a send of the
payload, a forced disarm. -/
structure NodeReply (K : Type*) where
  setpoint : Option (FlightSetpoint K) := none
  sent : Option Bool := none
  disarm : Bool := false

/-- The prefix of the ids that name a ground tag. -/
def tagPrefix : String := "tag36h11:"

/-- A time stamp in seconds. -/
def seconds (us : ℤ) : K := us / 10 ^ 6

/-- White space that `bytes.strip` removes. -/
def isSpaceByte (b : UInt8) : Bool := b = 32 || (9 ≤ b && b ≤ 13)

def stripBytes (bytes : List UInt8) : List UInt8 :=
  ((bytes.dropWhile isSpaceByte).reverse.dropWhile isSpaceByte).reverse

/-- The two bytes of an acknowledgement. -/
def ackOk : List UInt8 := [111, 107]

/-- `_send_dump`: without a master the local artifact is the delivery. -/
def sendDump (host : String) (link : LinkOutcome) : Bool :=
  if host = "" then true
  else match link with
    | .failed => false
    | .replied ack => decide (stripBytes (ack.take 16) = ackOk)

namespace EngineNode

/-! ## Construction -/

def cameraModel (p : NodeParams K) : Except String (CameraModel K) :=
  let halfView := atan2 (1 / 2 * p.cameraWidthPx / p.cameraFxPx) 1
  CameraModel.new p.cameraWidthPx p.cameraHeightPx (degrees (2 * halfView)) p.cameraTiltDeg

def anchorConfig (p : NodeParams K) : Except String (AnchorConfig K) :=
  AnchorConfig.new {
    gateM := p.anchorGateM
    gatePersistS := p.anchorPersistS
    maxRadialM := p.anchorMaxRadialM
    maxAglM := p.surveyAltM + 2 }

def correctionConfig (p : NodeParams K) : Except String (CorrectionConfig K) :=
  CorrectionConfig.new {
    maxRateMps := p.anchorCorrectionRateMps
    maxCorrectionM := p.anchorCorrectionMaxM }

def initial (params : NodeParams K) (cam : CameraModel K) (anchorCfg : AnchorConfig K)
    (correctionCfg : CorrectionConfig K) : EngineNode K where
  params
  cam
  active := false
  armed := false
  startOk := false
  homeRequested := false
  abortRequested := false
  pos := ⟨0, 0, 0⟩
  vel := ⟨0, 0, 0⟩
  yaw := 0
  xyValid := false
  vXyValid := false
  counters := none
  launchXy := none
  launchZ := 0
  launchYaw := 0
  launchLatched := false
  anchor := .new anchorCfg
  correction := .new correctionCfg
  poses := ⟨5, []⟩
  engine := none
  q := ⟨1, 0, 0, 0⟩
  agl := none
  aglT := 0
  rangeAirborne := false
  groundRangeT0 := none
  crashDisarm := false
  lastCrashDisarmUs := 0
  anchorNe := none
  begun := false
  dumped := false
  landRequested := false
  rawGps := none
  rawGpsReceivedUs := 0
  launchGpsReference := none

def new (params : NodeParams K) : Except String (EngineNode K) := do
  let cam ← cameraModel params
  let anchorCfg ← anchorConfig params
  let correctionCfg ← correctionConfig params
  return initial params cam anchorCfg correctionCfg

/-! ## Mission parameters -/

/-- Resolve the corners against the launch fix. -/
def fieldPolygonNe (n : EngineNode K) : Except String (List (Point2 K)) :=
  match n.params.fieldPolygonGps with
  | [] =>
    if n.params.requireFieldPolygon then
      .error "field_polygon_gps is required; enter the four surveyed corners"
    else .ok []
  | [lat0, lon0, lat1, lon1, lat2, lon2, lat3, lon3] =>
    match n.launchGpsReference with
    | none => .error "field_polygon_gps requires a qualified raw GPS launch fix"
    | some (launchLl, launchNe) =>
      let lonScale := mPerDegLat * cos (radians launchLl.1)
      let corner (lat lon : K) : Point2 K :=
        (launchNe.1 + (lat - launchLl.1) * mPerDegLat, launchNe.2 + (lon - launchLl.2) * lonScale)
      .ok [corner lat0 lon0, corner lat1 lon1, corner lat2 lon2, corner lat3 lon3]
  | _ => .error "field_polygon_gps must contain exactly four finite lat/lon pairs"

/-- The parameters of a mission around the frozen anchor. -/
def missionConfig (n : EngineNode K) (anchorNe : Point2 K) : Except String (MissionConfig K) :=
  let p := n.params
  match n.fieldPolygonNe, MissionPattern.ofName p.missionPattern with
  | .error err, _ => .error err
  | .ok _, .error err => .error err
  | .ok polygon, .ok pattern => MissionConfig.new {
      pattern
      lanesOrigin := (anchorNe.1 + p.lanesOffsetNe.1, anchorNe.2 + p.lanesOffsetNe.2)
      laneLength := p.laneLengthM
      nLanes := p.nLanes
      laneSpacing := p.laneSpacingM
      laneHeadingDeg := p.laneHeadingDeg
      rosetteRadiusM := p.rosetteRadiusM
      rosetteOuterHoldS := p.rosetteOuterHoldS
      rosetteCenterHoldS := p.rosetteCenterHoldS
      rosettePetals := p.rosettePetals
      surveyAltM := p.surveyAltM
      laneSpeed := p.laneSpeedMps
      reachTolM := p.reachToleranceM
      egressNe := anchorNe
      landSettleS := p.landSettleS
      landSpeedTolMps := p.landSpeedToleranceMps
      maxDips := p.maxDips
      detectorSilenceS := p.detectorSilenceS
      fenceRadiusM := p.fenceRadiusM
      fencePolygonNe := polygon
      fenceMarginM := p.fieldPolygonMarginM
      missionTimeoutS := p.missionTimeoutS }

/-! ## Inputs -/

/-- The engine's setter, for the callbacks that touch nothing else. -/
def mapEngine (n : EngineNode K) (f : MissionEngine K → MissionEngine K) : EngineNode K :=
  { n with engine := n.engine.map f }

def gpsCb (n : EngineNode K) (nowUs : ℤ) (msg : SensorGps K) : EngineNode K :=
  { n with rawGps := some msg, rawGpsReceivedUs := nowUs }

/-- The launch fix, if the last raw fix is good enough. -/
def qualifiedLaunchGps (n : EngineNode K) (nowUs : ℤ) : Option (Point2 K) :=
  match n.rawGps with
  | none => none
  | some msg =>
    if seconds (nowUs - n.rawGpsReceivedUs) > n.params.launchGpsMaxAgeS then none
    else if msg.fixType < 3 then none
    else if msg.eph > n.params.launchGpsMaxEphM then none
    else some (msg.latitudeDeg, msg.longitudeDeg)

/-- `start_mission`: a field given in coordinates needs a launch fix first. -/
def startCb (n : EngineNode K) (nowUs : ℤ) (data : Bool) : EngineNode K :=
  if data && !n.startOk then
    if n.params.requireFieldPolygon then
      match n.qualifiedLaunchGps nowUs with
      | none => n
      | some fix => { n with launchGpsReference := some (fix, n.pos.horizontal), startOk := true }
    else { n with startOk := true }
  else n

/-- The attitude, in the controller and in the rim. -/
def attCb (n : EngineNode K) (q : Quat K) : EngineNode K :=
  if q.w * q.w + q.x * q.x + q.y * q.y + q.z * q.z > 1 / 4 then
    { n with
      yaw := atan2 (2 * (q.w * q.z + q.x * q.y)) (1 - 2 * (q.y * q.y + q.z * q.z))
      q }
  else n

/-- The rim's part of a frame reset. -/
def onLocalFrameReset (n : EngineNode K) (deltaXy : Point2 K) (deltaHeading : K) :
    EngineNode K :=
  let n := { n with
    launchGpsReference := if n.engine.isNone then
        n.launchGpsReference.map (Prod.map id (shiftPoint deltaXy))
      else n.launchGpsReference
    anchor := n.anchor.applyFrameReset deltaXy.1 deltaXy.2
    poses := n.poses.clear }
  match n.engine with
  | none => n
  | some e =>
    { n with
      correction := n.correction.applyFrameReset deltaXy.1 deltaXy.2
      engine := some (e.applyHeadingReset deltaHeading) }

/-- The controller's part: the launch reference moves with the frame. -/
def rebaseLaunch (n : EngineNode K) (deltaXy : Point2 K) (deltaZ deltaHeading : K) :
    EngineNode K :=
  { n with
    launchXy := n.launchXy.map (shiftPoint deltaXy)
    launchZ := if n.launchLatched then n.launchZ + deltaZ else n.launchZ
    launchYaw := if n.launchLatched then wrapPi (n.launchYaw + deltaHeading) else n.launchYaw }

/-- Compare the reset counters and rebase what is stored. -/
def handleLocalFrameReset (n : EngineNode K) (msg : LocalPosition K) : EngineNode K :=
  match n.counters with
  | none => { n with counters := some msg.counters }
  | some old =>
    let deltaXy := if msg.counters.xy ≠ old.xy then msg.deltaXy else (0, 0)
    let deltaZ := if msg.counters.z ≠ old.z then msg.deltaZ else 0
    let deltaHeading := if msg.counters.heading ≠ old.heading then msg.deltaHeading else 0
    let n := { n with counters := some msg.counters }
    if msg.counters = old then n
    else (n.rebaseLaunch deltaXy deltaZ deltaHeading).onLocalFrameReset deltaXy deltaHeading

/-- Store the position; before the launch reference is latched it follows. -/
def trackPosition (n : EngineNode K) (msg : LocalPosition K) : EngineNode K :=
  { n with
    pos := msg.pos
    vel := msg.vel
    xyValid := msg.xyValid
    vXyValid := msg.vXyValid
    launchXy := if n.launchLatched then n.launchXy else some msg.pos.horizontal }

def noteDistBottom (n : EngineNode K) (now : K) (msg : LocalPosition K) : EngineNode K :=
  if msg.distBottomValid then { n with agl := some msg.distBottom, aglT := now } else n

/-- The height above the pad. -/
def padZ (n : EngineNode K) : K := n.pos.down - n.launchZ

/-- Metres above ground; an old measurement gives way to the pad-relative height. -/
def aglNow (n : EngineNode K) (now : K) : K :=
  match n.agl with
  | some agl => if now - n.aglT < 1 then agl else max 0 (-n.padZ)
  | none => max 0 (-n.padZ)

def snapshot (n : EngineNode K) (now : K) : PoseSnapshot K where
  t := now
  pos := ⟨n.pos.north, n.pos.east, n.padZ⟩
  q := n.q
  agl := some (n.aglNow now)

/-- Add a pose; a clock step leaves the history as it is. -/
def pushPose (n : EngineNode K) (now : K) : EngineNode K :=
  match n.poses.append (n.snapshot now) with
  | .ok poses => { n with poses }
  | .error _ => n

def posCb (n : EngineNode K) (nowUs : ℤ) (msg : LocalPosition K) : EngineNode K :=
  let n := (n.handleLocalFrameReset msg).trackPosition msg
  let n := n.noteDistBottom (seconds nowUs) msg
  let n := n.mapEngine fun e => e.noteResetCounter msg.counters.xy
  n.pushPose (seconds nowUs)

/-- Angle between the body's down axis and the vertical. -/
def tiltFromLevel (n : EngineNode K) : K :=
  acos (max (-1) (min 1 (1 - 2 * (n.q.x * n.q.x + n.q.y * n.q.y))))

/-- A range back at the ground after takeoff, held long enough, cuts the motors. -/
def watchGround (n : EngineNode K) (nowUs : ℤ) (msg : DistanceSensor K) : EngineNode K × Bool :=
  let d := msg.currentDistance
  let airborne := n.rangeAirborne || (n.armed && decide (msg.minDistance ≤ d))
  let n := { n with rangeAirborne := airborne }
  let n := if n.armed && airborne && decide (d ≤ 1 / 10) then
      match n.groundRangeT0 with
      | none => { n with groundRangeT0 := some (seconds nowUs) }
      | some t0 => { n with crashDisarm := n.crashDisarm || decide (1 / 10 ≤ seconds nowUs - t0) }
    else { n with groundRangeT0 := none }
  if n.crashDisarm && n.armed && decide (100000 ≤ nowUs - n.lastCrashDisarmUs) then
    ({ n with lastCrashDisarmUs := nowUs }, true)
  else (n, false)

def distCb (n : EngineNode K) (nowUs : ℤ) (msg : DistanceSensor K) : EngineNode K × Bool :=
  let (n, disarm) := n.watchGround nowUs msg
  let d := msg.currentDistance
  if msg.minDistance ≤ d ∧ d ≤ msg.maxDistance then
    ({ n with agl := some (d * cos n.tiltFromLevel), aglT := seconds nowUs }, disarm)
  else (n, disarm)

/-- Undo the camera's roll about the optical axis. -/
def unroll (n : EngineNode K) (pixel : Point2 K) : Point2 K :=
  let roll : K := radians n.params.cameraRollDeg
  if roll = 0 then pixel
  else
    let du := pixel.1 - n.cam.cx
    let dv := pixel.2 - n.cam.cy
    (n.cam.cx + cos (-roll) * du - sin (-roll) * dv, n.cam.cy + sin (-roll) * du + cos (-roll) * dv)

/-- The guard on a disagreement: a drift being corrected is a fault only beyond
the correction limit. -/
def anchorGuard (n : EngineNode K) (reason : String) : EngineNode K :=
  match n.engine with
  | none => n
  | some e =>
    if e.phase = .abort ∨ e.phase = .land ∨ e.phase = .done then n
    else if n.params.anchorCorrects then
      if n.correction.saturated then
        n.mapEngine fun e => e.requestAbort ("drift exceeds the " ++
          fixedText 1 n.correction.cfg.maxCorrectionM ++ " m correction limit: " ++ reason)
      else n
    else if n.params.anchorAborts then n.mapEngine fun e => e.requestAbort reason
    else n

/-- `_observe_anchor`. -/
def observeAnchor (n : EngineNode K) (tImg : K) (tagId : String) (fix : Point2 K)
    (snap : PoseSnapshot K) : EngineNode K :=
  let seen := (n.anchor.observe tImg tagId fix snap.pos.horizontal (snap.agl.getD 0)).1
  let (anchor, reason) := seen.disagreement tImg
  let n := { n with anchor }
  match reason with
  | none => n
  | some reason => n.anchorGuard reason

/-- The ids of the survey markers; none accepts any tag. -/
def isAnchorTag (n : EngineNode K) (tagId : String) : Bool :=
  n.params.anchorTagIds.isEmpty ||
    n.params.anchorTagIds.any fun i => tagId = tagPrefix ++ toString i

/-- One detection of an image, joined to the pose of the image. -/
def detect (snap : PoseSnapshot K) (tImg : K) (n : EngineNode K) (det : Detection K) :
    EngineNode K :=
  match det.hypothesis with
  | none => n
  | some (score, classId) =>
    let tagId := if tagPrefix.isPrefixOf det.id then some det.id else none
    match makeObservation n.cam snap tImg (n.unroll det.center) score classId tagId with
    | none => n
    | some obs =>
      let n := n.mapEngine fun e => e.ingest obs
      match tagId with
      | none => n
      | some tag => if n.isAnchorTag tag then n.observeAnchor tImg tag obs.groundLocal snap else n

def detectionsCb (n : EngineNode K) (nowUs : ℤ) (tImg : K) (detections : List (Detection K)) :
    EngineNode K :=
  match n.poses.nearest tImg with
  | none => n
  | some snap =>
    detections.foldl (detect snap tImg)
      (n.mapEngine fun e => e.noteDetectorAlive (seconds nowUs))

/-- A mission around the present position. -/
def missionEngine (n : EngineNode K) : Except String (MissionEngine K) :=
  (n.missionConfig n.pos.horizontal).bind fun cfg => MissionEngine.new cfg n.launchYaw

/-- `begin_survey`: freeze the anchor and start the engine, once. -/
def beginCb (n : EngineNode K) (data : Bool) : EngineNode K :=
  if !data || n.begun || !n.active then n
  else match n.missionEngine with
    | .error _ => { n with anchorNe := some n.pos.horizontal }
    | .ok e =>
      { n with anchorNe := some n.pos.horizontal, engine := some e.start, begun := true }

/-- `end_mission`, which is latched. -/
def endCb (n : EngineNode K) (data : Bool) : EngineNode K :=
  if data && !n.homeRequested then
    ({ n with homeRequested := true } : EngineNode K).mapEngine fun e =>
      e.requestAbort "operator end_mission"
  else n

def abortCb (n : EngineNode K) (data : Bool) : EngineNode K :=
  if data then { n with abortRequested := true } else n

/-- The controller latches the pad altitude and heading before it arms. -/
def latchLaunchReference (n : EngineNode K) : EngineNode K :=
  if n.launchLatched then n
  else
    { n with
      launchXy := some n.pos.horizontal
      launchZ := n.pos.down
      launchYaw := n.yaw
      launchLatched := true }

/-! ## Output -/

/-- `_dump`: the payload closes the open passes and is sent once. -/
def dump (n : EngineNode K) (link : LinkOutcome) : EngineNode K × Option Bool :=
  let ok := sendDump n.params.dumpHost link
  let n := { n with dumped := true }
  (n.mapEngine fun e => e.finalizeLog.notifyDumpResult ok, some ok)

/-- The hand-over to the autopilot's own landing. -/
def handOffLanding (n : EngineNode K) : EngineNode K :=
  if n.landRequested then n
  else if n.xyValid && n.vXyValid then { n with landRequested := true, abortRequested := true }
  else n

/-- `_on_phase`. -/
def onPhase (n : EngineNode K) (phase : Phase) (link : LinkOutcome) : EngineNode K × Option Bool :=
  let (n, sent) := if phase = .dump ∧ n.dumped = false then n.dump link else (n, none)
  if phase = .land ∨ phase = .done then (n.handOffLanding, sent) else (n, sent)

/-- A configured tag detector that has seen a tag. -/
def anchorActive (n : EngineNode K) : Bool := n.params.anchorCorrects && !n.anchor.refs.isEmpty

/-- The fresh, consistent two-tag measurement that may move the correction. -/
def correctionMeasurement (n : EngineNode K) (t : K) : Option (AnchorTransform K) :=
  if n.anchorActive then
    n.anchor.drift t {
      minTags := 2
      maxAgeS := some n.params.anchorCorrectionFreshS
      maxPairErrorM := some n.params.anchorCorrectionPairErrorM }
  else none

/-- What the engine is ticked with, after the correction has moved. -/
def sample (n : EngineNode K) (t : K) (measured : Bool) : Sample K :=
  let plan := n.correction.toPlan n.pos.horizontal
  { t
    pos := ⟨plan.1, plan.2, n.padZ⟩
    vel := n.vel
    horizontalValid := n.xyValid && n.vXyValid
    surveyReady := !n.anchorActive || (measured && !n.correction.saturated &&
      decide (n.correction.pendingM ≤ n.params.anchorCorrectionSettleM)) }

/-- The engine's setpoint in the flight frame. -/
def flightSetpoint (n : EngineNode K) (sp : Setpoint K) : FlightSetpoint K :=
  let out := n.correction.toFlight sp.pos.horizontal
  { n := out.1, e := out.2, z := sp.pos.down, yaw := sp.yaw }

/-- `compute_setpoint`, which the active controller calls on every tick. -/
def computeSetpoint (n : EngineNode K) (nowUs : ℤ) (link : LinkOutcome) :
    Except Fault (EngineNode K × NodeReply K) :=
  match n.engine with
  | none => .ok (n, {})
  | some e => do
    let t := seconds nowUs
    let measurement := n.correctionMeasurement t
    let n := { n with correction := n.correction.update t measurement }
    let (e, sp) ← e.tick (n.sample t measurement.isSome)
    let (n, sent) := ({ n with engine := some e } : EngineNode K).onPhase e.phase link
    return (n, { setpoint := sp.map n.flightSetpoint, sent })

end EngineNode

/-- The callbacks of the node and the moves of the controller under it. -/
inductive NodeEvent (K : Type*)
  | position (nowUs : ℤ) (msg : LocalPosition K)
  | attitude (q : Quat K)
  | distance (nowUs : ℤ) (msg : DistanceSensor K)
  | gps (nowUs : ℤ) (msg : SensorGps K)
  | detections (nowUs : ℤ) (tImg : K) (detections : List (Detection K))
  | startGate (nowUs : ℤ) (data : Bool)
  | beginGate (data : Bool)
  | endGate (data : Bool)
  | abortGate (data : Bool)
  | controllerActive (active : Bool)
  | vehicleArmed (armed : Bool)
  | latchLaunch
  | activeTick (nowUs : ℤ) (link : LinkOutcome)

namespace EngineNode

/-- The node after an event and what it put out. The tick needs an active
controller that was not asked to land; it raises when the engine does. -/
def react (n : EngineNode K) : NodeEvent K → Option (EngineNode K × NodeReply K)
  | .position nowUs msg => some (n.posCb nowUs msg, {})
  | .attitude q => some (n.attCb q, {})
  | .distance nowUs msg =>
    let (n, disarm) := n.distCb nowUs msg
    some (n, { disarm })
  | .gps nowUs msg => some (n.gpsCb nowUs msg, {})
  | .detections nowUs tImg detections => some (n.detectionsCb nowUs tImg detections, {})
  | .startGate nowUs data => some (n.startCb nowUs data, {})
  | .beginGate data => some (n.beginCb data, {})
  | .endGate data => some (n.endCb data, {})
  | .abortGate data => some (n.abortCb data, {})
  | .controllerActive active => some ({ n with active }, {})
  | .vehicleArmed armed => some ({ n with armed }, {})
  | .latchLaunch => some (n.latchLaunchReference, {})
  | .activeTick nowUs link =>
    if n.active && !n.abortRequested then (n.computeSetpoint nowUs link).toOption else none

def step (n : EngineNode K) (ev : NodeEvent K) : Option (EngineNode K) :=
  (n.react ev).map Prod.fst

end EngineNode

end Mission10.Engine
