import Mission10.Engine.MineLog

/-!
# Mission parameters

The phases of a mission, the parameters it is flown with and the reasons for
which it is abandoned. A `MissionConfig` can only be built from settings that
pass the checks of the constructor.
-/
namespace Mission10.Engine

inductive Phase
  | preflight
  | offboardSync
  | takeoff
  | lane
  | verifyDip
  | egress
  | settle
  | dump
  | land
  | abort
  | done
deriving DecidableEq, Repr

/-- The survey patterns. -/
inductive MissionPattern
  | serpentine
  | centerReturnRosette
deriving DecidableEq, Repr

def MissionPattern.ofName (name : String) : Except String MissionPattern :=
  if name = "serpentine" then .ok .serpentine
  else if name = "center_return_rosette" then .ok .centerReturnRosette
  else .error "unknown mission pattern"

variable {K : Type*} [Field K] [LinearOrder K] [MathOps K]

/-- The headings of the rosette's petals. -/
def rosetteHeadingsDeg : List K := [0, 45, 90, 135, 180, 225, 270, 315]

structure MissionSettings (K : Type*) [Field K] where
  pattern : MissionPattern := .serpentine
  lanesOrigin : Point2 K := (0, 0)
  laneLength : K := 20
  nLanes : ℤ := 3
  laneSpacing : K := 6
  laneHeadingDeg : K := 0
  surveyAltM : K := 6
  laneSpeed : K := 2
  rosetteRadiusM : K := 3 / 2
  rosetteOuterHoldS : K := 1 / 2
  rosetteCenterHoldS : K := 1 / 2
  rosettePetals : ℤ := 8
  climbSpeed : K := 3 / 2
  descentSpeed : K := 4 / 5
  reachTolM : K := 1 / 2
  syncDurationS : K := 6 / 5
  egressNe : Point2 K := (0, 0)
  landSettleS : K := 3
  landSpeedTolMps : K := 1 / 5
  dipHoverS : K := 2
  maxDips : ℤ := 4
  detectorSilenceS : K := 5
  resetStormCount : ℤ := 3
  dumpRetryLimit : ℤ := 3
  fenceRadiusM : K := 0
  fencePolygonNe : List (Point2 K) := []
  fenceMarginM : K := 0
  missionTimeoutS : K := 0

/-- The checks of the constructor, in its order. -/
def MissionSettings.postInit (cfg : MissionSettings K) : Except String Unit := do
  if cfg.surveyAltM ≤ 0 ∨ cfg.laneSpeed ≤ 0 then
    throw "survey_alt_m and lane_speed must be positive"
  if cfg.rosetteRadiusM ≤ 0 then
    throw "rosette radius must be positive"
  if ¬ (1 ≤ cfg.rosettePetals ∧ cfg.rosettePetals ≤ (rosetteHeadingsDeg (K := K)).length) then
    throw "rosette_petals must be between 1 and 8"
  if cfg.rosetteOuterHoldS < 0 ∨ cfg.rosetteCenterHoldS < 0 then
    throw "rosette holds must not be negative"
  if cfg.reachTolM ≤ 0 then
    throw "reach_tol_m must be positive"
  if cfg.landSettleS ≤ 0 ∨ cfg.landSpeedTolMps ≤ 0 then
    throw "landing settle time and speed tolerance must be positive"
  if cfg.fenceRadiusM < 0 ∨ cfg.fenceMarginM < 0 ∨ cfg.missionTimeoutS < 0 then
    throw "fence radius, margin, and mission timeout must not be negative"
  if cfg.fencePolygonNe ≠ [] ∧ cfg.fencePolygonNe.length < 3 then
    throw "fence_polygon_ne needs at least three vertices"

/-- Settings that the constructor accepted. -/
structure MissionConfig (K : Type*) [Field K] [LinearOrder K] extends MissionSettings K where
  accepted : toMissionSettings.postInit = .ok ()

def MissionConfig.new (settings : MissionSettings K) : Except String (MissionConfig K) :=
  match h : settings.postInit with
  | .ok () => .ok { settings with accepted := h }
  | .error e => .error e

omit [MathOps K] in
theorem MissionConfig.rosettePetals_mem (cfg : MissionConfig K) :
    1 ≤ cfg.rosettePetals ∧ cfg.rosettePetals ≤ 8 := by
  have h := cfg.accepted
  unfold MissionSettings.postInit at h
  simp only [bind, Except.bind, pure, Except.pure, throw, throwThe, MonadExceptOf.throw] at h
  split_ifs at h with h1 h2 h3 h4 h5 h6 h7 h8
  exact h3

/-- How far a point lies outside the fence. -/
inductive FenceViolation (K : Type*)
  | fieldPolygon (distance : Option K)
  | radius (distance fence : K)

inductive AbortReason (K : Type*)
  | operator
  | requested (reason : String)
  | dumpRetriesExhausted
  | detectorSilent (limit : K)
  | ekfResetStorm
  | missionTimeout (elapsed : K)
  | estimate (violation : FenceViolation K)
  | command (violation : FenceViolation K)

/-- The text of a violation; `fixed` prints a number with the given decimals. -/
def FenceViolation.text (fixed : ℕ → Option K → String) : FenceViolation K → String
  | .fieldPolygon distance => fixed 1 distance ++ " m outside the field polygon"
  | .radius distance fence =>
    fixed 1 (some distance) ++ " m outside the " ++ fixed 0 (some fence) ++ " m radius fence"

/-- The text of a reason; `shown` prints a number as it is. -/
def AbortReason.text (fixed : ℕ → Option K → String) (shown : K → String) : AbortReason K → String
  | .operator => "operator"
  | .requested reason => reason
  | .dumpRetriesExhausted => "dump retries exhausted"
  | .detectorSilent limit => "detector silent > " ++ shown limit ++ " s"
  | .ekfResetStorm => "EKF reset storm"
  | .missionTimeout elapsed => "mission timeout at " ++ fixed 0 (some elapsed) ++ " s"
  | .estimate violation => "estimate " ++ violation.text fixed
  | .command violation => "command " ++ violation.text fixed

end Mission10.Engine
