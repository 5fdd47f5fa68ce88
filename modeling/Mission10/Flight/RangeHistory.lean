import Mission10.Flight.RelativePositionEKF
import Mission10.Library.LeastSquares

/-!
# Bearing from a history of ranges

`RangeHistoryRelativeEstimator` takes scalar ranges to a peer and the relative velocity
and keeps a window of samples, each with the displacement since the first one. The
differences of the squared ranges are linear in the position at the start of the window.
Motion in two dimensions determines that position, and a straight motion leaves two
mirror images. The solvers of `np.linalg` are parameters of the model.
-/
namespace Mission10.Flight

open Engine (MathOps hypot)
open Engine.MathOps Matrix

section Model

variable {K : Type*} [Field K] [LinearOrder K] [MathOps K]

/-- The constants `STATUS_UNOBSERVABLE`, `STATUS_AMBIGUOUS` and `STATUS_TRACKING`. -/
inductive EstimateStatus
  | unobservable
  | ambiguous
  | tracking
deriving DecidableEq, Repr

/-- Without a value for a number that is infinite or not a number. -/
structure RelativeEstimate (K : Type*) where
  status : EstimateStatus
  position : Option (Vector2 K)
  covariance : Option (Matrix2 K)
  alternatePosition : Option (Vector2 K)
  alternateCovariance : Option (Matrix2 K)
  relativeVelocity : Vector2 K
  rangeM : Option K
  rangeRateMps : Option K
  residualRmsM : Option K
  observability : K
  confidenceRadius95M : Option K
  sampleCount : ℕ

/-- `_RangeMotionSample`. -/
structure RangeMotionSample (K : Type*) where
  timeS : K
  rangeM : K
  displacement : Vector2 K
  relativeVelocity : Vector2 K

structure RangeHistoryRelativeEstimator (K : Type*) where
  windowS : K
  rangeNoiseStd : K
  velocityNoiseStd : K
  minSamples : ℤ
  minBaselineM : K
  minObservability : K
  trackingRadius95M : K
  samples : List (RangeMotionSample K)
  displacement : Vector2 K
  lastTime : Option K
  lastRelVelocity : Vector2 K
  ekf : Option (RelativePositionEKF K)
  trackingAcquired : Bool
  lastEstimate : RelativeEstimate K

/-- What `np.linalg.svd` returns without the left factor. -/
structure SingularFactors (K : Type*) (m : ℕ) where
  singular : Fin (min m 2) → K
  vh : Matrix (Fin (min m 2)) (Fin 2) K

/-- The functions of `np.linalg` that the estimator calls. -/
structure LinearSolvers (K : Type*) where
  svd : (m : ℕ) → Matrix (Fin m) (Fin 2) K → SingularFactors K m
  lstsq : (m : ℕ) → Matrix (Fin m) (Fin 2) K → (Fin m → K) → Vector2 K
  pinv : Matrix2 K → Matrix2 K
  eigvalsh : Matrix2 K → Vector2 K

/-- `np.linalg.norm` of a vector of the plane. -/
def norm2 (v : Vector2 K) : K := hypot (v 0) (v 1)

/-- The rows of a linear system, and its right side. -/
def coefficients (equations : List (Vector2 K × K)) : Matrix (Fin equations.length) (Fin 2) K :=
  of fun i => (equations.get i).1

def constants (equations : List (Vector2 K × K)) (i : Fin equations.length) : K :=
  (equations.get i).2

def mean (values : List K) : K := values.sum / (values.length : K)

/-- The displacements since the first sample, with the ranges. -/
def window : List (RangeMotionSample K) → List (Vector2 K × K)
  | [] => []
  | first :: rest => (first :: rest).map fun s => (s.displacement - first.displacement, s.rangeM)

/-- The rows of `a_mat` and `b_vec`. -/
def equations : List (Vector2 K × K) → List (Vector2 K × K)
  | [] => []
  | start :: rest =>
    rest.map fun w => (w.1, 1 / 2 * (w.2 ^ 2 - start.2 ^ 2 - w.1 ⬝ᵥ w.1))

/-- The longest displacement. -/
def baseline (window : List (Vector2 K × K)) : K :=
  (window.map fun w => norm2 w.1).foldl max 0

/-- The last singular value over the first, or zero where there is one only. -/
def SingularFactors.observability {m : ℕ} (factors : SingularFactors K m) : K :=
  if h : 2 ≤ min m 2 then
    factors.singular ⟨min m 2 - 1, by omega⟩ / factors.singular ⟨0, by omega⟩
  else 0

/-- The samples of a window whose distance from a candidate has a direction. -/
def validSamples (x : Vector2 K) (window : List (Vector2 K × K)) : List (Vector2 K × K) :=
  window.filter fun w => 1 / 10 ^ 6 < norm2 (x + w.1)

/-- The linear system of a step, for what the ranges leave over. -/
def stepEquations (x : Vector2 K) (valid : List (Vector2 K × K)) : List (Vector2 K × K) :=
  valid.map fun w => ((norm2 (x + w.1))⁻¹ • (x + w.1), w.2 - norm2 (x + w.1))

/-- `_gauss_newton` with the number of steps that are left. -/
def gaussNewton (np : LinearSolvers K) (window : List (Vector2 K × K)) :
    ℕ → Vector2 K → Vector2 K
  | 0, x => x
  | steps + 1, x =>
    let valid := validSamples x window
    if valid.length < 2 then x
    else
      let system := stepEquations x valid
      let step := np.lstsq system.length (coefficients system) (constants system)
      if norm2 step < 1 / 10 ^ 6 then x + step
      else gaussNewton np window steps (x + step)

/-- `_range_jacobian`. -/
def rangeJacobian (x : Vector2 K) (window : List (Vector2 K × K)) :
    Matrix (Fin (stepEquations x (validSamples x window)).length) (Fin 2) K :=
  coefficients (stepEquations x (validSamples x window))

/-- `_residual_rms`. -/
def residualRms (x : Vector2 K) (window : List (Vector2 K × K)) : K :=
  sqrt (mean (window.map fun w => (norm2 (x + w.1) - w.2) ^ 2))

/-- `_confidence_radius`. -/
def confidenceRadius (np : LinearSolvers K) (covariance : Matrix2 K) : K :=
  sqrt (5991 / 1000 * max 0 (np.eigvalsh covariance 1))

/-- `np.outer`. -/
def outer (u v : Vector2 K) : Matrix2 K := of fun i j => u i * v j

/-- A direction turned left by a right angle. -/
def perpendicular (direction : Vector2 K) : Vector2 K := ![-direction 1, direction 0]

/-- The slope of the ranges over the last part of the window. -/
def rangeRate (samples : List (RangeMotionSample K)) : Option K :=
  if samples.length < 2 then none
  else
    match samples.getLast? with
    | none => none
    | some last =>
      let near := samples.filter fun s => last.timeS - s.timeS ≤ 3 / 4
      let recent := if near.length < 2 then samples.drop (samples.length - 2) else near
      match recent with
      | [] => none
      | first :: _ =>
        let times := recent.map fun s => s.timeS - first.timeS
        let ranges := recent.map (·.rangeM)
        let centered := times.map (· - mean times)
        let denom := (centered.map fun c => c * c).sum
        some (if denom ≤ 1 / 10 ^ 12 then 0
          else (List.zipWith (· * ·) centered (ranges.map (· - mean ranges))).sum / denom)

namespace RangeHistoryRelativeEstimator

variable (np : LinearSolvers K) (self : RangeHistoryRelativeEstimator K)

/-- `_status_only`. -/
def statusOnly (status : EstimateStatus) (observability : K) : RelativeEstimate K where
  status := status
  position := none
  covariance := none
  alternatePosition := none
  alternateCovariance := none
  relativeVelocity := (self.samples.getLast?.map (·.relativeVelocity)).getD 0
  rangeM := self.samples.getLast?.map (·.rangeM)
  rangeRateMps := rangeRate self.samples
  residualRmsM := none
  observability := observability
  confidenceRadius95M := none
  sampleCount := self.samples.length

/-- The branch of `_solve_window` for a straight history: the two points where the line
across the direction meets the circle of the first range. -/
def straightEstimate (first last : RangeMotionSample K) (direction : Vector2 K)
    (observability : K) : RelativeEstimate K :=
  let history := window self.samples
  let projected := coefficients (equations history) *ᵥ direction
  let denom := projected ⬝ᵥ projected
  if denom ≤ 1 / 10 ^ 9 then self.statusOnly .unobservable observability
  else
    let currentDelta := last.displacement - first.displacement
    let along := projected ⬝ᵥ constants (equations history) / denom
    let crossSq := max 0 (first.rangeM ^ 2 - along ^ 2)
    let cross := sqrt crossSq
    let first0 := along • direction + cross • perpendicular direction
    let second0 := along • direction - cross • perpendicular direction
    let radial := max (self.rangeNoiseStd ^ 2) (1 / 10 ^ 6)
    let tangent := max (1 / 4) (first.rangeM ^ 2)
    let cov0 := radial • outer direction direction +
      tangent • outer (perpendicular direction) (perpendicular direction)
    let q := (self.velocityNoiseStd * (last.timeS - first.timeS)) ^ 2
    let cov := cov0 + q • (1 : Matrix2 K)
    { status := .ambiguous
      position := some (first0 + currentDelta)
      covariance := some cov
      alternatePosition := some (second0 + currentDelta)
      alternateCovariance := some cov
      relativeVelocity := last.relativeVelocity
      rangeM := some last.rangeM
      rangeRateMps := rangeRate self.samples
      residualRmsM := some (min (residualRms first0 history) (residualRms second0 history))
      observability := observability
      confidenceRadius95M := some (confidenceRadius np cov)
      sampleCount := self.samples.length }

/-- The branch of `_solve_window` for motion in two dimensions. -/
def uniqueEstimate (first last : RangeMotionSample K) (observability : K) :
    RelativeEstimate K :=
  let history := window self.samples
  let system := equations history
  let initial := np.lstsq system.length (coefficients system) (constants system)
  let refined := gaussNewton np history 12 initial
  let jacobian := rangeJacobian refined history
  let information :=
    (max (self.rangeNoiseStd ^ 2) (1 / 10 ^ 9))⁻¹ • (jacobianᵀ * jacobian)
  let elapsed := last.timeS - first.timeS
  let cov0 := np.pinv information +
    ((self.velocityNoiseStd * elapsed / max 1 (sqrt (self.samples.length : K))) ^ 2) •
      (1 : Matrix2 K)
  let radius := confidenceRadius np cov0
  { status := if radius ≤ self.trackingRadius95M then .tracking else .ambiguous
    position := some (refined + (last.displacement - first.displacement))
    covariance := some cov0
    alternatePosition := none
    alternateCovariance := none
    relativeVelocity := last.relativeVelocity
    rangeM := some last.rangeM
    rangeRateMps := rangeRate self.samples
    residualRmsM := some (residualRms refined history)
    observability := observability
    confidenceRadius95M := some radius
    sampleCount := self.samples.length }

/-- `_solve_window`. -/
def solveWindow : Except String (RelativeEstimate K) :=
  if (self.samples.length : ℤ) < self.minSamples then
    .ok (self.statusOnly .unobservable 0)
  else
    match self.samples with
    | [] => .error "list index out of range"
    | first :: rest =>
      let history := window (first :: rest)
      if baseline history < self.minBaselineM then .ok (self.statusOnly .unobservable 0)
      else
        let system := equations history
        let factors := np.svd system.length (coefficients system)
        if h : 0 < min system.length 2 then
          if factors.singular ⟨0, h⟩ ≤ 1 / 10 ^ 9 then .ok (self.statusOnly .unobservable 0)
          else
            let last := (first :: rest).getLast (List.cons_ne_nil _ _)
            let observability := factors.observability
            if observability < self.minObservability then
              .ok (self.straightEstimate np first last (factors.vh ⟨0, h⟩) observability)
            else .ok (self.uniqueEstimate np first last observability)
        else .ok (self.statusOnly .unobservable 0)

/-- A sample enters the window and those before its start leave it. -/
def keepSample (timeS rangeM : K) (relVelocity displacement : Vector2 K)
    (ekf : Option (RelativePositionEKF K)) : RangeHistoryRelativeEstimator K :=
  let sample : RangeMotionSample K := ⟨timeS, rangeM, displacement, relVelocity⟩
  { self with
    lastTime := some timeS
    lastRelVelocity := relVelocity
    displacement := displacement
    ekf := ekf
    samples := (self.samples ++ [sample]).dropWhile fun s => self.windowS < timeS - s.timeS }

/-- The part of `add_sample` before the window is solved. -/
def recordSample (timeS rangeM : K) (relVelocity : Vector2 K) :
    Except String (RangeHistoryRelativeEstimator K) :=
  if rangeM ≤ 0 then .error "range samples require a finite timestamp and positive range"
  else
    match self.lastTime with
    | none => .ok (self.keepSample timeS rangeM relVelocity self.displacement self.ekf)
    | some before =>
      let dt := timeS - before
      if dt ≤ 0 then .error "range sample timestamps must increase"
      else
        let velocity := (1 / 2 : K) • (self.lastRelVelocity + relVelocity)
        let ekf := self.ekf.map fun ekf =>
          (ekf.predict velocity dt).updateRange rangeM (self.rangeNoiseStd ^ 2)
        .ok (self.keepSample timeS rangeM relVelocity (self.displacement + dt • velocity) ekf)

/-- A unique solution of the window seeds the filter when it is tighter. -/
def adoptBatch (batch : RelativeEstimate K) : RangeHistoryRelativeEstimator K :=
  match batch.position, batch.alternatePosition, batch.covariance with
  | some position, none, some covariance =>
    let tighter :=
      match self.ekf.bind (·.state) with
      | none => true
      | some s => confidenceRadius np covariance < confidenceRadius np s.P
    if tighter then
      { self with ekf := some ⟨some ⟨position, covariance⟩, self.velocityNoiseStd⟩ }
    else self
  | _, _, _ => self

/-- The choice between the filter and the solution of the window. -/
def publish (rangeM : K) (relVelocity : Vector2 K) (batch : RelativeEstimate K) :
    RangeHistoryRelativeEstimator K :=
  match self.ekf.bind (·.state) with
  | none => { self with ekf := none, trackingAcquired := false, lastEstimate := batch }
  | some s =>
    let radius := confidenceRadius np s.P
    let acquired := self.trackingAcquired || decide (radius ≤ self.trackingRadius95M)
    if acquired ∧ radius ≤ 2 * self.trackingRadius95M then
      { self with
        trackingAcquired := true
        lastEstimate :=
          { status := .tracking
            position := some s.x
            covariance := some s.P
            alternatePosition := none
            alternateCovariance := none
            relativeVelocity := relVelocity
            rangeM := some rangeM
            rangeRateMps := rangeRate self.samples
            residualRmsM := batch.residualRmsM
            observability := batch.observability
            confidenceRadius95M := some radius
            sampleCount := self.samples.length } }
    else if radius ≤ 10 * self.trackingRadius95M then
      { self with trackingAcquired := acquired, lastEstimate := batch }
    else { self with ekf := none, trackingAcquired := false, lastEstimate := batch }

/-- `add_sample`, with the state after it. -/
def addSample (timeS rangeM : K) (ownVelocity peerVelocity : Vector2 K) :
    RangeHistoryRelativeEstimator K × Except String (RelativeEstimate K) :=
  match self.recordSample timeS rangeM (peerVelocity - ownVelocity) with
  | .error e => (self, .error e)
  | .ok next =>
    match next.solveWindow np with
    | .error e => (next, .error e)
    | .ok batch =>
      let last := (next.adoptBatch np batch).publish np rangeM (peerVelocity - ownVelocity) batch
      (last, .ok last.lastEstimate)

/-- An estimator that has no sample yet. -/
def new (windowS rangeNoiseStd velocityNoiseStd : K) (minSamples : ℤ)
    (minBaselineM minObservability trackingRadius95M : K) : RangeHistoryRelativeEstimator K where
  windowS := windowS
  rangeNoiseStd := rangeNoiseStd
  velocityNoiseStd := velocityNoiseStd
  minSamples := minSamples
  minBaselineM := minBaselineM
  minObservability := minObservability
  trackingRadius95M := trackingRadius95M
  samples := []
  displacement := 0
  lastTime := none
  lastRelVelocity := 0
  ekf := none
  trackingAcquired := false
  lastEstimate := ⟨.unobservable, none, none, none, none, 0, none, none, none, 0, none, 0⟩

end RangeHistoryRelativeEstimator

/-- A call of `add_sample`. -/
structure RangeCall (K : Type*) where
  timeS : K
  rangeM : K
  ownVelocity : Vector2 K
  peerVelocity : Vector2 K

/-- The state after a call, whether it raised or not. -/
def RangeHistoryRelativeEstimator.feed (np : LinearSolvers K)
    (self : RangeHistoryRelativeEstimator K) (call : RangeCall K) :
    Option (RangeHistoryRelativeEstimator K) :=
  some (self.addSample np call.timeS call.rangeM call.ownVelocity call.peerVelocity).1

end Model

end Mission10.Flight
