import Mathlib.LinearAlgebra.CrossProduct
import Mission10.Engine.Numerics
import Mission10.Library.EvenSpacing
import Mission10.Library.Numerals

/-!
# Angular flow

Features are tracked from one frame to the next. The gyro tells where each would be if
the camera had only turned, and what is left over is reduced to one flow, to which the
turn of the frame is added again, because the autopilot takes it off. The frames are
given in grey, and the vision library is a parameter.
-/
namespace Mission10.Sensing.Flow

open Engine Matrix

variable {K : Type} [Field K] [LinearOrder K] [MathOps K]

inductive FlowStatus
  | initializing
  | valid
  | noImu
  | badTiming
  | tooFewFeatures
  | badHomography
  | frontendError
deriving DecidableEq, Repr

def FlowStatus.code : FlowStatus → ℕ
  | initializing => 0
  | valid => 1
  | noImu => 2
  | badTiming => 3
  | tooFewFeatures => 4
  | badHomography => 5
  | frontendError => 6

/-- A pixel, or a direction in units of the focal length. -/
abbrev Pixel (K : Type) := K × K

/-! ### Numbers -/

/-- `np.median`. -/
def median (values : List K) : K :=
  let sorted := values.insertionSort (· ≤ ·)
  let n := values.length
  if n % 2 = 1 then sorted.getD (n / 2) 0
  else (sorted.getD (n / 2 - 1) 0 + sorted.getD (n / 2) 0) / 2

/-- `np.median` along the first axis. -/
def medianPixel (values : List (Pixel K)) : Pixel K :=
  (median (values.map Prod.fst), median (values.map Prod.snd))

/-- `np.percentile`, linear between the values. -/
def percentile (values : List K) (percent : K) : K :=
  let sorted := values.insertionSort (· ≤ ·)
  let position := percent / 100 * (values.length - 1)
  let lower := floor position
  let below := sorted.getD lower.toNat 0
  let above := sorted.getD (lower.toNat + 1) below
  below + (position - lower) * (above - below)

/-- `round`, halves to the even one. -/
def roundEven (x : K) : ℤ :=
  let n := floor x
  if x - n < 1 / 2 then n
  else if 1 / 2 < x - n then n + 1
  else if n % 2 = 0 then n
  else n + 1

/-- The length of a pixel offset. -/
def norm (offset : Pixel K) : K := hypot offset.1 offset.2

def seconds (ns : ℤ) : K := ns * (1 / 10 ^ 9)

/-! ### Gyro -/

/-- The samples of the gyro, oldest first. -/
structure ImuHistory (K : Type) where
  horizonNs : ℤ
  samples : List (ℤ × (Fin 3 → K))

namespace ImuHistory

/-- The samples without the oldest ones: one stays before the cutoff. -/
def dropOld (cutoff : ℤ) : List (ℤ × (Fin 3 → K)) → List (ℤ × (Fin 3 → K))
  | first :: second :: third :: rest =>
    if second.1 < cutoff then dropOld cutoff (second :: third :: rest)
    else first :: second :: third :: rest
  | samples => samples

/-- A sample that is not newer than the last one is ignored. -/
def note (imu : ImuHistory K) (timestampNs : ℤ) (gyro : Fin 3 → K) : ImuHistory K :=
  if ∃ last ∈ imu.samples.getLast?, timestampNs ≤ last.1 then imu
  else { imu with
    samples := dropOld (timestampNs - imu.horizonNs) (imu.samples ++ [(timestampNs, gyro)]) }

/-- The integral at every sample, with the seconds since the start. -/
def trapezoids (start : ℤ) (integral : Fin 3 → K) :
    List (ℤ × (Fin 3 → K)) → List (K × (Fin 3 → K))
  | [] => []
  | [sample] => [(seconds (sample.1 - start), integral)]
  | first :: second :: rest =>
    let dt : K := seconds (second.1 - start) - seconds (first.1 - start)
    (seconds (first.1 - start), integral) ::
      trapezoids start (integral + (1 / 2 * dt) • (first.2 + second.2)) (second :: rest)

/-- `np.interp` on every axis. -/
def interp (q : K) : List (K × (Fin 3 → K)) → Fin 3 → K
  | [] => 0
  | [point] => point.2
  | first :: second :: rest =>
    if q < second.1 then
      first.2 + ((q - first.1) / (second.1 - first.1)) • (second.2 - first.2)
    else interp q (second :: rest)

/-- The integrals at some times; `none` where the history does not reach. -/
def integrals (imu : ImuHistory K) (query : List ℤ) : Option (List (Fin 3 → K)) :=
  match imu.samples.head?, imu.samples.getLast? with
  | some first, some last =>
    if imu.samples.length < 2 then none
    else if ∃ q ∈ query, q < first.1 ∨ last.1 < q then none
    else
      let points := trapezoids first.1 0 imu.samples
      some (query.map fun q => interp (seconds (q - first.1)) points)
  | _, _ => none

end ImuHistory

/-! ### Rays -/

/-- A vector turned by a rotation vector; it stays where it is if that one is short. -/
def rotateVector (vector rotation : Fin 3 → K) : Fin 3 → K :=
  let angle := MathOps.sqrt (rotation ⬝ᵥ rotation)
  if 1 / 10 ^ 12 < angle then
    let axis := angle⁻¹ • rotation
    MathOps.cos angle • vector + MathOps.sin angle • (axis ⨯₃ vector) +
      ((1 - MathOps.cos angle) * (axis ⬝ᵥ vector)) • axis
  else vector

/-- Image-right is body-right, image-down is body-back and the optical axis is down. -/
def rBC : Matrix (Fin 3) (Fin 3) K := !![0, -1, 0; 1, 0, 0; 0, 0, 1]

/-- The ray of a pixel in the axes of the body. -/
def bodyRay (p : Pixel K) : Fin 3 → K := rBC *ᵥ ![p.1, p.2, 1]

/-- A vector of the body in the axes of the camera. -/
def cameraRay (ray : Fin 3 → K) : Fin 3 → K := ray ᵥ* rBC

def perspective (ray : Fin 3 → K) : Pixel K := (ray 0 / ray 2, ray 1 / ray 2)

/-- Where a direction goes when only the body turns. -/
def predicted (p : Pixel K) (delta : Fin 3 → K) : Pixel K :=
  perspective (cameraRay (rotateVector (bodyRay p) (-delta)))

/-- The flow of a body whose image moves by an angle. -/
def compensatedFlow (angularCamera : Pixel K) : Pixel K :=
  let cameraTranslation := ![-angularCamera.1, -angularCamera.2, 0]
  let bodyTranslation := rBC *ᵥ cameraTranslation
  (-bodyTranslation 1, bodyTranslation 0)

/-! ### Rows -/

/-- The rows of the rolling shutter, in bands. -/
structure Readout (K : Type) where
  nativeHeight : ℕ
  width : ℕ
  height : ℕ
  bands : ℕ
  lineDelayS : K

namespace Readout

variable (readout : Readout K)

def centerRow : K := 1 / 2 * (readout.nativeHeight - 1)

def halfReadoutNs : ℤ := truncate (readout.centerRow * readout.lineDelayS * 10 ^ 9)

/-- The row of the sensor in the middle of the band of a pixel. -/
def nativeRow (y : K) : K :=
  let band := min (max (truncate (y * readout.bands / readout.height)) 0) (readout.bands - 1)
  (band + 1 / 2) * readout.height / readout.bands * readout.nativeHeight / readout.height

/-- The time at which the row of a pixel was read. -/
def rowNs (centerNs : ℤ) (p : Pixel K) : ℤ :=
  centerNs +
    truncate ((readout.nativeRow p.2 - readout.centerRow) * readout.lineDelayS * 10 ^ 9)

end Readout

/-- The flow of some pairs of pixels. -/
structure Measured (K : Type) where
  residual : List (Pixel K)
  angularCamera : Pixel K
  compensated : Pixel K
  raw : Pixel K
  centerDelta : Fin 3 → K

/-- The flow of pairs of pixels of two frames, with a way to reduce what is left over.
There is none without the gyro. -/
def measureWith (readout : Readout K) (undistort : Pixel K → Pixel K)
    (reduce : List (Pixel K) → Pixel K) (imu : ImuHistory K) (previousCenterNs centerNs : ℤ)
    (pairs : List (Pixel K × Pixel K)) : Option (Measured K) := do
  let n := pairs.length
  let integrals ← imu.integrals (pairs.map (fun pair => readout.rowNs previousCenterNs pair.1) ++
    pairs.map (fun pair => readout.rowNs centerNs pair.2) ++ [previousCenterNs, centerNs])
  let rowDelta := List.zipWith (fun after before => after - before)
    ((integrals.drop n).take n) (integrals.take n)
  let centerDelta := integrals.getD (2 * n + 1) 0 - integrals.getD (2 * n) 0
  let residual := List.zipWith
    (fun (pair : Pixel K × Pixel K) delta => undistort pair.2 - predicted (undistort pair.1) delta)
    pairs rowDelta
  let angularCamera := reduce residual
  let compensated := compensatedFlow angularCamera
  return {
    residual := residual
    angularCamera := angularCamera
    compensated := compensated
    raw := (compensated.1 + centerDelta 0, compensated.2 + centerDelta 1)
    centerDelta := centerDelta }

/-! ### Results -/

/-- The flow of a frame; what is not a number is missing. -/
structure FlowResult (K : Type) where
  status : FlowStatus
  timestampSampleNs : ℤ
  integrationTimespanUs : ℤ
  quality : ℤ
  pixelFlowRaw : Pixel K
  pixelFlowCompensated : Pixel K
  deltaAngle : Option (Fin 3 → K)
  detected : ℕ
  tracked : ℕ
  inliers : ℕ
  coverage : K
  inlierFraction : K
  fbMedianPx : Option K
  residualP95Rad : Option K
  tracks : Option (List (Pixel K × Pixel K))
  trackFb : Option (List K)

def invalid (status : FlowStatus) (centerNs dtUs : ℤ) (detected tracked : ℕ) : FlowResult K where
  status := status
  timestampSampleNs := centerNs
  integrationTimespanUs := dtUs
  quality := 0
  pixelFlowRaw := 0
  pixelFlowCompensated := 0
  deltaAngle := none
  detected := detected
  tracked := tracked
  inliers := 0
  coverage := 0
  inlierFraction := 0
  fbMedianPx := none
  residualP95Rad := none
  tracks := none
  trackFb := none

/-- The quality of a flow: the geometric mean of its factors. -/
def qualityOf (coverage inlierFraction errorPx residualP95 : K) : ℤ :=
  let factors := min 1 (coverage / (65 / 100)) * min 1 (inlierFraction / (75 / 100)) *
    max 0 (1 - errorPx) * max 0 (1 - residualP95 / (15 / 1000))
  roundEven (255 * MathOps.sqrt (MathOps.sqrt factors))

/-- The microseconds between two frames. -/
def timespanUs (previousCenterNs centerNs : ℤ) : ℤ :=
  EvenSpacing.roundHalfEven (((centerNs - previousCenterNs : ℤ) : ℚ) / 1000)

def measuredResult (measured : Measured K) (centerNs dtUs : ℤ) (detected tracked : ℕ)
    (pairs : List (Pixel K × Pixel K)) (errors : List K) (errorPx coverage : K) : FlowResult K :=
  let residualP95 := percentile (measured.residual.map fun residual =>
    norm (residual - measured.angularCamera)) 95
  let inlierFraction : K := pairs.length / (max 1 tracked : ℕ)
  let quality := qualityOf coverage inlierFraction errorPx residualP95
  { status := if 0 < quality then .valid else .badHomography
    timestampSampleNs := centerNs
    integrationTimespanUs := dtUs
    quality := quality
    pixelFlowRaw := measured.raw
    pixelFlowCompensated := measured.compensated
    deltaAngle := some measured.centerDelta
    detected := detected
    tracked := tracked
    inliers := pairs.length
    coverage := coverage
    inlierFraction := inlierFraction
    fbMedianPx := some errorPx
    residualP95Rad := some residualP95
    tracks := some pairs
    trackFb := some errors }

/-! ### The frontend with optical flow -/

/-- What the frontend asks of the vision library. -/
structure KltVision (K : Type) where
  Image : Type
  goodFeaturesToTrack : Image → ℤ × ℤ → ℤ × ℤ → Option (List (Pixel K))
  calcOpticalFlowPyrLK : Image → Image → List (Pixel K) → List (Pixel K × Bool)
  findHomography : List (Pixel K × Pixel K) → Option (List Bool)
  undistortPoints : Pixel K → Pixel K

/-- A feature that was tracked there and back. -/
structure KltTrack (K : Type) where
  p0 : Pixel K
  p1 : Pixel K
  fb : K

structure Cm2FlowFrontend (K : Type) where
  vision : KltVision K
  readout : Readout K

/-- The last frame and its time. -/
structure FlowState (Image : Type) where
  previous : Option Image
  previousCenterNs : ℤ

namespace Cm2FlowFrontend

variable (klt : Cm2FlowFrontend K)

/-- The features of every tile of an image that has some. -/
def featureTiles (image : klt.vision.Image) : List (List (Pixel K)) :=
  let edge (i : ℕ) (extent parts : ℕ) : ℤ :=
    EvenSpacing.roundHalfEven ((i * extent : ℕ) / parts)
  (List.range 6).flatMap fun tileY => (List.range 8).filterMap fun tileX =>
    let x0 := edge tileX klt.readout.width 8
    let y0 := edge tileY klt.readout.height 6
    (klt.vision.goodFeaturesToTrack image (y0, edge (tileY + 1) klt.readout.height 6)
      (x0, edge (tileX + 1) klt.readout.width 8)).map fun points =>
        points.map fun p => (p.1 + x0, p.2 + y0)

/-- The features that are found again on the way back. -/
def track (previous gray : klt.vision.Image) (points : List (Pixel K)) : List (KltTrack K) :=
  let forth := klt.vision.calcOpticalFlowPyrLK previous gray points
  let back := klt.vision.calcOpticalFlowPyrLK gray previous (forth.map Prod.fst)
  (points.zip (forth.zip back)).filterMap fun (p0, (p1, ok), (p0Back, okBack)) =>
    let fb := norm (p0 - p0Back)
    if ok = true ∧ okBack = true ∧ fb < 1 ∧ 0 ≤ p1.1 ∧ p1.1 < klt.readout.width ∧
      0 ≤ p1.2 ∧ p1.2 < klt.readout.height then some ⟨p0, p1, fb⟩
    else none

/-- The flow of pairs of pixels. -/
def measure (imu : ImuHistory K) (previousCenterNs centerNs : ℤ)
    (pairs : List (Pixel K × Pixel K)) : Option (Measured K) :=
  measureWith klt.readout klt.vision.undistortPoints medianPixel imu previousCenterNs centerNs pairs

/-- The flow from the last frame to this one. -/
def flowFrom (imu : ImuHistory K) (previous gray : klt.vision.Image)
    (previousCenterNs centerNs : ℤ) : FlowResult K :=
  let dtUs := timespanUs previousCenterNs centerNs
  if dtUs ≤ 0 ∨ 100000 < dtUs then invalid .badTiming centerNs (max 0 dtUs) 0 0
  else
    let tiles := klt.featureTiles previous
    let detected := tiles.flatten.length
    if detected < 8 then invalid .tooFewFeatures centerNs dtUs detected 0
    else
      let tracks := klt.track previous gray tiles.flatten
      let tracked := tracks.length
      if tracked < 8 then invalid .tooFewFeatures centerNs dtUs detected tracked
      else
        match klt.vision.findHomography (tracks.map fun track => (track.p0, track.p1)) with
        | none => invalid .badHomography centerNs dtUs detected tracked
        | some mask =>
          let kept := ((tracks.zip mask).filter Prod.snd).map Prod.fst
          let pairs := kept.map fun track => (track.p0, track.p1)
          if kept.length < 8 then invalid .badHomography centerNs dtUs detected tracked
          else
            match klt.measure imu previousCenterNs centerNs pairs with
            | none => invalid .noImu centerNs dtUs detected tracked
            | some measured =>
              let errors := kept.map KltTrack.fb
              measuredResult measured centerNs dtUs detected tracked pairs errors (median errors)
                (tiles.length / 48)

/-- A frame: its flow, and the frame is kept for the next one. -/
def process (imu : ImuHistory K) (state : FlowState klt.vision.Image) (gray : klt.vision.Image)
    (firstRowNs : ℤ) : FlowResult K × FlowState klt.vision.Image :=
  let centerNs := firstRowNs + klt.readout.halfReadoutNs
  let result := match state.previous with
    | none => invalid .initializing centerNs 0 0 0
    | some previous => klt.flowFrom imu previous gray state.previousCenterNs centerNs
  (result, ⟨some gray, centerNs⟩)

end Cm2FlowFrontend

end Mission10.Sensing.Flow
