import Mission10.Sensing.FlowFrontend

/-!
# Angular flow from the feature tracker

A tracker of its own follows the features and is told where the gyro expects them. What
is left over is reduced to one flow by weights: each feature by how well it was found,
each tile alike, and less where a feature is far from the others.
-/
namespace Mission10.Sensing.Flow

open Engine

variable {K : Type} [Field K] [LinearOrder K] [MathOps K]

/-- What is read of a row of the tracker. -/
structure SvoTrack (K : Type) where
  id : K
  p0 : Pixel K
  expected : Pixel K
  p1 : Pixel K
  success : K
  photometricRmse : K
  minEigenvalue : K
  condition : K

/-- What the frontend asks of the tracker and of the vision library. -/
structure SvoVision (K : Type) where
  Image : Type
  Environment : Type
  reset : Environment → Environment
  step : Environment → Image → ℤ → List (K × Pixel K) → List (SvoTrack K) × Environment
  Homography : Type
  findHomography : List (Pixel K × Pixel K) → Option (Homography × List Bool)
  forward : Homography → Pixel K → Pixel K
  backward : Homography → Pixel K → Pixel K
  undistortPoints : Pixel K → Pixel K
  projectPoints : (Fin 3 → K) → Pixel K

structure Cm2SvoFlowFrontend (K : Type) where
  vision : SvoVision K
  readout : Readout K

/-- The tracker, the time of the last frame, zero for none, and its features. -/
structure SvoState (K Environment : Type) where
  environment : Environment
  previousCenterNs : ℤ
  previousTracks : List (K × Pixel K)

/-! ### The reduction -/

def clip (x lower upper : K) : K := min (max x lower) upper

/-- How well each feature was found, against the middle one. -/
def trackWeights (tracks : List (SvoTrack K)) : List K :=
  let weights := tracks.map fun track =>
    MathOps.sqrt (max track.minEigenvalue (1 / 10 ^ 6)) /
      (max track.photometricRmse (1 / 10 ^ 3) * MathOps.sqrt (max track.condition 1))
  let middle := median weights
  if 0 < middle then weights.map fun weight => clip (weight / middle) (1 / 10) 10
  else tracks.map fun _ => 1

/-- The weights, so that those of each tile sum up to one. -/
def evenWeights (weights : List K) (tiles : List (ℤ × ℤ)) : List K :=
  List.zipWith (fun weight tile =>
    let total := (((weights.zip tiles).filter fun other => other.2 = tile).map Prod.fst).sum
    if 0 < total then weight / total else weight) weights tiles

def weightedMean (residual : List (Pixel K)) (weights : List K) : Pixel K :=
  ((List.zipWith (fun r weight => r.1 * weight) residual weights).sum / weights.sum,
    (List.zipWith (fun r weight => r.2 * weight) residual weights).sum / weights.sum)

/-- Some rounds of means in which far residuals count less, until there is no spread. -/
def huber (residual : List (Pixel K)) (weights : List K) : ℕ → Pixel K → Pixel K
  | 0, location => location
  | rounds + 1, location =>
    let distances := residual.map fun r => norm (r - location)
    let scale := 14826 / 10000 * median distances
    if scale ≤ 1 / 10 ^ 12 then location
    else
      let threshold := 1345 / 1000 * scale
      let robust := distances.map fun distance =>
        if threshold < distance then threshold / distance else 1
      huber residual weights rounds
        (weightedMean residual (List.zipWith (fun weight factor => weight * factor) weights robust))

namespace Cm2SvoFlowFrontend

variable (svo : Cm2SvoFlowFrontend K)

/-- The tile of a pixel. -/
def tile (p : Pixel K) : ℤ × ℤ :=
  (min (max (truncate (p.1 * 8 / svo.readout.width)) 0) 7,
    min (max (truncate (p.2 * 6 / svo.readout.height)) 0) 5)

def reduce (residual : List (Pixel K)) (tracks : List (SvoTrack K)) : Pixel K :=
  let weights := evenWeights (trackWeights tracks) (tracks.map fun track => svo.tile track.p0)
  huber residual weights 3 (medianPixel residual)

/-- The flow of some features. -/
def measure (imu : ImuHistory K) (previousCenterNs centerNs : ℤ) (tracks : List (SvoTrack K)) :
    Option (Measured K) :=
  measureWith svo.readout svo.vision.undistortPoints (fun residual => svo.reduce residual tracks)
    imu previousCenterNs centerNs (tracks.map fun track => (track.p0, track.p1))

/-! ### Frames -/

/-- Where the gyro expects the last features; `none` without it. -/
def predictions (imu : ImuHistory K) (previousCenterNs centerNs : ℤ)
    (previousTracks : List (K × Pixel K)) : Option (List (K × Pixel K)) :=
  if previousTracks.isEmpty then some []
  else do
    let centers ← imu.integrals [previousCenterNs, centerNs]
    let centerDelta := centers.getD 1 0 - centers.getD 0 0
    let project (p : Pixel K) (delta : Fin 3 → K) : Pixel K :=
      svo.vision.projectPoints (cameraRay (rotateVector
        (bodyRay (svo.vision.undistortPoints p)) (-delta)))
    let centerPixels := previousTracks.map fun track => project track.2 centerDelta
    let integrals ← imu.integrals
      (previousTracks.map (fun track => svo.readout.rowNs previousCenterNs track.2) ++
        centerPixels.map fun p => svo.readout.rowNs centerNs p)
    let rowDelta := List.zipWith (fun after before => after - before)
      (integrals.drop previousTracks.length) (integrals.take previousTracks.length)
    return List.zipWith (fun (track : K × Pixel K) delta => (track.1, project track.2 delta))
      previousTracks rowDelta

/-- The part of the tiles with a feature. -/
def tileCoverage (points : List (Pixel K)) : K := ((points.map svo.tile).dedup.length : K) / 48

/-- The middle error of a homography, both ways. -/
def transferError (homography : svo.vision.Homography) (pairs : List (Pixel K × Pixel K)) : K :=
  median (pairs.map fun pair =>
    1 / 2 * (norm (svo.vision.forward homography pair.1 - pair.2) +
      norm (svo.vision.backward homography pair.2 - pair.1)))

/-- The flow of the features that were found. -/
def flowOf (imu : ImuHistory K) (previousCenterNs centerNs dtUs : ℤ)
    (attempts : List (SvoTrack K)) (haveImu : Bool) : FlowResult K :=
  let successful := attempts.filter fun track => 1 / 2 < track.success
  let detected := attempts.length
  let tracked := successful.length
  if haveImu = false then invalid .noImu centerNs dtUs detected tracked
  else if tracked < 8 then invalid .tooFewFeatures centerNs dtUs detected tracked
  else
    match svo.vision.findHomography (successful.map fun track => (track.p0, track.p1)) with
    | none => invalid .badHomography centerNs dtUs detected tracked
    | some (homography, mask) =>
      let kept := ((successful.zip mask).filter Prod.snd).map Prod.fst
      let pairs := kept.map fun track => (track.p0, track.p1)
      if kept.length < 8 then invalid .badHomography centerNs dtUs detected tracked
      else
        match svo.measure imu previousCenterNs centerNs kept with
        | none => invalid .noImu centerNs dtUs detected tracked
        | some measured =>
          measuredResult measured centerNs dtUs detected tracked pairs
            (kept.map fun track => norm (track.p1 - track.expected))
            (svo.transferError homography pairs) (svo.tileCoverage (kept.map SvoTrack.p0))

/-- A frame: its flow, and the state for the next one. -/
def process (imu : ImuHistory K) (state : SvoState K svo.vision.Environment)
    (gray : svo.vision.Image) (firstRowNs : ℤ) :
    FlowResult K × SvoState K svo.vision.Environment :=
  let centerNs := firstRowNs + svo.readout.halfReadoutNs
  if state.previousCenterNs = 0 then
    (invalid .initializing centerNs 0 0 0,
      { state with
        environment := (svo.vision.step state.environment gray centerNs []).2
        previousCenterNs := centerNs })
  else
    let dtUs := timespanUs state.previousCenterNs centerNs
    if dtUs ≤ 0 ∨ 100000 < dtUs then
      (invalid .badTiming centerNs (max 0 dtUs) 0 0, ⟨svo.vision.reset state.environment, 0, []⟩)
    else
      let expected := svo.predictions imu state.previousCenterNs centerNs state.previousTracks
      let (attempts, environment) :=
        svo.vision.step state.environment gray centerNs (expected.getD [])
      let successful := attempts.filter fun track => 1 / 2 < track.success
      (svo.flowOf imu state.previousCenterNs centerNs dtUs attempts expected.isSome,
        ⟨environment, centerNs, successful.map fun track => (track.id, track.p1)⟩)

end Cm2SvoFlowFrontend

end Mission10.Sensing.Flow
