import Mission10.Engine.MineLog

/-!
# Detection ingest

A detection is joined to the flight state nearest its image time, back-projected
through the camera onto the flat ground and handed to the mine log.
-/
namespace Mission10.Engine

open MathOps

variable {K : Type*} [Field K] [LinearOrder K] [MathOps K]

/-- The downward camera. -/
structure CameraModel (K : Type*) [Field K] [LinearOrder K] where
  widthPx : ℕ
  heightPx : ℕ
  hfovDeg : K
  tiltDeg : K
  resolution : 1 ≤ widthPx ∧ 1 ≤ heightPx
  view : 0 < hfovDeg ∧ hfovDeg < 180

namespace CameraModel

def new (widthPx heightPx : ℕ) (hfovDeg tiltDeg : K) : Except String (CameraModel K) :=
  if hsize : 1 ≤ widthPx ∧ 1 ≤ heightPx then
    if hview : 0 < hfovDeg ∧ hfovDeg < 180 then .ok ⟨widthPx, heightPx, hfovDeg, tiltDeg, hsize, hview⟩
    else .error "bad hfov_deg"
  else .error "bad resolution"

/-- Pinhole focal length in pixels. -/
def focalPx (cam : CameraModel K) : K := cam.widthPx / 2 / tan (radians cam.hfovDeg / 2)

def cx (cam : CameraModel K) : K := cam.widthPx / 2

def cy (cam : CameraModel K) : K := cam.heightPx / 2

/-- A camera direction in the body frame: the columns are the optical axes. -/
def toBody (cam : CameraModel K) (d : Vec3 K) : Vec3 K :=
  let c := cos (radians cam.tiltDeg)
  let s := sin (radians cam.tiltDeg)
  { north := 0 * d.north + -c * d.east + s * d.down
    east := 1 * d.north + 0 * d.east + 0 * d.down
    down := 0 * d.north + s * d.east + c * d.down }

/-- Intersect a pixel's ray with the ground plane; `none` for a ray that does
not descend to it. -/
def groundPoint (cam : CameraModel K) (pos : Vec3 K) (q : Quat K) (pixel : Point2 K)
    (groundZ : K) : Option (Point2 K) :=
  let dCam : Vec3 K := ⟨(pixel.1 - cam.cx) / cam.focalPx, (pixel.2 - cam.cy) / cam.focalPx, 1⟩
  let dNed := quatRotate q (cam.toBody dCam)
  let t := (groundZ - pos.down) / dNed.down
  if dNed.down ≤ 0 then none
  else if t ≤ 0 then none
  else some (pos.north + t * dNed.north, pos.east + t * dNed.east)

end CameraModel

/-- Flight state at one instant, as the rim samples it. -/
structure PoseSnapshot (K : Type*) where
  t : K
  pos : Vec3 K
  q : Quat K
  ll : Option (Point2 K) := none
  agl : Option K := none

/-- A time-ordered buffer of snapshots. -/
structure PoseHistory (K : Type*) where
  horizonS : K
  snaps : List (PoseSnapshot K)

namespace PoseHistory

/-- The number of snapshots before a time, which is where bisection inserts it. -/
def bisectLeft (snaps : List (PoseSnapshot K)) (t : K) : ℕ :=
  (snaps.takeWhile fun s => s.t < t).length

/-- Add a snapshot and drop those beyond the horizon; a time before the last one
raises. -/
def append (h : PoseHistory K) (snap : PoseSnapshot K) : Except String (PoseHistory K) :=
  let grown := h.snaps ++ [snap]
  let kept := { h with snaps := grown.drop (bisectLeft grown (snap.t - h.horizonS)) }
  match h.snaps.getLast? with
  | some last => if snap.t < last.t then .error "non-monotonic snapshot time" else .ok kept
  | none => .ok kept

def clear (h : PoseHistory K) : PoseHistory K := { h with snaps := [] }

/-- The snapshot nearest a time; the earlier one on a tie. -/
def nearest (h : PoseHistory K) (t : K) : Option (PoseSnapshot K) :=
  let i := bisectLeft h.snaps t
  match i, h.snaps[i]? with
  | 0, first => first
  | i + 1, none => h.snaps[i]?
  | i + 1, some after =>
    (h.snaps[i]?).map fun before =>
      if t - before.t ≤ after.t - t then before else after

end PoseHistory

/-- Metres in a degree of latitude. -/
def mPerDegLat : K := 111320

/-- The latitude and longitude of a point at a local offset. -/
def mineLl (droneLl : Point2 K) (dNorth dEast : K) : Point2 K :=
  (droneLl.1 + dNorth / mPerDegLat,
    droneLl.2 + dEast / (mPerDegLat * cos (radians droneLl.1)))

/-- Back-project one detection through the flight state at its image time. -/
def makeObservation (cam : CameraModel K) (snap : PoseSnapshot K) (tImg : K) (pixel : Point2 K)
    (conf : K) (classId : String) (tagId : Option String) : Option (DetectionObs K) :=
  let agl := snap.agl.getD (-snap.pos.down)
  if agl ≤ 0 then none
  else (cam.groundPoint snap.pos snap.q pixel (snap.pos.down + agl)).map fun ground =>
    { t := tImg
      groundLocal := ground
      conf
      classId
      ll := snap.ll.map fun ll =>
        mineLl ll (ground.1 - snap.pos.north) (ground.2 - snap.pos.east)
      tagId }

end Mission10.Engine
