import Mission10.Engine.Numerics

/-!
# Tag anchor

The drift of the flight frame measured against ground tags. The first settled
sighting of a tag is its datum; later sightings of the settled tags give the
rigid motion of the frame, which a correction turns into an offset between the
frame the engine plans in and the frame the autopilot acts on.
-/
namespace Mission10.Engine

open MathOps

variable {K : Type*} [Field K] [LinearOrder K] [MathOps K]

structure AnchorSettings (K : Type*) [Field K] where
  minAglM : K := 1 / 2
  maxAglM : K := 8
  maxRadialM : K := 3
  settleObs : ℕ := 4
  settleWindowS : K := 5
  settleSpreadM : K := 3 / 5
  gateM : K := 3 / 2
  gatePersistS : K := 1
  staleS : K := 10

def AnchorSettings.postInit (cfg : AnchorSettings K) : Except String Unit :=
  if ¬ (0 < cfg.minAglM ∧ cfg.minAglM < cfg.maxAglM) then
    .error "need 0 < min_agl_m < max_agl_m"
  else if cfg.settleObs < 2 then .error "settle_obs must be at least 2"
  else if cfg.gateM ≤ cfg.settleSpreadM then .error "gate_m must exceed settle_spread_m"
  else .ok ()

/-- Settings that the constructor accepted. -/
structure AnchorConfig (K : Type*) [Field K] [LinearOrder K] extends AnchorSettings K where
  accepted : toAnchorSettings.postInit = .ok ()

def AnchorConfig.new (settings : AnchorSettings K) : Except String (AnchorConfig K) :=
  match h : settings.postInit with
  | .ok () => .ok { settings with accepted := h }
  | .error e => .error e

/-- The motion of the flight frame since the datum was set. -/
structure AnchorTransform (K : Type*) where
  dn : K
  de : K
  dyaw : K
  nTags : ℕ
  points : List (Point2 K)

/-- The mean of a list of points; the origin for an empty one. -/
def meanPoint (points : List (Point2 K)) : Point2 K :=
  if points = [] then (0, 0)
  else ((points.map Prod.fst).sum / points.length, (points.map Prod.snd).sum / points.length)

namespace AnchorTransform

/-- Where the frame has carried a point, as a vector. -/
def displacementVectorAt (a : AnchorTransform K) (p : Point2 K) : Point2 K :=
  (cos a.dyaw * p.1 - sin a.dyaw * p.2 + a.dn - p.1,
    sin a.dyaw * p.1 + cos a.dyaw * p.2 + a.de - p.2)

def displacementAt (a : AnchorTransform K) (p : Point2 K) : K :=
  hypot (a.displacementVectorAt p).1 (a.displacementVectorAt p).2

def centroid (a : AnchorTransform K) : Point2 K := meanPoint a.points

/-- The worst displacement over the anchored points. -/
def maxDisplacement (a : AnchorTransform K) : K := (a.points.map a.displacementAt).max?.getD 0

end AnchorTransform

/-- One accepted sighting. -/
structure AnchorFix (K : Type*) where
  t : K
  tagId : String
  fix : Point2 K
  residual : Point2 K
  aglM : K
  radialM : K
  settled : Bool

def AnchorFix.shift (d : Point2 K) (fx : AnchorFix K) : AnchorFix K :=
  { fx with fix := shiftPoint d fx.fix }

/-- A sighting that helps to form a datum. -/
structure Sighting (K : Type*) where
  t : K
  place : Point2 K

def Sighting.shift (d : Point2 K) (s : Sighting K) : Sighting K :=
  { s with place := shiftPoint d s.place }

/-- The datum of one tag and the sightings still forming it. -/
structure Reference (K : Type*) where
  tagId : String
  pending : List (Sighting K) := []
  origin : Option (Point2 K) := none
  nObs : ℕ := 0
  firstSeen : K
  lastSeen : K

namespace Reference

def shift (d : Point2 K) (ref : Reference K) : Reference K :=
  { ref with
    pending := ref.pending.map (Sighting.shift d)
    origin := ref.origin.map (shiftPoint d) }

def settled (ref : Reference K) : Bool := ref.origin.isSome

/-- The sightings within the window, the new one last. -/
def window (cfg : AnchorConfig K) (ref : Reference K) (t : K) (fix : Point2 K) :
    List (Sighting K) :=
  (ref.pending.filter fun s => t - s.t ≤ cfg.settleWindowS) ++ [⟨t, fix⟩]

/-- The largest distance of a sighting from the mean of all. -/
def spread (window : List (Sighting K)) : K :=
  let mean := meanPoint (window.map Sighting.place)
  (window.map fun s => hypot (s.place.1 - mean.1) (s.place.2 - mean.2)).max?.getD 0

/-- Grow the settling window; a tight one becomes the datum, of a loose one the
newest half is kept. -/
def accumulate (cfg : AnchorConfig K) (ref : Reference K) (t : K) (fix : Point2 K) :
    Reference K :=
  let window := ref.window cfg t fix
  if window.length < cfg.settleObs then { ref with pending := window }
  else if spread window ≤ cfg.settleSpreadM then
    { ref with pending := [], origin := some (meanPoint (window.map Sighting.place)) }
  else { ref with pending := window.drop (window.length / 2) }

/-- The datum, or the mean of the sightings forming it. -/
def measuredFrom (ref : Reference K) : Point2 K :=
  ref.origin.getD (meanPoint (ref.pending.map Sighting.place))

/-- The reference after one more accepted sighting. -/
def sight (cfg : AnchorConfig K) (ref : Reference K) (t : K) (fix : Point2 K) : Reference K :=
  let ref := { ref with nObs := ref.nObs + 1, lastSeen := t }
  if ref.settled then ref else ref.accumulate cfg t fix

end Reference

/-- A datum and the current place of its tag. -/
abbrev Correspondence (K : Type*) := Point2 K × Point2 K

/-- The middle of a list of numbers. -/
def median (values : List K) : K :=
  let ordered := values.mergeSort fun a b => decide (a ≤ b)
  let mid := ordered.length / 2
  if ordered.length % 2 = 1 then ordered.getD mid 0
  else 1 / 2 * (ordered.getD (mid - 1) 0 + ordered.getD mid 0)

/-- Least-squares rotation and translation taking the datum points onto their
current places. -/
def rigidFit (pairs : List (Correspondence K)) : AnchorTransform K :=
  let p := meanPoint (pairs.map Prod.fst)
  let q := meanPoint (pairs.map Prod.snd)
  let cross : K := (pairs.map fun (a, b) =>
    (a.1 - p.1) * (b.2 - q.2) - (a.2 - p.2) * (b.1 - q.1)).sum
  let dot : K := (pairs.map fun (a, b) =>
    (a.1 - p.1) * (b.1 - q.1) + (a.2 - p.2) * (b.2 - q.2)).sum
  let dyaw := if cross ≠ 0 ∨ dot ≠ 0 then atan2 cross dot else 0
  { dn := q.1 - (cos dyaw * p.1 - sin dyaw * p.2)
    de := q.2 - (sin dyaw * p.1 + cos dyaw * p.2)
    dyaw
    nTags := pairs.length
    points := pairs.map Prod.fst }

/-- How much the separation of two tags has changed. -/
def separationError (a b : Correspondence K) : K :=
  |hypot (a.2.1 - b.2.1) (a.2.2 - b.2.2) - hypot (a.1.1 - b.1.1) (a.1.2 - b.1.2)|

/-- The largest change of a separation, over every pair. -/
def pairGeometryError : List (Correspondence K) → K → K
  | [], worst => worst
  | a :: rest, worst =>
    pairGeometryError rest (rest.foldl (fun worst b => max worst (separationError a b)) worst)

/-- What a caller asks of a drift. -/
structure DriftQuery (K : Type*) where
  minTags : ℕ := 1
  maxAgeS : Option K := none
  maxPairErrorM : Option K := none

structure TagAnchorMap (K : Type*) [Field K] [LinearOrder K] where
  cfg : AnchorConfig K
  refs : List (Reference K)
  fixes : List (AnchorFix K)
  nRejected : ℕ
  breachT0 : Option K

namespace TagAnchorMap

def new (cfg : AnchorConfig K) : TagAnchorMap K where
  cfg
  refs := []
  fixes := []
  nRejected := 0
  breachT0 := none

/-- Move the stored data into the autopilot's new local frame. -/
def applyFrameReset (m : TagAnchorMap K) (dn de : K) : TagAnchorMap K :=
  { m with
    refs := m.refs.map (Reference.shift (dn, de))
    fixes := m.fixes.map (AnchorFix.shift (dn, de)) }

def lookup (m : TagAnchorMap K) (tagId : String) : Option (Reference K) :=
  m.refs.find? fun ref => ref.tagId = tagId

/-- Store a reference under its tag. -/
def store (refs : List (Reference K)) (ref : Reference K) : List (Reference K) :=
  if refs.any fun r => r.tagId = ref.tagId then
    refs.map fun r => if r.tagId = ref.tagId then ref else r
  else refs ++ [ref]

def reject (m : TagAnchorMap K) : TagAnchorMap K := { m with nRejected := m.nRejected + 1 }

/-- Accept one tag ground fix, unless it fails a gate. -/
def observe (m : TagAnchorMap K) (t : K) (tagId : String) (fix nadir : Point2 K) (aglM : K) :
    TagAnchorMap K × Option (AnchorFix K) :=
  let radial := hypot (fix.1 - nadir.1) (fix.2 - nadir.2)
  if ¬ (m.cfg.minAglM ≤ aglM ∧ aglM ≤ m.cfg.maxAglM) then (m.reject, none)
  else if radial > m.cfg.maxRadialM then (m.reject, none)
  else
    let known := (m.lookup tagId).getD { tagId, firstSeen := t, lastSeen := 0 }
    let ref := known.sight m.cfg t fix
    let out : AnchorFix K := {
      t, tagId, fix
      residual := (fix.1 - ref.measuredFrom.1, fix.2 - ref.measuredFrom.2)
      aglM
      radialM := radial
      settled := known.settled }
    ({ m with refs := store m.refs ref, fixes := m.fixes ++ [out] }, some out)

/-- The settled fixes that are not older than the age. -/
def fresh (m : TagAnchorMap K) (t maxAge : K) : List (AnchorFix K) :=
  m.fixes.filter fun fx => fx.settled && decide (t - fx.t ≤ maxAge)

/-- The datum of a tag and the median of its fresh fixes. -/
def correspondence (m : TagAnchorMap K) (fresh : List (AnchorFix K)) (tagId : String) :
    Option (Correspondence K) :=
  let group := fresh.filter fun fx => fx.tagId = tagId
  ((m.lookup tagId).bind Reference.origin).map fun origin =>
    (origin, (median (group.map fun fx => fx.fix.1), median (group.map fun fx => fx.fix.2)))

/-- One correspondence for every tag seen lately, in the order of the tags. -/
def correspondences (m : TagAnchorMap K) (t : K) (maxAgeS : Option K) :
    List (Correspondence K) :=
  let fresh := m.fresh t (maxAgeS.getD m.cfg.staleS)
  let tags := (fresh.map AnchorFix.tagId).dedup.mergeSort fun a b => decide (a ≤ b)
  tags.filterMap (m.correspondence fresh)

/-- The best current estimate of the frame's motion. -/
def drift (m : TagAnchorMap K) (t : K) (query : DriftQuery K) : Option (AnchorTransform K) :=
  let pairs := m.correspondences t query.maxAgeS
  let bent : Bool := match query.maxPairErrorM with
    | some limit => decide (pairGeometryError pairs 0 > limit)
    | none => false
  if pairs.length < query.minTags ∨ bent then none
  else match pairs with
    | [(origin, fix)] =>
      some { dn := fix.1 - origin.1, de := fix.2 - origin.2, dyaw := 0, nTags := 1,
             points := [origin] }
    | _ => some (rigidFit pairs)

/-- The text of a sustained disagreement. -/
def disagreementText (d : AnchorTransform K) (moved held : K) : String :=
  let yaw := if d.nTags > 1 then ", yaw " ++ signedText 1 (degrees d.dyaw) ++ "°" else ""
  "tag anchor disagrees with flight layer by " ++ fixedText 2 moved ++ " m (N " ++
    signedText 2 d.dn ++ ", E " ++ signedText 2 d.de ++ yaw ++ ") for " ++ fixedText 1 held ++ " s"

/-- The reason once the drift has exceeded the gate for the whole hold time. -/
def disagreement (m : TagAnchorMap K) (t : K) : TagAnchorMap K × Option String :=
  match m.drift t {} with
  | none => ({ m with breachT0 := none }, none)
  | some d =>
    if d.maxDisplacement ≤ m.cfg.gateM then ({ m with breachT0 := none }, none)
    else match m.breachT0 with
      | none => ({ m with breachT0 := some t }, none)
      | some t0 =>
        if t - t0 < m.cfg.gatePersistS then (m, none)
        else (m, some (disagreementText d d.maxDisplacement (t - t0)))

end TagAnchorMap

structure CorrectionSettings (K : Type*) [Field K] where
  maxRateMps : K := 3 / 10
  maxCorrectionM : K := 5

def CorrectionSettings.postInit (cfg : CorrectionSettings K) : Except String Unit :=
  if cfg.maxRateMps ≤ 0 then .error "max_rate_mps must be positive"
  else if cfg.maxCorrectionM ≤ 0 then .error "max_correction_m must be positive"
  else .ok ()

/-- Settings that the constructor accepted. -/
structure CorrectionConfig (K : Type*) [Field K] [LinearOrder K] extends
    CorrectionSettings K where
  accepted : toCorrectionSettings.postInit = .ok ()

def CorrectionConfig.new (settings : CorrectionSettings K) : Except String (CorrectionConfig K) :=
  match h : settings.postInit with
  | .ok () => .ok { settings with accepted := h }
  | .error e => .error e

/-- The offset between the planning frame and the flight frame. -/
structure SetpointCorrection (K : Type*) [Field K] [LinearOrder K] where
  cfg : CorrectionConfig K
  applied : Point2 K
  target : Point2 K
  frameShift : Point2 K
  saturated : Bool
  lastT : Option K

namespace SetpointCorrection

def new (cfg : CorrectionConfig K) : SetpointCorrection K where
  cfg
  applied := (0, 0)
  target := (0, 0)
  frameShift := (0, 0)
  saturated := false
  lastT := none

/-- Keep the planning frame fixed when the autopilot moves its local frame. -/
def applyFrameReset (c : SetpointCorrection K) (dn de : K) : SetpointCorrection K :=
  { c with frameShift := shiftPoint (dn, de) c.frameShift }

/-- The offset is the displacement at the tags, cut to the largest correction. -/
def retarget (c : SetpointCorrection K) (transform : AnchorTransform K) : SetpointCorrection K :=
  let d := transform.displacementVectorAt transform.centroid
  let mag := hypot d.1 d.2
  if mag > c.cfg.maxCorrectionM then
    let scale := c.cfg.maxCorrectionM / mag
    { c with saturated := true, target := (d.1 * scale, d.2 * scale) }
  else { c with saturated := false, target := d }

/-- The applied offset after moving toward the target for a time. -/
def slew (c : SetpointCorrection K) (dt : K) : Point2 K :=
  let dn := c.target.1 - c.applied.1
  let de := c.target.2 - c.applied.2
  let gap := hypot dn de
  let step := c.cfg.maxRateMps * dt
  if gap ≤ step ∨ gap = 0 then c.target
  else (c.applied.1 + dn * step / gap, c.applied.2 + de * step / gap)

/-- Advance the offset toward the latest drift. -/
def update (c : SetpointCorrection K) (t : K) (transform : Option (AnchorTransform K)) :
    SetpointCorrection K :=
  let c := match transform with
    | some transform => c.retarget transform
    | none => c
  let dt := match c.lastT with
    | none => 0
    | some last => max 0 (t - last)
  { c with lastT := some t, applied := c.slew dt }

/-- Correction measured but not yet slewed in. -/
def pendingM (c : SetpointCorrection K) : K :=
  hypot (c.target.1 - c.applied.1) (c.target.2 - c.applied.2)

/-- Flight position to the frame the engine plans in. -/
def toPlan (c : SetpointCorrection K) (p : Point2 K) : Point2 K :=
  (p.1 - c.frameShift.1 - c.applied.1, p.2 - c.frameShift.2 - c.applied.2)

/-- A planned point to the frame the autopilot acts on. -/
def toFlight (c : SetpointCorrection K) (p : Point2 K) : Point2 K :=
  (p.1 + c.frameShift.1 + c.applied.1, p.2 + c.frameShift.2 + c.applied.2)

end SetpointCorrection

end Mission10.Engine
