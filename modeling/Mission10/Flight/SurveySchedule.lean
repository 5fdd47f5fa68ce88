import Mission10.Flight.PhasedOrbits

/-!
# The survey schedule

The path geometry of `survey.py`: serpentine lanes over a rectangle, a second pass
across the first, the edges of a cube and the way home, as a schedule of straight
segments with durations. Points are east, north and up from the launch. Speeds are
positive: a division by a speed of zero is not modelled.
-/
namespace Mission10.Flight

open Engine (MathOps hypot radians)
open Engine.MathOps

/-- A point of the schedule. -/
structure EnuPoint (K : Type*) where
  east : K
  north : K
  up : K
deriving DecidableEq, Repr

/-- What the planner raises. -/
inductive SurveyError
  | valueError (message : String)
  | indexError
deriving DecidableEq, Repr

structure Segment (K : Type*) where
  p0 : EnuPoint K
  p1 : EnuPoint K
  durationS : K
  label : String

/-- A rectangle, its lanes and the height to fly them at. -/
structure SurveyField (K : Type*) where
  originE : K
  originN : K
  alongDeg : K
  lengthM : K
  widthM : K
  spacingM : K
  altitudeM : K

/-- The axes and the sizes of one pass over a rectangle. -/
structure SurveyPass (K : Type*) where
  along : K × K
  across : K × K
  lengthM : K
  widthM : K

/-- The arguments of `build_survey_schedule`. -/
structure SurveyPlan (K : Type*) where
  field : SurveyField K
  speedMps : K
  revisitGapS : K
  crosshatch : Bool
  cubeSideM : K
  cubeSpeedMps : K

/-- The position at a time, the horizontal direction of travel, and whether the
schedule is over. -/
structure ScheduleSetpoint (K : Type*) where
  position : EnuPoint K
  direction : K × K
  done : Bool

variable {K : Type*} [Field K] [LinearOrder K] [MathOps K]

/-- `math.dist`. -/
def dist3 (p q : EnuPoint K) : K :=
  sqrt ((p.east - q.east) * (p.east - q.east) + (p.north - q.north) * (p.north - q.north) +
    (p.up - q.up) * (p.up - q.up))

/-- Steps up to a nanometre are no segments. -/
def flown (p q : EnuPoint K) : Prop := 1 / 10 ^ 9 < dist3 p q

instance (p q : EnuPoint K) : Decidable (flown p q) := by
  unfold flown
  infer_instance

/-- The peak of the smoothstep is half as fast again as the mean. -/
def seg (p0 p1 : EnuPoint K) (speed : K) (label : String) : Segment K :=
  ⟨p0, p1, if flown p0 p1 then 3 / 2 * dist3 p0 p1 / speed else 0, label⟩

def hover (p : EnuPoint K) (durationS : K) (label : String) : Segment K :=
  ⟨p, p, durationS, label⟩

/-! ### Lanes -/

/-- The cross pass swaps the axes. -/
def SurveyField.pass (field : SurveyField K) (cross : Bool) : SurveyPass K :=
  let a := radians field.alongDeg
  let u := (cos a, sin a)
  let v := (-sin a, cos a)
  if cross then ⟨v, u, field.widthM, field.lengthM⟩ else ⟨u, v, field.lengthM, field.widthM⟩

def laneCount (widthM spacingM : K) : ℤ := max 2 (Engine.floor (widthM / spacingM) + 1)

/-- The lanes are spread over the whole width. -/
def laneStep (widthM spacingM : K) : K := widthM / ((laneCount widthM spacingM : K) - 1)

/-- The end of a lane on the side of the origin. -/
def SurveyField.near (field : SurveyField K) (pass : SurveyPass K) (i : ℕ) : EnuPoint K :=
  let step := laneStep pass.widthM field.spacingM
  ⟨field.originE + pass.across.1 * step * i, field.originN + pass.across.2 * step * i,
    field.altitudeM⟩

/-- The other end. -/
def SurveyField.far (field : SurveyField K) (pass : SurveyPass K) (i : ℕ) : EnuPoint K :=
  let base := field.near pass i
  ⟨base.east + pass.along.1 * pass.lengthM, base.north + pass.along.2 * pass.lengthM,
    field.altitudeM⟩

/-- The ends of a lane in the order of the flight. -/
def SurveyField.laneEnds (field : SurveyField K) (pass : SurveyPass K) (i : ℕ) :
    List (EnuPoint K) :=
  if i % 2 = 0 then [field.near pass i, field.far pass i]
  else [field.far pass i, field.near pass i]

/-- The vertices of all lanes. -/
def SurveyField.vertices (field : SurveyField K) (cross : Bool) : List (EnuPoint K) :=
  let pass := field.pass cross
  (List.range (laneCount pass.widthM field.spacingM).toNat).flatMap (field.laneEnds pass)

def serpentineWaypoints (field : SurveyField K) (cross : Bool) :
    Except SurveyError (List (EnuPoint K)) :=
  if field.spacingM ≤ 0 then .error (.valueError "lane spacing must be positive")
  else .ok (field.vertices cross)

/-- Bottom loop, rise, top loop, descent. -/
def cubeWaypoints (centerE centerN sideM baseAltitudeM : K) : List (EnuPoint K) :=
  let h := sideM / 2
  let corners := [(-h, -h), (h, -h), (h, h), (-h, h)]
  let loop := fun up : K => corners.map fun c => (⟨centerE + c.1, centerN + c.2, up⟩ : EnuPoint K)
  let bottom := loop baseAltitudeM
  let top := loop (baseAltitudeM + sideM)
  bottom ++ bottom.take 1 ++ top ++ top.take 1 ++ bottom.take 1

/-! ### Schedules -/

/-- One segment for every step that is long enough. -/
def polylineSchedule (speed : K) (label : String) : List (EnuPoint K) → List (Segment K)
  | p :: q :: rest =>
    if flown p q then seg p q speed label :: polylineSchedule speed label (q :: rest)
    else polylineSchedule speed label (q :: rest)
  | _ => []

def scheduleDuration (schedule : List (Segment K)) : K := (schedule.map Segment.durationS).sum

/-- A segment that does not move horizontally keeps the direction. -/
def Segment.heading (segment : Segment K) (direction : K × K) : K × K :=
  let de := segment.p1.east - segment.p0.east
  let dn := segment.p1.north - segment.p0.north
  let horiz := hypot de dn
  if horiz > 1 / 10 ^ 9 then (de / horiz, dn / horiz) else direction

/-- The position inside a segment. -/
def Segment.point (segment : Segment K) (t : K) : EnuPoint K :=
  let u := if segment.durationS > 0 then t / segment.durationS else 1
  let s := smoothstep u
  ⟨segment.p0.east + (segment.p1.east - segment.p0.east) * s,
    segment.p0.north + (segment.p1.north - segment.p0.north) * s,
    segment.p0.up + (segment.p1.up - segment.p0.up) * s⟩

/-- The loop over the segments, after one that ended at `last`. -/
def walkSchedule (last : EnuPoint K) (direction : K × K) :
    List (Segment K) → K → ScheduleSetpoint K
  | [], _ => ⟨last, direction, true⟩
  | segment :: rest, t =>
    if t ≤ segment.durationS then ⟨segment.point t, segment.heading direction, false⟩
    else walkSchedule segment.p1 (segment.heading direction) rest (t - segment.durationS)

def scheduleSetpoint (schedule : List (Segment K)) (t : K) : ScheduleSetpoint K :=
  walkSchedule ⟨0, 0, 0⟩ (0, 0) schedule (max 0 t)

/-- A point turned about the origin. -/
def EnuPoint.rotate (theta : K) (p : EnuPoint K) : EnuPoint K :=
  ⟨cos theta * p.east - sin theta * p.north, sin theta * p.east + cos theta * p.north, p.up⟩

def rotateSchedule (schedule : List (Segment K)) (theta : K) : List (Segment K) :=
  schedule.map fun g => ⟨g.p0.rotate theta, g.p1.rotate theta, g.durationS, g.label⟩

/-! ### The whole mission -/

/-- `sched[-1].p1`. -/
def lastPoint (schedule : List (Segment K)) : Except SurveyError (EnuPoint K) :=
  match schedule.getLast? with
  | some segment => .ok segment.p1
  | none => .error .indexError

namespace SurveyPlan

def home (plan : SurveyPlan K) : EnuPoint K := ⟨0, 0, plan.field.altitudeM⟩

/-- The corner of the field where the cross pass starts. -/
def entry (plan : SurveyPlan K) : EnuPoint K :=
  ⟨plan.field.originE, plan.field.originN, plan.field.altitudeM⟩

/-- Back to the entry, a pause, and the second pass. -/
def addCrosshatch (plan : SurveyPlan K) (schedule : List (Segment K)) :
    Except SurveyError (List (Segment K)) := do
  let last ← lastPoint schedule
  let regap := polylineSchedule plan.speedMps "regap" [last, plan.entry]
  let pass2 ← serpentineWaypoints plan.field true
  return schedule ++ (regap ++ (hover plan.entry plan.revisitGapS "regap" ::
    polylineSchedule plan.speedMps "crosshatch" (plan.entry :: pass2)))

/-- The circuit of the cube over the launch. -/
def addCube (plan : SurveyPlan K) (schedule : List (Segment K)) :
    Except SurveyError (List (Segment K)) := do
  let cube := cubeWaypoints 0 0 plan.cubeSideM plan.field.altitudeM
  let last ← lastPoint schedule
  return schedule ++ polylineSchedule plan.cubeSpeedMps "cube" (last :: cube)

def addHome (plan : SurveyPlan K) (schedule : List (Segment K)) :
    Except SurveyError (List (Segment K)) := do
  let last ← lastPoint schedule
  return schedule ++ polylineSchedule plan.speedMps "home" [last, plan.home]

end SurveyPlan

def buildSurveySchedule (plan : SurveyPlan K) : Except SurveyError (List (Segment K)) := do
  let pass1 ← serpentineWaypoints plan.field false
  let schedule := polylineSchedule plan.speedMps "serpentine" (plan.home :: pass1)
  let schedule ← if plan.crosshatch then plan.addCrosshatch schedule else pure schedule
  let schedule ← if plan.cubeSideM > 0 then plan.addCube schedule else pure schedule
  plan.addHome schedule

end Mission10.Flight
