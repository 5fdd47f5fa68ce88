import Mission10.Engine.Numerics

/-!
# Survey geometry

Rotations, boustrophedon lanes and the field polygon, in north-east order. The
functions raise `ValueError` on inputs they refuse; the model returns the text.
-/
namespace Mission10.Engine

open MathOps

variable {K : Type*} [Field K] [LinearOrder K] [MathOps K]

/-- Rotate a body vector into the local frame. -/
def quatRotate (q : Quat K) (v : Vec3 K) : Vec3 K :=
  let tx := 2 * (q.y * v.down - q.z * v.east)
  let ty := 2 * (q.z * v.north - q.x * v.down)
  let tz := 2 * (q.x * v.east - q.y * v.north)
  { north := v.north + q.w * tx + q.y * tz - q.z * ty
    east := v.east + q.w * ty + q.z * tx - q.x * tz
    down := v.down + q.w * tz + q.x * ty - q.y * tx }

/-- One straight survey leg. -/
structure Lane (K : Type*) where
  index : ℕ
  start : Point2 K
  heading : K
  length : K

def Lane.pointAt (lane : Lane K) (s : K) : Point2 K :=
  (lane.start.1 + s * cos lane.heading, lane.start.2 + s * sin lane.heading)

/-- Lane `i` of the serpentine; odd lanes run back. -/
def serpentineLane (origin : Point2 K) (length spacing heading : K) (i : ℕ) : Lane K :=
  let fwd := (cos heading, sin heading)
  let right := (-fwd.2, fwd.1)
  let base := (origin.1 + i * spacing * right.1, origin.2 + i * spacing * right.2)
  if i % 2 = 0 then
    { index := i, start := base, heading, length }
  else
    { index := i
      start := (base.1 + length * fwd.1, base.2 + length * fwd.2)
      heading := heading + pi
      length }

def serpentine (origin : Point2 K) (length : K) (nLanes : ℤ) (spacing heading : K) :
    Except String (List (Lane K)) :=
  if nLanes < 1 then
    .error "n_lanes must be >= 1"
  else if length ≤ 0 ∨ spacing ≤ 0 then
    .error "length/lane_spacing must be positive"
  else
    .ok ((List.range nLanes.toNat).map (serpentineLane origin length spacing heading))

/-- Consecutive corners of a closed polygon. -/
def polygonEdges (polygon : List (Point2 K)) : List (Point2 K × Point2 K) :=
  polygon.zip (polygon.rotate 1)

/-- The tolerance of the edge tests. -/
def edgeTol : K := 1 / 10 ^ 8

def onEdge (point : Point2 K) (edge : Point2 K × Point2 K) : Bool :=
  let ((n1, e1), (n2, e2)) := edge
  let cross := (point.1 - n1) * (e2 - e1) - (point.2 - e1) * (n2 - n1)
  decide (|cross| ≤ edgeTol ∧ min n1 n2 - edgeTol ≤ point.1 ∧ point.1 ≤ max n1 n2 + edgeTol ∧
    min e1 e2 - edgeTol ≤ point.2 ∧ point.2 ≤ max e1 e2 + edgeTol)

/-- Whether the ray from the point crosses the edge. -/
def crossesEdge (point : Point2 K) (edge : Point2 K × Point2 K) : Bool :=
  let ((n1, e1), (n2, e2)) := edge
  decide (e1 > point.2) != decide (e2 > point.2) &&
    decide (point.1 < n1 + (n2 - n1) * (point.2 - e1) / (e2 - e1))

/-- The edge loop: on an edge it returns, across one it flips the parity. -/
def insideScan (point : Point2 K) : List (Point2 K × Point2 K) → Bool → Bool
  | [], inside => inside
  | edge :: edges, inside =>
    if onEdge point edge then true
    else insideScan point edges (inside ^^ crossesEdge point edge)

def pointInPolygon (point : Point2 K) (polygon : List (Point2 K)) : Bool :=
  if polygon.length < 3 then false else insideScan point (polygonEdges polygon) false

/-- Distance to one boundary segment. -/
def distanceToEdge (point : Point2 K) (edge : Point2 K × Point2 K) : K :=
  let ((n1, e1), (n2, e2)) := edge
  let dn := n2 - n1
  let de := e2 - e1
  let denom := dn * dn + de * de
  let u := if denom = 0 then 0
    else max 0 (min 1 (((point.1 - n1) * dn + (point.2 - e1) * de) / denom))
  hypot (point.1 - (n1 + u * dn)) (point.2 - (e1 + u * de))

/-- Shortest horizontal distance to the boundary; `none` is `math.inf`. -/
def distanceToPolygon (point : Point2 K) (polygon : List (Point2 K)) : Option K :=
  ((polygonEdges polygon).map (distanceToEdge point)).min?

/-- Twice the signed area. -/
def area2 (polygon : List (Point2 K)) : K :=
  ((polygonEdges polygon).map fun (p1, p2) => p1.1 * p2.2 - p1.2 * p2.1).sum

/-- An edge moved inward: a point of it and its direction. -/
def shiftEdge (side margin : K) (edge : Point2 K × Point2 K) :
    Except String (Point2 K × Point2 K) :=
  let (p1, p2) := edge
  let dn := p2.1 - p1.1
  let de := p2.2 - p1.2
  let length := hypot dn de
  if length ≤ 1 / 10 ^ 9 then
    .error "polygon has duplicate adjacent corners"
  else
    .ok ((p1.1 + margin * (-side * de / length), p1.2 + margin * (side * dn / length)), (dn, de))

/-- The corner where two moved edges meet. -/
def meetEdges (before after : Point2 K × Point2 K) : Except String (Point2 K) :=
  let (p1, d1) := before
  let (p2, d2) := after
  let det := d1.1 * d2.2 - d1.2 * d2.1
  if |det| ≤ 1 / 10 ^ 9 then
    .error "polygon has parallel adjacent edges"
  else
    let delta := (p2.1 - p1.1, p2.2 - p1.2)
    let t := (delta.1 * d2.2 - delta.2 * d2.1) / det
    .ok (p1.1 + t * d1.1, p1.2 + t * d1.2)

/-- Offset every edge of a convex perimeter inward. -/
def insetConvexPolygon (polygon : List (Point2 K)) (margin : K) :
    Except String (List (Point2 K)) := do
  if polygon.length < 3 then
    throw "polygon needs at least three corners"
  if margin < 0 then
    throw "polygon margin must not be negative"
  if margin = 0 then
    return polygon
  if |area2 polygon| ≤ 1 / 10 ^ 9 then
    throw "polygon area is too small"
  let side := if area2 polygon > 0 then 1 else -1
  let shifted ← (polygonEdges polygon).mapM (shiftEdge side margin)
  let before := shifted.rotate (shifted.length - 1)
  let result ← (before.zip shifted).mapM fun (d1, d2) => meetEdges d1 d2
  if |area2 result| ≤ 1 / 10 ^ 6 then
    throw "polygon margin collapses the field"
  return result

/-- Where the line at `offset` meets one edge, along the lane direction. -/
def laneHits (fwd right : Point2 K) (offset : K) (edge : Point2 K × Point2 K) : List K :=
  let (p1, p2) := edge
  let a1 := p1.1 * right.1 + p1.2 * right.2
  let a2 := p2.1 * right.1 + p2.2 * right.2
  if |a2 - a1| ≤ 1 / 10 ^ 9 then
    if |offset - a1| ≤ 1 / 10 ^ 8 then
      [p1.1 * fwd.1 + p1.2 * fwd.2, p2.1 * fwd.1 + p2.2 * fwd.2]
    else []
  else
    let u := (offset - a1) / (a2 - a1)
    if -(1 / 10 ^ 9) ≤ u ∧ u ≤ 1 + 1 / 10 ^ 9 then
      [(p1.1 + u * (p2.1 - p1.1)) * fwd.1 + (p1.2 + u * (p2.2 - p1.2)) * fwd.2]
    else []

/-- One more lane, unless the line misses the polygon. -/
def clipLane (fwd right : Point2 K) (polygon : List (Point2 K)) (lanes : List (Lane K))
    (offset : K) : List (Lane K) :=
  let hits := (polygonEdges polygon).flatMap (laneHits fwd right offset)
  let startS := hits.min?.getD 0
  let endS := hits.max?.getD 0
  if hits.length < 2 ∨ endS - startS ≤ 1 / 10 ^ 6 then lanes
  else
    let (a, b) := if lanes.length % 2 = 0 then (startS, endS) else (endS, startS)
    lanes ++ [{
      index := lanes.length
      start := (a * fwd.1 + offset * right.1, a * fwd.2 + offset * right.2)
      heading := atan2 ((b - a) * fwd.2) ((b - a) * fwd.1)
      length := |b - a| }]

/-- Clip parallel survey lanes to a convex polygon. -/
def polygonSerpentine (polygon : List (Point2 K)) (spacing : K) :
    Except String (List (Lane K)) := do
  let (n0, e0) := polygon.getD 0 (0, 0)
  let (n1, e1) := polygon.getD 1 (0, 0)
  if polygon.length < 3 ∨ spacing ≤ 0 then
    throw "polygon needs at least three corners and positive spacing"
  let edgeLen := hypot (n1 - n0) (e1 - e0)
  if edgeLen ≤ 1 / 10 ^ 6 then
    throw "the first two polygon corners must be distinct"
  let fwd := ((n1 - n0) / edgeLen, (e1 - e0) / edgeLen)
  let right := (-fwd.2, fwd.1)
  let across := polygon.map fun p => p.1 * right.1 + p.2 * right.2
  let lo := across.min?.getD 0
  let hi := across.max?.getD 0
  let count := (max 2 (ceil ((hi - lo) / spacing) + 1)).toNat
  let offsets := (List.range count).map fun i : ℕ => lo + (hi - lo) * (i : K) / ((count : K) - 1)
  let lanes := offsets.foldl (clipLane fwd right polygon) []
  if lanes.isEmpty then
    throw "polygon produced no survey lanes"
  return lanes

theorem serpentine_ne_nil {origin : Point2 K} {length spacing heading : K} {nLanes : ℤ}
    {lanes : List (Lane K)} (h : serpentine origin length nLanes spacing heading = .ok lanes) :
    lanes ≠ [] := by
  unfold serpentine at h
  split_ifs at h with hcount hsize
  obtain rfl := Except.ok.inj h
  intro hnil
  have hlen := congrArg List.length hnil
  rw [List.length_map, List.length_range, List.length_nil] at hlen
  omega

theorem polygonSerpentine_ne_nil {polygon : List (Point2 K)} {spacing : K}
    {lanes : List (Lane K)} (h : polygonSerpentine polygon spacing = .ok lanes) :
    lanes ≠ [] := by
  unfold polygonSerpentine at h
  simp only [bind, Except.bind, pure, Except.pure, throw, throwThe, MonadExceptOf.throw] at h
  intro hnil
  subst hnil
  split_ifs at h
  simp_all

end Mission10.Engine
