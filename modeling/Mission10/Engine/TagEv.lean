import Mission10.Engine.TagAnchor
import Mission10.Engine.Geometry
import Mission10.Library.Dict
import Mission10.Library.PlainText

/-!
# Tag observations for the estimator

The node that offers the autopilot a horizontal position. Before any ground tag is known
it offers the centre of the launch pad. The first tag is registered from its sightings as
if the vehicle hovered over that centre; the later ones are registered from the position
that the known tags give, and the position of a message is the median of what all known
tags in it give.
-/
namespace Mission10.Engine

open MathOps

/-! ### Histories -/

/-- Rows in the order of their times; the last ones are kept. -/
structure TimedHistory (V : Type*) where
  rows : List (ℤ × V) := []
  maxlen : ℕ := 500

namespace TimedHistory

variable {V : Type*}

/-- A row that is not newer than the last one is dropped. -/
def add (h : TimedHistory V) (timestampNs : ℤ) (value : V) : TimedHistory V :=
  if h.rows.getLast?.all fun last => last.1 < timestampNs then
    { h with rows := (h.rows ++ [(timestampNs, value)]).drop (h.rows.length + 1 - h.maxlen) }
  else h

/-- The row nearest a time, the first of two, unless it is too far away. -/
def nearest (h : TimedHistory V) (timestampNs maxAgeNs : ℤ) : Option (ℤ × V) :=
  (h.rows.argmin fun row => (row.1 - timestampNs).natAbs).filter fun row =>
    decide (|row.1 - timestampNs| ≤ maxAgeNs)

end TimedHistory

/-! ### Messages -/

/-- The fields of a `DistanceSensor` that the node reads. -/
structure RangeReading (K : Type*) where
  timestamp : ℤ
  currentDistance : K
  minDistance : K
  maxDistance : K
  signalQuality : ℤ

structure TagDetection (K : Type*) where
  id : String
  center : Point2 K

structure TagDetectionArray (K : Type*) where
  stampNs : ℤ
  detections : List (TagDetection K)

/-- What arrives at the node, with the clocks that its handler reads. -/
inductive TagEvEvent (K : Type*) where
  | attitude (timestamp : ℤ) (q : Quat K)
  | range (msg : RangeReading K)
  | status (armed : Bool) (monotonic : K)
  | priorTick (nowNs nowUs : ℤ) (monotonic : K)
  | detections (msg : TagDetectionArray K) (nowUs : ℤ) (monotonic : K)

/-- The reading of the clock that counts for the priors. -/
def TagEvEvent.clock {K : Type*} : TagEvEvent K → Option K
  | .priorTick _ _ monotonic => some monotonic
  | .detections _ _ monotonic => some monotonic
  | _ => none

def TagEvEvent.isDetections {K : Type*} : TagEvEvent K → Bool
  | .detections _ _ _ => true
  | _ => false

/-- The fields of an odometry message that are numbers. -/
structure VisualOdometry (K : Type*) where
  timestamp : ℤ
  timestampSample : ℤ
  position : Vec3 K
  positionVariance : Vec3 K
  resetCounter : ℤ
  quality : ℤ

inductive TagEvState where
  | padPrior
  | registering
  | rejected
  | tagPosition
deriving DecidableEq

def TagEvState.text : TagEvState → String
  | .padPrior => "pad_prior"
  | .registering => "registering"
  | .rejected => "rejected"
  | .tagPosition => "tag_position"

structure TagEvStatus (K : Type*) where
  timestampSampleNs : ℤ
  state : TagEvState
  publishEv : Bool
  evPublished : Bool
  registered : List (ℤ × Point2 K)
  registrationCounts : List (ℤ × ℕ)
  cameraPositionNedM : Option (Point2 K)
  pairDisagreementM : Option K
  resetCounter : ℤ

inductive TagEvMessage (K : Type*) where
  | odometry (msg : VisualOdometry K)
  | status (msg : TagEvStatus K)

/-- The horizontal position that a message states. -/
def TagEvMessage.place {K : Type*} : TagEvMessage K → Option (Point2 K)
  | .odometry msg => some msg.position.horizontal
  | .status msg => msg.cameraPositionNedM

/-! ### The node -/

variable {K : Type*} [Field K] [LinearOrder K] [MathOps K]

/-- The parameters of the node. A window of no samples makes it fail at its first
sighting. -/
structure TagEvConfig (K : Type*) [Field K] where
  publishEv : Bool := false
  tagIds : Finset ℤ := {6, 7}
  registrationSamples : ℕ := 10
  registrationScatterM : K := 1 / 10
  pairDisagreementM : K := 1 / 4
  priorTimeoutAfterArmS : K := 10
  noiseFloorM : K := 1 / 10
  samples_pos : 0 < registrationSamples

/-- The downward camera; `undistortPoints` takes a pixel to the normalized image plane. -/
structure TagCamera (K : Type*) [Field K] where
  undistortPoints : Point2 K → Point2 K
  lineDelayS : K := 968869339923 / 10 ^ 17

/-- A camera direction in the body frame. -/
def TagCamera.mount (ray : Vec3 K) : Vec3 K := ⟨-ray.east, ray.north, ray.down⟩

/-- The detected tag as an offset from the vehicle, at the time of its image row. -/
structure TagSighting (K : Type*) where
  tagId : ℤ
  rowNs : ℤ
  offset : Point2 K

structure TagEvNode (K : Type*) [Field K] [LinearOrder K] where
  cfg : TagEvConfig K
  camera : TagCamera K
  attitudes : TimedHistory (Quat K) := {}
  ranges : TimedHistory (K × ℤ) := {}
  registration : ℤ → List (Point2 K) := fun _ => []
  references : Dict ℤ (Point2 K) := Dict.empty
  armedSince : Option K := none
  resetCounter : ℤ := 0

/-- The number after the last colon of a label. -/
def tagIdOf (id : String) : Option ℤ :=
  if ':' ∈ id.toList then
    PlainText.readInt (TextWords.strip (id.toList.reverse.takeWhile (· ≠ ':')).reverse)
  else none

/-- The median in each coordinate. -/
def medianPoint (points : List (Point2 K)) : Point2 K :=
  (median (points.map Prod.fst), median (points.map Prod.snd))

/-- The largest distance from a point. -/
def scatterAbout (center : Point2 K) (points : List (Point2 K)) : K :=
  (points.map fun p => hypot (p.1 - center.1) (p.2 - center.2)).max?.getD 0

/-- The mean square deviation from the mean. -/
def variance (values : List K) : K :=
  let mean := values.sum / values.length
  (values.map fun v => (v - mean) ^ 2).sum / values.length

namespace TagEvNode

def new (cfg : TagEvConfig K) (camera : TagCamera K) : TagEvNode K := { cfg, camera }

/-- An attitude is normalized first. -/
def onAttitude (node : TagEvNode K) (timestamp : ℤ) (q : Quat K) : TagEvNode K :=
  let norm := sqrt (q.w * q.w + q.x * q.x + q.y * q.y + q.z * q.z)
  if norm > 1 / 2 then
    let unit : Quat K := ⟨q.w / norm, q.x / norm, q.y / norm, q.z / norm⟩
    { node with attitudes := node.attitudes.add (timestamp * 1000) unit }
  else node

def onRange (node : TagEvNode K) (msg : RangeReading K) : TagEvNode K :=
  if msg.minDistance ≤ msg.currentDistance ∧ msg.currentDistance ≤ msg.maxDistance ∧
      msg.signalQuality ≠ 0 then
    let row := (msg.currentDistance, msg.signalQuality)
    { node with ranges := node.ranges.add (msg.timestamp * 1000) row }
  else node

def onStatus (node : TagEvNode K) (armed : Bool) (monotonic : K) : TagEvNode K :=
  if armed then { node with armedSince := some (node.armedSince.getD monotonic) }
  else { node with armedSince := none }

def priorAllowed (node : TagEvNode K) (monotonic : K) : Bool :=
  if ∀ tagId ∈ node.cfg.tagIds, (node.references.get tagId).isSome then false
  else node.armedSince.all fun since => decide (monotonic - since ≤ node.cfg.priorTimeoutAfterArmS)

def publishEv (node : TagEvNode K) (sampleNs nowUs : ℤ) (position : Point2 K) (variance : K)
    (quality : ℤ) : TagEvMessage K :=
  .odometry {
    timestamp := nowUs
    timestampSample := sampleNs / 1000
    position := ⟨position.1, position.2, 0⟩
    positionVariance := ⟨variance, variance, 1⟩
    resetCounter := node.resetCounter
    quality }

def publishStatus (node : TagEvNode K) (timestampNs : ℤ) (state : TagEvState)
    (position : Option (Point2 K)) (disagreement : Option K) (evPublished : Bool) :
    TagEvMessage K :=
  .status {
    timestampSampleNs := timestampNs
    state
    publishEv := node.cfg.publishEv
    evPublished
    registered := (node.references.entries.mergeSort fun a b => decide (a.1 ≤ b.1))
    registrationCounts := node.cfg.tagIds.sort.map fun tagId =>
      (tagId, (node.registration tagId).length)
    cameraPositionNedM := position
    pairDisagreementM := disagreement
    resetCounter := node.resetCounter }

def priorState (node : TagEvNode K) : TagEvState :=
  if node.cfg.tagIds.sort.any fun tagId => !(node.registration tagId).isEmpty then .registering
  else .padPrior

/-- The launch prior, for as long as no tag is known. -/
def priorTick (node : TagEvNode K) (nowNs nowUs : ℤ) (monotonic : K) : List (TagEvMessage K) :=
  if node.priorAllowed monotonic = false then []
  else if node.references.entries ≠ [] then []
  else
    (if node.cfg.publishEv then
      [node.publishEv nowNs nowUs (0, 0) (node.cfg.noiseFloorM ^ 2) 100] else []) ++
    [node.publishStatus nowNs node.priorState none none node.cfg.publishEv]

/-- The offset of a pixel's ground point, from the attitude and the range nearest the time
of its image row. -/
def cameraToTag (node : TagEvNode K) (center : Point2 K) (timestampNs : ℤ) :
    Option (ℤ × Point2 K) :=
  let rowNs := timestampNs + truncate (center.2 * node.camera.lineDelayS * 10 ^ 9)
  match node.attitudes.nearest rowNs 100000000, node.ranges.nearest rowNs 100000000 with
  | some (_, q), some (_, distance, _) =>
    let normalized := node.camera.undistortPoints center
    let ray := quatRotate q (TagCamera.mount ⟨normalized.1, normalized.2, 1⟩)
    let agl := distance * (quatRotate q ⟨0, 0, 1⟩).down
    if agl ≤ 0 ∨ ray.down ≤ 1 / 10 then none
    else
      let scale := agl / ray.down
      some (rowNs, (ray.north * scale, ray.east * scale))
  | _, _ => none

/-- A detection of a tag that the node knows by its number. -/
def sighting (node : TagEvNode K) (imageNs : ℤ) (detection : TagDetection K) :
    Option (TagSighting K) :=
  match tagIdOf detection.id with
  | none => none
  | some tagId =>
    if tagId ∈ node.cfg.tagIds then
      (node.cameraToTag detection.center imageNs).map fun (rowNs, offset) =>
        ⟨tagId, rowNs, offset⟩
    else none

def observations (node : TagEvNode K) (msg : TagDetectionArray K) : List (TagSighting K) :=
  msg.detections.filterMap (node.sighting msg.stampNs)

/-- The place of a tag, once its window is full and tight. -/
def settledPlace (cfg : TagEvConfig K) (rows : List (Point2 K)) : Option (Point2 K) :=
  if rows.length = cfg.registrationSamples ∧
      scatterAbout (medianPoint rows) rows ≤ cfg.registrationScatterM then
    some (medianPoint rows)
  else none

/-- The window of a tag after one more sample. -/
def window (node : TagEvNode K) (tagId : ℤ) (sample : Point2 K) : List (Point2 K) :=
  (node.registration tagId ++ [sample]).drop
    ((node.registration tagId).length + 1 - node.cfg.registrationSamples)

/-- One more sample for a tag without a reference. -/
def collect (node : TagEvNode K) (tagId : ℤ) (sample : Point2 K) : TagEvNode K :=
  { node with
    registration := Function.update node.registration tagId (node.window tagId sample)
    references := match settledPlace node.cfg (node.window tagId sample) with
      | some place => node.references.set tagId place
      | none => node.references }

/-- Whether a sighting comes before the best one so far: its tag has more samples, or as
many and the lesser number. -/
def ahead (node : TagEvNode K) (best s : TagSighting K) : Bool :=
  let count := (node.registration s.tagId).length
  let most := (node.registration best.tagId).length
  decide (most < count ∨ most = count ∧ s.tagId < best.tagId)

/-- The sighting that the first tag is registered from. -/
def anchor (node : TagEvNode K) : List (TagSighting K) → Option (TagSighting K)
  | [] => none
  | first :: rest =>
    some (rest.foldl (fun best s => if node.ahead best s then s else best) first)

/-- The first tag is registered against the centre of the launch pad. -/
def bootstrap (node : TagEvNode K) (sightings : List (TagSighting K)) (monotonic : K) :
    TagEvNode K :=
  if node.references.entries = [] ∧ node.priorAllowed monotonic = true then
    match node.anchor sightings with
    | some s => node.collect s.tagId s.offset
    | none => node
  else node

/-- The positions that the known tags give. -/
def candidates (node : TagEvNode K) (sightings : List (TagSighting K)) : List (Point2 K) :=
  sightings.filterMap fun s => (node.references.get s.tagId).map fun place =>
    (place.1 - s.offset.1, place.2 - s.offset.2)

/-- A tag that is not known yet is registered from a position. -/
def registerTag (provisional : Point2 K) (node : TagEvNode K) (s : TagSighting K) :
    TagEvNode K :=
  if (node.references.get s.tagId).isSome then node
  else node.collect s.tagId (provisional.1 + s.offset.1, provisional.2 + s.offset.2)

/-- How far the candidates lie from their median. -/
def disagreement (values : List (Point2 K)) : K :=
  if values.length > 1 then scatterAbout (medianPoint values) values else 0

def scatterVar (values : List (Point2 K)) : K :=
  if values.length > 1 then
    max (variance (values.map Prod.fst)) (variance (values.map Prod.snd))
  else 0

/-- What the node says about the position of a message. -/
def report (node : TagEvNode K) (values : List (Point2 K)) (usedNs nowUs : ℤ) :
    List (TagEvMessage K) :=
  let position := medianPoint values
  if disagreement values > node.cfg.pairDisagreementM then
    [node.publishStatus usedNs .rejected (some position) (some (disagreement values)) false]
  else
    let variance := max (node.cfg.noiseFloorM ^ 2) (scatterVar values)
    (if node.cfg.publishEv then [node.publishEv usedNs nowUs position variance 100] else []) ++
    [node.publishStatus usedNs .tagPosition (some position) (some (disagreement values))
      node.cfg.publishEv]

def onDetections (node : TagEvNode K) (msg : TagDetectionArray K) (nowUs : ℤ) (monotonic : K) :
    TagEvNode K × List (TagEvMessage K) :=
  let sightings := node.observations msg
  match sightings.getLast? with
  | none => (node, [])
  | some last =>
    let node := node.bootstrap sightings monotonic
    let first := node.candidates sightings
    if first = [] then (node, [])
    else
      let node := sightings.foldl (registerTag (medianPoint first)) node
      (node, node.report (node.candidates sightings) last.rowNs nowUs)

/-- The node after an event, and the messages that it publishes. -/
def step (node : TagEvNode K) : TagEvEvent K → TagEvNode K × List (TagEvMessage K)
  | .attitude timestamp q => (node.onAttitude timestamp q, [])
  | .range msg => (node.onRange msg, [])
  | .status armed monotonic => (node.onStatus armed monotonic, [])
  | .priorTick nowNs nowUs monotonic => (node, node.priorTick nowNs nowUs monotonic)
  | .detections msg nowUs monotonic => node.onDetections msg nowUs monotonic

/-- The tags that the node makes out in an event. -/
def sightingsOf (node : TagEvNode K) : TagEvEvent K → List (TagSighting K)
  | .detections msg _ _ => node.observations msg
  | _ => []

/-- The messages of a run, each with the entry whose event it answers. -/
def trace {α : Type*} (eventOf : α → TagEvEvent K) :
    TagEvNode K → List α → List (α × TagEvMessage K)
  | _, [] => []
  | node, entry :: rest =>
    (node.step (eventOf entry)).2.map (entry, ·) ++
      trace eventOf (node.step (eventOf entry)).1 rest

end TagEvNode

end Mission10.Engine
