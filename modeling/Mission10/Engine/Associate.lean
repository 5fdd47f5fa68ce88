import Mathlib
import Mission10.Engine.Numerics
import Mission10.Engine.Hungarian

/-!
# Cross-pass association

The tracklets of one pass are taken onto the tracks of the map: an alignment
that needs no correspondences, one assignment problem with dummy rows and
columns for misses and births, and the bookkeeping of its outcome. A track's
number is its place in the list, which the certificate of `Associator` keeps.
-/
namespace Mission10.Engine.Associate

open Loops Hungarian MathOps

set_option linter.unusedSectionVars false

variable {K : Type*} [Field K] [LinearOrder K] [MathOps K]

/-- `_BIG`, the cost of a forbidden pair. -/
def big : K := 10 ^ 18

/-- One object as one pass saw it. -/
structure Tracklet (K : Type*) where
  center : Point2 K
  t0 : K
  t1 : K
  nObs : ℕ
  weight : K
  spreadM : K
  classId : String
  tagIds : List String

/-- The least-squares rotation and translation taking `src` onto `dst`. -/
def rigidFit (src dst : List (Point2 K)) (rotation : Bool) : K × Point2 K :=
  let n : K := src.length
  if src.isEmpty then (0, (0, 0))
  else
    let sm := ((src.map Prod.fst).sum / n, (src.map Prod.snd).sum / n)
    let dm := ((dst.map Prod.fst).sum / n, (dst.map Prod.snd).sum / n)
    let num := ((src.zip dst).map fun (s, d) =>
      (s.1 - sm.1) * (d.2 - dm.2) - (s.2 - sm.2) * (d.1 - dm.1)).sum
    let den := ((src.zip dst).map fun (s, d) =>
      (s.1 - sm.1) * (d.1 - dm.1) + (s.2 - sm.2) * (d.2 - dm.2)).sum
    let theta : K :=
      if rotation ∧ 2 ≤ src.length ∧ (num ≠ 0 ∨ den ≠ 0) then atan2 num den else 0
    (theta, (dm.1 - (cos theta * sm.1 - sin theta * sm.2),
      dm.2 - (sin theta * sm.1 + cos theta * sm.2)))

def applySe2 (theta : K) (trans p : Point2 K) : Point2 K :=
  (cos theta * p.1 - sin theta * p.2 + trans.1, sin theta * p.1 + cos theta * p.2 + trans.2)

/-- The square of the distance of two points. -/
def dist2 (p q : Point2 K) : K := (p.1 - q.1) ^ 2 + (p.2 - q.2) ^ 2

/-- The cost matrix of the alignment, filled up to a square at the coarse gate. -/
def alignCost (aligned ref : List (Point2 K)) (coarseGateM : K) : List (List K) :=
  let n := max aligned.length ref.length
  (List.range n).map fun i => (List.range n).map fun j =>
    match aligned[i]?, ref[j]? with
    | some p, some q => dist2 p q
    | _, _ => coarseGateM ^ 2

/-- The assigned pairs of two points within the coarse gate. -/
def alignPairs (obs aligned ref : List (Point2 K)) (coarseGateM : K) (assign : List ℕ) :
    List (Point2 K × Point2 K) :=
  assign.zipIdx.filterMap fun (j, i) =>
    match obs[i]?, aligned[i]?, ref[j]? with
    | some o, some p, some q => if dist2 p q ≤ coarseGateM ^ 2 then some (o, q) else none
    | _, _, _ => none

/-- The rounds of the alignment from the transform found so far. -/
def alignRounds (obs ref : List (Point2 K)) (rotation : Bool) (coarseGateM : K) :
    ℕ → K → Point2 K → Option (K × Point2 K)
  | 0, theta, move => some (theta, move)
  | rounds + 1, theta, move =>
    let aligned := obs.map (applySe2 theta move)
    (hungarian (alignCost aligned ref coarseGateM)).bind fun assign =>
      let pairs := alignPairs obs aligned ref coarseGateM assign
      if pairs.length < 2 then some (theta, move)
      else
        let (nt, nx) := rigidFit (pairs.map Prod.fst) (pairs.map Prod.snd) rotation
        if |nt - theta| < 1 / 10 ^ 5 ∧ hypot (nx.1 - move.1) (nx.2 - move.2) < 1 / 10 ^ 4 then
          some (nt, nx)
        else alignRounds obs ref rotation coarseGateM rounds nt nx

/-- The transform of the pass onto the map. -/
def blindAlign (obs ref : List (Point2 K)) (rotation : Bool) (coarseGateM : K) :
    Option (K × Point2 K) :=
  if obs.isEmpty ∨ ref.isEmpty then some (0, (0, 0))
  else alignRounds obs ref rotation coarseGateM 8 0 (0, 0)

/-- What the pass says about a point of the map. -/
inductive Verdict
  | observed
  | edge
  | unseen
deriving DecidableEq, Repr

structure Track (K : Type*) where
  trackId : ℕ
  classId : String
  centers : List (Point2 K) := []
  weights : List K := []
  nPassesHit : ℕ := 0
  nPassesMissed : ℕ := 0
  firstSeen : K
  lastSeen : K
  tagIds : List String := []

namespace Track

/-- The weighted mean of the centers. The division raises when the weights sum
to 0, which `ingestPass` looks at. -/
def center (t : Track K) : Point2 K :=
  let w := t.weights.sum
  (((t.centers.zip t.weights).map fun (c, wi) => c.1 * wi).sum / w,
    ((t.centers.zip t.weights).map fun (c, wi) => c.2 * wi).sum / w)

/-- The track after a tracklet was matched with it. -/
def hit (t : Track K) (tk : Tracklet K) (center : Point2 K) : Track K :=
  { t with
    centers := t.centers ++ [center]
    weights := t.weights ++ [tk.weight]
    nPassesHit := t.nPassesHit + 1
    lastSeen := tk.t1
    tagIds := tk.tagIds.foldl (fun tags tag => if tag ∈ tags then tags else tags ++ [tag])
      t.tagIds }

/-- The track a tracklet founds. -/
def born (trackId : ℕ) (tk : Tracklet K) (center : Point2 K) : Track K :=
  { trackId, classId := tk.classId, firstSeen := tk.t0, lastSeen := 0 : Track K }.hit tk center

/-- The track after a pass that looked at it and did not find it. -/
def miss (t : Track K) : Track K := { t with nPassesMissed := t.nPassesMissed + 1 }

@[simp] theorem hit_trackId (t : Track K) (tk : Tracklet K) (center : Point2 K) :
    (t.hit tk center).trackId = t.trackId := rfl

@[simp] theorem miss_trackId (t : Track K) : t.miss.trackId = t.trackId := rfl

@[simp] theorem born_trackId (trackId : ℕ) (tk : Tracklet K) (center : Point2 K) :
    (born trackId tk center).trackId = trackId := rfl

end Track

/-- The map of tracks. -/
structure Associator (K : Type*) where
  gateM : K
  coarseGateM : K
  tracks : List (Track K)
  ids : ∀ j (track : Track K), tracks[j]? = some track → track.trackId = j

namespace Associator

/-- A map without tracks. -/
def new (gateM : K := 1) (coarseGateM : K := 3) : Associator K where
  gateM
  coarseGateM
  tracks := []
  ids := by simp

/-- `_new_track`. -/
def newTrack (a : Associator K) (tk : Tracklet K) (center : Point2 K) : Associator K :=
  { a with
    tracks := a.tracks ++ [Track.born a.tracks.length tk center]
    ids := by
      intro j track hj
      rw [List.getElem?_append] at hj
      split at hj
      · exact a.ids j track hj
      · rw [List.getElem?_singleton] at hj
        split at hj
        · rw [Option.some.injEq] at hj
          rw [← hj, Track.born_trackId]
          omega
        · simp at hj }

/-- A change of one track that leaves its number. -/
def change (a : Associator K) (j : ℕ) (f : Track K → Track K)
    (hf : ∀ t, (f t).trackId = t.trackId) : Associator K :=
  { a with
    tracks := a.tracks.modify j f
    ids := by
      intro k track hk
      rw [List.getElem?_modify] at hk
      obtain ⟨old, hold, rfl⟩ := Option.map_eq_some_iff.mp hk
      split
      · rw [hf]
        exact a.ids k old hold
      · exact a.ids k old hold }

/-- The number of the track at a place. -/
def idAt (a : Associator K) (j : ℕ) : ℕ := (a.tracks[j]?.map Track.trackId).getD 0

theorem idAt_eq (a : Associator K) {j : ℕ} (hj : j < a.tracks.length) : a.idAt j = j := by
  have htrack := List.getElem?_eq_getElem hj
  rw [idAt, htrack, Option.map_some, Option.getD_some]
  exact a.ids j _ htrack

end Associator

/-- The outcome of one pass: the matched pairs of a track and a tracklet, the
tracks that are new, missed and out of view. -/
structure PassResult (K : Type*) where
  theta : K
  trans : Point2 K
  matched : List (ℕ × ℕ) := []
  born : List ℕ := []
  missed : List ℕ := []
  outOfView : List ℕ := []

/-- The cost of a tracklet that founds a track. -/
def birthCost (gateM : K) : K := gateM ^ 2 / 2

/-- The cost of leaving a track without a tracklet. -/
def missCost (gateM : K) : Verdict → K
  | .observed => gateM ^ 2 / 2
  | .edge => gateM ^ 2 / 4
  | .unseen => 0

/-- The cost of a tracklet and a track. -/
def pairCost (gateM : K) (tk : Tracklet K) (aligned : Point2 K) (track : Track K) : K :=
  if tk.classId ≠ track.classId then big
  else if dist2 aligned track.center ≤ gateM ^ 2 then dist2 aligned track.center
  else big

section Pass

variable (a : Associator K) (tracklets : List (Tracklet K))
  (visibility : Option (Point2 K → Verdict))

/-- The verdict of the pass on a track; without a ledger every track is observed. -/
def verdict (track : Track K) : Verdict :=
  match visibility with
  | none => .observed
  | some query => query track.center

/-- One cell of the augmented matrix. The rows are the tracklets and then a miss
row for every track, the columns are the tracks and then a birth column for
every tracklet. -/
def cell (place : Tracklet K → Point2 K) (row column : ℕ) : K :=
  match tracklets[row]?, a.tracks[column]? with
  | some tk, some track => pairCost a.gateM tk (place tk) track
  | some _, none => if column = a.tracks.length + row then birthCost a.gateM else big
  | none, some track =>
    if row = tracklets.length + column then missCost a.gateM (verdict visibility track) else big
  | none, none => 0

/-- The augmented cost matrix. -/
def costMatrix (place : Tracklet K → Point2 K) : List (List K) :=
  let n := tracklets.length + a.tracks.length
  (List.range n).map fun row => (List.range n).map fun column =>
    cell a tracklets visibility place row column

/-- The variables of the loops over the assignment. -/
structure Pass (K : Type*) where
  assoc : Associator K
  result : PassResult K
  matchedTracks : List ℕ := []

/-- What becomes of one tracklet. -/
def settleTracklet (nTrk : ℕ) (cost : List (List K)) (assign : List ℕ)
    (place : Tracklet K → Point2 K) (s : Pass K) (i : ℕ) (tk : Tracklet K) : Pass K :=
  let j := assign.getD i 0
  if j < nTrk ∧ entry cost i j < big then
    { assoc := s.assoc.change j (·.hit tk (place tk)) fun _ => rfl
      result := { s.result with matched := s.result.matched ++ [(s.assoc.idAt j, i)] }
      matchedTracks := s.matchedTracks ++ [j] }
  else
    { s with
      assoc := s.assoc.newTrack tk (place tk)
      result := { s.result with born := s.result.born ++ [s.assoc.tracks.length] } }

/-- What becomes of one track that was there before the pass. -/
def settleTrack (s : Pass K) (j : ℕ) (v : Verdict) : Pass K :=
  if j ∈ s.matchedTracks then s
  else if v = .unseen then
    { s with result := { s.result with outOfView := s.result.outOfView ++ [s.assoc.idAt j] } }
  else
    { s with
      assoc := s.assoc.change j Track.miss fun _ => rfl
      result := { s.result with missed := s.result.missed ++ [s.assoc.idAt j] } }

/-- One pass on the tracks of the map. `none` is the division by zero of
`Track.center`, or an assignment search that does not end. -/
def Associator.ingestPass : Option (Associator K × PassResult K) :=
  if a.tracks.isEmpty then
    let s := forEach tracklets
      (fun (s : Associator K × List ℕ) _ tk =>
        (s.1.newTrack tk tk.center, s.2 ++ [s.1.tracks.length])) (a, [])
    some (s.1, { theta := 0, trans := (0, 0), born := s.2 })
  else if ∃ t ∈ a.tracks, t.weights.sum = 0 then none
  else
    (blindAlign (tracklets.map (·.center)) (a.tracks.map Track.center)
        (decide (2 ≤ tracklets.length)) a.coarseGateM).bind fun (theta, move) =>
      let place := fun tk : Tracklet K => applySe2 theta move tk.center
      let cost := costMatrix a tracklets visibility place
      (hungarian cost).map fun assign =>
        let s := forEach tracklets (settleTracklet a.tracks.length cost assign place)
          { assoc := a, result := { theta, trans := move } }
        let s := forEach (a.tracks.map (verdict visibility)) settleTrack s
        (s.assoc, s.result)

end Pass

end Mission10.Engine.Associate
