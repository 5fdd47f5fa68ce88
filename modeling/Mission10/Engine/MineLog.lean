import Mission10.Engine.Geometry

/-!
# Mine log

Online clustering of ground hits in the flight frame. A hit joins the nearest
cluster within the gate or founds a new one; a pause since the cluster was last
seen starts a new pass.
-/
namespace Mission10.Engine

variable {K : Type*} [Field K] [LinearOrder K] [MathOps K]

/-- The status ladder. -/
inductive Status
  | candidate
  | confirmed
  | dipped
  | verified
deriving DecidableEq, Repr

/-- One back-projected detection. -/
structure DetectionObs (K : Type*) where
  t : K
  groundLocal : Point2 K
  conf : K
  classId : String
  ll : Option (Point2 K) := none
  tagId : Option String := none

structure Cluster (K : Type*) where
  clusterId : ℕ
  centroid : Point2 K
  weight : K
  nObs : ℕ
  nPasses : ℕ
  firstSeen : K
  lastSeen : K
  status : Status
  tagIds : List String
  llPerPass : List (Point2 K)
  sqDevSum : K
  passLlSum : Point2 K
  passLlN : ℕ

structure MineLog (K : Type*) where
  gateM : K
  passGapS : K
  confirmObs : ℕ
  confirmPasses : ℕ
  clusters : List (Cluster K)
  nIngested : ℕ

/-- The log with the constructor's defaults. -/
def MineLog.new : MineLog K where
  gateM := 1
  passGapS := 5
  confirmObs := 5
  confirmPasses := 2
  clusters := []
  nIngested := 0

/-- One comparison of the nearest-cluster loop. -/
def nearer (p : Point2 K) (best : Option (ℕ × K)) (entry : Cluster K × ℕ) : Option (ℕ × K) :=
  let d := hypot (p.1 - entry.1.centroid.1) (p.2 - entry.1.centroid.2)
  match best with
  | none => some (entry.2, d)
  | some (i, bestD) => if d < bestD then some (entry.2, d) else some (i, bestD)

/-- The index of the nearest cluster and its distance. -/
def MineLog.nearest (log : MineLog K) (p : Point2 K) : Option (ℕ × K) :=
  log.clusters.zipIdx.foldl (nearer p) none

def Cluster.closePass (c : Cluster K) : Cluster K :=
  { c with
    llPerPass := if c.passLlN > 0 then
        c.llPerPass ++ [(c.passLlSum.1 / c.passLlN, c.passLlSum.2 / c.passLlN)]
      else c.llPerPass
    passLlSum := (0, 0)
    passLlN := 0 }

/-- A cluster founded by an observation that it does not hold yet. -/
def Cluster.found (clusterId : ℕ) (obs : DetectionObs K) : Cluster K where
  clusterId
  centroid := obs.groundLocal
  weight := 0
  nObs := 0
  nPasses := 1
  firstSeen := obs.t
  lastSeen := obs.t
  status := .candidate
  tagIds := []
  llPerPass := []
  sqDevSum := 0
  passLlSum := (0, 0)
  passLlN := 0

/-- A pause longer than the gap closes the pass. -/
def Cluster.nextPass (passGapS t : K) (c : Cluster K) : Cluster K :=
  if t - c.lastSeen > passGapS then { c.closePass with nPasses := c.nPasses + 1 } else c

/-- The status after an observation. -/
def Cluster.climb (log : MineLog K) (tagId : Option String) (c : Cluster K) : Cluster K :=
  match tagId with
  | some tag =>
    { c with
      tagIds := if tag ∈ c.tagIds then c.tagIds else c.tagIds ++ [tag]
      status := .verified }
  | none =>
    if c.status = .candidate ∧ log.confirmObs ≤ c.nObs ∧ log.confirmPasses ≤ c.nPasses then
      { c with status := .confirmed }
    else c

/-- The weighted incremental centroid and spread. -/
def Cluster.absorb (log : MineLog K) (obs : DetectionObs K) (c : Cluster K) : Cluster K :=
  let w := max obs.conf (1 / 10 ^ 6)
  let newW := c.weight + w
  let dn := obs.groundLocal.1 - c.centroid.1
  let de := obs.groundLocal.2 - c.centroid.2
  let c := { c with
    centroid := (c.centroid.1 + dn * w / newW, c.centroid.2 + de * w / newW)
    sqDevSum := c.sqDevSum + w * (dn * dn + de * de) * (c.weight / newW)
    weight := newW
    nObs := c.nObs + 1
    lastSeen := obs.t }
  let c := match obs.ll with
    | some ll =>
      { c with
        passLlSum := (c.passLlSum.1 + ll.1, c.passLlSum.2 + ll.2)
        passLlN := c.passLlN + 1 }
    | none => c
  c.climb log obs.tagId

def MineLog.ingest (log : MineLog K) (obs : DetectionObs K) : MineLog K :=
  let founded := log.clusters ++ [(Cluster.found log.clusters.length obs).absorb log obs]
  let clusters := match log.nearest obs.groundLocal with
    | none => founded
    | some (i, d) =>
      if d > log.gateM then founded
      else log.clusters.modify i fun c => (c.nextPass log.passGapS obs.t).absorb log obs
  { log with clusters, nIngested := log.nIngested + 1 }

/-- Close every open pass. -/
def MineLog.finalize (log : MineLog K) : MineLog K :=
  { log with clusters := log.clusters.map Cluster.closePass }

/-- The position in the log of the oldest confirmed cluster. -/
def MineLog.nextDipTarget (log : MineLog K) : Option ℕ :=
  log.clusters.findIdx? fun c => c.status = .confirmed

/-- Record that the dip at a cluster was made. -/
def MineLog.markDipped (log : MineLog K) (i : ℕ) : MineLog K :=
  { log with clusters := log.clusters.modify i fun c => { c with status := .dipped } }

end Mission10.Engine
