import Mission10.Engine.MissionConfig

/-!
# Mission sequencer

The state machine of the survey: takeoff, lanes or rosette with verify-dips,
egress, dump, settle, land, and abort from the flying phases. One `tick` takes
the time and the flight state and returns the next setpoint. Reading a slot
that was never filled raises, which the model returns as a fault.
-/
namespace Mission10.Engine

open MathOps

inductive PetalStage
  | center
  | outbound
  | outerHold
  | inbound
deriving DecidableEq, Repr

structure CoveredInterval (K : Type*) where
  lane : ℕ
  s0 : K
  s1 : K

/-- A position target and the heading to hold. -/
structure Setpoint (K : Type*) where
  pos : Vec3 K
  yaw : Option K

/-- What one tick is given. -/
structure Sample (K : Type*) where
  t : K
  pos : Vec3 K
  vel : Vec3 K
  horizontalValid : Bool := true
  surveyReady : Bool := true

inductive Fault
  | indexError
  | noneAccess
deriving DecidableEq, Repr

structure MissionEngine (K : Type*) [Field K] [LinearOrder K] where
  cfg : MissionConfig K
  log : MineLog K
  fencePolygon : List (Point2 K)
  lanes : List (Lane K)
  phase : Phase
  abortReason : Option (AbortReason K)
  tTakeoff : Option K
  dipsDone : ℕ
  dumpAttempts : ℕ
  dumpAcked : Bool
  covered : List (CoveredInterval K)
  ekfResetsSeen : ℕ
  syncT0 : Option K
  laneI : ℕ
  laneS : K
  homeNe : Option (Point2 K)
  /-- The position of the target in the log, which stands for the shared object. -/
  dipTarget : Option ℕ
  dipT0 : Option K
  lastDetectorT : Option K
  lastResetCounter : Option ℤ
  lastYaw : K
  petalI : ℕ
  petalStage : PetalStage
  petalHoldT0 : Option K
  laneEntered : Bool
  settleT0 : Option K
  settleNextPhase : Phase
  settleRequiresSurveyReady : Bool
  polygonFenceEngaged : Bool

variable {K : Type*} [Field K] [LinearOrder K] [MathOps K]

namespace MissionEngine

/-- The field polygon moved inward by the margin; empty without a polygon. -/
def surveyFence (cfg : MissionConfig K) : Except String (List (Point2 K)) :=
  if cfg.fencePolygonNe ≠ [] then insetConvexPolygon cfg.fencePolygonNe cfg.fenceMarginM
  else .ok []

def surveyLanes (cfg : MissionConfig K) (fence : List (Point2 K)) :
    Except String (List (Lane K)) :=
  if fence ≠ [] ∧ cfg.pattern = .serpentine then polygonSerpentine fence cfg.laneSpacing
  else
    serpentine cfg.lanesOrigin cfg.laneLength cfg.nLanes cfg.laneSpacing
      (radians cfg.laneHeadingDeg)

def initial (cfg : MissionConfig K) (fence : List (Point2 K)) (lanes : List (Lane K)) (yaw : K) :
    MissionEngine K where
  cfg
  log := .new
  fencePolygon := fence
  lanes
  phase := .preflight
  abortReason := none
  tTakeoff := none
  dipsDone := 0
  dumpAttempts := 0
  dumpAcked := false
  covered := []
  ekfResetsSeen := 0
  syncT0 := none
  laneI := 0
  laneS := 0
  homeNe := none
  dipTarget := none
  dipT0 := none
  lastDetectorT := none
  lastResetCounter := none
  lastYaw := yaw
  petalI := 0
  petalStage := .center
  petalHoldT0 := none
  laneEntered := false
  settleT0 := none
  settleNextPhase := .dump
  settleRequiresSurveyReady := false
  polygonFenceEngaged := false

def new (cfg : MissionConfig K) (initialYaw : K) : Except String (MissionEngine K) := do
  let fence ← surveyFence cfg
  let lanes ← surveyLanes cfg fence
  return initial cfg fence lanes initialYaw

theorem new_ok {cfg : MissionConfig K} {yaw : K} {e : MissionEngine K}
    (h : new cfg yaw = .ok e) : ∃ fence lanes, surveyFence cfg = .ok fence ∧
      surveyLanes cfg fence = .ok lanes ∧ e = initial cfg fence lanes yaw := by
  unfold new at h
  cases hfence : surveyFence cfg with
  | error err => simp [hfence, bind, Except.bind] at h
  | ok fence =>
    cases hlanes : surveyLanes cfg fence with
    | error err => simp [hfence, hlanes, bind, Except.bind] at h
    | ok lanes =>
      simp only [hfence, hlanes, bind, Except.bind] at h
      exact ⟨fence, lanes, rfl, hlanes, (Except.ok.inj h).symm⟩

/-! ## Inputs -/

def start (e : MissionEngine K) : MissionEngine K :=
  if e.phase = .preflight then { e with phase := .offboardSync } else e

def noteDetectorAlive (e : MissionEngine K) (t : K) : MissionEngine K :=
  { e with lastDetectorT := some t }

def noteResetCounter (e : MissionEngine K) (counter : ℤ) : MissionEngine K :=
  { e with
    ekfResetsSeen := match e.lastResetCounter with
      | some last => e.ekfResetsSeen + (counter - last).natAbs
      | none => e.ekfResetsSeen
    lastResetCounter := some counter }

def applyHeadingReset (e : MissionEngine K) (delta : K) : MissionEngine K :=
  { e with lastYaw := wrapPi (e.lastYaw + delta) }

/-- `_abort`: the finished and the aborting phases ignore it. -/
def abortWith (e : MissionEngine K) (reason : AbortReason K) : MissionEngine K :=
  if e.phase = .abort ∨ e.phase = .done then e
  else { e with abortReason := some reason, phase := .abort }

def operatorAbort (e : MissionEngine K) : MissionEngine K := e.abortWith .operator

def requestAbort (e : MissionEngine K) (reason : String) : MissionEngine K :=
  e.abortWith (.requested reason)

def notifyDumpResult (e : MissionEngine K) (ok : Bool) : MissionEngine K :=
  if e.phase ≠ .dump then e
  else if ok then { e with dumpAcked := true }
  else
    let e := { e with dumpAttempts := e.dumpAttempts + 1 }
    if e.cfg.dumpRetryLimit ≤ e.dumpAttempts then e.abortWith .dumpRetriesExhausted else e

/-! ## State -/

def altTarget (e : MissionEngine K) : K := -e.cfg.surveyAltM

/-- The place to come home to. -/
def egressNe (e : MissionEngine K) : Point2 K :=
  match e.cfg.pattern, e.homeNe with
  | .centerReturnRosette, some home => home
  | _, _ => e.cfg.egressNe

/-- A point at the survey altitude. -/
def atSurveyAltitude (e : MissionEngine K) (p : Point2 K) : Vec3 K := ⟨p.1, p.2, e.altTarget⟩

/-- The home point; reading it before the sync phase raises. -/
def home (e : MissionEngine K) : Except Fault (Point2 K) :=
  match e.homeNe with
  | some home => .ok home
  | none => .error .noneAccess

def target (e : MissionEngine K) (pos : Vec3 K) : Setpoint K := ⟨pos, some e.lastYaw⟩

def reached (e : MissionEngine K) (pos target : Vec3 K) : Bool :=
  decide (hypot (target.north - pos.north) (target.east - pos.east) ≤ e.cfg.reachTolM ∧
    |target.down - pos.down| ≤ e.cfg.reachTolM)

/-- The horizontal speed is within the landing tolerance. -/
def stopped (e : MissionEngine K) (vel : Vec3 K) : Bool :=
  decide (hypot vel.north vel.east ≤ e.cfg.landSpeedTolMps)

def fenceRadius (e : MissionEngine K) (p : Point2 K) : Option K :=
  match e.homeNe with
  | none => none
  | some home =>
    if e.cfg.fenceRadiusM ≤ 0 then none
    else
      let r := hypot (p.1 - home.1) (p.2 - home.2)
      if r > e.cfg.fenceRadiusM then some r else none

def fenceViolation (e : MissionEngine K) (p : Point2 K) : Option (FenceViolation K) :=
  if e.fencePolygon ≠ [] then
    if pointInPolygon p e.fencePolygon then none
    else some (.fieldPolygon (distanceToPolygon p e.fencePolygon))
  else (e.fenceRadius p).map fun r => .radius r e.cfg.fenceRadiusM

/-- The fence on the estimate; the polygon arms on the first entry. -/
def estimateFenceViolation (e : MissionEngine K) (p : Point2 K) :
    MissionEngine K × Option (FenceViolation K) :=
  if e.fencePolygon ≠ [] then
    if ¬ (e.phase = .lane ∨ e.phase = .verifyDip) then (e, none)
    else if pointInPolygon p e.fencePolygon then ({ e with polygonFenceEngaged := true }, none)
    else if e.polygonFenceEngaged then (e, e.fenceViolation p)
    else (e, none)
  else (e, e.fenceViolation p)

def checkDetector (e : MissionEngine K) (t : K) : MissionEngine K :=
  match e.lastDetectorT with
  | none => e
  | some last =>
    if (e.phase = .takeoff ∨ e.phase = .lane ∨ e.phase = .verifyDip) ∧
        e.cfg.detectorSilenceS > 0 ∧ t - last > e.cfg.detectorSilenceS then
      e.abortWith (.detectorSilent e.cfg.detectorSilenceS)
    else e

def checkResets (e : MissionEngine K) : MissionEngine K :=
  if e.cfg.resetStormCount ≤ e.ekfResetsSeen then e.abortWith .ekfResetStorm else e

def checkTimeout (e : MissionEngine K) (t : K) : MissionEngine K :=
  match e.tTakeoff with
  | none => e
  | some t0 =>
    if e.cfg.missionTimeoutS > 0 ∧ t - t0 > e.cfg.missionTimeoutS then
      e.abortWith (.missionTimeout (t - t0))
    else e

def checkEstimateFence (e : MissionEngine K) (p : Point2 K) : MissionEngine K :=
  match e.estimateFenceViolation p with
  | (e, some violation) => e.abortWith (.estimate violation)
  | (e, none) => e

/-- The phases in which no guard is evaluated. -/
def guardExempt : Phase → Bool
  | .preflight | .offboardSync | .abort | .settle | .dump | .land | .done => true
  | _ => false

def checkAborts (e : MissionEngine K) (t : K) (pos : Vec3 K) : MissionEngine K :=
  if guardExempt e.phase then e
  else (((e.checkDetector t).checkResets).checkTimeout t).checkEstimateFence pos.horizontal

/-! ## Tick -/

/-- The engine after a step, with the setpoint it returns. -/
abbrev Outcome (K : Type*) [Field K] [LinearOrder K] :=
  Except Fault (MissionEngine K × Option (Setpoint K))

def beginSettle (e : MissionEngine K) (nextPhase : Phase) (requireSurveyReady : Bool) :
    MissionEngine K :=
  { e with
    phase := .settle
    settleT0 := none
    settleNextPhase := nextPhase
    settleRequiresSurveyReady := requireSurveyReady }

/-- The covered stretches after one more of them. -/
def recordCoverage (covered : List (CoveredInterval K)) (lane : ℕ) (s0 s1 : K) :
    List (CoveredInterval K) :=
  if s1 ≤ s0 then covered
  else match covered.getLast? with
    | some last =>
      if last.lane = lane ∧ |last.s1 - s0| < 1 / 10 ^ 9 then
        covered.dropLast ++ [{ last with s1 }]
      else covered ++ [⟨lane, s0, s1⟩]
    | none => [⟨lane, s0, s1⟩]

/-- The cluster to dip at, when the budget permits. -/
def dipTrigger (e : MissionEngine K) : Option ℕ :=
  if e.dipsDone < e.cfg.maxDips then e.log.nextDipTarget else none

/-- The distance along a lane at which a position projects onto it. -/
def measuredS (lane : Lane K) (pos : Vec3 K) : K :=
  let along := (pos.north - lane.start.1) * cos lane.heading +
    (pos.east - lane.start.2) * sin lane.heading
  max 0 (min along lane.length)

/-- Record progress on the lane; a sample behind the furthest one adds none. -/
def advance (e : MissionEngine K) (lane : Lane K) (measured : K) : MissionEngine K :=
  if measured > e.laneS then
    { e with covered := recordCoverage e.covered lane.index e.laneS measured, laneS := measured }
  else e

/-- The engine at the start of the following lane. -/
def nextLane (e : MissionEngine K) : MissionEngine K :=
  { e with laneI := e.laneI + 1, laneS := 0, laneEntered := false }

/-- The end of a lane: on to the next one, or home. -/
def finishLane (e : MissionEngine K) (lane : Lane K) : MissionEngine K × Option (Setpoint K) :=
  let e := { e with covered := recordCoverage e.covered lane.index e.laneS lane.length }
  match e.lanes[e.laneI + 1]? with
  | some next => (e.nextLane, some (e.target (e.atSurveyAltitude (next.pointAt 0))))
  | none =>
    ({ e with phase := .egress },
      some (e.target (e.atSurveyAltitude (lane.pointAt lane.length))))

/-- Progress along the current lane. -/
def followLane (e : MissionEngine K) (lane : Lane K) (s : Sample K) :
    MissionEngine K × Option (Setpoint K) :=
  let e := e.advance lane (measuredS lane s.pos)
  let laneEnd := e.atSurveyAltitude (lane.pointAt lane.length)
  if e.reached s.pos laneEnd && e.stopped s.vel then e.finishLane lane
  else (e, some (e.target laneEnd))

/-- A lane that has been entered: dip first, if there is a target for it. -/
def surveyLane (e : MissionEngine K) (lane : Lane K) (entry : Vec3 K) (s : Sample K) :
    MissionEngine K × Option (Setpoint K) :=
  match e.dipTrigger with
  | some i =>
    ({ e with dipTarget := some i, dipT0 := none, phase := .verifyDip }, some (e.target entry))
  | none => e.followLane lane s

def tickLane (e : MissionEngine K) (s : Sample K) : Outcome K :=
  match e.lanes[e.laneI]? with
  | none => .error .indexError
  | some lane =>
    let entry := e.atSurveyAltitude (lane.pointAt e.laneS)
    if !e.laneEntered && !(e.reached s.pos entry && e.stopped s.vel) then
      .ok (e, some (e.target entry))
    else .ok (({ e with laneEntered := true } : MissionEngine K).surveyLane lane entry s)

/-- The dip is done: mark the cluster and go back to the lane. -/
def finishDip (e : MissionEngine K) (i : ℕ) : MissionEngine K :=
  { e with
    log := e.log.markDipped i
    dipsDone := e.dipsDone + 1
    dipTarget := none
    laneEntered := false
    phase := .lane }

/-- Over the cluster: the hover starts with the first sample there. -/
def hoverDip (e : MissionEngine K) (i : ℕ) (t : K) : MissionEngine K :=
  let t0 := e.dipT0.getD t
  let e := { e with dipT0 := some t0 }
  if t - t0 ≥ e.cfg.dipHoverS then e.finishDip i else e

/-- Hover over the cluster, mark it dipped and resume the lane. -/
def tickDip (e : MissionEngine K) (s : Sample K) : Outcome K :=
  match e.dipTarget.bind fun i => (e.log.clusters[i]?).map fun c => (i, c) with
  | none => .error .noneAccess
  | some (i, c) =>
    let hover := e.atSurveyAltitude c.centroid
    .ok (if e.reached s.pos hover then e.hoverDip i s.t else e, some (e.target hover))

/-- A hold: a stable sample starts it, `holdS` later it ends, an unstable one
resets it. The flag tells whether it ended. -/
def petalHold (e : MissionEngine K) (t holdS : K) (stable : Bool) : MissionEngine K × Bool :=
  if stable then
    match e.petalHoldT0 with
    | none => ({ e with petalHoldT0 := some t }, false)
    | some t0 => if t - t0 ≥ holdS then ({ e with petalHoldT0 := none }, true) else (e, false)
  else ({ e with petalHoldT0 := none }, false)

/-- The stage at the rosette's center. -/
def petalCenter (e : MissionEngine K) (center : Vec3 K) (s : Sample K) :
    MissionEngine K × Option (Setpoint K) :=
  let stable := s.horizontalValid && s.surveyReady && e.reached s.pos center && e.stopped s.vel
  match e.petalHold s.t e.cfg.rosetteCenterHoldS stable with
  | (e, true) =>
    if e.cfg.rosettePetals ≤ e.petalI then ({ e with phase := .dump }, some (e.target center))
    else ({ e with petalStage := .outbound }, some (e.target center))
  | (e, false) => (e, some (e.target center))

/-- The outer end of a petal. -/
def petalOuter (e : MissionEngine K) (center : Vec3 K) (headingDeg : K) : Vec3 K where
  north := center.north + e.cfg.rosetteRadiusM * cos (radians headingDeg)
  east := center.east + e.cfg.rosetteRadiusM * sin (radians headingDeg)
  down := center.down

/-- The stages away from the center. -/
def petalLeg (e : MissionEngine K) (center outer : Vec3 K) (s : Sample K) :
    MissionEngine K × Option (Setpoint K) :=
  match e.petalStage with
  | .outbound =>
    if e.reached s.pos outer then
      ({ e with petalStage := .outerHold, petalHoldT0 := none }, some (e.target outer))
    else (e, some (e.target outer))
  | .outerHold =>
    let stable := e.reached s.pos outer && e.stopped s.vel
    match e.petalHold s.t e.cfg.rosetteOuterHoldS stable with
    | (e, true) => ({ e with petalStage := .inbound }, some (e.target outer))
    | (e, false) => (e, some (e.target outer))
  | _ =>
    if e.reached s.pos center then
      ({ e with petalI := e.petalI + 1, petalStage := .center, petalHoldT0 := none },
        some (e.target center))
    else (e, some (e.target center))

/-- Short radial legs, with the anchor reacquired at the center before each. -/
def tickRosette (e : MissionEngine K) (s : Sample K) : Outcome K := do
  let home ← e.home
  let center := e.atSurveyAltitude home
  if e.petalStage = .center then
    return e.petalCenter center s
  else match rosetteHeadingsDeg[e.petalI]? with
    | none => throw .indexError
    | some headingDeg => return e.petalLeg center (e.petalOuter center headingDeg) s

def tickSurvey (e : MissionEngine K) (s : Sample K) : Outcome K :=
  match e.cfg.pattern with
  | .centerReturnRosette => e.tickRosette s
  | .serpentine => e.tickLane s

/-- The first sample of the sync phase freezes the home point. -/
def freezeHome (e : MissionEngine K) (s : Sample K) : MissionEngine K :=
  match e.syncT0 with
  | none => { e with syncT0 := some s.t, homeNe := some s.pos.horizontal }
  | some _ => e

/-- After the sync time the climb starts. -/
def finishSync (e : MissionEngine K) (t : K) : MissionEngine K :=
  if t - e.syncT0.getD t ≥ e.cfg.syncDurationS then
    { e with phase := .takeoff, tTakeoff := some t }
  else e

def tickSync (e : MissionEngine K) (s : Sample K) : Outcome K := do
  let e := (e.freezeHome s).finishSync s.t
  let home ← e.home
  return (e, some ⟨⟨home.1, home.2, s.pos.down⟩, some e.lastYaw⟩)

def tickTakeoff (e : MissionEngine K) (s : Sample K) : Outcome K := do
  let home ← e.home
  let climb := e.atSurveyAltitude home
  if e.reached s.pos climb then
    ({ e with phase := .lane } : MissionEngine K).tickSurvey s
  else return (e, some (e.target climb))

/-- Fly to the egress point, after the survey or after an abort. -/
def tickEgress (e : MissionEngine K) (s : Sample K) : MissionEngine K × Option (Setpoint K) :=
  let place := e.atSurveyAltitude e.egressNe
  if e.reached s.pos place then
    if e.phase = .egress then ({ e with phase := .dump }, some (e.target place))
    else (e.beginSettle .land false, some (e.target place))
  else (e, some (e.target place))

/-- What one tick needs to count for the settle block. -/
def settleReady (e : MissionEngine K) (s : Sample K) : Bool :=
  s.horizontalValid && e.stopped s.vel && e.reached s.pos (e.atSurveyAltitude e.egressNe) &&
    (s.surveyReady || !e.settleRequiresSurveyReady)

def tickSettle (e : MissionEngine K) (s : Sample K) : MissionEngine K × Option (Setpoint K) :=
  let place := e.atSurveyAltitude e.egressNe
  let e := if e.settleReady s then
      match e.settleT0 with
      | none => { e with settleT0 := some s.t }
      | some t0 =>
        if s.t - t0 ≥ e.cfg.landSettleS then { e with phase := e.settleNextPhase } else e
    else { e with settleT0 := none }
  (e, some (e.target place))

def tickDump (e : MissionEngine K) : MissionEngine K × Option (Setpoint K) :=
  let e := if e.dumpAcked then e.beginSettle .land true else e
  (e, some (e.target (e.atSurveyAltitude e.egressNe)))

def tickLand (e : MissionEngine K) (s : Sample K) : MissionEngine K × Option (Setpoint K) :=
  let place : Vec3 K := ⟨e.egressNe.1, e.egressNe.2, 0⟩
  if e.reached s.pos place then ({ e with phase := .done }, none)
  else (e, some (e.target place))

/-- The branches of `_tick`, after its guards. -/
def tickPhase (e : MissionEngine K) (s : Sample K) : Outcome K :=
  match e.phase with
  | .preflight => .ok (e, none)
  | .offboardSync => e.tickSync s
  | .takeoff => e.tickTakeoff s
  | .lane => e.tickSurvey s
  | .verifyDip => e.tickDip s
  | .egress | .abort => .ok (e.tickEgress s)
  | .settle => .ok (e.tickSettle s)
  | .dump => .ok e.tickDump
  | .land => .ok (e.tickLand s)
  | .done => .ok (e, none)

/-- `_tick`. -/
def tickOnce (e : MissionEngine K) (s : Sample K) : Outcome K :=
  (e.checkAborts s.t s.pos).tickPhase s

def commandFenceActive (e : MissionEngine K) : Bool :=
  if e.fencePolygon ≠ [] then decide (e.phase = .lane ∨ e.phase = .verifyDip)
  else decide (e.phase = .takeoff ∨ e.phase = .lane ∨ e.phase = .verifyDip)

/-- The fence violation of a returned setpoint, in the phases that are fenced. -/
def commandViolation (e : MissionEngine K) (sp : Option (Setpoint K)) :
    Option (FenceViolation K) :=
  match sp with
  | none => none
  | some sp => if e.commandFenceActive then e.fenceViolation sp.pos.horizontal else none

/-- A setpoint outside the fence aborts and the tick is taken again. -/
def tick (e : MissionEngine K) (s : Sample K) : Outcome K := do
  let (e', sp) ← e.tickOnce s
  match e'.commandViolation sp with
  | some violation => (e'.abortWith (.command violation)).tickOnce s
  | none => return (e', sp)

/-- The rim feeds the mine log directly. -/
def ingest (e : MissionEngine K) (obs : DetectionObs K) : MissionEngine K :=
  { e with log := e.log.ingest obs }

/-- Building the payload closes the open passes of the log. -/
def finalizeLog (e : MissionEngine K) : MissionEngine K := { e with log := e.log.finalize }

end MissionEngine

/-- Everything a caller can do to an engine. -/
inductive EngineInput (K : Type*)
  | start
  | noteDetectorAlive (t : K)
  | noteResetCounter (counter : ℤ)
  | applyHeadingReset (delta : K)
  | operatorAbort
  | requestAbort (reason : String)
  | notifyDumpResult (ok : Bool)
  | ingest (obs : DetectionObs K)
  | finalizeLog
  | tick (s : Sample K)

/-- The engine after an input, unless the tick raised. -/
def MissionEngine.step (e : MissionEngine K) : EngineInput K → Option (MissionEngine K)
  | .start => some e.start
  | .noteDetectorAlive t => some (e.noteDetectorAlive t)
  | .noteResetCounter counter => some (e.noteResetCounter counter)
  | .applyHeadingReset delta => some (e.applyHeadingReset delta)
  | .operatorAbort => some e.operatorAbort
  | .requestAbort reason => some (e.requestAbort reason)
  | .notifyDumpResult ok => some (e.notifyDumpResult ok)
  | .ingest obs => some (e.ingest obs)
  | .finalizeLog => some e.finalizeLog
  | .tick s => (e.tick s).toOption.map Prod.fst

end Mission10.Engine
