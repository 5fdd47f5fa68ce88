import Mission10.Engine.Numerics

/-!
# The offboard controller

The plumbing that every flown mission shares: the handshake with the autopilot,
the launch reference, the operator gates and the state machine that a timer
ticks. A mission overrides hooks; a hook returns the mission's next state and
what it asks of the controller. Every callback reads the clock once and returns
what it publishes; a callback that raises ends the run.
-/
namespace Mission10.Flight

open Engine MathOps

variable {K : Type*} [Field K] [LinearOrder K] [MathOps K]

/-- The declared parameters, with their defaults. -/
structure Params (K : Type*) [Field K] where
  setpointRateHz : K := 20
  prestreamCycles : ℤ := 10
  takeoffAltitudeM : K := 5
  takeoffAcceptanceM : K := 2 / 5
  takeoffTimeoutS : K := 30
  forceArm : Bool := false
  waitForStart : Bool := false
  statusStaleTimeoutS : K := 5
  launchStabilityS : K := 3

inductive FlightState
  | waitLink
  | waitStart
  | prestream
  | takeoff
  | engage
  | active
  | returning
  | landRequested
  | landing
  | failsafe
  | done
deriving DecidableEq, Repr

/-- The navigation states that the controller tells apart. -/
inductive NavState
  | offboard
  | autoLand
  | other
deriving DecidableEq, Repr

/-- `ARMING_STATE_ARMED`. -/
def armingStateArmed : ℕ := 2

/-- `ARMING_STATE_DISARMED`. -/
def armingStateDisarmed : ℕ := 1

/-- `VehicleStatus`. -/
structure VehicleStatus where
  navState : NavState
  armingState : ℕ
  failsafe : Bool

structure ResetCounters where
  xy : ℤ
  z : ℤ
  heading : ℤ
deriving DecidableEq

/-- `VehicleLocalPosition`; the flags say which of the numbers are finite. -/
structure LocalPosition (K : Type*) where
  pos : Vec3 K
  xyFinite : Bool
  zFinite : Bool
  vel : Vec3 K
  xyValid : Bool
  vXyValid : Bool
  zValid : Bool
  counters : ResetCounters
  deltaXy : Point2 K
  deltaZ : K
  deltaHeading : K

/-- The limits of `enable_goto_setpoints`. -/
structure GotoLimits (K : Type*) where
  maxHorizontalSpeed : K
  maxVerticalSpeed : Option K
  maxHeadingRate : Option K

inductive Command (K : Type*)
  | takeoff (altitude : K)
  | returnToLaunch
  | land
  | setGlobalOrigin (lat lon alt : K)
  | offboardMode
  | arm (force : Bool)
  | disarm (force : Bool)

/-- What the node publishes. -/
inductive Output (K : Type*)
  | heartbeat (velocity : Bool)
  | trajectory (position : Vec3 K) (velocity : Option (Vec3 K)) (yaw : K)
  | goto (position : Vec3 K) (heading : K) (limits : Option (GotoLimits K))
  | command (command : Command K)

/-- A setpoint of the mission: a position and a heading, or a velocity too. -/
inductive MissionSetpoint (K : Type*)
  | position (target : Vec3 K) (yaw : K)
  | positionVelocity (target velocity : Vec3 K) (yaw : K)

structure Controller (K : Type*) [Field K] where
  params : Params K
  navState : NavState
  armState : ℕ
  failsafe : Bool
  pos : Vec3 K
  xyFinite : Bool
  zFinite : Bool
  vel : Vec3 K
  yaw : K
  launchXy : Option (Point2 K)
  launchZ : K
  launchReferenceLatched : Bool
  launchZLatched : Bool
  launchYaw : K
  launchYawLatched : Bool
  xyValid : Bool
  vXyValid : Bool
  zValid : Bool
  attitudeSeen : Bool
  statusSeen : Bool
  lastStatusUs : ℤ
  prestreamCount : ℤ
  startOk : Bool
  abortRequested : Bool
  homeRequested : Bool
  lastCommandUs : ℤ
  takeoffStartedUs : ℤ
  linkAcquiredFired : Bool
  heartbeatVelocity : Bool
  gotoActive : Bool
  gotoLimits : Option (GotoLimits K)
  globalXyValid : Bool
  globalAltValid : Bool
  pendingOrigin : Option (K × K × K)
  originSendUs : ℤ
  originStartUs : ℤ
  handoffHold : Option (Vec3 K × K)
  resetCounters : Option ResetCounters
  lastLocalResetUs : ℤ
  state : FlightState

/-- What a hook asks of the controller. -/
inductive Request (K : Type*)
  | requestLand
  | beginReturn
  | enableGotoSetpoints (limits : GotoLimits K)
  | setGlobalOrigin (lat lon alt : K)
  | commandDisarm (force : Bool)

/-- A mission: the hooks it overrides and the callbacks of its own topics. -/
structure Mission (K M I : Type*) [Field K] where
  onLinkAcquired : M → Controller K → ℤ → M × List (Request K)
  onActiveStart : M → Controller K → ℤ → M × List (Request K)
  onReturnHome : M → Controller K → ℤ → M × List (Request K)
  onLocalFrameReset : M → Controller K → Point2 K → K → K → M × List (Request K)
  onInput : M → Controller K → ℤ → I → M × List (Request K)
  computeSetpoint : M → Controller K → ℤ →
    Option (M × List (Request K) × Option (MissionSetpoint K))

/-- The hooks of the base class. -/
def Mission.base (K I : Type*) [Field K] : Mission K Unit I where
  onLinkAcquired := fun _ _ _ => ((), [])
  onActiveStart := fun _ _ _ => ((), [])
  onReturnHome := fun _ _ _ => ((), [])
  onLocalFrameReset := fun _ _ _ _ _ => ((), [])
  onInput := fun _ _ _ _ => ((), [])
  computeSetpoint := fun _ _ _ => some ((), [], none)

/-- The controller after a call, and what the call published. -/
abbrev Published (K : Type*) [Field K] := Controller K × List (Output K)

namespace Controller

def new (params : Params K) : Controller K where
  params
  navState := .other
  armState := armingStateDisarmed
  failsafe := false
  pos := ⟨0, 0, 0⟩
  xyFinite := true
  zFinite := true
  vel := ⟨0, 0, 0⟩
  yaw := 0
  launchXy := none
  launchZ := 0
  launchReferenceLatched := false
  launchZLatched := false
  launchYaw := 0
  launchYawLatched := false
  xyValid := false
  vXyValid := false
  zValid := false
  attitudeSeen := false
  statusSeen := false
  lastStatusUs := 0
  prestreamCount := 0
  startOk := !params.waitForStart
  abortRequested := false
  homeRequested := false
  lastCommandUs := 0
  takeoffStartedUs := 0
  linkAcquiredFired := false
  heartbeatVelocity := false
  gotoActive := false
  gotoLimits := none
  globalXyValid := false
  globalAltValid := false
  pendingOrigin := none
  originSendUs := 0
  originStartUs := 0
  handoffHold := none
  resetCounters := none
  lastLocalResetUs := 0
  state := .waitLink

/-! ### Setpoints -/

/-- The mission's height is relative to the pad. -/
def restoreDatum (c : Controller K) (target : Vec3 K) : Vec3 K :=
  ⟨target.north, target.east, target.down + c.launchZ⟩

def publishPositionSetpoint (c : Controller K) (target : Vec3 K) (yaw : K) : Published K :=
  ({ c with heartbeatVelocity := false }, [.trajectory (c.restoreDatum target) none (wrapPi yaw)])

def publishPositionVelocitySetpoint (c : Controller K) (target velocity : Vec3 K) (yaw : K) :
    Published K :=
  ({ c with heartbeatVelocity := true },
    [.trajectory (c.restoreDatum target) (some velocity) (wrapPi yaw)])

def publishGotoSetpoint (c : Controller K) (target : Vec3 K) (yaw : K) : Published K :=
  ({ c with heartbeatVelocity := false }, [.goto (c.restoreDatum target) (wrapPi yaw) c.gotoLimits])

/-- A position target, as a goto or as a trajectory setpoint. -/
def publishTarget (c : Controller K) (target : Vec3 K) (yaw : K) : Published K :=
  if c.gotoActive then c.publishGotoSetpoint target yaw else c.publishPositionSetpoint target yaw

def takeoffHold (c : Controller K) : Vec3 K :=
  let launch := c.launchXy.getD c.pos.horizontal
  ⟨launch.1, launch.2, -|c.params.takeoffAltitudeM|⟩

def takeoffTargetZ (c : Controller K) : K := c.launchZ - |c.params.takeoffAltitudeM|

/-- The heading of the launch, once it is latched. -/
def holdYaw (c : Controller K) : K := if c.launchYawLatched then c.launchYaw else c.yaw

def holdSetpoint (c : Controller K) : Published K := c.publishTarget c.takeoffHold c.holdYaw

def captureHandoffHold (c : Controller K) : Controller K :=
  { c with
    heartbeatVelocity := false
    handoffHold := some (⟨c.pos.north, c.pos.east, c.pos.down - c.launchZ⟩, c.holdYaw) }

def publishHandoffHold (c : Controller K) : Published K :=
  match c.handoffHold with
  | some (target, yaw) => c.publishTarget target yaw
  | none =>
    c.captureHandoffHold.publishTarget ⟨c.pos.north, c.pos.east, c.pos.down - c.launchZ⟩ c.holdYaw

/-- The setpoint of the mission; a goto setpoint has no velocity. -/
def publishMissionSetpoint (c : Controller K) : Option (MissionSetpoint K) → Option (Published K)
  | none => some c.holdSetpoint
  | some (.position target yaw) => some (c.publishTarget target yaw)
  | some (.positionVelocity target velocity yaw) =>
    if c.gotoActive then none else some (c.publishPositionVelocitySetpoint target velocity yaw)

/-! ### Commands -/

def publishCommandThrottled (c : Controller K) (nowUs : ℤ) (command : Command K) : Published K :=
  if nowUs - c.lastCommandUs ≥ 1000000 then
    ({ c with lastCommandUs := nowUs }, [.command command])
  else (c, [])

def commandArm (c : Controller K) : Output K := .command (.arm c.params.forceArm)

def beginLanding (c : Controller K) (nowUs : ℤ) : Published K :=
  ({ c.captureHandoffHold with state := .landRequested, lastCommandUs := nowUs }, [.command .land])

/-- `_begin_return`: without a global position the vehicle lands instead. -/
def returnOrLand (c : Controller K) (nowUs : ℤ) : Published K :=
  if c.globalXyValid && c.globalAltValid then
    ({ c.captureHandoffHold with state := .returning }, [.command .returnToLaunch])
  else c.beginLanding nowUs

/-- `begin_return`. -/
def beginReturn (c : Controller K) (nowUs : ℤ) : Published K :=
  if c.state = .returning ∨ c.state = .landRequested ∨ c.state = .landing ∨ c.state = .done then
    (c, [])
  else c.returnOrLand nowUs

def request (nowUs : ℤ) (c : Controller K) : Request K → Published K
  | .requestLand => ({ c with abortRequested := true }, [])
  | .beginReturn => c.beginReturn nowUs
  | .enableGotoSetpoints limits =>
    ({ c with gotoActive := true, heartbeatVelocity := false, gotoLimits := some limits }, [])
  | .setGlobalOrigin lat lon alt =>
    ({ c with pendingOrigin := some (lat, lon, alt), originStartUs := nowUs, originSendUs := 0 }, [])
  | .commandDisarm force => (c, [.command (.disarm force)])

/-- What a hook asks for, in order. -/
def requests (nowUs : ℤ) : Controller K → List (Request K) → Published K
  | c, [] => (c, [])
  | c, asked :: rest =>
    let first := c.request nowUs asked
    let later := requests nowUs first.1 rest
    (later.1, first.2 ++ later.2)

/-- `_send_pending_origin`: it raises when the origin is not accepted in time. -/
def sendPendingOrigin (c : Controller K) (nowUs : ℤ) : Option (Published K) :=
  match c.pendingOrigin with
  | none => some (c, [])
  | some (lat, lon, alt) =>
    if c.globalXyValid then some ({ c with pendingOrigin := none }, [])
    else if nowUs - c.originStartUs > 20000000 then none
    else if nowUs - c.originSendUs < 500000 then some (c, [])
    else some ({ c with originSendUs := nowUs }, [.command (.setGlobalOrigin lat lon alt)])

/-! ### Telemetry -/

def statusCb (c : Controller K) (nowUs : ℤ) (msg : VehicleStatus) : Controller K :=
  { c with
    statusSeen := true
    lastStatusUs := nowUs
    navState := msg.navState
    armState := msg.armingState
    failsafe := msg.failsafe }

/-- The parts of a frame reset: what moved, and by how much. -/
structure FrameReset (K : Type*) where
  deltaXy : Point2 K
  deltaZ : K
  deltaHeading : K

/-- Compare the reset counters; no reset before the first message. -/
def frameReset (c : Controller K) (msg : LocalPosition K) : Option (FrameReset K) :=
  match c.resetCounters with
  | none => none
  | some old =>
    if msg.counters = old then none
    else
      some
        { deltaXy := if msg.counters.xy ≠ old.xy then msg.deltaXy else (0, 0)
          deltaZ := if msg.counters.z ≠ old.z then msg.deltaZ else 0
          deltaHeading := if msg.counters.heading ≠ old.heading then msg.deltaHeading else 0 }

/-- The counters of a message; the first message and a reset restart the
stability clock. -/
def noteCounters (c : Controller K) (nowUs : ℤ) (msg : LocalPosition K) : Controller K :=
  { c with
    resetCounters := some msg.counters
    lastLocalResetUs := if c.resetCounters = some msg.counters then c.lastLocalResetUs else nowUs }

/-- The stored points move with the frame. -/
def rebase (c : Controller K) (reset : FrameReset K) : Controller K :=
  { c with
    launchXy := c.launchXy.map (shiftPoint reset.deltaXy)
    launchZ := if c.launchZLatched then c.launchZ + reset.deltaZ else c.launchZ
    launchYaw :=
      if c.launchYawLatched then wrapPi (c.launchYaw + reset.deltaHeading) else c.launchYaw
    handoffHold := c.handoffHold.map fun hold =>
      (⟨hold.1.north + reset.deltaXy.1, hold.1.east + reset.deltaXy.2, hold.1.down⟩,
        wrapPi (hold.2 + reset.deltaHeading)) }

/-- Store a position; until the launch reference is latched it follows. -/
def trackPosition (c : Controller K) (msg : LocalPosition K) : Controller K :=
  { c with
    pos := msg.pos
    xyFinite := msg.xyFinite
    zFinite := msg.zFinite
    vel := msg.vel
    xyValid := msg.xyValid
    vXyValid := msg.vXyValid
    zValid := msg.zValid
    launchXy :=
      if !c.launchReferenceLatched && msg.xyFinite then some msg.pos.horizontal else c.launchXy }

def attCb (c : Controller K) (q : Quat K) (yawFinite : Bool) : Controller K :=
  let yaw := atan2 (2 * (q.w * q.z + q.x * q.y)) (1 - 2 * (q.y * q.y + q.z * q.z))
  if yawFinite && decide (q.w * q.w + q.x * q.x + q.y * q.y + q.z * q.z > 1 / 4) then
    { c with yaw, attitudeSeen := true }
  else c

def gposCb (c : Controller K) (latLonValid altValid : Bool) : Controller K :=
  { c with globalXyValid := latLonValid, globalAltValid := altValid }

def startCb (c : Controller K) (data : Bool) : Controller K :=
  if data && !c.startOk then { c with startOk := true } else c

def abortCb (c : Controller K) (data : Bool) : Controller K :=
  if data && !c.abortRequested then { c with abortRequested := true } else c

def isArmed (c : Controller K) : Bool := c.armState = armingStateArmed

def linkAlive (c : Controller K) (nowUs : ℤ) : Bool :=
  c.statusSeen && decide (nowUs - c.lastStatusUs ≤
    truncate (max 1 c.params.statusStaleTimeoutS * 10 ^ 6))

/-- The pose is converged: stable, valid and finite, with a heading. -/
def launchReady (c : Controller K) (nowUs : ℤ) : Bool :=
  decide (c.params.launchStabilityS ≤ ((nowUs - c.lastLocalResetUs : ℤ) : K) / 10 ^ 6) &&
    c.xyValid && c.zValid && c.xyFinite && c.zFinite && c.attitudeSeen

/-- `_latch_launch_reference`: the controller with the reference, if it has one. -/
def latchLaunchReference (c : Controller K) (nowUs : ℤ) : Option (Controller K) :=
  if c.launchReferenceLatched then some c
  else if c.launchReady nowUs then
    some
      { c with
        launchXy := some c.pos.horizontal
        launchZ := c.pos.down
        launchReferenceLatched := true
        launchZLatched := true
        launchYaw := c.yaw
        launchYawLatched := true }
  else none

/-! ### Branches of the tick -/

/-- OFFBOARD drops without a stream. -/
def streams (c : Controller K) : Bool :=
  match c.state with
  | .prestream | .takeoff | .engage | .active | .landRequested => true
  | .returning => c.navState = .offboard
  | _ => false

/-- A cycle of the stream before the takeoff. -/
def countPrestream (c : Controller K) : Published K :=
  let held := c.holdSetpoint
  ({ held.1 with prestreamCount := held.1.prestreamCount + 1 }, held.2)

/-- The cycles after which the node gives up; it refuses to arm. -/
def maxPrestream (c : Controller K) : ℤ :=
  c.params.prestreamCycles + truncate (c.params.setpointRateHz * c.params.takeoffTimeoutS)

def engageAt (c : Controller K) (nowUs : ℤ) : Controller K :=
  { c with takeoffStartedUs := nowUs, lastCommandUs := nowUs, state := .engage }

def tickPrestream (c : Controller K) (nowUs : ℤ) : Option (Published K) :=
  let held := c.countPrestream
  if held.1.prestreamCount ≥ held.1.params.prestreamCycles then
    match held.1.latchLaunchReference nowUs with
    | none => if held.1.prestreamCount > held.1.maxPrestream then none else some held
    | some latched => some (latched.engageAt nowUs, held.2 ++ [.command .offboardMode])
  else some held

def tickTakeoff (c : Controller K) (nowUs : ℤ) : Published K :=
  let held := c.holdSetpoint
  let c := held.1
  if c.abortRequested then
    let landing := c.beginLanding nowUs
    (landing.1, held.2 ++ landing.2)
  else
    let climb := c.publishCommandThrottled nowUs (.takeoff c.params.takeoffAltitudeM)
    let c := climb.1
    let outputs := held.2 ++ [c.commandArm] ++ climb.2
    if |c.pos.down - c.takeoffTargetZ| ≤ c.params.takeoffAcceptanceM ∨
        ((nowUs - c.takeoffStartedUs : ℤ) : K) / 10 ^ 6 ≥ c.params.takeoffTimeoutS then
      ({ c with state := .engage }, outputs)
    else (c, outputs)

/-- Nothing is left to do when the vehicle is disarmed. -/
def tickUntilDisarmed (c : Controller K) : Controller K :=
  if c.isArmed then c else { c with state := .done }

/-- The stream goes on until the autopilot has taken the vehicle. -/
def returningHold (c : Controller K) : Published K :=
  if c.navState = .offboard then c.publishHandoffHold else (c, [])

def tickReturning (c : Controller K) (nowUs : ℤ) : Published K :=
  if c.abortRequested then c.beginLanding nowUs
  else
    let held := c.returningHold
    let retried := held.1.publishCommandThrottled nowUs .returnToLaunch
    (retried.1.tickUntilDisarmed, held.2 ++ retried.2)

def tickLandRequested (c : Controller K) (nowUs : ℤ) : Published K :=
  if !c.isArmed then ({ c with state := .done }, [])
  else if c.navState = .autoLand then ({ c with state := .landing }, [])
  else
    let held := c.publishHandoffHold
    let retried := held.1.publishCommandThrottled nowUs .land
    (retried.1, held.2 ++ retried.2)

/-- The autopilot has taken over, or the estimate is not to be trusted. -/
def interlock (c : Controller K) : Bool :=
  c.failsafe || !decide (c.navState = .offboard) || !(c.xyValid && c.vXyValid && c.zValid)

end Controller

/-- The controller with the mission on it. -/
structure Node (K M : Type*) [Field K] where
  base : Controller K
  mission : M

namespace Node

variable {M I : Type*}

/-- The node after a callback and what the callback published. -/
abbrev Effect (K M : Type*) [Field K] := Node K M × List (Output K)

/-- A hook's answer: the mission's next state, and its requests. -/
def answer (c : Controller K) (nowUs : ℤ) (hook : M × List (Request K)) : Effect K M :=
  let asked := Controller.requests nowUs c hook.2
  (⟨asked.1, hook.1⟩, asked.2)

def posCb (mission : Mission K M I) (n : Node K M) (nowUs : ℤ) (msg : LocalPosition K) :
    Effect K M :=
  let noted := n.base.noteCounters nowUs msg
  match n.base.frameReset msg with
  | none => (⟨noted.trackPosition msg, n.mission⟩, [])
  | some reset =>
    let c := noted.rebase reset
    let after := answer c nowUs
      (mission.onLocalFrameReset n.mission c reset.deltaXy reset.deltaZ reset.deltaHeading)
    (⟨after.1.base.trackPosition msg, after.1.mission⟩, after.2)

def endCb (mission : Mission K M I) (n : Node K M) (nowUs : ℤ) (data : Bool) : Effect K M :=
  if data && !n.base.homeRequested then
    let c := { n.base with homeRequested := true }
    answer c nowUs (mission.onReturnHome n.mission c nowUs)
  else (n, [])

/-- The hook of the first telemetry is called once. -/
def fireLinkAcquired (mission : Mission K M I) (n : Node K M) (nowUs : ℤ) : Effect K M :=
  if n.base.linkAcquiredFired then (n, [])
  else
    let c := { n.base with linkAcquiredFired := true }
    answer c nowUs (mission.onLinkAcquired n.mission c nowUs)

def tickWaitLink (mission : Mission K M I) (n : Node K M) (nowUs : ℤ) : Effect K M :=
  if n.base.linkAlive nowUs then
    let after := n.fireLinkAcquired mission nowUs
    let c := after.1.base
    (⟨{ c with state := if c.startOk then .prestream else .waitStart }, after.1.mission⟩, after.2)
  else (n, [])

def tickEngage (mission : Mission K M I) (n : Node K M) (nowUs : ℤ) : Effect K M :=
  let held := n.base.holdSetpoint
  let c := held.1
  if c.abortRequested then
    let landing := c.beginLanding nowUs
    (⟨landing.1, n.mission⟩, held.2 ++ landing.2)
  else
    let outputs := held.2 ++ [.command .offboardMode, c.commandArm]
    if c.isArmed && decide (c.navState = .offboard) then
      let c := { c with state := .active }
      let after := answer c nowUs (mission.onActiveStart n.mission c nowUs)
      (after.1, outputs ++ after.2)
    else (⟨c, n.mission⟩, outputs)

def tickActive (mission : Mission K M I) (n : Node K M) (nowUs : ℤ) : Option (Effect K M) :=
  if n.base.abortRequested then
    let landing := n.base.beginLanding nowUs
    some (⟨landing.1, n.mission⟩, landing.2)
  else if n.base.interlock then some (⟨{ n.base with state := .failsafe }, n.mission⟩, [])
  else
    (mission.computeSetpoint n.mission n.base nowUs).bind fun computed =>
      let after := answer n.base nowUs (computed.1, computed.2.1)
      (after.1.base.publishMissionSetpoint computed.2.2).map fun published =>
        (⟨published.1, after.1.mission⟩, after.2 ++ published.2)

/-- The state machine. -/
def tickState (mission : Mission K M I) (n : Node K M) (nowUs : ℤ) : Option (Effect K M) :=
  let onBase (published : Published K) : Effect K M := (⟨published.1, n.mission⟩, published.2)
  match n.base.state with
  | .waitLink => some (n.tickWaitLink mission nowUs)
  | .waitStart =>
    some (⟨{ n.base with state := if n.base.startOk then .prestream else .waitStart }, n.mission⟩,
      [])
  | .prestream => (n.base.tickPrestream nowUs).map onBase
  | .takeoff => some (onBase (n.base.tickTakeoff nowUs))
  | .engage => some (n.tickEngage mission nowUs)
  | .active => n.tickActive mission nowUs
  | .returning => some (onBase (n.base.tickReturning nowUs))
  | .landRequested => some (onBase (n.base.tickLandRequested nowUs))
  | .landing | .failsafe => some (⟨n.base.tickUntilDisarmed, n.mission⟩, [])
  | .done => some (n, [])

/-- `_tick`. -/
def tick (mission : Mission K M I) (n : Node K M) (nowUs : ℤ) : Option (Effect K M) :=
  (n.base.sendPendingOrigin nowUs).bind fun sent =>
    let beat := if sent.1.streams then [.heartbeat sent.1.heartbeatVelocity] else []
    (tickState mission ⟨sent.1, n.mission⟩ nowUs).map fun after =>
      (after.1, sent.2 ++ beat ++ after.2)

end Node

/-- The messages and the timer. -/
inductive NodeEvent (K I : Type*)
  | status (nowUs : ℤ) (msg : VehicleStatus)
  | position (nowUs : ℤ) (msg : LocalPosition K)
  | attitude (q : Quat K) (yawFinite : Bool)
  | globalPosition (latLonValid altValid : Bool)
  | start (data : Bool)
  | endMission (nowUs : ℤ) (data : Bool)
  | abort (data : Bool)
  | input (nowUs : ℤ) (input : I)
  | tick (nowUs : ℤ)

namespace Node

variable {M I : Type*}

def react (mission : Mission K M I) (n : Node K M) : NodeEvent K I → Option (Effect K M)
  | .status nowUs msg => some (⟨n.base.statusCb nowUs msg, n.mission⟩, [])
  | .position nowUs msg => some (n.posCb mission nowUs msg)
  | .attitude q yawFinite => some (⟨n.base.attCb q yawFinite, n.mission⟩, [])
  | .globalPosition latLonValid altValid =>
    some (⟨n.base.gposCb latLonValid altValid, n.mission⟩, [])
  | .start data => some (⟨n.base.startCb data, n.mission⟩, [])
  | .endMission nowUs data => some (n.endCb mission nowUs data)
  | .abort data => some (⟨n.base.abortCb data, n.mission⟩, [])
  | .input nowUs input => some (answer n.base nowUs (mission.onInput n.mission n.base nowUs input))
  | .tick nowUs => n.tick mission nowUs

def step (mission : Mission K M I) (n : Node K M) (event : NodeEvent K I) : Option (Node K M) :=
  (n.react mission event).map Prod.fst

end Node

end Mission10.Flight
