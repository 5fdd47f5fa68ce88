import Mission10.Flight.OffboardController

/-!
# The prop-idle mission

A bench test of the motors: one start gate lets the node stream direct actuator
outputs, request OFFBOARD, arm, hold the minimum output for a bounded time and
clean up. Every callback reads the clock once and returns what it publishes;
what it logs is left out, except that a cleanup begins and the mission is done.
-/
namespace Mission10.Flight

open Engine MathOps

variable {K : Type*} [Field K] [LinearOrder K] [MathOps K]

/-- The declared parameters, with their defaults. -/
structure IdleParams (K : Type*) [Field K] where
  rateHz : K := 25
  prestreamSeconds : K := 1
  armedSeconds : K := 60
  transitionTimeoutSeconds : K := 3
  statusStaleTimeoutSeconds : K := 1
  normalDisarmTimeoutSeconds : K := 6 / 10

namespace IdleParams

/-- A bound of `_validate_parameters` on one parameter. -/
def checkRange (low high value : K) (message : String) : Except String Unit :=
  if low ≤ value ∧ value ≤ high then .ok () else .error message

/-- `_validate_parameters`. -/
def validate (p : IdleParams K) : Except String Unit := do
  checkRange 5 100 p.rateHz "rate_hz must be between 5 and 100"
  checkRange 1 5 p.prestreamSeconds "prestream_seconds must be between 1 and 5"
  checkRange (1 / 10) 60 p.armedSeconds "armed_seconds must be between 0.1 and 60"
  checkRange 1 10 p.transitionTimeoutSeconds
    "transition_timeout_seconds must be between 1 and 10"
  checkRange (1 / 2) 5 p.statusStaleTimeoutSeconds
    "status_stale_timeout_seconds must be between 0.5 and 5"
  checkRange (2 / 10) 2 p.normalDisarmTimeoutSeconds
    "normal_disarm_timeout_seconds must be between 0.2 and 2"

end IdleParams

inductive IdleState
  | waitLink
  | waitStart
  | prestream
  | waitOffboard
  | waitArm
  | holdMinimum
  | normalDisarm
  | forceDisarm
  | done
deriving DecidableEq, Repr

/-- What the node publishes, and the two lines of its log that tell how far it is. -/
inductive IdleOutput
  | motors (stopped : Bool) (timestampUs : ℤ)
  | offboardMode
  | arm
  | disarm (force : Bool)
  | cleanup (reason : String)
  | finished (message : String)
deriving DecidableEq, Repr

structure PropIdle (K : Type*) [Field K] where
  params : IdleParams K
  status : Option VehicleStatus
  lastStatusUs : ℤ
  startRequested : Bool
  attempted : Bool
  state : IdleState
  stateStartedUs : ℤ
  lastForceDisarmUs : ℤ
  shutdownNextUs : ℤ

namespace PropIdle

/-- The node after a call, and what the call published. -/
abbrev Effect (K : Type*) [Field K] := PropIdle K × List IdleOutput

/-- The constructor, once the parameters are valid. -/
def init (params : IdleParams K) (nowUs : ℤ) : PropIdle K where
  params
  status := none
  lastStatusUs := 0
  startRequested := false
  attempted := false
  state := .waitLink
  stateStartedUs := nowUs
  lastForceDisarmUs := 0
  shutdownNextUs := 0

def new (params : IdleParams K) (nowUs : ℤ) : Except String (PropIdle K) :=
  params.validate.map fun _ => init params nowUs

def isArmed (n : PropIdle K) : Bool :=
  n.status.any fun status => status.armingState = armingStateArmed

def statusCb (n : PropIdle K) (nowUs : ℤ) (msg : VehicleStatus) : PropIdle K :=
  { n with status := some msg, lastStatusUs := nowUs }

def startCb (n : PropIdle K) (data : Bool) : PropIdle K :=
  if !data || n.attempted || n.startRequested then n else { n with startRequested := true }

def setState (n : PropIdle K) (nowUs : ℤ) (state : IdleState) : PropIdle K :=
  { n with state, stateStartedUs := nowUs }

/-- The seconds since the state was entered. -/
def elapsed (n : PropIdle K) (nowUs : ℤ) : K := ((nowUs - n.stateStartedUs : ℤ) : K) / 10 ^ 6

def staleUs (n : PropIdle K) : ℤ := truncate (n.params.statusStaleTimeoutSeconds * 10 ^ 6)

def statusFresh (n : PropIdle K) (nowUs : ℤ) : Bool :=
  n.status.isSome && decide (nowUs - n.lastStatusUs ≤ n.staleUs)

def finish (n : PropIdle K) (nowUs : ℤ) (message : String) : Effect K :=
  (n.setState nowUs .done, [.finished message])

def beginAttempt (n : PropIdle K) (nowUs : ℤ) : Effect K :=
  let n := { n with attempted := true }
  match n.status with
  | none => n.finish nowUs "vehicle status disappeared before start"
  | some status =>
    if status.armingState ≠ armingStateDisarmed then
      n.finish nowUs "vehicle was already armed; refusing test"
    else if status.failsafe then n.finish nowUs "vehicle is in failsafe; refusing test"
    else (n.setState nowUs .prestream, [])

/-- Stop the motors, and disarm if the last status says armed. -/
def beginCleanup (n : PropIdle K) (nowUs : ℤ) (reason : String) : Effect K :=
  let stopped := [.cleanup reason, .motors true nowUs]
  if n.isArmed then (n.setState nowUs .normalDisarm, stopped ++ [.disarm false])
  else
    let finished := n.finish nowUs "disarm confirmed"
    (finished.1, stopped ++ finished.2)

def beginForcedDisarm (n : PropIdle K) (nowUs : ℤ) (reason : String) : Effect K :=
  ({ n with lastForceDisarmUs := 0 }.setState nowUs .forceDisarm,
    [.cleanup (reason ++ "; using forced disarm")])

def sendForcedDisarm (n : PropIdle K) (nowUs : ℤ) : Effect K :=
  if nowUs - n.lastForceDisarmUs ≥ 200000 then
    ({ n with lastForceDisarmUs := nowUs }, [.motors true nowUs, .disarm true])
  else (n, [.motors true nowUs])

def endOrAbort (n : PropIdle K) (nowUs : ℤ) (reason : String) : Effect K :=
  match n.state with
  | .normalDisarm | .forceDisarm | .done => (n, [])
  | .waitLink | .waitStart =>
    { n with attempted := true }.finish nowUs (reason ++ " before start")
  | _ => n.beginCleanup nowUs reason

def endCb (n : PropIdle K) (nowUs : ℤ) (data : Bool) : Effect K :=
  if data then n.endOrAbort nowUs "end_mission received" else (n, [])

def abortCb (n : PropIdle K) (nowUs : ℤ) (data : Bool) : Effect K :=
  if data then n.endOrAbort nowUs "abort_mission received" else (n, [])

/-- `_publish_for_state`. -/
def outputsForState (n : PropIdle K) (nowUs : ℤ) : List IdleOutput :=
  match n.state with
  | .prestream | .waitOffboard | .waitArm | .holdMinimum => [.motors false nowUs]
  | .normalDisarm | .forceDisarm => [.motors true nowUs]
  | _ => []

/-- The start of a tick with a fresh status and without an attempt. -/
def tickWaitStart (n : PropIdle K) (nowUs : ℤ) : Effect K :=
  if n.statusFresh nowUs then
    if n.startRequested then n.beginAttempt nowUs else (n, [])
  else (n.setState nowUs .waitLink, [])

/-- The state machine of an attempt, with a fresh status. -/
def tickAttempt (n : PropIdle K) (nowUs : ℤ) (status : VehicleStatus) : Effect K :=
  match n.state with
  | .prestream =>
    if n.elapsed nowUs ≥ n.params.prestreamSeconds then
      (n.setState nowUs .waitOffboard, [.offboardMode])
    else (n, [])
  | .waitOffboard =>
    if status.navState = .offboard then (n.setState nowUs .waitArm, [.arm])
    else if n.elapsed nowUs ≥ n.params.transitionTimeoutSeconds then
      n.beginCleanup nowUs "OFFBOARD was not accepted"
    else (n, [])
  | .waitArm =>
    if status.navState ≠ .offboard then
      n.beginCleanup nowUs "mode changed before arm confirmation"
    else if n.isArmed then (n.setState nowUs .holdMinimum, [])
    else if n.elapsed nowUs ≥ n.params.transitionTimeoutSeconds then
      n.beginCleanup nowUs "arm was not accepted"
    else (n, [])
  | .holdMinimum =>
    if !n.isArmed then n.finish nowUs "PX4 disarmed during the minimum-output hold"
    else if status.navState ≠ .offboard then n.beginCleanup nowUs "mode changed while armed"
    else if n.elapsed nowUs ≥ n.params.armedSeconds then
      n.beginCleanup nowUs "minimum-output interval complete"
    else (n, [])
  | .normalDisarm =>
    if !n.isArmed then n.finish nowUs "normal disarm confirmed"
    else if n.elapsed nowUs ≥ n.params.normalDisarmTimeoutSeconds then
      n.beginForcedDisarm nowUs "normal disarm was not confirmed"
    else (n, [])
  | .forceDisarm =>
    if !n.isArmed then n.finish nowUs "forced disarm confirmed" else n.sendForcedDisarm nowUs
  | _ => (n, [])

/-- The rest of a tick: with a stale status only the forced disarm goes on. -/
def tickFresh (n : PropIdle K) (nowUs : ℤ) : Effect K :=
  match n.status with
  | some status =>
    if n.statusFresh nowUs then n.tickAttempt nowUs status
    else if n.state = .forceDisarm then n.sendForcedDisarm nowUs
    else n.beginForcedDisarm nowUs "vehicle_status became stale"
  | none =>
    if n.state = .forceDisarm then n.sendForcedDisarm nowUs
    else n.beginForcedDisarm nowUs "vehicle_status became stale"

/-- `_tick`. -/
def tick (n : PropIdle K) (nowUs : ℤ) : Effect K :=
  match n.state with
  | .waitLink =>
    if n.statusFresh nowUs then (n.setState nowUs .waitStart).tickWaitStart nowUs else (n, [])
  | .waitStart => n.tickWaitStart nowUs
  | .done => (n, [])
  | _ =>
    let after := n.tickFresh nowUs
    (after.1, n.outputsForState nowUs ++ after.2)

/-- A pass of the loop of `shutdown_cleanup`; it ends once disarmed. -/
def shutdownPass (n : PropIdle K) (nowUs : ℤ) : Effect K :=
  if !n.isArmed then (n, [])
  else if nowUs ≥ n.shutdownNextUs then
    ({ n with shutdownNextUs := nowUs + 200000 }, [.motors true nowUs, .disarm true])
  else (n, [.motors true nowUs])

end PropIdle

/-- The messages, the timer and the passes of the shutdown. -/
inductive IdleEvent
  | status (nowUs : ℤ) (msg : VehicleStatus)
  | start (data : Bool)
  | endMission (nowUs : ℤ) (data : Bool)
  | abort (nowUs : ℤ) (data : Bool)
  | tick (nowUs : ℤ)
  | shutdown (nowUs : ℤ)

namespace PropIdle

def react (n : PropIdle K) : IdleEvent → Effect K
  | .status nowUs msg => (n.statusCb nowUs msg, [])
  | .start data => (n.startCb data, [])
  | .endMission nowUs data => n.endCb nowUs data
  | .abort nowUs data => n.abortCb nowUs data
  | .tick nowUs => n.tick nowUs
  | .shutdown nowUs => n.shutdownPass nowUs

/-- A step of the node together with all that it has published. -/
def step (n : PropIdle K × List IdleOutput) (event : IdleEvent) :
    Option (PropIdle K × List IdleOutput) :=
  some ((n.1.react event).1, n.2 ++ (n.1.react event).2)

end PropIdle

end Mission10.Flight
