import Mission10.Engine.Numerics

/-!
# Phased-orbits choreography

The curves of `phased_orbits.py` and the part of the mission node that flies them
after the begin-orbit gate: spiral insertion, locked orbit, staggered peel-off and
the blend to the launch anchor. Positions are east, north and up from the anchor
of the node. The clock is counted in microseconds.
-/
namespace Mission10.Flight

open Engine (MathOps wrapPi)
open Engine.MathOps

/-- The ways to turn along a circle; `hold` is resolved by the node, and any other
name is refused by the curves. -/
inductive YawMode
  | inward
  | tangent
  | outward
  | fixed
  | hold
  | other (name : String)
deriving DecidableEq, Repr

/-- A commanded position, east before north, and a heading. -/
structure EnuSetpoint (K : Type*) where
  east : K
  north : K
  up : K
  yaw : K

variable {K : Type*} [Field K] [LinearOrder K] [MathOps K]

/-- `np.clip`. -/
def clip (x lo hi : K) : K := min (max x lo) hi

/-- The horizontal distance of two drones. -/
def pairDistance (a b : K × K) : K := Engine.hypot (a.1 - b.1) (a.2 - b.2)

/-- numpy's `%` with a positive modulus. -/
def remainder (x m : K) : K := x - m * Engine.floor (x / m)

/-- The angle at least -π and below π that equals the given one. -/
def wrapAngle (a : K) : K := remainder (a + pi) (2 * pi) - pi

/-- A ramp with zero rate at both ends. -/
def smoothstep (u : K) : K := u * u * (3 - 2 * u)

def unknownYawMode (name : String) : String :=
  "unknown yaw_mode '" ++ name ++
    "'; expected one of ('tangent', 'inward', 'outward', 'fixed')"

def yawFor (theta : K) (mode : YawMode) (fixedYaw : K) : Except String K :=
  match mode with
  | .tangent => .ok (wrapAngle (theta + pi / 2))
  | .inward => .ok (wrapAngle (theta + pi))
  | .outward => .ok (wrapAngle theta)
  | .fixed => .ok (wrapAngle fixedYaw)
  | .hold => .error (unknownYawMode "hold")
  | .other name => .error (unknownYawMode name)

/-- The keyword arguments that all curves share. -/
structure OrbitLayout (K : Type*) where
  spacing : K
  downrange : K
  base : K × K
  altitude : K
  phaseStep : K
  phase0 : K
  phases : Option (List K)
  yawMode : YawMode
  fixedYaw : K

/-- Every drone's phase offset. -/
def phasedOrbitPhases (n : ℕ) (layout : OrbitLayout K) : Except String (List K) :=
  match layout.phases with
  | some phases =>
    if phases.length = n then .ok phases
    else .error s!"phases must have length {n}, got ({phases.length},)"
  | none => .ok ((List.range n).map fun i : ℕ => layout.phase0 + layout.phaseStep * i)

def indexError (index n : ℕ) : String := s!"index {index} out of range for n={n}"

def phaseAt (index n : ℕ) (layout : OrbitLayout K) : Except String K := do
  let phases ← phasedOrbitPhases n layout
  return phases.getD index 0

/-- A point at an angle and a distance from the drone's center. -/
def polarSetpoint (index : ℕ) (layout : OrbitLayout K) (theta r : K) :
    Except String (EnuSetpoint K) := do
  let cx := layout.base.1 + layout.spacing * index
  let cy := layout.base.2 + layout.downrange
  let yaw ← yawFor theta layout.yawMode layout.fixedYaw
  return ⟨cx + r * cos theta, cy + r * sin theta, layout.altitude, yaw⟩

/-- The spiral from the center onto the circle. -/
def phasedOrbitInsertion (s : K) (index n : ℕ) (radius spin : K) (layout : OrbitLayout K) :
    Except String (EnuSetpoint K) := do
  if ¬ index < n then
    throw (indexError index n)
  let phi ← phaseAt index n layout
  let u := clip s 0 1
  polarSetpoint index layout (phi - spin * (1 - u)) (radius * u)

/-- The order in which the drones peel off; the highest index is the first. -/
def peelSequence (n : ℕ) (peelOrder : Option (List ℤ)) : List ℤ :=
  peelOrder.getD ((List.range n).map fun i => (n : ℤ) - 1 - i)

/-- The order names every drone once. -/
def isPeelOrder (n : ℕ) (order : List ℤ) : Prop :=
  order.mergeSort (fun a b => decide (a ≤ b)) = (List.range n).map (Nat.cast : ℕ → ℤ)

instance (n : ℕ) (order : List ℤ) : Decidable (isPeelOrder n order) := by
  unfold isPeelOrder
  infer_instance

def peelOrderError (n : ℕ) (order : List ℤ) : String :=
  s!"peel_order must be a permutation of 0..{n - 1}, got {order}"

/-- Total return time of `n` drones. -/
def peeloffDuration (n : ℕ) (leadIn stagger peelDuration : K) : K :=
  leadIn + (n - 1) * stagger + peelDuration

/-- The times of the peel-off. -/
structure PeelTiming (K : Type*) where
  peelOrder : Option (List ℤ)
  leadIn : K
  stagger : K
  peelDuration : K
  spin : K

/-- When a drone leaves the circle. -/
def PeelTiming.peelTime (timing : PeelTiming K) (index n : ℕ) : K :=
  timing.leadIn + ((peelSequence n timing.peelOrder).idxOf (index : ℤ) : ℕ) * timing.stagger

/-- The orbit goes on until the drone's turn, then curls into the center. -/
def phasedOrbitPeeloff (t : K) (index n : ℕ) (radius omega : K) (timing : PeelTiming K)
    (layout : OrbitLayout K) : Except String (EnuSetpoint K) := do
  if ¬ index < n then
    throw (indexError index n)
  if ¬ isPeelOrder n (peelSequence n timing.peelOrder) then
    throw (peelOrderError n (peelSequence n timing.peelOrder))
  let tPeel := timing.peelTime index n
  let phi ← phaseAt index n layout
  if t < tPeel then
    polarSetpoint index layout (phi + omega * t) radius
  else
    let u := clip ((t - tPeel) / max (1 / 10 ^ 6) timing.peelDuration) 0 1
    let s := smoothstep u
    polarSetpoint index layout (phi + omega * tPeel + timing.spin * s) (radius * (1 - s))

/-- The parameters of the node, angles in radians. -/
structure OrbitParams (K : Type*) where
  droneIndex : ℕ
  droneCount : ℕ
  center : K × K
  radius : K
  speedMps : K
  phaseStep : K
  phase0 : K
  phases : Option (List K)
  modAmps : List K
  modPhases : List K
  insertionSpin : K
  toCenterTimeS : K
  spiralTimeS : K
  peelLeadInS : K
  peelStaggerS : K
  peelDurationS : K
  peelSpin : K
  peelOrder : Option (List ℤ)
  yawMode : YawMode
  altitude : K
  phaseTrackingGain : K
  phaseErrorDeadband : K

/-- What the phase guard returns when it has peers to guard against. -/
structure GuardSolution (K : Type*) where
  rate : K
  activeConstraints : ℕ

/-- The fields of the node that the choreography reads and writes. An orbit of no
duration goes on. -/
structure Choreography (K : Type*) where
  params : OrbitParams K
  holdYaw : Option K
  homeOffset : K × K
  orbitGateUs : ℤ
  orbitDuration : Option K
  phaseCmd : Option K
  phaseCmdUs : ℤ
  phaseOffset : K
  peelPhase : Option K
  lastNominal : Option (EnuSetpoint K)

namespace OrbitParams

/-- The parameters as the node declares them. -/
def declared : OrbitParams K where
  droneIndex := 0
  droneCount := 4
  center := (0, 46 / 10)
  radius := 46 / 10
  speedMps := 2
  phaseStep := pi / 2
  phase0 := -(pi / 2)
  phases := none
  modAmps := [0, 0, 0, 0]
  modPhases := [0, 0, 0, 0]
  insertionSpin := 235 * pi / 180
  toCenterTimeS := 3
  spiralTimeS := 10
  peelLeadInS := 1 / 2
  peelStaggerS := 3
  peelDurationS := 4
  peelSpin := pi / 2
  peelOrder := none
  yawMode := .inward
  altitude := 5
  phaseTrackingGain := 8 / 10
  phaseErrorDeadband := pi / 60

variable (p : OrbitParams K)

def omega : K := p.speedMps / p.radius

def peelTiming : PeelTiming K :=
  ⟨p.peelOrder, p.peelLeadInS, p.peelStaggerS, p.peelDurationS, p.peelSpin⟩

def returnDuration : K :=
  peeloffDuration p.droneCount p.peelLeadInS p.peelStaggerS p.peelDurationS

/-- One revolution. -/
def revolution : K := 2 * pi / p.omega

/-- An entry of a per-drone list. -/
def entry (values : List K) (index : ℕ) : Except String K :=
  match values[index]? with
  | some value => .ok value
  | none => .error "list index out of range"

def dronePhase (index : ℕ) : Except String K :=
  match p.phases with
  | none => .ok (p.phase0 + p.phaseStep * index)
  | some phases => entry phases index

def scheduledPhase (index : ℕ) (orbitT : K) : Except String K := do
  let phase ← p.dronePhase index
  let amp ← entry p.modAmps index
  let modPhase ← entry p.modPhases index
  return p.omega * orbitT + phase + amp * (sin (p.omega * orbitT + modPhase) - sin modPhase)

def scheduledRate (index : ℕ) (orbitT : K) : Except String K := do
  let amp ← entry p.modAmps index
  let modPhase ← entry p.modPhases index
  return p.omega * (1 + amp * cos (p.omega * orbitT + modPhase))

end OrbitParams

namespace Choreography

/-- The node at the begin-orbit gate. -/
def beginOrbit (params : OrbitParams K) (holdYaw : Option K) (homeOffset : K × K) (nowUs : ℤ) :
    Choreography K where
  params
  holdYaw
  homeOffset
  orbitGateUs := nowUs
  orbitDuration := none
  phaseCmd := none
  phaseCmdUs := 0
  phaseOffset := 0
  peelPhase := none
  lastNominal := none

variable (m : Choreography K)

/-- The heading to hold, or the given one. -/
def missionYaw (fallback : K) : K :=
  if m.params.yawMode = .hold then m.holdYaw.getD fallback else fallback

def orbitLayout : OrbitLayout K where
  spacing := 0
  downrange := m.params.center.2
  base := (m.params.center.1, 0)
  altitude := m.params.altitude
  phaseStep := m.params.phaseStep
  phase0 := m.params.phase0
  phases := m.params.phases
  yawMode := if m.params.yawMode = .hold then .fixed else m.params.yawMode
  fixedYaw := m.missionYaw 0

def phaseYaw (phase : K) : K :=
  match m.params.yawMode with
  | .hold => m.missionYaw 0
  | .tangent => wrapPi (phase + pi / 2)
  | _ => wrapPi (phase + pi)

/-- Seconds between two readings of the clock. -/
def seconds (fromUs toUs : ℤ) : K := ((toUs - fromUs : ℤ) : K) / 10 ^ 6

/-- The offset from the schedule after a tick at the given rate. -/
def nextOffset (offset rate nominalRate dt : K) (solution : Option (GuardSolution K)) : K :=
  let offset :=
    if 0 < dt ∧ dt ≤ 1 / 4 then
      offset + (rate - nominalRate - m.params.phaseTrackingGain * offset) * dt
    else if 1 / 4 < dt then 0 else offset
  if (solution.map GuardSolution.activeConstraints).getD 0 = 0 ∧
      |offset| ≤ m.params.phaseErrorDeadband then 0
  else offset

/-- A tick on the orbit: the schedule, shifted by what the guard asked for. -/
def phaseGuardSetpoint (nowUs : ℤ) (orbitT : K) (solution : Option (GuardSolution K)) :
    Except String (Choreography K × EnuSetpoint K) := do
  let desired ← m.params.scheduledPhase m.params.droneIndex orbitT
  let nominalRate ← m.params.scheduledRate m.params.droneIndex orbitT
  let (cmdUs, offset) := match m.phaseCmd with
    | some _ => (m.phaseCmdUs, m.phaseOffset)
    | none => (nowUs, 0)
  let rate := (solution.map GuardSolution.rate).getD nominalRate
  let offset := m.nextOffset offset rate nominalRate (seconds cmdUs nowUs) solution
  let phase := desired + offset
  let (ce, cn) := m.params.center
  return ({ m with phaseCmd := some phase, phaseCmdUs := nowUs, phaseOffset := offset },
    ⟨ce + m.params.radius * cos phase, cn + m.params.radius * sin phase, m.params.altitude,
      m.phaseYaw phase⟩)

/-- The blend from a point to the launch anchor. -/
def homeSetpoint (start : K × K × K) (yaw homeT : K) : EnuSetpoint K :=
  let u := min 1 (max 0 homeT / max (1 / 10 ^ 3) m.params.toCenterTimeS)
  let s := smoothstep u
  let (fe, fn, fz) := start
  let (he, hn) := m.homeOffset
  ⟨fe * (1 - s) + he * s, fn * (1 - s) + hn * s, fz + (m.params.altitude - fz) * s, yaw⟩

/-- The layout with this drone's phase at the one the peel-off starts from. -/
def peelLayout (peelPhase : K) : Except String (OrbitLayout K) :=
  match m.params.phases with
  | none =>
    .ok { m.orbitLayout with
      phase0 := peelPhase - m.params.phaseStep * m.params.droneIndex }
  | some phases => do
    let own ← OrbitParams.entry phases m.params.droneIndex
    return { m.orbitLayout with phases := some (phases.map (· + (peelPhase - own))) }

def peelSetpoint (layout : OrbitLayout K) (t : K) : Except String (EnuSetpoint K) :=
  phasedOrbitPeeloff t m.params.droneIndex m.params.droneCount m.params.radius m.params.omega
    m.params.peelTiming layout

/-- The latched phase, or else the last one commanded, or else the scheduled one. -/
def peelPhaseAt (orbitDuration : K) : Except String K :=
  match m.peelPhase, m.phaseCmd with
  | some phase, _ => .ok phase
  | none, some phase => .ok phase
  | none, none => m.params.scheduledPhase m.params.droneIndex orbitDuration

/-- A tick after the orbit: the peel-off, then the way home from the center. -/
def returnSetpoint (orbitDuration rt : K) : Except String (Choreography K × EnuSetpoint K) := do
  let peelPhase ← m.peelPhaseAt orbitDuration
  let m := { m with peelPhase := some peelPhase }
  let layout ← m.peelLayout peelPhase
  if rt < m.params.returnDuration then
    let setpoint ← m.peelSetpoint layout rt
    return (m, setpoint)
  else
    let final ← m.peelSetpoint layout m.params.returnDuration
    return (m, m.homeSetpoint (m.params.center.1, m.params.center.2, m.params.altitude) final.yaw
      (rt - m.params.returnDuration))

/-- `_nominal_setpoint` from the begin-orbit gate on. -/
def nominalSetpoint (nowUs : ℤ) (solution : Option (GuardSolution K)) :
    Except String (Choreography K × EnuSetpoint K) := do
  let tau := max 0 (seconds m.orbitGateUs nowUs)
  if tau < m.params.spiralTimeS then
    let s := tau / max (1 / 10 ^ 3) m.params.spiralTimeS
    let setpoint ← phasedOrbitInsertion s m.params.droneIndex m.params.droneCount
      m.params.radius m.params.insertionSpin m.orbitLayout
    return (m, setpoint)
  else
    let orbitT := tau - m.params.spiralTimeS
    match m.orbitDuration with
    | none => m.phaseGuardSetpoint nowUs orbitT solution
    | some duration =>
      if orbitT < duration then m.phaseGuardSetpoint nowUs orbitT solution
      else m.returnSetpoint duration (orbitT - duration)

/-- `compute_setpoint` latches the last nominal setpoint. -/
def tick (nowUs : ℤ) (solution : Option (GuardSolution K)) : Except String (Choreography K) := do
  let (m, setpoint) ← m.nominalSetpoint nowUs solution
  return { m with lastNominal := some setpoint }

/-- Where the orbit ends when the command to come home arrives at `orbitT`. -/
def orbitEnd (p : OrbitParams K) (orbitT : K) : K :=
  p.revolution * ceil (orbitT / p.revolution - 1 / 10 ^ 9)

/-- `on_return_home` after the gate: the orbit ends on a whole revolution. -/
def onReturnHome (nowUs : ℤ) : Choreography K :=
  let tau := max 0 (seconds m.orbitGateUs nowUs)
  let orbitT := max 0 (tau - m.params.spiralTimeS)
  { m with orbitDuration := some (orbitEnd m.params orbitT) }

end Choreography

/-- What happens to the node after the gate. -/
inductive OrbitEvent (K : Type*)
  | tick (nowUs : ℤ) (solution : Option (GuardSolution K))
  | endMission (nowUs : ℤ)

def OrbitEvent.nowUs : OrbitEvent K → ℤ
  | .tick nowUs _ => nowUs
  | .endMission nowUs => nowUs

def Choreography.step (m : Choreography K) : OrbitEvent K → Except String (Choreography K)
  | .tick nowUs solution => m.tick nowUs solution
  | .endMission nowUs => .ok (m.onReturnHome nowUs)

/-- The time and the setpoint of a tick that led to a state. -/
def OrbitEvent.commanded (next : Choreography K) : OrbitEvent K → List (ℤ × EnuSetpoint K)
  | .tick nowUs _ => next.lastNominal.toList.map fun setpoint => (nowUs, setpoint)
  | .endMission _ => []

/-- The times and the setpoints of the ticks of a run. -/
def Choreography.fly (m : Choreography K) :
    List (OrbitEvent K) → Except String (List (ℤ × EnuSetpoint K))
  | [] => .ok []
  | event :: rest => do
    let next ← m.step event
    let flown ← next.fly rest
    return event.commanded next ++ flown

end Mission10.Flight
