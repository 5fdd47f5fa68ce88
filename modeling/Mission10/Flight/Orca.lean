import Mission10.Engine.Numerics
import Mission10.Library.Plane

/-!
# Reciprocal collision avoidance

Each peer, given relative to the observer, becomes a half-plane of permitted
velocities; an incremental linear program over the half-planes and the disc of
the speed finds the permitted velocity closest to the preferred one. The small
numbers that the program allows for are a parameter.
-/
namespace Mission10.Flight

open Engine (MathOps Point2 sqrt_real)
open Engine.MathOps Plane

variable {K : Type*} [Field K]

structure OrcaPeer (K : Type*) where
  position : Point2 K
  velocity : Point2 K
  combinedRadius : K

structure OrcaSolution (K : Type*) where
  velocity : Point2 K
  feasible : Bool
  activeConstraints : ℕ
  maxViolation : K

/-- A constraint: a normal, and the least product with it. -/
abbrev HalfPlane (K : Type*) := Point2 K × K

/-- The numbers that count as zero in the linear program. -/
structure Tolerances (K : Type*) [Field K] where
  radiusSq : K := 1 / 10 ^ 10
  coefficient : K := 1 / 10 ^ 12
  required : K := 1 / 10 ^ 9
  interval : K := 1 / 10 ^ 10
  satisfied : K := 1 / 10 ^ 9
  active : K := 1 / 10 ^ 7

namespace Tolerances

def zero : Tolerances K := ⟨0, 0, 0, 0, 0, 0⟩

@[simp] theorem zero_radiusSq : (zero : Tolerances K).radiusSq = 0 := rfl

@[simp] theorem zero_coefficient : (zero : Tolerances K).coefficient = 0 := rfl

@[simp] theorem zero_required : (zero : Tolerances K).required = 0 := rfl

@[simp] theorem zero_interval : (zero : Tolerances K).interval = 0 := rfl

@[simp] theorem zero_satisfied : (zero : Tolerances K).satisfied = 0 := rfl

end Tolerances

variable [LinearOrder K] [MathOps K]

/-! ### The half-plane of a peer -/

/-- The time until which the peers are avoided. -/
def effectiveHorizon (timeHorizon : K) : K := max (1 / 10 ^ 3) timeHorizon

/-- The relative velocity, seen from the center of the disc that cuts off the
velocity obstacle. -/
def cutoffOffset (ownVelocity : Point2 K) (peer : OrcaPeer K) (horizon : K) : Point2 K :=
  ownVelocity - peer.velocity - (1 / horizon) • peer.position

/-- The closest boundary of the velocity obstacle is the cutoff disc. -/
def InCutoff (ownVelocity : Point2 K) (peer : OrcaPeer K) (horizon : K) : Prop :=
  let w := cutoffOffset ownVelocity peer horizon
  let product := dot w peer.position
  product < 0 ∧ product * product > peer.combinedRadius * peer.combinedRadius * normSq w

instance (ownVelocity : Point2 K) (peer : OrcaPeer K) (horizon : K) :
    Decidable (InCutoff ownVelocity peer horizon) := by
  unfold InCutoff
  infer_instance

/-- The direction of the boundary and the least change of the relative velocity
that leaves the obstacle, for peers that are apart. -/
def avoidApart (ownVelocity : Point2 K) (peer : OrcaPeer K) (timeHorizon : K) :
    Point2 K × Point2 K :=
  let p := peer.position
  let radius := peer.combinedRadius
  let relativeVelocity := ownVelocity - peer.velocity
  let horizon := effectiveHorizon timeHorizon
  let w := cutoffOffset ownVelocity peer horizon
  if InCutoff ownVelocity peer horizon then
    let wLen := sqrt (max (normSq w) (1 / 10 ^ 12))
    let unitW := (1 / wLen) • w
    ((unitW.2, -unitW.1), (radius * (1 / horizon) - wLen) • unitW)
  else
    let leg := sqrt (max 0 (normSq p - radius * radius))
    let direction : Point2 K :=
      if det p w > 0 then
        (1 / normSq p) • (p.1 * leg - p.2 * radius, p.1 * radius + p.2 * leg)
      else -((1 / normSq p) • ((p.1 * leg + p.2 * radius, -p.1 * radius + p.2 * leg) : Point2 K))
    (direction, dot relativeVelocity direction • direction - relativeVelocity)

/-- The same for peers that are too close: they are left within a time step. -/
def avoidClose (ownVelocity : Point2 K) (peer : OrcaPeer K) (timeStep : K) :
    Point2 K × Point2 K :=
  let p := peer.position
  let invStep := 1 / max (1 / 10 ^ 3) timeStep
  let w := ownVelocity - peer.velocity - invStep • p
  let wLen := sqrt (normSq w)
  let unitW : Point2 K :=
    if wLen ≤ 1 / 10 ^ 9 then -((1 / max (sqrt (normSq p)) (1 / 10 ^ 9)) • p) else (1 / wLen) • w
  ((unitW.2, -unitW.1), (peer.combinedRadius * invStep - wLen) • unitW)

/-- `_orca_halfplane`: each of the two takes half of the change. -/
def orcaHalfplane (ownVelocity : Point2 K) (peer : OrcaPeer K) (timeHorizon timeStep : K) :
    HalfPlane K :=
  let avoided :=
    if normSq peer.position > peer.combinedRadius * peer.combinedRadius then
      avoidApart ownVelocity peer timeHorizon
    else avoidClose ownVelocity peer timeStep
  let point := ownVelocity + (1 / 2 : K) • avoided.2
  let normal := turn avoided.1
  (normal, dot normal point)

/-! ### The linear program -/

def clipSpeed (velocity : Point2 K) (maxSpeed : K) : Point2 K :=
  let speed := sqrt (normSq velocity)
  if speed ≤ maxSpeed then velocity else (maxSpeed / speed) • velocity

/-- Cut the interval of a boundary line by the constraints before it. -/
def clipLine (tol : Tolerances K) (point direction : Point2 K) :
    List (HalfPlane K) → K → K → Option (K × K)
  | [], lower, upper => some (lower, upper)
  | other :: preceding, lower, upper =>
    let coefficient := dot other.1 direction
    let required := other.2 - dot other.1 point
    if |coefficient| ≤ tol.coefficient then
      if required > tol.required then none else clipLine tol point direction preceding lower upper
    else
      let limit := required / coefficient
      let lower := if coefficient > 0 then max lower limit else lower
      let upper := if coefficient > 0 then upper else min upper limit
      if lower > upper + tol.interval then none
      else clipLine tol point direction preceding lower upper

/-- The closest point on the boundary of a constraint that keeps the ones before. -/
def lineCandidate (tol : Tolerances K) (preferred : Point2 K) (constraint : HalfPlane K)
    (preceding : List (HalfPlane K)) (maxSpeed : K) : Option (Point2 K) :=
  let point := constraint.2 • constraint.1
  let radiusSq := maxSpeed * maxSpeed - normSq point
  if radiusSq < -tol.radiusSq then none
  else
    let extent := sqrt (max 0 radiusSq)
    let direction := turn constraint.1
    (clipLine tol point direction preceding (-extent) extent).map fun interval =>
      let target := dot direction (preferred - point)
      point + min interval.2 (max interval.1 target) • direction

/-- The largest violation, zero if there are no constraints. -/
def maxViolation (constraints : List (HalfPlane K)) (velocity : Point2 K) : K :=
  (constraints.map fun c => max 0 (c.2 - dot c.1 velocity)).foldl max 0

/-- The loop of `_linear_program`, from the constraints that are already solved. -/
def solveFrom (tol : Tolerances K) (preferred : Point2 K) (maxSpeed : K)
    (constraints preceding : List (HalfPlane K)) (result : Point2 K) :
    List (HalfPlane K) → OrcaSolution K
  | [] =>
    { velocity := result
      feasible := true
      activeConstraints := constraints.countP fun c => |dot c.1 result - c.2| ≤ tol.active
      maxViolation := maxViolation constraints result }
  | constraint :: rest =>
    if dot constraint.1 result ≥ constraint.2 - tol.satisfied then
      solveFrom tol preferred maxSpeed constraints (preceding ++ [constraint]) result rest
    else
      match lineCandidate tol preferred constraint preceding maxSpeed with
      | none =>
        { velocity := result
          feasible := false
          activeConstraints := preceding.length
          maxViolation := maxViolation constraints result }
      | some candidate =>
        solveFrom tol preferred maxSpeed constraints (preceding ++ [constraint]) candidate rest

/-- `_linear_program`. -/
def linearProgram (tol : Tolerances K) (preferred : Point2 K) (constraints : List (HalfPlane K))
    (maxSpeed : K) : OrcaSolution K :=
  solveFrom tol preferred maxSpeed constraints [] (clipSpeed preferred maxSpeed) constraints

def orcaSolution (preferredVelocity ownVelocity : Point2 K) (peers : List (OrcaPeer K))
    (timeHorizon timeStep maxSpeed : K) : OrcaSolution K :=
  linearProgram {} preferredVelocity
    (peers.map fun peer => orcaHalfplane ownVelocity peer timeHorizon timeStep) maxSpeed

def orcaVelocity (preferredVelocity ownVelocity : Point2 K) (peers : List (OrcaPeer K))
    (timeHorizon timeStep maxSpeed : K) : Point2 K :=
  (orcaSolution preferredVelocity ownVelocity peers timeHorizon timeStep maxSpeed).velocity

end Mission10.Flight
