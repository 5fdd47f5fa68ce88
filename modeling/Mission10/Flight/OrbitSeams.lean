import Mission10.Flight.PhasedOrbits
import Mission10.Library.BoundedRate

/-!
# The curves of the choreography and their seams

For a valid configuration every curve returns a point, and each of its coordinates
is a function of bounded rate of the time since the curve began. The insertion
ends where the orbit starts, the peel-off starts at the phase it is given, and the
way home starts at the center.
-/
namespace Mission10.Flight

open Engine (MathOps)
open Engine.MathOps BoundedRate

theorem clip_eq_lo {x lo hi : ℝ} (hbounds : lo ≤ hi) (h : x ≤ lo) : clip x lo hi = lo := by
  rw [clip, max_eq_right h, min_eq_left hbounds]

theorem clip_eq_hi {x lo hi : ℝ} (hbounds : lo ≤ hi) (h : hi ≤ x) : clip x lo hi = hi := by
  rw [clip, max_eq_left (hbounds.trans h), min_eq_right h]

@[simp] theorem smoothstep_zero : smoothstep (0 : ℝ) = 0 := by simp [smoothstep]

@[simp] theorem smoothstep_one : smoothstep (1 : ℝ) = 1 := by norm_num [smoothstep]

theorem sin_real (x : ℝ) : sin x = Real.sin x := rfl

theorem pi_real : (pi : ℝ) = Real.pi := rfl

/-- A configuration the choreography is meant for. -/
structure OrbitParams.Valid (p : OrbitParams ℝ) : Prop where
  index : p.droneIndex < p.droneCount
  phases : ∀ phases, p.phases = some phases → phases.length = p.droneCount
  modAmps : p.droneIndex < p.modAmps.length
  modPhases : p.droneIndex < p.modPhases.length
  peelOrder : isPeelOrder p.droneCount (peelSequence p.droneCount p.peelOrder)
  yawMode : ∀ name, p.yawMode ≠ .other name
  radius : 0 < p.radius
  speed : 0 < p.speedMps
  spiral : p.spiralTimeS = 0 ∨ 1 / 10 ^ 3 ≤ p.spiralTimeS
  leadIn : 0 ≤ p.peelLeadInS
  stagger : 0 ≤ p.peelStaggerS
  peelDuration : 1 / 10 ^ 6 ≤ p.peelDurationS

namespace OrbitParams

/-- The phase of the drone on the schedule. -/
def ownPhase (p : OrbitParams ℝ) : ℝ :=
  match p.phases with
  | none => p.phase0 + p.phaseStep * p.droneIndex
  | some phases => phases.getD p.droneIndex 0

def ownAmp (p : OrbitParams ℝ) : ℝ := p.modAmps.getD p.droneIndex 0

def ownModPhase (p : OrbitParams ℝ) : ℝ := p.modPhases.getD p.droneIndex 0

/-- The scheduled phase of the drone. -/
noncomputable def schedule (p : OrbitParams ℝ) (t : ℝ) : ℝ :=
  p.omega * t + p.ownPhase +
    p.ownAmp * (sin (p.omega * t + p.ownModPhase) - sin p.ownModPhase)

/-- When the drone leaves the circle. -/
noncomputable def ownPeelTime (p : OrbitParams ℝ) : ℝ :=
  p.peelTiming.peelTime p.droneIndex p.droneCount

theorem entry_ok {values : List ℝ} {index : ℕ} (h : index < values.length) :
    entry values index = .ok (values.getD index 0) := by
  simp [entry, List.getElem?_eq_getElem h, List.getD_eq_getElem?_getD]

variable {p : OrbitParams ℝ}

theorem dronePhase_ok (h : p.Valid) : p.dronePhase p.droneIndex = .ok p.ownPhase := by
  unfold dronePhase ownPhase
  cases hphases : p.phases with
  | none => rfl
  | some phases => exact entry_ok (h.phases phases hphases ▸ h.index)

theorem scheduledPhase_ok (h : p.Valid) (t : ℝ) :
    p.scheduledPhase p.droneIndex t = .ok (p.schedule t) := by
  unfold scheduledPhase
  rw [dronePhase_ok h, entry_ok h.modAmps, entry_ok h.modPhases]
  rfl

theorem scheduledRate_ok (h : p.Valid) (t : ℝ) :
    ∃ rate, p.scheduledRate p.droneIndex t = .ok rate := by
  unfold scheduledRate
  rw [entry_ok h.modAmps, entry_ok h.modPhases]
  exact ⟨_, rfl⟩

theorem omega_pos (h : p.Valid) : 0 < p.omega := div_pos h.speed h.radius

theorem revolution_pos (h : p.Valid) : 0 < p.revolution :=
  div_pos (mul_pos two_pos Real.pi_pos) (omega_pos h)

theorem turn_revolutions (h : p.Valid) (k : ℝ) :
    p.omega * (k * p.revolution) = k * (2 * Real.pi) := by
  have hne := (omega_pos h).ne'
  unfold revolution
  rw [pi_real]
  field_simp

/-- On a whole revolution the modulation vanishes. -/
theorem schedule_revolution (h : p.Valid) (k : ℤ) :
    p.schedule (k * p.revolution) = p.ownPhase + k * (2 * Real.pi) := by
  unfold schedule
  rw [turn_revolutions h, add_comm ((k : ℝ) * (2 * Real.pi)) p.ownModPhase, sin_real,
    Real.sin_add_int_mul_two_pi, sin_real, sub_self, mul_zero, add_zero, add_comm]

theorem schedule_zero (p : OrbitParams ℝ) : p.schedule 0 = p.ownPhase := by
  simp [schedule]

/-- The rank of a drone in the order is below their count. -/
theorem rank_lt (h : p.Valid) :
    (peelSequence p.droneCount p.peelOrder).idxOf (p.droneIndex : ℤ) < p.droneCount := by
  have hperm := List.mergeSort_perm (peelSequence p.droneCount p.peelOrder)
    fun a b => decide (a ≤ b)
  rw [h.peelOrder] at hperm
  have hmem : (p.droneIndex : ℤ) ∈ peelSequence p.droneCount p.peelOrder := by
    rw [← hperm.mem_iff]
    exact List.mem_map.mpr ⟨p.droneIndex, List.mem_range.mpr h.index, rfl⟩
  have hlen := hperm.length_eq
  rw [List.length_map, List.length_range] at hlen
  have hlt := List.idxOf_lt_length_iff.mpr hmem
  omega

theorem ownPeelTime_nonneg (h : p.Valid) : 0 ≤ p.ownPeelTime :=
  add_nonneg h.leadIn (mul_nonneg (Nat.cast_nonneg _) h.stagger)

/-- The drone is at the center when the return ends. -/
theorem ownPeelTime_le (h : p.Valid) : p.ownPeelTime + p.peelDurationS ≤ p.returnDuration := by
  have hrank : (((peelSequence p.droneCount p.peelOrder).idxOf (p.droneIndex : ℤ) : ℕ) : ℝ) ≤
      p.droneCount - 1 := by
    have hlt : (peelSequence p.droneCount p.peelOrder).idxOf (p.droneIndex : ℤ) + 1 ≤
        p.droneCount := rank_lt h
    have hcast : (((peelSequence p.droneCount p.peelOrder).idxOf (p.droneIndex : ℤ) : ℕ) : ℝ) + 1 ≤
        p.droneCount := by exact_mod_cast hlt
    linarith
  have hwait := mul_le_mul_of_nonneg_right hrank h.stagger
  unfold ownPeelTime PeelTiming.peelTime returnDuration peeloffDuration
  dsimp only [peelTiming]
  linarith

theorem peelDuration_pos (h : p.Valid) : 0 < p.peelDurationS := by
  have hguard : (0 : ℝ) < 1 / 10 ^ 6 := by positivity
  exact hguard.trans_le h.peelDuration

theorem returnDuration_pos (h : p.Valid) : 0 < p.returnDuration := by
  have hstart := ownPeelTime_nonneg h
  have hend := ownPeelTime_le h
  have hpos := peelDuration_pos h
  linarith

end OrbitParams

/-! ### The coordinates of the curves -/

/-- A horizontal coordinate. -/
inductive Axis
  | east
  | north

namespace Axis

/-- The coordinate of a point on the unit circle. -/
noncomputable def turn : Axis → ℝ → ℝ
  | east => Real.cos
  | north => Real.sin

def pick : Axis → ℝ × ℝ → ℝ
  | east, point => point.1
  | north, point => point.2

def coord : Axis → EnuSetpoint ℝ → ℝ
  | east, setpoint => setpoint.east
  | north, setpoint => setpoint.north

theorem turn_add_revolutions (a : Axis) (x : ℝ) (k : ℤ) :
    a.turn (x + k * (2 * Real.pi)) = a.turn x := by
  cases a with
  | east => exact Real.cos_add_int_mul_two_pi x k
  | north => exact Real.sin_add_int_mul_two_pi x k

theorem tame_turn (a : Axis) {c : ℝ} {f : ℝ → ℝ} (hf : Steady c f) :
    Tame 1 c fun x => a.turn (f x) := by
  cases a with
  | east => exact hf.cos
  | north => exact hf.sin

end Axis

namespace OrbitParams
variable (p : OrbitParams ℝ)

/-- The point at an angle and a distance from the center. -/
noncomputable def polarPoint (a : Axis) (theta r : ℝ) : ℝ := a.pick p.center + r * a.turn theta

/-- How much of the spiral is flown. -/
noncomputable def spiralRamp (tau : ℝ) : ℝ := clip (tau / max (1 / 10 ^ 3) p.spiralTimeS) 0 1

noncomputable def spiralPoint (a : Axis) (tau : ℝ) : ℝ :=
  p.polarPoint a (p.ownPhase - p.insertionSpin * (1 - p.spiralRamp tau))
    (p.radius * p.spiralRamp tau)

noncomputable def orbitPoint (a : Axis) (t : ℝ) : ℝ := p.polarPoint a (p.schedule t) p.radius

/-- How much of the drone's own peel-off is flown. -/
noncomputable def peelRamp (x : ℝ) : ℝ :=
  smoothstep (clip ((x - p.ownPeelTime) / max (1 / 10 ^ 6) p.peelDurationS) 0 1)

noncomputable def peelPoint (a : Axis) (phase x : ℝ) : ℝ :=
  p.polarPoint a (phase + p.omega * min x p.ownPeelTime + p.peelSpin * p.peelRamp x)
    (p.radius * (1 - p.peelRamp x))

/-- How much of the way home is flown. -/
noncomputable def homeRamp (homeT : ℝ) : ℝ :=
  smoothstep (min 1 (max 0 homeT / max (1 / 10 ^ 3) p.toCenterTimeS))

/-- The peel-off and the way home as one curve. -/
noncomputable def returnPoint (home : ℝ × ℝ) (a : Axis) (phase x : ℝ) : ℝ :=
  p.peelPoint a phase x * (1 - p.homeRamp (x - p.returnDuration)) +
    a.pick home * p.homeRamp (x - p.returnDuration)

/-- The coordinates of a commanded position. -/
structure Commands (setpoint : EnuSetpoint ℝ) (point : Axis → ℝ) : Prop where
  coord : ∀ a : Axis, a.coord setpoint = point a
  up : setpoint.up = p.altitude

/-- A layout around the center of the drone with its phase at the given one. -/
structure Centered (layout : OrbitLayout ℝ) (phase : ℝ) : Prop where
  spacing : layout.spacing = 0
  base : layout.base = (p.center.1, 0)
  downrange : layout.downrange = p.center.2
  altitude : layout.altitude = p.altitude
  phaseAt : phaseAt p.droneIndex p.droneCount layout = .ok phase
  yawMode : ∀ theta, ∃ yaw, yawFor theta layout.yawMode layout.fixedYaw = .ok yaw

variable {p}

theorem guarded_pos (x : ℝ) (n : ℕ) : 0 < max (1 / 10 ^ n) x :=
  lt_max_of_lt_left (by positivity)

theorem peelRamp_before {x : ℝ} (h : x ≤ p.ownPeelTime) : p.peelRamp x = 0 := by
  have hneg : (x - p.ownPeelTime) / max (1 / 10 ^ 6) p.peelDurationS ≤ 0 :=
    div_nonpos_of_nonpos_of_nonneg (by linarith) (guarded_pos _ _).le
  rw [peelRamp, clip_eq_lo zero_le_one hneg, smoothstep_zero]

theorem peelRamp_after (hp : p.Valid) {x : ℝ} (h : p.returnDuration ≤ x) : p.peelRamp x = 1 := by
  have hfull : 1 ≤ (x - p.ownPeelTime) / max (1 / 10 ^ 6) p.peelDurationS := by
    have hend := ownPeelTime_le hp
    rw [one_le_div (guarded_pos _ _), max_eq_right hp.peelDuration]
    linarith
  rw [peelRamp, clip_eq_hi zero_le_one hfull, smoothstep_one]

theorem homeRamp_before {homeT : ℝ} (h : homeT ≤ 0) : p.homeRamp homeT = 0 := by
  rw [homeRamp, max_eq_left h, zero_div, min_eq_right zero_le_one, smoothstep_zero]

theorem homeRamp_after {homeT : ℝ} (h : max (1 / 10 ^ 3) p.toCenterTimeS ≤ homeT) :
    p.homeRamp homeT = 1 := by
  have hpos := guarded_pos p.toCenterTimeS 3
  have hfull : 1 ≤ max 0 homeT / max (1 / 10 ^ 3) p.toCenterTimeS := by
    rw [one_le_div hpos]
    exact h.trans (le_max_right _ _)
  rw [homeRamp, min_eq_left hfull, smoothstep_one]

theorem Centered.polar {layout : OrbitLayout ℝ} {phase : ℝ} (h : p.Centered layout phase)
    (theta r : ℝ) :
    ∃ setpoint, polarSetpoint p.droneIndex layout theta r = .ok setpoint ∧
      p.Commands setpoint fun a => p.polarPoint a theta r := by
  obtain ⟨yaw, hyaw⟩ := h.yawMode theta
  refine ⟨_, by unfold polarSetpoint; rw [hyaw]; rfl, fun a => ?_, h.altitude⟩
  cases a with
  | east =>
    show layout.base.1 + layout.spacing * p.droneIndex + r * Real.cos theta = _
    rw [h.base, h.spacing, zero_mul, add_zero]
    rfl
  | north =>
    show layout.base.2 + layout.downrange + r * Real.sin theta = _
    rw [h.base, h.downrange, zero_add]
    rfl

theorem Centered.insertion (hp : p.Valid) {layout : OrbitLayout ℝ}
    (h : p.Centered layout p.ownPhase) (tau : ℝ) :
    ∃ setpoint, phasedOrbitInsertion (tau / max (1 / 10 ^ 3) p.spiralTimeS) p.droneIndex
        p.droneCount p.radius p.insertionSpin layout = .ok setpoint ∧
      p.Commands setpoint fun a => p.spiralPoint a tau := by
  obtain ⟨setpoint, hset, hcommands⟩ := h.polar
    (p.ownPhase - p.insertionSpin * (1 - p.spiralRamp tau)) (p.radius * p.spiralRamp tau)
  refine ⟨setpoint, ?_, hcommands⟩
  unfold phasedOrbitInsertion
  rw [if_neg (not_not.mpr hp.index), h.phaseAt]
  exact hset

theorem Centered.peeloff (hp : p.Valid) {layout : OrbitLayout ℝ} {phase : ℝ}
    (h : p.Centered layout phase) (x : ℝ) :
    ∃ setpoint, phasedOrbitPeeloff x p.droneIndex p.droneCount p.radius p.omega p.peelTiming
        layout = .ok setpoint ∧
      p.Commands setpoint fun a => p.peelPoint a phase x := by
  have horder : isPeelOrder p.droneCount (peelSequence p.droneCount p.peelTiming.peelOrder) :=
    hp.peelOrder
  have heq : phasedOrbitPeeloff x p.droneIndex p.droneCount p.radius p.omega p.peelTiming
      layout = if x < p.ownPeelTime then
        polarSetpoint p.droneIndex layout (phase + p.omega * x) p.radius
      else polarSetpoint p.droneIndex layout
        (phase + p.omega * p.ownPeelTime + p.peelSpin * p.peelRamp x)
        (p.radius * (1 - p.peelRamp x)) := by
    unfold phasedOrbitPeeloff
    rw [h.phaseAt]
    simp only [hp.index, horder, not_true_eq_false, if_false]
    rfl
  rw [heq]
  by_cases hturn : x < p.ownPeelTime
  · rw [if_pos hturn]
    obtain ⟨setpoint, hset, hcommands⟩ := h.polar (phase + p.omega * x) p.radius
    refine ⟨setpoint, hset, fun a => ?_, hcommands.up⟩
    rw [hcommands.coord a]
    unfold peelPoint
    rw [peelRamp_before hturn.le, min_eq_left hturn.le, mul_zero, add_zero, sub_zero, mul_one]
  · rw [if_neg hturn]
    obtain ⟨setpoint, hset, hcommands⟩ := h.polar
      (phase + p.omega * p.ownPeelTime + p.peelSpin * p.peelRamp x)
      (p.radius * (1 - p.peelRamp x))
    refine ⟨setpoint, hset, fun a => ?_, hcommands.up⟩
    rw [hcommands.coord a]
    unfold peelPoint
    rw [min_eq_right (not_lt.mp hturn)]

/-! ### The rates of the curves -/

variable (p) in
theorem polar_tame (a : Axis) {b c c' : ℝ} {r theta : ℝ → ℝ} (hr : Tame b c r)
    (htheta : Steady c' theta) :
    Tame (|a.pick p.center| + b) (b * c' + c) fun x => p.polarPoint a (theta x) (r x) := by
  have htame := (tame_const (a.pick p.center)).add (hr.mul (a.tame_turn htheta))
  rwa [mul_one, mul_one, zero_add] at htame

theorem const_mul_tame {k b c : ℝ} (hk : 0 ≤ k) {f : ℝ → ℝ} (hf : Tame b c f) :
    Tame (k * b) (k * c) fun x => k * f x := by
  have htame := (tame_const k).mul hf
  rwa [zero_mul, add_zero, abs_of_nonneg hk] at htame

variable (p) in
/-- How fast a coordinate changes on the spiral. -/
noncomputable def insertionRate : ℝ :=
  p.radius * (1 + |p.insertionSpin|) / max (1 / 10 ^ 3) p.spiralTimeS

variable (p) in
/-- How fast a coordinate changes on the orbit. -/
noncomputable def orbitRate : ℝ := p.radius * (p.omega * (1 + |p.ownAmp|))

variable (p) in
/-- How fast a coordinate changes until the drone is at the center. -/
noncomputable def peelRate : ℝ :=
  p.radius * (p.omega + (1 + |p.peelSpin|) * (3 / 2 / max (1 / 10 ^ 6) p.peelDurationS))

variable (p) in
/-- How much faster the way home makes a coordinate change. -/
noncomputable def homeRate (home : ℝ × ℝ) (a : Axis) : ℝ :=
  (|a.pick p.center| + p.radius + |a.pick home|) * (3 / 2 / max (1 / 10 ^ 3) p.toCenterTimeS)

theorem spiral_steady (hp : p.Valid) (a : Axis) : Steady p.insertionRate (p.spiralPoint a) := by
  have hramp : Ramp (1 / max (1 / 10 ^ 3) p.spiralTimeS) p.spiralRamp :=
    (steady_id.div_const (guarded_pos _ _)).ramp
  have htheta := (steady_const p.ownPhase).sub (hramp.fall.steady.const_mul p.insertionSpin)
  have hpoint := polar_tame p a (const_mul_tame hp.radius.le hramp.tame) htheta
  refine hpoint.steady.mono (le_of_eq ?_)
  unfold insertionRate
  ring

theorem orbit_steady (hp : p.Valid) (a : Axis) : Steady p.orbitRate (p.orbitPoint a) := by
  have homega := (omega_pos hp).le
  have hturn := steady_id.const_mul p.omega
  have hsin := ((hturn.add (steady_const p.ownModPhase)).sin.steady.sub
    (steady_const (Real.sin p.ownModPhase))).const_mul p.ownAmp
  have htheta := (hturn.add (steady_const p.ownPhase)).add hsin
  have hpoint := polar_tame p a (tame_const p.radius) htheta
  refine hpoint.steady.mono (le_of_eq ?_)
  rw [abs_of_pos hp.radius, abs_of_nonneg homega]
  unfold orbitRate
  ring

variable (p) in
theorem peelRamp_ramp : Ramp (3 / 2 / max (1 / 10 ^ 6) p.peelDurationS) p.peelRamp := by
  have hramp := ((steady_id.sub (steady_const p.ownPeelTime)).div_const
    (guarded_pos p.peelDurationS 6)).ramp.smooth
  rwa [add_zero, mul_one_div] at hramp

theorem peel_tame (hp : p.Valid) (a : Axis) (phase : ℝ) :
    Tame (|a.pick p.center| + p.radius) p.peelRate (p.peelPoint a phase) := by
  have homega := (omega_pos hp).le
  have htheta := ((steady_const phase).add
    ((steady_id.min_const p.ownPeelTime).const_mul p.omega)).add
      ((peelRamp_ramp p).steady.const_mul p.peelSpin)
  have hpoint := polar_tame p a (const_mul_tame hp.radius.le (peelRamp_ramp p).fall.tame) htheta
  rw [mul_one, abs_of_nonneg homega] at hpoint
  refine ⟨hpoint.steady.mono (le_of_eq ?_), hpoint.bounded⟩
  unfold peelRate
  ring

variable (p) in
theorem homeRamp_ramp :
    Ramp (3 / 2 / max (1 / 10 ^ 3) p.toCenterTimeS)
      fun x => p.homeRamp (x - p.returnDuration) := by
  have hpos := guarded_pos p.toCenterTimeS 3
  have hstart := steady_id.sub (steady_const p.returnDuration)
  have hramp := ((hstart.max_const 0).div_const hpos).ramp.smooth
  rw [add_zero, mul_one_div] at hramp
  have hclip : ∀ x, min (max (max (x - p.returnDuration) 0 / max (1 / 10 ^ 3) p.toCenterTimeS) 0) 1
      = min 1 (max 0 (x - p.returnDuration) / max (1 / 10 ^ 3) p.toCenterTimeS) := by
    intro x
    rw [max_comm (x - p.returnDuration) 0, min_comm,
      max_eq_left (div_nonneg (le_max_left _ _) hpos.le)]
  simp only [hclip] at hramp
  exact hramp

theorem return_steady (hp : p.Valid) (home : ℝ × ℝ) (a : Axis) (phase : ℝ) :
    Steady (p.peelRate + p.homeRate home a) (p.returnPoint home a phase) := by
  have hleave := (peel_tame hp a phase).mul (homeRamp_ramp p).fall.tame
  have hreach := (homeRamp_ramp p).steady.const_mul (a.pick home)
  refine (hleave.steady.add hreach).mono (le_of_eq ?_)
  unfold homeRate
  ring

/-! ### The joints -/

theorem polarPoint_revolutions (a : Axis) (theta r : ℝ) (k : ℤ) :
    p.polarPoint a (theta + k * (2 * Real.pi)) r = p.polarPoint a theta r := by
  rw [polarPoint, a.turn_add_revolutions, polarPoint]

/-- The insertion ends where the orbit starts. -/
theorem spiral_joins_orbit (hspiral : 1 / 10 ^ 3 ≤ p.spiralTimeS) (a : Axis) :
    p.spiralPoint a p.spiralTimeS = p.orbitPoint a 0 := by
  have hpos : 0 < p.spiralTimeS := lt_of_lt_of_le (by positivity) hspiral
  have hramp : p.spiralRamp p.spiralTimeS = 1 := by
    rw [spiralRamp, max_eq_right hspiral, div_self hpos.ne', clip_eq_hi zero_le_one le_rfl]
  rw [spiralPoint, orbitPoint, hramp, schedule_zero, sub_self, mul_zero, sub_zero, mul_one]

/-- The return starts on the circle, at the phase it is given. -/
theorem returnPoint_zero (hp : p.Valid) (home : ℝ × ℝ) (a : Axis) (phase : ℝ) :
    p.returnPoint home a phase 0 = p.polarPoint a phase p.radius := by
  have hstart := ownPeelTime_nonneg hp
  have hhome : p.homeRamp (0 - p.returnDuration) = 0 :=
    homeRamp_before (by linarith [returnDuration_pos hp])
  rw [returnPoint, hhome, peelPoint, peelRamp_before hstart, min_eq_left hstart]
  simp

/-- The peel-off ends at the center. -/
theorem peelPoint_after (hp : p.Valid) (a : Axis) (phase : ℝ) {x : ℝ}
    (h : p.returnDuration ≤ x) : p.peelPoint a phase x = a.pick p.center := by
  rw [peelPoint, peelRamp_after hp h, polarPoint]
  simp

/-- The way home leads from the center to the launch anchor. -/
theorem returnPoint_home (hp : p.Valid) (home : ℝ × ℝ) (a : Axis) (phase : ℝ) {x : ℝ}
    (h : p.returnDuration ≤ x) :
    p.returnPoint home a phase x =
      a.pick p.center * (1 - p.homeRamp (x - p.returnDuration)) +
        a.pick home * p.homeRamp (x - p.returnDuration) := by
  rw [returnPoint, peelPoint_after hp a phase h]

theorem orbit_joins_return (hp : p.Valid) (home : ℝ × ℝ) (a : Axis) (t : ℝ) :
    p.orbitPoint a t = p.returnPoint home a (p.schedule t) 0 := by
  rw [returnPoint_zero hp, orbitPoint]

/-- After whole revolutions the drone is where the orbit starts. -/
theorem orbit_revolutions (hp : p.Valid) (a : Axis) (k : ℤ) :
    p.orbitPoint a (k * p.revolution) = p.orbitPoint a 0 := by
  rw [orbitPoint, orbitPoint, schedule_revolution hp, schedule_zero, polarPoint_revolutions]

end OrbitParams

/-! ### The setpoints of the node -/

namespace Choreography

open OrbitParams

variable {p : OrbitParams ℝ} {m : Choreography ℝ}

theorem layout_centered (hp : p.Valid) (hm : m.params = p) :
    p.Centered m.orbitLayout p.ownPhase where
  spacing := rfl
  base := by rw [← hm]; rfl
  downrange := by rw [← hm]; rfl
  altitude := by rw [← hm]; rfl
  phaseAt := by
    subst hm
    unfold Flight.phaseAt phasedOrbitPhases ownPhase
    dsimp only [orbitLayout]
    cases hphases : m.params.phases with
    | none => simp [hp.index]
    | some phases =>
      simp only [hp.phases phases hphases, if_true]
      rfl
  yawMode := by
    intro theta
    subst hm
    have hother := hp.yawMode
    dsimp only [orbitLayout]
    cases hmode : m.params.yawMode with
    | other name => exact absurd hmode (hother name)
    | hold => exact ⟨_, rfl⟩
    | inward => exact ⟨_, rfl⟩
    | tangent => exact ⟨_, rfl⟩
    | outward => exact ⟨_, rfl⟩
    | fixed => exact ⟨_, rfl⟩

/-- The layout of the peel-off puts the drone at the given phase. -/
theorem peelLayout_centered (hp : p.Valid) (hm : m.params = p) (phase : ℝ) :
    ∃ layout, m.peelLayout phase = .ok layout ∧ p.Centered layout phase := by
  have hcentered := layout_centered hp hm
  subst hm
  unfold peelLayout
  cases hphases : m.params.phases with
  | none =>
    refine ⟨_, rfl, hcentered.spacing, hcentered.base, hcentered.downrange,
      hcentered.altitude, ?_, hcentered.yawMode⟩
    unfold Flight.phaseAt phasedOrbitPhases
    dsimp only [orbitLayout]
    rw [hphases]
    simp [hp.index, bind, Except.bind, pure, Except.pure]
  | some phases =>
    have hlen := hp.phases phases hphases
    have hindex : m.params.droneIndex < phases.length := hlen ▸ hp.index
    dsimp only
    rw [entry_ok hindex]
    refine ⟨_, rfl, hcentered.spacing, hcentered.base, hcentered.downrange,
      hcentered.altitude, ?_, hcentered.yawMode⟩
    unfold Flight.phaseAt phasedOrbitPhases
    simp [hlen, hp.index, bind, Except.bind, pure, Except.pure]

/-- A tick on the orbit follows the schedule when nothing is to be guarded against. -/
theorem phaseGuard_commands (hp : p.Valid) (hm : m.params = p) (hoffset : m.phaseOffset = 0)
    (nowUs : ℤ) (t : ℝ) :
    ∃ setpoint, m.phaseGuardSetpoint nowUs t none =
        .ok ({ m with
          phaseCmd := some (p.schedule t), phaseCmdUs := nowUs, phaseOffset := 0 }, setpoint) ∧
      p.Commands setpoint fun a => p.orbitPoint a t := by
  subst hm
  obtain ⟨rate, hrate⟩ := scheduledRate_ok hp t
  have hnext : ∀ dt : ℝ, m.nextOffset 0 rate rate dt none = 0 := by
    intro dt
    simp [nextOffset]
  unfold phaseGuardSetpoint
  rw [scheduledPhase_ok hp, hrate]
  cases hcmd : m.phaseCmd with
  | none =>
    simp only [bind, Except.bind, pure, Except.pure, Option.map_none, Option.getD_none, hnext,
      add_zero]
    refine ⟨_, rfl, fun a => ?_, rfl⟩
    cases a with
    | east => rfl
    | north => rfl
  | some phase =>
    simp only [bind, Except.bind, pure, Except.pure, Option.map_none, Option.getD_none, hoffset,
      hnext, add_zero]
    refine ⟨_, rfl, fun a => ?_, rfl⟩
    cases a with
    | east => rfl
    | north => rfl

/-- The phase the peel-off starts from. -/
noncomputable def startPhase (m : Choreography ℝ) (duration : ℝ) : ℝ :=
  m.peelPhase.getD (m.phaseCmd.getD (m.params.schedule duration))

theorem peelPhaseAt_ok (hp : p.Valid) (hm : m.params = p) (duration : ℝ) :
    m.peelPhaseAt duration = .ok (m.startPhase duration) := by
  subst hm
  unfold peelPhaseAt startPhase
  cases m.peelPhase with
  | some phase => rfl
  | none =>
    cases m.phaseCmd with
    | some phase => rfl
    | none => exact scheduledPhase_ok hp duration

/-- A tick after the orbit is on the return from the latched phase. -/
theorem return_commands (hp : p.Valid) (hm : m.params = p) (duration : ℝ) (rt : ℝ) :
    ∃ setpoint, m.returnSetpoint duration rt =
        .ok ({ m with peelPhase := some (m.startPhase duration) }, setpoint) ∧
      p.Commands setpoint fun a =>
        p.returnPoint m.homeOffset a (m.startPhase duration) rt := by
  subst hm
  obtain ⟨layout, hlayout, hcentered⟩ := peelLayout_centered
    (m := { m with peelPhase := some (m.startPhase duration) }) hp rfl (m.startPhase duration)
  unfold returnSetpoint
  rw [peelPhaseAt_ok hp rfl]
  simp only [bind, Except.bind, pure, Except.pure, hlayout]
  by_cases hpeel : rt < m.params.returnDuration
  · obtain ⟨setpoint, hset, hcommands⟩ := hcentered.peeloff hp rt
    rw [if_pos hpeel, peelSetpoint, hset]
    refine ⟨setpoint, rfl, fun a => ?_, hcommands.up⟩
    rw [hcommands.coord a, returnPoint, homeRamp_before (by linarith)]
    ring
  · obtain ⟨final, hset, hcommands⟩ := hcentered.peeloff hp m.params.returnDuration
    rw [if_neg hpeel, peelSetpoint, hset]
    refine ⟨_, rfl, fun a => ?_, ?_⟩
    · rw [returnPoint_home hp _ _ _ (not_lt.mp hpeel)]
      cases a with
      | east => rfl
      | north => rfl
    · show m.params.altitude + (m.params.altitude - m.params.altitude) * _ = _
      ring

end Choreography

end Mission10.Flight
