import Mathlib
import Mission10.Library.Numerals
import Mission10.Library.Plane

/-!
# Rotations about a fixed axis

A vector that is turned about a unit axis moves at right angles to itself and to the
axis. No other motion does so from the same start, because the difference of two such
motions keeps its length. A fixed point, seen from a body that turns at a fixed rate,
is therefore turned the other way.
-/
namespace AxisRotation

open Matrix Real

/-- A vector turned by an angle about a unit axis. -/
noncomputable def turn (axis : Fin 3 → ℝ) (angle : ℝ) (v : Fin 3 → ℝ) : Fin 3 → ℝ :=
  cos angle • v + sin angle • (axis ⨯₃ v) + ((1 - cos angle) * (axis ⬝ᵥ v)) • axis

variable {axis v : Fin 3 → ℝ} {angle rate : ℝ}

@[simp] theorem turn_zero : turn axis 0 v = v := by simp [turn]

theorem turn_smul (c : ℝ) : turn axis angle (c • v) = c • turn axis angle v := by
  simp only [turn, map_smul, dotProduct_smul, smul_add, smul_smul, smul_eq_mul]
  congr 1
  · rw [mul_comm, mul_comm (sin angle)]
  · rw [mul_left_comm]

/-- The axis stays where it is, and the part across it is turned further. -/
theorem cross_turn (hunit : axis ⬝ᵥ axis = 1) :
    axis ⨯₃ turn axis angle v =
      cos angle • (axis ⨯₃ v) + sin angle • ((axis ⬝ᵥ v) • axis - v) := by
  have htwice : axis ⨯₃ (axis ⨯₃ v) = (axis ⬝ᵥ v) • axis - v := by
    rw [cross_cross_eq_smul_sub_smul', hunit, one_smul]
  simp only [turn, map_add, map_smul, cross_self, htwice, smul_zero, add_zero]

theorem hasDerivAt_turn (hunit : axis ⬝ᵥ axis = 1) (s : ℝ) :
    HasDerivAt (fun s => turn axis (s * rate) v) (rate • (axis ⨯₃ turn axis (s * rate) v)) s := by
  have hangle : HasDerivAt (fun s : ℝ => s * rate) rate s := by
    simpa using (hasDerivAt_id s).mul_const rate
  have hcos := hangle.cos
  have hsin := hangle.sin
  have hsum := ((hcos.smul_const v).add (hsin.smul_const (axis ⨯₃ v))).add
    ((((hasDerivAt_const s (1 : ℝ)).sub hcos).mul_const (axis ⬝ᵥ v)).smul_const axis)
  refine hsum.congr_deriv ?_
  rw [cross_turn hunit]
  module

/-- A motion across an axis at a rate is the turn about it. -/
theorem eq_turn (hunit : axis ⬝ᵥ axis = 1) {x : ℝ → Fin 3 → ℝ}
    (hx : ∀ s ∈ Set.Icc (0 : ℝ) 1, HasDerivAt x (rate • (axis ⨯₃ x s)) s) :
    x 1 = turn axis rate (x 0) := by
  -- the square of the distance to the turn has no derivative
  let gap : ℝ → Fin 3 → ℝ := fun s => x s - turn axis (s * rate) (x 0)
  have hgap : ∀ s ∈ Set.Icc (0 : ℝ) 1, HasDerivAt gap (rate • (axis ⨯₃ gap s)) s := by
    intro s hs
    refine ((hx s hs).sub (hasDerivAt_turn hunit s)).congr_deriv ?_
    rw [← smul_sub, ← map_sub]
  have hsq : ∀ s ∈ Set.Icc (0 : ℝ) 1, HasDerivAt (fun s => gap s ⬝ᵥ gap s) 0 s := by
    intro s hs
    have hparts := hasDerivAt_pi.mp (hgap s hs)
    have hsum := HasDerivAt.fun_sum fun i (_ : i ∈ Finset.univ) => (hparts i).mul (hparts i)
    refine hsum.congr_deriv ?_
    have hzero : gap s ⬝ᵥ (rate • (axis ⨯₃ gap s)) = 0 := by
      rw [dotProduct_smul, dot_cross_self, smul_zero]
    rw [Finset.sum_add_distrib]
    have hcomm : ∑ i, (rate • (axis ⨯₃ gap s)) i * gap s i =
        ∑ i, gap s i * (rate • (axis ⨯₃ gap s)) i :=
      Finset.sum_congr rfl fun i _ => mul_comm _ _
    rw [hcomm]
    exact (congrArg₂ (· + ·) hzero hzero).trans (add_zero 0)
  have hconst := constant_of_has_deriv_right_zero
    (fun s hs => (hsq s hs).continuousAt.continuousWithinAt)
    (fun s hs => (hsq s (Set.Ico_subset_Icc_self hs)).hasDerivWithinAt)
    1 (Set.right_mem_Icc.mpr zero_le_one)
  have hstart : gap 0 = 0 := by simp [gap]
  rw [hstart, dotProduct_zero, dotProduct_self_eq_zero] at hconst
  have hend := sub_eq_zero.mp hconst
  rwa [one_mul] at hend

/-! ### Turning bodies -/

/-- The matrix of a cross product. -/
def crossMatrix (v : Fin 3 → ℝ) : Matrix (Fin 3) (Fin 3) ℝ :=
  !![0, -v 2, v 1; v 2, 0, -v 0; -v 1, v 0, 0]

/-- The attitudes of a body, which take its axes to fixed ones, while it turns by a vector
about one axis, given in its own axes. -/
structure Turns (delta : Fin 3 → ℝ) (attitude : ℝ → Matrix (Fin 3) (Fin 3) ℝ) : Prop where
  start : attitude 0 ∈ Matrix.specialOrthogonalGroup (Fin 3) ℝ
  kinematics : ∀ s ∈ Set.Icc (0 : ℝ) 1, ∀ i j,
    HasDerivAt (fun s => attitude s i j) ((attitude s * crossMatrix delta) i j) s

/-- A fixed point in the axes of a body. -/
def bodyPoint (attitude : Matrix (Fin 3) (Fin 3) ℝ) (point : Fin 3 → ℝ) : Fin 3 → ℝ :=
  attitudeᵀ *ᵥ point

theorem hasDerivAt_bodyPoint {delta : Fin 3 → ℝ} {attitude : ℝ → Matrix (Fin 3) (Fin 3) ℝ}
    (h : Turns delta attitude) (point : Fin 3 → ℝ) {s : ℝ} (hs : s ∈ Set.Icc (0 : ℝ) 1) :
    HasDerivAt (fun s => bodyPoint (attitude s) point)
      (-delta ⨯₃ bodyPoint (attitude s) point) s := by
  rw [hasDerivAt_pi]
  intro i
  have hsum := HasDerivAt.fun_sum fun j (_ : j ∈ Finset.univ) =>
    (h.kinematics s hs j i).mul_const (point j)
  refine hsum.congr_deriv ?_
  simp only [bodyPoint, crossMatrix, mul_apply, cross_apply, mulVec, dotProduct,
    Fin.sum_univ_three, transpose_apply]
  fin_cases i <;> simp <;> ring

/-- Seen from a body that turns, a fixed point is turned the other way. -/
theorem bodyPoint_turn {delta : Fin 3 → ℝ} {attitude : ℝ → Matrix (Fin 3) (Fin 3) ℝ}
    (h : Turns delta attitude) (hdelta : 0 < √(delta ⬝ᵥ delta)) (point : Fin 3 → ℝ) :
    bodyPoint (attitude 1) point =
      turn ((√(delta ⬝ᵥ delta))⁻¹ • -delta) (√(delta ⬝ᵥ delta))
        (bodyPoint (attitude 0) point) := by
  have hsq : √(delta ⬝ᵥ delta) * √(delta ⬝ᵥ delta) = delta ⬝ᵥ delta :=
    mul_self_sqrt (Finset.sum_nonneg fun i _ => mul_self_nonneg (delta i))
  refine eq_turn (x := fun s => bodyPoint (attitude s) point) ?_ ?_
  · rw [smul_dotProduct, dotProduct_smul, neg_dotProduct_neg, smul_eq_mul, smul_eq_mul,
      ← mul_assoc, ← mul_inv, hsq]
    exact inv_mul_cancel₀ (sqrt_pos.mp hdelta).ne'
  · intro s hs
    refine (hasDerivAt_bodyPoint h point hs).congr_deriv ?_
    rw [map_smul, LinearMap.smul_apply, smul_smul, mul_inv_cancel₀ hdelta.ne', one_smul]

/-- A body that does not turn sees a fixed point where it was. -/
theorem bodyPoint_rest {attitude : ℝ → Matrix (Fin 3) (Fin 3) ℝ} (h : Turns 0 attitude)
    (point : Fin 3 → ℝ) : bodyPoint (attitude 1) point = bodyPoint (attitude 0) point := by
  have hstill := fun (s : ℝ) (hs : s ∈ Set.Icc (0 : ℝ) 1) => hasDerivAt_bodyPoint h point hs
  simp only [neg_zero, map_zero, LinearMap.zero_apply] at hstill
  exact constant_of_has_deriv_right_zero
    (fun s hs => (hstill s hs).continuousAt.continuousWithinAt)
    (fun s hs => (hstill s (Set.Ico_subset_Icc_self hs)).hasDerivWithinAt)
    1 (Set.right_mem_Icc.mpr zero_le_one)

end AxisRotation

/-!
## A fixed vector and a rotating one

The sum of a fixed vector of length `a` and of a vector that turns and has length `m`
has a length between `|a - m|` and `a + m`. In every turn both are attained, where the
two vectors are opposite and where they are parallel.
-/
namespace RotatingVector

open Plane Real

/-- Two vectors at angles `theta` and `theta'` on a circle differ by a vector across the
mean angle. -/
theorem circle_sub (radius theta theta' : ℝ) :
    (radius * cos theta - radius * cos theta', radius * sin theta - radius * sin theta') =
      (2 * radius * sin ((theta - theta') / 2)) •
        turn (cos ((theta + theta') / 2), sin ((theta + theta') / 2)) := by
  apply Prod.ext
  · simp only [turn, Prod.smul_fst, smul_eq_mul]
    rw [← mul_sub, cos_sub_cos]
    ring
  · simp only [turn, Prod.smul_snd, smul_eq_mul]
    rw [← mul_sub, sin_sub_sin]
    ring

/-- A vector of the plane has a direction. -/
theorem exists_direction (c : ℝ × ℝ) {a : ℝ} (ha : 0 ≤ a) (hc : normSq c = a ^ 2) :
    ∃ alpha, c = (a * cos alpha, a * sin alpha) := by
  refine ⟨Complex.arg ⟨c.1, c.2⟩, ?_⟩
  have hnorm : ‖(⟨c.1, c.2⟩ : ℂ)‖ = a := by
    apply (sq_eq_sq₀ (norm_nonneg _) ha).mp
    rw [← hc, ← Complex.normSq_eq_norm_sq, Complex.normSq_mk]
    rfl
  apply Prod.ext
  · have hre := Complex.norm_mul_cos_arg (⟨c.1, c.2⟩ : ℂ)
    rw [hnorm] at hre
    exact hre.symm
  · have him := Complex.norm_mul_sin_arg (⟨c.1, c.2⟩ : ℂ)
    rw [hnorm] at him
    exact him.symm

theorem normSq_add_turn (a alpha r sigma : ℝ) :
    normSq ((a * cos alpha, a * sin alpha) + r • turn (cos sigma, sin sigma)) =
      a ^ 2 + r ^ 2 + 2 * (a * r) * sin (alpha - sigma) := by
  have halpha := sin_sq_add_cos_sq alpha
  have hsigma := sin_sq_add_cos_sq sigma
  rw [sin_sub]
  simp only [normSq, dot, turn, Prod.fst_add, Prod.snd_add, Prod.smul_fst, Prod.smul_snd,
    smul_eq_mul]
  linear_combination a ^ 2 * halpha + r ^ 2 * hsigma

theorem abs_mul_sin_le {a : ℝ} (ha : 0 ≤ a) (r beta : ℝ) : |a * r * sin beta| ≤ a * |r| := by
  rw [abs_mul, abs_mul, abs_of_nonneg ha]
  exact mul_le_of_le_one_right (mul_nonneg ha (abs_nonneg r)) (abs_sin_le_one _)

section Bounds

variable {c : ℝ × ℝ} {a : ℝ} (ha : 0 ≤ a) (hc : normSq c = a ^ 2) (r sigma : ℝ)

include ha hc

theorem le_length : |(a - |r|)| ≤ √(normSq (c + r • turn (cos sigma, sin sigma))) := by
  obtain ⟨alpha, rfl⟩ := exists_direction c ha hc
  have hswing := (abs_le.mp (abs_mul_sin_le ha r (alpha - sigma))).1
  apply Real.le_sqrt_of_sq_le
  rw [normSq_add_turn, sq_abs]
  have hsquare : (a - |r|) ^ 2 = a ^ 2 + r ^ 2 - 2 * (a * |r|) := by
    rw [sub_sq, sq_abs]
    ring
  linarith

theorem length_le : √(normSq (c + r • turn (cos sigma, sin sigma))) ≤ a + |r| := by
  obtain ⟨alpha, rfl⟩ := exists_direction c ha hc
  have hswing := (abs_le.mp (abs_mul_sin_le ha r (alpha - sigma))).2
  apply Real.sqrt_le_iff.mpr
  refine ⟨add_nonneg ha (abs_nonneg r), ?_⟩
  rw [normSq_add_turn]
  have hsquare : (a + |r|) ^ 2 = a ^ 2 + r ^ 2 + 2 * (a * |r|) := by
    rw [add_sq, sq_abs]
    ring
  linarith

end Bounds

/-- The angles at which the length is the shortest and the longest one. -/
theorem exists_extremes {c : ℝ × ℝ} {a : ℝ} (ha : 0 ≤ a) (hc : normSq c = a ^ 2) (r : ℝ) :
    ∃ near far, ∀ k : ℤ,
      √(normSq (c + r • turn (cos (near + k * (2 * π)), sin (near + k * (2 * π))))) = |(a - |r|)| ∧
      √(normSq (c + r • turn (cos (far + k * (2 * π)), sin (far + k * (2 * π))))) = a + |r| := by
  obtain ⟨alpha, rfl⟩ := exists_direction c ha hc
  have hdown : ∀ k : ℤ, sin (alpha - (alpha + π / 2 + k * (2 * π))) = -1 := by
    intro k
    rw [show alpha - (alpha + π / 2 + k * (2 * π)) = -(π / 2) - k * (2 * π) by ring,
      sin_sub_int_mul_two_pi, sin_neg, sin_pi_div_two]
  have hup : ∀ k : ℤ, sin (alpha - (alpha - π / 2 + k * (2 * π))) = 1 := by
    intro k
    rw [show alpha - (alpha - π / 2 + k * (2 * π)) = π / 2 - k * (2 * π) by ring,
      sin_sub_int_mul_two_pi, sin_pi_div_two]
  have hfar : 0 ≤ a + |r| := add_nonneg ha (abs_nonneg r)
  rcases le_total 0 r with hr | hr
  · refine ⟨alpha + π / 2, alpha - π / 2, fun k => ⟨?_, ?_⟩⟩
    · rw [normSq_add_turn, hdown, abs_of_nonneg hr, ← Real.sqrt_sq_eq_abs]
      congr 1
      ring
    · rw [normSq_add_turn, hup, abs_of_nonneg hr]
      rw [abs_of_nonneg hr] at hfar
      rw [← Real.sqrt_sq hfar]
      congr 1
      ring
  · refine ⟨alpha - π / 2, alpha + π / 2, fun k => ⟨?_, ?_⟩⟩
    · rw [normSq_add_turn, hup, abs_of_nonpos hr, ← Real.sqrt_sq_eq_abs]
      congr 1
      ring
    · rw [normSq_add_turn, hdown, abs_of_nonpos hr]
      rw [abs_of_nonpos hr] at hfar
      rw [← Real.sqrt_sq hfar]
      congr 1
      ring

/-- In every turn an angle that grows at a constant rate passes a given direction. -/
theorem exists_time {omega : ℝ} (homega : omega ≠ 0) (offset target start : ℝ) :
    ∃ t, start ≤ t ∧ t < start + 2 * π / |omega| ∧
      ∃ k : ℤ, omega * t + offset = target + k * (2 * π) := by
  have hturn : 0 < 2 * π / |omega| := div_pos (by positivity) (abs_pos.mpr homega)
  obtain ⟨k, hk, -⟩ := existsUnique_add_zsmul_mem_Ico hturn ((target - offset) / omega) start
  refine ⟨(target - offset) / omega + k • (2 * π / |omega|), hk.1, hk.2, ?_⟩
  rw [zsmul_eq_mul]
  rcases lt_or_gt_of_ne homega with hneg | hpos
  · refine ⟨-k, ?_⟩
    rw [abs_of_neg hneg]
    push_cast
    field_simp
    ring
  · refine ⟨k, ?_⟩
    rw [abs_of_pos hpos]
    field_simp
    ring

end RotatingVector
