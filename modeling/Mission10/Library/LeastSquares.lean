import Mathlib.Algebra.Order.Star.Real
import Mathlib.Analysis.Matrix.PosDef
import Mathlib.LinearAlgebra.Matrix.DotProduct
import Mathlib.LinearAlgebra.Matrix.NonsingularInverse
import Mathlib.Tactic.LinearCombination
import Mission10.Library.Numerals

/-!
# Least squares and singular values

The solution of a linear system with the least misfit, and among those the shortest
one. A system that has a solution is solved by it, and a system whose coefficients
are injective has no other. The singular values of the coefficients say how far they
are from losing that: with as many of them as unknowns and none of them zero, the
coefficients are injective. In two unknowns the solution is written out.
-/
namespace LeastSquares

open Matrix

set_option linter.unusedSectionVars false

variable {K : Type*} [Field K] [LinearOrder K] [IsStrictOrderedRing K]
variable {m n k : Type*} [Fintype m] [Fintype n] [Fintype k]

/-- The squared length of what a candidate leaves over. -/
def misfit (A : Matrix m n K) (b : m → K) (x : n → K) : K :=
  (A *ᵥ x - b) ⬝ᵥ (A *ᵥ x - b)

/-- The solution of least misfit, the shortest one where there are several. -/
structure IsLeastSquares (A : Matrix m n K) (b : m → K) (x : n → K) : Prop where
  least : ∀ y, misfit A b x ≤ misfit A b y
  shortest : ∀ y, misfit A b y = misfit A b x → x ⬝ᵥ x ≤ y ⬝ᵥ y

theorem dotProduct_self_nonneg (v : m → K) : 0 ≤ v ⬝ᵥ v :=
  Finset.sum_nonneg fun _ _ => mul_self_nonneg _

theorem misfit_nonneg (A : Matrix m n K) (b : m → K) (x : n → K) : 0 ≤ misfit A b x :=
  dotProduct_self_nonneg _

theorem misfit_eq_zero_iff {A : Matrix m n K} {b : m → K} {x : n → K} :
    misfit A b x = 0 ↔ A *ᵥ x = b := by
  rw [misfit, dotProduct_self_eq_zero, sub_eq_zero]

namespace IsLeastSquares

variable {A : Matrix m n K} {b : m → K} {x r : n → K}

/-- A system that can be solved is solved. -/
theorem solves (h : IsLeastSquares A b x) (hr : A *ᵥ r = b) : A *ᵥ x = b := by
  have hleast := h.least r
  rw [misfit_eq_zero_iff.mpr hr] at hleast
  exact misfit_eq_zero_iff.mp (le_antisymm hleast (misfit_nonneg A b x))

/-- Injective coefficients leave one solution. -/
theorem eq_of_injective (h : IsLeastSquares A b x) (hr : A *ᵥ r = b)
    (hinjective : ∀ y, A *ᵥ y = 0 → y = 0) : x = r := by
  have hdifference : A *ᵥ (x - r) = 0 := by rw [mulVec_sub, h.solves hr, hr, sub_self]
  exact sub_eq_zero.mp (hinjective _ hdifference)

/-- Nothing is solved by nothing. -/
theorem eq_zero (h : IsLeastSquares A 0 x) : x = 0 := by
  have hzero : A *ᵥ (0 : n → K) = 0 := mulVec_zero A
  have hsame : misfit A 0 (0 : n → K) = misfit A 0 x := by
    rw [misfit_eq_zero_iff.mpr hzero, misfit_eq_zero_iff.mpr (h.solves hzero)]
  have hshort := h.shortest 0 hsame
  rw [zero_dotProduct] at hshort
  exact dotProduct_self_eq_zero.mp (le_antisymm hshort (dotProduct_self_nonneg x))

end IsLeastSquares

/-! ### The normal equations -/

theorem misfit_eq_add {A : Matrix m n K} {b : m → K} {x : n → K}
    (h : Aᵀ *ᵥ (A *ᵥ x) = Aᵀ *ᵥ b) (y : n → K) :
    misfit A b y = misfit A b x + (A *ᵥ (y - x)) ⬝ᵥ (A *ᵥ (y - x)) := by
  have horthogonal : (A *ᵥ (y - x)) ⬝ᵥ (A *ᵥ x - b) = 0 := by
    rw [dotProduct_comm, dotProduct_mulVec, ← mulVec_transpose, mulVec_sub, h, sub_self,
      zero_dotProduct]
  have hsplit : A *ᵥ y - b = A *ᵥ (y - x) + (A *ᵥ x - b) := by
    rw [mulVec_sub]
    abel
  rw [misfit, misfit, hsplit, add_dotProduct, dotProduct_add, dotProduct_add, horthogonal,
    dotProduct_comm (A *ᵥ x - b), horthogonal]
  ring

/-- A combination of the rows that solves the normal equations. -/
theorem isLeastSquares_of_normal {A : Matrix m n K} {b z : m → K} {x : n → K}
    (h : Aᵀ *ᵥ (A *ᵥ x) = Aᵀ *ᵥ b) (hrows : x = Aᵀ *ᵥ z) : IsLeastSquares A b x where
  least y := by
    rw [misfit_eq_add h y]
    exact le_add_of_nonneg_right (dotProduct_self_nonneg _)
  shortest y hy := by
    rw [misfit_eq_add h y, add_eq_left, dotProduct_self_eq_zero] at hy
    have horthogonal : x ⬝ᵥ (y - x) = 0 := by
      calc x ⬝ᵥ (y - x) = (z ᵥ* A) ⬝ᵥ (y - x) := by rw [hrows, mulVec_transpose]
        _ = z ⬝ᵥ (A *ᵥ (y - x)) := (dotProduct_mulVec z A (y - x)).symm
        _ = 0 := by rw [hy, dotProduct_zero]
    have hsplit : y = x + (y - x) := by abel
    calc x ⬝ᵥ x ≤ x ⬝ᵥ x + (y - x) ⬝ᵥ (y - x) :=
          le_add_of_nonneg_right (dotProduct_self_nonneg _)
      _ = (x + (y - x)) ⬝ᵥ (x + (y - x)) := by
          rw [add_dotProduct, dotProduct_add, dotProduct_add, horthogonal,
            dotProduct_comm (y - x) x, horthogonal]
          ring
      _ = y ⬝ᵥ y := by rw [← hsplit]

/-! ### Singular values -/

/-- The singular values and the right factor of a matrix. The left factor is
orthonormal and drops out of the lengths. -/
structure IsSvd [LinearOrder k] (A : Matrix m n K) (s : k → K) (V : Matrix k n K) : Prop where
  nonneg : ∀ l, 0 ≤ s l
  descending : Antitone s
  orthonormal : V * Vᵀ = 1
  lengths : ∀ y, (A *ᵥ y) ⬝ᵥ (A *ᵥ y) = ∑ l, (s l * (V *ᵥ y) l) ^ 2

namespace IsSvd

variable [LinearOrder k] {A : Matrix m n K} {s : k → K} {V : Matrix k n K}

/-- What the coefficients send to zero has no part along a positive singular value. -/
theorem eq_zero_of_kernel (h : IsSvd A s V) {y : n → K} (hy : A *ᵥ y = 0) (l : k)
    (hpositive : 0 < s l) : (V *ᵥ y) l = 0 := by
  have hsum : ∑ l, (s l * (V *ᵥ y) l) ^ 2 = 0 := by
    rw [← h.lengths y, hy, zero_dotProduct]
  have hterm := (Finset.sum_eq_zero_iff_of_nonneg fun l _ => sq_nonneg _).mp hsum l
    (Finset.mem_univ l)
  exact (mul_eq_zero.mp (pow_eq_zero_iff two_ne_zero |>.mp hterm)).resolve_left hpositive.ne'

/-- As many positive singular values as unknowns. -/
theorem injective [DecidableEq n] (h : IsSvd A s V) (e : k ≃ n) (hpositive : ∀ l, 0 < s l)
    {y : n → K} (hy : A *ᵥ y = 0) : y = 0 := by
  have hzero : V *ᵥ y = 0 := by
    ext l
    exact h.eq_zero_of_kernel hy l (hpositive l)
  have hsquare : Vᵀ * V = 1 := (mul_eq_one_comm_of_equiv e).mp h.orthonormal
  rw [← one_mulVec y, ← hsquare, ← mulVec_mulVec, hzero, mulVec_zero]

end IsSvd

/-! ### Two unknowns -/

/-- The products of the columns, and of the columns with the constants. -/
def normal (A : Matrix m (Fin 2) K) : Matrix (Fin 2) (Fin 2) K := Aᵀ * A

/-- The solution by the normal equations. Where they are singular, the constants are
already a multiple of it. -/
def solution (A : Matrix m (Fin 2) K) (b : m → K) : Fin 2 → K :=
  if (normal A).det = 0 then ((normal A).trace)⁻¹ • (Aᵀ *ᵥ b)
  else (normal A).det⁻¹ • ((normal A).adjugate *ᵥ (Aᵀ *ᵥ b))

variable {A : Matrix m (Fin 2) K}

theorem normal_isSymm (A : Matrix m (Fin 2) K) : (normal A)ᵀ = normal A := by
  rw [normal, transpose_mul, transpose_transpose]

/-- What the normal matrix sends to zero, the coefficients send to zero. -/
theorem mulVec_eq_zero_of_normal {y : Fin 2 → K} (h : normal A *ᵥ y = 0) : A *ᵥ y = 0 := by
  apply dotProduct_self_eq_zero.mp
  rw [dotProduct_mulVec, ← mulVec_transpose, mulVec_mulVec, ← normal, h, zero_dotProduct]

/-- A singular normal matrix is its trace times a projection. -/
theorem normal_mul_self (h : (normal A).det = 0) :
    normal A * normal A = (normal A).trace • normal A := by
  have hsymm : normal A 1 0 = normal A 0 1 := congrFun (congrFun (normal_isSymm A) 0) 1
  rw [det_fin_two, hsymm] at h
  ext i j
  rw [Matrix.smul_apply, mul_apply, Fin.sum_univ_two, trace_fin_two, smul_eq_mul]
  fin_cases i <;> fin_cases j <;> simp only [Fin.mk_zero, Fin.mk_one, Fin.isValue, hsymm]
  · linear_combination -h
  · ring
  · ring
  · linear_combination -h

/-- The rows are sent to their multiples by the trace. -/
theorem normal_mulVec_transpose (h : (normal A).det = 0) (b : m → K) :
    normal A *ᵥ (Aᵀ *ᵥ b) = (normal A).trace • (Aᵀ *ᵥ b) := by
  have hzero (y : Fin 2 → K) : A *ᵥ (normal A *ᵥ y - (normal A).trace • y) = 0 := by
    apply mulVec_eq_zero_of_normal
    rw [mulVec_sub, mulVec_mulVec, normal_mul_self h, mulVec_smul, smul_mulVec, sub_self]
  apply sub_eq_zero.mp
  apply dotProduct_self_eq_zero.mp
  obtain ⟨c, hc⟩ : ∃ c, c = Aᵀ *ᵥ b := ⟨_, rfl⟩
  obtain ⟨y, hy⟩ : ∃ y, y = normal A *ᵥ c - (normal A).trace • c := ⟨_, rfl⟩
  rw [← hc, ← hy]
  have hb : b ⬝ᵥ (A *ᵥ (normal A *ᵥ y - (normal A).trace • y)) = 0 := by
    rw [hzero y, dotProduct_zero]
  have hswap : c ⬝ᵥ (normal A *ᵥ y) = (normal A *ᵥ c) ⬝ᵥ y := by
    rw [dotProduct_mulVec, ← mulVec_transpose, normal_isSymm]
  have hsplit : (normal A *ᵥ c - (normal A).trace • c) ⬝ᵥ y =
      (normal A *ᵥ c) ⬝ᵥ y - (normal A).trace * (c ⬝ᵥ y) := by
    rw [sub_dotProduct, smul_dotProduct, smul_eq_mul]
  calc y ⬝ᵥ y = (normal A *ᵥ c) ⬝ᵥ y - (normal A).trace * (c ⬝ᵥ y) := by rw [← hsplit, ← hy]
    _ = c ⬝ᵥ (normal A *ᵥ y - (normal A).trace • y) := by
        rw [dotProduct_sub, dotProduct_smul, smul_eq_mul, hswap]
    _ = 0 := by rw [hc, mulVec_transpose, ← dotProduct_mulVec, hb]

/-- Without a trace there are no coefficients. -/
theorem transpose_mulVec_eq_zero (hdet : (normal A).det = 0) (h : (normal A).trace = 0)
    (b : m → K) : Aᵀ *ᵥ b = 0 := by
  have hzero : A *ᵥ (Aᵀ *ᵥ b) = 0 := by
    apply mulVec_eq_zero_of_normal
    rw [normal_mulVec_transpose hdet, h, zero_smul]
  apply dotProduct_self_eq_zero.mp
  rw [dotProduct_comm, dotProduct_mulVec, ← mulVec_transpose, transpose_transpose, hzero,
    zero_dotProduct]

theorem normal_mulVec_solution (A : Matrix m (Fin 2) K) (b : m → K) :
    normal A *ᵥ solution A b = Aᵀ *ᵥ b := by
  rw [solution]
  split
  case isTrue hdet =>
    rw [mulVec_smul, normal_mulVec_transpose hdet, smul_smul]
    by_cases htrace : (normal A).trace = 0
    · rw [transpose_mulVec_eq_zero hdet htrace, smul_zero]
    · rw [inv_mul_cancel₀ htrace, one_smul]
  case isFalse hdet =>
    rw [mulVec_smul, mulVec_mulVec, mul_adjugate, smul_mulVec, one_mulVec, smul_smul,
      inv_mul_cancel₀ hdet, one_smul]

/-- The solution is a combination of the rows. -/
theorem exists_solution_eq (A : Matrix m (Fin 2) K) (b : m → K) :
    ∃ z, solution A b = Aᵀ *ᵥ z := by
  by_cases hdet : (normal A).det = 0
  · refine ⟨((normal A).trace)⁻¹ • b, ?_⟩
    rw [solution, if_pos hdet, mulVec_smul]
  · have hunit (x : Fin 2 → K) :
        normal A *ᵥ ((normal A).det⁻¹ • ((normal A).adjugate *ᵥ x)) = x := by
      rw [mulVec_smul, mulVec_mulVec, mul_adjugate, smul_mulVec, one_mulVec, smul_smul,
        inv_mul_cancel₀ hdet, one_smul]
    refine ⟨A *ᵥ ((normal A).det⁻¹ • ((normal A).adjugate *ᵥ solution A b)), ?_⟩
    rw [mulVec_mulVec, ← normal, hunit]

theorem isLeastSquares_solution (A : Matrix m (Fin 2) K) (b : m → K) :
    IsLeastSquares A b (solution A b) := by
  obtain ⟨z, hz⟩ := exists_solution_eq A b
  apply isLeastSquares_of_normal _ hz
  rw [mulVec_mulVec, ← normal, normal_mulVec_solution]

end LeastSquares

/-!
## Covariances under linear measurements

A measurement `H x` with noise covariance `R` turns the covariance `P` of a linear
estimate into `(1 - K H) P` with the gain `K = P Hᵀ S⁻¹` and the covariance
`S = H P Hᵀ + R` of the innovation. In this short form the result is a product that is
not symmetric by its shape. Joseph's form shows that it is positive semidefinite, and
what the update takes away is `K S Kᵀ`.
-/
namespace CovarianceUpdate

set_option linter.unusedSectionVars false

open Matrix

variable {n m : Type*} [Fintype n] [DecidableEq n] [Fintype m] [DecidableEq m]

/-- The covariance of the innovation. -/
def innovation (P : Matrix n n ℝ) (H : Matrix m n ℝ) (R : Matrix m m ℝ) : Matrix m m ℝ :=
  H * P * Hᵀ + R

noncomputable def gain (P : Matrix n n ℝ) (H : Matrix m n ℝ) (R : Matrix m m ℝ) :
    Matrix n m ℝ :=
  P * Hᵀ * (innovation P H R)⁻¹

/-- The covariance after the measurement, in the short form. -/
noncomputable def updated (P : Matrix n n ℝ) (H : Matrix m n ℝ) (R : Matrix m m ℝ) :
    Matrix n n ℝ :=
  (1 - gain P H R * H) * P

theorem isSymm_of_isHermitian {P : Matrix n n ℝ} (h : P.IsHermitian) : P.IsSymm := by
  rw [IsSymm, ← conjTranspose_eq_transpose_of_trivial]
  exact h

theorem posSemidef_congr {A : Matrix m m ℝ} (hA : A.PosSemidef) (B : Matrix n m ℝ) :
    (B * A * Bᵀ).PosSemidef := by
  rw [← conjTranspose_eq_transpose_of_trivial]
  exact hA.mul_mul_conjTranspose_same B

variable {P : Matrix n n ℝ} {H : Matrix m n ℝ} {R : Matrix m m ℝ}

theorem innovation_posDef (hP : P.PosSemidef) (hR : R.PosDef) : (innovation P H R).PosDef :=
  PosDef.posSemidef_add (posSemidef_congr hP H) hR

theorem gain_mul_innovation (hP : P.PosSemidef) (hR : R.PosDef) :
    gain P H R * innovation P H R = P * Hᵀ := by
  have hunit := (innovation_posDef (H := H) hP hR).isUnit
  rw [gain, Matrix.mul_assoc, nonsing_inv_mul _ ((isUnit_iff_isUnit_det _).mp hunit),
    Matrix.mul_one]

/-- The gain transposed, without a transposed inverse. -/
theorem innovation_mul_gain (hP : P.PosSemidef) (hR : R.PosDef) :
    innovation P H R * (gain P H R)ᵀ = H * P := by
  have hsymmetric := isSymm_of_isHermitian (innovation_posDef (H := H) hP hR).isHermitian
  have hP' := isSymm_of_isHermitian hP.isHermitian
  have htransposed := congrArg transpose (gain_mul_innovation (H := H) hP hR)
  rw [transpose_mul, transpose_mul, transpose_transpose, hsymmetric.eq, hP'.eq] at htransposed
  exact htransposed

theorem gain_mul_eq (hP : P.PosSemidef) (hR : R.PosDef) :
    gain P H R * H * P = gain P H R * innovation P H R * (gain P H R)ᵀ := by
  rw [Matrix.mul_assoc, Matrix.mul_assoc, innovation_mul_gain hP hR]

/-- What the update takes away. -/
theorem sub_updated (hP : P.PosSemidef) (hR : R.PosDef) :
    P - updated P H R = gain P H R * innovation P H R * (gain P H R)ᵀ := by
  rw [updated, Matrix.sub_mul, Matrix.one_mul, sub_sub_cancel, gain_mul_eq hP hR]

/-- Joseph's form. -/
theorem updated_joseph (hP : P.PosSemidef) (hR : R.PosDef) :
    updated P H R = (1 - gain P H R * H) * P * (1 - gain P H R * H)ᵀ +
      gain P H R * R * (gain P H R)ᵀ := by
  have hleft : gain P H R * (H * P * Hᵀ) * (gain P H R)ᵀ + gain P H R * R * (gain P H R)ᵀ =
      gain P H R * H * P := by
    rw [← Matrix.add_mul, ← Matrix.mul_add, gain_mul_eq hP hR, innovation]
  have hright : P * (Hᵀ * (gain P H R)ᵀ) = gain P H R * H * P := by
    rw [gain_mul_eq hP hR, gain_mul_innovation hP hR, Matrix.mul_assoc]
  have hback : gain P H R * H * (P * (Hᵀ * (gain P H R)ᵀ)) =
      gain P H R * (H * P * Hᵀ) * (gain P H R)ᵀ := by
    simp only [Matrix.mul_assoc]
  rw [transpose_sub, transpose_one, transpose_mul, Matrix.mul_sub, Matrix.mul_one, updated,
    Matrix.sub_mul, Matrix.one_mul, Matrix.sub_mul, Matrix.mul_assoc (gain P H R * H) P, hback,
    hright]
  rw [← hleft]
  abel

theorem posSemidef_updated (hP : P.PosSemidef) (hR : R.PosDef) : (updated P H R).PosSemidef := by
  rw [updated_joseph hP hR]
  exact (posSemidef_congr hP _).add (posSemidef_congr hR.posSemidef _)

/-- A measurement never increases the covariance. -/
theorem posSemidef_sub_updated (hP : P.PosSemidef) (hR : R.PosDef) :
    (P - updated P H R).PosSemidef := by
  rw [sub_updated hP hR]
  exact posSemidef_congr (innovation_posDef hP hR).posSemidef _

/-- White noise of a variance that is not negative. -/
theorem posSemidef_white {q : ℝ} (hq : 0 ≤ q) : (q • (1 : Matrix n n ℝ)).PosSemidef :=
  PosSemidef.one.smul hq

end CovarianceUpdate
