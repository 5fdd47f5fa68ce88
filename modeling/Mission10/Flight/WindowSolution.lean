import Mission10.Flight.RangeHistory

/-!
# What a window of exact ranges determines

In a window whose ranges are the distances of the peer, the linear system has the true
start as a solution and the iteration stays there. Two singular values that are not zero
leave no other solution. A straight motion sends a direction across it to zero, the last
singular value is zero, and the two returned points are the true position and its mirror
image.
-/
namespace Mission10.Flight

set_option linter.unusedSectionVars false

open Engine (MathOps hypot)
open Engine.MathOps Matrix LeastSquares

/-! ### Lengths in the plane -/

theorem dotProduct_plane (u v : Vector2 ℝ) : u ⬝ᵥ v = u 0 * v 0 + u 1 * v 1 := by
  simp [dotProduct, Fin.sum_univ_two]

theorem norm2_eq (v : Vector2 ℝ) : norm2 v = √(v ⬝ᵥ v) := by
  rw [dotProduct_plane]
  rfl

theorem norm2_sq (v : Vector2 ℝ) : norm2 v ^ 2 = v ⬝ᵥ v := by
  rw [norm2_eq, Real.sq_sqrt (dotProduct_self_nonneg v)]

@[simp] theorem norm2_zero : norm2 (0 : Vector2 ℝ) = 0 := by
  rw [norm2_eq, dotProduct_zero, Real.sqrt_zero]

theorem norm2_sq_add (r v : Vector2 ℝ) :
    norm2 (r + v) ^ 2 = norm2 r ^ 2 + 2 * (v ⬝ᵥ r) + v ⬝ᵥ v := by
  rw [norm2_sq, norm2_sq, add_dotProduct, dotProduct_add, dotProduct_add, dotProduct_comm r v]
  ring

theorem perpendicular_dotProduct (u : Vector2 ℝ) : u ⬝ᵥ perpendicular u = 0 := by
  rw [dotProduct_plane, perpendicular]
  simp
  ring

/-- A vector in a direction of length one and across it. -/
theorem eq_along_add_across {u : Vector2 ℝ} (hu : u ⬝ᵥ u = 1) (r : Vector2 ℝ) :
    r = (u ⬝ᵥ r) • u + (perpendicular u ⬝ᵥ r) • perpendicular u := by
  rw [dotProduct_plane] at hu
  ext i
  fin_cases i
  · simp only [Pi.add_apply, Pi.smul_apply, smul_eq_mul, dotProduct_plane, perpendicular,
      Fin.zero_eta, Fin.isValue, cons_val_zero, cons_val_one]
    linear_combination -r 0 * hu
  · simp only [Pi.add_apply, Pi.smul_apply, smul_eq_mul, dotProduct_plane, perpendicular,
      Fin.mk_one, Fin.isValue, cons_val_zero, cons_val_one]
    linear_combination -r 1 * hu

theorem dotProduct_self_split {u : Vector2 ℝ} (hu : u ⬝ᵥ u = 1) (r : Vector2 ℝ) :
    r ⬝ᵥ r = (u ⬝ᵥ r) ^ 2 + (perpendicular u ⬝ᵥ r) ^ 2 := by
  rw [dotProduct_plane] at hu
  simp only [dotProduct_plane, perpendicular, cons_val_zero, cons_val_one]
  linear_combination -(r 0 ^ 2 + r 1 ^ 2) * hu

/-- The image in the line through the origin along a direction of length one. -/
def mirror (u p : Vector2 ℝ) : Vector2 ℝ := (2 * (u ⬝ᵥ p)) • u - p

/-! ### Linear systems from lists -/

section Systems

variable {system : List (Vector2 ℝ × ℝ)}

theorem solves_iff {x : Vector2 ℝ} :
    coefficients system *ᵥ x = constants system ↔ ∀ e ∈ system, e.1 ⬝ᵥ x = e.2 := by
  rw [List.forall_mem_iff_get, funext_iff]
  rfl

theorem kernel_iff {y : Vector2 ℝ} :
    coefficients system *ᵥ y = 0 ↔ ∀ e ∈ system, e.1 ⬝ᵥ y = 0 := by
  rw [List.forall_mem_iff_get, funext_iff]
  rfl

theorem dotProduct_get (f g : Vector2 ℝ × ℝ → ℝ) :
    (fun i => f (system.get i)) ⬝ᵥ (fun i => g (system.get i)) =
      (system.map fun e => f e * g e).sum :=
  Fin.sum_univ_fun_getElem system fun e => f e * g e

end Systems

/-! ### Windows of exact ranges -/

/-- The ranges of a window are the distances of a peer that is at `r` at its start. -/
def ExactRanges (r : Vector2 ℝ) (history : List (Vector2 ℝ × ℝ)) : Prop :=
  ∀ w ∈ history, w.2 = norm2 (r + w.1)

/-- The least squares solutions are exact. -/
def LinearSolvers.ExactLstsq (np : LinearSolvers ℝ) : Prop :=
  ∀ m A b, IsLeastSquares A b (np.lstsq m A b)

/-- The singular values of a linear system are exact. -/
def LinearSolvers.ExactSvd (np : LinearSolvers ℝ) (system : List (Vector2 ℝ × ℝ)) : Prop :=
  IsSvd (coefficients system) (np.svd system.length (coefficients system)).singular
    (np.svd system.length (coefficients system)).vh

section Windows

variable {np : LinearSolvers ℝ} {r : Vector2 ℝ} {history : List (Vector2 ℝ × ℝ)}

/-- The true start solves the linear system. -/
theorem ExactRanges.solves (h : ExactRanges r history) (hstart : ∀ w ∈ history.head?, w.1 = 0) :
    ∀ e ∈ equations history, e.1 ⬝ᵥ r = e.2 := by
  cases history with
  | nil => simp [equations]
  | cons start rest =>
    intro e he
    obtain ⟨w, hw, rfl⟩ := List.mem_map.mp he
    have hfirst : start.2 = norm2 r := by
      rw [h start (List.mem_cons_self ..), hstart start (by simp), add_zero]
    have hrange := h w (List.mem_cons_of_mem _ hw)
    show w.1 ⬝ᵥ r = 1 / 2 * (w.2 ^ 2 - start.2 ^ 2 - w.1 ⬝ᵥ w.1)
    rw [hrange, hfirst, norm2_sq_add]
    ring

/-- Nothing is left over at the true start. -/
theorem ExactRanges.residual (h : ExactRanges r history) :
    constants (stepEquations r (validSamples r history)) = 0 := by
  ext i
  have hmem := List.get_mem (stepEquations r (validSamples r history)) i
  obtain ⟨w, hw, he⟩ := List.mem_map.mp hmem
  have hrange := h w (List.mem_of_mem_filter hw)
  show ((stepEquations r (validSamples r history)).get i).2 = 0
  rw [← he, hrange, sub_self]

/-- The iteration stays at the true start. -/
theorem gaussNewton_fixed (hnp : np.ExactLstsq) (h : ExactRanges r history) (steps : ℕ) :
    gaussNewton np history steps r = r := by
  cases steps with
  | zero => rfl
  | succ steps =>
    have hstep : np.lstsq _ (coefficients (stepEquations r (validSamples r history)))
        (constants (stepEquations r (validSamples r history))) = 0 := by
      have hleast := hnp _ (coefficients (stepEquations r (validSamples r history)))
        (constants (stepEquations r (validSamples r history)))
      rw [h.residual] at hleast ⊢
      exact hleast.eq_zero
    have hsmall : norm2 (0 : Vector2 ℝ) < 1 / 10 ^ 6 := by
      rw [norm2_zero]
      positivity
    simp only [gaussNewton]
    rw [hstep, if_pos hsmall, add_zero]
    exact ite_self r

/-- A ratio that is not zero leaves one solution. -/
theorem injective_of_observable {system : List (Vector2 ℝ × ℝ)} (hsvd : np.ExactSvd system)
    (hratio : 0 < (np.svd system.length (coefficients system)).observability) {y : Vector2 ℝ}
    (hy : coefficients system *ᵥ y = 0) : y = 0 := by
  obtain ⟨factors, hfactors⟩ :
      ∃ factors, factors = np.svd system.length (coefficients system) := ⟨_, rfl⟩
  rw [LinearSolvers.ExactSvd, ← hfactors] at hsvd
  rw [← hfactors, SingularFactors.observability] at hratio
  split_ifs at hratio with htwo
  · have hcount : min system.length 2 = 2 := by omega
    have hlast : 0 < factors.singular ⟨min system.length 2 - 1, by omega⟩ := by
      refine lt_of_le_of_ne (hsvd.nonneg _) fun hzero => ?_
      rw [← hzero, zero_div] at hratio
      exact lt_irrefl _ hratio
    refine hsvd.injective (finCongr hcount) (fun l => hlast.trans_le (hsvd.descending ?_)) hy
    show l.1 ≤ min system.length 2 - 1
    omega
  · exact absurd hratio (lt_irrefl _)

/-- What a straight motion leaves of the ratio. -/
theorem observability_eq_zero {system : List (Vector2 ℝ × ℝ)} (hsvd : np.ExactSvd system)
    {y : Vector2 ℝ} (hne : y ≠ 0) (hy : coefficients system *ᵥ y = 0) :
    (np.svd system.length (coefficients system)).observability = 0 := by
  by_contra hratio
  have hnonneg : 0 ≤ (np.svd system.length (coefficients system)).observability := by
    rw [SingularFactors.observability]
    split
    · exact div_nonneg (hsvd.nonneg _) (hsvd.nonneg _)
    · exact le_refl _
  exact hne (injective_of_observable hsvd (lt_of_le_of_ne hnonneg (Ne.symm hratio)) hy)

/-- The first right factor of a straight motion points along it. -/
theorem first_factor_along {system : List (Vector2 ℝ × ℝ)} (hsvd : np.ExactSvd system)
    (hcount : 0 < min system.length 2)
    (hpositive : 0 < (np.svd system.length (coefficients system)).singular ⟨0, hcount⟩)
    {y : Vector2 ℝ} (hne : y ≠ 0) (hy : coefficients system *ᵥ y = 0) :
    let u := (np.svd system.length (coefficients system)).vh ⟨0, hcount⟩
    u ⬝ᵥ u = 1 ∧ ∀ v : Vector2 ℝ, v ⬝ᵥ y = 0 → v = (v ⬝ᵥ u) • u := by
  intro u
  have hunit : u ⬝ᵥ u = 1 := by
    have hone := congrFun (congrFun hsvd.orthonormal ⟨0, hcount⟩) ⟨0, hcount⟩
    rwa [one_apply_eq] at hone
  have hacross : u ⬝ᵥ y = 0 := hsvd.eq_zero_of_kernel hy _ hpositive
  refine ⟨hunit, fun v hv => ?_⟩
  have hside : (perpendicular u ⬝ᵥ y) * (perpendicular u ⬝ᵥ v) = 0 := by
    have hsplit := eq_along_add_across hunit y
    rw [hacross, zero_smul, zero_add] at hsplit
    rw [hsplit, dotProduct_smul, smul_eq_mul] at hv
    rw [dotProduct_comm _ v]
    exact hv
  have hsame : perpendicular u ⬝ᵥ v = 0 := by
    refine (mul_eq_zero.mp hside).resolve_left fun hzero => hne ?_
    rw [eq_along_add_across hunit y, hacross, hzero, zero_smul, zero_smul, add_zero]
  have hv' := eq_along_add_across hunit v
  rw [hsame, zero_smul, add_zero, dotProduct_comm] at hv'
  exact hv'

end Windows

/-! ### A straight motion -/

/-- The squares of the displacements of a window together. -/
def spread (history : List (Vector2 ℝ × ℝ)) : ℝ := (history.map fun w => w.1 ⬝ᵥ w.1).sum

/-- The first singular value, zero where there is none. -/
def SingularFactors.top {m : ℕ} (factors : SingularFactors ℝ m) : ℝ :=
  if h : 0 < min m 2 then factors.singular ⟨0, h⟩ else 0

section Straight

variable {np : LinearSolvers ℝ} {r u : Vector2 ℝ} {history : List (Vector2 ℝ × ℝ)}

/-- The first sample has no displacement and no row. -/
theorem spread_equations (hstart : ∀ w ∈ history.head?, w.1 = 0) :
    spread (equations history) = spread history := by
  cases history with
  | nil => rfl
  | cons start rest =>
    rw [spread, equations, List.map_map, spread, List.map_cons, List.sum_cons,
      hstart start (by simp), dotProduct_zero, zero_add]
    rfl

theorem along_equations {P : Vector2 ℝ → Prop} (h : ∀ w ∈ history, P w.1) :
    ∀ e ∈ equations history, P e.1 := by
  cases history with
  | nil => simp [equations]
  | cons start rest =>
    intro e he
    obtain ⟨w, hw, rfl⟩ := List.mem_map.mp he
    exact h w (List.mem_cons_of_mem _ hw)

theorem projected_self {system : List (Vector2 ℝ × ℝ)} (hu : u ⬝ᵥ u = 1)
    (halong : ∀ e ∈ system, e.1 = (e.1 ⬝ᵥ u) • u) :
    (coefficients system *ᵥ u) ⬝ᵥ (coefficients system *ᵥ u) = spread system := by
  rw [spread, show coefficients system *ᵥ u = fun i => (system.get i).1 ⬝ᵥ u from rfl,
    dotProduct_get (fun e => e.1 ⬝ᵥ u) fun e => e.1 ⬝ᵥ u]
  congr 1
  apply List.map_congr_left
  intro e he
  conv_rhs => rw [halong e he, smul_dotProduct, dotProduct_smul, hu]
  simp

/-- The part of the true start along the motion. -/
theorem projected_constants {system : List (Vector2 ℝ × ℝ)} (hu : u ⬝ᵥ u = 1)
    (halong : ∀ e ∈ system, e.1 = (e.1 ⬝ᵥ u) • u) (hsolves : ∀ e ∈ system, e.1 ⬝ᵥ r = e.2) :
    (coefficients system *ᵥ u) ⬝ᵥ constants system = spread system * (u ⬝ᵥ r) := by
  rw [← projected_self hu halong,
    show coefficients system *ᵥ u = fun i => (system.get i).1 ⬝ᵥ u from rfl,
    show constants system = fun i => (system.get i).2 from rfl,
    dotProduct_get (fun e => e.1 ⬝ᵥ u) fun e => e.2,
    dotProduct_get (fun e => e.1 ⬝ᵥ u) fun e => e.1 ⬝ᵥ u, ← List.sum_map_mul_right]
  congr 1
  apply List.map_congr_left
  intro e he
  have hvalue : e.2 = (e.1 ⬝ᵥ u) * (u ⬝ᵥ r) := by
    rw [← hsolves e he]
    conv_lhs => rw [halong e he, smul_dotProduct, smul_eq_mul]
  rw [hvalue]
  ring

/-- The first singular value of a straight motion is the length of its displacements. -/
theorem top_sq {system : List (Vector2 ℝ × ℝ)} (hsvd : np.ExactSvd system)
    (hspread : 0 < spread system) {y : Vector2 ℝ} (hne : y ≠ 0)
    (hy : coefficients system *ᵥ y = 0) :
    ∃ hcount : 0 < min system.length 2,
      0 < (np.svd system.length (coefficients system)).singular ⟨0, hcount⟩ ∧
      (np.svd system.length (coefficients system)).singular ⟨0, hcount⟩ ^ 2 =
        spread system := by
  have hcount : 0 < min system.length 2 := by
    by_contra hnone
    have hempty : system = [] := List.length_eq_zero_iff.mp (by omega)
    rw [hempty] at hspread
    exact lt_irrefl _ hspread
  have hpositive : 0 < (np.svd system.length (coefficients system)).singular ⟨0, hcount⟩ := by
    refine lt_of_le_of_ne (hsvd.nonneg _) fun hzero => ?_
    have hall (l) : (np.svd system.length (coefficients system)).singular l = 0 := by
      refine le_antisymm ?_ (hsvd.nonneg l)
      rw [hzero]
      exact hsvd.descending (Nat.zero_le l.1)
    have hrows : ∀ x, coefficients system *ᵥ x = 0 := fun x => by
      apply dotProduct_self_eq_zero.mp
      rw [hsvd.lengths x]
      apply Finset.sum_eq_zero
      intro l _
      rw [hall l, zero_mul, zero_pow two_ne_zero]
    have hzeros : spread system = 0 := by
      apply List.sum_eq_zero
      intro x hx
      obtain ⟨e, he, rfl⟩ := List.mem_map.mp hx
      exact kernel_iff.mp (hrows e.1) e he
    rw [hzeros] at hspread
    exact lt_irrefl _ hspread
  refine ⟨hcount, hpositive, ?_⟩
  obtain ⟨hunit, halong⟩ := first_factor_along hsvd hcount hpositive hne hy
  rw [← projected_self hunit fun e he => halong e.1 (kernel_iff.mp hy e he), hsvd.lengths,
    Finset.sum_eq_single ⟨0, hcount⟩]
  · have hself : ((np.svd system.length (coefficients system)).vh *ᵥ
        (np.svd system.length (coefficients system)).vh ⟨0, hcount⟩) ⟨0, hcount⟩ = 1 := hunit
    rw [hself, mul_one]
  · intro l _ hl
    have horthogonal := congrFun (congrFun hsvd.orthonormal l) ⟨0, hcount⟩
    rw [one_apply_ne hl] at horthogonal
    have hzero : ((np.svd system.length (coefficients system)).vh *ᵥ
        (np.svd system.length (coefficients system)).vh ⟨0, hcount⟩) l = 0 := horthogonal
    rw [hzero, mul_zero, zero_pow two_ne_zero]
  · intro hnot
    exact absurd (Finset.mem_univ _) hnot

/-- The distance from the line along a direction, from the distance to the origin. -/
theorem sqrt_cross (hu : u ⬝ᵥ u = 1) (r : Vector2 ℝ) :
    √(max 0 (norm2 r ^ 2 - (u ⬝ᵥ r) ^ 2)) = |perpendicular u ⬝ᵥ r| := by
  have hsquare : norm2 r ^ 2 - (u ⬝ᵥ r) ^ 2 = (perpendicular u ⬝ᵥ r) ^ 2 := by
    rw [norm2_sq, dotProduct_self_split hu]
    ring
  rw [hsquare, max_eq_right (sq_nonneg _), Real.sqrt_sq_eq_abs]

/-- The two points across the direction, moved along it, are mirror images. -/
theorem mirror_across (hu : u ⬝ᵥ u = 1) (along cross : ℝ) {delta : Vector2 ℝ}
    (hdelta : delta = (delta ⬝ᵥ u) • u) :
    mirror u (along • u + cross • perpendicular u + delta) =
      along • u - cross • perpendicular u + delta := by
  obtain ⟨d, rfl⟩ : ∃ d : ℝ, delta = d • u := ⟨_, hdelta⟩
  have hpart : u ⬝ᵥ (along • u + cross • perpendicular u + d • u) = along + d := by
    rw [dotProduct_add, dotProduct_add, dotProduct_smul, dotProduct_smul, dotProduct_smul, hu,
      perpendicular_dotProduct, smul_zero, smul_eq_mul, smul_eq_mul, mul_one, mul_one, add_zero]
  rw [mirror, hpart]
  module

/-- The true start is one of the two points. -/
theorem start_of_cross (hu : u ⬝ᵥ u = 1) (r : Vector2 ℝ) :
    r = (u ⬝ᵥ r) • u + |perpendicular u ⬝ᵥ r| • perpendicular u ∨
      r = (u ⬝ᵥ r) • u - |perpendicular u ⬝ᵥ r| • perpendicular u := by
  have hsplit := eq_along_add_across hu r
  rcases abs_choice (perpendicular u ⬝ᵥ r) with hsign | hsign
  · left
    rw [hsign, ← hsplit]
  · right
    rw [hsign, neg_smul, sub_neg_eq_add, ← hsplit]

end Straight

/-! ### The two branches -/

/-- A position and an alternate that are mirror images, one of them the true position. -/
structure Mirrored (truth u : Vector2 ℝ) (estimate : RelativeEstimate ℝ) : Prop where
  status : estimate.status = .ambiguous
  images : ∃ p, estimate.position = some p ∧ estimate.alternatePosition = some (mirror u p) ∧
    (truth = p ∨ truth = mirror u p)

namespace RangeHistoryRelativeEstimator

variable {np : LinearSolvers ℝ} {self : RangeHistoryRelativeEstimator ℝ} {r u : Vector2 ℝ}
  {first last : RangeMotionSample ℝ} {observability : ℝ}

theorem straightEstimate_mirrored (hu : u ⬝ᵥ u = 1)
    (halong : ∀ w ∈ window self.samples, w.1 = (w.1 ⬝ᵥ u) • u)
    (hlast : last.displacement - first.displacement =
      ((last.displacement - first.displacement) ⬝ᵥ u) • u)
    (hstart : ∀ w ∈ (window self.samples).head?, w.1 = 0)
    (hexact : ExactRanges r (window self.samples)) (hfirst : first.rangeM = norm2 r)
    (hspread : 1 / 10 ^ 9 < spread (window self.samples)) :
    Mirrored (r + (last.displacement - first.displacement)) u
      (self.straightEstimate np first last u observability) := by
  have hrows : ∀ e ∈ equations (window self.samples), e.1 = (e.1 ⬝ᵥ u) • u :=
    along_equations (P := fun v => v = (v ⬝ᵥ u) • u) halong
  have hdenom := projected_self hu hrows
  rw [spread_equations hstart] at hdenom
  have hpositive : 0 < spread (window self.samples) := lt_trans (by positivity) hspread
  have halongPart : (coefficients (equations (window self.samples)) *ᵥ u) ⬝ᵥ
      constants (equations (window self.samples)) / spread (window self.samples) = u ⬝ᵥ r := by
    rw [projected_constants hu hrows (hexact.solves hstart), spread_equations hstart,
      mul_div_cancel_left₀ _ hpositive.ne']
  simp only [straightEstimate]
  rw [hdenom, if_neg hspread.not_ge, halongPart, hfirst]
  refine ⟨rfl, _, rfl, ?_, ?_⟩
  · rw [mirror_across hu _ _ hlast]
  · rw [mirror_across hu _ _ hlast]
    show _ = _ • u + √_ • _ + _ ∨ _ = _ • u - √_ • _ + _
    rw [sqrt_cross hu]
    rcases start_of_cross hu r with hleft | hright
    · left
      rw [← hleft]
    · right
      rw [← hright]

theorem straightEstimate_short
    (hdenom : (coefficients (equations (window self.samples)) *ᵥ u) ⬝ᵥ
      (coefficients (equations (window self.samples)) *ᵥ u) ≤ 1 / 10 ^ 9) :
    self.straightEstimate np first last u observability =
      self.statusOnly .unobservable observability := by
  simp only [straightEstimate]
  rw [if_pos hdenom]

theorem uniqueEstimate_locates (hnp : np.ExactLstsq)
    (hinjective : ∀ y, coefficients (equations (window self.samples)) *ᵥ y = 0 → y = 0)
    (hstart : ∀ w ∈ (window self.samples).head?, w.1 = 0)
    (hexact : ExactRanges r (window self.samples)) :
    (self.uniqueEstimate np first last observability).position =
      some (r + (last.displacement - first.displacement)) := by
  have hinitial := (hnp _ (coefficients (equations (window self.samples)))
    (constants (equations (window self.samples)))).eq_of_injective
      (solves_iff.mpr (hexact.solves hstart)) hinjective
  simp only [uniqueEstimate]
  rw [hinitial, gaussNewton_fixed hnp hexact]

end RangeHistoryRelativeEstimator

end Mission10.Flight
