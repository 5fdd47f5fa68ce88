import Mission10.Engine.Associate
import Mission10.Engine.TagAnchor
import Mission10.Library.Plane

/-!
# The two rigid fits

The anchor and the association both fit a rotation and a translation to pairs of points,
each with its own code. They find the same motion, and no motion of the plane takes the
first points nearer to the second ones.
-/
namespace Mission10.Engine

set_option linter.unusedSectionVars false

open MathOps Plane Procrustes

section Fits

variable {K : Type*} [Field K] [LinearOrder K] [IsStrictOrderedRing K] [MathOps K]
variable {pairs : List (Correspondence K)}

/-- The offsets from the mean add up to nothing. -/
theorem sum_sub_mean (points : List (Point2 K)) :
    (points.map fun p => p - meanPoint points).sum = 0 := by
  have hsum : ∀ (c : Point2 K) (list : List (Point2 K)),
      (list.map fun p => p - c).sum =
        ((list.map Prod.fst).sum - list.length * c.1,
          (list.map Prod.snd).sum - list.length * c.2) := by
    intro c list
    induction list with
    | nil => simp [Prod.zero_eq_mk]
    | cons p list ih =>
      rw [List.map_cons, List.sum_cons, ih]
      apply Prod.ext
      · simp only [List.map_cons, List.sum_cons, List.length_cons, Nat.cast_add, Nat.cast_one,
          Prod.fst_add, Prod.fst_sub]
        ring
      · simp only [List.map_cons, List.sum_cons, List.length_cons, Nat.cast_add, Nat.cast_one,
          Prod.snd_add, Prod.snd_sub]
        ring
  rw [hsum]
  unfold meanPoint
  split_ifs with hnil
  · simp [hnil]
  · have hlength : (points.length : K) ≠ 0 := by
      simpa using hnil
    apply Prod.ext
    · simp only [mul_div_cancel₀ _ hlength, sub_self, Prod.fst_zero]
    · simp only [mul_div_cancel₀ _ hlength, sub_self, Prod.snd_zero]

theorem centred_means (pairs : List (Correspondence K)) :
    Centred (meanPoint (pairs.map Prod.fst)) (meanPoint (pairs.map Prod.snd)) pairs where
  first := by
    have hsum := sum_sub_mean (pairs.map Prod.fst)
    rwa [List.map_map] at hsum
  second := by
    have hsum := sum_sub_mean (pairs.map Prod.snd)
    rwa [List.map_map] at hsum

/-- A pair alone leaves nothing to rotate. -/
theorem sums_single (pair : Correspondence K) :
    crosses (meanPoint ([pair].map Prod.fst)) (meanPoint ([pair].map Prod.snd)) [pair] = 0 ∧
      dots (meanPoint ([pair].map Prod.fst)) (meanPoint ([pair].map Prod.snd)) [pair] = 0 := by
  have hmean : meanPoint [pair.1] = pair.1 := by
    simp [meanPoint]
  constructor
  · simp [crosses, hmean, det]
  · simp [dots, hmean, dot]

/-- The angle of the fit, with the count of the pairs tested or not. -/
theorem rigidFit_dyaw (h : pairs ≠ []) :
    let p := meanPoint (pairs.map Prod.fst)
    let q := meanPoint (pairs.map Prod.snd)
    (if 2 ≤ pairs.length ∧ (crosses p q pairs ≠ 0 ∨ dots p q pairs ≠ 0) then
      atan2 (crosses p q pairs) (dots p q pairs) else 0) = (rigidFit pairs).dyaw := by
  intro p q
  have hdyaw : (rigidFit pairs).dyaw = if crosses p q pairs ≠ 0 ∨ dots p q pairs ≠ 0 then
      atan2 (crosses p q pairs) (dots p q pairs) else 0 := rfl
  rw [hdyaw]
  refine if_congr ⟨fun hboth => hboth.2, fun hsums => ⟨?_, hsums⟩⟩ rfl rfl
  by_contra hfew
  have hpos : 0 < pairs.length := List.length_pos_iff.mpr h
  obtain ⟨pair, rfl⟩ : ∃ pair, pairs = [pair] := List.length_eq_one_iff.mp (by omega)
  obtain ⟨hcross, hdot⟩ := sums_single pair
  exact hsums.elim (fun hne => hne hcross) fun hne => hne hdot

theorem meanPoint_fst {points : List (Point2 K)} (h : points ≠ []) :
    (points.map Prod.fst).sum / points.length = (meanPoint points).1 := by
  rw [meanPoint, if_neg h]

theorem meanPoint_snd {points : List (Point2 K)} (h : points ≠ []) :
    (points.map Prod.snd).sum / points.length = (meanPoint points).2 := by
  rw [meanPoint, if_neg h]

/-- The association fits as the anchor does. -/
theorem associate_rigidFit (h : pairs ≠ []) :
    Associate.rigidFit (pairs.map Prod.fst) (pairs.map Prod.snd) true =
      ((rigidFit pairs).dyaw, ((rigidFit pairs).dn, (rigidFit pairs).de)) := by
  have hfirst : pairs.map Prod.fst ≠ [] := by simpa using h
  have hsecond : pairs.map Prod.snd ≠ [] := by simpa using h
  have hempty : (pairs.map Prod.fst).isEmpty = false := by
    rw [← Bool.not_eq_true, List.isEmpty_iff]
    exact hfirst
  have hlength : (pairs.map Prod.fst).length = (pairs.map Prod.snd).length := by
    rw [List.length_map, List.length_map]
  have hq1 : ((pairs.map Prod.snd).map Prod.fst).sum / ((pairs.map Prod.fst).length : K) =
      (meanPoint (pairs.map Prod.snd)).1 := by
    rw [hlength, meanPoint_fst hsecond]
  have hq2 : ((pairs.map Prod.snd).map Prod.snd).sum / ((pairs.map Prod.fst).length : K) =
      (meanPoint (pairs.map Prod.snd)).2 := by
    rw [hlength, meanPoint_snd hsecond]
  have hzip : (pairs.map Prod.fst).zip (pairs.map Prod.snd) = pairs := by
    rw [List.zip_map']
    exact List.map_id _
  let p := meanPoint (pairs.map Prod.fst)
  let q := meanPoint (pairs.map Prod.snd)
  let motion : K → K × Point2 K := fun theta =>
    (theta, (q.1 - (cos theta * p.1 - sin theta * p.2), q.2 - (sin theta * p.1 + cos theta * p.2)))
  have hmotion : motion _ = motion (rigidFit pairs).dyaw := congrArg motion (rigidFit_dyaw h)
  unfold Associate.rigidFit
  simp only [hempty, Bool.false_eq_true, if_false, meanPoint_fst hfirst, meanPoint_snd hfirst,
    hq1, hq2, hzip, true_and]
  simp only [List.length_map]
  exact hmotion

end Fits

/-- The angle of the fit has the direction of the two sums. -/
theorem rigidFit_direction (pairs : List (Correspondence ℝ)) :
    let p := meanPoint (pairs.map Prod.fst)
    let q := meanPoint (pairs.map Prod.snd)
    ∃ r, 0 ≤ r ∧ dots p q pairs = r * cos (rigidFit pairs).dyaw ∧
      crosses p q pairs = r * sin (rigidFit pairs).dyaw := by
  intro p q
  have hdyaw : (rigidFit pairs).dyaw = if crosses p q pairs ≠ 0 ∨ dots p q pairs ≠ 0 then
      atan2 (crosses p q pairs) (dots p q pairs) else 0 := rfl
  by_cases hsums : crosses p q pairs ≠ 0 ∨ dots p q pairs ≠ 0
  · let z : ℂ := ⟨dots p q pairs, crosses p q pairs⟩
    have hangle : (rigidFit pairs).dyaw = z.arg := by
      rw [hdyaw, if_pos hsums]
      rfl
    rw [hangle]
    exact ⟨‖z‖, norm_nonneg z, (Complex.norm_mul_cos_arg z).symm, (Complex.norm_mul_sin_arg z).symm⟩
  · rw [not_or, not_not, not_not] at hsums
    exact ⟨0, le_rfl, by rw [hsums.2, zero_mul], by rw [hsums.1, zero_mul]⟩

/-- For every nonempty list of pairs the association fits as the anchor does, and no
rotation and translation of the plane have a smaller sum of squared distances. -/
theorem rigid_fits {pairs : List (Correspondence ℝ)} (h : pairs ≠ []) :
    let fit := rigidFit pairs
    Associate.rigidFit (pairs.map Prod.fst) (pairs.map Prod.snd) true =
        (fit.dyaw, (fit.dn, fit.de)) ∧
      ∀ (c s : ℝ) (t : Point2 ℝ), c ^ 2 + s ^ 2 = 1 →
        misfit (cos fit.dyaw) (sin fit.dyaw) (fit.dn, fit.de) pairs ≤ misfit c s t pairs := by
  refine ⟨associate_rigidFit h, fun c s t hcs => ?_⟩
  obtain ⟨r, hr, hdots, hcrosses⟩ := rigidFit_direction pairs
  have hunit : cos (rigidFit pairs).dyaw ^ 2 + sin (rigidFit pairs).dyaw ^ 2 = 1 :=
    Real.cos_sq_add_sin_sq _
  refine misfit_le (centred_means pairs) hr hunit hdots hcrosses ?_ hcs t
  apply Prod.ext
  · simp [rotate, rigidFit]
  · simp [rotate, rigidFit]

/-- A quarter turn of two points is found by both fits. -/
theorem rigid_fits_quarter_turn :
    let pairs : List (Correspondence ℝ) := [((1, 0), (0, 1)), ((-1, 0), (0, -1))]
    Associate.rigidFit (pairs.map Prod.fst) (pairs.map Prod.snd) true =
        ((rigidFit pairs).dyaw, ((rigidFit pairs).dn, (rigidFit pairs).de)) ∧
      misfit (cos (rigidFit pairs).dyaw) (sin (rigidFit pairs).dyaw)
        ((rigidFit pairs).dn, (rigidFit pairs).de) pairs ≤ 0 := by
  intro pairs
  obtain ⟨hsame, hbest⟩ := rigid_fits (List.cons_ne_nil _ _ : pairs ≠ [])
  refine ⟨hsame, (hbest 0 1 (0, 0) (by norm_num)).trans ?_⟩
  norm_num [pairs, misfit, rotate, normSq, dot]

end Mission10.Engine
