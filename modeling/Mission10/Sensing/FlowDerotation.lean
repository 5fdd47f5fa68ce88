import Mission10.Library.AxisRotation
import Mission10.Sensing.SvoFlow

/-!
# Flow derotation

With a shutter that reads all rows at once, every pair is turned back by the same
rotation. Features of a static scene that moved by the rotation of the body alone then
leave nothing, and those of a plane that the body moved along all leave the same. What
is the same for all features is found by every reduction, robust or not.
-/
namespace Mission10.Sensing.Flow

open Engine Matrix AxisRotation

/-! ### Reductions of equal residuals -/

section Reductions

theorem median_eq {values : List ℝ} {c : ℝ} (hne : values ≠ []) (h : ∀ x ∈ values, x = c) :
    median values = c := by
  have hvalues : values = List.replicate values.length c := List.eq_replicate_of_mem h
  have hsorted : values.insertionSort (· ≤ ·) = List.replicate values.length c := by
    refine List.eq_replicate_iff.mpr ⟨List.length_insertionSort _ _, ?_⟩
    intro x hx
    exact h x ((List.mem_insertionSort _).mp hx)
  have hpos := List.length_pos_iff.mpr hne
  have hget (i : ℕ) (hi : i < values.length) : (List.replicate values.length c).getD i 0 = c := by
    rw [List.getD_eq_getElem _ _ (by simpa using hi), List.getElem_replicate]
  unfold median
  dsimp only
  rw [hsorted]
  split_ifs with hodd
  · exact hget _ (by omega)
  · rw [hget _ (by omega), hget _ (by omega)]
    ring

theorem medianPixel_eq {residual : List (Pixel ℝ)} {c : Pixel ℝ} (hne : residual ≠ [])
    (h : ∀ r ∈ residual, r = c) : medianPixel residual = c := by
  apply Prod.ext
  · refine median_eq (by simpa using hne) ?_
    simp only [List.mem_map]
    rintro _ ⟨r, hr, rfl⟩
    rw [h r hr]
  · refine median_eq (by simpa using hne) ?_
    simp only [List.mem_map]
    rintro _ ⟨r, hr, rfl⟩
    rw [h r hr]

theorem norm_zero : norm (0 : Pixel ℝ) = 0 := by
  show √(0 * 0 + 0 * 0) = 0
  norm_num

/-- Without a spread the rounds stop where they start. -/
theorem huber_eq {residual : List (Pixel ℝ)} {c : Pixel ℝ} (hne : residual ≠ [])
    (h : ∀ r ∈ residual, r = c) (weights : List ℝ) (rounds : ℕ) :
    huber residual weights rounds c = c := by
  cases rounds with
  | zero => rfl
  | succ rounds =>
    have hmedian : median (residual.map fun r => norm (r - c)) = 0 := by
      refine median_eq (by simpa using hne) ?_
      simp only [List.mem_map]
      rintro _ ⟨r, hr, rfl⟩
      rw [h r hr, sub_self, norm_zero]
    rw [huber]
    dsimp only
    rw [hmedian, mul_zero, if_pos (by positivity)]

variable {residual : List (Pixel ℝ)} {c : Pixel ℝ}

theorem Cm2SvoFlowFrontend.reduce_eq (svo : Cm2SvoFlowFrontend ℝ) (hne : residual ≠ [])
    (h : ∀ r ∈ residual, r = c) (tracks : List (SvoTrack ℝ)) : svo.reduce residual tracks = c := by
  rw [reduce, medianPixel_eq hne h]
  exact huber_eq hne h _ _

end Reductions

/-! ### One shutter -/

section Shutter

variable {readout : Readout ℝ}

theorem truncate_zero : truncate (0 : ℝ) = 0 := by
  rw [truncate, if_neg (lt_irrefl 0), floor_real, Int.floor_zero]

theorem rowNs_eq (hline : readout.lineDelayS = 0) (centerNs : ℤ) (p : Pixel ℝ) :
    readout.rowNs centerNs p = centerNs := by
  rw [Readout.rowNs, hline, mul_zero, zero_mul, truncate_zero, add_zero]

/-- The integral at a time does not depend on what else is asked for. -/
theorem integrals_eq_map {imu : ImuHistory ℝ} {query : List ℤ} {values : List (Fin 3 → ℝ)}
    (h : imu.integrals query = some values) : ∃ integral : ℤ → Fin 3 → ℝ,
      values = query.map integral := by
  unfold ImuHistory.integrals at h
  split at h
  · split_ifs at h
    exact ⟨_, (Option.some.inj h).symm⟩
  · cases h

/-- The flow of some pairs that are all turned back by one rotation. -/
noncomputable def instantFlow (undistort : Pixel ℝ → Pixel ℝ) (reduce : List (Pixel ℝ) → Pixel ℝ)
    (pairs : List (Pixel ℝ × Pixel ℝ)) (delta : Fin 3 → ℝ) : Measured ℝ :=
  let residual := pairs.map fun pair => undistort pair.2 - predicted (undistort pair.1) delta
  let compensated := compensatedFlow (reduce residual)
  ⟨residual, reduce residual, compensated,
    (compensated.1 + delta 0, compensated.2 + delta 1), delta⟩

/-- The integrals that are asked for: two for every pair, and those of the frames. -/
theorem query_eq (hline : readout.lineDelayS = 0) (integral : ℤ → Fin 3 → ℝ)
    (previousCenterNs centerNs : ℤ) (pairs : List (Pixel ℝ × Pixel ℝ)) :
    (pairs.map (fun pair => readout.rowNs previousCenterNs pair.1) ++
      pairs.map (fun pair => readout.rowNs centerNs pair.2) ++
        [previousCenterNs, centerNs]).map integral =
      List.replicate pairs.length (integral previousCenterNs) ++
        (List.replicate pairs.length (integral centerNs) ++
          [integral previousCenterNs, integral centerNs]) := by
  simp only [rowNs_eq hline, List.map_append, List.append_assoc, List.map_const',
    List.map_replicate, List.map_cons, List.map_nil]

theorem zipWith_replicate_length {α β γ : Type} (f : α → β → γ) (items : List α) (b : β) :
    List.zipWith f items (List.replicate items.length b) = items.map fun item => f item b := by
  induction items with
  | nil => rfl
  | cons item items ih => rw [List.length_cons, List.replicate_succ, List.zipWith_cons_cons, ih,
      List.map_cons]

section Measured

variable {undistort : Pixel ℝ → Pixel ℝ} {reduce : List (Pixel ℝ) → Pixel ℝ}
  {imu : ImuHistory ℝ} {previousCenterNs centerNs : ℤ} {pairs : List (Pixel ℝ × Pixel ℝ)}

theorem measureWith_eq (hline : readout.lineDelayS = 0) {integral : ℤ → Fin 3 → ℝ}
    (h : imu.integrals (pairs.map (fun pair => readout.rowNs previousCenterNs pair.1) ++
      pairs.map (fun pair => readout.rowNs centerNs pair.2) ++ [previousCenterNs, centerNs]) =
        some ((pairs.map (fun pair => readout.rowNs previousCenterNs pair.1) ++
          pairs.map (fun pair => readout.rowNs centerNs pair.2) ++
            [previousCenterNs, centerNs]).map integral)) :
    measureWith readout undistort reduce imu previousCenterNs centerNs pairs =
      some (instantFlow undistort reduce pairs
        (integral centerNs - integral previousCenterNs)) := by
  unfold measureWith
  dsimp only
  rw [h, Option.bind_eq_bind, Option.bind_some, query_eq hline]
  generalize integral previousCenterNs = before
  generalize integral centerNs = after
  have hlast : (List.replicate pairs.length before ++
      (List.replicate pairs.length after ++ [before, after])).getD (2 * pairs.length + 1) 0 =
        after := by
    rw [List.getD_append_right _ _ _ _ (by rw [List.length_replicate]; omega),
      List.getD_append_right _ _ _ _ (by simp only [List.length_replicate]; omega)]
    have hindex : 2 * pairs.length + 1 - (List.replicate pairs.length before).length -
        (List.replicate pairs.length after).length = 1 := by
      simp only [List.length_replicate]
      omega
    rw [hindex]
    rfl
  have hfirst : (List.replicate pairs.length before ++
      (List.replicate pairs.length after ++ [before, after])).getD (2 * pairs.length) 0 =
        before := by
    rw [List.getD_append_right _ _ _ _ (by rw [List.length_replicate]; omega),
      List.getD_append_right _ _ _ _ (by simp only [List.length_replicate]; omega)]
    have hindex : 2 * pairs.length - (List.replicate pairs.length before).length -
        (List.replicate pairs.length after).length = 0 := by
      simp only [List.length_replicate]
      omega
    rw [hindex]
    rfl
  rw [hlast, hfirst, List.take_left' List.length_replicate,
    List.drop_left' List.length_replicate, List.take_left' List.length_replicate,
    List.zipWith_replicate', zipWith_replicate_length]
  rfl

theorem measureWith_instant {measured : Measured ℝ} (hline : readout.lineDelayS = 0)
    (h : measureWith readout undistort reduce imu previousCenterNs centerNs pairs =
      some measured) : ∃ delta, measured = instantFlow undistort reduce pairs delta := by
  obtain ⟨values, hvalues, -⟩ := Option.bind_eq_some_iff.mp h
  obtain ⟨integral, rfl⟩ := integrals_eq_map hvalues
  rw [measureWith_eq hline hvalues] at h
  exact ⟨_, (Option.some.inj h).symm⟩

end Measured

end Shutter

/-! ### Scenes -/

/-- A pair of directions is that of a point before the camera in both frames. -/
structure Views (body0 body1 : Fin 3 → ℝ) (pair : Pixel ℝ × Pixel ℝ) : Prop where
  front : 0 < cameraRay body0 2 ∧ 0 < cameraRay body1 2
  before : pair.1 = perspective (cameraRay body0)
  after : pair.2 = perspective (cameraRay body1)

/-- All pairs are those of fixed points, seen from a body that turns. -/
def TurningScene (delta : Fin 3 → ℝ) (pairs : List (Pixel ℝ × Pixel ℝ)) : Prop :=
  ∃ attitude, Turns delta attitude ∧ ∀ pair ∈ pairs, ∃ point,
    Views (bodyPoint (attitude 0) point) (bodyPoint (attitude 1) point) pair

/-- All pairs are those of fixed points of a plane below, that the body moves along. -/
def SlidingScene (tx ty depth : ℝ) (pairs : List (Pixel ℝ × Pixel ℝ)) : Prop :=
  ∀ pair ∈ pairs, ∃ body, cameraRay body 2 = depth ∧ Views body (body - ![tx, ty, 0]) pair

section Scenes

variable {body0 body1 delta : Fin 3 → ℝ} {pair : Pixel ℝ × Pixel ℝ}

theorem cameraRay_eq (v : Fin 3 → ℝ) : cameraRay v = ![v 1, -v 0, v 2] := by
  ext i
  fin_cases i <;> simp [cameraRay, rBC, vecMul, dotProduct, Fin.sum_univ_three]

theorem bodyRay_eq (p : Pixel ℝ) : bodyRay p = ![-p.2, p.1, 1] := by
  ext i
  fin_cases i <;> simp [bodyRay, rBC, mulVec, dotProduct, Fin.sum_univ_three]

theorem compensatedFlow_eq (angular : Pixel ℝ) : compensatedFlow angular = angular := by
  simp [compensatedFlow, rBC, mulVec, dotProduct, Fin.sum_univ_three]

/-- The ray of a pixel is the point, brought to unit depth. -/
theorem Views.bodyRay_before (h : Views body0 body1 pair) :
    bodyRay pair.1 = (body0 2)⁻¹ • body0 := by
  have hfront := h.front.1
  rw [cameraRay_eq] at hfront
  have hdepth : body0 2 ≠ 0 := ne_of_gt hfront
  rw [h.before, bodyRay_eq, cameraRay_eq]
  ext i
  fin_cases i <;> simp [perspective, hdepth] <;> ring

theorem perspective_smul {c : ℝ} (hc : c ≠ 0) (v : Fin 3 → ℝ) :
    perspective (cameraRay (c • v)) = perspective (cameraRay v) := by
  simp only [perspective, cameraRay_eq, Pi.smul_apply, smul_eq_mul, cons_val, cons_val_zero,
    cons_val_one]
  rw [← mul_neg, mul_div_mul_left _ _ hc, mul_div_mul_left _ _ hc]

/-- A rotation vector that is long enough turns by its length about its axis. -/
theorem rotateVector_eq (hlong : 1 / 10 ^ 12 < √(delta ⬝ᵥ delta)) (v : Fin 3 → ℝ) :
    rotateVector v (-delta) =
      turn ((√(delta ⬝ᵥ delta))⁻¹ • -delta) (√(delta ⬝ᵥ delta)) v := by
  have hangle : (MathOps.sqrt (-delta ⬝ᵥ -delta) : ℝ) = √(delta ⬝ᵥ delta) := by
    rw [neg_dotProduct_neg, sqrt_real]
  rw [rotateVector, hangle, if_pos hlong]
  rfl

theorem rotateVector_short (hshort : √(delta ⬝ᵥ delta) ≤ 1 / 10 ^ 12) (v : Fin 3 → ℝ) :
    rotateVector v (-delta) = v := by
  have hangle : (MathOps.sqrt (-delta ⬝ᵥ -delta) : ℝ) = √(delta ⬝ᵥ delta) := by
    rw [neg_dotProduct_neg, sqrt_real]
  rw [rotateVector, hangle, if_neg hshort.not_gt]

theorem rotateVector_zero (v : Fin 3 → ℝ) : rotateVector v (-0) = v := by
  apply rotateVector_short
  rw [dotProduct_zero, Real.sqrt_zero]
  positivity

/-- The gyro tells where a fixed point is seen after the turn. -/
theorem Views.predicted_turn {attitude : ℝ → Matrix (Fin 3) (Fin 3) ℝ} {point : Fin 3 → ℝ}
    (hturns : Turns delta attitude) (hdelta : delta = 0 ∨ 1 / 10 ^ 12 < √(delta ⬝ᵥ delta))
    (h : Views (bodyPoint (attitude 0) point) (bodyPoint (attitude 1) point) pair) :
    predicted pair.1 delta = pair.2 := by
  have hfront := h.front.1
  rw [cameraRay_eq] at hfront
  have hdepth : (bodyPoint (attitude 0) point 2)⁻¹ ≠ 0 := inv_ne_zero (ne_of_gt hfront)
  rw [predicted, h.bodyRay_before, h.after]
  rcases hdelta with rfl | hlong
  · rw [rotateVector_zero, perspective_smul hdepth, bodyPoint_rest hturns]
  · have hpos : 0 < √(delta ⬝ᵥ delta) := lt_trans (by positivity) hlong
    rw [rotateVector_eq hlong, turn_smul, perspective_smul hdepth, bodyPoint_turn hturns hpos]

theorem Views.sub_slide {tx ty depth : ℝ} {body : Fin 3 → ℝ} (hdepth : cameraRay body 2 = depth)
    (h : Views body (body - ![tx, ty, 0]) pair) :
    pair.2 - predicted pair.1 0 = (-ty / depth, tx / depth) := by
  have hfront := h.front.1
  rw [hdepth] at hfront
  have hbody : body 2 = depth := by
    rw [← hdepth, cameraRay_eq]
    rfl
  rw [predicted, rotateVector_zero, h.bodyRay_before, perspective_smul (by rw [hbody]; positivity),
    h.after, cameraRay_eq, cameraRay_eq]
  simp only [perspective, Pi.sub_apply, cons_val, cons_val_zero, cons_val_one, sub_zero, hbody]
  apply Prod.ext
  · show (body 1 - ty) / depth - body 1 / depth = -ty / depth
    ring
  · show -(body 0 - tx) / depth - -body 0 / depth = tx / depth
    ring

end Scenes

/-! ### Flows -/

/-- A flow with the pairs of pixels that it was made of. -/
structure FlowSample where
  pairs : List (Pixel ℝ × Pixel ℝ)
  compensated : Pixel ℝ
  raw : Pixel ℝ
  centerDelta : Fin 3 → ℝ

def Measured.sample (measured : Measured ℝ) (pairs : List (Pixel ℝ × Pixel ℝ)) : FlowSample :=
  ⟨pairs, measured.compensated, measured.raw, measured.centerDelta⟩

/-- The flow of a frame, if there is one. -/
def FlowResult.sample (result : FlowResult ℝ) : Option FlowSample := do
  let pairs ← result.tracks
  let centerDelta ← result.deltaAngle
  return ⟨pairs, result.pixelFlowCompensated, result.pixelFlowRaw, centerDelta⟩

/-- The turn of the body leaves no flow, so that the autopilot takes off what was added; and
along a plane the flow is the motion over the depth. The rays of a turn are turned unless it
is too short. -/
structure Derotated (undistort : Pixel ℝ → Pixel ℝ) (sample : FlowSample) : Prop where
  turning : sample.centerDelta = 0 ∨
      1 / 10 ^ 12 < √(sample.centerDelta ⬝ᵥ sample.centerDelta) →
    TurningScene sample.centerDelta
        (sample.pairs.map fun pair => (undistort pair.1, undistort pair.2)) →
      sample.compensated = 0 ∧ sample.raw = (sample.centerDelta 0, sample.centerDelta 1) ∧
        -sample.raw + (sample.centerDelta 0, sample.centerDelta 1) = 0
  sliding : sample.centerDelta = 0 → ∀ tx ty depth : ℝ,
    SlidingScene tx ty depth
        (sample.pairs.map fun pair => (undistort pair.1, undistort pair.2)) →
      sample.compensated = (-ty / depth, tx / depth)

/-- The flow of pairs that are turned back by one rotation, with a reduction that finds what is
the same for all features. -/
theorem instantFlow_derotated {undistort : Pixel ℝ → Pixel ℝ}
    {reduce : List (Pixel ℝ) → Pixel ℝ} {pairs : List (Pixel ℝ × Pixel ℝ)} {delta : Fin 3 → ℝ}
    (hne : pairs ≠ [])
    (hreduce : ∀ (residual : List (Pixel ℝ)) (c : Pixel ℝ), residual ≠ [] →
      (∀ r ∈ residual, r = c) → reduce residual = c) :
    Derotated undistort ((instantFlow undistort reduce pairs delta).sample pairs) := by
  have hcompensated (c : Pixel ℝ) (hequal : ∀ pair ∈ pairs,
      undistort pair.2 - predicted (undistort pair.1) delta = c) :
      (instantFlow undistort reduce pairs delta).compensated = c := by
    refine (compensatedFlow_eq _).trans (hreduce _ c (by simpa using hne) ?_)
    simp only [List.mem_map]
    rintro _ ⟨pair, hpair, rfl⟩
    exact hequal pair hpair
  constructor
  case turning =>
    rintro hdelta ⟨attitude, hturns, hviews⟩
    have hzero : (instantFlow undistort reduce pairs delta).compensated = 0 := by
      refine hcompensated 0 ?_
      intro pair hpair
      obtain ⟨point, hpoint⟩ := hviews _ (List.mem_map_of_mem hpair)
      rw [sub_eq_zero]
      exact (hpoint.predicted_turn hturns hdelta).symm
    have hraw : (instantFlow undistort reduce pairs delta).raw = (delta 0, delta 1) := by
      show ((instantFlow undistort reduce pairs delta).compensated.1 + delta 0,
        (instantFlow undistort reduce pairs delta).compensated.2 + delta 1) = _
      rw [hzero, Prod.fst_zero, Prod.snd_zero, zero_add, zero_add]
    refine ⟨hzero, hraw, ?_⟩
    show -(instantFlow undistort reduce pairs delta).raw + (delta 0, delta 1) = 0
    rw [hraw, neg_add_cancel]
  case sliding =>
    intro hrest tx ty depth hslides
    refine hcompensated (-ty / depth, tx / depth) ?_
    intro pair hpair
    obtain ⟨body, hdepth, hpoint⟩ := hslides _ (List.mem_map_of_mem hpair)
    have hsame : delta = 0 := hrest
    rw [hsame]
    exact hpoint.sub_slide hdepth

/-! ### Both frontends -/

section Frontends

variable {imu : ImuHistory ℝ} {previousCenterNs centerNs : ℤ} {measured : Measured ℝ}

theorem Cm2FlowFrontend.measure_derotated {klt : Cm2FlowFrontend ℝ}
    (hline : klt.readout.lineDelayS = 0) {pairs : List (Pixel ℝ × Pixel ℝ)} (hne : pairs ≠ [])
    (h : klt.measure imu previousCenterNs centerNs pairs = some measured) :
    Derotated klt.vision.undistortPoints (measured.sample pairs) := by
  obtain ⟨delta, rfl⟩ := measureWith_instant hline h
  exact instantFlow_derotated hne fun _ _ hresidual hequal => medianPixel_eq hresidual hequal

theorem Cm2SvoFlowFrontend.measure_derotated {svo : Cm2SvoFlowFrontend ℝ}
    (hline : svo.readout.lineDelayS = 0) {tracks : List (SvoTrack ℝ)} (hne : tracks ≠ [])
    (h : svo.measure imu previousCenterNs centerNs tracks = some measured) :
    Derotated svo.vision.undistortPoints
      (measured.sample (tracks.map fun track => (track.p0, track.p1))) := by
  obtain ⟨delta, rfl⟩ := measureWith_instant hline h
  refine instantFlow_derotated (by simpa using hne) ?_
  intro _ _ hresidual hequal
  exact svo.reduce_eq hresidual hequal tracks

theorem sample_measuredResult (dtUs : ℤ) (detected tracked : ℕ)
    (pairs : List (Pixel ℝ × Pixel ℝ)) (errors : List ℝ) (errorPx coverage : ℝ) :
    (measuredResult measured centerNs dtUs detected tracked pairs errors errorPx coverage).sample =
      some (measured.sample pairs) := rfl

/-- The flow of a frame is that of at least eight features. -/
theorem Cm2FlowFrontend.process_measures {klt : Cm2FlowFrontend ℝ}
    {state : FlowState klt.vision.Image} {gray : klt.vision.Image} {firstRowNs : ℤ}
    {sample : FlowSample} (h : (klt.process imu state gray firstRowNs).1.sample = some sample) :
    ∃ pairs previousCenterNs centerNs measured, 8 ≤ pairs.length ∧
      klt.measure imu previousCenterNs centerNs pairs = some measured ∧
        sample = measured.sample pairs := by
  unfold process at h
  dsimp only at h
  split at h
  · cases h
  · unfold flowFrom at h
    dsimp only at h
    split_ifs at h with htime hpoints htracks
    · cases h
    · cases h
    · cases h
    · split at h
      · cases h
      · split_ifs at h with hkept
        · cases h
        · split at h
          · cases h
          · rename_i measured hmeasured
            rw [sample_measuredResult, Option.some.injEq] at h
            refine ⟨_, _, _, measured, ?_, hmeasured, h.symm⟩
            rw [List.length_map]
            exact not_lt.mp hkept

theorem Cm2SvoFlowFrontend.process_measures {svo : Cm2SvoFlowFrontend ℝ}
    {state : SvoState ℝ svo.vision.Environment} {gray : svo.vision.Image} {firstRowNs : ℤ}
    {sample : FlowSample} (h : (svo.process imu state gray firstRowNs).1.sample = some sample) :
    ∃ tracks previousCenterNs centerNs measured, 8 ≤ tracks.length ∧
      svo.measure imu previousCenterNs centerNs tracks = some measured ∧
        sample = measured.sample (tracks.map fun track => (track.p0, track.p1)) := by
  unfold process at h
  dsimp only at h
  split_ifs at h with hstart htime
  · cases h
  · cases h
  · unfold flowOf at h
    dsimp only at h
    split_ifs at h with himu htracks
    · cases h
    · cases h
    · split at h
      · cases h
      · split_ifs at h with hkept
        · cases h
        · split at h
          · cases h
          · rename_i measured hmeasured
            rw [sample_measuredResult, Option.some.injEq] at h
            exact ⟨_, _, _, measured, not_lt.mp hkept, hmeasured, h.symm⟩

/-- Both frontends take the turn of the body out of the flow of any features, and of every
frame. -/
theorem flow_derotation (klt : Cm2FlowFrontend ℝ) (svo : Cm2SvoFlowFrontend ℝ)
    (hklt : klt.readout.lineDelayS = 0) (hsvo : svo.readout.lineDelayS = 0)
    (imu : ImuHistory ℝ) :
    (∀ previousCenterNs centerNs pairs measured, pairs ≠ [] →
      klt.measure imu previousCenterNs centerNs pairs = some measured →
        Derotated klt.vision.undistortPoints (measured.sample pairs)) ∧
    (∀ state gray firstRowNs sample,
      (klt.process imu state gray firstRowNs).1.sample = some sample →
        Derotated klt.vision.undistortPoints sample) ∧
    (∀ previousCenterNs centerNs tracks measured, tracks ≠ [] →
      svo.measure imu previousCenterNs centerNs tracks = some measured →
        Derotated svo.vision.undistortPoints
          (measured.sample (tracks.map fun track => (track.p0, track.p1)))) ∧
    (∀ state gray firstRowNs sample,
      (svo.process imu state gray firstRowNs).1.sample = some sample →
        Derotated svo.vision.undistortPoints sample) := by
  refine ⟨?_, ?_, ?_, ?_⟩
  · intro _ _ pairs measured hne h
    exact Cm2FlowFrontend.measure_derotated hklt hne h
  · intro _ _ _ sample h
    obtain ⟨pairs, _, _, measured, hmany, hmeasured, rfl⟩ :=
      Cm2FlowFrontend.process_measures h
    have hne : pairs ≠ [] := List.length_pos_iff.mp (by omega)
    exact Cm2FlowFrontend.measure_derotated hklt hne hmeasured
  · intro _ _ tracks measured hne h
    exact Cm2SvoFlowFrontend.measure_derotated hsvo hne h
  · intro _ _ _ sample h
    obtain ⟨tracks, _, _, measured, hmany, hmeasured, rfl⟩ :=
      Cm2SvoFlowFrontend.process_measures h
    have hne : tracks ≠ [] := List.length_pos_iff.mp (by omega)
    exact Cm2SvoFlowFrontend.measure_derotated hsvo hne hmeasured

end Frontends

/-! ### A rolling body -/

section Roll

/-- A gyro that reads the same for a tenth of a second. -/
noncomputable def steadyImu (gyro : Fin 3 → ℝ) : ImuHistory ℝ :=
  ⟨5000000000, [(0, gyro), (100000000, gyro)]⟩

/-- Frontends with a perfect shutter, which get pixels in units of the focal length. -/
noncomputable def plainKlt : Cm2FlowFrontend ℝ where
  vision := ⟨Unit, fun _ _ _ => none, fun _ _ _ => [], fun _ => none, id⟩
  readout := ⟨1232, 410, 308, 8, 0⟩

noncomputable def plainSvo : Cm2SvoFlowFrontend ℝ where
  vision := ⟨Unit, Unit, id, fun _ _ _ _ => ([], ()), Unit, fun _ => none, fun _ => id, fun _ => id,
    id, perspective⟩
  readout := ⟨1232, 820, 616, 16, 0⟩

/-- The integral grows with the time. -/
theorem integrals_steadyImu (gyro : Fin 3 → ℝ) {query : List ℤ}
    (h : ∀ q ∈ query, q = 0 ∨ q = 100000000) :
    (steadyImu gyro).integrals query =
      some (query.map fun q => (seconds q : ℝ) • gyro) := by
  have hinside : ¬ ∃ q ∈ query, q < 0 ∨ 100000000 < q := by
    rintro ⟨q, hq, hout⟩
    rcases h q hq with rfl | rfl <;> omega
  have hlength : ¬ (steadyImu gyro).samples.length < 2 := by simp [steadyImu]
  show (if (steadyImu gyro).samples.length < 2 then none
    else if ∃ q ∈ query, q < 0 ∨ 100000000 < q then none
    else some (query.map fun q => ImuHistory.interp (seconds (q - 0))
      (ImuHistory.trapezoids 0 0 (steadyImu gyro).samples))) = _
  rw [if_neg hlength, if_neg hinside]
  congr 1
  apply List.map_congr_left
  intro q hq
  rcases h q hq with rfl | rfl
  · norm_num [steadyImu, ImuHistory.trapezoids, ImuHistory.interp, seconds]
  · norm_num [steadyImu, ImuHistory.trapezoids, ImuHistory.interp, seconds]
    rw [← add_smul]
    norm_num

theorem measure_steadyImu (gyro : Fin 3 → ℝ) {readout : Readout ℝ}
    (hline : readout.lineDelayS = 0) (undistort : Pixel ℝ → Pixel ℝ)
    (reduce : List (Pixel ℝ) → Pixel ℝ) (pairs : List (Pixel ℝ × Pixel ℝ)) :
    measureWith readout undistort reduce (steadyImu gyro) 0 100000000 pairs =
      some (instantFlow undistort reduce pairs ((1 / 10 : ℝ) • gyro)) := by
  have hdelta : (seconds 100000000 : ℝ) • gyro - (seconds 0 : ℝ) • gyro = (1 / 10 : ℝ) • gyro := by
    norm_num [seconds]
  have hquery : ∀ q ∈ pairs.map (fun pair => readout.rowNs 0 pair.1) ++
      pairs.map (fun pair => readout.rowNs 100000000 pair.2) ++ [0, 100000000],
      q = 0 ∨ q = 100000000 := by
    intro q hq
    simp only [rowNs_eq hline, List.mem_append, List.mem_map, List.mem_cons, List.not_mem_nil,
      or_false] at hq
    rcases hq with (⟨_, _, rfl⟩ | ⟨_, _, rfl⟩) | hq
    · exact Or.inl rfl
    · exact Or.inr rfl
    · exact hq
  have hvalues := integrals_steadyImu gyro hquery
  rw [← hdelta]
  exact @measureWith_eq readout undistort reduce _ 0 100000000 pairs hline
    (fun q => (seconds q : ℝ) • gyro) hvalues

/-- The attitude of a body that rolls. -/
noncomputable def rollAttitude (angle s : ℝ) : Matrix (Fin 3) (Fin 3) ℝ :=
  !![1, 0, 0; 0, Real.cos (s * angle), -Real.sin (s * angle);
    0, Real.sin (s * angle), Real.cos (s * angle)]

theorem turns_rollAttitude (angle : ℝ) : Turns ![angle, 0, 0] (rollAttitude angle) := by
  constructor
  case start =>
    have hone : rollAttitude angle 0 = 1 := by
      ext i j
      fin_cases i <;> fin_cases j <;> simp [rollAttitude]
    rw [hone]
    exact one_mem _
  case kinematics =>
    intro s _ i j
    have hangle : HasDerivAt (fun s : ℝ => s * angle) angle s := by
      simpa using (hasDerivAt_id s).mul_const angle
    have hcos := hangle.cos
    have hsin := hangle.sin
    have hproduct : rollAttitude angle s * crossMatrix ![angle, 0, 0] =
        !![0, 0, 0; 0, -Real.sin (s * angle) * angle, -(Real.cos (s * angle) * angle);
          0, Real.cos (s * angle) * angle, -Real.sin (s * angle) * angle] := by
      ext i j
      fin_cases i <;> fin_cases j <;>
        simp [rollAttitude, crossMatrix, mul_apply, Fin.sum_univ_three]
    rw [hproduct]
    fin_cases i <;> fin_cases j
    · exact hasDerivAt_const s 1
    · exact hasDerivAt_const s 0
    · exact hasDerivAt_const s 0
    · exact hasDerivAt_const s 0
    · exact hcos
    · exact hsin.neg
    · exact hasDerivAt_const s 0
    · exact hsin
    · exact hcos

/-- What was straight below moves to the right of a body that rolls. -/
noncomputable def rollPair (angle : ℝ) : Pixel ℝ × Pixel ℝ := ((0, 0), (Real.tan angle, 0))

theorem turningScene_roll {angle : ℝ} (hangle : |angle| ≤ 1) :
    TurningScene ![angle, 0, 0] [rollPair angle] := by
  refine ⟨rollAttitude angle, turns_rollAttitude angle, ?_⟩
  intro pair hpair
  rw [List.mem_singleton.mp hpair]
  have hbefore : bodyPoint (rollAttitude angle 0) ![0, 0, 1] = ![0, 0, 1] := by
    ext i
    fin_cases i <;> simp [bodyPoint, rollAttitude, mulVec, dotProduct, Fin.sum_univ_three]
  have hafter : bodyPoint (rollAttitude angle 1) ![0, 0, 1] =
      ![0, Real.sin angle, Real.cos angle] := by
    ext i
    fin_cases i <;> simp [bodyPoint, rollAttitude, mulVec, dotProduct, Fin.sum_univ_three]
  refine ⟨![0, 0, 1], ?_⟩
  rw [hbefore, hafter]
  constructor
  case front =>
    rw [cameraRay_eq, cameraRay_eq]
    exact ⟨zero_lt_one, Real.cos_pos_of_le_one hangle⟩
  case before =>
    rw [cameraRay_eq]
    simp [perspective, rollPair]
  case after =>
    rw [cameraRay_eq]
    simp [perspective, rollPair, Real.tan_eq_sin_div_cos]

/-- The feature of the rolling body, as the tracker gives it. -/
noncomputable def rollTrack (angle : ℝ) : SvoTrack ℝ :=
  ⟨0, (rollPair angle).1, (rollPair angle).1, (rollPair angle).2, 1, 1, 1, 1⟩

theorem tenth_smul (angle : ℝ) : (1 / 10 : ℝ) • ![10 * angle, 0, 0] = ![angle, 0, 0] := by
  ext i
  fin_cases i <;> simp

theorem sqrt_dot_roll {angle : ℝ} (hangle : 0 ≤ angle) :
    √(![angle, 0, 0] ⬝ᵥ ![angle, 0, 0]) = angle := by
  have hdot : ![angle, 0, 0] ⬝ᵥ ![angle, 0, 0] = angle * angle := by
    rw [vec3_dotProduct]
    simp
  rw [hdot, Real.sqrt_mul_self hangle]

/-- A body that rolls by a tenth: no flow is left, and the roll is added again. -/
theorem flow_derotation_roll :
    (∃ measured, plainKlt.measure (steadyImu ![10 * (1 / 10), 0, 0]) 0 100000000
        [rollPair (1 / 10)] = some measured ∧
      measured.compensated = 0 ∧ measured.raw = (1 / 10, 0)) ∧
    (∃ measured, plainSvo.measure (steadyImu ![10 * (1 / 10), 0, 0]) 0 100000000
        [rollTrack (1 / 10)] = some measured ∧
      measured.compensated = 0 ∧ measured.raw = (1 / 10, 0)) := by
  obtain ⟨hklt, -, hsvo, -⟩ := flow_derotation plainKlt plainSvo rfl rfl
    (steadyImu ![10 * (1 / 10), 0, 0])
  have hlong : (1 : ℝ) / 10 ^ 12 < √(![1 / 10, 0, 0] ⬝ᵥ ![1 / 10, 0, 0]) := by
    rw [sqrt_dot_roll (by positivity)]
    norm_num
  have hscene : TurningScene ![1 / 10, 0, 0] [rollPair (1 / 10)] :=
    turningScene_roll (by norm_num [abs_of_pos])
  refine ⟨⟨_, measure_steadyImu _ rfl id medianPixel _, ?_⟩,
    ⟨_, measure_steadyImu _ rfl id
      (fun residual => plainSvo.reduce residual [rollTrack (1 / 10)]) _, ?_⟩⟩
  · rw [tenth_smul]
    have hflow := (hklt 0 100000000 [rollPair (1 / 10)] _ (List.cons_ne_nil _ _)
      (measure_steadyImu _ rfl id medianPixel _)).turning
    simp only [Measured.sample, instantFlow, tenth_smul] at hflow
    obtain ⟨hzero, hraw, -⟩ := hflow (Or.inr hlong) hscene
    exact ⟨hzero, hraw⟩
  · rw [tenth_smul]
    have hflow := (hsvo 0 100000000 [rollTrack (1 / 10)] _ (List.cons_ne_nil _ _)
      (measure_steadyImu _ rfl id
        (fun residual => plainSvo.reduce residual [rollTrack (1 / 10)]) _)).turning
    simp only [Measured.sample, instantFlow, tenth_smul] at hflow
    obtain ⟨hzero, hraw, -⟩ := hflow (Or.inr hlong) hscene
    exact ⟨hzero, hraw⟩

/-- A turn of less than a billionth of a milliradian is not taken out. -/
theorem short_turn_left :
    ¬ ∀ (klt : Cm2FlowFrontend ℝ) (imu : ImuHistory ℝ) (previousCenterNs centerNs : ℤ)
      (pairs : List (Pixel ℝ × Pixel ℝ)) (measured : Measured ℝ),
      klt.readout.lineDelayS = 0 → pairs ≠ [] →
      klt.measure imu previousCenterNs centerNs pairs = some measured →
      TurningScene measured.centerDelta (pairs.map fun pair =>
        (klt.vision.undistortPoints pair.1, klt.vision.undistortPoints pair.2)) →
      measured.compensated = 0 := by
  intro hall
  have hline : plainKlt.readout.lineDelayS = 0 := rfl
  have hmeasured := measure_steadyImu ![10 * (1 / 10 ^ 13), 0, 0] hline id medianPixel
    [rollPair (1 / 10 ^ 13)]
  rw [tenth_smul] at hmeasured
  have hscene : TurningScene ![1 / 10 ^ 13, 0, 0] [rollPair (1 / 10 ^ 13)] := by
    apply turningScene_roll
    rw [abs_of_pos (by positivity)]
    norm_num
  have hzero := hall plainKlt (steadyImu ![10 * (1 / 10 ^ 13), 0, 0]) 0 100000000
    [rollPair (1 / 10 ^ 13)] _ rfl (List.cons_ne_nil _ _) hmeasured hscene
  have hshort : √(![(1 : ℝ) / 10 ^ 13, 0, 0] ⬝ᵥ ![1 / 10 ^ 13, 0, 0]) ≤ 1 / 10 ^ 12 := by
    rw [sqrt_dot_roll (by positivity)]
    norm_num
  have hpredicted : predicted (rollPair (1 / 10 ^ 13)).1 ![1 / 10 ^ 13, 0, 0] = 0 := by
    rw [predicted, rotateVector_short hshort, bodyRay_eq, cameraRay_eq]
    simp [perspective, rollPair]
  have hleft : (instantFlow id medianPixel [rollPair (1 / 10 ^ 13)]
      ![1 / 10 ^ 13, 0, 0]).compensated = (rollPair (1 / 10 ^ 13)).2 := by
    refine (compensatedFlow_eq _).trans (medianPixel_eq (List.cons_ne_nil _ _) ?_)
    intro r hr
    obtain rfl := List.mem_singleton.mp hr
    show (rollPair (1 / 10 ^ 13)).2 - predicted (rollPair (1 / 10 ^ 13)).1 _ = _
    rw [hpredicted, sub_zero]
  rw [hleft] at hzero
  have htan : 0 < Real.tan (1 / 10 ^ 13) := by
    apply Real.tan_pos_of_pos_of_lt_pi_div_two (by positivity)
    have hpi := Real.pi_gt_three
    norm_num
    linarith
  exact htan.ne' (congrArg Prod.fst hzero)

end Roll

end Mission10.Sensing.Flow
