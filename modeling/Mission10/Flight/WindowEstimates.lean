import Mission10.Flight.WindowSolution
import Mission10.Library.Runs

/-!
# The estimate of a noise-free window

`_solve_window` on a window of exact ranges with exact solvers. With motion in two
dimensions it returns the true position and no alternate. A straight motion leaves the
true position and its mirror image in the line of motion. Motion below the numerical
floor is reported as unobservable.
-/
namespace Mission10.Flight

set_option linter.unusedSectionVars false

open Engine.MathOps Matrix LeastSquares

/-! ### The solution of a window -/

/-- The factors that the estimator gets for its window. -/
noncomputable def windowFactors (np : LinearSolvers ℝ) (samples : List (RangeMotionSample ℝ)) :
    SingularFactors ℝ (equations (window samples)).length :=
  np.svd _ (coefficients (equations (window samples)))

/-- The displacements of the samples lie on one line. -/
def Straight (samples : List (RangeMotionSample ℝ)) : Prop :=
  Collinear ℝ {d : Vector2 ℝ | ∃ s ∈ samples, s.displacement = d}

/-- A direction of length one that the samples move along. -/
structure MovesAlong (u : Vector2 ℝ) (samples : List (RangeMotionSample ℝ)) : Prop where
  unit : u ⬝ᵥ u = 1
  along : ∀ s ∈ samples, ∀ t ∈ samples, ∃ c : ℝ, s.displacement - t.displacement = c • u

/-- A window with enough samples and motion, whose ranges are the distances of a peer
that was at `start` before the first displacement. -/
structure NoiseFree (np : LinearSolvers ℝ) (estimator : RangeHistoryRelativeEstimator ℝ)
    (start : Vector2 ℝ) (latest : RangeMotionSample ℝ) : Prop where
  svd : np.ExactSvd (equations (window estimator.samples))
  count : estimator.minSamples ≤ estimator.samples.length
  last : estimator.samples.getLast? = some latest
  ranges : ∀ s ∈ estimator.samples, s.rangeM = norm2 (start + s.displacement)
  baseline : estimator.minBaselineM ≤ baseline (window estimator.samples)

/-- What an estimate says about the true position. A window whose motion is below the
numerical floor is reported as unobservable. -/
structure Locates (np : LinearSolvers ℝ) (estimator : RangeHistoryRelativeEstimator ℝ)
    (truth : Vector2 ℝ) (estimate : RelativeEstimate ℝ) : Prop where
  unique : 1 / 10 ^ 9 < (windowFactors np estimator.samples).top →
    estimator.minObservability ≤ (windowFactors np estimator.samples).observability →
    estimate.position = some truth ∧ estimate.alternatePosition = none
  straight : Straight estimator.samples → 1 / 10 ^ 9 < spread (window estimator.samples) →
    ∃ u, MovesAlong u estimator.samples ∧ Mirrored truth u estimate
  still : (windowFactors np estimator.samples).top ≤ 1 / 10 ^ 9 ∨
      Straight estimator.samples ∧ spread (window estimator.samples) ≤ 1 / 10 ^ 9 →
    estimate.status = .unobservable ∧ estimate.position = none

section Windows

variable {np : LinearSolvers ℝ} {self : RangeHistoryRelativeEstimator ℝ}
  {samples : List (RangeMotionSample ℝ)} {start : Vector2 ℝ} {last : RangeMotionSample ℝ}

theorem window_head : ∀ w ∈ (window samples).head?, w.1 = 0 := by
  cases samples with
  | nil => simp [window]
  | cons first rest =>
    intro w hw
    rw [window, List.map_cons, List.head?_cons, Option.mem_some_iff] at hw
    rw [← hw]
    exact sub_self _

theorem mem_window {first : RangeMotionSample ℝ} {rest : List (RangeMotionSample ℝ)}
    {w : Vector2 ℝ × ℝ} : w ∈ window (first :: rest) ↔
      ∃ s ∈ first :: rest, (s.displacement - first.displacement, s.rangeM) = w :=
  List.mem_map

theorem le_foldl_max (values : List ℝ) (x : ℝ) :
    x ≤ values.foldl max x ∧ ∀ v ∈ values, v ≤ values.foldl max x := by
  induction values generalizing x with
  | nil => simp
  | cons v values ih =>
    obtain ⟨hstart, hrest⟩ := ih (max x v)
    refine ⟨(le_max_left x v).trans hstart, fun w hw => ?_⟩
    rcases List.mem_cons.mp hw with rfl | hmem
    · exact (le_max_right x w).trans hstart
    · exact hrest w hmem

theorem norm2_le_baseline {history : List (Vector2 ℝ × ℝ)} {w : Vector2 ℝ × ℝ}
    (h : w ∈ history) : norm2 w.1 ≤ baseline history :=
  (le_foldl_max _ 0).2 _ (List.mem_map_of_mem h)

/-- The ranges of the window, from the start of the window. -/
theorem exactRanges_window {first : RangeMotionSample ℝ} {rest : List (RangeMotionSample ℝ)}
    (h : ∀ s ∈ first :: rest, s.rangeM = norm2 (start + s.displacement)) :
    ExactRanges (start + first.displacement) (window (first :: rest)) := by
  intro w hw
  obtain ⟨s, hs, rfl⟩ := mem_window.mp hw
  show s.rangeM = norm2 (start + first.displacement + (s.displacement - first.displacement))
  rw [h s hs, add_assoc, add_sub_cancel]

/-- Across a straight motion there is a direction that the rows do not see. -/
theorem Straight.kernel {first : RangeMotionSample ℝ} {rest : List (RangeMotionSample ℝ)}
    (h : Straight (first :: rest)) :
    ∃ y : Vector2 ℝ, y ≠ 0 ∧ ∀ w ∈ window (first :: rest), w.1 ⬝ᵥ y = 0 := by
  have hfirst : first.displacement ∈
      {d : Vector2 ℝ | ∃ s ∈ first :: rest, s.displacement = d} :=
    ⟨first, List.mem_cons_self .., rfl⟩
  obtain ⟨v, hv⟩ := (collinear_iff_of_mem hfirst).mp h
  have hrows {y : Vector2 ℝ} (hy : v ⬝ᵥ y = 0) :
      ∀ w ∈ window (first :: rest), w.1 ⬝ᵥ y = 0 := by
    intro w hw
    obtain ⟨s, hs, rfl⟩ := mem_window.mp hw
    obtain ⟨c, hc⟩ := hv s.displacement ⟨s, hs, rfl⟩
    show (s.displacement - first.displacement) ⬝ᵥ y = 0
    rw [hc, vadd_eq_add, add_sub_cancel_right, smul_dotProduct, hy, smul_zero]
  by_cases hzero : v = 0
  · refine ⟨![1, 0], fun h => one_ne_zero (congrFun h 0), hrows ?_⟩
    rw [hzero, zero_dotProduct]
  · refine ⟨perpendicular v, fun h => hzero ?_, hrows (perpendicular_dotProduct v)⟩
    have hnorth : -v 1 = 0 := congrFun h 0
    have heast : v 0 = 0 := congrFun h 1
    ext i
    fin_cases i
    · exact heast
    · exact neg_eq_zero.mp hnorth

/-- The steps of `_solve_window` up to the first singular value. -/
theorem solveWindow_eq (h : NoiseFree np self start last) :
    ∃ first rest, self.samples = first :: rest ∧
      (self.solveWindow np = .ok (self.statusOnly .unobservable 0) ∧
          (windowFactors np self.samples).top ≤ 1 / 10 ^ 9 ∨
        ∃ hcount : 0 < min (equations (window self.samples)).length 2,
          1 / 10 ^ 9 < (windowFactors np self.samples).singular ⟨0, hcount⟩ ∧
          self.solveWindow np = .ok
            (if (windowFactors np self.samples).observability < self.minObservability then
              self.straightEstimate np first last
                ((windowFactors np self.samples).vh ⟨0, hcount⟩)
                (windowFactors np self.samples).observability
            else self.uniqueEstimate np first last
              (windowFactors np self.samples).observability)) := by
  have hsamples := h.last
  have hcount := h.count
  have hbaseline := h.baseline
  obtain ⟨samples, heq⟩ : ∃ samples, samples = self.samples := ⟨_, rfl⟩
  rw [← heq] at hsamples hcount hbaseline ⊢
  cases samples with
  | nil => cases hsamples
  | cons first rest =>
    have hlast : (first :: rest).getLast (List.cons_ne_nil _ _) = last := by
      rw [List.getLast?_eq_getLast_of_ne_nil (List.cons_ne_nil _ _)] at hsamples
      exact Option.some.inj hsamples
    refine ⟨first, rest, rfl, ?_⟩
    simp only [RangeHistoryRelativeEstimator.solveWindow]
    rw [← heq, if_neg hcount.not_gt]
    simp only [if_neg hbaseline.not_gt, hlast]
    by_cases hrows : 0 < min (equations (window (first :: rest))).length 2
    · rw [dif_pos hrows]
      by_cases hlow : (windowFactors np (first :: rest)).singular ⟨0, hrows⟩ ≤ 1 / 10 ^ 9
      · left
        refine ⟨if_pos hlow, ?_⟩
        rw [SingularFactors.top, dif_pos hrows]
        exact hlow
      · right
        exact ⟨hrows, lt_of_not_ge hlow, (if_neg hlow).trans (apply_ite Except.ok ..).symm⟩
    · left
      rw [dif_neg hrows]
      refine ⟨rfl, ?_⟩
      rw [SingularFactors.top, dif_neg hrows]
      positivity

theorem movesAlong_of_window {u : Vector2 ℝ} {first : RangeMotionSample ℝ}
    {rest : List (RangeMotionSample ℝ)} (hu : u ⬝ᵥ u = 1)
    (h : ∀ w ∈ window (first :: rest), w.1 = (w.1 ⬝ᵥ u) • u) : MovesAlong u (first :: rest) := by
  refine ⟨hu, fun s hs t ht => ?_⟩
  have hs' : s.displacement - first.displacement = _ := h _ (mem_window.mpr ⟨s, hs, rfl⟩)
  have ht' : t.displacement - first.displacement = _ := h _ (mem_window.mpr ⟨t, ht, rfl⟩)
  refine ⟨(s.displacement - first.displacement) ⬝ᵥ u -
    (t.displacement - first.displacement) ⬝ᵥ u, ?_⟩
  rw [sub_smul, ← hs', ← ht', sub_sub_sub_cancel_right]

/-- The first right factor of a straight window. -/
theorem Straight.direction {first : RangeMotionSample ℝ} {rest : List (RangeMotionSample ℝ)}
    (h : Straight samples) (hsamples : samples = first :: rest)
    (hsvd : np.ExactSvd (equations (window samples)))
    (hcount : 0 < min (equations (window samples)).length 2)
    (hpositive : 0 < (windowFactors np samples).singular ⟨0, hcount⟩) :
    ∃ u, (windowFactors np samples).vh ⟨0, hcount⟩ = u ∧ MovesAlong u samples ∧
      ∀ w ∈ window samples, w.1 = (w.1 ⬝ᵥ u) • u := by
  subst hsamples
  obtain ⟨y, hne, hrows⟩ := h.kernel
  have hkernel := kernel_iff.mpr (along_equations (P := fun v => v ⬝ᵥ y = 0) hrows)
  obtain ⟨hunit, hfactor⟩ := first_factor_along hsvd hcount hpositive hne hkernel
  have halong : ∀ w ∈ window (first :: rest), w.1 = (w.1 ⬝ᵥ _) • _ :=
    fun w hw => hfactor w.1 (hrows w hw)
  exact ⟨_, rfl, movesAlong_of_window hunit halong, halong⟩

theorem Straight.observability {first : RangeMotionSample ℝ} {rest : List (RangeMotionSample ℝ)}
    (h : Straight (first :: rest)) (hsvd : np.ExactSvd (equations (window (first :: rest)))) :
    (windowFactors np (first :: rest)).observability = 0 := by
  obtain ⟨y, hne, hrows⟩ := h.kernel
  exact observability_eq_zero hsvd hne
    (kernel_iff.mpr (along_equations (P := fun v => v ⬝ᵥ y = 0) hrows))

/-- A straight motion that is long enough for the sum is long enough for the first
singular value. -/
theorem Straight.top {first : RangeMotionSample ℝ} {rest : List (RangeMotionSample ℝ)}
    (h : Straight (first :: rest)) (hsvd : np.ExactSvd (equations (window (first :: rest))))
    (hspread : 1 / 10 ^ 9 < spread (window (first :: rest))) :
    1 / 10 ^ 9 < (windowFactors np (first :: rest)).top := by
  obtain ⟨y, hne, hrows⟩ := h.kernel
  have hkernel := kernel_iff.mpr (along_equations (P := fun v => v ⬝ᵥ y = 0) hrows)
  have hsystem : 1 / 10 ^ 9 < spread (equations (window (first :: rest))) := by
    rw [spread_equations window_head]
    exact hspread
  obtain ⟨hcount, hpositive, hsquare⟩ :=
    top_sq hsvd (lt_trans (by positivity) hsystem) hne hkernel
  rw [SingularFactors.top, dif_pos hcount]
  by_contra hlow
  have hbound : (windowFactors np (first :: rest)).singular ⟨0, hcount⟩ ^ 2 ≤
      (1 / 10 ^ 9) ^ 2 := pow_le_pow_left₀ hpositive.le (le_of_not_gt hlow) 2
  have hfloor : ((1 : ℝ) / 10 ^ 9) ^ 2 < 1 / 10 ^ 9 := by norm_num
  exact absurd (hsquare ▸ hsystem) (hbound.trans hfloor.le).not_gt

/-- The branch for a straight history on a straight window. -/
theorem NoiseFree.straightEstimate (h : NoiseFree np self start last)
    {first : RangeMotionSample ℝ} {rest : List (RangeMotionSample ℝ)}
    (hsamples : self.samples = first :: rest) (hstraight : Straight self.samples)
    (hcount : 0 < min (equations (window self.samples)).length 2)
    (hpositive : 0 < (windowFactors np self.samples).singular ⟨0, hcount⟩)
    (observability : ℝ) :
    ∃ u, (windowFactors np self.samples).vh ⟨0, hcount⟩ = u ∧ MovesAlong u self.samples ∧
      (1 / 10 ^ 9 < spread (window self.samples) → Mirrored (start + last.displacement) u
        (self.straightEstimate np first last u observability)) ∧
      (spread (window self.samples) ≤ 1 / 10 ^ 9 →
        self.straightEstimate np first last u observability =
          self.statusOnly .unobservable observability) := by
  have hsvd := h.svd
  have hranges := h.ranges
  have hmem := List.mem_of_getLast? h.last
  obtain ⟨u, hu, hmoves, halong⟩ := hstraight.direction hsamples h.svd hcount hpositive
  have hexact : ExactRanges (start + first.displacement) (window self.samples) := by
    rw [hsamples] at hranges ⊢
    exact exactRanges_window hranges
  have hlast : last.displacement - first.displacement =
      ((last.displacement - first.displacement) ⬝ᵥ u) • u := by
    rw [hsamples] at hmem halong
    exact halong _ (mem_window.mpr ⟨last, hmem, rfl⟩)
  have hfirst := hranges first (hsamples ▸ List.mem_cons_self ..)
  refine ⟨u, hu, hmoves, fun hspread => ?_, fun hspread => ?_⟩
  · have htruth : start + last.displacement =
        start + first.displacement + (last.displacement - first.displacement) := by abel
    rw [htruth]
    exact RangeHistoryRelativeEstimator.straightEstimate_mirrored hmoves.unit halong hlast
      window_head hexact hfirst hspread
  · apply RangeHistoryRelativeEstimator.straightEstimate_short
    rw [projected_self hmoves.unit (along_equations (P := fun v => v = (v ⬝ᵥ u) • u) halong),
      spread_equations window_head]
    exact hspread

end Windows

/-- With exact solvers and a positive threshold every noise-free window is located. With
motion in two dimensions the position is the true one and there is no alternate, and a
straight motion leaves the true position and its mirror image. -/
theorem solveWindow_locates {np : LinearSolvers ℝ} (hnp : np.ExactLstsq)
    {self : RangeHistoryRelativeEstimator ℝ} (hthreshold : 0 < self.minObservability)
    {start : Vector2 ℝ} {last : RangeMotionSample ℝ} (h : NoiseFree np self start last) :
    ∃ estimate, self.solveWindow np = .ok estimate ∧
      Locates np self (start + last.displacement) estimate := by
  obtain ⟨first, rest, hsamples, hcases⟩ := solveWindow_eq h
  have hsvd := h.svd
  have hexact : ExactRanges (start + first.displacement) (window self.samples) := by
    rw [hsamples]
    exact exactRanges_window (hsamples ▸ h.ranges)
  have htruth : start + last.displacement =
      start + first.displacement + (last.displacement - first.displacement) := by abel
  rcases hcases with ⟨hsolved, hlow⟩ | ⟨hcount, hhigh, hsolved⟩
  · refine ⟨_, hsolved, ⟨fun htop => absurd htop hlow.not_gt, fun hstraight hspread => ?_,
      fun _ => ⟨rfl, rfl⟩⟩⟩
    rw [hsamples] at hstraight hspread hsvd hlow
    exact absurd (hstraight.top hsvd hspread) hlow.not_gt
  · have htop : (windowFactors np self.samples).top =
        (windowFactors np self.samples).singular ⟨0, hcount⟩ := dif_pos hcount
    have hpositive : 0 < (windowFactors np self.samples).singular ⟨0, hcount⟩ :=
      lt_trans (by positivity) hhigh
    refine ⟨_, hsolved, ?_⟩
    by_cases hratio :
        (windowFactors np self.samples).observability < self.minObservability
    · rw [if_pos hratio]
      refine ⟨fun _ hratio' => absurd hratio hratio'.not_gt, fun hstraight hspread => ?_, ?_⟩
      · obtain ⟨u, hu, hmoves, hmirrored, -⟩ := h.straightEstimate hsamples hstraight hcount
          hpositive (windowFactors np self.samples).observability
        rw [hu]
        exact ⟨u, hmoves, hmirrored hspread⟩
      · rintro (hlow | ⟨hstraight, hspread⟩)
        · rw [htop] at hlow
          exact absurd hlow hhigh.not_ge
        · obtain ⟨u, hu, -, -, hshort⟩ := h.straightEstimate hsamples hstraight hcount
            hpositive (windowFactors np self.samples).observability
          rw [hu, hshort hspread]
          exact ⟨rfl, rfl⟩
    · rw [if_neg hratio]
      have hobservable := hthreshold.trans_le (le_of_not_gt hratio)
      have hbent : ¬ Straight self.samples := by
        intro hstraight
        rw [hsamples] at hstraight hsvd hobservable
        rw [hstraight.observability hsvd] at hobservable
        exact lt_irrefl _ hobservable
      refine ⟨fun _ _ => ⟨?_, rfl⟩, fun hstraight => absurd hstraight hbent, ?_⟩
      · rw [htruth]
        exact RangeHistoryRelativeEstimator.uniqueEstimate_locates hnp
          (fun y hy => injective_of_observable hsvd hobservable hy) window_head hexact
      · rintro (hlow | ⟨hstraight, -⟩)
        · rw [htop] at hlow
          exact absurd hlow hhigh.not_ge
        · exact absurd hstraight hbent

/-! ### Runs of exact measurements -/

namespace RangeHistoryRelativeEstimator

variable {np : LinearSolvers ℝ} {self next : RangeHistoryRelativeEstimator ℝ} {start : Vector2 ℝ}

/-- The ranges in the window are the distances of a peer that was at `start`. -/
def Exact (start : Vector2 ℝ) (estimator : RangeHistoryRelativeEstimator ℝ) : Prop :=
  ∀ s ∈ estimator.samples, s.rangeM = norm2 (start + s.displacement)

/-- A call brings the distance at the displacement that the estimator reaches by it. -/
def Measures (start : Vector2 ℝ) (estimator : RangeHistoryRelativeEstimator ℝ)
    (call : RangeCall ℝ) : Prop :=
  ∀ next, estimator.recordSample call.timeS call.rangeM
      (call.peerVelocity - call.ownVelocity) = .ok next →
    call.rangeM = norm2 (start + next.displacement)

theorem exact_keepSample (h : Exact start self) {timeS rangeM : ℝ}
    {relVelocity displacement : Vector2 ℝ} {ekf : Option (RelativePositionEKF ℝ)}
    (hrange : rangeM = norm2 (start + displacement)) :
    Exact start (self.keepSample timeS rangeM relVelocity displacement ekf) := by
  intro s hs
  have hmem := (List.dropWhile_suffix _).subset hs
  rcases List.mem_append.mp hmem with hold | hnew
  · exact h s hold
  · obtain rfl := List.mem_singleton.mp hnew
    exact hrange

theorem exact_recordSample (h : Exact start self) {timeS rangeM : ℝ} {relVelocity : Vector2 ℝ}
    (hok : self.recordSample timeS rangeM relVelocity = .ok next)
    (hrange : rangeM = norm2 (start + next.displacement)) : Exact start next := by
  simp only [recordSample] at hok
  split_ifs at hok with hpositive
  cases hbefore : self.lastTime with
  | none =>
    simp only [hbefore] at hok
    obtain rfl := Except.ok.inj hok
    exact exact_keepSample h hrange
  | some before =>
    simp only [hbefore] at hok
    split_ifs at hok
    obtain rfl := Except.ok.inj hok
    exact exact_keepSample h hrange

@[simp] theorem adoptBatch_samples (batch : RelativeEstimate ℝ) :
    (self.adoptBatch np batch).samples = self.samples := by
  simp only [adoptBatch]
  split
  · split_ifs <;> rfl
  · rfl

@[simp] theorem publish_samples (rangeM : ℝ) (relVelocity : Vector2 ℝ)
    (batch : RelativeEstimate ℝ) :
    (self.publish np rangeM relVelocity batch).samples = self.samples := by
  simp only [publish]
  split
  · rfl
  · split_ifs <;> rfl

theorem exact_feed {call : RangeCall ℝ} (h : Exact start self) (hcall : Measures start self call)
    (hfeed : self.feed np call = some next) : Exact start next := by
  obtain rfl := Option.some.inj hfeed
  cases hrecord : self.recordSample call.timeS call.rangeM
      (call.peerVelocity - call.ownVelocity) with
  | error e =>
    simp only [addSample, hrecord]
    exact h
  | ok kept =>
    have hkept := exact_recordSample h hrecord (hcall kept hrecord)
    simp only [addSample, hrecord]
    cases kept.solveWindow np with
    | error e => exact hkept
    | ok batch =>
      intro s hs
      rw [publish_samples, adoptBatch_samples] at hs
      exact hkept s hs

/-- Fed with exact measurements the window keeps exact ranges, in every run from a new
estimator. -/
theorem exact_of_run (h : Exact start self) {calls : List (RangeCall ℝ)}
    (hcalls : Runs.Along (feed np) (Measures start) self calls)
    (hrun : Runs.run (feed np) self calls = some next) : Exact start next :=
  Runs.run_invariant_along (feed np) (Exact start) (Measures start)
    (fun _ _ _ hs hcall hstep => exact_feed hs hcall hstep) h hcalls hrun

theorem exact_new (start : Vector2 ℝ) (windowS rangeNoiseStd velocityNoiseStd : ℝ)
    (minSamples : ℤ) (minBaselineM minObservability trackingRadius95M : ℝ) :
    Exact start (new windowS rangeNoiseStd velocityNoiseStd minSamples minBaselineM
      minObservability trackingRadius95M) := by
  intro s hs
  cases hs

end RangeHistoryRelativeEstimator

/-! ### Windows on a bench -/

/-- Solvers for matrices with orthogonal columns, the longer one first. -/
noncomputable def columnSolvers : LinearSolvers ℝ where
  svd m A :=
    { singular := fun l => √(∑ i, A i (Fin.castLE (min_le_right m 2) l) ^ 2)
      vh := of fun l j => if Fin.castLE (min_le_right m 2) l = j then 1 else 0 }
  lstsq _ A b := LeastSquares.solution A b
  pinv M := M⁻¹
  eigvalsh M :=
    ![(M 0 0 + M 1 1 - √((M 0 0 - M 1 1) ^ 2 + 4 * M 0 1 ^ 2)) / 2,
      (M 0 0 + M 1 1 + √((M 0 0 - M 1 1) ^ 2 + 4 * M 0 1 ^ 2)) / 2]

theorem columnSolvers_lstsq : columnSolvers.ExactLstsq :=
  fun _ A b => isLeastSquares_solution A b

theorem columnSolvers_svd_one (a c : ℝ) : columnSolvers.ExactSvd [(![a, 0], c)] := by
  have hone : Subsingleton (Fin (min 1 2)) := inferInstanceAs (Subsingleton (Fin 1))
  refine ⟨fun l => Real.sqrt_nonneg _, fun i j _ => ?_, ?_, fun y => ?_⟩
  · rw [hone.elim i j]
  · ext i j
    rw [hone.elim i ⟨0, by decide⟩, hone.elim j ⟨0, by decide⟩, one_apply_eq]
    show ∑ k : Fin 2, (if (0 : Fin 2) = k then (1 : ℝ) else 0) *
      (if (0 : Fin 2) = k then 1 else 0) = 1
    simp
  · show ∑ i : Fin 1, (∑ k : Fin 2, ![a, 0] k * y k) * (∑ k : Fin 2, ![a, 0] k * y k) =
      ∑ l : Fin 1, (√(∑ i : Fin 1, ![a, 0] 0 ^ 2) *
        ∑ k : Fin 2, (if (0 : Fin 2) = k then (1 : ℝ) else 0) * y k) ^ 2
    simp [mul_pow, Real.sq_sqrt (sq_nonneg a)]
    ring

theorem columnSolvers_singular_two (a b c d : ℝ) :
    (columnSolvers.svd 2 (coefficients [(![a, 0], c), (![0, b], d)])).singular =
      ![√(a ^ 2), √(b ^ 2)] := by
  ext l
  show √(∑ i : Fin 2, coefficients [(![a, 0], c), (![0, b], d)] i _ ^ 2) = _
  fin_cases l <;> simp [coefficients, Fin.sum_univ_two]

theorem columnSolvers_svd_two {a b : ℝ} (c d : ℝ) (hab : b ^ 2 ≤ a ^ 2) :
    columnSolvers.ExactSvd [(![a, 0], c), (![0, b], d)] := by
  have hfactor : (columnSolvers.svd 2
      (coefficients [(![a, 0], c), (![0, b], d)])).vh = (1 : Matrix (Fin 2) (Fin 2) ℝ) := rfl
  show IsSvd (k := Fin 2) _ (columnSolvers.svd 2 _).singular (columnSolvers.svd 2 _).vh
  rw [columnSolvers_singular_two, hfactor]
  refine ⟨fun l => ?_, fun i j hij => ?_, ?_, fun y => ?_⟩
  · fin_cases l <;> exact Real.sqrt_nonneg _
  · fin_cases i <;> fin_cases j
    · exact le_refl _
    · exact Real.sqrt_le_sqrt hab
    · exact absurd hij (by decide)
    · exact le_refl _
  · rw [transpose_one, mul_one]
  · show ∑ i : Fin 2, (∑ k : Fin 2, coefficients [(![a, 0], c), (![0, b], d)] i k * y k) *
      (∑ k : Fin 2, coefficients [(![a, 0], c), (![0, b], d)] i k * y k) = _
    simp [coefficients, Fin.sum_univ_two, mul_pow, Real.sq_sqrt (sq_nonneg _)]
    ring

/-- An estimator whose samples follow a path of displacements from a peer at `start`. -/
noncomputable def benchEstimator (minBaselineM minObservability : ℝ) (start : Vector2 ℝ)
    (path : List (Vector2 ℝ)) : RangeHistoryRelativeEstimator ℝ where
  windowS := 5
  rangeNoiseStd := 1 / 10
  velocityNoiseStd := 3 / 10
  minSamples := 2
  minBaselineM := minBaselineM
  minObservability := minObservability
  trackingRadius95M := 1 / 2
  samples := path.mapIdx fun i d => ⟨i, norm2 (start + d), d, 0⟩
  displacement := path.getLast?.getD 0
  lastTime := some (path.length - 1 : ℕ)
  lastRelVelocity := 0
  ekf := none
  trackingAcquired := false
  lastEstimate :=
    ⟨.unobservable, none, none, none, none, 0, none, none, none, 0, none, 0⟩

/-- The window at the end of two steps. -/
noncomputable def benchLast (start : Vector2 ℝ) (i : ℕ) (d : Vector2 ℝ) : RangeMotionSample ℝ :=
  ⟨i, norm2 (start + d), d, 0⟩

theorem norm2_east (x : ℝ) : norm2 ![x, 0] = |x| := by
  rw [norm2_eq, dotProduct_plane]
  simp [Real.sqrt_mul_self_eq_abs]

/-- One step to the east. -/
theorem bench_step (minBaselineM minObservability x : ℝ) (start : Vector2 ℝ)
    (hbaseline : minBaselineM ≤ |x|) :
    NoiseFree columnSolvers (benchEstimator minBaselineM minObservability start [0, ![x, 0]])
      start (benchLast start 1 ![x, 0]) where
  svd := by
    show columnSolvers.ExactSvd [(![x, 0] - 0, _)]
    rw [sub_zero]
    exact columnSolvers_svd_one x _
  count := le_refl _
  last := rfl
  ranges s hs := by
    rcases List.mem_cons.mp hs with rfl | hs
    · rfl
    · obtain rfl := List.mem_singleton.mp hs
      rfl
  baseline := by
    refine hbaseline.trans ?_
    have hstep : norm2 (![x, 0] - 0) = |x| := by rw [sub_zero, norm2_east]
    rw [← hstep]
    refine norm2_le_baseline (w := (![x, 0] - 0, norm2 (start + ![x, 0]))) ?_
    exact List.mem_cons_of_mem _ (List.mem_singleton_self _)

/-- One step to the east and one to the north of the start. -/
theorem bench_corner (minBaselineM minObservability x : ℝ) (start : Vector2 ℝ)
    (hbaseline : minBaselineM ≤ |x|) :
    NoiseFree columnSolvers
      (benchEstimator minBaselineM minObservability start [0, ![x, 0], ![0, x]])
      start (benchLast start 2 ![0, x]) where
  svd := by
    show columnSolvers.ExactSvd [(![x, 0] - 0, _), (![0, x] - 0, _)]
    rw [sub_zero, sub_zero]
    exact columnSolvers_svd_two _ _ (le_refl _)
  count := by
    show (2 : ℤ) ≤ 3
    decide
  last := rfl
  ranges s hs := by
    rcases List.mem_cons.mp hs with rfl | hs
    · rfl
    · rcases List.mem_cons.mp hs with rfl | hs
      · rfl
      · obtain rfl := List.mem_singleton.mp hs
        rfl
  baseline := by
    refine hbaseline.trans ?_
    have hstep : norm2 (![x, 0] - 0) = |x| := by rw [sub_zero, norm2_east]
    rw [← hstep]
    refine norm2_le_baseline (w := (![x, 0] - 0, norm2 (start + ![x, 0]))) ?_
    exact List.mem_cons_of_mem _ (List.mem_cons_self ..)

theorem bench_straight (minBaselineM minObservability x : ℝ) (start : Vector2 ℝ) :
    Straight (benchEstimator minBaselineM minObservability start [0, ![x, 0]]).samples := by
  have hpair : {d : Vector2 ℝ | ∃ s ∈ (benchEstimator minBaselineM minObservability start
      [0, ![x, 0]]).samples, s.displacement = d} = {0, ![x, 0]} := by
    ext d
    simp [benchEstimator, eq_comm]
  rw [Straight, hpair]
  exact collinear_pair ℝ _ _

theorem bench_step_spread (minBaselineM minObservability x : ℝ) (start : Vector2 ℝ) :
    spread (window (benchEstimator minBaselineM minObservability start [0, ![x, 0]]).samples) =
      x ^ 2 := by
  simp [benchEstimator, window, spread]
  ring

/-- Both singular values of the corner are the length of a step. -/
theorem bench_corner_factors {x : ℝ} (hx : 0 < x) (minBaselineM minObservability : ℝ)
    (start : Vector2 ℝ) :
    (windowFactors columnSolvers
        (benchEstimator minBaselineM minObservability start [0, ![x, 0], ![0, x]]).samples).top =
          x ∧
      (windowFactors columnSolvers
        (benchEstimator minBaselineM minObservability start
          [0, ![x, 0], ![0, x]]).samples).observability = 1 := by
  obtain ⟨c, d, hfactors⟩ : ∃ c d, windowFactors columnSolvers
      (benchEstimator minBaselineM minObservability start [0, ![x, 0], ![0, x]]).samples =
        columnSolvers.svd 2 (coefficients [(![x, 0] - 0, c), (![0, x] - 0, d)]) :=
    ⟨_, _, rfl⟩
  have hsingular := columnSolvers_singular_two x x c d
  rw [Real.sqrt_sq hx.le] at hsingular
  rw [hfactors, sub_zero, sub_zero]
  constructor
  · exact congrFun hsingular (0 : Fin 2)
  · have hfirst : (columnSolvers.svd 2 (coefficients [(![x, 0], c), (![0, x], d)])).singular
        ⟨0, by decide⟩ = x := congrFun hsingular (0 : Fin 2)
    have hlast : (columnSolvers.svd 2 (coefficients [(![x, 0], c), (![0, x], d)])).singular
        ⟨1, by decide⟩ = x := congrFun hsingular (1 : Fin 2)
    refine (congrArg₂ (· / ·) hlast hfirst).trans (div_self hx.ne')

/-- Without regard to the threshold and to the numerical floor, the estimator locates the
peer in every noise-free window. -/
def Resolves (np : LinearSolvers ℝ) (estimator : RangeHistoryRelativeEstimator ℝ) : Prop :=
  ∀ start latest, NoiseFree np estimator start latest →
    ∃ estimate, estimator.solveWindow np = .ok estimate ∧
      (estimator.minObservability ≤ (windowFactors np estimator.samples).observability →
        estimate.position = some (start + latest.displacement) ∧
          estimate.alternatePosition = none) ∧
      (Straight estimator.samples → ∃ u, MovesAlong u estimator.samples ∧
        Mirrored (start + latest.displacement) u estimate)

theorem not_mirrored_of_none {truth u : Vector2 ℝ} {estimate : RelativeEstimate ℝ}
    (h : estimate.alternatePosition = none) : ¬ Mirrored truth u estimate := by
  rintro ⟨-, p, -, hnone, -⟩
  rw [h] at hnone
  cases hnone

theorem bench_step_observability (minBaselineM minObservability : ℝ) {x : ℝ}
    {start : Vector2 ℝ} (h : NoiseFree columnSolvers
      (benchEstimator minBaselineM minObservability start [0, ![x, 0]]) start
      (benchLast start 1 ![x, 0])) :
    (windowFactors columnSolvers
      (benchEstimator minBaselineM minObservability start [0, ![x, 0]]).samples).observability =
        0 :=
  Straight.observability (bench_straight minBaselineM minObservability x start) h.svd

/-- A threshold of zero lets a straight window into the branch for two dimensions. -/
theorem zero_threshold_unresolved :
    ¬ Resolves columnSolvers (benchEstimator (1 / 2) 0 ![0, 3] [0, ![4, 0]]) := by
  intro h
  have hnoise := bench_step (1 / 2) 0 4 ![0, 3] (by norm_num)
  have hratio := bench_step_observability _ _ hnoise
  obtain ⟨estimate, hsolved, -, hmirror⟩ := h _ _ hnoise
  obtain ⟨u, -, hmirrored⟩ := hmirror (bench_straight ..)
  obtain ⟨first, rest, hsamples, hcases⟩ := solveWindow_eq hnoise
  refine not_mirrored_of_none ?_ hmirrored
  rcases hcases with ⟨hcase, -⟩ | ⟨hcount, -, hcase⟩
  · obtain rfl := Except.ok.inj (hsolved.symm.trans hcase)
    rfl
  · rw [if_neg (by rw [hratio]; exact lt_irrefl 0)] at hcase
    obtain rfl := Except.ok.inj (hsolved.symm.trans hcase)
    rfl

/-- A straight step of a hundredth of a millimetre is below the floor of the sum. -/
theorem short_step_unresolved : ¬ Resolves columnSolvers
    (benchEstimator (1 / 10 ^ 5) (1 / 10) ![3, 0] [0, ![1 / 10 ^ 5, 0]]) := by
  intro h
  have hnoise := bench_step (1 / 10 ^ 5) (1 / 10) (1 / 10 ^ 5) ![3, 0] (le_abs_self _)
  have hratio := bench_step_observability _ _ hnoise
  obtain ⟨estimate, hsolved, -, hmirror⟩ := h _ _ hnoise
  obtain ⟨v, -, hmirrored⟩ := hmirror (bench_straight ..)
  obtain ⟨first, rest, hsamples, hcases⟩ := solveWindow_eq hnoise
  refine not_mirrored_of_none ?_ hmirrored
  rcases hcases with ⟨hcase, -⟩ | ⟨hcount, hhigh, hcase⟩
  · obtain rfl := Except.ok.inj (hsolved.symm.trans hcase)
    rfl
  · obtain ⟨u, hu, -, -, hshort⟩ := hnoise.straightEstimate hsamples (bench_straight ..) hcount
      (lt_trans (by positivity) hhigh) 0
    rw [if_pos (by rw [hratio]; norm_num [benchEstimator]), hratio, hu,
      hshort (by rw [bench_step_spread]; norm_num)] at hcase
    obtain rfl := Except.ok.inj (hsolved.symm.trans hcase)
    rfl

/-- A corner of a tenth of a nanometre is below the floor of the singular value. -/
theorem small_corner_unresolved : ¬ Resolves columnSolvers
    (benchEstimator (1 / 10 ^ 10) (1 / 10) ![3, 0]
      [0, ![1 / 10 ^ 10, 0], ![0, 1 / 10 ^ 10]]) := by
  intro h
  have hnoise := bench_corner (1 / 10 ^ 10) (1 / 10) (1 / 10 ^ 10) ![3, 0] (le_abs_self _)
  obtain ⟨htop, hratio⟩ := bench_corner_factors (x := 1 / 10 ^ 10) (by positivity)
    (1 / 10 ^ 10) (1 / 10) ![3, 0]
  obtain ⟨estimate, hsolved, hunique, -⟩ := h _ _ hnoise
  obtain ⟨hposition, -⟩ := hunique (by rw [hratio]; norm_num [benchEstimator])
  obtain ⟨first, rest, hsamples, hcases⟩ := solveWindow_eq hnoise
  rcases hcases with ⟨hcase, -⟩ | ⟨hcount, hhigh, -⟩
  · obtain rfl := Except.ok.inj (hsolved.symm.trans hcase)
    cases hposition
  · have hfirst : (1 : ℝ) / 10 ^ 9 < 1 / 10 ^ 10 := by
      rw [← htop, SingularFactors.top, dif_pos hcount]
      exact hhigh
    norm_num at hfirst

/-- A threshold of zero and motion below either floor. -/
theorem degenerate_windows_unresolved :
    ¬ Resolves columnSolvers (benchEstimator (1 / 2) 0 ![0, 3] [0, ![4, 0]]) ∧
      ¬ Resolves columnSolvers
        (benchEstimator (1 / 10 ^ 5) (1 / 10) ![3, 0] [0, ![1 / 10 ^ 5, 0]]) ∧
      ¬ Resolves columnSolvers
        (benchEstimator (1 / 10 ^ 10) (1 / 10) ![3, 0]
          [0, ![1 / 10 ^ 10, 0], ![0, 1 / 10 ^ 10]]) :=
  ⟨zero_threshold_unresolved, short_step_unresolved, small_corner_unresolved⟩

/-- A corner of a metre and a straight step of four metres. -/
theorem solveWindow_locates_bench :
    (∃ estimate, (benchEstimator (1 / 2) (1 / 10) ![0, 3]
        [0, ![1, 0], ![0, 1]]).solveWindow columnSolvers = .ok estimate ∧
      estimate.position = some (![0, 3] + ![0, 1]) ∧ estimate.alternatePosition = none) ∧
    ∃ estimate u, (benchEstimator (1 / 2) (1 / 10) ![0, 3]
        [0, ![4, 0]]).solveWindow columnSolvers = .ok estimate ∧
      Mirrored (![0, 3] + ![4, 0]) u estimate := by
  have hthreshold {start : Vector2 ℝ} {path : List (Vector2 ℝ)} :
      0 < (benchEstimator (1 / 2) (1 / 10) start path).minObservability := by
    norm_num [benchEstimator]
  constructor
  · obtain ⟨estimate, hsolved, hlocates⟩ := solveWindow_locates columnSolvers_lstsq hthreshold
      (bench_corner (1 / 2) (1 / 10) 1 ![0, 3] (by norm_num))
    obtain ⟨htop, hratio⟩ := bench_corner_factors (x := 1) one_pos (1 / 2) (1 / 10) ![0, 3]
    exact ⟨estimate, hsolved, hlocates.unique (by rw [htop]; norm_num)
      (by rw [hratio]; norm_num [benchEstimator])⟩
  · obtain ⟨estimate, hsolved, hlocates⟩ := solveWindow_locates columnSolvers_lstsq hthreshold
      (bench_step (1 / 2) (1 / 10) 4 ![0, 3] (by norm_num))
    obtain ⟨u, -, hmirrored⟩ := hlocates.straight (bench_straight ..)
      (by rw [bench_step_spread]; norm_num)
    exact ⟨estimate, u, hsolved, hmirrored⟩

end Mission10.Flight
