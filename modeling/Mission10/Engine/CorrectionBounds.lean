import Mission10.Engine.TagAnchor
import Mission10.Library.BoundedRate

/-!
# Bounds of the setpoint correction

The applied offset pursues a target that is pulled back to the largest correction, so
it stays in the disc of that radius whatever the times and the drifts are. The two
frames stay inverse to each other, and a frame reset moves both the frame and the
positions in it.
-/
namespace Mission10.Engine

open MathOps Pursuit

set_option linter.unusedSectionVars false

/-- The length of an offset. -/
noncomputable def offsetLength : Seminorm ℝ (Point2 ℝ) :=
  (normSeminorm ℝ ℂ).comp Complex.equivRealProdLm.symm.toLinearMap

theorem offsetLength_eq (d : Point2 ℝ) : offsetLength d = hypot d.1 d.2 := by
  change ‖(⟨d.1, d.2⟩ : ℂ)‖ = √(d.1 * d.1 + d.2 * d.2)
  rw [Complex.norm_def, Complex.normSq_mk]

/-- A call of the engine on the correction. -/
inductive CorrectionCall (K : Type*) where
  | update (t : K) (transform : Option (AnchorTransform K))
  | frameReset (dn de : K)

namespace SetpointCorrection

section Calls

variable {K : Type*} [Field K] [LinearOrder K] [MathOps K]

def call (c : SetpointCorrection K) : CorrectionCall K → SetpointCorrection K
  | .update t transform => c.update t transform
  | .frameReset dn de => c.applyFrameReset dn de

def calls (c : SetpointCorrection K) (cs : List (CorrectionCall K)) : SetpointCorrection K :=
  cs.foldl call c

/-- The time of the last update. -/
def lastUpdate (cs : List (CorrectionCall K)) : Option K :=
  (cs.filterMap fun
    | .update t _ => some t
    | .frameReset _ _ => none).getLast?

/-- The time from the last update to another one; none passes before the first, or while
the clock runs backwards. -/
def elapsed (last : Option K) (t : K) : K :=
  match last with
  | none => 0
  | some last => max 0 (t - last)

theorem calls_concat (c : SetpointCorrection K) (cs : List (CorrectionCall K))
    (next : CorrectionCall K) : c.calls (cs ++ [next]) = (c.calls cs).call next := by
  simp [calls]

theorem calls_lastT (cfg : CorrectionConfig K) (cs : List (CorrectionCall K)) :
    ((new cfg).calls cs).lastT = lastUpdate cs := by
  induction cs using List.reverseRecOn with
  | nil => rfl
  | append_singleton cs c ih =>
    rw [calls_concat, lastUpdate, List.filterMap_append]
    cases c with
    | update t transform => simp [call, update]
    | frameReset dn de => simpa [call, applyFrameReset, lastUpdate] using ih

theorem toPlan_toFlight (c : SetpointCorrection K) (p : Point2 K) :
    c.toPlan (c.toFlight p) = p := by
  apply Prod.ext <;> simp only [toPlan, toFlight] <;> ring

theorem toFlight_toPlan (c : SetpointCorrection K) (p : Point2 K) :
    c.toFlight (c.toPlan p) = p := by
  apply Prod.ext <;> simp only [toPlan, toFlight] <;> ring

/-- A reset moves the planning frame with the positions. -/
theorem toPlan_reset (c : SetpointCorrection K) (dn de : K) (p : Point2 K) :
    (c.applyFrameReset dn de).toPlan (shiftPoint (dn, de) p) = c.toPlan p := by
  apply Prod.ext <;> simp only [toPlan, applyFrameReset, shiftPoint] <;> ring

end Calls

section Pursuit

variable (c : SetpointCorrection ℝ)

theorem rate_pos : 0 < c.cfg.maxRateMps ∧ 0 < c.cfg.maxCorrectionM := by
  have haccepted := c.cfg.accepted
  unfold CorrectionSettings.postInit at haccepted
  split_ifs at haccepted with hrate hlimit
  exact ⟨not_le.mp hrate, not_le.mp hlimit⟩

/-- A new drift sets the target, pulled back to the largest correction. -/
theorem retarget_target (transform : AnchorTransform ℝ) : (c.retarget transform).target =
    cap offsetLength c.cfg.maxCorrectionM
      (transform.displacementVectorAt transform.centroid) := by
  unfold retarget cap
  rw [offsetLength_eq]
  dsimp only
  split_ifs with hfar hnear hnear
  · exact absurd hnear (not_le.mpr hfar)
  · exact Prod.ext (mul_comm _ _) (mul_comm _ _)
  · rfl
  · exact absurd (not_lt.mp hfar) hnear

/-- The offset pursues the target. -/
theorem slew_eq {dt : ℝ} (hdt : 0 ≤ dt) :
    c.slew dt = pursue offsetLength c.target (c.cfg.maxRateMps * dt) c.applied := by
  have hstep : 0 ≤ c.cfg.maxRateMps * dt := mul_nonneg c.rate_pos.1.le hdt
  unfold slew pursue
  rw [offsetLength_eq]
  dsimp only [Prod.fst_sub, Prod.snd_sub]
  split_ifs with hnear hclose hclose
  · rfl
  · have hzero := (hnear.resolve_left hclose)
    rw [hzero] at hclose
    exact absurd hstep hclose
  · exact absurd (Or.inl hclose) hnear
  · apply Prod.ext
    · simp only [Prod.fst_add, Prod.smul_fst, Prod.fst_sub, smul_eq_mul]
      ring
    · simp only [Prod.snd_add, Prod.smul_snd, Prod.snd_sub, smul_eq_mul]
      ring

/-- The offset and its target are within the largest correction. -/
structure Limited : Prop where
  applied : offsetLength c.applied ≤ c.cfg.maxCorrectionM
  target : offsetLength c.target ≤ c.cfg.maxCorrectionM

variable {c}

theorem Limited.new (cfg : CorrectionConfig ℝ) : (new cfg).Limited := by
  have hzero : offsetLength ((0, 0) : Point2 ℝ) = 0 := map_zero offsetLength
  have hlimit := (SetpointCorrection.new cfg).rate_pos.2.le
  exact ⟨hzero.trans_le hlimit, hzero.trans_le hlimit⟩

theorem elapsed_nonneg (last : Option ℝ) (t : ℝ) : 0 ≤ elapsed last t := by
  cases last with
  | none => exact le_rfl
  | some last => exact le_max_left 0 (t - last)

/-- The correction with the target of an update. -/
noncomputable def aimed (c : SetpointCorrection ℝ) (transform : Option (AnchorTransform ℝ)) :
    SetpointCorrection ℝ :=
  match transform with
  | some transform => c.retarget transform
  | none => c

theorem update_eq (c : SetpointCorrection ℝ) (t : ℝ) (transform : Option (AnchorTransform ℝ)) :
    c.update t transform = { c.aimed transform with
      lastT := some t
      applied := (c.aimed transform).slew (elapsed (c.aimed transform).lastT t) } := by
  cases transform <;> rfl

theorem aimed_frame (c : SetpointCorrection ℝ) (transform : Option (AnchorTransform ℝ)) :
    (c.aimed transform).cfg = c.cfg ∧ (c.aimed transform).applied = c.applied ∧
      (c.aimed transform).lastT = c.lastT := by
  cases transform with
  | none => exact ⟨rfl, rfl, rfl⟩
  | some transform =>
    unfold aimed retarget
    dsimp only
    split_ifs <;> exact ⟨rfl, rfl, rfl⟩

theorem Limited.aimed (h : c.Limited) (transform : Option (AnchorTransform ℝ)) :
    (c.aimed transform).Limited := by
  obtain ⟨hcfg, happlied, -⟩ := aimed_frame c transform
  refine ⟨?_, ?_⟩
  · rw [hcfg, happlied]
    exact h.applied
  · rw [hcfg]
    cases transform with
    | none => exact h.target
    | some transform =>
      change offsetLength (c.retarget transform).target ≤ _
      rw [retarget_target]
      exact cap_le offsetLength c.rate_pos.2.le _

/-- The disc of the largest correction. -/
theorem convex_offsets (r : ℝ) : Convex ℝ {d : Point2 ℝ | offsetLength d ≤ r} := by
  have hball : {d : Point2 ℝ | offsetLength d ≤ r} = offsetLength.closedBall 0 r := by
    ext d
    rw [Seminorm.mem_closedBall_zero]
    rfl
  rw [hball]
  exact Seminorm.convex_closedBall offsetLength 0 r

/-- What an update does to a correction within its limits. -/
theorem update_spec (h : c.Limited) (t : ℝ) (transform : Option (AnchorTransform ℝ)) :
    (c.update t transform).Limited ∧
      offsetLength ((c.update t transform).applied - c.applied) ≤
        c.cfg.maxRateMps * elapsed c.lastT t ∧
      ∃ s : ℝ, 0 ≤ s ∧ s ≤ 1 ∧ (c.update t transform).applied =
        c.applied + s • ((c.update t transform).target - c.applied) := by
  obtain ⟨hcfg, happlied, hlast⟩ := aimed_frame c transform
  have haimed : (c.aimed transform).Limited := h.aimed transform
  have hdt : 0 ≤ elapsed c.lastT t := elapsed_nonneg c.lastT t
  have hstep : 0 ≤ c.cfg.maxRateMps * elapsed c.lastT t := mul_nonneg c.rate_pos.1.le hdt
  have hslew : (c.update t transform).applied = pursue offsetLength (c.aimed transform).target
      (c.cfg.maxRateMps * elapsed c.lastT t) c.applied := by
    rw [update_eq, hlast, slew_eq _ hdt, hcfg, happlied]
  have htarget : (c.update t transform).target = (c.aimed transform).target := by
    rw [update_eq]
  have hkept : (c.update t transform).cfg = c.cfg := by
    rw [update_eq, ← hcfg]
  refine ⟨⟨?_, ?_⟩, ?_, ?_⟩
  · rw [hkept, hslew]
    have hgoal : offsetLength (c.aimed transform).target ≤ c.cfg.maxCorrectionM := by
      rw [← hcfg]
      exact haimed.target
    exact pursue_mem offsetLength hstep _ _ (convex_offsets c.cfg.maxCorrectionM) h.applied hgoal
  · rw [hkept, htarget, ← hcfg]
    exact haimed.target
  · rw [hslew]
    exact pursue_moves offsetLength hstep _ _
  · rw [hslew, htarget]
    exact pursue_between offsetLength hstep _ _

theorem call_limited (h : c.Limited) (next : CorrectionCall ℝ) : (c.call next).Limited := by
  cases next with
  | update t transform => exact (update_spec h t transform).1
  | frameReset dn de => exact ⟨h.applied, h.target⟩

theorem calls_limited (cfg : CorrectionConfig ℝ) (cs : List (CorrectionCall ℝ)) :
    ((new cfg).calls cs).Limited ∧ ((new cfg).calls cs).cfg = cfg := by
  induction cs using List.reverseRecOn with
  | nil => exact ⟨Limited.new cfg, rfl⟩
  | append_singleton cs next ih =>
    rw [calls_concat]
    refine ⟨call_limited ih.1 next, ?_⟩
    cases next with
    | update t transform =>
      change (((new cfg).calls cs).update t transform).cfg = cfg
      rw [update_eq]
      exact (aimed_frame _ transform).1.trans ih.2
    | frameReset dn de => exact ih.2

end Pursuit

/-- After every sequence of updates and frame resets: the applied offset is at most the
largest correction, an update moves it along the segment to its target and no farther
than the rate allows since the last update, the two frames are inverse to each other,
and a frame reset leaves the offset and every position in the planning frame. -/
theorem correction_bounded (cfg : CorrectionConfig ℝ) (cs : List (CorrectionCall ℝ)) :
    let c := (new cfg).calls cs
    hypot c.applied.1 c.applied.2 ≤ cfg.maxCorrectionM ∧
      (∀ t transform, let moved := (c.update t transform).applied - c.applied
        hypot moved.1 moved.2 ≤ cfg.maxRateMps * elapsed (lastUpdate cs) t ∧
          ∃ s : ℝ, 0 ≤ s ∧ s ≤ 1 ∧ (c.update t transform).applied =
            c.applied + s • ((c.update t transform).target - c.applied)) ∧
      (∀ p, c.toPlan (c.toFlight p) = p ∧ c.toFlight (c.toPlan p) = p) ∧
      ∀ dn de, (c.applyFrameReset dn de).applied = c.applied ∧
        ∀ p, (c.applyFrameReset dn de).toPlan (shiftPoint (dn, de) p) = c.toPlan p := by
  obtain ⟨hlimited, hcfg⟩ := calls_limited cfg cs
  refine ⟨?_, fun t transform => ?_, fun p => ⟨?_, ?_⟩, fun dn de => ⟨rfl, fun p => ?_⟩⟩
  · have happlied := hlimited.applied
    rwa [offsetLength_eq, hcfg] at happlied
  · obtain ⟨-, hmoved, hbetween⟩ := update_spec hlimited t transform
    rw [offsetLength_eq, hcfg, calls_lastT] at hmoved
    exact ⟨hmoved, hbetween⟩
  · exact toPlan_toFlight _ p
  · exact toFlight_toPlan _ p
  · exact toPlan_reset _ dn de p

end SetpointCorrection

end Mission10.Engine
