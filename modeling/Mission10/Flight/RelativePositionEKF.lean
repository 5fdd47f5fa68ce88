import Mission10.Engine.Numerics
import Mission10.Library.LeastSquares
import Mission10.Library.Numerals
import Mission10.Library.Outcome

/-!
# The filter of the relative position

`RelativePositionEKF` carries the position of a peer relative to the own one with its
covariance. It integrates the measured velocity, takes differential GNSS fixes in both
axes and ranges along the line of sight. In every run the covariance stays symmetric
and positive semidefinite; a measurement never increases it and a prediction never
decreases it.
-/
namespace Mission10.Flight

open Engine (MathOps)
open Engine.MathOps Matrix

section Model

variable {K : Type*} [Field K] [LinearOrder K] [MathOps K]

/-- A vector and a matrix of the plane, east before north. -/
abbrev Vector2 (K : Type*) := Fin 2 → K
abbrev Matrix2 (K : Type*) := Matrix (Fin 2) (Fin 2) K

/-- The fields `x` and `P`, which are set together. -/
structure RelativeState (K : Type*) where
  x : Vector2 K
  P : Matrix2 K

structure RelativePositionEKF (K : Type*) where
  state : Option (RelativeState K)
  velNoiseStd : K

/-- `np.linalg.inv`. -/
def inverse (S : Matrix2 K) : Except String (Matrix2 K) :=
  let det := S 0 0 * S 1 1 - S 0 1 * S 1 0
  if det = 0 then .error "Singular matrix"
  else .ok !![S 1 1 / det, -S 0 1 / det; -S 1 0 / det, S 0 0 / det]

namespace RelativePositionEKF

def new (velNoiseStd : K) : RelativePositionEKF K := ⟨none, velNoiseStd⟩

def initFromGnss (ekf : RelativePositionEKF K) (diffGnss : Vector2 K) (R : Matrix2 K) :
    RelativePositionEKF K :=
  { ekf with state := some ⟨diffGnss, R⟩ }

def predict (ekf : RelativePositionEKF K) (relVel : Vector2 K) (dt : K) :
    RelativePositionEKF K :=
  match ekf.state with
  | none => ekf
  | some s =>
    let q := (ekf.velNoiseStd * dt) ^ 2
    { ekf with state := some ⟨s.x + dt • relVel, s.P + q • (1 : Matrix2 K)⟩ }

def updateGnss (ekf : RelativePositionEKF K) (diffGnss : Vector2 K) (R : Matrix2 K) :
    Except String (RelativePositionEKF K) :=
  match ekf.state with
  | none => .ok (ekf.initFromGnss diffGnss R)
  | some s => do
    let inv ← inverse (s.P + R)
    let gain := s.P * inv
    let updated : RelativeState K :=
      ⟨s.x + gain.mulVec (diffGnss - s.x), ((1 : Matrix2 K) - gain) * s.P⟩
    return { ekf with state := some updated }

/-- The range tightens the axis of the line of sight only. -/
def updateRange (ekf : RelativePositionEKF K) (range R : K) : RelativePositionEKF K :=
  match ekf.state with
  | none => ekf
  | some s =>
    let dist := sqrt (s.x 0 * s.x 0 + s.x 1 * s.x 1)
    if dist < 1 / 10 ^ 6 then ekf
    else
      let H : Matrix (Fin 1) (Fin 2) K := of fun _ j => s.x j / dist
      let S := (H * s.P * Hᵀ) 0 0 + R
      let gain : Matrix (Fin 2) (Fin 1) K := of fun i j => (s.P * Hᵀ) i j / S
      let innovation := range - dist
      { ekf with state := some ⟨s.x + fun i => gain i 0 * innovation,
        ((1 : Matrix2 K) - gain * H) * s.P⟩ }

end RelativePositionEKF

/-- A call of the filter. -/
inductive EkfCall (K : Type*)
  | predict (relVel : Vector2 K) (dt : K)
  | updateGnss (diffGnss : Vector2 K) (R : Matrix2 K)
  | updateRange (range R : K)

def RelativePositionEKF.call (ekf : RelativePositionEKF K) :
    EkfCall K → Except String (RelativePositionEKF K)
  | .predict relVel dt => .ok (ekf.predict relVel dt)
  | .updateGnss diffGnss R => ekf.updateGnss diffGnss R
  | .updateRange range R => .ok (ekf.updateRange range R)

def RelativePositionEKF.run (ekf : RelativePositionEKF K) (calls : List (EkfCall K)) :
    Except String (RelativePositionEKF K) :=
  calls.foldlM RelativePositionEKF.call ekf

end Model

/-! ### The updates as general ones -/

theorem inverse_ok {S : Matrix2 ℝ} (h : S.det ≠ 0) : inverse S = .ok S⁻¹ := by
  have hdet : S.det = S 0 0 * S 1 1 - S 0 1 * S 1 0 := det_fin_two S
  have hinv : S⁻¹ = !![S 1 1 / S.det, -S 0 1 / S.det; -S 1 0 / S.det, S 0 0 / S.det] := by
    rw [inv_def, Ring.inverse_eq_inv', adjugate_fin_two]
    ext i j
    fin_cases i <;> fin_cases j <;> simp [div_eq_inv_mul]
  simp only [inverse]
  rw [← hdet, if_neg h, hinv]

/-- A fix measures both coordinates. -/
theorem updated_one (P R : Matrix2 ℝ) :
    CovarianceUpdate.updated P 1 R = ((1 : Matrix2 ℝ) - P * (P + R)⁻¹) * P := by
  simp [CovarianceUpdate.updated, CovarianceUpdate.gain, CovarianceUpdate.innovation]

/-- The variance of a range. -/
def rangeVariance (R : ℝ) : Matrix (Fin 1) (Fin 1) ℝ := diagonal fun _ => R

/-- A range is a measurement with one row. -/
theorem updated_row (P : Matrix2 ℝ) (H : Matrix (Fin 1) (Fin 2) ℝ) (R : ℝ) :
    CovarianceUpdate.updated P H (rangeVariance R) =
      ((1 : Matrix2 ℝ) - (of fun i j => (P * Hᵀ) i j / ((H * P * Hᵀ) 0 0 + R) :
        Matrix (Fin 2) (Fin 1) ℝ) * H) * P := by
  have hinv : (H * P * Hᵀ + rangeVariance R)⁻¹ = diagonal fun _ => ((H * P * Hᵀ) 0 0 + R)⁻¹ := by
    rw [inv_def, Ring.inverse_eq_inv', adjugate_fin_one, det_fin_one]
    ext i j
    obtain rfl := Subsingleton.elim i 0
    obtain rfl := Subsingleton.elim j 0
    simp [rangeVariance]
  have hgain : CovarianceUpdate.gain P H (rangeVariance R) =
      of fun i j => (P * Hᵀ) i j / ((H * P * Hᵀ) 0 0 + R) := by
    rw [CovarianceUpdate.gain, CovarianceUpdate.innovation, hinv]
    ext i j
    rw [mul_diagonal, of_apply, div_eq_mul_inv]
  rw [CovarianceUpdate.updated, hgain]

theorem rangeVariance_posDef {R : ℝ} (hR : 0 < R) : (rangeVariance R).PosDef :=
  PosDef.diagonal fun _ => hR

/-! ### One call -/

namespace EkfCall

/-- The inputs the filter is made for. -/
def Valid : EkfCall ℝ → Prop
  | .predict _ _ => True
  | .updateGnss _ R => R.PosDef
  | .updateRange _ R => 0 < R

def IsMeasurement : EkfCall ℝ → Prop
  | .predict _ _ => False
  | .updateGnss _ _ => True
  | .updateRange _ _ => True

/-- The covariance goes up in a prediction and down in a measurement. -/
def Moves (call : EkfCall ℝ) (P P' : Matrix2 ℝ) : Prop :=
  (call.IsMeasurement → (P - P').PosSemidef) ∧ (¬ call.IsMeasurement → (P' - P).PosSemidef)

end EkfCall

namespace RelativePositionEKF

/-- The covariance, once there is one, is symmetric and positive semidefinite. -/
def Sound (ekf : RelativePositionEKF ℝ) : Prop :=
  ∀ s, ekf.state = some s → s.P.IsSymm ∧ s.P.PosSemidef

theorem sound_new (velNoiseStd : ℝ) : (new velNoiseStd).Sound := by
  intro s hs
  cases hs

variable {ekf : RelativePositionEKF ℝ}

theorem sound_of_posSemidef {s : RelativeState ℝ} (hstate : ekf.state = some s)
    (h : s.P.PosSemidef) : ekf.Sound := by
  intro s' hs'
  rw [hstate] at hs'
  obtain rfl := Option.some.inj hs'
  exact ⟨CovarianceUpdate.isSymm_of_isHermitian h.isHermitian, h⟩

/-- What a call does to a filter that has no estimate yet. -/
theorem call_start (hstate : ekf.state = none) {call : EkfCall ℝ} (hvalid : call.Valid) :
    ∃ next, ekf.call call = .ok next ∧ next.Sound := by
  have hsound : ekf.Sound := by
    intro s hs
    rw [hstate] at hs
    cases hs
  cases call with
  | predict relVel dt =>
    refine ⟨ekf, ?_, hsound⟩
    simp only [call, predict, hstate]
  | updateGnss diffGnss R =>
    refine ⟨ekf.initFromGnss diffGnss R, ?_, ?_⟩
    · simp only [call, updateGnss, hstate]
    · exact sound_of_posSemidef rfl (PosDef.posSemidef hvalid)
  | updateRange range R =>
    refine ⟨ekf, ?_, hsound⟩
    simp only [call, updateRange, hstate]

theorem predict_moves {s : RelativeState ℝ} (hstate : ekf.state = some s)
    (hP : s.P.PosSemidef) (relVel : Vector2 ℝ) (dt : ℝ) :
    ∃ s', (ekf.predict relVel dt).state = some s' ∧ s'.P.PosSemidef ∧
      (s'.P - s.P).PosSemidef := by
  have hnoise := CovarianceUpdate.posSemidef_white (n := Fin 2)
    (sq_nonneg (ekf.velNoiseStd * dt))
  refine ⟨_, by simp only [predict, hstate]; rfl, hP.add hnoise, ?_⟩
  rw [add_sub_cancel_left]
  exact hnoise

theorem updateGnss_moves {s : RelativeState ℝ} (hstate : ekf.state = some s)
    (hP : s.P.PosSemidef) (diffGnss : Vector2 ℝ) {R : Matrix2 ℝ} (hR : R.PosDef) :
    ∃ next s', ekf.updateGnss diffGnss R = .ok next ∧ next.state = some s' ∧
      s'.P.PosSemidef ∧ (s.P - s'.P).PosSemidef := by
  have hunit := (PosDef.posSemidef_add hP hR).isUnit
  have hinverse := inverse_ok (S := s.P + R)
    (isUnit_iff_ne_zero.mp ((isUnit_iff_isUnit_det _).mp hunit))
  refine ⟨_, _, by simp only [updateGnss, hstate, hinverse]; rfl, rfl, ?_, ?_⟩
  · rw [← updated_one]
    exact CovarianceUpdate.posSemidef_updated hP hR
  · rw [← updated_one]
    exact CovarianceUpdate.posSemidef_sub_updated hP hR

theorem updateRange_moves {s : RelativeState ℝ} (hstate : ekf.state = some s)
    (hP : s.P.PosSemidef) (range : ℝ) {R : ℝ} (hR : 0 < R) :
    ∃ s', (ekf.updateRange range R).state = some s' ∧ s'.P.PosSemidef ∧
      (s.P - s'.P).PosSemidef := by
  simp only [updateRange, hstate]
  by_cases hclose : sqrt (s.x 0 * s.x 0 + s.x 1 * s.x 1) < 1 / 10 ^ 6
  · rw [if_pos hclose]
    refine ⟨s, hstate, hP, ?_⟩
    rw [sub_self]
    exact PosSemidef.zero
  · rw [if_neg hclose]
    refine ⟨_, rfl, ?_, ?_⟩
    · rw [← updated_row]
      exact CovarianceUpdate.posSemidef_updated hP (rangeVariance_posDef hR)
    · rw [← updated_row]
      exact CovarianceUpdate.posSemidef_sub_updated hP (rangeVariance_posDef hR)

theorem call_moves {s : RelativeState ℝ} (hstate : ekf.state = some s) (hP : s.P.PosSemidef)
    {call : EkfCall ℝ} (hvalid : call.Valid) :
    ∃ next s', ekf.call call = .ok next ∧ next.state = some s' ∧ s'.P.PosSemidef ∧
      call.Moves s.P s'.P := by
  cases call with
  | predict relVel dt =>
    obtain ⟨s', hnext, hP', hup⟩ := predict_moves hstate hP relVel dt
    exact ⟨_, s', rfl, hnext, hP', fun h => h.elim, fun _ => hup⟩
  | updateGnss diffGnss R =>
    obtain ⟨next, s', hcall, hnext, hP', hdown⟩ := updateGnss_moves hstate hP diffGnss hvalid
    exact ⟨next, s', hcall, hnext, hP', fun _ => hdown, fun h => (h trivial).elim⟩
  | updateRange range R =>
    obtain ⟨s', hnext, hP', hdown⟩ := updateRange_moves hstate hP range hvalid
    exact ⟨_, s', rfl, hnext, hP', fun _ => hdown, fun h => (h trivial).elim⟩

theorem call_sound (h : ekf.Sound) {call : EkfCall ℝ} (hvalid : call.Valid) :
    ∃ next, ekf.call call = .ok next ∧ next.Sound := by
  cases hstate : ekf.state with
  | none => exact call_start hstate hvalid
  | some s =>
    obtain ⟨next, s', hcall, hnext, hP', -⟩ := call_moves hstate (h s hstate).2 hvalid
    exact ⟨next, hcall, sound_of_posSemidef hnext hP'⟩

theorem run_sound (calls : List (EkfCall ℝ)) (hvalid : ∀ call ∈ calls, call.Valid)
    (h : ekf.Sound) : ∃ last, ekf.run calls = .ok last ∧ last.Sound := by
  induction calls generalizing ekf with
  | nil => exact ⟨ekf, rfl, h⟩
  | cons call rest ih =>
    obtain ⟨next, hcall, hnext⟩ := call_sound h (hvalid call (List.mem_cons_self ..))
    obtain ⟨last, hrun, hlast⟩ := ih (fun c hc => hvalid c (List.mem_cons_of_mem _ hc)) hnext
    refine ⟨last, ?_, hlast⟩
    rw [run, List.foldlM_cons, hcall]
    exact hrun

/-- Every run of valid calls succeeds and leaves a covariance that is symmetric and positive
semidefinite. The call after it goes through as well; it moves the covariance down when it is
a measurement and up when it is a prediction. -/
theorem covariance_along_runs (velNoiseStd : ℝ) (calls : List (EkfCall ℝ))
    (hvalid : ∀ call ∈ calls, call.Valid) :
    ∃ last, (new velNoiseStd).run calls = .ok last ∧ last.Sound ∧
      ∀ call, EkfCall.Valid call → ∃ next, last.call call = .ok next ∧ next.Sound ∧
        ∀ s, last.state = some s → ∃ s', next.state = some s' ∧ call.Moves s.P s'.P := by
  obtain ⟨last, hrun, hsound⟩ := run_sound calls hvalid (sound_new velNoiseStd)
  refine ⟨last, hrun, hsound, fun call hcall => ?_⟩
  obtain ⟨next, hnext, hsound'⟩ := call_sound hsound hcall
  refine ⟨next, hnext, hsound', fun s hs => ?_⟩
  obtain ⟨next', s', hnext', hs', -, hmoves⟩ := call_moves hs (hsound s hs).2 hcall
  rw [hnext] at hnext'
  obtain rfl := Except.ok.inj hnext'
  exact ⟨s', hs', hmoves⟩

theorem covariance_along_runs_of_three :
    ∃ last, (new (3 / 10)).run [.updateGnss ![3, 4] 1, .predict ![1, 0] 1, .updateRange 5 1] =
      .ok last ∧ last.Sound := by
  obtain ⟨last, hrun, hsound, -⟩ := covariance_along_runs (3 / 10)
    [.updateGnss ![3, 4] 1, .predict ![1, 0] 1, .updateRange 5 1] (by
      intro call hcall
      simp only [List.mem_cons, List.not_mem_nil, or_false] at hcall
      rcases hcall with rfl | rfl | rfl
      · exact PosDef.one
      · trivial
      · exact one_pos)
  exact ⟨last, hrun, hsound⟩

end RelativePositionEKF

end Mission10.Flight
