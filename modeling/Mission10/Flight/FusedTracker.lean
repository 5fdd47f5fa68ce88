import Mission10.Flight.WindowEstimates

/-!
# The fused relative tracker

`FusedRelativeTracker` follows one peer from shared positions, velocities and ranges.
A change of the frame epochs reseeds its filter. What was measured before the change has
then no influence on the positions and covariances after it, and an update that raises
changes nothing.
-/
namespace Mission10.Flight

set_option linter.unusedSectionVars false

open Engine (MathOps)
open Engine.MathOps Matrix

section Model

variable {K : Type*} [Field K] [LinearOrder K] [MathOps K]

/-- Without a value for a number that is not finite. -/
structure FusedRelativeEstimate (K : Type*) where
  position : Vector2 K
  covariance : Matrix2 K
  relativeVelocity : Vector2 K
  rangeM : Option K
  rangeRateMps : Option K
  residualM : Option K
  confidenceRadius95M : K
  sampleCount : ℕ
  reseeded : Bool

structure FusedRelativeTracker (K : Type*) where
  positionVariance : K
  rangeVariance : K
  ekf : RelativePositionEKF K
  lastTimeS : Option K
  lastRangeTimeS : Option K
  lastRangeM : Option K
  epochs : Option (ℤ × ℤ)
  sampleCount : ℕ

/-- The arguments of `update`. A time, a vector or a range that is not finite is `none`. -/
structure FusedCall (K : Type*) where
  timeS : Option K
  ownPosition : Option (Vector2 K)
  peerPosition : Option (Vector2 K)
  ownVelocity : Option (Vector2 K)
  peerVelocity : Option (Vector2 K)
  rangeM : Option K
  epochs : ℤ × ℤ

namespace FusedRelativeTracker

def new (positionNoiseStd rangeNoiseStd velocityNoiseStd : K) : FusedRelativeTracker K where
  positionVariance := positionNoiseStd ^ 2
  rangeVariance := rangeNoiseStd ^ 2
  ekf := RelativePositionEKF.new velocityNoiseStd
  lastTimeS := none
  lastRangeTimeS := none
  lastRangeM := none
  epochs := none
  sampleCount := 0

/-- A range that is finite and positive updates the filter. -/
def takeRange (tracker : FusedRelativeTracker K) (now : K) (rangeM : Option K) :
    FusedRelativeTracker K :=
  match rangeM with
  | none => tracker
  | some range =>
    if 0 < range then
      { tracker with
        ekf := tracker.ekf.updateRange range tracker.rangeVariance
        lastRangeTimeS := some now
        lastRangeM := some range
        sampleCount := tracker.sampleCount + 1 }
    else tracker

/-- The snapshot of a filter that has the estimate `s`. -/
def snapshot (np : LinearSolvers K) (tracker : FusedRelativeTracker K) (s : RelativeState K)
    (relativeVelocity : Vector2 K) (reseeded : Bool) : FusedRelativeEstimate K :=
  let distance := norm2 s.x
  { position := s.x
    covariance := s.P
    relativeVelocity := relativeVelocity
    rangeM := tracker.lastRangeM
    rangeRateMps :=
      if 1 / 10 ^ 6 < distance then some (s.x ⬝ᵥ relativeVelocity / distance) else none
    residualM := tracker.lastRangeM.map fun range => |distance - range|
    confidenceRadius95M := confidenceRadius np s.P
    sampleCount := tracker.sampleCount
    reseeded := reseeded }

/-- The part of `update` after the filter has taken the shared position. -/
def finish (np : LinearSolvers K) (tracker : FusedRelativeTracker K) (now : K)
    (rangeM : Option K) (relativeVelocity : Vector2 K) (reseeded : Bool) :
    FusedRelativeTracker K × Except String (FusedRelativeEstimate K) :=
  let measured := takeRange { tracker with lastTimeS := some now } now rangeM
  match measured.ekf.state with
  | none => (measured, .error "the filter has no estimate")
  | some s => (measured, .ok (measured.snapshot np s relativeVelocity reseeded))

/-- The filter starts anew when it has no estimate or the epochs have changed. -/
def reseeds (tracker : FusedRelativeTracker K) (call : FusedCall K) : Bool :=
  tracker.ekf.state.isNone || tracker.epochs != some call.epochs

/-- The part of `update` on finite values. -/
def updateFinite (np : LinearSolvers K) (tracker : FusedRelativeTracker K) (call : FusedCall K)
    (now : K) (relativePosition relativeVelocity : Vector2 K) :
    FusedRelativeTracker K × Except String (FusedRelativeEstimate K) :=
  let R := tracker.positionVariance • (1 : Matrix2 K)
  if tracker.lastTimeS.any fun last => now < last then
    (tracker, .error "fused relative-state timestamps must not move backwards")
  else if tracker.reseeds call then
    finish np { tracker with
      ekf := tracker.ekf.initFromGnss relativePosition R
      epochs := some call.epochs } now call.rangeM relativeVelocity true
  else
    let dt := (tracker.lastTimeS.map fun last => now - last).getD 0
    let predicted :=
      if 0 < dt then tracker.ekf.predict relativeVelocity dt else tracker.ekf
    match predicted.updateGnss relativePosition R with
    | .error e => ({ tracker with ekf := predicted }, .error e)
    | .ok ekf => finish np { tracker with ekf := ekf } now call.rangeM relativeVelocity false

/-- `update`, with the state after it. -/
def update (np : LinearSolvers K) (tracker : FusedRelativeTracker K) (call : FusedCall K) :
    FusedRelativeTracker K × Except String (FusedRelativeEstimate K) :=
  match call.timeS, call.ownPosition, call.peerPosition, call.ownVelocity, call.peerVelocity with
  | some now, some ownPosition, some peerPosition, some ownVelocity, some peerVelocity =>
    updateFinite np tracker call now (peerPosition - ownPosition) (peerVelocity - ownVelocity)
  | _, _, _, _, _ =>
    (tracker, .error "fused relative state requires finite time, pose, and velocity")

/-- The updates of a run and what each of them returns or raises. -/
def feed (np : LinearSolvers K) (tracker : FusedRelativeTracker K) :
    List (FusedCall K) →
      FusedRelativeTracker K × List (Except String (FusedRelativeEstimate K))
  | [] => (tracker, [])
  | call :: calls =>
    let (next, out) := tracker.update np call
    let (last, outs) := next.feed np calls
    (last, out :: outs)

end FusedRelativeTracker

end Model

/-! ### Runs -/

namespace FusedRelativeTracker

variable {np : LinearSolvers ℝ} {t t' : FusedRelativeTracker ℝ} {call : FusedCall ℝ}

@[simp] theorem feed_nil (t : FusedRelativeTracker ℝ) : t.feed np [] = (t, []) := rfl

@[simp] theorem feed_cons (t : FusedRelativeTracker ℝ) (call : FusedCall ℝ)
    (calls : List (FusedCall ℝ)) :
    t.feed np (call :: calls) = (((t.update np call).1.feed np calls).1,
      (t.update np call).2 :: ((t.update np call).1.feed np calls).2) := rfl

theorem feed_append (t : FusedRelativeTracker ℝ) (front back : List (FusedCall ℝ)) :
    t.feed np (front ++ back) = (((t.feed np front).1.feed np back).1,
      (t.feed np front).2 ++ ((t.feed np front).1.feed np back).2) := by
  induction front generalizing t with
  | nil => rfl
  | cons call front ih => rw [List.cons_append, feed_cons, feed_cons, ih, List.cons_append]

@[simp] theorem length_feed (t : FusedRelativeTracker ℝ) (calls : List (FusedCall ℝ)) :
    (t.feed np calls).2.length = calls.length := by
  induction calls generalizing t with
  | nil => rfl
  | cons call calls ih => rw [feed_cons, List.length_cons, ih, List.length_cons]

theorem drop_feed_append (t : FusedRelativeTracker ℝ) (front back : List (FusedCall ℝ)) :
    (t.feed np (front ++ back)).2.drop front.length = ((t.feed np front).1.feed np back).2 := by
  rw [feed_append, ← length_feed t front, List.drop_left]

/-- What the outputs have from the filter: position, covariance and the reseeded flag. -/
def published (out : Except String (FusedRelativeEstimate ℝ)) :
    Except String (Vector2 ℝ × Matrix2 ℝ × Bool) :=
  out.map fun e => (e.position, e.covariance, e.reseeded)

/-- The trackers have the same filter, the same clock and the same epochs. The last range
and the number of samples may differ. -/
structure SameFilter (t t' : FusedRelativeTracker ℝ) : Prop where
  positionVariance : t.positionVariance = t'.positionVariance
  rangeVariance : t.rangeVariance = t'.rangeVariance
  ekf : t.ekf = t'.ekf
  lastTimeS : t.lastTimeS = t'.lastTimeS
  epochs : t.epochs = t'.epochs

theorem takeRange_same (h : SameFilter t t') (now : ℝ) (rangeM : Option ℝ) :
    SameFilter (t.takeRange now rangeM) (t'.takeRange now rangeM) := by
  cases rangeM with
  | none => exact h
  | some range =>
    by_cases hpositive : 0 < range
    · simp only [takeRange, if_pos hpositive]
      refine ⟨h.positionVariance, h.rangeVariance, ?_, h.lastTimeS, h.epochs⟩
      rw [h.ekf, h.rangeVariance]
    · simp only [takeRange, if_neg hpositive]
      exact h

theorem finish_same (h : SameFilter t t') (now : ℝ) (rangeM : Option ℝ)
    (relativeVelocity : Vector2 ℝ) (reseeded : Bool) :
    SameFilter (finish np t now rangeM relativeVelocity reseeded).1
        (finish np t' now rangeM relativeVelocity reseeded).1 ∧
      published (finish np t now rangeM relativeVelocity reseeded).2 =
        published (finish np t' now rangeM relativeVelocity reseeded).2 := by
  have hclock : SameFilter { t with lastTimeS := some now } { t' with lastTimeS := some now } :=
    ⟨h.positionVariance, h.rangeVariance, h.ekf, rfl, h.epochs⟩
  have hmeasured := takeRange_same hclock now rangeM
  simp only [finish]
  rw [← hmeasured.ekf]
  cases (takeRange { t with lastTimeS := some now } now rangeM).ekf.state with
  | none => exact ⟨hmeasured, rfl⟩
  | some s => exact ⟨hmeasured, rfl⟩

theorem updateFinite_same (h : SameFilter t t') (call : FusedCall ℝ) (now : ℝ)
    (relativePosition relativeVelocity : Vector2 ℝ) :
    SameFilter (updateFinite np t call now relativePosition relativeVelocity).1
        (updateFinite np t' call now relativePosition relativeVelocity).1 ∧
      published (updateFinite np t call now relativePosition relativeVelocity).2 =
        published (updateFinite np t' call now relativePosition relativeVelocity).2 := by
  have hreseeds : t.reseeds call = t'.reseeds call := by
    rw [reseeds, reseeds, h.ekf, h.epochs]
  rcases t with ⟨positionVariance, rangeVariance, ekf, lastTimeS, _, _, epochs, _⟩
  rcases t' with ⟨_, _, _, _, _, _, _, _⟩
  obtain ⟨rfl, rfl, rfl, rfl, rfl⟩ := h
  simp only [updateFinite]
  rw [← hreseeds]
  split
  · exact ⟨⟨rfl, rfl, rfl, rfl, rfl⟩, rfl⟩
  · split
    · apply finish_same
      exact ⟨rfl, rfl, rfl, rfl, rfl⟩
    · split
      · exact ⟨⟨rfl, rfl, rfl, rfl, rfl⟩, rfl⟩
      · apply finish_same
        exact ⟨rfl, rfl, rfl, rfl, rfl⟩

theorem update_same (np : LinearSolvers ℝ) (h : SameFilter t t') (call : FusedCall ℝ) :
    SameFilter (t.update np call).1 (t'.update np call).1 ∧
      published (t.update np call).2 = published (t'.update np call).2 := by
  simp only [update]
  split
  · exact updateFinite_same h ..
  · exact ⟨h, rfl⟩

/-- Trackers with the same filter publish the same from there on. -/
theorem feed_same (h : SameFilter t t') (calls : List (FusedCall ℝ)) :
    (t.feed np calls).2.map published = (t'.feed np calls).2.map published := by
  induction calls generalizing t t' with
  | nil => rfl
  | cons call calls ih =>
    obtain ⟨hnext, hout⟩ := update_same np h call
    rw [feed_cons, feed_cons, List.map_cons, List.map_cons, hout, ih hnext]

/-! ### Updates that are accepted -/

/-- The tracker has the given parameters. -/
structure HasNoise (positionVariance rangeVariance velocityNoiseStd : ℝ)
    (t : FusedRelativeTracker ℝ) : Prop where
  position : t.positionVariance = positionVariance
  range : t.rangeVariance = rangeVariance
  velocity : t.ekf.velNoiseStd = velocityNoiseStd

@[simp] theorem velNoiseStd_predict (ekf : RelativePositionEKF ℝ) (relVel : Vector2 ℝ) (dt : ℝ) :
    (ekf.predict relVel dt).velNoiseStd = ekf.velNoiseStd := by
  rw [RelativePositionEKF.predict]
  split <;> rfl

@[simp] theorem velNoiseStd_updateRange (ekf : RelativePositionEKF ℝ) (range R : ℝ) :
    (ekf.updateRange range R).velNoiseStd = ekf.velNoiseStd := by
  rw [RelativePositionEKF.updateRange]
  split
  · rfl
  · dsimp only
    split <;> rfl

theorem velNoiseStd_updateGnss {ekf next : RelativePositionEKF ℝ} {diffGnss : Vector2 ℝ}
    {R : Matrix2 ℝ} (h : ekf.updateGnss diffGnss R = .ok next) :
    next.velNoiseStd = ekf.velNoiseStd := by
  rw [RelativePositionEKF.updateGnss] at h
  split at h
  · obtain rfl := Except.ok.inj h
    rfl
  · obtain ⟨inv, -, hnext⟩ := Outcome.bind_ok h
    obtain rfl := Outcome.pure_ok hnext
    rfl

section Noise

variable {positionVariance rangeVariance velocityNoiseStd : ℝ}

theorem HasNoise.takeRange (h : HasNoise positionVariance rangeVariance velocityNoiseStd t)
    (now : ℝ) (rangeM : Option ℝ) :
    HasNoise positionVariance rangeVariance velocityNoiseStd (t.takeRange now rangeM) := by
  simp only [FusedRelativeTracker.takeRange]
  split
  · exact h
  · split
    · exact ⟨h.position, h.range, by rw [velNoiseStd_updateRange, h.velocity]⟩
    · exact h

theorem HasNoise.finish (h : HasNoise positionVariance rangeVariance velocityNoiseStd t)
    (now : ℝ) (rangeM : Option ℝ) (relativeVelocity : Vector2 ℝ) (reseeded : Bool) :
    HasNoise positionVariance rangeVariance velocityNoiseStd
      (finish np t now rangeM relativeVelocity reseeded).1 := by
  have hmeasured := HasNoise.takeRange (t := { t with lastTimeS := some now })
    ⟨h.position, h.range, h.velocity⟩ now rangeM
  simp only [FusedRelativeTracker.finish]
  split <;> exact hmeasured

theorem HasNoise.update (h : HasNoise positionVariance rangeVariance velocityNoiseStd t)
    (call : FusedCall ℝ) :
    HasNoise positionVariance rangeVariance velocityNoiseStd (t.update np call).1 := by
  have hpredicted (relVel : Vector2 ℝ) (dt : ℝ) :
      (if 0 < dt then t.ekf.predict relVel dt else t.ekf).velNoiseStd = velocityNoiseStd := by
    split
    · rw [velNoiseStd_predict, h.velocity]
    · exact h.velocity
  rw [FusedRelativeTracker.update]
  split
  · rw [updateFinite]
    dsimp only
    split
    · exact h
    · split
      · apply HasNoise.finish
        exact ⟨h.position, h.range, h.velocity⟩
      · split
        · exact ⟨h.position, h.range, hpredicted _ _⟩
        · rename_i hupdate
          apply HasNoise.finish
          exact ⟨h.position, h.range, (velNoiseStd_updateGnss hupdate).trans (hpredicted _ _)⟩
  · exact h

theorem HasNoise.feed (np : LinearSolvers ℝ)
    (h : HasNoise positionVariance rangeVariance velocityNoiseStd t) (calls : List (FusedCall ℝ)) :
    HasNoise positionVariance rangeVariance velocityNoiseStd (t.feed np calls).1 := by
  induction calls generalizing t with
  | nil => exact h
  | cons call calls ih => exact ih (h.update call)

end Noise

/-- Whether the values of an update are finite does not depend on the tracker. -/
theorem update_cases (np : LinearSolvers ℝ) (call : FusedCall ℝ) :
    (∃ now relativePosition relativeVelocity, ∀ t : FusedRelativeTracker ℝ,
        t.update np call = updateFinite np t call now relativePosition relativeVelocity) ∨
      ∃ e, ∀ t : FusedRelativeTracker ℝ, t.update np call = (t, .error e) := by
  simp only [update]
  split
  · exact Or.inl ⟨_, _, _, fun _ => rfl⟩
  · exact Or.inr ⟨_, fun _ => rfl⟩

@[simp] theorem takeRange_epochs (t : FusedRelativeTracker ℝ) (now : ℝ) (rangeM : Option ℝ) :
    (t.takeRange now rangeM).epochs = t.epochs := by
  simp only [takeRange]
  split
  · rfl
  · split <;> rfl

@[simp] theorem finish_epochs (t : FusedRelativeTracker ℝ) (now : ℝ) (rangeM : Option ℝ)
    (relativeVelocity : Vector2 ℝ) (reseeded : Bool) :
    (finish np t now rangeM relativeVelocity reseeded).1.epochs = t.epochs := by
  simp only [finish]
  split <;> rw [takeRange_epochs]

/-- After an accepted update the epochs are those of the update. -/
theorem epochs_of_ok {e : FusedRelativeEstimate ℝ} (h : (t.update np call).2 = .ok e) :
    (t.update np call).1.epochs = some call.epochs := by
  rcases update_cases np call with ⟨now, p, v, hupdate⟩ | ⟨error, hupdate⟩
  · rw [hupdate] at h ⊢
    simp only [updateFinite] at h ⊢
    split at h
    · cases h
    · rename_i hback
      rw [if_neg hback]
      split at h
      · rename_i hreseeds
        rw [if_pos hreseeds, finish_epochs]
      · rename_i hreseeds
        rw [if_neg hreseeds]
        split at h
        · cases h
        · rw [finish_epochs]
          have hsame : (t.epochs != some call.epochs) = false := by
            simp only [reseeds, Bool.or_eq_true, not_or] at hreseeds
            exact Bool.eq_false_of_not_eq_true hreseeds.2
          simpa using hsame
  · rw [hupdate] at h
    cases h

/-- An accepted update that reseeds leaves a filter that depends on the update only. -/
theorem update_reseeded {positionVariance rangeVariance velocityNoiseStd : ℝ}
    (h : HasNoise positionVariance rangeVariance velocityNoiseStd t)
    (h' : HasNoise positionVariance rangeVariance velocityNoiseStd t')
    (hreseeds : t.reseeds call = true) (hreseeds' : t'.reseeds call = true)
    {e e' : FusedRelativeEstimate ℝ} (hok : (t.update np call).2 = .ok e)
    (hok' : (t'.update np call).2 = .ok e') :
    SameFilter (t.update np call).1 (t'.update np call).1 ∧
      published (t.update np call).2 = published (t'.update np call).2 := by
  rcases update_cases np call with ⟨now, p, v, hupdate⟩ | ⟨error, hupdate⟩
  · rw [hupdate] at hok hok' ⊢
    rw [hupdate]
    simp only [updateFinite] at hok hok' ⊢
    split at hok
    · cases hok
    split at hok'
    · cases hok'
    rename_i hback hback'
    rw [if_neg hback, if_neg hback', if_pos hreseeds, if_pos hreseeds']
    -- the clock before the update is overwritten
    have hstart : SameFilter
        { t with
          ekf := t.ekf.initFromGnss p (t.positionVariance • 1)
          epochs := some call.epochs
          lastTimeS := some now }
        { t' with
          ekf := t'.ekf.initFromGnss p (t'.positionVariance • 1)
          epochs := some call.epochs
          lastTimeS := some now } := by
      refine ⟨h.position.trans h'.position.symm, h.range.trans h'.range.symm, ?_, rfl, rfl⟩
      rw [RelativePositionEKF.initFromGnss, RelativePositionEKF.initFromGnss, h.position,
        h'.position, h.velocity, h'.velocity]
    exact finish_same hstart ..
  · rw [hupdate] at hok
    cases hok

/-! ### Updates that raise -/

theorem updateGnss_state {ekf next : RelativePositionEKF ℝ} {diffGnss : Vector2 ℝ}
    {R : Matrix2 ℝ} (h : ekf.updateGnss diffGnss R = .ok next) : next.state.isSome = true := by
  rw [RelativePositionEKF.updateGnss] at h
  split at h
  · obtain rfl := Except.ok.inj h
    rfl
  · obtain ⟨inv, -, hnext⟩ := Outcome.bind_ok h
    obtain rfl := Outcome.pure_ok hnext
    rfl

theorem updateRange_state {ekf : RelativePositionEKF ℝ} (h : ekf.state.isSome = true)
    (range R : ℝ) : (ekf.updateRange range R).state.isSome = true := by
  rw [RelativePositionEKF.updateRange]
  split
  · exact h
  · dsimp only
    split
    · exact h
    · rfl

theorem takeRange_sound (h : t.ekf.Sound) (hrange : 0 < t.rangeVariance) (now : ℝ)
    (rangeM : Option ℝ) : (t.takeRange now rangeM).ekf.Sound := by
  simp only [takeRange]
  split
  · exact h
  · split
    · rename_i range _
      have hvalid : EkfCall.Valid (.updateRange range t.rangeVariance) := hrange
      obtain ⟨next, hnext, hsound⟩ := RelativePositionEKF.call_sound h hvalid
      obtain rfl := Except.ok.inj hnext
      exact hsound
    · exact h

theorem takeRange_state (h : t.ekf.state.isSome = true) (now : ℝ) (rangeM : Option ℝ) :
    (t.takeRange now rangeM).ekf.state.isSome = true := by
  simp only [takeRange]
  split
  · exact h
  · split
    · exact updateRange_state h ..
    · exact h

/-- A filter with an estimate is reported. -/
theorem finish_ok (np : LinearSolvers ℝ) (h : t.ekf.Sound) (hrange : 0 < t.rangeVariance)
    (hstate : t.ekf.state.isSome = true) (now : ℝ) (rangeM : Option ℝ)
    (relativeVelocity : Vector2 ℝ) (reseeded : Bool) :
    (∃ e, (finish np t now rangeM relativeVelocity reseeded).2 = .ok e) ∧
      (finish np t now rangeM relativeVelocity reseeded).1.ekf.Sound := by
  have hsound : (takeRange { t with lastTimeS := some now } now rangeM).ekf.Sound :=
    takeRange_sound (t := { t with lastTimeS := some now }) h hrange now rangeM
  have hsome : (takeRange { t with lastTimeS := some now } now rangeM).ekf.state.isSome = true :=
    takeRange_state (t := { t with lastTimeS := some now }) hstate now rangeM
  obtain ⟨s, hs⟩ := Option.isSome_iff_exists.mp hsome
  simp only [finish, hs]
  exact ⟨⟨_, rfl⟩, hsound⟩

/-- Between positive noises an update either succeeds or changes nothing. -/
theorem update_sound (np : LinearSolvers ℝ) (h : t.ekf.Sound)
    (hposition : 0 < t.positionVariance) (hrange : 0 < t.rangeVariance) (call : FusedCall ℝ) :
    (t.update np call).1.ekf.Sound ∧
      ((∃ e, (t.update np call).2 = .ok e) ∨ (t.update np call).1 = t) := by
  have hR : (t.positionVariance • (1 : Matrix2 ℝ)).PosDef := PosDef.one.smul hposition
  rcases update_cases np call with ⟨now, p, v, hupdate⟩ | ⟨error, hupdate⟩
  · rw [hupdate]
    simp only [updateFinite]
    split
    · exact ⟨h, Or.inr rfl⟩
    split
    · obtain ⟨hok, hsound⟩ := finish_ok np
        (t := { t with
          ekf := t.ekf.initFromGnss p (t.positionVariance • 1)
          epochs := some call.epochs })
        (RelativePositionEKF.sound_of_posSemidef rfl hR.posSemidef) hrange rfl now call.rangeM v
        true
      exact ⟨hsound, Or.inl hok⟩
    · have hpredicted (dt : ℝ) : (if 0 < dt then t.ekf.predict v dt else t.ekf).Sound := by
        split
        · have hvalid : EkfCall.Valid (.predict v dt) := trivial
          obtain ⟨next, hnext, hsound⟩ := RelativePositionEKF.call_sound h hvalid
          obtain rfl := Except.ok.inj hnext
          exact hsound
        · exact h
      have hvalid : EkfCall.Valid (.updateGnss p (t.positionVariance • 1)) := hR
      obtain ⟨next, hnext, hsound⟩ := RelativePositionEKF.call_sound
        (hpredicted ((t.lastTimeS.map fun last => now - last).getD 0)) hvalid
      rw [RelativePositionEKF.call] at hnext
      rw [hnext]
      obtain ⟨hok, hsound'⟩ := finish_ok np (t := { t with ekf := next }) hsound hrange
        (updateGnss_state hnext) now call.rangeM v false
      exact ⟨hsound', Or.inl hok⟩
  · rw [hupdate]
    exact ⟨h, Or.inr rfl⟩

theorem feed_sound (np : LinearSolvers ℝ)
    {positionVariance rangeVariance velocityNoiseStd : ℝ} (h : t.ekf.Sound) (hnoise : HasNoise positionVariance rangeVariance velocityNoiseStd t)
    (hposition : 0 < positionVariance) (hrange : 0 < rangeVariance)
    (calls : List (FusedCall ℝ)) : (t.feed np calls).1.ekf.Sound := by
  induction calls generalizing t with
  | nil => exact h
  | cons call calls ih =>
    apply ih _ (hnoise.update call)
    apply (update_sound np h _ _ call).1
    · rw [hnoise.position]
      exact hposition
    · rw [hnoise.range]
      exact hrange

/-- After a run whose updates were all accepted, a call with other epochs than the last
update reseeds. -/
theorem reseeds_of_run {positionNoiseStd rangeNoiseStd velocityNoiseStd : ℝ}
    {front : List (FusedCall ℝ)}
    (haccepted : ∀ out ∈ ((new positionNoiseStd rangeNoiseStd velocityNoiseStd).feed np front).2,
      ∃ e, out = .ok e)
    (hepochs : ∀ before ∈ front.getLast?, before.epochs ≠ call.epochs) :
    ((new positionNoiseStd rangeNoiseStd velocityNoiseStd).feed np front).1.reseeds call =
      true := by
  rcases List.eq_nil_or_concat' front with rfl | ⟨front, before, rfl⟩
  · rfl
  · rw [feed_append] at haccepted ⊢
    simp only [feed_cons, feed_nil] at haccepted ⊢
    obtain ⟨e, he⟩ := haccepted _ (List.mem_append_right _ (List.mem_singleton_self _))
    rw [reseeds, epochs_of_ok he, Bool.or_eq_true]
    right
    simpa using hepochs before (by simp)

/-- No update of a run was refused. -/
def Accepted (outs : List (Except String (FusedRelativeEstimate ℝ))) : Prop :=
  ∀ out ∈ outs, ∃ e, out = .ok e

/-- Two runs with positive noises that go on with the same updates publish the same from
there on, when the first of these updates has other epochs than the one before it in both
runs. An update that raises changes nothing that is published later. -/
theorem epochs_isolate (np : LinearSolvers ℝ) {positionNoiseStd rangeNoiseStd : ℝ}
    (hposition : 0 < positionNoiseStd) (hrange : 0 < rangeNoiseStd) (velocityNoiseStd : ℝ) :
    (∀ (front front' : List (FusedCall ℝ)) (call : FusedCall ℝ) (rest : List (FusedCall ℝ)),
      Accepted ((new positionNoiseStd rangeNoiseStd velocityNoiseStd).feed np
        (front ++ call :: rest)).2 →
      Accepted ((new positionNoiseStd rangeNoiseStd velocityNoiseStd).feed np
        (front' ++ call :: rest)).2 →
      (∀ before ∈ front.getLast?, before.epochs ≠ call.epochs) →
      (∀ before ∈ front'.getLast?, before.epochs ≠ call.epochs) →
      (((new positionNoiseStd rangeNoiseStd velocityNoiseStd).feed np
          (front ++ call :: rest)).2.drop front.length).map published =
        (((new positionNoiseStd rangeNoiseStd velocityNoiseStd).feed np
          (front' ++ call :: rest)).2.drop front'.length).map published) ∧
    ∀ (front : List (FusedCall ℝ)) (bad : FusedCall ℝ) (back : List (FusedCall ℝ)) (e : String),
      (((new positionNoiseStd rangeNoiseStd velocityNoiseStd).feed np front).1.update np bad).2 =
        .error e →
      ((new positionNoiseStd rangeNoiseStd velocityNoiseStd).feed np
          (front ++ bad :: back)).2.drop (front.length + 1) =
        ((new positionNoiseStd rangeNoiseStd velocityNoiseStd).feed np
          (front ++ back)).2.drop front.length := by
  have hnoise : HasNoise (positionNoiseStd ^ 2) (rangeNoiseStd ^ 2) velocityNoiseStd
      (new positionNoiseStd rangeNoiseStd velocityNoiseStd) := ⟨rfl, rfl, rfl⟩
  have hvariance : 0 < positionNoiseStd ^ 2 := pow_pos hposition 2
  have hvariance' : 0 < rangeNoiseStd ^ 2 := pow_pos hrange 2
  constructor
  · intro front front' call rest haccepted haccepted' hepochs hepochs'
    rw [drop_feed_append, drop_feed_append]
    rw [feed_append] at haccepted haccepted'
    obtain ⟨e, he⟩ := haccepted _ (List.mem_append_right _ (List.mem_cons_self ..))
    obtain ⟨e', he'⟩ := haccepted' _ (List.mem_append_right _ (List.mem_cons_self ..))
    have hfront := reseeds_of_run (fun out hout => haccepted out (List.mem_append_left _ hout))
      hepochs
    have hfront' := reseeds_of_run (fun out hout => haccepted' out (List.mem_append_left _ hout))
      hepochs'
    obtain ⟨hsame, hout⟩ := update_reseeded (hnoise.feed np front)
      (hnoise.feed np front') hfront hfront' he he'
    rw [feed_cons, feed_cons, List.map_cons, List.map_cons, hout, feed_same hsame]
  · intro front bad back e hbad
    have hfed := hnoise.feed np front
    have hsound := feed_sound np (RelativePositionEKF.sound_new velocityNoiseStd) hnoise
      hvariance hvariance' front
    have hunchanged := (update_sound np hsound (hfed.position ▸ hvariance)
      (hfed.range ▸ hvariance') bad).2
    have hsame := hunchanged.resolve_left (by
      rintro ⟨ok, hok⟩
      rw [hbad] at hok
      cases hok)
    rw [drop_feed_append, ← List.drop_drop, drop_feed_append, feed_cons, hsame]
    rfl

/-- A peer three metres to the east. -/
noncomputable def benchUpdate (timeS : ℝ) (epochs : ℤ × ℤ) : FusedCall ℝ :=
  ⟨some timeS, some 0, some ![3, 0], some 0, some 0, none, epochs⟩

/-- A run that starts in new frames, and one that comes to them from others. -/
theorem epochs_isolate_bench :
    ((new (3 / 5) (1 / 10) (3 / 10)).feed columnSolvers [benchUpdate 1 (1, 0)]).2.map published =
      (((new (3 / 5) (1 / 10) (3 / 10)).feed columnSolvers
        [benchUpdate 0 (0, 0), benchUpdate 1 (1, 0)]).2.drop 1).map published := by
  have hback : ¬ (1 : ℝ) < 0 := by norm_num
  refine (epochs_isolate columnSolvers (by norm_num) (by norm_num) (3 / 10)).1 []
    [benchUpdate 0 (0, 0)] (benchUpdate 1 (1, 0)) [] ?_ ?_ (by simp) (by simp [benchUpdate])
  · simp [Accepted, benchUpdate, feed, update, updateFinite, reseeds, finish, takeRange, new,
      RelativePositionEKF.new, RelativePositionEKF.initFromGnss]
  · simp [Accepted, benchUpdate, feed, update, updateFinite, reseeds, finish, takeRange, new,
      RelativePositionEKF.new, RelativePositionEKF.initFromGnss, hback]

end FusedRelativeTracker

end Mission10.Flight
