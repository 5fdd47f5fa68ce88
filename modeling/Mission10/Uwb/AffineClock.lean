import Mission10.Library.Numerals
import Mission10.Uwb.ClockCorrelator
import Mission10.Uwb.Scheduler

/-!
# The affine clock model

A model maps times of the source clock to the target clock and back along a line
through its anchor, in 64-bit arithmetic that is checked, and bounds the error of
the map by the error at the anchor and the drift since. At a whole rate the map is
the line itself, wherever it is defined.
-/
namespace Mission10.Uwb

open FixedPoint

/-- A `u128` as a `u64`, if it fits. -/
def tryU64 (n : ℕ) : Option UInt64 := if n < 2 ^ 64 then some (UInt64.ofNat n) else none

def checkedAdd (a b : UInt64) : Option UInt64 := tryU64 (a.toNat + b.toNat)

def checkedSub (a b : UInt64) : Option UInt64 := if b ≤ a then some (a - b) else none

/-- `u64::abs_diff`. -/
def absDiff (a b : UInt64) : UInt64 := if a ≤ b then b - a else a - b

/-- `u32::saturating_add`. -/
def saturatingAdd32 (a b : UInt32) : UInt32 :=
  if a.toNat + b.toNat < 2 ^ 32 then a + b else UInt32.ofNat (2 ^ 32 - 1)

/-- A whole rate with 32 binary digits behind the point. -/
def q32Rate (integerTicksPerSource : UInt64) : UInt64 := integerTicksPerSource <<< 32

namespace AffineClockModel

def anchorSource (model : AffineClockModel) : UInt64 := model.sourceAnchor

def targetAt (model : AffineClockModel) (source : UInt64) : Option UInt64 := do
  let rate := model.targetTicksPerSourceQ32.toNat
  if model.sourceAnchor ≤ source then
    let delta ← tryU64 (scale 32 rate (source - model.sourceAnchor).toNat)
    checkedAdd model.targetAnchor delta
  else
    let delta ← tryU64 (scale 32 rate (model.sourceAnchor - source).toNat)
    checkedSub model.targetAnchor delta

/-- The division by a rate of zero, which panics, is `none`. -/
def sourceAt (model : AffineClockModel) (target : UInt64) : Option UInt64 := do
  let rate := model.targetTicksPerSourceQ32.toNat
  if rate = 0 then none
  else if model.targetAnchor ≤ target then
    let delta ← tryU64 (unscale 32 rate (target - model.targetAnchor).toNat)
    checkedAdd model.sourceAnchor delta
  else
    let delta ← tryU64 (unscale 32 rate (model.targetAnchor - target).toNat)
    checkedSub model.sourceAnchor delta

/-- The error that the drift adds since the anchor. -/
def growth (model : AffineClockModel) (source : UInt64) : ℕ :=
  (absDiff source model.sourceAnchor).toNat * model.driftPpm.toNat / 1000000

def errorAt (model : AffineClockModel) (source : UInt64) : UInt32 :=
  saturatingAdd32 model.errorAtAnchorUs (UInt32.ofNat (min (model.growth source) (2 ^ 32 - 1)))

def mapsAtSource (model : AffineClockModel) (sourceTime : UInt64) : Bool :=
  decide (model.errorAt sourceTime ≤ mappingMaxErrorUs)

/-- The error bound has reached the largest number there is. -/
def Saturates (model : AffineClockModel) (source : UInt64) : Prop :=
  2 ^ 32 ≤ model.errorAtAnchorUs.toNat + model.growth source

end AffineClockModel

/-! ### Checked arithmetic -/

theorem tryU64_eq_some {n : ℕ} {u : UInt64} : tryU64 n = some u ↔ u.toNat = n := by
  unfold tryU64
  constructor
  · intro h
    split_ifs at h with hlt
    rw [← Option.some.inj h, UInt64.toNat_ofNat', Nat.mod_eq_of_lt hlt]
  · intro h
    have hlt := u.toNat_lt
    rw [if_pos (by omega), ← h, UInt64.ofNat_toNat]

theorem exists_toNat {n : ℕ} (h : n < 2 ^ 64) : ∃ u : UInt64, u.toNat = n :=
  ⟨UInt64.ofNat n, UInt64.toNat_ofNat_of_lt' h⟩

theorem checkedAdd_eq_some {a b u : UInt64} :
    checkedAdd a b = some u ↔ u.toNat = a.toNat + b.toNat := tryU64_eq_some

theorem checkedSub_eq_some {a b u : UInt64} :
    checkedSub a b = some u ↔ a.toNat = u.toNat + b.toNat := by
  unfold checkedSub
  constructor
  · intro h
    split_ifs at h with hle
    have hdiff := UInt64.toNat_sub_of_le a b hle
    have hnat := UInt64.le_iff_toNat_le.mp hle
    rw [← Option.some.inj h]
    omega
  · intro h
    have hle : b ≤ a := by
      rw [UInt64.le_iff_toNat_le]
      omega
    have hdiff := UInt64.toNat_sub_of_le a b hle
    rw [if_pos hle]
    refine congrArg some (UInt64.toNat.inj ?_)
    omega

theorem toNat_absDiff (a b : UInt64) : ((absDiff a b).toNat : ℤ) = |(a.toNat : ℤ) - b.toNat| := by
  unfold absDiff
  split_ifs with hle
  · have hdiff := UInt64.toNat_sub_of_le b a hle
    have hnat := UInt64.le_iff_toNat_le.mp hle
    rw [abs_of_nonpos (by omega)]
    omega
  · have hle : b ≤ a := (UInt64.le_total a b).resolve_left hle
    have hdiff := UInt64.toNat_sub_of_le a b hle
    have hnat := UInt64.le_iff_toNat_le.mp hle
    rw [abs_of_nonneg (by omega)]
    omega

theorem toNat_saturatingAdd32 (a b : UInt32) :
    (saturatingAdd32 a b).toNat = min (a.toNat + b.toNat) (2 ^ 32 - 1) := by
  unfold saturatingAdd32
  split_ifs with hlt
  · rw [UInt32.toNat_add, Nat.mod_eq_of_lt hlt]
    omega
  · rw [UInt32.toNat_ofNat']
    omega

theorem toNat_q32Rate {k : UInt64} (hk : k.toNat * 2 ^ 32 < 2 ^ 64) :
    (q32Rate k).toNat = whole 32 k.toNat := by
  rw [q32Rate, UInt64.toNat_shiftLeft, whole, Nat.shiftLeft_eq]
  exact Nat.mod_eq_of_lt hk

/-! ### The map at a whole rate -/

namespace AffineClockModel

section Whole

variable {model : AffineClockModel} {k : ℕ}

/-- The target is on the line through the anchor. -/
theorem targetAt_eq_some (hrate : model.targetTicksPerSourceQ32.toNat = whole 32 k)
    {source target : UInt64} : model.targetAt source = some target ↔
      (target.toNat : ℤ) = model.targetAnchor.toNat +
        ((source.toNat : ℤ) - model.sourceAnchor.toNat) * k := by
  have htarget := target.toNat_lt
  unfold targetAt
  dsimp only
  rw [hrate, scale_whole, scale_whole]
  by_cases hle : model.sourceAnchor ≤ source
  · have hdiff := UInt64.toNat_sub_of_le source model.sourceAnchor hle
    have hnat := UInt64.le_iff_toNat_le.mp hle
    have hage : ((source - model.sourceAnchor).toNat : ℤ) =
        source.toNat - model.sourceAnchor.toNat := by omega
    rw [if_pos hle, Option.bind_eq_bind, Option.bind_eq_some_iff]
    simp only [tryU64_eq_some, checkedAdd_eq_some]
    rw [← hage, ← Nat.cast_mul, ← Nat.cast_add, Nat.cast_inj]
    generalize (source - model.sourceAnchor).toNat * k = delta
    constructor
    · rintro ⟨u, hu, hsum⟩
      rw [hsum, hu]
    · intro hsum
      obtain ⟨u, hu⟩ := exists_toNat (n := delta) (by omega)
      exact ⟨u, hu, by rw [hsum, hu]⟩
  · have hle' : source ≤ model.sourceAnchor := (UInt64.le_total _ _).resolve_left hle
    have hdiff := UInt64.toNat_sub_of_le model.sourceAnchor source hle'
    have hnat := UInt64.le_iff_toNat_le.mp hle'
    have hage : -((model.sourceAnchor - source).toNat : ℤ) =
        source.toNat - model.sourceAnchor.toNat := by omega
    have hanchor := model.targetAnchor.toNat_lt
    rw [if_neg hle, Option.bind_eq_bind, Option.bind_eq_some_iff]
    simp only [tryU64_eq_some, checkedSub_eq_some]
    rw [← hage, neg_mul, ← Nat.cast_mul]
    generalize (model.sourceAnchor - source).toNat * k = delta
    constructor
    · rintro ⟨u, hu, hsum⟩
      omega
    · intro hsum
      obtain ⟨u, hu⟩ := exists_toNat (n := delta) (by omega)
      exact ⟨u, hu, by omega⟩

/-- A target on the line is taken back to its source. -/
theorem sourceAt_of_line (hk : 0 < k)
    (hrate : model.targetTicksPerSourceQ32.toNat = whole 32 k) {source target : UInt64}
    (hline : (target.toNat : ℤ) = model.targetAnchor.toNat +
      ((source.toNat : ℤ) - model.sourceAnchor.toNat) * k) :
    model.sourceAt target = some source := by
  have hpos : whole 32 k ≠ 0 := (Nat.mul_pos hk (Nat.two_pow_pos 32)).ne'
  have hkInt : (0 : ℤ) < k := by omega
  unfold sourceAt
  dsimp only
  rw [hrate, if_neg hpos]
  by_cases hle : model.targetAnchor ≤ target
  · have hdiff := UInt64.toNat_sub_of_le target model.targetAnchor hle
    have hnat := UInt64.le_iff_toNat_le.mp hle
    have hage : (0 : ℤ) ≤ (source.toNat : ℤ) - model.sourceAnchor.toNat := by
      refine nonneg_of_mul_nonneg_left ?_ hkInt
      omega
    obtain ⟨age, hage⟩ := Int.eq_ofNat_of_zero_le hage
    have hcount : (target - model.targetAnchor).toNat = age * k := by
      rw [hage] at hline
      zify [hnat] at hdiff ⊢
      omega
    rw [if_pos hle, hcount, unscale_mul hk, Option.bind_eq_bind, Option.bind_eq_some_iff]
    have hsource := source.toNat_lt
    obtain ⟨u, hu⟩ := exists_toNat (n := age) (by omega)
    exact ⟨u, tryU64_eq_some.mpr hu, checkedAdd_eq_some.mpr (by omega)⟩
  · have hle' : target ≤ model.targetAnchor := (UInt64.le_total _ _).resolve_left hle
    have hdiff := UInt64.toNat_sub_of_le model.targetAnchor target hle'
    have hnat := UInt64.le_iff_toNat_le.mp hle'
    have hage : (0 : ℤ) ≤ (model.sourceAnchor.toNat : ℤ) - source.toNat := by
      refine nonneg_of_mul_nonneg_left ?_ hkInt
      rw [← neg_sub, neg_mul]
      omega
    obtain ⟨age, hage⟩ := Int.eq_ofNat_of_zero_le hage
    have hcount : (model.targetAnchor - target).toNat = age * k := by
      rw [← neg_sub, hage, neg_mul] at hline
      zify [hnat] at hdiff ⊢
      omega
    rw [if_neg hle, hcount, unscale_mul hk, Option.bind_eq_bind, Option.bind_eq_some_iff]
    have hanchor := model.sourceAnchor.toNat_lt
    obtain ⟨u, hu⟩ := exists_toNat (n := age) (by omega)
    exact ⟨u, tryU64_eq_some.mpr hu, checkedSub_eq_some.mpr (by omega)⟩

end Whole

/-- The bound is the error at the anchor and the drift, up to the largest number. -/
theorem toNat_errorAt (model : AffineClockModel) (source : UInt64) :
    (model.errorAt source).toNat =
      min (model.errorAtAnchorUs.toNat + model.growth source) (2 ^ 32 - 1) := by
  have hsize : min (model.growth source) (2 ^ 32 - 1) < UInt32.size := by
    have hmax : UInt32.size = 2 ^ 32 := rfl
    omega
  rw [errorAt, toNat_saturatingAdd32, UInt32.toNat_ofNat_of_lt' hsize]
  omega

/-- A whole number within a fraction is within its floor. -/
theorem abs_le_growth {model : AffineClockModel} {source : UInt64} {deviation : ℤ}
    (h : 1000000 * |deviation| ≤
      model.driftPpm.toNat * |(source.toNat : ℤ) - model.sourceAnchor.toNat|) :
    |deviation| ≤ model.growth source := by
  rw [← toNat_absDiff, mul_comm (model.driftPpm.toNat : ℤ)] at h
  rw [growth, Int.natCast_ediv, Nat.cast_mul]
  exact (Int.le_ediv_iff_mul_le (by decide)).mpr (by omega)

end AffineClockModel

/-! ### The model of a sample -/

/-- The target clock, read as a function of the source clock, agrees with the sample up
to its error, and its rate since then with one tick a tick up to the drift. -/
structure TrueClock (sample : CorrelationSample) (driftPpm : UInt32)
    (trueTarget : UInt64 → ℤ) : Prop where
  anchored : |trueTarget sample.source - sample.target.toNat| ≤ sample.errorUs.toNat
  rate : ∀ source, 1000000 *
    |trueTarget source - trueTarget sample.source -
      ((source.toNat : ℤ) - sample.source.toNat)| ≤
    driftPpm.toNat * |(source.toNat : ℤ) - sample.source.toNat|

/-- The target differs from the true one by the error at the anchor and the drift. -/
theorem TrueClock.deviation {sample : CorrelationSample} {driftPpm : UInt32}
    {trueTarget : UInt64 → ℤ} (h : TrueClock sample driftPpm trueTarget) {rate : UInt64}
    {source target : UInt64}
    (htarget : (target.toNat : ℤ) = sample.target.toNat +
      ((source.toNat : ℤ) - sample.source.toNat)) :
    |trueTarget source - target.toNat| ≤ sample.errorUs.toNat +
      (AffineClockModel.fromSample sample rate driftPpm).growth source := by
  have hdrift := @AffineClockModel.abs_le_growth
    (AffineClockModel.fromSample sample rate driftPpm) source _ (h.rate source)
  have hanchored := h.anchored
  rw [abs_le] at hdrift hanchored ⊢
  omega

/-- At a whole rate the map keeps the order of times and is undone by the map back. At a
rate of one it is off by no more than the error bound, unless that saturates. -/
theorem affine_clock_sound (sample : CorrelationSample) (k : UInt64) (driftPpm : UInt32)
    (hk : 0 < k) (hshift : k.toNat * 2 ^ 32 < 2 ^ 64) :
    let model := AffineClockModel.fromSample sample (q32Rate k) driftPpm
    (∀ source later target laterTarget, source ≤ later →
        model.targetAt source = some target → model.targetAt later = some laterTarget →
          target ≤ laterTarget) ∧
      (∀ source target, model.targetAt source = some target →
        model.sourceAt target = some source) ∧
      (k = 1 → ∀ trueTarget : UInt64 → ℤ, TrueClock sample driftPpm trueTarget →
        ∀ source target, model.targetAt source = some target → ¬ model.Saturates source →
          |trueTarget source - target.toNat| ≤ (model.errorAt source).toNat) := by
  intro model
  have hpos : 0 < k.toNat := UInt64.lt_iff_toNat_lt.mp hk
  have hrate : model.targetTicksPerSourceQ32.toNat = whole 32 k.toNat := toNat_q32Rate hshift
  refine ⟨?_, ?_, ?_⟩
  · intro source later target laterTarget hle htarget hlater
    rw [AffineClockModel.targetAt_eq_some hrate] at htarget hlater
    have hnat := UInt64.le_iff_toNat_le.mp hle
    have hage : ((source.toNat : ℤ) - model.sourceAnchor.toNat) * k.toNat ≤
        ((later.toNat : ℤ) - model.sourceAnchor.toNat) * k.toNat :=
      mul_le_mul_of_nonneg_right (by omega) (by omega)
    rw [UInt64.le_iff_toNat_le]
    omega
  · intro source target htarget
    exact AffineClockModel.sourceAt_of_line hpos hrate
      ((AffineClockModel.targetAt_eq_some hrate).mp htarget)
  · intro hone trueTarget htrue source target htarget hsaturates
    rw [AffineClockModel.targetAt_eq_some hrate, hone, UInt64.toNat_one, Nat.cast_one,
      mul_one] at htarget
    have hdeviation : |trueTarget source - target.toNat| ≤
        sample.errorUs.toNat + model.growth source :=
      htrue.deviation htarget
    have herror := model.toNat_errorAt source
    rw [AffineClockModel.Saturates, not_le] at hsaturates
    rw [min_eq_left (by omega)] at herror
    rw [herror, Nat.cast_add]
    exact hdeviation

def sampleClock : CorrelationSample where
  source := 1000
  target := 5000
  errorUs := 20
  generation := 1

/-- A target clock that is 10 ahead of the sample, and loses a tick after 40 ms. -/
def sampleTruth (source : UInt64) : ℤ :=
  (source.toNat : ℤ) + 4010 - if 41000 ≤ source.toNat then 1 else 0

theorem affine_clock_sound_sample :
    (∃ target, (AffineClockModel.fromSample sampleClock (q32Rate 1) 50).targetAt 50000 =
        some target ∧ |sampleTruth 50000 - target.toNat| ≤
      ((AffineClockModel.fromSample sampleClock (q32Rate 1) 50).errorAt 50000).toNat) ∧
      (AffineClockModel.fromSample sampleClock (q32Rate 3) 50).sourceAt 6500 = some 1500 := by
  obtain ⟨-, -, hbound⟩ := affine_clock_sound sampleClock 1 50 (by decide) (by decide)
  obtain ⟨-, hinverse, -⟩ := affine_clock_sound sampleClock 3 50 (by decide) (by decide)
  have htruth : TrueClock sampleClock 50 sampleTruth := by
    refine ⟨by decide, ?_⟩
    intro source
    have hanchor : sampleTruth sampleClock.source = 5010 := by decide
    have hsource : sampleClock.source.toNat = 1000 := rfl
    have hdrift : (50 : UInt32).toNat = 50 := rfl
    rw [hanchor, hsource, hdrift, sampleTruth]
    split_ifs with hlate
    · rw [abs_of_nonneg (a := (source.toNat : ℤ) - (1000 : ℕ)) (by omega),
        abs_of_nonpos (by omega)]
      omega
    · rw [abs_of_nonneg (by omega)]
      have hage := abs_nonneg ((source.toNat : ℤ) - (1000 : ℕ))
      omega
  refine ⟨⟨54000, by decide, ?_⟩, hinverse 1500 6500 (by decide)⟩
  refine hbound rfl sampleTruth htruth 50000 54000 (by decide) ?_
  rw [AffineClockModel.Saturates]
  decide

end Mission10.Uwb
