import Mathlib.Algebra.Order.ToIntervalMod
import Mission10.Flight.PhasedOrbits

/-!
# Reciprocal phase deconfliction

Two drones that expect a close approach evaluate `phase_deconflict_rate` each from its
own side. The gap of the phases, wrapped, tells which is ahead; where it is next to
nothing the ids decide. The two sides agree on the split except where the phases are
opposite: the wrapped gap is then -π on both sides, and both drones slow down.
-/
namespace Mission10.Flight

open Engine (MathOps)
open Engine.MathOps

/-- The keyword arguments. -/
structure DeconflictSettings (K : Type*) where
  clearance : K
  horizon : K
  maxScale : K
  minScale : K

/-- A rate with the severity of the conflict. -/
structure DeconflictRate (K : Type*) where
  rate : K
  severity : K

section Model

variable {K : Type*} [Field K] [LinearOrder K] [MathOps K]

/-- The defaults of the source. -/
def DeconflictSettings.declared : DeconflictSettings K := ⟨5 / 2, 7 / 2, 3 / 2, 1 / 2⟩

/-- The drone takes itself for the one ahead. -/
def isAhead (ownPhase peerPhase : K) (vehicleId peerId : ℤ) : Prop :=
  let gap := wrapAngle (ownPhase - peerPhase)
  if |gap| > 1 / 10 ^ 6 then gap > 0 else vehicleId < peerId

instance (ownPhase peerPhase : K) (vehicleId peerId : ℤ) :
    Decidable (isAhead ownPhase peerPhase vehicleId peerId) := by
  unfold isAhead
  infer_instance

def conflictSeverity (settings : DeconflictSettings K) (tCpa dCpa : K) : K :=
  clip ((settings.clearance - dCpa) / settings.clearance * (1 - tCpa / settings.horizon)) 0 1

/-- A clearance or a horizon of zero is a division by zero where it is met. -/
def phaseDeconflictRate (settings : DeconflictSettings K) (ownPhase peerPhase nominalRate tCpa
    dCpa : K) (vehicleId peerId : ℤ) : Except String (DeconflictRate K) :=
  if tCpa > settings.horizon ∨ dCpa ≥ settings.clearance then
    .ok ⟨nominalRate, 0⟩
  else if settings.clearance = 0 ∨ settings.horizon = 0 then
    .error "float division by zero"
  else
    let severity := conflictSeverity settings tCpa dCpa
    let rate := if isAhead ownPhase peerPhase vehicleId peerId then
        nominalRate * (1 + (settings.maxScale - 1) * severity)
      else nominalRate * (1 - (1 - settings.minScale) * severity)
    .ok ⟨clip rate (settings.minScale * nominalRate) (settings.maxScale * nominalRate), severity⟩

end Model

/-! ### The wrapped angle -/

theorem wrapAngle_real (a : ℝ) : wrapAngle a = toIcoMod Real.two_pi_pos (-Real.pi) a := by
  symm
  rw [toIcoMod, toIcoDiv_eq_floor, wrapAngle, remainder, Engine.floor_real]
  show a - ⌊(a - -Real.pi) / (2 * Real.pi)⌋ • (2 * Real.pi) =
    a + Real.pi - 2 * Real.pi * ⌊(a + Real.pi) / (2 * Real.pi)⌋ - Real.pi
  rw [sub_neg_eq_add, zsmul_eq_mul]
  ring

theorem wrapAngle_eq_iff {a w : ℝ} :
    wrapAngle a = w ↔ (-Real.pi ≤ w ∧ w < Real.pi) ∧ ∃ k : ℤ, a = w + k * (2 * Real.pi) := by
  rw [wrapAngle_real, toIcoMod_eq_iff, Set.mem_Ico,
    show -Real.pi + 2 * Real.pi = Real.pi by ring]
  simp only [zsmul_eq_mul]

/-- Opposite phases: an odd number of half turns apart. -/
def OppositePhases (ownPhase peerPhase : ℝ) : Prop :=
  ∃ k : ℤ, ownPhase - peerPhase = (2 * k + 1) * Real.pi

theorem OppositePhases.symm {ownPhase peerPhase : ℝ} (h : OppositePhases ownPhase peerPhase) :
    OppositePhases peerPhase ownPhase := by
  obtain ⟨k, hk⟩ := h
  refine ⟨-k - 1, ?_⟩
  push_cast
  linarith

/-- The gap of opposite phases is negative from both sides. -/
theorem wrapAngle_opposite_iff {ownPhase peerPhase : ℝ} :
    wrapAngle (ownPhase - peerPhase) = -Real.pi ↔ OppositePhases ownPhase peerPhase := by
  rw [wrapAngle_eq_iff]
  have hpos := Real.pi_pos
  constructor
  · intro h
    obtain ⟨-, k, hk⟩ := h
    refine ⟨k - 1, ?_⟩
    push_cast
    linarith
  · intro h
    obtain ⟨k, hk⟩ := h
    refine ⟨⟨le_rfl, by linarith⟩, k + 1, ?_⟩
    push_cast
    linarith

/-- Otherwise the two sides see gaps of opposite sign. -/
theorem wrapAngle_swap {ownPhase peerPhase : ℝ} (h : ¬ OppositePhases ownPhase peerPhase) :
    wrapAngle (peerPhase - ownPhase) = -wrapAngle (ownPhase - peerPhase) := by
  obtain ⟨⟨hlow, hup⟩, k, hk⟩ := wrapAngle_eq_iff.mp (rfl : wrapAngle (ownPhase - peerPhase) = _)
  have hne : wrapAngle (ownPhase - peerPhase) ≠ -Real.pi :=
    fun he => h (wrapAngle_opposite_iff.mp he)
  have hlt : -Real.pi < wrapAngle (ownPhase - peerPhase) := lt_of_le_of_ne hlow hne.symm
  apply wrapAngle_eq_iff.mpr
  refine ⟨⟨by linarith, by linarith⟩, -k, ?_⟩
  push_cast
  linarith

/-! ### The two sides -/

theorem isAhead_of_gap {ownPhase peerPhase : ℝ}
    (hgap : 1 / 10 ^ 6 < |wrapAngle (ownPhase - peerPhase)|) (vehicleId peerId : ℤ) :
    isAhead ownPhase peerPhase vehicleId peerId ↔ 0 < wrapAngle (ownPhase - peerPhase) := by
  unfold isAhead
  dsimp only
  rw [if_pos hgap]

theorem isAhead_of_tie {ownPhase peerPhase : ℝ}
    (hgap : ¬ 1 / 10 ^ 6 < |wrapAngle (ownPhase - peerPhase)|) (vehicleId peerId : ℤ) :
    isAhead ownPhase peerPhase vehicleId peerId ↔ vehicleId < peerId := by
  unfold isAhead
  dsimp only
  rw [if_neg hgap]

/-- Drones with different ids agree on which of them is ahead. -/
theorem isAhead_swap {ownPhase peerPhase : ℝ} {vehicleId peerId : ℤ} (hids : vehicleId ≠ peerId)
    (h : ¬ OppositePhases ownPhase peerPhase) :
    isAhead peerPhase ownPhase peerId vehicleId ↔
      ¬ isAhead ownPhase peerPhase vehicleId peerId := by
  have hswap := wrapAngle_swap h
  by_cases hgap : 1 / 10 ^ 6 < |wrapAngle (ownPhase - peerPhase)|
  · have hpos : 0 < |wrapAngle (ownPhase - peerPhase)| := lt_trans (by positivity) hgap
    have hback : 1 / 10 ^ 6 < |wrapAngle (peerPhase - ownPhase)| := by rwa [hswap, abs_neg]
    rw [isAhead_of_gap hgap, isAhead_of_gap hback, hswap, Left.neg_pos_iff, not_lt]
    exact ⟨le_of_lt, fun hle => lt_of_le_of_ne hle (abs_pos.mp hpos)⟩
  · have hback : ¬ 1 / 10 ^ 6 < |wrapAngle (peerPhase - ownPhase)| := by rwa [hswap, abs_neg]
    rw [isAhead_of_tie hgap, isAhead_of_tie hback]
    omega

/-- With opposite phases each takes itself for the one behind. -/
theorem not_isAhead_of_opposite {ownPhase peerPhase : ℝ} (h : OppositePhases ownPhase peerPhase)
    (vehicleId peerId : ℤ) : ¬ isAhead ownPhase peerPhase vehicleId peerId := by
  have hpi : (3 : ℝ) < Real.pi := Real.pi_gt_three
  have hwrap := wrapAngle_opposite_iff.mpr h
  have hgap : 1 / 10 ^ 6 < |wrapAngle (ownPhase - peerPhase)| := by
    rw [hwrap, abs_neg, abs_of_pos Real.pi_pos]
    exact lt_trans (by norm_num) hpi
  rw [isAhead_of_gap hgap, hwrap]
  linarith

section Severity

variable {settings : DeconflictSettings ℝ} {tCpa dCpa : ℝ} (ht0 : 0 ≤ tCpa) (hd0 : 0 ≤ dCpa)
  (hd : dCpa < settings.clearance)

include ht0 hd0 hd

theorem conflictSeverity_pos (ht : tCpa < settings.horizon) :
    0 < conflictSeverity settings tCpa dCpa := by
  have hclearance : 0 < settings.clearance := hd0.trans_lt hd
  have hhorizon : 0 < settings.horizon := ht0.trans_lt ht
  have hdeep : 0 < (settings.clearance - dCpa) / settings.clearance :=
    div_pos (sub_pos.mpr hd) hclearance
  have hsoon : 0 < 1 - tCpa / settings.horizon := sub_pos.mpr ((div_lt_one hhorizon).mpr ht)
  exact lt_min (lt_max_of_lt_left (mul_pos hdeep hsoon)) zero_lt_one

end Severity

/-- An approach at the horizon is no conflict yet. -/
theorem conflictSeverity_horizon {settings : DeconflictSettings ℝ} (hne : settings.horizon ≠ 0)
    (dCpa : ℝ) : conflictSeverity settings settings.horizon dCpa = 0 := by
  rw [conflictSeverity, div_self hne, sub_self, mul_zero, clip, max_self,
    min_eq_left zero_le_one]

/-- The rate of the drone that is ahead, or of the one behind. -/
noncomputable def biasedRate (settings : DeconflictSettings ℝ) (nominalRate severity : ℝ)
    (ahead : Prop) [Decidable ahead] : ℝ :=
  clip (if ahead then nominalRate * (1 + (settings.maxScale - 1) * severity)
    else nominalRate * (1 - (1 - settings.minScale) * severity))
    (settings.minScale * nominalRate) (settings.maxScale * nominalRate)

theorem phaseDeconflictRate_conflict {settings : DeconflictSettings ℝ}
    {ownPhase peerPhase nominalRate tCpa dCpa : ℝ} {vehicleId peerId : ℤ}
    (ht : tCpa ≤ settings.horizon) (hd0 : 0 ≤ dCpa) (hd : dCpa < settings.clearance)
    (hhorizon : settings.horizon ≠ 0) :
    phaseDeconflictRate settings ownPhase peerPhase nominalRate tCpa dCpa vehicleId peerId =
      .ok ⟨biasedRate settings nominalRate (conflictSeverity settings tCpa dCpa)
        (isAhead ownPhase peerPhase vehicleId peerId), conflictSeverity settings tCpa dCpa⟩ := by
  have hpass : ¬ (tCpa > settings.horizon ∨ dCpa ≥ settings.clearance) := by
    rw [not_or, not_lt, not_le]
    exact ⟨ht, hd⟩
  have hdivide : ¬ (settings.clearance = 0 ∨ settings.horizon = 0) := by
    rw [not_or]
    exact ⟨(hd0.trans_lt hd).ne', hhorizon⟩
  rw [phaseDeconflictRate, if_neg hpass, if_neg hdivide]
  rfl

section Rates

variable {settings : DeconflictSettings ℝ} {nominalRate severity : ℝ} (hnominal : 0 < nominalRate)

include hnominal

theorem biasedRate_ahead (hpos : 0 < severity) (hmax : 1 < settings.maxScale) {ahead : Prop}
    [Decidable ahead] (h : ahead) :
    nominalRate < biasedRate settings nominalRate severity ahead := by
  have hgain : 0 < nominalRate * ((settings.maxScale - 1) * severity) :=
    mul_pos hnominal (mul_pos (sub_pos.mpr hmax) hpos)
  have hmost : nominalRate < settings.maxScale * nominalRate :=
    (lt_mul_iff_one_lt_left hnominal).mpr hmax
  rw [biasedRate, if_pos h, clip]
  apply lt_min (lt_max_of_lt_left _) hmost
  linarith

theorem biasedRate_behind (hpos : 0 < severity) (hmin : settings.minScale < 1) {ahead : Prop}
    [Decidable ahead] (h : ¬ ahead) :
    biasedRate settings nominalRate severity ahead < nominalRate := by
  have hloss : 0 < nominalRate * ((1 - settings.minScale) * severity) :=
    mul_pos hnominal (mul_pos (sub_pos.mpr hmin) hpos)
  have hleast : settings.minScale * nominalRate < nominalRate :=
    (mul_lt_iff_lt_one_left hnominal).mpr hmin
  rw [biasedRate, if_neg h, clip]
  apply (min_le_left _ _).trans_lt (max_lt _ hleast)
  linarith

/-- Without room above the nominal rate nobody speeds up. -/
theorem biasedRate_le (hmax : settings.maxScale ≤ 1) (severity : ℝ) (ahead : Prop)
    [Decidable ahead] :
    biasedRate settings nominalRate severity ahead ≤ nominalRate :=
  (min_le_right _ _).trans ((mul_le_iff_le_one_left hnominal).mpr hmax)

/-- Without room below it nobody slows down. -/
theorem le_biasedRate (hmax : 1 < settings.maxScale) (hmin : 1 ≤ settings.minScale)
    (severity : ℝ) (ahead : Prop) [Decidable ahead] :
    nominalRate ≤ biasedRate settings nominalRate severity ahead := by
  have hleast : nominalRate ≤ settings.minScale * nominalRate :=
    (le_mul_iff_one_le_left hnominal).mpr hmin
  have hmost : nominalRate ≤ settings.maxScale * nominalRate :=
    (le_mul_iff_one_le_left hnominal).mpr hmax.le
  exact le_min (hleast.trans (le_max_right _ _)) hmost

end Rates

/-- From the two sides exactly one drone speeds up and the other slows down, with equal
severity, and the one ahead by more than the tolerance is the faster. -/
def SplitsConflict (settings : DeconflictSettings ℝ) (ownPhase peerPhase nominalRate tCpa
    dCpa : ℝ) (vehicleId peerId : ℤ) : Prop :=
  ∃ own peer,
    phaseDeconflictRate settings ownPhase peerPhase nominalRate tCpa dCpa vehicleId peerId =
      .ok own ∧
    phaseDeconflictRate settings peerPhase ownPhase nominalRate tCpa dCpa peerId vehicleId =
      .ok peer ∧
    own.severity = peer.severity ∧
    (nominalRate < own.rate ∧ peer.rate < nominalRate ∨
      own.rate < nominalRate ∧ nominalRate < peer.rate) ∧
    (1 / 10 ^ 6 < |wrapAngle (ownPhase - peerPhase)| →
      0 < (own.rate - peer.rate) * wrapAngle (ownPhase - peerPhase))

section Split

variable {settings : DeconflictSettings ℝ} {ownPhase peerPhase nominalRate tCpa dCpa : ℝ}
  {vehicleId peerId : ℤ}

/-- Where the sides split a conflict, the horizon is no zero, and their two rates are apart. -/
theorem SplitsConflict.rates (ht : tCpa ≤ settings.horizon) (hd0 : 0 ≤ dCpa)
    (hd : dCpa < settings.clearance)
    (h : SplitsConflict settings ownPhase peerPhase nominalRate tCpa dCpa vehicleId peerId) :
    settings.horizon ≠ 0 ∧
    (nominalRate < biasedRate settings nominalRate (conflictSeverity settings tCpa dCpa)
        (isAhead ownPhase peerPhase vehicleId peerId) ∧
      biasedRate settings nominalRate (conflictSeverity settings tCpa dCpa)
        (isAhead peerPhase ownPhase peerId vehicleId) < nominalRate ∨
    biasedRate settings nominalRate (conflictSeverity settings tCpa dCpa)
        (isAhead ownPhase peerPhase vehicleId peerId) < nominalRate ∧
      nominalRate < biasedRate settings nominalRate (conflictSeverity settings tCpa dCpa)
        (isAhead peerPhase ownPhase peerId vehicleId)) := by
  obtain ⟨own, peer, hown, hpeer, -, hsplit, -⟩ := h
  have hhorizon : settings.horizon ≠ 0 := by
    intro hzero
    have hpass : ¬ (tCpa > settings.horizon ∨ dCpa ≥ settings.clearance) := by
      rw [not_or, not_lt, not_le]
      exact ⟨ht, hd⟩
    rw [phaseDeconflictRate, if_neg hpass, if_pos (Or.inr hzero)] at hown
    cases hown
  rw [phaseDeconflictRate_conflict ht hd0 hd hhorizon] at hown hpeer
  obtain rfl := Except.ok.inj hown
  obtain rfl := Except.ok.inj hpeer
  exact ⟨hhorizon, hsplit⟩

theorem biasedRate_zero (hnominal : 0 < nominalRate) (hmin : settings.minScale < 1)
    (hmax : 1 < settings.maxScale) (ahead : Prop) [Decidable ahead] :
    biasedRate settings nominalRate 0 ahead = nominalRate := by
  have hleast : settings.minScale * nominalRate ≤ nominalRate :=
    ((mul_lt_iff_lt_one_left hnominal).mpr hmin).le
  have hmost : nominalRate ≤ settings.maxScale * nominalRate :=
    ((lt_mul_iff_one_lt_left hnominal).mpr hmax).le
  rw [biasedRate, mul_zero, mul_zero, add_zero, sub_zero, mul_one, ite_self, clip,
    max_eq_left hleast, min_eq_left hmost]

theorem SplitsConflict.condition (hnominal : 0 < nominalRate) (ht0 : 0 ≤ tCpa)
    (ht : tCpa ≤ settings.horizon) (hd0 : 0 ≤ dCpa) (hd : dCpa < settings.clearance)
    (h : SplitsConflict settings ownPhase peerPhase nominalRate tCpa dCpa vehicleId peerId) :
    tCpa < settings.horizon ∧ settings.minScale < 1 ∧ 1 < settings.maxScale ∧
      ¬ OppositePhases ownPhase peerPhase := by
  obtain ⟨hhorizon, hsplit⟩ := h.rates ht hd0 hd
  have hmax : 1 < settings.maxScale := by
    by_contra hnot
    have hall := fun (ahead : Prop) (_ : Decidable ahead) =>
      biasedRate_le hnominal (not_lt.mp hnot) (conflictSeverity settings tCpa dCpa) ahead
    rcases hsplit with hsplit | hsplit
    · exact absurd hsplit.1 (not_lt.mpr (hall _ _))
    · exact absurd hsplit.2 (not_lt.mpr (hall _ _))
  have hmin : settings.minScale < 1 := by
    by_contra hnot
    have hall := fun (ahead : Prop) (_ : Decidable ahead) =>
      le_biasedRate hnominal hmax (not_lt.mp hnot) (conflictSeverity settings tCpa dCpa) ahead
    rcases hsplit with hsplit | hsplit
    · exact absurd hsplit.2 (not_lt.mpr (hall _ _))
    · exact absurd hsplit.1 (not_lt.mpr (hall _ _))
  have hbefore : tCpa < settings.horizon := by
    apply lt_of_le_of_ne ht
    intro hlast
    rw [hlast, conflictSeverity_horizon hhorizon, biasedRate_zero hnominal hmin hmax,
      biasedRate_zero hnominal hmin hmax] at hsplit
    simp at hsplit
  refine ⟨hbefore, hmin, hmax, fun hopposite => ?_⟩
  have hpos := conflictSeverity_pos ht0 hd0 hd hbefore
  have hfirst := biasedRate_behind hnominal hpos hmin
    (not_isAhead_of_opposite hopposite vehicleId peerId)
  have hsecond := biasedRate_behind hnominal hpos hmin
    (not_isAhead_of_opposite hopposite.symm peerId vehicleId)
  rcases hsplit with hsplit | hsplit
  · exact absurd hsplit.1 hfirst.le.not_gt
  · exact absurd hsplit.2 hsecond.le.not_gt

theorem splitsConflict_of_condition (hids : vehicleId ≠ peerId) (hnominal : 0 < nominalRate)
    (ht0 : 0 ≤ tCpa) (hbefore : tCpa < settings.horizon) (hd0 : 0 ≤ dCpa)
    (hd : dCpa < settings.clearance) (hmin : settings.minScale < 1) (hmax : 1 < settings.maxScale)
    (hopposite : ¬ OppositePhases ownPhase peerPhase) :
    SplitsConflict settings ownPhase peerPhase nominalRate tCpa dCpa vehicleId peerId := by
  have hhorizon : settings.horizon ≠ 0 := (ht0.trans_lt hbefore).ne'
  have hpos := conflictSeverity_pos ht0 hd0 hd hbefore
  have hswap := isAhead_swap hids hopposite
  refine ⟨_, _, phaseDeconflictRate_conflict hbefore.le hd0 hd hhorizon,
    phaseDeconflictRate_conflict hbefore.le hd0 hd hhorizon, rfl, ?_, fun hgap => ?_⟩
  · by_cases hahead : isAhead ownPhase peerPhase vehicleId peerId
    · left
      exact ⟨biasedRate_ahead hnominal hpos hmax hahead,
        biasedRate_behind hnominal hpos hmin fun hpeer => hswap.mp hpeer hahead⟩
    · right
      exact ⟨biasedRate_behind hnominal hpos hmin hahead,
        biasedRate_ahead hnominal hpos hmax (hswap.mpr hahead)⟩
  · by_cases hahead : isAhead ownPhase peerPhase vehicleId peerId
    · have hfast := biasedRate_ahead hnominal hpos hmax hahead
      have hslow := biasedRate_behind hnominal hpos hmin fun hpeer => hswap.mp hpeer hahead
      exact mul_pos (sub_pos.mpr (hslow.trans hfast))
        ((isAhead_of_gap hgap vehicleId peerId).mp hahead)
    · have hslow := biasedRate_behind hnominal hpos hmin hahead
      have hfast := biasedRate_ahead hnominal hpos hmax (hswap.mpr hahead)
      have hne := abs_pos.mp (lt_trans (by positivity) hgap)
      rw [isAhead_of_gap hgap, not_lt] at hahead
      exact mul_pos_of_neg_of_neg (sub_neg.mpr (hslow.trans hfast)) (lt_of_le_of_ne hahead hne)

end Split

/-- The split works exactly where the approach comes before the horizon, the scales leave room
on both sides of the nominal rate and the phases are not opposite. -/
theorem splitsConflict_iff (settings : DeconflictSettings ℝ)
    {ownPhase peerPhase nominalRate tCpa dCpa : ℝ} {vehicleId peerId : ℤ}
    (hids : vehicleId ≠ peerId) (hnominal : 0 < nominalRate) (ht0 : 0 ≤ tCpa)
    (ht : tCpa ≤ settings.horizon) (hd0 : 0 ≤ dCpa) (hd : dCpa < settings.clearance) :
    SplitsConflict settings ownPhase peerPhase nominalRate tCpa dCpa vehicleId peerId ↔
      tCpa < settings.horizon ∧ settings.minScale < 1 ∧ 1 < settings.maxScale ∧
        ¬ OppositePhases ownPhase peerPhase := by
  constructor
  · exact fun h => h.condition hnominal ht0 ht hd0 hd
  · intro h
    obtain ⟨hbefore, hmin, hmax, hopposite⟩ := h
    exact splitsConflict_of_condition hids hnominal ht0 hbefore hd0 hd hmin hmax hopposite

/-- A quarter of a turn apart the defaults split the conflict. -/
theorem splitsConflict_quarter :
    SplitsConflict DeconflictSettings.declared (Real.pi / 2) 0 1 1 1 0 1 := by
  apply (splitsConflict_iff DeconflictSettings.declared (by norm_num) one_pos zero_le_one
    (by norm_num [DeconflictSettings.declared]) zero_le_one
    (by norm_num [DeconflictSettings.declared])).mpr
  refine ⟨by norm_num [DeconflictSettings.declared], by norm_num [DeconflictSettings.declared],
    by norm_num [DeconflictSettings.declared], ?_⟩
  intro h
  obtain ⟨k, hk⟩ := h
  have hhalf : (1 : ℝ) = 2 * (2 * k + 1) := by
    apply mul_left_cancel₀ Real.pi_ne_zero
    linarith
  have hint : (1 : ℤ) = 2 * (2 * k + 1) := by exact_mod_cast hhalf
  omega

/-- Half a turn apart both drones slow down. -/
theorem both_slow_when_opposite :
    ∃ own peer,
      phaseDeconflictRate DeconflictSettings.declared Real.pi 0 1 0 0 0 1 = .ok own ∧
      phaseDeconflictRate DeconflictSettings.declared 0 Real.pi 1 0 0 1 0 = .ok peer ∧
      own.rate < 1 ∧ peer.rate < 1 := by
  have hopposite : OppositePhases Real.pi 0 := ⟨0, by push_cast; ring⟩
  have hclear : (0 : ℝ) < (DeconflictSettings.declared : DeconflictSettings ℝ).clearance := by
    norm_num [DeconflictSettings.declared]
  have hhorizon : (0 : ℝ) < (DeconflictSettings.declared : DeconflictSettings ℝ).horizon := by
    norm_num [DeconflictSettings.declared]
  have hmin : (DeconflictSettings.declared : DeconflictSettings ℝ).minScale < 1 := by
    norm_num [DeconflictSettings.declared]
  have hpos := conflictSeverity_pos le_rfl le_rfl hclear hhorizon
  exact ⟨_, _, phaseDeconflictRate_conflict hhorizon.le le_rfl hclear hhorizon.ne',
    phaseDeconflictRate_conflict hhorizon.le le_rfl hclear hhorizon.ne',
    biasedRate_behind one_pos hpos hmin (not_isAhead_of_opposite hopposite 0 1),
    biasedRate_behind one_pos hpos hmin (not_isAhead_of_opposite hopposite.symm 1 0)⟩

end Mission10.Flight
