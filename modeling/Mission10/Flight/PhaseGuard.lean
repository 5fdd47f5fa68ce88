import Mission10.Flight.PhasedOrbits
import Mission10.Library.BoundedRate

/-!
# The phase guard

`phase_guard_rate` clamps the angular rate of one drone against the barriers
toward its peers, whose velocities it takes as measured. The threshold below which
a row counts as zero and the one for a constraint that counts as active are
parameters. With the threshold of the rows at zero, the guard reports
exactly whether an admitted rate exists, and the rate it returns keeps every
protected distance along a straight step.
-/
namespace Mission10.Flight

open Engine (MathOps Point2 sqrt_real)
open Engine.MathOps Plane RateBarrier

variable {K : Type*} [Field K] [LinearOrder K]

/-- The keyword arguments of the guard. -/
structure GuardLimits (K : Type*) where
  protectedDistance : K
  gamma : K
  minRate : K
  maxRate : K

structure GuardTolerances (K : Type*) where
  zeroRow : K
  active : K

/-- The thresholds of the source. -/
def GuardTolerances.declared : GuardTolerances K := ⟨1 / 10 ^ 9, 1 / 10 ^ 7⟩

structure PhaseGuardSolution (K : Type*) where
  rate : K
  feasible : Bool
  activeConstraints : ℕ
  minSlack : K

/-- A measured peer: its position and its velocity. -/
abbrev GuardPeer (K : Type*) := Point2 K × Point2 K

/-- A row of the constraints on the rate with its bound. -/
structure RateConstraint (K : Type*) where
  row : K
  bound : K

def RateConstraint.slack (c : RateConstraint K) (rate : K) : K := c.row * rate - c.bound

/-- Where the drone goes when its angle grows. -/
def tangentPerRadian (ownRadial : Point2 K) : Point2 K := (-ownRadial.2, ownRadial.1)

/-- The barrier toward a peer. -/
def rateConstraint (ownPosition ownRadial : Point2 K) (limits : GuardLimits K)
    (peer : GuardPeer K) : RateConstraint K :=
  let separation := ownPosition - peer.1
  let h := dot separation separation - limits.protectedDistance ^ 2
  ⟨2 * dot separation (tangentPerRadian ownRadial),
    -limits.gamma * h + 2 * dot separation peer.2⟩

/-- The rates that are left, with the verdict so far. -/
structure RateWindow (K : Type*) where
  lower : K
  upper : K
  feasible : Bool

/-- One turn of the loop over the constraints. -/
def RateWindow.tighten (zeroRow : K) (window : RateWindow K) (c : RateConstraint K) :
    RateWindow K :=
  if |c.row| ≤ zeroRow then
    { window with feasible := window.feasible && decide (c.bound ≤ 0) }
  else if c.row > 0 then
    { window with lower := max window.lower (c.bound / c.row) }
  else
    { window with upper := min window.upper (c.bound / c.row) }

/-- The loop. -/
def rateWindow (zeroRow : K) (limits : GuardLimits K) (constraints : List (RateConstraint K)) :
    RateWindow K :=
  constraints.foldl (RateWindow.tighten zeroRow)
    ⟨limits.minRate, limits.maxRate, decide (limits.minRate ≤ limits.maxRate)⟩

def guardSolution (tolerances : GuardTolerances K) (desiredRate : K) (limits : GuardLimits K)
    (constraints : List (RateConstraint K)) : PhaseGuardSolution K :=
  let window := rateWindow tolerances.zeroRow limits constraints
  let feasible := window.feasible && decide (window.lower ≤ window.upper)
  let rate := if feasible then clip desiredRate window.lower window.upper
    else clip desiredRate limits.minRate limits.maxRate
  let slacks := constraints.map (RateConstraint.slack · rate) ++
    [rate - limits.minRate, limits.maxRate - rate]
  { rate := rate
    feasible := feasible
    activeConstraints := slacks.countP fun slack => |slack| ≤ tolerances.active
    minSlack := slacks.foldl min (limits.maxRate - rate) }

/-- The arrays of the peers have two columns; they have to be of one length. -/
def phaseGuardRate (tolerances : GuardTolerances K) (ownPosition ownRadial : Point2 K)
    (desiredRate : K) (peerPositions peerVelocities : List (Point2 K))
    (limits : GuardLimits K) : Except String (PhaseGuardSolution K) :=
  if peerVelocities.length = peerPositions.length then
    .ok (guardSolution tolerances desiredRate limits
      ((peerPositions.zip peerVelocities).map (rateConstraint ownPosition ownRadial limits)))
  else .error "peer_velocities must match peer_positions"

/-! ### The interval of admitted rates -/

section Admitted

variable [IsStrictOrderedRing K]

/-- The rate meets the barrier. -/
def RateConstraint.Holds (c : RateConstraint K) (rate : K) : Prop := c.bound ≤ c.row * rate

def RateWindow.Admits (window : RateWindow K) (rate : K) : Prop :=
  window.feasible ∧ window.lower ≤ rate ∧ rate ≤ window.upper

theorem RateWindow.tighten_admits (window : RateWindow K) (c : RateConstraint K) (rate : K) :
    (window.tighten 0 c).Admits rate ↔ window.Admits rate ∧ c.Holds rate := by
  unfold RateWindow.tighten
  by_cases hzero : |c.row| ≤ 0
  · have hrow : c.row = 0 := abs_nonpos_iff.mp hzero
    rw [if_pos hzero]
    simp only [Admits, RateConstraint.Holds, hrow, zero_mul, Bool.and_eq_true, decide_eq_true_eq]
    tauto
  · rw [if_neg hzero]
    have hrow : c.row ≠ 0 := fun h => hzero (by rw [h, abs_zero])
    by_cases hpos : c.row > 0
    · have hholds : c.Holds rate ↔ c.bound / c.row ≤ rate := (div_le_iff₀' hpos).symm
      rw [if_pos hpos, hholds]
      simp only [Admits, max_le_iff]
      tauto
    · have hneg : c.row < 0 := lt_of_le_of_ne (not_lt.mp hpos) hrow
      have hholds : c.Holds rate ↔ rate ≤ c.bound / c.row := (le_div_iff_of_neg' hneg).symm
      rw [if_neg hpos, hholds]
      simp only [Admits, le_min_iff]
      tauto

theorem foldl_tighten_admits (constraints : List (RateConstraint K)) (window : RateWindow K)
    (rate : K) :
    (constraints.foldl (RateWindow.tighten 0) window).Admits rate ↔
      window.Admits rate ∧ ∀ c ∈ constraints, c.Holds rate := by
  induction constraints generalizing window with
  | nil => simp
  | cons c rest ih =>
    rw [List.foldl_cons, ih, RateWindow.tighten_admits, List.forall_mem_cons, and_assoc]

/-- The rates of the allowed range that meet all barriers. -/
def admitted (limits : GuardLimits K) (constraints : List (RateConstraint K)) : Set K :=
  {rate | (limits.minRate ≤ rate ∧ rate ≤ limits.maxRate) ∧ ∀ c ∈ constraints, c.Holds rate}

theorem rateWindow_admits (limits : GuardLimits K) (constraints : List (RateConstraint K))
    (rate : K) :
    (rateWindow 0 limits constraints).Admits rate ↔ rate ∈ admitted limits constraints := by
  rw [rateWindow, foldl_tighten_admits]
  have hstart : (⟨limits.minRate, limits.maxRate,
      decide (limits.minRate ≤ limits.maxRate)⟩ : RateWindow K).Admits rate ↔
      limits.minRate ≤ rate ∧ rate ≤ limits.maxRate := by
    simp only [RateWindow.Admits, decide_eq_true_eq]
    constructor
    · exact fun h => h.2
    · exact fun h => ⟨h.1.trans h.2, h⟩
  rw [hstart]
  rfl

theorem guardSolution_feasible_iff (active desiredRate : K) (limits : GuardLimits K)
    (constraints : List (RateConstraint K)) :
    (guardSolution ⟨0, active⟩ desiredRate limits constraints).feasible = true ↔
      ∃ rate, rate ∈ admitted limits constraints := by
  simp only [guardSolution, Bool.and_eq_true, decide_eq_true_eq]
  constructor
  · intro h
    exact ⟨_, (rateWindow_admits limits constraints _).mp ⟨h.1, le_rfl, h.2⟩⟩
  · rintro ⟨rate, hrate⟩
    obtain ⟨hfeasible, hlow, hup⟩ := (rateWindow_admits limits constraints rate).mpr hrate
    exact ⟨hfeasible, hlow.trans hup⟩

/-- The rate of a feasible solution is the admitted one closest to the wish. -/
theorem guardSolution_closest {active desiredRate : K} {limits : GuardLimits K}
    {constraints : List (RateConstraint K)}
    (h : (guardSolution ⟨0, active⟩ desiredRate limits constraints).feasible = true) :
    Closest desiredRate (admitted limits constraints)
      (guardSolution ⟨0, active⟩ desiredRate limits constraints).rate := by
  have hboth := h
  simp only [guardSolution, Bool.and_eq_true, decide_eq_true_eq] at hboth
  have hrate : (guardSolution ⟨0, active⟩ desiredRate limits constraints).rate =
      clip desiredRate (rateWindow 0 limits constraints).lower
        (rateWindow 0 limits constraints).upper := by
    simp only [guardSolution, hboth, decide_true, Bool.and_self, if_true]
  rw [hrate]
  apply (closest_clip desiredRate hboth.2).congr
  intro rate
  rw [← rateWindow_admits]
  exact ⟨fun hin => ⟨hboth.1, hin⟩, fun hin => hin.2⟩

/-- The barrier toward a peer: the square of the distance falls no faster than in
proportion to what it has to spare. -/
def KeepsBarrier (ownPosition ownRadial : Point2 K) (limits : GuardLimits K)
    (peer : GuardPeer K) (rate : K) : Prop :=
  -limits.gamma * (normSq (ownPosition - peer.1) - limits.protectedDistance ^ 2) ≤
    2 * dot (ownPosition - peer.1) (rate • tangentPerRadian ownRadial - peer.2)

theorem rateConstraint_holds_iff (ownPosition ownRadial : Point2 K) (limits : GuardLimits K)
    (peer : GuardPeer K) (rate : K) :
    (rateConstraint ownPosition ownRadial limits peer).Holds rate ↔
      KeepsBarrier ownPosition ownRadial limits peer rate := by
  simp only [RateConstraint.Holds, rateConstraint, KeepsBarrier, dot_sub, dot_smul, normSq]
  constructor
  · intro h
    linarith
  · intro h
    linarith

/-- A rate that meets the barrier toward a peer keeps the protected distance along a
straight step. -/
theorem KeepsBarrier.step {ownPosition ownRadial : Point2 K} {limits : GuardLimits K}
    {peer : GuardPeer K} {rate s : K}
    (hbarrier : KeepsBarrier ownPosition ownRadial limits peer rate)
    (hs : 0 ≤ s) (hshort : s ≤ 1 / limits.gamma)
    (hapart : limits.protectedDistance ^ 2 ≤ normSq (ownPosition - peer.1)) :
    limits.protectedDistance ^ 2 ≤
      normSq (ownPosition + s • rate • tangentPerRadian ownRadial - (peer.1 + s • peer.2)) := by
  have hmove : ownPosition + s • rate • tangentPerRadian ownRadial - (peer.1 + s • peer.2) =
      ownPosition - peer.1 + s • (rate • tangentPerRadian ownRadial - peer.2) := by
    rw [smul_sub]
    abel
  rcases lt_or_ge 0 limits.gamma with hgamma | hgamma
  · rw [hmove]
    exact keeps_distance hapart hbarrier hs ((le_div_iff₀ hgamma).mp hshort)
  · have hzero : s = 0 := le_antisymm (hshort.trans (one_div_nonpos.mpr hgamma)) hs
    simpa [hzero] using hapart

end Admitted

theorem pairDistance_real (a b : Point2 ℝ) : pairDistance a b = √(normSq (a - b)) := rfl

theorem le_pairDistance {a b c d : Point2 ℝ} {distance : ℝ} (h : distance ≤ pairDistance a b)
    (hkeeps : distance ^ 2 ≤ normSq (a - b) → distance ^ 2 ≤ normSq (c - d)) :
    distance ≤ pairDistance c d := by
  rw [pairDistance_real] at h ⊢
  rcases le_total distance 0 with hneg | hpos
  · exact hneg.trans (Real.sqrt_nonneg _)
  · apply Real.le_sqrt_of_sq_le
    apply hkeeps
    exact (Real.le_sqrt hpos (normSq_nonneg _)).mp h

/-- With the threshold of the rows at zero the guard is feasible exactly when the range
holds a rate that meets all barriers. It then returns the one closest to the wish, and
no pair at the protected distance comes closer along a straight step that takes no
longer than the inverse of the gain. -/
theorem phaseGuardRate_exact (active : ℝ) (ownPosition ownRadial : Point2 ℝ) (desiredRate : ℝ)
    (peers : List (GuardPeer ℝ)) (limits : GuardLimits ℝ) :
    ∃ solution, phaseGuardRate ⟨0, active⟩ ownPosition ownRadial desiredRate
        (peers.map Prod.fst) (peers.map Prod.snd) limits = .ok solution ∧
      (solution.feasible = true ↔ ∃ rate, (limits.minRate ≤ rate ∧ rate ≤ limits.maxRate) ∧
        ∀ peer ∈ peers, KeepsBarrier ownPosition ownRadial limits peer rate) ∧
      (solution.feasible = true →
        Closest desiredRate {rate | (limits.minRate ≤ rate ∧ rate ≤ limits.maxRate) ∧
          ∀ peer ∈ peers, KeepsBarrier ownPosition ownRadial limits peer rate}
          solution.rate) ∧
      (solution.feasible = true → ∀ s, 0 ≤ s → s ≤ 1 / limits.gamma → ∀ peer ∈ peers,
        limits.protectedDistance ≤ pairDistance ownPosition peer.1 →
        limits.protectedDistance ≤ pairDistance
          (ownPosition + s • solution.rate • tangentPerRadian ownRadial)
          (peer.1 + s • peer.2)) := by
  have hzip : (peers.map Prod.fst).zip (peers.map Prod.snd) = peers := by
    rw [← List.unzip_fst, ← List.unzip_snd, List.zip_unzip]
  have hadmitted : ∀ rate, rate ∈ admitted limits
      (peers.map (rateConstraint ownPosition ownRadial limits)) ↔
      (limits.minRate ≤ rate ∧ rate ≤ limits.maxRate) ∧
        ∀ peer ∈ peers, KeepsBarrier ownPosition ownRadial limits peer rate := by
    intro rate
    simp only [admitted, Set.mem_ofPred_eq, List.forall_mem_map, rateConstraint_holds_iff]
  refine ⟨guardSolution ⟨0, active⟩ desiredRate limits
    (peers.map (rateConstraint ownPosition ownRadial limits)), ?_, ?_, ?_, ?_⟩
  · simp [phaseGuardRate, hzip]
  · rw [guardSolution_feasible_iff]
    exact exists_congr hadmitted
  · intro hfeasible
    exact (guardSolution_closest hfeasible).congr hadmitted
  · intro hfeasible s hs hshort peer hpeer hapart
    have hrate := ((hadmitted _).mp (guardSolution_closest hfeasible).mem).2 peer hpeer
    exact le_pairDistance hapart (hrate.step hs hshort)

end Mission10.Flight
