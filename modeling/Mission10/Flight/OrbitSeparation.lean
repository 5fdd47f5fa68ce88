import Mission10.Flight.PhaseGuard
import Mission10.Library.AxisRotation
import Mission10.Library.Outcome

/-!
# Separation on the orbits

The closed forms of `phased_orbits.py` for the distance of two drones on circles of
one radius and one rate, and for the least distance of a formation. With lengths
that are not negative they bound the distance at all times, and in every revolution both
ends of the interval are attained, so the least distance of the formation is exact.
-/
namespace Mission10.Flight

open Engine (MathOps Point2)
open Engine.MathOps

section Model

variable {K : Type*} [Field K] [LinearOrder K] [MathOps K]

/-- A row of `phased_orbit_centers`. -/
def orbitCenter (index : ℕ) (layout : OrbitLayout K) : Point2 K :=
  (layout.base.1 + layout.spacing * index, layout.base.2 + layout.downrange)

/-- The point of a circle at an angle. -/
def orbitPoint (center : Point2 K) (radius theta : K) : Point2 K :=
  (center.1 + radius * cos theta, center.2 + radius * sin theta)

/-- The angle carries a modulation that starts at zero. -/
def phasedOrbitSetpoint (t : K) (index n : ℕ) (radius omega modAmp modPhase : K)
    (layout : OrbitLayout K) : Except String (EnuSetpoint K) := do
  if ¬ index < n then
    throw (indexError index n)
  let phase ← phaseAt index n layout
  let theta := omega * t + phase + modAmp * (sin (omega * t + modPhase) - sin modPhase)
  polarSetpoint index layout theta radius

/-- A row for every drone: its horizontal position and its height. -/
def phasedOrbitPositions (t : K) (n : ℕ) (radius omega : K) (layout : OrbitLayout K) :
    Except String (List (Point2 K × K)) := do
  if n < 1 then
    throw "need at least 1 drone"
  let phases ← phasedOrbitPhases n layout
  return phases.mapIdx fun i phase =>
    (orbitPoint (orbitCenter i layout) radius (omega * t + phase), layout.altitude)

/-- The least and the greatest distance. -/
def separationBounds (a radius dphi : K) : K × K :=
  let m := 2 * radius * |sin (dphi / 2)|
  (|a - m|, a + m)

/-- An element of the phases that were passed. -/
def phaseEntry (phases : List K) (i : ℕ) : Except String K :=
  match phases[i]? with
  | some phase => .ok phase
  | none => .error s!"index {i} is out of bounds for axis 0 with size {phases.length}"

def pairDphi (i j : ℕ) (layout : OrbitLayout K) : Except String K :=
  match layout.phases with
  | some phases => do
    let first ← phaseEntry phases i
    let second ← phaseEntry phases j
    return first - second
  | none => .ok (layout.phaseStep * ((i : K) - j))

def pairSeparationBounds (i j : ℕ) (radius : K) (layout : OrbitLayout K) :
    Except String (K × K) := do
  if i = j then
    throw "need two distinct drones for a separation"
  let a := layout.spacing * |(i : K) - j|
  let dphi ← pairDphi i j layout
  return separationBounds a radius dphi

def pairMinSeparation (i j : ℕ) (radius : K) (layout : OrbitLayout K) : Except String K := do
  let bounds ← pairSeparationBounds i j radius layout
  return bounds.1

/-- The pairs of drones in the order of the two loops. -/
def dronePairs (n : ℕ) : List (ℕ × ℕ) :=
  (List.range n).flatMap fun i => (List.range' (i + 1) (n - (i + 1))).map fun j => (i, j)

def scheduleMinSeparation (n : ℕ) (radius : K) (layout : OrbitLayout K) : Except String K := do
  if n < 2 then
    throw "need at least 2 drones for a separation"
  let gaps ← (dronePairs n).mapM fun pair => pairMinSeparation pair.1 pair.2 radius layout
  return gaps.min?.getD 0

end Model

theorem mem_dronePairs {n i j : ℕ} : (i, j) ∈ dronePairs n ↔ i < j ∧ j < n := by
  simp only [dronePairs, List.mem_flatMap, List.mem_range, List.mem_map, List.mem_range'_1,
    Prod.mk.injEq]
  constructor
  · intro h
    obtain ⟨k, hk, l, hl, rfl, rfl⟩ := h
    omega
  · intro h
    exact ⟨i, by omega, j, by omega, rfl, rfl⟩

/-! ### Positions by index -/

section Rows

variable {layout : OrbitLayout ℝ} {n : ℕ} {phases : List ℝ}

theorem length_phasedOrbitPhases (h : phasedOrbitPhases n layout = .ok phases) :
    phases.length = n := by
  unfold phasedOrbitPhases at h
  cases hgiven : layout.phases with
  | some given =>
    rw [hgiven] at h
    dsimp only at h
    split_ifs at h with hlength
    obtain rfl := Except.ok.inj h
    exact hlength
  | none =>
    rw [hgiven] at h
    obtain rfl := Except.ok.inj h
    simp

theorem phasedOrbitPositions_ok (hn : 1 ≤ n) (h : phasedOrbitPhases n layout = .ok phases)
    (t radius omega : ℝ) :
    phasedOrbitPositions t n radius omega layout = .ok (phases.mapIdx fun i phase =>
      (orbitPoint (orbitCenter i layout) radius (omega * t + phase), layout.altitude)) := by
  unfold phasedOrbitPositions
  rw [if_neg (by omega), h]
  rfl

/-- Without modulation a setpoint is the drone's row of the positions. -/
theorem phasedOrbitSetpoint_steady {t radius omega modPhase : ℝ} {index : ℕ}
    {setpoint : EnuSetpoint ℝ}
    (h : phasedOrbitSetpoint t index n radius omega 0 modPhase layout = .ok setpoint) :
    ∃ positions, phasedOrbitPositions t n radius omega layout = .ok positions ∧
      positions[index]? = some ((setpoint.east, setpoint.north), setpoint.up) := by
  unfold phasedOrbitSetpoint at h
  by_cases hindex : index < n
  · rw [if_neg (not_not.mpr hindex)] at h
    obtain ⟨phase, hphase, hpolar⟩ := Outcome.bind_ok h
    obtain ⟨phases, hphases, hentry⟩ := Outcome.bind_ok hphase
    obtain ⟨yaw, hyaw, hrow⟩ := Outcome.bind_ok hpolar
    have hlength := length_phasedOrbitPhases hphases
    refine ⟨_, phasedOrbitPositions_ok (by omega) hphases t radius omega, ?_⟩
    obtain rfl := Outcome.pure_ok hentry
    obtain rfl := Outcome.pure_ok hrow
    rw [List.getElem?_mapIdx, List.getD_eq_getElem _ _ (hlength ▸ hindex),
      List.getElem?_eq_getElem (hlength ▸ hindex)]
    simp [orbitPoint, orbitCenter]
  · rw [if_pos hindex] at h
    cases h

/-- The phases of a pair differ by what the closed form takes for it. -/
theorem pairDphi_ok (h : phasedOrbitPhases n layout = .ok phases) {i j : ℕ}
    (hi : i < phases.length) (hj : j < phases.length) :
    pairDphi i j layout = .ok (phases[i] - phases[j]) := by
  unfold phasedOrbitPhases at h
  unfold pairDphi
  cases hgiven : layout.phases with
  | some given =>
    rw [hgiven] at h
    dsimp only at h ⊢
    split_ifs at h with hlength
    obtain rfl := Except.ok.inj h
    simp only [phaseEntry, List.getElem?_eq_getElem hi, List.getElem?_eq_getElem hj]
    rfl
  | none =>
    rw [hgiven] at h
    obtain rfl := Except.ok.inj h
    dsimp only
    simp only [List.getElem_map, List.getElem_range]
    congr 1
    ring

end Rows

/-! ### The distance over a revolution -/

section Distance

open RotatingVector Plane

/-- The distance of two drones that turn at one rate on circles of one radius. -/
noncomputable def orbitGap (center center' : Point2 ℝ) (radius omega phi phi' t : ℝ) : ℝ :=
  pairDistance (orbitPoint center radius (omega * t + phi))
    (orbitPoint center' radius (omega * t + phi'))

variable (center center' : Point2 ℝ) {radius omega : ℝ} (phi phi' : ℝ)

theorem orbitGap_eq (t : ℝ) : orbitGap center center' radius omega phi phi' t =
    √(normSq (center - center' + (2 * radius * Real.sin ((phi - phi') / 2)) •
      turn (Real.cos (omega * t + (phi + phi') / 2),
        Real.sin (omega * t + (phi + phi') / 2)))) := by
  have hdiff := circle_sub radius (omega * t + phi) (omega * t + phi')
  rw [show omega * t + phi - (omega * t + phi') = phi - phi' by ring,
    show (omega * t + phi + (omega * t + phi')) / 2 = omega * t + (phi + phi') / 2 by ring]
    at hdiff
  rw [orbitGap, pairDistance_real, ← hdiff]
  congr 2
  apply Prod.ext
  · show center.1 + radius * Real.cos (omega * t + phi) -
      (center'.1 + radius * Real.cos (omega * t + phi')) = _
    simp only [Prod.fst_add, Prod.fst_sub]
    ring
  · show center.2 + radius * Real.sin (omega * t + phi) -
      (center'.2 + radius * Real.sin (omega * t + phi')) = _
    simp only [Prod.snd_add, Prod.snd_sub]
    ring

theorem normSq_centers : normSq (center - center') = pairDistance center center' ^ 2 := by
  rw [pairDistance_real, Real.sq_sqrt (normSq_nonneg _)]

variable (hradius : 0 ≤ radius)

include hradius

theorem separationBounds_real (a dphi : ℝ) : separationBounds a radius dphi =
    (|(a - |2 * radius * Real.sin (dphi / 2)|)|, a + |2 * radius * Real.sin (dphi / 2)|) := by
  have htwice : 0 ≤ 2 * radius := mul_nonneg zero_le_two hradius
  rw [abs_mul, abs_of_nonneg htwice]
  rfl

/-- The interval holds the distance at all times. -/
theorem orbitGap_mem (t : ℝ) :
    (separationBounds (pairDistance center center') radius (phi - phi')).1 ≤
        orbitGap center center' radius omega phi phi' t ∧
      orbitGap center center' radius omega phi phi' t ≤
        (separationBounds (pairDistance center center') radius (phi - phi')).2 := by
  have hapart : 0 ≤ pairDistance center center' := Real.sqrt_nonneg _
  have hsq := normSq_centers center center'
  rw [separationBounds_real hradius, orbitGap_eq]
  exact ⟨le_length hapart hsq _ _, length_le hapart hsq _ _⟩

/-- Both ends are attained within each revolution. -/
theorem orbitGap_attains (homega : omega ≠ 0) (start : ℝ) :
    (∃ t, start ≤ t ∧ t < start + 2 * Real.pi / |omega| ∧
      orbitGap center center' radius omega phi phi' t =
        (separationBounds (pairDistance center center') radius (phi - phi')).1) ∧
    ∃ t, start ≤ t ∧ t < start + 2 * Real.pi / |omega| ∧
      orbitGap center center' radius omega phi phi' t =
        (separationBounds (pairDistance center center') radius (phi - phi')).2 := by
  have hapart : 0 ≤ pairDistance center center' := Real.sqrt_nonneg _
  have hsq := normSq_centers center center'
  obtain ⟨near, far, hends⟩ := exists_extremes hapart hsq
    (2 * radius * Real.sin ((phi - phi') / 2))
  rw [separationBounds_real hradius]
  constructor
  · obtain ⟨t, hfrom, hto, k, hk⟩ := exists_time homega ((phi + phi') / 2) near start
    refine ⟨t, hfrom, hto, ?_⟩
    rw [orbitGap_eq, hk]
    exact (hends k).1
  · obtain ⟨t, hfrom, hto, k, hk⟩ := exists_time homega ((phi + phi') / 2) far start
    refine ⟨t, hfrom, hto, ?_⟩
    rw [orbitGap_eq, hk]
    exact (hends k).2

end Distance

/-! ### The formation -/

/-- The distances of the pairs of a formation at all times. -/
def formationGaps (n : ℕ) (radius omega : ℝ) (layout : OrbitLayout ℝ) : Set ℝ :=
  {gap | ∃ (t : ℝ) (positions : List (Point2 ℝ × ℝ)) (i j : ℕ) (p q : Point2 ℝ × ℝ),
    phasedOrbitPositions t n radius omega layout = .ok positions ∧ i < j ∧
    positions[i]? = some p ∧ positions[j]? = some q ∧ gap = pairDistance p.1 q.1}

section Formation

variable {layout : OrbitLayout ℝ} {n : ℕ} {phases : List ℝ} {radius omega : ℝ}

theorem pairDistance_centers (hspacing : 0 ≤ layout.spacing) (i j : ℕ) :
    pairDistance (orbitCenter i layout) (orbitCenter j layout) =
      layout.spacing * |(i : ℝ) - j| := by
  have hsquare : Plane.normSq (orbitCenter i layout - orbitCenter j layout) =
      (layout.spacing * ((i : ℝ) - j)) ^ 2 := by
    simp only [Plane.normSq, Plane.dot, orbitCenter, Prod.fst_sub, Prod.snd_sub]
    ring
  rw [pairDistance_real, hsquare, Real.sqrt_sq_eq_abs, abs_mul, abs_of_nonneg hspacing]

/-- The gap of a pair of drones, by their indices. -/
noncomputable def indexGap (layout : OrbitLayout ℝ) (phases : List ℝ) (radius omega : ℝ)
    (i j : ℕ) (t : ℝ) : ℝ :=
  orbitGap (orbitCenter i layout) (orbitCenter j layout) radius omega (phases.getD i 0)
    (phases.getD j 0) t

theorem mem_formationGaps (hn : 1 ≤ n) (h : phasedOrbitPhases n layout = .ok phases) (gap : ℝ) :
    gap ∈ formationGaps n radius omega layout ↔
      ∃ t i j, i < j ∧ j < n ∧ gap = indexGap layout phases radius omega i j t := by
  have hlength := length_phasedOrbitPhases h
  constructor
  · intro hgap
    obtain ⟨t, positions, i, j, p, q, hpositions, hij, hp, hq, rfl⟩ := hgap
    rw [phasedOrbitPositions_ok hn h] at hpositions
    obtain rfl := Except.ok.inj hpositions
    rw [List.getElem?_mapIdx, Option.map_eq_some_iff] at hp hq
    obtain ⟨phi, hphi, rfl⟩ := hp
    obtain ⟨phi', hphi', rfl⟩ := hq
    refine ⟨t, i, j, hij, ?_, ?_⟩
    · have hlt := (List.getElem?_eq_some_iff.mp hphi').choose
      omega
    · simp only [indexGap, List.getD, hphi, hphi', Option.getD_some]
      rfl
  · intro hgap
    obtain ⟨t, i, j, hij, hj, rfl⟩ := hgap
    refine ⟨t, _, i, j,
      (orbitPoint (orbitCenter i layout) radius (omega * t + phases.getD i 0), layout.altitude),
      (orbitPoint (orbitCenter j layout) radius (omega * t + phases.getD j 0), layout.altitude),
      phasedOrbitPositions_ok hn h t radius omega, hij, ?_, ?_, rfl⟩
    · rw [List.getElem?_mapIdx, List.getD_eq_getElem _ _ (by omega),
        List.getElem?_eq_getElem (by omega)]
      rfl
    · rw [List.getElem?_mapIdx, List.getD_eq_getElem _ _ (by omega),
        List.getElem?_eq_getElem (by omega)]
      rfl

/-- What the closed form gives for a pair. -/
theorem pairSeparationBounds_ok (hspacing : 0 ≤ layout.spacing)
    (h : phasedOrbitPhases n layout = .ok phases) {i j : ℕ} (hi : i < n) (hj : j < n)
    (hne : i ≠ j) : pairSeparationBounds i j radius layout =
      .ok (separationBounds (pairDistance (orbitCenter i layout) (orbitCenter j layout)) radius
        (phases.getD i 0 - phases.getD j 0)) := by
  have hlength := length_phasedOrbitPhases h
  unfold pairSeparationBounds
  rw [if_neg hne, pairDphi_ok h (by omega) (by omega), pairDistance_centers hspacing,
    List.getD_eq_getElem _ _ (by omega), List.getD_eq_getElem _ _ (by omega)]
  rfl

theorem scheduleMinSeparation_ok (hn : 2 ≤ n) (hspacing : 0 ≤ layout.spacing)
    (h : phasedOrbitPhases n layout = .ok phases) : scheduleMinSeparation n radius layout =
      .ok (((dronePairs n).map fun pair => (separationBounds
        (pairDistance (orbitCenter pair.1 layout) (orbitCenter pair.2 layout)) radius
        (phases.getD pair.1 0 - phases.getD pair.2 0)).1).min?.getD 0) := by
  have hpairs : ∀ pair ∈ dronePairs n, pairMinSeparation pair.1 pair.2 radius layout =
      pure (separationBounds (pairDistance (orbitCenter pair.1 layout)
        (orbitCenter pair.2 layout)) radius (phases.getD pair.1 0 - phases.getD pair.2 0)).1 := by
    intro pair hpair
    obtain ⟨hlt, hlast⟩ := mem_dronePairs.mp hpair
    rw [pairMinSeparation, pairSeparationBounds_ok hspacing h (by omega) hlast (by omega)]
    rfl
  unfold scheduleMinSeparation
  rw [if_neg (by omega), Outcome.mapM_congr hpairs, List.mapM_pure]
  rfl

/-- The schedule's separation budget is the least distance of the formation. -/
theorem scheduleMinSeparation_isLeast (hn : 2 ≤ n) (hspacing : 0 ≤ layout.spacing)
    (hradius : 0 ≤ radius) (homega : omega ≠ 0) (h : phasedOrbitPhases n layout = .ok phases) :
    ∃ budget, scheduleMinSeparation n radius layout = .ok budget ∧
      IsLeast (formationGaps n radius omega layout) budget := by
  let lows := (dronePairs n).map fun pair => (separationBounds
    (pairDistance (orbitCenter pair.1 layout) (orbitCenter pair.2 layout)) radius
    (phases.getD pair.1 0 - phases.getD pair.2 0)).1
  have hfirst : (0, 1) ∈ dronePairs n := mem_dronePairs.mpr ⟨by omega, by omega⟩
  have hlows : lows ≠ [] := List.ne_nil_of_mem (List.mem_map_of_mem hfirst)
  obtain ⟨budget, hbudget⟩ := Option.isSome_iff_exists.mp (List.isSome_min?_of_ne_nil hlows)
  obtain ⟨hmem, hleast⟩ := List.min?_eq_some_iff.mp hbudget
  refine ⟨budget, ?_, ?_, ?_⟩
  · rw [scheduleMinSeparation_ok hn hspacing h]
    show Except.ok (lows.min?.getD 0) = _
    rw [hbudget]
    rfl
  · obtain ⟨⟨i, j⟩, hpair, rfl⟩ := List.mem_map.mp hmem
    obtain ⟨hij, hj⟩ := mem_dronePairs.mp hpair
    obtain ⟨t, -, -, ht⟩ := (orbitGap_attains (orbitCenter i layout) (orbitCenter j layout)
      (phases.getD i 0) (phases.getD j 0) hradius homega 0).1
    exact (mem_formationGaps (by omega) h _).mpr ⟨t, i, j, hij, hj, ht.symm⟩
  · intro gap hgap
    obtain ⟨t, i, j, hij, hj, rfl⟩ := (mem_formationGaps (by omega) h gap).mp hgap
    have hlow : _ ≤ indexGap layout phases radius omega i j t :=
      (orbitGap_mem (orbitCenter i layout) (orbitCenter j layout) (phases.getD i 0)
        (phases.getD j 0) hradius t).1
    exact (hleast _ (List.mem_map_of_mem (mem_dronePairs.mpr ⟨hij, hj⟩))).trans hlow

end Formation

/-- With a radius that is not negative the interval holds the distance of two drones at
all times and both ends are attained within each revolution. The budget of a formation is
the least distance of all pairs and times. -/
theorem separationBounds_exact {radius omega : ℝ} (hradius : 0 ≤ radius) (homega : omega ≠ 0) :
    (∀ (center center' : Point2 ℝ) (phi phi' : ℝ) (bounds : ℝ × ℝ),
      bounds = separationBounds (pairDistance center center') radius (phi - phi') →
      (∀ t, bounds.1 ≤ orbitGap center center' radius omega phi phi' t ∧
        orbitGap center center' radius omega phi phi' t ≤ bounds.2) ∧
      ∀ start, (∃ t, start ≤ t ∧ t < start + 2 * Real.pi / |omega| ∧
          orbitGap center center' radius omega phi phi' t = bounds.1) ∧
        ∃ t, start ≤ t ∧ t < start + 2 * Real.pi / |omega| ∧
          orbitGap center center' radius omega phi phi' t = bounds.2) ∧
    ∀ (n : ℕ) (layout : OrbitLayout ℝ) (phases : List ℝ), 2 ≤ n → 0 ≤ layout.spacing →
      phasedOrbitPhases n layout = .ok phases →
      (∀ i j, i < n → j < n → i ≠ j → pairSeparationBounds i j radius layout =
        .ok (separationBounds (pairDistance (orbitCenter i layout) (orbitCenter j layout))
          radius (phases.getD i 0 - phases.getD j 0))) ∧
      ∃ budget, scheduleMinSeparation n radius layout = .ok budget ∧
        IsLeast (formationGaps n radius omega layout) budget := by
  constructor
  · intro center center' phi phi' bounds hbounds
    subst hbounds
    exact ⟨orbitGap_mem center center' phi phi' hradius,
      orbitGap_attains center center' phi phi' hradius homega⟩
  · intro n layout phases hn hspacing hphases
    exact ⟨fun i j hi hj hne => pairSeparationBounds_ok hspacing hphases hi hj hne,
      scheduleMinSeparation_isLeast hn hspacing hradius homega hphases⟩

/-- Two drones of a formation `spacing` apart, the second half a turn behind. -/
noncomputable def opposedPair (spacing : ℝ) : OrbitLayout ℝ where
  spacing := spacing
  downrange := 0
  base := (0, 0)
  altitude := 0
  phaseStep := Real.pi
  phase0 := 0
  phases := none
  yawMode := .inward
  fixedYaw := 0

theorem opposedPair_phases (spacing : ℝ) :
    phasedOrbitPhases 2 (opposedPair spacing) = .ok [0, Real.pi] := by
  simp [phasedOrbitPhases, opposedPair, List.range_succ]

theorem separationBounds_exact_opposedPair :
    ∃ budget, scheduleMinSeparation 2 1 (opposedPair 3) = .ok budget ∧
      IsLeast (formationGaps 2 1 1 (opposedPair 3)) budget :=
  ((separationBounds_exact zero_le_one one_ne_zero).2 2 (opposedPair 3) [0, Real.pi] le_rfl
    (by norm_num [opposedPair]) (opposedPair_phases 3)).2

theorem opposedPair_bounds (spacing radius : ℝ) :
    pairSeparationBounds 0 1 radius (opposedPair spacing) =
      .ok (|spacing - 2 * radius|, spacing + 2 * radius) := by
  have hsine : |sin ((-1 * Real.pi : ℝ) / 2)| = 1 := by
    show |Real.sin ((-1 * Real.pi : ℝ) / 2)| = 1
    rw [neg_one_mul, neg_div, Real.sin_neg, Real.sin_pi_div_two, abs_neg, abs_one]
  have hdphi : pairDphi 0 1 (opposedPair spacing) = .ok (-1 * Real.pi) := by
    simp [pairDphi, opposedPair]
  unfold pairSeparationBounds
  rw [if_neg zero_ne_one, hdphi]
  show Except.ok (separationBounds (spacing * |((0 : ℕ) : ℝ) - (1 : ℕ)|) radius _) = _
  rw [separationBounds, hsine]
  norm_num

/-- With a negative spacing or a negative radius the ends are in the wrong order, and drones
that do not turn stay at one end. -/
theorem separationBounds_degenerate :
    pairSeparationBounds 0 1 1 (opposedPair (-1)) = .ok (3, 1) ∧
    pairSeparationBounds 0 1 (-1) (opposedPair 3) = .ok (5, 1) ∧
    pairSeparationBounds 0 1 1 (opposedPair 3) = .ok (1, 5) ∧
    ∀ gap ∈ formationGaps 2 1 0 (opposedPair 3), gap = 1 := by
  refine ⟨?_, ?_, ?_, ?_⟩
  · rw [opposedPair_bounds]
    norm_num
  · rw [opposedPair_bounds]
    norm_num
  · rw [opposedPair_bounds]
    norm_num
  · intro gap hgap
    obtain ⟨t, i, j, hij, hj, rfl⟩ :=
      (mem_formationGaps (by omega) (opposedPair_phases 3) gap).mp hgap
    obtain rfl : i = 0 := by omega
    obtain rfl : j = 1 := by omega
    have hpoints : orbitPoint (orbitCenter 0 (opposedPair 3)) 1 (0 * t + 0) -
        orbitPoint (orbitCenter 1 (opposedPair 3)) 1 (0 * t + Real.pi) = (-1, 0) := by
      simp only [zero_mul, zero_add, orbitPoint, orbitCenter, opposedPair]
      show (3 * ((0 : ℕ) : ℝ) + 1 * Real.cos 0 - (3 * ((1 : ℕ) : ℝ) + 1 * Real.cos Real.pi),
        1 * Real.sin 0 - 1 * Real.sin Real.pi) = _
      rw [Real.cos_zero, Real.cos_pi, Real.sin_zero, Real.sin_pi]
      norm_num
    show pairDistance _ _ = 1
    rw [pairDistance_real]
    show √(Plane.normSq (orbitPoint (orbitCenter 0 (opposedPair 3)) 1 (0 * t + 0) -
      orbitPoint (orbitCenter 1 (opposedPair 3)) 1 (0 * t + Real.pi))) = 1
    rw [hpoints]
    norm_num [Plane.normSq, Plane.dot]

end Mission10.Flight
