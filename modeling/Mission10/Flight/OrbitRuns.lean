import Mission10.Flight.OrbitSeams

/-!
# Runs of the choreography

Over any run from the begin-orbit gate to the launch anchor the commanded position
moves no faster than a speed fixed by the configuration: the ticks are on curves of
bounded rate, and each curve starts where the one before it ends. The command to
come home ends the orbit on a whole revolution, which may lie a billionth of a
revolution before the command.
-/
namespace Mission10.Flight

open Engine.MathOps BoundedRate OrbitParams

/-! ### The clock -/

namespace Choreography

theorem seconds_sub (gateUs fromUs toUs : ℤ) :
    (seconds gateUs toUs : ℝ) - seconds gateUs fromUs = seconds fromUs toUs := by
  unfold seconds
  push_cast
  ring

theorem seconds_nonneg {fromUs toUs : ℤ} (h : fromUs ≤ toUs) : 0 ≤ (seconds fromUs toUs : ℝ) := by
  have hcast : (0 : ℝ) ≤ ((toUs - fromUs : ℤ) : ℝ) := by exact_mod_cast sub_nonneg.mpr h
  exact div_nonneg hcast (by positivity)

/-- Two readings of the clock that differ are a microsecond apart. -/
theorem seconds_apart {fromUs toUs : ℤ} (h : fromUs < toUs) :
    1 / 10 ^ 6 ≤ (seconds fromUs toUs : ℝ) := by
  have hcast : (1 : ℝ) ≤ ((toUs - fromUs : ℤ) : ℝ) := by
    exact_mod_cast (by omega : 1 ≤ toUs - fromUs)
  exact div_le_div_of_nonneg_right hcast (by positivity)

/-! ### The setpoint of a tick -/

variable {p : OrbitParams ℝ} {m : Choreography ℝ} {nowUs : ℤ} {tau : ℝ}

theorem nominal_insertion (hp : p.Valid) (hm : m.params = p)
    (htau : seconds m.orbitGateUs nowUs = tau) (hnonneg : 0 ≤ tau) (h : tau < p.spiralTimeS) :
    ∃ setpoint, m.nominalSetpoint nowUs none = .ok (m, setpoint) ∧
      p.Commands setpoint fun a => p.spiralPoint a tau := by
  obtain ⟨setpoint, hset, hcommands⟩ := (layout_centered hp hm).insertion hp tau
  subst hm
  refine ⟨setpoint, ?_, hcommands⟩
  unfold nominalSetpoint
  rw [htau, max_eq_right hnonneg, if_pos h]
  dsimp only
  rw [hset]
  rfl

theorem nominal_orbit (hp : p.Valid) (hm : m.params = p) (hoffset : m.phaseOffset = 0)
    (htau : seconds m.orbitGateUs nowUs = tau) (hnonneg : 0 ≤ tau) (h : p.spiralTimeS ≤ tau)
    (hduration : ∀ d, m.orbitDuration = some d → tau - p.spiralTimeS < d) :
    ∃ setpoint, m.nominalSetpoint nowUs none =
        .ok ({ m with
          phaseCmd := some (p.schedule (tau - p.spiralTimeS)), phaseCmdUs := nowUs,
          phaseOffset := 0 }, setpoint) ∧
      p.Commands setpoint fun a => p.orbitPoint a (tau - p.spiralTimeS) := by
  obtain ⟨setpoint, hset, hcommands⟩ :=
    phaseGuard_commands hp hm hoffset nowUs (tau - p.spiralTimeS)
  subst hm
  refine ⟨setpoint, ?_, hcommands⟩
  unfold nominalSetpoint
  rw [htau, max_eq_right hnonneg, if_neg (not_lt.mpr h), ← hset]
  cases hd : m.orbitDuration with
  | none => rfl
  | some d => exact if_pos (hduration d hd)

theorem nominal_return (hp : p.Valid) (hm : m.params = p)
    (htau : seconds m.orbitGateUs nowUs = tau) (hnonneg : 0 ≤ tau) (h : p.spiralTimeS ≤ tau)
    {d : ℝ} (hduration : m.orbitDuration = some d) (hend : d ≤ tau - p.spiralTimeS) :
    ∃ setpoint, m.nominalSetpoint nowUs none =
        .ok ({ m with peelPhase := some (m.startPhase d) }, setpoint) ∧
      p.Commands setpoint fun a =>
        p.returnPoint m.homeOffset a (m.startPhase d) (tau - p.spiralTimeS - d) := by
  obtain ⟨setpoint, hset, hcommands⟩ := return_commands hp hm d (tau - p.spiralTimeS - d)
  subst hm
  refine ⟨setpoint, ?_, hcommands⟩
  unfold nominalSetpoint
  rw [htau, max_eq_right hnonneg, if_neg (not_lt.mpr h), ← hset]
  dsimp only
  rw [hduration]
  exact if_neg (not_lt.mpr hend)

end Choreography

/-! ### The end of the orbit -/

/-- How far before the command the orbit may end. -/
noncomputable def OrbitParams.tolerance (p : OrbitParams ℝ) : ℝ := p.revolution / 10 ^ 9

theorem orbitEnd_revolutions {p : OrbitParams ℝ} (hp : p.Valid) {t : ℝ} (ht : 0 ≤ t) :
    ∃ k : ℕ, Choreography.orbitEnd p t = k * p.revolution := by
  have hrev := revolution_pos hp
  have hceil : 0 ≤ ⌈t / p.revolution - 1 / 10 ^ 9⌉ := by
    have hratio := div_nonneg ht hrev.le
    have hlow : (-1 : ℝ) < t / p.revolution - 1 / 10 ^ 9 := by
      have hsmall : (1 : ℝ) / 10 ^ 9 < 1 := by norm_num
      linarith
    have hgt : (-1 : ℤ) < ⌈t / p.revolution - 1 / 10 ^ 9⌉ := by
      rw [Int.lt_ceil]
      exact_mod_cast hlow
    omega
  obtain ⟨k, hk⟩ := Int.eq_ofNat_of_zero_le hceil
  refine ⟨k, ?_⟩
  show p.revolution * ((⌈t / p.revolution - 1 / 10 ^ 9⌉ : ℤ) : ℝ) = _
  rw [hk, mul_comm]
  rfl

theorem le_orbitEnd {p : OrbitParams ℝ} (hp : p.Valid) (t : ℝ) :
    t ≤ Choreography.orbitEnd p t + p.tolerance := by
  have hrev := revolution_pos hp
  have hceil : t / p.revolution - 1 / 10 ^ 9 ≤ (⌈t / p.revolution - 1 / 10 ^ 9⌉ : ℝ) :=
    Int.le_ceil _
  have hscaled := mul_le_mul_of_nonneg_left hceil hrev.le
  rw [mul_sub, mul_div_cancel₀ t hrev.ne'] at hscaled
  show t ≤ p.revolution * ((⌈t / p.revolution - 1 / 10 ^ 9⌉ : ℤ) : ℝ) + p.revolution / 10 ^ 9
  linarith

/-! ### Where a run is -/

namespace OrbitParams
variable (p : OrbitParams ℝ) (home : ℝ × ℝ)

/-- The spiral, or the start of the orbit when there is no spiral. -/
noncomputable def openPoint (a : Axis) (tau : ℝ) : ℝ :=
  if 0 < p.spiralTimeS then p.spiralPoint a tau else p.orbitPoint a 0

/-- How fast a coordinate changes over the run. -/
noncomputable def axisRate (a : Axis) : ℝ :=
  p.insertionRate + p.orbitRate + (p.peelRate + p.homeRate home a)

/-- A bound on the speed of the commanded position. The tolerance is counted against
the shortest time between two ticks. -/
noncomputable def runSpeed : ℝ :=
  (p.axisRate home .east + p.axisRate home .north) * (1 + p.tolerance * 10 ^ 6)

variable {p}

theorem spiral_nonneg (hp : p.Valid) : 0 ≤ p.spiralTimeS := by
  rcases hp.spiral with hnone | hsome
  · exact hnone.ge
  · exact le_trans (by positivity) hsome

theorem open_steady (hp : p.Valid) (a : Axis) : Steady p.insertionRate (p.openPoint a) := by
  have hspiral := spiral_steady hp a
  unfold openPoint
  by_cases h : 0 < p.spiralTimeS
  · simpa only [if_pos h] using hspiral
  · simp only [if_neg h]
    exact (steady_const _).mono hspiral.rate_nonneg

theorem open_joins_orbit (hp : p.Valid) (a : Axis) :
    p.openPoint a p.spiralTimeS = p.orbitPoint a 0 := by
  unfold openPoint
  rcases hp.spiral with hnone | hsome
  · rw [if_neg (by rw [hnone]; exact lt_irrefl 0)]
  · rw [if_pos (lt_of_lt_of_le (by positivity) hsome), spiral_joins_orbit hsome]

theorem tolerance_nonneg (hp : p.Valid) : 0 ≤ p.tolerance :=
  div_nonneg (revolution_pos hp).le (by positivity)

/-! ### Moves along the curves -/

theorem steady_forward {c : ℝ} {f : ℝ → ℝ} (hf : Steady c f) {x y : ℝ} (h : x ≤ y) :
    |f y - f x| ≤ c * (y - x) := by
  have hstep := hf y x
  rwa [abs_of_nonneg (sub_nonneg.mpr h)] at hstep

theorem insertion_to_orbit (hp : p.Valid) (a : Axis) {tau tau' : ℝ} (h : tau ≤ p.spiralTimeS)
    (h' : p.spiralTimeS ≤ tau') :
    |p.orbitPoint a (tau' - p.spiralTimeS) - p.openPoint a tau| ≤
      p.insertionRate * (p.spiralTimeS - tau) + p.orbitRate * (tau' - p.spiralTimeS) := by
  have hopen := steady_forward (open_steady hp a) h
  have horbit := steady_forward (orbit_steady hp a) (sub_nonneg.mpr h')
  rw [open_joins_orbit hp] at hopen
  rw [sub_zero] at horbit
  exact (abs_sub_le _ (p.orbitPoint a 0) _).trans (by linarith)

theorem orbit_to_return (hp : p.Valid) (home : ℝ × ℝ) (a : Axis) (t : ℝ) {x : ℝ} (hx : 0 ≤ x) :
    |p.returnPoint home a (p.schedule t) x - p.orbitPoint a t| ≤
      (p.peelRate + p.homeRate home a) * x := by
  have hreturn := steady_forward (return_steady hp home a (p.schedule t)) hx
  rwa [← orbit_joins_return hp, sub_zero] at hreturn

theorem insertion_to_return (hp : p.Valid) (home : ℝ × ℝ) (a : Axis) (k : ℕ) {tau x : ℝ}
    (h : tau ≤ p.spiralTimeS) (hx : 0 ≤ x) :
    |p.returnPoint home a (p.schedule (k * p.revolution)) x - p.openPoint a tau| ≤
      p.insertionRate * (p.spiralTimeS - tau) + (p.peelRate + p.homeRate home a) * x := by
  have hopen := steady_forward (open_steady hp a) h
  have hreturn := orbit_to_return hp home a (k * p.revolution) hx
  have hrevolutions := orbit_revolutions hp a (k : ℤ)
  rw [Int.cast_natCast] at hrevolutions
  rw [open_joins_orbit hp, ← hrevolutions] at hopen
  exact (abs_sub_le _ (p.orbitPoint a (k * p.revolution)) _).trans (by linarith)

/-- Time spent on the three kinds of curve, each at its own rate. -/
theorem legs_le (hp : p.Valid) (home : ℝ × ℝ) (a : Axis) {moved total : ℝ}
    (opening orbiting returning : ℝ) (hopening : 0 ≤ opening) (horbiting : 0 ≤ orbiting)
    (hreturning : 0 ≤ returning) (htotal : opening + orbiting + returning ≤ total)
    (hmoved : moved ≤ p.insertionRate * opening + p.orbitRate * orbiting +
      (p.peelRate + p.homeRate home a) * returning) :
    moved ≤ p.axisRate home a * total := by
  have hinsertion := mul_le_mul_of_nonneg_left (by linarith : opening ≤ total)
    (spiral_steady hp a).rate_nonneg
  have horbit := mul_le_mul_of_nonneg_left (by linarith : orbiting ≤ total)
    (orbit_steady hp a).rate_nonneg
  have hreturn := mul_le_mul_of_nonneg_left (by linarith : returning ≤ total)
    (return_steady hp home a 0).rate_nonneg
  unfold axisRate
  linarith

end OrbitParams

/-- What stays the same along a run. -/
structure Sound (p : OrbitParams ℝ) (home : ℝ × ℝ) (gateUs : ℤ) (m : Choreography ℝ) : Prop where
  params : m.params = p
  home : m.homeOffset = home
  gate : m.orbitGateUs = gateUs
  offset : m.phaseOffset = 0
  duration : ∀ d, m.orbitDuration = some d → ∃ k : ℕ, d = k * p.revolution

/-- The segment a run is on and the position it has reached there. -/
inductive Stage (p : OrbitParams ℝ) (home : ℝ × ℝ) (m : Choreography ℝ) (tau : ℝ) :
    (Axis → ℝ) → Prop
  | inserting : 0 ≤ tau → tau ≤ p.spiralTimeS → m.phaseCmd = none → m.peelPhase = none →
      Stage p home m tau fun a => p.openPoint a tau
  | orbiting : p.spiralTimeS ≤ tau → m.phaseCmd = some (p.schedule (tau - p.spiralTimeS)) →
      m.peelPhase = none →
      (∀ d, m.orbitDuration = some d → tau - p.spiralTimeS ≤ d + p.tolerance) →
      Stage p home m tau fun a => p.orbitPoint a (tau - p.spiralTimeS)
  | returning (d phase : ℝ) : p.spiralTimeS ≤ tau → m.orbitDuration = some d →
      m.peelPhase = some phase → d ≤ tau - p.spiralTimeS →
      Stage p home m tau fun a => p.returnPoint home a phase (tau - p.spiralTimeS - d)

variable {p : OrbitParams ℝ} {home : ℝ × ℝ} {gateUs : ℤ} {m : Choreography ℝ}

theorem Sound.latched {setpoint : Option (EnuSetpoint ℝ)} (h : Sound p home gateUs m) :
    Sound p home gateUs { m with lastNominal := setpoint } :=
  ⟨h.params, h.home, h.gate, h.offset, h.duration⟩

theorem Stage.latched {tau : ℝ} {point : Axis → ℝ} {setpoint : Option (EnuSetpoint ℝ)}
    (h : Stage p home m tau point) : Stage p home { m with lastNominal := setpoint } tau point := by
  cases h with
  | inserting hnonneg hspiral hcmd hpeel => exact .inserting hnonneg hspiral hcmd hpeel
  | orbiting hspiral hcmd hpeel hearly => exact .orbiting hspiral hcmd hpeel hearly
  | returning d phase hspiral hd hpeel hend => exact .returning d phase hspiral hd hpeel hend

theorem Stage.elapsed {tau : ℝ} {point : Axis → ℝ} (hp : p.Valid) (h : Stage p home m tau point) :
    0 ≤ tau := by
  cases h with
  | inserting hnonneg _ _ _ => exact hnonneg
  | orbiting hspiral _ _ _ => exact (spiral_nonneg hp).trans hspiral
  | returning d phase hspiral _ _ _ => exact (spiral_nonneg hp).trans hspiral

/-- The command to come home does not move the run. -/
theorem Stage.onReturnHome (hp : p.Valid) (hs : Sound p home gateUs m) {tau : ℝ}
    {point : Axis → ℝ} (h : Stage p home m tau point) (hnone : m.orbitDuration = none)
    {nowUs : ℤ} (hnow : tau ≤ Choreography.seconds gateUs nowUs) :
    Sound p home gateUs (m.onReturnHome nowUs) ∧
      Stage p home (m.onReturnHome nowUs) tau point := by
  have hparams := hs.params
  have hgate := hs.gate
  subst hparams hgate
  have hdur : (m.onReturnHome nowUs).orbitDuration = some (Choreography.orbitEnd m.params
      (max 0 (max 0 (Choreography.seconds m.orbitGateUs nowUs) - m.params.spiralTimeS))) := rfl
  refine ⟨⟨rfl, hs.home, rfl, hs.offset, ?_⟩, ?_⟩
  · intro d hd
    rw [hdur, Option.some.injEq] at hd
    subst hd
    exact orbitEnd_revolutions hp (le_max_left _ _)
  · cases h with
    | inserting hnonneg hspiral hcmd hpeel => exact .inserting hnonneg hspiral hcmd hpeel
    | orbiting hspiral hcmd hpeel _ =>
      refine .orbiting hspiral hcmd hpeel ?_
      intro d hd
      rw [hdur, Option.some.injEq] at hd
      subst hd
      refine le_trans ?_ (le_orbitEnd hp _)
      have hlater := hnow.trans (le_max_right 0 (Choreography.seconds m.orbitGateUs nowUs))
      exact le_max_of_le_right (by linarith)
    | returning d phase _ hd _ _ => exact absurd (hnone.symm.trans hd) (by simp)

/-- What a tick does: the run goes on, and no coordinate moves faster than its rate. -/
structure Ticked (p : OrbitParams ℝ) (home : ℝ × ℝ) (gateUs : ℤ) (m : Choreography ℝ) (tau : ℝ)
    (point : Axis → ℝ) (nowUs : ℤ) (next : Choreography ℝ) (setpoint : EnuSetpoint ℝ) : Prop where
  sound : Sound p home gateUs next
  stage : Stage p home next (Choreography.seconds gateUs nowUs) fun a => a.coord setpoint
  up : setpoint.up = p.altitude
  duration : next.orbitDuration = m.orbitDuration
  moved : ∀ a, |a.coord setpoint - point a| ≤
    p.axisRate home a * ((Choreography.seconds gateUs nowUs - tau) * (1 + p.tolerance * 10 ^ 6))

/-- The time between two ticks, stretched by the tolerance. -/
theorem stretched (hp : p.Valid) {dt : ℝ} (hdt : 0 ≤ dt) :
    dt ≤ dt * (1 + p.tolerance * 10 ^ 6) := by
  have hextra := mul_nonneg hdt
    (mul_nonneg (tolerance_nonneg hp) (by positivity : (0 : ℝ) ≤ 10 ^ 6))
  linarith

theorem stretched_apart (hp : p.Valid) {dt : ℝ} (hdt : 1 / 10 ^ 6 ≤ dt) :
    dt + p.tolerance ≤ dt * (1 + p.tolerance * 10 ^ 6) := by
  have hunit : 1 ≤ dt * 10 ^ 6 := by
    rw [div_le_iff₀ (by positivity)] at hdt
    exact hdt
  have hextra := mul_le_mul_of_nonneg_left hunit (tolerance_nonneg hp)
  linarith

theorem Stage.tick_insertion (hp : p.Valid) (hs : Sound p home gateUs m) {tau : ℝ}
    {point : Axis → ℝ} (h : Stage p home m tau point) {nowUs : ℤ}
    (hnow : tau ≤ Choreography.seconds gateUs nowUs)
    (hspiral : Choreography.seconds gateUs nowUs < p.spiralTimeS) :
    ∃ next setpoint, m.nominalSetpoint nowUs none = .ok (next, setpoint) ∧
      Ticked p home gateUs m tau point nowUs next setpoint := by
  have hnonneg := (h.elapsed hp).trans hnow
  obtain ⟨setpoint, hset, hcommands⟩ := Choreography.nominal_insertion hp hs.params
    (by rw [hs.gate]) hnonneg hspiral
  have hopen : ∀ a : Axis, a.coord setpoint =
      p.openPoint a (Choreography.seconds gateUs nowUs) := by
    intro a
    rw [hcommands.coord a, openPoint, if_pos (hnonneg.trans_lt hspiral)]
  refine ⟨m, setpoint, hset, hs, ?_, hcommands.up, rfl, fun a => ?_⟩
  · rw [funext hopen]
    cases h with
    | inserting _ _ hcmd hpeel => exact .inserting hnonneg hspiral.le hcmd hpeel
    | orbiting hlate _ _ _ => exact absurd (hlate.trans hnow) (not_le.mpr hspiral)
    | returning d phase hlate _ _ _ => exact absurd (hlate.trans hnow) (not_le.mpr hspiral)
  · rw [hopen a]
    have hdt := sub_nonneg.mpr hnow
    have hstretch := stretched hp hdt
    cases h with
    | inserting _ _ _ _ =>
      have hmove := steady_forward (open_steady hp a) hnow
      exact legs_le hp home a _ 0 0 hdt le_rfl le_rfl (by linarith) (by linarith)
    | orbiting hlate _ _ _ => exact absurd (hlate.trans hnow) (not_le.mpr hspiral)
    | returning d phase hlate _ _ _ => exact absurd (hlate.trans hnow) (not_le.mpr hspiral)

theorem Stage.tick_orbit (hp : p.Valid) (hs : Sound p home gateUs m) {tau : ℝ}
    {point : Axis → ℝ} (h : Stage p home m tau point) {nowUs : ℤ}
    (hnow : tau ≤ Choreography.seconds gateUs nowUs)
    (hspiral : p.spiralTimeS ≤ Choreography.seconds gateUs nowUs)
    (hduration : ∀ d, m.orbitDuration = some d →
      Choreography.seconds gateUs nowUs - p.spiralTimeS < d) :
    ∃ next setpoint, m.nominalSetpoint nowUs none = .ok (next, setpoint) ∧
      Ticked p home gateUs m tau point nowUs next setpoint := by
  have hnonneg := (h.elapsed hp).trans hnow
  obtain ⟨setpoint, hset, hcommands⟩ := Choreography.nominal_orbit hp hs.params hs.offset
    (by rw [hs.gate]) hnonneg hspiral hduration
  refine ⟨_, setpoint, hset, ⟨hs.params, hs.home, hs.gate, rfl, hs.duration⟩, ?_,
    hcommands.up, rfl, fun a => ?_⟩
  · rw [funext hcommands.coord]
    have hpeel : m.peelPhase = none := by
      cases h with
      | inserting _ _ _ hpeel => exact hpeel
      | orbiting _ _ hpeel _ => exact hpeel
      | returning d phase _ hd _ hend =>
        have hstart := hduration d hd
        linarith
    refine .orbiting hspiral rfl hpeel fun d hd => ?_
    have hstart := hduration d hd
    have htolerance := tolerance_nonneg hp
    linarith
  · rw [hcommands.coord a]
    have hdt := sub_nonneg.mpr hnow
    have hstretch := stretched hp hdt
    cases h with
    | inserting _ hopen _ _ =>
      have hmove := insertion_to_orbit hp a hopen hspiral
      exact legs_le hp home a _ _ 0 (sub_nonneg.mpr hopen) (sub_nonneg.mpr hspiral) le_rfl
        (by linarith) (by linarith)
    | orbiting _ _ _ _ =>
      have hmove := steady_forward (orbit_steady hp a)
        (sub_le_sub_right hnow p.spiralTimeS)
      exact legs_le hp home a 0 _ 0 le_rfl hdt le_rfl (by linarith) (by linarith)
    | returning d phase _ hd _ hend =>
      have hstart := hduration d hd
      linarith

theorem Stage.tick_return (hp : p.Valid) (hs : Sound p home gateUs m) {tau : ℝ}
    {point : Axis → ℝ} (h : Stage p home m tau point) {nowUs : ℤ}
    (hnow : tau ≤ Choreography.seconds gateUs nowUs)
    (hapart : m.phaseCmd.isSome → 1 / 10 ^ 6 ≤ Choreography.seconds gateUs nowUs - tau)
    (hspiral : p.spiralTimeS ≤ Choreography.seconds gateUs nowUs) {d : ℝ}
    (hd : m.orbitDuration = some d)
    (hend : d ≤ Choreography.seconds gateUs nowUs - p.spiralTimeS) :
    ∃ next setpoint, m.nominalSetpoint nowUs none = .ok (next, setpoint) ∧
      Ticked p home gateUs m tau point nowUs next setpoint := by
  have hnonneg := (h.elapsed hp).trans hnow
  have hx : 0 ≤ Choreography.seconds gateUs nowUs - p.spiralTimeS - d := sub_nonneg.mpr hend
  obtain ⟨setpoint, hset, hcommands⟩ := Choreography.nominal_return hp hs.params
    (by rw [hs.gate]) hnonneg hspiral hd hend
  rw [hs.home] at hcommands
  refine ⟨_, setpoint, hset, ⟨hs.params, hs.home, hs.gate, hs.offset, hs.duration⟩, ?_,
    hcommands.up, rfl, fun a => ?_⟩
  · rw [funext hcommands.coord]
    exact .returning d _ hspiral hd rfl hend
  · rw [hcommands.coord a]
    have hdt := sub_nonneg.mpr hnow
    have hstretch := stretched hp hdt
    cases h with
    | inserting _ hopen hcmd hpeel =>
      obtain ⟨k, hk⟩ := hs.duration d hd
      have hphase : m.startPhase d = p.schedule (k * p.revolution) := by
        rw [Choreography.startPhase, hpeel, hcmd, hs.params, hk]
        rfl
      have hmove := insertion_to_return hp home a k hopen hx
      have hrounds : (0 : ℝ) ≤ k * p.revolution :=
        mul_nonneg (Nat.cast_nonneg k) (revolution_pos hp).le
      rw [hphase]
      exact legs_le hp home a _ 0 _ (sub_nonneg.mpr hopen) le_rfl hx (by linarith) (by linarith)
    | orbiting _ hcmd hpeel hearly =>
      have hphase : m.startPhase d = p.schedule (tau - p.spiralTimeS) := by
        rw [Choreography.startPhase, hpeel, hcmd]
        rfl
      have hmove := orbit_to_return hp home a (tau - p.spiralTimeS) hx
      have hlate := hearly d hd
      have happart := stretched_apart hp (hapart (by rw [hcmd]; rfl))
      rw [hphase]
      exact legs_le hp home a 0 0 _ le_rfl le_rfl hx (by linarith) (by linarith)
    | returning d' phase _ hd' hpeel _ =>
      obtain rfl : d' = d := Option.some.inj (hd'.symm.trans hd)
      have hphase : m.startPhase d' = phase := by
        rw [Choreography.startPhase, hpeel]
        rfl
      have hmove := steady_forward (return_steady hp home a phase)
        (sub_le_sub_right (sub_le_sub_right hnow p.spiralTimeS) d')
      rw [hphase]
      exact legs_le hp home a 0 0 _ le_rfl le_rfl hdt (by linarith) (by linarith)

/-- A tick goes on from wherever the run is. -/
theorem Stage.nominal (hp : p.Valid) (hs : Sound p home gateUs m) {tau : ℝ} {point : Axis → ℝ}
    (h : Stage p home m tau point) {nowUs : ℤ} (hnow : tau ≤ Choreography.seconds gateUs nowUs)
    (hapart : m.phaseCmd.isSome → 1 / 10 ^ 6 ≤ Choreography.seconds gateUs nowUs - tau) :
    ∃ next setpoint, m.nominalSetpoint nowUs none = .ok (next, setpoint) ∧
      Ticked p home gateUs m tau point nowUs next setpoint := by
  rcases lt_or_ge (Choreography.seconds gateUs nowUs) p.spiralTimeS with hopen | hspiral
  · exact h.tick_insertion hp hs hnow hopen
  · cases hd : m.orbitDuration with
    | none =>
      exact h.tick_orbit hp hs hnow hspiral fun d hd' => by rw [hd] at hd'; cases hd'
    | some d =>
      rcases lt_or_ge (Choreography.seconds gateUs nowUs - p.spiralTimeS) d with hstart | hend
      · refine h.tick_orbit hp hs hnow hspiral fun d' hd' => ?_
        rw [hd, Option.some.injEq] at hd'
        exact hd' ▸ hstart
      · exact h.tick_return hp hs hnow hapart hspiral hd hend

/-! ### Runs -/

/-- The straight-line distance between two commanded positions. -/
noncomputable def EnuSetpoint.distance (a b : EnuSetpoint ℝ) : ℝ :=
  Real.sqrt ((a.east - b.east) ^ 2 + (a.north - b.north) ^ 2 + (a.up - b.up) ^ 2)

/-- The commanded position moves no faster than the configuration allows. -/
def Within (p : OrbitParams ℝ) (home : ℝ × ℝ) (a b : ℤ × EnuSetpoint ℝ) : Prop :=
  a.2.distance b.2 ≤ p.runSpeed home * Choreography.seconds a.1 b.1

/-- One event comes before another: ticks are at different readings of the clock, and
the command to come home arrives once. -/
def OrbitEvent.Before : OrbitEvent ℝ → OrbitEvent ℝ → Prop
  | .tick first _, .tick second _ => first < second
  | .endMission _, .endMission _ => False
  | first, second => first.nowUs ≤ second.nowUs

/-- What happens to a node after the gate when there are no peers to guard against. -/
structure OrbitRun (gateUs : ℤ) (events : List (OrbitEvent ℝ)) : Prop where
  order : events.Pairwise OrbitEvent.Before
  gate : ∀ event ∈ events, gateUs ≤ event.nowUs
  alone : ∀ nowUs solution, .tick nowUs solution ∈ events → solution = none

theorem OrbitEvent.Before.nowUs_le {first second : OrbitEvent ℝ} (h : first.Before second) :
    first.nowUs ≤ second.nowUs := by
  cases first with
  | tick firstUs _ =>
    cases second with
    | tick secondUs _ => exact le_of_lt h
    | endMission secondUs => exact h
  | endMission firstUs =>
    cases second with
    | tick secondUs _ => exact h
    | endMission secondUs => exact h.elim

theorem Ticked.within {tau : ℝ} {lastUs nowUs : ℤ} {last setpoint : EnuSetpoint ℝ}
    {next : Choreography ℝ} (hlast : tau = Choreography.seconds gateUs lastUs)
    (hup : last.up = p.altitude)
    (h : Ticked p home gateUs m tau (fun a => a.coord last) nowUs next setpoint) :
    Within p home (lastUs, last) (nowUs, setpoint) := by
  have heast : |setpoint.east - last.east| ≤ _ := h.moved .east
  have hnorth : |setpoint.north - last.north| ≤ _ := h.moved .north
  rw [hlast, Choreography.seconds_sub] at heast hnorth
  have hsquares : (last.east - setpoint.east) ^ 2 + (last.north - setpoint.north) ^ 2 +
      (last.up - setpoint.up) ^ 2 ≤
        (|setpoint.east - last.east| + |setpoint.north - last.north|) ^ 2 := by
    rw [hup, h.up, sub_self]
    have hcross := mul_nonneg (abs_nonneg (setpoint.east - last.east))
      (abs_nonneg (setpoint.north - last.north))
    have hsqe := sq_abs (setpoint.east - last.east)
    have hsqn := sq_abs (setpoint.north - last.north)
    linarith
  calc last.distance setpoint
      ≤ |setpoint.east - last.east| + |setpoint.north - last.north| := by
        rw [EnuSetpoint.distance, Real.sqrt_le_left (by positivity)]
        exact hsquares
    _ ≤ p.runSpeed home * Choreography.seconds lastUs nowUs := by
        unfold runSpeed
        linarith

/-- From any stage of a run the rest of it is flown within the speed. -/
theorem fly_within (hp : p.Valid) (events : List (OrbitEvent ℝ)) :
    ∀ (m : Choreography ℝ) (lastUs : ℤ) (last : EnuSetpoint ℝ), Sound p home gateUs m →
      Stage p home m (Choreography.seconds gateUs lastUs) (fun a => a.coord last) →
      last.up = p.altitude →
      (∀ event ∈ events, lastUs ≤ event.nowUs) →
      (m.phaseCmd.isSome → ∀ nowUs solution, .tick nowUs solution ∈ events → lastUs < nowUs) →
      (m.orbitDuration.isSome → ∀ nowUs, .endMission nowUs ∉ events) →
      events.Pairwise OrbitEvent.Before →
      (∀ nowUs solution, .tick nowUs solution ∈ events → solution = none) →
      ∃ flown, m.fly events = .ok flown ∧ ((lastUs, last) :: flown).IsChain (Within p home) := by
  induction events with
  | nil =>
    intro m lastUs last _ _ _ _ _ _ _ _
    exact ⟨[], rfl, List.isChain_singleton _⟩
  | cons event rest ih =>
    intro m lastUs last hs hstage hup hlater hapart hended horder halone
    rw [List.pairwise_cons] at horder
    cases event with
    | tick nowUs solution =>
      obtain rfl := halone nowUs solution List.mem_cons_self
      have hnow : (Choreography.seconds gateUs lastUs : ℝ) ≤ Choreography.seconds gateUs nowUs := by
        have hnonneg := Choreography.seconds_nonneg (hlater _ List.mem_cons_self)
        rw [← Choreography.seconds_sub gateUs] at hnonneg
        exact sub_nonneg.mp hnonneg
      obtain ⟨next, setpoint, hset, hticked⟩ := hstage.nominal hp hs hnow fun hcmd => by
        rw [Choreography.seconds_sub]
        exact Choreography.seconds_apart (hapart hcmd nowUs none List.mem_cons_self)
      have hstep : m.step (.tick nowUs none) =
          .ok { next with lastNominal := some setpoint } := by
        show m.tick nowUs none = _
        unfold Choreography.tick
        rw [hset]
        rfl
      obtain ⟨flown, hflown, hchain⟩ := ih { next with lastNominal := some setpoint } nowUs
        setpoint hticked.sound.latched hticked.stage.latched hticked.up
        (fun event hmem => (horder.1 event hmem).nowUs_le)
        (fun _ laterUs solution hmem => horder.1 _ hmem)
        (fun hsome endUs hmem => hended (hticked.duration ▸ hsome) endUs
          (List.mem_cons_of_mem _ hmem))
        horder.2 (fun laterUs solution hmem => halone _ _ (List.mem_cons_of_mem _ hmem))
      refine ⟨(nowUs, setpoint) :: flown, ?_, ?_⟩
      · unfold Choreography.fly
        rw [hstep]
        simp only [bind, Except.bind, hflown]
        rfl
      · exact List.isChain_cons_cons.mpr ⟨hticked.within rfl hup, hchain⟩
    | endMission nowUs =>
      have hnone : m.orbitDuration = none := by
        cases hd : m.orbitDuration with
        | none => rfl
        | some d => exact absurd List.mem_cons_self (hended (by rw [hd]; rfl) nowUs)
      have hnow : (Choreography.seconds gateUs lastUs : ℝ) ≤ Choreography.seconds gateUs nowUs := by
        have hnonneg := Choreography.seconds_nonneg (hlater _ List.mem_cons_self)
        rw [← Choreography.seconds_sub gateUs] at hnonneg
        exact sub_nonneg.mp hnonneg
      obtain ⟨hs', hstage'⟩ := hstage.onReturnHome hp hs hnone hnow
      obtain ⟨flown, hflown, hchain⟩ := ih (m.onReturnHome nowUs) lastUs last hs' hstage' hup
        (fun event hmem => hlater event (List.mem_cons_of_mem _ hmem))
        (fun hcmd laterUs solution hmem =>
          hapart hcmd laterUs solution (List.mem_cons_of_mem _ hmem))
        (fun _ endUs hmem => horder.1 _ hmem)
        horder.2 (fun laterUs solution hmem => halone _ _ (List.mem_cons_of_mem _ hmem))
      refine ⟨flown, ?_, hchain⟩
      unfold Choreography.fly
      show (m.onReturnHome nowUs).fly rest >>= _ = _
      rw [hflown]
      rfl

/-! ### The seams -/

/-- A setpoint at a place on the ground, at the height of the choreography. -/
structure EnuSetpoint.IsAt (setpoint : EnuSetpoint ℝ) (east north up : ℝ) : Prop where
  east : setpoint.east = east
  north : setpoint.north = north
  up : setpoint.up = up

theorem OrbitParams.Commands.isAt {setpoint : EnuSetpoint ℝ} {point : Axis → ℝ}
    (h : p.Commands setpoint point) : setpoint.IsAt (point .east) (point .north) p.altitude :=
  ⟨h.coord .east, h.coord .north, h.up⟩

/-- How the segments of the choreography meet. -/
structure Seams (p : OrbitParams ℝ) (m : Choreography ℝ) : Prop where
  /-- The insertion ends where the orbit starts. -/
  insertion : ∀ nowUs, ∃ last next first,
    phasedOrbitInsertion 1 p.droneIndex p.droneCount p.radius p.insertionSpin m.orbitLayout =
        .ok last ∧
      m.phaseGuardSetpoint nowUs 0 none = .ok (next, first) ∧
      first.IsAt last.east last.north last.up
  /-- The orbit ends on the least whole number of revolutions that is not earlier than
  the tolerance before the command. -/
  orbitEnd : ∀ t, 0 ≤ t → IsLeast {d | ∃ k : ℕ, d = k * p.revolution ∧ t - p.tolerance ≤ d}
    (Choreography.orbitEnd p t)
  /-- The modulation vanishes there. -/
  modulation : ∀ t, 0 ≤ t → ∃ phase, p.dronePhase p.droneIndex = .ok phase ∧
    p.scheduledPhase p.droneIndex (Choreography.orbitEnd p t) =
      .ok (p.omega * Choreography.orbitEnd p t + phase)
  /-- The peel-off starts on the circle, at the phase that was commanded last. -/
  peelStart : ∀ d, ∃ phase next first, m.peelPhaseAt d = .ok phase ∧
    m.returnSetpoint d 0 = .ok (next, first) ∧
    first.IsAt (p.center.1 + p.radius * cos phase) (p.center.2 + p.radius * sin phase) p.altitude
  /-- It ends at the center, where the way home starts. -/
  peelEnd : ∀ d, ∃ next last, m.returnSetpoint d p.returnDuration = .ok (next, last) ∧
    last.IsAt p.center.1 p.center.2 p.altitude
  /-- The way home ends at the launch anchor. -/
  homeEnd : ∀ d rt, p.returnDuration + max (1 / 10 ^ 3) p.toCenterTimeS ≤ rt →
    ∃ next last, m.returnSetpoint d rt = .ok (next, last) ∧
      last.IsAt m.homeOffset.1 m.homeOffset.2 p.altitude

theorem orbitEnd_least (hp : p.Valid) {t : ℝ} (ht : 0 ≤ t) :
    IsLeast {d | ∃ k : ℕ, d = k * p.revolution ∧ t - p.tolerance ≤ d}
      (Choreography.orbitEnd p t) := by
  have hrev := revolution_pos hp
  constructor
  · obtain ⟨k, hk⟩ := orbitEnd_revolutions hp ht
    exact ⟨k, hk, by linarith [le_orbitEnd hp t]⟩
  · rintro d ⟨k, rfl, hd⟩
    have hratio : t / p.revolution - 1 / 10 ^ 9 ≤ (k : ℤ) := by
      have hscaled : t ≤ (k + 1 / 10 ^ 9) * p.revolution := by
        unfold tolerance at hd
        linarith
      have hdiv := (div_le_iff₀ hrev).mpr hscaled
      rw [Int.cast_natCast]
      linarith
    have hceil : (⌈t / p.revolution - 1 / 10 ^ 9⌉ : ℝ) ≤ k := by
      exact_mod_cast Int.ceil_le.mpr hratio
    show p.revolution * ((⌈t / p.revolution - 1 / 10 ^ 9⌉ : ℤ) : ℝ) ≤ k * p.revolution
    rw [mul_comm]
    exact mul_le_mul_of_nonneg_right hceil hrev.le

theorem seams (hp : p.Valid) (hm : m.params = p) (hoffset : m.phaseOffset = 0) : Seams p m where
  insertion := by
    intro nowUs
    have hpos := guarded_pos p.spiralTimeS 3
    obtain ⟨last, hlast, hends⟩ := (Choreography.layout_centered hp hm).insertion hp
      (max (1 / 10 ^ 3) p.spiralTimeS)
    rw [div_self hpos.ne'] at hlast
    obtain ⟨first, hfirst, hstarts⟩ := Choreography.phaseGuard_commands hp hm hoffset nowUs 0
    have hmeet : ∀ a : Axis, a.coord first = a.coord last := by
      intro a
      have hramp : p.spiralRamp (max (1 / 10 ^ 3) p.spiralTimeS) = 1 := by
        rw [spiralRamp, div_self hpos.ne', clip_eq_hi zero_le_one le_rfl]
      rw [hstarts.coord, hends.coord, orbitPoint, spiralPoint, hramp, schedule_zero, sub_self,
        mul_zero, sub_zero, mul_one]
    exact ⟨last, _, first, hlast, hfirst, hmeet .east, hmeet .north,
      hstarts.up.trans hends.up.symm⟩
  orbitEnd := fun t ht => orbitEnd_least hp ht
  modulation := by
    intro t ht
    obtain ⟨k, hk⟩ := orbitEnd_revolutions hp ht
    refine ⟨_, dronePhase_ok hp, ?_⟩
    have hrevolutions := schedule_revolution hp k
    have hturn : p.omega * (k * p.revolution) = k * (2 * Real.pi) := turn_revolutions hp k
    rw [Int.cast_natCast] at hrevolutions
    rw [scheduledPhase_ok hp, hk, hrevolutions, hturn, add_comm]
  peelStart := by
    intro d
    obtain ⟨first, hfirst, hstarts⟩ := Choreography.return_commands hp hm d 0
    refine ⟨_, _, first, Choreography.peelPhaseAt_ok hp hm d, hfirst, ?_⟩
    have hat := hstarts.isAt
    rw [returnPoint_zero hp, returnPoint_zero hp] at hat
    exact hat
  peelEnd := by
    intro d
    obtain ⟨last, hlast, hends⟩ := Choreography.return_commands hp hm d p.returnDuration
    refine ⟨_, last, hlast, ?_⟩
    have hat := hends.isAt
    rw [returnPoint_home hp _ _ _ le_rfl, returnPoint_home hp _ _ _ le_rfl, sub_self,
      homeRamp_before le_rfl, sub_zero, mul_one, mul_zero, add_zero, mul_one, mul_zero,
      add_zero] at hat
    exact hat
  homeEnd := by
    intro d rt hrt
    obtain ⟨last, hlast, hends⟩ := Choreography.return_commands hp hm d rt
    refine ⟨_, last, hlast, ?_⟩
    have hpos := guarded_pos p.toCenterTimeS 3
    have hlate : p.returnDuration ≤ rt := by linarith
    have hat := hends.isAt
    rw [returnPoint_home hp _ _ _ hlate, returnPoint_home hp _ _ _ hlate,
      homeRamp_after (by linarith : _ ≤ rt - p.returnDuration), sub_self, mul_zero, zero_add,
      mul_one, mul_zero, zero_add, mul_one] at hat
    exact hat

/-- Over a whole run the commanded position moves no faster than a speed fixed by the
configuration, and every segment starts where the one before it ends. -/
theorem choreography_seams (p : OrbitParams ℝ) (hp : p.Valid) (holdYaw : Option ℝ)
    (home : ℝ × ℝ) (gateUs : ℤ) (events : List (OrbitEvent ℝ)) (hrun : OrbitRun gateUs events) :
    (∃ flown, (Choreography.beginOrbit p holdYaw home gateUs).fly events = .ok flown ∧
      flown.IsChain (Within p home)) ∧
    ∀ m : Choreography ℝ, m.params = p → m.phaseOffset = 0 → Seams p m := by
  refine ⟨?_, fun m hm hoffset => seams hp hm hoffset⟩
  have hsound : Sound p home gateUs (Choreography.beginOrbit p holdYaw home gateUs) :=
    ⟨rfl, rfl, rfl, rfl, fun d hd => by cases hd⟩
  have hzero : (Choreography.seconds gateUs gateUs : ℝ) = 0 := by
    simp [Choreography.seconds]
  have hstage : Stage p home (Choreography.beginOrbit p holdYaw home gateUs)
      (Choreography.seconds gateUs gateUs) fun a =>
        a.coord ⟨p.openPoint .east 0, p.openPoint .north 0, p.altitude, 0⟩ := by
    have hpoint : (fun a : Axis => a.coord
        ⟨p.openPoint .east 0, p.openPoint .north 0, p.altitude, 0⟩) =
        fun a => p.openPoint a 0 := by
      ext a
      cases a with
      | east => rfl
      | north => rfl
    rw [hzero, hpoint]
    exact .inserting le_rfl (spiral_nonneg hp) rfl rfl
  obtain ⟨flown, hflown, hchain⟩ := fly_within hp events _ gateUs _ hsound hstage rfl
    hrun.gate (fun hcmd => by cases hcmd) (fun hd => by cases hd) hrun.order hrun.alone
  exact ⟨flown, hflown, hchain.of_cons⟩

theorem declared_valid : (declared : OrbitParams ℝ).Valid where
  index := by norm_num [declared]
  phases := fun phases h => by cases h
  modAmps := by norm_num [declared]
  modPhases := by norm_num [declared]
  peelOrder := by
    show isPeelOrder 4 (peelSequence 4 none)
    simp [isPeelOrder, peelSequence, List.range_succ, List.mergeSort,
      List.MergeSort.Internal.splitInTwo]
  yawMode := fun name h => by cases h
  radius := by norm_num [declared]
  speed := by norm_num [declared]
  spiral := Or.inr (by norm_num [declared])
  leadIn := by norm_num [declared]
  stagger := by norm_num [declared]
  peelDuration := by norm_num [declared]

/-- The command to come home in the middle of the insertion. -/
theorem choreography_seams_declared :
    ∃ flown, (Choreography.beginOrbit (declared : OrbitParams ℝ) none (0, 0) 1000000).fly
        [.tick 1050000 none, .endMission 6000000, .tick 10950000 none, .tick 11000000 none] =
        .ok flown ∧
      flown.IsChain (Within declared (0, 0)) :=
  (choreography_seams declared declared_valid none (0, 0) 1000000 _
    ⟨by simp [OrbitEvent.Before, OrbitEvent.nowUs], by simp [OrbitEvent.nowUs], by
      intro nowUs solution hmem
      simp only [List.mem_cons, OrbitEvent.tick.injEq, reduceCtorEq, List.not_mem_nil, false_or,
        or_false] at hmem
      rcases hmem with ⟨_, hnone⟩ | ⟨_, hnone⟩ | ⟨_, hnone⟩ <;> exact hnone⟩).1

/-- With the declared parameters the orbit ends before a command that comes eleven
nanoseconds after the end of a revolution. -/
theorem declared_orbit_ends_before_command :
    ∃ d, ((Choreography.beginOrbit (declared : OrbitParams ℝ) none (0, 0) 1000000).onReturnHome
        430088460).orbitDuration = some d ∧
      d < Choreography.seconds 1000000 430088460 - (declared : OrbitParams ℝ).spiralTimeS := by
  refine ⟨_, rfl, ?_⟩
  have hlow := Real.pi_gt_d20
  have hhigh := Real.pi_lt_d20
  have hrev : (declared : OrbitParams ℝ).revolution = 46 / 10 * Real.pi := by
    rw [revolution, omega, pi_real]
    norm_num [declared]
    ring
  have hclock : (Choreography.seconds 1000000 430088460 : ℝ) = 42908846 / 10 ^ 5 := by
    norm_num [Choreography.seconds]
  have hspiral : (declared : OrbitParams ℝ).spiralTimeS = 10 := rfl
  have hcommand : max 0 (max 0 (Choreography.seconds 1000000 430088460) -
      (declared : OrbitParams ℝ).spiralTimeS) = 41908846 / 10 ^ 5 := by
    rw [hclock, hspiral]
    norm_num
  have hceil : ⌈(41908846 / 10 ^ 5 : ℝ) / (46 / 10 * Real.pi) - 1 / 10 ^ 9⌉ ≤ 29 := by
    rw [Int.ceil_le, sub_le_iff_le_add, div_le_iff₀ (by positivity)]
    push_cast
    nlinarith
  have hcast : (⌈(41908846 / 10 ^ 5 : ℝ) / (46 / 10 * Real.pi) - 1 / 10 ^ 9⌉ : ℝ) ≤ 29 := by
    exact_mod_cast hceil
  show Choreography.orbitEnd declared (max 0 (max 0 (Choreography.seconds 1000000 430088460) -
    (declared : OrbitParams ℝ).spiralTimeS)) < _
  rw [hcommand, hclock, hspiral]
  show (declared : OrbitParams ℝ).revolution *
    ((⌈(41908846 / 10 ^ 5 : ℝ) / (declared : OrbitParams ℝ).revolution - 1 / 10 ^ 9⌉ : ℤ) : ℝ) < _
  rw [hrev]
  have hscaled := mul_le_mul_of_nonneg_left hcast
    (mul_pos (by norm_num : (0 : ℝ) < 46 / 10) Real.pi_pos).le
  linarith

end Mission10.Flight
