import Mission10.Flight.Orca

/-!
# The linear program of the collision avoidance

With exact arithmetic and no tolerances, the incremental program finds the
closest permitted velocity. The loop keeps the closest point of the constraints
so far; a constraint that it violates is met first on its boundary line, and the
clipped interval of that line is all that the earlier constraints leave of it.
-/
namespace Mission10.Flight

open Engine (MathOps Point2 sqrt_real)
open Engine.MathOps Plane

set_option linter.unusedSectionVars false

variable {K : Type*} [Field K] [LinearOrder K] [IsStrictOrderedRing K] [MathOps K]

/-- The velocities that all of the constraints permit. -/
def Keeps (constraints : List (HalfPlane K)) (v : Point2 K) : Prop :=
  ∀ c ∈ constraints, c.2 ≤ dot c.1 v

/-- The common points of the disc of the speed and the half-planes. -/
def Permitted (constraints : List (HalfPlane K)) (maxSpeed : K) : Set (Point2 K) :=
  {v | normSq v ≤ maxSpeed ^ 2 ∧ Keeps constraints v}

theorem keeps_cons (c : HalfPlane K) (constraints : List (HalfPlane K)) (v : Point2 K) :
    Keeps (c :: constraints) v ↔ c.2 ≤ dot c.1 v ∧ Keeps constraints v :=
  List.forall_mem_cons

theorem keeps_append (front back : List (HalfPlane K)) (v : Point2 K) :
    Keeps (front ++ back) v ↔ Keeps front v ∧ Keeps back v :=
  List.forall_mem_append

theorem permitted_nil (maxSpeed : K) : Permitted [] maxSpeed = {v | normSq v ≤ maxSpeed ^ 2} := by
  ext v
  simp [Permitted, Keeps]

theorem permitted_snoc (constraints : List (HalfPlane K)) (c : HalfPlane K) (maxSpeed : K) :
    Permitted (constraints ++ [c]) maxSpeed =
      {v | v ∈ Permitted constraints maxSpeed ∧ c.2 ≤ dot c.1 v} := by
  ext v
  simp only [Permitted, Set.mem_ofPred_eq, keeps_append, keeps_cons, and_assoc]
  simp [Keeps]

theorem permitted_append_subset (front back : List (HalfPlane K)) (maxSpeed : K) :
    Permitted (front ++ back) maxSpeed ⊆ Permitted front maxSpeed := by
  intro v hv
  exact ⟨hv.1, ((keeps_append front back v).mp hv.2).1⟩

theorem convex_permitted (constraints : List (HalfPlane K)) (maxSpeed : K) :
    Convex K (Permitted constraints maxSpeed) := by
  induction constraints using List.reverseRecOn with
  | nil =>
    rw [permitted_nil]
    exact convex_disc maxSpeed
  | append_singleton constraints c ih =>
    rw [permitted_snoc]
    exact ih.inter (convex_halfPlane c.1 c.2)

/-! ### The disc -/

/-! ### A boundary line -/

/-- A constraint on the line through a point, as a bound on the parameter. -/
theorem le_dot_line (c : HalfPlane K) (point direction : Point2 K) (t : K) :
    c.2 ≤ dot c.1 (point + t • direction) ↔ c.2 - dot c.1 point ≤ t * dot c.1 direction := by
  rw [dot_add, dot_smul]
  exact sub_le_iff_le_add'.symm

/-- One constraint that crosses the line moves one end of the interval. -/
theorem clip_end {coefficient required lower upper : K} (h : coefficient ≠ 0) (t : K) :
    ((if coefficient > 0 then max lower (required / coefficient) else lower) ≤ t ∧
      t ≤ (if coefficient > 0 then upper else min upper (required / coefficient))) ↔
    (lower ≤ t ∧ t ≤ upper) ∧ required ≤ t * coefficient := by
  rcases lt_or_gt_of_ne h with hneg | hpos
  · rw [if_neg hneg.not_gt, if_neg hneg.not_gt, le_min_iff, le_div_iff_of_neg hneg, and_assoc]
  · rw [if_pos hpos, if_pos hpos, max_le_iff, div_le_iff₀ hpos, and_right_comm]

section clipLine

variable (point : Point2 K) {direction : Point2 K} {c : HalfPlane K}
  (preceding : List (HalfPlane K)) (lower upper : K)

theorem clipLine_parallel (hzero : dot c.1 direction = 0) :
    clipLine Tolerances.zero point direction (c :: preceding) lower upper =
      if c.2 - dot c.1 point > 0 then none
      else clipLine Tolerances.zero point direction preceding lower upper := by
  simp [clipLine, hzero]

/-- A constraint that crosses the line moves an end of the interval. -/
theorem clipLine_cross (hcross : dot c.1 direction ≠ 0) : ∃ lower' upper',
    (∀ t, (lower' ≤ t ∧ t ≤ upper') ↔
      (lower ≤ t ∧ t ≤ upper) ∧ c.2 - dot c.1 point ≤ t * dot c.1 direction) ∧
    clipLine Tolerances.zero point direction (c :: preceding) lower upper =
      if lower' > upper' then none
      else clipLine Tolerances.zero point direction preceding lower' upper' := by
  have hnot : ¬ |dot c.1 direction| ≤ 0 := fun h => hcross (abs_nonpos_iff.mp h)
  refine ⟨_, _, clip_end hcross, ?_⟩
  simp [clipLine, hnot]

end clipLine

/-- The clipped interval is what the constraints leave of the line. -/
theorem clipLine_spec (point direction : Point2 K) (preceding : List (HalfPlane K))
    {lower upper : K} (hle : lower ≤ upper) :
    (clipLine Tolerances.zero point direction preceding lower upper = none →
      ∀ t, lower ≤ t ∧ t ≤ upper → ¬ Keeps preceding (point + t • direction)) ∧
    ∀ interval, clipLine Tolerances.zero point direction preceding lower upper = some interval →
      interval.1 ≤ interval.2 ∧ ∀ t, (interval.1 ≤ t ∧ t ≤ interval.2) ↔
        (lower ≤ t ∧ t ≤ upper) ∧ Keeps preceding (point + t • direction) := by
  induction preceding generalizing lower upper with
  | nil =>
    refine ⟨fun h => by simp [clipLine] at h, fun interval h => ?_⟩
    obtain rfl : (lower, upper) = interval := Option.some.inj h
    exact ⟨hle, fun t => by simp [Keeps]⟩
  | cons c preceding ih =>
    simp only [keeps_cons, le_dot_line]
    by_cases hzero : dot c.1 direction = 0
    · rw [clipLine_parallel point preceding lower upper hzero]
      simp only [hzero, mul_zero]
      by_cases hviolated : c.2 - dot c.1 point > 0
      · rw [if_pos hviolated]
        refine ⟨fun _ t _ hkeeps => ?_, fun interval h => by cases h⟩
        exact absurd hkeeps.1 hviolated.not_ge
      · rw [if_neg hviolated]
        simp only [not_lt.mp hviolated, true_and]
        exact ih hle
    · obtain ⟨lower', upper', hend, heq⟩ := clipLine_cross point preceding lower upper hzero
      rw [heq]
      by_cases hempty : lower' > upper'
      · rw [if_pos hempty]
        refine ⟨fun _ t ht hkeeps => ?_, fun interval h => by cases h⟩
        obtain ⟨hlow, hhigh⟩ := (hend t).mpr ⟨ht, hkeeps.1⟩
        exact absurd (hlow.trans hhigh) hempty.not_ge
      · rw [if_neg hempty]
        obtain ⟨hnone, hinterval⟩ := ih (not_lt.mp hempty)
        constructor
        · intro h t ht hkeeps
          exact hnone h t ((hend t).mpr ⟨ht, hkeeps.1⟩) hkeeps.2
        · intro interval h
          obtain ⟨hordered, hall⟩ := hinterval interval h
          refine ⟨hordered, fun t => ?_⟩
          rw [hall t, hend t, and_assoc]

/-- The point of a boundary line that has a given parameter. -/
theorem line_point {n : Point2 K} (hn : normSq n = 1) (b t : K) :
    dot n (b • n + t • turn n) = b ∧ dot (turn n) (b • n + t • turn n) = t := by
  have hself : dot n n = 1 := hn
  have hturn : dot (turn n) (turn n) = 1 := (normSq_turn n).trans hn
  constructor
  · rw [dot_add, dot_smul, dot_smul, hself, dot_turn_self, mul_one, mul_zero, add_zero]
  · rw [dot_add, dot_smul, dot_smul, hturn, dot_comm, dot_turn_self, mul_one, mul_zero, zero_add]

/-- Among the parameters of an interval the clamped one is the closest. -/
theorem clamp_closest {lower upper target t : K} (hlow : lower ≤ t) (hhigh : t ≤ upper) :
    (min upper (max lower target) - target) ^ 2 ≤ (t - target) ^ 2 := by
  have hbetween : lower ≤ upper := hlow.trans hhigh
  rcases le_total target lower with hbelow | habove
  · rw [max_eq_left hbelow, min_eq_right hbetween]
    exact pow_le_pow_left₀ (sub_nonneg.mpr hbelow) (sub_le_sub_right hlow target) 2
  · rw [max_eq_right habove]
    rcases le_total target upper with hinside | houtside
    · rw [min_eq_right hinside, sub_self, zero_pow two_ne_zero]
      exact sq_nonneg _
    · rw [min_eq_left houtside, ← neg_sub target upper, ← neg_sub target t, neg_sq, neg_sq]
      exact pow_le_pow_left₀ (sub_nonneg.mpr houtside) (sub_le_sub_left hhigh target) 2

/-- The clamped parameter is the closest point of the interval of a line. -/
theorem line_closest {n : Point2 K} (hn : normSq n = 1) (b : K) (preferred : Point2 K)
    {lower upper t : K} (hlow : lower ≤ t) (hhigh : t ≤ upper) :
    normSq (b • n + min upper (max lower (dot (turn n) (preferred - b • n))) • turn n - preferred)
      ≤ normSq (b • n + t • turn n - preferred) := by
  have htarget : dot (turn n) (preferred - b • n) = dot (turn n) preferred := by
    rw [dot_sub, dot_smul, dot_comm (turn n) n, dot_turn_self, mul_zero, sub_zero]
  obtain ⟨hfirst, hsecond⟩ := line_point hn b t
  obtain ⟨hfirst', hsecond'⟩ := line_point hn b
    (min upper (max lower (dot (turn n) (preferred - b • n))))
  rw [normSq_frame hn, normSq_frame hn (b • n + t • turn n - preferred)]
  simp only [dot_sub n, dot_sub (turn n) _ preferred, hfirst, hsecond, hfirst', hsecond']
  apply add_le_add_right
  rw [htarget]
  exact clamp_closest hlow hhigh

/-- Clipping the speed leads to the closest point of the disc. -/
theorem clipSpeed_closest (preferred : Point2 ℝ) {maxSpeed : ℝ} (hspeed : 0 ≤ maxSpeed) :
    Closest preferred (Permitted [] maxSpeed) (clipSpeed preferred maxSpeed) := by
  have hsq : normSq preferred = √(normSq preferred) ^ 2 :=
    (Real.sq_sqrt (normSq_nonneg _)).symm
  rw [permitted_nil]
  by_cases hslow : √(normSq preferred) ≤ maxSpeed
  · have hclip : clipSpeed preferred maxSpeed = preferred := if_pos hslow
    rw [hclip]
    refine closest_of_dot ?_ fun y _ => ?_
    · rw [Set.mem_ofPred_eq, hsq]
      exact pow_le_pow_left₀ (Real.sqrt_nonneg _) hslow 2
    · simp [dot]
  · have hclip : clipSpeed preferred maxSpeed = (maxSpeed / √(normSq preferred)) • preferred :=
      if_neg hslow
    rw [hclip]
    exact closest_disc hspeed (not_le.mp hslow) hsq

/-- Which points of a boundary line the speed and the earlier constraints permit. -/
theorem permitted_line {n : Point2 ℝ} (hn : normSq n = 1) (b t : ℝ)
    (preceding : List (HalfPlane ℝ)) (maxSpeed : ℝ) :
    b • n + t • turn n ∈ Permitted preceding maxSpeed ↔
      t ^ 2 ≤ maxSpeed * maxSpeed - normSq (b • n) ∧ Keeps preceding (b • n + t • turn n) := by
  obtain ⟨hfirst, hsecond⟩ := line_point hn b t
  simp only [Permitted, Set.mem_ofPred_eq, normSq_frame hn (b • n + t • turn n), hfirst, hsecond]
  rw [normSq_smul, hn, mul_one, le_sub_iff_add_le', sq maxSpeed]

/-- The candidate on the boundary of a constraint that the earlier ones leave. -/
theorem lineCandidate_spec (preferred : Point2 ℝ) {c : HalfPlane ℝ} (hn : normSq c.1 = 1)
    (preceding : List (HalfPlane ℝ)) (maxSpeed : ℝ) :
    (lineCandidate Tolerances.zero preferred c preceding maxSpeed = none →
      ∀ v ∈ Permitted preceding maxSpeed, dot c.1 v ≠ c.2) ∧
    ∀ candidate, lineCandidate Tolerances.zero preferred c preceding maxSpeed = some candidate →
      Closest preferred {v | v ∈ Permitted preceding maxSpeed ∧ dot c.1 v = c.2} candidate := by
  obtain ⟨n, b⟩ := c
  have hline (v : Point2 ℝ) (hv : dot n v = b) : v = b • n + dot (turn n) v • turn n := by
    have hframe := frame hn v
    rwa [hv] at hframe
  simp only [lineCandidate, Tolerances.zero_radiusSq, neg_zero]
  by_cases hradius : maxSpeed * maxSpeed - normSq (b • n) < 0
  · rw [if_pos hradius]
    refine ⟨fun _ v hv hb => ?_, fun candidate h => by cases h⟩
    rw [hline v hb, permitted_line hn] at hv
    exact absurd ((sq_nonneg _).trans hv.1) hradius.not_ge
  · rw [if_neg hradius]
    rw [not_lt] at hradius
    have hextent (t : ℝ) : -√(maxSpeed * maxSpeed - normSq (b • n)) ≤ t ∧
        t ≤ √(maxSpeed * maxSpeed - normSq (b • n)) ↔
        t ^ 2 ≤ maxSpeed * maxSpeed - normSq (b • n) := (Real.sq_le hradius).symm
    have hmax : MathOps.sqrt (max 0 (maxSpeed * maxSpeed - normSq (b • n))) =
        √(maxSpeed * maxSpeed - normSq (b • n)) := by
      rw [max_eq_right hradius]
      rfl
    rw [hmax]
    have hordered : -√(maxSpeed * maxSpeed - normSq (b • n)) ≤
        √(maxSpeed * maxSpeed - normSq (b • n)) := neg_le_self (Real.sqrt_nonneg _)
    obtain ⟨hnone, hsome⟩ := clipLine_spec (b • n) (turn n) preceding hordered
    constructor
    · intro h v hv hb
      rw [hline v hb, permitted_line hn, ← hextent] at hv
      exact hnone (Option.map_eq_none_iff.mp h) _ hv.1 hv.2
    · intro candidate h
      obtain ⟨interval, hinterval, rfl⟩ := Option.map_eq_some_iff.mp h
      obtain ⟨hbetween, hall⟩ := hsome interval hinterval
      constructor
      · have hclamped := (hall (min interval.2 (max interval.1
          (dot (turn n) (preferred - b • n))))).mp
            ⟨le_min hbetween (le_max_left _ _), min_le_left _ _⟩
        refine ⟨?_, (line_point hn b _).1⟩
        rw [permitted_line hn, ← hextent]
        exact hclamped
      · intro y hy
        have hmem := hy.1
        rw [hline y hy.2, permitted_line hn, ← hextent, ← hall] at hmem
        rw [hline y hy.2]
        exact line_closest hn b preferred hmem.1 hmem.2

/-! ### The program -/

/-- What the loop returns, from the closest point of the constraints before. -/
theorem solveFrom_spec {preferred : Point2 ℝ} {maxSpeed : ℝ} (constraints : List (HalfPlane ℝ))
    {preceding rest : List (HalfPlane ℝ)} (hunit : ∀ c ∈ rest, normSq c.1 = 1) {result : Point2 ℝ}
    (h : Closest preferred (Permitted preceding maxSpeed) result) :
    let s := solveFrom Tolerances.zero preferred maxSpeed constraints preceding result rest
    (s.feasible = true ∧ Closest preferred (Permitted (preceding ++ rest) maxSpeed) s.velocity) ∨
    (s.feasible = false ∧ ∃ front c back, rest = front ++ c :: back ∧
      Closest preferred (Permitted (preceding ++ front) maxSpeed) s.velocity ∧
      Permitted (preceding ++ front ++ [c]) maxSpeed = ∅) := by
  induction rest generalizing preceding result with
  | nil =>
    rw [List.append_nil]
    exact .inl ⟨rfl, h⟩
  | cons c rest ih =>
    obtain ⟨hn, hrest⟩ := List.forall_mem_cons.mp hunit
    have hgo {next : Point2 ℝ}
        (hnext : Closest preferred (Permitted (preceding ++ [c]) maxSpeed) next) :
        let s :=
          solveFrom Tolerances.zero preferred maxSpeed constraints (preceding ++ [c]) next rest
        (s.feasible = true ∧
          Closest preferred (Permitted (preceding ++ c :: rest) maxSpeed) s.velocity) ∨
        (s.feasible = false ∧ ∃ front c' back, c :: rest = front ++ c' :: back ∧
          Closest preferred (Permitted (preceding ++ front) maxSpeed) s.velocity ∧
          Permitted (preceding ++ front ++ [c']) maxSpeed = ∅) := by
      have hall := ih hrest hnext
      simp only [List.append_assoc, List.singleton_append] at hall
      refine hall.imp_right fun hfail => ⟨hfail.1, ?_⟩
      obtain ⟨front, c', back, rfl, hclosest, hempty⟩ := hfail.2
      exact ⟨c :: front, c', back, rfl, hclosest, by simpa using hempty⟩
    simp only [solveFrom, Tolerances.zero_satisfied, sub_zero]
    by_cases hkept : dot c.1 result ≥ c.2
    · rw [if_pos hkept]
      apply hgo
      rw [permitted_snoc]
      exact ⟨⟨h.mem, hkept⟩, fun y hy => h.le y hy.1⟩
    · rw [if_neg hkept]
      rw [ge_iff_le, not_le] at hkept
      obtain ⟨hnone, hsome⟩ := lineCandidate_spec preferred hn preceding maxSpeed
      cases hcandidate : lineCandidate Tolerances.zero preferred c preceding maxSpeed with
      | none =>
        refine .inr ⟨rfl, [], c, rest, rfl, by simpa using h, ?_⟩
        rw [List.append_nil, permitted_snoc, Set.eq_empty_iff_forall_notMem]
        intro v hv
        obtain ⟨w, hw, hb, -⟩ := h.meets_boundary (convex_permitted preceding maxSpeed) hkept
          hv.1 hv.2
        exact hnone hcandidate w hw hb
      | some candidate =>
        apply hgo
        rw [permitted_snoc]
        exact h.of_boundary (convex_permitted preceding maxSpeed) hkept
          (hsome candidate hcandidate)

/-- The program reports feasible exactly when the disc of the speed and the
half-planes have a common point, and returns the closest one; otherwise it
returns the closest point of the longest feasible prefix. -/
theorem linearProgram_optimal (preferred : Point2 ℝ) {constraints : List (HalfPlane ℝ)}
    (hunit : ∀ c ∈ constraints, normSq c.1 = 1) {maxSpeed : ℝ} (hspeed : 0 ≤ maxSpeed) :
    let s := linearProgram Tolerances.zero preferred constraints maxSpeed
    (s.feasible = true ↔ (Permitted constraints maxSpeed).Nonempty) ∧
    (s.feasible = true → s.velocity ∈ Permitted constraints maxSpeed ∧
      ∀ v ∈ Permitted constraints maxSpeed, v ≠ s.velocity →
        normSq (s.velocity - preferred) < normSq (v - preferred)) ∧
    (s.feasible = false → ∃ k < constraints.length,
      (∀ j, k < j → j ≤ constraints.length → Permitted (constraints.take j) maxSpeed = ∅) ∧
      s.velocity ∈ Permitted (constraints.take k) maxSpeed ∧
      ∀ v ∈ Permitted (constraints.take k) maxSpeed, v ≠ s.velocity →
        normSq (s.velocity - preferred) < normSq (v - preferred)) := by
  intro s
  have hspec := solveFrom_spec constraints hunit (clipSpeed_closest preferred hspeed)
  rw [List.nil_append] at hspec
  rcases hspec with ⟨hfeasible, hclosest⟩ | ⟨hinfeasible, front, c, back, heq, hclosest, hempty⟩
  · refine ⟨⟨fun _ => ⟨_, hclosest.mem⟩, fun _ => hfeasible⟩, fun _ => ⟨hclosest.mem, ?_⟩, ?_⟩
    · exact fun v hv hne => hclosest.lt (convex_permitted constraints maxSpeed) hv hne
    · intro hnot
      exact absurd (hfeasible.symm.trans hnot) (by decide)
  · rw [List.nil_append] at hclosest hempty
    have htake : constraints.take front.length = front := by rw [heq, List.take_left]
    have hlonger (j : ℕ) (hj : front.length < j) :
        Permitted (constraints.take j) maxSpeed = ∅ := by
      obtain ⟨more, hmore⟩ : ∃ more, constraints.take j = (front ++ [c]) ++ more := by
        obtain ⟨extra, rfl⟩ := Nat.exists_eq_add_of_lt hj
        refine ⟨back.take extra, ?_⟩
        rw [heq, List.take_append, List.take_of_length_le (by omega)]
        have hrest : front.length + extra + 1 - front.length = extra + 1 := by omega
        rw [hrest, List.take_succ_cons, List.append_assoc, List.singleton_append]
      rw [hmore]
      exact Set.subset_eq_empty (permitted_append_subset _ _ _) hempty
    refine ⟨iff_of_false ?_ ?_, ?_, fun _ => ⟨front.length, ?_, fun j hj _ => hlonger j hj, ?_⟩⟩
    · intro hfeasible
      exact absurd (hfeasible.symm.trans hinfeasible) (by decide)
    · rw [heq, ← List.singleton_append, ← List.append_assoc]
      rintro ⟨v, hv⟩
      have hnone := permitted_append_subset (front ++ [c]) back maxSpeed hv
      rw [hempty] at hnone
      exact hnone
    · intro hfeasible
      exact absurd (hfeasible.symm.trans hinfeasible) (by decide)
    · rw [heq, List.length_append, List.length_cons]
      omega
    · rw [htake]
      exact ⟨hclosest.mem, fun v hv hne =>
        hclosest.lt (convex_permitted front maxSpeed) hv hne⟩

/-- One half-plane, and a preferred velocity that it does not permit. -/
noncomputable def oneConstraint : List (HalfPlane ℝ) := [((1, 0), 1 / 2)]

theorem linearProgram_optimal_one :
    (linearProgram Tolerances.zero (0, 0) oneConstraint 1).feasible = true ∧
    ∀ v ∈ Permitted oneConstraint 1,
      v ≠ (linearProgram Tolerances.zero (0, 0) oneConstraint 1).velocity →
      normSq ((linearProgram Tolerances.zero (0, 0) oneConstraint 1).velocity - (0, 0)) <
        normSq (v - (0, 0)) := by
  have hunit : ∀ c ∈ oneConstraint, normSq c.1 = 1 := by
    simp [oneConstraint, normSq, dot]
  have hoptimal := linearProgram_optimal (0, 0) hunit zero_le_one
  have hmem : ((1, 0) : Point2 ℝ) ∈ Permitted oneConstraint 1 := by
    constructor
    · norm_num [normSq, dot]
    · norm_num [Keeps, oneConstraint, dot]
  have hfeasible := hoptimal.1.mpr ⟨_, hmem⟩
  exact ⟨hfeasible, (hoptimal.2.1 hfeasible).2⟩

end Mission10.Flight
