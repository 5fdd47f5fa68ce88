import Mission10.Flight.SurveySchedule

/-!
# The spacing of the survey lanes

The planner rounds the lane count down and spreads the lanes over the whole width, so
that the lanes reach both long edges, and are further apart than was asked for
wherever the width is more than the spacing and not a whole number of it.
-/
namespace Mission10.Flight

open Engine (MathOps radians)
open Engine.MathOps

set_option linter.unusedSectionVars false

variable {K : Type*} [Field K] [LinearOrder K] [MathOps K]

/-- The lanes of a list of vertices, two vertices each. -/
def lanesOf {α : Type*} : List α → List (α × α)
  | p :: q :: rest => (p, q) :: lanesOf rest
  | _ => []

/-- How far a point is across the lanes from the edge at the origin. -/
def SurveyField.offset (field : SurveyField K) (pass : SurveyPass K) (p : EnuPoint K) : K :=
  (p.east - field.originE) * pass.across.1 + (p.north - field.originN) * pass.across.2

/-- A point of the rectangle by its place along and across the lanes. -/
def SurveyField.place (field : SurveyField K) (pass : SurveyPass K) (s w : K) : EnuPoint K :=
  ⟨field.originE + pass.across.1 * w + pass.along.1 * s,
    field.originN + pass.across.2 * w + pass.along.2 * s, field.altitudeM⟩

/-- A lane from one end of the rectangle to the other, in either direction. -/
def SurveyField.Edge (field : SurveyField K) (pass : SurveyPass K) (w : K)
    (lane : EnuPoint K × EnuPoint K) : Prop :=
  lane = (field.place pass 0 w, field.place pass pass.lengthM w) ∨
    lane = (field.place pass pass.lengthM w, field.place pass 0 w)

/-- Consecutive lanes are no further apart than the spacing, and both long edges are
lanes. -/
structure SurveyField.Covers (field : SurveyField ℝ) (pass : SurveyPass ℝ)
    (lanes : List (EnuPoint ℝ × EnuPoint ℝ)) : Prop where
  spaced : ∀ i lane next, lanes[i]? = some lane → lanes[i + 1]? = some next →
    |field.offset pass next.1 - field.offset pass lane.2| ≤ field.spacingM
  firstEdge : ∃ lane ∈ lanes, field.Edge pass 0 lane
  lastEdge : ∃ lane ∈ lanes, field.Edge pass pass.widthM lane

/-! ### The lanes -/

/-- The two ends of a lane in the order of the flight. -/
def SurveyField.lane (field : SurveyField K) (pass : SurveyPass K) (i : ℕ) :
    EnuPoint K × EnuPoint K :=
  if i % 2 = 0 then (field.near pass i, field.far pass i) else (field.far pass i, field.near pass i)

theorem SurveyField.laneEnds_eq (field : SurveyField K) (pass : SurveyPass K) (i : ℕ) :
    field.laneEnds pass i = [(field.lane pass i).1, (field.lane pass i).2] := by
  unfold laneEnds lane
  split_ifs <;> rfl

theorem lanesOf_flatMap {α : Type*} {ends : ℕ → List α} {lane : ℕ → α × α}
    (h : ∀ i, ends i = [(lane i).1, (lane i).2]) (is : List ℕ) :
    lanesOf (is.flatMap ends) = is.map lane := by
  induction is with
  | nil => rfl
  | cons i is ih =>
    rw [List.flatMap_cons, h i, List.map_cons, List.cons_append, List.cons_append,
      List.nil_append, lanesOf, ih]

theorem two_le_laneCount (widthM spacingM : K) : 2 ≤ laneCount widthM spacingM := le_max_left _ _

variable {field : SurveyField ℝ} {cross : Bool}

theorem lanesOf_vertices (field : SurveyField ℝ) (cross : Bool) :
    lanesOf (field.vertices cross) =
      (List.range (laneCount (field.pass cross).widthM field.spacingM).toNat).map
        (field.lane (field.pass cross)) :=
  lanesOf_flatMap (field.laneEnds_eq (field.pass cross)) _

/-- The axes of a pass are unit vectors at a right angle. -/
theorem SurveyField.pass_axes (field : SurveyField ℝ) (cross : Bool) :
    (field.pass cross).across.1 * (field.pass cross).across.1 +
        (field.pass cross).across.2 * (field.pass cross).across.2 = 1 ∧
      (field.pass cross).along.1 * (field.pass cross).across.1 +
        (field.pass cross).along.2 * (field.pass cross).across.2 = 0 := by
  have hunit := Real.sin_sq_add_cos_sq (radians field.alongDeg)
  cases cross
  · constructor
    · show -Real.sin _ * -Real.sin _ + Real.cos _ * Real.cos _ = 1
      linear_combination hunit
    · show Real.cos _ * -Real.sin _ + Real.sin _ * Real.cos _ = 0
      ring
  · constructor
    · show Real.cos _ * Real.cos _ + Real.sin _ * Real.sin _ = 1
      linear_combination hunit
    · show -Real.sin _ * Real.cos _ + Real.cos _ * Real.sin _ = 0
      ring

theorem SurveyField.offset_place (field : SurveyField ℝ) (cross : Bool) (s w : ℝ) :
    field.offset (field.pass cross) (field.place (field.pass cross) s w) = w := by
  obtain ⟨hunit, hright⟩ := field.pass_axes cross
  simp only [offset, place]
  linear_combination w * hunit + s * hright

theorem SurveyField.near_eq (field : SurveyField ℝ) (pass : SurveyPass ℝ) (i : ℕ) :
    field.near pass i = field.place pass 0 (laneStep pass.widthM field.spacingM * i) := by
  simp only [near, place, mul_assoc, mul_zero, add_zero]

theorem SurveyField.far_eq (field : SurveyField ℝ) (pass : SurveyPass ℝ) (i : ℕ) :
    field.far pass i =
      field.place pass pass.lengthM (laneStep pass.widthM field.spacingM * i) := by
  simp only [far, near, place, mul_assoc]

/-- A lane is an edge of the rectangle at its own offset. -/
theorem SurveyField.lane_edge (field : SurveyField ℝ) (pass : SurveyPass ℝ) (i : ℕ) :
    field.Edge pass (laneStep pass.widthM field.spacingM * i) (field.lane pass i) := by
  unfold lane Edge
  rw [field.near_eq, field.far_eq]
  split_ifs
  · exact Or.inl rfl
  · exact Or.inr rfl

/-- Both ends of an edge are at its offset. -/
theorem SurveyField.Edge.offset {w : ℝ} {lane : EnuPoint ℝ × EnuPoint ℝ}
    (h : field.Edge (field.pass cross) w lane) :
    field.offset (field.pass cross) lane.1 = w ∧ field.offset (field.pass cross) lane.2 = w := by
  obtain rfl | rfl := h
  · exact ⟨field.offset_place cross _ _, field.offset_place cross _ _⟩
  · exact ⟨field.offset_place cross _ _, field.offset_place cross _ _⟩

/-! ### The spacing -/

theorem laneStep_mul (widthM spacingM : ℝ) :
    laneStep widthM spacingM * (((laneCount widthM spacingM).toNat - 1 : ℕ) : ℝ) = widthM := by
  have hcount := two_le_laneCount widthM spacingM
  have hcast : (((laneCount widthM spacingM).toNat - 1 : ℕ) : ℝ) =
      (laneCount widthM spacingM : ℝ) - 1 := by
    have hint : (((laneCount widthM spacingM).toNat - 1 : ℕ) : ℤ) =
        laneCount widthM spacingM - 1 := by omega
    exact_mod_cast congrArg (Int.cast : ℤ → ℝ) hint
  have hpos : (0 : ℝ) < (laneCount widthM spacingM : ℝ) - 1 := by
    have : (2 : ℝ) ≤ (laneCount widthM spacingM : ℝ) := by exact_mod_cast hcount
    linarith
  rw [hcast, laneStep, div_mul_cancel₀ _ hpos.ne']

/-- The lanes of a pass cover its rectangle when their step is within the spacing. -/
theorem SurveyField.covers_iff_step (field : SurveyField ℝ) (cross : Bool) :
    field.Covers (field.pass cross) (lanesOf (field.vertices cross)) ↔
      |laneStep (field.pass cross).widthM field.spacingM| ≤ field.spacingM := by
  have hcount := two_le_laneCount (field.pass cross).widthM field.spacingM
  rw [lanesOf_vertices]
  constructor
  · intro h
    have hspaced := h.spaced 0 (field.lane (field.pass cross) 0) (field.lane (field.pass cross) 1)
    rw [List.getElem?_map, List.getElem?_map, List.getElem?_range (by omega),
      List.getElem?_range (by omega)] at hspaced
    have hstep := hspaced rfl rfl
    rw [(field.lane_edge (field.pass cross) 0).offset.2,
      (field.lane_edge (field.pass cross) 1).offset.1] at hstep
    simpa using hstep
  · intro h
    constructor
    · intro i lane next hlane hnext
      rw [List.getElem?_map, Option.map_eq_some_iff] at hlane hnext
      obtain ⟨j, hj, rfl⟩ := hlane
      obtain ⟨k, hk, rfl⟩ := hnext
      obtain ⟨_, hj⟩ := List.getElem?_eq_some_iff.mp hj
      obtain ⟨_, hk⟩ := List.getElem?_eq_some_iff.mp hk
      rw [List.getElem_range] at hj hk
      subst hj hk
      rw [(field.lane_edge (field.pass cross) _).offset.2,
        (field.lane_edge (field.pass cross) _).offset.1, ← mul_sub]
      simpa using h
    · have hmem : 0 ∈ List.range (laneCount (field.pass cross).widthM field.spacingM).toNat :=
        List.mem_range.mpr (by omega)
      refine ⟨_, List.mem_map_of_mem hmem, ?_⟩
      simpa using field.lane_edge (field.pass cross) 0
    · have hmem : (laneCount (field.pass cross).widthM field.spacingM).toNat - 1 ∈
          List.range (laneCount (field.pass cross).widthM field.spacingM).toNat :=
        List.mem_range.mpr (by omega)
      have hlast := field.lane_edge (field.pass cross)
        ((laneCount (field.pass cross).widthM field.spacingM).toNat - 1)
      rw [laneStep_mul] at hlast
      exact ⟨_, List.mem_map_of_mem hmem, hlast⟩

/-- The step is within the spacing for one strip, and for a whole number of them. -/
theorem laneStep_le_iff {widthM spacingM : ℝ} (hspacing : 0 < spacingM) :
    |laneStep widthM spacingM| ≤ spacingM ↔
      |widthM| ≤ spacingM ∨ 0 ≤ widthM ∧ ∃ k : ℤ, widthM = k * spacingM := by
  have hlower : ((Int.floor (widthM / spacingM) : ℤ) : ℝ) * spacingM ≤ widthM :=
    (le_div_iff₀ hspacing).mp (Int.floor_le _)
  have hupper : widthM < ((Int.floor (widthM / spacingM) : ℤ) + 1 : ℝ) * spacingM :=
    (div_lt_iff₀ hspacing).mp (Int.lt_floor_add_one _)
  have hcount : laneCount widthM spacingM = max 2 (Int.floor (widthM / spacingM) + 1) := by
    rw [laneCount, Engine.floor_real]
  by_cases hfew : Int.floor (widthM / spacingM) ≤ 1
  · have hstep : laneStep widthM spacingM = widthM := by
      rw [laneStep, hcount, max_eq_left (by omega)]
      norm_num
    rw [hstep]
    constructor
    · exact Or.inl
    · rintro (h | ⟨hnonneg, k, hk⟩)
      · exact h
      · have hfloor : Int.floor (widthM / spacingM) = k := by
          rw [hk, mul_div_cancel_right₀ _ hspacing.ne', Int.floor_intCast]
        have hk1 : (k : ℝ) ≤ 1 := by exact_mod_cast hfloor ▸ hfew
        rw [abs_of_nonneg hnonneg, hk]
        nlinarith
  · have hmany : (2 : ℝ) ≤ ((Int.floor (widthM / spacingM) : ℤ) : ℝ) := by
      exact_mod_cast (by omega : (2 : ℤ) ≤ Int.floor (widthM / spacingM))
    have hstep : laneStep widthM spacingM = widthM / ((Int.floor (widthM / spacingM) : ℤ) : ℝ) := by
      rw [laneStep, hcount, max_eq_right (by omega)]
      push_cast
      rw [add_sub_cancel_right]
    have hwide : spacingM < widthM := by nlinarith
    have hfloor : (0 : ℝ) < ((Int.floor (widthM / spacingM) : ℤ) : ℝ) := by linarith
    rw [hstep, abs_of_nonneg (div_nonneg (by linarith) hfloor.le), div_le_iff₀ hfloor]
    constructor
    · intro h
      exact Or.inr ⟨by linarith, Int.floor (widthM / spacingM), by linarith⟩
    · rintro (h | ⟨-, k, hk⟩)
      · rw [abs_of_nonneg (by linarith)] at h
        linarith
      · have hwhole : Int.floor (widthM / spacingM) = k := by
          rw [hk, mul_div_cancel_right₀ _ hspacing.ne', Int.floor_intCast]
        rw [hwhole, hk]
        linarith

/-- The lanes of a pass are within the spacing, and both long edges among them, exactly
when the rectangle is no wider than one strip or a whole number of strips wide. -/
theorem serpentineWaypoints_covers_iff (field : SurveyField ℝ) (cross : Bool)
    (hspacing : 0 < field.spacingM) :
    (∃ vertices, serpentineWaypoints field cross = .ok vertices ∧
        field.Covers (field.pass cross) (lanesOf vertices)) ↔
      |(field.pass cross).widthM| ≤ field.spacingM ∨
        0 ≤ (field.pass cross).widthM ∧
          ∃ k : ℤ, (field.pass cross).widthM = k * field.spacingM := by
  rw [serpentineWaypoints, if_neg (not_le.mpr hspacing), ← laneStep_le_iff hspacing,
    ← field.covers_iff_step]
  constructor
  · rintro ⟨vertices, hvertices, hcovers⟩
    rwa [← Except.ok.inj hvertices] at hcovers
  · intro hcovers
    exact ⟨_, rfl, hcovers⟩

/-- Ten metres by six, with lanes two metres apart, as the node declares them. -/
def declaredField : SurveyField ℝ := ⟨2, 2, 0, 10, 6, 2, 5⟩

theorem serpentineWaypoints_covers_declared :
    ∃ vertices, serpentineWaypoints declaredField false = .ok vertices ∧
      declaredField.Covers (declaredField.pass false) (lanesOf vertices) := by
  apply (serpentineWaypoints_covers_iff declaredField false (by norm_num [declaredField])).mpr
  refine Or.inr ⟨?_, 3, ?_⟩
  · norm_num [declaredField, SurveyField.pass]
  · norm_num [declaredField, SurveyField.pass]

/-- Ten metres by five, with lanes three metres apart. -/
def oddField : SurveyField ℝ := ⟨0, 0, 0, 10, 5, 3, 5⟩

/-- Two lanes, five metres apart. -/
theorem oddField_uncovered :
    ¬ ∃ vertices, serpentineWaypoints oddField false = .ok vertices ∧
      oddField.Covers (oddField.pass false) (lanesOf vertices) := by
  rintro ⟨vertices, hvertices, hcovers⟩
  rw [serpentineWaypoints, if_neg (by norm_num [oddField])] at hvertices
  rw [← Except.ok.inj hvertices, oddField.covers_iff_step, laneStep_le_iff (by norm_num [oddField])]
    at hcovers
  rcases hcovers with h | ⟨-, k, hk⟩
  · norm_num [oddField, SurveyField.pass] at h
  · have hk' : (5 : ℤ) = k * 3 := by
      have : (5 : ℝ) = k * 3 := by simpa [oddField, SurveyField.pass] using hk
      exact_mod_cast this
    omega

end Mission10.Flight
