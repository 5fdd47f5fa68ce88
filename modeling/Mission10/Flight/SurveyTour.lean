import Mission10.Flight.SurveySchedule
import Mission10.Library.TimedLegs

/-!
# The tour of a survey

The planner skips steps up to a nanometre and goes on from the next vertex, and it
takes the last segment of a schedule that may have none. A schedule is joined, ends at
home and is never too fast exactly when a step of the first pass is flown and the
skipped steps lead nowhere.
-/
namespace Mission10.Flight

open Engine (MathOps)
open Engine.MathOps
open TimedLegs

set_option linter.unusedSectionVars false

variable {K : Type*} [Field K] [LinearOrder K] [MathOps K]

/-- Where the last flown step of a way from `p` arrives, and `last` when none is flown. -/
def arrival (last p : EnuPoint K) : List (EnuPoint K) → EnuPoint K
  | [] => last
  | q :: rest => if flown p q then arrival q q rest else arrival last q rest

/-- Every flown step leaves the point where the flown one before it arrived: what is
skipped in between leads nowhere. -/
def Unbroken (last p : EnuPoint K) : List (EnuPoint K) → Prop
  | [] => True
  | q :: rest => if flown p q then last = p ∧ Unbroken q q rest else Unbroken last q rest

/-- Some step of the way is flown. -/
def Moves (p : EnuPoint K) : List (EnuPoint K) → Prop
  | [] => False
  | q :: rest => flown p q ∨ Moves q rest

/-- The step is flown, or there is none. -/
def Meets (p q : EnuPoint K) : Prop := p = q ∨ flown p q

namespace SurveyPlan

/-- Positive spacing and speeds, and no negative size or gap. -/
structure Accepted (plan : SurveyPlan K) : Prop where
  spacing : 0 < plan.field.spacingM
  speed : 0 < plan.speedMps
  cubeSpeed : 0 < plan.cubeSpeedMps
  length : 0 ≤ plan.field.lengthM
  width : 0 ≤ plan.field.widthM
  gap : 0 ≤ plan.revisitGapS
  cubeSide : 0 ≤ plan.cubeSideM

def cube (plan : SurveyPlan K) : List (EnuPoint K) :=
  cubeWaypoints 0 0 plan.cubeSideM plan.field.altitudeM

def afterLanes (plan : SurveyPlan K) : EnuPoint K :=
  arrival plan.home plan.home (plan.field.vertices false)

def afterCrosshatch (plan : SurveyPlan K) : EnuPoint K :=
  if plan.crosshatch then arrival plan.entry plan.entry (plan.field.vertices true)
  else plan.afterLanes

def afterCube (plan : SurveyPlan K) : EnuPoint K :=
  if plan.cubeSideM > 0 then arrival plan.afterCrosshatch plan.afterCrosshatch plan.cube
  else plan.afterCrosshatch

/-- A step of the first pass is flown, and the skipped steps lead nowhere. -/
structure Flyable (plan : SurveyPlan K) : Prop where
  moves : Moves plan.home (plan.field.vertices false)
  lanes : Unbroken plan.home plan.home (plan.field.vertices false)
  entry : plan.crosshatch = true → Meets plan.afterLanes plan.entry
  crosshatch : plan.crosshatch = true →
    Unbroken plan.entry plan.entry (plan.field.vertices true)
  cube : plan.cubeSideM > 0 → Unbroken plan.afterCrosshatch plan.afterCrosshatch plan.cube
  home : Meets plan.afterCube plan.home

/-- The segments join, from home and back to home, and the position is never faster than
the larger speed, past the end too, where it rests at home. -/
structure Continuous (plan : SurveyPlan ℝ) (schedule : List (Segment ℝ)) : Prop where
  joins : schedule.IsChain fun segment next => next.p0 = segment.p1
  starts : schedule.head?.map Segment.p0 = some plan.home
  ends : schedule.getLast?.map Segment.p1 = some plan.home
  steady : ∀ t t', 0 ≤ t → t ≤ t' →
    dist3 (scheduleSetpoint schedule t).position (scheduleSetpoint schedule t').position ≤
      max plan.speedMps plan.cubeSpeedMps * (t' - t)
  begins : (scheduleSetpoint schedule 0).position = plan.home
  rests : ∀ t, scheduleDuration schedule ≤ t → (scheduleSetpoint schedule t).position = plan.home

end SurveyPlan

/-! ### Segments as legs -/

/-- The point in the Euclidean space. -/
noncomputable def EnuPoint.space (p : EnuPoint ℝ) : EuclideanSpace ℝ (Fin 3) :=
  !₂[p.east, p.north, p.up]

theorem EnuPoint.space_inj {p q : EnuPoint ℝ} : p.space = q.space ↔ p = q := by
  constructor
  · intro h
    have heast := congrFun (congrArg WithLp.ofLp h) 0
    have hnorth := congrFun (congrArg WithLp.ofLp h) 1
    have hup := congrFun (congrArg WithLp.ofLp h) 2
    cases p
    cases q
    simp_all [space]
  · exact congrArg space

theorem dist3_real (p q : EnuPoint ℝ) : dist3 p q = ‖p.space - q.space‖ := by
  rw [EuclideanSpace.norm_eq, Fin.sum_univ_three]
  simp only [Real.norm_eq_abs, sq_abs]
  show √_ = √_
  congr 1
  simp [EnuPoint.space]
  ring

noncomputable def Segment.leg (segment : Segment ℝ) : Leg (EuclideanSpace ℝ (Fin 3)) :=
  ⟨segment.p0.space, segment.p1.space, segment.durationS⟩

theorem Segment.point_space (segment : Segment ℝ) (t : ℝ) :
    (segment.point t).space = segment.leg.point t := by
  have hshare : (if segment.durationS > 0 then t / segment.durationS else 1) =
      segment.leg.share t := rfl
  rw [point, hshare, Leg.point]
  generalize segment.leg.share t = u
  ext i
  fin_cases i <;> simp [EnuPoint.space, leg, smoothstep, mul_comm]

theorem walkSchedule_space (last : EnuPoint ℝ) (direction : ℝ × ℝ) (schedule : List (Segment ℝ))
    (t : ℝ) : (walkSchedule last direction schedule t).position.space =
      position last.space (schedule.map Segment.leg) t := by
  induction schedule generalizing last direction t with
  | nil => rfl
  | cons segment rest ih =>
    rw [walkSchedule, List.map_cons, position]
    by_cases hlate : t ≤ segment.durationS
    · rw [if_pos hlate, if_pos (show t ≤ segment.leg.duration from hlate)]
      exact segment.point_space t
    · rw [if_neg hlate, if_neg (show ¬ t ≤ segment.leg.duration from hlate)]
      exact ih segment.p1 _ _

/-- The setpoint of a schedule that has a segment does not depend on a fallback. -/
theorem scheduleSetpoint_space {schedule : List (Segment ℝ)} (hne : schedule ≠ [])
    (p : EnuPoint ℝ) {t : ℝ} (ht : 0 ≤ t) : (scheduleSetpoint schedule t).position.space =
      position p.space (schedule.map Segment.leg) t := by
  rw [scheduleSetpoint, max_eq_right ht, walkSchedule_space]
  cases schedule with
  | nil => exact absurd rfl hne
  | cons segment rest => rfl

theorem chained_legs_iff (p : EnuPoint ℝ) (schedule : List (Segment ℝ)) :
    Chained p.space (schedule.map Segment.leg) ↔
      (∀ segment ∈ schedule.head?, segment.p0 = p) ∧
        schedule.IsChain fun segment next => next.p0 = segment.p1 := by
  induction schedule generalizing p with
  | nil => simp [Chained]
  | cons segment rest ih =>
    rw [List.map_cons, Chained, List.isChain_cons, ← ih segment.p1]
    show segment.p0.space = p.space ∧ _ ↔ _
    rw [EnuPoint.space_inj]
    simp [Segment.leg]

/-- Where the segments end, and `p` when there is none. -/
def landing (p : EnuPoint K) (schedule : List (Segment K)) : EnuPoint K :=
  (schedule.getLast?.map Segment.p1).getD p

theorem landing_append (p : EnuPoint K) (first second : List (Segment K)) :
    landing p (first ++ second) = landing (landing p first) second := by
  unfold landing
  rw [List.getLast?_append]
  cases second.getLast? <;> simp

theorem landing_cons (p : EnuPoint K) (segment : Segment K) (rest : List (Segment K)) :
    landing p (segment :: rest) = landing segment.p1 rest :=
  landing_append p [segment] rest

theorem reached_legs (p : EnuPoint ℝ) (schedule : List (Segment ℝ)) :
    reached p.space (schedule.map Segment.leg) = (landing p schedule).space := by
  induction schedule generalizing p with
  | nil => rfl
  | cons segment rest ih =>
    rw [List.map_cons, landing_cons, ← ih segment.p1]
    rfl

theorem lastPoint_eq {schedule : List (Segment K)} (hne : schedule ≠ []) (p : EnuPoint K) :
    lastPoint schedule = .ok (landing p schedule) := by
  unfold lastPoint landing
  cases hlast : schedule.getLast? with
  | none => exact absurd (List.getLast?_eq_none_iff.mp hlast) hne
  | some segment => rfl

/-! ### Polylines -/

theorem landing_polyline (speed : K) (label : String) (last p : EnuPoint K)
    (rest : List (EnuPoint K)) :
    landing last (polylineSchedule speed label (p :: rest)) = arrival last p rest := by
  induction rest generalizing last p with
  | nil => rfl
  | cons q rest ih =>
    rw [polylineSchedule, arrival]
    split_ifs
    · rw [landing_cons]
      exact ih q q
    · exact ih last q

theorem polyline_ne_nil_iff (speed : K) (label : String) (p : EnuPoint K)
    (rest : List (EnuPoint K)) :
    polylineSchedule speed label (p :: rest) ≠ [] ↔ Moves p rest := by
  induction rest generalizing p with
  | nil => simp [polylineSchedule, Moves]
  | cons q rest ih =>
    rw [polylineSchedule, Moves]
    split_ifs with hflown
    · simp [hflown]
    · rw [ih q]
      simp [hflown]

theorem chained_polyline (speed : ℝ) (label : String) (last p : EnuPoint ℝ)
    (rest : List (EnuPoint ℝ)) :
    Chained last.space ((polylineSchedule speed label (p :: rest)).map Segment.leg) ↔
      Unbroken last p rest := by
  induction rest generalizing last p with
  | nil => simp [polylineSchedule, Chained, Unbroken]
  | cons q rest ih =>
    rw [polylineSchedule, Unbroken]
    split_ifs
    · rw [List.map_cons, Chained, ← ih q q, eq_comm (a := last), ← EnuPoint.space_inj]
      rfl
    · exact ih last q

/-- A step from where the vehicle is leaves nothing out, and arrives when it is flown or
there is none. -/
theorem unbroken_step (p q : EnuPoint K) : Unbroken p p [q] := by
  unfold Unbroken
  split_ifs <;> simp [Unbroken]

theorem arrival_step (p q : EnuPoint K) : arrival p p [q] = q ↔ Meets p q := by
  unfold arrival Meets
  split_ifs with h <;> simp [arrival, h]

theorem polyline_paced {speed : ℝ} (hspeed : 0 < speed) (label : String)
    (points : List (EnuPoint ℝ)) :
    ∀ segment ∈ polylineSchedule speed label points, segment.leg.Paced speed := by
  induction points with
  | nil => simp [polylineSchedule]
  | cons p points ih =>
    cases points with
    | nil => simp [polylineSchedule]
    | cons q rest =>
      rw [polylineSchedule]
      split_ifs with hflown
      · intro segment hsegment
        rcases List.mem_cons.mp hsegment with rfl | hsegment
        · have hduration : (seg p q speed label).durationS = 3 / 2 * dist3 p q / speed :=
            if_pos hflown
          constructor
          · show 0 ≤ (seg p q speed label).durationS
            rw [hduration, dist3_real]
            positivity
          · show 3 / 2 * ‖q.space - p.space‖ ≤ speed * (seg p q speed label).durationS
            rw [hduration, dist3_real, norm_sub_rev, mul_div_cancel₀ _ hspeed.ne']
        · exact ih segment hsegment
      · exact ih

theorem hover_paced {speed gap : ℝ} (hspeed : 0 < speed) (hgap : 0 ≤ gap) (p : EnuPoint ℝ)
    (label : String) : (hover p gap label).leg.Paced speed := by
  constructor
  · exact hgap
  · show 3 / 2 * ‖p.space - p.space‖ ≤ speed * gap
    rw [sub_self, norm_zero, mul_zero]
    exact mul_nonneg hspeed.le hgap

/-! ### The schedule that is built -/

namespace SurveyPlan

/-- The parts of the schedule, each from where the part before it arrives. -/
def lanes (plan : SurveyPlan K) : List (Segment K) :=
  polylineSchedule plan.speedMps "serpentine" (plan.home :: plan.field.vertices false)

def hatch (plan : SurveyPlan K) : List (Segment K) :=
  polylineSchedule plan.speedMps "regap" [plan.afterLanes, plan.entry] ++
    (hover plan.entry plan.revisitGapS "regap" ::
      polylineSchedule plan.speedMps "crosshatch" (plan.entry :: plan.field.vertices true))

def circuit (plan : SurveyPlan K) : List (Segment K) :=
  polylineSchedule plan.cubeSpeedMps "cube" (plan.afterCrosshatch :: plan.cube)

def wayHome (plan : SurveyPlan K) : List (Segment K) :=
  polylineSchedule plan.speedMps "home" [plan.afterCube, plan.home]

def tour (plan : SurveyPlan K) : List (Segment K) :=
  plan.lanes ++ (if plan.crosshatch then plan.hatch else []) ++
    (if plan.cubeSideM > 0 then plan.circuit else []) ++ plan.wayHome

variable (plan : SurveyPlan K)

theorem landing_lanes : landing plan.home plan.lanes = plan.afterLanes :=
  landing_polyline _ _ _ _ _

theorem landing_hatch (p : EnuPoint K) :
    landing p plan.hatch = arrival plan.entry plan.entry (plan.field.vertices true) := by
  rw [hatch, landing_append, landing_cons]
  exact landing_polyline _ _ _ _ _

theorem landing_crosshatch :
    landing plan.home (plan.lanes ++ if plan.crosshatch then plan.hatch else []) =
      plan.afterCrosshatch := by
  rw [landing_append, landing_lanes, afterCrosshatch]
  split_ifs
  · exact plan.landing_hatch _
  · rfl

theorem landing_cube :
    landing plan.home (plan.lanes ++ (if plan.crosshatch then plan.hatch else []) ++
      if plan.cubeSideM > 0 then plan.circuit else []) = plan.afterCube := by
  rw [landing_append, landing_crosshatch, afterCube]
  split_ifs
  · exact landing_polyline _ _ _ _ _
  · rfl

theorem landing_tour :
    landing plan.home plan.tour = arrival plan.afterCube plan.afterCube [plan.home] := by
  rw [tour, landing_append, landing_cube]
  exact landing_polyline _ _ _ _ _

theorem lanes_ne_nil_iff : plan.lanes ≠ [] ↔ Moves plan.home (plan.field.vertices false) :=
  polyline_ne_nil_iff _ _ _ _

theorem waypoints_ok (hspacing : ¬ plan.field.spacingM ≤ 0) (cross : Bool) :
    serpentineWaypoints plan.field cross = .ok (plan.field.vertices cross) := if_neg hspacing

theorem addCrosshatch_lanes (hspacing : ¬ plan.field.spacingM ≤ 0) (hlanes : plan.lanes ≠ []) :
    plan.addCrosshatch plan.lanes = .ok (plan.lanes ++ plan.hatch) := by
  rw [addCrosshatch, lastPoint_eq hlanes plan.home, landing_lanes, plan.waypoints_ok hspacing]
  rfl

theorem addCube_eq {schedule : List (Segment K)} (hne : schedule ≠ [])
    (hlanding : landing plan.home schedule = plan.afterCrosshatch) :
    plan.addCube schedule = .ok (schedule ++ plan.circuit) := by
  rw [addCube, lastPoint_eq hne plan.home, hlanding]
  rfl

theorem addHome_eq {schedule : List (Segment K)} (hne : schedule ≠ [])
    (hlanding : landing plan.home schedule = plan.afterCube) :
    plan.addHome schedule = .ok (schedule ++ plan.wayHome) := by
  rw [addHome, lastPoint_eq hne plan.home, hlanding]
  rfl

/-- The planner adds the stages one after the other. -/
theorem build_stages (hspacing : ¬ plan.field.spacingM ≤ 0) :
    buildSurveySchedule plan =
      ((if plan.crosshatch then plan.addCrosshatch plan.lanes else pure plan.lanes) >>=
        fun schedule => (if plan.cubeSideM > 0 then plan.addCube schedule else pure schedule) >>=
          plan.addHome) := by
  rw [buildSurveySchedule, plan.waypoints_ok hspacing]
  by_cases hcross : plan.crosshatch = true
  · by_cases hside : plan.cubeSideM > 0
    · simp only [hcross, hside, if_true]
      rfl
    · simp only [hcross, hside, if_true, if_false]
      rfl
  · by_cases hside : plan.cubeSideM > 0
    · simp only [hcross, hside, if_true]
      rfl
    · simp only [hcross, hside, if_false]
      rfl

/-- With a step of the first pass flown the planner builds the tour. -/
theorem build_tour (hspacing : ¬ plan.field.spacingM ≤ 0)
    (hmoves : Moves plan.home (plan.field.vertices false)) :
    buildSurveySchedule plan = .ok plan.tour := by
  have hlanes : plan.lanes ≠ [] := plan.lanes_ne_nil_iff.mpr hmoves
  have hfirst : (if plan.crosshatch then plan.addCrosshatch plan.lanes else pure plan.lanes) =
      .ok (plan.lanes ++ if plan.crosshatch then plan.hatch else []) := by
    split_ifs
    · exact plan.addCrosshatch_lanes hspacing hlanes
    · rw [List.append_nil]
      rfl
  have hsecond (schedule : List (Segment K)) (hne : schedule ≠ [])
      (hlanding : landing plan.home schedule = plan.afterCrosshatch) :
      (if plan.cubeSideM > 0 then plan.addCube schedule else pure schedule) =
        .ok (schedule ++ if plan.cubeSideM > 0 then plan.circuit else []) := by
    split_ifs
    · exact plan.addCube_eq hne hlanding
    · rw [List.append_nil]
      rfl
  rw [plan.build_stages hspacing, hfirst]
  show ((if plan.cubeSideM > 0 then plan.addCube _ else pure _) >>= _) = _
  rw [hsecond _ (by simp [hlanes]) plan.landing_crosshatch]
  exact plan.addHome_eq (by simp [hlanes]) plan.landing_cube

/-- With none flown it asks for the last segment of an empty schedule. -/
theorem build_still (hspacing : ¬ plan.field.spacingM ≤ 0)
    (hstill : ¬ Moves plan.home (plan.field.vertices false)) :
    buildSurveySchedule plan = .error .indexError := by
  have hlanes : plan.lanes = [] := by
    by_contra hne
    exact hstill (plan.lanes_ne_nil_iff.mp hne)
  rw [plan.build_stages hspacing, hlanes]
  split_ifs <;> rfl

end SurveyPlan

/-! ### When the schedule is continuous -/

namespace SurveyPlan

variable {plan : SurveyPlan ℝ}

theorem chained_hatch : Chained plan.afterLanes.space (plan.hatch.map Segment.leg) ↔
    Meets plan.afterLanes plan.entry ∧
      Unbroken plan.entry plan.entry (plan.field.vertices true) := by
  rw [hatch, List.map_append, chained_append, chained_polyline, reached_legs, landing_polyline,
    List.map_cons, Chained, ← arrival_step]
  show _ ∧ plan.entry.space = _ ∧ Chained plan.entry.space _ ↔ _
  rw [EnuPoint.space_inj, chained_polyline, eq_comm (a := plan.entry)]
  exact and_iff_right (unbroken_step _ _)

/-- The segments of the tour join where the skipped steps lead nowhere. -/
theorem chained_tour : Chained plan.home.space (plan.tour.map Segment.leg) ↔
    Unbroken plan.home plan.home (plan.field.vertices false) ∧
      (plan.crosshatch = true → Meets plan.afterLanes plan.entry ∧
        Unbroken plan.entry plan.entry (plan.field.vertices true)) ∧
      (plan.cubeSideM > 0 → Unbroken plan.afterCrosshatch plan.afterCrosshatch plan.cube) := by
  have hlanes : Chained plan.home.space (plan.lanes.map Segment.leg) ↔
      Unbroken plan.home plan.home (plan.field.vertices false) := chained_polyline _ _ _ _ _
  have hhatch : Chained plan.afterLanes.space
      ((if plan.crosshatch then plan.hatch else []).map Segment.leg) ↔
        (plan.crosshatch = true → Meets plan.afterLanes plan.entry ∧
          Unbroken plan.entry plan.entry (plan.field.vertices true)) := by
    split_ifs with hcross
    · rw [chained_hatch]
      simp [hcross]
    · simp [Chained, hcross]
  have hcube : Chained plan.afterCrosshatch.space
      ((if plan.cubeSideM > 0 then plan.circuit else []).map Segment.leg) ↔
        (plan.cubeSideM > 0 →
          Unbroken plan.afterCrosshatch plan.afterCrosshatch plan.cube) := by
    split_ifs with hside
    · rw [circuit, chained_polyline]
      simp [hside]
    · simp [Chained, hside]
  have hhome : Chained plan.afterCube.space (plan.wayHome.map Segment.leg) := by
    rw [wayHome, chained_polyline]
    exact unbroken_step _ _
  rw [tour, List.map_append, chained_append, reached_legs, landing_cube, List.map_append,
    chained_append, reached_legs, landing_crosshatch, List.map_append, chained_append,
    reached_legs, landing_lanes, hlanes, hhatch, hcube, and_iff_left hhome, and_assoc]

theorem tour_paced (h : plan.Accepted) : ∀ leg ∈ plan.tour.map Segment.leg,
    leg.Paced (max plan.speedMps plan.cubeSpeedMps) := by
  have hslow {leg : Leg (EuclideanSpace ℝ (Fin 3))} (hleg : leg.Paced plan.speedMps) :
      leg.Paced (max plan.speedMps plan.cubeSpeedMps) := hleg.mono (le_max_left _ _)
  intro leg hleg
  obtain ⟨segment, hsegment, rfl⟩ := List.mem_map.mp hleg
  rw [tour, List.mem_append, List.mem_append, List.mem_append] at hsegment
  obtain ((hlanes | hhatch) | hcube) | hhome := hsegment
  · exact hslow (polyline_paced h.speed _ _ segment hlanes)
  · split_ifs at hhatch
    · rw [hatch, List.mem_append, List.mem_cons] at hhatch
      obtain hregap | rfl | hpass := hhatch
      · exact hslow (polyline_paced h.speed _ _ segment hregap)
      · exact hslow (hover_paced h.speed h.gap _ _)
      · exact hslow (polyline_paced h.speed _ _ segment hpass)
    · exact absurd hhatch (List.not_mem_nil)
  · split_ifs at hcube
    · exact (polyline_paced h.cubeSpeed _ _ segment hcube).mono (le_max_right _ _)
    · exact absurd hcube (List.not_mem_nil)
  · exact hslow (polyline_paced h.speed _ _ segment hhome)

/-- A schedule of paced segments is continuous when they join and end at home. -/
theorem continuous_of_chained (h : plan.Accepted) {schedule : List (Segment ℝ)}
    (hne : schedule ≠ []) (hchained : Chained plan.home.space (schedule.map Segment.leg))
    (hhome : landing plan.home schedule = plan.home)
    (hpaced : ∀ leg ∈ schedule.map Segment.leg,
      leg.Paced (max plan.speedMps plan.cubeSpeedMps)) : plan.Continuous schedule := by
  obtain ⟨hstart, hjoins⟩ := (chained_legs_iff _ _).mp hchained
  have hspeed : 0 ≤ max plan.speedMps plan.cubeSpeedMps := h.speed.le.trans (le_max_left _ _)
  constructor
  · exact hjoins
  · cases schedule with
    | nil => exact absurd rfl hne
    | cons segment rest => exact congrArg some (hstart segment rfl)
  · have hlast := lastPoint_eq hne plan.home
    rw [hhome] at hlast
    unfold lastPoint at hlast
    cases hend : schedule.getLast? with
    | none => exact absurd (List.getLast?_eq_none_iff.mp hend) hne
    | some segment =>
      rw [hend] at hlast
      exact congrArg some (Except.ok.inj hlast)
  · intro t t' ht hle
    rw [dist3_real, scheduleSetpoint_space hne plan.home ht,
      scheduleSetpoint_space hne plan.home (ht.trans hle)]
    exact position_steady hspeed hchained hpaced ht hle
  · rw [← EnuPoint.space_inj, scheduleSetpoint_space hne plan.home le_rfl]
    exact position_zero hchained hpaced
  · intro t ht
    have hduration : ((schedule.map Segment.leg).map Leg.duration).sum ≤ t := by
      rw [List.map_map]
      exact ht
    have hnonneg : 0 ≤ ((schedule.map Segment.leg).map Leg.duration).sum := durations_nonneg hpaced
    rw [← EnuPoint.space_inj, scheduleSetpoint_space hne plan.home (hnonneg.trans hduration),
      position_done hchained hpaced hduration, reached_legs, hhome]

theorem Continuous.chained {schedule : List (Segment ℝ)} (h : plan.Continuous schedule) :
    Chained plan.home.space (schedule.map Segment.leg) := by
  rw [chained_legs_iff]
  refine ⟨?_, h.joins⟩
  intro segment hsegment
  have hstarts := h.starts
  rw [Option.mem_def.mp hsegment] at hstarts
  exact Option.some.inj hstarts

theorem Continuous.landing {schedule : List (Segment ℝ)} (h : plan.Continuous schedule) :
    landing plan.home schedule = plan.home := by
  rw [Flight.landing, h.ends]
  rfl

end SurveyPlan

/-- What the planner builds of a flyable plan is continuous. -/
theorem SurveyPlan.Accepted.continuous {plan : SurveyPlan ℝ} {schedule : List (Segment ℝ)}
    (h : plan.Accepted) (hflyable : plan.Flyable)
    (hbuild : buildSurveySchedule plan = .ok schedule) : plan.Continuous schedule := by
  rw [plan.build_tour (not_le.mpr h.spacing) hflyable.moves] at hbuild
  obtain rfl := Except.ok.inj hbuild
  apply SurveyPlan.continuous_of_chained h
  · have hlanes : plan.lanes ≠ [] := plan.lanes_ne_nil_iff.mpr hflyable.moves
    simp [SurveyPlan.tour, hlanes]
  · exact SurveyPlan.chained_tour.mpr ⟨hflyable.lanes,
      fun hcross => ⟨hflyable.entry hcross, hflyable.crosshatch hcross⟩, hflyable.cube⟩
  · rw [plan.landing_tour, arrival_step]
    exact hflyable.home
  · exact SurveyPlan.tour_paced h

/-- The planner builds a continuous schedule exactly when a step of the first pass is
flown and the skipped steps lead nowhere. -/
theorem buildSurveySchedule_continuous_iff (plan : SurveyPlan ℝ) (h : plan.Accepted) :
    (∃ schedule, buildSurveySchedule plan = .ok schedule ∧ plan.Continuous schedule) ↔
      plan.Flyable := by
  have hspacing := not_le.mpr h.spacing
  constructor
  · rintro ⟨schedule, hbuild, hcontinuous⟩
    by_cases hmoves : Moves plan.home (plan.field.vertices false)
    · rw [plan.build_tour hspacing hmoves] at hbuild
      obtain rfl := Except.ok.inj hbuild
      obtain ⟨hlanes, hhatch, hcube⟩ := SurveyPlan.chained_tour.mp hcontinuous.chained
      have hhome := hcontinuous.landing
      rw [plan.landing_tour, arrival_step] at hhome
      exact ⟨hmoves, hlanes, fun hcross => (hhatch hcross).1, fun hcross => (hhatch hcross).2,
        hcube, hhome⟩
    · rw [plan.build_still hspacing hmoves] at hbuild
      cases hbuild
  · intro hflyable
    have hbuild := plan.build_tour hspacing hflyable.moves
    exact ⟨plan.tour, hbuild, h.continuous hflyable hbuild⟩

/-! ### Plans with and without a step -/

theorem flown_iff (p q : EnuPoint ℝ) : flown p q ↔
    (1 / 10 ^ 9 : ℝ) ^ 2 < (p.east - q.east) * (p.east - q.east) +
      (p.north - q.north) * (p.north - q.north) + (p.up - q.up) * (p.up - q.up) := by
  unfold flown dist3
  exact Real.lt_sqrt (by norm_num)

/-- Where every step is flown or none, nothing is skipped. -/
theorem unbroken_of_meets {p : EnuPoint K} {rest : List (EnuPoint K)}
    (h : (p :: rest).IsChain Meets) : Unbroken p p rest := by
  induction rest generalizing p with
  | nil => trivial
  | cons q rest ih =>
    rw [List.isChain_cons_cons] at h
    rw [Unbroken]
    split_ifs with hflown
    · exact ⟨rfl, ih h.2⟩
    · obtain rfl := h.1.resolve_right hflown
      exact ih h.2

/-- Four metres by two from the launch, both passes and a cube. -/
def wholePlan : SurveyPlan ℝ := ⟨⟨0, 0, 0, 4, 2, 2, 5⟩, 1, 8, true, 2, 1⟩

theorem wholePlan_pass : wholePlan.field.pass false = ⟨(1, 0), (0, 1), 4, 2⟩ ∧
    wholePlan.field.pass true = ⟨(0, 1), (1, 0), 2, 4⟩ := by
  have hangle : Engine.radians (0 : ℝ) = 0 := by simp [Engine.radians]
  have hcos : MathOps.cos (0 : ℝ) = 1 := Real.cos_zero
  have hsin : MathOps.sin (0 : ℝ) = 0 := Real.sin_zero
  simp [SurveyField.pass, wholePlan, hangle, hcos, hsin]

theorem wholePlan_lanes : wholePlan.field.vertices false =
    [⟨0, 0, 5⟩, ⟨4, 0, 5⟩, ⟨4, 2, 5⟩, ⟨0, 2, 5⟩] := by
  have hcount : laneCount (2 : ℝ) 2 = 2 := by
    show max 2 (-⌈-((2 : ℝ) / 2)⌉ + 1) = 2
    norm_num
  have hrange : List.range (Int.toNat 2) = [0, 1] := rfl
  rw [SurveyField.vertices, wholePlan_pass.1]
  norm_num [wholePlan, hcount, hrange, SurveyField.laneEnds, SurveyField.near, SurveyField.far,
    laneStep]

theorem wholePlan_cross : wholePlan.field.vertices true =
    [⟨0, 0, 5⟩, ⟨0, 2, 5⟩, ⟨2, 2, 5⟩, ⟨2, 0, 5⟩, ⟨4, 0, 5⟩, ⟨4, 2, 5⟩] := by
  have hcount : laneCount (4 : ℝ) 2 = 3 := by
    show max 2 (-⌈-((4 : ℝ) / 2)⌉ + 1) = 3
    norm_num
  have hrange : List.range (Int.toNat 3) = [0, 1, 2] := rfl
  rw [SurveyField.vertices, wholePlan_pass.2]
  norm_num [wholePlan, hcount, hrange, SurveyField.laneEnds, SurveyField.near, SurveyField.far,
    laneStep]

theorem wholePlan_flyable : wholePlan.Flyable := by
  have hhome : wholePlan.home = ⟨0, 0, 5⟩ := rfl
  have hentry : wholePlan.entry = ⟨0, 0, 5⟩ := rfl
  have hlanes : wholePlan.afterLanes = ⟨0, 2, 5⟩ := by
    rw [SurveyPlan.afterLanes, wholePlan_lanes, hhome]
    norm_num [arrival, flown_iff]
  have hcross : wholePlan.afterCrosshatch = ⟨4, 2, 5⟩ := by
    rw [SurveyPlan.afterCrosshatch, wholePlan_cross, hentry]
    norm_num [arrival, flown_iff, wholePlan]
  have hcube : wholePlan.cube = [⟨-1, -1, 5⟩, ⟨1, -1, 5⟩, ⟨1, 1, 5⟩, ⟨-1, 1, 5⟩, ⟨-1, -1, 5⟩,
      ⟨-1, -1, 7⟩, ⟨1, -1, 7⟩, ⟨1, 1, 7⟩, ⟨-1, 1, 7⟩, ⟨-1, -1, 7⟩, ⟨-1, -1, 5⟩] := by
    norm_num [SurveyPlan.cube, cubeWaypoints, wholePlan]
  have hafter : wholePlan.afterCube = ⟨-1, -1, 5⟩ := by
    rw [SurveyPlan.afterCube, hcross, hcube]
    norm_num [arrival, flown_iff, wholePlan]
  constructor
  · rw [wholePlan_lanes, hhome]
    norm_num [Moves, flown_iff]
  · rw [wholePlan_lanes, hhome]
    apply unbroken_of_meets
    norm_num [Meets, flown_iff]
  · intro _
    rw [hlanes, hentry]
    norm_num [Meets, flown_iff]
  · intro _
    rw [wholePlan_cross, hentry]
    apply unbroken_of_meets
    norm_num [Meets, flown_iff]
  · intro _
    rw [hcross, hcube]
    apply unbroken_of_meets
    norm_num [Meets, flown_iff]
  · rw [hafter, hhome]
    norm_num [Meets, flown_iff]

theorem wholePlan_accepted : wholePlan.Accepted := by
  constructor <;> norm_num [wholePlan]

theorem buildSurveySchedule_continuous_whole :
    ∃ schedule, buildSurveySchedule wholePlan = .ok schedule ∧ wholePlan.Continuous schedule :=
  (buildSurveySchedule_continuous_iff wholePlan wholePlan_accepted).mpr wholePlan_flyable

/-- A field of no size at the launch. -/
def pointPlan : SurveyPlan ℝ := ⟨⟨0, 0, 0, 0, 0, 1, 5⟩, 1, 0, true, 2, 1⟩

theorem not_moves_of_still {p : EnuPoint ℝ} {rest : List (EnuPoint ℝ)} (h : ∀ q ∈ rest, q = p) :
    ¬ Moves p rest := by
  induction rest with
  | nil => exact id
  | cons q rest ih =>
    obtain rfl := h q (List.mem_cons_self ..)
    have hnear : ¬ flown q q := by
      rw [flown_iff]
      norm_num
    exact not_or.mpr ⟨hnear, ih fun r hr => h r (List.mem_cons_of_mem _ hr)⟩

theorem pointPlan_refused :
    ¬ ∃ schedule, buildSurveySchedule pointPlan = .ok schedule ∧ pointPlan.Continuous schedule := by
  rintro ⟨schedule, hbuild, -⟩
  have hstill : ¬ Moves pointPlan.home (pointPlan.field.vertices false) := by
    apply not_moves_of_still
    intro q hq
    rw [SurveyField.vertices, List.mem_flatMap] at hq
    obtain ⟨i, -, hq⟩ := hq
    unfold SurveyField.laneEnds at hq
    split_ifs at hq <;>
      simpa [SurveyField.near, SurveyField.far, SurveyField.pass, pointPlan, laneStep,
        SurveyPlan.home] using hq
  rw [pointPlan.build_still (by norm_num [pointPlan]) hstill] at hbuild
  cases hbuild

end Mission10.Flight
