import Mission10.Flight.OrbitRuns
import Mission10.Flight.SurveyMoves
import Mission10.Flight.SurveyTour

/-!
# The course of the survey mission

In every state the last command is where the schedule has the node, or where the way
home starts, up to the motion since. The invariant is stated for the fields that decide
where the node flies; each kind of step keeps it, and a tick on the way home joins the
last command.
-/
namespace Mission10.Flight

open Engine (MathOps)
open Choreography (seconds seconds_sub seconds_nonneg)

set_option linter.unusedSectionVars false

variable {K : Type*} [Field K] [LinearOrder K] [MathOps K]

/-! ### Turned schedules -/

theorem dist3_rotate (theta : ℝ) (p q : EnuPoint ℝ) :
    dist3 (p.rotate theta) (q.rotate theta) = dist3 p q := by
  have hunit : MathOps.cos theta * MathOps.cos theta + MathOps.sin theta * MathOps.sin theta =
      (1 : ℝ) := by
    show Real.cos theta * Real.cos theta + Real.sin theta * Real.sin theta = 1
    have hpythagoras := Real.sin_sq_add_cos_sq theta
    linear_combination hpythagoras
  unfold dist3 EnuPoint.rotate
  congr 1
  linear_combination ((p.east - q.east) * (p.east - q.east) +
    (p.north - q.north) * (p.north - q.north)) * hunit

theorem Segment.point_rotate (theta : ℝ) (g : Segment ℝ) (t : ℝ) :
    Segment.point ⟨g.p0.rotate theta, g.p1.rotate theta, g.durationS, g.label⟩ t =
      (g.point t).rotate theta := by
  simp only [point, EnuPoint.rotate, EnuPoint.mk.injEq, and_true]
  constructor <;> ring

theorem walkSchedule_rotate (theta : ℝ) (last : EnuPoint ℝ) (direction direction' : ℝ × ℝ)
    (schedule : List (Segment ℝ)) (t : ℝ) :
    (walkSchedule (last.rotate theta) direction' (rotateSchedule schedule theta) t).position =
      (walkSchedule last direction schedule t).position.rotate theta := by
  induction schedule generalizing last direction direction' t with
  | nil => rfl
  | cons g rest ih =>
    rw [rotateSchedule, List.map_cons, walkSchedule, walkSchedule]
    split_ifs
    · exact g.point_rotate theta t
    · exact ih g.p1 _ _ _

theorem scheduleSetpoint_rotate (theta : ℝ) (schedule : List (Segment ℝ)) (t : ℝ) :
    (scheduleSetpoint (rotateSchedule schedule theta) t).position =
      (scheduleSetpoint schedule t).position.rotate theta := by
  have horigin : (⟨0, 0, 0⟩ : EnuPoint ℝ) = EnuPoint.rotate theta ⟨0, 0, 0⟩ := by
    simp [EnuPoint.rotate]
  have hwalk := walkSchedule_rotate theta ⟨0, 0, 0⟩ (0, 0) (0, 0) schedule (max 0 t)
  rwa [← horigin] at hwalk

theorem SurveyPlan.home_rotate (plan : SurveyPlan ℝ) (theta : ℝ) :
    plan.home.rotate theta = plan.home := by
  simp [home, EnuPoint.rotate]

/-- A schedule turned about the launch is as continuous. -/
theorem SurveyPlan.Continuous.rotate {plan : SurveyPlan ℝ} {schedule : List (Segment ℝ)}
    (h : plan.Continuous schedule) (theta : ℝ) :
    plan.Continuous (rotateSchedule schedule theta) where
  joins := by
    rw [rotateSchedule, List.isChain_map]
    exact h.joins.imp fun g next hjoin => congrArg (EnuPoint.rotate theta) hjoin
  starts := by
    have hstarts := congrArg (Option.map (EnuPoint.rotate theta)) h.starts
    rw [Option.map_some, plan.home_rotate, Option.map_map] at hstarts
    rw [rotateSchedule, List.head?_map, Option.map_map]
    exact hstarts
  ends := by
    have hends := congrArg (Option.map (EnuPoint.rotate theta)) h.ends
    rw [Option.map_some, plan.home_rotate, Option.map_map] at hends
    rw [rotateSchedule, List.getLast?_map, Option.map_map]
    exact hends
  steady := fun t t' ht hle => by
    rw [scheduleSetpoint_rotate, scheduleSetpoint_rotate, dist3_rotate]
    exact h.steady t t' ht hle
  begins := by rw [scheduleSetpoint_rotate, h.begins, plan.home_rotate]
  rests := fun t ht => by
    have hduration : scheduleDuration (rotateSchedule schedule theta) =
        scheduleDuration schedule := by
      unfold scheduleDuration rotateSchedule
      rw [List.map_map]
      rfl
    rw [hduration] at ht
    rw [scheduleSetpoint_rotate, h.rests t ht, plan.home_rotate]

/-! ### Distances -/

theorem dist3_self (p : EnuPoint ℝ) : dist3 p p = 0 := by
  rw [dist3_real, sub_self, norm_zero]

theorem dist3_comm (p q : EnuPoint ℝ) : dist3 p q = dist3 q p := by
  rw [dist3_real, dist3_real, norm_sub_rev]

theorem dist3_triangle (p q r : EnuPoint ℝ) : dist3 p r ≤ dist3 p q + dist3 q r := by
  rw [dist3_real, dist3_real, dist3_real]
  exact norm_sub_le_norm_sub_add_norm_sub _ _ _

theorem dist3_le_iff (p q : EnuPoint ℝ) {r : ℝ} (hr : 0 ≤ r) : dist3 p q ≤ r ↔
    (p.east - q.east) * (p.east - q.east) + (p.north - q.north) * (p.north - q.north) +
      (p.up - q.up) * (p.up - q.up) ≤ r ^ 2 := by
  unfold dist3
  exact Real.sqrt_le_left hr

/-- The blend is its share of the way from where it starts. -/
theorem SurveyMission.homePosition_dist (s : SurveyMission ℝ) (nowUs : ℤ) (start : EnuPoint ℝ) :
    dist3 (s.homePosition nowUs start) start =
      |smoothstep (s.homeShare nowUs)| * dist3 start s.hold := by
  have hmove : (s.homePosition nowUs start).space - start.space =
      -(smoothstep (s.homeShare nowUs)) • (start.space - s.hold.space) := by
    ext i
    fin_cases i <;> simp [EnuPoint.space, homePosition, hold, smoothstep] <;> ring
  rw [dist3_real, dist3_real, hmove, norm_smul, norm_neg, Real.norm_eq_abs]

theorem SurveyMission.homeShare_mem (s : SurveyMission ℝ) (nowUs : ℤ) :
    0 ≤ s.homeShare nowUs ∧ s.homeShare nowUs ≤ 1 := by
  have htime : (0 : ℝ) < max (1 / 10 ^ 3) s.params.toHomeTimeS :=
    lt_of_lt_of_le (by norm_num) (le_max_left _ _)
  exact ⟨le_min zero_le_one (div_nonneg (le_max_left _ _) htime.le), min_le_left _ _⟩

theorem smoothstep_nonneg {u : ℝ} (h : u ≤ 1) : 0 ≤ smoothstep u :=
  mul_nonneg (mul_self_nonneg u) (by linarith)

/-! ### The invariant -/

/-- Where the schedule has the node at an instant. -/
def SurveyCourse.staged (course : SurveyCourse K) (nowUs : ℤ) : EnuPoint K :=
  if course.gateUs = 0 then ⟨0, 0, course.alt⟩
  else (scheduleSetpoint course.schedule (max 0 (seconds course.gateUs nowUs))).position

/-- What the course and the last command have in common in every state. -/
structure OnCourse (plan : SurveyPlan ℝ) (course : SurveyCourse ℝ) (last : Option (Commanded ℝ))
    (clockUs : ℤ) : Prop where
  continuous : plan.Continuous course.schedule
  alt : course.alt = plan.field.altitudeM
  heard : ∀ command, last = some command → command.us ≤ clockUs
  climbing : course.climbed = false → course.gateUs = 0 ∧ course.homeUs = 0
  aligning : course.aligned = false → course.gateUs = 0 ∧
    (course.homeUs ≠ 0 → course.homeFrom = some plan.home)
  staged : course.homeUs = 0 → ∀ command, last = some command →
    command.home = false ∧ command.position = course.staged command.us
  blending : course.homeUs ≠ 0 → ∀ start command, course.homeFrom = some start →
    last = some command → command.home = false →
      (command.us ≤ course.homeUs ∧ dist3 start command.position ≤
        max plan.speedMps plan.cubeSpeedMps * seconds command.us course.homeUs) ∨
      start = plan.home ∧ command.position = plan.home

section Staged

variable {plan : SurveyPlan ℝ} {course : SurveyCourse ℝ} {nowUs : ℤ}

theorem SurveyCourse.hold_eq (halt : course.alt = plan.field.altitudeM) :
    (⟨0, 0, course.alt⟩ : EnuPoint ℝ) = plan.home := by
  rw [halt]
  rfl

theorem SurveyCourse.staged_waiting (halt : course.alt = plan.field.altitudeM)
    (hgate : course.gateUs = 0) (nowUs : ℤ) : course.staged nowUs = plan.home := by
  rw [staged, if_pos hgate, hold_eq halt]

/-- Up to the gate the schedule is at home. -/
theorem SurveyCourse.staged_early (hcontinuous : plan.Continuous course.schedule)
    (halt : course.alt = plan.field.altitudeM) (hearly : nowUs ≤ course.gateUs) :
    course.staged nowUs = plan.home := by
  by_cases hgate : course.gateUs = 0
  · exact staged_waiting halt hgate nowUs
  · have hneg : (seconds course.gateUs nowUs : ℝ) ≤ 0 := by
      have hback := seconds_nonneg hearly
      have hround := seconds_sub course.gateUs nowUs course.gateUs
      have hzero : (seconds course.gateUs course.gateUs : ℝ) = 0 := by simp [seconds]
      linarith
    rw [staged, if_neg hgate, max_eq_left hneg, hcontinuous.begins]

/-- At the gate, and without one, the node holds. -/
theorem SurveyCourse.staged_hold (hcontinuous : plan.Continuous course.schedule)
    (halt : course.alt = plan.field.altitudeM) (hgate : course.gateUs = 0 ∨ course.gateUs = nowUs) :
    course.staged nowUs = plan.home := by
  rcases hgate with hzero | hnow
  · exact staged_waiting halt hzero nowUs
  · exact staged_early hcontinuous halt hnow.ge

end Staged

namespace OnCourse

variable {plan : SurveyPlan ℝ} {course : SurveyCourse ℝ} {last : Option (Commanded ℝ)}
  {clockUs nowUs : ℤ}

theorem later (h : OnCourse plan course last clockUs) (hclock : clockUs ≤ nowUs) :
    OnCourse plan course last nowUs :=
  { h with heard := fun command hlast => (h.heard command hlast).trans hclock }

/-- The schedule moves no faster than the speed. -/
theorem staged_steady (hspeed : 0 ≤ max plan.speedMps plan.cubeSpeedMps)
    (h : OnCourse plan course last clockUs) (hgate : course.gateUs ≠ 0)
    {fromUs toUs : ℤ} (hle : fromUs ≤ toUs) :
    dist3 (course.staged toUs) (course.staged fromUs) ≤
      max plan.speedMps plan.cubeSpeedMps * seconds fromUs toUs := by
  have hlater : (seconds course.gateUs toUs : ℝ) - seconds course.gateUs fromUs =
      seconds fromUs toUs := seconds_sub _ _ _
  have hnonneg : (0 : ℝ) ≤ seconds fromUs toUs := seconds_nonneg hle
  have hmono : max 0 (seconds course.gateUs fromUs : ℝ) ≤ max 0 (seconds course.gateUs toUs) :=
    max_le_max le_rfl (by linarith)
  have hspan : max 0 (seconds course.gateUs toUs : ℝ) - max 0 (seconds course.gateUs fromUs) ≤
      seconds fromUs toUs := by
    rcases le_total 0 (seconds course.gateUs fromUs : ℝ) with hafter | hbefore
    · rw [max_eq_right hafter, max_eq_right (by linarith), hlater]
    · rw [max_eq_left hbefore, sub_zero]
      exact max_le hnonneg (by linarith)
  have hsteady := h.continuous.steady _ _ (le_max_left 0 (seconds course.gateUs fromUs)) hmono
  rw [SurveyCourse.staged, if_neg hgate, SurveyCourse.staged, if_neg hgate, dist3_comm]
  exact hsteady.trans (mul_le_mul_of_nonneg_left hspan hspeed)

/-- The course is only turned before the first command. -/
theorem turned (h : OnCourse plan course none clockUs) (theta : ℝ) :
    OnCourse plan { course with schedule := rotateSchedule course.schedule theta } none
      clockUs where
  continuous := h.continuous.rotate theta
  alt := h.alt
  heard := by simp
  climbing := h.climbing
  aligning := h.aligning
  staged := by simp
  blending := by simp

/-- The gate opens after the climb and the alignment. -/
theorem gated (h : OnCourse plan course last clockUs) (hgate : course.gateUs = 0)
    (hclimbed : course.climbed = true) (haligned : course.aligned = true) :
    OnCourse plan { course with gateUs := clockUs } last clockUs where
  continuous := h.continuous
  alt := h.alt
  heard := h.heard
  climbing := fun hdown => by simp [hclimbed] at hdown
  aligning := fun haway => by simp [haligned] at haway
  staged := fun hhome command hlast => by
    obtain ⟨hstage, hposition⟩ := h.staged hhome command hlast
    refine ⟨hstage, ?_⟩
    have hearly : SurveyCourse.staged { course with gateUs := clockUs } command.us = plan.home :=
      SurveyCourse.staged_early h.continuous h.alt (h.heard command hlast)
    rw [hposition, SurveyCourse.staged_waiting h.alt hgate, hearly]
  blending := h.blending

/-- The blend starts where the schedule is, which the last command is close to. -/
theorem ended (hspeed : 0 ≤ max plan.speedMps plan.cubeSpeedMps)
    (h : OnCourse plan course last clockUs) (hhome : course.homeUs = 0)
    (hclimbed : course.climbed = true)
    (hgate : course.gateUs ≠ 0 ∨ scheduleDuration course.schedule ≤ seconds 0 clockUs) :
    OnCourse plan { course with
      homeFrom := some (scheduleSetpoint course.schedule
        (max 0 (seconds course.gateUs clockUs))).position
      homeUs := clockUs } last clockUs where
  continuous := h.continuous
  alt := h.alt
  heard := h.heard
  climbing := fun hdown => by simp [hclimbed] at hdown
  aligning := fun haway => by
    obtain ⟨hzero, -⟩ := h.aligning haway
    refine ⟨hzero, fun _ => ?_⟩
    have hover := hgate.resolve_left (not_not.mpr hzero)
    exact congrArg some (by
      rw [hzero, h.continuous.rests _ (hover.trans (le_max_right _ _))])
  staged := fun _ command hlast => h.staged hhome command hlast
  blending := fun _ start command hstart hlast _ => by
    obtain ⟨-, hposition⟩ := h.staged hhome command hlast
    obtain rfl := Option.some.inj hstart
    by_cases hzero : course.gateUs = 0
    · have hover := hgate.resolve_left (not_not.mpr hzero)
      refine Or.inr ⟨?_, ?_⟩
      · rw [hzero, h.continuous.rests _ (hover.trans (le_max_right _ _))]
      · rw [hposition, SurveyCourse.staged_waiting h.alt hzero]
    · refine Or.inl ⟨h.heard command hlast, ?_⟩
      have hsteady := h.staged_steady hspeed hzero (h.heard command hlast)
      rw [hposition]
      unfold SurveyCourse.staged at hsteady ⊢
      rw [if_neg hzero, if_neg hzero] at hsteady
      rw [if_neg hzero]
      exact hsteady

/-- A tick keeps the invariant, with what it commands as the last command. -/
theorem asked {s : SurveyMission ℝ} {asked : SurveyMission.Asked ℝ}
    (h : OnCourse plan s.course last clockUs)
    (hmove : SurveyMission.CourseMove s nowUs asked) :
    OnCourse plan asked.1.course (some ⟨nowUs, asked.2.2.position, s.homeward⟩) nowUs := by
  have hheard : ∀ command, some (⟨nowUs, asked.2.2.position, s.homeward⟩ : Commanded ℝ) =
      some command → command.us ≤ nowUs := by
    intro command hcommand
    rw [← Option.some.inj hcommand]
  have hhold : s.hold = plan.home := SurveyCourse.hold_eq h.alt
  cases hmove with
  | climbs climbed gateUs hclimbed hposition hcourse hgate =>
    obtain ⟨hzero, hhome⟩ := h.climbing hclimbed
    have hstay : s.homeward = false := by simp [SurveyMission.homeward, hclimbed]
    rw [hcourse]
    refine ⟨h.continuous, h.alt, hheard, ?_, ?_, ?_, fun haway => absurd hhome haway⟩
    · intro hdown
      rcases hgate with rfl | ⟨-, hup, -⟩
      · exact ⟨hzero, hhome⟩
      · cases hup.symm.trans hdown
    · intro haway
      rcases hgate with rfl | ⟨-, -, hdone⟩
      · exact ⟨hzero, fun hne => absurd hhome hne⟩
      · cases hdone.symm.trans haway
    · intro _ command hcommand
      rw [← Option.some.inj hcommand]
      refine ⟨hstay, ?_⟩
      show asked.2.2.position = _
      rw [hposition, hhold]
      refine (SurveyCourse.staged_hold ?_ ?_ ?_).symm
      · exact h.continuous
      · exact h.alt
      · exact hgate.imp (fun hsame => hsame.trans hzero) And.left
  | aligns aligned gateUs hclimbed haligned hposition hcourse hgate =>
    obtain ⟨hzero, hfrom⟩ := h.aligning haligned
    have hstay : s.homeward = false := by simp [SurveyMission.homeward, haligned]
    rw [hcourse]
    refine ⟨h.continuous, h.alt, hheard, ?_, ?_, ?_, ?_⟩
    · intro hdown
      cases hclimbed.symm.trans hdown
    · intro haway
      rcases hgate with rfl | ⟨-, hdone⟩
      · exact ⟨hzero, hfrom⟩
      · cases hdone.symm.trans haway
    · intro _ command hcommand
      rw [← Option.some.inj hcommand]
      refine ⟨hstay, ?_⟩
      show asked.2.2.position = _
      rw [hposition, hhold]
      refine (SurveyCourse.staged_hold ?_ ?_ ?_).symm
      · exact h.continuous
      · exact h.alt
      · exact hgate.imp (fun hsame => hsame.trans hzero) And.left
    · intro hhome start command hstart hcommand _
      rw [← Option.some.inj hcommand]
      refine Or.inr ⟨Option.some.inj (hstart.symm.trans (hfrom hhome)), ?_⟩
      exact hposition.trans hhold
  | comesHome start hclimbed haligned hhome hstart hposition hcourse =>
    have hgo : s.homeward = true := by simp [SurveyMission.homeward, hclimbed, haligned, hhome]
    rw [hcourse]
    refine ⟨h.continuous, h.alt, hheard, h.climbing, h.aligning,
      fun hnone => absurd hnone hhome, ?_⟩
    intro _ start command _ hcommand hstage
    rw [← Option.some.inj hcommand] at hstage
    cases hgo.symm.trans hstage
  | waits hhome hgate hposition hcourse =>
    rw [hcourse]
    refine ⟨h.continuous, h.alt, hheard, h.climbing, h.aligning, ?_,
      fun haway => absurd hhome haway⟩
    intro _ command hcommand
    rw [← Option.some.inj hcommand]
    refine ⟨by simp [SurveyMission.homeward, hhome], ?_⟩
    show asked.2.2.position = _
    rw [hposition, hhold]
    exact (SurveyCourse.staged_waiting h.alt hgate nowUs).symm
  | flies hhome hgate hposition hcourse =>
    rw [hcourse]
    refine ⟨h.continuous, h.alt, hheard, h.climbing, h.aligning, ?_,
      fun haway => absurd hhome haway⟩
    intro _ command hcommand
    rw [← Option.some.inj hcommand]
    refine ⟨by simp [SurveyMission.homeward, hhome], ?_⟩
    show asked.2.2.position = _
    rw [hposition, SurveyCourse.staged, if_neg (show s.course.gateUs ≠ 0 from hgate)]
    rfl

/-- From the last command to where the blend is. -/
theorem joins {s : SurveyMission ℝ} {asked : SurveyMission.Asked ℝ} {command : Commanded ℝ}
    (hspeed : 0 ≤ max plan.speedMps plan.cubeSpeedMps)
    (h : OnCourse plan s.course (some command) clockUs) (hclock : clockUs ≤ nowUs)
    (hmove : SurveyMission.CourseMove s nowUs asked) (hhomeward : s.homeward = true)
    (hstage : command.home = false)
    (hblend : ∀ start, s.homeFrom = some start →
      smoothstep (s.homeShare nowUs) * dist3 start s.hold ≤
        max plan.speedMps plan.cubeSpeedMps * seconds s.homeUs nowUs) :
    dist3 asked.2.2.position command.position ≤
      max plan.speedMps plan.cubeSpeedMps * seconds command.us nowUs := by
  have hgo := hhomeward
  rw [SurveyMission.homeward, Bool.and_eq_true, Bool.and_eq_true, decide_eq_true_eq] at hgo
  obtain ⟨⟨hclimbed, haligned⟩, hhome⟩ := hgo
  cases hmove with
  | climbs _ _ hdown => cases hclimbed.symm.trans hdown
  | aligns _ _ _ haway => cases haligned.symm.trans haway
  | waits hnone => exact absurd hnone hhome
  | flies hnone => exact absurd hnone hhome
  | comesHome start _ _ _ hstart hposition =>
    have hshare := smoothstep_nonneg (s.homeShare_mem nowUs).2
    have hmoved := s.homePosition_dist nowUs start
    rw [abs_of_nonneg hshare] at hmoved
    have htriangle := dist3_triangle (s.homePosition nowUs start) start command.position
    rw [hposition]
    rcases h.blending hhome start command hstart rfl hstage with ⟨hbefore, hnear⟩ | ⟨hend, hrest⟩
    · have hsplit : (seconds command.us s.homeUs : ℝ) + seconds s.homeUs nowUs =
          seconds command.us nowUs := by
        have hsub := seconds_sub command.us s.homeUs nowUs
        linarith
      calc dist3 (s.homePosition nowUs start) command.position
          ≤ smoothstep (s.homeShare nowUs) * dist3 start s.hold + dist3 start command.position := by
            rw [← hmoved]
            exact htriangle
        _ ≤ max plan.speedMps plan.cubeSpeedMps * seconds s.homeUs nowUs +
            max plan.speedMps plan.cubeSpeedMps * seconds command.us s.homeUs :=
          add_le_add (hblend start hstart) hnear
        _ = max plan.speedMps plan.cubeSpeedMps * seconds command.us nowUs := by
          rw [← hsplit]
          ring
    · have hhold : s.hold = plan.home := SurveyCourse.hold_eq h.alt
      have hstill : dist3 (s.homePosition nowUs start) start = 0 := by
        rw [hmoved, hend, hhold, dist3_self, mul_zero]
      rw [hrest, ← hend, hstill]
      exact mul_nonneg hspeed (seconds_nonneg ((h.heard command rfl).trans hclock))

end OnCourse

end Mission10.Flight
