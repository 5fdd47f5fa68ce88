import Mission10.Engine.MissionRuns
import Mission10.Engine.SurveyLanes

/-!
# Flying the lanes of a field

The engine remembers which lane it flies and how far along it is. The distance
stays within the lane, so the targets of a survey tick are points of the lanes,
and the fence around a convex field lets them pass.
-/
namespace Mission10.Engine

open MathOps Plane CyclicList ConvexPolygon Runs

set_option linter.unusedSectionVars false

namespace MissionEngine

section Progress
variable {K : Type*} [Field K] [LinearOrder K] [MathOps K]

/-- The lane and the distance along it. -/
def progress (e : MissionEngine K) : ℕ × K := (e.laneI, e.laneS)

/-- The distance along the lane is within its length. -/
def OnLane (e : MissionEngine K) : Prop :=
  0 ≤ e.laneS ∧ ∀ lane, e.lanes[e.laneI]? = some lane → e.laneS ≤ lane.length

theorem OnLane.congr {e e' : MissionEngine K} (h : e.OnLane) (hplan : e'.plan = e.plan)
    (hprogress : e'.progress = e.progress) : e'.OnLane := by
  obtain ⟨hi, hs⟩ := Prod.mk.inj hprogress
  have hlanes : e'.lanes = e.lanes := congrArg SurveyPlan.lanes hplan
  unfold OnLane
  rw [hlanes, hi, hs]
  exact h

/-! ### Steps that make no progress -/

theorem abortWith_progress (e : MissionEngine K) (reason : AbortReason K) :
    (e.abortWith reason).progress = e.progress := by
  unfold abortWith
  split <;> rfl

theorem checkAborts_progress (e : MissionEngine K) (t : K) (pos : Vec3 K) :
    (e.checkAborts t pos).progress = e.progress := by
  obtain ⟨phase, reason, engaged, hframe⟩ := checkAborts_frame e t pos
  rw [hframe]
  rfl

theorem tickSync_progress {e e' : MissionEngine K} {s : Sample K} {sp : Option (Setpoint K)}
    (h : e.tickSync s = .ok (e', sp)) : e'.progress = e.progress := by
  obtain ⟨t0, home, phase, takeoff, rfl, -⟩ := tickSync_frame h
  rfl

theorem tickDip_progress {e e' : MissionEngine K} {s : Sample K} {sp : Option (Setpoint K)}
    (h : e.tickDip s = .ok (e', sp)) : e'.progress = e.progress := by
  obtain ⟨log, dips, target, t0, entered, phase, rfl, -⟩ := tickDip_frame h
  rfl

/-- The way home makes no progress on the lanes. -/
theorem tickHome_progress (e : MissionEngine K) (s : Sample K) :
    (e.tickEgress s).1.progress = e.progress ∧ (e.tickSettle s).1.progress = e.progress ∧
      e.tickDump.1.progress = e.progress ∧ (e.tickLand s).1.progress = e.progress := by
  refine ⟨?_, ?_, ?_, ?_⟩
  · unfold tickEgress
    dsimp only
    split_ifs <;> rfl
  · unfold tickSettle
    dsimp only
    split
    · split
      · rfl
      · split <;> rfl
    · rfl
  · unfold tickDump
    dsimp only
    split <;> rfl
  · unfold tickLand
    dsimp only
    split <;> rfl

end Progress

/-! ### Steps along a lane -/

section Survey
variable {K : Type*} [Field K] [LinearOrder K] [IsStrictOrderedRing K] [MathOps K]

/-- The point is on one of the lanes. -/
def OnSurvey (lanes : List (Lane K)) (p : Point2 K) : Prop :=
  ∃ lane ∈ lanes, ∃ s, 0 ≤ s ∧ s ≤ lane.length ∧ p = lane.pointAt s

/-- What a survey tick keeps and where its target is. -/
def Surveys (e : MissionEngine K) (out : MissionEngine K × Option (Setpoint K)) : Prop :=
  out.1.plan = e.plan ∧ out.1.OnLane ∧
    ∃ target, out.2 = some target ∧ OnSurvey e.lanes target.pos.horizontal

theorem advance_onLane {e : MissionEngine K} (h : e.OnLane) {lane : Lane K}
    (hlane : e.lanes[e.laneI]? = some lane) (hlength : 0 ≤ lane.length) (pos : Vec3 K) :
    (e.advance lane (measuredS lane pos)).OnLane := by
  unfold advance
  split_ifs with hfurther
  · refine ⟨le_max_left 0 _, fun lane' hlane' => ?_⟩
    obtain rfl := Option.some.inj (hlane.symm.trans hlane')
    exact max_le hlength (min_le_right _ _)
  · exact h

theorem advance_lane (e : MissionEngine K) (lane : Lane K) (measured : K) :
    (e.advance lane measured).laneI = e.laneI := by
  unfold advance
  split_ifs <;> rfl

theorem finishLane_surveys {e : MissionEngine K} (h : e.OnLane) {lane : Lane K}
    (hlane : lane ∈ e.lanes) (hlengths : ∀ lane ∈ e.lanes, 0 ≤ lane.length) :
    Surveys e (e.finishLane lane) := by
  unfold finishLane
  dsimp only
  split
  · rename_i next hnext
    have hmem := List.mem_of_getElem? hnext
    refine ⟨rfl, ⟨le_rfl, fun lane' hlane' => ?_⟩, _, rfl, next, hmem, 0, le_rfl,
      hlengths next hmem, rfl⟩
    exact hlengths lane' (List.mem_of_getElem? hlane')
  · exact ⟨rfl, h, _, rfl, lane, hlane, lane.length, hlengths lane hlane, le_rfl, rfl⟩

theorem followLane_surveys {e : MissionEngine K} (h : e.OnLane) {lane : Lane K}
    (hlane : e.lanes[e.laneI]? = some lane) (hlengths : ∀ lane ∈ e.lanes, 0 ≤ lane.length)
    (s : Sample K) : Surveys e (e.followLane lane s) := by
  have hmem := List.mem_of_getElem? hlane
  have hplan := advance_plan e lane (measuredS lane s.pos)
  have hlanes : (e.advance lane (measuredS lane s.pos)).lanes = e.lanes :=
    congrArg SurveyPlan.lanes hplan
  have hon := advance_onLane h hlane (hlengths lane hmem) s.pos
  unfold followLane
  dsimp only
  split
  · obtain ⟨hplan', hon', target, htarget, hsurvey⟩ :=
      finishLane_surveys hon (hlanes ▸ hmem) (hlanes ▸ hlengths)
    exact ⟨hplan'.trans hplan, hon', target, htarget, hlanes ▸ hsurvey⟩
  · exact ⟨hplan, hon, _, rfl, lane, hmem, lane.length, hlengths lane hmem, le_rfl, rfl⟩

/-- A survey tick targets a point of the lanes. -/
theorem tickLane_surveys {e : MissionEngine K} (h : e.OnLane)
    (hlengths : ∀ lane ∈ e.lanes, 0 ≤ lane.length) {s : Sample K}
    {out : MissionEngine K × Option (Setpoint K)} (hout : e.tickLane s = .ok out) :
    Surveys e out := by
  unfold tickLane at hout
  split at hout
  · cases hout
  · rename_i lane hlane
    have hmem := List.mem_of_getElem? hlane
    dsimp only at hout
    split_ifs at hout
    · obtain rfl := Except.ok.inj hout
      exact ⟨rfl, h, _, rfl, lane, hmem, e.laneS, h.1, h.2 lane hlane, rfl⟩
    · obtain rfl := Except.ok.inj hout
      unfold surveyLane
      split
      · exact ⟨rfl, h, _, rfl, lane, hmem, e.laneS, h.1, h.2 lane hlane, rfl⟩
      · exact followLane_surveys (e := { e with laneEntered := true }) h hlane hlengths s

theorem tickSurvey_surveys {e : MissionEngine K} (hpattern : e.cfg.pattern = .serpentine)
    (h : e.OnLane) (hlengths : ∀ lane ∈ e.lanes, 0 ≤ lane.length) {s : Sample K}
    {out : MissionEngine K × Option (Setpoint K)} (hout : e.tickSurvey s = .ok out) :
    Surveys e out := by
  unfold tickSurvey at hout
  rw [hpattern] at hout
  exact tickLane_surveys h hlengths hout

/-- The climb goes on, or the survey begins. -/
theorem tickTakeoff_surveys {e : MissionEngine K} (hpattern : e.cfg.pattern = .serpentine)
    (h : e.OnLane) (hlengths : ∀ lane ∈ e.lanes, 0 ≤ lane.length) {s : Sample K}
    {out : MissionEngine K × Option (Setpoint K)} (hout : e.tickTakeoff s = .ok out) :
    out.1 = e ∨ Surveys e out := by
  unfold tickTakeoff at hout
  simp only [bind, Except.bind] at hout
  split at hout
  · cases hout
  · split_ifs at hout
    · have hsurvey : Surveys { e with phase := .lane } out :=
        tickSurvey_surveys (e := { e with phase := .lane }) hpattern h hlengths hout
      exact .inr hsurvey
    · obtain rfl := Except.ok.inj hout
      exact .inl rfl

theorem tickPhase_onLane {e : MissionEngine K} (hpattern : e.cfg.pattern = .serpentine)
    (h : e.OnLane) (hlengths : ∀ lane ∈ e.lanes, 0 ≤ lane.length) {s : Sample K}
    {e' : MissionEngine K} {sp : Option (Setpoint K)} (hout : e.tickPhase s = .ok (e', sp)) :
    e'.OnLane := by
  have hplan := tickPhase_plan hout
  obtain ⟨hegress, hsettle, hdump, hland⟩ := tickHome_progress e s
  unfold tickPhase at hout
  split at hout
  case h_1 | h_11 => exact fst_of_ok hout ▸ h
  case h_2 => exact h.congr hplan (tickSync_progress hout)
  case h_3 =>
    rcases tickTakeoff_surveys hpattern h hlengths hout with hsame | hsurvey
    · obtain rfl : e' = e := hsame
      exact h
    · exact hsurvey.2.1
  case h_4 => exact (tickSurvey_surveys hpattern h hlengths hout).2.1
  case h_5 => exact h.congr hplan (tickDip_progress hout)
  case h_6 | h_7 => exact h.congr hplan (fst_of_ok hout ▸ hegress)
  case h_8 => exact h.congr hplan (fst_of_ok hout ▸ hsettle)
  case h_9 => exact h.congr hplan (fst_of_ok hout ▸ hdump)
  case h_10 => exact h.congr hplan (fst_of_ok hout ▸ hland)

/-- A flight over the lanes of a plan. -/
structure Flies (plan : SurveyPlan K) (e : MissionEngine K) : Prop where
  plan_eq : e.plan = plan
  onLane : e.OnLane

theorem Flies.congr {plan : SurveyPlan K} {e e' : MissionEngine K} (h : Flies plan e)
    (hplan : e'.plan = e.plan) (hprogress : e'.progress = e.progress) : Flies plan e' :=
  ⟨hplan.trans h.plan_eq, h.onLane.congr hplan hprogress⟩

theorem Flies.guarded {plan : SurveyPlan K} {e : MissionEngine K} (h : Flies plan e) (t : K)
    (pos : Vec3 K) : Flies plan (e.checkAborts t pos) :=
  h.congr (checkAborts_guarded e t pos).1 (checkAborts_progress e t pos)

variable {plan : SurveyPlan K}

theorem Flies.tickOnce (hpattern : plan.cfg.pattern = .serpentine)
    (hlengths : ∀ lane ∈ plan.lanes, 0 ≤ lane.length) {e : MissionEngine K} (h : Flies plan e)
    {s : Sample K} {e' : MissionEngine K} {sp : Option (Setpoint K)}
    (hout : e.tickOnce s = .ok (e', sp)) : Flies plan e' := by
  obtain ⟨hplan, hon⟩ := h.guarded s.t s.pos
  have hcfg : (e.checkAborts s.t s.pos).cfg = plan.cfg := congrArg SurveyPlan.cfg hplan
  have hlanes : (e.checkAborts s.t s.pos).lanes = plan.lanes := congrArg SurveyPlan.lanes hplan
  refine ⟨(tickPhase_plan hout).trans hplan, ?_⟩
  exact tickPhase_onLane (hcfg ▸ hpattern) hon (hlanes ▸ hlengths) hout

theorem Flies.tick (hpattern : plan.cfg.pattern = .serpentine)
    (hlengths : ∀ lane ∈ plan.lanes, 0 ≤ lane.length) {e : MissionEngine K} (h : Flies plan e)
    {s : Sample K} {e' : MissionEngine K} {sp : Option (Setpoint K)}
    (hout : e.tick s = .ok (e', sp)) : Flies plan e' := by
  rcases tick_passes hout with honce | ⟨e1, sp1, violation, honce, -, hagain⟩
  · exact h.tickOnce hpattern hlengths honce
  · have hfirst := h.tickOnce hpattern hlengths honce
    have habort : Flies plan (e1.abortWith (.command violation)) :=
      hfirst.congr (abortWith_plan e1 _) (abortWith_progress e1 _)
    exact habort.tickOnce hpattern hlengths hagain

theorem Flies.step (hpattern : plan.cfg.pattern = .serpentine)
    (hlengths : ∀ lane ∈ plan.lanes, 0 ≤ lane.length) {e e' : MissionEngine K} (h : Flies plan e)
    {x : EngineInput K} (hstep : e.step x = some e') : Flies plan e' := by
  by_cases htick : ∃ s, x = .tick s
  · obtain ⟨s, rfl⟩ := htick
    obtain ⟨sp, hout⟩ := step_tick hstep
    exact h.tick hpattern hlengths hout
  · refine h.congr (step_plan hstep) ?_
    have hinput := step_input (fun s hs => htick ⟨s, hs⟩) hstep
    obtain ⟨_, _, _, _, _, _, _, _, _, rfl, -⟩ := hinput
    rfl

/-- The phases in which the lanes are flown, the climb before them included. -/
def fliesLanes (e : MissionEngine K) : Prop := e.phase = .takeoff ∨ e.phase = .lane

/-- Lane targets over the closed polygon pass the fence. -/
theorem Flies.passes_fence (hpattern : plan.cfg.pattern = .serpentine)
    (hlengths : ∀ lane ∈ plan.lanes, 0 ≤ lane.length) (hconvex : IsConvex plan.fencePolygon)
    (hinside : ∀ p, OnSurvey plan.lanes p → p ∈ region plan.fencePolygon) {e : MissionEngine K}
    (h : Flies plan e) {s : Sample K} (hphase : (e.checkAborts s.t s.pos).fliesLanes)
    {e' : MissionEngine K} {sp : Option (Setpoint K)} (hout : e.tickOnce s = .ok (e', sp)) :
    e'.commandViolation sp = none := by
  obtain ⟨hplan', -⟩ := h.tickOnce hpattern hlengths hout
  obtain ⟨hplan, hon⟩ := h.guarded s.t s.pos
  have hfence : e'.fencePolygon = plan.fencePolygon := congrArg SurveyPlan.fencePolygon hplan'
  have hcfg : (e.checkAborts s.t s.pos).cfg = plan.cfg := congrArg SurveyPlan.cfg hplan
  have hlanes : (e.checkAborts s.t s.pos).lanes = plan.lanes := congrArg SurveyPlan.lanes hplan
  have hpass (hsurvey : Surveys (e.checkAborts s.t s.pos) (e', sp)) :
      e'.commandViolation sp = none := by
    obtain ⟨-, -, target, rfl, hover⟩ := hsurvey
    exact commandViolation_of_mem (hfence ▸ hconvex) (hfence ▸ hinside _ (hlanes ▸ hover))
  unfold MissionEngine.tickOnce tickPhase at hout
  rcases hphase with hphase | hphase
  · rw [hphase] at hout
    rcases tickTakeoff_surveys (hcfg ▸ hpattern) hon (hlanes ▸ hlengths) hout with rfl | hsurvey
    · -- the polygon fence is not armed on the climb
      have hne : (e.checkAborts s.t s.pos).fencePolygon ≠ [] := by
        obtain ⟨a, b, c, hsub, -⟩ := hconvex.spread
        rw [hfence]
        exact List.ne_nil_of_mem (hsub.subset List.mem_cons_self)
      have hidle : (e.checkAborts s.t s.pos).commandFenceActive = false := by
        unfold commandFenceActive
        rw [if_pos hne, hphase]
        rfl
      unfold commandViolation
      split
      · rfl
      · rw [hidle]
        rfl
    · exact hpass hsurvey
  · rw [hphase] at hout
    exact hpass (tickSurvey_surveys (hcfg ▸ hpattern) hon (hlanes ▸ hlengths) hout)

end Survey

end MissionEngine

open MissionEngine in
/-- Without hit tolerances the lanes of a convex field lie in the closed polygon, so
the polygon test accepts them and the command fence trips on no lane target of any
flight; they are numbered in order, alternate in direction and lie no more than the
spacing apart. -/
theorem survey_lanes_inside {polygon : List (Point2 ℝ)} {spacing : ℝ} {lanes : List (Lane ℝ)}
    (h : IsConvex polygon)
    (hlanes : HitTolerances.zero.polygonSerpentine polygon spacing = .ok lanes) :
    FieldLanes polygon spacing lanes ∧
      (∀ lane ∈ lanes, ∀ s, 0 ≤ s → s ≤ lane.length →
        pointInPolygon (lane.pointAt s) polygon = true) ∧
      ∀ (cfg : MissionConfig ℝ) (yaw : ℝ) (inputs : List (EngineInput ℝ)) (e : MissionEngine ℝ),
        cfg.pattern = .serpentine →
          run MissionEngine.step (.initial cfg polygon lanes yaw) inputs = some e →
            ∀ s : Sample ℝ, (e.checkAborts s.t s.pos).fliesLanes →
              ∀ e' sp, e.tickOnce s = .ok (e', sp) → e'.commandViolation sp = none := by
  have hfield := fieldLanes h hlanes
  refine ⟨hfield, fun lane hmem s hs hs' =>
    pointInPolygon_of_mem h (hfield.inside lane hmem s hs hs'),
    fun cfg yaw inputs e hpattern hrun s hphase e' sp hout => ?_⟩
  have hstart : Flies ⟨cfg, polygon, lanes⟩ (.initial cfg polygon lanes yaw) := by
    refine ⟨rfl, le_rfl, fun lane hlane => ?_⟩
    exact hfield.length lane (List.mem_of_getElem? hlane)
  have hflies := run_invariant MissionEngine.step (Flies ⟨cfg, polygon, lanes⟩)
    (fun _ _ _ hinv hstep => hinv.step hpattern hfield.length hstep) hstart hrun
  have hinside : ∀ p, OnSurvey lanes p → p ∈ region polygon := by
    rintro p ⟨lane, hmem, s, hs, hs', rfl⟩
    exact hfield.inside lane hmem s hs hs'
  exact hflies.passes_fence hpattern hfield.length h hinside hphase hout

/-- A field of one metre square. -/
def unitSquare : List (Point2 ℝ) := [(0, 0), (1, 0), (1, 1), (0, 1)]

theorem unitSquare_isConvex : IsConvex unitSquare := by
  constructor
  · left
    intro a b c hsub
    have hmem := List.mem_sublistsLen.mpr ⟨hsub, rfl⟩
    simp [unitSquare, List.sublistsLen, List.sublistsLenAux] at hmem
    rcases hmem with ⟨rfl, rfl, rfl⟩ | ⟨rfl, rfl, rfl⟩ | ⟨rfl, rfl, rfl⟩ | ⟨rfl, rfl, rfl⟩ <;>
      simp [orient, det]
  · exact ⟨(0, 0), (1, 0), (1, 1), by simp [unitSquare], by simp [orient, det]⟩

theorem unitSquare_surveyed :
    ∃ lanes, HitTolerances.zero.polygonSerpentine unitSquare 1 = .ok lanes := by
  have hlen : hypot (1 : ℝ) 0 = 1 := by simp [hypot, sqrt_real]
  have hfwd : surveyForward unitSquare = (1, 0) := by simp [surveyForward, unitSquare, hlen]
  have hfirst : (0 : ℝ) ∈ surveyOffsets unitSquare 1 := by
    unfold surveyOffsets
    rw [hfwd]
    refine List.mem_map.mpr ⟨0, List.mem_range.mpr (by omega), ?_⟩
    simp [unitSquare, List.min?]
  have hends : (1 : ℝ) ∈ HitTolerances.zero.hits (1, 0) (0, 1) unitSquare (0 : ℝ) ∧
      (0 : ℝ) ∈ HitTolerances.zero.hits (1, 0) (0, 1) unitSquare (0 : ℝ) := by
    simp [HitTolerances.hits, polygonEdges, unitSquare, HitTolerances.laneHits,
      HitTolerances.zero]
  have hspan : HitTolerances.Spans (HitTolerances.zero.hits (1, 0) (0, 1) unitSquare (0 : ℝ)) :=
    spans_iff.mpr ⟨0, hends.2, 1, hends.1, by norm_num⟩
  apply HitTolerances.polygonSerpentine_surveys
  · simp [unitSquare]
  · exact one_pos
  · simp [unitSquare, hlen]
    norm_num
  · exact ⟨0, hfirst, by rw [hfwd]; simpa [turn] using hspan⟩

/-- The square is surveyed inside its fence. -/
theorem survey_lanes_inside_square : ∃ lanes,
    HitTolerances.zero.polygonSerpentine unitSquare 1 = .ok lanes ∧
      FieldLanes unitSquare 1 lanes ∧ ∀ lane ∈ lanes, ∀ s, 0 ≤ s → s ≤ lane.length →
        pointInPolygon (lane.pointAt s) unitSquare = true := by
  obtain ⟨lanes, hlanes⟩ := unitSquare_surveyed
  obtain ⟨hfield, haccepted, -⟩ := survey_lanes_inside unitSquare_isConvex hlanes
  exact ⟨lanes, hlanes, hfield, haccepted⟩

end Mission10.Engine
