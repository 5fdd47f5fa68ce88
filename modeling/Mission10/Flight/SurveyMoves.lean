import Mission10.Flight.ArmingGate
import Mission10.Flight.FailsafeYield
import Mission10.Flight.SurveyMission

/-!
# What a step does to the survey mission

A step of the node reaches the mission through one hook at most. Here each step is one
of five moves, with what the node commands beside it; a node that has left the ground
states never returns to them.
-/
namespace Mission10.Flight

open Engine (MathOps)

set_option linter.unusedSectionVars false

variable {K : Type*} [Field K] [LinearOrder K] [MathOps K]

/-- The states before the mission is active. -/
def FlightState.grounded : FlightState → Bool
  | .waitLink | .waitStart | .prestream | .takeoff | .engage => true
  | _ => false

namespace Controller

variable {c : Controller K} {nowUs : ℤ}

theorem request_grounded {asked : Request K}
    (h : (c.request nowUs asked).1.state.grounded = true) : c.state.grounded = true := by
  by_cases hreturn : asked = .beginReturn
  · subst hreturn
    rw [request, beginReturn] at h
    split_ifs at h
    · exact h
    · rcases returnOrLand_state c nowUs with hstate | hstate <;> rw [hstate] at h <;> cases h
  · rwa [request_state hreturn] at h

theorem requests_grounded {asked : List (Request K)}
    (h : (c.requests nowUs asked).1.state.grounded = true) : c.state.grounded = true := by
  induction asked generalizing c with
  | nil => exact h
  | cons first rest ih => exact request_grounded (ih h)

theorem tickUntilDisarmed_grounded (h : c.tickUntilDisarmed.state.grounded = true) :
    c.state.grounded = true := by
  unfold tickUntilDisarmed at h
  split_ifs at h
  · exact h
  · cases h

theorem tickReturning_grounded (h : (c.tickReturning nowUs).1.state.grounded = true) :
    c.state.grounded = true := by
  unfold tickReturning at h
  split_ifs at h
  · cases h
  · have hretried := tickUntilDisarmed_grounded h
    rw [(publishCommandThrottled_commands c.returningHold.1 nowUs rfl).2,
      (returningHold_streams (c := c)).state] at hretried
    exact hretried

theorem tickLandRequested_grounded (h : (c.tickLandRequested nowUs).1.state.grounded = true) :
    c.state.grounded = true := by
  unfold tickLandRequested at h
  split_ifs at h
  · cases h
  · cases h
  · rw [(publishCommandThrottled_commands c.publishHandoffHold.1 nowUs rfl).2,
      (publishHandoffHold_streams c).state] at h
    exact h

end Controller

namespace Node

variable {M I : Type*} {mission : Mission K M I} {n : Node K M} {after : Effect K M} {nowUs : ℤ}

/-- A tick with an active mission lands, yields, or flies what the mission computes. -/
theorem tickActive_cases (h : n.tickActive mission nowUs = some after) :
    (after.1.mission = n.mission ∧ after.1.base.state.grounded = false ∧
        ¬ (n.base.abortRequested = false ∧ n.base.interlock = false)) ∨
      ∃ computed, mission.computeSetpoint n.mission n.base nowUs = some computed ∧
        after.1.mission = computed.1 ∧
        (after.1.base.state.grounded = true → n.base.state.grounded = true) ∧
        n.base.abortRequested = false ∧ n.base.interlock = false := by
  unfold tickActive at h
  split_ifs at h with habort hinterlock
  · obtain rfl := Option.some.inj h
    exact Or.inl ⟨rfl, rfl, by simp [habort]⟩
  · obtain rfl := Option.some.inj h
    exact Or.inl ⟨rfl, rfl, by simp [hinterlock]⟩
  · obtain ⟨computed, hcomputed, hpublished⟩ := Option.bind_eq_some_iff.mp h
    obtain ⟨published, hsetpoint, rfl⟩ := Option.map_eq_some_iff.mp hpublished
    refine Or.inr ⟨computed, hcomputed, rfl, ?_, by simpa using habort, by simpa using hinterlock⟩
    intro hgrounded
    rw [(Controller.publishMissionSetpoint_streams hsetpoint).state] at hgrounded
    exact Controller.requests_grounded hgrounded

/-- What a tick does to the mission. -/
inductive TickMove (mission : Mission K M I) (n : Node K M) (sent : Controller K) (nowUs : ℤ)
    (n' : Node K M) : Prop
  | quiet (hmission : n'.mission = n.mission)
      (hidle : ¬ (sent.state = .active ∧ sent.abortRequested = false ∧ sent.interlock = false))
  | linked (c : Controller K) (hmission : n'.mission = (mission.onLinkAcquired n.mission c nowUs).1)
      (hidle : sent.state = .waitLink)
  | starts (c : Controller K) (hmission : n'.mission = (mission.onActiveStart n.mission c nowUs).1)
      (hengage : sent.state = .engage) (hflown : n'.base.state.grounded = false)
  | computes (computed : M × List (Request K) × Option (MissionSetpoint K))
      (hcomputed : mission.computeSetpoint n.mission sent nowUs = some computed)
      (hmission : n'.mission = computed.1)
      (hactive : sent.state = .active ∧ sent.abortRequested = false ∧ sent.interlock = false)

theorem fireLinkAcquired_mission (mission : Mission K M I) (n : Node K M) (nowUs : ℤ) :
    (n.fireLinkAcquired mission nowUs).1.mission = n.mission ∨
      ∃ c, (n.fireLinkAcquired mission nowUs).1.mission =
        (mission.onLinkAcquired n.mission c nowUs).1 := by
  unfold fireLinkAcquired
  split_ifs
  · exact Or.inl rfl
  · exact Or.inr ⟨_, rfl⟩

theorem tickWaitLink_mission (mission : Mission K M I) (n : Node K M) (nowUs : ℤ) :
    (n.tickWaitLink mission nowUs).1.mission = n.mission ∨
      ∃ c, (n.tickWaitLink mission nowUs).1.mission =
        (mission.onLinkAcquired n.mission c nowUs).1 := by
  unfold tickWaitLink
  split_ifs
  · exact fireLinkAcquired_mission mission n nowUs
  · exact Or.inl rfl

theorem tickEngage_mission (mission : Mission K M I) (n : Node K M) (nowUs : ℤ) :
    (n.tickEngage mission nowUs).1.mission = n.mission ∨
      (n.tickEngage mission nowUs).1.base.state.grounded = false ∧
        ∃ c, (n.tickEngage mission nowUs).1.mission =
          (mission.onActiveStart n.mission c nowUs).1 := by
  simp only [tickEngage]
  split_ifs
  · exact Or.inl rfl
  · refine Or.inr ⟨?_, _, rfl⟩
    by_contra hgrounded
    rw [Bool.not_eq_false] at hgrounded
    cases Controller.requests_grounded hgrounded
  · exact Or.inl rfl

/-- A tick moves the mission through one hook at most, and a node that has left the
ground states does not return to them. -/
theorem tick_moves (h : n.tick mission nowUs = some after) :
    ∃ sent, n.base.sendPendingOrigin nowUs = some sent ∧
      TickMove mission n sent.1 nowUs after.1 ∧
      (after.1.base.state.grounded = true → n.base.state.grounded = true) := by
  obtain ⟨sent, hsent, htick⟩ := Option.bind_eq_some_iff.mp h
  obtain ⟨ticked, hticked, rfl⟩ := Option.map_eq_some_iff.mp htick
  obtain ⟨-, hsame, -⟩ := Controller.sendPendingOrigin_commands hsent
  refine ⟨sent, hsent, ?_⟩
  rw [← hsame]
  unfold tickState at hticked
  cases hstate : sent.1.state with
  | waitLink =>
    simp only [hstate] at hticked
    obtain rfl := Option.some.inj hticked
    refine ⟨?_, fun _ => rfl⟩
    rcases tickWaitLink_mission mission ⟨sent.1, n.mission⟩ nowUs with hmission | ⟨c, hmission⟩
    · exact .quiet hmission (by simp [hstate])
    · exact .linked c hmission hstate
  | waitStart =>
    simp only [hstate] at hticked
    obtain rfl := Option.some.inj hticked
    exact ⟨.quiet rfl (by simp [hstate]), fun _ => rfl⟩
  | prestream =>
    simp only [hstate] at hticked
    obtain ⟨published, -, rfl⟩ := Option.map_eq_some_iff.mp hticked
    exact ⟨.quiet rfl (by simp [hstate]), fun _ => rfl⟩
  | takeoff =>
    simp only [hstate] at hticked
    obtain rfl := Option.some.inj hticked
    exact ⟨.quiet rfl (by simp [hstate]), fun _ => rfl⟩
  | engage =>
    simp only [hstate] at hticked
    obtain rfl := Option.some.inj hticked
    refine ⟨?_, fun _ => rfl⟩
    rcases tickEngage_mission mission ⟨sent.1, n.mission⟩ nowUs with
      hmission | ⟨hflown, c, hmission⟩
    · exact .quiet hmission (by simp [hstate])
    · exact .starts c hmission hstate hflown
  | active =>
    simp only [hstate] at hticked
    rcases tickActive_cases hticked with ⟨hmission, hflown, hidle⟩ |
      ⟨computed, hcomputed, hmission, hgrounded, habort, hinterlock⟩
    · exact ⟨.quiet hmission fun hactive => hidle hactive.2, fun h => by rw [hflown] at h; cases h⟩
    · exact ⟨.computes computed hcomputed hmission ⟨hstate, habort, hinterlock⟩,
        fun h => hstate ▸ hgrounded h⟩
  | returning =>
    simp only [hstate] at hticked
    obtain rfl := Option.some.inj hticked
    exact ⟨.quiet rfl (by simp [hstate]),
      fun h => hstate ▸ Controller.tickReturning_grounded h⟩
  | landRequested =>
    simp only [hstate] at hticked
    obtain rfl := Option.some.inj hticked
    exact ⟨.quiet rfl (by simp [hstate]),
      fun h => hstate ▸ Controller.tickLandRequested_grounded h⟩
  | landing =>
    simp only [hstate] at hticked
    obtain rfl := Option.some.inj hticked
    exact ⟨.quiet rfl (by simp [hstate]),
      fun h => hstate ▸ Controller.tickUntilDisarmed_grounded h⟩
  | failsafe =>
    simp only [hstate] at hticked
    obtain rfl := Option.some.inj hticked
    exact ⟨.quiet rfl (by simp [hstate]),
      fun h => hstate ▸ Controller.tickUntilDisarmed_grounded h⟩
  | done =>
    simp only [hstate] at hticked
    obtain rfl := Option.some.inj hticked
    exact ⟨.quiet rfl (by simp [hstate]), fun h => hstate ▸ h⟩

end Node

/-! ### The course of the mission -/

/-- The fields that decide where the node flies. -/
structure SurveyCourse (K : Type*) where
  schedule : List (Segment K)
  alt : K
  climbed : Bool
  aligned : Bool
  gateUs : ℤ
  homeUs : ℤ
  homeFrom : Option (EnuPoint K)
  toHomeTimeS : K

namespace SurveyMission

variable {s : SurveyMission K} {c : Controller K} {nowUs : ℤ} {asked : Asked K}

def course (s : SurveyMission K) : SurveyCourse K :=
  ⟨s.schedule, s.alt, s.climbed, s.yawAlignmentComplete, s.gateUs, s.homeUs, s.homeFrom,
    s.params.toHomeTimeS⟩

theorem slewedYaw_course (s : SurveyMission K) (nowUs : ℤ) (target : K) (forceTarget : Bool) :
    (s.slewedYaw nowUs target forceTarget).1.course = s.course := by
  unfold slewedYaw
  split <;> rfl

theorem emit_course (s : SurveyMission K) (nowUs : ℤ) (nominal : NominalSetpoint K) :
    (s.emit nowUs nominal).1.course = s.course :=
  s.slewedYaw_course nowUs nominal.yaw nominal.forceYawTarget

theorem settleAndLand_course (s : SurveyMission K) (c : Controller K) (nowUs : ℤ) :
    (s.settleAndLand c nowUs).1.course = s.course := by
  unfold settleAndLand
  dsimp only
  split_ifs <;> rfl

/-- What a tick does to the course, and the position it asks for. -/
inductive CourseMove (s : SurveyMission K) (nowUs : ℤ) (asked : Asked K) : Prop
  | climbs (climbed : Bool) (gateUs : ℤ) (hclimbed : s.climbed = false)
      (hposition : asked.2.2.position = s.hold)
      (hcourse : asked.1.course = { s.course with climbed, gateUs })
      (hgate : gateUs = s.gateUs ∨
        gateUs = nowUs ∧ climbed = true ∧ s.yawAlignmentComplete = true)
  | aligns (aligned : Bool) (gateUs : ℤ) (hclimbed : s.climbed = true)
      (haligned : s.yawAlignmentComplete = false)
      (hposition : asked.2.2.position = s.hold)
      (hcourse : asked.1.course = { s.course with aligned, gateUs })
      (hgate : gateUs = s.gateUs ∨ gateUs = nowUs ∧ aligned = true)
  | comesHome (start : EnuPoint K) (hclimbed : s.climbed = true)
      (haligned : s.yawAlignmentComplete = true) (hhome : s.homeUs ≠ 0)
      (hstart : s.homeFrom = some start)
      (hposition : asked.2.2.position = s.homePosition nowUs start)
      (hcourse : asked.1.course = s.course)
  | waits (hhome : s.homeUs = 0) (hgate : s.gateUs = 0) (hposition : asked.2.2.position = s.hold)
      (hcourse : asked.1.course = s.course)
  | flies (hhome : s.homeUs = 0) (hgate : s.gateUs ≠ 0)
      (hposition : asked.2.2.position = (s.currentNominal nowUs).1)
      (hcourse : asked.1.course = s.course)

theorem climb_moves (hclimbed : s.climbed = false) : CourseMove s nowUs (s.climb c nowUs) := by
  by_cases hreached : |c.pos.down - c.takeoffTargetZ| ≤ c.params.takeoffAcceptanceM
  · by_cases hstart : (s.params.surveyAutoStart && s.yawAlignmentComplete &&
        decide (s.gateUs = 0)) = true
    · have haligned : s.yawAlignmentComplete = true := by
        rw [Bool.and_eq_true, Bool.and_eq_true] at hstart
        exact hstart.1.2
      refine .climbs true nowUs hclimbed ?_ ?_ (Or.inr ⟨rfl, rfl, haligned⟩)
      · unfold climb
        split <;> simp [hold]
      · unfold climb
        split <;> simp_all [course]
    · refine .climbs true s.gateUs hclimbed ?_ ?_ (Or.inl rfl)
      · unfold climb
        split <;> simp [hold]
      · unfold climb
        split <;> simp_all [course]
  · refine .climbs false s.gateUs hclimbed ?_ ?_ (Or.inl rfl)
    · unfold climb
      split <;> simp [hold]
    · unfold climb
      split <;> simp_all [course]

theorem align_moves (hclimbed : s.climbed = true) (haligned : s.yawAlignmentComplete = false) :
    CourseMove s nowUs (s.postTakeoffAlignmentSetpoint c nowUs) := by
  unfold postTakeoffAlignmentSetpoint
  dsimp only
  split
  · by_cases hstart : (s.params.surveyAutoStart && decide (s.gateUs = 0)) = true
    · rw [if_pos hstart]
      exact .aligns true nowUs hclimbed haligned rfl rfl (Or.inr ⟨rfl, rfl⟩)
    · rw [if_neg hstart]
      exact .aligns true s.gateUs hclimbed haligned rfl rfl (Or.inl rfl)
  · refine .aligns false s.gateUs hclimbed haligned rfl ?_ (Or.inl rfl)
    simp [course, haligned]

/-- Every branch of a tick is one of the moves. -/
theorem ask_moves (h : s.ask c nowUs = some asked) : CourseMove s nowUs asked := by
  unfold ask at h
  split_ifs at h with hclimbed haligned hhome hgate
  · obtain rfl := Option.some.inj h
    exact climb_moves (by simpa using hclimbed)
  · obtain rfl := Option.some.inj h
    exact align_moves (by simpa using hclimbed) (by simpa using haligned)
  · obtain ⟨start, hstart, rfl⟩ := Option.map_eq_some_iff.mp h
    refine .comesHome start (by simpa using hclimbed) (by simpa using haligned) hhome hstart ?_ ?_
    · unfold homeSetpoint
      dsimp only
      split <;> rfl
    · unfold homeSetpoint
      dsimp only
      split
      · exact settleAndLand_course s c nowUs
      · rfl
  · obtain rfl := Option.some.inj h
    exact .waits (not_not.mp hhome) hgate rfl rfl
  · obtain rfl := Option.some.inj h
    refine .flies (not_not.mp hhome) hgate ?_ ?_
    · unfold fly
      dsimp only
      split <;> rfl
    · unfold fly
      dsimp only
      split
      · exact settleAndLand_course s c nowUs
      · rfl

end SurveyMission

/-! ### The survey mission -/

/-- A setpoint of the node: when, where before the anchor is added, and whether it is one
of the way home. -/
structure Commanded (K : Type*) where
  us : ℤ
  position : EnuPoint K
  home : Bool

/-- The mission blends home. -/
def SurveyMission.homeward (s : SurveyMission K) : Bool :=
  s.climbed && s.yawAlignmentComplete && decide (s.homeUs ≠ 0)

/-- What an event makes the node command. -/
def commanded (n : Node K (SurveyMission K)) : NodeEvent K Bool → Option (Commanded K)
  | .tick nowUs =>
    (n.base.sendPendingOrigin nowUs).bind fun sent =>
      if sent.1.state = .active ∧ sent.1.abortRequested = false ∧ sent.1.interlock = false then
        (n.mission.ask sent.1 nowUs).map fun asked =>
          ⟨nowUs, asked.2.2.position, n.mission.homeward⟩
      else none
  | _ => none

/-- What a step does to the mission, and what it commands. -/
inductive SurveyMove (n : Node K (SurveyMission K)) (event : NodeEvent K Bool)
    (n' : Node K (SurveyMission K)) : Option (Commanded K) → Prop
  | quiet (hmission : n'.mission = n.mission) : SurveyMove n event n' none
  | starts (c : Controller K) (hmission : n'.mission = n.mission.onActiveStart c)
      (hground : n.base.state.grounded = true) (hflown : n'.base.state.grounded = false) :
      SurveyMove n event n' none
  | ends (nowUs : ℤ) (hevent : event = .endMission nowUs true)
      (hfirst : n.base.homeRequested = false)
      (hmission : n'.mission = (n.mission.onReturnHome nowUs).1) : SurveyMove n event n' none
  | gates (nowUs : ℤ) (data : Bool) (hevent : event = .input nowUs data)
      (hmission : n'.mission = n.mission.gateCb n.base nowUs data) : SurveyMove n event n' none
  | computes (nowUs : ℤ) (c : Controller K) (asked : SurveyMission.Asked K)
      (hevent : event = .tick nowUs) (hactive : n.base.state = .active)
      (hasked : n.mission.ask c nowUs = some asked)
      (hmission : n'.mission = { (asked.1.emit nowUs asked.2.2).1 with lastTickUs := nowUs }) :
      SurveyMove n event n' (some ⟨nowUs, asked.2.2.position, n.mission.homeward⟩)

variable {n n' : Node K (SurveyMission K)} {event : NodeEvent K Bool} {nowUs : ℤ}

/-- The survey mission never asks for a return of the controller. -/
theorem surveyMission_asked (n : Node K (SurveyMission K)) (event : NodeEvent K Bool) :
    Request.beginReturn ∉ n.asked (surveyMission K) event := by
  cases event with
  | position nowUs msg =>
    simp only [Node.asked]
    split <;> simp [surveyMission]
  | endMission nowUs data =>
    simp only [Node.asked, surveyMission, SurveyMission.onReturnHome]
    split_ifs <;> simp
  | input nowUs data => simp [Node.asked, surveyMission]
  | _ => simp [Node.asked]

theorem tick_surveyMove (h : n.step (surveyMission K) (.tick nowUs) = some n') :
    SurveyMove n (.tick nowUs) n' (commanded n (.tick nowUs)) ∧
      (n'.base.state.grounded = true → n.base.state.grounded = true) := by
  obtain ⟨after, hreact, rfl⟩ := Option.map_eq_some_iff.mp h
  obtain ⟨sent, hsent, hmove, hgrounded⟩ := Node.tick_moves hreact
  obtain ⟨-, hsame, -⟩ := Controller.sendPendingOrigin_commands hsent
  refine ⟨?_, hgrounded⟩
  rw [commanded, hsent, Option.bind_some]
  cases hmove with
  | quiet hmission hidle =>
    rw [if_neg hidle]
    exact .quiet hmission
  | linked c hmission hidle =>
    rw [if_neg (by simp [hidle])]
    exact .quiet hmission
  | starts c hmission hengage hflown =>
    rw [if_neg (by simp [hengage])]
    have hground : n.base.state.grounded = true := by rw [← hsame, hengage]; rfl
    exact .starts c hmission hground hflown
  | computes computed hcomputed hmission hactive =>
    obtain ⟨asked, hasked, rfl⟩ := Option.map_eq_some_iff.mp hcomputed
    rw [if_pos hactive, hasked]
    exact .computes nowUs sent.1 asked rfl (hsame.symm.trans hactive.1) hasked hmission

/-- Every step is one of the moves, and leaves the ground states for good. -/
theorem survey_moves (h : n.step (surveyMission K) event = some n') :
    SurveyMove n event n' (commanded n event) ∧
      (n'.base.state.grounded = true → n.base.state.grounded = true) := by
  by_cases htick : ∃ nowUs, event = .tick nowUs
  · obtain ⟨nowUs, rfl⟩ := htick
    exact tick_surveyMove h
  · have hquiet : ∀ nowUs, event ≠ .tick nowUs := fun nowUs heq => htick ⟨nowUs, heq⟩
    obtain ⟨after, hreact, rfl⟩ := Option.map_eq_some_iff.mp h
    have hstays := (Node.react_answers hquiet hreact).stays (surveyMission_asked n event)
    refine ⟨?_, fun hgrounded => hstays ▸ hgrounded⟩
    cases event with
    | tick nowUs => exact absurd rfl (hquiet nowUs)
    | position nowUs msg =>
      obtain rfl := Option.some.inj hreact
      apply SurveyMove.quiet
      simp only [Node.posCb]
      split <;> rfl
    | endMission nowUs data =>
      obtain rfl := Option.some.inj hreact
      by_cases hfirst : (data && !n.base.homeRequested) = true
      · rw [Bool.and_eq_true, Bool.not_eq_true'] at hfirst
        obtain ⟨rfl, hrequested⟩ := hfirst
        refine .ends nowUs rfl hrequested ?_
        simp only [Node.endCb, hrequested]
        rfl
      · apply SurveyMove.quiet
        simp only [Node.endCb, if_neg hfirst]
    | input nowUs data =>
      obtain rfl := Option.some.inj hreact
      exact .gates nowUs data rfl rfl
    | _ =>
      obtain rfl := Option.some.inj hreact
      exact .quiet rfl

end Mission10.Flight
