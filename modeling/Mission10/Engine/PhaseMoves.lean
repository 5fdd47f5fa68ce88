import Mission10.Engine.Mission

/-!
# What a step does to the phase

The fields that decide when the mission aborts, settles and lands are its
control record. The survey patterns only move the phase of the record; the
branches for the way home are listed one by one. Everything proved about whole
missions uses the two inversion theorems at the end and no definition of the
sequencer.
-/
namespace Mission10.Engine

set_option linter.unusedSectionVars false

variable {K : Type*} [Field K] [LinearOrder K] [MathOps K]

/-- The part of the engine's state that the landing logic reads and writes. -/
structure Control (K : Type*) where
  phase : Phase
  abortReason : Option (AbortReason K)
  dumpAcked : Bool
  dumpAttempts : ℕ
  settleT0 : Option K
  settleNextPhase : Phase
  settleRequiresSurveyReady : Bool

/-- What the constructor computes once from the parameters. -/
structure SurveyPlan (K : Type*) [Field K] [LinearOrder K] where
  cfg : MissionConfig K
  fencePolygon : List (Point2 K)
  lanes : List (Lane K)

namespace Control

def move (c : Control K) (p : Phase) : Control K := { c with phase := p }

def aborted (c : Control K) (reason : AbortReason K) : Control K :=
  { c with phase := .abort, abortReason := some reason }

def settling (c : Control K) (requires : Bool) : Control K :=
  { c with
    phase := .settle
    settleT0 := none
    settleNextPhase := .land
    settleRequiresSurveyReady := requires }

end Control

/-- The phases before the way home: the survey, the flight to the egress point
and the dump. -/
def Phase.outbound : Phase → Bool
  | .abort | .settle | .land | .done => false
  | _ => true

namespace MissionEngine

def control (e : MissionEngine K) : Control K where
  phase := e.phase
  abortReason := e.abortReason
  dumpAcked := e.dumpAcked
  dumpAttempts := e.dumpAttempts
  settleT0 := e.settleT0
  settleNextPhase := e.settleNextPhase
  settleRequiresSurveyReady := e.settleRequiresSurveyReady

def plan (e : MissionEngine K) : SurveyPlan K where
  cfg := e.cfg
  fencePolygon := e.fencePolygon
  lanes := e.lanes

/-- The engine of a step that returned. -/
theorem fst_of_ok {out : MissionEngine K × Option (Setpoint K)} {e' : MissionEngine K}
    {sp : Option (Setpoint K)} (h : (Except.ok out : Outcome K) = .ok (e', sp)) : out.1 = e' :=
  congrArg Prod.fst (Except.ok.inj h)

/-! ## The survey -/

/-- The step moved the phase to an outbound one and left the rest of the record and the plan. -/
def Outward (e e' : MissionEngine K) : Prop :=
  e'.control = e.control.move e'.phase ∧ e'.phase.outbound ∧ e'.plan = e.plan

/-- A step that touches neither the record nor the plan. -/
theorem Outward.of_control {e e' : MissionEngine K} (hp : e.phase.outbound)
    (hc : e'.control = e.control) (hplan : e'.plan = e.plan) : Outward e e' := by
  have hphase : e'.phase = e.phase := congrArg Control.phase hc
  refine ⟨?_, ?_, hplan⟩
  · rw [hc, hphase]
    rfl
  · rw [hphase]
    exact hp

theorem Outward.trans {e e' e'' : MissionEngine K} (h : Outward e e') (h' : Outward e' e'') :
    Outward e e'' := by
  obtain ⟨hc, -, hplan⟩ := h
  obtain ⟨hc', hp', hplan'⟩ := h'
  refine ⟨?_, hp', hplan'.trans hplan⟩
  rw [hc', hc]
  rfl

theorem advance_control (e : MissionEngine K) (lane : Lane K) (measured : K) :
    (e.advance lane measured).control = e.control := by
  unfold advance
  split_ifs <;> rfl

theorem advance_plan (e : MissionEngine K) (lane : Lane K) (measured : K) :
    (e.advance lane measured).plan = e.plan := by
  unfold advance
  split_ifs <;> rfl

theorem finishLane_outward (e : MissionEngine K) (lane : Lane K) (hp : e.phase.outbound) :
    Outward e (e.finishLane lane).1 := by
  unfold finishLane
  simp only
  split
  · exact ⟨rfl, hp, rfl⟩
  · exact ⟨rfl, rfl, rfl⟩

theorem followLane_outward (e : MissionEngine K) (lane : Lane K) (s : Sample K)
    (hp : e.phase.outbound) : Outward e (e.followLane lane s).1 := by
  have hadvance : Outward e (e.advance lane (measuredS lane s.pos)) :=
    .of_control hp (advance_control e lane _) (advance_plan e lane _)
  unfold followLane
  simp only
  split_ifs
  · exact hadvance.trans (finishLane_outward _ lane hadvance.2.1)
  · exact hadvance

theorem surveyLane_outward (e : MissionEngine K) (lane : Lane K) (entry : Vec3 K) (s : Sample K)
    (hp : e.phase.outbound) : Outward e (e.surveyLane lane entry s).1 := by
  unfold surveyLane
  split
  · exact ⟨rfl, rfl, rfl⟩
  · exact followLane_outward e lane s hp

theorem tickLane_outward {e e' : MissionEngine K} {s : Sample K} {sp : Option (Setpoint K)}
    (hp : e.phase.outbound) (h : e.tickLane s = .ok (e', sp)) : Outward e e' := by
  unfold tickLane at h
  split at h
  · cases h
  · rename_i lane hlane
    simp only at h
    split_ifs at h
    · exact fst_of_ok h ▸ Outward.of_control hp rfl rfl
    · exact fst_of_ok h ▸
        surveyLane_outward ({ e with laneEntered := true } : MissionEngine K) lane _ s hp

theorem hoverDip_outward (e : MissionEngine K) (i : ℕ) (t : K) (hp : e.phase.outbound) :
    Outward e (e.hoverDip i t) := by
  unfold hoverDip
  simp only
  split_ifs
  · exact ⟨rfl, rfl, rfl⟩
  · exact ⟨rfl, hp, rfl⟩

theorem tickDip_outward {e e' : MissionEngine K} {s : Sample K} {sp : Option (Setpoint K)}
    (hp : e.phase.outbound) (h : e.tickDip s = .ok (e', sp)) : Outward e e' := by
  unfold tickDip at h
  split at h
  · cases h
  · rename_i i c hc
    simp only at h
    rw [← fst_of_ok h]
    split_ifs
    · exact hoverDip_outward e i s.t hp
    · exact .of_control hp rfl rfl

theorem petalHold_frame (e : MissionEngine K) (t holdS : K) (stable : Bool) :
    (e.petalHold t holdS stable).1.control = e.control ∧
      (e.petalHold t holdS stable).1.plan = e.plan := by
  unfold petalHold
  split
  · split
    · exact ⟨rfl, rfl⟩
    · split <;> exact ⟨rfl, rfl⟩
  · exact ⟨rfl, rfl⟩

theorem petalCenter_outward (e : MissionEngine K) (center : Vec3 K) (s : Sample K)
    (hp : e.phase.outbound) : Outward e (e.petalCenter center s).1 := by
  unfold petalCenter
  simp only
  have hframe := petalHold_frame e s.t e.cfg.rosetteCenterHoldS
    (s.horizontalValid && s.surveyReady && e.reached s.pos center && e.stopped s.vel)
  split
  · rename_i held hheld
    rw [hheld] at hframe
    split_ifs
    · exact ⟨congrArg (Control.move · .dump) hframe.1, rfl, hframe.2⟩
    · exact Outward.of_control hp hframe.1 hframe.2
  · rename_i held hheld
    rw [hheld] at hframe
    exact Outward.of_control hp hframe.1 hframe.2

theorem petalLeg_outward (e : MissionEngine K) (center outer : Vec3 K) (s : Sample K)
    (hp : e.phase.outbound) : Outward e (e.petalLeg center outer s).1 := by
  unfold petalLeg
  split
  · split_ifs <;> exact Outward.of_control hp rfl rfl
  · simp only
    have hframe := petalHold_frame e s.t e.cfg.rosetteOuterHoldS
      (e.reached s.pos outer && e.stopped s.vel)
    split
    · rename_i held hheld
      rw [hheld] at hframe
      exact Outward.of_control hp hframe.1 hframe.2
    · rename_i held hheld
      rw [hheld] at hframe
      exact Outward.of_control hp hframe.1 hframe.2
  · split_ifs <;> exact Outward.of_control hp rfl rfl

theorem tickRosette_outward {e e' : MissionEngine K} {s : Sample K} {sp : Option (Setpoint K)}
    (hp : e.phase.outbound) (h : e.tickRosette s = .ok (e', sp)) : Outward e e' := by
  unfold tickRosette at h
  cases hhome : e.home with
  | error fault => simp [hhome, bind, Except.bind] at h
  | ok home =>
    simp only [hhome, bind, Except.bind] at h
    split_ifs at h with hstage
    · exact fst_of_ok h ▸ petalCenter_outward e _ s hp
    · split at h
      · cases h
      · exact fst_of_ok h ▸ petalLeg_outward e _ _ s hp

theorem tickSurvey_outward {e e' : MissionEngine K} {s : Sample K} {sp : Option (Setpoint K)}
    (hp : e.phase.outbound) (h : e.tickSurvey s = .ok (e', sp)) : Outward e e' := by
  unfold tickSurvey at h
  split at h
  · exact tickRosette_outward hp h
  · exact tickLane_outward hp h

theorem freezeHome_frame (e : MissionEngine K) (s : Sample K) :
    (e.freezeHome s).control = e.control ∧ (e.freezeHome s).plan = e.plan := by
  unfold freezeHome
  split <;> exact ⟨rfl, rfl⟩

theorem finishSync_outward (e : MissionEngine K) (t : K) (hp : e.phase.outbound) :
    Outward e (e.finishSync t) := by
  unfold finishSync
  split_ifs
  · exact ⟨rfl, rfl, rfl⟩
  · exact .of_control hp rfl rfl

theorem tickSync_outward {e e' : MissionEngine K} {s : Sample K} {sp : Option (Setpoint K)}
    (hp : e.phase.outbound) (h : e.tickSync s = .ok (e', sp)) : Outward e e' := by
  have hfreeze : Outward e (e.freezeHome s) :=
    .of_control hp (freezeHome_frame e s).1 (freezeHome_frame e s).2
  have hsync := hfreeze.trans (finishSync_outward (e.freezeHome s) s.t hfreeze.2.1)
  unfold tickSync at h
  simp only [bind, Except.bind] at h
  split at h
  · cases h
  · exact fst_of_ok h ▸ hsync

theorem tickTakeoff_outward {e e' : MissionEngine K} {s : Sample K} {sp : Option (Setpoint K)}
    (hp : e.phase.outbound) (h : e.tickTakeoff s = .ok (e', sp)) : Outward e e' := by
  unfold tickTakeoff at h
  simp only [bind, Except.bind] at h
  split at h
  · cases h
  · split_ifs at h
    · have hlane : Outward e { e with phase := .lane } := ⟨rfl, rfl, rfl⟩
      exact hlane.trans (tickSurvey_outward rfl h)
    · obtain ⟨rfl, -⟩ := Prod.mk.inj (Except.ok.inj h)
      exact ⟨rfl, hp, rfl⟩

/-! ## One pass of the sequencer -/

/-- What the branches of the sequencer do to the control record. -/
inductive PhaseMove (e : MissionEngine K) (s : Sample K) : Control K → Prop
  | outward (p : Phase) (hfrom : e.phase.outbound) (hto : p.outbound)
    (hdump : e.phase = .dump → p = .dump ∧ e.dumpAcked = false) :
    PhaseMove e s (e.control.move p)
  | stay (h : e.phase = .abort ∨ e.phase = .land ∨ e.phase = .done) : PhaseMove e s e.control
  | arrive (h : e.phase = .abort) : PhaseMove e s (e.control.settling false)
  | settleAfterDump (h : e.phase = .dump) (hacked : e.dumpAcked) :
    PhaseMove e s (e.control.settling true)
  | settleReset (h : e.phase = .settle) :
    PhaseMove e s { e.control with settleT0 := none }
  | settleStart (h : e.phase = .settle) (hready : e.settleReady s) (h0 : e.settleT0 = none) :
    PhaseMove e s { e.control with settleT0 := some s.t }
  | settleWait (t0 : K) (h : e.phase = .settle) (hready : e.settleReady s)
    (h0 : e.settleT0 = some t0) : PhaseMove e s e.control
  | settleEnd (t0 : K) (h : e.phase = .settle) (hready : e.settleReady s)
    (h0 : e.settleT0 = some t0) (hspan : e.cfg.landSettleS ≤ s.t - t0) :
    PhaseMove e s (e.control.move e.settleNextPhase)
  | touchdown (h : e.phase = .land) : PhaseMove e s (e.control.move .done)

theorem tickEgress_move (e : MissionEngine K) (s : Sample K)
    (h : e.phase = .egress ∨ e.phase = .abort) : PhaseMove e s (e.tickEgress s).1.control := by
  unfold tickEgress
  simp only
  obtain hegress | habort := h
  · split_ifs
    · exact .outward .dump (by rw [hegress]; rfl) rfl fun hd => by simp [hegress] at hd
    · exact .outward e.phase (by rw [hegress]; rfl) (by rw [hegress]; rfl)
        fun hd => by simp [hegress] at hd
  · have hne : e.phase ≠ .egress := by simp [habort]
    split_ifs
    · exact .arrive habort
    · exact .stay (Or.inl habort)

theorem tickSettle_move (e : MissionEngine K) (s : Sample K) (h : e.phase = .settle) :
    PhaseMove e s (e.tickSettle s).1.control := by
  unfold tickSettle
  simp only
  split_ifs with hready
  · split
    · rename_i h0
      exact .settleStart h hready h0
    · rename_i t0 h0
      split_ifs with hspan
      · exact .settleEnd t0 h hready h0 hspan
      · exact .settleWait t0 h hready h0
  · exact .settleReset h

theorem tickDump_move (e : MissionEngine K) (s : Sample K) (h : e.phase = .dump) :
    PhaseMove e s e.tickDump.1.control := by
  unfold tickDump
  simp only
  split_ifs with hacked
  · exact .settleAfterDump h hacked
  · exact .outward e.phase (by rw [h]; rfl) (by rw [h]; rfl)
      fun _ => ⟨h, Bool.not_eq_true _ ▸ hacked⟩

theorem tickLand_move (e : MissionEngine K) (s : Sample K) (h : e.phase = .land) :
    PhaseMove e s (e.tickLand s).1.control := by
  unfold tickLand
  simp only
  split_ifs
  · exact .touchdown h
  · exact .stay (Or.inr (Or.inl h))

theorem tickEgress_plan (e : MissionEngine K) (s : Sample K) :
    (e.tickEgress s).1.plan = e.plan := by
  unfold tickEgress
  simp only
  split_ifs <;> rfl

theorem tickSettle_plan (e : MissionEngine K) (s : Sample K) :
    (e.tickSettle s).1.plan = e.plan := by
  unfold tickSettle
  simp only
  split_ifs
  · split
    · rfl
    · split_ifs <;> rfl
  · rfl

theorem tickDump_plan (e : MissionEngine K) : e.tickDump.1.plan = e.plan := by
  unfold tickDump
  simp only
  split_ifs <;> rfl

theorem tickLand_plan (e : MissionEngine K) (s : Sample K) : (e.tickLand s).1.plan = e.plan := by
  unfold tickLand
  simp only
  split_ifs <;> rfl

theorem Outward.phaseMove {e e' : MissionEngine K} (s : Sample K) (hp : e.phase.outbound)
    (hdump : e.phase ≠ .dump) (h : Outward e e') : PhaseMove e s e'.control := by
  obtain ⟨hc, hout, -⟩ := h
  rw [hc]
  exact .outward e'.phase hp hout fun hd => absurd hd hdump

theorem tickPhase_move {e e' : MissionEngine K} {s : Sample K} {sp : Option (Setpoint K)}
    (h : e.tickPhase s = .ok (e', sp)) : PhaseMove e s e'.control := by
  unfold tickPhase at h
  split at h
  case h_1 hphase =>
    obtain ⟨rfl, -⟩ := Prod.mk.inj (Except.ok.inj h)
    exact .outward e.phase (by rw [hphase]; rfl) (by rw [hphase]; rfl)
      fun hd => by simp [hphase] at hd
  case h_2 hphase =>
    have hp : e.phase.outbound := by rw [hphase]; rfl
    exact (tickSync_outward hp h).phaseMove s hp (by rw [hphase]; decide)
  case h_3 hphase =>
    have hp : e.phase.outbound := by rw [hphase]; rfl
    exact (tickTakeoff_outward hp h).phaseMove s hp (by rw [hphase]; decide)
  case h_4 hphase =>
    have hp : e.phase.outbound := by rw [hphase]; rfl
    exact (tickSurvey_outward hp h).phaseMove s hp (by rw [hphase]; decide)
  case h_5 hphase =>
    have hp : e.phase.outbound := by rw [hphase]; rfl
    exact (tickDip_outward hp h).phaseMove s hp (by rw [hphase]; decide)
  case h_6 hphase =>
    exact fst_of_ok h ▸ tickEgress_move e s (Or.inl hphase)
  case h_7 hphase =>
    exact fst_of_ok h ▸ tickEgress_move e s (Or.inr hphase)
  case h_8 hphase =>
    exact fst_of_ok h ▸ tickSettle_move e s hphase
  case h_9 hphase =>
    exact fst_of_ok h ▸ tickDump_move e s hphase
  case h_10 hphase =>
    exact fst_of_ok h ▸ tickLand_move e s hphase
  case h_11 hphase =>
    obtain ⟨rfl, -⟩ := Prod.mk.inj (Except.ok.inj h)
    exact .stay (Or.inr (Or.inr hphase))

theorem tickPhase_plan {e e' : MissionEngine K} {s : Sample K} {sp : Option (Setpoint K)}
    (h : e.tickPhase s = .ok (e', sp)) : e'.plan = e.plan := by
  unfold tickPhase at h
  split at h
  case h_2 hphase => exact (tickSync_outward (by rw [hphase]; rfl) h).2.2
  case h_3 hphase => exact (tickTakeoff_outward (by rw [hphase]; rfl) h).2.2
  case h_4 hphase => exact (tickSurvey_outward (by rw [hphase]; rfl) h).2.2
  case h_5 hphase => exact (tickDip_outward (by rw [hphase]; rfl) h).2.2
  case h_6 => exact fst_of_ok h ▸ tickEgress_plan e s
  case h_7 => exact fst_of_ok h ▸ tickEgress_plan e s
  case h_8 => exact fst_of_ok h ▸ tickSettle_plan e s
  case h_9 => exact fst_of_ok h ▸ tickDump_plan e
  case h_10 => exact fst_of_ok h ▸ tickLand_plan e s
  all_goals exact fst_of_ok h ▸ rfl

/-! ## Guards -/

theorem abortWith_idle (e : MissionEngine K) (reason : AbortReason K)
    (h : e.phase = .abort ∨ e.phase = .done) : e.abortWith reason = e := by
  unfold abortWith
  exact if_pos h

theorem abortWith_control (e : MissionEngine K) (reason : AbortReason K)
    (h : ¬ (e.phase = .abort ∨ e.phase = .done)) :
    (e.abortWith reason).control = e.control.aborted reason := by
  unfold abortWith
  rw [if_neg h]
  rfl

theorem abortWith_plan (e : MissionEngine K) (reason : AbortReason K) :
    (e.abortWith reason).plan = e.plan := by
  unfold abortWith
  split_ifs <;> rfl

/-- A guard leaves the record or aborts, and keeps the plan. -/
def Guarded (e e' : MissionEngine K) : Prop :=
  e'.plan = e.plan ∧
    (e'.control = e.control ∨ ∃ reason, e'.control = e.control.aborted reason)

theorem Guarded.refl (e : MissionEngine K) : Guarded e e := ⟨rfl, Or.inl rfl⟩

theorem Guarded.trans {e e' e'' : MissionEngine K} (h : Guarded e e') (h' : Guarded e' e'') :
    Guarded e e'' := by
  obtain ⟨hplan, hcases⟩ := h
  obtain ⟨hplan', hcases'⟩ := h'
  refine ⟨hplan'.trans hplan, ?_⟩
  obtain hc | ⟨reason, hc⟩ := hcases'
  · rwa [hc]
  · refine Or.inr ⟨reason, ?_⟩
    obtain hc' | ⟨reason', hc'⟩ := hcases
    · rw [hc, hc']
    · rw [hc, hc']
      rfl

theorem abortWith_guarded (e : MissionEngine K) (reason : AbortReason K) :
    Guarded e (e.abortWith reason) := by
  refine ⟨abortWith_plan e reason, ?_⟩
  by_cases h : e.phase = .abort ∨ e.phase = .done
  · exact Or.inl (by rw [abortWith_idle e reason h])
  · exact Or.inr ⟨reason, abortWith_control e reason h⟩

theorem checkDetector_guarded (e : MissionEngine K) (t : K) : Guarded e (e.checkDetector t) := by
  unfold checkDetector
  split
  · exact .refl e
  · split_ifs
    · exact abortWith_guarded e _
    · exact .refl e

theorem checkResets_guarded (e : MissionEngine K) : Guarded e e.checkResets := by
  unfold checkResets
  split_ifs
  · exact abortWith_guarded e _
  · exact .refl e

theorem checkTimeout_guarded (e : MissionEngine K) (t : K) : Guarded e (e.checkTimeout t) := by
  unfold checkTimeout
  split
  · exact .refl e
  · split_ifs
    · exact abortWith_guarded e _
    · exact .refl e

theorem estimateFenceViolation_guarded (e : MissionEngine K) (p : Point2 K) :
    Guarded e (e.estimateFenceViolation p).1 := by
  unfold estimateFenceViolation
  split_ifs <;> exact ⟨rfl, Or.inl rfl⟩

theorem checkEstimateFence_guarded (e : MissionEngine K) (p : Point2 K) :
    Guarded e (e.checkEstimateFence p) := by
  have hlooked := estimateFenceViolation_guarded e p
  unfold checkEstimateFence
  split
  · rename_i looked violation hlook
    rw [hlook] at hlooked
    exact hlooked.trans (abortWith_guarded looked _)
  · rename_i looked hlook
    rwa [hlook] at hlooked

theorem checkAborts_exempt (e : MissionEngine K) (t : K) (pos : Vec3 K)
    (h : guardExempt e.phase) : e.checkAborts t pos = e := by
  unfold checkAborts
  exact if_pos h

theorem checkAborts_guarded (e : MissionEngine K) (t : K) (pos : Vec3 K) :
    Guarded e (e.checkAborts t pos) := by
  unfold checkAborts
  split_ifs
  · exact .refl e
  · have hd := checkDetector_guarded e t
    have hr := checkResets_guarded (e.checkDetector t)
    have ht := checkTimeout_guarded (e.checkDetector t).checkResets t
    exact ((hd.trans hr).trans ht).trans (checkEstimateFence_guarded _ _)

/-- A guard touches the phase, the reason of an abort and the arming of the fence alone. -/
def GuardFrame (e e' : MissionEngine K) : Prop :=
  ∃ phase reason engaged, e' =
    { e with phase := phase, abortReason := reason, polygonFenceEngaged := engaged }

theorem GuardFrame.refl (e : MissionEngine K) : GuardFrame e e := ⟨_, _, _, rfl⟩

theorem GuardFrame.trans {e e' e'' : MissionEngine K} (h : GuardFrame e e')
    (h' : GuardFrame e' e'') : GuardFrame e e'' := by
  obtain ⟨_, _, _, rfl⟩ := h
  obtain ⟨_, _, _, rfl⟩ := h'
  exact ⟨_, _, _, rfl⟩

theorem abortWith_frame (e : MissionEngine K) (reason : AbortReason K) :
    GuardFrame e (e.abortWith reason) := by
  unfold abortWith
  split_ifs
  · exact .refl e
  · exact ⟨_, _, _, rfl⟩

theorem checkEstimateFence_frame (e : MissionEngine K) (p : Point2 K) :
    GuardFrame e (e.checkEstimateFence p) := by
  have hlooked : GuardFrame e (e.estimateFenceViolation p).1 := by
    unfold estimateFenceViolation
    split_ifs <;> exact ⟨_, _, _, rfl⟩
  unfold checkEstimateFence
  split
  · rename_i looked violation hlook
    rw [hlook] at hlooked
    exact hlooked.trans (abortWith_frame looked _)
  · rename_i looked hlook
    rwa [hlook] at hlooked

theorem checkAborts_frame (e : MissionEngine K) (t : K) (pos : Vec3 K) :
    GuardFrame e (e.checkAborts t pos) := by
  have hdetector : GuardFrame e (e.checkDetector t) := by
    unfold checkDetector
    split
    · exact .refl e
    · split_ifs
      · exact abortWith_frame e _
      · exact .refl e
  have hresets (e : MissionEngine K) : GuardFrame e e.checkResets := by
    unfold checkResets
    split_ifs
    · exact abortWith_frame e _
    · exact .refl e
  have htimeout (e : MissionEngine K) : GuardFrame e (e.checkTimeout t) := by
    unfold checkTimeout
    split
    · exact .refl e
    · split_ifs
      · exact abortWith_frame e _
      · exact .refl e
  unfold checkAborts
  split_ifs
  · exact .refl e
  · exact ((hdetector.trans (hresets _)).trans (htimeout _)).trans (checkEstimateFence_frame _ _)

theorem checkAborts_phase (e : MissionEngine K) (t : K) (pos : Vec3 K) :
    (e.checkAborts t pos).phase = e.phase ∨ (e.checkAborts t pos).phase = .abort := by
  obtain ⟨-, hc | ⟨reason, hc⟩⟩ := checkAborts_guarded e t pos
  · exact Or.inl (congrArg Control.phase hc)
  · exact Or.inr (congrArg Control.phase hc)

/-! ## Phases without a survey -/

theorem tickSync_frame {e e' : MissionEngine K} {s : Sample K} {sp : Option (Setpoint K)}
    (h : e.tickSync s = .ok (e', sp)) : ∃ t0 home phase takeoff,
      e' = { e with syncT0 := t0, homeNe := home, phase := phase, tTakeoff := takeoff } ∧
        (phase = e.phase ∨ phase = .takeoff) ∧ home ≠ none := by
  unfold tickSync at h
  simp only [bind, Except.bind] at h
  split at h
  · cases h
  · rename_i place hplace
    rw [← fst_of_ok h]
    have hhome : ((e.freezeHome s).finishSync s.t).homeNe ≠ none := by
      intro hnone
      unfold home at hplace
      rw [hnone] at hplace
      cases hplace
    generalize hfrozen : e.freezeHome s = frozen at hhome ⊢
    obtain ⟨t0, home, rfl⟩ : ∃ t0 home, frozen = { e with syncT0 := t0, homeNe := home } := by
      rw [← hfrozen]
      unfold freezeHome
      split <;> exact ⟨_, _, rfl⟩
    unfold finishSync at hhome ⊢
    split_ifs at hhome ⊢
    · exact ⟨_, _, _, _, rfl, Or.inr rfl, hhome⟩
    · exact ⟨_, _, _, _, rfl, Or.inl rfl, hhome⟩

theorem tickDip_frame {e e' : MissionEngine K} {s : Sample K} {sp : Option (Setpoint K)}
    (h : e.tickDip s = .ok (e', sp)) : ∃ log dips target t0 entered phase,
      e' = { e with
        log := log
        dipsDone := dips
        dipTarget := target
        dipT0 := t0
        laneEntered := entered
        phase := phase } ∧ (phase = e.phase ∨ phase = .lane) := by
  unfold tickDip at h
  split at h
  · cases h
  · rw [← fst_of_ok h]
    dsimp only
    split
    · unfold hoverDip
      dsimp only
      split
      · exact ⟨_, _, _, _, _, _, rfl, Or.inr rfl⟩
      · exact ⟨_, _, _, _, _, _, rfl, Or.inl rfl⟩
    · exact ⟨_, _, _, _, _, _, rfl, Or.inl rfl⟩

end MissionEngine

/-- The phases after the survey. -/
def Phase.homeward : Phase → Bool
  | .egress | .settle | .dump | .land | .abort | .done => true
  | _ => false

namespace MissionEngine

/-- The way home touches the phase and the records of the settle block alone. -/
def HomeFrame (e e' : MissionEngine K) : Prop :=
  ∃ phase t0 next requires, e' =
    { e with
      phase := phase
      settleT0 := t0
      settleNextPhase := next
      settleRequiresSurveyReady := requires }

/-- Where a step on the way home leads. -/
structure Homeward (e e' : MissionEngine K) : Prop where
  frame : HomeFrame e e'
  phase : e'.phase = e.phase ∨ e.phase = .egress ∧ e'.phase = .dump ∨ e'.phase = .settle ∨
    e'.phase = .land ∨ e'.phase = .done

theorem Homeward.homeward {e e' : MissionEngine K} (h : Homeward e e') (hp : e.phase.homeward) :
    e'.phase.homeward := by
  obtain hsame | ⟨-, hdump⟩ | hsettle | hland | hdone := h.phase
  · rwa [hsame]
  · rw [hdump]
    rfl
  · rw [hsettle]
    rfl
  · rw [hland]
    rfl
  · rw [hdone]
    rfl

theorem Homeward.ne_egress {e e' : MissionEngine K} (h : Homeward e e')
    (hne : e.phase ≠ .egress) : e'.phase ≠ .egress := by
  obtain hsame | ⟨hegress, -⟩ | hsettle | hland | hdone := h.phase
  · rwa [hsame]
  · exact absurd hegress hne
  · simp [hsettle]
  · simp [hland]
  · simp [hdone]

theorem Homeward.refl (e : MissionEngine K) : Homeward e e := ⟨⟨_, _, _, _, rfl⟩, Or.inl rfl⟩

theorem tickEgress_homeward (e : MissionEngine K) (s : Sample K) :
    Homeward e (e.tickEgress s).1 := by
  unfold tickEgress
  dsimp only
  split_ifs with _ hegress
  · exact ⟨⟨_, _, _, _, rfl⟩, Or.inr (Or.inl ⟨hegress, rfl⟩)⟩
  · exact ⟨⟨_, _, _, _, rfl⟩, Or.inr (Or.inr (Or.inl rfl))⟩
  · exact .refl e

theorem tickSettle_homeward (e : MissionEngine K) (s : Sample K) (hnext : e.settleNextPhase = .land) :
    Homeward e (e.tickSettle s).1 := by
  unfold tickSettle
  dsimp only
  split_ifs
  · split
    · exact ⟨⟨_, _, _, _, rfl⟩, Or.inl rfl⟩
    · split_ifs
      · exact ⟨⟨_, _, _, _, rfl⟩, Or.inr (Or.inr (Or.inr (Or.inl hnext)))⟩
      · exact .refl e
  · exact ⟨⟨_, _, _, _, rfl⟩, Or.inl rfl⟩

theorem tickDump_homeward (e : MissionEngine K) : Homeward e e.tickDump.1 := by
  unfold tickDump
  dsimp only
  split_ifs
  · exact ⟨⟨_, _, _, _, rfl⟩, Or.inr (Or.inr (Or.inl rfl))⟩
  · exact .refl e

theorem tickLand_homeward (e : MissionEngine K) (s : Sample K) : Homeward e (e.tickLand s).1 := by
  unfold tickLand
  dsimp only
  split_ifs
  · exact ⟨⟨_, _, _, _, rfl⟩, Or.inr (Or.inr (Or.inr (Or.inr rfl)))⟩
  · exact .refl e

/-- The steps on the way home, while a settle phase is followed by the landing. -/
theorem tickPhase_homeward {e e' : MissionEngine K} {s : Sample K} {sp : Option (Setpoint K)}
    (hp : e.phase.homeward) (hnext : e.phase = .settle → e.settleNextPhase = .land)
    (h : e.tickPhase s = .ok (e', sp)) : Homeward e e' := by
  unfold tickPhase at h
  split at h
  case h_6 | h_7 => exact fst_of_ok h ▸ tickEgress_homeward e s
  case h_8 hphase => exact fst_of_ok h ▸ tickSettle_homeward e s (hnext hphase)
  case h_9 => exact fst_of_ok h ▸ tickDump_homeward e
  case h_10 => exact fst_of_ok h ▸ tickLand_homeward e s
  case h_11 => exact fst_of_ok h ▸ .refl e
  all_goals
    rename_i hphase
    rw [hphase] at hp
    exact absurd hp (by decide)

/-! ## One tick -/

/-- A tick that aborted an outbound mission, and may have reached the egress
point at once. -/
def Aborts (e e' : MissionEngine K) : Prop :=
  e.phase.outbound ∧ e.phase ≠ .dump ∧ ∃ reason, e'.control = e.control.aborted reason ∨
    e'.control = (e.control.aborted reason).settling false

theorem outbound_of_guarded {p : Phase} (h : ¬ guardExempt p) : p.outbound ∧ p ≠ .dump := by
  cases p <;> simp_all [guardExempt, Phase.outbound]

theorem phaseMove_abort {e : MissionEngine K} {s : Sample K} {c : Control K}
    (hp : e.phase = .abort) (h : PhaseMove e s c) :
    c = e.control ∨ c = e.control.settling false := by
  cases h with
  | stay => exact Or.inl rfl
  | arrive => exact Or.inr rfl
  | outward p hfrom => simp [hp, Phase.outbound] at hfrom
  | _ => simp_all

theorem phaseMove_outbound {e : MissionEngine K} {s : Sample K} {c : Control K}
    (hp : e.phase.outbound) (hdump : e.phase ≠ .dump) (h : PhaseMove e s c) :
    ∃ p : Phase, p.outbound ∧ c = e.control.move p := by
  cases h with
  | outward p hfrom hto => exact ⟨p, hto, rfl⟩
  | stay h => obtain h | h | h := h <;> simp [h, Phase.outbound] at hp
  | arrive h => simp [h, Phase.outbound] at hp
  | settleAfterDump h => exact absurd h hdump
  | settleReset h => simp [h, Phase.outbound] at hp
  | settleStart h => simp [h, Phase.outbound] at hp
  | settleWait t0 h => simp [h, Phase.outbound] at hp
  | settleEnd t0 h => simp [h, Phase.outbound] at hp
  | touchdown h => simp [h, Phase.outbound] at hp

theorem tickOnce_moves {e e' : MissionEngine K} {s : Sample K} {sp : Option (Setpoint K)}
    (h : e.tickOnce s = .ok (e', sp)) : PhaseMove e s e'.control ∨ Aborts e e' := by
  have hmove := tickPhase_move h
  by_cases hexempt : guardExempt e.phase
  · rw [checkAborts_exempt e s.t s.pos hexempt] at hmove
    exact Or.inl hmove
  · obtain ⟨hout, hdump⟩ := outbound_of_guarded hexempt
    obtain ⟨-, hc | ⟨reason, hc⟩⟩ := checkAborts_guarded e s.t s.pos
    · have hphase : (e.checkAborts s.t s.pos).phase = e.phase := congrArg Control.phase hc
      obtain ⟨p, hp, heq⟩ := phaseMove_outbound (by rwa [hphase]) (by rwa [hphase]) hmove
      rw [heq, hc]
      exact Or.inl (.outward p hout hp fun hd => absurd hd hdump)
    · have hphase : (e.checkAborts s.t s.pos).phase = .abort := congrArg Control.phase hc
      have hcases := phaseMove_abort hphase hmove
      rw [hc] at hcases
      exact Or.inr ⟨hout, hdump, reason, hcases⟩

theorem tickOnce_of_abort {e e' : MissionEngine K} {s : Sample K} {sp : Option (Setpoint K)}
    (hp : e.phase = .abort) (h : e.tickOnce s = .ok (e', sp)) :
    e'.control = e.control ∨ e'.control = e.control.settling false := by
  obtain hmove | habort := tickOnce_moves h
  · exact phaseMove_abort hp hmove
  · simp [Aborts, hp, Phase.outbound] at habort

theorem tickOnce_plan {e e' : MissionEngine K} {s : Sample K} {sp : Option (Setpoint K)}
    (h : e.tickOnce s = .ok (e', sp)) : e'.plan = e.plan :=
  (tickPhase_plan h).trans (checkAborts_guarded e s.t s.pos).1

theorem tick_plan {e e' : MissionEngine K} {s : Sample K} {sp : Option (Setpoint K)}
    (h : e.tick s = .ok (e', sp)) : e'.plan = e.plan := by
  unfold tick at h
  cases honce : e.tickOnce s with
  | error fault => simp [honce, bind, Except.bind] at h
  | ok out =>
    obtain ⟨e1, sp1⟩ := out
    simp only [honce, bind, Except.bind] at h
    have hfirst := tickOnce_plan honce
    split at h
    · have hsecond := tickOnce_plan h
      rw [hsecond, abortWith_plan, hfirst]
    · exact fst_of_ok h ▸ hfirst

/-- The phases in which the command is fenced. -/
theorem commandFence_phase {e : MissionEngine K} {sp : Option (Setpoint K)}
    {violation : FenceViolation K} (h : e.commandViolation sp = some violation) :
    e.phase = .takeoff ∨ e.phase = .lane ∨ e.phase = .verifyDip := by
  unfold commandViolation at h
  split at h
  · cases h
  · split_ifs at h with hactive
    unfold commandFenceActive at hactive
    split_ifs at hactive <;> simp at hactive <;> tauto

/-- A tick is one pass, or two with an abort between them. -/
theorem tick_passes {e e' : MissionEngine K} {s : Sample K} {sp : Option (Setpoint K)}
    (h : e.tick s = .ok (e', sp)) : e.tickOnce s = .ok (e', sp) ∨
      ∃ e1 sp1 violation, e.tickOnce s = .ok (e1, sp1) ∧
        (e1.phase = .takeoff ∨ e1.phase = .lane ∨ e1.phase = .verifyDip) ∧
        (e1.abortWith (.command violation)).tickOnce s = .ok (e', sp) := by
  unfold tick at h
  cases honce : e.tickOnce s with
  | error fault => simp [honce, bind, Except.bind] at h
  | ok out =>
    obtain ⟨e1, sp1⟩ := out
    simp only [honce, bind, Except.bind] at h
    split at h
    · rename_i violation hviolation
      exact Or.inr ⟨e1, sp1, violation, rfl, commandFence_phase hviolation, h⟩
    · exact Or.inl h

/-- A pass that ends in a phase with a command fence began on the way out. -/
theorem first_pass_outbound {e e1 : MissionEngine K} {s : Sample K} {sp1 : Option (Setpoint K)}
    (hnext : e.phase = .settle → e.settleNextPhase = .land) (h : e.tickOnce s = .ok (e1, sp1))
    (hflying : e1.phase = .takeoff ∨ e1.phase = .lane ∨ e1.phase = .verifyDip) :
    ∃ p : Phase, (e.phase.outbound ∧ e.phase ≠ .dump) ∧ e1.control = e.control.move p := by
  obtain hmove | ⟨-, -, reason, hc | hc⟩ := tickOnce_moves h
  · generalize hctl : e1.control = c at hmove
    have hphase : e1.phase = c.phase := by rw [← hctl]; rfl
    cases hmove with
    | outward p hfrom hto hdump =>
      refine ⟨p, ⟨hfrom, fun hd => ?_⟩, rfl⟩
      rw [hphase, (hdump hd).1] at hflying
      simp [Control.move] at hflying
    | settleEnd t0 hsettle _ _ _ =>
      rw [hnext hsettle] at hphase
      simp [hphase, Control.move] at hflying
    | stay hs =>
      rw [hphase] at hflying
      obtain hs | hs | hs := hs <;> simp [control, hs] at hflying
    | settleWait t0 hs =>
      rw [hphase] at hflying
      simp [control, hs] at hflying
    | settleStart hs =>
      rw [hphase] at hflying
      simp [control, hs] at hflying
    | settleReset hs =>
      rw [hphase] at hflying
      simp [control, hs] at hflying
    | _ =>
      rw [hphase] at hflying
      simp [Control.move, Control.settling] at hflying
  · have hphase : e1.phase = .abort := congrArg Control.phase hc
    simp [hphase] at hflying
  · have hphase : e1.phase = .settle := congrArg Control.phase hc
    simp [hphase] at hflying

/-- What a tick does to the control record, while a settle phase is followed by
the landing. -/
theorem tick_moves {e e' : MissionEngine K} {s : Sample K} {sp : Option (Setpoint K)}
    (hnext : e.phase = .settle → e.settleNextPhase = .land) (h : e.tick s = .ok (e', sp)) :
    PhaseMove e s e'.control ∨ Aborts e e' := by
  obtain honce | ⟨e1, sp1, violation, honce, hflying, hagain⟩ := tick_passes h
  · exact tickOnce_moves honce
  · have hnot : ¬ (e1.phase = .abort ∨ e1.phase = .done) := by
      rintro (hp | hp) <;> simp [hp] at hflying
    obtain ⟨p, ⟨hout, hdump⟩, hc⟩ := first_pass_outbound hnext honce hflying
    have haborted := abortWith_control e1 (.command violation) hnot
    have hphase : (e1.abortWith (.command violation)).phase = .abort :=
      congrArg Control.phase haborted
    have hcases := tickOnce_of_abort hphase hagain
    rw [haborted, hc] at hcases
    exact Or.inr ⟨hout, hdump, .command violation, hcases⟩

end MissionEngine

end Mission10.Engine
