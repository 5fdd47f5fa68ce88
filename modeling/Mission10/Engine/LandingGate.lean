import Mission10.Engine.MissionRuns

/-!
# The landing gate

A landing is the last event of a block of settle ticks. The invariant carries,
beside the state, the history that led to it: where the settle phase was
entered and, once its timer runs, the ready tick that started the timer.
-/
namespace Mission10.Engine

set_option linter.unusedSectionVars false

open Runs

variable {K : Type*} [Field K] [LinearOrder K] [MathOps K]

namespace MissionEngine

/-- The event finds the engine settling and, if it is a tick, ready to land. -/
def BlockTick (afterDump : Prop) (e : MissionEngine K) (x : EngineInput K) : Prop :=
  e.phase = .settle ∧ ∀ s, x = .tick s → s.horizontalValid ∧ e.stopped s.vel ∧
    e.reached s.pos (e.atSurveyAltitude e.egressNe) ∧ (afterDump → s.surveyReady)

/-- The event that took the engine from `e1` into the settle phase at `e2`. -/
structure SettleEntry (e : MissionEngine K) (before : List (EngineInput K))
    (entry : EngineInput K) (e1 e2 : MissionEngine K) : Prop where
  reached : run step e before = some e1
  notYet : e1.phase ≠ .settle
  enters : e1.step entry = some e2
  settling : e2.phase = .settle

/-- The timer started at the ready tick `first`, and no tick since has failed to
be ready. -/
def TimerBlock (afterDump : Prop) (e2 : MissionEngine K) (after : List (EngineInput K)) (t0 : K) :
    Prop :=
  ∃ idle first block e3, after = idle ++ .tick first :: block ∧ first.t = t0 ∧
    run step e2 idle = some e3 ∧ Along step (BlockTick afterDump) e3 (.tick first :: block)

/-- How the engine came to settle. -/
def SettleHistory (e : MissionEngine K) (hist : List (EngineInput K)) (e' : MissionEngine K) :
    Prop :=
  e'.phase = .settle → ∃ before entry after e1 e2, hist = before ++ entry :: after ∧
    SettleEntry e before entry e1 e2 ∧ run step e2 after = some e' ∧
    Along step (fun e _ => e.phase = .settle) e2 after ∧
    (e'.settleRequiresSurveyReady ↔ e1.phase = .dump) ∧
    ∀ t0, e'.settleT0 = some t0 → TimerBlock (e1.phase = .dump) e2 after t0

/-- The settle phase, from the event that entered it to the landing. -/
def LandingBlock (e : MissionEngine K) (hist : List (EngineInput K)) (last : Sample K) : Prop :=
  ∃ before entry idle first block e1 e2 e3,
    hist = before ++ entry :: (idle ++ .tick first :: block) ∧
    SettleEntry e before entry e1 e2 ∧ run step e2 idle = some e3 ∧
    Along step (fun e _ => e.phase = .settle) e2 (idle ++ .tick first :: block) ∧
    Along step (BlockTick (e1.phase = .dump)) e3 (.tick first :: block ++ [.tick last]) ∧
    e.cfg.landSettleS ≤ last.t - first.t

theorem blockTick_of_ready {e : MissionEngine K} {s : Sample K} {afterDump : Prop}
    (hp : e.phase = .settle) (hreq : e.settleRequiresSurveyReady ↔ afterDump)
    (h : e.settleReady s) : BlockTick afterDump e (.tick s) := by
  unfold settleReady at h
  simp only [Bool.and_eq_true, Bool.or_eq_true, Bool.not_eq_true'] at h
  obtain ⟨⟨⟨hvalid, hstopped⟩, hreached⟩, hsurvey⟩ := h
  refine ⟨hp, fun s' hs' => ?_⟩
  obtain rfl := EngineInput.tick.inj hs'
  refine ⟨hvalid, hstopped, hreached, fun hdump => ?_⟩
  obtain hsurvey | hsurvey := hsurvey
  · exact hsurvey
  · rw [hreq.mpr hdump] at hsurvey
    cases hsurvey

theorem blockTick_of_other {e : MissionEngine K} {x : EngineInput K} {afterDump : Prop}
    (hp : e.phase = .settle) (hx : ∀ s, x ≠ .tick s) : BlockTick afterDump e x :=
  ⟨hp, fun s hs => absurd hs (hx s)⟩

theorem TimerBlock.extend {e2 e : MissionEngine K} {after : List (EngineInput K)} {t0 : K}
    {x : EngineInput K} {afterDump : Prop} (hrun : run step e2 after = some e)
    (h : TimerBlock afterDump e2 after t0) (hx : BlockTick afterDump e x) :
    TimerBlock afterDump e2 (after ++ [x]) t0 := by
  obtain ⟨idle, first, block, e3, rfl, ht0, hidle, halong⟩ := h
  have hblock : run step e3 (.tick first :: block) = some e := by
    rw [run_append, hidle] at hrun
    exact hrun
  refine ⟨idle, first, block ++ [x], e3, by simp, ht0, hidle, ?_⟩
  rw [← List.cons_append, along_append step hblock]
  exact ⟨halong, hx, fun _ _ => trivial⟩

/-- What a step inside the settle phase does to the timer. -/
theorem settle_step {e e' : MissionEngine K} {x : EngineInput K} (hs : Ordered e.control)
    (h : e.step x = some e') (hp : e.phase = .settle) (hp' : e'.phase = .settle) :
    e'.settleRequiresSurveyReady = e.settleRequiresSurveyReady ∧
      ((e'.settleT0 = none) ∨
        (∃ s, x = .tick s ∧ e.settleReady s ∧ e'.settleT0 = some s.t) ∨
        (e'.settleT0 = e.settleT0 ∧ ((∃ s, x = .tick s ∧ e.settleReady s) ∨ ∀ s, x ≠ .tick s))) := by
  have hmove := step_moves hs.settleNext h
  have hphase : e'.control.phase = .settle := hp'
  change e'.control.settleRequiresSurveyReady = _ ∧ (e'.control.settleT0 = _ ∨
    (∃ s, _ ∧ _ ∧ e'.control.settleT0 = _) ∨ (e'.control.settleT0 = _ ∧ _))
  generalize e'.control = c at hmove hphase ⊢
  cases hmove with
  | tick s hmove =>
    cases hmove with
    | settleReset => exact ⟨rfl, Or.inl rfl⟩
    | settleStart _ hready => exact ⟨rfl, Or.inr (Or.inl ⟨s, rfl, hready, rfl⟩)⟩
    | settleWait t0 _ hready => exact ⟨rfl, Or.inr (Or.inr ⟨rfl, Or.inl ⟨s, rfl, hready⟩⟩)⟩
    | settleEnd =>
      have hnext : e.settleNextPhase = .land := hs.settleNext hp
      change e.settleNextPhase = .settle at hphase
      rw [hnext] at hphase
      cases hphase
    | outward p hfrom => simp [hp, Phase.outbound] at hfrom
    | stay hq => simp [hp] at hq
    | arrive hq | settleAfterDump hq | touchdown hq => simp [hp] at hq
  | other _ _ hx => exact ⟨rfl, Or.inr (Or.inr ⟨rfl, Or.inr hx⟩)⟩
  | ignored _ _ hq => simp [hp] at hq
  | request => cases hphase
  | tickAborts s reason hout | tickAbortsHome s reason hout => simp [hp, Phase.outbound] at hout
  | dumpAcked hq | dumpFailed hq | dumpExhausted hq | start hq => simp [hp] at hq

/-- A step into the settle phase stops the timer and asks for a ready survey
exactly after the dump. -/
theorem settle_enter {e e' : MissionEngine K} {x : EngineInput K} (hs : Ordered e.control)
    (h : e.step x = some e') (hp : e.phase ≠ .settle) (hp' : e'.phase = .settle) :
    e'.settleT0 = none ∧ (e'.settleRequiresSurveyReady ↔ e.phase = .dump) := by
  have hmove := step_moves hs.settleNext h
  have hphase : e'.control.phase = .settle := hp'
  change e'.control.settleT0 = none ∧ (e'.control.settleRequiresSurveyReady ↔ _)
  generalize e'.control = c at hmove hphase ⊢
  cases hmove with
  | tick s hmove =>
    cases hmove with
    | arrive hq => exact ⟨rfl, by simp [Control.settling, hq]⟩
    | settleAfterDump hq => exact ⟨rfl, by simp [Control.settling, hq]⟩
    | outward p hfrom hto =>
      have hsettle : p = .settle := hphase
      simp [hsettle, Phase.outbound] at hto
    | stay => exact absurd hphase hp
    | touchdown => cases hphase
    | settleReset hq | settleStart hq | settleWait t0 hq | settleEnd t0 hq => exact absurd hq hp
  | tickAbortsHome s reason hout hdump => exact ⟨rfl, by simp [Control.settling, hdump]⟩
  | tickAborts | request | dumpExhausted | start => cases hphase
  | other | ignored => exact absurd hphase hp
  | dumpAcked hq => exact absurd hphase hp
  | dumpFailed hq => exact absurd hphase hp

theorem settleHistory_step {e0 e e' : MissionEngine K} {hist : List (EngineInput K)}
    {x : EngineInput K} (hs : Ordered e.control) (hrun : run step e0 hist = some e)
    (hinv : SettleHistory e0 hist e) (h : e.step x = some e') :
    SettleHistory e0 (hist ++ [x]) e' := by
  intro hp'
  by_cases hp : e.phase = .settle
  · obtain ⟨before, entry, after, e1, e2, rfl, hentry, hafter, halong, hreq, htimer⟩ := hinv hp
    obtain ⟨hreq', hcases⟩ := settle_step hs h hp hp'
    have hlonger : run step e2 (after ++ [x]) = some e' := by
      rw [run_append, hafter]
      simp [run_cons, h]
    have hphases : Along step (fun e _ => e.phase = .settle) e2 (after ++ [x]) := by
      rw [along_append step hafter]
      exact ⟨halong, hp, fun _ _ => trivial⟩
    refine ⟨before, entry, after ++ [x], e1, e2, by simp, hentry, hlonger, hphases, ?_, ?_⟩
    · rw [hreq']
      exact hreq
    · intro t0 ht0
      obtain hnone | ⟨s, rfl, hready, hstart⟩ | ⟨hsame, hx⟩ := hcases
      · rw [hnone] at ht0
        cases ht0
      · rw [hstart] at ht0
        refine ⟨after, s, [], e, rfl, Option.some.inj ht0, hafter, ?_⟩
        exact ⟨blockTick_of_ready hp hreq hready, fun _ _ => trivial⟩
      · rw [hsame] at ht0
        refine (htimer t0 ht0).extend hafter ?_
        obtain ⟨s, rfl, hready⟩ | hx := hx
        · exact blockTick_of_ready hp hreq hready
        · exact blockTick_of_other hp hx
  · obtain ⟨hnone, hreq⟩ := settle_enter hs h hp hp'
    refine ⟨hist, x, [], e, e', rfl, ⟨hrun, hp, h, hp'⟩, rfl, trivial, hreq, ?_⟩
    intro t0 ht0
    rw [hnone] at ht0
    cases ht0

/-- The dump was acknowledged while the engine waited for it. -/
def AckHistory (e0 : MissionEngine K) (hist : List (EngineInput K)) : Prop :=
  ∃ before after e1, hist = before ++ .notifyDumpResult true :: after ∧
    run step e0 before = some e1 ∧ e1.phase = .dump

theorem ackHistory_step {e0 e e' : MissionEngine K} {hist : List (EngineInput K)}
    {x : EngineInput K} (hs : Ordered e.control) (hrun : run step e0 hist = some e)
    (hinv : e.dumpAcked → AckHistory e0 hist) (h : e.step x = some e') :
    e'.dumpAcked → AckHistory e0 (hist ++ [x]) := by
  have hkeep : e.dumpAcked → AckHistory e0 (hist ++ [x]) := by
    intro hacked
    obtain ⟨before, after, e1, rfl, hbefore, hdump⟩ := hinv hacked
    exact ⟨before, after ++ [x], e1, by simp, hbefore, hdump⟩
  have hmove := step_moves hs.settleNext h
  change e'.control.dumpAcked → _
  generalize e'.control = c at hmove
  cases hmove with
  | dumpAcked hdump => exact fun _ => ⟨hist, [], e, rfl, hrun, hdump⟩
  | tick s hmove => cases hmove <;> exact hkeep
  | _ => exact hkeep

/-- What the history of a state says about its settle phase and its dump. -/
structure Recorded (e0 : MissionEngine K) (hist : List (EngineInput K)) (e : MissionEngine K) :
    Prop where
  ordered : Ordered e.control
  reached : run step e0 hist = some e
  plan : e.plan = e0.plan
  settle : SettleHistory e0 hist e
  ack : e.dumpAcked → AckHistory e0 hist

theorem recorded_run {e0 e : MissionEngine K} {hist : List (EngineInput K)}
    (hs : Ordered e0.control) (hnot : e0.phase ≠ .settle) (hack : e0.dumpAcked = false)
    (h : run step e0 hist = some e) : Recorded e0 hist e := by
  refine run_history step (Recorded e0) ?_ ?_ h
  · intro hist e x e' hrec hstep
    refine ⟨step_ordered hrec.ordered hstep, ?_, (step_plan hstep).trans hrec.plan, ?_, ?_⟩
    · rw [run_append, hrec.reached]
      simp [run_cons, hstep]
    · exact settleHistory_step hrec.ordered hrec.reached hrec.settle hstep
    · exact ackHistory_step hrec.ordered hrec.reached hrec.ack hstep
  · refine ⟨hs, rfl, rfl, fun hp => absurd hp hnot, fun hacked => ?_⟩
    rw [hack] at hacked
    cases hacked

theorem land_step {e e' : MissionEngine K} {x : EngineInput K} (hs : Ordered e.control)
    (h : e.step x = some e') (hp : e.phase ≠ .land) (hp' : e'.phase = .land) :
    ∃ s t0, x = .tick s ∧ e.phase = .settle ∧ e.settleReady s ∧ e.settleT0 = some t0 ∧
      e.cfg.landSettleS ≤ s.t - t0 := by
  have hmove := step_moves hs.settleNext h
  have hphase : e'.control.phase = .land := hp'
  generalize e'.control = c at hmove hphase
  cases hmove with
  | tick s hmove =>
    cases hmove with
    | settleEnd t0 hq hready h0 hspan => exact ⟨s, t0, rfl, hq, hready, h0, hspan⟩
    | outward p hfrom hto =>
      have hland : p = .land := hphase
      simp [hland, Phase.outbound] at hto
    | arrive | settleAfterDump | touchdown => cases hphase
    | _ => exact absurd hphase hp
  | tickAborts | tickAbortsHome | request | dumpExhausted | start => cases hphase
  | _ => exact absurd hphase hp

theorem done_step {e e' : MissionEngine K} {x : EngineInput K} (hs : Ordered e.control)
    (h : e.step x = some e') (hp : e.phase ≠ .done) (hp' : e'.phase = .done) :
    e.phase = .land := by
  have hmove := step_moves hs.settleNext h
  have hphase : e'.control.phase = .done := hp'
  generalize e'.control = c at hmove hphase
  cases hmove with
  | tick s hmove =>
    cases hmove with
    | touchdown hq => exact hq
    | settleEnd t0 hq =>
      have hnext : e.settleNextPhase = .land := hs.settleNext hq
      change e.settleNextPhase = .done at hphase
      rw [hnext] at hphase
      cases hphase
    | outward p hfrom hto =>
      have hdone : p = .done := hphase
      simp [hdone, Phase.outbound] at hto
    | arrive | settleAfterDump => cases hphase
    | _ => exact absurd hphase hp
  | tickAborts | tickAbortsHome | request | dumpExhausted | start => cases hphase
  | _ => exact absurd hphase hp

/-- The landing starts at the end of a block of ready settle ticks that spans the
settle time, the mission ends only after a landing, and a mission that lands
without an abort has had its dump acknowledged. -/
theorem landing_gate {cfg : MissionConfig K} {yaw : K} {e0 e : MissionEngine K}
    {hist : List (EngineInput K)} (hnew : new cfg yaw = .ok e0)
    (hrun : run step e0 hist = some e) :
    (∀ x e', e.step x = some e' → e.phase ≠ .land → e'.phase = .land →
      e.phase = .settle ∧ ∃ last, x = .tick last ∧ LandingBlock e0 hist last) ∧
    (∀ x e', e.step x = some e' → e.phase ≠ .done → e'.phase = .done → e.phase = .land) ∧
    (e.phase = .land → e.abortReason = none → AckHistory e0 hist) := by
  have hc := (new_control hnew).1
  have hstart : e0.phase ≠ .settle := by
    have hphase : e0.phase = .preflight := congrArg Control.phase hc
    simp [hphase]
  have hunacked : e0.dumpAcked = false := congrArg Control.dumpAcked hc
  have hrec := recorded_run (new_ordered hnew) hstart hunacked hrun
  refine ⟨fun x e' hstep hp hp' => ?_, fun x e' hstep => done_step hrec.ordered hstep, ?_⟩
  · obtain ⟨last, t0, rfl, hsettle, hready, h0, hspan⟩ := land_step hrec.ordered hstep hp hp'
    obtain ⟨before, entry, after, e1, e2, hhist, hentry, hafter, halong, hreq, htimer⟩ :=
      hrec.settle hsettle
    have hlast := blockTick_of_ready hsettle hreq hready
    obtain ⟨idle, first, block, e3, rfl, rfl, hidle, hblock⟩ := htimer t0 h0
    have hend : run step e3 (.tick first :: block) = some e := by
      rw [run_append, hidle] at hafter
      exact hafter
    have hcfg : e.cfg = e0.cfg := congrArg SurveyPlan.cfg hrec.plan
    refine ⟨hsettle, last, rfl, before, entry, idle, first, block, e1, e2, e3, hhist, hentry,
      hidle, halong, ?_, hcfg ▸ hspan⟩
    rw [along_append step hend]
    exact ⟨hblock, hlast, fun _ _ => trivial⟩
  · intro hland hnone
    have hin : ¬ e.control.phase.outbound := by
      change ¬ e.phase.outbound
      simp [hland, Phase.outbound]
    exact hrec.ack (hrec.ordered.acked hin hnone)

/-- One lane, the dump and its acknowledgement, and the settle phase. -/
def surveyToLanding : List (EngineInput ℚ) :=
  let still : Vec3 ℚ := ⟨0, 0, 0⟩
  let home : Vec3 ℚ := ⟨0, 0, -6⟩
  let laneEnd : Vec3 ℚ := ⟨20, 0, -6⟩
  [.start, .tick ⟨0, still, still, true, true⟩, .tick ⟨2, still, still, true, true⟩,
    .tick ⟨4, home, still, true, true⟩, .tick ⟨14, laneEnd, still, true, true⟩,
    .tick ⟨24, home, still, true, true⟩, .notifyDumpResult true,
    .tick ⟨25, home, still, true, true⟩, .tick ⟨26, home, still, true, true⟩]

theorem landing_gate_after_survey : ∃ last, LandingBlock oneLaneEngine surveyToLanding last := by
  let landing : EngineInput ℚ := .tick ⟨29, ⟨0, 0, -6⟩, ⟨0, 0, 0⟩, true, true⟩
  have hland : (run step oneLaneEngine (surveyToLanding ++ [landing])).map (·.phase) =
      some .land := by decide +kernel
  have hsettle : (run step oneLaneEngine surveyToLanding).map (·.phase) = some .settle := by
    decide +kernel
  obtain ⟨e', hrun', hp'⟩ := Option.map_eq_some_iff.mp hland
  obtain ⟨e, hrun, hstep⟩ := run_snoc_some step hrun'
  rw [hrun] at hsettle
  have hp : e.phase ≠ .land := by simp [Option.some.inj hsettle]
  obtain ⟨hgate, -, -⟩ := landing_gate oneLaneEngine_new hrun
  obtain ⟨-, last, -, hblock⟩ := hgate landing e' hstep hp hp'
  exact ⟨last, hblock⟩

end MissionEngine

end Mission10.Engine
