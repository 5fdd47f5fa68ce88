import Mission10.Engine.EngineNode
import Mission10.Engine.MissionRuns

/-!
# The node drives the engine

Every callback of the node acts on its engine through the engine's inputs, so a
run of the node contains a run of the engine. Callbacks other than the tick use
only quiet inputs: they neither tick nor report a dump.
-/
namespace Mission10.Engine

set_option linter.unusedSectionVars false

open Runs

variable {K : Type*} [Field K] [LinearOrder K] [MathOps K]

/-- Inputs that leave the phase, or abort. -/
def EngineInput.quiet : EngineInput K → Bool
  | .tick _ | .notifyDumpResult _ | .start => false
  | _ => true

namespace EngineNode

/-- The engine moved by quiet inputs, and what belongs to its life did not move. -/
structure Quiet (n n' : EngineNode K) : Prop where
  params : n'.params = n.params
  begun : n'.begun = n.begun
  dumped : n'.dumped = n.dumped
  engineless : n.engine = none → n'.engine = none
  driven : ∀ e, n.engine = some e → ∃ xs e', n'.engine = some e' ∧
    (∀ x ∈ xs, x.quiet) ∧ run MissionEngine.step e xs = some e'

theorem Quiet.of_eq {n n' : EngineNode K} (hparams : n'.params = n.params)
    (hbegun : n'.begun = n.begun) (hdumped : n'.dumped = n.dumped)
    (hengine : n'.engine = n.engine) : Quiet n n' where
  params := hparams
  begun := hbegun
  dumped := hdumped
  engineless h := hengine.trans h
  driven e h := ⟨[], e, hengine.trans h, by simp, rfl⟩

theorem Quiet.refl (n : EngineNode K) : Quiet n n := .of_eq rfl rfl rfl rfl

theorem Quiet.trans {n n' n'' : EngineNode K} (h : Quiet n n') (h' : Quiet n' n'') :
    Quiet n n'' where
  params := h'.params.trans h.params
  begun := h'.begun.trans h.begun
  dumped := h'.dumped.trans h.dumped
  engineless he := h'.engineless (h.engineless he)
  driven e he := by
    obtain ⟨xs, e', he', hxs, hrun⟩ := h.driven e he
    obtain ⟨ys, e'', he'', hys, hrun'⟩ := h'.driven e' he'
    refine ⟨xs ++ ys, e'', he'', ?_, ?_⟩
    · intro x hx
      obtain hx | hx := List.mem_append.mp hx
      · exact hxs x hx
      · exact hys x hx
    · rw [run_append, hrun]
      exact hrun'

/-- One quiet input to the engine, if there is one. -/
theorem mapEngine_quiet (n : EngineNode K) {f : MissionEngine K → MissionEngine K}
    (x : EngineInput K) (hx : x.quiet) (hf : ∀ e, e.step x = some (f e)) :
    Quiet n (n.mapEngine f) where
  params := rfl
  begun := rfl
  dumped := rfl
  engineless h := by
    change n.engine.map f = none
    rw [h]
    rfl
  driven e h := by
    refine ⟨[x], f e, ?_, by simpa using hx, ?_⟩
    · change n.engine.map f = some (f e)
      rw [h]
      rfl
    · rw [run_cons, hf e]
      rfl

theorem onLocalFrameReset_quiet (n : EngineNode K) (deltaXy : Point2 K) (deltaHeading : K) :
    Quiet n (n.onLocalFrameReset deltaXy deltaHeading) := by
  unfold onLocalFrameReset
  simp only
  split
  · exact .of_eq rfl rfl rfl rfl
  · rename_i e he
    refine ⟨rfl, rfl, rfl, fun hnone => ?_, fun e' he' => ?_⟩
    · exact absurd (he.symm.trans hnone) (by simp)
    · obtain rfl := Option.some.inj (he.symm.trans he')
      exact ⟨[.applyHeadingReset deltaHeading], _, rfl, by simp [EngineInput.quiet], rfl⟩

theorem handleLocalFrameReset_quiet (n : EngineNode K) (msg : LocalPosition K) :
    Quiet n (n.handleLocalFrameReset msg) := by
  unfold handleLocalFrameReset
  split
  · exact .of_eq rfl rfl rfl rfl
  · simp only
    split
    · exact .of_eq rfl rfl rfl rfl
    · refine Quiet.trans ?_ (onLocalFrameReset_quiet _ _ _)
      exact .of_eq rfl rfl rfl rfl

theorem pushPose_quiet (n : EngineNode K) (now : K) : Quiet n (n.pushPose now) := by
  unfold pushPose
  split
  · exact .of_eq rfl rfl rfl rfl
  · exact .refl n

theorem noteDistBottom_quiet (n : EngineNode K) (now : K) (msg : LocalPosition K) :
    Quiet n (n.noteDistBottom now msg) := by
  unfold noteDistBottom
  split_ifs
  · exact .of_eq rfl rfl rfl rfl
  · exact .refl n

theorem posCb_quiet (n : EngineNode K) (nowUs : ℤ) (msg : LocalPosition K) :
    Quiet n (n.posCb nowUs msg) := by
  have hreset := handleLocalFrameReset_quiet n msg
  have htrack : Quiet (n.handleLocalFrameReset msg)
      ((n.handleLocalFrameReset msg).trackPosition msg) := .of_eq rfl rfl rfl rfl
  have hdist := noteDistBottom_quiet ((n.handleLocalFrameReset msg).trackPosition msg)
    (seconds nowUs) msg
  have hcounter := mapEngine_quiet
    (((n.handleLocalFrameReset msg).trackPosition msg).noteDistBottom (seconds nowUs) msg)
    (.noteResetCounter msg.counters.xy) rfl
    (f := fun e => e.noteResetCounter msg.counters.xy) fun _ => rfl
  exact (((hreset.trans htrack).trans hdist).trans hcounter).trans (pushPose_quiet _ _)

theorem anchorGuard_quiet (n : EngineNode K) (reason : String) :
    Quiet n (n.anchorGuard reason) := by
  unfold anchorGuard
  split
  · exact .refl n
  · split_ifs
    · exact .refl n
    · exact mapEngine_quiet n (.requestAbort _) rfl fun _ => rfl
    · exact .refl n
    · exact mapEngine_quiet n (.requestAbort _) rfl fun _ => rfl
    · exact .refl n

theorem observeAnchor_quiet (n : EngineNode K) (tImg : K) (tagId : String) (fix : Point2 K)
    (snap : PoseSnapshot K) : Quiet n (n.observeAnchor tImg tagId fix snap) := by
  unfold observeAnchor
  simp only
  split
  · exact .of_eq rfl rfl rfl rfl
  · refine Quiet.trans ?_ (anchorGuard_quiet _ _)
    exact .of_eq rfl rfl rfl rfl

theorem detect_quiet (snap : PoseSnapshot K) (tImg : K) (n : EngineNode K) (det : Detection K) :
    Quiet n (detect snap tImg n det) := by
  unfold detect
  split
  · exact .refl n
  · simp only
    split
    · exact .refl n
    · rename_i obs hobs
      have hingest : Quiet n (n.mapEngine fun e => e.ingest obs) :=
        mapEngine_quiet n (.ingest obs) rfl fun _ => rfl
      split
      · exact hingest
      · split_ifs
        · exact hingest.trans (observeAnchor_quiet _ _ _ _ _)
        · exact hingest

theorem foldl_detect_quiet (snap : PoseSnapshot K) (tImg : K) (detections : List (Detection K))
    (n : EngineNode K) : Quiet n (detections.foldl (detect snap tImg) n) := by
  induction detections generalizing n with
  | nil => exact .refl n
  | cons det detections ih => exact (detect_quiet snap tImg n det).trans (ih _)

theorem detectionsCb_quiet (n : EngineNode K) (nowUs : ℤ) (tImg : K)
    (detections : List (Detection K)) : Quiet n (n.detectionsCb nowUs tImg detections) := by
  unfold detectionsCb
  split
  · exact .refl n
  · refine Quiet.trans ?_ (foldl_detect_quiet _ _ _ _)
    exact mapEngine_quiet n (.noteDetectorAlive (seconds nowUs)) rfl fun _ => rfl

theorem endCb_quiet (n : EngineNode K) (data : Bool) : Quiet n (n.endCb data) := by
  unfold endCb
  split_ifs
  · refine Quiet.trans ?_ (mapEngine_quiet _ (.requestAbort "operator end_mission") rfl fun _ => rfl)
    exact .of_eq rfl rfl rfl rfl
  · exact .refl n

theorem startCb_quiet (n : EngineNode K) (nowUs : ℤ) (data : Bool) :
    Quiet n (n.startCb nowUs data) := by
  unfold startCb
  split_ifs
  · split
    · exact .refl n
    · exact .of_eq rfl rfl rfl rfl
  · exact .of_eq rfl rfl rfl rfl
  · exact .refl n

theorem watchGround_quiet (n : EngineNode K) (nowUs : ℤ) (msg : DistanceSensor K) :
    Quiet n (n.watchGround nowUs msg).1 := by
  unfold watchGround
  simp only
  split_ifs <;> first | exact .of_eq rfl rfl rfl rfl | (split <;> exact .of_eq rfl rfl rfl rfl)

theorem distCb_quiet (n : EngineNode K) (nowUs : ℤ) (msg : DistanceSensor K) :
    Quiet n (n.distCb nowUs msg).1 := by
  have hwatch := watchGround_quiet n nowUs msg
  unfold distCb
  simp only
  split_ifs
  · exact hwatch.trans (.of_eq rfl rfl rfl rfl)
  · exact hwatch

theorem missionEngine_ok {n : EngineNode K} {e : MissionEngine K} (h : n.missionEngine = .ok e) :
    ∃ cfg, n.missionConfig n.pos.horizontal = .ok cfg ∧ MissionEngine.new cfg n.launchYaw = .ok e := by
  unfold missionEngine at h
  cases hcfg : n.missionConfig n.pos.horizontal with
  | error err =>
    rw [hcfg] at h
    cases h
  | ok cfg =>
    rw [hcfg] at h
    exact ⟨cfg, rfl, h⟩

/-- The node after it has started an engine. -/
def Begins (n n' : EngineNode K) : Prop :=
  n.begun = false ∧ ∃ cfg e, n.missionConfig n.pos.horizontal = .ok cfg ∧
    MissionEngine.new cfg n.launchYaw = .ok e ∧ n' = { n with
      anchorNe := some n.pos.horizontal, engine := some e.start, begun := true }

/-- `begin_survey` is ignored or refused, or starts a new engine. -/
theorem beginCb_cases (n : EngineNode K) (data : Bool) :
    Quiet n (n.beginCb data) ∨ Begins n (n.beginCb data) := by
  unfold beginCb
  split_ifs with hgate
  · exact Or.inl (.refl n)
  · simp only [Bool.or_eq_true, Bool.not_eq_true', not_or, Bool.not_eq_true] at hgate
    split
    · exact Or.inl (.of_eq rfl rfl rfl rfl)
    · rename_i e he
      obtain ⟨cfg, hcfg, hnew⟩ := missionEngine_ok he
      exact Or.inr ⟨hgate.1.2, cfg, e, hcfg, hnew, rfl⟩

/-- What a tick of the node does: the engine ticks and, on the first time it is
found in the dump phase, hears of the send. -/
structure Ticked (n n' : EngineNode K) (e : MissionEngine K) (link : LinkOutcome)
    (sent : Option Bool) : Prop where
  params : n'.params = n.params
  begun : n'.begun = n.begun
  ticked : ∃ s e1 sp, e.tick s = .ok (e1, sp) ∧
    ((e1.phase = .dump ∧ n.dumped = false ∧ n'.dumped = true ∧
        sent = some (sendDump n.params.dumpHost link) ∧
        n'.engine = some (e1.finalizeLog.notifyDumpResult (sendDump n.params.dumpHost link))) ∨
      (¬ (e1.phase = .dump ∧ n.dumped = false) ∧ n'.dumped = n.dumped ∧ sent = none ∧
        n'.engine = some e1))

theorem handOffLanding_quiet (n : EngineNode K) : Quiet n n.handOffLanding := by
  unfold handOffLanding
  split_ifs
  · exact .refl n
  · exact .of_eq rfl rfl rfl rfl
  · exact .refl n

theorem handOffLanding_engine (n : EngineNode K) : n.handOffLanding.engine = n.engine := by
  unfold handOffLanding
  split_ifs <;> rfl

theorem onPhase_engine (n : EngineNode K) (phase : Phase) (link : LinkOutcome) :
    (n.onPhase phase link).1.params = n.params ∧ (n.onPhase phase link).1.begun = n.begun ∧
    ((phase = .dump ∧ n.dumped = false ∧ (n.onPhase phase link).1.dumped = true ∧
        (n.onPhase phase link).2 = some (sendDump n.params.dumpHost link) ∧
        (n.onPhase phase link).1.engine = n.engine.map fun e =>
          e.finalizeLog.notifyDumpResult (sendDump n.params.dumpHost link)) ∨
      (¬ (phase = .dump ∧ n.dumped = false) ∧ (n.onPhase phase link).1.dumped = n.dumped ∧
        (n.onPhase phase link).2 = none ∧ (n.onPhase phase link).1.engine = n.engine)) := by
  unfold onPhase
  by_cases hsend : phase = .dump ∧ n.dumped = false
  · rw [if_pos hsend]
    have hnot : ¬ (phase = .land ∨ phase = .done) := by simp [hsend.1]
    simp only [if_neg hnot]
    exact ⟨rfl, rfl, Or.inl ⟨hsend.1, hsend.2, rfl, rfl, rfl⟩⟩
  · rw [if_neg hsend]
    simp only
    have hland := handOffLanding_quiet n
    split_ifs
    · exact ⟨hland.params, hland.begun,
        Or.inr ⟨hsend, hland.dumped, rfl, handOffLanding_engine n⟩⟩
    · exact ⟨rfl, rfl, Or.inr ⟨hsend, rfl, rfl, rfl⟩⟩

theorem computeSetpoint_ticked {n n' : EngineNode K} {e : MissionEngine K} {nowUs : ℤ}
    {link : LinkOutcome} {reply : NodeReply K} (he : n.engine = some e)
    (h : n.computeSetpoint nowUs link = .ok (n', reply)) : Ticked n n' e link reply.sent := by
  unfold computeSetpoint at h
  simp only [he, bind, Except.bind] at h
  split at h
  · cases h
  · rename_i out htick
    obtain ⟨e1, sp⟩ := out
    obtain ⟨rfl, rfl⟩ := Prod.mk.inj (Except.ok.inj h)
    obtain ⟨hparams, hbegun, hcases⟩ := onPhase_engine
      ({ n with
        correction := n.correction.update (seconds nowUs) (n.correctionMeasurement (seconds nowUs))
        engine := some e1 } : EngineNode K) e1.phase link
    exact ⟨hparams, hbegun, _, e1, sp, htick, hcases⟩

theorem react_activeTick {n n' : EngineNode K} {e : MissionEngine K} {nowUs : ℤ}
    {link : LinkOutcome} {reply : NodeReply K} (he : n.engine = some e)
    (h : n.react (.activeTick nowUs link) = some (n', reply)) :
    Ticked n n' e link reply.sent := by
  change (if n.active && !n.abortRequested then (n.computeSetpoint nowUs link).toOption
    else none) = some (n', reply) at h
  split_ifs at h
  cases hout : n.computeSetpoint nowUs link with
  | error fault =>
    rw [hout] at h
    cases h
  | ok out =>
    rw [hout] at h
    obtain rfl := Option.some.inj h
    exact computeSetpoint_ticked he hout

theorem react_idleTick {n n' : EngineNode K} {nowUs : ℤ} {link : LinkOutcome}
    {reply : NodeReply K} (he : n.engine = none)
    (h : n.react (.activeTick nowUs link) = some (n', reply)) : n' = n ∧ reply = {} := by
  change (if n.active && !n.abortRequested then (n.computeSetpoint nowUs link).toOption
    else none) = some (n', reply) at h
  have hidle : n.computeSetpoint nowUs link = .ok (n, {}) := by
    unfold computeSetpoint
    rw [he]
  rw [hidle] at h
  split_ifs at h
  obtain ⟨rfl, rfl⟩ := Prod.mk.inj (Option.some.inj h)
  exact ⟨rfl, rfl⟩

/-- The cases of a step of the node. -/
theorem react_cases {n n' : EngineNode K} {ev : NodeEvent K} {reply : NodeReply K}
    (h : n.react ev = some (n', reply)) :
    (Quiet n n' ∧ reply.sent = none) ∨
    (Begins n n' ∧ reply.sent = none) ∨
    (∃ nowUs link e, ev = .activeTick nowUs link ∧ n.engine = some e ∧
      Ticked n n' e link reply.sent) := by
  cases ev with
  | position nowUs msg =>
    obtain ⟨rfl, rfl⟩ := Prod.mk.inj (Option.some.inj h)
    exact Or.inl ⟨posCb_quiet n nowUs msg, rfl⟩
  | attitude q =>
    obtain ⟨rfl, rfl⟩ := Prod.mk.inj (Option.some.inj h)
    refine Or.inl ⟨?_, rfl⟩
    unfold attCb
    split_ifs
    · exact .of_eq rfl rfl rfl rfl
    · exact .refl n
  | distance nowUs msg =>
    obtain ⟨rfl, rfl⟩ := Prod.mk.inj (Option.some.inj h)
    exact Or.inl ⟨distCb_quiet n nowUs msg, rfl⟩
  | gps nowUs msg =>
    obtain ⟨rfl, rfl⟩ := Prod.mk.inj (Option.some.inj h)
    exact Or.inl ⟨.of_eq rfl rfl rfl rfl, rfl⟩
  | detections nowUs tImg detections =>
    obtain ⟨rfl, rfl⟩ := Prod.mk.inj (Option.some.inj h)
    exact Or.inl ⟨detectionsCb_quiet n nowUs tImg detections, rfl⟩
  | startGate nowUs data =>
    obtain ⟨rfl, rfl⟩ := Prod.mk.inj (Option.some.inj h)
    exact Or.inl ⟨startCb_quiet n nowUs data, rfl⟩
  | beginGate data =>
    obtain ⟨rfl, rfl⟩ := Prod.mk.inj (Option.some.inj h)
    obtain hquiet | hbegins := beginCb_cases n data
    · exact Or.inl ⟨hquiet, rfl⟩
    · exact Or.inr (Or.inl ⟨hbegins, rfl⟩)
  | endGate data =>
    obtain ⟨rfl, rfl⟩ := Prod.mk.inj (Option.some.inj h)
    exact Or.inl ⟨endCb_quiet n data, rfl⟩
  | abortGate data =>
    obtain ⟨rfl, rfl⟩ := Prod.mk.inj (Option.some.inj h)
    refine Or.inl ⟨?_, rfl⟩
    unfold abortCb
    split_ifs
    · exact .of_eq rfl rfl rfl rfl
    · exact .refl n
  | controllerActive active =>
    obtain ⟨rfl, rfl⟩ := Prod.mk.inj (Option.some.inj h)
    exact Or.inl ⟨.of_eq rfl rfl rfl rfl, rfl⟩
  | vehicleArmed armed =>
    obtain ⟨rfl, rfl⟩ := Prod.mk.inj (Option.some.inj h)
    exact Or.inl ⟨.of_eq rfl rfl rfl rfl, rfl⟩
  | latchLaunch =>
    obtain ⟨rfl, rfl⟩ := Prod.mk.inj (Option.some.inj h)
    refine Or.inl ⟨?_, rfl⟩
    unfold latchLaunchReference
    split_ifs
    · exact .refl n
    · exact .of_eq rfl rfl rfl rfl
  | activeTick nowUs link =>
    cases he : n.engine with
    | none =>
      obtain ⟨rfl, rfl⟩ := react_idleTick he h
      exact Or.inl ⟨.refl _, rfl⟩
    | some e => exact Or.inr (Or.inr ⟨nowUs, link, e, rfl, rfl, react_activeTick he h⟩)

/-! ## Quiet inputs -/

theorem quiet_step_guarded {e e' : MissionEngine K} {x : EngineInput K} (hx : x.quiet)
    (h : e.step x = some e') : MissionEngine.Guarded e e' := by
  cases x with
  | operatorAbort =>
    obtain rfl := Option.some.inj h
    exact MissionEngine.abortWith_guarded e .operator
  | requestAbort reason =>
    obtain rfl := Option.some.inj h
    exact MissionEngine.abortWith_guarded e (.requested reason)
  | tick | notifyDumpResult | start => cases hx
  | _ =>
    obtain rfl := Option.some.inj h
    exact ⟨rfl, Or.inl rfl⟩

theorem quiet_run_guarded {e e' : MissionEngine K} {xs : List (EngineInput K)}
    (hxs : ∀ x ∈ xs, x.quiet) (h : run MissionEngine.step e xs = some e') :
    MissionEngine.Guarded e e' := by
  induction xs generalizing e with
  | nil =>
    obtain rfl := Option.some.inj h
    exact .refl e
  | cons x xs ih =>
    obtain ⟨m, hm, hrun⟩ := run_cons_some _ h
    have hfirst := quiet_step_guarded (hxs x (by simp)) hm
    exact hfirst.trans (ih (fun y hy => hxs y (by simp [hy])) hrun)

/-- What a quiet event leaves of the engine's control record and plan. -/
theorem Quiet.guarded {n n' : EngineNode K} (h : Quiet n n') {e : MissionEngine K}
    (he : n.engine = some e) : ∃ e', n'.engine = some e' ∧ MissionEngine.Guarded e e' := by
  obtain ⟨xs, e', he', hxs, hrun⟩ := h.driven e he
  exact ⟨e', he', quiet_run_guarded hxs hrun⟩

end EngineNode

end Mission10.Engine
