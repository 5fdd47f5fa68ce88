import Mission10.Engine.NodeRuns

/-!
# Delivery of the payload

The engine counts failed attempts and waits in the dump phase until one is
acknowledged; the node latches that it has sent. Together they send once: the
dump resolves in exactly the runs in which that send is acknowledged.
-/
namespace Mission10.Engine

set_option linter.unusedSectionVars false

open Runs MissionEngine

variable {K : Type*} [Field K] [LinearOrder K] [MathOps K]

namespace EngineNode

/-- The engine waits for an acknowledgement and has attempts left. -/
def DumpPending (n : EngineNode K) : Prop :=
  ∃ e, n.engine = some e ∧ e.phase = .dump ∧ e.dumpAcked = false ∧
    (e.dumpAttempts : ℤ) < e.cfg.dumpRetryLimit

/-- No continuation sends the payload. -/
def NeverSends (n : EngineNode K) : Prop :=
  ∀ es n' ev out, run step n es = some n' → n'.react ev = some out → out.2.sent = none

/-- An acknowledged dump is left for the settle phase by the next tick. -/
def AckLeaves (n : EngineNode K) : Prop :=
  ∀ e, n.engine = some e → e.phase = .dump → e.dumpAcked → ∀ nowUs link out,
    n.react (.activeTick nowUs link) = some out →
      ∃ e', out.1.engine = some e' ∧ e'.phase = .settle

/-- A failed send is counted, and the last one allowed aborts. -/
def ExhaustionLeaves (n : EngineNode K) : Prop :=
  ∀ ev out, n.react ev = some out → out.2.sent = some false →
    ∃ e e', n.engine = some e ∧ out.1.engine = some e' ∧
      e'.dumpAttempts = e.dumpAttempts + 1 ∧
      (e'.cfg.dumpRetryLimit ≤ e'.dumpAttempts → e'.phase = .abort)

/-- The dump of the state is not stuck and is left as it should be. -/
def Resolves (n : EngineNode K) : Prop :=
  ¬ (n.DumpPending ∧ n.NeverSends) ∧ n.AckLeaves ∧ n.ExhaustionLeaves

/-- The event is no send that fails. -/
def NoFailedSend (n : EngineNode K) (ev : NodeEvent K) : Prop :=
  ∀ out, n.react ev = some out → out.2.sent ≠ some false

/-! ## The invariant -/

/-- How the engine's dump belongs together with the node's latch. -/
structure Latched (dumped : Bool) (c : Control K) : Prop where
  ordered : Ordered c
  sending : c.phase = .dump → dumped
  unsent : dumped = false → c.dumpAttempts = 0 ∧ c.dumpAcked = false
  past : dumped → c.phase = .dump ∨ ¬ c.phase.outbound

theorem Latched.aborted {dumped : Bool} {c : Control K} (h : Latched dumped c)
    (reason : AbortReason K) : Latched dumped (c.aborted reason) where
  ordered := ordered_aborted c reason
  sending hp := by cases hp
  unsent := h.unsent
  past _ := Or.inr (by simp [Control.aborted, Phase.outbound])

theorem Latched.guarded {dumped : Bool} {e e' : MissionEngine K} (h : Latched dumped e.control)
    (hg : Guarded e e') : Latched dumped e'.control := by
  obtain hc | ⟨reason, hc⟩ := hg.2
  · rwa [hc]
  · rw [hc]
    exact h.aborted reason

/-- Beyond the survey a pass of the sequencer stays in the dump phase or goes on. -/
theorem phaseMove_past {e : MissionEngine K} {s : Sample K} {c : Control K}
    (hs : Ordered e.control) (h : PhaseMove e s c) (hpast : e.phase = .dump ∨ ¬ e.phase.outbound) :
    (c.phase = .dump ∧ e.phase = .dump) ∨ ¬ c.phase.outbound := by
  cases h with
  | outward p hfrom hto hdump =>
    have hp := hpast.resolve_right (not_not_intro hfrom)
    exact Or.inl ⟨(hdump hp).1, hp⟩
  | settleEnd t0 hp =>
    have hnext : e.settleNextPhase = .land := hs.settleNext hp
    refine Or.inr ?_
    change ¬ e.settleNextPhase.outbound
    simp [hnext, Phase.outbound]
  | stay hp =>
    refine Or.inr ?_
    change ¬ e.phase.outbound
    obtain hp | hp | hp := hp <;> simp [hp, Phase.outbound]
  | settleWait t0 hp | settleReset hp | settleStart hp =>
    refine Or.inr ?_
    change ¬ e.phase.outbound
    simp [hp, Phase.outbound]
  | arrive | settleAfterDump | touchdown =>
    exact Or.inr (by simp [Control.settling, Control.move, Phase.outbound])

theorem phaseMove_record {e : MissionEngine K} {s : Sample K} {c : Control K}
    (h : PhaseMove e s c) : c.dumpAcked = e.dumpAcked ∧ c.dumpAttempts = e.dumpAttempts := by
  cases h <;> exact ⟨rfl, rfl⟩

/-- What a tick leaves of the dump's record, and where it may lead. -/
theorem tick_dump {e e' : MissionEngine K} {s : Sample K} {sp : Option (Setpoint K)}
    (hs : Ordered e.control) (h : e.tick s = .ok (e', sp)) :
    Ordered e'.control ∧ e'.dumpAcked = e.dumpAcked ∧ e'.dumpAttempts = e.dumpAttempts ∧
      ((e.phase = .dump ∨ ¬ e.phase.outbound) →
        (e'.phase = .dump ∧ e.phase = .dump) ∨ ¬ e'.phase.outbound) := by
  have hordered : Ordered e'.control := by
    have hstep : e.step (.tick s) = some e' := by
      change (e.tick s).toOption.map Prod.fst = some e'
      rw [h]
      rfl
    exact step_ordered hs hstep
  obtain hmove | ⟨hout, hdump, reason, hc⟩ := tick_moves hs.settleNext h
  · obtain ⟨hacked, hattempts⟩ := phaseMove_record hmove
    exact ⟨hordered, hacked, hattempts, phaseMove_past hs hmove⟩
  · have hrecord : e'.control.dumpAcked = e.dumpAcked ∧
        e'.control.dumpAttempts = e.dumpAttempts := by
      obtain hc | hc := hc <;> rw [hc] <;> exact ⟨rfl, rfl⟩
    refine ⟨hordered, hrecord.1, hrecord.2, fun hpast => ?_⟩
    exact absurd hout (hpast.resolve_left hdump)

/-- The state of the engine and of the latch after an event. -/
structure Delivery (n : EngineNode K) : Prop where
  unbegun : n.begun = false → n.engine = none
  unlatched : n.engine = none → n.dumped = false
  latched : ∀ e, n.engine = some e → Latched n.dumped e.control
  limit : ∀ e, n.engine = some e → e.cfg.dumpRetryLimit = 3

theorem Delivery.quiet {n n' : EngineNode K} (h : Delivery n) (hq : Quiet n n') :
    Delivery n' := by
  have hengine : ∀ e', n'.engine = some e' → ∃ e, n.engine = some e ∧ Guarded e e' := by
    intro e' he'
    cases he : n.engine with
    | none =>
      rw [hq.engineless he] at he'
      cases he'
    | some e =>
      obtain ⟨e'', he'', hg⟩ := hq.guarded he
      obtain rfl := Option.some.inj (he'.symm.trans he'')
      exact ⟨e, rfl, hg⟩
  refine ⟨fun hb => ?_, fun hnone => ?_, fun e' he' => ?_, fun e' he' => ?_⟩
  · exact hq.engineless (h.unbegun (hq.begun ▸ hb))
  · rw [hq.dumped]
    cases he : n.engine with
    | none => exact h.unlatched he
    | some e =>
      obtain ⟨e', he', -⟩ := hq.guarded he
      rw [hnone] at he'
      cases he'
  · obtain ⟨e, he, hg⟩ := hengine e' he'
    rw [hq.dumped]
    exact (h.latched e he).guarded hg
  · obtain ⟨e, he, hg⟩ := hengine e' he'
    have hcfg : e'.cfg = e.cfg := congrArg SurveyPlan.cfg hg.1
    rw [hcfg]
    exact h.limit e he

/-- The parameters the node passes leave the retry limit at its default. -/
theorem missionConfig_limit {n : EngineNode K} {anchorNe : Point2 K} {cfg : MissionConfig K}
    (h : n.missionConfig anchorNe = .ok cfg) : cfg.dumpRetryLimit = 3 := by
  unfold missionConfig at h
  simp only at h
  split at h
  · cases h
  · cases h
  · unfold MissionConfig.new at h
    split at h
    · obtain rfl := Except.ok.inj h
      rfl
    · cases h

theorem start_control (e : MissionEngine K) (h : e.phase = .preflight) :
    e.start.control = e.control.move .offboardSync := by
  unfold MissionEngine.start
  rw [if_pos h]
  rfl

theorem Delivery.begins {n n' : EngineNode K} (h : Delivery n) (hb : Begins n n') :
    Delivery n' := by
  obtain ⟨hbegun, cfg, e, hcfg, hnew, rfl⟩ := hb
  have hdumped : n.dumped = false := h.unlatched (h.unbegun hbegun)
  obtain ⟨hcontrol, hecfg⟩ := new_control hnew
  have hphase : e.phase = .preflight := congrArg Control.phase hcontrol
  have hstart : e.step .start = some e.start := rfl
  refine ⟨fun hb => ?_, fun hnone => ?_, fun e' he' => ?_, fun e' he' => ?_⟩
  · cases hb
  · cases hnone
  · obtain rfl := Option.some.inj he'
    have hmoved := start_control e hphase
    refine ⟨step_ordered (new_ordered hnew) hstart, fun hp => ?_, fun _ => ?_, fun hd => ?_⟩
    · rw [hmoved] at hp
      cases hp
    · rw [hmoved, hcontrol]
      exact ⟨rfl, rfl⟩
    · change n.dumped = true at hd
      rw [hdumped] at hd
      cases hd
  · obtain rfl := Option.some.inj he'
    have hplan : e.start.cfg = e.cfg := congrArg SurveyPlan.cfg (step_plan hstart)
    rw [hplan, hecfg]
    exact missionConfig_limit hcfg

/-- The engine's answer to a send that was the first. -/
theorem notify_first {e : MissionEngine K} (hp : e.phase = .dump) (hattempts : e.dumpAttempts = 0)
    (hlimit : e.cfg.dumpRetryLimit = 3) (ok : Bool) :
    (e.finalizeLog.notifyDumpResult ok).control =
      { e.control with dumpAcked := ok || e.dumpAcked, dumpAttempts := if ok then 0 else 1 } ∧
      (e.finalizeLog.notifyDumpResult ok).cfg = e.cfg := by
  have hp' : e.finalizeLog.phase = .dump := hp
  have hleft : ¬ e.finalizeLog.cfg.dumpRetryLimit ≤ ((e.finalizeLog.dumpAttempts + 1 : ℕ) : ℤ) := by
    change ¬ e.cfg.dumpRetryLimit ≤ ((e.dumpAttempts + 1 : ℕ) : ℤ)
    rw [hlimit, hattempts]
    decide
  unfold notifyDumpResult
  rw [if_neg (not_not_intro hp')]
  cases ok with
  | true =>
    refine ⟨?_, rfl⟩
    change ({ e.control with dumpAcked := true } : Control K) = _
    simp [MissionEngine.control, hattempts]
  | false =>
    simp only [Bool.false_eq_true, if_false, if_neg hleft]
    refine ⟨?_, rfl⟩
    change ({ e.control with dumpAttempts := e.dumpAttempts + 1 } : Control K) = _
    simp [MissionEngine.control, hattempts]

theorem Delivery.ticked {n n' : EngineNode K} {e : MissionEngine K} {link : LinkOutcome}
    {sent : Option Bool} (h : Delivery n) (he : n.engine = some e)
    (ht : Ticked n n' e link sent) : Delivery n' := by
  obtain ⟨hparams, hbegun, s, e1, sp, htick, hcases⟩ := ht
  have hl := h.latched e he
  obtain ⟨hordered, hacked, hattempts, hpast⟩ := tick_dump hl.ordered htick
  have hlimit : e1.cfg.dumpRetryLimit = 3 := by
    have hcfg : e1.cfg = e.cfg := congrArg SurveyPlan.cfg (tick_plan htick)
    rw [hcfg]
    exact h.limit e he
  have hstarted : n'.begun = true := by
    rw [hbegun]
    by_contra hb
    rw [h.unbegun (Bool.not_eq_true _ ▸ hb)] at he
    cases he
  obtain ⟨hdump, hunsent, hdumped', -, hengine⟩ | ⟨hnot, hdumped', -, hengine⟩ := hcases
  · obtain ⟨hzero, hfalse⟩ := hl.unsent hunsent
    obtain ⟨hc, hcfg⟩ := notify_first hdump (hattempts.trans hzero) hlimit
      (sendDump n.params.dumpHost link)
    refine ⟨fun hb => ?_, fun hnone => ?_, fun e' he' => ?_, fun e' he' => ?_⟩
    · rw [hstarted] at hb
      cases hb
    · rw [hengine] at hnone
      cases hnone
    · obtain rfl := Option.some.inj (hengine.symm.trans he')
      rw [hc, hdumped']
      refine ⟨?_, fun _ => rfl, fun hd => ?_, fun _ => Or.inl hdump⟩
      swap
      · cases hd
      refine ⟨hordered.settleNext, hordered.inbound, hordered.aborting, fun hout => ?_⟩
      change ¬ e1.phase.outbound at hout
      rw [hdump] at hout
      exact absurd rfl hout
    · obtain rfl := Option.some.inj (hengine.symm.trans he')
      rw [hcfg]
      exact hlimit
  · refine ⟨fun hb => ?_, fun hnone => ?_, fun e' he' => ?_, fun e' he' => ?_⟩
    · rw [hstarted] at hb
      cases hb
    · rw [hengine] at hnone
      cases hnone
    · obtain rfl := Option.some.inj (hengine.symm.trans he')
      rw [hdumped']
      refine ⟨hordered, fun hp => ?_, fun hd => ?_, fun hd => ?_⟩
      · by_contra hd
        exact hnot ⟨hp, Bool.not_eq_true _ ▸ hd⟩
      · change e1.dumpAttempts = 0 ∧ e1.dumpAcked = false
        rw [hattempts, hacked]
        exact hl.unsent hd
      · obtain ⟨hp, -⟩ | hin := hpast (hl.past hd)
        · exact Or.inl hp
        · exact Or.inr hin
    · obtain rfl := Option.some.inj (hengine.symm.trans he')
      exact hlimit

theorem step_some {n n' : EngineNode K} {ev : NodeEvent K} (h : n.step ev = some n') :
    ∃ reply, n.react ev = some (n', reply) := by
  obtain ⟨out, hout, rfl⟩ := Option.map_eq_some_iff.mp h
  exact ⟨out.2, hout⟩

theorem delivery_step {n n' : EngineNode K} {ev : NodeEvent K} (h : Delivery n)
    (hstep : n.step ev = some n') : Delivery n' := by
  obtain ⟨reply, hreact⟩ := step_some hstep
  obtain ⟨hq, -⟩ | ⟨hb, -⟩ | ⟨nowUs, link, e, -, he, ht⟩ := react_cases hreact
  · exact h.quiet hq
  · exact h.begins hb
  · exact h.ticked he ht

theorem new_ok {params : NodeParams K} {n : EngineNode K} (h : new params = .ok n) :
    ∃ cam anchorCfg correctionCfg, n = initial params cam anchorCfg correctionCfg := by
  unfold EngineNode.new at h
  simp only [bind, Except.bind, pure, Except.pure] at h
  split at h
  · cases h
  · split at h
    · cases h
    · split at h
      · cases h
      · exact ⟨_, _, _, (Except.ok.inj h).symm⟩

theorem new_begun {params : NodeParams K} {n : EngineNode K} (h : new params = .ok n) :
    n.begun = false := by
  obtain ⟨cam, anchorCfg, correctionCfg, rfl⟩ := new_ok h
  rfl

theorem new_delivery {params : NodeParams K} {n : EngineNode K} (h : new params = .ok n) :
    Delivery n := by
  obtain ⟨cam, anchorCfg, correctionCfg, rfl⟩ := new_ok h
  have hengine : (initial params cam anchorCfg correctionCfg).engine = none := rfl
  have hdumped : (initial params cam anchorCfg correctionCfg).dumped = false := rfl
  refine ⟨fun _ => hengine, fun _ => hdumped, fun e he => ?_, fun e he => ?_⟩
  · rw [hengine] at he
    cases he
  · rw [hengine] at he
    cases he

theorem run_delivery {n n' : EngineNode K} {es : List (NodeEvent K)} (h : Delivery n)
    (hrun : run step n es = some n') : Delivery n' :=
  run_invariant step Delivery (fun _ _ _ => delivery_step) h hrun

/-! ## The latch -/

theorem react_latched {n n' : EngineNode K} {ev : NodeEvent K} {reply : NodeReply K}
    (h : n.react ev = some (n', reply)) (hd : n.dumped = true) :
    n'.dumped = true ∧ reply.sent = none := by
  obtain ⟨hq, hsent⟩ | ⟨hb, hsent⟩ | ⟨nowUs, link, e, -, he, ht⟩ := react_cases h
  · exact ⟨hq.dumped.trans hd, hsent⟩
  · obtain ⟨-, cfg, e, -, -, rfl⟩ := hb
    exact ⟨hd, hsent⟩
  · obtain ⟨-, -, s, e1, sp, -, ⟨-, hunsent, -⟩ | ⟨-, hdumped, hsent, -⟩⟩ := ht
    · rw [hd] at hunsent
      cases hunsent
    · exact ⟨hdumped.trans hd, hsent⟩

/-- A node that has sent never sends again. -/
theorem neverSends_of_dumped {n : EngineNode K} (hd : n.dumped = true) : n.NeverSends := by
  intro es n' ev out hrun hreact
  have hlater : n'.dumped = true :=
    run_invariant step (fun n => n.dumped = true)
      (fun _ _ _ hd hstep => (react_latched (step_some hstep).choose_spec hd).1) hd hrun
  exact (react_latched hreact hlater).2

/-- The first failure leaves the dump pending with nothing more to come. -/
theorem failed_send_sticks {n n' : EngineNode K} {ev : NodeEvent K} {reply : NodeReply K}
    (hn : Delivery n) (h : n.react ev = some (n', reply)) (hfailed : reply.sent = some false) :
    n'.DumpPending ∧ n'.NeverSends := by
  obtain ⟨-, hsent⟩ | ⟨-, hsent⟩ | ⟨nowUs, link, e, -, he, ht⟩ := react_cases h
  · rw [hfailed] at hsent
    cases hsent
  · rw [hfailed] at hsent
    cases hsent
  · obtain ⟨-, -, s, e1, sp, htick, hcases⟩ := ht
    obtain ⟨hdump, hunsent, hdumped', hsent, hengine⟩ | ⟨-, -, hsent, -⟩ := hcases
    · have hl := hn.latched e he
      obtain ⟨hordered, hacked, hattempts, -⟩ := tick_dump hl.ordered htick
      obtain ⟨hzero, hfalse⟩ := hl.unsent hunsent
      have hlimit : e1.cfg.dumpRetryLimit = 3 := by
        have hcfg : e1.cfg = e.cfg := congrArg SurveyPlan.cfg (tick_plan htick)
        rw [hcfg]
        exact hn.limit e he
      have hok : sendDump n.params.dumpHost link = false :=
        (Option.some.inj (hfailed.symm.trans hsent)).symm
      obtain ⟨hc, hcfg⟩ := notify_first hdump (hattempts.trans hzero) hlimit false
      rw [hok] at hengine
      refine ⟨⟨_, hengine, ?_, ?_, ?_⟩, neverSends_of_dumped hdumped'⟩
      · exact (congrArg Control.phase hc).trans hdump
      · exact (congrArg Control.dumpAcked hc).trans (hacked.trans hfalse)
      · have hone : (e1.finalizeLog.notifyDumpResult false).dumpAttempts = 1 :=
          congrArg Control.dumpAttempts hc
        rw [hone, hcfg, hlimit]
        decide
    · rw [hfailed] at hsent
      cases hsent

/-! ## Acknowledged sends -/

/-- What was sent has been acknowledged. -/
def SentAcked (n : EngineNode K) : Prop :=
  n.dumped = true → ∀ e, n.engine = some e → e.phase = .dump → e.dumpAcked

theorem sentAcked_step {n n' : EngineNode K} {ev : NodeEvent K} (hn : Delivery n)
    (hacked : n.SentAcked) (hsend : n.NoFailedSend ev) (h : n.step ev = some n') :
    n'.SentAcked := by
  obtain ⟨reply, hreact⟩ := step_some h
  have hnot := hsend _ hreact
  intro hd e' he' hp'
  obtain ⟨hq, -⟩ | ⟨hb, -⟩ | ⟨nowUs, link, e, -, he, ht⟩ := react_cases hreact
  · cases he : n.engine with
    | none =>
      rw [hq.engineless he] at he'
      cases he'
    | some e =>
      obtain ⟨e'', he'', -, hc | ⟨reason, hc⟩⟩ := hq.guarded he
      · obtain rfl := Option.some.inj (he''.symm.trans he')
        have hp : e.phase = .dump := (congrArg Control.phase hc).symm.trans hp'
        have hsame : e''.dumpAcked = e.dumpAcked := congrArg Control.dumpAcked hc
        rw [hsame]
        exact hacked (hq.dumped ▸ hd) e he hp
      · obtain rfl := Option.some.inj (he''.symm.trans he')
        have habort : e''.phase = .abort := congrArg Control.phase hc
        rw [habort] at hp'
        cases hp'
  · obtain ⟨hbegun, cfg, e, -, -, rfl⟩ := hb
    have hunsent : n.dumped = false := hn.unlatched (hn.unbegun hbegun)
    change n.dumped = true at hd
    rw [hunsent] at hd
    cases hd
  · obtain ⟨-, -, s, e1, sp, htick, hcases⟩ := ht
    have hl := hn.latched e he
    obtain ⟨hordered, hsame, hattempts, hpast⟩ := tick_dump hl.ordered htick
    obtain ⟨hdump, hunsent, -, hsent, hengine⟩ | ⟨-, hdumped', -, hengine⟩ := hcases
    · have hok : sendDump n.params.dumpHost link = true := by
        by_contra hne
        rw [hsent, eq_false_of_ne_true hne] at hnot
        exact hnot rfl
      rw [hok] at hengine
      obtain rfl := Option.some.inj (hengine.symm.trans he')
      obtain ⟨hzero, -⟩ := hl.unsent hunsent
      have hlimit : e1.cfg.dumpRetryLimit = 3 := by
        have hcfg : e1.cfg = e.cfg := congrArg SurveyPlan.cfg (tick_plan htick)
        rw [hcfg]
        exact hn.limit e he
      exact congrArg Control.dumpAcked
        (notify_first hdump (hattempts.trans hzero) hlimit true).1
    · obtain rfl := Option.some.inj (hengine.symm.trans he')
      have hd0 : n.dumped = true := hdumped' ▸ hd
      obtain ⟨-, hp⟩ | hin := hpast (hl.past hd0)
      · rw [hsame]
        exact hacked hd0 e he hp
      · rw [hp'] at hin
        exact absurd rfl hin

theorem tick_after_ack {e e' : MissionEngine K} {s : Sample K} {sp : Option (Setpoint K)}
    (hs : Ordered e.control) (hp : e.phase = .dump) (hacked : e.dumpAcked)
    (h : e.tick s = .ok (e', sp)) : e'.phase = .settle := by
  obtain hmove | ⟨-, hdump, -⟩ := tick_moves hs.settleNext h
  · change e'.control.phase = .settle
    generalize e'.control = c at hmove
    cases hmove with
    | settleAfterDump => rfl
    | outward p hfrom hto hdump => simp [(hdump hp).2] at hacked
    | stay hq => simp [hp] at hq
    | arrive hq | settleReset hq | settleStart hq | settleWait t0 hq | settleEnd t0 hq
    | touchdown hq => simp [hp] at hq
  · exact absurd hp hdump

theorem ackLeaves {n : EngineNode K} (hn : Delivery n) : n.AckLeaves := by
  intro e he hp hacked nowUs link out hreact
  have hl := hn.latched e he
  obtain ⟨-, -, s, e1, sp, htick, hcases⟩ := react_activeTick he hreact
  have hsettle := tick_after_ack hl.ordered hp hacked htick
  obtain ⟨hdump, -⟩ | ⟨-, -, -, hengine⟩ := hcases
  · rw [hsettle] at hdump
    cases hdump
  · exact ⟨e1, hengine, hsettle⟩

theorem notify_failed {e : MissionEngine K} (hp : e.phase = .dump) :
    (e.finalizeLog.notifyDumpResult false).dumpAttempts = e.dumpAttempts + 1 ∧
      ((e.finalizeLog.notifyDumpResult false).cfg.dumpRetryLimit ≤
        (e.finalizeLog.notifyDumpResult false).dumpAttempts →
          (e.finalizeLog.notifyDumpResult false).phase = .abort) := by
  have hp' : e.finalizeLog.phase = .dump := hp
  unfold notifyDumpResult
  rw [if_neg (not_not_intro hp')]
  simp only [Bool.false_eq_true, if_false]
  split_ifs with hleft
  · have hnot : ¬ (e.finalizeLog.phase = .abort ∨ e.finalizeLog.phase = .done) := by simp [hp']
    have hc := abortWith_control ({ e.finalizeLog with
      dumpAttempts := e.finalizeLog.dumpAttempts + 1 } : MissionEngine K) .dumpRetriesExhausted hnot
    exact ⟨congrArg Control.dumpAttempts hc, fun _ => congrArg Control.phase hc⟩
  · exact ⟨rfl, fun hle => absurd hle hleft⟩

theorem exhaustionLeaves {n : EngineNode K} (hn : Delivery n) : n.ExhaustionLeaves := by
  intro ev out hreact hfailed
  obtain ⟨-, hsent⟩ | ⟨-, hsent⟩ | ⟨nowUs, link, e, -, he, ht⟩ := react_cases hreact
  · rw [hfailed] at hsent
    cases hsent
  · rw [hfailed] at hsent
    cases hsent
  · obtain ⟨-, -, s, e1, sp, htick, hcases⟩ := ht
    obtain ⟨hdump, -, -, hsent, hengine⟩ | ⟨-, -, hsent, -⟩ := hcases
    · have hok : sendDump n.params.dumpHost link = false :=
        (Option.some.inj (hfailed.symm.trans hsent)).symm
      rw [hok] at hengine
      obtain ⟨hattempts, hlimit⟩ := notify_failed hdump
      obtain ⟨-, -, hsame, -⟩ := tick_dump (hn.latched e he).ordered htick
      exact ⟨e, _, he, hengine, hattempts.trans (by rw [hsame]), hlimit⟩
    · rw [hfailed] at hsent
      cases hsent

theorem resolves_of_acked {n : EngineNode K} (hn : Delivery n) (hacked : n.SentAcked) :
    n.Resolves := by
  refine ⟨?_, ackLeaves hn, exhaustionLeaves hn⟩
  rintro ⟨⟨e, he, hp, hfalse, -⟩, -⟩
  have htrue := hacked ((hn.latched e he).sending hp) e he hp
  rw [hfalse] at htrue
  cases htrue

/-- In a run of the node every dump resolves exactly when no send fails: the only
send is the first. -/
theorem dump_resolves {params : NodeParams K} {n n' : EngineNode K} {es : List (NodeEvent K)}
    (hnew : new params = .ok n) (hrun : run step n es = some n') :
    (∀ front back m, es = front ++ back → run step n front = some m → m.Resolves) ↔
      Along step NoFailedSend n es := by
  have hn := new_delivery hnew
  constructor
  · intro hall
    rw [along_iff_forall]
    intro front ev back m hes hm out hreact hfailed
    have hlater : run step n (front ++ [ev]) = some out.1 := by
      rw [run_append, hm]
      simp [run_cons, EngineNode.step, hreact]
    obtain ⟨hstuck, -⟩ := hall (front ++ [ev]) back out.1 (by simp [hes]) hlater
    exact hstuck (failed_send_sticks (run_delivery hn hm) hreact hfailed)
  · rintro halong front back m rfl hm
    have hfront : Along step NoFailedSend n front := ((along_append step hm).mp halong).1
    have hstart : n.SentAcked := by
      intro hd
      rw [hn.unlatched (hn.unbegun (new_begun hnew))] at hd
      cases hd
    have hkeep := run_invariant_along step (fun m => Delivery m ∧ m.SentAcked) NoFailedSend
      (fun m ev m' hm hsend hstep =>
        ⟨delivery_step hm.1 hstep, sentAcked_step hm.1 hm.2 hsend hstep⟩)
      ⟨hn, hstart⟩ hfront hm
    exact resolves_of_acked hkeep.1 hkeep.2

instance (n : EngineNode ℚ) (ev : NodeEvent ℚ) : Decidable (NoFailedSend n ev) :=
  match h : n.react ev with
  | none => isTrue fun out hout => by rw [h] at hout; cases hout
  | some out =>
    decidable_of_iff (out.2.sent ≠ some false) ⟨fun hne out' hout' => by
      rw [h] at hout'
      rwa [← Option.some.inj hout'], fun hall => hall out h⟩

/-- A node that surveys one lane to the north and dumps to a master. -/
def oneLaneParams : NodeParams ℚ where
  nLanes := 1
  laneHeadingDeg := 0
  lanesOffsetNe := (0, 0)
  dumpHost := "master"

theorem oneLaneParams_accepted : (new oneLaneParams).toOption.isSome := by decide +kernel

def oneLaneNode : EngineNode ℚ := (new oneLaneParams).toOption.get oneLaneParams_accepted

theorem oneLaneNode_new : new oneLaneParams = .ok oneLaneNode := by
  have hsome : (new oneLaneParams).toOption = some oneLaneNode := (Option.some_get _).symm
  cases hnew : new oneLaneParams with
  | error err =>
    rw [hnew] at hsome
    cases hsome
  | ok n =>
    rw [hnew] at hsome
    rw [Option.some.inj hsome]

/-- A valid local position at rest. -/
def atRest (north down : ℚ) : LocalPosition ℚ where
  pos := ⟨north, 0, down⟩
  vel := ⟨0, 0, 0⟩
  xyValid := true
  vXyValid := true
  counters := ⟨0, 0, 0⟩
  deltaXy := (0, 0)
  deltaZ := 0
  deltaHeading := 0
  distBottomValid := false
  distBottom := 0

/-- From the pad over the lane to the tick that finds the engine in the dump
phase. -/
def surveyToDump (link : LinkOutcome) : List (NodeEvent ℚ) :=
  [.position 0 (atRest 0 0), .latchLaunch, .controllerActive true, .beginGate true,
    .activeTick 0 link, .activeTick 2000000 link, .position 3000000 (atRest 0 (-4)),
    .activeTick 3000000 link, .position 13000000 (atRest 10 (-4)), .activeTick 13000000 link,
    .position 23000000 (atRest 0 (-4)), .activeTick 23000000 link, .activeTick 24000000 link]

theorem surveyToDump_runs : (run step oneLaneNode (surveyToDump (.replied ackOk))).isSome := by
  decide +kernel

theorem dump_resolves_acked : ∃ n', run step oneLaneNode (surveyToDump (.replied ackOk)) = some n' ∧
    ∀ front back m, surveyToDump (.replied ackOk) = front ++ back →
      run step oneLaneNode front = some m → m.Resolves := by
  obtain ⟨n', hrun⟩ := Option.isSome_iff_exists.mp surveyToDump_runs
  exact ⟨n', hrun, (dump_resolves oneLaneNode_new hrun).mpr (by decide +kernel)⟩

/-- One refused connection and the payload is never sent again. -/
theorem failed_dump_stuck : ¬ ∀ (params : NodeParams ℚ) (n m : EngineNode ℚ)
    (es : List (NodeEvent ℚ)), new params = .ok n → run step n es = some m → m.Resolves := by
  intro hall
  have hfails : ¬ Along step NoFailedSend oneLaneNode (surveyToDump .failed) := by decide +kernel
  rw [along_iff_forall] at hfails
  push Not at hfails
  obtain ⟨front, ev, back, m, -, hm, hfailed⟩ := hfails
  unfold NoFailedSend at hfailed
  push Not at hfailed
  obtain ⟨out, hreact, hsent⟩ := hfailed
  have hlater : run step oneLaneNode (front ++ [ev]) = some out.1 := by
    rw [run_append, hm]
    simp [run_cons, EngineNode.step, hreact]
  have hdelivery := run_delivery (new_delivery oneLaneNode_new) hm
  obtain ⟨hstuck, -⟩ := hall oneLaneParams oneLaneNode out.1 (front ++ [ev]) oneLaneNode_new hlater
  exact hstuck (failed_send_sticks hdelivery hreact hsent)

end EngineNode

end Mission10.Engine
