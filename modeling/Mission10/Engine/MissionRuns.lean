import Mission10.Engine.PhaseMoves
import Mission10.Library.Runs

/-!
# Missions as runs

One inversion theorem for the inputs of the engine, the invariant that an
aborted mission has left the outbound phases, and the order of the phases after
an abort. That order is kept exactly by the runs in which no abort is requested
while the engine settles or lands: the sequencer accepts one in both phases.
-/
namespace Mission10.Engine

set_option linter.unusedSectionVars false

open Runs

variable {K : Type*} [Field K] [LinearOrder K] [MathOps K]

/-- Requests to abort, from the operator or from a guard of the rim. -/
def EngineInput.isAbortRequest : EngineInput K → Bool
  | .operatorAbort | .requestAbort _ => true
  | _ => false

namespace MissionEngine

/-- What an input does to the control record. -/
inductive StepMove (e : MissionEngine K) : EngineInput K → Control K → Prop
  | tick (s : Sample K) {c : Control K} (h : PhaseMove e s c) : StepMove e (.tick s) c
  | tickAborts (s : Sample K) (reason : AbortReason K) (hout : e.phase.outbound) :
    StepMove e (.tick s) (e.control.aborted reason)
  | tickAbortsHome (s : Sample K) (reason : AbortReason K) (hout : e.phase.outbound)
    (hdump : e.phase ≠ .dump) :
    StepMove e (.tick s) ((e.control.aborted reason).settling false)
  | request (x : EngineInput K) (reason : AbortReason K) (hx : x.isAbortRequest)
    (h : ¬ (e.phase = .abort ∨ e.phase = .done)) : StepMove e x (e.control.aborted reason)
  | ignored (x : EngineInput K) (hx : x.isAbortRequest)
    (h : e.phase = .abort ∨ e.phase = .done) : StepMove e x e.control
  | dumpAcked (h : e.phase = .dump) :
    StepMove e (.notifyDumpResult true) { e.control with dumpAcked := true }
  | dumpFailed (h : e.phase = .dump) (hleft : (e.dumpAttempts + 1 : ℕ) < e.cfg.dumpRetryLimit) :
    StepMove e (.notifyDumpResult false) { e.control with dumpAttempts := e.dumpAttempts + 1 }
  | dumpExhausted (h : e.phase = .dump)
    (hleft : e.cfg.dumpRetryLimit ≤ (e.dumpAttempts + 1 : ℕ)) :
    StepMove e (.notifyDumpResult false)
      (({ e.control with dumpAttempts := e.dumpAttempts + 1 } : Control K).aborted
        .dumpRetriesExhausted)
  | start (h : e.phase = .preflight) : StepMove e .start (e.control.move .offboardSync)
  | other (x : EngineInput K) (hx : x.isAbortRequest = false) (ht : ∀ s, x ≠ .tick s) :
    StepMove e x e.control

theorem abortWith_stepMove (e : MissionEngine K) (x : EngineInput K) (reason : AbortReason K)
    (hx : x.isAbortRequest) : StepMove e x (e.abortWith reason).control := by
  by_cases h : e.phase = .abort ∨ e.phase = .done
  · rw [abortWith_idle e reason h]
    exact .ignored x hx h
  · rw [abortWith_control e reason h]
    exact .request x reason hx h

theorem notifyDumpResult_stepMove (e : MissionEngine K) (ok : Bool) :
    StepMove e (.notifyDumpResult ok) (e.notifyDumpResult ok).control := by
  unfold notifyDumpResult
  by_cases hdump : e.phase = .dump
  · rw [if_neg (not_not_intro hdump)]
    cases ok with
    | true => exact .dumpAcked hdump
    | false =>
      simp only [Bool.false_eq_true, if_false]
      split_ifs with hleft
      · have hnot : ¬ (e.phase = .abort ∨ e.phase = .done) := by simp [hdump]
        have hc := abortWith_control ({ e with dumpAttempts := e.dumpAttempts + 1 } : MissionEngine K)
          .dumpRetriesExhausted hnot
        rw [hc]
        exact .dumpExhausted hdump hleft
      · exact .dumpFailed hdump (lt_of_not_ge hleft)
  · rw [if_pos hdump]
    exact .other _ rfl (by simp)

theorem step_tick {e e' : MissionEngine K} {s : Sample K} (h : e.step (.tick s) = some e') :
    ∃ sp, e.tick s = .ok (e', sp) := by
  change (e.tick s).toOption.map Prod.fst = some e' at h
  cases htick : e.tick s with
  | error fault =>
    rw [htick] at h
    cases h
  | ok out =>
    rw [htick] at h
    obtain rfl := Option.some.inj h
    exact ⟨out.2, rfl⟩

/-- What a step does to the control record, while a settle phase is followed by
the landing. -/
theorem step_moves {e e' : MissionEngine K} {x : EngineInput K}
    (hnext : e.phase = .settle → e.settleNextPhase = .land) (h : e.step x = some e') :
    StepMove e x e'.control := by
  cases x with
  | start =>
    obtain rfl := Option.some.inj h
    unfold MissionEngine.start
    split_ifs with hphase
    · exact .start hphase
    · exact .other _ rfl (by simp)
  | operatorAbort =>
    obtain rfl := Option.some.inj h
    exact abortWith_stepMove e .operatorAbort .operator rfl
  | requestAbort reason =>
    obtain rfl := Option.some.inj h
    exact abortWith_stepMove e (.requestAbort reason) (.requested reason) rfl
  | notifyDumpResult ok =>
    obtain rfl := Option.some.inj h
    exact notifyDumpResult_stepMove e ok
  | tick s =>
    obtain ⟨sp, htick⟩ := step_tick h
    obtain hmove | ⟨hout, hdump, reason, hc | hc⟩ := tick_moves hnext htick
    · exact .tick s hmove
    · rw [hc]
      exact .tickAborts s reason hout
    · rw [hc]
      exact .tickAbortsHome s reason hout hdump
  | _ =>
    obtain rfl := Option.some.inj h
    exact .other _ rfl (by simp)

theorem step_plan {e e' : MissionEngine K} {x : EngineInput K} (h : e.step x = some e') :
    e'.plan = e.plan := by
  cases x with
  | tick s =>
    obtain ⟨sp, htick⟩ := step_tick h
    exact tick_plan htick
  | start =>
    obtain rfl := Option.some.inj h
    unfold MissionEngine.start
    split_ifs <;> rfl
  | operatorAbort =>
    obtain rfl := Option.some.inj h
    exact abortWith_plan e _
  | requestAbort reason =>
    obtain rfl := Option.some.inj h
    exact abortWith_plan e _
  | notifyDumpResult ok =>
    obtain rfl := Option.some.inj h
    unfold MissionEngine.notifyDumpResult
    split_ifs
    · rfl
    · rfl
    · simp only
      split_ifs
      · exact abortWith_plan _ _
      · rfl
  | _ =>
    obtain rfl := Option.some.inj h
    rfl

/-- An input other than a tick touches neither the survey nor the home point, and moves
the phase only to start or to abort. -/
theorem step_input {e e' : MissionEngine K} {x : EngineInput K} (hx : ∀ s, x ≠ .tick s)
    (h : e.step x = some e') : ∃ phase reason attempts acked resets detector counter yaw log,
      e' = { e with
        phase := phase
        abortReason := reason
        dumpAttempts := attempts
        dumpAcked := acked
        ekfResetsSeen := resets
        lastDetectorT := detector
        lastResetCounter := counter
        lastYaw := yaw
        log := log } ∧
      (phase = e.phase ∨ phase = .abort ∨ e.phase = .preflight ∧ phase = .offboardSync) := by
  cases x with
  | tick s => exact absurd rfl (hx s)
  | start =>
    obtain rfl := Option.some.inj h
    unfold MissionEngine.start
    split_ifs with hphase
    · exact ⟨_, _, _, _, _, _, _, _, _, rfl, Or.inr (Or.inr ⟨hphase, rfl⟩)⟩
    · exact ⟨_, _, _, _, _, _, _, _, _, rfl, Or.inl rfl⟩
  | operatorAbort =>
    obtain rfl := Option.some.inj h
    unfold MissionEngine.operatorAbort abortWith
    split_ifs
    · exact ⟨_, _, _, _, _, _, _, _, _, rfl, Or.inl rfl⟩
    · exact ⟨_, _, _, _, _, _, _, _, _, rfl, Or.inr (Or.inl rfl)⟩
  | requestAbort reason =>
    obtain rfl := Option.some.inj h
    unfold MissionEngine.requestAbort abortWith
    split_ifs
    · exact ⟨_, _, _, _, _, _, _, _, _, rfl, Or.inl rfl⟩
    · exact ⟨_, _, _, _, _, _, _, _, _, rfl, Or.inr (Or.inl rfl)⟩
  | notifyDumpResult ok =>
    obtain rfl := Option.some.inj h
    unfold MissionEngine.notifyDumpResult
    split_ifs
    · exact ⟨_, _, _, _, _, _, _, _, _, rfl, Or.inl rfl⟩
    · exact ⟨_, _, _, _, _, _, _, _, _, rfl, Or.inl rfl⟩
    · dsimp only
      unfold abortWith
      split_ifs
      · exact ⟨_, _, _, _, _, _, _, _, _, rfl, Or.inl rfl⟩
      · exact ⟨_, _, _, _, _, _, _, _, _, rfl, Or.inr (Or.inl rfl)⟩
      · exact ⟨_, _, _, _, _, _, _, _, _, rfl, Or.inl rfl⟩
  | _ =>
    obtain rfl := Option.some.inj h
    exact ⟨_, _, _, _, _, _, _, _, _, rfl, Or.inl rfl⟩

/-- What the guards, the branches of a pass and the other inputs keep, a step keeps. -/
theorem step_preserves {P : MissionEngine K → Prop}
    (hguard : ∀ {e e' : MissionEngine K}, P e → GuardFrame e e' →
      (e'.phase = e.phase ∨ e'.phase = .abort) → P e')
    (hpass : ∀ {e e' : MissionEngine K} {s : Sample K} {sp : Option (Setpoint K)}, P e →
      (e.phase = .settle → e.settleNextPhase = .land) → e.tickPhase s = .ok (e', sp) → P e')
    (hinput : ∀ {e e' : MissionEngine K} {x : EngineInput K}, P e → (∀ s, x ≠ .tick s) →
      e.step x = some e' → P e')
    {e e' : MissionEngine K} {x : EngineInput K}
    (hnext : e.phase = .settle → e.settleNextPhase = .land) (h : P e)
    (hstep : e.step x = some e') : P e' := by
  have honce {e e' : MissionEngine K} {s : Sample K} {sp : Option (Setpoint K)} (h : P e)
      (hnext : e.phase = .settle → e.settleNextPhase = .land)
      (hout : e.tickOnce s = .ok (e', sp)) : P e' := by
    have hphase := checkAborts_phase e s.t s.pos
    obtain ⟨phase, reason, engaged, hframe⟩ := checkAborts_frame e s.t s.pos
    refine hpass (hguard h ⟨phase, reason, engaged, hframe⟩ hphase) ?_ hout
    intro hsettle
    rcases hphase with hsame | habort
    · rw [hframe]
      exact hnext (hsame.symm.trans hsettle)
    · exact absurd (habort.symm.trans hsettle) (by decide)
  by_cases htick : ∃ s, x = .tick s
  · obtain ⟨s, rfl⟩ := htick
    obtain ⟨sp, hout⟩ := step_tick hstep
    rcases tick_passes hout with hpassed | ⟨e1, sp1, violation, hpassed, hflying, hagain⟩
    · exact honce h hnext hpassed
    · have hnot : ¬ (e1.phase = .abort ∨ e1.phase = .done) := by
        rintro (hp | hp) <;> simp [hp] at hflying
      have habort : (e1.abortWith (.command violation)).phase = .abort :=
        congrArg Control.phase (abortWith_control e1 _ hnot)
      refine honce (hguard (honce h hnext hpassed) (abortWith_frame e1 _) (Or.inr habort)) ?_ hagain
      intro hsettle
      exact absurd (habort.symm.trans hsettle) (by decide)
  · exact hinput h (fun s hs => htick ⟨s, hs⟩) hstep

/-! ## The invariant of the sequencer -/

/-- How the phase belongs together with the records of an abort and of the dump. -/
structure Ordered (c : Control K) : Prop where
  settleNext : c.phase = .settle → c.settleNextPhase = .land
  inbound : c.abortReason ≠ none → ¬ c.phase.outbound
  aborting : c.phase = .abort → c.abortReason ≠ none
  acked : ¬ c.phase.outbound → c.abortReason = none → c.dumpAcked

theorem Ordered.move {c : Control K} (h : Ordered c) {p : Phase} (hfrom : c.phase.outbound)
    (hto : p.outbound) : Ordered (c.move p) where
  settleNext hp := by
    have hp' : p = .settle := hp
    simp [hp', Phase.outbound] at hto
  inbound hne := absurd hfrom (h.inbound hne)
  aborting hp := by
    have hp' : p = .abort := hp
    simp [hp', Phase.outbound] at hto
  acked hp := absurd hto hp

/-- The rest of the way home after the settle phase. -/
theorem Ordered.inward {c : Control K} (h : Ordered c) {p : Phase} (hfrom : ¬ c.phase.outbound)
    (hto : p = .land ∨ p = .done) : Ordered (c.move p) where
  settleNext hp := by
    have hp' : p = .settle := hp
    obtain hto | hto := hto <;> simp [hto] at hp'
  inbound _ := by
    change ¬ p.outbound
    obtain hto | hto := hto <;> simp [hto, Phase.outbound]
  aborting hp := by
    have hp' : p = .abort := hp
    obtain hto | hto := hto <;> simp [hto] at hp'
  acked _ hnone := h.acked hfrom hnone

theorem ordered_aborted (c : Control K) (reason : AbortReason K) : Ordered (c.aborted reason) where
  settleNext hp := by cases hp
  inbound _ := by simp [Control.aborted, Phase.outbound]
  aborting _ := by simp [Control.aborted]
  acked _ hnone := by simp [Control.aborted] at hnone

theorem ordered_settling (c : Control K) (requires : Bool)
    (h : c.abortReason = none → c.dumpAcked) : Ordered (c.settling requires) where
  settleNext _ := rfl
  inbound _ := by simp [Control.settling, Phase.outbound]
  aborting hp := by cases hp
  acked _ := h

theorem phaseMove_ordered {e : MissionEngine K} {s : Sample K} {c : Control K}
    (hs : Ordered e.control) (h : PhaseMove e s c) : Ordered c := by
  cases h with
  | outward p hfrom hto => exact hs.move hfrom hto
  | stay | settleWait => exact hs
  | arrive hp =>
    refine ordered_settling _ false fun hnone => ?_
    exact absurd hnone (hs.aborting hp)
  | settleAfterDump _ hacked => exact ordered_settling _ true fun _ => hacked
  | settleReset | settleStart => exact ⟨hs.settleNext, hs.inbound, hs.aborting, hs.acked⟩
  | settleEnd t0 hp =>
    have hnext : e.settleNextPhase = .land := hs.settleNext hp
    have hin : ¬ e.control.phase.outbound := by
      change ¬ e.phase.outbound
      simp [hp, Phase.outbound]
    exact hs.inward hin (Or.inl hnext)
  | touchdown hp =>
    have hin : ¬ e.control.phase.outbound := by
      change ¬ e.phase.outbound
      simp [hp, Phase.outbound]
    exact hs.inward hin (Or.inr rfl)

theorem stepMove_ordered {e : MissionEngine K} {x : EngineInput K} {c : Control K}
    (hs : Ordered e.control) (h : StepMove e x c) : Ordered c := by
  cases h with
  | tick s h => exact phaseMove_ordered hs h
  | tickAborts s reason => exact ordered_aborted _ reason
  | tickAbortsHome s reason =>
    refine ordered_settling _ false fun hnone => ?_
    simp [Control.aborted] at hnone
  | request x reason => exact ordered_aborted _ reason
  | ignored | other => exact hs
  | dumpAcked hp => exact ⟨hs.settleNext, hs.inbound, hs.aborting, fun _ _ => rfl⟩
  | dumpFailed hp => exact ⟨hs.settleNext, hs.inbound, hs.aborting, hs.acked⟩
  | dumpExhausted hp => exact ordered_aborted _ .dumpRetriesExhausted
  | start hp =>
    have hout : e.control.phase.outbound := by
      change e.phase.outbound
      rw [hp]
      rfl
    exact hs.move hout rfl

theorem step_ordered {e e' : MissionEngine K} {x : EngineInput K} (hs : Ordered e.control)
    (h : e.step x = some e') : Ordered e'.control :=
  stepMove_ordered hs (step_moves hs.settleNext h)

theorem new_control {cfg : MissionConfig K} {yaw : K} {e : MissionEngine K}
    (h : new cfg yaw = .ok e) : e.control =
      ⟨.preflight, none, false, 0, none, .dump, false⟩ ∧ e.cfg = cfg := by
  obtain ⟨fence, lanes, -, -, rfl⟩ := new_ok h
  exact ⟨rfl, rfl⟩

theorem new_ordered {cfg : MissionConfig K} {yaw : K} {e : MissionEngine K}
    (h : new cfg yaw = .ok e) : Ordered e.control := by
  rw [(new_control h).1]
  refine ⟨fun hp => ?_, fun hne => ?_, fun hp => ?_, fun hout => ?_⟩
  · cases hp
  · exact absurd rfl hne
  · cases hp
  · exact absurd rfl hout

theorem run_ordered {e e' : MissionEngine K} {xs : List (EngineInput K)}
    (hs : Ordered e.control) (h : run step e xs = some e') : Ordered e'.control :=
  run_invariant step (fun e => Ordered e.control) (fun _ _ _ => step_ordered) hs h

/-! ## A concrete mission -/

/-- The default parameters with a single lane. -/
def oneLaneConfig : MissionConfig ℚ where
  nLanes := 1
  accepted := by decide +kernel

theorem oneLaneConfig_flies : (new oneLaneConfig 0).toOption.isSome := by decide +kernel

def oneLaneEngine : MissionEngine ℚ := (new oneLaneConfig 0).toOption.get oneLaneConfig_flies

theorem oneLaneEngine_new : new oneLaneConfig 0 = .ok oneLaneEngine := by
  have hsome : (new oneLaneConfig 0).toOption = some oneLaneEngine := Option.some_get _ |>.symm
  cases hnew : new oneLaneConfig 0 with
  | error err => simp [hnew, Except.toOption] at hsome
  | ok e =>
    rw [hnew] at hsome
    rw [Option.some.inj hsome]

end MissionEngine

end Mission10.Engine
