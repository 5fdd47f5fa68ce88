import Mission10.Engine.MissionRuns

/-!
# The order of the phases after an abort

After the first accepted abort the mission should only move forward, from the
flight to the egress point through the settle phase and the landing to the end.
The sequencer ignores a further abort only in the first and the last of these
phases, so a request that arrives while it settles or lands sends it back.
-/
namespace Mission10.Engine

set_option linter.unusedSectionVars false

open Runs

variable {K : Type*} [Field K] [LinearOrder K] [MathOps K]

/-- The place of a phase on the way home after an abort. -/
def landingRank : Phase → Option ℕ
  | .abort => some 0
  | .settle => some 1
  | .land => some 2
  | .done => some 3
  | _ => none

/-- Both phases lie on the way home, the second not before the first. -/
def Forward (p q : Phase) : Prop :=
  ∃ i j, landingRank p = some i ∧ landingRank q = some j ∧ i ≤ j

theorem Forward.of_rank {p q : Phase} {i j : ℕ} (hp : landingRank p = some i)
    (hq : landingRank q = some j) (hij : i ≤ j) : Forward p q := ⟨i, j, hp, hq, hij⟩

theorem not_forward_abort {p : Phase} (hp : p = .settle ∨ p = .land) : ¬ Forward p .abort := by
  rintro ⟨i, j, hi, hj, hij⟩
  obtain rfl : 0 = j := Option.some.inj hj
  obtain rfl | rfl := hp
  · obtain rfl : 1 = i := Option.some.inj hi
    omega
  · obtain rfl : 2 = i := Option.some.inj hi
    omega

theorem forward_refl {p : Phase} (hp : ¬ p.outbound) : Forward p p := by
  cases p with
  | abort => exact .of_rank rfl rfl (Nat.le_refl 0)
  | settle => exact .of_rank rfl rfl (Nat.le_refl 1)
  | land => exact .of_rank rfl rfl (Nat.le_refl 2)
  | done => exact .of_rank rfl rfl (Nat.le_refl 3)
  | _ => exact absurd rfl hp

namespace MissionEngine

/-- Once an abort was accepted, the step moves the phase forward. -/
def OnwardStep (e : MissionEngine K) (x : EngineInput K) : Prop :=
  e.abortReason ≠ none → ∀ e', e.step x = some e' → Forward e.phase e'.phase

/-- Once an abort was accepted, the step is no abort request that finds the
engine settling or landing. -/
def NoLateRequest (e : MissionEngine K) (x : EngineInput K) : Prop :=
  e.abortReason ≠ none → x.isAbortRequest → ¬ (e.phase = .settle ∨ e.phase = .land)

theorem phaseMove_forward {e : MissionEngine K} {s : Sample K} {c : Control K}
    (hs : Ordered e.control) (hin : ¬ e.phase.outbound) (h : PhaseMove e s c) :
    Forward e.phase c.phase := by
  cases h with
  | outward p hfrom => exact absurd hfrom hin
  | settleAfterDump hp => simp [hp, Phase.outbound] at hin
  | stay | settleReset | settleStart | settleWait => exact forward_refl hin
  | arrive hp =>
    rw [hp]
    exact .of_rank rfl rfl (by omega)
  | settleEnd t0 hp =>
    have hnext : e.settleNextPhase = .land := hs.settleNext hp
    rw [hp]
    change Forward .settle e.settleNextPhase
    rw [hnext]
    exact .of_rank rfl rfl (by omega)
  | touchdown hp =>
    rw [hp]
    exact .of_rank rfl rfl (by omega)

/-- A step after an abort goes back exactly when it is a late request. -/
theorem onwardStep_iff {e : MissionEngine K} (hs : Ordered e.control) (x : EngineInput K) :
    OnwardStep e x ↔ NoLateRequest e x := by
  constructor
  · intro honward habort hx hphase
    have hnot : ¬ (e.phase = .abort ∨ e.phase = .done) := by
      obtain hp | hp := hphase <;> simp [hp]
    have hback : ∃ e', e.step x = some e' ∧ e'.phase = .abort := by
      cases x with
      | operatorAbort =>
        exact ⟨_, rfl, congrArg Control.phase (abortWith_control e .operator hnot)⟩
      | requestAbort reason =>
        exact ⟨_, rfl, congrArg Control.phase (abortWith_control e (.requested reason) hnot)⟩
      | _ => cases hx
    obtain ⟨e', hstep, habort'⟩ := hback
    have hforward := honward habort e' hstep
    rw [habort'] at hforward
    exact not_forward_abort hphase hforward
  · intro hlate habort e' hstep
    have hin : ¬ e.phase.outbound := hs.inbound habort
    have hmove := step_moves hs.settleNext hstep
    change Forward e.phase e'.control.phase
    generalize e'.control = c at hmove ⊢
    cases hmove with
    | tick s hp => exact phaseMove_forward hs hin hp
    | tickAborts s reason hout => exact absurd hout hin
    | tickAbortsHome s reason hout => exact absurd hout hin
    | request _ reason hx hphase =>
      have hearly := hlate habort hx
      cases hp : e.phase <;> simp_all [Phase.outbound]
    | ignored | other => exact forward_refl hin
    | dumpAcked hp | dumpFailed hp | dumpExhausted hp | start hp =>
      simp [hp, Phase.outbound] at hin

/-- In every run of the engine the phases after the first accepted abort move
forward exactly when no abort is requested while the engine settles or lands. -/
theorem abort_order {cfg : MissionConfig K} {yaw : K} {e : MissionEngine K}
    (h : new cfg yaw = .ok e) (xs : List (EngineInput K)) :
    Along step OnwardStep e xs ↔ Along step NoLateRequest e xs :=
  along_congr step (fun e => Ordered e.control) (fun _ _ _ => step_ordered)
    (fun _ x hs => onwardStep_iff hs x) (new_ordered h)

instance (e : MissionEngine ℚ) (x : EngineInput ℚ) : Decidable (NoLateRequest e x) :=
  inferInstanceAs (Decidable (_ → _ → ¬ _))

/-- The climb is abandoned over the egress point, where the engine settles. -/
def settlingAfterAbort : List (EngineInput ℚ) :=
  let place : Vec3 ℚ := ⟨0, 0, -6⟩
  let still : Vec3 ℚ := ⟨0, 0, 0⟩
  [.start, .tick ⟨0, still, still, true, true⟩, .tick ⟨2, still, still, true, true⟩,
    .requestAbort "tag anchor disagrees", .tick ⟨3, place, still, true, true⟩]

/-- Two ready samples later it lands. -/
def landingAfterAbort : List (EngineInput ℚ) :=
  let place : Vec3 ℚ := ⟨0, 0, -6⟩
  let still : Vec3 ℚ := ⟨0, 0, 0⟩
  settlingAfterAbort ++ [.tick ⟨4, place, still, true, true⟩, .tick ⟨8, place, still, true, true⟩]

theorem abort_order_landing : Along step OnwardStep oneLaneEngine landingAfterAbort :=
  (abort_order oneLaneEngine_new landingAfterAbort).mpr (by decide +kernel)

/-- A guard that still sees its fault turns the landing back into a climb. -/
theorem late_request_turns_back :
    ¬ ∀ (cfg : MissionConfig ℚ) (yaw : ℚ) (e : MissionEngine ℚ) (xs : List (EngineInput ℚ)),
      new cfg yaw = .ok e → Along step OnwardStep e xs := by
  intro hall
  let xs := landingAfterAbort ++ [.requestAbort "tag anchor disagrees"]
  have hlate : ¬ Along step NoLateRequest oneLaneEngine xs := by decide +kernel
  have honward := hall oneLaneConfig 0 oneLaneEngine xs oneLaneEngine_new
  have hordered := new_ordered oneLaneEngine_new
  rw [along_congr step (fun e => Ordered e.control) (fun _ _ _ => step_ordered)
    (fun _ x hs => onwardStep_iff hs x) hordered] at honward
  exact hlate honward

end MissionEngine

end Mission10.Engine
