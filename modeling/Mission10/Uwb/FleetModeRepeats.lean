import Mission10.Uwb.FleetModeApply

/-!
# Late repeats of a fleet mode

The gateway remembers the last requested mode only. Beside its state an observer
keeps the newest request, whether it has been applied, and the modes requested
so far; a repeat is always one of an earlier request. A repeat of a superseded
mode differs from the last requested one, so the gateway takes it for a request.
-/
namespace Mission10.Uwb

open Runs

/-- The gateway, and what an observer of the calls knows. -/
structure WatchedGateway where
  gateway : ModeGateway := {}
  newest : Option PythonCodec.FleetMode := none
  newestApplied : Bool := false
  seen : List PythonCodec.FleetMode := []
  deriving DecidableEq

namespace WatchedGateway

/-- A repeat that repeats nothing is no event of the radio. -/
def Repeats (w : WatchedGateway) (e : ModeEvent) : Prop :=
  ∀ mode, e = .repeated mode → mode ∈ w.seen

/-- What the observer knows after an event that left the gateway so. -/
def observe (w : WatchedGateway) (gateway : ModeGateway) : ModeEvent → WatchedGateway
  | .request mode =>
    { gateway
      newest := some mode
      newestApplied := decide (w.newest = some mode) && w.newestApplied
      seen := mode :: w.seen }
  | .repeated _ => { w with gateway }
  | .check => { w with gateway }
  | .finish succeeded =>
    { w with
      gateway
      newestApplied := w.newestApplied || (succeeded && decide (gateway.appliedMode = w.newest)) }

def enabled (w : WatchedGateway) : ModeEvent → Bool
  | .repeated mode => decide (mode ∈ w.seen)
  | _ => true

def step (w : WatchedGateway) (e : ModeEvent) : Option WatchedGateway :=
  if w.enabled e then (w.gateway.step e).map fun gateway => w.observe gateway e else none

/-- The law: a superseded mode does not become the requested one by a repeat, and
once the newest mode is applied no other is. -/
def KeepsOut (w : WatchedGateway) (e : ModeEvent) : Prop :=
  ∀ w', w.step e = some w' →
    (∀ mode, e = .repeated mode → w.newest ≠ some mode →
      w'.gateway.requestedMode ≠ some mode) ∧
    (w.newestApplied = true → ∀ succeeded, e = .finish succeeded →
      w'.gateway.appliedMode = w.newest)

/-- A repeat comes while its mode is still the newest one. -/
def Timely (w : WatchedGateway) (e : ModeEvent) : Prop :=
  ∀ mode, e = .repeated mode → mode ∈ w.seen → w.newest = some mode

/-- As long as all repeats are timely, the gateway requests the newest mode. -/
structure Current (w : WatchedGateway) : Prop where
  requested : w.gateway.requestedMode = w.newest
  target : w.gateway.targetMode = none ∨ w.gateway.targetMode = w.newest
  settled : w.newestApplied = true →
    w.gateway.targetMode = none ∧ ∀ mode, w.gateway.phase ≠ .applying mode

theorem current_start : Current {} := by
  constructor
  · rfl
  · exact .inl rfl
  · intro h
    cases h

theorem step_some {w w' : WatchedGateway} {e : ModeEvent} (h : w.step e = some w') :
    w.enabled e = true ∧ ∃ gateway, w.gateway.step e = some gateway ∧ w' = w.observe gateway e := by
  unfold step at h
  split at h
  · next henabled =>
    obtain ⟨gateway, hstep, hobserve⟩ := Option.map_eq_some_iff.mp h
    exact ⟨henabled, gateway, hstep, hobserve.symm⟩
  · cases h

theorem request_current {w : WatchedGateway} (h : w.Current) (mode : PythonCodec.FleetMode) :
    (w.observe (w.gateway.queueMode mode).1 (.request mode)).Current := by
  unfold ModeGateway.queueMode
  by_cases hsame : w.gateway.requestedMode = some mode
  · have hnewest : w.newest = some mode := h.requested.symm.trans hsame
    rw [if_pos hsame]
    constructor
    · exact hsame
    · simp only [observe]
      rw [← hnewest]
      exact h.target
    · simp only [observe, hnewest, decide_true, Bool.true_and]
      exact h.settled
  · have hnewest : w.newest ≠ some mode := fun heq => hsame (h.requested.trans heq)
    rw [if_neg hsame]
    constructor
    · rfl
    · exact .inr rfl
    · simp [observe, hnewest]

theorem step_current {w w' : WatchedGateway} {e : ModeEvent} (h : w.Current) (htimely : w.Timely e)
    (hstep : w.step e = some w') : w'.Current := by
  obtain ⟨henabled, gateway, hgateway, rfl⟩ := step_some hstep
  cases e with
  | request mode =>
    obtain rfl := ModeGateway.step_queued rfl hgateway
    exact request_current h mode
  | repeated mode =>
    have hnewest := htimely mode rfl (of_decide_eq_true henabled)
    obtain rfl := ModeGateway.step_queued rfl hgateway
    rw [ModeGateway.queueMode, if_pos (h.requested.trans hnewest)]
    exact h
  | check =>
    rcases ModeGateway.step_cases hgateway with ⟨_, hm, -⟩ | ⟨-, -, rfl⟩ | ⟨_, _, he, -⟩
    · cases hm
    · unfold ModeGateway.checkTarget
      split
      · next hnone =>
        exact ⟨h.requested, .inl hnone, fun _ => ⟨hnone, fun m hm => by cases hm⟩⟩
      · next mode hsome =>
        refine ⟨h.requested, h.target, fun happlied => ?_⟩
        exact absurd (hsome.symm.trans (h.settled happlied).1) (Option.some_ne_none mode)
    · cases he
  | finish succeeded =>
    rcases ModeGateway.step_cases hgateway with ⟨_, hm, -⟩ | ⟨he, -⟩ | ⟨mode, ok, he, hphase, rfl⟩
    · cases hm
    · cases he
    · obtain rfl : succeeded = ok := ModeEvent.finish.inj he
      have hnot : w.newestApplied = false :=
        Bool.eq_false_of_not_eq_true fun happlied => (h.settled happlied).2 mode hphase
      cases succeeded with
      | false => exact ⟨h.requested, h.target, by simp [observe, hnot]⟩
      | true =>
        simp only [ModeGateway.finishApply, if_true, observe]
        refine ⟨h.requested, ?_, ?_⟩
        · dsimp only
          split
          · exact .inl rfl
          · exact h.target
        · intro happlied
          simp only [hnot, Bool.false_or, Bool.true_and, decide_eq_true_eq] at happlied
          refine ⟨?_, fun m hm => by cases hm⟩
          dsimp only
          rcases h.target with hnone | hnewest
          · rw [hnone]
            rfl
          · rw [if_pos (hnewest.trans happlied.symm)]

/-- In such a state the law of a step is that its repeat is timely. -/
theorem keepsOut_iff {w : WatchedGateway} (h : w.Current) (e : ModeEvent) :
    w.KeepsOut e ↔ w.Timely e := by
  constructor
  · rintro hkeeps mode rfl hseen
    by_contra hlate
    have hstep : w.step (.repeated mode) =
        some (w.observe (w.gateway.queueMode mode).1 (.repeated mode)) := by
      have henabled : w.enabled (.repeated mode) = true := decide_eq_true hseen
      rw [step, if_pos henabled]
      rfl
    have hnot : w.gateway.requestedMode ≠ some mode := fun heq => hlate (h.requested.symm.trans heq)
    apply (hkeeps _ hstep).1 mode rfl hlate
    simp only [observe, ModeGateway.queueMode, if_neg hnot]
  · intro htimely w' hstep
    obtain ⟨henabled, gateway, hgateway, rfl⟩ := step_some hstep
    constructor
    · rintro mode rfl hlate
      exact absurd (htimely mode rfl (of_decide_eq_true henabled)) hlate
    · rintro happlied succeeded rfl
      rcases ModeGateway.step_cases hgateway with ⟨_, hm, -⟩ | ⟨he, -⟩ | ⟨mode, _, -, hphase, -⟩
      · cases hm
      · cases he
      · exact absurd hphase ((h.settled happlied).2 mode)

/-- For every order of requests, repeats and thread steps: the law holds at every
step exactly when every repeat comes while its mode is still the newest one. -/
theorem keeps_out_iff_timely (events : List ModeEvent) :
    Along step KeepsOut {} events ↔ Along step Timely {} events :=
  along_iff_along step Current (fun _ _ _ hcurrent htimely => step_current hcurrent htimely)
    (fun _ e hcurrent => keepsOut_iff hcurrent e) current_start

/-- The first of two modes is requested again by a late repeat and applied after
the second. -/
theorem late_repeat_applied :
    ∃ w, run step {} [.request ModeGateway.fieldMode, .check, .finish true,
        .request ModeGateway.internetMode, .check, .finish true,
        .repeated ModeGateway.fieldMode, .check, .finish true] = some w ∧
      w.newest = some ModeGateway.internetMode ∧ w.newestApplied = true ∧
      w.gateway.requestedMode = some ModeGateway.fieldMode ∧
      w.gateway.appliedMode = some ModeGateway.fieldMode := by
  refine ⟨_, rfl, ?_⟩
  decide

end WatchedGateway

end Mission10.Uwb
