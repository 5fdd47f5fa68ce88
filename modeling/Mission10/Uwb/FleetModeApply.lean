import Mission10.Library.Runs
import Mission10.Uwb.PythonCodec

/-!
# Fleet mode at the gateway

Requests come from the service and from the radio, which repeats every
broadcast; one thread applies the last requested mode with a slow command that
runs outside the lock. Each holding of the lock is one step, so every order of
the steps is a list of events.
-/
namespace Mission10.Uwb

/-- Where the apply thread stands: it is about to take the lock, sleeps on the
condition, runs the command, or has returned after a failed one. -/
inductive ApplyPhase where
  | checking
  | waiting
  | applying (mode : PythonCodec.FleetMode)
  | stopped
  deriving DecidableEq

/-- The four fields of the gateway and its apply thread. -/
structure ModeGateway where
  appliedMode : Option PythonCodec.FleetMode := none
  requestedMode : Option PythonCodec.FleetMode := none
  targetMode : Option PythonCodec.FleetMode := none
  applyError : Bool := false
  phase : ApplyPhase := .checking
  deriving DecidableEq

/-- `notify` wakes the thread if it sleeps. -/
def ApplyPhase.notify : ApplyPhase → ApplyPhase
  | .waiting => .checking
  | phase => phase

namespace ModeGateway

/-- `_queue_mode`, with the message it publishes. -/
def queueMode (mode : PythonCodec.FleetMode) (g : ModeGateway) :
    ModeGateway × Option PythonCodec.FleetMode :=
  if g.requestedMode = some mode then (g, none)
  else
    ({ g with requestedMode := some mode, targetMode := some mode, phase := g.phase.notify },
      some mode)

/-- The thread looks at the target under the lock. -/
def checkTarget (g : ModeGateway) : ModeGateway :=
  match g.targetMode with
  | none => { g with phase := .waiting }
  | some mode => { g with phase := .applying mode }

/-- The command has returned; a failed one ends the thread. -/
def finishApply (mode : PythonCodec.FleetMode) (succeeded : Bool) (g : ModeGateway) : ModeGateway :=
  if succeeded then
    { g with
      appliedMode := some mode
      targetMode := if g.targetMode = some mode then none else g.targetMode
      phase := .checking }
  else { g with applyError := true, phase := .stopped }

/-- The arguments of the `set-mode` command. -/
def setModeArgs (mode : PythonCodec.FleetMode) : ℤ × String :=
  (mode.master, if mode.network = 0 then "field" else "internet")

end ModeGateway

/-- A call with a new mode, a call with a repeated broadcast, or a step of the
apply thread. -/
inductive ModeEvent where
  | request (mode : PythonCodec.FleetMode)
  | repeated (mode : PythonCodec.FleetMode)
  | check
  | finish (succeeded : Bool)
  deriving DecidableEq

/-- The mode of a call; the gateway does not tell repeats from requests. -/
def ModeEvent.queued : ModeEvent → Option PythonCodec.FleetMode
  | .request mode => some mode
  | .repeated mode => some mode
  | _ => none

namespace ModeGateway

def step (g : ModeGateway) : ModeEvent → Option ModeGateway
  | .request mode => some (g.queueMode mode).1
  | .repeated mode => some (g.queueMode mode).1
  | .check => if g.phase = .checking then some g.checkTarget else none
  | .finish succeeded =>
    match g.phase with
    | .applying mode => some (g.finishApply mode succeeded)
    | _ => none

/-- The applies that start along a run. -/
def started : ModeGateway → List ModeEvent → List PythonCodec.FleetMode
  | _, [] => []
  | g, e :: es =>
    match g.step e with
    | none => []
    | some g' => (if e = .check then g.targetMode.toList else []) ++ started g' es

/-! ### What a step does -/

/-- The step of a call, whichever of the two it is. -/
theorem step_queued {g g' : ModeGateway} {e : ModeEvent} {mode : PythonCodec.FleetMode}
    (he : e.queued = some mode) (h : g.step e = some g') : g' = (g.queueMode mode).1 := by
  cases e with
  | request m =>
    obtain rfl : m = mode := Option.some.inj he
    exact (Option.some.inj h).symm
  | repeated m =>
    obtain rfl : m = mode := Option.some.inj he
    exact (Option.some.inj h).symm
  | check => cases he
  | finish succeeded => cases he

/-- A step is a call, a look at the target or the end of the running command. -/
theorem step_cases {g g' : ModeGateway} {e : ModeEvent} (h : g.step e = some g') :
    (∃ mode, e.queued = some mode ∧ g' = (g.queueMode mode).1) ∨
    (e = .check ∧ g.phase = .checking ∧ g' = g.checkTarget) ∨
    (∃ mode succeeded, e = .finish succeeded ∧ g.phase = .applying mode ∧
      g' = g.finishApply mode succeeded) := by
  cases e with
  | request mode => exact .inl ⟨mode, rfl, (Option.some.inj h).symm⟩
  | repeated mode => exact .inl ⟨mode, rfl, (Option.some.inj h).symm⟩
  | check =>
    simp only [step] at h
    split at h
    · next hphase => exact .inr (.inl ⟨rfl, hphase, (Option.some.inj h).symm⟩)
    · cases h
  | finish succeeded =>
    simp only [step] at h
    split at h
    · next mode hphase =>
      exact .inr (.inr ⟨mode, succeeded, rfl, hphase, (Option.some.inj h).symm⟩)
    · cases h

end ModeGateway

/-!
## Last writer wins

While the target is pending it is the last requested mode and the apply thread is
awake; once it is clear the last requested mode is the applied one. A change
that is requested during an apply is therefore pending until it is applied, and
calls that repeat one mode start one apply at most.
-/
open Runs

namespace ModeGateway

/-- The three fields agree; the thread runs and neither sleeps over a target nor
applies without one. -/
structure Coherent (g : ModeGateway) : Prop where
  clear : g.targetMode = none → g.appliedMode = g.requestedMode
  pending : ∀ mode, g.targetMode = some mode → g.requestedMode = some mode
  awake : g.phase = .waiting → g.targetMode = none
  busy : ∀ mode, g.phase = .applying mode → g.targetMode ≠ none
  alive : g.phase ≠ .stopped

theorem coherent_start : Coherent {} := by
  constructor
  · intro _
    rfl
  · intro mode h
    cases h
  · intro h
    cases h
  · intro mode h
    cases h
  · intro h
    cases h

theorem notify_ne_waiting (phase : ApplyPhase) : phase.notify ≠ .waiting := by
  cases phase <;> simp [ApplyPhase.notify]

theorem notify_ne_stopped {phase : ApplyPhase} (h : phase ≠ .stopped) :
    phase.notify ≠ .stopped := by
  cases phase <;> simp_all [ApplyPhase.notify]

theorem queueMode_coherent {g : ModeGateway} (h : g.Coherent) (mode : PythonCodec.FleetMode) :
    (g.queueMode mode).1.Coherent := by
  unfold queueMode
  split
  · exact h
  · constructor
    · intro hnone
      cases hnone
    · intro m hm
      exact hm
    · intro hwaiting
      exact absurd hwaiting (notify_ne_waiting g.phase)
    · intro m _ hnone
      cases hnone
    · exact notify_ne_stopped h.alive

theorem checkTarget_coherent {g : ModeGateway} (h : g.Coherent) : g.checkTarget.Coherent := by
  unfold checkTarget
  split
  · next hnone =>
    constructor
    · exact h.clear
    · exact h.pending
    · intro _
      exact hnone
    · intro m hm
      cases hm
    · intro hstopped
      cases hstopped
  · next mode hsome =>
    constructor
    · exact h.clear
    · exact h.pending
    · intro hwaiting
      cases hwaiting
    · intro m _ hnone
      exact absurd (hsome.symm.trans hnone) (Option.some_ne_none mode)
    · intro hstopped
      cases hstopped

theorem finishApply_coherent {g : ModeGateway} (h : g.Coherent) {mode : PythonCodec.FleetMode}
    (hphase : g.phase = .applying mode) : (g.finishApply mode true).Coherent := by
  simp only [finishApply, if_true]
  constructor
  · intro hnone
    dsimp only at hnone ⊢
    split at hnone
    · next hsame => exact (h.pending mode hsame).symm
    · exact absurd hnone (h.busy mode hphase)
  · intro m hm
    dsimp only at hm ⊢
    split at hm
    · cases hm
    · exact h.pending m hm
  · intro hwaiting
    cases hwaiting
  · intro m hm
    cases hm
  · intro hstopped
    cases hstopped

/-- The commands of the run succeed. -/
def Succeeds (events : List ModeEvent) : Prop := ModeEvent.finish false ∉ events

instance (events : List ModeEvent) : Decidable (Succeeds events) :=
  inferInstanceAs (Decidable (ModeEvent.finish false ∉ events))

theorem step_coherent {g g' : ModeGateway} {e : ModeEvent} (hok : e ≠ .finish false)
    (h : g.Coherent) (hstep : g.step e = some g') : g'.Coherent := by
  rcases step_cases hstep with ⟨mode, -, rfl⟩ | ⟨-, -, rfl⟩ | ⟨mode, succeeded, rfl, hphase, rfl⟩
  · exact queueMode_coherent h mode
  · exact checkTarget_coherent h
  · cases succeeded with
    | false => exact absurd rfl hok
    | true => exact finishApply_coherent h hphase

theorem run_coherent {g g' : ModeGateway} {events : List ModeEvent} (hok : Succeeds events)
    (h : g.Coherent) (hrun : run step g events = some g') : g'.Coherent := by
  induction events generalizing g with
  | nil =>
    rw [run_nil, Option.some.injEq] at hrun
    exact hrun ▸ h
  | cons e events ih =>
    obtain ⟨m, hm, hrest⟩ := run_cons_some step hrun
    obtain ⟨he, hok'⟩ := not_or.mp (List.mem_cons.not.mp hok)
    exact ih hok' (step_coherent (Ne.symm he) h hm) hrest

/-! ### One mode after another -/

/-- Only this mode is requested. -/
def Only (mode : PythonCodec.FleetMode) (events : List ModeEvent) : Prop :=
  ∀ e ∈ events, ∀ m, e.queued = some m → m = mode

/-- The mode is the last requested one. -/
structure Owes (mode : PythonCodec.FleetMode) (g : ModeGateway) : Prop where
  coherent : g.Coherent
  requested : g.requestedMode = some mode

theorem Owes.target {mode : PythonCodec.FleetMode} {g : ModeGateway} (h : Owes mode g) :
    g.targetMode = none ∨ g.targetMode = some mode := by
  cases htarget : g.targetMode with
  | none => exact .inl rfl
  | some m => exact .inr ((h.coherent.pending m htarget).symm.trans h.requested)

/-- The applies of the mode that have yet to start. -/
def startsLeft (mode : PythonCodec.FleetMode) (g : ModeGateway) : ℕ :=
  if g.targetMode = none ∨ g.phase = .applying mode then 0 else 1

/-- The commands that have yet to return: a running one for an older mode, and
one for the mode. -/
def finishesLeft (mode : PythonCodec.FleetMode) (g : ModeGateway) : ℕ :=
  if g.targetMode = none then 0
  else
    match g.phase with
    | .applying other => if other = mode then 1 else 2
    | _ => 1

theorem owes_queueMode {g : ModeGateway} (h : g.Coherent) (mode : PythonCodec.FleetMode) :
    Owes mode (g.queueMode mode).1 := by
  refine ⟨queueMode_coherent h mode, ?_⟩
  unfold queueMode
  split
  · next hsame => exact hsame
  · rfl

/-- A call with the mode that is already requested is ignored. -/
theorem Owes.queueMode {mode : PythonCodec.FleetMode} {g : ModeGateway} (h : Owes mode g) :
    g.queueMode mode = (g, none) := if_pos h.requested

/-- Each step uses up what is left. -/
theorem Owes.after_step {mode : PythonCodec.FleetMode} {g g' : ModeGateway} {e : ModeEvent}
    (h : Owes mode g) (hok : e ≠ .finish false) (honly : ∀ m, e.queued = some m → m = mode)
    (hstep : g.step e = some g') :
    Owes mode g' ∧
      (if e = .check then g.targetMode.toList else []).length + startsLeft mode g' ≤
        startsLeft mode g ∧
      (if e = .finish true then 1 else 0) + finishesLeft mode g' ≤ finishesLeft mode g := by
  have hcoherent := step_coherent hok h.coherent hstep
  rcases step_cases hstep with ⟨m, hm, rfl⟩ | ⟨rfl, hphase, rfl⟩ |
    ⟨other, succeeded, rfl, hphase, rfl⟩
  · obtain rfl := honly m hm
    rw [h.queueMode]
    refine ⟨h, ?_, ?_⟩
    · have hcheck : e ≠ .check := by
        rintro rfl
        cases hm
      simp [hcheck]
    · have hfinish : e ≠ .finish true := by
        rintro rfl
        cases hm
      simp [hfinish]
  · rcases h.target with hnone | hsome
    · refine ⟨⟨hcoherent, ?_⟩, ?_, ?_⟩
      · simp only [checkTarget, hnone]
        exact h.requested
      · simp [checkTarget, startsLeft, hnone]
      · simp [checkTarget, finishesLeft, hnone]
    · refine ⟨⟨hcoherent, ?_⟩, ?_, ?_⟩
      · simp only [checkTarget, hsome]
        exact h.requested
      · simp [checkTarget, startsLeft, hsome, hphase]
      · simp [checkTarget, finishesLeft, hsome, hphase]
  · cases succeeded with
    | false => exact absurd rfl hok
    | true =>
      have hsome := h.target.resolve_left (h.coherent.busy other hphase)
      refine ⟨⟨hcoherent, h.requested⟩, ?_, ?_⟩
      · by_cases hsame : other = mode
        · simp [finishApply, startsLeft, hsome, hsame]
        · simp [finishApply, startsLeft, hsome, hphase, hsame, Ne.symm hsame]
      · by_cases hsame : other = mode
        · simp [finishApply, finishesLeft, hsome, hphase, hsame]
        · simp [finishApply, finishesLeft, hsome, hphase, hsame, Ne.symm hsame]

/-- So does a run in which no other mode is requested. -/
theorem Owes.after_run {mode : PythonCodec.FleetMode} {g g' : ModeGateway} {events : List ModeEvent}
    (h : Owes mode g) (hok : Succeeds events) (honly : Only mode events)
    (hrun : run step g events = some g') :
    Owes mode g' ∧ (g.started events).length + startsLeft mode g' ≤ startsLeft mode g ∧
      events.count (.finish true) + finishesLeft mode g' ≤ finishesLeft mode g := by
  induction events generalizing g with
  | nil =>
    rw [run_nil, Option.some.injEq] at hrun
    subst hrun
    simp [started, h]
  | cons e events ih =>
    obtain ⟨m, hm, hrest⟩ := run_cons_some step hrun
    obtain ⟨he, hok'⟩ := not_or.mp (List.mem_cons.not.mp hok)
    obtain ⟨honly', hrestonly⟩ := List.forall_mem_cons.mp honly
    obtain ⟨howes, hstarts, hfinishes⟩ := h.after_step (Ne.symm he) honly' hm
    obtain ⟨hend, hstarts', hfinishes'⟩ := ih howes hok' hrestonly hrest
    refine ⟨hend, ?_, ?_⟩
    · simp only [started, hm, List.length_append]
      omega
    · rw [List.count_cons]
      simp only [beq_iff_eq]
      omega

/-- Once the commands have returned, the mode is applied. -/
theorem Owes.applied {mode : PythonCodec.FleetMode} {g : ModeGateway} (h : Owes mode g)
    (hleft : finishesLeft mode g = 0) : g.targetMode = none ∧ g.appliedMode = some mode := by
  have hnone : g.targetMode = none := by
    by_contra htarget
    simp only [finishesLeft, if_neg htarget] at hleft
    split at hleft
    · split at hleft <;> omega
    · omega
  exact ⟨hnone, (h.coherent.clear hnone).trans h.requested⟩

/-- The apply thread can always go on. -/
theorem Coherent.goes_on {g : ModeGateway} (h : g.Coherent) (hawake : g.phase ≠ .waiting) :
    (g.step .check).isSome ∨ (g.step (.finish true)).isSome := by
  cases hphase : g.phase with
  | checking => exact .inl (by simp [ModeGateway.step, hphase])
  | waiting => exact absurd hphase hawake
  | applying mode => exact .inr (by simp [ModeGateway.step, hphase])
  | stopped => exact absurd hphase h.alive

/-- Whatever the order of calls and thread steps, as long as the commands
succeed: a clear target means that the last requested mode is applied. After a
call, and until another mode is requested, one apply starts at most; the mode is
pending with the thread awake, or it is applied, and two commands later it is
applied for certain. -/
theorem last_writer_wins (events : List ModeEvent) (g : ModeGateway) (hok : Succeeds events)
    (hrun : run step {} events = some g) :
    (g.targetMode = none → g.appliedMode = g.requestedMode) ∧
    ∀ mode back g', Succeeds back → Only mode back →
      run step (g.queueMode mode).1 back = some g' →
      ((g.queueMode mode).1.started back).length ≤ 1 ∧
      (g'.targetMode = some mode ∧
          ((g'.step .check).isSome ∨ (g'.step (.finish true)).isSome) ∨
        g'.targetMode = none ∧ g'.appliedMode = some mode) ∧
      (2 ≤ back.count (.finish true) →
        g'.targetMode = none ∧ g'.appliedMode = some mode) := by
  have hcoherent := run_coherent hok coherent_start hrun
  refine ⟨hcoherent.clear, fun mode back g' hback honly hrun' => ?_⟩
  obtain ⟨howes, hstarts, hfinishes⟩ := (owes_queueMode hcoherent mode).after_run hback honly hrun'
  refine ⟨?_, ?_, ?_⟩
  · have hone : startsLeft mode (g.queueMode mode).1 ≤ 1 := by
      unfold startsLeft
      split <;> omega
    omega
  · rcases howes.target with hnone | hsome
    · exact .inr ⟨hnone, (howes.coherent.clear hnone).trans howes.requested⟩
    · refine .inl ⟨hsome, howes.coherent.goes_on fun hwaiting => ?_⟩
      exact absurd (hsome.symm.trans (howes.coherent.awake hwaiting)) (Option.some_ne_none mode)
  · intro htwo
    have hleft : finishesLeft mode (g.queueMode mode).1 ≤ 2 := by
      unfold finishesLeft
      split
      · omega
      · split
        · split <;> omega
        · omega
    exact howes.applied (by omega)

/-- Two modes to write runs with. -/
def fieldMode : PythonCodec.FleetMode := ⟨1, 0, .inl rfl⟩

def internetMode : PythonCodec.FleetMode := ⟨1, 1, .inr rfl⟩

/-- Back to the first mode while the first is being applied. -/
theorem last_writer_wins_back :
    ∃ g g', run step {} [.request fieldMode, .check, .request internetMode] = some g ∧
      run step (g.queueMode fieldMode).1 [.finish true, .check] = some g' ∧
      g'.appliedMode = some fieldMode ∧
      ((g.queueMode fieldMode).1.started [.finish true, .check]).length ≤ 1 := by
  refine ⟨_, _, rfl, rfl, rfl, ?_⟩
  refine ((last_writer_wins [.request fieldMode, .check, .request internetMode] _ (by decide)
    rfl).2 fieldMode [.finish true, .check] _ (by decide) ?_ rfl).1
  intro e he m hm
  simp only [List.mem_cons, List.not_mem_nil, or_false] at he
  rcases he with rfl | rfl <;> cases hm

end ModeGateway

end Mission10.Uwb
