import Mission10.Uwb.MeasurementDelivery

/-!
# Attention of the transmit task

A measurement that is taken from the store without a look at the signal leaves
the signal set. The selection over the three queues that finds it set and the
store empty waits for the next measurement alone and hears neither of the other
two queues. This is the only way into that wait.
-/
namespace Mission10.Uwb.HostTx

/-- The task waits for a measurement alone while another queue holds an event. -/
def Deaf (tx : HostTx) : Prop :=
  tx.state = .awaitingMeasurement ∧ (tx.queues.control ≠ [] ∨ tx.queues.diagnostics ≠ [])

/-- The task is not deaf, whatever is published to it. -/
def Attentive (tx : HostTx) : Prop :=
  ∀ messages : List RadioToHost,
    ¬ Deaf { tx with queues := messages.foldl HostQueues.publish tx.queues }

/-- The signal is set and its measurement gone. -/
def StaleSignal (tx : HostTx) : Prop :=
  tx.queues.measurementSignal = true ∧ tx.queues.measurements.popOldest = none

/-- The event makes the task select with a stale signal: at once, or because it
looks for the next event and finds the queues empty. -/
def SelectsStale (tx : HostTx) : Event → Prop
  | .poll => tx.state = .selecting ∧ tx.StaleSignal
  | .connect => tx.state = .disconnected none ∧ tx.StaleSignal ∧
      tx.queues.control = [] ∧ tx.queues.diagnostics = []
  | .sendDone => (∃ event, tx.state = .sending event) ∧ tx.StaleSignal ∧
      tx.queues.control = [] ∧ tx.queues.diagnostics = []
  | _ => False

theorem publish_control_ne_nil (queues : HostQueues) (rx tx : UInt16) :
    (queues.publish (.ready rx tx)).control ≠ [] := by
  simp only [HostQueues.publish]
  split_ifs with hroom
  · simp
  · intro hnil
    rw [hnil] at hroom
    exact hroom (by decide)

/-- An attentive task is one that does not wait for a measurement alone: else a
single control event would make it deaf. -/
theorem attentive_iff (tx : HostTx) : tx.Attentive ↔ tx.state ≠ .awaitingMeasurement := by
  constructor
  · intro h hstate
    exact h [.ready 0 0] ⟨hstate, Or.inl (publish_control_ne_nil tx.queues 0 0)⟩
  · intro h messages hdeaf
    exact h hdeaf.1

theorem tryMeasurement_eq_none {queues : HostQueues} :
    queues.tryMeasurement = none ↔ queues.measurements.popOldest = none := by
  simp [HostQueues.tryMeasurement]

theorem tryControl_eq_none {queues : HostQueues} :
    queues.tryControl = none ↔ queues.control = [] := by
  unfold HostQueues.tryControl
  cases queues.control <;> simp

theorem tryDiagnostic_eq_none {queues : HostQueues} :
    queues.tryDiagnostic = none ↔ queues.diagnostics = [] := by
  unfold HostQueues.tryDiagnostic
  cases queues.diagnostics <;> simp

theorem select_state (tx : HostTx) (queue : EventQueue) (out : RadioToHost × HostQueues) :
    (tx.select queue out).state ≠ .awaitingMeasurement := by
  simp [select]

theorem awaitMeasurement_state (tx : HostTx) :
    tx.awaitMeasurement.state ≠ .awaitingMeasurement ↔
      tx.queues.measurements.popOldest ≠ none := by
  unfold awaitMeasurement
  cases hout : tx.queues.tryMeasurement with
  | some out =>
    refine iff_of_true (select_state _ _ _) ?_
    rw [Ne, ← tryMeasurement_eq_none, hout]
    exact Option.some_ne_none out
  | none => simpa using tryMeasurement_eq_none.mp hout

/-- The selection falls into the wait exactly on a stale signal. -/
theorem pollSelect_state (tx : HostTx) :
    tx.pollSelect.state ≠ .awaitingMeasurement ↔ ¬ tx.StaleSignal := by
  unfold pollSelect StaleSignal
  split_ifs with hsignal
  · rw [awaitMeasurement_state]
    simp [hsignal]
  · refine iff_of_true ?_ (by simp [hsignal])
    split
    · exact select_state _ _ _
    · split
      · exact select_state _ _ _
      · simp

/-- The choice of the next event falls into the wait exactly when no queue holds
one and the signal is set. -/
theorem nextEvent_state (tx : HostTx) :
    tx.nextEvent.state ≠ .awaitingMeasurement ↔
      ¬ (tx.StaleSignal ∧ tx.queues.control = [] ∧ tx.queues.diagnostics = []) := by
  unfold nextEvent
  split
  · rename_i out hout
    unfold overdueDiagnostic at hout
    split_ifs at hout
    refine iff_of_true (select_state _ _ _) ?_
    rintro ⟨-, -, hnil⟩
    rw [← tryDiagnostic_eq_none, hout] at hnil
    cases hnil
  · split
    · rename_i out hout
      unfold overdueControl at hout
      split_ifs at hout
      refine iff_of_true (select_state _ _ _) ?_
      rintro ⟨-, hnil, -⟩
      rw [← tryControl_eq_none, hout] at hnil
      cases hnil
    · split
      · rename_i out hout
        refine iff_of_true (select_state _ _ _) ?_
        rintro ⟨⟨-, hnone⟩, -⟩
        rw [← tryMeasurement_eq_none, hout] at hnone
        cases hnone
      · split
        · rename_i out hout
          refine iff_of_true (select_state _ _ _) ?_
          rintro ⟨-, hnil, -⟩
          rw [← tryControl_eq_none, hout] at hnil
          cases hnil
        · rename_i hcontrol
          split
          · rename_i out hout
            refine iff_of_true (select_state _ _ _) ?_
            rintro ⟨-, -, hnil⟩
            rw [← tryDiagnostic_eq_none, hout] at hnil
            cases hnil
          · rename_i hdiagnostic
            rw [pollSelect_state, tryControl_eq_none.mp hcontrol,
              tryDiagnostic_eq_none.mp hdiagnostic]
            simp

/-- A task outside the wait enters it exactly by selecting with a stale signal. -/
theorem step_attentive {tx tx' : HostTx} {event : Event} (h : tx.Attentive)
    (hstep : tx.step event = some tx') : tx'.Attentive ↔ ¬ tx.SelectsStale event := by
  rw [attentive_iff] at h ⊢
  cases step_moved hstep with
  | publishes => exact iff_of_true h not_false
  | clears => exact iff_of_true h not_false
  | resends hstate => exact iff_of_true (by simp) (by simp [SelectsStale, hstate])
  | connects hstate =>
    rw [nextEvent_state]
    simp [SelectsStale, hstate]
  | selects hstate =>
    rw [pollSelect_state]
    simp [SelectsStale, hstate]
  | wakes hstate => exact absurd hstate h
  | waits hstate => exact absurd hstate h
  | sends hstate =>
    rw [nextEvent_state]
    simp [SelectsStale, hstate]
  | putsBack => exact iff_of_true (by simp) not_false
  | keeps => exact iff_of_true (by simp) not_false

/-- In a run of the task every state is attentive exactly when no step selects
with a stale signal. -/
theorem queues_attended {events : List Event} {tx : HostTx}
    (hrun : Runs.run step {} events = some tx) :
    (∀ front back m, events = front ++ back → Runs.run step {} front = some m → m.Attentive) ↔
      Runs.Along step (fun tx event => ¬ tx.SelectsStale event) {} events := by
  apply Runs.visited_iff_along step _ _ hrun
  · intro tx event tx' h hstep
    exact step_attentive h hstep
  · rw [attentive_iff]
    simp

/-- The selection is woken by its measurement and consumes the signal. -/
def wokenRun : List Event :=
  [.connect, .publish (.completedExchange (sampleExchange ⟨1⟩)), .poll, .sendDone]

theorem queues_attended_woken : ∃ tx, Runs.run step {} wokenRun = some tx ∧ tx.Attentive := by
  have hrun : ∃ tx, Runs.run step {} wokenRun = some tx := ⟨_, rfl⟩
  obtain ⟨tx, hrun⟩ := hrun
  refine ⟨tx, hrun, (queues_attended hrun).mpr ?_ wokenRun [] tx (by simp) hrun⟩
  refine ⟨by simp [SelectsStale, StaleSignal], fun s hs => ?_⟩
  obtain rfl := Option.some.inj hs
  refine ⟨by simp [SelectsStale], fun s hs => ?_⟩
  obtain rfl := Option.some.inj hs
  refine ⟨?_, fun s hs => ?_⟩
  · rintro ⟨-, -, hnone⟩
    cases hnone
  · obtain rfl := Option.some.inj hs
    refine ⟨?_, fun s hs => trivial⟩
    rintro ⟨-, ⟨hsignal, -⟩, -⟩
    cases hsignal

/-- A measurement is sent from the store while the signal stays set; the next
selection waits for a measurement alone and a control event finds it deaf. -/
def deafRun : List Event :=
  [.publish (.completedExchange (sampleExchange ⟨1⟩)), .connect, .sendDone,
    .publish (.ready 0 0)]

theorem leftover_signal_deafens :
    ¬ ∀ events tx, Runs.run step {} events = some tx → ¬ tx.Deaf := by
  intro hall
  have hdeaf : ∃ tx, Runs.run step {} deafRun = some tx ∧ tx.Deaf :=
    ⟨_, rfl, rfl, Or.inl (by decide)⟩
  obtain ⟨tx, hrun, hdeaf⟩ := hdeaf
  exact hall deafRun tx hrun hdeaf

end Mission10.Uwb.HostTx
