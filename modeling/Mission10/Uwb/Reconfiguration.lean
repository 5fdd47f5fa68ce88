import Mission10.Uwb.MeasurementDelivery

/-!
# Measurements across a reconfiguration

The ranging task clears the unsent measurements when it takes a new
configuration. What the transmit task holds at that moment is not in the store;
if its write then fails it is put back. The run is followed together with the
measurements pushed since the last clear.
-/
namespace Mission10.Uwb.HostTx

/-- The measurements pushed since the last clear, after an event. -/
def sinceClear (since : List CompletedExchange) : Event → List CompletedExchange
  | .publish message => since ++ message.measurement.toList
  | .clearMeasurements => []
  | _ => since

/-- The task together with the measurements pushed since the last clear. -/
def epochStep (current : HostTx × List CompletedExchange) (event : Event) :
    Option (HostTx × List CompletedExchange) :=
  (current.1.step event).map fun tx => (tx, sinceClear current.2 event)

/-- The step from `tx` starts to send `exchange`. -/
def Attempts (tx : HostTx) (event : Event) (exchange : CompletedExchange) : Prop :=
  (event = .connect ∨ event = .poll ∨ event = .sendDone) ∧
    ∃ tx', tx.step event = some tx' ∧ tx'.inFlight = some exchange

/-- The write that fails is of a measurement pushed since the last clear, or a
newer one of its peer is pending and it is discarded. -/
def RestoresCurrent (current : HostTx × List CompletedExchange) (event : Event) : Prop :=
  event = .sendFailed → ∀ exchange, current.1.inFlight = some exchange →
    exchange ∈ current.2 ∨
      ∃ newer ∈ current.1.queues.measurements.pending, newer.peer = exchange.peer

/-- The store holds only measurements pushed since the last clear. -/
structure Current (current : HostTx × List CompletedExchange) : Prop where
  routed : current.1.Routed
  keyed : LatestExchanges.ops.Keyed current.1.queues.measurements
  recent : ∀ exchange ∈ current.1.queues.measurements.pending, exchange ∈ current.2

theorem mem_of_inserts {slots : LatestExchanges} {exchange : CompletedExchange}
    {out : LatestExchanges × Bool} (h : LatestExchanges.ops.Inserts slots exchange out)
    {x : CompletedExchange} (hx : x ∈ out.1.pending) : x = exchange ∨ x ∈ slots.pending := by
  obtain ⟨gone, rest, hold, hnew, -, -⟩ := h
  rcases List.mem_cons.mp (hnew.mem_iff.mp hx) with rfl | hrest
  · exact Or.inl rfl
  · exact Or.inr (hold.mem_iff.mpr (List.mem_append_right gone hrest))

/-- Choosing an event takes at most one measurement, out of the store. -/
theorem Chooses.current {tx tx' : HostTx} {since : List CompletedExchange}
    (hc : tx.Chooses tx') (h : Current (tx, since)) :
    Current (tx', since) ∧ ∀ exchange, tx'.inFlight = some exchange → exchange ∈ since := by
  rcases hc.taken with ⟨hsame, hnone⟩ | ⟨exchange, hpop, hsome⟩
  · refine ⟨⟨hc.routed, ?_, ?_⟩, ?_⟩
    · rw [hsame]
      exact h.keyed
    · rw [hsame]
      exact h.recent
    · simp [hnone]
  · have hperm := LatestExchanges.popOldest_perm hpop
    have hkeyed := h.keyed
    unfold LatestStore.Ops.Keyed at hkeyed
    rw [LatestExchanges.ops_contents, (hperm.map _).nodup_iff, List.map_cons,
      List.nodup_cons] at hkeyed
    refine ⟨⟨hc.routed, hkeyed.2, fun x hx => ?_⟩, fun x hx => ?_⟩
    · exact h.recent x (hperm.mem_iff.mpr (List.mem_cons_of_mem _ hx))
    · rw [hsome, Option.some.injEq] at hx
      exact hx ▸ h.recent exchange (hperm.mem_iff.mpr List.mem_cons_self)

theorem Current.publish {tx : HostTx} {since : List CompletedExchange}
    (h : Current (tx, since)) (message : RadioToHost) :
    Current ({ tx with queues := tx.queues.publish message },
      since ++ message.measurement.toList) := by
  cases hm : message.measurement with
  | some exchange =>
    obtain rfl : message = .completedExchange exchange := by
      cases message <;> simp_all [RadioToHost.measurement]
    have hins := LatestExchanges.ops_lawful.push tx.queues.measurements exchange h.keyed
    refine ⟨h.routed.publish _, h.keyed.of_inserts hins, fun x hx => ?_⟩
    rcases mem_of_inserts hins hx with rfl | hold
    · simp
    · exact List.mem_append_left _ (h.recent x hold)
  | none =>
    obtain ⟨hstore, -⟩ := publish_frame tx.queues hm
    refine ⟨h.routed.publish _, ?_, fun x hx => ?_⟩
    · show LatestExchanges.ops.Keyed (tx.queues.publish message).measurements
      rw [hstore]
      exact h.keyed
    · change x ∈ (tx.queues.publish message).measurements.pending at hx
      rw [hstore] at hx
      simpa using h.recent x hx

/-- A measurement that was pushed since the last clear, or finds a newer one of
its peer, may be put back. -/
theorem Current.restore {tx tx' : HostTx} {since : List CompletedExchange}
    (h : Current (tx, since)) (hrestores : RestoresCurrent (tx, since) .sendFailed)
    (hstep : tx.step .sendFailed = some tx') : Current (tx', since) := by
  cases step_moved hstep with
  | putsBack hstate =>
    rename_i exchange
    have hflight : tx.inFlight = some exchange := by
      simp [inFlight, hstate, RadioToHost.measurement]
    by_cases htaken : ∃ newer ∈ tx.queues.measurements.pending, newer.peer = exchange.peer
    · have hsame : tx.queues.measurements.restore exchange = (tx.queues.measurements, true) :=
        LatestExchanges.ops_lawful.restore_taken _ _ htaken
      rw [hsame]
      exact ⟨⟨h.routed.control, h.routed.diagnostics, by simp⟩, h.keyed, h.recent⟩
    · have hrecent : exchange ∈ since :=
        (hrestores rfl exchange hflight).resolve_right htaken
      have hins : LatestExchanges.ops.Inserts tx.queues.measurements exchange
          (tx.queues.measurements.restore exchange) :=
        LatestExchanges.ops_lawful.restore_free _ _ h.keyed
          fun y hy hpeer => htaken ⟨y, hy, hpeer⟩
      refine ⟨⟨h.routed.control, h.routed.diagnostics, by simp⟩, h.keyed.of_inserts hins,
        fun x hx => ?_⟩
      rcases mem_of_inserts hins hx with rfl | hold
      · exact hrecent
      · exact h.recent x hold
  | keeps hstate hframe =>
    refine ⟨⟨h.routed.control, h.routed.diagnostics, ?_⟩, h.keyed, h.recent⟩
    intro pending hpending
    simp only [TxState.disconnected.injEq, Option.some.injEq] at hpending
    exact hpending ▸ hframe

/-- A step keeps the store current, and an attempt it starts is of a measurement
pushed since the last clear. -/
theorem step_current {tx tx' : HostTx} {since : List CompletedExchange} {event : Event}
    (h : Current (tx, since)) (hrestores : RestoresCurrent (tx, since) event)
    (hstep : tx.step event = some tx') :
    Current (tx', sinceClear since event) ∧
      ∀ exchange, tx.Attempts event exchange → exchange ∈ since := by
  have hnone : ∀ {e : Event}, e ≠ .connect → e ≠ .poll → e ≠ .sendDone →
      ∀ exchange, tx.Attempts e exchange → exchange ∈ since := by
    rintro e h1 h2 h3 exchange ⟨hevent, -⟩
    rcases hevent with he | he | he <;> contradiction
  have hattempt : ∀ (hfresh : ∀ exchange, tx'.inFlight = some exchange → exchange ∈ since)
      (exchange : CompletedExchange), tx.Attempts event exchange → exchange ∈ since := by
    rintro hfresh exchange ⟨-, tx'', hstep', hflight⟩
    rw [hstep, Option.some.injEq] at hstep'
    exact hfresh exchange (hstep' ▸ hflight)
  have hchosen : tx.Chooses tx' → Current (tx', since) ∧
      ∀ exchange, tx.Attempts event exchange → exchange ∈ since := by
    intro hchooses
    obtain ⟨hcurrent, hfresh⟩ := hchooses.current h
    exact ⟨hcurrent, hattempt hfresh⟩
  cases step_moved hstep with
  | publishes message => exact ⟨h.publish message, hnone (by simp) (by simp) (by simp)⟩
  | clears =>
    refine ⟨⟨⟨h.routed.control, h.routed.diagnostics, h.routed.pending⟩, ?_, ?_⟩,
      hnone (by simp) (by simp) (by simp)⟩
    · simp [LatestStore.Ops.Keyed, HostQueues.clearMeasurements]
    · simp [HostQueues.clearMeasurements]
  | resends hstate =>
    have hframe := h.routed.pending _ hstate
    refine ⟨⟨⟨h.routed.control, h.routed.diagnostics, by simp⟩, h.keyed, h.recent⟩, hattempt ?_⟩
    simp [inFlight, hframe]
  | connects => exact hchosen (nextEvent_chooses h.routed)
  | selects => exact hchosen (pollSelect_chooses h.routed)
  | wakes =>
    have hr : Routed { tx with queues := { tx.queues with measurementSignal := false } } :=
      ⟨h.routed.control, h.routed.diagnostics, h.routed.pending⟩
    have hc := awaitMeasurement_chooses hr
    exact hchosen ⟨hc.routed, hc.drops, hc.taken⟩
  | waits hstate => exact ⟨h, hattempt (by simp [inFlight, hstate])⟩
  | sends => exact hchosen (nextEvent_chooses h.routed)
  | putsBack => exact ⟨h.restore hrestores hstep, hnone (by simp) (by simp) (by simp)⟩
  | keeps => exact ⟨h.restore hrestores hstep, hnone (by simp) (by simp) (by simp)⟩

theorem epochStep_some {current next : HostTx × List CompletedExchange} {event : Event}
    (h : epochStep current event = some next) :
    current.1.step event = some next.1 ∧ next.2 = sinceClear current.2 event := by
  obtain ⟨tx, hstep, rfl⟩ := Option.map_eq_some_iff.mp h
  exact ⟨hstep, rfl⟩

theorem current_initial : Current ({}, []) := by
  refine ⟨⟨by simp, by simp, by simp⟩, ?_, by simp⟩
  simp [LatestStore.Ops.Keyed]

/-- In a run whose failed writes are all of measurements pushed since the last
clear, or find a newer one of their peer, every measurement that the task starts
to send was pushed since the last clear. -/
theorem reconfiguration_isolates {events : List Event}
    {last : HostTx × List CompletedExchange}
    (hrun : Runs.run epochStep ({}, []) events = some last)
    (hrestores : Runs.Along epochStep RestoresCurrent ({}, []) events) :
    ∀ front event back current, events = front ++ event :: back →
      Runs.run epochStep ({}, []) front = some current →
      ∀ exchange, current.1.Attempts event exchange → exchange ∈ current.2 := by
  intro front event back current heq hfront exchange hattempt
  subst heq
  rw [Runs.along_append epochStep hfront] at hrestores
  have hcurrent : Current current :=
    Runs.run_invariant_along epochStep Current RestoresCurrent
      (fun s e s' hs hP hstep => by
        obtain ⟨htx, hsince⟩ := epochStep_some hstep
        obtain ⟨tx', since'⟩ := s'
        obtain rfl : since' = sinceClear s.2 e := hsince
        exact (step_current hs hP htx).1)
      current_initial hrestores.1 hfront
  obtain ⟨m, hm, -⟩ := Runs.run_append_some epochStep hrun
  rw [hfront, Option.some.injEq] at hm
  subst hm
  obtain ⟨-, tx', hstep, -⟩ := id hattempt
  exact (step_current hcurrent hrestores.2.1 hstep).2 exchange hattempt

/-- A measurement is cleared while nothing is written, and the next one fails and
is sent again. -/
def clearedRun : List Event :=
  [.publish (.completedExchange (sampleExchange ⟨1⟩)), .clearMeasurements,
    .publish (.completedExchange (sampleExchange ⟨2⟩)), .connect, .sendFailed, .connect]

theorem reconfiguration_isolates_cleared :
    ∃ current, Runs.run epochStep ({}, []) (clearedRun.take 5) = some current ∧
      current.1.Attempts .connect (sampleExchange ⟨2⟩) ∧ sampleExchange ⟨2⟩ ∈ current.2 := by
  have hrun : ∃ last, Runs.run epochStep ({}, []) clearedRun = some last := ⟨_, rfl⟩
  obtain ⟨last, hrun⟩ := hrun
  have hattempt : ∃ current, Runs.run epochStep ({}, []) (clearedRun.take 5) = some current ∧
      current.1.Attempts .connect (sampleExchange ⟨2⟩) := ⟨_, rfl, Or.inl rfl, _, rfl, rfl⟩
  have hrestores : Runs.Along epochStep RestoresCurrent ({}, []) clearedRun := by
    refine ⟨by simp [RestoresCurrent], fun s hs => ?_⟩
    obtain rfl := Option.some.inj hs
    refine ⟨by simp [RestoresCurrent], fun s hs => ?_⟩
    obtain rfl := Option.some.inj hs
    refine ⟨by simp [RestoresCurrent], fun s hs => ?_⟩
    obtain rfl := Option.some.inj hs
    refine ⟨by simp [RestoresCurrent], fun s hs => ?_⟩
    obtain rfl := Option.some.inj hs
    refine ⟨?_, fun s hs => ⟨by simp [RestoresCurrent], fun s hs => trivial⟩⟩
    intro _ exchange hflight
    obtain rfl := Option.some.inj hflight
    exact Or.inl List.mem_cons_self
  obtain ⟨current, hfront, hattempt⟩ := hattempt
  exact ⟨current, hfront, hattempt, reconfiguration_isolates hrun hrestores _ _ [] current rfl
    hfront _ hattempt⟩

/-- The write of a measurement is under way when the configuration is cleared;
it fails and the measurement is sent again. -/
def restoredRun : List Event :=
  [.publish (.completedExchange (sampleExchange ⟨1⟩)), .connect, .clearMeasurements,
    .sendFailed]

theorem restored_after_clear :
    ¬ ∀ events current event exchange, Runs.run epochStep ({}, []) events = some current →
      current.1.Attempts event exchange → exchange ∈ current.2 := by
  intro hall
  have hattempt : ∃ current, Runs.run epochStep ({}, []) restoredRun = some current ∧
      current.1.Attempts .connect (sampleExchange ⟨1⟩) ∧ current.2 = [] :=
    ⟨_, rfl, ⟨Or.inl rfl, _, rfl, rfl⟩, rfl⟩
  obtain ⟨current, hrun, hattempt, hnone⟩ := hattempt
  have hmem := hall restoredRun current .connect _ hrun hattempt
  rw [hnone] at hmem
  cases hmem

end Mission10.Uwb.HostTx
