import Mission10.Uwb.HostTransmit

/-!
# Delivery of measurements to the host

The transmit task with the history of its measurements, and its view as a
latest-value store with one consumer: every step of the task is a sequence of
store operations. What the store guarantees for any order of operations then
holds of every run of the task.
-/
namespace Mission10.Uwb

/-- The measurements published, written to the host and cleared so far. -/
structure Ledger where
  pushed : List CompletedExchange := []
  sent : List CompletedExchange := []
  cleared : List CompletedExchange := []

namespace RadioToHost

/-- The measurement an event carries. -/
def measurement : RadioToHost → Option CompletedExchange
  | .completedExchange exchange => some exchange
  | _ => none

end RadioToHost

namespace HostTx

/-- The measurement taken from the store and not yet written. -/
def inFlight (tx : HostTx) : Option CompletedExchange :=
  match tx.state with
  | .sending event => event.measurement
  | _ => none

/-- What an event makes of the task, one case for each branch of the step. -/
inductive Moved (tx : HostTx) : Event → HostTx → Prop
  | publishes (message : RadioToHost) :
    Moved tx (.publish message) { tx with queues := tx.queues.publish message }
  | clears : Moved tx .clearMeasurements { tx with queues := tx.queues.clearMeasurements }
  | resends {message : RadioToHost} (hstate : tx.state = .disconnected (some message)) :
    Moved tx .connect { tx with state := .sending message }
  | connects (hstate : tx.state = .disconnected none) : Moved tx .connect tx.nextEvent
  | selects (hstate : tx.state = .selecting) : Moved tx .poll tx.pollSelect
  | wakes (hstate : tx.state = .awaitingMeasurement) : Moved tx .poll
      (awaitMeasurement { tx with queues := { tx.queues with measurementSignal := false } })
  | waits (hstate : tx.state = .awaitingMeasurement) : Moved tx .poll tx
  | sends {message : RadioToHost} (hstate : tx.state = .sending message) :
    Moved tx .sendDone tx.nextEvent
  | putsBack {exchange : CompletedExchange}
      (hstate : tx.state = .sending (.completedExchange exchange)) :
    Moved tx .sendFailed { tx with
      queues := tx.queues.pushMeasurement (tx.queues.measurements.restore exchange)
      state := .disconnected none }
  | keeps {message : RadioToHost} (hstate : tx.state = .sending message)
      (hframe : message.measurement = none) :
    Moved tx .sendFailed { tx with state := .disconnected (some message) }

theorem step_moved {tx tx' : HostTx} {event : Event} (h : tx.step event = some tx') :
    tx.Moved event tx' := by
  cases event with
  | publish message =>
    rw [← Option.some.inj h]
    exact .publishes message
  | clearMeasurements =>
    rw [← Option.some.inj h]
    exact .clears
  | connect =>
    dsimp only [step] at h
    split at h
    · next hstate => exact Option.some.inj h ▸ .resends hstate
    · next hstate => exact Option.some.inj h ▸ .connects hstate
    · cases h
  | poll =>
    dsimp only [step] at h
    split at h
    · next hstate => exact Option.some.inj h ▸ .selects hstate
    · next hstate =>
      split at h
      · exact Option.some.inj h ▸ .wakes hstate
      · exact Option.some.inj h ▸ .waits hstate
    · cases h
  | sendDone =>
    dsimp only [step] at h
    split at h
    · next hstate => exact Option.some.inj h ▸ .sends hstate
    · cases h
  | sendFailed =>
    dsimp only [step] at h
    split at h
    · next hstate => exact Option.some.inj h ▸ .putsBack hstate
    · next message hother hstate =>
      have hframe : message.measurement = none := by
        cases message with
        | completedExchange exchange => exact absurd rfl (hother exchange)
        | _ => rfl
      exact Option.some.inj h ▸ .keeps hstate hframe
    · cases h

def record (tx : HostTx) (event : Event) (ledger : Ledger) : Ledger :=
  match event with
  | .publish message => { ledger with pushed := ledger.pushed ++ message.measurement.toList }
  | .clearMeasurements =>
    { ledger with cleared := ledger.cleared ++ tx.queues.measurements.pending }
  | .sendDone => { ledger with sent := ledger.sent ++ tx.inFlight.toList }
  | _ => ledger

/-- The task and its history. -/
def recordedStep (current : HostTx × Ledger) (event : Event) : Option (HostTx × Ledger) :=
  (current.1.step event).map fun tx => (tx, current.1.record event current.2)

/-- Measurements wait in the store only, never in a channel or as the pending
event of a lost connection. -/
structure Routed (tx : HostTx) : Prop where
  control : ∀ event ∈ tx.queues.control, event.measurement = none
  diagnostics : ∀ event ∈ tx.queues.diagnostics, event.measurement = none
  pending : ∀ event, tx.state = .disconnected (some event) → event.measurement = none

/-- The task seen as a consumer of the store. -/
def delivery (tx : HostTx) (ledger : Ledger) (drops : ℕ) :
    LatestStore.Delivery LatestExchanges CompletedExchange where
  store := tx.queues.measurements
  inFlight := tx.inFlight
  drops := drops
  pushed := ledger.pushed
  sent := ledger.sent
  cleared := ledger.cleared

/-- What choosing the next event can do to the measurements: nothing, or take
the oldest one. -/
structure Chooses (tx tx' : HostTx) : Prop where
  routed : tx'.Routed
  drops : tx'.queues.measurementDrops = tx.queues.measurementDrops
  taken : (tx'.queues.measurements = tx.queues.measurements ∧ tx'.inFlight = none) ∨
    ∃ exchange, tx.queues.measurements.popOldest = some (exchange, tx'.queues.measurements) ∧
      tx'.inFlight = some exchange

theorem select_measurement_chooses {tx : HostTx} (h : tx.Routed) {out : RadioToHost × HostQueues}
    (hout : tx.queues.tryMeasurement = some out) :
    tx.Chooses (tx.select .measurement out) := by
  obtain ⟨⟨exchange, slots⟩, hpop, rfl⟩ := Option.map_eq_some_iff.mp hout
  exact ⟨⟨h.control, h.diagnostics, by simp [select]⟩, rfl, .inr ⟨exchange, hpop, rfl⟩⟩

theorem select_control_chooses {tx : HostTx} (h : tx.Routed) {out : RadioToHost × HostQueues}
    (hout : tx.queues.tryControl = some out) : tx.Chooses (tx.select .control out) := by
  unfold HostQueues.tryControl at hout
  cases hc : tx.queues.control with
  | nil => simp [hc] at hout
  | cons event rest =>
    simp only [hc, Option.some.injEq] at hout
    subst hout
    have hall := h.control
    rw [hc] at hall
    exact ⟨⟨fun e he => hall e (List.mem_cons_of_mem _ he), h.diagnostics, by simp [select]⟩,
      rfl, .inl ⟨rfl, hall event List.mem_cons_self⟩⟩

theorem select_diagnostic_chooses {tx : HostTx} (h : tx.Routed) {out : RadioToHost × HostQueues}
    (hout : tx.queues.tryDiagnostic = some out) : tx.Chooses (tx.select .diagnostic out) := by
  unfold HostQueues.tryDiagnostic at hout
  cases hd : tx.queues.diagnostics with
  | nil => simp [hd] at hout
  | cons event rest =>
    simp only [hd, Option.some.injEq] at hout
    subst hout
    have hall := h.diagnostics
    rw [hd] at hall
    exact ⟨⟨h.control, fun e he => hall e (List.mem_cons_of_mem _ he), by simp [select]⟩,
      rfl, .inl ⟨rfl, hall event List.mem_cons_self⟩⟩

theorem awaitMeasurement_chooses {tx : HostTx} (h : tx.Routed) :
    tx.Chooses tx.awaitMeasurement := by
  unfold awaitMeasurement
  cases hout : tx.queues.tryMeasurement with
  | some out => exact select_measurement_chooses h hout
  | none => exact ⟨⟨h.control, h.diagnostics, by simp⟩, rfl, .inl ⟨rfl, rfl⟩⟩

theorem pollSelect_chooses {tx : HostTx} (h : tx.Routed) : tx.Chooses tx.pollSelect := by
  unfold pollSelect
  split_ifs with hsignal
  · have hr : HostTx.Routed { tx with
        queues := { tx.queues with measurementSignal := false } } := ⟨h.1, h.2, h.3⟩
    have hc := awaitMeasurement_chooses hr
    exact ⟨hc.routed, hc.drops, hc.taken⟩
  · cases hcontrol : tx.queues.tryControl with
    | some out => exact select_control_chooses h hcontrol
    | none =>
      cases hdiagnostic : tx.queues.tryDiagnostic with
      | some out => exact select_diagnostic_chooses h hdiagnostic
      | none => exact ⟨⟨h.control, h.diagnostics, by simp⟩, rfl, .inl ⟨rfl, rfl⟩⟩

theorem nextEvent_chooses {tx : HostTx} (h : tx.Routed) : tx.Chooses tx.nextEvent := by
  unfold nextEvent
  cases hd : tx.overdueDiagnostic with
  | some out =>
    unfold overdueDiagnostic at hd
    split_ifs at hd
    exact select_diagnostic_chooses h hd
  | none =>
    cases hc : tx.overdueControl with
    | some out =>
      unfold overdueControl at hc
      split_ifs at hc
      exact select_control_chooses h hc
    | none =>
      cases hm : tx.queues.tryMeasurement with
      | some out => exact select_measurement_chooses h hm
      | none =>
        cases hc' : tx.queues.tryControl with
        | some out => exact select_control_chooses h hc'
        | none =>
          cases hd' : tx.queues.tryDiagnostic with
          | some out => exact select_diagnostic_chooses h hd'
          | none => exact pollSelect_chooses h

/-- A choice made with empty hands is at most one `pop` of the store. -/
theorem Chooses.delivers {tx tx' : HostTx} (h : tx.Chooses tx')
    (d : LatestStore.Delivery LatestExchanges CompletedExchange)
    (hstore : d.store = tx.queues.measurements) (hfly : d.inFlight = none) :
    ∃ es, Runs.run (LatestStore.step LatestExchanges.ops) d es =
      some { d with store := tx'.queues.measurements, inFlight := tx'.inFlight } := by
  rcases h.taken with ⟨hsame, hnone⟩ | ⟨exchange, hpop, hsome⟩
  · exact ⟨[], by rw [Runs.run_nil, hsame, hnone, ← hstore, ← hfly]⟩
  · refine ⟨[.pop], ?_⟩
    have hops : LatestExchanges.ops.pop d.store = some (exchange, tx'.queues.measurements) := by
      rw [hstore]
      exact hpop
    simp [Runs.run_cons, LatestStore.step, hfly, hops, hsome]

theorem Routed.publish {tx : HostTx} (h : tx.Routed) (message : RadioToHost) :
    Routed { tx with queues := tx.queues.publish message } := by
  have hpush : ∀ {items : List RadioToHost}, (∀ event ∈ items, event.measurement = none) →
      message.measurement = none → ∀ event ∈ items ++ [message], event.measurement = none := by
    intro items hitems hmessage event hevent
    rcases List.mem_append.mp hevent with hevent | hevent
    · exact hitems event hevent
    · exact List.mem_singleton.mp hevent ▸ hmessage
  refine ⟨?_, ?_, h.pending⟩
  · cases message with
    | completedExchange exchange => exact h.control
    | error diagnostic =>
      simp only [HostQueues.publish]
      split_ifs <;> exact h.control
    | _ =>
      simp only [HostQueues.publish]
      split_ifs
      · exact hpush h.control rfl
      · exact h.control
  · cases message with
    | completedExchange exchange => exact h.diagnostics
    | error diagnostic =>
      simp only [HostQueues.publish]
      split_ifs
      · exact hpush h.diagnostics rfl
      · exact h.diagnostics
    | _ =>
      simp only [HostQueues.publish]
      split_ifs <;> exact h.diagnostics

/-- Only a measurement touches the store and its drop counter. -/
theorem publish_frame (queues : HostQueues) {message : RadioToHost}
    (h : message.measurement = none) :
    (queues.publish message).measurements = queues.measurements ∧
      (queues.publish message).measurementDrops = queues.measurementDrops := by
  cases message with
  | completedExchange exchange => cases h
  | _ =>
    simp only [HostQueues.publish]
    split_ifs <;> exact ⟨rfl, rfl⟩

theorem pushMeasurement_counter {queues : HostQueues} {drops : ℕ}
    (h : queues.measurementDrops = UInt32.ofNat drops) (out : LatestExchanges × Bool) :
    (queues.pushMeasurement out).measurementDrops = UInt32.ofNat (drops + out.2.toNat) := by
  cases hflag : out.2 with
  | false => simp [HostQueues.pushMeasurement, hflag, h]
  | true => simp [HostQueues.pushMeasurement, hflag, h, UInt32.ofNat_add]

/-- The task and its ledger after `drops` drops, as the store sees them. -/
structure Shows (current : HostTx × Ledger) (drops : ℕ)
    (d : LatestStore.Delivery LatestExchanges CompletedExchange) : Prop where
  routed : current.1.Routed
  counter : current.1.queues.measurementDrops = UInt32.ofNat drops
  view : d = current.1.delivery current.2 drops

/-- From a state seen as `d`, the task has moved to one seen as the result of
some store operations on `d`. -/
def Reaches (d : LatestStore.Delivery LatestExchanges CompletedExchange)
    (current : HostTx × Ledger) : Prop :=
  ∃ drops es d', Runs.run (LatestStore.step LatestExchanges.ops) d es = some d' ∧
    Shows current drops d'

theorem publish_reaches {tx : HostTx} {ledger : Ledger} {drops : ℕ}
    {d : LatestStore.Delivery LatestExchanges CompletedExchange} (h : Shows (tx, ledger) drops d)
    (message : RadioToHost) :
    Reaches d ({ tx with queues := tx.queues.publish message },
      tx.record (.publish message) ledger) := by
  obtain ⟨hrouted, hcounter, rfl⟩ := h
  cases hm : message.measurement with
  | some exchange =>
    obtain rfl : message = .completedExchange exchange := by
      cases message <;> simp_all [RadioToHost.measurement]
    exact ⟨_, [.push exchange], _, rfl, hrouted.publish _, pushMeasurement_counter hcounter _, rfl⟩
  | none =>
    obtain ⟨hstore, hdrops⟩ := publish_frame tx.queues hm
    refine ⟨drops, [], _, rfl, hrouted.publish _, hdrops.trans hcounter, ?_⟩
    simp [delivery, record, inFlight, hm, hstore]

theorem clear_reaches {tx : HostTx} {ledger : Ledger} {drops : ℕ}
    {d : LatestStore.Delivery LatestExchanges CompletedExchange}
    (h : Shows (tx, ledger) drops d) :
    Reaches d ({ tx with queues := tx.queues.clearMeasurements },
      tx.record .clearMeasurements ledger) := by
  obtain ⟨hrouted, hcounter, rfl⟩ := h
  exact ⟨drops, [.clear], _, rfl, ⟨hrouted.control, hrouted.diagnostics, hrouted.pending⟩,
    hcounter, rfl⟩

theorem chooses_reaches {tx tx' : HostTx} {ledger : Ledger} {drops : ℕ}
    {d : LatestStore.Delivery LatestExchanges CompletedExchange}
    (h : Shows (tx, ledger) drops d) (hfly : tx.inFlight = none) (hc : tx.Chooses tx') :
    Reaches d (tx', ledger) := by
  obtain ⟨hrouted, hcounter, rfl⟩ := h
  obtain ⟨es, hes⟩ := hc.delivers (tx.delivery ledger drops) rfl hfly
  exact ⟨drops, es, _, hes, hc.routed, hc.drops.trans hcounter, rfl⟩

/-- A step that ends the current write and chooses the next event. -/
theorem sendDone_reaches {tx : HostTx} {ledger : Ledger} {drops : ℕ}
    {d : LatestStore.Delivery LatestExchanges CompletedExchange}
    (h : Shows (tx, ledger) drops d) {event : RadioToHost} (hstate : tx.state = .sending event) :
    Reaches d (tx.nextEvent, tx.record .sendDone ledger) := by
  obtain ⟨hrouted, hcounter, rfl⟩ := h
  have hc := nextEvent_chooses hrouted
  have hfly : tx.inFlight = event.measurement := by simp [inFlight, hstate]
  cases hm : event.measurement with
  | none =>
    have hrecord : tx.record .sendDone ledger = ledger := by simp [record, hfly, hm]
    rw [hrecord]
    exact chooses_reaches ⟨hrouted, hcounter, rfl⟩ (hfly.trans hm) hc
  | some exchange =>
    have hflight : tx.inFlight = some exchange := hfly.trans hm
    let d' : LatestStore.Delivery LatestExchanges CompletedExchange :=
      { tx.delivery ledger drops with inFlight := none, sent := ledger.sent ++ [exchange] }
    have hdeliver : LatestStore.step LatestExchanges.ops (tx.delivery ledger drops) .deliver =
        some d' := by
      simp [LatestStore.step, delivery, hflight, d']
    obtain ⟨es, hes⟩ := hc.delivers d' rfl rfl
    refine ⟨drops, .deliver :: es, _, ?_, hc.routed, hc.drops.trans hcounter, rfl⟩
    rw [Runs.run_cons, hdeliver, Option.bind_some, hes]
    simp [delivery, record, hflight, d']

theorem putBack_reaches {tx : HostTx} {ledger : Ledger} {drops : ℕ}
    {d : LatestStore.Delivery LatestExchanges CompletedExchange}
    (h : Shows (tx, ledger) drops d) {exchange : CompletedExchange}
    (hstate : tx.state = .sending (.completedExchange exchange)) :
    Reaches d ({ tx with
      queues := tx.queues.pushMeasurement (tx.queues.measurements.restore exchange)
      state := .disconnected none }, ledger) := by
  obtain ⟨hrouted, hcounter, rfl⟩ := h
  have hflight : (tx.delivery ledger drops).inFlight = some exchange := by
    simp [delivery, inFlight, hstate, RadioToHost.measurement]
  have hputBack : LatestStore.step LatestExchanges.ops (tx.delivery ledger drops) .putBack =
      some { tx.delivery ledger drops with
        store := (tx.queues.measurements.restore exchange).1
        inFlight := none
        drops := drops + (tx.queues.measurements.restore exchange).2.toNat } := by
    simp only [LatestStore.step, hflight]
    rfl
  exact ⟨_, [.putBack], _, by rw [Runs.run_cons, hputBack]; rfl,
    ⟨hrouted.control, hrouted.diagnostics, by simp⟩, pushMeasurement_counter hcounter _, rfl⟩

/-- The event of a lost connection, which is no measurement, waits for the next one. -/
theorem keeps_reaches {tx : HostTx} {ledger : Ledger} {drops : ℕ}
    {d : LatestStore.Delivery LatestExchanges CompletedExchange}
    (h : Shows (tx, ledger) drops d) {message : RadioToHost}
    (hstate : tx.state = .sending message) (hframe : message.measurement = none) :
    Reaches d ({ tx with state := .disconnected (some message) }, ledger) := by
  obtain ⟨hrouted, hcounter, rfl⟩ := h
  refine ⟨drops, [], _, rfl, ⟨hrouted.control, hrouted.diagnostics, ?_⟩, hcounter, ?_⟩
  · intro pending hpending
    simp only [TxState.disconnected.injEq, Option.some.injEq] at hpending
    exact hpending ▸ hframe
  · simp [delivery, inFlight, hstate, hframe]

/-- Every step of the task is a sequence of store operations. -/
theorem recordedStep_reaches {current next : HostTx × Ledger} {event : Event} {drops : ℕ}
    {d : LatestStore.Delivery LatestExchanges CompletedExchange} (h : Shows current drops d)
    (hrecorded : recordedStep current event = some next) : Reaches d next := by
  obtain ⟨tx, ledger⟩ := current
  obtain ⟨tx', hstep, rfl⟩ := Option.map_eq_some_iff.mp hrecorded
  change tx.step event = some tx' at hstep
  change Reaches d (tx', tx.record event ledger)
  cases step_moved hstep with
  | publishes message => exact publish_reaches h message
  | clears => exact clear_reaches h
  | resends hstate =>
    have hfly : tx.inFlight = none := by simp [inFlight, hstate]
    have hframe := h.routed.pending _ hstate
    refine chooses_reaches h hfly ⟨?_, rfl, .inl ⟨rfl, by simp [inFlight, hframe]⟩⟩
    exact ⟨h.routed.control, h.routed.diagnostics, by simp⟩
  | connects hstate =>
    exact chooses_reaches h (by simp [inFlight, hstate]) (nextEvent_chooses h.routed)
  | selects hstate =>
    exact chooses_reaches h (by simp [inFlight, hstate]) (pollSelect_chooses h.routed)
  | wakes hstate =>
    have hr : Routed { tx with queues := { tx.queues with measurementSignal := false } } :=
      ⟨h.routed.control, h.routed.diagnostics, h.routed.pending⟩
    have hc := awaitMeasurement_chooses hr
    exact chooses_reaches h (by simp [inFlight, hstate]) ⟨hc.routed, hc.drops, hc.taken⟩
  | waits hstate =>
    have hfly : tx.inFlight = none := by simp [inFlight, hstate]
    exact chooses_reaches h hfly ⟨h.routed, rfl, .inl ⟨rfl, hfly⟩⟩
  | sends hstate => exact sendDone_reaches h hstate
  | putsBack hstate => exact putBack_reaches h hstate
  | keeps hstate hframe => exact keeps_reaches h hstate hframe

/-- What the store invariant says of the task. -/
structure Delivers (current : HostTx × Ledger) : Prop where
  shown : ∃ drops d, Shows current drops d ∧ LatestStore.Inv LatestExchanges.ops d

theorem recordedStep_delivers {current next : HostTx × Ledger} {event : Event}
    (h : Delivers current) (hstep : recordedStep current event = some next) :
    Delivers next := by
  obtain ⟨drops, d, hshows, hinv⟩ := h
  obtain ⟨drops', es, d', hes, hshows'⟩ := recordedStep_reaches hshows hstep
  exact ⟨drops', d', hshows', LatestStore.run_inv LatestExchanges.ops_lawful hinv hes⟩

theorem delivers_initial : Delivers ({}, {}) := by
  refine ⟨0, _, ⟨⟨by simp, by simp, by simp⟩, rfl, rfl⟩, ?_, ⟨[], by decide⟩, fun k => ?_⟩
  · simp [LatestStore.Ops.Keyed, delivery]
  · simp [delivery, inFlight]

theorem run_delivers {events : List Event} {current : HostTx × Ledger}
    (h : Runs.run recordedStep ({}, {}) events = some current) : Delivers current :=
  Runs.run_invariant recordedStep Delivers
    (fun _ _ _ hinv hstep => recordedStep_delivers hinv hstep) delivers_initial h

/-- The exchanges of one peer. -/
def ofPeer (peer : NodeAddress) (exchanges : List CompletedExchange) : List CompletedExchange :=
  exchanges.filter fun exchange => exchange.peer = peer

/-- An interrupted measurement never replaces a newer one of its peer. -/
theorem sendFailed_keeps_newer {tx tx' : HostTx} {older newer : CompletedExchange}
    (holder : tx.inFlight = some older) (hnewer : newer ∈ tx.queues.measurements.pending)
    (hpeer : newer.peer = older.peer) (hstep : tx.step .sendFailed = some tx') :
    tx'.queues.measurements = tx.queues.measurements := by
  have htaken : tx.queues.measurements.restore older = (tx.queues.measurements, true) :=
    LatestExchanges.ops_lawful.restore_taken _ _ ⟨newer, hnewer, hpeer⟩
  cases step_moved hstep with
  | putsBack hstate =>
    rename_i exchange
    have hsame : exchange = older := by
      simpa [inFlight, hstate, RadioToHost.measurement] using holder
    rw [hsame]
    exact congrArg Prod.fst htaken
  | keeps hstate hframe => simp [inFlight, hstate, hframe] at holder

/-- Whatever the order of publishing, writing, failing and clearing, the store
holds one exchange for each peer, a peer's exchanges are sent in push order, and
each exchange is sent, dropped and counted, pending, in flight or cleared. -/
theorem measurements_delivered {events : List Event} {tx : HostTx} {ledger : Ledger}
    (hrun : Runs.run recordedStep ({}, {}) events = some (tx, ledger))
    (hpushes : ledger.pushed.length < 2 ^ 32) :
    (tx.queues.measurements.pending.map CompletedExchange.peer).Nodup ∧
    (∀ peer, (ofPeer peer ledger.sent ++ ofPeer peer tx.inFlight.toList ++
      ofPeer peer tx.queues.measurements.pending).Sublist (ofPeer peer ledger.pushed)) ∧
    (∀ older newer tx', tx.inFlight = some older → newer ∈ tx.queues.measurements.pending →
      newer.peer = older.peer → tx.step .sendFailed = some tx' →
      tx'.queues.measurements = tx.queues.measurements) ∧
    ∃ dropped : List CompletedExchange,
      tx.queues.measurementDrops.toNat = dropped.length ∧
      ledger.pushed.Perm (ledger.sent ++ dropped ++ tx.queues.measurements.pending ++
        tx.inFlight.toList ++ ledger.cleared) := by
  obtain ⟨drops, d, ⟨-, hcounter, rfl⟩, hkeyed, ⟨dropped, hlength, hperm⟩, hordered⟩ :=
    run_delivers hrun
  refine ⟨hkeyed, hordered, fun _ _ _ => sendFailed_keeps_newer, dropped, ?_, hperm⟩
  have htotal := hperm.length_eq
  simp only [delivery, List.length_append] at htotal hlength
  rw [hcounter, UInt32.toNat_ofNat', hlength]
  exact Nat.mod_eq_of_lt (by omega)

/-- An exchange of one peer, told apart by its id. -/
def sampleExchange (exchangeId : ExchangeId) : CompletedExchange where
  peer := default
  exchangeId := exchangeId
  rangeEventTimeDtu := 0
  missionEventTime := .unavailable
  millimetres := 0
  rssiCdbm := 0
  qualityFlags := 0
  state := {}

/-- The link fails under the first exchange while the second one is pending. -/
def interruptedRun : List Event :=
  [.publish (.completedExchange (sampleExchange ⟨1⟩)), .connect,
    .publish (.completedExchange (sampleExchange ⟨2⟩)), .sendFailed, .connect, .sendDone]

theorem measurements_delivered_interrupted :
    ∃ tx ledger, Runs.run recordedStep ({}, {}) interruptedRun = some (tx, ledger) ∧
      ledger.sent = [sampleExchange ⟨2⟩] ∧ tx.queues.measurementDrops = 1 ∧
      (tx.queues.measurements.pending.map CompletedExchange.peer).Nodup := by
  have hrun : ∃ tx ledger, Runs.run recordedStep ({}, {}) interruptedRun = some (tx, ledger) ∧
      ledger.sent = [sampleExchange ⟨2⟩] ∧ tx.queues.measurementDrops = 1 ∧
      ledger.pushed.length < 2 ^ 32 := ⟨_, _, rfl, rfl, rfl, by decide⟩
  obtain ⟨tx, ledger, hrun, hsent, hdrops, hpushes⟩ := hrun
  exact ⟨tx, ledger, hrun, hsent, hdrops, (measurements_delivered hrun hpushes).1⟩

end HostTx

end Mission10.Uwb
