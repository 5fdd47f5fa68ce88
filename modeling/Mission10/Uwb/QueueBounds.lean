import Mission10.Uwb.QueueAttention

/-!
# Bounds of the event queues

The choice of the next event counts the measurements since a control event and the
events since a diagnostic. A full count gives way to the queue that waits, unless the
choice had already begun while that queue was empty: then one more event may come
first. From any counts, the room left for other events is at most the full count.
-/
namespace Mission10.Uwb

deriving instance DecidableEq for EventQueue

/-- The queue that an event is published to. -/
def RadioToHost.queue : RadioToHost → EventQueue
  | .completedExchange _ => .measurement
  | .error _ => .diagnostic
  | _ => .control

theorem toNat_saturatingIncrement (count : UInt8) :
    (saturatingIncrement count).toNat = min (count.toNat + 1) 255 := by
  have hlt := count.toNat_lt
  unfold saturatingIncrement
  split_ifs with hmax
  · rw [hmax]
    rfl
  · have hne : count.toNat ≠ 255 := fun heq => hmax (UInt8.toNat.inj heq)
    rw [UInt8.toNat_add, UInt8.toNat_one, Nat.mod_eq_of_lt (by omega)]
    omega

namespace HostTx

/-- The events wait in the queues that they are published to. -/
structure Filed (tx : HostTx) : Prop where
  control : ∀ event ∈ tx.queues.control, event.queue = .control
  diagnostics : ∀ event ∈ tx.queues.diagnostics, event.queue = .diagnostic

/-- The task waits in a choice that it began with all queues empty. -/
def choosing (tx : HostTx) : Bool :=
  match tx.state with
  | .selecting | .awaitingMeasurement => true
  | _ => false

/-- The event that a step returns from the choice: one that is written again after the
link was lost is not chosen again. -/
def returned (tx : HostTx) (event : Event) (next : HostTx) : Option RadioToHost :=
  match event, tx.state, next.state with
  | .connect, .disconnected none, .sending message => some message
  | .poll, _, .sending message => some message
  | .sendDone, _, .sending message => some message
  | _, _, _ => none

/-- The events that the steps of a run return. -/
def returns : HostTx → List Event → List RadioToHost
  | _, [] => []
  | tx, event :: events =>
    match tx.step event with
    | none => []
    | some next => (tx.returned event next).toList ++ next.returns events

/-! ### One choice -/

/-- A choice ends with an event, counted for its queue, or waits with the counts it had. -/
structure Chose (tx next : HostTx) : Prop where
  filed : next.Filed
  outcome : (∃ message, next.state = .sending message ∧
      next.schedule = tx.schedule.selected message.queue) ∨
    next.choosing = true ∧ next.schedule = tx.schedule

theorem select_control_chose {tx : HostTx} (h : tx.Filed) {out : RadioToHost × HostQueues}
    (hout : tx.queues.tryControl = some out) :
    tx.Chose (tx.select .control out) ∧ out.1.queue = .control := by
  unfold HostQueues.tryControl at hout
  cases hcontrol : tx.queues.control with
  | nil => simp [hcontrol] at hout
  | cons event rest =>
    simp only [hcontrol, Option.some.injEq] at hout
    have hall := h.control
    rw [hcontrol] at hall
    have hqueue := hall event List.mem_cons_self
    rw [← hout]
    refine ⟨⟨⟨fun e he => hall e (List.mem_cons_of_mem _ he), h.diagnostics⟩,
      Or.inl ⟨event, rfl, ?_⟩⟩, hqueue⟩
    rw [hqueue]
    rfl

theorem select_diagnostic_chose {tx : HostTx} (h : tx.Filed) {out : RadioToHost × HostQueues}
    (hout : tx.queues.tryDiagnostic = some out) :
    tx.Chose (tx.select .diagnostic out) ∧ out.1.queue = .diagnostic := by
  unfold HostQueues.tryDiagnostic at hout
  cases hdiagnostics : tx.queues.diagnostics with
  | nil => simp [hdiagnostics] at hout
  | cons event rest =>
    simp only [hdiagnostics, Option.some.injEq] at hout
    have hall := h.diagnostics
    rw [hdiagnostics] at hall
    have hqueue := hall event List.mem_cons_self
    rw [← hout]
    refine ⟨⟨⟨h.control, fun e he => hall e (List.mem_cons_of_mem _ he)⟩,
      Or.inl ⟨event, rfl, ?_⟩⟩, hqueue⟩
    rw [hqueue]
    rfl

theorem select_measurement_chose {tx : HostTx} (h : tx.Filed) {out : RadioToHost × HostQueues}
    (hout : tx.queues.tryMeasurement = some out) : tx.Chose (tx.select .measurement out) := by
  obtain ⟨⟨exchange, slots⟩, -, rfl⟩ := Option.map_eq_some_iff.mp hout
  exact ⟨⟨h.control, h.diagnostics⟩, Or.inl ⟨_, rfl, rfl⟩⟩

theorem awaitMeasurement_chose {tx : HostTx} (h : tx.Filed) : tx.Chose tx.awaitMeasurement := by
  unfold awaitMeasurement
  cases hout : tx.queues.tryMeasurement with
  | some out => exact select_measurement_chose h hout
  | none => exact ⟨⟨h.control, h.diagnostics⟩, Or.inr ⟨rfl, rfl⟩⟩

theorem pollSelect_chose {tx : HostTx} (h : tx.Filed) : tx.Chose tx.pollSelect := by
  unfold pollSelect
  split_ifs with hsignal
  · have hfiled : Filed { tx with queues := { tx.queues with measurementSignal := false } } :=
      ⟨h.control, h.diagnostics⟩
    have hchose := awaitMeasurement_chose hfiled
    exact ⟨hchose.filed, hchose.outcome⟩
  · cases hcontrol : tx.queues.tryControl with
    | some out => exact (select_control_chose h hcontrol).1
    | none =>
      cases hdiagnostic : tx.queues.tryDiagnostic with
      | some out => exact (select_diagnostic_chose h hdiagnostic).1
      | none => exact ⟨⟨h.control, h.diagnostics⟩, Or.inr ⟨rfl, rfl⟩⟩

/-- What a choice that starts from the queues does beyond: it does not wait while another
queue holds an event, and a full count gives way to the queue it is kept for. -/
structure Prefers (tx next : HostTx) : Prop extends Chose tx next where
  prompt : tx.queues.control ≠ [] ∨ tx.queues.diagnostics ≠ [] → next.choosing = false
  control : tx.queues.control ≠ [] → 8 ≤ tx.schedule.measurementsSinceControl.toNat →
    ∀ message, next.state = .sending message → message.queue ≠ .measurement
  diagnostic : tx.queues.diagnostics ≠ [] → 32 ≤ tx.schedule.eventsSinceDiagnostic.toNat →
    ∀ message, next.state = .sending message → message.queue = .diagnostic

theorem nextEvent_prefers {tx : HostTx} (h : tx.Filed) : tx.Prefers tx.nextEvent := by
  have hevents (count : UInt8) : maxEventsBeforeDiagnostic ≤ count ↔ 32 ≤ count.toNat :=
    UInt8.le_iff_toNat_le
  have hmeasurements (count : UInt8) : maxMeasurementsBeforeControl ≤ count ↔ 8 ≤ count.toNat :=
    UInt8.le_iff_toNat_le
  unfold nextEvent
  cases hoverdue : tx.overdueDiagnostic with
  | some out =>
    unfold overdueDiagnostic at hoverdue
    split_ifs at hoverdue
    obtain ⟨hchose, hqueue⟩ := select_diagnostic_chose h hoverdue
    refine ⟨hchose, fun _ => rfl, ?_, ?_⟩
    · intro _ _ message hmessage
      rw [← TxState.sending.inj hmessage, hqueue]
      decide
    · intro _ _ message hmessage
      rw [← TxState.sending.inj hmessage, hqueue]
  | none =>
    have hdiagnostic : tx.queues.diagnostics ≠ [] →
        ¬ 32 ≤ tx.schedule.eventsSinceDiagnostic.toNat := by
      intro hne hcount
      rw [overdueDiagnostic, if_pos ((hevents _).mpr hcount)] at hoverdue
      exact hne (tryDiagnostic_eq_none.mp hoverdue)
    cases hoverdueControl : tx.overdueControl with
    | some out =>
      unfold overdueControl at hoverdueControl
      split_ifs at hoverdueControl
      obtain ⟨hchose, hqueue⟩ := select_control_chose h hoverdueControl
      refine ⟨hchose, fun _ => rfl, ?_, ?_⟩
      · intro _ _ message hmessage
        rw [← TxState.sending.inj hmessage, hqueue]
        decide
      · intro hne hcount
        exact absurd hcount (hdiagnostic hne)
    | none =>
      have hcontrol : tx.queues.control ≠ [] →
          ¬ 8 ≤ tx.schedule.measurementsSinceControl.toNat := by
        intro hne hcount
        rw [overdueControl, if_pos ((hmeasurements _).mpr hcount)] at hoverdueControl
        exact hne (tryControl_eq_none.mp hoverdueControl)
      have hrest {next : HostTx} (hchose : tx.Chose next)
          (hprompt : tx.queues.control ≠ [] ∨ tx.queues.diagnostics ≠ [] →
            next.choosing = false) : tx.Prefers next :=
        ⟨hchose, hprompt, fun hne hcount => absurd hcount (hcontrol hne),
          fun hne hcount => absurd hcount (hdiagnostic hne)⟩
      cases hmeasurement : tx.queues.tryMeasurement with
      | some out => exact hrest (select_measurement_chose h hmeasurement) fun _ => rfl
      | none =>
        cases htryControl : tx.queues.tryControl with
        | some out => exact hrest (select_control_chose h htryControl).1 fun _ => rfl
        | none =>
          cases htryDiagnostic : tx.queues.tryDiagnostic with
          | some out => exact hrest (select_diagnostic_chose h htryDiagnostic).1 fun _ => rfl
          | none =>
            refine hrest (pollSelect_chose h) ?_
            rintro (hne | hne)
            · exact absurd (tryControl_eq_none.mp htryControl) hne
            · exact absurd (tryDiagnostic_eq_none.mp htryDiagnostic) hne

/-! ### One step -/

theorem Filed.publish {tx : HostTx} (h : tx.Filed) (message : RadioToHost) :
    Filed { tx with queues := tx.queues.publish message } := by
  have happend {items : List RadioToHost} {queue : EventQueue}
      (hitems : ∀ event ∈ items, event.queue = queue) (hmessage : message.queue = queue) :
      ∀ event ∈ items ++ [message], event.queue = queue := by
    intro event hevent
    rcases List.mem_append.mp hevent with hevent | hevent
    · exact hitems event hevent
    · rw [List.mem_singleton.mp hevent]
      exact hmessage
  cases message with
  | completedExchange exchange => exact ⟨h.control, h.diagnostics⟩
  | error diagnostic =>
    unfold HostQueues.publish
    dsimp only
    split_ifs
    · exact ⟨h.control, happend h.diagnostics rfl⟩
    · exact ⟨h.control, h.diagnostics⟩
  | _ =>
    unfold HostQueues.publish
    dsimp only
    split_ifs
    · exact ⟨happend h.control rfl, h.diagnostics⟩
    · exact ⟨h.control, h.diagnostics⟩

/-- What a step does to the counts: nothing, or it counts the event that it returns. A
choice that did not wait before the step prefers the queues with a full count. -/
inductive Counts (tx : HostTx) (event : Event) (next : HostTx) : Prop where
  | kept (returned : tx.returned event next = none) (schedule : next.schedule = tx.schedule)
      (choosing : next.choosing = true → tx.choosing = true ∨
        (tx.queues.control = [] ∧ tx.queues.diagnostics = []))
  | counted (message : RadioToHost) (returned : tx.returned event next = some message)
      (choosing : next.choosing = false)
      (schedule : next.schedule = tx.schedule.selected message.queue)
      (control : tx.choosing = true ∨ (tx.queues.control ≠ [] →
        8 ≤ tx.schedule.measurementsSinceControl.toNat → message.queue ≠ .measurement))
      (diagnostic : tx.choosing = true ∨ (tx.queues.diagnostics ≠ [] →
        32 ≤ tx.schedule.eventsSinceDiagnostic.toNat → message.queue = .diagnostic))

/-- A choice that starts from the queues. -/
theorem Prefers.counts {tx next : HostTx} (h : tx.Prefers next) {event : Event}
    (hreturned : ∀ message, next.state = .sending message →
      tx.returned event next = some message)
    (hkept : next.choosing = true → tx.returned event next = none) : tx.Counts event next := by
  rcases h.outcome with ⟨message, hstate, hschedule⟩ | ⟨hchoosing, hschedule⟩
  · refine .counted message (hreturned message hstate) ?_ hschedule
      (Or.inr fun hne hcount => h.control hne hcount message hstate)
      (Or.inr fun hne hcount => h.diagnostic hne hcount message hstate)
    rw [choosing, hstate]
  · refine .kept (hkept hchoosing) hschedule fun _ => Or.inr ?_
    constructor
    · by_contra hne
      rw [h.prompt (Or.inl hne)] at hchoosing
      exact Bool.false_ne_true hchoosing
    · by_contra hne
      rw [h.prompt (Or.inr hne)] at hchoosing
      exact Bool.false_ne_true hchoosing

/-- A choice that goes on. -/
theorem Chose.counts {tx next : HostTx} (h : tx.Chose next) {event : Event}
    (hchoosing : tx.choosing = true)
    (hreturned : ∀ message, next.state = .sending message →
      tx.returned event next = some message)
    (hkept : next.choosing = true → tx.returned event next = none) : tx.Counts event next := by
  rcases h.outcome with ⟨message, hstate, hschedule⟩ | ⟨hwaits, hschedule⟩
  · refine .counted message (hreturned message hstate) ?_ hschedule (Or.inl hchoosing)
      (Or.inl hchoosing)
    rw [choosing, hstate]
  · exact .kept (hkept hwaits) hschedule fun _ => Or.inl hchoosing

theorem returned_of_choosing {tx next : HostTx} (h : next.choosing = true) (event : Event) :
    tx.returned event next = none := by
  cases hstate : next.state with
  | sending message => simp [choosing, hstate] at h
  | _ => cases event <;> simp [returned, hstate]

theorem step_counts {tx next : HostTx} {event : Event} (h : tx.Filed)
    (hstep : tx.step event = some next) : next.Filed ∧ tx.Counts event next := by
  cases step_moved hstep with
  | publishes message => exact ⟨h.publish message, .kept rfl rfl Or.inl⟩
  | clears => exact ⟨⟨h.control, h.diagnostics⟩, .kept rfl rfl Or.inl⟩
  | resends hstate =>
    refine ⟨⟨h.control, h.diagnostics⟩, .kept ?_ rfl ?_⟩
    · simp [returned, hstate]
    · simp [choosing]
  | connects hstate =>
    have hprefers := nextEvent_prefers h
    refine ⟨hprefers.filed, hprefers.counts ?_ fun hwaits => returned_of_choosing hwaits _⟩
    intro message hmessage
    simp [returned, hstate, hmessage]
  | selects hstate =>
    have hchose := pollSelect_chose h
    refine ⟨hchose.filed, hchose.counts ?_ ?_ fun hwaits => returned_of_choosing hwaits _⟩
    · simp [choosing, hstate]
    · intro message hmessage
      simp [returned, hstate, hmessage]
  | wakes hstate =>
    have hfiled : Filed { tx with queues := { tx.queues with measurementSignal := false } } :=
      ⟨h.control, h.diagnostics⟩
    have hchose := awaitMeasurement_chose hfiled
    have hchose : tx.Chose _ := ⟨hchose.filed, hchose.outcome⟩
    refine ⟨hchose.filed, hchose.counts ?_ ?_ fun hwaits => returned_of_choosing hwaits _⟩
    · simp [choosing, hstate]
    · intro message hmessage
      unfold returned
      rw [hmessage, hstate]
  | waits hstate =>
    refine ⟨h, .kept ?_ rfl Or.inl⟩
    exact returned_of_choosing (by simp [choosing, hstate]) _
  | sends hstate =>
    have hprefers := nextEvent_prefers h
    refine ⟨hprefers.filed, hprefers.counts ?_ fun hwaits => returned_of_choosing hwaits _⟩
    intro chosen hchosen
    simp [returned, hstate, hchosen]
  | putsBack hstate =>
    refine ⟨⟨h.control, h.diagnostics⟩, .kept ?_ rfl ?_⟩
    · simp [returned]
    · simp [choosing]
  | keeps hstate =>
    refine ⟨⟨h.control, h.diagnostics⟩, .kept ?_ rfl ?_⟩
    · simp [returned]
    · simp [choosing]

/-! ### The room for other events -/

/-- How many more may be counted: a choice that has begun may return one beyond a full
count. -/
def room (limit count : ℕ) (choosing : Bool) : ℕ :=
  if choosing then max 1 (limit - count) else limit - count

def measurementRoom (tx : HostTx) : ℕ :=
  room 8 tx.schedule.measurementsSinceControl.toNat tx.choosing

def eventRoom (tx : HostTx) : ℕ :=
  room 32 tx.schedule.eventsSinceDiagnostic.toNat tx.choosing

/-- While control events wait and none is returned, a measurement takes room. -/
theorem step_measurementRoom {tx next : HostTx} {event : Event} (h : tx.Filed)
    (hstep : tx.step event = some next) (hcontrol : tx.queues.control ≠ [])
    (hother : ∀ message ∈ tx.returned event next, message.queue ≠ .control) :
    (tx.returned event next).toList.countP (fun message => message.queue = .measurement) +
      next.measurementRoom ≤ tx.measurementRoom := by
  unfold measurementRoom room
  obtain ⟨-, hcounts⟩ := step_counts h hstep
  cases hcounts with
  | kept hreturned hschedule hchoosing =>
    rw [hreturned, hschedule, Option.toList_none, List.countP_nil, Nat.zero_add]
    cases hnext : next.choosing with
    | false =>
      rw [if_neg Bool.false_ne_true]
      split_ifs <;> omega
    | true =>
      rcases hchoosing hnext with hwaits | ⟨hnone, -⟩
      · rw [hwaits]
      · exact absurd hnone hcontrol
  | counted message hreturned hchoosing hschedule hprefers =>
    have hnot := hother message hreturned
    rw [hreturned, hschedule, hchoosing, Option.toList_some, List.countP_singleton]
    cases hqueue : message.queue with
    | control => exact absurd hqueue hnot
    | diagnostic =>
      have hcount : (tx.schedule.selected .diagnostic).measurementsSinceControl =
          tx.schedule.measurementsSinceControl := rfl
      rw [hcount]
      cases htx : tx.choosing with
      | true =>
        simp only [reduceCtorEq, decide_false, if_true, Bool.false_eq_true, if_false]
        omega
      | false =>
        simp only [reduceCtorEq, decide_false, Bool.false_eq_true, if_false]
        omega
    | measurement =>
      have hcount : (tx.schedule.selected .measurement).measurementsSinceControl =
          saturatingIncrement tx.schedule.measurementsSinceControl := rfl
      have hincrement := toNat_saturatingIncrement tx.schedule.measurementsSinceControl
      rw [hcount, hincrement]
      cases htx : tx.choosing with
      | true =>
        simp only [decide_true, if_true, Bool.false_eq_true, if_false]
        omega
      | false =>
        have hlow : ¬ 8 ≤ tx.schedule.measurementsSinceControl.toNat := by
          intro hfull
          rcases hprefers with hwaits | hprefers
          · rw [htx] at hwaits
            exact Bool.false_ne_true hwaits
          · exact hprefers hcontrol hfull hqueue
        simp only [decide_true, if_true, Bool.false_eq_true, if_false]
        omega

/-- While diagnostics wait and none is returned, an event takes room. -/
theorem step_eventRoom {tx next : HostTx} {event : Event} (h : tx.Filed)
    (hstep : tx.step event = some next) (hdiagnostics : tx.queues.diagnostics ≠ [])
    (hother : ∀ message ∈ tx.returned event next, message.queue ≠ .diagnostic) :
    (tx.returned event next).toList.length + next.eventRoom ≤ tx.eventRoom := by
  unfold eventRoom room
  obtain ⟨-, hcounts⟩ := step_counts h hstep
  cases hcounts with
  | kept hreturned hschedule hchoosing =>
    rw [hreturned, hschedule, Option.toList_none, List.length_nil, Nat.zero_add]
    cases hnext : next.choosing with
    | false =>
      rw [if_neg Bool.false_ne_true]
      split_ifs <;> omega
    | true =>
      rcases hchoosing hnext with hwaits | ⟨-, hnone⟩
      · rw [hwaits]
      · exact absurd hnone hdiagnostics
  | counted message hreturned hchoosing hschedule _ hprefers =>
    have hnot := hother message hreturned
    have hcount : (tx.schedule.selected message.queue).eventsSinceDiagnostic =
        saturatingIncrement tx.schedule.eventsSinceDiagnostic := by
      cases hqueue : message.queue with
      | diagnostic => exact absurd hqueue hnot
      | _ => rfl
    have hincrement := toNat_saturatingIncrement tx.schedule.eventsSinceDiagnostic
    rw [hreturned, hschedule, hchoosing, hcount, hincrement, Option.toList_some,
      List.length_singleton]
    cases htx : tx.choosing with
    | true =>
      simp only [if_true, Bool.false_eq_true, if_false]
      omega
    | false =>
      have hlow : ¬ 32 ≤ tx.schedule.eventsSinceDiagnostic.toNat := by
        intro hfull
        rcases hprefers with hwaits | hprefers
        · rw [htx] at hwaits
          exact Bool.false_ne_true hwaits
        · exact hnot (hprefers hdiagnostics hfull)
      simp only [Bool.false_eq_true, if_false]
      omega

theorem room_le {limit count : ℕ} (hlimit : 1 ≤ limit) (choosing : Bool) :
    room limit count choosing ≤ limit := by
  unfold room
  split_ifs <;> omega

/-! ### Runs -/

theorem returns_cons {tx next : HostTx} {event : Event} {events : List Event}
    (hstep : tx.step event = some next) : tx.returns (event :: events) =
      (tx.returned event next).toList ++ next.returns events := by
  rw [returns, hstep]

/-- What is counted of the returned events fits into the room there is at the start. -/
theorem returns_bounded {waits : HostTx → Prop} {queue : EventQueue}
    {counted : RadioToHost → Bool} {roomOf : HostTx → ℕ}
    (hroom : ∀ {tx next : HostTx} {event : Event}, tx.Filed → tx.step event = some next →
      waits tx → (∀ message ∈ tx.returned event next, message.queue ≠ queue) →
        (tx.returned event next).toList.countP counted + roomOf next ≤ roomOf tx)
    {tx : HostTx} {events : List Event} (h : tx.Filed)
    (hwaits : Runs.Along step (fun tx _ => waits tx) tx events)
    (hother : ∀ message ∈ tx.returns events, message.queue ≠ queue) :
    (tx.returns events).countP counted ≤ roomOf tx := by
  induction events generalizing tx with
  | nil => simp [returns]
  | cons event events ih =>
    cases hstep : tx.step event with
    | none => simp [returns, hstep]
    | some next =>
      rw [returns_cons hstep] at hother ⊢
      have hfirst := hroom h hstep hwaits.1 fun message hmessage =>
        hother message (List.mem_append_left _ (Option.mem_toList.mpr hmessage))
      have hrest := ih (step_counts h hstep).1 (hwaits.2 next hstep) fun message hmessage =>
        hother message (List.mem_append_right _ hmessage)
      rw [List.countP_append]
      omega

theorem measurements_bounded {tx : HostTx} {events : List Event} (h : tx.Filed)
    (hwaits : Runs.Along step (fun tx _ => tx.queues.control ≠ []) tx events)
    (hother : ∀ message ∈ tx.returns events, message.queue ≠ .control) :
    (tx.returns events).countP (fun message => message.queue = .measurement) ≤
      tx.measurementRoom :=
  returns_bounded step_measurementRoom h hwaits hother

theorem events_bounded {tx : HostTx} {events : List Event} (h : tx.Filed)
    (hwaits : Runs.Along step (fun tx _ => tx.queues.diagnostics ≠ []) tx events)
    (hother : ∀ message ∈ tx.returns events, message.queue ≠ .diagnostic) :
    (tx.returns events).length ≤ tx.eventRoom := by
  rw [← List.countP_true]
  refine returns_bounded (fun h hstep hwaits hother => ?_) h hwaits hother
  rw [List.countP_true]
  exact step_eventRoom h hstep hwaits hother

/-- After any run from any counts, no more than 8 measurements are returned while control
events wait and none is returned, and no more than 32 events while diagnostics do. -/
theorem queues_bounded {schedule : QueueSchedule} {front events : List Event} {tx : HostTx}
    (hrun : Runs.run step { schedule } front = some tx) :
    (Runs.Along step (fun tx _ => tx.queues.control ≠ []) tx events →
        (∀ message ∈ tx.returns events, message.queue ≠ .control) →
          (tx.returns events).countP (fun message => message.queue = .measurement) ≤ 8) ∧
      (Runs.Along step (fun tx _ => tx.queues.diagnostics ≠ []) tx events →
        (∀ message ∈ tx.returns events, message.queue ≠ .diagnostic) →
          (tx.returns events).length ≤ 32) := by
  have hfiled : tx.Filed := by
    refine Runs.run_invariant step Filed ?_ ⟨by simp, by simp⟩ hrun
    intro tx event next hfiled hstep
    exact (step_counts hfiled hstep).1
  constructor
  · intro hwaits hother
    exact (measurements_bounded hfiled hwaits hother).trans (room_le (by omega) _)
  · intro hwaits hother
    exact (events_bounded hfiled hwaits hother).trans (room_le (by omega) _)

/-- A measurement and a control event wait when the first control event is written. -/
def waitingRun : List Event :=
  [.publish (.ready 0 0), .publish (.ready 1 1),
    .publish (.completedExchange (sampleExchange ⟨1⟩)), .connect]

theorem queues_bounded_waiting : ∃ tx,
    Runs.run step { schedule := ⟨200, 200⟩ } waitingRun = some tx ∧
    (tx.returns [.sendDone]).countP (fun message => message.queue = .measurement) ≤ 8 := by
  have hrun : ∃ tx, Runs.run step { schedule := ⟨200, 200⟩ } waitingRun = some tx := ⟨_, rfl⟩
  obtain ⟨tx, hrun⟩ := hrun
  refine ⟨tx, hrun, (queues_bounded hrun).1 ?_ ?_⟩
  · rw [← Option.some.inj hrun]
    decide
  · rw [← Option.some.inj hrun]
    decide

end HostTx

end Mission10.Uwb
