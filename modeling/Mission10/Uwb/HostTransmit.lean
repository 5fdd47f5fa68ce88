import Mission10.Uwb.LatestExchanges

/-!
# Host transmit task

The queues between the radio task and the host link, and the task that drains
them. Tasks are polled by one executor, so everything between two suspension
points is one step. The task is suspended while disconnected, in the selection
over three queues, in the inner wait for a measurement, or while a frame is
written; the outcome of the write, the connection and every publish are events.
Encoding cannot fail: the buffer has the size of the largest envelope.
-/
namespace Mission10.Uwb

def channelCapacity : ℕ := 8
def maxMeasurementsBeforeControl : UInt8 := 8
def maxEventsBeforeDiagnostic : UInt8 := 32

structure HostQueues where
  measurements : LatestExchanges := .new
  measurementSignal : Bool := false
  control : List RadioToHost := []
  diagnostics : List RadioToHost := []
  controlDrops : UInt32 := 0
  measurementDrops : UInt32 := 0
  diagnosticDrops : UInt32 := 0

structure QueueSchedule where
  measurementsSinceControl : UInt8 := 0
  eventsSinceDiagnostic : UInt8 := 0

inductive EventQueue where
  | measurement
  | control
  | diagnostic

/-- `u8::saturating_add(1)`. -/
def saturatingIncrement (count : UInt8) : UInt8 := if count = 255 then 255 else count + 1

def QueueSchedule.selected (schedule : QueueSchedule) : EventQueue → QueueSchedule
  | .measurement =>
    { measurementsSinceControl := saturatingIncrement schedule.measurementsSinceControl
      eventsSinceDiagnostic := saturatingIncrement schedule.eventsSinceDiagnostic }
  | .control =>
    { measurementsSinceControl := 0
      eventsSinceDiagnostic := saturatingIncrement schedule.eventsSinceDiagnostic }
  | .diagnostic => { schedule with eventsSinceDiagnostic := 0 }

namespace HostQueues

def pushMeasurement (queues : HostQueues) (out : LatestExchanges × Bool) : HostQueues :=
  { queues with
    measurements := out.1
    measurementDrops := if out.2 then queues.measurementDrops + 1 else queues.measurementDrops
    measurementSignal := true }

def publish (queues : HostQueues) (event : RadioToHost) : HostQueues :=
  match event with
  | .completedExchange exchange => queues.pushMeasurement (queues.measurements.push exchange)
  | .error _ =>
    if queues.diagnostics.length < channelCapacity then
      { queues with diagnostics := queues.diagnostics ++ [event] }
    else { queues with diagnosticDrops := queues.diagnosticDrops + 1 }
  | _ =>
    if queues.control.length < channelCapacity then
      { queues with control := queues.control ++ [event] }
    else { queues with controlDrops := queues.controlDrops + 1 }

def clearMeasurements (queues : HostQueues) : HostQueues :=
  { queues with measurements := queues.measurements.clear }

def tryMeasurement (queues : HostQueues) : Option (RadioToHost × HostQueues) :=
  queues.measurements.popOldest.map fun out =>
    (.completedExchange out.1, { queues with measurements := out.2 })

def tryControl (queues : HostQueues) : Option (RadioToHost × HostQueues) :=
  match queues.control with
  | [] => none
  | event :: rest => some (event, { queues with control := rest })

def tryDiagnostic (queues : HostQueues) : Option (RadioToHost × HostQueues) :=
  match queues.diagnostics with
  | [] => none
  | event :: rest => some (event, { queues with diagnostics := rest })

end HostQueues

/-- Where the transmit task is suspended. `disconnected` keeps the event whose
write failed, unless it was a measurement. -/
inductive TxState where
  | disconnected (pending : Option RadioToHost)
  | selecting
  | awaitingMeasurement
  | sending (event : RadioToHost)

structure HostTx where
  queues : HostQueues := {}
  schedule : QueueSchedule := {}
  state : TxState := .disconnected none

namespace HostTx

/-- Takes an event from one queue and starts writing it. -/
def select (tx : HostTx) (queue : EventQueue) (out : RadioToHost × HostQueues) : HostTx :=
  { queues := out.2, schedule := tx.schedule.selected queue, state := .sending out.1 }

/-- The loop entered when the measurement signal wins the selection. The store
is tried, then the signal is consumed and the store tried again. -/
def awaitMeasurement (tx : HostTx) : HostTx :=
  match tx.queues.tryMeasurement with
  | some out => tx.select .measurement out
  | none =>
    { tx with
      queues := { tx.queues with measurementSignal := false }
      state := .awaitingMeasurement }

/-- One poll of the selection over the signal and the two channels. -/
def pollSelect (tx : HostTx) : HostTx :=
  if tx.queues.measurementSignal then
    awaitMeasurement { tx with queues := { tx.queues with measurementSignal := false } }
  else
    match tx.queues.tryControl with
    | some out => tx.select .control out
    | none =>
      match tx.queues.tryDiagnostic with
      | some out => tx.select .diagnostic out
      | none => { tx with state := .selecting }

/-- A diagnostic that has waited for too many other events. -/
def overdueDiagnostic (tx : HostTx) : Option (RadioToHost × HostQueues) :=
  if maxEventsBeforeDiagnostic ≤ tx.schedule.eventsSinceDiagnostic then tx.queues.tryDiagnostic
  else none

/-- A control event that has waited for too many measurements. -/
def overdueControl (tx : HostTx) : Option (RadioToHost × HostQueues) :=
  if maxMeasurementsBeforeControl ≤ tx.schedule.measurementsSinceControl then tx.queues.tryControl
  else none

/-- From the start of the event choice to the next suspension. -/
def nextEvent (tx : HostTx) : HostTx :=
  match tx.overdueDiagnostic with
  | some out => tx.select .diagnostic out
  | none =>
    match tx.overdueControl with
    | some out => tx.select .control out
    | none =>
      match tx.queues.tryMeasurement with
      | some out => tx.select .measurement out
      | none =>
        match tx.queues.tryControl with
        | some out => tx.select .control out
        | none =>
          match tx.queues.tryDiagnostic with
          | some out => tx.select .diagnostic out
          | none => tx.pollSelect

inductive Event where
  | publish (event : RadioToHost)
  | clearMeasurements
  | connect
  | poll
  | sendDone
  | sendFailed

def step (tx : HostTx) : Event → Option HostTx
  | .publish event => some { tx with queues := tx.queues.publish event }
  | .clearMeasurements => some { tx with queues := tx.queues.clearMeasurements }
  | .connect =>
    match tx.state with
    | .disconnected (some event) => some { tx with state := .sending event }
    | .disconnected none => some tx.nextEvent
    | _ => none
  | .poll =>
    match tx.state with
    | .selecting => some tx.pollSelect
    | .awaitingMeasurement =>
      if tx.queues.measurementSignal then
        some (awaitMeasurement { tx with queues := { tx.queues with measurementSignal := false } })
      else some tx
    | _ => none
  | .sendDone =>
    match tx.state with
    | .sending _ => some tx.nextEvent
    | _ => none
  | .sendFailed =>
    match tx.state with
    | .sending (.completedExchange exchange) =>
      some { tx with
        queues := tx.queues.pushMeasurement (tx.queues.measurements.restore exchange)
        state := .disconnected none }
    | .sending event => some { tx with state := .disconnected (some event) }
    | _ => none

end HostTx

end Mission10.Uwb
