import Mathlib.Data.Int.Order.Basic
import Mathlib.Tactic.Linarith
import Mission10.Library.Runs

/-!
# Frame sinks

A sink of the sensing process takes borrowed frames into a bounded queue, where a
worker thread fetches them. A full queue releases its oldest frame by hand and the
append evicts the same one; the worker releases a frame when its handler has ended,
also with an exception. What the handlers of the two sinks count besides is a
parameter. A frame that is submitted after the worker has gone is never released.
-/
namespace Mission10.Sensing

open Runs

/-- A borrowed image: its time stamp and the lease its callback releases. -/
structure SinkFrame where
  lease : ℕ
  tsNs : ℤ
deriving DecidableEq, Repr

/-- How far the handler has come: the frame counts as processed before its result does. -/
inductive HandlerStage
  | working
  | counted
  | noted
deriving DecidableEq, Repr

/-- The worker thread: waiting, handling a frame, releasing it after the handler, or gone. -/
inductive SinkWorker
  | waiting
  | handling (frame : SinkFrame) (stage : HandlerStage)
  | releasing (frame : SinkFrame)
  | exited
deriving DecidableEq, Repr

/-- What a kind of sink counts of the results `ρ` of its handler and of its faults. -/
structure Tally (ρ τ : Type) where
  note : ρ → τ → τ
  fault : τ → τ

/-- A sink, with the leases that were released so far, the last one at the end. -/
structure Sink (τ : Type) where
  depth : ℕ
  queue : List SinkFrame
  stop : Bool
  submitted : ℕ
  processed : ℕ
  dropped : ℕ
  faults : ℕ
  lastFault : Option String
  tally : τ
  worker : SinkWorker
  released : List ℕ
deriving DecidableEq, Repr

/-- The detector counts the tags it finds. -/
def detectorTally : Tally ℕ ℕ := ⟨fun found detections => detections + found, id⟩

/-- The counters of the flow sink. -/
structure FlowTally where
  valid : ℕ
  validStreak : ℕ
  errorCount : ℕ
  sequence : ℕ
deriving DecidableEq, Repr

/-- A result of no quality counts as an error, and so does a fault. -/
def flowTally : Tally ℤ FlowTally where
  note quality tally :=
    if quality > 0 then
      { tally with
        valid := tally.valid + 1, validStreak := tally.validStreak + 1
        sequence := tally.sequence + 1 }
    else
      { tally with
        errorCount := tally.errorCount + 1, validStreak := 0, sequence := tally.sequence + 1 }
  fault tally := { tally with errorCount := tally.errorCount + 1 }

namespace Sink

variable {ρ τ : Type}

def new (depth : ℕ) (tally : τ) : Sink τ :=
  ⟨depth, [], false, 0, 0, 0, 0, none, tally, .waiting, []⟩

/-- `append` on a deque with a greatest length drops from the other end. -/
def appendBounded (depth : ℕ) (queue : List SinkFrame) (frame : SinkFrame) : List SinkFrame :=
  (queue ++ [frame]).drop (queue.length + 1 - depth)

/-- A deque of depth zero has no oldest frame to release. -/
def submit (s : Sink τ) (frame : SinkFrame) : Option (Sink τ) :=
  let counted := { s with submitted := s.submitted + 1 }
  if s.queue.length = s.depth then
    match s.queue with
    | [] => none
    | oldest :: _ => some { counted with
        dropped := s.dropped + 1
        released := s.released ++ [oldest.lease]
        queue := appendBounded s.depth s.queue frame }
  else some { counted with queue := appendBounded s.depth s.queue frame }

def close (s : Sink τ) : Sink τ := { s with stop := true }

/-- The worker fetches the oldest frame. -/
def fetch (s : Sink τ) : Option (Sink τ) :=
  match s.worker, s.queue with
  | .waiting, frame :: rest => some { s with queue := rest, worker := .handling frame .working }
  | _, _ => none

/-- The worker finds the queue empty and the sink stopped. -/
def exit (s : Sink τ) : Option (Sink τ) :=
  if s.worker = .waiting ∧ s.queue = [] ∧ s.stop = true then some { s with worker := .exited }
  else none

def count (s : Sink τ) : Option (Sink τ) :=
  match s.worker with
  | .handling frame .working => some { s with
      processed := s.processed + 1, worker := .handling frame .counted }
  | _ => none

def note (kind : Tally ρ τ) (s : Sink τ) (result : ρ) : Option (Sink τ) :=
  match s.worker with
  | .handling frame .counted => some { s with
      tally := kind.note result s.tally, worker := .handling frame .noted }
  | _ => none

/-- The handler raises. -/
def fault (kind : Tally ρ τ) (s : Sink τ) (text : String) : Option (Sink τ) :=
  match s.worker with
  | .handling frame _ => some { s with
      faults := s.faults + 1, lastFault := some text, tally := kind.fault s.tally
      worker := .releasing frame }
  | _ => none

/-- The handler returns. -/
def finish (s : Sink τ) : Option (Sink τ) :=
  match s.worker with
  | .handling frame .noted => some { s with worker := .releasing frame }
  | _ => none

/-- The `finally` clause. -/
def release (s : Sink τ) : Option (Sink τ) :=
  match s.worker with
  | .releasing frame => some { s with
      released := s.released ++ [frame.lease], worker := .waiting }
  | _ => none

/-- A section under the lock or a step of the worker outside of it. -/
inductive Event (ρ : Type)
  | submit (frame : SinkFrame)
  | close
  | fetch
  | exit
  | count
  | note (result : ρ)
  | fault (text : String)
  | finish
  | release
deriving DecidableEq, Repr

def step (kind : Tally ρ τ) (s : Sink τ) : Event ρ → Option (Sink τ)
  | .submit frame => s.submit frame
  | .close => some s.close
  | .fetch => s.fetch
  | .exit => s.exit
  | .count => s.count
  | .note result => s.note kind result
  | .fault text => s.fault kind text
  | .finish => s.finish
  | .release => s.release

/-! ### The books of a run -/

/-- The lease an event submits. -/
def Event.submission : Event ρ → List ℕ
  | .submit frame => [frame.lease]
  | _ => []

/-- The handler of a frame ends, with or without a fault. -/
def Event.endsHandling : Event ρ → ℕ
  | .fault _ => 1
  | .finish => 1
  | _ => 0

def submissions (events : List (Event ρ)) : List ℕ := events.flatMap Event.submission

/-- The frames that were handled or faulted. -/
def ended (events : List (Event ρ)) : ℕ := (events.map Event.endsHandling).sum

/-- The lease the worker holds. -/
def held (s : Sink τ) : List ℕ :=
  match s.worker with
  | .handling frame _ => [frame.lease]
  | .releasing frame => [frame.lease]
  | _ => []

/-- Frames in flight: their handler has not ended yet. -/
def inFlight (s : Sink τ) : ℕ :=
  match s.worker with
  | .handling _ _ => 1
  | _ => 0

/-- The leases that still have to be released. -/
def outstanding (s : Sink τ) : List ℕ := s.held ++ s.queue.map SinkFrame.lease

/-- Every submitted lease is released or outstanding, each as often as it was submitted, and
the counters add up. -/
structure Conserved (events : List (Event ρ)) (s : Sink τ) : Prop where
  leases : (s.released ++ s.outstanding).Perm (submissions events)
  submitted : s.submitted = (submissions events).length
  books : s.submitted = ended events + s.dropped + s.queue.length + s.inFlight
  bounded : s.queue.length ≤ s.depth

theorem appendBounded_full {depth : ℕ} {oldest : SinkFrame} {rest : List SinkFrame}
    (h : (oldest :: rest).length = depth) (frame : SinkFrame) :
    appendBounded depth (oldest :: rest) frame = rest ++ [frame] := by
  have hone : (oldest :: rest).length + 1 - depth = 1 := by omega
  rw [appendBounded, hone]
  rfl

theorem appendBounded_room {depth : ℕ} {queue : List SinkFrame} (h : queue.length < depth)
    (frame : SinkFrame) : appendBounded depth queue frame = queue ++ [frame] := by
  have hzero : queue.length + 1 - depth = 0 := by omega
  rw [appendBounded, hzero, List.drop_zero]

variable {s s' : Sink τ} {kind : Tally ρ τ} {event : Event ρ} {events : List (Event ρ)}

/-- What a submission does: the evicted frame is the one that was released by hand. -/
theorem submit_cases {frame : SinkFrame} (hbounded : s.queue.length ≤ s.depth)
    (h : s.submit frame = some s') :
    (∃ oldest rest, s.queue = oldest :: rest ∧ s.queue.length = s.depth ∧ s' = { s with
      submitted := s.submitted + 1, dropped := s.dropped + 1
      released := s.released ++ [oldest.lease], queue := rest ++ [frame] }) ∨
    (s.queue.length < s.depth ∧
      s' = { s with submitted := s.submitted + 1, queue := s.queue ++ [frame] }) := by
  unfold submit at h
  by_cases hfull : s.queue.length = s.depth
  · left
    rw [if_pos hfull] at h
    cases hqueue : s.queue with
    | nil =>
      rw [hqueue] at h
      cases h
    | cons oldest rest =>
      rw [hqueue] at h hfull
      obtain rfl := Option.some.inj h
      exact ⟨oldest, rest, rfl, hfull, by rw [appendBounded_full hfull]⟩
  · right
    rw [if_neg hfull] at h
    have hroom : s.queue.length < s.depth := by omega
    obtain rfl := Option.some.inj h
    exact ⟨hroom, by rw [appendBounded_room hroom]⟩

/-- What every step does to the frames and to the counters. -/
structure Moved (s : Sink τ) (event : Event ρ) (s' : Sink τ) : Prop where
  leases : (s'.released ++ s'.outstanding).Perm (s.released ++ s.outstanding ++ event.submission)
  submitted : s'.submitted = s.submitted + event.submission.length
  books : event.endsHandling + s'.dropped + s'.queue.length + s'.inFlight =
    s.dropped + s.queue.length + s.inFlight + event.submission.length
  depth : s'.depth = s.depth
  bounded : s'.queue.length ≤ s'.depth

theorem submit_moved {frame : SinkFrame} (hbounded : s.queue.length ≤ s.depth)
    (h : s.submit frame = some s') : Moved s (.submit frame : Event ρ) s' := by
  obtain ⟨oldest, rest, hqueue, hfull, rfl⟩ | ⟨hroom, rfl⟩ := submit_cases hbounded h
  · refine ⟨?_, rfl, ?_, rfl, ?_⟩
    · simp only [outstanding, held, hqueue, List.map_append, List.map_cons, List.map_nil,
        Event.submission]
      grind
    · simp only [Event.endsHandling, Event.submission, inFlight, hqueue, List.length_append,
        List.length_cons, List.length_nil]
      omega
    · rw [hqueue] at hfull
      simp only [List.length_append, List.length_cons, List.length_nil] at hfull ⊢
      omega
  · refine ⟨?_, rfl, ?_, rfl, ?_⟩
    · simp only [outstanding, held, List.map_append, List.map_cons, List.map_nil,
        Event.submission]
      grind
    · simp only [Event.endsHandling, Event.submission, inFlight, List.length_append,
        List.length_cons, List.length_nil]
      omega
    · simp only [List.length_append, List.length_cons, List.length_nil]
      omega

theorem fetch_moved (hbounded : s.queue.length ≤ s.depth) (h : s.fetch = some s') :
    Moved s (.fetch : Event ρ) s' := by
  unfold fetch at h
  split at h
  · rename_i frame rest hworker hqueue
    obtain rfl := Option.some.inj h
    refine ⟨?_, rfl, ?_, rfl, ?_⟩
    · simp [outstanding, held, hworker, hqueue, Event.submission]
    · simp only [Event.endsHandling, Event.submission, inFlight, hworker, hqueue,
        List.length_cons, List.length_nil]
      omega
    · rw [hqueue, List.length_cons] at hbounded
      exact Nat.le_of_succ_le hbounded
  · cases h

/-- A step of the handler keeps the frame in the hands of the worker. -/
theorem moved_of_held (hbounded : s.queue.length ≤ s.depth) (hsubmission : event.submission = [])
    (hqueue : s'.queue = s.queue) (hheld : s'.held = s.held) (hreleased : s'.released = s.released)
    (hsubmitted : s'.submitted = s.submitted) (hdropped : s'.dropped = s.dropped)
    (hdepth : s'.depth = s.depth)
    (hends : event.endsHandling + s'.inFlight = s.inFlight) : Moved s event s' := by
  refine ⟨?_, ?_, ?_, hdepth, ?_⟩
  · rw [outstanding, outstanding, hqueue, hheld, hreleased, hsubmission, List.append_nil]
  · rw [hsubmitted, hsubmission, List.length_nil, Nat.add_zero]
  · rw [hdropped, hqueue, hsubmission, List.length_nil]
    omega
  · rw [hqueue, hdepth]
    exact hbounded

/-- The handling of a frame goes on, or ends with the frame still to be released. -/
theorem moved_of_worker (hbounded : s.queue.length ≤ s.depth) {frame : SinkFrame} {stage : HandlerStage}
    (hworker : s.worker = .handling frame stage)
    (hnext : (∃ next, s'.worker = .handling frame next) ∧ event.endsHandling = 0 ∨
      s'.worker = .releasing frame ∧ event.endsHandling = 1)
    (hsubmission : event.submission = []) (hqueue : s'.queue = s.queue)
    (hreleased : s'.released = s.released) (hsubmitted : s'.submitted = s.submitted)
    (hdropped : s'.dropped = s.dropped) (hdepth : s'.depth = s.depth) : Moved s event s' := by
  rcases hnext with ⟨⟨next, hnext⟩, hends⟩ | ⟨hnext, hends⟩
  · refine moved_of_held hbounded hsubmission hqueue ?_ hreleased hsubmitted hdropped hdepth ?_
    · simp [held, hworker, hnext]
    · simp [hends, inFlight, hworker, hnext]
  · refine moved_of_held hbounded hsubmission hqueue ?_ hreleased hsubmitted hdropped hdepth ?_
    · simp [held, hworker, hnext]
    · simp [hends, inFlight, hworker, hnext]

theorem release_moved (hbounded : s.queue.length ≤ s.depth) (h : s.release = some s') :
    Moved s (.release : Event ρ) s' := by
  unfold release at h
  split at h
  · rename_i frame hworker
    obtain rfl := Option.some.inj h
    refine ⟨?_, rfl, ?_, rfl, hbounded⟩
    · simp [outstanding, held, hworker, Event.submission]
    · simp [Event.endsHandling, Event.submission, inFlight, hworker]
  · cases h

theorem step_moved (hbounded : s.queue.length ≤ s.depth) (h : step kind s event = some s') :
    Moved s event s' := by
  cases event with
  | submit frame => exact submit_moved hbounded h
  | close =>
    obtain rfl := Option.some.inj h
    exact moved_of_held hbounded rfl rfl rfl rfl rfl rfl rfl (Nat.zero_add _)
  | fetch => exact fetch_moved hbounded h
  | exit =>
    simp only [step, exit] at h
    split_ifs at h with hgone
    obtain rfl := Option.some.inj h
    refine moved_of_held hbounded rfl rfl ?_ rfl rfl rfl rfl ?_
    · simp [held, hgone.1]
    · simp [Event.endsHandling, inFlight, hgone.1]
  | count =>
    simp only [step, count] at h
    split at h
    · rename_i frame hworker
      obtain rfl := Option.some.inj h
      exact moved_of_worker hbounded hworker (.inl ⟨⟨_, rfl⟩, rfl⟩) rfl rfl rfl rfl rfl rfl
    · cases h
  | note result =>
    simp only [step, note] at h
    split at h
    · rename_i frame hworker
      obtain rfl := Option.some.inj h
      exact moved_of_worker hbounded hworker (.inl ⟨⟨_, rfl⟩, rfl⟩) rfl rfl rfl rfl rfl rfl
    · cases h
  | fault text =>
    simp only [step, fault] at h
    split at h
    · rename_i frame stage hworker
      obtain rfl := Option.some.inj h
      exact moved_of_worker hbounded hworker (.inr ⟨rfl, rfl⟩) rfl rfl rfl rfl rfl rfl
    · cases h
  | finish =>
    simp only [step, finish] at h
    split at h
    · rename_i frame hworker
      obtain rfl := Option.some.inj h
      exact moved_of_worker hbounded hworker (.inr ⟨rfl, rfl⟩) rfl rfl rfl rfl rfl rfl
    · cases h
  | release => exact release_moved hbounded h

theorem submissions_snoc (events : List (Event ρ)) (event : Event ρ) :
    submissions (events ++ [event]) = submissions events ++ event.submission := by
  simp [submissions]

theorem ended_snoc (events : List (Event ρ)) (event : Event ρ) :
    ended (events ++ [event]) = ended events + event.endsHandling := by
  simp [ended]

theorem Conserved.step (h : Conserved events s) (hstep : step kind s event = some s') :
    Conserved (events ++ [event]) s' := by
  have hmoved := step_moved h.bounded hstep
  refine ⟨?_, ?_, ?_, hmoved.bounded⟩
  · rw [submissions_snoc]
    exact hmoved.leases.trans (h.leases.append_right _)
  · rw [submissions_snoc, List.length_append, hmoved.submitted, h.submitted]
  · have hbooks := hmoved.books
    have hbefore := h.books
    rw [ended_snoc, hmoved.submitted]
    omega

/-- In every run the frames are conserved. -/
theorem run_conserved {depth : ℕ} {tally : τ}
    (h : run (step kind) (new depth tally) events = some s) : Conserved events s := by
  apply run_history (step kind) Conserved (fun hist s e s' hinv hstep => hinv.step hstep) _ h
  exact ⟨List.Perm.refl _, rfl, rfl, Nat.zero_le _⟩

/-! ### The end of the worker -/

/-- The frame is submitted while the worker is there. -/
def InTime (s : Sink τ) (event : Event ρ) : Prop :=
  event.submission ≠ [] → s.worker ≠ .exited

/-- When the worker has gone no frame is left. -/
def Drained (s : Sink τ) : Prop := s.worker = .exited → s.queue = []

theorem submit_worker {frame : SinkFrame} (hbounded : s.queue.length ≤ s.depth)
    (h : s.submit frame = some s') :
    s'.worker = s.worker ∧ s'.queue ≠ [] := by
  obtain ⟨oldest, rest, hqueue, hfull, rfl⟩ | ⟨hroom, rfl⟩ := submit_cases hbounded h
  · exact ⟨rfl, List.append_ne_nil_of_right_ne_nil _ (List.cons_ne_nil _ _)⟩
  · exact ⟨rfl, List.append_ne_nil_of_right_ne_nil _ (List.cons_ne_nil _ _)⟩

theorem drained_of_ne (h : s.worker ≠ .exited) : Drained s := fun hgone => absurd hgone h

/-- The worker fetches, handles or releases a frame. -/
def Event.ofWorker : Event ρ → Prop
  | .submit _ | .close | .exit => False
  | .fetch | .count | .note _ | .fault _ | .finish | .release => True

theorem worker_there (h : step kind s event = some s') (howner : event.ofWorker) :
    s.worker ≠ .exited ∧ s'.worker ≠ .exited := by
  cases event with
  | submit | close | exit => exact howner.elim
  | fetch | count | note | fault | finish | release =>
    simp only [step, fetch, count, note, fault, finish, release] at h
    split at h
    · rename_i hworker
      obtain rfl := Option.some.inj h
      simp_all
    · cases h

/-- The worker leaves no frame behind exactly when none comes after it. -/
theorem step_drained (hbounded : s.queue.length ≤ s.depth)
    (h : step kind s event = some s') : Drained s' ↔ Drained s ∧ InTime s event := by
  cases event with
  | submit frame =>
    obtain ⟨hworker, hqueue⟩ := submit_worker hbounded h
    constructor
    · intro hdrained
      have hthere : s.worker ≠ .exited := fun hgone => hqueue (hdrained (hworker.trans hgone))
      exact ⟨drained_of_ne hthere, fun _ => hthere⟩
    · intro hboth
      exact drained_of_ne (hworker.trans_ne (hboth.2 (List.cons_ne_nil _ _)))
  | close =>
    obtain rfl := Option.some.inj h
    exact ⟨fun hdrained => ⟨hdrained, fun hne => absurd rfl hne⟩, fun hboth => hboth.1⟩
  | exit =>
    simp only [step, exit] at h
    split_ifs at h with hgone
    obtain rfl := Option.some.inj h
    have hthere : s.worker ≠ .exited := by simp [hgone.1]
    exact ⟨fun _ => ⟨drained_of_ne hthere, fun _ => hthere⟩, fun _ _ => hgone.2.1⟩
  | fetch | count | note | fault | finish | release =>
    obtain ⟨hthere, hthere'⟩ := worker_there h trivial
    exact ⟨fun _ => ⟨drained_of_ne hthere, fun _ => hthere⟩, fun _ => drained_of_ne hthere'⟩

theorem run_drained_iff {depth : ℕ} {tally : τ}
    (h : run (step kind) (new depth tally) events = some s) :
    Drained s ↔ Along (step kind) InTime (new depth tally) events := by
  induction events using List.reverseRecOn generalizing s with
  | nil =>
    rw [run_nil, Option.some.injEq] at h
    subst h
    exact iff_of_true (fun _ => rfl) trivial
  | append_singleton front event ih =>
    obtain ⟨m, hm, hlast⟩ := run_snoc_some (step kind) h
    rw [along_append (step kind) hm, ← ih hm, step_drained (run_conserved hm).bounded hlast]
    simp [Along]

/-- In every run each submitted lease is released, queued or in the hands of the worker, each as
often as it was submitted, and the counters add up. Once the worker has gone each lease was
released exactly as often as it was submitted if and only if no frame came after it. -/
theorem released_once_iff (kind : Tally ρ τ) {depth : ℕ} {tally : τ}
    (h : run (step kind) (new depth tally) events = some s) :
    (∀ lease, s.released.count lease + s.outstanding.count lease =
      (submissions events).count lease) ∧
    s.submitted = ended events + s.dropped + s.queue.length + s.inFlight ∧
    (s.worker = .exited →
      ((∀ lease, s.released.count lease = (submissions events).count lease) ↔
        Along (step kind) InTime (new depth tally) events)) := by
  have hconserved := run_conserved h
  have hcounts : ∀ lease, s.released.count lease + s.outstanding.count lease =
      (submissions events).count lease := by
    intro lease
    rw [← List.count_append, hconserved.leases.count_eq]
  refine ⟨hcounts, hconserved.books, fun hgone => ?_⟩
  have hheld : s.outstanding = s.queue.map SinkFrame.lease := by simp [outstanding, held, hgone]
  rw [← run_drained_iff h]
  constructor
  · intro hreleased _
    rw [List.eq_nil_iff_forall_not_mem]
    intro frame hframe
    have hmem : frame.lease ∈ s.outstanding := hheld ▸ List.mem_map_of_mem hframe
    have hpos := List.count_pos_iff.mpr hmem
    have hsum := hcounts frame.lease
    have hequal := hreleased frame.lease
    omega
  · intro hdrained lease
    have hnone : s.outstanding.count lease = 0 := by simp [hheld, hdrained hgone]
    have hsum := hcounts lease
    omega

/-- A frame that is evicted, one whose handler raises and one that is handled. -/
def drainedRun : List (Event ℕ) :=
  [.submit ⟨7, 1⟩, .submit ⟨8, 2⟩, .fetch, .fault "boom", .release, .submit ⟨9, 3⟩, .close,
    .fetch, .count, .note 2, .finish, .release, .exit]

theorem released_once_drainedRun :
    ∃ s, run (step detectorTally) (new 1 0) drainedRun = some s ∧ s.worker = .exited ∧
      s.dropped = 1 ∧ s.faults = 1 ∧ s.processed = 1 ∧
      ((∀ lease, s.released.count lease = (submissions drainedRun).count lease) ↔
        Along (step detectorTally) InTime (new 1 0) drainedRun) := by
  have hrun : run (step detectorTally) (new 1 0) drainedRun = some
      ⟨1, [], true, 3, 1, 1, 1, some "boom", 2, .exited, [7, 8, 9]⟩ := by decide
  exact ⟨_, hrun, rfl, rfl, rfl, rfl, (released_once_iff detectorTally hrun).2.2 rfl⟩

/-- A frame that comes after the worker is never released. -/
theorem late_submission_kept :
    ∃ s, run (step detectorTally) (new 1 0) [.close, .exit, .submit ⟨7, 1⟩] = some s ∧
      s.worker = .exited ∧ s.released = [] ∧ s.queue = [⟨7, 1⟩] :=
  ⟨⟨1, [⟨7, 1⟩], true, 1, 0, 0, 0, none, 0, .exited, []⟩, by decide, rfl, rfl, rfl⟩

end Sink

end Mission10.Sensing
