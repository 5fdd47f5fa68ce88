import Mission10.Library.Outcome
import Mission10.Library.Runs
import Mission10.Sensing.TileGrids

/-!
# Faults of the detection loop

`run_mine_detection` owns an attachment to the frame pool and polls it until `stop` is
set. Attaching, selecting a frame, copying it, converting it, running the backend and
closing the pool may each raise. The loop handles `RuntimeError` and `OSError` and lets
every other exception out, and it does not guard the close after the loop.
-/
namespace Mission10.Sensing

/-- The classes of exceptions that the operations of the loop raise. A subclass of
`RuntimeError` or of `OSError` counts as that class. -/
inductive Fault
  | runtimeError
  | osError
  | valueError
  | bufferError
  | overflowError
  | other (name : String)
deriving DecidableEq, Repr

/-- The `except` clause of the loop. -/
def Fault.caught : Fault → Bool
  | .runtimeError | .osError => true
  | _ => false

namespace MineDetector

/-- The entries of one class in the buffer of the backend, and what follows them. -/
def parseEntries (confidence : ℚ) : ℕ → List ℚ → Except Fault (List Box × List ℚ)
  | 0, flat => .ok ([], flat)
  | count + 1, yMin :: xMin :: yMax :: xMax :: score :: flat => do
    let (boxes, rest) ← parseEntries confidence count flat
    if confidence ≤ score then
      let box : Box := ⟨xMin * tileSize, yMin * tileSize, (xMax - xMin) * tileSize,
        (yMax - yMin) * tileSize, score⟩
      return (box :: boxes, rest)
    else return (boxes, rest)
  | _ + 1, _ => .error .valueError

/-- `_parse_nms` on a buffer with at most `fuel` numbers. -/
def parseNmsFrom (confidence : ℚ) : ℕ → List ℚ → Except Fault (List Box)
  | _, [] => .ok []
  | 0, _ => .ok []
  | fuel + 1, count :: flat => do
    let (boxes, rest) ← parseEntries confidence (if count < 0 then 0 else ⌊count⌋.toNat) flat
    return boxes ++ (← parseNmsFrom confidence fuel rest)

def parseNms (confidence : ℚ) (buffer : List ℚ) : Except Fault (List Box) :=
  parseNmsFrom confidence buffer.length buffer

/-- `detect_frame` with a backend that may raise on a tile. -/
def detectFrameOrRaise (infer : ℤ × ℤ → Except Fault (List Box)) (width height : ℤ) :
    Except Fault (List Box) := do
  let found ← (tileOrigins width height).mapM fun origin => do
    let boxes ← infer origin
    return boxes.map fun box => { box with x := box.x + origin.1, y := box.y + origin.2 }
  return dedupBoxes found.flatten

end MineDetector

/-- A pool that the loop has attached; the pools of a run are numbered. -/
structure AttachedPool where
  number : ℕ
  width : ℤ
  height : ℤ
deriving DecidableEq

/-- What the operations of one pass through the loop do, and the clock they read. -/
structure Pass where
  attach : Except Fault (ℤ × ℤ)
  attachedAt : ℚ
  latestAfter : Except Fault (Option ℕ)
  copy : Except Fault Bool
  convert : Except Fault Unit
  infer : ℤ × ℤ → Except Fault (List MineDetector.Box)
  timestamp : ℤ
  checkedAt : ℚ
  close : Except Fault Unit

/-- What `stop.is_set()` finds at the head of the loop: another pass, or the end and the
close after it. -/
inductive Turn
  | pass (p : Pass)
  | stopped (close : Except Fault Unit)

inductive LoopStatus
  | running
  | returned
  | raised (fault : Fault)
deriving DecidableEq

/-- The local state of `run_mine_detection`, how many pools it has attached, and the
pools it has tried to close. -/
structure DetectionLoop where
  status : LoopStatus
  stopSet : Bool
  pool : Option AttachedPool
  attached : ℕ
  closed : List ℕ
  lastSequence : ℕ
  lastProgress : ℚ
  results : List (ℤ × MineDetector.Box)

namespace DetectionLoop

open MineDetector

/-- The loop at `now`, before its first pass. -/
def start (now : ℚ) : DetectionLoop where
  status := .running
  stopSet := false
  pool := none
  attached := 0
  closed := []
  lastSequence := 0
  lastProgress := now
  results := []

def stalePoolS : ℚ := 5

/-- `poll_once`: the number of the frame and its boxes, or nothing. -/
def pollOnce (pool : AttachedPool) (p : Pass) : Except Fault (Option (ℕ × List Box)) := do
  match ← p.latestAfter with
  | none => return none
  | some sequence =>
    if ← p.copy then
      p.convert
      return some (sequence, ← detectFrameOrRaise p.infer pool.width pool.height)
    else return none

/-- The pool is attached when there is none. -/
def attachPool (d : DetectionLoop) (p : Pass) : Except Fault (DetectionLoop × AttachedPool) :=
  match d.pool with
  | some pool => .ok (d, pool)
  | none => do
    let (width, height) ← p.attach
    let pool : AttachedPool := ⟨d.attached, width, height⟩
    return ({ d with
      pool := some pool
      attached := d.attached + 1
      lastSequence := 0
      lastProgress := p.attachedAt }, pool)

/-- The `except` clause, and what it does not name. The close in it may raise as well. -/
def handle (d : DetectionLoop) (fault : Fault) : DetectionLoop :=
  if fault.caught then
    match d.pool with
    | none => d
    | some pool => { d with pool := none, closed := d.closed ++ [pool.number] }
  else { d with status := .raised fault }

/-- A pass that found nothing closes a pool that has been silent for too long. -/
def dropStale (d : DetectionLoop) (pool : AttachedPool) (p : Pass) : DetectionLoop :=
  if stalePoolS < p.checkedAt - d.lastProgress then
    let closing := { d with closed := d.closed ++ [pool.number] }
    match p.close with
    | .ok _ => { closing with pool := none }
    | .error fault => closing.handle fault
  else d

/-- One pass through the loop. -/
def pass (d : DetectionLoop) (p : Pass) : DetectionLoop :=
  match d.attachPool p with
  | .error fault => d.handle fault
  | .ok (d, pool) =>
    match pollOnce pool p with
    | .error fault => d.handle fault
    | .ok none => d.dropStale pool p
    | .ok (some (sequence, boxes)) =>
      { d with
        lastSequence := sequence
        lastProgress := p.checkedAt
        results := d.results ++ boxes.map fun box => (p.timestamp, box) }

/-- The end of the loop. -/
def finish (d : DetectionLoop) (close : Except Fault Unit) : DetectionLoop :=
  match d.pool with
  | none => { d with stopSet := true, status := .returned }
  | some pool =>
    { d with
      stopSet := true
      closed := d.closed ++ [pool.number]
      status :=
        match close with
        | .ok _ => .returned
        | .error fault => .raised fault }

def step (d : DetectionLoop) (turn : Turn) : Option DetectionLoop :=
  match d.status with
  | .running =>
    match turn with
    | .pass p => some (d.pass p)
    | .stopped close => some (d.finish close)
  | _ => none

/-! ### What the loop promises -/

/-- The pool that a pass polls. -/
def polled (d : DetectionLoop) (p : Pass) (pool : AttachedPool) : Prop :=
  d.pool = some pool ∨
    d.pool = none ∧ ∃ width height, p.attach = .ok (width, height) ∧
      pool = ⟨d.attached, width, height⟩

/-- The time without progress is over when a pass looks at it. -/
def stale (d : DetectionLoop) (p : Pass) : Prop :=
  stalePoolS < p.checkedAt - if d.pool.isSome then d.lastProgress else p.attachedAt

/-- The operations that a pass performs raise nothing that the loop does not handle. -/
structure Mild (d : DetectionLoop) (p : Pass) : Prop where
  attach : d.pool = none → ∀ fault, p.attach = .error fault → fault.caught = true
  latestAfter : ∀ pool, d.polled p pool → ∀ fault, p.latestAfter = .error fault →
    fault.caught = true
  copy : ∀ pool, d.polled p pool → ∀ sequence, p.latestAfter = .ok (some sequence) →
    ∀ fault, p.copy = .error fault → fault.caught = true
  convert : ∀ pool, d.polled p pool → ∀ sequence, p.latestAfter = .ok (some sequence) →
    p.copy = .ok true → ∀ fault, p.convert = .error fault → fault.caught = true
  infer : ∀ pool, d.polled p pool → ∀ sequence, p.latestAfter = .ok (some sequence) →
    p.copy = .ok true → p.convert = .ok () → ∀ fault,
      detectFrameOrRaise p.infer pool.width pool.height = .error fault → fault.caught = true
  close : ∀ pool, d.polled p pool → p.latestAfter = .ok none ∨
      (∃ sequence, p.latestAfter = .ok (some sequence)) ∧ p.copy = .ok false →
    d.stale p → ∀ fault, p.close = .error fault → fault.caught = true

/-- A turn whose faults the loop handles. The close after the loop is not guarded. -/
def Handled (d : DetectionLoop) : Turn → Prop
  | .pass p => d.Mild p
  | .stopped close => d.pool.isSome → close = .ok ()

/-- What the docstring promises of a state: nothing was raised, the loop returns only when
`stop` is set, it holds one pool at most, and it has tried to close all of them when it
returns. -/
structure Survives (d : DetectionLoop) : Prop where
  quiet : ∀ fault, d.status ≠ .raised fault
  stopped : d.status = .returned → d.stopSet = true
  one : ∀ i < d.attached, ∀ j < d.attached, i ∉ d.closed → j ∉ d.closed → i = j
  closed : d.status = .returned → ∀ i < d.attached, i ∈ d.closed

/-- The pools that were not closed are the one in the local variable. -/
structure Orderly (d : DetectionLoop) : Prop where
  held : ∀ i < d.attached, i ∉ d.closed → ∃ pool, d.pool = some pool ∧ pool.number = i
  returned : d.status = .returned → d.stopSet = true ∧ ∀ i < d.attached, i ∈ d.closed

theorem orderly_start (now : ℚ) : Orderly (start now) := by
  refine ⟨fun i hi => absurd hi (Nat.not_lt_zero i), ?_⟩
  intro h
  cases h

variable {d d' : DetectionLoop} {p : Pass}

theorem Orderly.survives (h : Orderly d) (hquiet : ∀ fault, d.status ≠ .raised fault) :
    Survives d := by
  refine ⟨hquiet, fun hreturned => (h.returned hreturned).1, ?_,
    fun hreturned => (h.returned hreturned).2⟩
  intro i hi j hj hopen hopen'
  obtain ⟨pool, hpool, rfl⟩ := h.held i hi hopen
  obtain ⟨pool', hpool', rfl⟩ := h.held j hj hopen'
  rw [hpool] at hpool'
  rw [Option.some.inj hpool']

/-- Closing the pool of the local variable and forgetting it. -/
theorem Orderly.forget (h : Orderly d) (hrunning : d.status = .running) {pool : AttachedPool}
    (hpool : d.pool = some pool) :
    Orderly { d with pool := none, closed := d.closed ++ [pool.number] } := by
  refine ⟨fun i hi hopen => ?_, fun hreturned => ?_⟩
  · exfalso
    rw [List.mem_append, not_or] at hopen
    obtain ⟨pool', hpool', rfl⟩ := h.held i hi hopen.1
    rw [hpool] at hpool'
    obtain rfl := Option.some.inj hpool'
    exact hopen.2 (List.mem_singleton_self _)
  · change d.status = .returned at hreturned
    rw [hrunning] at hreturned
    cases hreturned

theorem Orderly.handle (h : Orderly d) (hrunning : d.status = .running) (fault : Fault) :
    Orderly (d.handle fault) := by
  rw [DetectionLoop.handle]
  split
  · cases hpool : d.pool with
    | none => exact h
    | some pool => exact h.forget hrunning hpool
  · refine ⟨h.held, fun hreturned => ?_⟩
    cases hreturned

theorem Orderly.attachPool (h : Orderly d) (hrunning : d.status = .running)
    {pool : AttachedPool} (hattach : d.attachPool p = .ok (d', pool)) :
    Orderly d' ∧ d'.status = .running ∧ d'.pool = some pool := by
  rw [DetectionLoop.attachPool] at hattach
  cases hpool : d.pool with
  | some pool' =>
    rw [hpool] at hattach
    obtain ⟨rfl, rfl⟩ := Prod.mk.inj (Except.ok.inj hattach)
    exact ⟨h, hrunning, hpool⟩
  | none =>
    rw [hpool] at hattach
    obtain ⟨⟨width, height⟩, -, hrest⟩ := Outcome.bind_ok hattach
    obtain ⟨rfl, rfl⟩ := Prod.mk.inj (Outcome.pure_ok hrest)
    refine ⟨⟨fun i hi hopen => ⟨_, rfl, ?_⟩, fun hreturned => ?_⟩, hrunning, rfl⟩
    · by_contra hne
      have hbefore : i < d.attached := by
        change i < d.attached + 1 at hi
        change ¬ d.attached = i at hne
        omega
      obtain ⟨pool', hpool', -⟩ := h.held i hbefore hopen
      rw [hpool] at hpool'
      cases hpool'
    · change d.status = .returned at hreturned
      rw [hrunning] at hreturned
      cases hreturned

theorem Orderly.dropStale (h : Orderly d) (hrunning : d.status = .running) {pool : AttachedPool}
    (hpool : d.pool = some pool) : Orderly (d.dropStale pool p) := by
  rw [DetectionLoop.dropStale]
  split
  · dsimp only
    cases p.close with
    | ok _ => exact h.forget hrunning hpool
    | error fault =>
      have hclosing : Orderly { d with closed := d.closed ++ [pool.number] } := by
        refine ⟨fun i hi hopen => ?_, fun hreturned => ?_⟩
        · exact h.held i hi fun hclosed => hopen (List.mem_append_left _ hclosed)
        · change d.status = .returned at hreturned
          rw [hrunning] at hreturned
          cases hreturned
      exact hclosing.handle hrunning fault
  · exact h

theorem Orderly.step {turn : Turn} (h : Orderly d) (hstep : d.step turn = some d') :
    Orderly d' := by
  cases hrunning : d.status with
  | returned =>
    simp only [DetectionLoop.step, hrunning] at hstep
    cases hstep
  | raised fault =>
    simp only [DetectionLoop.step, hrunning] at hstep
    cases hstep
  | running =>
    simp only [DetectionLoop.step, hrunning] at hstep
    cases turn with
    | pass p =>
      obtain rfl := Option.some.inj hstep
      rw [DetectionLoop.pass]
      cases hattach : d.attachPool p with
      | error fault => exact h.handle hrunning fault
      | ok attached =>
        obtain ⟨d', pool⟩ := attached
        obtain ⟨h', hrunning', hpool⟩ := h.attachPool hrunning hattach
        dsimp only
        cases pollOnce pool p with
        | error fault => exact h'.handle hrunning' fault
        | ok found =>
          cases found with
          | none => exact h'.dropStale hrunning' hpool
          | some frame =>
            refine ⟨h'.held, fun hreturned => ?_⟩
            change d'.status = .returned at hreturned
            rw [hrunning'] at hreturned
            cases hreturned
    | stopped close =>
      obtain rfl := Option.some.inj hstep
      cases hpool : d.pool with
      | none =>
        simp only [DetectionLoop.finish, hpool]
        have hall : ∀ i < d.attached, i ∈ d.closed := by
          intro i hi
          by_contra hopen
          obtain ⟨pool, hpool', -⟩ := h.held i hi hopen
          rw [hpool] at hpool'
          cases hpool'
        exact ⟨fun i hi hopen => absurd (hall i hi) hopen, fun _ => ⟨rfl, hall⟩⟩
      | some pool =>
        simp only [DetectionLoop.finish, hpool]
        have hall : ∀ i < d.attached, i ∈ d.closed ++ [pool.number] := by
          intro i hi
          by_contra hopen
          rw [List.mem_append, not_or] at hopen
          obtain ⟨pool', hpool', rfl⟩ := h.held i hi hopen.1
          rw [hpool] at hpool'
          obtain rfl := Option.some.inj hpool'
          exact hopen.2 (List.mem_singleton_self _)
        exact ⟨fun i hi hopen => absurd (hall i hi) hopen, fun _ => ⟨rfl, hall⟩⟩

/-! ### When nothing is raised -/

theorem handle_quiet (hrunning : d.status = .running) (fault : Fault) :
    (∀ raised, (d.handle fault).status ≠ .raised raised) ↔ fault.caught = true := by
  rw [handle]
  split
  · rename_i hcaught
    refine iff_of_true ?_ hcaught
    intro raised h
    cases hpool : d.pool with
    | none =>
      rw [hpool] at h
      change d.status = _ at h
      rw [hrunning] at h
      cases h
    | some pool =>
      rw [hpool] at h
      change d.status = _ at h
      rw [hrunning] at h
      cases h
  · rename_i hcaught
    exact iff_of_false (fun h => h fault rfl) hcaught

theorem running_quiet (hrunning : d.status = .running) : ∀ raised, d.status ≠ .raised raised := by
  intro raised h
  rw [hrunning] at h
  cases h

theorem dropStale_quiet (hrunning : d.status = .running) (pool : AttachedPool) :
    (∀ raised, (d.dropStale pool p).status ≠ .raised raised) ↔
      (stalePoolS < p.checkedAt - d.lastProgress → ∀ fault, p.close = .error fault →
        fault.caught = true) := by
  rw [dropStale]
  split
  · rename_i hstale
    cases hclose : p.close with
    | ok _ =>
      refine iff_of_true ?_ fun _ fault h => ?_
      · exact running_quiet hrunning
      · cases h
    | error fault =>
      have hhandle := handle_quiet (d := { d with closed := d.closed ++ [pool.number] })
        hrunning fault
      constructor
      · intro h _ fault' hfault
        obtain rfl := Except.error.inj hfault
        exact hhandle.mp h
      · intro h
        exact hhandle.mpr (h hstale fault rfl)
  · rename_i hfresh
    exact iff_of_true (running_quiet hrunning) fun hstale => absurd hstale hfresh

theorem attachPool_error {fault : Fault} (h : d.attachPool p = .error fault) :
    d.pool = none ∧ p.attach = .error fault := by
  rw [attachPool] at h
  cases hpool : d.pool with
  | some pool =>
    rw [hpool] at h
    cases h
  | none =>
    rw [hpool] at h
    refine ⟨rfl, ?_⟩
    cases hattach : p.attach with
    | ok size =>
      rw [hattach] at h
      cases h
    | error fault' =>
      rw [hattach] at h
      rw [Except.error.inj h]

/-- The pool that an attached loop polls, and the clock of its progress. -/
theorem attachPool_ok {pool : AttachedPool} (h : d.attachPool p = .ok (d', pool)) :
    (∀ pool', d.polled p pool' ↔ pool' = pool) ∧ d'.status = d.status ∧
      d'.lastProgress = (if d.pool.isSome then d.lastProgress else p.attachedAt) ∧
      ∀ fault, d.pool = none → p.attach ≠ .error fault := by
  rw [attachPool] at h
  cases hpool : d.pool with
  | some pool' =>
    rw [hpool] at h
    obtain ⟨rfl, rfl⟩ := Prod.mk.inj (Except.ok.inj h)
    refine ⟨fun pool'' => ?_, rfl, by rw [Option.isSome_some, if_pos rfl], fun _ h => by cases h⟩
    rw [polled, hpool]
    simp [eq_comm]
  | none =>
    rw [hpool] at h
    obtain ⟨⟨width, height⟩, hattach, hrest⟩ := Outcome.bind_ok h
    obtain ⟨rfl, rfl⟩ := Prod.mk.inj (Outcome.pure_ok hrest)
    refine ⟨fun pool' => ?_, rfl, by simp, fun fault _ hfault => ?_⟩
    · rw [polled, hpool]
      constructor
      · rintro (h | ⟨-, width', height', hattach', rfl⟩)
        · cases h
        · rw [hattach] at hattach'
          obtain ⟨rfl, rfl⟩ := Prod.mk.inj (Except.ok.inj hattach')
          rfl
      · rintro rfl
        exact Or.inr ⟨rfl, width, height, hattach, rfl⟩
    · rw [hattach] at hfault
      cases hfault

/-- When a poll raises, and when it finds nothing. -/
theorem pollOnce_iff (pool : AttachedPool) (p : Pass) :
    (∀ fault, pollOnce pool p = .error fault ↔ p.latestAfter = .error fault ∨
      ∃ sequence, p.latestAfter = .ok (some sequence) ∧ (p.copy = .error fault ∨
        p.copy = .ok true ∧ (p.convert = .error fault ∨ p.convert = .ok () ∧
          detectFrameOrRaise p.infer pool.width pool.height = .error fault))) ∧
    (pollOnce pool p = .ok none ↔ p.latestAfter = .ok none ∨
      (∃ sequence, p.latestAfter = .ok (some sequence)) ∧ p.copy = .ok false) := by
  cases hlatest : p.latestAfter with
  | error fault => simp [pollOnce, hlatest, bind, Except.bind]
  | ok found =>
    cases found with
    | none => simp [pollOnce, hlatest, bind, Except.bind, pure, Except.pure]
    | some sequence =>
      cases hcopy : p.copy with
      | error fault => simp [pollOnce, hlatest, hcopy, bind, Except.bind]
      | ok copied =>
        cases copied with
        | false => simp [pollOnce, hlatest, hcopy, bind, Except.bind, pure, Except.pure]
        | true =>
          cases hconvert : p.convert with
          | error fault => simp [pollOnce, hlatest, hcopy, hconvert, bind, Except.bind]
          | ok _ =>
            cases hdetect : detectFrameOrRaise p.infer pool.width pool.height with
            | error fault => simp [pollOnce, hlatest, hcopy, hconvert, hdetect, bind, Except.bind]
            | ok boxes =>
              simp [pollOnce, hlatest, hcopy, hconvert, hdetect, bind, Except.bind, pure,
                Except.pure]

/-- With a pool, the poll and the close of a stale pool are the operations that count. -/
theorem mild_iff {pool : AttachedPool} (hpolled : ∀ pool', d.polled p pool' ↔ pool' = pool)
    (hattached : ∀ fault, d.pool = none → p.attach ≠ .error fault) :
    d.Mild p ↔ (∀ fault, pollOnce pool p = .error fault → fault.caught = true) ∧
      (pollOnce pool p = .ok none → d.stale p → ∀ fault, p.close = .error fault →
        fault.caught = true) := by
  have hself := (hpolled pool).mpr rfl
  simp only [(pollOnce_iff pool p).1, (pollOnce_iff pool p).2]
  constructor
  · intro h
    refine ⟨?_, h.close pool hself⟩
    rintro fault (hlatest | ⟨sequence, hlatest, hcopy | ⟨hcopy, hconvert | ⟨hconvert, hinfer⟩⟩⟩)
    · exact h.latestAfter pool hself fault hlatest
    · exact h.copy pool hself sequence hlatest fault hcopy
    · exact h.convert pool hself sequence hlatest hcopy fault hconvert
    · exact h.infer pool hself sequence hlatest hcopy hconvert fault hinfer
  · rintro ⟨hpoll, hclose⟩
    refine ⟨fun hpool fault h => absurd h (hattached fault hpool), ?_, ?_, ?_, ?_,
      fun _ _ => hclose⟩
    · intro _ _ fault hlatest
      exact hpoll fault (Or.inl hlatest)
    · intro _ _ sequence hlatest fault hcopy
      exact hpoll fault (Or.inr ⟨sequence, hlatest, Or.inl hcopy⟩)
    · intro _ _ sequence hlatest hcopy fault hconvert
      exact hpoll fault (Or.inr ⟨sequence, hlatest, Or.inr ⟨hcopy, Or.inl hconvert⟩⟩)
    · intro pool' hpool' sequence hlatest hcopy hconvert fault hinfer
      obtain rfl := (hpolled pool').mp hpool'
      exact hpoll fault
        (Or.inr ⟨sequence, hlatest, Or.inr ⟨hcopy, Or.inr ⟨hconvert, hinfer⟩⟩⟩)

/-- A pass raises nothing exactly when the operations it performs raise nothing that the
loop does not handle. -/
theorem pass_quiet (hrunning : d.status = .running) :
    (∀ raised, (d.pass p).status ≠ .raised raised) ↔ d.Mild p := by
  rw [pass]
  cases hattach : d.attachPool p with
  | error fault =>
    obtain ⟨hpool, hfault⟩ := attachPool_error hattach
    have hnone (pool : AttachedPool) : ¬ d.polled p pool := by
      rintro (h | ⟨-, width, height, h, -⟩)
      · rw [hpool] at h
        cases h
      · rw [hfault] at h
        cases h
    rw [handle_quiet hrunning]
    constructor
    · intro hcaught
      refine ⟨fun _ fault' h => ?_, fun pool h => absurd h (hnone pool),
        fun pool h => absurd h (hnone pool), fun pool h => absurd h (hnone pool),
        fun pool h => absurd h (hnone pool), fun pool h => absurd h (hnone pool)⟩
      rw [hfault] at h
      obtain rfl := Except.error.inj h
      exact hcaught
    · intro h
      exact h.attach hpool fault hfault
  | ok attached =>
    obtain ⟨d', pool⟩ := attached
    obtain ⟨hpolled, hstatus, hprogress, hattached⟩ := attachPool_ok hattach
    rw [hrunning] at hstatus
    rw [mild_iff hpolled hattached]
    dsimp only
    cases pollOnce pool p with
    | error fault =>
      rw [handle_quiet hstatus]
      simp
    | ok found =>
      cases found with
      | none =>
        rw [dropStale_quiet hstatus, hprogress]
        simp [stale]
      | some frame =>
        obtain ⟨sequence, boxes⟩ := frame
        refine iff_of_true ?_ (by simp)
        exact running_quiet hstatus

/-- The end of the loop raises nothing exactly when there is no pool or its close works. -/
theorem finish_quiet (d : DetectionLoop) (close : Except Fault Unit) :
    (∀ raised, (d.finish close).status ≠ .raised raised) ↔
      (d.pool.isSome → close = .ok ()) := by
  cases hpool : d.pool with
  | none => simp [finish, hpool]
  | some pool =>
    cases close with
    | ok _ => simp [finish, hpool]
    | error fault => simp [finish, hpool]

theorem step_quiet {turn : Turn} (hstep : d.step turn = some d') :
    (∀ raised, d'.status ≠ .raised raised) ↔ d.Handled turn := by
  cases hrunning : d.status with
  | returned =>
    simp only [step, hrunning] at hstep
    cases hstep
  | raised fault =>
    simp only [step, hrunning] at hstep
    cases hstep
  | running =>
    simp only [step, hrunning] at hstep
    cases turn with
    | pass p =>
      obtain rfl := Option.some.inj hstep
      exact pass_quiet hrunning
    | stopped close =>
      obtain rfl := Option.some.inj hstep
      exact finish_quiet d close

/-- The loop keeps its promise in all states of a run exactly when no operation performed in
it raises anything but a `RuntimeError` or an `OSError` and the close after the loop works. -/
theorem survives_iff_handled (now : ℚ) {turns : List Turn} {last : DetectionLoop}
    (hrun : Runs.run step (start now) turns = some last) :
    (∀ front back d, turns = front ++ back → Runs.run step (start now) front = some d →
        Survives d) ↔
      Runs.Along step Handled (start now) turns := by
  have hstart : Orderly (start now) ∧ ∀ fault, (start now).status ≠ .raised fault :=
    ⟨orderly_start now, running_quiet rfl⟩
  have hvisited := Runs.visited_iff_along step
    (P := fun d => Orderly d ∧ ∀ fault, d.status ≠ .raised fault) (C := Handled)
    (fun d turn d' hd hstep => by
      rw [← step_quiet hstep]
      exact and_iff_right (hd.1.step hstep)) hstart hrun
  rw [← hvisited]
  constructor
  · intro h front back d heq hfront
    exact ⟨Runs.run_invariant step Orderly (fun _ _ _ hs hstep => hs.step hstep) hstart.1 hfront,
      (h front back d heq hfront).quiet⟩
  · intro h front back d heq hfront
    obtain ⟨horderly, hquiet⟩ := h front back d heq hfront
    exact horderly.survives hquiet

/-- A pass that attaches a pool of one tile, copies its first frame and has it seen by a
backend with the given buffer. -/
def benchPass (attach : Except Fault (ℤ × ℤ)) (buffer : List ℚ) : Pass where
  attach := attach
  attachedAt := 0
  latestAfter := .ok (some 1)
  copy := .ok true
  convert := .ok ()
  infer := fun _ => parseNms (3 / 10) buffer
  timestamp := 7
  checkedAt := 1
  close := .ok ()

/-- Sensing starts late, one mine is seen, and the loop is stopped. -/
def benchTurns : List Turn :=
  [.pass (benchPass (.error .runtimeError) []),
    .pass (benchPass (.ok (640, 640)) [1, 0, 0, 1 / 10, 1 / 10, 9 / 10]), .stopped (.ok ())]

/-- The first pass finds no pool, the second raises nothing, and the pool closes. -/
theorem benchTurns_handled : Runs.Along step Handled (start 0) benchTurns := by
  have hfirst : ∀ raised, ((start 0).pass (benchPass (.error .runtimeError) [])).status ≠
      .raised raised := running_quiet rfl
  refine ⟨(pass_quiet rfl).mp hfirst, fun d hd => ?_⟩
  obtain rfl := Option.some.inj hd
  refine ⟨(pass_quiet rfl).mp (running_quiet (by decide +kernel)), fun d' _ => ?_⟩
  exact ⟨fun _ => rfl, fun _ _ => trivial⟩

theorem survives_iff_handled_bench :
    ∃ d, Runs.run step (start 0) benchTurns = some d ∧ d.Survives := by
  have hsome : (Runs.run step (start 0) benchTurns).isSome = true := by
    decide +kernel
  obtain ⟨d, hrun⟩ := Option.isSome_iff_exists.mp hsome
  have hall := (survives_iff_handled 0 hrun).mpr benchTurns_handled
  exact ⟨d, hrun, hall benchTurns [] d (List.append_nil _).symm hrun⟩

/-- A buffer that announces a box and has none, and a pool whose memory is still mapped
when it is closed. -/
theorem fault_not_survived :
    ¬ (∀ (now : ℚ) (turns : List Turn) (last : DetectionLoop),
        Runs.run step (start now) turns = some last → Survives last) ∧
      (Runs.run step (start 0) [.pass (benchPass (.ok (640, 640)) [1])]).map (·.status) =
        some (.raised .valueError) ∧
      (Runs.run step (start 0) [.pass (benchPass (.ok (640, 640)) []),
          .stopped (.error .bufferError)]).map (·.status) = some (.raised .bufferError) := by
  have hshort : (Runs.run step (start 0)
      [.pass (benchPass (.ok (640, 640)) [1])]).map (·.status) = some (.raised .valueError) := by
    decide +kernel
  refine ⟨fun h => ?_, hshort, by decide +kernel⟩
  obtain ⟨d, hrun, hstatus⟩ := Option.map_eq_some_iff.mp hshort
  exact (h 0 _ d hrun).quiet _ hstatus

end DetectionLoop

end Mission10.Sensing
