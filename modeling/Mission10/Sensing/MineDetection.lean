import Mathlib.Algebra.Order.Ring.Rat
import Mission10.Library.Numerals
import Mission10.Sensing.SharedFramePool

/-!
# Mine detection over the frame pool

The detector attaches to the files at the pool's names, polls them for a frame
newer than its cursor, copies it and queues the boxes found. It gives up an
attachment when nothing new came for a while or the backend failed, and starts
the next one with a cursor of zero. The producer dies, re-creates the pool on the
same files, or removes them; the next pool then has files of its own. The commit
that a detection belongs to is in no memory and no queue.
-/
namespace Mission10.Sensing

/-- The number of frames committed to a slot, which is the number of the last. -/
def Memory.commits (memory : Memory) (slot : ℕ) : ℕ :=
  memory.committed.countP fun frame => frame.metadata.slot = slot

/-- The boxes put into `results` for a frame, which is a commit to a slot of one of
the pools. -/
structure Report where
  pool : ℕ
  slot : ℕ
  commit : ℕ
  timestamp : ℤ
  boxes : List (ℚ × ℚ × ℚ × ℚ)
deriving DecidableEq

def Report.frame (report : Report) : ℕ × ℕ × ℕ :=
  (report.pool, report.slot, report.commit)

/-- Where `poll_once` stands: `latest_after` reads, has returned metadata or
nothing, `copy` reads, or the backend works on a frame. -/
inductive PollState
  | waiting
  | selecting
  | missed
  | selected (held : Held)
  | copying
  | detecting (frame : Frame) (commit : ℕ)

namespace PollState

/-- The next step of the read in progress. -/
def move : PollState → Option Reader.Move
  | .selecting | .copying => some .load
  | .selected _ => some (.copy 0)
  | .waiting | .missed | .detecting _ _ => none

/-- What follows once the reader has made its step. -/
def next (memory : Memory) (reader : Reader) : PollState → PollState
  | .selecting =>
    match reader.activity, reader.held with
    | .idle, [] => .missed
    | .idle, held :: _ => .selected held
    | _, _ => .selecting
  | .selected _ =>
    match reader.activity with
    | .idle => .missed
    | _ => .copying
  | .copying =>
    match reader.activity, reader.returned with
    | .idle, [] => .missed
    | .idle, frame :: _ => .detecting frame (memory.commits frame.metadata.slot)
    | _, _ => .copying
  | state => state

end PollState

/-- A pool object of the detector; `lastSequence` and `lastProgress` begin anew
with each. -/
structure Attachment where
  pool : ℕ
  lastSequence : ℕ
  lastProgress : ℚ
  poll : PollState

def stalePoolS : ℚ := 5

/-- All pairs of files made so far, by number, the pair at the pool's names, and
the detector. -/
structure MineDetection where
  pools : ℕ → Pool
  created : ℕ
  named : Option ℕ
  attachment : Option Attachment
  detections : List Report

namespace MineDetection

def start : MineDetection where
  pools := fun _ => .start
  created := 0
  named := none
  attachment := none
  detections := []

def setPool (s : MineDetection) (i : ℕ) (pool : Pool) : MineDetection :=
  { s with pools := Function.update s.pools i pool }

inductive Event
  | create
  | call (made : Owner.Call)
  | store
  | die
  | close
  | attach (now : ℚ)
  | poll
  | load
  | checkStale (now : ℚ)
  | detect (now : ℚ) (timestamp : ℤ) (boxes : List (ℚ × ℚ × ℚ × ℚ))
  | fault

/-- A step of the producer on the files at the names. -/
def produce (layout : Layout) (s : MineDetection) (event : Pool.Event) : Option MineDetection :=
  match s.named with
  | none => none
  | some i => ((s.pools i).step layout event).map (s.setPool i)

/-- `create` takes the files at the names, or new ones. -/
def create (layout : Layout) (s : MineDetection) : Option MineDetection :=
  let i := s.named.getD s.created
  ((s.pools i).step layout .create).map fun pool =>
    { s.setPool i pool with
      created := if s.named.isNone then s.created + 1 else s.created
      named := some i }

/-- `close` of the owner removes the names. -/
def close (s : MineDetection) : Option MineDetection :=
  match s.named with
  | none => none
  | some i =>
    match (s.pools i).owner with
    | none => none
    | some owner =>
      if owner.pending.isEmpty then
        some { s.setPool i { s.pools i with owner := none } with named := none }
      else none

/-- An attach fails without files, a live owner or a valid header. -/
def attach (s : MineDetection) (now : ℚ) : Option MineDetection :=
  match s.attachment with
  | some _ => none
  | none =>
    match s.named with
    | none => some s
    | some i =>
      if (s.pools i).owner.isSome ∧ (s.pools i).memory.headerValid then
        some { s with attachment := some ⟨i, 0, now, .waiting⟩ }
      else some s

/-- A step of the reader on the attached files. -/
def read (layout : Layout) (s : MineDetection) (a : Attachment) (reader : Reader)
    (move : Reader.Move) (next : Reader → PollState) : Option MineDetection :=
  (reader.step layout (s.pools a.pool).memory move).map fun reader =>
    { s.setPool a.pool { s.pools a.pool with reader } with
      attachment := some { a with poll := next reader } }

def beginPoll (layout : Layout) (s : MineDetection) : Option MineDetection :=
  match s.attachment with
  | some a@⟨_, _, _, .waiting⟩ =>
    s.read layout a .start (.latestAfter a.lastSequence) fun _ => .selecting
  | _ => none

def load (layout : Layout) (s : MineDetection) : Option MineDetection :=
  match s.attachment with
  | none => none
  | some a =>
    match a.poll.move with
    | none => none
    | some move =>
      let pool := s.pools a.pool
      s.read layout a pool.reader move fun reader => a.poll.next pool.memory reader

/-- After a poll that found nothing. -/
def checkStale (s : MineDetection) (now : ℚ) : Option MineDetection :=
  match s.attachment with
  | some a@⟨_, _, _, .missed⟩ =>
    if stalePoolS < now - a.lastProgress then some { s with attachment := none }
    else some { s with attachment := some { a with poll := .waiting } }
  | _ => none

/-- The backend returns boxes; without any, nothing is queued. -/
def detect (s : MineDetection) (now : ℚ) (timestamp : ℤ) (boxes : List (ℚ × ℚ × ℚ × ℚ)) :
    Option MineDetection :=
  match s.attachment with
  | some a@⟨_, _, _, .detecting frame commit⟩ =>
    some
      { s with
        attachment := some
          { a with
            lastSequence := frame.metadata.sequence
            lastProgress := now
            poll := .waiting }
        detections :=
          if boxes = [] then s.detections
          else s.detections ++ [⟨a.pool, frame.metadata.slot, commit, timestamp, boxes⟩] }
  | _ => none

/-- The backend raises, and the detector closes its pool. -/
def fault (s : MineDetection) : Option MineDetection :=
  match s.attachment with
  | some ⟨_, _, _, .detecting _ _⟩ => some { s with attachment := none }
  | _ => none

/-- `run_mine_detection` and the producer, one step of either. -/
def step (layout : Layout) (s : MineDetection) : Event → Option MineDetection
  | .create => s.create layout
  | .call made => s.produce layout (.call made)
  | .store => s.produce layout .store
  | .die => s.produce layout .die
  | .close => s.close
  | .attach now => s.attach now
  | .poll => s.beginPoll layout
  | .load => s.load layout
  | .checkStale now => s.checkStale now
  | .detect now timestamp boxes => s.detect now timestamp boxes
  | .fault => s.fault

/-- The frames that have boxes in the queue. -/
def reported (s : MineDetection) : List (ℕ × ℕ × ℕ) := s.detections.map Report.frame

end MineDetection

end Mission10.Sensing
