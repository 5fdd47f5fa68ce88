import Mission10.Sensing.FrameCopies
import Mission10.Sensing.MineDetection

/-!
# Frames detected once

Within an attachment the cursor alone keeps the detector from a frame it has
reported: a slot that still holds one has a sequence number up to the cursor, and
what `latest_after` returns lies beyond it. An attach puts the cursor back to
zero, and nothing else remembers the frames. What the first poll after it picks
decides whether a frame is reported again.
-/
namespace Mission10.Sensing

open VersionedCell Runs

@[simp] theorem commits_publish (memory : Memory) (frame : Frame) (slot : ℕ) :
    (memory.store (.publish frame)).commits slot =
      if frame.metadata.slot = slot then memory.commits slot + 1 else memory.commits slot := by
  simp only [Memory.commits, Memory.store, List.countP_append, List.countP_singleton]
  split_ifs with hslot <;> simp_all

/-! ### Steps of the producer -/

namespace Memory

variable {layout : Layout} {memory memory' : Memory} {slot : ℕ}

/-- A slot that an allowed store leaves under an even generation is as it was, or
has just been committed. -/
theorem store_slot {next : Store} (h : memory.Allowed layout next)
    (hclosed : Closed ((memory.store next).generation slot)) :
    ((memory.store next).control slot = memory.control slot ∧
      (memory.store next).commits slot = memory.commits slot) ∨
    (memory.store next).commits slot = memory.commits slot + 1 := by
  by_cases htarget : target next = some slot
  · cases next with
    | header valid => exact .inl ⟨rfl, rfl⟩
    | publishedSequence sequence => exact .inl ⟨rfl, rfl⟩
    | publishedSlot published => exact .inl ⟨rfl, rfl⟩
    | publish frame =>
      right
      rw [commits_publish, if_pos (Option.some.inj htarget)]
    | field other field value =>
      obtain rfl : other = slot := Option.some.inj htarget
      exact absurd hclosed (not_closed_field h)
  · left
    refine ⟨store_control_of_ne memory htarget, ?_⟩
    cases next with
    | header valid => rfl
    | publishedSequence sequence => rfl
    | publishedSlot published => rfl
    | field other field value => rfl
    | publish frame =>
      rw [commits_publish, if_neg fun heq => htarget (congrArg some heq)]

/-- A complete frame in the slot is one of those given by slot and number. -/
def Spent (memory : Memory) (seen : ℕ → ℕ → Prop) (slot : ℕ) : Prop :=
  Closed (memory.generation slot) ∧ seen slot (memory.commits slot)

/-- The given frames have been committed. -/
def Covers (memory : Memory) (seen : ℕ → ℕ → Prop) : Prop :=
  ∀ slot commit, seen slot commit → commit ≤ memory.commits slot

/-- The given frames that are still complete are not numbered beyond a bound. -/
def Backlog (layout : Layout) (memory : Memory) (seen : ℕ → ℕ → Prop) (bound : ℕ) : Prop :=
  ∀ slot < layout.slots, memory.Spent seen slot → memory.control slot .sequence ≤ bound

/-- Frames committed so far, as far as they are still complete, are where they
were. -/
def Keeps (memory memory' : Memory) : Prop :=
  (∀ slot, memory.commits slot ≤ memory'.commits slot) ∧
    ∀ slot seen, memory.Covers seen → memory'.Spent seen slot →
      memory.Spent seen slot ∧ memory'.control slot = memory.control slot

theorem Keeps.refl (memory : Memory) : memory.Keeps memory :=
  ⟨fun _ => le_rfl, fun _ _ _ hspent => ⟨hspent, rfl⟩⟩

theorem store_keeps {next : Store} (h : memory.Allowed layout next) :
    memory.Keeps (memory.store next) := by
  constructor
  · intro slot
    cases next with
    | publish frame =>
      rw [commits_publish]
      split_ifs <;> omega
    | header | publishedSequence | publishedSlot | field => exact le_rfl
  · intro slot seen hold ⟨hclosed, hseen⟩
    rcases store_slot h hclosed with ⟨hcontrol, hlast⟩ | hnew
    · rw [hlast] at hseen
      unfold generation at hclosed
      rw [hcontrol] at hclosed
      exact ⟨⟨hclosed, hseen⟩, hcontrol⟩
    · have hlimit := hold slot _ hseen
      omega

theorem Backlog.keeps {seen : ℕ → ℕ → Prop} {bound : ℕ} (h : Backlog layout memory seen bound)
    (hold : memory.Covers seen)
    (hkeeps : memory.Keeps memory') : Backlog layout memory' seen bound := by
  intro slot hslot hspent
  obtain ⟨hbefore, hcontrol⟩ := hkeeps.2 slot seen hold hspent
  rw [hcontrol]
  exact h slot hslot hbefore

end Memory

theorem Pool.step_keeps {layout : Layout} {pool pool' : Pool} {event : Pool.Event}
    (hpermitted : pool.OwnerPermitted layout) (h : pool.step layout event = some pool') :
    pool'.OwnerPermitted layout ∧ pool.memory.Keeps pool'.memory := by
  obtain ⟨hnext, hmemory⟩ := step_memory hpermitted h
  refine ⟨hnext, ?_⟩
  rcases hmemory with hsame | ⟨next, hallowed, hstore⟩ |
    ⟨slot, offset, byte, -, hwrite⟩
  · rw [hsame]
    exact Memory.Keeps.refl _
  · rw [hstore]
    exact Memory.store_keeps hallowed
  · rw [hwrite]
    exact ⟨fun _ => le_rfl, fun _ _ _ hspent => ⟨hspent, rfl⟩⟩

/-! ### Loads of the detector -/

/-- Metadata that is in its slot as long as the frame there is one of the given. -/
structure Held.Picked (layout : Layout) (memory : Memory) (seen : ℕ → ℕ → Prop) (held : Held) :
    Prop where
  closed : Closed held.metadata.generation
  slot : held.metadata.slot < layout.slots
  current : memory.Spent seen held.metadata.slot →
    held.metadata.sequence = memory.control held.metadata.slot .sequence

/-- A scan has found every given frame that is complete in a slot it has left. -/
structure Scan.Finds (layout : Layout) (memory : Memory) (seen : ℕ → ℕ → Prop) (cursor : ℕ)
    (scan : Scan) : Prop where
  cursor : scan.lastSequence = some cursor
  slot : scan.slot < layout.slots
  later : ∀ slot ∈ scan.later, slot < layout.slots
  picked : ∀ held ∈ scan.found, held.Picked layout memory seen
  found : ∀ slot < layout.slots, slot ≠ scan.slot → slot ∉ scan.later → memory.Spent seen slot →
    ∃ held ∈ scan.found, held.metadata.sequence = memory.control slot .sequence
  loaded : memory.Spent seen scan.slot →
    ∀ field ∉ scan.left, scan.values field = memory.control scan.slot field

section Loads

variable {layout : Layout} {memory memory' : Memory} {seen : ℕ → ℕ → Prop} {cursor : ℕ}
  (hold : memory.Covers seen)
  (hkeeps : memory.Keeps memory')
include hold hkeeps

theorem Held.Picked.keeps {held : Held} (h : held.Picked layout memory seen) :
    held.Picked layout memory' seen where
  closed := h.closed
  slot := h.slot
  current := by
    intro hspent
    obtain ⟨hbefore, hcontrol⟩ := hkeeps.2 _ seen hold hspent
    rw [hcontrol]
    exact h.current hbefore

theorem Scan.Finds.keeps {scan : Scan} (h : scan.Finds layout memory seen cursor) :
    scan.Finds layout memory' seen cursor where
  cursor := h.cursor
  slot := h.slot
  later := h.later
  picked := fun held hheld => (h.picked held hheld).keeps hold hkeeps
  found := by
    intro slot hslot hne hlater hspent
    obtain ⟨hbefore, hcontrol⟩ := hkeeps.2 slot seen hold hspent
    rw [hcontrol]
    exact h.found slot hslot hne hlater hbefore
  loaded := by
    intro hspent
    obtain ⟨hbefore, hcontrol⟩ := hkeeps.2 _ seen hold hspent
    rw [hcontrol]
    exact h.loaded hbefore

end Loads

section Selection

variable {layout : Layout} {memory : Memory} {seen : ℕ → ℕ → Prop} {cursor : ℕ}

/-- A field is loaded. -/
theorem Scan.Finds.load {scan : Scan} {field : MetaField} {left : List MetaField}
    (h : scan.Finds layout memory seen cursor) (hleft : scan.left = field :: left) (epoch : ℕ) :
    Scan.Finds layout memory seen cursor
      { scan with
        values := Function.update scan.values field (memory.control scan.slot field)
        left
        epoch } where
  cursor := h.cursor
  slot := h.slot
  later := h.later
  picked := h.picked
  found := h.found
  loaded := by
    intro hspent other hother
    dsimp only at hother ⊢
    by_cases heq : other = field
    · subst heq
      exact Function.update_self _ _ _
    · rw [Function.update_of_ne heq]
      refine h.loaded hspent other ?_
      rw [hleft, List.mem_cons, not_or]
      exact ⟨heq, hother⟩

/-- What a scan has found once a slot is read. -/
def Scan.foundNext (scan : Scan) : List Held :=
  scan.found ++ ((readMeta scan.slot scan.values).map fun metadata => ⟨metadata, scan.epoch⟩).toList

theorem Scan.Finds.picked_next {scan : Scan} (h : scan.Finds layout memory seen cursor)
    (hleft : scan.left = []) : ∀ held ∈ scan.foundNext, held.Picked layout memory seen := by
  intro held hheld
  rcases List.mem_append.mp hheld with hheld | hheld
  · exact h.picked held hheld
  · rw [Option.mem_toList, Option.map_eq_some_iff] at hheld
    obtain ⟨metadata, hread, rfl⟩ := hheld
    obtain ⟨hclosed, rfl⟩ := readMeta_some hread
    refine ⟨hclosed, h.slot, fun hspent => ?_⟩
    exact h.loaded hspent .sequence (by simp [hleft])

theorem Scan.Finds.found_next {scan : Scan} (h : scan.Finds layout memory seen cursor)
    (hleft : scan.left = []) {slot : ℕ} (hslot : slot < layout.slots) (hlater : slot ∉ scan.later)
    (hspent : memory.Spent seen slot) :
    ∃ held ∈ scan.foundNext, held.metadata.sequence = memory.control slot .sequence := by
  by_cases heq : slot = scan.slot
  · subst heq
    have hall : scan.values = memory.control scan.slot := by
      funext field
      exact h.loaded hspent field (by simp [hleft])
    have hread : readMeta scan.slot scan.values = some (.ofFields scan.slot scan.values) := by
      apply readMeta_of_closed
      rw [hall]
      exact hspent.1
    refine ⟨⟨.ofFields scan.slot scan.values, scan.epoch⟩, ?_, ?_⟩
    · apply List.mem_append_right
      rw [hread]
      exact List.mem_singleton_self _
    · exact congrFun hall .sequence
  · obtain ⟨held, hheld, hsequence⟩ := h.found slot hslot heq hlater hspent
    exact ⟨held, List.mem_append_left _ hheld, hsequence⟩

/-- The scan goes on with the next slot. -/
theorem Scan.Finds.next_slot {scan : Scan} {slot : ℕ} {later : List ℕ}
    (h : scan.Finds layout memory seen cursor) (hleft : scan.left = [])
    (hlater : scan.later = slot :: later) :
    Scan.Finds layout memory seen cursor
      { lastSequence := scan.lastSequence
        slot
        later
        values := fun _ => 0
        left := MetaField.packed
        epoch := 0
        found := scan.foundNext } where
  cursor := h.cursor
  slot := h.later slot (hlater ▸ List.mem_cons_self)
  later := fun other hother => h.later other (hlater ▸ List.mem_cons_of_mem slot hother)
  picked := h.picked_next hleft
  found := by
    intro other hother hne hmem hspent
    refine h.found_next hleft hother ?_ hspent
    rw [hlater, List.mem_cons, not_or]
    exact ⟨hne, hmem⟩
  loaded := fun _ field hfield => absurd (MetaField.mem_packed field) hfield

/-- What `latest_after` picks is beyond the cursor, and no given frame that is
still complete is beyond what it picks. -/
theorem Scan.Finds.selected {scan : Scan} {held : Held}
    (h : scan.Finds layout memory seen cursor) (hleft : scan.left = []) (hlater : scan.later = [])
    (hheld : held ∈ Reader.scanResult scan.lastSequence scan.foundNext) :
    held.Picked layout memory seen ∧ cursor < held.metadata.sequence ∧
      memory.Backlog layout seen held.metadata.sequence := by
  rw [h.cursor, Reader.scanResult, Option.mem_toList] at hheld
  have hmem := List.argmax_mem hheld
  rw [List.mem_filter, decide_eq_true_eq] at hmem
  refine ⟨h.picked_next hleft held hmem.1, hmem.2, fun slot hslot hspent => ?_⟩
  obtain ⟨other, hother, hsequence⟩ := h.found_next hleft hslot (by simp [hlater]) hspent
  rw [← hsequence]
  by_cases hbeyond : cursor < other.metadata.sequence
  · have hcandidate : other ∈ scan.foundNext.filter fun held => cursor < held.metadata.sequence := by
      rw [List.mem_filter, decide_eq_true_eq]
      exact ⟨hother, hbeyond⟩
    exact List.le_of_mem_argmax (f := fun held : Held => held.metadata.sequence) hcandidate hheld
  · omega

end Selection

/-! ### Attachments -/

/-- What an attachment knows of the commits of its pool that were reported. -/
def Attachment.Knows (layout : Layout) (pool : Pool) (seen : ℕ → ℕ → Prop) (a : Attachment) : Prop :=
  match a.poll with
  | .waiting | .missed => True
  | .selecting => ∃ scan, pool.reader.activity = .scanning scan ∧ pool.reader.held = [] ∧
      pool.reader.returned = [] ∧ scan.Finds layout pool.memory seen a.lastSequence
  | .selected held => pool.reader.activity = .idle ∧ pool.reader.held = [held] ∧
      pool.reader.returned = [] ∧ held.Picked layout pool.memory seen ∧
      a.lastSequence < held.metadata.sequence ∧
      pool.memory.Backlog layout seen held.metadata.sequence
  | .copying => ∃ held payload, pool.reader.activity = .copying held payload ∧
      pool.reader.returned = [] ∧ Closed held.metadata.generation ∧
      a.lastSequence < held.metadata.sequence ∧
      ¬ pool.memory.Spent seen held.metadata.slot ∧
      pool.memory.Backlog layout seen held.metadata.sequence
  | .detecting frame commit => a.lastSequence < frame.metadata.sequence ∧
      ¬ seen frame.metadata.slot commit ∧ commit ≤ pool.memory.commits frame.metadata.slot ∧
      pool.memory.Backlog layout
        (fun slot other => seen slot other ∨ slot = frame.metadata.slot ∧ other = commit)
        frame.metadata.sequence

/-- Once a frame was processed, the cursor keeps the reported ones away. -/
structure Attachment.Sound (layout : Layout) (pool : Pool) (seen : ℕ → ℕ → Prop) (a : Attachment) :
    Prop where
  behind : a.lastSequence ≠ 0 → pool.memory.Backlog layout seen a.lastSequence
  knows : a.Knows layout pool seen

/-- The owner's steps leave an attachment what it knows. -/
theorem Attachment.Sound.keeps {layout : Layout} {pool pool' : Pool} {seen : ℕ → ℕ → Prop}
    {a : Attachment} (h : a.Sound layout pool seen)
    (hold : pool.memory.Covers seen)
    (hkeeps : pool.memory.Keeps pool'.memory) (hreader : pool'.reader = pool.reader) :
    a.Sound layout pool' seen := by
  refine ⟨fun hne => (h.behind hne).keeps hold hkeeps, ?_⟩
  have hknows := h.knows
  unfold Attachment.Knows at *
  rw [hreader]
  cases hpoll : a.poll with
  | waiting => trivial
  | missed => trivial
  | selecting =>
    rw [hpoll] at hknows
    obtain ⟨scan, hscan, hheld, hreturned, hfinds⟩ := hknows
    exact ⟨scan, hscan, hheld, hreturned, hfinds.keeps hold hkeeps⟩
  | selected held =>
    rw [hpoll] at hknows
    obtain ⟨hidle, hheld, hreturned, hpicked, hbeyond, hbacklog⟩ := hknows
    exact ⟨hidle, hheld, hreturned, hpicked.keeps hold hkeeps, hbeyond,
      hbacklog.keeps hold hkeeps⟩
  | copying =>
    rw [hpoll] at hknows
    obtain ⟨held, payload, hcopying, hreturned, hclosed, hbeyond, hunspent, hbacklog⟩ := hknows
    refine ⟨held, payload, hcopying, hreturned, hclosed, hbeyond, fun hspent => ?_,
      hbacklog.keeps hold hkeeps⟩
    exact hunspent (hkeeps.2 _ seen hold hspent).1
  | detecting frame commit =>
    rw [hpoll] at hknows
    obtain ⟨hbeyond, hunseen, hcommit, hbacklog⟩ := hknows
    refine ⟨hbeyond, hunseen, hcommit.trans (hkeeps.1 _), hbacklog.keeps ?_ hkeeps⟩
    intro slot other hother
    rcases hother with hseen | ⟨rfl, rfl⟩
    · exact hold slot other hseen
    · exact hcommit

section Reads

variable {layout : Layout} {pool : Pool} {seen : ℕ → ℕ → Prop} {a : Attachment} {reader : Reader}

theorem Attachment.knows_selecting (hpoll : a.poll = .selecting) (h : a.Knows layout pool seen)
    (hstep : pool.reader.step layout pool.memory .load = some reader) :
    Attachment.Knows layout { pool with reader } seen
      { a with poll := a.poll.next pool.memory reader } := by
  rw [Knows, hpoll] at h
  obtain ⟨scan, hscan, hheld, hreturned, hfinds⟩ := h
  simp only [Reader.step, hscan, Option.some.injEq] at hstep
  unfold Reader.scanLoad at hstep
  rw [hpoll]
  cases hleft : scan.left with
  | cons field left =>
    rw [hleft] at hstep
    subst hstep
    exact ⟨_, rfl, hheld, hreturned, hfinds.load hleft _⟩
  | nil =>
    rw [hleft] at hstep
    cases hlater : scan.later with
    | cons slot later =>
      rw [hlater] at hstep
      subst hstep
      exact ⟨_, rfl, hheld, hreturned, hfinds.next_slot hleft hlater⟩
    | nil =>
      rw [hlater] at hstep
      change _ = reader at hstep
      cases hresult : Reader.scanResult scan.lastSequence scan.foundNext with
      | nil =>
        have hnothing : reader.held = [] := by
          rw [← hstep]
          exact List.append_eq_nil_iff.mpr ⟨hheld, hresult⟩
        have hidle : reader.activity = .idle := by rw [← hstep]
        simp [Knows, PollState.next, hidle, hnothing]
      | cons held rest =>
        have hmem : held ∈ Reader.scanResult scan.lastSequence scan.foundNext := by
          rw [hresult]
          exact List.mem_cons_self
        have hsingle : rest = [] := by
          rw [hfinds.cursor, Reader.scanResult] at hresult
          cases hnewest : (scan.foundNext.filter fun held =>
              a.lastSequence < held.metadata.sequence).argmax
              fun held => held.metadata.sequence with
          | none => simp [hnewest] at hresult
          | some newest =>
            rw [hnewest] at hresult
            exact (List.cons.inj hresult).2.symm
        have hpicked : reader.held = [held] := by
          rw [← hstep]
          change pool.reader.held ++ Reader.scanResult scan.lastSequence scan.foundNext = _
          rw [hheld, hresult, hsingle, List.nil_append]
        have hidle : reader.activity = .idle := by rw [← hstep]
        have hempty : reader.returned = [] := by rw [← hstep]; exact hreturned
        obtain ⟨hknown, hbeyond, hbacklog⟩ := hfinds.selected hleft hlater hmem
        have hnext : PollState.next pool.memory reader .selecting = .selected held := by
          simp [PollState.next, hidle, hpicked]
        rw [Knows, hnext]
        exact ⟨hidle, hpicked, hempty, hknown, hbeyond, hbacklog⟩

/-- A copy begins, on a frame that was not reported. -/
theorem Attachment.knows_selected {held : Held} (hpoll : a.poll = .selected held)
    (h : a.Knows layout pool seen)
    (hnew : pool.memory.generation held.metadata.slot = held.metadata.generation →
      ¬ pool.memory.Spent seen held.metadata.slot)
    (hstep : pool.reader.step layout pool.memory (.copy 0) = some reader) :
    Attachment.Knows layout { pool with reader } seen
      { a with poll := a.poll.next pool.memory reader } := by
  rw [Knows, hpoll] at h
  obtain ⟨hidle, hheld, hreturned, hpicked, hbeyond, hbacklog⟩ := h
  simp only [Reader.step, hidle, hheld, List.getElem?_cons_zero, Option.some.injEq] at hstep
  unfold Reader.copyBegin at hstep
  rw [hpoll]
  by_cases hstale : pool.memory.generation held.metadata.slot ≠ held.metadata.generation ∨
      pool.memory.generation held.metadata.slot % 2 = 1
  · rw [if_pos hstale] at hstep
    subst hstep
    simp [Knows, PollState.next, hidle]
  · rw [if_neg hstale, not_or, not_not] at *
    subst hstep
    exact ⟨held, [], rfl, hreturned, hpicked.closed, hbeyond, hnew hstale.1, hbacklog⟩

/-- A copy goes on, or ends with the frame that is in the slot. -/
theorem Attachment.knows_copying {held : Held} {payload : List UInt8} (hpoll : a.poll = .copying)
    (h : a.Knows layout pool seen) (hcopying : pool.reader.activity = .copying held payload)
    (hcurrent : Reader.viewBytes layout held.metadata ≤ payload.length →
      pool.memory.generation held.metadata.slot = held.metadata.generation →
        pool.memory.control held.metadata.slot .sequence ≤ held.metadata.sequence)
    (hstep : pool.reader.step layout pool.memory .load = some reader) :
    Attachment.Knows layout { pool with reader } seen
      { a with poll := a.poll.next pool.memory reader } := by
  rw [Knows, hpoll] at h
  obtain ⟨held', payload', hactivity, hreturned, hclosed, hbeyond, hunspent, hbacklog⟩ := h
  obtain ⟨rfl, rfl⟩ := Activity.copying.inj (hcopying.symm.trans hactivity)
  simp only [Reader.step, hcopying, Option.some.injEq] at hstep
  unfold Reader.copyLoad at hstep
  rw [hpoll]
  by_cases hmore : payload.length < Reader.viewBytes layout held.metadata
  · rw [if_pos hmore] at hstep
    subst hstep
    exact ⟨held, _, rfl, hreturned, hclosed, hbeyond, hunspent, hbacklog⟩
  · rw [if_neg hmore] at hstep
    by_cases hsame : pool.memory.generation held.metadata.slot = held.metadata.generation
    · rw [if_pos hsame] at hstep
      have hidle : reader.activity = .idle := by rw [← hstep]
      have hframe : reader.returned = [⟨held.metadata, payload⟩] := by
        rw [← hstep, hreturned]
        rfl
      have hnext : PollState.next pool.memory reader .copying =
          .detecting ⟨held.metadata, payload⟩ (pool.memory.commits held.metadata.slot) := by
        simp [PollState.next, hidle, hframe]
      rw [Knows, hnext]
      refine ⟨hbeyond, fun hseen => hunspent ⟨hsame ▸ hclosed, hseen⟩, le_rfl, ?_⟩
      intro slot hslot hspent
      rcases hspent with ⟨heven, hseen | ⟨rfl, -⟩⟩
      · exact hbacklog slot hslot ⟨heven, hseen⟩
      · exact hcurrent (not_lt.mp hmore) hsame
    · rw [if_neg hsame] at hstep
      have hidle : reader.activity = .idle := by rw [← hstep]
      have hnothing : reader.returned = [] := by rw [← hstep]; exact hreturned
      simp [Knows, PollState.next, hidle, hnothing]

theorem Attachment.knows_polled (hstep : Reader.start.step layout pool.memory
    (.latestAfter a.lastSequence) = some reader) :
    Attachment.Knows layout { pool with reader } seen { a with poll := .selecting } := by
  simp only [Reader.step, Reader.start] at hstep
  split at hstep
  · next slot later _ hrange =>
    have hslots : ∀ other ∈ slot :: later, other < layout.slots := by
      intro other hother
      rw [← hrange] at hother
      exact List.mem_range.mp hother
    rw [Option.some.injEq] at hstep
    subst hstep
    refine ⟨_, rfl, rfl, rfl, rfl, ?_, ?_, ?_, ?_, ?_⟩
    · exact hslots slot List.mem_cons_self
    · exact fun other hother => hslots other (List.mem_cons_of_mem _ hother)
    · exact fun held hheld => by cases hheld
    · intro other hother hne hlater hspent
      have hmem : other ∈ slot :: later := by
        rw [← hrange]
        exact List.mem_range.mpr hother
      rcases List.mem_cons.mp hmem with heq | hmem
      · exact absurd heq hne
      · exact absurd hmem hlater
    · exact fun _ field hfield => absurd (MetaField.mem_packed field) hfield
  · contradiction

end Reads

/-! ### Runs -/

namespace MineDetection

variable {layout : Layout} {s s' : MineDetection}

def Seen (s : MineDetection) (i slot commit : ℕ) : Prop := (i, slot, commit) ∈ s.reported

/-- No frame was reported twice, and none will be by what the attachment does. -/
structure Sound (layout : Layout) (s : MineDetection) : Prop where
  permitted : ∀ i, (s.pools i).OwnerPermitted layout
  covers : ∀ i, (s.pools i).memory.Covers (s.Seen i)
  attached : ∀ a, s.attachment = some a → a.Sound layout (s.pools a.pool) (s.Seen a.pool)
  nodup : s.reported.Nodup

/-- When a copy begins with a cursor that no frame has moved since the attach, the
frame in the slot is not one that was reported. -/
def PicksNew (s : MineDetection) : Event → Prop
  | .load =>
    match s.attachment with
    | some ⟨i, 0, _, .selected held⟩ =>
      (s.pools i).memory.generation held.metadata.slot = held.metadata.generation →
        (i, held.metadata.slot, (s.pools i).memory.commits held.metadata.slot) ∉ s.reported
    | _ => True
  | _ => True

instance (s : MineDetection) (event : Event) : Decidable (PicksNew s event) := by
  unfold PicksNew
  split
  · split
    · infer_instance
    · infer_instance
  · infer_instance

/-- When a copy confirms its generation, the slot was not re-created with a later
frame. -/
def ConfirmsPicked (layout : Layout) (s : MineDetection) : Event → Prop
  | .load =>
    match s.attachment with
    | some ⟨i, _, _, .copying⟩ =>
      match (s.pools i).reader.activity with
      | .copying held payload =>
        Reader.viewBytes layout held.metadata ≤ payload.length →
          (s.pools i).memory.generation held.metadata.slot = held.metadata.generation →
            (s.pools i).memory.control held.metadata.slot .sequence ≤ held.metadata.sequence
      | _ => True
    | _ => True
  | _ => True

instance (layout : Layout) (s : MineDetection) (event : Event) :
    Decidable (ConfirmsPicked layout s event) := by
  unfold ConfirmsPicked
  split
  · split
    · split
      · infer_instance
      · infer_instance
    · infer_instance
  · infer_instance

theorem start_sound (layout : Layout) : Sound layout start where
  permitted := fun i owner howner => by contradiction
  covers := fun i slot commit hseen => by cases hseen
  attached := fun a ha => by contradiction
  nodup := List.nodup_nil

/-- The pool at a number changes by a step that keeps what was committed. -/
theorem Sound.setPool (h : s.Sound layout) {i : ℕ} {pool : Pool}
    (hpermitted : pool.OwnerPermitted layout) (hkeeps : (s.pools i).memory.Keeps pool.memory)
    (hreader : pool.reader = (s.pools i).reader) : (s.setPool i pool).Sound layout where
  permitted := by
    intro j
    by_cases heq : j = i
    · subst heq
      simpa [MineDetection.setPool] using hpermitted
    · simpa [MineDetection.setPool, heq] using h.permitted j
  covers := by
    intro j slot commit hseen
    have hlimit := h.covers j slot commit hseen
    by_cases heq : j = i
    · subst heq
      simpa [MineDetection.setPool] using hlimit.trans (hkeeps.1 slot)
    · simpa [MineDetection.setPool, heq] using hlimit
  attached := by
    intro a ha
    have hsound := h.attached a ha
    by_cases heq : a.pool = i
    · have hpool : (s.setPool i pool).pools a.pool = pool := by
        simp [MineDetection.setPool, heq]
      rw [hpool]
      refine hsound.keeps (h.covers a.pool) ?_ ?_
      · rw [heq]
        exact hkeeps
      · rw [heq]
        exact hreader
    · have hpool : (s.setPool i pool).pools a.pool = s.pools a.pool := by
        simp [MineDetection.setPool, heq]
      rw [hpool]
      exact hsound
  nodup := h.nodup

/-- A step of the reader of the attached pool. -/
theorem Sound.withReader (h : s.Sound layout) {a a' : Attachment} {reader : Reader}
    (ha : s.attachment = some a) (hpool : a'.pool = a.pool)
    (hcursor : a'.lastSequence = a.lastSequence)
    (hknows : a'.Knows layout { s.pools a.pool with reader } (s.Seen a.pool)) :
    Sound layout
      { s.setPool a.pool { s.pools a.pool with reader } with attachment := some a' } := by
  have hself : Function.update s.pools a.pool { s.pools a.pool with reader } a.pool =
      { s.pools a.pool with reader } := Function.update_self _ _ _
  have hother : ∀ j ≠ a.pool,
      Function.update s.pools a.pool { s.pools a.pool with reader } j = s.pools j :=
    fun j hj => Function.update_of_ne hj _ _
  refine ⟨fun j => ?_, fun j => ?_, fun a'' ha'' => ?_, h.nodup⟩
  · change (Function.update s.pools a.pool { s.pools a.pool with reader } j).OwnerPermitted layout
    by_cases heq : j = a.pool
    · subst heq
      rw [hself]
      exact h.permitted a.pool
    · rw [hother j heq]
      exact h.permitted j
  · change (Function.update s.pools a.pool { s.pools a.pool with reader } j).memory.Covers (s.Seen j)
    by_cases heq : j = a.pool
    · subst heq
      rw [hself]
      exact h.covers a.pool
    · rw [hother j heq]
      exact h.covers j
  · obtain rfl := Option.some.inj ha''
    change a'.Sound layout (Function.update s.pools a.pool { s.pools a.pool with reader } a'.pool)
      (s.Seen a'.pool)
    rw [hpool, hself]
    refine ⟨?_, hknows⟩
    rw [hcursor]
    exact (h.attached a ha).behind

theorem produce_sound {event : Pool.Event} (h : s.Sound layout)
    (hevent : ∀ move, event ≠ .read move) (hstep : s.produce layout event = some s') :
    s'.Sound layout := by
  unfold produce at hstep
  cases hnamed : s.named with
  | none => simp [hnamed] at hstep
  | some i =>
    rw [hnamed] at hstep
    obtain ⟨pool, hpool, rfl⟩ := Option.map_eq_some_iff.mp hstep
    obtain ⟨hpermitted, hkeeps⟩ := Pool.step_keeps (h.permitted i) hpool
    exact h.setPool hpermitted hkeeps (Pool.step_reader hevent hpool)

theorem create_sound (h : s.Sound layout) (hstep : s.create layout = some s') :
    s'.Sound layout := by
  have hevent : ∀ move, Pool.Event.create ≠ .read move := by simp
  obtain ⟨pool, hpool, rfl⟩ := Option.map_eq_some_iff.mp hstep
  obtain ⟨hpermitted, hkeeps⟩ := Pool.step_keeps (h.permitted _) hpool
  have hset := h.setPool hpermitted hkeeps (Pool.step_reader hevent hpool)
  exact ⟨hset.permitted, hset.covers, hset.attached, hset.nodup⟩

theorem close_sound (h : s.Sound layout) (hstep : s.close = some s') : s'.Sound layout := by
  unfold close at hstep
  cases hnamed : s.named with
  | none => simp [hnamed] at hstep
  | some i =>
    rw [hnamed] at hstep
    cases howner : (s.pools i).owner with
    | none => simp [howner] at hstep
    | some owner =>
      simp only [howner] at hstep
      split at hstep
      · have hset : (s.setPool i { s.pools i with owner := none }).Sound layout :=
          h.setPool (fun owner howner => by contradiction) (Memory.Keeps.refl _) rfl
        rw [← Option.some.inj hstep]
        exact ⟨hset.permitted, hset.covers, hset.attached, hset.nodup⟩
      · contradiction

/-- A new attachment knows nothing. -/
theorem attach_sound {now : ℚ} (h : s.Sound layout) (hstep : s.attach now = some s') :
    s'.Sound layout := by
  unfold attach at hstep
  split at hstep
  · contradiction
  · split at hstep
    · exact Option.some.inj hstep ▸ h
    · split at hstep
      · rw [← Option.some.inj hstep]
        refine ⟨h.permitted, h.covers, fun a ha => ?_, h.nodup⟩
        rw [← Option.some.inj ha]
        exact ⟨fun hne => absurd rfl hne, trivial⟩
      · exact Option.some.inj hstep ▸ h

theorem beginPoll_sound (h : s.Sound layout) (hstep : s.beginPoll layout = some s') :
    s'.Sound layout := by
  unfold beginPoll at hstep
  split at hstep
  · next ha =>
    obtain ⟨reader, hreader, rfl⟩ := Option.map_eq_some_iff.mp hstep
    exact h.withReader ha rfl rfl (Attachment.knows_polled hreader)
  · contradiction

theorem load_sound (h : s.Sound layout) (hnew : s.PicksNew .load)
    (hcurrent : s.ConfirmsPicked layout .load) (hstep : s.load layout = some s') :
    s'.Sound layout := by
  unfold load at hstep
  cases ha : s.attachment with
  | none => simp [ha] at hstep
  | some a =>
    simp only [ha] at hstep
    have hsound := h.attached a ha
    cases hpoll : a.poll with
    | waiting => simp [hpoll, PollState.move] at hstep
    | missed => simp [hpoll, PollState.move] at hstep
    | detecting frame commit => simp [hpoll, PollState.move] at hstep
    | selecting =>
      rw [hpoll] at hstep
      obtain ⟨reader, hreader, rfl⟩ := Option.map_eq_some_iff.mp hstep
      refine h.withReader ha rfl rfl ?_
      rw [← hpoll]
      exact Attachment.knows_selecting hpoll hsound.knows hreader
    | selected held =>
      rw [hpoll] at hstep
      obtain ⟨reader, hreader, rfl⟩ := Option.map_eq_some_iff.mp hstep
      refine h.withReader ha rfl rfl ?_
      rw [← hpoll]
      refine Attachment.knows_selected hpoll hsound.knows (fun hgeneration hspent => ?_) hreader
      by_cases hzero : a.lastSequence = 0
      · obtain ⟨i, lastSequence, lastProgress, poll⟩ := a
        dsimp only at hzero hpoll
        subst hzero hpoll
        simp only [PicksNew, ha] at hnew
        exact hnew hgeneration hspent.2
      · have hknows := hsound.knows
        rw [Attachment.Knows, hpoll] at hknows
        obtain ⟨-, -, -, hpicked, hbeyond, -⟩ := hknows
        have hbehind := hsound.behind hzero held.metadata.slot hpicked.slot hspent
        rw [← hpicked.current hspent] at hbehind
        omega
    | copying =>
      rw [hpoll] at hstep
      obtain ⟨reader, hreader, rfl⟩ := Option.map_eq_some_iff.mp hstep
      refine h.withReader ha rfl rfl ?_
      have hknows := hsound.knows
      rw [Attachment.Knows, hpoll] at hknows
      obtain ⟨held, payload, hcopying, -⟩ := hknows
      rw [← hpoll]
      refine Attachment.knows_copying hpoll hsound.knows hcopying ?_ hreader
      obtain ⟨i, lastSequence, lastProgress, poll⟩ := a
      dsimp only at hpoll hcopying
      subst hpoll
      simp only [ConfirmsPicked, ha, hcopying] at hcurrent
      exact hcurrent

theorem checkStale_sound {now : ℚ} (h : s.Sound layout) (hstep : s.checkStale now = some s') :
    s'.Sound layout := by
  unfold checkStale at hstep
  split at hstep
  · next ha =>
    split at hstep
    · rw [← Option.some.inj hstep]
      exact ⟨h.permitted, h.covers, fun a ha => by contradiction, h.nodup⟩
    · rw [← Option.some.inj hstep]
      refine ⟨h.permitted, h.covers, fun a' ha' => ?_, h.nodup⟩
      rw [← Option.some.inj ha']
      exact ⟨(h.attached _ ha).behind, trivial⟩
  · contradiction

/-- The frame of a detection is a new one, and the cursor comes to it. -/
theorem detect_sound {now : ℚ} {timestamp : ℤ} {boxes : List (ℚ × ℚ × ℚ × ℚ)} (h : s.Sound layout)
    (hstep : s.detect now timestamp boxes = some s') : s'.Sound layout := by
  unfold detect at hstep
  split at hstep
  · next i lastSequence lastProgress frame commit ha =>
    obtain ⟨hbeyond, hunseen, hcommit, hbacklog⟩ := (h.attached _ ha).knows
    rw [← Option.some.inj hstep]
    have hreported : reported { s with
        detections := if boxes = [] then s.detections
          else s.detections ++ [⟨i, frame.metadata.slot, commit, timestamp, boxes⟩] } =
        if boxes = [] then s.reported
          else s.reported ++ [(i, frame.metadata.slot, commit)] := by
      split_ifs
      · rfl
      · simp [reported, Report.frame]
    have hseen : ∀ j slot other, Seen { s with
        detections := if boxes = [] then s.detections
          else s.detections ++ [⟨i, frame.metadata.slot, commit, timestamp, boxes⟩] } j slot other →
        s.Seen j slot other ∨ (j = i ∧ slot = frame.metadata.slot ∧ other = commit) := by
      intro j slot other hother
      rw [Seen, hreported] at hother
      split_ifs at hother
      · exact .inl hother
      · simpa [Seen] using hother
    refine ⟨h.permitted, fun j slot other hother => ?_, fun a ha' => ?_, ?_⟩
    · rcases hseen j slot other hother with hbefore | ⟨rfl, rfl, rfl⟩
      · exact h.covers j slot other hbefore
      · exact hcommit
    · rw [← Option.some.inj ha']
      refine ⟨fun _ slot hslot hspent => hbacklog slot hslot ⟨hspent.1, ?_⟩, trivial⟩
      rcases hseen i slot _ hspent.2 with hbefore | ⟨-, hsame⟩
      · exact .inl hbefore
      · exact .inr hsame
    · change (reported { s with
        detections := if boxes = [] then s.detections
          else s.detections ++ [⟨i, frame.metadata.slot, commit, timestamp, boxes⟩] }).Nodup
      rw [hreported]
      split_ifs
      · exact h.nodup
      · rw [List.nodup_append]
        refine ⟨h.nodup, List.pairwise_singleton _ _, fun x hx y hy hxy => ?_⟩
        rw [hxy, List.mem_singleton.mp hy] at hx
        exact hunseen hx
  · contradiction

theorem fault_sound (h : s.Sound layout) (hstep : s.fault = some s') : s'.Sound layout := by
  unfold fault at hstep
  split at hstep
  · rw [← Option.some.inj hstep]
    exact ⟨h.permitted, h.covers, fun a ha => by contradiction, h.nodup⟩
  · contradiction

theorem step_sound {event : Event} (h : s.Sound layout)
    (hmeets : s.PicksNew event ∧ s.ConfirmsPicked layout event)
    (hstep : s.step layout event = some s') : s'.Sound layout := by
  cases event with
  | create => exact create_sound h hstep
  | call made => exact produce_sound h (by simp) hstep
  | store => exact produce_sound h (by simp) hstep
  | die => exact produce_sound h (by simp) hstep
  | close => exact close_sound h hstep
  | attach now => exact attach_sound h hstep
  | poll => exact beginPoll_sound h hstep
  | load => exact load_sound h hmeets.1 hmeets.2 hstep
  | checkStale now => exact checkStale_sound h hstep
  | detect now timestamp boxes => exact detect_sound h hstep
  | fault => exact fault_sound h hstep

/-- One frame of one byte, by an owner that is there. -/
def publishFrame (byte : UInt8) : List Event :=
  [.call .beginWrite, .call (.write 0 0 byte), .call (.commit 0 ⟨0, 0, 0, 0, none⟩)] ++
    List.replicate 10 .store

/-- A poll of the small pool that detects one box. -/
def detectFrame (now : ℚ) (timestamp : ℤ) : List Event :=
  [.attach now, .poll] ++ List.replicate 27 .load ++ [.detect now timestamp [(0, 0, 20, 20)]]

/-- A poll of the small pool that finds nothing, long after the last frame. -/
def givePoolUp (now : ℚ) : List Event :=
  .poll :: List.replicate 24 .load ++ [.checkStale now]

def createPool : List Event := .create :: List.replicate 27 .store

end MineDetection

end Mission10.Sensing
