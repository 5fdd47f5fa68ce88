import Mission10.Sensing.FramePublication

/-!
# Copies of frames

Whatever the reader has loaded says something of a slot that is so as long as
the slot is at the same generation of the same epoch, and the second load of the
generation confirms it. It does not tell epochs apart: a pool re-created on the
same files counts the generations of a slot from one again, and a copy of
another frame under the old metadata may follow. Nor does it see a writer whose
slot was committed by another reservation.
-/
namespace Mission10.Sensing

open VersionedCell Runs

/-- Equal generations are of the same epoch. -/
def SameEpoch (memory : Memory) (held : Held) : Prop :=
  memory.generation held.metadata.slot = held.metadata.generation →
    memory.epoch held.metadata.slot = held.epoch

instance (memory : Memory) (held : Held) : Decidable (SameEpoch memory held) :=
  inferInstanceAs (Decidable (_ → _))

/-- The slot has not been re-created, and brought back to the generation of the
metadata, where a copy loads the generation for the second time. -/
def ReadsCurrent (layout : Layout) (pool : Pool) : Pool.Event → Prop
  | .read .load =>
    match pool.reader.activity with
    | .copying held payload =>
      Reader.viewBytes layout held.metadata ≤ payload.length → SameEpoch pool.memory held
    | .idle | .scanning _ => True
  | _ => True

instance (layout : Layout) (pool : Pool) (event : Pool.Event) :
    Decidable (ReadsCurrent layout pool event) := by
  unfold ReadsCurrent
  split
  · split
    · infer_instance
    · infer_instance
    · infer_instance
  · infer_instance

/-- Metadata that was in its slot when its generation was loaded. -/
def Held.Genuine (memory : Memory) (held : Held) : Prop :=
  Closed held.metadata.generation ∧
    Observed (memory.cell held.metadata.slot) held.epoch held.metadata.generation
      fun content => held.metadata = .ofFields held.metadata.slot content.1

/-- Fields that were in the slot when its generation was loaded. -/
def Scan.Genuine (memory : Memory) (scan : Scan) : Prop :=
  (∀ held ∈ scan.found, held.Genuine memory) ∧
    (.generation ∈ scan.left → scan.left = MetaField.packed) ∧
    (.generation ∉ scan.left → Closed (scan.values .generation) →
      Observed (memory.cell scan.slot) scan.epoch (scan.values .generation)
        fun content => ∀ field ∉ scan.left, scan.values field = content.1 field)

def Activity.Genuine (memory : Memory) : Activity → Prop
  | .idle => True
  | .scanning scan => scan.Genuine memory
  | .copying held payload =>
    held.Genuine memory ∧
      Observed (memory.cell held.metadata.slot) held.epoch held.metadata.generation
        fun content => payload = (List.range payload.length).map content.2

/-- What the reader has is genuine, and what it returned was committed. -/
structure Faithful (layout : Layout) (memory : Memory) (reader : Reader) : Prop where
  held : ∀ held ∈ reader.held, held.Genuine memory
  activity : reader.activity.Genuine memory
  copied : ∀ held payload, reader.activity = .copying held payload →
    payload.length ≤ Reader.viewBytes layout held.metadata
  returned : ∀ frame ∈ reader.returned, frame ∈ memory.committed

section Moving

variable {memory memory' : Memory}

theorem Held.Genuine.moves {held : Held} (h : held.Genuine memory)
    (hmoves : ∀ slot, Moves (memory.cell slot) (memory'.cell slot)) : held.Genuine memory' :=
  ⟨h.1, h.2.moves h.1 (hmoves _)⟩

theorem Activity.Genuine.moves {activity : Activity} (h : activity.Genuine memory)
    (hmoves : ∀ slot, Moves (memory.cell slot) (memory'.cell slot)) :
    activity.Genuine memory' := by
  cases activity with
  | idle => trivial
  | scanning scan =>
    refine ⟨fun held hheld => (h.1 held hheld).moves hmoves, h.2.1, fun hloaded hclosed => ?_⟩
    exact (h.2.2 hloaded hclosed).moves hclosed (hmoves _)
  | copying held payload => exact ⟨h.1.moves hmoves, h.2.moves h.1.1 (hmoves _)⟩

/-- The owner's steps leave the reader's belongings genuine. -/
theorem Faithful.moves {layout : Layout} {reader : Reader} (h : Faithful layout memory reader)
    (hmoves : ∀ slot, Moves (memory.cell slot) (memory'.cell slot))
    (hcommitted : ∀ frame ∈ memory.committed, frame ∈ memory'.committed) :
    Faithful layout memory' reader where
  held := fun held hheld => (h.held held hheld).moves hmoves
  activity := h.activity.moves hmoves
  copied := h.copied
  returned := fun frame hframe => hcommitted frame (h.returned frame hframe)

end Moving

namespace Reader

variable {layout : Layout} {memory : Memory} {reader : Reader}

theorem genuine_readSlot {lastSequence : Option ℕ} {found : List Held} {slot : ℕ} {later : List ℕ}
    (h : ∀ held ∈ found, held.Genuine memory) :
    (readSlot lastSequence found slot later).Genuine memory :=
  ⟨h, fun _ => rfl, fun hloaded => absurd (MetaField.mem_packed _) hloaded⟩

theorem mem_scanResult {lastSequence : Option ℕ} {found : List Held} {held : Held}
    (h : held ∈ scanResult lastSequence found) : held ∈ found := by
  cases lastSequence with
  | none => exact h
  | some last =>
    rw [scanResult, Option.mem_toList] at h
    exact List.mem_of_mem_filter (List.argmax_mem h)

/-- A field is loaded. -/
theorem genuine_load {scan : Scan} {field : MetaField} {left : List MetaField}
    (h : scan.Genuine memory) (hleft : scan.left = field :: left) :
    Scan.Genuine memory
      { scan with
        values := Function.update scan.values field (memory.control scan.slot field)
        left
        epoch := if field = .generation then memory.epoch scan.slot else scan.epoch } := by
  obtain ⟨hfound, hfirst, hvalues⟩ := h
  rw [hleft] at hfirst hvalues
  have hgone : .generation ∉ left := by
    intro hmem
    have hpacked := hfirst (List.mem_cons_of_mem _ hmem)
    rw [(List.cons.inj hpacked).2] at hmem
    revert hmem
    decide
  refine ⟨hfound, fun hmem => absurd hmem hgone, fun _ hclosed => ?_⟩
  dsimp only at hclosed ⊢
  by_cases hgeneration : field = .generation
  · subst hgeneration
    have htail := (List.cons.inj (hfirst List.mem_cons_self)).2
    rw [if_pos rfl, Function.update_self]
    refine Observed.now fun field hfield => ?_
    obtain rfl : field = .generation := by
      rw [htail] at hfield
      cases field <;> first | rfl | exact absurd (by decide) hfield
    exact Function.update_self _ _ _
  · rw [Function.update_of_ne (Ne.symm hgeneration)] at hclosed ⊢
    rw [if_neg hgeneration]
    have hloaded : .generation ∉ field :: left := by
      rw [List.mem_cons, not_or]
      exact ⟨Ne.symm hgeneration, hgone⟩
    refine (hvalues hloaded hclosed).load fun hsays field' hfield' => ?_
    by_cases heq : field' = field
    · subst heq
      exact Function.update_self _ _ _
    · rw [Function.update_of_ne heq]
      exact hsays field' (by simp [heq, hfield'])

/-- A record whose fields are all loaded is metadata or is not. -/
theorem genuine_found {scan : Scan} (h : scan.Genuine memory) (hleft : scan.left = []) :
    ∀ held ∈ scan.found ++
      ((readMeta scan.slot scan.values).map fun metadata => ⟨metadata, scan.epoch⟩).toList,
      Held.Genuine memory held := by
  obtain ⟨hfound, -, hvalues⟩ := h
  rw [hleft] at hvalues
  intro held hheld
  rcases List.mem_append.mp hheld with hheld | hheld
  · exact hfound held hheld
  · rw [Option.mem_toList, Option.map_eq_some_iff] at hheld
    obtain ⟨metadata, hread, rfl⟩ := hheld
    obtain ⟨hclosed, rfl⟩ := readMeta_some hread
    refine ⟨hclosed, (hvalues (List.not_mem_nil) hclosed).load fun hsays => ?_⟩
    have hall : scan.values = memory.control scan.slot := by
      funext field
      exact hsays field (List.not_mem_nil)
    exact congrArg (FrameMetadata.ofFields scan.slot) hall

theorem scanLoad_faithful {scan : Scan} (h : Faithful layout memory reader)
    (hscan : reader.activity = .scanning scan) :
    Faithful layout memory (reader.scanLoad memory scan) := by
  have hgenuine : scan.Genuine memory := by
    have hactivity := h.activity
    rw [hscan] at hactivity
    exact hactivity
  unfold scanLoad
  split
  · rename_i field left hleft
    exact ⟨h.held, genuine_load hgenuine hleft, fun _ _ hcopying => by contradiction, h.returned⟩
  · rename_i hleft
    have hfound := genuine_found hgenuine hleft
    dsimp only
    split
    · exact ⟨h.held, genuine_readSlot hfound, fun _ _ hcopying => by contradiction, h.returned⟩
    · refine ⟨fun held hheld => ?_, trivial, fun _ _ hcopying => by contradiction, h.returned⟩
      rcases List.mem_append.mp hheld with hheld | hheld
      · exact h.held held hheld
      · exact hfound held (mem_scanResult hheld)

theorem copyBegin_faithful {held : Held} (h : Faithful layout memory reader)
    (hheld : held ∈ reader.held) : Faithful layout memory (reader.copyBegin memory held) := by
  unfold copyBegin
  dsimp only
  split
  · exact h
  · refine ⟨h.held, ⟨h.held held hheld, ?_⟩, fun _ payload hcopying => ?_, h.returned⟩
    · exact (h.held held hheld).2.load fun _ => rfl
    · obtain ⟨-, rfl⟩ := Activity.copying.inj hcopying
      exact Nat.zero_le _

/-- What a confirmed copy returns is the frame that was recorded for the slot. -/
theorem copied_committed {held : Held} {payload : List UInt8}
    (hrecorded : memory.Recorded layout)
    (hgenuine : (Activity.copying held payload).Genuine memory)
    (hsame : memory.epoch held.metadata.slot = held.epoch)
    (hgeneration : memory.generation held.metadata.slot = held.metadata.generation)
    (hlength : payload.length = viewBytes layout held.metadata) :
    ⟨held.metadata, payload⟩ ∈ memory.committed := by
  obtain ⟨⟨hclosed, hmetadata⟩, hpayload⟩ := hgenuine
  obtain ⟨frame, hframe, hfields, hbytes, hfits⟩ :=
    hrecorded held.metadata.slot (hgeneration ▸ hclosed)
  have heq : frame.metadata = held.metadata :=
    hfields.trans (hmetadata.confirmed hsame hgeneration).symm
  have hcount : payload.length = held.metadata.payloadBytes := by
    rw [heq] at hfits
    exact hlength.trans (min_eq_left hfits)
  have hcopied : payload = frame.payload := by
    rw [hbytes, heq, ← hcount]
    exact hpayload.confirmed hsame hgeneration
  rw [hcopied, ← heq]
  exact hframe

theorem copyLoad_faithful {held : Held} {payload : List UInt8}
    (hrecorded : memory.Recorded layout) (h : Faithful layout memory reader)
    (hcopying : reader.activity = .copying held payload)
    (hcurrent : viewBytes layout held.metadata ≤ payload.length → SameEpoch memory held) :
    Faithful layout memory (reader.copyLoad layout memory held payload) := by
  have hgenuine : (Activity.copying held payload).Genuine memory := hcopying ▸ h.activity
  have hlength := h.copied held payload hcopying
  unfold copyLoad
  dsimp only
  split
  · rename_i hmore
    refine ⟨h.held, ⟨hgenuine.1, hgenuine.2.load fun hsays => ?_⟩, fun _ copied heq => ?_,
      h.returned⟩
    · rw [List.length_append, List.length_singleton, List.range_succ, List.map_append, ← hsays]
      rfl
    · obtain ⟨rfl, rfl⟩ := Activity.copying.inj heq
      rw [List.length_append, List.length_singleton]
      omega
  · rename_i hdone
    split
    · rename_i hgeneration
      refine ⟨h.held, trivial, fun _ _ heq => by contradiction, fun frame hframe => ?_⟩
      rcases List.mem_append.mp hframe with hframe | hframe
      · exact h.returned frame hframe
      · rw [List.mem_singleton.mp hframe]
        exact copied_committed hrecorded hgenuine (hcurrent (by omega) hgeneration) hgeneration
          (by omega)
    · exact ⟨h.held, trivial, fun _ _ heq => by contradiction, h.returned⟩

theorem start_faithful (layout : Layout) (memory : Memory) : Faithful layout memory start where
  held := fun held hheld => absurd hheld List.not_mem_nil
  activity := trivial
  copied := fun _ _ heq => by contradiction
  returned := fun frame hframe => absurd hframe List.not_mem_nil

/-- One step of the reader. -/
theorem step_faithful {reader' : Reader} {move : Move} (hrecorded : memory.Recorded layout)
    (h : Faithful layout memory reader)
    (hload : move = .load → ∀ held payload, reader.activity = .copying held payload →
      viewBytes layout held.metadata ≤ payload.length → SameEpoch memory held)
    (hstep : reader.step layout memory move = some reader') : Faithful layout memory reader' := by
  cases move with
  | readMeta slot =>
    simp only [step] at hstep
    split at hstep
    · split at hstep
      · rw [← Option.some.inj hstep]
        refine ⟨h.held, genuine_readSlot fun held hheld => ?_, fun _ _ heq => by contradiction,
          h.returned⟩
        exact absurd hheld List.not_mem_nil
      · contradiction
    · contradiction
    · contradiction
  | latestAfter lastSequence =>
    simp only [step] at hstep
    split at hstep
    · rw [← Option.some.inj hstep]
      refine ⟨h.held, genuine_readSlot fun held hheld => ?_, fun _ _ heq => by contradiction,
        h.returned⟩
      exact absurd hheld List.not_mem_nil
    · contradiction
  | copy index =>
    simp only [step] at hstep
    split at hstep
    · rename_i held hidle hheld
      rw [← Option.some.inj hstep]
      exact copyBegin_faithful h (List.mem_of_getElem? hheld)
    · contradiction
  | load =>
    simp only [step] at hstep
    split at hstep
    · contradiction
    · rename_i scan hscan
      rw [← Option.some.inj hstep]
      exact scanLoad_faithful h hscan
    · rename_i held payload hcopying
      rw [← Option.some.inj hstep]
      exact copyLoad_faithful hrecorded h hcopying (hload rfl held payload hcopying)

end Reader

/-- What the owner and the reader keep together. -/
structure Coherent (layout : Layout) (pool : Pool) : Prop where
  published : Published layout pool
  faithful : Faithful layout pool.memory pool.reader

theorem Memory.committed_call {layout : Layout} {memory memory' : Memory} {owner owner' : Owner}
    {made : Owner.Call} (h : owner.call layout memory made = some (memory', owner')) :
    memory'.committed = memory.committed := by
  rcases Owner.call_memory h with rfl | ⟨_, _, -, -, rfl⟩ | ⟨_, _, _, _, -, -, rfl⟩
  · rfl
  · rfl
  · rfl

namespace Pool

variable {layout : Layout} {pool pool' : Pool} {event : Event}

theorem step_committed (h : pool.step layout event = some pool') :
    ∀ frame ∈ pool.memory.committed, frame ∈ pool'.memory.committed := by
  intro frame hframe
  cases event with
  | create =>
    simp only [step] at h
    split at h
    · contradiction
    · rw [← Option.some.inj h]
      exact hframe
  | call made =>
    simp only [step] at h
    split at h
    · contradiction
    · split at h
      · rw [Option.map_eq_some_iff] at h
        obtain ⟨⟨memory', owner'⟩, hcall, rfl⟩ := h
        rw [Memory.committed_call hcall]
        exact hframe
      · contradiction
  | store =>
    simp only [step] at h
    split at h
    · contradiction
    · split at h
      · contradiction
      · rw [← Option.some.inj h]
        exact Memory.committed_store _ _ frame hframe
  | die =>
    rw [← Option.some.inj h]
    exact hframe
  | read move =>
    simp only [step, Option.map_eq_some_iff] at h
    obtain ⟨reader, -, rfl⟩ := h
    exact hframe

theorem step_reader (hevent : ∀ move, event ≠ .read move)
    (h : pool.step layout event = some pool') : pool'.reader = pool.reader := by
  cases event with
  | create =>
    simp only [step] at h
    split at h
    · contradiction
    · rw [← Option.some.inj h]
  | call made =>
    simp only [step] at h
    split at h
    · contradiction
    · split at h
      · rw [Option.map_eq_some_iff] at h
        obtain ⟨⟨memory', owner'⟩, -, rfl⟩ := h
        rfl
      · contradiction
  | store =>
    simp only [step] at h
    split at h
    · contradiction
    · split at h
      · contradiction
      · rw [← Option.some.inj h]
  | die => rw [← Option.some.inj h]
  | read move => exact absurd rfl (hevent move)

theorem start_coherent (layout : Layout) : Coherent layout start where
  published := start_published layout
  faithful := Reader.start_faithful layout _

theorem step_coherent (hcoherent : Coherent layout pool)
    (hmeets : WritesOpen pool event ∧ ReadsCurrent layout pool event)
    (h : pool.step layout event = some pool') : Coherent layout pool' := by
  obtain ⟨hpublished, hmoves⟩ := step_published hcoherent.published hmeets.1 h
  refine ⟨hpublished, ?_⟩
  cases event with
  | read move =>
    have hcurrent := hmeets.2
    simp only [step, Option.map_eq_some_iff] at h
    obtain ⟨reader, hstep, rfl⟩ := h
    refine Reader.step_faithful hpublished.recorded hcoherent.faithful ?_ hstep
    rintro rfl held payload hcopying
    simp only [ReadsCurrent, hcopying] at hcurrent
    exact hcurrent
  | create | call | store | die =>
    rw [step_reader (by simp) h]
    exact hcoherent.faithful.moves hmoves (step_committed h)

end Pool

/-- In every run in which no payload is written into a published slot and no
copy confirms a generation of another epoch, whatever a copy returned is a
frame that was committed, metadata and payload. -/
theorem copies_committed {layout : Layout} {events : List Pool.Event} {pool : Pool}
    (hmeets : Along (Pool.step layout)
      (fun pool event => WritesOpen pool event ∧ ReadsCurrent layout pool event)
      Pool.start events)
    (hrun : run (Pool.step layout) Pool.start events = some pool) :
    ∀ frame ∈ pool.reader.returned, frame ∈ pool.memory.committed :=
  (run_invariant_along (Pool.step layout) (Coherent layout) _
    (fun _ _ _ => Pool.step_coherent) (Pool.start_coherent layout) hmeets hrun).faithful.returned

/-- One frame of one byte, published by a new owner. -/
def publishByte (layout : Layout) (byte : UInt8) : List Pool.Event :=
  [.create] ++ List.replicate (6 + 7 * layout.slots) .store ++
    [.call .beginWrite, .call (.write 0 0 byte), .call (.commit 0 ⟨0, 0, 0, 0, none⟩)] ++
    List.replicate 10 .store

/-- The metadata of the first slot is read. -/
def readFirst : List Pool.Event := .read (.readMeta 0) :: List.replicate 8 (.read .load)

def copyFirst : List Pool.Event := [.read (.copy 0), .read .load, .read .load]

def threeBytes : Layout := ⟨3, 1, le_rfl⟩

theorem copies_committed_byte :
    ∃ pool, run (Pool.step threeBytes) Pool.start
        (publishByte threeBytes 1 ++ readFirst ++ copyFirst) = some pool ∧
      pool.reader.returned.length = 1 ∧
      ∀ frame ∈ pool.reader.returned, frame ∈ pool.memory.committed := by
  have hrun : ((run (Pool.step threeBytes) Pool.start
      (publishByte threeBytes 1 ++ readFirst ++ copyFirst)).any fun pool =>
        pool.reader.returned.length = 1) = true := by decide +kernel
  have hmeets : Along (Pool.step threeBytes)
      (fun pool event => WritesOpen pool event ∧ ReadsCurrent threeBytes pool event)
      Pool.start (publishByte threeBytes 1 ++ readFirst ++ copyFirst) := by decide +kernel
  rw [Option.any_eq_true] at hrun
  obtain ⟨pool, hpool, hlength⟩ := hrun
  exact ⟨pool, hpool, of_decide_eq_true hlength, copies_committed hmeets hpool⟩

/-- The owner dies when the metadata of its frame has been read, and the next
one publishes another frame in the same slot before the copy. -/
theorem recreated_pool_returns_other_payload :
    ¬ ∀ (layout : Layout) (events : List Pool.Event) (pool : Pool),
      run (Pool.step layout) Pool.start events = some pool →
        ∀ frame ∈ pool.reader.returned, ∃ committed ∈ pool.memory.committed,
          committed.metadata.sequence = frame.metadata.sequence ∧
            committed.payload = frame.payload := by
  intro hall
  have hrun : ((run (Pool.step threeBytes) Pool.start
      (publishByte threeBytes 1 ++ readFirst ++ [.die] ++ publishByte threeBytes 2 ++
        copyFirst)).any fun pool => decide (¬ ∀ frame ∈ pool.reader.returned,
          ∃ committed ∈ pool.memory.committed,
            committed.metadata.sequence = frame.metadata.sequence ∧
              committed.payload = frame.payload)) = true := by decide +kernel
  rw [Option.any_eq_true] at hrun
  obtain ⟨pool, hpool, hbroken⟩ := hrun
  exact of_decide_eq_true hbroken (hall threeBytes _ pool hpool)

end Mission10.Sensing
