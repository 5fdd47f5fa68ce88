import Mission10.Sensing.SharedFramePool
import Mission10.Library.Runs

/-!
# What the owner keeps of the frame files

Under an even generation a slot holds a committed frame, whole. The owner keeps
this by the order of its stores alone: it leaves the even generation before it
touches a field, and stores the next one after the last field. A payload write
keeps it too, as long as the slot is still reserved.
-/
namespace Mission10.Sensing

open VersionedCell

theorem readMeta_of_closed {slot : ℕ} {values : MetaField → ℕ} (h : Closed (values .generation)) :
    readMeta slot values = some (.ofFields slot values) := by
  have hodd : ¬ (values .generation = 0 ∨ values .generation % 2 = 1) := by
    have hclosed := h.2
    rcases h with ⟨hne, -⟩
    omega
  exact if_neg hodd

theorem readMeta_some {slot : ℕ} {values : MetaField → ℕ} {metadata : FrameMetadata}
    (h : readMeta slot values = some metadata) :
    Closed (values .generation) ∧ metadata = .ofFields slot values := by
  unfold readMeta at h
  split at h
  · contradiction
  · rename_i heven
    rw [Option.some.injEq] at h
    refine ⟨⟨fun h0 => heven (Or.inl h0), ?_⟩, h.symm⟩
    by_contra hne
    exact heven (Or.inr (by omega))

namespace Memory

/-- A slot as a cell: its metadata record and its payload under the generation. -/
def cell (memory : Memory) (slot : ℕ) : Cell ((MetaField → ℕ) × (ℕ → UInt8)) where
  epoch := memory.epoch slot
  generation := memory.generation slot
  content := (memory.control slot, memory.frames slot)

theorem setField_self (memory : Memory) (slot : ℕ) (field : MetaField) (value : ℕ) :
    memory.setField slot field value slot =
      Function.update (memory.control slot) field value := by
  simp [setField]

theorem setField_of_ne (memory : Memory) {slot other : ℕ} (h : other ≠ slot)
    (field : MetaField) (value : ℕ) :
    memory.setField slot field value other = memory.control other := by
  simp [setField, h]

/-- The store keeps what is under an even generation. -/
def Allowed (layout : Layout) (memory : Memory) : Store → Prop
  | .header _ | .publishedSequence _ | .publishedSlot _ => True
  | .field slot .generation value =>
    value = 0 ∨ (value % 2 = 1 ∧ memory.generation slot ≤ value)
  | .field slot _ _ => ¬ Closed (memory.generation slot)
  | .publish frame =>
    memory.generation frame.metadata.slot < frame.metadata.generation ∧
      Function.update (memory.control frame.metadata.slot) .generation frame.metadata.generation =
        frame.metadata.field ∧
      frame.payload = memory.bytes frame.metadata.slot frame.metadata.payloadBytes ∧
      frame.metadata.payloadBytes ≤ layout.frameBytes

/-- Each of the stores, in the memory the ones before it left. -/
def Permitted (layout : Layout) : Memory → List Store → Prop
  | _, [] => True
  | memory, next :: pending =>
    memory.Allowed layout next ∧ (memory.store next).Permitted layout pending

theorem permitted_append {layout : Layout} {memory : Memory} {first last : List Store} :
    memory.Permitted layout (first ++ last) ↔
      memory.Permitted layout first ∧
        (first.foldl Memory.store memory).Permitted layout last := by
  induction first generalizing memory with
  | nil => simp [Permitted]
  | cons next first ih =>
    simp only [List.cons_append, Permitted, List.foldl_cons, ih, and_assoc]

/-- The frame that a slot holds. -/
def Holds (layout : Layout) (memory : Memory) (slot : ℕ) (frame : Frame) : Prop :=
  frame.metadata = .ofFields slot (memory.control slot) ∧
    frame.payload = memory.bytes slot frame.metadata.payloadBytes ∧
    frame.metadata.payloadBytes ≤ layout.frameBytes

def Recorded (layout : Layout) (memory : Memory) : Prop :=
  ∀ slot, Closed (memory.generation slot) → ∃ frame ∈ memory.committed, memory.Holds layout slot frame

theorem Holds.congr {layout : Layout} {memory memory' : Memory} {slot : ℕ} {frame : Frame}
    (h : memory.Holds layout slot frame) (hcontrol : memory'.control slot = memory.control slot)
    (hframes : memory'.frames slot = memory.frames slot) : memory'.Holds layout slot frame := by
  unfold Holds bytes at *
  rw [hcontrol, hframes]
  exact h

/-! ### A store -/

@[simp] theorem store_frames (memory : Memory) (next : Store) :
    (memory.store next).frames = memory.frames := by
  cases next <;> rfl

/-- The slot whose record a store changes. -/
def target : Store → Option ℕ
  | .header _ | .publishedSequence _ | .publishedSlot _ => none
  | .field slot _ _ => some slot
  | .publish frame => some frame.metadata.slot

theorem store_control_of_ne (memory : Memory) {next : Store} {slot : ℕ}
    (h : target next ≠ some slot) : (memory.store next).control slot = memory.control slot := by
  cases next with
  | header | publishedSequence | publishedSlot => rfl
  | field other field value => exact setField_of_ne memory (fun heq => h (by rw [heq]; rfl)) _ _
  | publish frame => exact setField_of_ne memory (fun heq => h (by rw [heq]; rfl)) _ _

theorem store_epoch_of_ne (memory : Memory) {next : Store} {slot : ℕ}
    (h : target next ≠ some slot) : (memory.store next).epoch slot = memory.epoch slot := by
  cases next with
  | header | publishedSequence | publishedSlot | publish => rfl
  | field other field value =>
    have hne : slot ≠ other := fun heq => h (by rw [heq]; rfl)
    simp only [store]
    split
    · exact Function.update_of_ne hne _ _
    · rfl

theorem store_cell_of_ne (memory : Memory) {next : Store} {slot : ℕ}
    (h : target next ≠ some slot) : (memory.store next).cell slot = memory.cell slot := by
  simp only [cell, generation, store_control_of_ne memory h, store_epoch_of_ne memory h,
    store_frames]

theorem committed_store (memory : Memory) (next : Store) :
    ∀ frame ∈ memory.committed, frame ∈ (memory.store next).committed := by
  intro frame hframe
  cases next with
  | header | publishedSequence | publishedSlot | field => exact hframe
  | publish => exact List.mem_append_left _ hframe

theorem store_generation_of_field {memory : Memory} {slot value : ℕ} {field : MetaField}
    (h : field ≠ .generation) :
    (memory.store (.field slot field value)).generation slot = memory.generation slot := by
  simp [store, generation, setField_self, h.symm]

theorem store_generation_self (memory : Memory) (slot value : ℕ) :
    (memory.store (.field slot .generation value)).generation slot = value := by
  simp [store, generation, setField_self]

/-- An allowed store moves every cell as its writer may. -/
theorem store_moves {layout : Layout} {memory : Memory} {next : Store}
    (h : memory.Allowed layout next) (slot : ℕ) :
    Moves (memory.cell slot) ((memory.store next).cell slot) := by
  by_cases htarget : target next = some slot
  · cases next with
    | header | publishedSequence | publishedSlot => exact Moves.refl _
    | field other field value =>
      obtain rfl : other = slot := Option.some.inj htarget
      by_cases hgeneration : field = .generation
      · subst hgeneration
        rcases h with rfl | ⟨hodd, hle⟩
        · exact Or.inl (by simp [cell, store])
        · have hne : value ≠ 0 := by omega
          refine Or.inr ⟨by simp [cell, store, hne], ?_, fun heq hclosed => ?_⟩
          · rw [cell, cell, store_generation_self]
            exact hle
          · rw [cell, cell, store_generation_self] at heq
            dsimp only at heq
            exact absurd (heq ▸ hclosed) (not_closed_of_odd hodd)
      · have hopen : ¬ Closed (memory.generation other) := by
          cases field <;> first | exact absurd rfl hgeneration | exact h
        refine Or.inr ⟨by simp [cell, store, hgeneration], ?_, fun _ hclosed => ?_⟩
        · exact (store_generation_of_field hgeneration).ge
        · exact absurd hclosed hopen
    | publish frame =>
      obtain rfl : frame.metadata.slot = slot := Option.some.inj htarget
      have hnew : (memory.store (.publish frame)).generation frame.metadata.slot =
          frame.metadata.generation := by
        simp [store, generation, setField_self]
      refine Or.inr ⟨rfl, ?_, fun heq _ => ?_⟩
      · rw [cell, cell, hnew]
        exact h.1.le
      · have hlt := h.1
        simp only [cell, hnew] at heq
        omega
  · rw [store_cell_of_ne memory htarget]
    exact Moves.refl _

/-- An allowed store of a field leaves the slot under a generation that is not even. -/
theorem not_closed_field {layout : Layout} {memory : Memory} {slot value : ℕ}
    {field : MetaField} (h : memory.Allowed layout (.field slot field value)) :
    ¬ Closed ((memory.store (.field slot field value)).generation slot) := by
  intro hclosed
  by_cases hgeneration : field = .generation
  · subst hgeneration
    rw [store_generation_self] at hclosed
    rcases h with rfl | ⟨hodd, -⟩
    · exact not_closed_zero hclosed
    · exact not_closed_of_odd hodd hclosed
  · rw [store_generation_of_field hgeneration] at hclosed
    cases field <;> first | exact hgeneration rfl | exact h hclosed

/-- An allowed store keeps the record of what is held. -/
theorem store_recorded {layout : Layout} {memory : Memory} {next : Store}
    (h : memory.Allowed layout next) (hrecorded : memory.Recorded layout) :
    (memory.store next).Recorded layout := by
  intro slot hclosed
  by_cases htarget : target next = some slot
  · cases next with
    | header | publishedSequence | publishedSlot => exact hrecorded slot hclosed
    | field other field value =>
      obtain rfl : other = slot := Option.some.inj htarget
      exact absurd hclosed (not_closed_field h)
    | publish frame =>
      obtain rfl : frame.metadata.slot = slot := Option.some.inj htarget
      obtain ⟨-, hfields, hpayload, hbytes⟩ := h
      refine ⟨frame, List.mem_append_right _ (List.mem_singleton_self frame), ?_, hpayload, hbytes⟩
      have hcontrol : (memory.store (.publish frame)).control frame.metadata.slot =
          frame.metadata.field := by
        rw [← hfields]
        exact setField_self memory _ _ _
      rw [hcontrol, FrameMetadata.ofFields_field]
  · have hcell : (memory.store next).generation slot = memory.generation slot := by
      simp only [generation, store_control_of_ne memory htarget]
    obtain ⟨frame, hframe, hholds⟩ := hrecorded slot (hcell ▸ hclosed)
    refine ⟨frame, committed_store memory next frame hframe, hholds.congr ?_ (by simp)⟩
    exact store_control_of_ne memory htarget

/-! ### A payload write -/

theorem write_moves {memory : Memory} {slot : ℕ} (hopen : ¬ Closed (memory.generation slot))
    (offset : ℕ) (byte : UInt8) (other : ℕ) :
    Moves (memory.cell other) ((memory.write slot offset byte).cell other) := by
  by_cases heq : other = slot
  · subst heq
    exact Or.inr ⟨rfl, le_rfl, fun _ hclosed => absurd hclosed hopen⟩
  · have hcell : (memory.write slot offset byte).cell other = memory.cell other := by
      simp [cell, write, heq, generation]
    rw [hcell]
    exact Moves.refl _

theorem write_recorded {layout : Layout} {memory : Memory} {slot : ℕ}
    (hopen : ¬ Closed (memory.generation slot)) (offset : ℕ) (byte : UInt8)
    (hrecorded : memory.Recorded layout) :
    (memory.write slot offset byte).Recorded layout := by
  intro other hclosed
  by_cases heq : other = slot
  · subst heq
    exact absurd hclosed hopen
  · obtain ⟨frame, hframe, hholds⟩ := hrecorded other hclosed
    exact ⟨frame, hframe, hholds.congr rfl (Function.update_of_ne heq _ _)⟩

/-! ### The programs of the owner -/

/-- Stores of fields under a generation that is not even. -/
theorem permitted_fields {layout : Layout} {memory : Memory} {slot : ℕ}
    {values : MetaField → ℕ} {fields : List MetaField}
    (hopen : ¬ Closed (memory.generation slot))
    (hvalue : values .generation = 0 ∨
      (values .generation % 2 = 1 ∧ memory.generation slot ≤ values .generation)) :
    memory.Permitted layout (fields.map fun field => .field slot field (values field)) := by
  induction fields generalizing memory with
  | nil => trivial
  | cons field fields ih =>
    by_cases hgeneration : field = .generation
    · subst hgeneration
      refine ⟨hvalue, ih ?_ ?_⟩
      · rw [store_generation_self]
        rcases hvalue with h0 | ⟨hodd, -⟩
        · exact h0 ▸ not_closed_zero
        · exact not_closed_of_odd hodd
      · rw [store_generation_self]
        exact hvalue.imp_right fun hodd => ⟨hodd.1, le_rfl⟩
    · have hsame : (memory.store (.field slot field (values field))).generation slot =
          memory.generation slot := store_generation_of_field hgeneration
      refine ⟨?_, ih (hsame.symm ▸ hopen) (hsame.symm ▸ hvalue)⟩
      cases field <;> first | exact absurd rfl hgeneration | exact hopen

/-- The record after the stores of a program's fields. -/
theorem foldl_fields (memory : Memory) (slot : ℕ) (values : MetaField → ℕ)
    (fields : List MetaField) (field : MetaField) :
    (((fields.map fun field => Store.field slot field (values field)).foldl Memory.store
      memory).control slot) field =
      if field ∈ fields then values field else memory.control slot field := by
  induction fields generalizing memory with
  | nil => simp
  | cons next fields ih =>
    rw [List.map_cons, List.foldl_cons, ih]
    by_cases hmem : field ∈ fields
    · simp [hmem]
    · by_cases heq : field = next
      · simp [heq, store, setField_self]
      · simp [hmem, heq, store, setField_self]

theorem foldl_fields_frames (memory : Memory) (slot : ℕ) (values : MetaField → ℕ)
    (fields : List MetaField) :
    ((fields.map fun field => Store.field slot field (values field)).foldl Memory.store
      memory).frames = memory.frames := by
  induction fields generalizing memory with
  | nil => rfl
  | cons next fields ih => rw [List.map_cons, List.foldl_cons, ih, store_frames]

theorem permitted_header (layout : Layout) (memory : Memory) (stores : List Store)
    (h : ∀ next ∈ stores, target next = none) : memory.Permitted layout stores := by
  induction stores generalizing memory with
  | nil => trivial
  | cons next stores ih =>
    obtain ⟨hnext, hstores⟩ := List.forall_mem_cons.mp h
    refine ⟨?_, ih _ hstores⟩
    cases next <;> trivial

theorem permitted_create (layout : Layout) (memory : Memory) (previousSequence : ℕ) :
    memory.Permitted layout (Owner.createStores layout previousSequence) := by
  have hslots : ∀ (slots : List ℕ) (memory : Memory), memory.Permitted layout
      (slots.flatMap fun slot => MetaField.packed.map fun field => .field slot field 0) := by
    intro slots
    induction slots with
    | nil => exact fun _ => trivial
    | cons slot slots ih =>
      intro memory
      rw [List.flatMap_cons, permitted_append]
      refine ⟨⟨Or.inl rfl, ?_⟩, ih _⟩
      refine @permitted_fields layout _ slot (fun _ => 0) _ ?_ (Or.inl rfl)
      rw [store_generation_self]
      exact not_closed_zero
  rw [Owner.createStores, permitted_append, permitted_append]
  refine ⟨⟨permitted_header _ _ _ ?_, hslots _ _⟩, permitted_header _ _ _ ?_⟩
  · simp [target]
  · simp [target]

theorem permitted_commit {layout : Layout} {memory : Memory} {metadata : FrameMetadata}
    {oddGeneration : ℕ} (hodd : memory.generation metadata.slot = oddGeneration)
    (hne : oddGeneration % 2 = 1) (hgeneration : metadata.generation = oddGeneration + 1)
    (hbytes : metadata.payloadBytes ≤ layout.frameBytes) :
    memory.Permitted layout (Owner.commitStores metadata oddGeneration
      (memory.bytes metadata.slot metadata.payloadBytes)) := by
  unfold Owner.commitStores
  dsimp only
  rw [permitted_append]
  constructor
  · refine permitted_fields ?_ (Or.inr ?_)
    · exact hodd ▸ not_closed_of_odd hne
    · rw [Function.update_self]
      exact ⟨hne, hodd.le⟩
  · split
    · rename_i hfits
      rw [hfits.1]
      refine ⟨⟨?_, ?_, ?_, hbytes⟩, permitted_header _ _ _ (by simp [target])⟩
      · dsimp only
        rw [generation, foldl_fields, if_pos (MetaField.mem_packed _), Function.update_self]
        omega
      · funext field
        by_cases hfield : field = .generation
        · subst hfield
          rw [Function.update_self]
          rfl
        · rw [Function.update_of_ne hfield, foldl_fields, if_pos (MetaField.mem_packed _),
            Function.update_of_ne hfield]
      · dsimp only
        rw [bytes, bytes, foldl_fields_frames]
    · trivial

end Memory

/-- What the owner keeps: the record, and a program that will not break it. -/
structure Published (layout : Layout) (pool : Pool) : Prop where
  recorded : pool.memory.Recorded layout
  permitted : ∀ owner, pool.owner = some owner → pool.memory.Permitted layout owner.pending

/-- A payload byte is written only while the slot is reserved by its generation. -/
def WritesOpen (pool : Pool) : Pool.Event → Prop
  | .call (.write index _ _) =>
    ∀ owner ∈ pool.owner, ∀ slot ∈ owner.reserved[index]?, pool.memory.generation slot % 2 = 1
  | _ => True

instance (pool : Pool) (event : Pool.Event) : Decidable (WritesOpen pool event) := by
  unfold WritesOpen
  split
  · infer_instance
  · infer_instance

namespace Owner

/-- What a call makes of the memory. -/
theorem call_memory {layout : Layout} {memory memory' : Memory} {owner owner' : Owner}
    {made : Call} (h : owner.call layout memory made = some (memory', owner')) :
    memory' = memory ∨
      (∃ slot value, value % 2 = 1 ∧ memory.generation slot ≤ value ∧
        memory' = memory.store (.field slot .generation value)) ∨
      (∃ index slot offset byte, made = .write index offset byte ∧
        owner.reserved[index]? = some slot ∧ memory' = memory.write slot offset byte) := by
  cases made with
  | beginWrite =>
    simp only [call, Option.some.injEq] at h
    unfold beginWrite at h
    split at h
    · exact Or.inl (congrArg Prod.fst h).symm
    · rename_i slot hslot
      dsimp only at h
      split at h
      · refine Or.inr (Or.inl ⟨slot, _, ?_, ?_, (congrArg Prod.fst h).symm⟩)
        · unfold reservedGeneration
          split <;> omega
        · unfold reservedGeneration
          split <;> omega
      · exact Or.inl (congrArg Prod.fst h).symm
  | write index offset byte =>
    simp only [call] at h
    split at h
    · contradiction
    · rename_i slot hslot
      split at h
      · rw [Option.some.injEq] at h
        exact Or.inr (Or.inr ⟨index, slot, offset, byte, rfl, hslot, (congrArg Prod.fst h).symm⟩)
      · contradiction
  | abort index =>
    simp only [call] at h
    split at h
    · rw [Option.some.injEq] at h
      exact Or.inl (congrArg Prod.fst h).symm
    · contradiction
  | commit index stamps | lease metadata | release index =>
    simp only [call, Option.map_eq_some_iff] at h
    obtain ⟨owner'', -, h⟩ := h
    exact Or.inl (congrArg Prod.fst h).symm

theorem commit_pending {layout : Layout} {memory : Memory} {owner owner' : Owner} {index : ℕ}
    {stamps : Stamps} (hpending : owner.pending = [])
    (h : owner.commit layout memory index stamps = some owner') :
    memory.Permitted layout owner'.pending := by
  unfold commit at h
  split at h
  · contradiction
  · rename_i slot hslot
    dsimp only at h
    split at h
    · rw [Option.some.injEq] at h
      rw [← h]
      dsimp only
      rw [hpending]
      trivial
    · rename_i hfits
      rw [Option.some.injEq] at h
      rw [← h]
      refine Memory.permitted_commit rfl ?_ rfl ?_
      · omega
      · dsimp only
        omega

theorem beginWrite_pending (layout : Layout) (memory : Memory) (owner : Owner) :
    (owner.beginWrite layout memory).1.2.pending = owner.pending := by
  unfold beginWrite
  split
  · rfl
  · dsimp only
    split <;> rfl

theorem lease_pending {layout : Layout} {memory : Memory} {owner owner' : Owner}
    {metadata : FrameMetadata} (h : owner.lease layout memory metadata = some owner') :
    owner'.pending = owner.pending := by
  unfold lease at h
  split at h
  · split at h
    · exact (congrArg pending (Option.some.inj h)).symm
    · split at h
      · exact (congrArg pending (Option.some.inj h)).symm
      · exact (congrArg pending (Option.some.inj h)).symm
  · contradiction

theorem release_pending {owner owner' : Owner} {index : ℕ}
    (h : owner.release index = some owner') : owner'.pending = owner.pending := by
  unfold release at h
  split at h
  · contradiction
  · split at h
    · exact (congrArg pending (Option.some.inj h)).symm
    · exact (congrArg pending (Option.some.inj h)).symm

theorem call_pending {layout : Layout} {memory memory' : Memory} {owner owner' : Owner}
    {made : Call} (hpending : owner.pending = [])
    (h : owner.call layout memory made = some (memory', owner')) :
    memory'.Permitted layout owner'.pending := by
  have hkept : owner'.pending = owner.pending → memory'.Permitted layout owner'.pending := by
    intro hsame
    rw [hsame, hpending]
    trivial
  cases made with
  | beginWrite =>
    simp only [call, Option.some.injEq] at h
    have hbegin := owner.beginWrite_pending layout memory
    rw [h] at hbegin
    exact hkept hbegin
  | write index offset byte =>
    simp only [call] at h
    split at h
    · contradiction
    · split at h
      · simp only [Option.some.injEq, Prod.mk.injEq] at h
        exact hkept (congrArg pending h.2).symm
      · contradiction
  | commit index stamps =>
    simp only [call, Option.map_eq_some_iff, Prod.mk.injEq] at h
    obtain ⟨owner'', hcommit, rfl, rfl⟩ := h
    exact commit_pending hpending hcommit
  | abort index =>
    simp only [call] at h
    split at h
    · simp only [Option.some.injEq, Prod.mk.injEq] at h
      exact hkept (congrArg pending h.2).symm
    · contradiction
  | lease metadata =>
    simp only [call, Option.map_eq_some_iff, Prod.mk.injEq] at h
    obtain ⟨owner'', hlease, rfl, rfl⟩ := h
    exact hkept (lease_pending hlease)
  | release index =>
    simp only [call, Option.map_eq_some_iff, Prod.mk.injEq] at h
    obtain ⟨owner'', hrelease, rfl, rfl⟩ := h
    exact hkept (release_pending hrelease)

end Owner

namespace Pool

variable {layout : Layout} {pool pool' : Pool} {event : Event}

/-- The stores that the owner has still to make keep what is published. -/
def OwnerPermitted (layout : Layout) (pool : Pool) : Prop :=
  ∀ owner, pool.owner = some owner → pool.memory.Permitted layout owner.pending

/-- What a step makes of the memory: nothing, an allowed store, or one byte of a payload. -/
theorem step_memory (hpermitted : pool.OwnerPermitted layout)
    (h : pool.step layout event = some pool') :
    pool'.OwnerPermitted layout ∧
      (pool'.memory = pool.memory ∨
        (∃ next, pool.memory.Allowed layout next ∧ pool'.memory = pool.memory.store next) ∨
        ∃ slot offset byte, (WritesOpen pool event → pool.memory.generation slot % 2 = 1) ∧
          pool'.memory = pool.memory.write slot offset byte) := by
  cases event with
  | create =>
    simp only [step] at h
    split at h
    · contradiction
    · rw [Option.some.injEq] at h
      subst h
      refine ⟨fun owner howner => ?_, .inl rfl⟩
      rw [← Option.some.inj howner]
      exact Memory.permitted_create _ _ _
  | call made =>
    simp only [step] at h
    split at h
    · contradiction
    · next owner howner =>
      split at h
      · next hidle =>
        rw [List.isEmpty_iff] at hidle
        rw [Option.map_eq_some_iff] at h
        obtain ⟨⟨memory', owner'⟩, hcall, rfl⟩ := h
        refine ⟨fun next hnext => ?_, ?_⟩
        · rw [← Option.some.inj hnext]
          exact Owner.call_pending hidle hcall
        · rcases Owner.call_memory hcall with hsame | ⟨slot, value, hodd, hle, hstore⟩ |
            ⟨index, slot, offset, byte, rfl, hslot, hwrite⟩
          · exact .inl hsame
          · exact .inr (.inl ⟨.field slot .generation value, Or.inr ⟨hodd, hle⟩, hstore⟩)
          · exact .inr (.inr ⟨slot, offset, byte, fun hwrites => hwrites owner howner slot hslot,
              hwrite⟩)
      · contradiction
  | store =>
    simp only [step] at h
    split at h
    · contradiction
    · next owner howner =>
      split at h
      · contradiction
      · next next pending hpending =>
        rw [Option.some.injEq] at h
        subst h
        have hstores := hpermitted owner howner
        rw [hpending] at hstores
        refine ⟨fun owner' howner' => ?_, .inr (.inl ⟨next, hstores.1, rfl⟩)⟩
        rw [← Option.some.inj howner']
        exact hstores.2
  | die =>
    rw [← Option.some.inj h]
    exact ⟨fun owner howner => by contradiction, .inl rfl⟩
  | read move =>
    simp only [step, Option.map_eq_some_iff] at h
    obtain ⟨reader, -, rfl⟩ := h
    exact ⟨hpermitted, .inl rfl⟩

/-- One step of a run in which no payload is written into a published slot. -/
theorem step_published (hpub : Published layout pool) (hwrites : WritesOpen pool event)
    (h : pool.step layout event = some pool') :
    Published layout pool' ∧
      ∀ slot, Moves (pool.memory.cell slot) (pool'.memory.cell slot) := by
  obtain ⟨hpermitted, hmemory⟩ := step_memory hpub.permitted h
  rcases hmemory with hsame | ⟨next, hallowed, hstore⟩ | ⟨slot, offset, byte, hopen, hwrite⟩
  · refine ⟨⟨?_, hpermitted⟩, fun slot => ?_⟩
    · rw [hsame]
      exact hpub.recorded
    · rw [hsame]
      exact Moves.refl _
  · refine ⟨⟨?_, hpermitted⟩, ?_⟩
    · rw [hstore]
      exact Memory.store_recorded hallowed hpub.recorded
    · rw [hstore]
      exact Memory.store_moves hallowed
  · have hslot := not_closed_of_odd (hopen hwrites)
    refine ⟨⟨?_, hpermitted⟩, ?_⟩
    · rw [hwrite]
      exact Memory.write_recorded hslot offset byte hpub.recorded
    · rw [hwrite]
      exact Memory.write_moves hslot offset byte

theorem start_published (layout : Layout) : Published layout start where
  recorded := fun slot hclosed => absurd hclosed not_closed_zero
  permitted := fun owner howner => by contradiction

end Pool

end Mission10.Sensing
