import Mission10.Library.VersionedCell
import Mathlib.Algebra.Group.Nat.Defs
import Mathlib.Data.List.MinMax
import Mathlib.Logic.Function.Basic

/-!
# The shared frame pool

The camera owner publishes frames in the slots of a memory file; a reader in
another process selects a frame by its metadata and copies it out, loading the
generation before and after. Loads and stores are single steps, in program
order, and any steps of the owner may fall between two steps of the reader.
The owner dies at any of them, and a later one re-creates the pool on the same
files. Epochs and the list of commits are in no memory: they are there to say
what a copy should return.
-/
namespace Mission10.Sensing

/-- The geometry that both files are sized by. -/
structure Layout where
  slots : ℕ
  frameBytes : ℕ
  slots_ge : 3 ≤ slots

/-- The fields of a metadata record, as `META` packs them. -/
inductive MetaField
  | generation | sequence | sensorBoottimeNs | realtimeNs | exposureUs | analogueGain
  | payloadBytes
deriving DecidableEq

namespace MetaField

/-- The order in which `META` stores and loads them. -/
def packed : List MetaField :=
  [generation, sequence, sensorBoottimeNs, realtimeNs, exposureUs, analogueGain, payloadBytes]

/-- `struct` refuses a value from here on; the gain is its 32-bit pattern. -/
def limit : MetaField → ℕ
  | generation | sequence | sensorBoottimeNs | realtimeNs => 2 ^ 64
  | exposureUs | analogueGain | payloadBytes => 2 ^ 32

theorem mem_packed (field : MetaField) : field ∈ packed := by
  cases field <;> decide

end MetaField

structure FrameMetadata where
  sequence : ℕ
  sensorBoottimeNs : ℕ
  realtimeNs : ℕ
  exposureUs : ℕ
  analogueGain : ℕ
  payloadBytes : ℕ
  slot : ℕ
  generation : ℕ
deriving DecidableEq

namespace FrameMetadata

def field (metadata : FrameMetadata) : MetaField → ℕ
  | .generation => metadata.generation
  | .sequence => metadata.sequence
  | .sensorBoottimeNs => metadata.sensorBoottimeNs
  | .realtimeNs => metadata.realtimeNs
  | .exposureUs => metadata.exposureUs
  | .analogueGain => metadata.analogueGain
  | .payloadBytes => metadata.payloadBytes

def ofFields (slot : ℕ) (values : MetaField → ℕ) : FrameMetadata where
  sequence := values .sequence
  sensorBoottimeNs := values .sensorBoottimeNs
  realtimeNs := values .realtimeNs
  exposureUs := values .exposureUs
  analogueGain := values .analogueGain
  payloadBytes := values .payloadBytes
  slot := slot
  generation := values .generation

@[simp] theorem ofFields_field (metadata : FrameMetadata) :
    ofFields metadata.slot metadata.field = metadata := rfl

end FrameMetadata

/-- `_read_meta` once its values are loaded. -/
def readMeta (slot : ℕ) (values : MetaField → ℕ) : Option FrameMetadata :=
  if values .generation = 0 ∨ values .generation % 2 = 1 then none
  else some (.ofFields slot values)

/-- A frame that was published, or that a copy returned. -/
structure Frame where
  metadata : FrameMetadata
  payload : List UInt8
deriving DecidableEq

/-- The stores of the owner into the control file. -/
inductive Store
  | header (valid : Bool)
  | publishedSequence (sequence : ℕ)
  | publishedSlot (slot : ℕ)
  | field (slot : ℕ) (field : MetaField) (value : ℕ)
  | publish (frame : Frame)

structure FrameLease where
  metadata : FrameMetadata
  released : Bool
deriving DecidableEq

/-- What the owner's process remembers; `reserved` are the slots handed out by
`begin_write` and neither committed nor aborted, `granted` the leases handed
out, `pending` the stores that the call in progress has still to make. -/
structure Owner where
  sequence : ℕ
  nextSlot : ℕ
  leases : ℕ → ℤ
  poolFullDrops : ℕ
  reserved : List ℕ
  granted : List FrameLease
  pending : List Store

/-- Metadata in the reader's hands, with the epoch its generation was loaded in. -/
structure Held where
  metadata : FrameMetadata
  epoch : ℕ
deriving DecidableEq

/-- A `_read_meta` in progress: the values loaded and the fields left to load.
`latest_after` makes one for every slot and remembers what it found. -/
structure Scan where
  lastSequence : Option ℕ
  slot : ℕ
  later : List ℕ
  values : MetaField → ℕ
  left : List MetaField
  epoch : ℕ
  found : List Held

inductive Activity
  | idle
  | scanning (scan : Scan)
  | copying (held : Held) (payload : List UInt8)

/-- The two files, with the frames committed to them and, for each slot, the
epochs of its generation. -/
structure Memory where
  headerValid : Bool
  publishedSequence : ℕ
  publishedSlot : ℕ
  control : ℕ → MetaField → ℕ
  frames : ℕ → ℕ → UInt8
  committed : List Frame
  epoch : ℕ → ℕ

namespace Memory

/-- New files. -/
def start : Memory where
  headerValid := false
  publishedSequence := 0
  publishedSlot := 0
  control := fun _ _ => 0
  frames := fun _ _ => 0
  committed := []
  epoch := fun _ => 0

def generation (memory : Memory) (slot : ℕ) : ℕ := memory.control slot .generation

/-- The first bytes of a slot. -/
def bytes (memory : Memory) (slot count : ℕ) : List UInt8 :=
  (List.range count).map (memory.frames slot)

def setField (memory : Memory) (slot : ℕ) (field : MetaField) (value : ℕ) :
    ℕ → MetaField → ℕ :=
  Function.update memory.control slot (Function.update (memory.control slot) field value)

/-- Zeroing a generation begins a new epoch of the slot. -/
def store (memory : Memory) : Store → Memory
  | .header valid => { memory with headerValid := valid }
  | .publishedSequence sequence => { memory with publishedSequence := sequence }
  | .publishedSlot slot => { memory with publishedSlot := slot }
  | .field slot field value =>
    { memory with
      control := memory.setField slot field value
      epoch :=
        if field = .generation ∧ value = 0 then
          Function.update memory.epoch slot (memory.epoch slot + 1)
        else memory.epoch }
  | .publish frame =>
    { memory with
      control := memory.setField frame.metadata.slot .generation frame.metadata.generation
      committed := memory.committed ++ [frame] }

def write (memory : Memory) (slot offset : ℕ) (byte : UInt8) : Memory :=
  { memory with
    frames := Function.update memory.frames slot
      (Function.update (memory.frames slot) offset byte) }

end Memory

namespace Owner

/-- The stores of `create`: the control file is zeroed from its start, then its
header is packed. -/
def createStores (layout : Layout) (previousSequence : ℕ) : List Store :=
  [.header false, .publishedSequence 0, .publishedSlot 0] ++
    (List.range layout.slots).flatMap (fun slot =>
      MetaField.packed.map fun field => .field slot field 0) ++
    [.header true, .publishedSequence previousSequence, .publishedSlot 0]

def create (layout : Layout) (memory : Memory) : Owner :=
  let previousSequence := if memory.headerValid then memory.publishedSequence else 0
  { sequence := previousSequence
    nextSlot := 0
    leases := fun _ => 0
    poolFullDrops := 0
    reserved := []
    granted := []
    pending := createStores layout previousSequence }

/-- The slot that `begin_write` takes: the next one without a lease. -/
def freeSlot (layout : Layout) (owner : Owner) : Option ℕ :=
  ((List.range layout.slots).map fun offset : ℕ =>
    (owner.nextSlot + offset) % layout.slots).find? fun slot => owner.leases slot = 0

/-- The generation of a reservation: an odd one is an abandoned reservation. -/
def reservedGeneration (generation : ℕ) : ℕ :=
  if generation % 2 = 1 then generation + 1 + 1 else generation + 1

/-- The outcome of `begin_write`: a writable slot, `None`, or the `struct` error
of a generation that does not fit. -/
inductive Reservation
  | writable (slot : ℕ)
  | full
  | overflow
deriving DecidableEq

def beginWrite (layout : Layout) (memory : Memory) (owner : Owner) :
    (Memory × Owner) × Reservation :=
  match freeSlot layout owner with
  | none => ((memory, { owner with poolFullDrops := owner.poolFullDrops + 1 }), .full)
  | some slot =>
    let owner := { owner with nextSlot := (slot + 1) % layout.slots }
    let generation := reservedGeneration (memory.generation slot)
    if generation < MetaField.generation.limit then
      ((memory.store (.field slot .generation generation),
        { owner with reserved := owner.reserved ++ [slot] }), .writable slot)
    else ((memory, owner), .overflow)

/-- What a commit says of its frame. -/
structure Stamps where
  sensorBoottimeNs : ℕ
  realtimeNs : ℕ
  exposureUs : ℕ
  analogueGain : ℕ
  payloadBytes : Option ℕ

/-- The stores of `_commit`; the first value that does not fit ends the call. -/
def commitStores (metadata : FrameMetadata) (oddGeneration : ℕ) (payload : List UInt8) :
    List Store :=
  let values := Function.update metadata.field .generation oddGeneration
  let fits := MetaField.packed.takeWhile fun field => values field < field.limit
  fits.map (fun field => .field metadata.slot field (values field)) ++
    if fits = MetaField.packed ∧ metadata.generation < MetaField.generation.limit then
      [.publish ⟨metadata, payload⟩, .publishedSequence metadata.sequence,
        .publishedSlot metadata.slot]
    else []

/-- `payload_bytes or frame_bytes` -/
def payloadBytes (layout : Layout) : Option ℕ → ℕ
  | none | some 0 => layout.frameBytes
  | some count => count

def commit (layout : Layout) (memory : Memory) (owner : Owner) (index : ℕ) (stamps : Stamps) :
    Option Owner :=
  match owner.reserved[index]? with
  | none => none
  | some slot =>
    let owner := { owner with reserved := owner.reserved.eraseIdx index }
    let payloadBytes := payloadBytes layout stamps.payloadBytes
    let oddGeneration := memory.generation slot
    if payloadBytes < 1 ∨ layout.frameBytes < payloadBytes ∨ oddGeneration % 2 = 0 then
      some owner
    else
      let metadata : FrameMetadata :=
        { sequence := owner.sequence + 1
          sensorBoottimeNs := stamps.sensorBoottimeNs
          realtimeNs := stamps.realtimeNs
          exposureUs := stamps.exposureUs
          analogueGain := stamps.analogueGain
          payloadBytes := payloadBytes
          slot := slot
          generation := oddGeneration + 1 }
      some
        { owner with
          sequence := owner.sequence + 1
          pending := commitStores metadata oddGeneration (memory.bytes slot payloadBytes) }

/-- A lease is granted if the slot still holds the frame. -/
def lease (layout : Layout) (memory : Memory) (owner : Owner) (metadata : FrameMetadata) :
    Option Owner :=
  if metadata.slot < layout.slots then
    match readMeta metadata.slot (memory.control metadata.slot) with
    | none => some owner
    | some current =>
      if current.sequence = metadata.sequence then
        some
          { owner with
            leases := Function.update owner.leases metadata.slot (owner.leases metadata.slot + 1)
            granted := owner.granted ++ [⟨metadata, false⟩] }
      else some owner
  else none

/-- `FrameLease.release`: a second call does nothing, and a count that is not
positive is left alone by the error. -/
def release (owner : Owner) (index : ℕ) : Option Owner :=
  match owner.granted[index]? with
  | none => none
  | some lease =>
    if lease.released then some owner
    else
      let slot := lease.metadata.slot
      some
        { owner with
          leases :=
            if owner.leases slot ≤ 0 then owner.leases
            else Function.update owner.leases slot (owner.leases slot - 1)
          granted := owner.granted.set index { lease with released := true } }

/-- The calls of the owner, each made when the one before it has returned. -/
inductive Call
  | beginWrite
  | write (index offset : ℕ) (byte : UInt8)
  | commit (index : ℕ) (stamps : Stamps)
  | abort (index : ℕ)
  | lease (metadata : FrameMetadata)
  | release (index : ℕ)

def call (layout : Layout) (memory : Memory) (owner : Owner) : Call → Option (Memory × Owner)
  | .beginWrite => some (beginWrite layout memory owner).1
  | .write index offset byte =>
    match owner.reserved[index]? with
    | none => none
    | some slot =>
      if offset < layout.frameBytes then some (memory.write slot offset byte, owner) else none
  | .commit index stamps =>
    (commit layout memory owner index stamps).map fun owner => (memory, owner)
  | .abort index =>
    if index < owner.reserved.length then
      some (memory, { owner with reserved := owner.reserved.eraseIdx index })
    else none
  | .lease metadata => (lease layout memory owner metadata).map fun owner => (memory, owner)
  | .release index => (release owner index).map fun owner => (memory, owner)

end Owner

structure Reader where
  activity : Activity
  held : List Held
  returned : List Frame

namespace Reader

def start : Reader where
  activity := .idle
  held := []
  returned := []

/-- `_read_meta` of a slot, before its first load. -/
def readSlot (lastSequence : Option ℕ) (found : List Held) (slot : ℕ) (later : List ℕ) :
    Activity :=
  .scanning
    { lastSequence
      slot
      later
      values := fun _ => 0
      left := MetaField.packed
      epoch := 0
      found }

/-- What `_read_meta`, or `latest_after` once the scan is over, returns. -/
def scanResult (lastSequence : Option ℕ) (found : List Held) : List Held :=
  match lastSequence with
  | none => found
  | some last =>
    ((found.filter fun held => last < held.metadata.sequence).argmax
      fun held => held.metadata.sequence).toList

/-- The next load of a scan, or the end of a slot. -/
def scanLoad (memory : Memory) (reader : Reader) (scan : Scan) : Reader :=
  match scan.left with
  | field :: left =>
    { reader with
      activity := .scanning
        { scan with
          values := Function.update scan.values field (memory.control scan.slot field)
          left
          epoch := if field = .generation then memory.epoch scan.slot else scan.epoch } }
  | [] =>
    let found := scan.found ++
      ((readMeta scan.slot scan.values).map fun metadata => ⟨metadata, scan.epoch⟩).toList
    match scan.later with
    | slot :: later =>
      { reader with activity := readSlot scan.lastSequence found slot later }
    | [] =>
      { reader with
        activity := .idle
        held := reader.held ++ scanResult scan.lastSequence found }

/-- `slot_view(slot)[: payload_bytes]` -/
def viewBytes (layout : Layout) (metadata : FrameMetadata) : ℕ :=
  min metadata.payloadBytes layout.frameBytes

/-- The first load of the generation. -/
def copyBegin (memory : Memory) (reader : Reader) (held : Held) : Reader :=
  let before := memory.generation held.metadata.slot
  if before ≠ held.metadata.generation ∨ before % 2 = 1 then reader
  else { reader with activity := .copying held [] }

/-- The next byte of a copy, or its second load of the generation. -/
def copyLoad (layout : Layout) (memory : Memory) (reader : Reader) (held : Held)
    (payload : List UInt8) : Reader :=
  let metadata := held.metadata
  if payload.length < viewBytes layout metadata then
    { reader with
      activity := .copying held (payload ++ [memory.frames metadata.slot payload.length]) }
  else if memory.generation metadata.slot = metadata.generation then
    { reader with
      activity := .idle
      returned := reader.returned ++ [⟨metadata, payload⟩] }
  else { reader with activity := .idle }

/-- The reader starts a `_read_meta`, a `latest_after` or a `copy`, or makes the
next load of the one it is in. -/
inductive Move
  | readMeta (slot : ℕ)
  | latestAfter (lastSequence : ℕ)
  | copy (index : ℕ)
  | load

def step (layout : Layout) (memory : Memory) (reader : Reader) : Move → Option Reader
  | .readMeta slot =>
    match reader.activity with
    | .idle =>
      if slot < layout.slots then
        some { reader with activity := readSlot none [] slot [] }
      else none
    | .scanning _ | .copying _ _ => none
  | .latestAfter lastSequence =>
    match reader.activity, List.range layout.slots with
    | .idle, slot :: later =>
      some { reader with activity := readSlot (some lastSequence) [] slot later }
    | _, _ => none
  | .copy index =>
    match reader.activity, reader.held[index]? with
    | .idle, some held => some (copyBegin memory reader held)
    | _, _ => none
  | .load =>
    match reader.activity with
    | .idle => none
    | .scanning scan => some (scanLoad memory reader scan)
    | .copying held payload => some (copyLoad layout memory reader held payload)

end Reader

structure Pool where
  memory : Memory
  owner : Option Owner
  reader : Reader

namespace Pool

def start : Pool where
  memory := .start
  owner := none
  reader := .start

inductive Event
  | create
  | call (call : Owner.Call)
  | store
  | die
  | read (move : Reader.Move)

def step (layout : Layout) (pool : Pool) : Event → Option Pool
  | .create =>
    match pool.owner with
    | some _ => none
    | none => some { pool with owner := some (.create layout pool.memory) }
  | .call made =>
    match pool.owner with
    | none => none
    | some owner =>
      if owner.pending.isEmpty then
        (Owner.call layout pool.memory owner made).map fun after =>
          { pool with memory := after.1, owner := some after.2 }
      else none
  | .store =>
    match pool.owner with
    | none => none
    | some owner =>
      match owner.pending with
      | [] => none
      | next :: pending =>
        some
          { pool with
            memory := pool.memory.store next
            owner := some { owner with pending } }
  | .die => some { pool with owner := none }
  | .read move =>
    (pool.reader.step layout pool.memory move).map fun reader => { pool with reader }

end Pool

end Mission10.Sensing
