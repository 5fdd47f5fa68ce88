import Mission10.Library.DelimitedStream
import Mission10.Uwb.HostCodec
import Mission10.Uwb.PythonCodec

/-!
# Receivers of the host stream

The Python generator of frames and the firmware's receive task, byte by byte.
Both are the bounded receiver with a filter on top: Python starts at a segment
boundary and keeps every frame, the firmware starts out of synchronization,
drops empty frames and decodes the rest. What either yields after a prefix is
then a matter of the receiver alone.
-/
namespace Mission10.Uwb

open DelimitedStream

namespace PythonCodec

structure FramesState where
  frame : List UInt8 := []
  discarding : Bool := false

/-- One byte of the stream, with the frame yielded at it. -/
def framesByte (state : FramesState) (byte : UInt8) : FramesState × Option (List UInt8) :=
  if state.discarding then ({ state with discarding := byte ≠ 0 }, none)
  else if state.frame.length = maxFrameSize then ({ frame := [], discarding := true }, none)
  else
    let frame := state.frame ++ [byte]
    if byte = 0 then ({ state with frame := [] }, some frame) else ({ state with frame }, none)

def framesChunk (state : FramesState) : List UInt8 → FramesState × List (List UInt8)
  | [] => (state, [])
  | byte :: bytes =>
    let out := framesByte state byte
    let rest := framesChunk out.1 bytes
    (rest.1, out.2.toList ++ rest.2)

/-- The frames of a stream read in chunks; an empty chunk is its end. -/
def framesFrom (state : FramesState) : List (List UInt8) → List (List UInt8)
  | [] => []
  | chunk :: chunks =>
    if chunk = [] then []
    else
      let out := framesChunk state chunk
      out.2 ++ framesFrom out.1 chunks

def frames (stream : List (List UInt8)) : List (List UInt8) := framesFrom {} stream

end PythonCodec

/-- What the receive task does besides moving bytes. -/
inductive RxEffect where
  | countDecodeError
  | routeCommand (command : HostToRadio)
  | publish (event : RadioToHost)
  deriving DecidableEq

structure RxState where
  frame : List UInt8 := []
  discarding : Bool := false
  synchronizing : Bool := true

section RxTask
variable (capacity : ℕ) (decode : List UInt8 → Except HostFrameError HostToRadioEnvelope)

/-- A complete frame is decoded and its command routed. -/
def receiveFrame (frame : List UInt8) : List RxEffect :=
  match decode frame with
  | .ok envelope => [.routeCommand envelope.message]
  | .error _ => [.countDecodeError, .publish (.error .hostFrame)]

def rxByte (state : RxState) (byte : UInt8) : RxState × List RxEffect :=
  if state.synchronizing then
    (if byte = 0 then { state with frame := [], synchronizing := false } else state, [])
  else if state.discarding then
    (if byte = 0 then { state with frame := [], discarding := false } else state, [])
  else if byte = 0 ∧ state.frame = [] then (state, [])
  else if state.frame.length = capacity then
    ({ state with frame := [], discarding := true }, [.countDecodeError])
  else
    let frame := state.frame ++ [byte]
    if byte ≠ 0 then ({ state with frame }, [])
    else ({ state with frame := [] }, receiveFrame decode frame)

def rxPacket (state : RxState) : List UInt8 → RxState × List RxEffect
  | [] => (state, [])
  | byte :: bytes =>
    let out := rxByte capacity decode state byte
    let rest := rxPacket out.1 bytes
    (rest.1, out.2 ++ rest.2)

def rxFrom (state : RxState) : List (List UInt8) → List RxEffect
  | [] => []
  | packet :: packets =>
    let out := rxPacket capacity decode state packet
    out.2 ++ rxFrom out.1 packets

/-- The effects of one connection. -/
def rxTask (packets : List (List UInt8)) : List RxEffect := rxFrom capacity decode {} packets

/-- The commands routed, in order. -/
def routed (effects : List RxEffect) : List HostToRadio :=
  effects.filterMap fun
    | .routeCommand command => some command
    | _ => none

end RxTask

namespace PythonCodec

/-- The generator's state as a receiver. -/
def FramesState.receiver (state : FramesState) : Receiver UInt8 :=
  if state.discarding then .discarding else .collecting state.frame

/-- Discarding starts with an empty frame. -/
def FramesState.Clean (state : FramesState) : Prop := state.discarding = true → state.frame = []

theorem framesByte_step {state : FramesState} (h : state.Clean) (byte : UInt8) :
    (framesByte state byte).1.Clean ∧
      step 0 maxFrameSize state.receiver byte =
        ((framesByte state byte).1.receiver, (framesByte state byte).2) := by
  obtain ⟨frame, discarding⟩ := state
  cases discarding with
  | true =>
    obtain rfl : frame = [] := h rfl
    by_cases hbyte : byte = 0 <;>
      simp [framesByte, FramesState.Clean, FramesState.receiver, step, hbyte]
  | false =>
    by_cases hfull : frame.length = maxFrameSize <;> by_cases hbyte : byte = 0 <;>
      simp [framesByte, FramesState.Clean, FramesState.receiver, step, hfull, hbyte]

theorem framesChunk_feed {state : FramesState} (h : state.Clean) (chunk : List UInt8) :
    (framesChunk state chunk).1.Clean ∧
      feed 0 maxFrameSize state.receiver chunk =
        ((framesChunk state chunk).1.receiver, (framesChunk state chunk).2) := by
  induction chunk generalizing state with
  | nil => exact ⟨h, rfl⟩
  | cons byte bytes ih =>
    obtain ⟨hclean, hstep⟩ := framesByte_step h byte
    obtain ⟨hclean', hfeed⟩ := ih hclean
    refine ⟨hclean', ?_⟩
    rw [feed_cons, hstep, hfeed]
    rfl

/-- However the stream is cut, the frames are those of the whole. -/
theorem framesFrom_feed {state : FramesState} (h : state.Clean) {chunks : List (List UInt8)}
    (hchunks : ∀ chunk ∈ chunks, chunk ≠ []) :
    framesFrom state chunks = (feed 0 maxFrameSize state.receiver chunks.flatten).2 := by
  induction chunks generalizing state with
  | nil => rfl
  | cons chunk chunks ih =>
    obtain ⟨hclean, hfeed⟩ := framesChunk_feed h chunk
    rw [framesFrom, if_neg (hchunks chunk List.mem_cons_self), List.flatten_cons, feed_append,
      hfeed]
    exact congrArg _ (ih hclean fun c hc => hchunks c (List.mem_cons_of_mem _ hc))

theorem frames_feed {chunks : List (List UInt8)} (h : ∀ chunk ∈ chunks, chunk ≠ []) :
    frames chunks = (feed 0 maxFrameSize (.collecting []) chunks.flatten).2 :=
  framesFrom_feed (by simp [FramesState.Clean]) h

/-- What the generator yields after garbage, for every reading of the stream. -/
theorem frames_after {garbage : List UInt8} (hgarbage : garbage.getLast? = some 0)
    {valid chunks : List (List UInt8)} (hvalid : ∀ frame ∈ valid, Valid 0 maxFrameSize frame)
    (hchunks : ∀ chunk ∈ chunks, chunk ≠ []) (hstream : chunks.flatten = garbage ++ valid.flatten) :
    frames chunks = frames [garbage] ++
      if Even (trailingFull maxFrameSize (segments 0 garbage)) then valid else valid.tail := by
  obtain ⟨hjoin, hfree⟩ := segments_spec (.inr hgarbage)
  have hne : ∀ chunk ∈ [garbage], chunk ≠ [] := by
    intro chunk hchunk he
    rw [List.mem_singleton.mp hchunk] at he
    simp [he] at hgarbage
  have hafter := feed_after_segments hfree hvalid
  rw [hjoin] at hafter
  rw [frames_feed hchunks, frames_feed hne, hstream, hafter]
  simp

end PythonCodec

section RxTask
variable {capacity : ℕ} (decode : List UInt8 → Except HostFrameError HostToRadioEnvelope)

/-- The task's state as a receiver: out of synchronization it discards. -/
def RxState.receiver (state : RxState) : Receiver UInt8 :=
  if state.synchronizing ∨ state.discarding then .discarding else .collecting state.frame

/-- Synchronization comes before anything is discarded. -/
def RxState.Clean (state : RxState) : Prop :=
  state.synchronizing = true → state.discarding = false

/-- The command a frame carries; an empty frame carries none. -/
def accepted (decode : List UInt8 → Except HostFrameError HostToRadioEnvelope)
    (frame : List UInt8) : Option HostToRadio :=
  if frame = [0] then none
  else
    match decode frame with
    | .ok envelope => some envelope.message
    | .error _ => none

theorem routed_append (xs ys : List RxEffect) : routed (xs ++ ys) = routed xs ++ routed ys :=
  List.filterMap_append ..

theorem routed_receiveFrame {frame : List UInt8} (h : frame ≠ [0]) :
    routed (receiveFrame decode frame) = (accepted decode frame).toList := by
  unfold receiveFrame accepted
  rw [if_neg h]
  cases decode frame <;> rfl

theorem rxByte_step (hcapacity : 0 < capacity) {state : RxState} (h : state.Clean)
    (byte : UInt8) :
    (rxByte capacity decode state byte).1.Clean ∧
      (step 0 capacity state.receiver byte).1 = (rxByte capacity decode state byte).1.receiver ∧
      (step 0 capacity state.receiver byte).2.toList.filterMap (accepted decode) =
        routed (rxByte capacity decode state byte).2 := by
  obtain ⟨frame, discarding, synchronizing⟩ := state
  cases synchronizing with
  | true =>
    obtain rfl : discarding = false := h rfl
    by_cases hbyte : byte = 0 <;>
      simp [rxByte, RxState.Clean, RxState.receiver, step, hbyte, routed]
  | false =>
    cases discarding with
    | true =>
      by_cases hbyte : byte = 0 <;>
        simp [rxByte, RxState.Clean, RxState.receiver, step, hbyte, routed]
    | false =>
      by_cases hempty : byte = 0 ∧ frame = []
      · obtain ⟨rfl, rfl⟩ := hempty
        have hfull : ¬ 0 = capacity := by omega
        simp [rxByte, RxState.Clean, RxState.receiver, step, hfull, accepted, routed]
      · by_cases hfull : frame.length = capacity
        · simp [rxByte, RxState.Clean, RxState.receiver, step, hempty, hfull, routed]
        · by_cases hbyte : byte = 0
          · have hframe : frame ≠ [] := fun he => hempty ⟨hbyte, he⟩
            have hne : frame ++ [byte] ≠ [0] := by
              intro he
              have := congrArg List.length he
              simp [hframe] at this
            have hroute : routed (receiveFrame decode (frame ++ [byte])) = _ :=
              routed_receiveFrame decode hne
            subst hbyte
            simp [rxByte, RxState.Clean, RxState.receiver, step, hfull, hframe, hroute]
            cases haccepted : accepted decode (frame ++ [0]) <;> simp [haccepted]
          · simp [rxByte, RxState.Clean, RxState.receiver, step, hfull, hbyte, routed]

theorem rxPacket_feed (hcapacity : 0 < capacity) {state : RxState} (h : state.Clean)
    (packet : List UInt8) :
    (rxPacket capacity decode state packet).1.Clean ∧
      (feed 0 capacity state.receiver packet).1 =
        (rxPacket capacity decode state packet).1.receiver ∧
      (feed 0 capacity state.receiver packet).2.filterMap (accepted decode) =
        routed (rxPacket capacity decode state packet).2 := by
  induction packet generalizing state with
  | nil => exact ⟨h, rfl, rfl⟩
  | cons byte bytes ih =>
    obtain ⟨hclean, hstate, hrouted⟩ := rxByte_step decode hcapacity h byte
    obtain ⟨hclean', hstate', hrouted'⟩ := ih hclean
    refine ⟨hclean', ?_, ?_⟩
    · rw [feed_cons, hstate, hstate']
      rfl
    · rw [feed_cons, hstate, List.filterMap_append, hrouted, hrouted', ← routed_append]
      rfl

/-- However the stream is cut, the commands are those of its frames. -/
theorem rxFrom_feed (hcapacity : 0 < capacity) {state : RxState} (h : state.Clean)
    (packets : List (List UInt8)) :
    routed (rxFrom capacity decode state packets) =
      (feed 0 capacity state.receiver packets.flatten).2.filterMap (accepted decode) := by
  induction packets generalizing state with
  | nil => rfl
  | cons packet packets ih =>
    obtain ⟨hclean, hstate, hrouted⟩ := rxPacket_feed decode hcapacity h packet
    rw [rxFrom, routed_append, List.flatten_cons, feed_append, hstate, List.filterMap_append,
      hrouted, ih hclean]

theorem rxTask_feed (hcapacity : 0 < capacity) (packets : List (List UInt8)) :
    routed (rxTask capacity decode packets) =
      (feed 0 capacity .discarding packets.flatten).2.filterMap (accepted decode) :=
  rxFrom_feed decode hcapacity (by simp [RxState.Clean]) packets

/-- A frame the task accepts, with the envelope it decodes to. -/
structure Command (capacity : ℕ)
    (decode : List UInt8 → Except HostFrameError HostToRadioEnvelope) where
  frame : List UInt8
  envelope : HostToRadioEnvelope
  valid : Valid 0 capacity frame
  decoded : decode frame = .ok envelope

theorem Command.accepted (command : Command capacity decode) :
    accepted decode command.frame = some command.envelope.message := by
  obtain ⟨body, hbody, -, hframe⟩ := command.valid.framed
  have hne : command.frame ≠ [0] := by
    intro he
    rw [he] at hframe
    have := congrArg List.length hframe
    simp [hbody] at this
  simp [Uwb.accepted, hne, command.decoded]

theorem filterMap_accepted (commands : List (Command capacity decode)) :
    (commands.map Command.frame).filterMap (accepted decode) =
      commands.map fun command => command.envelope.message := by
  induction commands with
  | nil => rfl
  | cons command commands ih =>
    rw [List.map_cons, List.filterMap_cons, command.accepted, ih]
    rfl

/-- What the task routes after garbage, for every cutting of the stream. -/
theorem rxTask_after (hcapacity : 0 < capacity) {garbage : List UInt8}
    (hgarbage : garbage.getLast? = some 0) (commands : List (Command capacity decode))
    {packets : List (List UInt8)}
    (hstream : packets.flatten = garbage ++ (commands.map Command.frame).flatten) :
    routed (rxTask capacity decode packets) = routed (rxTask capacity decode [garbage]) ++
      ((if Even (trailingFull capacity (segments 0 garbage).tail) then commands
        else commands.tail).map fun command => command.envelope.message) := by
  obtain ⟨hjoin, hfree⟩ := segments_spec (.inr hgarbage)
  cases hsegments : segments 0 garbage with
  | nil =>
    rw [hsegments] at hjoin
    simp [← hjoin] at hgarbage
  | cons body bodies =>
    rw [hsegments] at hjoin hfree
    have hvalid : ∀ frame ∈ commands.map Command.frame, Valid 0 capacity frame := by
      intro frame hframe
      obtain ⟨command, -, rfl⟩ := List.mem_map.mp hframe
      exact command.valid
    have hafter := feed_discarding_segments (hfree body List.mem_cons_self)
      (fun b hb => hfree b (List.mem_cons_of_mem _ hb)) hvalid
    rw [hjoin] at hafter
    rw [rxTask_feed decode hcapacity, rxTask_feed decode hcapacity, hstream, hafter,
      List.filterMap_append, List.tail_cons]
    split_ifs
    · rw [filterMap_accepted]
      simp
    · rw [← List.map_tail, filterMap_accepted]
      simp

end RxTask

/-- A stream that ends its garbage with a delimiter is received whole exactly
when nothing follows or an even number of full segments ends the garbage. The
firmware does not count the segment it synchronizes on. -/
theorem host_stream_resynchronises {crates : Crates} (documented : crates.Documented)
    {garbage : List UInt8} (hgarbage : garbage.getLast? = some 0) :
    (∀ valid chunks : List (List UInt8),
      (∀ frame ∈ valid, Valid 0 PythonCodec.maxFrameSize frame) →
      (∀ chunk ∈ chunks, chunk ≠ []) → chunks.flatten = garbage ++ valid.flatten →
      (PythonCodec.frames chunks = PythonCodec.frames [garbage] ++ valid ↔
        valid = [] ∨ Even (trailingFull PythonCodec.maxFrameSize (segments 0 garbage)))) ∧
    ∀ (commands : List (Command (HostCodec.hostFrameMaxSize crates)
        (HostCodec.decodeHostToRadio crates))) (packets : List (List UInt8)),
      packets.flatten = garbage ++ (commands.map Command.frame).flatten →
      (routed (rxTask (HostCodec.hostFrameMaxSize crates) (HostCodec.decodeHostToRadio crates)
          packets) =
        routed (rxTask (HostCodec.hostFrameMaxSize crates) (HostCodec.decodeHostToRadio crates)
          [garbage]) ++ commands.map (fun command => command.envelope.message) ↔
        commands = [] ∨
          Even (trailingFull (HostCodec.hostFrameMaxSize crates) (segments 0 garbage).tail)) := by
  have hcapacity : 0 < HostCodec.hostFrameMaxSize crates := by
    rw [HostCodec.hostFrameMaxSize, documented.maxEncodedLen _ (by decide)]
    exact Nat.succ_pos _
  constructor
  · intro valid chunks hvalid hchunks hstream
    rw [PythonCodec.frames_after hgarbage hvalid hchunks hstream]
    exact append_kept_iff
  · intro commands packets hstream
    rw [rxTask_after _ hcapacity hgarbage commands hstream]
    by_cases heven : Even (trailingFull (HostCodec.hostFrameMaxSize crates)
      (segments 0 garbage).tail)
    · simp [heven]
    · simp only [heven, if_false, or_false, List.append_cancel_left_eq]
      cases commands with
      | nil => simp
      | cons command commands =>
        simp only [List.tail_cons, reduceCtorEq, iff_false]
        intro heq
        have := congrArg List.length heq
        simp at this

/-- A frame read in two chunks after a lone delimiter. -/
theorem host_stream_resynchronises_split :
    PythonCodec.frames [[0, 2], [7, 0]] = PythonCodec.frames [[0]] ++ [[2, 7, 0]] := by
  have hvalid : ∀ frame ∈ [[2, 7, 0]], Valid (0 : UInt8) PythonCodec.maxFrameSize frame := by
    intro frame hframe
    rw [List.mem_singleton.mp hframe]
    exact ⟨⟨[2, 7], by decide, by decide, rfl⟩, by decide⟩
  have hgarbage : [(0 : UInt8)].getLast? = some 0 := rfl
  have h := host_stream_resynchronises Crates.reference_documented hgarbage
  exact (h.1 [[2, 7, 0]] [[0, 2], [7, 0]] hvalid (by decide) rfl).mpr (.inr (by decide))

/-- A prefix of exactly the longest frame swallows the frame after it. -/
theorem full_segment_swallows :
    PythonCodec.frames [List.replicate 192 120 ++ [0], [2, 7, 0]] ≠
      PythonCodec.frames [List.replicate 192 120 ++ [0]] ++ [[2, 7, 0]] := by
  decide +kernel

end Mission10.Uwb
