import Mission10.Library.Runs
import Mission10.Uwb.HostStream
import Mission10.Uwb.Ranger

/-!
# Frames handed to the decoder

The decoder writes into a buffer of the largest raw size and panics when the
frame does not fit. The receive task of the firmware keeps frames in a buffer of
the largest frame size; the host service appends every byte of its client to a
vector and looks at it at each delimiter.
-/
namespace Mission10.Uwb

open Runs

/-- What reading a stuffed frame into a buffer ends with. -/
inductive Decoded where
  | decoded (raw : List UInt8)
  | corrupt
  | panicked
  deriving DecidableEq

/-- What the crate documents of reading into a buffer of some length: a frame
that fits is read, a longer one panics, and a corrupt frame too short to fill
the buffer is refused. -/
structure DecodeIntoDocumented (decodeInto : ℕ → List UInt8 → Decoded) : Prop where
  empty : ∀ capacity, decodeInto capacity [0] ≠ .panicked
  decodes : ∀ {capacity body raw}, body ≠ [] → (0 : UInt8) ∉ body →
    Cobs.unstuff body = some raw → raw.length ≤ capacity →
    decodeInto capacity (body ++ [0]) = .decoded raw
  overflows : ∀ {capacity body raw}, (0 : UInt8) ∉ body → Cobs.unstuff body = some raw →
    capacity < raw.length → decodeInto capacity (body ++ [0]) = .panicked
  corrupt : ∀ {capacity body}, (0 : UInt8) ∉ body → Cobs.unstuff body = none →
    body.length ≤ capacity + 1 → decodeInto capacity (body ++ [0]) = .corrupt

/-- A reader that does what is documented. -/
def referenceDecodeInto (capacity : ℕ) (frame : List UInt8) : Decoded :=
  match Cobs.unstuff frame.dropLast with
  | none => .corrupt
  | some raw => if raw.length ≤ capacity then .decoded raw else .panicked

theorem referenceDecodeInto_documented : DecodeIntoDocumented referenceDecodeInto where
  empty capacity := by simp [referenceDecodeInto, Cobs.unstuff_nil]
  decodes _ _ hraw hfits := by simp [referenceDecodeInto, hraw, hfits]
  overflows _ hraw hlong := by simp [referenceDecodeInto, hraw, hlong]
  corrupt _ hraw _ := by simp [referenceDecodeInto, hraw]

section Decoder
variable (crates : Crates) (decodeInto : ℕ → List UInt8 → Decoded)

/-- `decode_host_to_radio` with its raw buffer; `none` is a panic. -/
def decodeHostToRadioInto (frame : List UInt8) :
    Option (Except HostFrameError HostToRadioEnvelope) :=
  match decodeInto hostRawMaxSize frame with
  | .panicked => none
  | .corrupt => some (.error .cobs)
  | .decoded raw =>
    some (HostCodec.decodeHostToRadio { crates with decodeBuf := fun _ => some raw } frame)

/-- The decoder does not panic on the frame, whose raw string fits the buffer. -/
structure Decodable (frame : List UInt8) : Prop where
  noPanic : decodeHostToRadioInto crates decodeInto frame ≠ none
  fits : ∀ raw, Cobs.unstuff frame.dropLast = some raw → raw.length ≤ hostRawMaxSize

variable {crates decodeInto}

/-- A frame within the largest frame size is decodable. -/
theorem decodable_of_short (documented : DecodeIntoDocumented decodeInto) {body : List UInt8}
    (hfree : (0 : UInt8) ∉ body) (hshort : body.length ≤ hostRawMaxSize + 1) :
    Decodable crates decodeInto (body ++ [0]) := by
  have hfits : ∀ raw, Cobs.unstuff body = some raw → raw.length ≤ hostRawMaxSize := by
    intro raw hraw
    by_cases hbody : body = []
    · subst hbody
      obtain rfl : [] = raw := by simpa [Cobs.unstuff_nil] using hraw
      exact Nat.zero_le _
    · have hlt := Cobs.length_unstuff_lt hbody hraw
      omega
  constructor
  · have hread : decodeInto hostRawMaxSize (body ++ [0]) ≠ .panicked := by
      by_cases hbody : body = []
      · subst hbody
        exact documented.empty _
      · cases hraw : Cobs.unstuff body with
        | none =>
          rw [documented.corrupt hfree hraw hshort]
          exact Decoded.noConfusion
        | some raw =>
          rw [documented.decodes hbody hfree hraw (hfits raw hraw)]
          exact Decoded.noConfusion
    unfold decodeHostToRadioInto
    split
    · next hpanic => exact absurd hpanic hread
    · exact Option.some_ne_none _
    · exact Option.some_ne_none _
  · rw [List.dropLast_concat]
    exact hfits

end Decoder

/-! ### The receive task of the firmware -/

/-- The frame the task hands to the decoder at a byte. -/
def rxPassed (capacity : ℕ) (state : RxState) (byte : UInt8) : Option (List UInt8) :=
  if byte = 0 ∧ state.synchronizing = false ∧ state.discarding = false ∧ state.frame ≠ [] ∧
      state.frame.length ≠ capacity then
    some (state.frame ++ [0])
  else none

section RxTask
variable (crates : Crates) (decodeInto : ℕ → List UInt8 → Decoded)

/-- One byte at the task; `none` is a panic of the decoder. -/
def rxStep (state : RxState) (byte : UInt8) : Option RxState :=
  match rxPassed (HostCodec.hostFrameMaxSize crates) state byte with
  | none =>
    some (rxByte (HostCodec.hostFrameMaxSize crates) (fun _ => .error .cobs) state byte).1
  | some frame =>
    (decodeHostToRadioInto crates decodeInto frame).map fun decoded =>
      (rxByte (HostCodec.hostFrameMaxSize crates) (fun _ => decoded) state byte).1

/-- The task's buffer holds the frame, and what it hands over is decodable. -/
structure RxBounded (state : RxState) (byte : UInt8) : Prop where
  buffer : state.frame.length ≤ HostCodec.hostFrameMaxSize crates
  decodable : ∀ frame, rxPassed (HostCodec.hostFrameMaxSize crates) state byte = some frame →
    Decodable crates decodeInto frame

end RxTask

/-! ### The host service -/

/-- What `try_send` on the command queue returns. -/
inductive SendResult where
  | ok
  | full
  | disconnected
  deriving DecidableEq

/-- A byte of the client, with what the queue would say to a command it ends. -/
structure ClientByte where
  byte : UInt8
  sent : SendResult := .ok
  deriving DecidableEq

/-- The vector of the connection and the commands forwarded. -/
structure ClientState where
  frame : List UInt8 := []
  commands : List RadioCommand := []
  deriving DecidableEq

inductive ClientOutcome where
  | serving (state : ClientState)
  | closed
  | panicked
  deriving DecidableEq

/-- The commands a client may send. -/
def clientCommand : HostToRadio → Option RadioCommand
  | .setEgoState state => some (.setEgoState state)
  | .broadcastFleetMode mode => some (.broadcastFleetMode mode)
  | _ => none

section Service
variable (crates : Crates) (decodeInto : ℕ → List UInt8 → Decoded)

/-- One byte of the read loop. -/
def clientByte (state : ClientState) (e : ClientByte) : ClientOutcome :=
  let frame := state.frame ++ [e.byte]
  if e.byte ≠ 0 then .serving { state with frame }
  else
    match decodeHostToRadioInto crates decodeInto frame with
    | none => .panicked
    | some (.error _) => .closed
    | some (.ok envelope) =>
      match clientCommand envelope.message with
      | none => .closed
      | some command =>
        match e.sent with
        | .ok => .serving { frame := [], commands := state.commands ++ [command] }
        | .full => .serving { state with frame := [] }
        | .disconnected => .closed

namespace ClientState

/-- The connection goes on; `none` ends it. -/
def step (state : ClientState) (e : ClientByte) : Option ClientState :=
  match clientByte crates decodeInto state e with
  | .serving next => some next
  | _ => none

/-- The vector stays within the largest frame size, and what is handed over is
decodable. -/
structure Bounded (state : ClientState) (e : ClientByte) : Prop where
  buffer : (state.frame ++ [e.byte]).length ≤ HostCodec.hostFrameMaxSize crates
  decodable : e.byte = 0 → Decodable crates decodeInto (state.frame ++ [0])

/-- The bytes since the last delimiter. -/
def stretch (bytes : List ClientByte) : List UInt8 := (bytes.map (·.byte)).rtakeWhile (· ≠ 0)

/-- While the client is served, no stretch of its bytes, a delimiter included, is
longer than the largest frame. -/
def Short (stream : List ClientByte) : Prop :=
  ∀ front e back, stream = front ++ e :: back →
    (run (step crates decodeInto) {} front).isSome →
    (stretch front).length < HostCodec.hostFrameMaxSize crates

end ClientState

end Service

end Mission10.Uwb
