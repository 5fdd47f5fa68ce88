import Mission10.Library.Cobs
import Mission10.Uwb.HubpackFormats

/-!
# Firmware codec of the host protocol

A frame is the packed envelope, its checksum and the stuffing of both. Packing,
checksum and stuffing come from crates outside the repository: they are the
fields of a record, and the properties the codec relies on are the fields of
another.
-/
namespace Mission10.Uwb

open Wire

inductive HostFrameError where
  | cobs
  | tooShort
  | crc
  | hubpack
  | trailingData
  | version (version : UInt8)
  deriving DecidableEq

/-- The functions of `hubpack`, `crc` and `corncobs` that the codec calls. -/
structure Crates where
  serialize : ∀ {α : Type} [Wire α], ℕ → α → Option (List UInt8)
  deserialize : ∀ (α : Type) [Wire α], List UInt8 → Option (α × List UInt8)
  checksum : List UInt8 → UInt32
  maxEncodedLen : ℕ → ℕ
  encodeBuf : List UInt8 → List UInt8
  decodeBuf : List UInt8 → Option (List UInt8)

/-- What the crates document: packing writes the derived format when the buffer
can hold it, the checksum is CRC-32/ISO-HDLC, and a string too short to hold a
longest run has one stuffing, which is read back. -/
structure Crates.Documented (crates : Crates) : Prop where
  serialize : ∀ {α : Type} [Wire α] (size : ℕ) (a : α), (encode a).length ≤ size →
    crates.serialize size a = some (encode a)
  deserialize : ∀ {α : Type} [Wire α] (bytes : List UInt8),
    crates.deserialize α bytes = decode bytes
  checksum : ∀ bytes, crates.checksum bytes = Crc32.checksum bytes
  maxEncodedLen : ∀ length, length < Cobs.maxRun → crates.maxEncodedLen length = length + 2
  encodeBuf : ∀ bytes, bytes.length < Cobs.maxRun → crates.encodeBuf bytes = Cobs.frame bytes
  decodeBuf : ∀ bytes, bytes.length < Cobs.maxRun → crates.decodeBuf (Cobs.frame bytes) = some bytes

/-- Crates that do what is documented and nothing else. -/
def Crates.reference : Crates where
  serialize size a := if (encode a).length ≤ size then some (encode a) else none
  deserialize _ _ bytes := decode bytes
  checksum := Crc32.checksum
  maxEncodedLen length := length + 2 + length / Cobs.maxRun
  encodeBuf := Cobs.frame
  decodeBuf bytes := if bytes.getLast? = some 0 then Cobs.unstuff bytes.dropLast else none

theorem Crates.reference_documented : Crates.reference.Documented where
  serialize _ _ h := if_pos h
  deserialize _ := rfl
  checksum _ := rfl
  maxEncodedLen length h := by
    change length + 2 + length / Cobs.maxRun = _
    rw [Nat.div_eq_of_lt h, Nat.add_zero]
  encodeBuf _ _ := rfl
  decodeBuf bytes _ := by
    simp [Crates.reference, Cobs.frame, Cobs.unstuff_stuff]

def hostEnvelopeMaxSize : ℕ := max (maxSize HostToRadioEnvelope) (maxSize RadioToHostEnvelope)
def hostRawMaxSize : ℕ := hostEnvelopeMaxSize + 4

example : hostEnvelopeMaxSize = 130 := by decide

namespace HostCodec

/-- A payload followed by its checksum. -/
def protect (payload : List UInt8) : List UInt8 :=
  payload ++ leBytes 4 (Crc32.checksum payload).toNat

section Codec
variable (crates : Crates)

def hostFrameMaxSize : ℕ := crates.maxEncodedLen hostRawMaxSize

def encodeEnvelope {α : Type} [Wire α] (envelope : α) : Except HostFrameError (List UInt8) :=
  match crates.serialize hostEnvelopeMaxSize envelope with
  | none => .error .hubpack
  | some payload =>
    .ok (crates.encodeBuf (payload ++ leBytes 4 (crates.checksum payload).toNat))

def decodePayload (frame : List UInt8) : Except HostFrameError (List UInt8) :=
  match crates.decodeBuf frame with
  | none => .error .cobs
  | some raw =>
    if raw.length < 4 then .error .tooShort
    else
      let payload := raw.take (raw.length - 4)
      let expected := UInt32.ofNat (leNat (raw.drop (raw.length - 4)))
      if crates.checksum payload ≠ expected then .error .crc else .ok payload

def validateDecoded (version : UInt8) (rest : List UInt8) : Except HostFrameError Unit :=
  if rest ≠ [] then .error .trailingData
  else if version ≠ hostProtocolVersion then .error (.version version)
  else .ok ()

def encodeHostToRadio (envelope : HostToRadioEnvelope) : Except HostFrameError (List UInt8) :=
  encodeEnvelope crates envelope

def decodeHostToRadio (frame : List UInt8) : Except HostFrameError HostToRadioEnvelope := do
  let payload ← decodePayload crates frame
  match crates.deserialize HostToRadioEnvelope payload with
  | none => .error .hubpack
  | some (envelope, rest) =>
    validateDecoded envelope.protocolVersion rest
    .ok envelope

def encodeRadioToHost (envelope : RadioToHostEnvelope) : Except HostFrameError (List UInt8) :=
  encodeEnvelope crates envelope

def decodeRadioToHost (frame : List UInt8) : Except HostFrameError RadioToHostEnvelope := do
  let payload ← decodePayload crates frame
  match crates.deserialize RadioToHostEnvelope payload with
  | none => .error .hubpack
  | some (envelope, rest) =>
    validateDecoded envelope.protocolVersion rest
    .ok envelope

end Codec

section Documented
variable {crates : Crates} (documented : crates.Documented)
include documented

/-- Every envelope fits its buffer. -/
theorem encodeEnvelope_ok {α : Type} [Wire α] [LawfulWire α] (envelope : α)
    (hsize : maxSize α ≤ hostEnvelopeMaxSize) :
    encodeEnvelope crates envelope = .ok (Cobs.frame (protect (encode envelope))) := by
  have hlen := (LawfulWire.length_le envelope).trans hsize
  have hraw : (protect (encode envelope)).length < Cobs.maxRun := by
    have hmax : hostEnvelopeMaxSize + 4 < Cobs.maxRun := by decide
    simp only [protect, List.length_append, length_leBytes]
    omega
  unfold encodeEnvelope
  rw [documented.serialize _ _ hlen]
  simp only [documented.checksum]
  rw [← protect, documented.encodeBuf _ hraw]

theorem decodePayload_protect {payload : List UInt8} (h : payload.length + 4 < Cobs.maxRun) :
    decodePayload crates (Cobs.frame (protect payload)) = .ok payload := by
  have hlen : (protect payload).length = payload.length + 4 := by simp [protect]
  have hsum := (Crc32.checksum payload).toNat_lt
  unfold decodePayload
  rw [documented.decodeBuf _ (by rw [hlen]; exact h)]
  simp only [hlen, Nat.add_sub_cancel, documented.checksum]
  rw [protect, List.take_left, List.drop_left, leNat_leBytes hsum, UInt32.ofNat_toNat]
  simp

/-- A payload that packs a current envelope is decoded to it. -/
theorem decodeHostToRadio_encode {envelope : HostToRadioEnvelope}
    (hversion : envelope.protocolVersion = hostProtocolVersion) :
    decodeHostToRadio crates (Cobs.frame (protect (encode envelope))) = .ok envelope := by
  have hlen := LawfulWire.length_le envelope
  have hmax : maxSize HostToRadioEnvelope + 4 < Cobs.maxRun := by decide
  unfold decodeHostToRadio
  rw [decodePayload_protect documented (by omega)]
  simp [documented.deserialize, decode_encode_nil, validateDecoded, hversion, bind, Except.bind]

theorem decodeHostToRadio_refused {payload : List UInt8} (h : payload.length + 4 < Cobs.maxRun)
    (hpayload : (decode payload : Option (HostToRadioEnvelope × List UInt8)) = none) :
    decodeHostToRadio crates (Cobs.frame (protect payload)) = .error .hubpack := by
  unfold decodeHostToRadio
  rw [decodePayload_protect documented h]
  simp [documented.deserialize, hpayload, bind, Except.bind]

end Documented

end HostCodec

end Mission10.Uwb
