import Mission10.Library.Cobs
import Mission10.Library.StructFormat

/-!
# Python codec of the host protocol

The standard-library codec of the host tools, independent of the firmware's.
Its integers are unbounded and its records are tuples of values; a record that
its constructor checks carries the check as a field.
-/
namespace Mission10.Uwb.PythonCodec

open StructFormat

def protocolVersion : ℤ := 9
def maxPeers : ℕ := 5
def maxFrameSize : ℕ := 192
def egoStateFormat : List Item := [.Q, .I, .H, .h, .h, .h, .i, .i, .i, .h, .h, .h, .B, .H]
def egoStateSize : ℕ := calcsize egoStateFormat
def configurationFormat : List Item := [.H, .B, .H, .H, .H, .H, .H]
def configurationSize : ℕ := calcsize configurationFormat

def diagnosticNames : List String :=
  ["rx_fcs", "rx_phy", "rx_buffer_too_small", "rx_reed_solomon", "rx_frame_wait_timeout",
    "rx_overrun", "rx_preamble_detection_timeout", "rx_sfd_timeout",
    "rx_frame_filtering_rejection", "spi", "frame_decode", "invalid_distance",
    "delayed_send_too_late", "delayed_send_power_up_warning", "radio_state", "host_frame",
    "invalid_configuration", "malformed_air", "unexpected_air", "invalid_timestamp", "unknown",
    "radio_reset", "watchdog_reset"]

/-- What the codec can raise. -/
inductive PyException where
  | frameError (message : String)
  | valueError (message : String)
  | structError
  | indexError
  deriving DecidableEq

def isNodeAddress (address : ℤ) : Bool :=
  (0 ≤ address ∧ address ≤ 0xff) ∨ (0x8000 ≤ address ∧ address ≤ 0x80ff)

structure EgoState where
  sampleTimeUs : ℤ := 0
  sequence : ℤ := 0
  frameEpoch : ℤ := 0
  phaseMrad : ℤ := 0
  phaseRateMradS : ℤ := 0
  yawMrad : ℤ := 0
  positionEnuMm : ℤ × ℤ × ℤ := (0, 0, 0)
  velocityEnuMmS : ℤ × ℤ × ℤ := (0, 0, 0)
  mode : ℤ := 0
  validity : ℤ := 0
  deriving DecidableEq

/-- The check made when a configuration is built; the text is the error's. -/
def configurationError (nodeAddress : ℤ) (peers : List ℤ) : Option String :=
  if !isNodeAddress nodeAddress then some "node address is outside the Mission 10 namespaces"
  else if ¬ (1 ≤ peers.length ∧ peers.length ≤ maxPeers) then some "one to 5 peers are required"
  else if peers.any fun peer => !isNodeAddress peer then
    some "peer address is outside the Mission 10 namespaces"
  else if nodeAddress ∈ peers ∨ ¬ peers.Nodup then
    some "peers must be unique and distinct from the node"
  else none

structure RadioConfiguration where
  nodeAddress : ℤ
  peers : List ℤ
  checked : configurationError nodeAddress peers = none
  deriving DecidableEq

def RadioConfiguration.new (nodeAddress : ℤ) (peers : List ℤ) :
    Except PyException RadioConfiguration :=
  match h : configurationError nodeAddress peers with
  | none => .ok ⟨nodeAddress, peers, h⟩
  | some message => .error (.valueError message)

/-- The field and internet networks are 0 and 1. -/
structure FleetMode where
  master : ℤ
  network : ℤ
  checked : network = 0 ∨ network = 1
  deriving DecidableEq

def FleetMode.new (master network : ℤ) : Except PyException FleetMode :=
  if h : network = 0 ∨ network = 1 then .ok ⟨master, network, h⟩
  else .error (.valueError "fleet network must be field or internet")

structure Diagnostic where
  code : ℤ
  name : String
  deriving DecidableEq

structure MissionEventTime where
  missionTimeUs : Option ℤ
  generation : ℤ := 0
  errorUs : ℤ := 0
  deriving DecidableEq

/-- One entry of an envelope's tuple of fields. -/
inductive Value where
  | int (value : ℤ)
  | configuration (configuration : RadioConfiguration)
  | missionEventTime (time : MissionEventTime)
  | egoState (state : EgoState)
  | diagnostic (diagnostic : Diagnostic)
  | fleetMode (mode : FleetMode)
  deriving DecidableEq

structure Envelope where
  protocolVersion : ℤ
  sequence : ℤ
  kind : String
  fields : List Value
  deriving DecidableEq

/-- `struct.pack`. -/
def structPack (items : List Item) (values : List ℤ) : Except PyException (List UInt8) :=
  match pack items values with
  | some bytes => .ok bytes
  | none => .error .structError

/-- `struct.unpack`. -/
def structUnpack (items : List Item) (bytes : List UInt8) : Except PyException (List ℤ) :=
  match unpack items bytes with
  | some values => .ok values
  | none => .error .structError

/-- `struct.unpack_from` at an offset. -/
def structUnpackFrom (items : List Item) (bytes : List UInt8) (offset : ℕ) :
    Except PyException (List ℤ) :=
  match unpackFrom items (bytes.drop offset) with
  | some values => .ok values
  | none => .error .structError

/-- The `ValueError` of a constructor, raised again as a `FrameError`. -/
def asFrameError {α : Type} : Except PyException α → Except PyException α
  | .error (.valueError message) => .error (.frameError message)
  | outcome => outcome

/-- The output with the place of the current code and its value so far. -/
structure CobsEncoder where
  output : List UInt8 := [0]
  codeIndex : ℕ := 0
  code : ℕ := 1

namespace CobsEncoder

/-- The output with the current code in its place. -/
def written (encoder : CobsEncoder) : List UInt8 :=
  encoder.output.set encoder.codeIndex (UInt8.ofNat encoder.code)

/-- Writes the current code and opens the next run. -/
def close (encoder : CobsEncoder) : CobsEncoder where
  output := encoder.written ++ [0]
  codeIndex := encoder.output.length
  code := 1

def push (encoder : CobsEncoder) (byte : UInt8) : CobsEncoder :=
  if byte = 0 then encoder.close
  else
    let encoder := { encoder with
      output := encoder.output ++ [byte]
      code := encoder.code + 1 }
    if encoder.code = 0xff then encoder.close else encoder

end CobsEncoder

def cobsEncode (raw : List UInt8) : List UInt8 :=
  (raw.foldl CobsEncoder.push {}).written ++ [0]

/-- The loop of the decoder over what is left before the delimiter. -/
def cobsDecodeRuns : List UInt8 → Except PyException (List UInt8)
  | [] => .ok []
  | code :: rest =>
    if code = 0 then .error (.frameError "unexpected COBS delimiter")
    else if rest.length < code.toNat - 1 then .error (.frameError "truncated COBS run")
    else
      (cobsDecodeRuns (rest.drop (code.toNat - 1))).map fun output =>
        rest.take (code.toNat - 1) ++
          (if code ≠ 0xff ∧ rest.drop (code.toNat - 1) ≠ [] then 0 :: output else output)
termination_by bytes => bytes.length
decreasing_by simp only [List.length_drop, List.length_cons]; omega

def cobsDecode (frame : List UInt8) : Except PyException (List UInt8) :=
  if frame.getLast? ≠ some 0 then .error (.frameError "truncated COBS frame")
  else cobsDecodeRuns frame.dropLast

def decodeEgoState (payload : List UInt8) : Except PyException EgoState :=
  if payload.length ≠ egoStateSize then .error (.frameError "ego state has the wrong length")
  else do
    match ← structUnpack egoStateFormat payload with
    | [sampleTimeUs, sequence, frameEpoch, phaseMrad, phaseRateMradS, yawMrad, east, north, up,
        velocityEast, velocityNorth, velocityUp, mode, validity] =>
      .ok { sampleTimeUs, sequence, frameEpoch, phaseMrad, phaseRateMradS, yawMrad
            positionEnuMm := (east, north, up)
            velocityEnuMmS := (velocityEast, velocityNorth, velocityUp)
            mode, validity }
    | _ => .error .indexError

def encodeEgoStateBody (state : EgoState) : Except PyException (List UInt8) :=
  structPack egoStateFormat
    [state.sampleTimeUs, state.sequence, state.frameEpoch, state.phaseMrad, state.phaseRateMradS,
      state.yawMrad, state.positionEnuMm.1, state.positionEnuMm.2.1, state.positionEnuMm.2.2,
      state.velocityEnuMmS.1, state.velocityEnuMmS.2.1, state.velocityEnuMmS.2.2, state.mode,
      state.validity]

def decodeConfiguration (payload : List UInt8) : Except PyException RadioConfiguration :=
  if payload.length ≠ configurationSize then
    .error (.frameError "configuration has the wrong length")
  else do
    match ← structUnpack configurationFormat payload with
    | nodeAddress :: peerCount :: peerSlots =>
      if (maxPeers : ℤ) < peerCount then
        .error (.frameError "configuration peer count is out of range")
      else asFrameError (RadioConfiguration.new nodeAddress (peerSlots.take peerCount.toNat))
    | _ => .error (.valueError "not enough values to unpack")

/-- The five peer slots, filled up with zeros. -/
def paddedPeers (configuration : RadioConfiguration) : List ℤ :=
  configuration.peers ++ List.replicate (maxPeers - configuration.peers.length) 0

def encodeConfigurationBody (configuration : RadioConfiguration) :
    Except PyException (List UInt8) :=
  structPack configurationFormat
    (configuration.nodeAddress :: configuration.peers.length :: paddedPeers configuration)

/-- The variants whose body is one packed record. -/
def fixedFormats (variant : ℤ) : Option (String × List Item) :=
  if variant = 0 then some ("radio_id", [.H, .B, .B, .B])
  else if variant = 1 then some ("otp", [.I, .I, .I, .I])
  else if variant = 2 then some ("ready", [.H, .H])
  else if variant = 3 then some ("clock_probe", [.H])
  else if variant = 4 then some ("clock_status", [.I, .I, .I, .B])
  else if variant = 8 then some ("health", List.replicate 31 .I)
  else none

def exchangeHeaderFormat : List Item := [.H, .H, .Q]
def mappingFormat : List Item := [.Q, .I, .I]
def exchangeTailFormat : List Item := [.I, .h, .H]

/-- The event time of a completed exchange and the offset after it. -/
def decodeMissionEventTime (body : List UInt8) : Except PyException (MissionEventTime × ℕ) := do
  let headerSize := calcsize exchangeHeaderFormat
  let offset := headerSize + 1
  match body[headerSize]? with
  | none => .error .indexError
  | some 0 => .ok ({ missionTimeUs := none }, offset)
  | some 1 =>
    if body.length < offset + calcsize mappingFormat then
      .error (.frameError "mapped event time is truncated")
    else
      match ← structUnpackFrom mappingFormat body offset with
      | [missionTimeUs, generation, errorUs] =>
        .ok ({ missionTimeUs := some missionTimeUs, generation, errorUs },
          offset + calcsize mappingFormat)
      | _ => .error .indexError
  | some _ => .error (.frameError "unknown mission event-time variant")

def decodeCompletedExchange (body : List UInt8) : Except PyException (List Value) := do
  let headerSize := calcsize exchangeHeaderFormat
  if body.length < headerSize + 1 then
    .error (.frameError "completed exchange has the wrong length")
  else
    let header ← structUnpackFrom exchangeHeaderFormat body 0
    let (missionEventTime, offset) ← decodeMissionEventTime body
    let tailSize := calcsize exchangeTailFormat
    if body.length ≠ offset + tailSize + egoStateSize then
      .error (.frameError "completed exchange has the wrong length")
    else
      let tail ← structUnpackFrom exchangeTailFormat body offset
      let state ← decodeEgoState (body.drop (offset + tailSize))
      .ok (header.map .int ++ [.missionEventTime missionEventTime] ++ tail.map .int ++
        [.egoState state])

/-- The kind and fields of a message body. -/
def decodeBody (variant : ℤ) (body : List UInt8) : Except PyException (String × List Value) :=
  if variant = 5 then do
    let configuration ← decodeConfiguration body
    .ok ("configured", [.configuration configuration])
  else if variant = 6 then do
    let fields ← decodeCompletedExchange body
    .ok ("completed_exchange", fields)
  else if variant = 7 then
    match body with
    | [byte] =>
      let name := diagnosticNames[byte.toNat]?.getD "unrecognized"
      .ok ("error", [.diagnostic ⟨byte.toNat, name⟩])
    | _ => .error (.frameError "diagnostic has the wrong length")
  else if variant = 9 then
    if body.length ≠ 4 then .error (.frameError "fleet mode has the wrong length")
    else do
      match ← structUnpack [.H, .B, .B] body with
      | [source, master, network] =>
        let mode ← asFrameError (FleetMode.new master network)
        .ok ("fleet_mode_received", [.int source, .fleetMode mode])
      | _ => .error (.valueError "not enough values to unpack")
  else
    match fixedFormats variant with
    | none => .error (.frameError ("unknown radio message variant " ++ toString variant))
    | some (kind, items) =>
      if body.length ≠ calcsize items then
        .error (.frameError "message length does not match its variant")
      else do
        let values ← structUnpack items body
        .ok (kind, values.map .int)

/-- The payload before a checksum that matches it. -/
def decodePayload (frame : List UInt8) : Except PyException (List UInt8) := do
  let raw ← cobsDecode frame
  if raw.length < 10 then .error (.frameError "frame too short")
  else
    let payload := raw.take (raw.length - 4)
    let expectedCrc ← structUnpack [.I] (raw.drop (raw.length - 4))
    if [((Crc32.checksum payload).toNat : ℤ)] ≠ expectedCrc then
      .error (.frameError "CRC mismatch")
    else .ok payload

def decodeFrame (frame : List UInt8) : Except PyException Envelope := do
  let payload ← decodePayload frame
  match ← structUnpackFrom [.B, .I, .B] payload 0 with
  | [version, sequence, variant] =>
    if version ≠ protocolVersion then
      .error (.frameError ("unsupported protocol version " ++ toString version))
    else
      let (kind, fields) ← decodeBody variant (payload.drop 6)
      .ok ⟨version, sequence, kind, fields⟩
  | _ => .error (.valueError "not enough values to unpack")

def encodeHostCommand (sequence variant : ℤ) (body : List UInt8) :
    Except PyException (List UInt8) := do
  let header ← structPack [.B, .I, .B] [protocolVersion, sequence, variant]
  let payload := header ++ body
  let crc ← structPack [.I] [(Crc32.checksum payload).toNat]
  let frame := cobsEncode (payload ++ crc)
  if maxFrameSize < frame.length then
    .error (.frameError "encoded host command exceeds the transport bound")
  else .ok frame

def encodeConfiguration (sequence : ℤ) (configuration : RadioConfiguration) :
    Except PyException (List UInt8) := do
  encodeHostCommand sequence 0 (← encodeConfigurationBody configuration)

def encodeEgoState (sequence : ℤ) (state : EgoState) : Except PyException (List UInt8) := do
  encodeHostCommand sequence 1 (← encodeEgoStateBody state)

def encodeHealthRequest (sequence requestId : ℤ) : Except PyException (List UInt8) := do
  encodeHostCommand sequence 2 (← structPack [.I] [requestId])

def encodeClockReply
    (sequence requestId missionRxUs missionTxUs missionGeneration sourceErrorUs : ℤ) :
    Except PyException (List UInt8) := do
  encodeHostCommand sequence 3
    (← structPack [.H, .Q, .Q, .I, .I]
      [requestId, missionRxUs, missionTxUs, missionGeneration, sourceErrorUs])

def encodeFleetMode (sequence : ℤ) (mode : FleetMode) : Except PyException (List UInt8) := do
  encodeHostCommand sequence 4 (← structPack [.B, .B] [mode.master, mode.network])

end Mission10.Uwb.PythonCodec
