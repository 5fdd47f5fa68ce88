import Mission10.Library.EvenSpacing
import Mission10.Library.Outcome
import Mission10.Uwb.HostService
import Mission10.Uwb.RadioDecoding

/-!
# Own state at the gateway

The gateway rounds the own state to milli-units, packs it and sends it to the
radio service. Only a connection error is caught. A float that is not finite
cannot be rounded, and packing refuses what its item does not hold. The mode byte
is sent unchecked, and the decoder of the service knows seven modes.
-/
namespace Mission10.Uwb

open EvenSpacing StructFormat Outcome

/-- A `float32` field. A finite one times 1000 is exact in the `float` of Python. -/
inductive MsgFloat where
  | nan
  | infinite (negative : Bool)
  | finite (value : ℚ)
  deriving DecidableEq

/-- What the callback can raise. -/
inductive StateException where
  | valueError (message : String)
  | overflowError (message : String)
  | codec (exception : PythonCodec.PyException)
  | connectionError (message : String)
  deriving DecidableEq

/-- `round(float(value) * 1_000)`. -/
def MsgFloat.roundMilli : MsgFloat → Except StateException ℤ
  | .nan => .error (.valueError "cannot convert float NaN to integer")
  | .infinite _ => .error (.overflowError "cannot convert float infinity to integer")
  | .finite value => .ok (roundHalfEven (value * 1000))

/-- Three floats are rounded in their order. -/
def roundMilli₃ (values : MsgFloat × MsgFloat × MsgFloat) :
    Except StateException (ℤ × ℤ × ℤ) := do
  let first ← values.1.roundMilli
  let second ← values.2.1.roundMilli
  let third ← values.2.2.roundMilli
  .ok (first, second, third)

/-- The fields of an `UwbState` message the gateway reads. -/
structure UwbState where
  sec : Int32
  nanosec : UInt32
  sequence : UInt32
  vehicleId : UInt8
  frameEpoch : UInt16
  validity : UInt16
  phaseRad : MsgFloat
  phaseRateRadS : MsgFloat
  yawRad : MsgFloat
  positionEnuM : MsgFloat × MsgFloat × MsgFloat
  velocityEnuMps : MsgFloat × MsgFloat × MsgFloat
  mode : UInt8

/-- The record the gateway packs. -/
def UwbState.egoState (msg : UwbState) : Except StateException PythonCodec.EgoState := do
  let phaseMrad ← msg.phaseRad.roundMilli
  let phaseRateMradS ← msg.phaseRateRadS.roundMilli
  let yawMrad ← msg.yawRad.roundMilli
  let positionEnuMm ← roundMilli₃ msg.positionEnuM
  let velocityEnuMmS ← roundMilli₃ msg.velocityEnuMps
  .ok {
    sampleTimeUs := msg.sec.toInt * 1000000 + msg.nanosec.toNat / 1000
    sequence := msg.sequence.toNat
    frameEpoch := msg.frameEpoch.toNat
    phaseMrad, phaseRateMradS, yawMrad, positionEnuMm, velocityEnuMmS
    mode := msg.mode.toNat
    validity := msg.validity.toNat }

/-- The stream to the radio service; a broken one fails to send. -/
inductive HostLink where
  | disconnected
  | broken
  | connected
  deriving DecidableEq

structure StateGateway where
  vehicleId : ℤ := 0
  sequence : UInt32 := 0
  link : HostLink := .disconnected
  deriving DecidableEq

namespace StateGateway

def nextSequence (g : StateGateway) : UInt32 × StateGateway :=
  (g.sequence, { g with sequence := g.sequence + 1 })

/-- The frame that goes out. -/
def send (g : StateGateway) (frame : List UInt8) : Except StateException (List UInt8) :=
  match g.link with
  | .disconnected => .error (.connectionError "UWB radio service is disconnected")
  | .broken => .error (.connectionError "Broken pipe")
  | .connected => .ok frame

/-- `_local_state`, with the frame it sends. -/
def localState (g : StateGateway) (msg : UwbState) :
    StateGateway × Except StateException (Option (List UInt8)) :=
  if (msg.vehicleId.toNat : ℤ) ≠ g.vehicleId then (g, .ok none)
  else
    match msg.egoState with
    | .error exception => (g, .error exception)
    | .ok state =>
      let (sequence, g) := g.nextSequence
      match PythonCodec.encodeEgoState sequence.toNat state with
      | .error exception => (g, .error (.codec exception))
      | .ok frame =>
        match g.send frame with
        | .ok frame => (g, .ok (some frame))
        | .error (.connectionError _) => (g, .ok none)
        | .error exception => (g, .error exception)

end StateGateway

/-! ### What can be packed -/

/-- The multiples of 0.001 around the float are values of the item. -/
def MsgFloat.Within (item : Item) : MsgFloat → Prop
  | .finite value => (item.low : ℚ) - 1 / 2 ≤ value * 1000 ∧ value * 1000 < item.high - 1 / 2
  | _ => False

instance (item : Item) (x : MsgFloat) : Decidable (x.Within item) :=
  match x with
  | .finite _ => inferInstanceAs (Decidable (_ ∧ _))
  | .nan => isFalse id
  | .infinite _ => isFalse id

def Within₃ (item : Item) (values : MsgFloat × MsgFloat × MsgFloat) : Prop :=
  values.1.Within item ∧ values.2.1.Within item ∧ values.2.2.Within item

instance (item : Item) (values : MsgFloat × MsgFloat × MsgFloat) :
    Decidable (Within₃ item values) :=
  inferInstanceAs (Decidable (_ ∧ _ ∧ _))

/-- The messages whose record can be packed. -/
structure UwbState.Packable (msg : UwbState) : Prop where
  stamp : 0 ≤ msg.sec.toInt * 1000000 + (msg.nanosec.toNat : ℤ) / 1000
  phase : msg.phaseRad.Within .h
  phaseRate : msg.phaseRateRadS.Within .h
  yaw : msg.yawRad.Within .h
  position : Within₃ .i msg.positionEnuM
  velocity : Within₃ .h msg.velocityEnuMps

/-- The messages that the gateway gets through. Only a connected radio service
looks at the mode. -/
structure StateGateway.Forwardable (g : StateGateway) (msg : UwbState) : Prop where
  packable : msg.Packable
  mode : g.link = .connected → msg.mode.toNat ≤ 6

section Rounding
variable {item : Item} (hlow : Even item.low) (hhigh : Even item.high)
include hlow hhigh

/-- A float rounds to a value of the item when it is within it. -/
theorem MsgFloat.roundMilli_fits {x : MsgFloat} :
    x.Within item ↔ ∃ n, x.roundMilli = .ok n ∧ item.Fits n := by
  cases x with
  | nan => exact iff_of_false id fun ⟨_, h, _⟩ => by cases h
  | infinite negative => exact iff_of_false id fun ⟨_, h, _⟩ => by cases h
  | finite value =>
    have hbelow := le_roundHalfEven_iff hlow (x := value * 1000)
    have habove := (le_roundHalfEven_iff hhigh (x := value * 1000)).not
    rw [not_le, not_le] at habove
    constructor
    · intro ⟨hl, hh⟩
      exact ⟨_, rfl, hbelow.mpr hl, habove.mpr hh⟩
    · intro ⟨n, hn, hl, hh⟩
      obtain rfl := Except.ok.inj hn
      exact ⟨hbelow.mp hl, habove.mp hh⟩

theorem roundMilli₃_fits {values : MsgFloat × MsgFloat × MsgFloat} :
    Within₃ item values ↔ ∃ n, roundMilli₃ values = .ok n ∧
      item.Fits n.1 ∧ item.Fits n.2.1 ∧ item.Fits n.2.2 := by
  unfold Within₃
  simp only [MsgFloat.roundMilli_fits hlow hhigh]
  constructor
  · intro ⟨⟨first, h₁, f₁⟩, ⟨second, h₂, f₂⟩, third, h₃, f₃⟩
    refine ⟨(first, second, third), ?_, f₁, f₂, f₃⟩
    rw [roundMilli₃, h₁, h₂, h₃]
    rfl
  · intro ⟨n, hn, f₁, f₂, f₃⟩
    obtain ⟨first, h₁, hn⟩ := bind_ok hn
    obtain ⟨second, h₂, hn⟩ := bind_ok hn
    obtain ⟨third, h₃, hn⟩ := bind_ok hn
    obtain rfl := Except.ok.inj hn
    exact ⟨⟨first, h₁, f₁⟩, ⟨second, h₂, f₂⟩, third, h₃, f₃⟩

end Rounding

namespace UwbState

variable {msg : UwbState} {state : PythonCodec.EgoState}

theorem egoState_mode (h : msg.egoState = .ok state) : state.mode = msg.mode.toNat := by
  obtain ⟨phase, -, h⟩ := bind_ok h
  obtain ⟨phaseRate, -, h⟩ := bind_ok h
  obtain ⟨yaw, -, h⟩ := bind_ok h
  obtain ⟨position, -, h⟩ := bind_ok h
  obtain ⟨velocity, -, h⟩ := bind_ok h
  rw [← Except.ok.inj h]

theorem stamp_fits (msg : UwbState) :
    Item.Q.Fits (msg.sec.toInt * 1000000 + (msg.nanosec.toNat : ℤ) / 1000) ↔
      0 ≤ msg.sec.toInt * 1000000 + (msg.nanosec.toNat : ℤ) / 1000 := by
  have hsec := msg.sec.toInt_lt
  have hnanosec := msg.nanosec.toNat_lt
  have hlow : Item.Q.low = 0 := rfl
  have hhigh : Item.Q.high = 18446744073709551616 := rfl
  unfold Item.Fits
  rw [hlow, hhigh]
  omega

/-- The record packs exactly for the packable messages. -/
theorem packed_iff : (∃ state body, msg.egoState = .ok state ∧
    PythonCodec.encodeEgoStateBody state = .ok body) ↔ msg.Packable := by
  have hsmall : Even Item.h.low ∧ Even Item.h.high := by decide
  have hlarge : Even Item.i.low ∧ Even Item.i.high := by decide
  constructor
  · intro ⟨state, body, h, hbody⟩
    obtain ⟨phase, hphase, h⟩ := bind_ok h
    obtain ⟨phaseRate, hphaseRate, h⟩ := bind_ok h
    obtain ⟨yaw, hyaw, h⟩ := bind_ok h
    obtain ⟨position, hposition, h⟩ := bind_ok h
    obtain ⟨velocity, hvelocity, h⟩ := bind_ok h
    obtain rfl := Except.ok.inj h
    have hfits := exists_pack_iff.mp ⟨body, PythonCodec.structPack_ok hbody⟩
    simp only [PythonCodec.egoStateFormat, List.forall₂_cons] at hfits
    obtain ⟨f₁, -, -, f₄, f₅, f₆, f₇, f₈, f₉, f₁₀, f₁₁, f₁₂, -⟩ := hfits
    exact {
      stamp := msg.stamp_fits.mp f₁
      phase := (MsgFloat.roundMilli_fits hsmall.1 hsmall.2).mpr ⟨_, hphase, f₄⟩
      phaseRate := (MsgFloat.roundMilli_fits hsmall.1 hsmall.2).mpr ⟨_, hphaseRate, f₅⟩
      yaw := (MsgFloat.roundMilli_fits hsmall.1 hsmall.2).mpr ⟨_, hyaw, f₆⟩
      position := (roundMilli₃_fits hlarge.1 hlarge.2).mpr ⟨_, hposition, f₇, f₈, f₉⟩
      velocity := (roundMilli₃_fits hsmall.1 hsmall.2).mpr ⟨_, hvelocity, f₁₀, f₁₁, f₁₂⟩ }
  · intro h
    obtain ⟨phase, hphase, f₄⟩ := (MsgFloat.roundMilli_fits hsmall.1 hsmall.2).mp h.phase
    obtain ⟨phaseRate, hphaseRate, f₅⟩ :=
      (MsgFloat.roundMilli_fits hsmall.1 hsmall.2).mp h.phaseRate
    obtain ⟨yaw, hyaw, f₆⟩ := (MsgFloat.roundMilli_fits hsmall.1 hsmall.2).mp h.yaw
    obtain ⟨position, hposition, f₇, f₈, f₉⟩ :=
      (roundMilli₃_fits hlarge.1 hlarge.2).mp h.position
    obtain ⟨velocity, hvelocity, f₁₀, f₁₁, f₁₂⟩ :=
      (roundMilli₃_fits hsmall.1 hsmall.2).mp h.velocity
    have hstate : msg.egoState = .ok {
        sampleTimeUs := msg.sec.toInt * 1000000 + msg.nanosec.toNat / 1000
        sequence := msg.sequence.toNat
        frameEpoch := msg.frameEpoch.toNat
        phaseMrad := phase
        phaseRateMradS := phaseRate
        yawMrad := yaw
        positionEnuMm := position
        velocityEnuMmS := velocity
        mode := msg.mode.toNat
        validity := msg.validity.toNat } := by
      rw [egoState, hphase, hphaseRate, hyaw, hposition, hvelocity]
      rfl
    have hfits : List.Forall₂ Item.Fits PythonCodec.egoStateFormat
        [msg.sec.toInt * 1000000 + msg.nanosec.toNat / 1000, msg.sequence.toNat,
          msg.frameEpoch.toNat, phase, phaseRate, yaw, position.1, position.2.1, position.2.2,
          velocity.1, velocity.2.1, velocity.2.2, msg.mode.toNat, msg.validity.toNat] := by
      simp only [PythonCodec.egoStateFormat, List.forall₂_cons]
      exact ⟨msg.stamp_fits.mpr h.stamp, Represents.fits msg.sequence,
        Represents.fits msg.frameEpoch, f₄, f₅, f₆, f₇, f₈, f₉, f₁₀, f₁₁, f₁₂,
        Represents.fits msg.mode, Represents.fits msg.validity, .nil⟩
    obtain ⟨body, hbody⟩ := exists_pack_iff.mpr hfits
    exact ⟨_, body, hstate, PythonCodec.structPack_some hbody⟩

end UwbState

/-- A short body of a command can always be framed. -/
theorem encodeHostCommand_total {sequence variant : ℤ} (hsequence : Item.I.Fits sequence)
    (hvariant : Item.B.Fits variant) {body : List UInt8} (hbody : body.length ≤ 100) :
    ∃ frame, PythonCodec.encodeHostCommand sequence variant body = .ok frame := by
  have hversion : Item.B.Fits PythonCodec.protocolVersion := Represents.fits hostProtocolVersion
  obtain ⟨header, hheader⟩ := exists_pack_iff.mpr
    (List.Forall₂.cons hversion (.cons hsequence (.cons hvariant .nil)))
  have hsum : Item.I.Fits (Crc32.checksum (header ++ body)).toNat :=
    Represents.fits (Crc32.checksum (header ++ body))
  obtain ⟨crc, hcrc⟩ := exists_pack_iff.mpr (List.Forall₂.cons hsum .nil)
  have hheaderLength : header.length = 6 := length_pack hheader
  have hcrcLength : crc.length = 4 := length_pack hcrc
  have hframe := Cobs.length_frame_le (header ++ body ++ crc)
  have hbound : ¬ PythonCodec.maxFrameSize <
      (PythonCodec.cobsEncode (header ++ body ++ crc)).length := by
    have hmax : PythonCodec.maxFrameSize = 192 := rfl
    have hrun : Cobs.maxRun = 254 := rfl
    rw [PythonCodec.cobsEncode_eq, hmax]
    rw [hrun, List.length_append, List.length_append, hheaderLength, hcrcLength] at hframe
    omega
  exact bind_total (PythonCodec.structPack_some hheader)
    (bind_total (PythonCodec.structPack_some hcrc) ⟨_, if_neg hbound⟩)

theorem encodeEgoState_total (sequence : UInt32) {state : PythonCodec.EgoState} {body : List UInt8}
    (hbody : PythonCodec.encodeEgoStateBody state = .ok body) :
    ∃ frame, PythonCodec.encodeEgoState sequence.toNat state = .ok frame := by
  have hlength : body.length = 41 := length_pack (PythonCodec.structPack_ok hbody)
  exact bind_total hbody (encodeHostCommand_total (Represents.fits sequence) (by decide)
    (hlength.trans_le (by decide)))

/-! ### The callback -/

namespace StateGateway

variable {g : StateGateway} {msg : UwbState}

/-- The callback returns when the record and its frame could be built, and sends
the frame over a connected stream. -/
theorem localState_ok_iff (haddressed : (msg.vehicleId.toNat : ℤ) = g.vehicleId)
    {sent : Option (List UInt8)} : (g.localState msg).2 = .ok sent ↔
      ∃ state frame, msg.egoState = .ok state ∧
        PythonCodec.encodeEgoState g.sequence.toNat state = .ok frame ∧
        sent = if g.link = .connected then some frame else none := by
  unfold localState
  rw [if_neg (not_not.mpr haddressed)]
  cases hstate : msg.egoState with
  | error exception => simp
  | ok state =>
    cases hframe : PythonCodec.encodeEgoState g.sequence.toNat state with
    | error exception => simp [nextSequence, hframe]
    | ok frame =>
      cases hlink : g.link with
      | disconnected => simp [nextSequence, hframe, send, hlink, eq_comm]
      | broken => simp [nextSequence, hframe, send, hlink, eq_comm]
      | connected => simp [nextSequence, hframe, send, hlink, eq_comm]

/-- The callback returns, and the radio service reads the frame that it sends, if
any, as a command that it serves. -/
def Survives (crates : Crates) (outcome : Except StateException (Option (List UInt8))) : Prop :=
  ∃ sent, outcome = .ok sent ∧ ∀ frame ∈ sent, ∃ envelope command,
    HostCodec.decodeHostToRadio crates frame = .ok envelope ∧
      clientCommand envelope.message = some command

section Service
variable {crates : Crates} (documented : crates.Documented)
include documented

/-- An own state with a known mode is a command of the radio service. -/
theorem egoState_served {sequence : ℤ} {state : PythonCodec.EgoState} {frame : List UInt8}
    (hmode : state.mode ≤ 6) (h : PythonCodec.encodeEgoState sequence state = .ok frame) :
    ∃ envelope command, HostCodec.decodeHostToRadio crates frame = .ok envelope ∧
      clientCommand envelope.message = some command := by
  obtain ⟨envelope, hdecode, -, -, hsame⟩ :=
    CodecAgreement.egoState_understood documented hmode h
  cases hmessage : envelope.message with
  | setEgoState known => exact ⟨envelope, .setEgoState known, hdecode, by rw [hmessage]; rfl⟩
  | configure configuration => rw [hmessage] at hsame; exact hsame.elim
  | requestHealth requestId => rw [hmessage] at hsame; exact hsame.elim
  | clockReply requestId rxUs txUs generation errorUs => rw [hmessage] at hsame; exact hsame.elim
  | broadcastFleetMode mode => rw [hmessage] at hsame; exact hsame.elim

/-- A state message addressed to this vehicle is survived exactly when it can be
forwarded. -/
theorem own_state_forwarded (haddressed : (msg.vehicleId.toNat : ℤ) = g.vehicleId) :
    Survives crates (g.localState msg).2 ↔ g.Forwardable msg := by
  constructor
  · intro ⟨sent, hsent, haccepted⟩
    obtain ⟨state, frame, hstate, hframe, rfl⟩ := (localState_ok_iff haddressed).mp hsent
    obtain ⟨body, hbody, -⟩ := bind_ok hframe
    refine ⟨UwbState.packed_iff.mp ⟨state, body, hstate, hbody⟩, fun hlink => ?_⟩
    by_contra hmode
    have hunknown : ¬ state.mode ≤ 6 := by
      rw [UwbState.egoState_mode hstate]
      omega
    obtain ⟨envelope, command, hdecode, -⟩ := haccepted frame (by rw [if_pos hlink]; rfl)
    rw [CodecAgreement.egoState_refused documented hunknown hframe] at hdecode
    cases hdecode
  · intro h
    obtain ⟨state, body, hstate, hbody⟩ := UwbState.packed_iff.mpr h.packable
    obtain ⟨frame, hframe⟩ := encodeEgoState_total g.sequence hbody
    refine ⟨_, (localState_ok_iff haddressed).mpr ⟨state, frame, hstate, hframe, rfl⟩, ?_⟩
    intro out hout
    by_cases hlink : g.link = .connected
    · rw [if_pos hlink, Option.mem_some_iff] at hout
      subst hout
      have hmode := h.mode hlink
      refine egoState_served documented ?_ hframe
      rw [UwbState.egoState_mode hstate]
      omega
    · rw [if_neg hlink] at hout
      cases hout

end Service

/-- A state at rest, with a mode that every decoder knows. -/
def restingState : UwbState where
  sec := 1
  nanosec := 500000000
  sequence := 7
  vehicleId := 0
  frameEpoch := 1
  validity := 15
  phaseRad := .finite 1
  phaseRateRadS := .finite (1 / 4)
  yawRad := .finite (-3)
  positionEnuM := (.finite 10, .finite (-20), .finite 3)
  velocityEnuMps := (.finite 0, .finite 0, .finite 0)
  mode := 1

/-- The resting state is forwarded over a connected stream. -/
theorem own_state_forwarded_resting :
    Survives Crates.reference (localState { link := .connected } restingState).2 := by
  refine (own_state_forwarded Crates.reference_documented rfl).mpr ⟨⟨?_, ?_, ?_, ?_, ?_, ?_⟩, ?_⟩
  · decide
  · decide +kernel
  · decide +kernel
  · decide +kernel
  · decide +kernel
  · decide +kernel
  · decide

/-- A phase that is not a number ends the callback with an exception. -/
theorem nan_phase_raises :
    ¬ Survives Crates.reference
      (localState { link := .connected } { restingState with phaseRad := .nan }).2 := by
  rintro ⟨sent, hsent, -⟩
  cases hsent

end StateGateway

end Mission10.Uwb
