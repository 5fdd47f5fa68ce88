import Mission10.Uwb.HostCodec
import Mission10.Uwb.PythonCodec
import Mission10.Library.Outcome

/-!
# Agreement of the two host codecs

The Python codec and the firmware codec share the frame: payload, checksum and
stuffing. A command packed by Python is the packed firmware command with the
same field values, and a firmware message unpacks in Python to its field
values. The one exception is the avoidance mode, which Python writes unchecked
and the firmware reads as one of seven variants.
-/
namespace Mission10.Uwb

open Wire StructFormat HostCodec

namespace PythonCodec

namespace CobsEncoder

/-- The output is some finished runs, the place of the current code, and the
current run. -/
structure Writing (encoder : CobsEncoder) (done run : List UInt8) : Prop where
  output : encoder.output = done ++ 0 :: run
  codeIndex : encoder.codeIndex = done.length
  code : encoder.code = run.length + 1

theorem Writing.written {encoder : CobsEncoder} {done run : List UInt8}
    (h : encoder.Writing done run) : encoder.written = done ++ Cobs.code run :: run := by
  rw [CobsEncoder.written, h.output, h.codeIndex, h.code]
  simp [Cobs.code]

theorem Writing.close {encoder : CobsEncoder} {done run : List UInt8}
    (h : encoder.Writing done run) : encoder.close.Writing (done ++ Cobs.code run :: run) [] := by
  refine ⟨?_, ?_, rfl⟩
  · rw [CobsEncoder.close, h.written]
  · simp [CobsEncoder.close, h.output]

/-- From any point on the encoder writes what the stuffing of the rest is. -/
theorem Writing.finish {encoder : CobsEncoder} {done run : List UInt8}
    (h : encoder.Writing done run) (hrun : Cobs.Run run) (bytes : List UInt8) :
    (bytes.foldl CobsEncoder.push encoder).written = done ++ Cobs.stuffFrom run bytes := by
  induction bytes generalizing encoder done run with
  | nil =>
    rw [Cobs.stuffFrom_nil]
    exact h.written
  | cons byte bytes ih =>
    rw [List.foldl_cons, Cobs.stuffFrom_cons, CobsEncoder.push]
    by_cases hzero : byte = 0
    · rw [if_pos hzero, if_pos hzero, ih h.close Cobs.Run.nil]
      simp
    · have hnext : Writing { encoder with
          output := encoder.output ++ [byte]
          code := encoder.code + 1 } done (run ++ [byte]) :=
        ⟨by simp [h.output], h.codeIndex, by simp [h.code]⟩
      rw [if_neg hzero, if_neg hzero]
      by_cases hfull : run.length + 1 = Cobs.maxRun
      · have hlast : encoder.code + 1 = 0xff := by
          rw [h.code, hfull]
          rfl
        rw [if_pos hfull, if_pos hlast, ih hnext.close Cobs.Run.nil]
        simp
      · have hmore : encoder.code + 1 ≠ 0xff := by
          rw [h.code]
          exact fun he => hfull (Nat.succ.inj he)
        rw [if_neg hfull, if_neg hmore, ih hnext (hrun.concat hzero hfull)]

end CobsEncoder

theorem cobsEncode_eq (raw : List UInt8) : cobsEncode raw = Cobs.frame raw := by
  have hinitial : CobsEncoder.Writing {} [] [] := ⟨rfl, rfl, rfl⟩
  rw [cobsEncode, hinitial.finish Cobs.Run.nil]
  rfl

theorem cobsDecodeRuns_of_unstuff {body raw : List UInt8} (h : Cobs.unstuff body = some raw) :
    cobsDecodeRuns body = .ok raw := by
  induction body using Cobs.unstuff.induct generalizing raw with
  | case1 =>
    rw [Cobs.unstuff_nil, Option.some.injEq] at h
    rw [cobsDecodeRuns, h]
  | case2 rest => simp [Cobs.unstuff_cons] at h
  | case3 code rest hzero hshort => simp [Cobs.unstuff_cons, hzero, hshort] at h
  | case4 code rest hzero hfits ih =>
    rw [Cobs.unstuff_cons, if_neg hzero, if_neg hfits, Option.map_eq_some_iff] at h
    obtain ⟨output, houtput, rfl⟩ := h
    rw [cobsDecodeRuns, if_neg hzero, if_neg hfits, ih houtput]
    rfl

theorem cobsDecode_frame (raw : List UInt8) : cobsDecode (Cobs.frame raw) = .ok raw := by
  unfold cobsDecode
  simp [Cobs.frame, cobsDecodeRuns_of_unstuff (Cobs.unstuff_stuff raw)]

/-- The arguments of the five encoders. -/
inductive Command where
  | configuration (radio : RadioConfiguration)
  | egoState (state : EgoState)
  | healthRequest (requestId : ℤ)
  | clockReply (requestId missionRxUs missionTxUs missionGeneration sourceErrorUs : ℤ)
  | fleetMode (mode : FleetMode)

def Command.encode (sequence : ℤ) : Command → Except PyException (List UInt8)
  | .configuration radio => encodeConfiguration sequence radio
  | .egoState state => encodeEgoState sequence state
  | .healthRequest requestId => encodeHealthRequest sequence requestId
  | .clockReply requestId missionRxUs missionTxUs missionGeneration sourceErrorUs =>
    encodeClockReply sequence requestId missionRxUs missionTxUs missionGeneration sourceErrorUs
  | .fleetMode mode => encodeFleetMode sequence mode

theorem structPack_ok {items : List Item} {values : List ℤ} {bytes : List UInt8}
    (h : structPack items values = .ok bytes) : pack items values = some bytes := by
  unfold structPack at h
  split at h
  next out hpack => rw [hpack, Except.ok.inj h]
  next => cases h

theorem structPack_some {items : List Item} {values : List ℤ} {bytes : List UInt8}
    (h : pack items values = some bytes) : structPack items values = .ok bytes := by
  simp [structPack, h]

/-- A command frame is the frame of its header and body. -/
theorem encodeHostCommand_ok {sequence : ℤ} (variant : UInt8) {body frame : List UInt8}
    (h : encodeHostCommand sequence variant.toNat body = .ok frame) :
    ∃ s : UInt32, (s.toNat : ℤ) = sequence ∧ frame = Cobs.frame
      (protect (encode hostProtocolVersion ++ (encode s ++ (encode variant ++ body)))) := by
  obtain ⟨header, hheader, hrest⟩ := Outcome.bind_ok h
  obtain ⟨crc, hcrc, hframe⟩ := Outcome.bind_ok hrest
  obtain ⟨version, rest₁, hversion, hrest₁, rfl⟩ := pack_cons_some UInt8 (structPack_ok hheader)
  obtain ⟨s, rest₂, hs, hrest₂, rfl⟩ := pack_cons_some UInt32 hrest₁
  obtain ⟨v, rest₃, hv, hrest₃, rfl⟩ := pack_cons_some UInt8 hrest₂
  obtain rfl : rest₃ = [] := (Option.some.inj hrest₃).symm
  obtain rfl : version = hostProtocolVersion := UInt8.toNat_inj.mp (Int.ofNat.inj hversion)
  obtain rfl : v = variant := UInt8.toNat_inj.mp (Int.ofNat.inj hv)
  refine ⟨s, hs, ?_⟩
  have hpacked := structPack_ok hcrc
  rw [show ((Crc32.checksum _).toNat : ℤ) = Represents.value (Crc32.checksum _) from rfl,
    pack_cons_value _ rfl, Option.some.injEq] at hpacked
  dsimp only at hframe
  split_ifs at hframe with hbound
  rw [← Except.ok.inj hframe, cobsEncode_eq, ← hpacked, protect]
  simp [encode]

theorem address_of_word {word : UInt16} (h : isNodeAddress word.toNat = true) :
    ∃ address : NodeAddress, address.get = word := by
  have hvalid : word ≤ 0xff ∨ (0x8000 ≤ word ∧ word ≤ 0x80ff) := by
    simp only [isNodeAddress, decide_eq_true_eq] at h
    simp only [UInt16.le_iff_toNat_le, UInt16.reduceToNat]
    omega
  exact ⟨⟨word, hvalid⟩, rfl⟩

/-- Checked addresses pack to the wire form of node addresses. -/
theorem pack_addresses {values : List ℤ} (h : ∀ value ∈ values, isNodeAddress value = true)
    {bytes : List UInt8} (hpack : pack (List.replicate values.length .H) values = some bytes) :
    ∃ addresses : List NodeAddress,
      addresses.map (fun address => (address.get.toNat : ℤ)) = values ∧
        bytes = addresses.flatMap encode := by
  induction values generalizing bytes with
  | nil => exact ⟨[], rfl, (Option.some.inj hpack).symm⟩
  | cons value values ih =>
    obtain ⟨word, rest, hword, hrest, rfl⟩ := pack_cons_some UInt16 hpack
    obtain ⟨addresses, hvalues, rfl⟩ := ih (fun v hv => h v (List.mem_cons_of_mem _ hv)) hrest
    obtain ⟨address, rfl⟩ := address_of_word (hword ▸ h value List.mem_cons_self)
    exact ⟨address :: addresses, by rw [List.map_cons, hvalues, ← hword]; rfl, rfl⟩

/-- What the check of a configuration guarantees. -/
structure RadioConfiguration.Checked (nodeAddress : ℤ) (peers : List ℤ) : Prop where
  node : isNodeAddress nodeAddress = true
  nonempty : 1 ≤ peers.length
  fits : peers.length ≤ maxPeers
  valid : ∀ peer ∈ peers, isNodeAddress peer = true
  distinct : nodeAddress ∉ peers
  nodup : peers.Nodup

theorem configurationError_eq_none {nodeAddress : ℤ} {peers : List ℤ} :
    configurationError nodeAddress peers = none ↔
      RadioConfiguration.Checked nodeAddress peers := by
  constructor
  · intro h
    unfold configurationError at h
    split_ifs at h with hnode hcount hpeers hunique
    push Not at hunique
    refine ⟨by simpa using hnode, hcount.1, hcount.2, ?_, hunique.1, hunique.2⟩
    intro peer hmem
    by_contra hpeer
    exact hpeers (List.any_eq_true.mpr ⟨peer, hmem, by simpa using hpeer⟩)
  · intro h
    have hpeers : ¬ (peers.any fun peer => !isNodeAddress peer) = true := by
      intro hany
      obtain ⟨peer, hmem, hpeer⟩ := List.any_eq_true.mp hany
      simp [h.valid peer hmem] at hpeer
    unfold configurationError
    rw [if_neg (by simp [h.node]), if_neg (not_not.mpr ⟨h.nonempty, h.fits⟩), if_neg hpeers,
      if_neg (by simp [h.distinct, h.nodup])]

end PythonCodec

/-- The values of an ego state as Python holds them. -/
def EgoState.values (state : EgoState) : PythonCodec.EgoState where
  sampleTimeUs := state.sampleTimeUs.toNat
  sequence := state.sequence.toNat
  frameEpoch := state.frameEpoch.toNat
  phaseMrad := state.phaseMrad.toInt
  phaseRateMradS := state.phaseRateMradS.toInt
  yawMrad := state.yawMrad.toInt
  positionEnuMm := (state.positionEnuMm.1.toInt, state.positionEnuMm.2.1.toInt,
    state.positionEnuMm.2.2.toInt)
  velocityEnuMmS := (state.velocityEnuMmS.1.toInt, state.velocityEnuMmS.2.1.toInt,
    state.velocityEnuMmS.2.2.toInt)
  mode := AvoidanceMode.variants.idxOf state.mode
  validity := state.validity.toNat

/-- The addresses in use are the same; unused slots do not count. -/
structure RadioConfiguration.Same (configuration : RadioConfiguration)
    (python : PythonCodec.RadioConfiguration) : Prop where
  nodeAddress : (configuration.nodeAddress.get.toNat : ℤ) = python.nodeAddress
  peers : configuration.peerSlice.map
    (fun peers => peers.map fun peer => (peer.get.toNat : ℤ)) = some python.peers

structure FleetMode.Same (mode : FleetMode) (python : PythonCodec.FleetMode) : Prop where
  master : (mode.master.toNat : ℤ) = python.master
  network : (FleetNetwork.variants.idxOf mode.network : ℤ) = python.network

/-- A firmware command and the arguments of a Python encoder have the same field
values. -/
def HostToRadio.Same : HostToRadio → PythonCodec.Command → Prop
  | .configure configuration, .configuration python => configuration.Same python
  | .setEgoState state, .egoState python => state.values = python
  | .requestHealth requestId, .healthRequest python => (requestId.toNat : ℤ) = python
  | .clockReply requestId missionRxUs missionTxUs missionGeneration sourceErrorUs,
      .clockReply requestId' missionRxUs' missionTxUs' missionGeneration' sourceErrorUs' =>
    (requestId.toNat : ℤ) = requestId' ∧ (missionRxUs.toNat : ℤ) = missionRxUs' ∧
      (missionTxUs.toNat : ℤ) = missionTxUs' ∧ (missionGeneration.toNat : ℤ) = missionGeneration' ∧
      (sourceErrorUs.toNat : ℤ) = sourceErrorUs'
  | .broadcastFleetMode mode, .fleetMode python => mode.Same python
  | _, _ => False

namespace CodecAgreement

open PythonCodec (PyException)

theorem configuration_body {python : PythonCodec.RadioConfiguration} {body : List UInt8}
    (h : PythonCodec.encodeConfigurationBody python = .ok body) :
    ∃ configuration : RadioConfiguration, configuration.Same python ∧
      body = encode configuration := by
  have hchecked := PythonCodec.configurationError_eq_none.mp python.checked
  have hslots : (PythonCodec.paddedPeers python).length = 5 := by
    rw [PythonCodec.paddedPeers, List.length_append, List.length_replicate]
    exact Nat.add_sub_cancel' hchecked.fits
  have hvalid : ∀ slot ∈ PythonCodec.paddedPeers python,
      PythonCodec.isNodeAddress slot = true := by
    intro slot hmem
    rcases List.mem_append.mp hmem with hmem | hmem
    · exact hchecked.valid slot hmem
    · rw [List.eq_of_mem_replicate hmem]
      rfl
  have hpack := PythonCodec.structPack_ok h
  obtain ⟨node, r₁, hnode, p₁, rfl⟩ := pack_cons_some UInt16 hpack
  obtain ⟨count, r₂, hcount, p₂, rfl⟩ := pack_cons_some UInt8 p₁
  have p₂' : pack (List.replicate (PythonCodec.paddedPeers python).length .H)
      (PythonCodec.paddedPeers python) = some r₂ := by
    rw [hslots]
    exact p₂
  obtain ⟨addresses, haddresses, rfl⟩ := PythonCodec.pack_addresses hvalid p₂'
  have hlength : addresses.length = 5 := by rw [← hslots, ← haddresses, List.length_map]
  obtain ⟨address, rfl⟩ := PythonCodec.address_of_word (hnode ▸ hchecked.node)
  have hcount' : count.toNat = python.peers.length := Int.ofNat.inj hcount
  refine ⟨⟨address, count, ⟨addresses.toArray, hlength⟩⟩, ⟨hnode, ?_⟩, rfl⟩
  have hfits : count.toNat ≤ maxPeers := hcount' ▸ hchecked.fits
  simp only [RadioConfiguration.peerSlice, if_pos hfits, Option.map_some, List.map_take]
  rw [hcount']
  change some ((addresses.map _).take _) = _
  rw [haddresses, PythonCodec.paddedPeers, List.take_left]

/-- The packed ego state, with its mode still a byte. -/
theorem egoState_body {python : PythonCodec.EgoState} {body : List UInt8}
    (h : PythonCodec.encodeEgoStateBody python = .ok body) :
    ∃ (state : EgoState) (mode : UInt8), (mode.toNat : ℤ) = python.mode ∧
      { state.values with mode := python.mode } = python ∧
      body = encode state.sampleTimeUs ++ (encode state.sequence ++ (encode state.frameEpoch ++
        (encode state.phaseMrad ++ (encode state.phaseRateMradS ++ (encode state.yawMrad ++
        (encode state.positionEnuMm.1 ++ (encode state.positionEnuMm.2.1 ++
        (encode state.positionEnuMm.2.2 ++ (encode state.velocityEnuMmS.1 ++
        (encode state.velocityEnuMmS.2.1 ++ (encode state.velocityEnuMmS.2.2 ++
        (encode mode ++ encode state.validity)))))))))))) := by
  have hpack := PythonCodec.structPack_ok h
  obtain ⟨sampleTimeUs, r₁, h₁, p₁, rfl⟩ := pack_cons_some UInt64 hpack
  obtain ⟨sequence, r₂, h₂, p₂, rfl⟩ := pack_cons_some UInt32 p₁
  obtain ⟨frameEpoch, r₃, h₃, p₃, rfl⟩ := pack_cons_some UInt16 p₂
  obtain ⟨phaseMrad, r₄, h₄, p₄, rfl⟩ := pack_cons_some Int16 p₃
  obtain ⟨phaseRateMradS, r₅, h₅, p₅, rfl⟩ := pack_cons_some Int16 p₄
  obtain ⟨yawMrad, r₆, h₆, p₆, rfl⟩ := pack_cons_some Int16 p₅
  obtain ⟨east, r₇, h₇, p₇, rfl⟩ := pack_cons_some Int32 p₆
  obtain ⟨north, r₈, h₈, p₈, rfl⟩ := pack_cons_some Int32 p₇
  obtain ⟨up, r₉, h₉, p₉, rfl⟩ := pack_cons_some Int32 p₈
  obtain ⟨velocityEast, r₁₀, h₁₀, p₁₀, rfl⟩ := pack_cons_some Int16 p₉
  obtain ⟨velocityNorth, r₁₁, h₁₁, p₁₁, rfl⟩ := pack_cons_some Int16 p₁₀
  obtain ⟨velocityUp, r₁₂, h₁₂, p₁₂, rfl⟩ := pack_cons_some Int16 p₁₁
  obtain ⟨mode, r₁₃, h₁₃, p₁₃, rfl⟩ := pack_cons_some UInt8 p₁₂
  obtain ⟨validity, r₁₄, h₁₄, p₁₄, rfl⟩ := pack_cons_some UInt16 p₁₃
  obtain rfl : r₁₄ = [] := (Option.some.inj p₁₄).symm
  refine ⟨{ sampleTimeUs, sequence, frameEpoch, phaseMrad, phaseRateMradS, yawMrad
            positionEnuMm := (east, north, up)
            velocityEnuMmS := (velocityEast, velocityNorth, velocityUp)
            validity }, mode, h₁₃, ?_, by simp⟩
  obtain ⟨_, _, _, _, _, _, ⟨_, _, _⟩, ⟨_, _, _⟩, _, _⟩ := python
  simp only at *
  subst h₁ h₂ h₃ h₄ h₅ h₆ h₇ h₈ h₉ h₁₀ h₁₁ h₁₂ h₁₄
  rfl

/-- A command frame carries the packed envelope of its message. -/
theorem framed {sequence : ℤ} {variant : UInt8} {body frame : List UInt8} {message : HostToRadio}
    (h : PythonCodec.encodeHostCommand sequence variant.toNat body = .ok frame)
    (hmessage : encode message = variant :: body) :
    ∃ s : UInt32, (s.toNat : ℤ) = sequence ∧ frame = Cobs.frame
      (protect (encode (HostToRadioEnvelope.mk hostProtocolVersion s message))) := by
  obtain ⟨s, hs, rfl⟩ := PythonCodec.encodeHostCommand_ok variant h
  refine ⟨s, hs, ?_⟩
  change _ = Cobs.frame (protect (encode hostProtocolVersion ++ (encode s ++ encode message)))
  rw [hmessage, encode_uint8 variant]
  rfl

/-- The condition under which the firmware accepts what Python encodes. -/
def ModeKnown (command : PythonCodec.Command) : Prop :=
  ∀ state, command = .egoState state → state.mode ≤ 6

/-- What one side wrote, the other reads with the same field values. -/
def Understood (crates : Crates) (sequence : ℤ) (command : PythonCodec.Command)
    (frame : List UInt8) : Prop :=
  ∃ envelope, decodeHostToRadio crates frame = .ok envelope ∧
    envelope.protocolVersion = hostProtocolVersion ∧ (envelope.sequence.toNat : ℤ) = sequence ∧
    envelope.message.Same command

theorem understood {crates : Crates} (documented : crates.Documented) {sequence : ℤ}
    (variant : UInt8) (message : HostToRadio) {body frame : List UInt8}
    {command : PythonCodec.Command}
    (h : PythonCodec.encodeHostCommand sequence variant.toNat body = .ok frame)
    (hmessage : encode message = variant :: body) (hsame : message.Same command) :
    Understood crates sequence command frame := by
  obtain ⟨s, hs, rfl⟩ := framed h hmessage
  exact ⟨_, decodeHostToRadio_encode documented rfl, rfl, hs, hsame⟩

theorem exists_mode {mode : UInt8} (h : mode.toNat < AvoidanceMode.variants.length) :
    ∃ known : AvoidanceMode, AvoidanceMode.variants.idxOf known = mode.toNat :=
  ⟨AvoidanceMode.variants[mode.toNat], List.Nodup.idxOf_getElem (by decide) _ _⟩

theorem encode_mode {known : AvoidanceMode} {mode : UInt8}
    (h : AvoidanceMode.variants.idxOf known = mode.toNat) : encode known = encode mode := by
  change encode (UInt8.ofNat (AvoidanceMode.variants.idxOf known)) = _
  rw [h, UInt8.ofNat_toNat]

section PythonToRust
variable {crates : Crates} (documented : crates.Documented) {sequence : ℤ} {frame : List UInt8}
include documented

theorem configuration_understood {radio : PythonCodec.RadioConfiguration}
    (h : PythonCodec.encodeConfiguration sequence radio = .ok frame) :
    Understood crates sequence (.configuration radio) frame := by
  obtain ⟨body, hbody, hframe⟩ := Outcome.bind_ok h
  obtain ⟨configuration, hsame, rfl⟩ := configuration_body hbody
  exact understood documented 0 (.configure configuration) hframe rfl hsame

theorem healthRequest_understood {requestId : ℤ}
    (h : PythonCodec.encodeHealthRequest sequence requestId = .ok frame) :
    Understood crates sequence (.healthRequest requestId) frame := by
  obtain ⟨body, hbody, hframe⟩ := Outcome.bind_ok h
  obtain ⟨word, rest, hword, hrest, rfl⟩ := pack_cons_some UInt32 (PythonCodec.structPack_ok hbody)
  obtain rfl : rest = [] := (Option.some.inj hrest).symm
  rw [List.append_nil] at hframe
  exact understood documented 2 (.requestHealth word) hframe rfl hword

theorem clockReply_understood
    {requestId missionRxUs missionTxUs missionGeneration sourceErrorUs : ℤ}
    (h : PythonCodec.encodeClockReply sequence requestId missionRxUs missionTxUs missionGeneration
      sourceErrorUs = .ok frame) :
    Understood crates sequence
      (.clockReply requestId missionRxUs missionTxUs missionGeneration sourceErrorUs) frame := by
  obtain ⟨body, hbody, hframe⟩ := Outcome.bind_ok h
  obtain ⟨id, r₁, h₁, p₁, rfl⟩ := pack_cons_some UInt16 (PythonCodec.structPack_ok hbody)
  obtain ⟨rxUs, r₂, h₂, p₂, rfl⟩ := pack_cons_some UInt64 p₁
  obtain ⟨txUs, r₃, h₃, p₃, rfl⟩ := pack_cons_some UInt64 p₂
  obtain ⟨generation, r₄, h₄, p₄, rfl⟩ := pack_cons_some UInt32 p₃
  obtain ⟨errorUs, r₅, h₅, p₅, rfl⟩ := pack_cons_some UInt32 p₄
  obtain rfl : r₅ = [] := (Option.some.inj p₅).symm
  rw [List.append_nil] at hframe
  exact understood documented 3 (.clockReply id rxUs txUs generation errorUs) hframe rfl
    ⟨h₁, h₂, h₃, h₄, h₅⟩

theorem fleetMode_understood {mode : PythonCodec.FleetMode}
    (h : PythonCodec.encodeFleetMode sequence mode = .ok frame) :
    Understood crates sequence (.fleetMode mode) frame := by
  obtain ⟨body, hbody, hframe⟩ := Outcome.bind_ok h
  obtain ⟨master, r₁, h₁, p₁, rfl⟩ := pack_cons_some UInt8 (PythonCodec.structPack_ok hbody)
  obtain ⟨byte, r₂, h₂, p₂, rfl⟩ := pack_cons_some UInt8 p₁
  obtain rfl : r₂ = [] := (Option.some.inj p₂).symm
  rw [List.append_nil] at hframe
  obtain ⟨network, hnetwork⟩ : ∃ network : FleetNetwork,
      FleetNetwork.variants.idxOf network = byte.toNat := by
    have hbyte : (byte.toNat : ℤ) = mode.network := h₂
    rcases mode.checked with hzero | hone
    · exact ⟨.field, by rw [hzero] at hbyte; exact (Int.ofNat.inj hbyte).symm⟩
    · exact ⟨.internet, by rw [hone] at hbyte; exact (Int.ofNat.inj hbyte).symm⟩
  have hbody : encode (FleetMode.mk master network) = encode master ++ encode byte := by
    change encode master ++ encode (UInt8.ofNat (FleetNetwork.variants.idxOf network)) = _
    rw [hnetwork, UInt8.ofNat_toNat]
  refine understood documented 4 (.broadcastFleetMode ⟨master, network⟩) hframe
    (congrArg (List.cons 4) hbody) ⟨h₁, ?_⟩
  rw [hnetwork]
  exact h₂

theorem egoState_understood {state : PythonCodec.EgoState} (hmode : state.mode ≤ 6)
    (h : PythonCodec.encodeEgoState sequence state = .ok frame) :
    Understood crates sequence (.egoState state) frame := by
  obtain ⟨body, hbody, hframe⟩ := Outcome.bind_ok h
  obtain ⟨base, mode, hvalue, hsame, rfl⟩ := egoState_body hbody
  have hlt : mode.toNat < AvoidanceMode.variants.length := by
    have : AvoidanceMode.variants.length = 7 := rfl
    omega
  obtain ⟨known, hknown⟩ := exists_mode hlt
  refine understood documented 1 (.setEgoState { base with mode := known }) hframe ?_ ?_
  · rw [← encode_mode hknown]
    rfl
  · change EgoState.values { base with mode := known } = state
    rw [← hsame, ← hvalue, ← hknown]
    rfl

/-- A mode byte past the last variant makes the firmware refuse the frame. -/
theorem egoState_refused {state : PythonCodec.EgoState} (hmode : ¬ state.mode ≤ 6)
    (h : PythonCodec.encodeEgoState sequence state = .ok frame) :
    decodeHostToRadio crates frame = .error .hubpack := by
  obtain ⟨body, hbody, hframe⟩ := Outcome.bind_ok h
  obtain ⟨base, mode, hvalue, -, rfl⟩ := egoState_body hbody
  obtain ⟨s, -, rfl⟩ := PythonCodec.encodeHostCommand_ok 1 hframe
  have hunknown : (decode (encode mode ++ encode base.validity) :
      Option (AvoidanceMode × List UInt8)) = none := by
    refine decode_enumeration_none AvoidanceMode.variants ?_ _
    have : AvoidanceMode.variants.length = 7 := rfl
    omega
  refine decodeHostToRadio_refused documented ?_ ?_
  · simp [encode, leBytes, Cobs.maxRun]
  · refine decode_via_none HostToRadioEnvelope.toFields (fun fields => some (.ofFields fields)) ?_
    refine decode_pair_none hostProtocolVersion (decode_pair_none s ?_)
    change decodeAs HostToRadio.setEgoState _ = none
    rw [decodeAs, Option.map_eq_none_iff]
    refine decode_via_none EgoState.toFields (fun fields => some (.ofFields fields)) ?_
    refine decode_pair_none _ (decode_pair_none _ (decode_pair_none _ (decode_pair_none _ ?_)))
    refine decode_pair_none _ (decode_pair_none _ (decode_pair_none _ (decode_pair_none _ ?_)))
    refine decode_pair_none _ (decode_pair_none _ (decode_pair_none _ (decode_pair_none _ ?_)))
    exact decode_pair_none_left hunknown

end PythonToRust

end CodecAgreement

end Mission10.Uwb
