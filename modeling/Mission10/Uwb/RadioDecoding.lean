import Mathlib.Data.List.Chain
import Mathlib.Data.List.Nodup
import Mission10.Uwb.CodecAgreement

/-!
# Firmware messages decoded in Python

Each packed firmware message is unpacked by the Python decoder to the kind named
after its variant and to the values of its fields. Together with the other
direction this is the agreement of the two codecs.
-/
namespace Mission10.Uwb

open Wire StructFormat HostCodec

/-- The name of a diagnostic in the host tools. -/
def Diagnostic.pythonName : Diagnostic → String
  | .rxFcs => "rx_fcs"
  | .rxPhy => "rx_phy"
  | .rxBufferTooSmall => "rx_buffer_too_small"
  | .rxReedSolomon => "rx_reed_solomon"
  | .rxFrameWaitTimeout => "rx_frame_wait_timeout"
  | .rxOverrun => "rx_overrun"
  | .rxPreambleDetectionTimeout => "rx_preamble_detection_timeout"
  | .rxSfdTimeout => "rx_sfd_timeout"
  | .rxFrameFilteringRejection => "rx_frame_filtering_rejection"
  | .spi => "spi"
  | .frameDecode => "frame_decode"
  | .invalidDistance => "invalid_distance"
  | .delayedSendTooLate => "delayed_send_too_late"
  | .delayedSendPowerUpWarning => "delayed_send_power_up_warning"
  | .radioState => "radio_state"
  | .hostFrame => "host_frame"
  | .invalidConfiguration => "invalid_configuration"
  | .malformedAir => "malformed_air"
  | .unexpectedAir => "unexpected_air"
  | .invalidTimestamp => "invalid_timestamp"
  | .unknown => "unknown"
  | .radioReset => "radio_reset"
  | .watchdogReset => "watchdog_reset"

/-- The values of an event time as Python holds them. -/
def MissionEventTime.values : MissionEventTime → PythonCodec.MissionEventTime
  | .unavailable => { missionTimeUs := none }
  | .mapped missionTimeUs generation errorUs =>
    { missionTimeUs := some missionTimeUs.toNat, generation := generation.toNat,
      errorUs := errorUs.toNat }

def CompletedExchange.values (exchange : CompletedExchange) : List PythonCodec.Value :=
  [.int exchange.peer.get.toNat, .int exchange.exchangeId.get.toNat,
    .int exchange.rangeEventTimeDtu.toNat, .missionEventTime exchange.missionEventTime.values,
    .int exchange.millimetres.toNat, .int exchange.rssiCdbm.toInt,
    .int exchange.qualityFlags.toNat, .egoState exchange.state.values]

/-- A firmware message and a Python envelope's kind and fields have the same
values. -/
def RadioToHost.Same : RadioToHost → String × List PythonCodec.Value → Prop
  | .radioId ridtag model version revision, out => out = ("radio_id",
      [.int ridtag.toNat, .int model.toNat, .int version.toNat, .int revision.toNat])
  | .otp txPower antenna xtal revision, out => out = ("otp",
      [.int txPower.toNat, .int antenna.toNat, .int xtal.toNat, .int revision.toNat])
  | .ready rxDelay txDelay, out => out = ("ready", [.int rxDelay.toNat, .int txDelay.toNat])
  | .clockProbe requestId, out => out = ("clock_probe", [.int requestId.toNat])
  | .clockStatus generation errorUs ageUs mapped, out => out = ("clock_status",
      [.int generation.toNat, .int errorUs.toNat, .int ageUs.toNat, .int mapped.toNat])
  | .configured configuration, out => ∃ python : PythonCodec.RadioConfiguration,
      configuration.Same python ∧ out = ("configured", [.configuration python])
  | .completedExchange exchange, out => out = ("completed_exchange", exchange.values)
  | .error diagnostic, out => out = ("error",
      [.diagnostic ⟨Diagnostic.variants.idxOf diagnostic, diagnostic.pythonName⟩])
  | .health requestId counters, out => out = ("health",
      .int requestId.toNat :: counters.toVector.toList.map fun counter => .int counter.toNat)
  | .fleetModeReceived source mode, out => ∃ python : PythonCodec.FleetMode,
      mode.Same python ∧ out = ("fleet_mode_received", [.int source.get.toNat, .fleetMode python])

namespace RadioDecoding

open PythonCodec (PyException structUnpack structUnpackFrom)

theorem structUnpack_some {items : List Item} {bytes : List UInt8} {values : List ℤ}
    (h : unpack items bytes = some values) : structUnpack items bytes = .ok values := by
  simp [structUnpack, h]

theorem structUnpackFrom_zero {items : List Item} {front rest : List UInt8} {values : List ℤ}
    (hlen : front.length = calcsize items) (h : unpack items front = some values) :
    structUnpackFrom items (front ++ rest) 0 = .ok values := by
  simp [structUnpackFrom, unpackFrom_append hlen, h]

theorem structUnpackFrom_skip {items : List Item} (before rest : List UInt8)
    {front : List UInt8} {values : List ℤ} {offset : ℕ} (hoffset : before.length = offset)
    (hlen : front.length = calcsize items) (h : unpack items front = some values) :
    structUnpackFrom items (before ++ (front ++ rest)) offset = .ok values := by
  subst hoffset
  simp [structUnpackFrom, unpackFrom_append hlen, h]

theorem decodePayload_protect {payload : List UInt8} (h : 6 ≤ payload.length) :
    PythonCodec.decodePayload (Cobs.frame (protect payload)) = .ok payload := by
  have hlen : (protect payload).length = payload.length + 4 := by simp [protect]
  have hcrc : structUnpack [.I] (leBytes 4 (Crc32.checksum payload).toNat) =
      .ok [((Crc32.checksum payload).toNat : ℤ)] :=
    structUnpack_some (unpack_singleton_encode (Crc32.checksum payload))
  have hlong : ¬ (protect payload).length < 10 := by omega
  unfold PythonCodec.decodePayload
  rw [PythonCodec.cobsDecode_frame]
  simp only [bind, Except.bind, hlen, if_neg (hlen ▸ hlong), Nat.add_sub_cancel]
  rw [protect, List.take_left, List.drop_left, hcrc]
  simp

/-- A frame is decoded once its body is. -/
theorem decodeFrame_protect {sequence : UInt32} {message : RadioToHost} {variant : UInt8}
    {body : List UInt8} {out : String × List PythonCodec.Value}
    (hmessage : encode message = variant :: body)
    (hbody : PythonCodec.decodeBody variant.toNat body = .ok out) :
    PythonCodec.decodeFrame (Cobs.frame
      (protect (encode (RadioToHostEnvelope.mk hostProtocolVersion sequence message)))) =
      .ok ⟨9, sequence.toNat, out.1, out.2⟩ := by
  have hpayload : encode (RadioToHostEnvelope.mk hostProtocolVersion sequence message) =
      (encode hostProtocolVersion ++ (encode sequence ++ encode variant)) ++ body := by
    change encode hostProtocolVersion ++ (encode sequence ++ encode message) = _
    rw [hmessage, encode_uint8 variant]
    simp
  have hheader : unpack [.B, .I, .B]
      (encode hostProtocolVersion ++ (encode sequence ++ encode variant)) =
      some [9, (sequence.toNat : ℤ), (variant.toNat : ℤ)] := by
    simp only [unpack_cons_encode, unpack_singleton_encode, Option.map_some]
    rfl
  have hlen : (encode hostProtocolVersion ++ (encode sequence ++ encode variant)).length =
      calcsize [.B, .I, .B] := rfl
  have hdrop : ((encode hostProtocolVersion ++ (encode sequence ++ encode variant)) ++ body).drop 6 =
      body := List.drop_left' hlen
  unfold PythonCodec.decodeFrame
  rw [hpayload, decodePayload_protect (by rw [List.length_append, hlen]; exact Nat.le_add_right 6 _)]
  simp only [bind, Except.bind, structUnpackFrom_zero hlen hheader]
  simp only [hdrop, hbody]
  rfl

/-- A body that is one packed record. -/
theorem decodeBody_fixed (variant : ℤ) {kind : String} {items : List Item} {body : List UInt8}
    {values : List ℤ} (hformat : PythonCodec.fixedFormats variant = some (kind, items))
    (hvariant : variant ≠ 5 ∧ variant ≠ 6 ∧ variant ≠ 7 ∧ variant ≠ 9)
    (hlen : body.length = calcsize items) (hvalues : unpack items body = some values) :
    PythonCodec.decodeBody variant body = .ok (kind, values.map .int) := by
  obtain ⟨h5, h6, h7, h9⟩ := hvariant
  simp [PythonCodec.decodeBody, h5, h6, h7, h9, hformat, hlen, structUnpack_some hvalues, bind,
    Except.bind]

theorem egoState_decoded (state : EgoState) :
    PythonCodec.decodeEgoState (encode state) = .ok state.values := by
  have hlen : (encode state).length = PythonCodec.egoStateSize := rfl
  have hunpack : unpack PythonCodec.egoStateFormat (encode state) =
      some [(state.sampleTimeUs.toNat : ℤ), state.sequence.toNat, state.frameEpoch.toNat,
        state.phaseMrad.toInt, state.phaseRateMradS.toInt, state.yawMrad.toInt,
        state.positionEnuMm.1.toInt, state.positionEnuMm.2.1.toInt, state.positionEnuMm.2.2.toInt,
        state.velocityEnuMmS.1.toInt, state.velocityEnuMmS.2.1.toInt,
        state.velocityEnuMmS.2.2.toInt, AvoidanceMode.variants.idxOf state.mode,
        state.validity.toNat] := by
    change unpack [.Q, .I, .H, .h, .h, .h, .i, .i, .i, .h, .h, .h, .B, .H]
      (encode state.sampleTimeUs ++ (encode state.sequence ++ (encode state.frameEpoch ++
        (encode state.phaseMrad ++ (encode state.phaseRateMradS ++ (encode state.yawMrad ++
        (encode state.positionEnuMm.1 ++ (encode state.positionEnuMm.2.1 ++
        (encode state.positionEnuMm.2.2 ++ (encode state.velocityEnuMmS.1 ++
        (encode state.velocityEnuMmS.2.1 ++ (encode state.velocityEnuMmS.2.2 ++
        (encode (UInt8.ofNat (AvoidanceMode.variants.idxOf state.mode)) ++
          encode state.validity))))))))))))) = _
    simp only [unpack_cons_encode, unpack_singleton_encode, Option.map_some]
    cases state.mode <;> rfl
  unfold PythonCodec.decodeEgoState
  rw [if_neg (not_not.mpr hlen), structUnpack_some hunpack]
  rfl

/-- The first three fields of a completed exchange. -/
abbrev exchangeHeader (exchange : CompletedExchange) : List UInt8 :=
  encode exchange.peer.get ++ (encode exchange.exchangeId.get ++ encode exchange.rangeEventTimeDtu)

/-- The three fields between the event time and the state. -/
abbrev exchangeTail (exchange : CompletedExchange) : List UInt8 :=
  encode exchange.millimetres ++ (encode exchange.rssiCdbm ++ encode exchange.qualityFlags)

theorem missionEventTime_decoded (exchange : CompletedExchange) (rest : List UInt8) :
    PythonCodec.decodeMissionEventTime
      (exchangeHeader exchange ++ (encode exchange.missionEventTime ++ rest)) =
      .ok (exchange.missionEventTime.values, 12 + (encode exchange.missionEventTime).length) := by
  cases htime : exchange.missionEventTime with
  | unavailable => rfl
  | mapped missionTimeUs generation errorUs =>
    let mapping := encode missionTimeUs ++ (encode generation ++ encode errorUs)
    have hbody : exchangeHeader exchange ++
        (encode (MissionEventTime.mapped missionTimeUs generation errorUs) ++ rest) =
        (exchangeHeader exchange ++ [1]) ++ (mapping ++ rest) := by
      change _ ++ (1 :: mapping ++ rest) = _
      simp
    have htag : ((exchangeHeader exchange ++ [1]) ++ (mapping ++ rest))[12]? = some 1 := rfl
    have hmapping : unpack PythonCodec.mappingFormat mapping =
        some [(missionTimeUs.toNat : ℤ), generation.toNat, errorUs.toNat] := by
      change unpack [.Q, .I, .I] _ = _
      simp only [mapping, unpack_cons_encode, unpack_singleton_encode, Option.map_some]
      rfl
    have hread := structUnpackFrom_skip (exchangeHeader exchange ++ [1]) rest rfl rfl hmapping
    have hlong : ¬ ((exchangeHeader exchange ++ [1]) ++ (mapping ++ rest)).length < 29 := by
      have hfront : (exchangeHeader exchange ++ [1]).length = 13 := rfl
      have hmap : mapping.length = 16 := rfl
      have hrest : (mapping ++ rest).length = 16 + rest.length := by
        rw [List.length_append, hmap]
      rw [List.length_append, hfront, hrest]
      omega
    have hheader : calcsize PythonCodec.exchangeHeaderFormat = 12 := rfl
    have hsize : calcsize PythonCodec.mappingFormat = 16 := rfl
    have hoffset : (exchangeHeader exchange ++ [1]).length = 13 := rfl
    rw [hbody]
    rw [hoffset] at hread
    unfold PythonCodec.decodeMissionEventTime
    simp only [hheader, hsize, htag, if_neg hlong, hread, bind, Except.bind]
    rfl

/-- The parts of a completed exchange, read one after the other. -/
theorem decodeCompletedExchange_parts {body : List UInt8} {header tail : List ℤ}
    {time : PythonCodec.MissionEventTime} {offset : ℕ} {state : PythonCodec.EgoState}
    (hheader : structUnpackFrom PythonCodec.exchangeHeaderFormat body 0 = .ok header)
    (htime : PythonCodec.decodeMissionEventTime body = .ok (time, offset))
    (hlen : body.length = offset + 49) (hoffset : 12 ≤ offset)
    (htail : structUnpackFrom PythonCodec.exchangeTailFormat body offset = .ok tail)
    (hstate : PythonCodec.decodeEgoState (body.drop (offset + 8)) = .ok state) :
    PythonCodec.decodeCompletedExchange body = .ok (header.map .int ++ [.missionEventTime time] ++
      tail.map .int ++ [.egoState state]) := by
  have hheaderSize : calcsize PythonCodec.exchangeHeaderFormat = 12 := rfl
  have htailSize : calcsize PythonCodec.exchangeTailFormat = 8 := rfl
  have hstateSize : PythonCodec.egoStateSize = 41 := rfl
  have hlen' : body.length = offset + 8 + 41 := by omega
  have hlong : ¬ offset + 8 + 41 < 12 + 1 := by omega
  unfold PythonCodec.decodeCompletedExchange
  simp [hheaderSize, htailSize, hstateSize, hheader, htime, hlen', htail, hstate, bind,
    Except.bind]

theorem completedExchange_decoded (exchange : CompletedExchange) :
    PythonCodec.decodeCompletedExchange (encode exchange) = .ok exchange.values := by
  have hbody : encode exchange = exchangeHeader exchange ++ (encode exchange.missionEventTime ++
      (exchangeTail exchange ++ encode exchange.state)) := by
    change encode exchange.peer.get ++ (encode exchange.exchangeId.get ++
      (encode exchange.rangeEventTimeDtu ++ (encode exchange.missionEventTime ++
        (encode exchange.millimetres ++ (encode exchange.rssiCdbm ++
          (encode exchange.qualityFlags ++ encode exchange.state)))))) = _
    simp
  have hheader : unpack PythonCodec.exchangeHeaderFormat (exchangeHeader exchange) =
      some [(exchange.peer.get.toNat : ℤ), exchange.exchangeId.get.toNat,
        exchange.rangeEventTimeDtu.toNat] := by
    change unpack [.H, .H, .Q] _ = _
    simp only [exchangeHeader, unpack_cons_encode, unpack_singleton_encode, Option.map_some]
    rfl
  have htail : unpack PythonCodec.exchangeTailFormat (exchangeTail exchange) =
      some [(exchange.millimetres.toNat : ℤ), exchange.rssiCdbm.toInt,
        exchange.qualityFlags.toNat] := by
    change unpack [.I, .h, .H] _ = _
    simp only [exchangeTail, unpack_cons_encode, unpack_singleton_encode, Option.map_some]
    rfl
  have hfront : (exchangeHeader exchange ++ encode exchange.missionEventTime).length =
      12 + (encode exchange.missionEventTime).length := List.length_append
  have hstate : (encode exchange).drop (12 + (encode exchange.missionEventTime).length + 8) =
      encode exchange.state := by
    have hsplit : encode exchange = (exchangeHeader exchange ++ encode exchange.missionEventTime ++
        exchangeTail exchange) ++ encode exchange.state := by rw [hbody]; simp
    rw [hsplit]
    apply List.drop_left'
    rw [List.length_append, hfront]
    rfl
  have hlen : (encode exchange).length = 12 + (encode exchange.missionEventTime).length + 49 := by
    rw [hbody, ← List.append_assoc, List.length_append, hfront]
    rfl
  have hreadHeader : structUnpackFrom PythonCodec.exchangeHeaderFormat (encode exchange) 0 =
      .ok [(exchange.peer.get.toNat : ℤ), exchange.exchangeId.get.toNat,
        exchange.rangeEventTimeDtu.toNat] := by
    rw [hbody]
    exact structUnpackFrom_zero rfl hheader
  have hreadTime : PythonCodec.decodeMissionEventTime (encode exchange) =
      .ok (exchange.missionEventTime.values, 12 + (encode exchange.missionEventTime).length) := by
    rw [hbody]
    exact missionEventTime_decoded exchange _
  have hreadTail : structUnpackFrom PythonCodec.exchangeTailFormat (encode exchange)
      (12 + (encode exchange.missionEventTime).length) =
      .ok [(exchange.millimetres.toNat : ℤ), exchange.rssiCdbm.toInt,
        exchange.qualityFlags.toNat] := by
    rw [hbody, ← List.append_assoc]
    exact structUnpackFrom_skip _ _ hfront rfl htail
  have hreadState : PythonCodec.decodeEgoState
      ((encode exchange).drop (12 + (encode exchange.missionEventTime).length + 8)) =
      .ok exchange.state.values := by
    rw [hstate]
    exact egoState_decoded exchange.state
  exact decodeCompletedExchange_parts hreadHeader hreadTime hlen (Nat.le_add_right 12 _) hreadTail
    hreadState

/-- The firmware's roster check is the check Python makes. -/
theorem checked_of_roster {node : NodeAddress} {peers : List NodeAddress}
    (h : (FlightRoster.new node peers).isSome = true) :
    PythonCodec.RadioConfiguration.Checked node.get.toNat
      (peers.map fun peer => (peer.get.toNat : ℤ)) := by
  have haddress : ∀ address : NodeAddress,
      PythonCodec.isNodeAddress address.get.toNat = true := by
    intro address
    have hvalid := address.valid
    simp only [UInt16.le_iff_toNat_le, UInt16.reduceToNat] at hvalid
    simp only [PythonCodec.isNodeAddress, decide_eq_true_eq]
    omega
  have hinjective : Function.Injective fun peer : NodeAddress => (peer.get.toNat : ℤ) :=
    fun a b hab => NodeAddress.ext_get (UInt16.toNat_inj.mp (Int.ofNat.inj hab))
  unfold FlightRoster.new at h
  dsimp only at h
  split_ifs at h with hpeers hroster
  · cases h
  · push Not at hpeers
    obtain ⟨hne, hlen, hmem⟩ := hpeers
    have hnodup : (node :: peers).Nodup := by
      have hsorted : ((node :: peers).mergeSort fun a b => decide (a ≤ b)).Nodup := by
        refine (List.isChain_iff_pairwise.mp hroster.2).imp ?_
        rintro a b hlt rfl
        exact NodeAddress.lt_irrefl a hlt
      exact (List.mergeSort_perm _ _).nodup_iff.mp hsorted
    refine ⟨haddress node, ?_, ?_, ?_, ?_, ?_⟩
    · rw [List.length_map]
      exact List.length_pos_iff.mpr hne
    · rw [List.length_map]
      exact Nat.le_of_lt_succ hlen
    · intro value hvalue
      obtain ⟨peer, -, rfl⟩ := List.mem_map.mp hvalue
      exact haddress peer
    · intro hin
      obtain ⟨peer, hpeer, heq⟩ := List.mem_map.mp hin
      exact hmem (hinjective heq ▸ hpeer)
    · exact List.Nodup.map hinjective (List.nodup_cons.mp hnodup).2
  · cases h

theorem configuration_decoded {configuration : RadioConfiguration} (h : configuration.isValid) :
    ∃ python : PythonCodec.RadioConfiguration, configuration.Same python ∧
      PythonCodec.decodeConfiguration (encode configuration) = .ok python := by
  obtain ⟨node, count, peers⟩ := configuration
  have hcount : count.toNat ≤ maxPeers := by
    by_contra hlong
    simp [RadioConfiguration.isValid, RadioConfiguration.roster, RadioConfiguration.peerSlice,
      hlong] at h
  let used := (peers.toList.take count.toNat).map fun peer => (peer.get.toNat : ℤ)
  have hslice : RadioConfiguration.peerSlice ⟨node, count, peers⟩ =
      some (peers.toList.take count.toNat) := if_pos hcount
  have hchecked : PythonCodec.RadioConfiguration.Checked node.get.toNat used := by
    apply checked_of_roster
    simpa [RadioConfiguration.isValid, RadioConfiguration.roster, hslice] using h
  have hnone := PythonCodec.configurationError_eq_none.mpr hchecked
  refine ⟨⟨node.get.toNat, used, hnone⟩, ⟨rfl, by rw [hslice]; rfl⟩, ?_⟩
  have hslots := unpack_replicate (peers.toList.map NodeAddress.get)
  have hunpack : unpack PythonCodec.configurationFormat
      (encode (RadioConfiguration.mk node count peers)) =
      some ((node.get.toNat : ℤ) :: count.toNat ::
        peers.toList.map fun peer => (peer.get.toNat : ℤ)) := by
    change unpack (.H :: .B :: List.replicate 5 .H)
      (encode node.get ++ (encode count ++ peers.toList.flatMap fun peer => encode peer.get)) = _
    rw [List.length_map, Vector.length_toList, List.flatMap_map] at hslots
    rw [unpack_cons_encode, unpack_cons_encode, show (5 : ℕ) = maxPeers from rfl, hslots,
      List.map_map]
    rfl
  have hlen : (encode (RadioConfiguration.mk node count peers)).length =
      PythonCodec.configurationSize := by
    change (encode node.get ++ (encode count ++
      peers.toList.flatMap fun peer => encode peer.get)).length = _
    have hwidth : ∀ peer : NodeAddress, (encode peer.get).length = 2 := fun _ => rfl
    have hflat : (peers.toList.flatMap fun peer => encode peer.get).length = 10 := by
      rw [List.length_flatMap]
      simp only [hwidth, List.map_const', List.sum_replicate, Vector.length_toList]
      rfl
    rw [List.length_append, List.length_append, hflat]
    rfl
  have hnew : PythonCodec.RadioConfiguration.new node.get.toNat used =
      .ok ⟨node.get.toNat, used, hnone⟩ := by
    unfold PythonCodec.RadioConfiguration.new
    split
    next => rfl
    next message hsome => rw [hnone] at hsome; cases hsome
  have hfits : ¬ (PythonCodec.maxPeers : ℤ) < (count.toNat : ℤ) :=
    fun hlt => absurd (Int.ofNat_lt.mp hlt) (Nat.not_lt.mpr hcount)
  unfold PythonCodec.decodeConfiguration
  rw [if_neg (not_not.mpr hlen), structUnpack_some hunpack]
  simp only [bind, Except.bind, if_neg hfits, Int.toNat_natCast, ← List.map_take]
  rw [hnew]
  rfl

theorem fleetMode_decoded (source : NodeAddress) (mode : FleetMode) :
    ∃ python : PythonCodec.FleetMode, mode.Same python ∧
      PythonCodec.decodeBody 9 (encode (source, mode)) =
        .ok ("fleet_mode_received", [.int source.get.toNat, .fleetMode python]) := by
  obtain ⟨master, network⟩ := mode
  have hnetwork : (FleetNetwork.variants.idxOf network : ℤ) = 0 ∨
      (FleetNetwork.variants.idxOf network : ℤ) = 1 := by cases network <;> decide
  refine ⟨⟨master.toNat, FleetNetwork.variants.idxOf network, hnetwork⟩, ⟨rfl, rfl⟩, ?_⟩
  have hunpack : unpack [.H, .B, .B] (encode (source, FleetMode.mk master network)) =
      some [(source.get.toNat : ℤ), master.toNat, FleetNetwork.variants.idxOf network] := by
    change unpack [.H, .B, .B] (encode source.get ++ (encode master ++
      encode (UInt8.ofNat (FleetNetwork.variants.idxOf network)))) = _
    simp only [unpack_cons_encode, unpack_singleton_encode, Option.map_some]
    cases network <;> rfl
  have hlen : ¬ (encode (source, FleetMode.mk master network)).length ≠ 4 := not_not.mpr rfl
  have hnew : PythonCodec.FleetMode.new master.toNat (FleetNetwork.variants.idxOf network) =
      .ok ⟨master.toNat, FleetNetwork.variants.idxOf network, hnetwork⟩ := dif_pos hnetwork
  simp [PythonCodec.decodeBody, hlen, structUnpack_some hunpack, hnew, PythonCodec.asFrameError,
    bind, Except.bind]

theorem health_decoded (requestId : UInt32) (counters : HealthCounters) :
    PythonCodec.decodeBody 8 (encode (requestId, counters)) = .ok ("health",
      .int requestId.toNat :: counters.toVector.toList.map fun counter => .int counter.toNat) := by
  have hunpack := unpack_replicate (requestId :: counters.toVector.toList)
  rw [List.map_cons] at hunpack
  have hbody := decodeBody_fixed 8 rfl (by decide) rfl hunpack
  rw [List.map_cons, List.map_map] at hbody
  exact hbody

/-- Every message body is decoded to the values of its message. -/
theorem decodeBody_encode (message : RadioToHost)
    (hvalid : ∀ configuration, message = .configured configuration → configuration.isValid) :
    ∃ (variant : UInt8) (body : List UInt8) (out : String × List PythonCodec.Value),
      encode message = variant :: body ∧
        PythonCodec.decodeBody variant.toNat body = .ok out ∧ message.Same out := by
  cases message with
  | radioId ridtag model version revision =>
    let values : List ℤ := [ridtag.toNat, model.toNat, version.toNat, revision.toNat]
    refine ⟨0, _, ("radio_id", values.map .int), rfl, decodeBody_fixed _ rfl (by decide) rfl ?_, rfl⟩
    simp only [encode_pair, unpack_cons_encode, unpack_singleton_encode, Option.map_some]
    rfl
  | otp txPower antenna xtal revision =>
    let values : List ℤ := [txPower.toNat, antenna.toNat, xtal.toNat, revision.toNat]
    refine ⟨1, _, ("otp", values.map .int), rfl, decodeBody_fixed _ rfl (by decide) rfl ?_, rfl⟩
    simp only [encode_pair, unpack_cons_encode, unpack_singleton_encode, Option.map_some]
    rfl
  | ready rxDelay txDelay =>
    let values : List ℤ := [rxDelay.toNat, txDelay.toNat]
    refine ⟨2, _, ("ready", values.map .int), rfl, decodeBody_fixed _ rfl (by decide) rfl ?_, rfl⟩
    simp only [encode_pair, unpack_cons_encode, unpack_singleton_encode, Option.map_some]
    rfl
  | clockProbe requestId =>
    let values : List ℤ := [requestId.toNat]
    refine ⟨3, _, ("clock_probe", values.map .int), rfl, decodeBody_fixed _ rfl (by decide) rfl ?_,
      rfl⟩
    rw [unpack_singleton_encode]
    rfl
  | clockStatus generation errorUs ageUs mapped =>
    let values : List ℤ := [generation.toNat, errorUs.toNat, ageUs.toNat, mapped.toNat]
    refine ⟨4, _, ("clock_status", values.map .int), rfl, decodeBody_fixed _ rfl (by decide) rfl ?_,
      rfl⟩
    change unpack [.I, .I, .I, .B] (encode generation ++ (encode errorUs ++ (encode ageUs ++
      encode mapped.toUInt8))) = _
    simp only [unpack_cons_encode, unpack_singleton_encode, Option.map_some]
    cases mapped <;> rfl
  | configured configuration =>
    obtain ⟨python, hsame, hdecode⟩ := configuration_decoded (hvalid configuration rfl)
    refine ⟨5, _, ("configured", [.configuration python]), rfl, ?_, python, hsame, rfl⟩
    change (PythonCodec.decodeConfiguration (encode configuration) >>= _) = _
    rw [hdecode]
    rfl
  | completedExchange exchange =>
    refine ⟨6, _, ("completed_exchange", exchange.values), rfl, ?_, rfl⟩
    change (PythonCodec.decodeCompletedExchange (encode exchange) >>= _) = _
    rw [completedExchange_decoded]
    rfl
  | error diagnostic =>
    refine ⟨7, _, _, rfl, ?_, rfl⟩
    cases diagnostic <;> rfl
  | health requestId counters =>
    exact ⟨8, _, _, rfl, health_decoded requestId counters, rfl⟩
  | fleetModeReceived source mode =>
    obtain ⟨python, hsame, hdecode⟩ := fleetMode_decoded source mode
    exact ⟨9, _, _, rfl, hdecode, python, hsame, rfl⟩

end RadioDecoding

namespace CodecAgreement

variable {crates : Crates} (documented : crates.Documented)
include documented

/-- The firmware understands what Python encodes exactly when the mode of an ego
state is one it knows. -/
theorem command_understood_iff {sequence : ℤ} {command : PythonCodec.Command}
    {frame : List UInt8} (h : command.encode sequence = .ok frame) :
    Understood crates sequence command frame ↔ ModeKnown command := by
  cases command with
  | configuration radio =>
    exact iff_of_true (configuration_understood documented h) fun _ heq => by cases heq
  | healthRequest requestId =>
    exact iff_of_true (healthRequest_understood documented h) fun _ heq => by cases heq
  | clockReply requestId missionRxUs missionTxUs missionGeneration sourceErrorUs =>
    exact iff_of_true (clockReply_understood documented h) fun _ heq => by cases heq
  | fleetMode mode =>
    exact iff_of_true (fleetMode_understood documented h) fun _ heq => by cases heq
  | egoState state =>
    constructor
    · rintro ⟨envelope, hdecode, -⟩ other heq
      cases heq
      by_contra hmode
      rw [egoState_refused documented hmode h] at hdecode
      cases hdecode
    · intro hmode
      exact egoState_understood documented (hmode state rfl) h

theorem message_decoded (sequence : UInt32) {message : RadioToHost}
    (hvalid : ∀ configuration, message = .configured configuration → configuration.isValid) :
    ∃ frame envelope,
      encodeRadioToHost crates ⟨hostProtocolVersion, sequence, message⟩ = .ok frame ∧
      PythonCodec.decodeFrame frame = .ok envelope ∧ envelope.protocolVersion = 9 ∧
      envelope.sequence = sequence.toNat ∧ message.Same (envelope.kind, envelope.fields) := by
  obtain ⟨variant, body, out, hmessage, hbody, hsame⟩ :=
    RadioDecoding.decodeBody_encode message hvalid
  refine ⟨_, _, encodeEnvelope_ok documented _ (Nat.le_max_right _ _),
    RadioDecoding.decodeFrame_protect hmessage hbody, rfl, rfl, hsame⟩

/-- Both directions of the host stream. -/
theorem codecs_agree :
    (∀ (sequence : ℤ) (command : PythonCodec.Command) (frame : List UInt8),
      command.encode sequence = .ok frame →
        (Understood crates sequence command frame ↔ ModeKnown command)) ∧
    ∀ (sequence : UInt32) (message : RadioToHost),
      (∀ configuration, message = .configured configuration → configuration.isValid) →
      ∃ frame envelope,
        encodeRadioToHost crates ⟨hostProtocolVersion, sequence, message⟩ = .ok frame ∧
        PythonCodec.decodeFrame frame = .ok envelope ∧ envelope.protocolVersion = 9 ∧
        envelope.sequence = sequence.toNat ∧ message.Same (envelope.kind, envelope.fields) :=
  ⟨fun _ _ _ h => command_understood_iff documented h,
    fun sequence _ hvalid => message_decoded documented sequence hvalid⟩

omit documented in
theorem exists_of_isOk {α : Type} {outcome : Except PythonCodec.PyException α}
    (h : outcome.isOk = true) : ∃ a, outcome = .ok a := by
  cases outcome with
  | error exception => cases h
  | ok a => exact ⟨a, rfl⟩

omit documented in
/-- A clock reply crosses both codecs. -/
theorem codecs_agree_clockReply :
    ∃ frame, (PythonCodec.Command.clockReply 1 2 3 4 5).encode 6 = .ok frame ∧
      Understood Crates.reference 6 (.clockReply 1 2 3 4 5) frame := by
  have hok : ((PythonCodec.Command.clockReply 1 2 3 4 5).encode 6).isOk = true := by
    decide +kernel
  obtain ⟨frame, hframe⟩ := exists_of_isOk hok
  exact ⟨frame, hframe,
    ((codecs_agree Crates.reference_documented).1 _ _ _ hframe).mpr fun _ heq => by cases heq⟩

omit documented in
/-- Mode 7 is encoded and then refused. -/
theorem unknown_mode_refused :
    ∃ frame, (PythonCodec.Command.egoState { mode := 7 }).encode 1 = .ok frame ∧
      ¬ Understood Crates.reference 1 (.egoState { mode := 7 }) frame := by
  have hok : ((PythonCodec.Command.egoState { mode := 7 }).encode 1).isOk = true := by
    decide +kernel
  obtain ⟨frame, hframe⟩ := exists_of_isOk hok
  refine ⟨frame, hframe, ?_⟩
  rintro ⟨envelope, hdecode, -⟩
  rw [egoState_refused Crates.reference_documented (by decide) hframe] at hdecode
  cases hdecode

end CodecAgreement

end Mission10.Uwb
