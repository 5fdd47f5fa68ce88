import Mission10.Uwb.CodecAgreement

/-!
# Totality of the frame decoder

Whatever bytes arrive, the Python decoder returns an envelope or raises a frame
error: every unpacking is behind a check of the length it needs, and the checks of
the constructors are raised again as frame errors. The stuffing below it is undone
exactly, and refuses what no stuffing produces with the same error.
-/
namespace Mission10.Uwb.PythonCodec

open StructFormat

/-- The computation raises nothing but frame errors. -/
def Total {α : Type} (outcome : Except PyException α) : Prop :=
  ∀ raised, outcome = .error raised → ∃ message, raised = .frameError message

section Outcomes
variable {α β : Type}

theorem total_ok (a : α) : Total (.ok a : Except PyException α) := fun _ h => by cases h

theorem total_frameError (message : String) :
    Total (.error (.frameError message) : Except PyException α) := by
  intro raised h
  cases h
  exact ⟨message, rfl⟩

theorem Total.bind {outcome : Except PyException α} {next : α → Except PyException β}
    (h : Total outcome) (hnext : ∀ a, outcome = .ok a → Total (next a)) :
    Total (outcome >>= next) := by
  cases houtcome : outcome with
  | error raised =>
    intro raised' hraised
    cases hraised
    exact h raised houtcome
  | ok a => exact hnext a houtcome

theorem Total.map {outcome : Except PyException α} (h : Total outcome) (f : α → β) :
    Total (outcome.map f) := by
  cases houtcome : outcome with
  | error raised =>
    intro raised' hraised
    cases hraised
    exact h raised houtcome
  | ok a => exact total_ok (f a)

/-- A constructor's error is raised again as a frame error. -/
theorem total_asFrameError {outcome : Except PyException α}
    (h : ∀ raised, outcome = .error raised → ∃ message, raised = .valueError message) :
    Total (asFrameError outcome) := by
  cases houtcome : outcome with
  | ok a => exact total_ok a
  | error raised =>
    obtain ⟨message, rfl⟩ := h raised houtcome
    exact total_frameError message

/-- A total computation ends in one of the two ways. -/
theorem Total.cases {outcome : Except PyException α} (h : Total outcome) :
    (∃ a, outcome = .ok a) ∨ ∃ message, outcome = .error (.frameError message) := by
  cases houtcome : outcome with
  | ok a => exact Or.inl ⟨a, rfl⟩
  | error raised =>
    obtain ⟨message, rfl⟩ := h raised houtcome
    exact Or.inr ⟨message, rfl⟩

end Outcomes

/-! ### Unpacking -/

theorem unpack_total {items : List Item} {bytes : List UInt8} (h : bytes.length = calcsize items) :
    ∃ values, unpack items bytes = some values ∧ values.length = items.length := by
  induction items generalizing bytes with
  | nil =>
    rw [List.eq_nil_of_length_eq_zero h]
    exact ⟨[], rfl, rfl⟩
  | cons item items ih =>
    have hsize : calcsize (item :: items) = item.width + calcsize items := by
      simp [calcsize]
    obtain ⟨values, hvalues, hcount⟩ := @ih (bytes.drop item.width) (by
      rw [List.length_drop, h, hsize, Nat.add_sub_cancel_left])
    refine ⟨item.unpack (bytes.take item.width) :: values, ?_, by simp [hcount]⟩
    rw [unpack, Wire.takeExact, if_pos (by omega), Option.bind_some, hvalues]
    rfl

theorem structUnpack_total {items : List Item} {bytes : List UInt8}
    (h : bytes.length = calcsize items) :
    ∃ values, structUnpack items bytes = .ok values ∧ values.length = items.length := by
  obtain ⟨values, hvalues, hcount⟩ := unpack_total h
  exact ⟨values, by rw [structUnpack, hvalues], hcount⟩

theorem structUnpackFrom_total {items : List Item} {bytes : List UInt8} {offset : ℕ}
    (h : offset + calcsize items ≤ bytes.length) :
    ∃ values, structUnpackFrom items bytes offset = .ok values ∧
      values.length = items.length := by
  obtain ⟨values, hvalues, hcount⟩ := @unpack_total items
    ((bytes.drop offset).take (calcsize items)) (by
      rw [List.length_take, List.length_drop]
      omega)
  exact ⟨values, by rw [structUnpackFrom, unpackFrom, hvalues], hcount⟩

/-! ### The parts of a frame -/

theorem decodeEgoState_total (payload : List UInt8) : Total (decodeEgoState payload) := by
  unfold decodeEgoState
  by_cases hlen : payload.length = egoStateSize
  · rw [if_neg (not_not.mpr hlen)]
    obtain ⟨values, hvalues, hcount⟩ := structUnpack_total hlen
    rw [hvalues]
    match values, hcount with
    | [_, _, _, _, _, _, _, _, _, _, _, _, _, _], _ => exact total_ok _
  · rw [if_pos hlen]
    exact total_frameError _

theorem radioConfiguration_error {nodeAddress : ℤ} {peers : List ℤ} {raised : PyException}
    (h : RadioConfiguration.new nodeAddress peers = .error raised) :
    ∃ message, raised = .valueError message := by
  unfold RadioConfiguration.new at h
  split at h
  · cases h
  · cases h
    exact ⟨_, rfl⟩

theorem fleetMode_error {master network : ℤ} {raised : PyException}
    (h : FleetMode.new master network = .error raised) :
    ∃ message, raised = .valueError message := by
  unfold FleetMode.new at h
  split_ifs at h
  cases h
  exact ⟨_, rfl⟩

theorem decodeConfiguration_total (payload : List UInt8) : Total (decodeConfiguration payload) := by
  unfold decodeConfiguration
  by_cases hlen : payload.length = configurationSize
  · rw [if_neg (not_not.mpr hlen)]
    obtain ⟨values, hvalues, hcount⟩ := structUnpack_total hlen
    rw [hvalues]
    match values, hcount with
    | [nodeAddress, peerCount, _, _, _, _, _], _ =>
      show Total (if (maxPeers : ℤ) < peerCount then _ else _)
      by_cases hmany : (maxPeers : ℤ) < peerCount
      · rw [if_pos hmany]
        exact total_frameError _
      · rw [if_neg hmany]
        exact total_asFrameError fun raised h => radioConfiguration_error h
  · rw [if_pos hlen]
    exact total_frameError _

/-- The variant byte of the event time is within the body when the header is. -/
theorem decodeMissionEventTime_total {body : List UInt8}
    (h : calcsize exchangeHeaderFormat < body.length) : Total (decodeMissionEventTime body) := by
  unfold decodeMissionEventTime
  dsimp only
  rw [List.getElem?_eq_getElem h]
  split
  · rename_i hnone
    cases hnone
  · exact total_ok _
  · by_cases hshort : body.length < calcsize exchangeHeaderFormat + 1 + calcsize mappingFormat
    · rw [if_pos hshort]
      exact total_frameError _
    · rw [if_neg hshort]
      obtain ⟨values, hvalues, hcount⟩ := structUnpackFrom_total (not_lt.mp hshort)
      rw [hvalues]
      match values, hcount with
      | [_, _, _], _ => exact total_ok _
  · exact total_frameError _

theorem decodeCompletedExchange_total (body : List UInt8) :
    Total (decodeCompletedExchange body) := by
  unfold decodeCompletedExchange
  dsimp only
  by_cases hshort : body.length < calcsize exchangeHeaderFormat + 1
  · rw [if_pos hshort]
    exact total_frameError _
  · rw [if_neg hshort]
    obtain ⟨header, hheader, _⟩ := @structUnpackFrom_total exchangeHeaderFormat body 0 (by omega)
    rw [hheader]
    refine (decodeMissionEventTime_total (by omega)).bind fun eventTime _ => ?_
    by_cases hlen : body.length = eventTime.2 + calcsize exchangeTailFormat + egoStateSize
    · rw [if_neg (not_not.mpr hlen)]
      obtain ⟨tail, htail, _⟩ := @structUnpackFrom_total exchangeTailFormat body eventTime.2
        (by omega)
      rw [htail]
      exact (decodeEgoState_total _).bind fun state _ => total_ok _
    · rw [if_pos hlen]
      exact total_frameError _

theorem decodeBody_total (variant : ℤ) (body : List UInt8) : Total (decodeBody variant body) := by
  unfold decodeBody
  split_ifs with hconfigured hexchange herror hfleet hlen
  · exact (decodeConfiguration_total body).bind fun _ _ => total_ok _
  · exact (decodeCompletedExchange_total body).bind fun _ _ => total_ok _
  · split
    · exact total_ok _
    · exact total_frameError _
  · exact total_frameError _
  · obtain ⟨values, hvalues, hcount⟩ := @structUnpack_total [.H, .B, .B] body (not_not.mp hlen)
    rw [hvalues]
    match values, hcount with
    | [source, master, network], _ =>
      refine (total_asFrameError fun raised h => fleetMode_error h).bind fun mode _ => ?_
      exact total_ok _
  · split
    · exact total_frameError _
    · rename_i kind items _
      by_cases hsize : body.length = calcsize items
      · rw [if_neg (not_not.mpr hsize)]
        obtain ⟨values, hvalues, _⟩ := structUnpack_total hsize
        rw [hvalues]
        exact total_ok _
      · rw [if_pos hsize]
        exact total_frameError _

/-! ### The frame -/

theorem cobsDecodeRuns_total (bytes : List UInt8) : Total (cobsDecodeRuns bytes) := by
  induction bytes using cobsDecodeRuns.induct with
  | case1 =>
    rw [cobsDecodeRuns]
    exact total_ok _
  | case2 rest =>
    rw [cobsDecodeRuns, if_pos rfl]
    exact total_frameError _
  | case3 code rest hzero hshort =>
    rw [cobsDecodeRuns, if_neg hzero, if_pos hshort]
    exact total_frameError _
  | case4 code rest hzero hfits ih =>
    rw [cobsDecodeRuns, if_neg hzero, if_neg hfits]
    exact ih.map _

theorem cobsDecode_total (frame : List UInt8) : Total (cobsDecode frame) := by
  unfold cobsDecode
  split_ifs
  · exact total_frameError _
  · exact cobsDecodeRuns_total _

/-- A payload that is returned holds the header of a message. -/
theorem decodePayload_total (frame : List UInt8) :
    Total (decodePayload frame) ∧
      ∀ payload, decodePayload frame = .ok payload → 6 ≤ payload.length := by
  unfold decodePayload
  rcases (cobsDecode_total frame).cases with ⟨raw, hraw⟩ | ⟨message, hraw⟩
  · rw [hraw]
    show Total (if raw.length < 10 then _ else _) ∧ ∀ payload, (if raw.length < 10 then _ else _) =
      _ → _
    by_cases hshort : raw.length < 10
    · rw [if_pos hshort]
      exact ⟨total_frameError _, fun payload h => by cases h⟩
    · rw [if_neg hshort]
      obtain ⟨crc, hcrc, _⟩ := @structUnpack_total [.I] (raw.drop (raw.length - 4)) (by
        rw [List.length_drop]
        show raw.length - (raw.length - 4) = 4
        omega)
      rw [hcrc]
      show Total (if [((Crc32.checksum (raw.take (raw.length - 4))).toNat : ℤ)] ≠ crc then _ else _) ∧
        ∀ payload, (if [((Crc32.checksum (raw.take (raw.length - 4))).toNat : ℤ)] ≠ crc then _
          else _) = _ → _
      split_ifs
      · exact ⟨total_frameError _, fun payload h => by cases h⟩
      · refine ⟨total_ok _, fun payload h => ?_⟩
        rw [← Except.ok.inj h, List.length_take]
        omega
  · rw [hraw]
    exact ⟨total_frameError _, fun payload h => by cases h⟩

theorem decodeFrame_total (frame : List UInt8) : Total (decodeFrame frame) := by
  unfold decodeFrame
  obtain ⟨htotal, hlong⟩ := decodePayload_total frame
  refine htotal.bind fun payload hpayload => ?_
  obtain ⟨values, hvalues, hcount⟩ := @structUnpackFrom_total [.B, .I, .B] payload 0 (by
    rw [Nat.zero_add]
    exact hlong payload hpayload)
  rw [hvalues]
  match values, hcount with
  | [version, sequence, variant], _ =>
    show Total (if version ≠ protocolVersion then _ else _)
    split_ifs
    · exact total_frameError _
    · exact (decodeBody_total variant _).bind fun _ _ => total_ok _

/-- The stuffing ends with its only zero and is undone exactly; unstuffing returns or
raises a frame error. -/
theorem cobs_codec :
    (∀ raw, (∃ body, cobsEncode raw = body ++ [0] ∧ (0 : UInt8) ∉ body) ∧
      cobsDecode (cobsEncode raw) = .ok raw) ∧
    ∀ frame, (∃ raw, cobsDecode frame = .ok raw) ∨
      ∃ message, cobsDecode frame = .error (.frameError message) := by
  refine ⟨fun raw => ?_, fun frame => (cobsDecode_total frame).cases⟩
  rw [cobsEncode_eq]
  exact ⟨⟨Cobs.stuff raw, rfl, Cobs.zero_notMem_stuff raw⟩, cobsDecode_frame raw⟩

/-- Every byte string decodes to an envelope or raises a frame error. -/
theorem decode_frame_total (frame : List UInt8) :
    (∃ envelope, decodeFrame frame = .ok envelope) ∨
      ∃ message, decodeFrame frame = .error (.frameError message) :=
  (decodeFrame_total frame).cases

end Mission10.Uwb.PythonCodec
