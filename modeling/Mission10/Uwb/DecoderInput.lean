import Mission10.Uwb.HostService

/-!
# What the decoder is handed

The buffer of the receive task bounds every frame it hands over, whatever the
bytes. The vector of the host service holds the bytes since the last delimiter,
so it is bounded exactly on the streams whose stretches are.
-/
namespace Mission10.Uwb

open Runs

variable {crates : Crates} {decodeInto : ℕ → List UInt8 → Decoded}

theorem hostFrameMaxSize_eq (documented : crates.Documented) :
    HostCodec.hostFrameMaxSize crates = hostRawMaxSize + 2 :=
  documented.maxEncodedLen _ (by decide)

/-! ### The receive task of the firmware -/

/-- The task's buffer holds no delimiter and no more than its capacity. -/
structure RxState.Kept (capacity : ℕ) (state : RxState) : Prop where
  free : (0 : UInt8) ∉ state.frame
  short : state.frame.length ≤ capacity

theorem rxByte_kept {capacity : ℕ} {state : RxState} (h : state.Kept capacity)
    (decode : List UInt8 → Except HostFrameError HostToRadioEnvelope) (byte : UInt8) :
    (rxByte capacity decode state byte).1.Kept capacity := by
  have hcleared : ∀ discarding synchronizing,
      RxState.Kept capacity { frame := [], discarding, synchronizing } := by
    intro discarding synchronizing
    exact ⟨List.not_mem_nil, Nat.zero_le _⟩
  unfold rxByte
  split_ifs with hsync hzero hdiscard hzero hempty hfull hbyte
  · exact hcleared _ _
  · exact h
  · exact hcleared _ _
  · exact h
  · exact h
  · exact hcleared _ _
  · constructor
    · intro hmem
      rcases List.mem_append.mp hmem with hmem | hmem
      · exact h.free hmem
      · exact hbyte (List.mem_singleton.mp hmem).symm
    · have hshort := h.short
      rw [List.length_append, List.length_singleton]
      omega
  · exact hcleared _ _

theorem rxStep_kept {state state' : RxState} {byte : UInt8}
    (h : state.Kept (HostCodec.hostFrameMaxSize crates))
    (hstep : rxStep crates decodeInto state byte = some state') :
    state'.Kept (HostCodec.hostFrameMaxSize crates) := by
  unfold rxStep at hstep
  split at hstep
  · obtain rfl := Option.some.inj hstep
    exact rxByte_kept h _ byte
  · obtain ⟨decoded, -, rfl⟩ := Option.map_eq_some_iff.mp hstep
    exact rxByte_kept h _ byte

theorem rxBounded_of_kept (documented : crates.Documented)
    (reads : DecodeIntoDocumented decodeInto) {state : RxState}
    (h : state.Kept (HostCodec.hostFrameMaxSize crates)) (byte : UInt8) :
    RxBounded crates decodeInto state byte := by
  refine ⟨h.short, ?_⟩
  intro frame hpassed
  unfold rxPassed at hpassed
  split_ifs at hpassed with hcase
  obtain rfl := Option.some.inj hpassed
  have hlen := hostFrameMaxSize_eq documented
  have hshort := h.short
  have hroom := hcase.2.2.2.2
  exact decodable_of_short reads h.free (by omega)

/-- Every byte stream keeps the task within its buffer and the decoder within
its own. -/
theorem rx_bounded (documented : crates.Documented) (reads : DecodeIntoDocumented decodeInto)
    (bytes : List UInt8) : Along (rxStep crates decodeInto) (RxBounded crates decodeInto) {} bytes := by
  rw [along_iff_forall]
  intro front byte back state _ hrun
  apply rxBounded_of_kept documented reads
  apply run_invariant _ _ (fun _ _ _ hkept hstep => rxStep_kept hkept hstep) _ hrun
  exact ⟨List.not_mem_nil, Nat.zero_le _⟩

/-! ### The host service -/

namespace ClientState

/-- A byte that keeps the connection is appended, or ends the vector. -/
theorem step_frame {state next : ClientState} {e : ClientByte}
    (h : step crates decodeInto state e = some next) :
    next.frame = if e.byte ≠ 0 then state.frame ++ [e.byte] else [] := by
  unfold step at h
  split at h
  · next served hserved =>
    obtain rfl := Option.some.inj h
    unfold clientByte at hserved
    dsimp only at hserved
    split_ifs at hserved ⊢ with hbyte
    · rw [← ClientOutcome.serving.inj hserved]
    · split at hserved
      · cases hserved
      · cases hserved
      · split at hserved
        · cases hserved
        · split at hserved
          · rw [← ClientOutcome.serving.inj hserved]
          · rw [← ClientOutcome.serving.inj hserved]
          · cases hserved
  · cases h

theorem run_frame {state : ClientState} {stream : List ClientByte}
    (h : run (step crates decodeInto) {} stream = some state) :
    state.frame = stretch stream := by
  apply run_history _ (fun hist s => s.frame = stretch hist) _ rfl h
  intro hist s e s' hframe hstep
  rw [step_frame hstep, hframe, stretch, stretch, List.map_append, List.map_singleton]
  by_cases hbyte : e.byte = 0
  · rw [List.rtakeWhile_concat_neg _ _ _ (by simp [hbyte])]
    simp [hbyte]
  · rw [List.rtakeWhile_concat_pos _ _ _ (by simp [hbyte]), if_pos hbyte]

theorem zero_notMem_stretch (bytes : List ClientByte) : (0 : UInt8) ∉ stretch bytes := by
  intro hmem
  simpa using List.mem_rtakeWhile_imp hmem

/-- A byte is within bounds exactly when the vector had room for it. -/
theorem bounded_iff (documented : crates.Documented) (reads : DecodeIntoDocumented decodeInto)
    {state : ClientState} (hfree : (0 : UInt8) ∉ state.frame) (e : ClientByte) :
    Bounded crates decodeInto state e ↔
      state.frame.length < HostCodec.hostFrameMaxSize crates := by
  have hlen := hostFrameMaxSize_eq documented
  constructor
  · intro h
    have hbuffer := h.buffer
    rw [List.length_append, List.length_singleton] at hbuffer
    exact hbuffer
  · intro hroom
    constructor
    · rw [List.length_append, List.length_singleton]
      exact hroom
    · intro _
      exact decodable_of_short reads hfree (by omega)

/-- A stream keeps the service within bounds exactly when its stretches are. -/
theorem along_bounded_iff (documented : crates.Documented)
    (reads : DecodeIntoDocumented decodeInto) (stream : List ClientByte) :
    Along (step crates decodeInto) (Bounded crates decodeInto) {} stream ↔
      Short crates decodeInto stream := by
  have hbounded : ∀ {front : List ClientByte} {state : ClientState} (e : ClientByte),
      run (step crates decodeInto) {} front = some state →
      (Bounded crates decodeInto state e ↔
        (stretch front).length < HostCodec.hostFrameMaxSize crates) := by
    intro front state e hrun
    have hframe := run_frame hrun
    rw [← hframe]
    exact bounded_iff documented reads (hframe ▸ zero_notMem_stretch front) e
  rw [along_iff_forall]
  constructor
  · intro h front e back hstream hserved
    obtain ⟨state, hrun⟩ := Option.isSome_iff_exists.mp hserved
    exact (hbounded e hrun).mp (h front e back state hstream hrun)
  · intro h front e back state hstream hrun
    exact (hbounded e hrun).mpr (h front e back hstream (by rw [hrun]; rfl))

end ClientState

/-- The receive task bounds what it decodes on every stream, the host service
exactly on the streams whose stretches fit the largest frame. -/
theorem decoder_input_bounded_iff (documented : crates.Documented)
    (reads : DecodeIntoDocumented decodeInto) :
    (∀ bytes, Along (rxStep crates decodeInto) (RxBounded crates decodeInto) {} bytes) ∧
    ∀ stream, Along (ClientState.step crates decodeInto) (ClientState.Bounded crates decodeInto)
      {} stream ↔ ClientState.Short crates decodeInto stream :=
  ⟨rx_bounded documented reads, ClientState.along_bounded_iff documented reads⟩

/-- Both receivers with the reference crates. -/
theorem decoder_input_bounded_iff_reference :
    (∀ bytes, Along (rxStep Crates.reference referenceDecodeInto)
      (RxBounded Crates.reference referenceDecodeInto) {} bytes) ∧
    ∀ stream, Along (ClientState.step Crates.reference referenceDecodeInto)
      (ClientState.Bounded Crates.reference referenceDecodeInto) {} stream ↔
      ClientState.Short Crates.reference referenceDecodeInto stream :=
  decoder_input_bounded_iff Crates.reference_documented referenceDecodeInto_documented

namespace ClientState

/-- Nonzero bytes only fill the vector. -/
theorem run_nonzero (state : ClientState) {bytes : List UInt8} (h : (0 : UInt8) ∉ bytes) :
    run (step crates decodeInto) state (bytes.map fun byte => { byte }) =
      some { state with frame := state.frame ++ bytes } := by
  induction bytes generalizing state with
  | nil => simp
  | cons byte bytes ih =>
    have hbyte : byte ≠ 0 := fun he => h (he ▸ List.mem_cons_self)
    have hrest : (0 : UInt8) ∉ bytes := fun hmem => h (List.mem_cons_of_mem _ hmem)
    have hstep : step crates decodeInto state { byte } =
        some { state with frame := state.frame ++ [byte] } := by
      simp [step, clientByte, hbyte]
    rw [List.map_cons, run_cons, hstep, Option.bind_some, ih _ hrest]
    simp

/-- A vector that reads as more than the raw buffer holds. -/
theorem clientByte_panics (reads : DecodeIntoDocumented decodeInto) {state : ClientState}
    {raw : List UInt8} (hfree : (0 : UInt8) ∉ state.frame)
    (hraw : Cobs.unstuff state.frame = some raw) (hlong : hostRawMaxSize < raw.length) :
    clientByte crates decodeInto state { byte := 0 } = .panicked := by
  have hpanic := reads.overflows hfree hraw hlong
  simp [clientByte, decodeHostToRadioInto, hpanic]

/-- A longest run may be stored that the raw buffer does not hold: the vector
outgrows the largest frame, and at the delimiter the decoder panics. -/
theorem long_run_panics (documented : crates.Documented) (reads : DecodeIntoDocumented decodeInto)
    {bytes : List UInt8} (hfree : (0 : UInt8) ∉ bytes) (hlong : hostRawMaxSize < bytes.length)
    (hmax : bytes.length ≤ Cobs.maxRun) :
    ∃ state, run (step crates decodeInto) {}
        ((Cobs.code bytes :: bytes).map fun byte => { byte }) = some state ∧
      HostCodec.hostFrameMaxSize crates < (state.frame ++ [0]).length ∧
      clientByte crates decodeInto state { byte := 0 } = .panicked := by
  have hcode : (0 : UInt8) ∉ Cobs.code bytes :: bytes := by
    intro hmem
    rcases List.mem_cons.mp hmem with hmem | hmem
    · exact Cobs.code_ne_zero hmax hmem.symm
    · exact hfree hmem
  have hread : Cobs.unstuff (Cobs.code bytes :: bytes) = some bytes := by
    have hrun := Cobs.unstuff_run [] hmax
    simpa [Cobs.unstuff_nil] using hrun
  refine ⟨_, run_nonzero {} hcode, ?_, clientByte_panics reads hcode hread hlong⟩
  rw [hostFrameMaxSize_eq documented]
  simp only [List.nil_append, List.length_append, List.length_cons, List.length_nil]
  omega

/-- A frame one byte too long: the code 136, 135 nonzero bytes and the delimiter. -/
theorem long_frame_panics :
    ∃ state, run (step Crates.reference referenceDecodeInto) {}
        ((Cobs.code (List.replicate 135 1) :: List.replicate 135 1).map fun byte => { byte }) =
          some state ∧
      HostCodec.hostFrameMaxSize Crates.reference < (state.frame ++ [0]).length ∧
      clientByte Crates.reference referenceDecodeInto state { byte := 0 } = .panicked := by
  have hmax : hostRawMaxSize < 135 := by decide
  apply long_run_panics Crates.reference_documented referenceDecodeInto_documented
  · intro hmem
    cases List.eq_of_mem_replicate hmem
  · rw [List.length_replicate]
    exact hmax
  · rw [List.length_replicate]
    decide

end ClientState

end Mission10.Uwb
