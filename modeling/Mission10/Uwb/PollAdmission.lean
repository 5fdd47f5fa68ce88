import Mission10.Uwb.FirmwareAnswers

/-!
# The admission of a Poll

The idle service and the listening firmware decide whether to answer a Poll, each
by its own checks. Over the same node, peers, history and clock reading the two
decide alike. The service handles every frame; the firmware handles every frame
but a ranging frame that carries its own address as the source while it listens.
-/
namespace Mission10.Uwb

open Runs

/-- The two-argument windows are one window, in microseconds and in nanoseconds. -/
theorem duplicateWindow_iff (now last : UInt64) :
    1000 * now.toNat - 1000 * last.toNat < duplicateWindow ↔
      saturatingSub now last < duplicateWindowUs := by
  have hwindow : duplicateWindow = 1000 * duplicateWindowUs.toNat := rfl
  rw [UInt64.lt_iff_toNat_lt, toNat_saturatingSub]
  omega

/-- A history with its instants in nanoseconds. -/
def inNanoseconds (history : List (Option (ExchangeId × UInt64))) :
    List (Option (ExchangeId × ℕ)) :=
  history.map (Option.map fun last => (last.1, 1000 * last.2.toNat))

namespace Ranger

variable {ranger : Ranger} {io : RangerIo}

/-- The admitted exchange with a peer is an older one, or none. -/
def Fresh (ranger : Ranger) (index : ℕ) (exchangeId : ExchangeId) (io : RangerIo) : Prop :=
  (ranger.lastReceivedExchange[index]?.join).any (fun last =>
    last.1 = exchangeId ∧ io.checkedAt - last.2 < duplicateWindow) = false

theorem mem_peers_of_findIdx {config : RangingConfig} {source : NodeAddress} {index : ℕ}
    (h : config.peers.findIdx? (· = source) = some index) : source ∈ config.peers := by
  have hsome : (config.peers.findIdx? (· = source)).isSome := by rw [h]; rfl
  rw [List.findIdx?_isSome, List.any_eq_true] at hsome
  obtain ⟨peer, hpeer, heq⟩ := hsome
  rw [decide_eq_true_eq] at heq
  exact heq ▸ hpeer

theorem pollIsValid_iff (ranger : Ranger) (source : NodeAddress) (exchangeId : ExchangeId)
    (io : RangerIo) :
    (ranger.pollIsValid source exchangeId io).2 = true ↔
      source < ranger.config.address ∧ ∃ index,
        ranger.config.peers.findIdx? (· = source) = some index ∧
          ranger.Fresh index exchangeId io := by
  constructor
  · intro h
    refine ⟨(pollIsValid_responder h).1, ?_⟩
    unfold pollIsValid at h
    split at h
    · contradiction
    · split at h
      · contradiction
      · split at h
        · contradiction
        · rename_i index hindex
          refine ⟨index, hindex, ?_⟩
          split at h
          · contradiction
          · rename_i hfresh
            simpa [Fresh] using hfresh
  · rintro ⟨hlt, index, hindex, hfresh⟩
    have hmem := mem_peers_of_findIdx hindex
    have hcontains : ranger.roster.contains source = true :=
      (FlightRoster.contains_new ranger.config.forms_roster).mpr (Or.inr hmem)
    have hrole : (⟨source, ranger.config.address⟩ : Pair).role ranger.config.address =
        .responder source := by
      have hne : ranger.config.address ≠ source := (NodeAddress.ne_of_lt hlt).symm
      simp [Pair.role, hne]
    unfold pollIsValid
    rw [Pair.new_of_lt hlt]
    dsimp only
    rw [if_neg (by simp [hrole, hcontains]), hindex]
    dsimp only
    rw [if_neg (by simpa [Fresh] using hfresh)]

/-- The event makes the idle service start an exchange. -/
def Admits (ranger : Ranger) (frame : DecodedAirFrame) (rxTime : UInt64) (io : RangerIo) : Prop :=
  ∃ ranger' actions, ranger.step (.received (.ok frame) rxTime io) = .ok (ranger', actions) ∧
    ranger'.state ≠ .idle

/-- What the idle service makes of a frame. -/
theorem received_idle (hidle : ranger.state = .idle) (frame : DecodedAirFrame) (rxTime : UInt64)
    (hio : RadioAnswers io) :
    ∃ ranger' actions, ranger.step (.received (.ok frame) rxTime io) = .ok (ranger', actions) ∧
      (ranger'.state ≠ .idle ↔
        (ranger.pollIsValid frame.source frame.envelope.exchangeId io).2 = true ∧
          ∃ peerState, frame.envelope.message = .poll peerState) := by
  have hignored : ¬ ((ranger.pollIsValid frame.source frame.envelope.exchangeId io).2 = true ∧
        ∃ peerState, frame.envelope.message = .poll peerState) →
      ∃ ranger' actions, ranger.ignoreFrame io = .ok (ranger', actions) ∧
        (ranger'.state ≠ .idle ↔
          (ranger.pollIsValid frame.source frame.envelope.exchangeId io).2 = true ∧
            ∃ peerState, frame.envelope.message = .poll peerState) := fun hnot =>
    ⟨ranger, [], ignoreFrame_answers ranger hio, iff_of_false (by simp [hidle]) hnot⟩
  simp only [step, handleFrame]
  split
  · rename_i mode hmessage
    obtain ⟨⟨recovered, failed⟩, hrecover⟩ := recoverExchange_answers ranger hio
    obtain ⟨-, pairStates, hafter⟩ := recoverExchange_ok hrecover
    refine ⟨recovered, .fleetMode frame.source mode :: failed, by rw [hrecover]; rfl, ?_⟩
    exact iff_of_false (by simp [hafter]) (by simp [hmessage])
  · split
    · rename_i hunlisted
      refine hignored fun hvalid => ?_
      obtain ⟨-, index, hindex, -⟩ := (ranger.pollIsValid_iff _ _ io).mp hvalid.1
      exact List.find?_eq_none.mp hunlisted _ (mem_peers_of_findIdx hindex) (by simp)
    · rename_i source hlisted
      obtain rfl : source = frame.source := by simpa using List.find?_some hlisted
      unfold handleMessage
      split
      case h_1 peerState hstate hmessage =>
        split
        · rename_i admitted hvalid
          have hrx : AirCodec.timestampValid (ticks rxTime) = true := timestampValid_ticks rxTime
          obtain ⟨⟨ranger', actions⟩, hanswer⟩ := sendResponse_answers
            { admitted with activePair := Pair.new admitted.config.address frame.source }
            frame.source frame.envelope.exchangeId peerState hio hrx
          obtain ⟨responseTx, deadline, hafter, -⟩ := sendResponse_ok hanswer
          refine ⟨ranger', actions, hanswer, iff_of_true (by simp [hafter]) ?_⟩
          exact ⟨by rw [hvalid], peerState, hmessage⟩
        · rename_i refused hinvalid
          obtain ⟨last, hlast⟩ := pollIsValid_eq ranger frame.source frame.envelope.exchangeId io
          refine ⟨refused, [], ignoreFrame_answers refused hio, iff_of_false ?_ (by simp [hinvalid])⟩
          rw [hinvalid] at hlast
          dsimp only at hlast
          simp [hlast, hidle]
      case h_2 hstate _ | h_3 hstate _ | h_4 hstate _ =>
        rw [hidle] at hstate
        contradiction
      case h_5 hother _ _ _ =>
        refine hignored ?_
        rintro ⟨-, peerState, hpoll⟩
        exact hother peerState hidle hpoll

theorem admits_iff (hidle : ranger.state = .idle) (frame : DecodedAirFrame)
    (rxTime : UInt64) (hio : RadioAnswers io) :
    ranger.Admits frame rxTime io ↔
      (ranger.pollIsValid frame.source frame.envelope.exchangeId io).2 = true ∧
        ∃ peerState, frame.envelope.message = .poll peerState := by
  obtain ⟨ranger', actions, hstep, hadmits⟩ := received_idle hidle frame rxTime hio
  rw [← hadmits, Admits, hstep]
  constructor
  · rintro ⟨after, done, heq, hafter⟩
    obtain ⟨rfl, rfl⟩ := Prod.mk.inj (Except.ok.inj heq)
    exact hafter
  · exact fun hafter => ⟨_, _, rfl, hafter⟩

end Ranger

namespace Firmware

variable {firmware : Firmware} {io : FirmwareIo} {roster : FlightRoster}

/-- The event makes the listening firmware start an exchange. -/
def Admits (firmware : Firmware) (frame : DecodedAirFrame) (rxTime : RadioInstant)
    (io : FirmwareIo) : Prop :=
  ∃ firmware' actions,
    firmware.step (.received (.ok (.ok frame, rxTime)) io) = .ok (firmware', actions) ∧
      firmware'.phase ≠ .mainLoop

theorem admits_iff (hlistening : firmware.phase = .listening) (h : Configured firmware roster)
    (frame : DecodedAirFrame) (rxTime : RadioInstant) (hio : Answers io) :
    firmware.Admits frame rxTime io ↔ frame.source < firmware.localNode ∧
      roster.contains frame.source = true ∧
      firmware.isDuplicate (firmware.firstPeerIndex frame.source) frame.envelope.exchangeId
        io.receivedAtUs = false ∧
      ∃ peerState, frame.envelope.message = .poll peerState := by
  cases hranging : frame.envelope.message.isFleetMode with
  | true =>
    cases hmessage : frame.envelope.message with
    | fleetMode mode =>
      refine iff_of_false ?_ (by simp)
      rintro ⟨firmware', actions, hstep, hphase⟩
      simp only [step, received, hlistening, FirmwarePhase.receives, Bool.not_true, if_false,
        Bool.false_eq_true, hio.finished, decodeAir, hmessage] at hstep
      obtain ⟨_, -, hstep⟩ := Outcome.bind_ok hstep
      obtain ⟨⟨ended, failed⟩, hend, hstep⟩ := Outcome.bind_ok hstep
      obtain ⟨-, -, hafter⟩ := endAttempt_ok hend
      obtain ⟨rfl, rfl⟩ := Prod.mk.inj (Outcome.pure_ok hstep)
      exact hphase hafter
    | _ => simp [hmessage, AirMessage.isFleetMode] at hranging
  | false =>
    have hstep : firmware.step (.received (.ok (.ok frame, rxTime)) io) =
        firmware.handlePoll frame rxTime io := by
      rw [received_frame firmware frame rxTime (by rw [hlistening]; rfl) hio hranging, handleFrame,
        hlistening]
    by_cases hself : frame.source = firmware.localNode
    · refine iff_of_false ?_ ?_
      · rintro ⟨firmware', actions, hok, -⟩
        rw [hstep, handlePoll_self hself] at hok
        contradiction
      · rintro ⟨hlt, -⟩
        exact NodeAddress.ne_of_lt hlt hself
    · obtain ⟨firmware', actions, hanswer, hadmits⟩ := handlePoll_answers h hself rxTime hio
      rw [← hadmits, Admits, hstep, hanswer]
      constructor
      · rintro ⟨after, done, heq, hafter⟩
        obtain ⟨rfl, rfl⟩ := Prod.mk.inj (Except.ok.inj heq)
        exact hafter
      · exact fun hafter => ⟨_, _, rfl, hafter⟩

end Firmware

/-- The two backends run one node with the same peers and the same history of
admitted exchanges, and read the same clock. -/
structure Alike (ranger : Ranger) (firmware : Firmware) (io : RangerIo) (io' : FirmwareIo) :
    Prop where
  address : ranger.config.address = firmware.localNode
  peers : firmware.configuration.peerSlice = some ranger.config.peers
  history : ranger.lastReceivedExchange = inNanoseconds firmware.lastReceivedExchange
  clock : io.checkedAt = 1000 * io'.receivedAtUs.toNat

section Alike

variable {ranger : Ranger} {firmware : Firmware} {io : RangerIo} {io' : FirmwareIo}
  {roster : FlightRoster}

theorem Alike.fresh_iff (halike : Alike ranger firmware io io') (index : ℕ)
    (exchangeId : ExchangeId) :
    ranger.Fresh index exchangeId io ↔
      firmware.isDuplicate (some index) exchangeId io'.receivedAtUs = false := by
  rw [Ranger.Fresh, Firmware.isDuplicate, Option.any_some, halike.history, halike.clock,
    inNanoseconds, List.getElem?_map]
  cases firmware.lastReceivedExchange[index]? with
  | none => simp
  | some entry =>
    cases entry with
    | none => simp
    | some last => simp [duplicateWindow_iff]

/-- The idle service and the listening firmware make the same decision. -/
theorem Alike.admits_iff (halike : Alike ranger firmware io io')
    (hconfigured : firmware.Configured roster) (hidle : ranger.state = .idle)
    (hlistening : firmware.phase = .listening) (frame : DecodedAirFrame) (rxTime : UInt64)
    (rxInstant : RadioInstant) (hio : Ranger.RadioAnswers io) (hio' : Firmware.Answers io') :
    ranger.Admits frame rxTime io ↔ firmware.Admits frame rxInstant io' := by
  rw [Ranger.admits_iff hidle frame rxTime hio,
    Firmware.admits_iff hlistening hconfigured frame rxInstant hio', Ranger.pollIsValid_iff,
    halike.address]
  obtain ⟨peers, hpeers, hnew⟩ := hconfigured.peers
  obtain rfl := Option.some.inj (halike.peers.symm.trans hpeers)
  have hfirst : firmware.firstPeerIndex frame.source =
      ranger.config.peers.findIdx? (· = frame.source) := by
    rw [Firmware.firstPeerIndex, hpeers, Option.bind_some]
  constructor
  · rintro ⟨⟨hlt, index, hindex, hfresh⟩, hpoll⟩
    refine ⟨hlt, ?_, ?_, hpoll⟩
    · exact (FlightRoster.contains_new hnew).mpr (Or.inr (Ranger.mem_peers_of_findIdx hindex))
    · rw [hfirst, hindex]
      exact (halike.fresh_iff index _).mp hfresh
  · rintro ⟨hlt, hlisted, hfresh, hpoll⟩
    obtain ⟨index, hindex⟩ :=
      Firmware.firstPeerIndex_isSome hconfigured hlisted (NodeAddress.ne_of_lt hlt)
    rw [hindex] at hfresh
    exact ⟨⟨hlt, index, hfirst ▸ hindex, (halike.fresh_iff index _).mpr hfresh⟩, hpoll⟩

end Alike

/-- Whatever runs led to the two backends and whatever exchanges they admitted
before, a decodable frame is handled by both and admitted by both or by neither,
except when the firmware listens and a ranging frame names its own address as
the source. -/
theorem poll_admission {config : RangingConfig} {bootNonce : UInt32}
    {rangerEvents : List RangerEvent} {ranger : Ranger} {rangerTrace : List RadioAction}
    (hranger : run Ranger.loggedStep (Ranger.new config bootNonce, []) rangerEvents =
      some (ranger, rangerTrace))
    {configuration : RadioConfiguration} {txDelay : UInt16} {startIo : FirmwareIo}
    {started : Firmware} (hstart : Firmware.start configuration txDelay startIo = .ok started)
    {firmwareEvents : List FirmwareEvent} {firmware : Firmware} {firmwareTrace : List RadioAction}
    (hfirmware : run Firmware.loggedStep (started, []) firmwareEvents =
      some (firmware, firmwareTrace))
    (rangerHistory : List (Option (ExchangeId × ℕ)))
    (firmwareHistory : List (Option (ExchangeId × UInt64)))
    {io : RangerIo} {io' : FirmwareIo} (hio : Ranger.RadioAnswers io)
    (hio' : Firmware.Answers io') (frame : DecodedAirFrame) (rxTime : UInt64)
    (rxInstant : RadioInstant) :
    let ranger := { ranger with lastReceivedExchange := rangerHistory }
    let firmware := { firmware with lastReceivedExchange := firmwareHistory }
    (∃ after, ranger.step (.received (.ok frame) rxTime io) = .ok after) ∧
      (∃ after, firmware.step (.received (.ok (.ok frame, rxInstant)) io') = .ok after) ∧
      (Alike ranger firmware io io' → ranger.state = .idle → firmware.phase = .listening →
        (ranger.Admits frame rxTime io ↔ firmware.Admits frame rxInstant io')) ↔
    ¬ firmware.ResetsOn frame := by
  intro ranger firmware
  have htimed : Ranger.Timed ranger := fun peer exchangeId pollTx hstate =>
    Ranger.timed_run hranger peer exchangeId pollTx hstate
  obtain ⟨_, hsound₀⟩ := Firmware.sound_start hstart
  obtain ⟨roster, hsound⟩ := Firmware.sound_run hsound₀ hfirmware
  have hsound' : Firmware.Sound firmware roster :=
    ⟨⟨hsound.configured.roster_eq, hsound.configured.localNode_eq⟩, hsound.initiated,
      hsound.answered⟩
  rw [← Firmware.received_answers_iff hsound' frame rxInstant hio']
  constructor
  · rintro ⟨-, hhandled, -⟩
    exact hhandled
  · intro hhandled
    refine ⟨Ranger.received_answers ranger htimed (.ok frame) rxTime hio, hhandled, ?_⟩
    intro halike hidle hlistening
    exact halike.admits_iff hsound'.configured hidle hlistening frame rxTime rxInstant hio hio'

/-- Node 0 with one peer, node 1. -/
def sampleConfiguration : RadioConfiguration where
  nodeAddress := .aircraft 0
  peerCount := 1
  peers := Vector.replicate maxPeers (.aircraft 1)

def sampleRoster : FlightRoster := Ranger.sampleConfig.roster

theorem sampleConfiguration_roster : sampleConfiguration.roster = some sampleRoster :=
  @FlightRoster.new_of_sorted (.aircraft 0) [.aircraft 1] (by decide) (by decide)

/-- A radio that answers and a host that asks for nothing. -/
def sampleFirmwareIo (now : UInt64) : FirmwareIo where
  configuration := none
  addressWritten := true
  bootNonce := 7
  configuredAtUs := now
  fleetMode := none
  egoState := {}
  checkedAtUs := now
  receivedAtUs := now
  classifiedAtUs := now
  finishedAtUs := now
  repeatedAtUs := now
  prepared := .ok ()
  sysTime := some 1000
  started := .ok ()
  finished := .ok ()
  missionEventTime := .unavailable

/-- A turn without a request, a due fleet mode or a due pair. -/
theorem Firmware.turn_of_quiet {firmware requested : Firmware} {io : FirmwareIo}
    {roster : FlightRoster} (hrequest : firmware.applyHostRequests io = .ok requested)
    (hpending : (requested.pendingFleetMode.filter fun pending =>
      pending.nextAtUs ≤ io.checkedAtUs) = none)
    (hroster : (requested.expirePairs io.checkedAtUs).roster = .ok roster)
    (hdue : duePair roster requested.localNode io.checkedAtUs
      (requested.expirePairs io.checkedAtUs).pairStates = none) :
    firmware.turn io = (requested.expirePairs io.checkedAtUs).listenUntilDue roster io := by
  rw [← show (requested.expirePairs io.checkedAtUs).pendingFleetMode =
    requested.pendingFleetMode from rfl] at hpending
  rw [← show (requested.expirePairs io.checkedAtUs).localNode = requested.localNode from rfl]
    at hdue
  simp only [turn, hrequest, bind, Except.bind, hpending, hroster, hdue]

/-- The firmware after its start. -/
def sampleStarted : Firmware :=
  Firmware.reconfigure
    { configuration := sampleConfiguration
      txDelay := 16390
      localNode := sampleConfiguration.nodeAddress
      pairStates := [] } sampleConfiguration sampleRoster (sampleFirmwareIo 0)

theorem sample_start :
    Firmware.start sampleConfiguration 16390 (sampleFirmwareIo 0) = .ok sampleStarted := by
  simp only [Firmware.start, Firmware.applyConfiguration, sampleConfiguration_roster]
  rfl

/-- The firmware after the first turn: it listens. -/
def sampleListening : Firmware := { sampleStarted.expirePairs 1000 with phase := .listening }

theorem sample_turn :
    sampleStarted.step (.turn (sampleFirmwareIo 1000)) = .ok (sampleListening, []) := by
  have hroster : (sampleStarted.expirePairs 1000).roster = .ok sampleRoster :=
    congrArg (Firmware.resetUnless _) sampleConfiguration_roster
  have hdue : duePair sampleRoster (.aircraft 0) 1000 (sampleStarted.expirePairs 1000).pairStates =
      none := by decide +kernel
  have hfar : ¬ (sampleStarted.expirePairs 1000).untilDueUs sampleRoster 1000 ≤
      rxReleaseLeadUs := by decide +kernel
  have hlisten : (sampleStarted.expirePairs 1000).listenUntilDue sampleRoster
      (sampleFirmwareIo 1000) = .ok (sampleListening, []) := by
    rw [Firmware.listenUntilDue]
    exact if_neg hfar
  have hloop : sampleStarted.phase = .mainLoop := rfl
  rw [Firmware.step, if_pos hloop]
  have hquiet := @Firmware.turn_of_quiet sampleStarted sampleStarted (sampleFirmwareIo 1000)
    sampleRoster rfl rfl hroster hdue
  exact hquiet.trans hlisten

/-- A Poll that names node 0 as its source and its destination. -/
def selfAddressedPoll : DecodedAirFrame where
  source := .aircraft 0
  destination := .node (.aircraft 0)
  macSequence := 0
  envelope := { exchangeId := ⟨0⟩, message := .poll {} }

def samplePollRx : RadioInstant := ⟨5000, by decide⟩

/-- The bytes of the frame decode at the node, which listens and resets on them. -/
theorem self_addressed_poll_resets : (∃ bytes,
    AirCodec.encode .reference AirCodec.referenceMac (.aircraft 0) (.node (.aircraft 0)) 0
      selfAddressedPoll.envelope = .ok bytes ∧
    AirCodec.decode .reference AirCodec.referenceMac bytes (.aircraft 0) =
      .ok selfAddressedPoll) ∧
    Firmware.start sampleConfiguration 16390 (sampleFirmwareIo 0) = .ok sampleStarted ∧
    sampleStarted.step (.turn (sampleFirmwareIo 1000)) = .ok (sampleListening, []) ∧
    sampleListening.step (.received (.ok (.ok selfAddressedPoll, samplePollRx))
      (sampleFirmwareIo 2000)) = .error .invalidConfiguration := by
  refine ⟨?_, sample_start, sample_turn, ?_⟩
  · have hsend : AirCodec.send (.aircraft 0) (.node (.aircraft 0)) 0
        selfAddressedPoll.envelope = .ok selfAddressedPoll := rfl
    obtain ⟨bytes, hencode, hdecode⟩ := AirCodec.encode_send Crates.reference_documented
      AirCodec.referenceMac_documented rfl hsend
    exact ⟨bytes, hencode, hdecode (.aircraft 0)⟩
  · rw [Firmware.received_frame sampleListening selfAddressedPoll samplePollRx rfl ⟨rfl, rfl, rfl⟩
      rfl, Firmware.handleFrame]
    exact Firmware.handlePoll_self rfl samplePollRx _

/-- A Poll of node 1 to node 0. -/
def peerPoll : DecodedAirFrame := { selfAddressedPoll with source := .aircraft 1 }

theorem poll_admission_peer :
    (Ranger.new Ranger.sampleConfig 7).Admits peerPoll 5000 (Ranger.sampleIo 2000000) ↔
      sampleListening.Admits peerPoll samplePollRx (sampleFirmwareIo 2000) := by
  have hlistens : run Firmware.loggedStep (sampleStarted, []) [.turn (sampleFirmwareIo 1000)] =
      some (sampleListening, []) := by
    rw [run_cons, Firmware.loggedStep, sample_turn]
    rfl
  have hother : ¬ { sampleListening with
      lastReceivedExchange := List.replicate maxPeers none }.ResetsOn peerPoll := by
    rintro ⟨-, hself, -⟩
    exact absurd hself (by decide)
  have hio : Ranger.RadioAnswers (Ranger.sampleIo 2000000) := ⟨rfl, rfl⟩
  have hio' : Firmware.Answers (sampleFirmwareIo 2000) := ⟨rfl, rfl, rfl⟩
  obtain ⟨-, -, hagree⟩ := (poll_admission (run_nil _ _) sample_start hlistens
    (List.replicate maxPeers none) (List.replicate maxPeers none) hio hio' peerPoll 5000
    samplePollRx).mpr hother
  exact hagree ⟨rfl, rfl, rfl, rfl⟩ rfl rfl

end Mission10.Uwb
