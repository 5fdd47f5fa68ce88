import Mission10.Uwb.AffineClock
import Mission10.Uwb.HostMessages

/-!
# Clock samples from probes

The ranging task sends probes to the host and pairs the answers with them. A sample
takes the middle of the time the answer was under way on either clock, and its error
is half of what the local clock saw beyond the host. The halves are rounded on their
own, so that the error covers the sample only where what they drop agrees.
-/
namespace Mission10.Uwb

def clockProbeIntervalMs : UInt64 := 250

structure ClockReply where
  requestId : UInt16
  missionRxUs : UInt64
  missionTxUs : UInt64
  missionGeneration : UInt32
  sourceErrorUs : UInt32
  localRxUs : UInt64
  deriving DecidableEq

structure ClockProbeSent where
  requestId : UInt16
  localTxUs : UInt64
  deriving DecidableEq

/-- `u32::try_from`, with the largest number for one that does not fit. -/
def clampU32 (n : UInt64) : UInt32 :=
  if n.toNat < 2 ^ 32 then UInt32.ofNat n.toNat else UInt32.ofNat (2 ^ 32 - 1)

/-- The part of the ranging task's state that keeps the clock. -/
structure ClockRuntime where
  clock : ClockCorrelator 32 := .new (q32Rate 1)
  nextClockProbeUs : UInt64 := 0
  clockRequestId : UInt16 := 0
  clockGeneration : Option UInt32 := none
  pendingClockProbe : Option ClockProbeSent := none
  clockSamplesAccepted : UInt32 := 0
  clockSamplesRejected : UInt32 := 0
  clockGenerationChanges : UInt32 := 0

/-- A probe and its reply, with the sample that was accepted of them. -/
structure ClockExchange where
  sent : ClockProbeSent
  reply : ClockReply
  sample : CorrelationSample
  deriving DecidableEq

/-- What a refresh leaves: the runtime, the events published and the exchanges
accepted. -/
structure Refreshed where
  runtime : ClockRuntime
  published : List RadioToHost := []
  accepted : List ClockExchange := []

/-- The sample of an exchange. None is taken of a reply that left before it came, or
that took longer on the host than here. -/
def exchangeSample (sent : ClockProbeSent) (reply : ClockReply) : Option CorrelationSample := do
  let hostElapsed ← checkedSub reply.missionTxUs reply.missionRxUs
  let localElapsed := saturatingSub reply.localRxUs sent.localTxUs
  let residual ← checkedSub localElapsed hostElapsed
  return {
    source := sent.localTxUs + localElapsed / 2
    target := reply.missionRxUs + hostElapsed / 2
    errorUs := saturatingAdd32 reply.sourceErrorUs (clampU32 (residual / 2))
    generation := reply.missionGeneration }

namespace ClockRuntime

def reject (runtime : ClockRuntime) : ClockRuntime :=
  { runtime with clockSamplesRejected := runtime.clockSamplesRejected + 1 }

def noteGeneration (runtime : ClockRuntime) (generation : UInt32) : ClockRuntime :=
  if runtime.clockGeneration = some generation then runtime
  else
    { runtime with
      clockGenerationChanges :=
        if runtime.clockGeneration.isSome then runtime.clockGenerationChanges + 1
        else runtime.clockGenerationChanges
      clockGeneration := some generation }

/-- The status published after a sample. -/
def clockStatus (runtime : ClockRuntime) (sample : CorrelationSample) (localRxUs : UInt64) :
    RadioToHost :=
  match runtime.clock.model with
  | none => .clockStatus sample.generation sample.errorUs 0 false
  | some model => .clockStatus sample.generation (model.errorAt localRxUs)
      (clampU32 (saturatingSub localRxUs model.anchorSource)) (model.mapsAtSource localRxUs)

/-- The sample is offered to the correlator, which may refuse it. -/
def takeSample (runtime : ClockRuntime) (sent : ClockProbeSent) (reply : ClockReply)
    (sample : CorrelationSample) : Refreshed :=
  let runtime := runtime.noteGeneration reply.missionGeneration
  match runtime.clock.push sample with
  | (clock, .ok ()) =>
    let runtime : ClockRuntime :=
      { runtime with clock, clockSamplesAccepted := runtime.clockSamplesAccepted + 1 }
    { runtime, published := [runtime.clockStatus sample reply.localRxUs],
      accepted := [⟨sent, reply, sample⟩] }
  | (clock, .error _) =>
    let runtime := ({ runtime with clock } : ClockRuntime).reject
    { runtime, published := [runtime.clockStatus sample reply.localRxUs] }

/-- One reply: it answers the probe that waits, or is rejected. -/
def takeReply (runtime : ClockRuntime) (reply : ClockReply) : Refreshed :=
  match runtime.pendingClockProbe.filter fun sent => sent.requestId = reply.requestId with
  | none => { runtime := runtime.reject }
  | some sent =>
    let runtime := { runtime with pendingClockProbe := none }
    match exchangeSample sent reply with
    | none => { runtime := runtime.reject }
    | some sample => runtime.takeSample sent reply sample

def takeReplies (runtime : ClockRuntime) : List ClockReply → Refreshed
  | [] => { runtime }
  | reply :: replies =>
    let first := runtime.takeReply reply
    let rest := first.runtime.takeReplies replies
    { runtime := rest.runtime
      published := first.published ++ rest.published
      accepted := first.accepted ++ rest.accepted }

/-- The next probe, when it is due. -/
def probe (runtime : ClockRuntime) (nowUs : UInt64) : ClockRuntime × List RadioToHost :=
  if runtime.nextClockProbeUs ≤ nowUs then
    ({ runtime with
        nextClockProbeUs := nowUs + clockProbeIntervalMs * 1000
        clockRequestId := runtime.clockRequestId + 1 },
      [.clockProbe runtime.clockRequestId])
  else (runtime, [])

/-- `refresh_clock`: the probes sent and the replies received since the last call. -/
def refreshClock (runtime : ClockRuntime) (hostConnected : Bool) (nowUs : UInt64)
    (sent : List ClockProbeSent) (replies : List ClockReply) : Refreshed :=
  if !hostConnected then { runtime }
  else
    let runtime := { runtime with
      pendingClockProbe := sent.getLast?.orElse fun _ => runtime.pendingClockProbe }
    let taken := runtime.takeReplies replies
    let (runtime, probes) := taken.runtime.probe nowUs
    { taken with runtime, published := taken.published ++ probes }

end ClockRuntime

/-! ### The exchange -/

namespace ClockExchange

def hostElapsed (exchange : ClockExchange) : ℤ :=
  exchange.reply.missionTxUs.toNat - exchange.reply.missionRxUs.toNat

def localElapsed (exchange : ClockExchange) : ℤ :=
  exchange.reply.localRxUs.toNat - exchange.sent.localTxUs.toNat

/-- The time that the messages were under way. -/
def residual (exchange : ClockExchange) : ℤ := exchange.localElapsed - exchange.hostElapsed

/-- The host's clock is ahead by the offset, and no message arrives before it leaves. -/
structure Causal (exchange : ClockExchange) (offset : ℤ) : Prop where
  probe : exchange.sent.localTxUs.toNat + offset ≤ exchange.reply.missionRxUs.toNat
  reply : exchange.reply.missionTxUs.toNat ≤ exchange.reply.localRxUs.toNat + offset

/-- The time that the probe was under way. -/
def outbound (exchange : ClockExchange) (offset : ℤ) : ℤ :=
  exchange.reply.missionRxUs.toNat - (exchange.sent.localTxUs.toNat + offset)

/-- The way out and the way back do not both lose half a tick: either they take an even
time together, or the one whose half is dropped takes a part of it. -/
def Shared (exchange : ClockExchange) (offset : ℤ) : Prop :=
  exchange.residual % 2 = 0 ∨
    (exchange.hostElapsed % 2 = 0 ∧ exchange.outbound offset < exchange.residual) ∨
    (exchange.hostElapsed % 2 = 1 ∧ 0 < exchange.outbound offset)

/-- The sample is of the exchange, with an error that the correlator admits. -/
structure Sampled (exchange : ClockExchange) : Prop where
  sample : exchangeSample exchange.sent exchange.reply = some exchange.sample
  error : exchange.sample.errorUs.toNat ≤ 750

end ClockExchange

theorem toNat_clampU32 (n : UInt64) : (clampU32 n).toNat = min n.toNat (2 ^ 32 - 1) := by
  unfold clampU32
  split_ifs with hfits
  · rw [UInt32.toNat_ofNat_of_lt' hfits]
    omega
  · rw [UInt32.toNat_ofNat']
    omega

theorem toNat_half (n : UInt64) : (n / 2).toNat = n.toNat / 2 := UInt64.toNat_div n 2

/-- The parts of a sample in whole numbers. -/
theorem exchangeSample_eq_some {sent : ClockProbeSent} {reply : ClockReply}
    {sample : CorrelationSample} (h : exchangeSample sent reply = some sample) :
    reply.missionRxUs.toNat ≤ reply.missionTxUs.toNat ∧
      sample.source.toNat = sent.localTxUs.toNat +
        (reply.localRxUs.toNat - sent.localTxUs.toNat) / 2 ∧
      sample.target.toNat = reply.missionRxUs.toNat +
        (reply.missionTxUs.toNat - reply.missionRxUs.toNat) / 2 ∧
      sample.errorUs.toNat = min (reply.sourceErrorUs.toNat + min
        ((reply.localRxUs.toNat - sent.localTxUs.toNat -
          (reply.missionTxUs.toNat - reply.missionRxUs.toNat)) / 2) (2 ^ 32 - 1))
        (2 ^ 32 - 1) := by
  simp only [exchangeSample, Option.bind_eq_bind, Option.bind_eq_some_iff,
    checkedSub_eq_some] at h
  obtain ⟨hostElapsed, hhost, residual, hresidual, hsample⟩ := h
  have hsample := Option.some.inj hsample
  have hlocal := toNat_saturatingSub reply.localRxUs sent.localTxUs
  have hrx := reply.localRxUs.toNat_lt
  have htx := sent.localTxUs.toNat_lt
  have hmission := reply.missionTxUs.toNat_lt
  have helapsed : hostElapsed.toNat =
      reply.missionTxUs.toNat - reply.missionRxUs.toNat := by omega
  have hrest : residual.toNat = reply.localRxUs.toNat - sent.localTxUs.toNat -
      (reply.missionTxUs.toNat - reply.missionRxUs.toNat) := by omega
  rw [← hsample]
  refine ⟨by omega, ?_, ?_, ?_⟩
  · rw [UInt64.toNat_add, toNat_half, hlocal]
    exact Nat.mod_eq_of_lt (by omega)
  · rw [UInt64.toNat_add, toNat_half, helapsed]
    exact Nat.mod_eq_of_lt (by omega)
  · rw [toNat_saturatingAdd32, toNat_clampU32, toNat_half, hrest]

/-! ### The error of an accepted sample -/

namespace ClockRuntime

theorem takeSample_accepted {runtime : ClockRuntime} {sent : ClockProbeSent}
    {reply : ClockReply} {sample : CorrelationSample}
    (hsample : exchangeSample sent reply = some sample) :
    ∀ exchange ∈ (runtime.takeSample sent reply sample).accepted, exchange.Sampled := by
  intro exchange hexchange
  unfold takeSample at hexchange
  dsimp only at hexchange
  rcases ClockCorrelator.push_cases (runtime.noteGeneration reply.missionGeneration).clock sample
    with ⟨_, hpush⟩ | hpush | ⟨hbound, _, hpush⟩
  · rw [hpush] at hexchange
    exact absurd hexchange List.not_mem_nil
  · rw [hpush] at hexchange
    exact absurd hexchange List.not_mem_nil
  · rw [hpush] at hexchange
    rw [List.mem_singleton.mp hexchange]
    exact ⟨hsample, UInt32.le_iff_toNat_le.mp hbound⟩

theorem takeReply_accepted (runtime : ClockRuntime) (reply : ClockReply) :
    ∀ exchange ∈ (runtime.takeReply reply).accepted, exchange.Sampled := by
  unfold takeReply
  cases runtime.pendingClockProbe.filter fun sent => sent.requestId = reply.requestId with
  | none => simp
  | some sent =>
    dsimp only
    cases hsample : exchangeSample sent reply with
    | none => simp
    | some sample => exact takeSample_accepted hsample

theorem takeReplies_accepted (runtime : ClockRuntime) (replies : List ClockReply) :
    ∀ exchange ∈ (runtime.takeReplies replies).accepted, exchange.Sampled := by
  induction replies generalizing runtime with
  | nil => simp [takeReplies]
  | cons reply replies ih =>
    intro exchange hexchange
    rcases List.mem_append.mp hexchange with hfirst | hrest
    · exact takeReply_accepted runtime reply exchange hfirst
    · exact ih _ exchange hrest

/-- Every exchange that a refresh accepts is sampled with an admitted error. -/
theorem refreshClock_accepted (runtime : ClockRuntime) (hostConnected : Bool) (nowUs : UInt64)
    (sent : List ClockProbeSent) (replies : List ClockReply) :
    ∀ exchange ∈ (runtime.refreshClock hostConnected nowUs sent replies).accepted,
      exchange.Sampled := by
  unfold refreshClock
  split_ifs
  · simp
  · exact takeReplies_accepted _ replies

end ClockRuntime

/-- How far the sample is off is what the halves drop. -/
theorem ClockExchange.Sampled.deviation {exchange : ClockExchange} (h : exchange.Sampled)
    {offset : ℤ} (hcausal : exchange.Causal offset)
    (hzero : exchange.reply.sourceErrorUs = 0) :
    |((exchange.sample.target.toNat : ℤ) - (exchange.sample.source.toNat + offset))| ≤
        exchange.sample.errorUs.toNat ↔ exchange.Shared offset := by
  obtain ⟨hhost, hsource, htarget, herror⟩ := exchangeSample_eq_some h.sample
  have hadmitted := h.error
  have hprobe := hcausal.probe
  have hreply := hcausal.reply
  rw [hzero, UInt32.toNat_zero, Nat.zero_add] at herror
  rw [abs_le, hsource, htarget]
  unfold ClockExchange.Shared ClockExchange.outbound ClockExchange.residual
    ClockExchange.localElapsed ClockExchange.hostElapsed
  omega

/-- The error of a sample covers its offset exactly where the two ways share what the
halves drop. -/
theorem clock_sample_error (runtime : ClockRuntime) (hostConnected : Bool) (nowUs : UInt64)
    (sent : List ClockProbeSent) (replies : List ClockReply) (exchange : ClockExchange)
    (haccepted : exchange ∈ (runtime.refreshClock hostConnected nowUs sent replies).accepted)
    (offset : ℤ) (hcausal : exchange.Causal offset)
    (hzero : exchange.reply.sourceErrorUs = 0) :
    |((exchange.sample.target.toNat : ℤ) - (exchange.sample.source.toNat + offset))| ≤
        exchange.sample.errorUs.toNat ↔ exchange.Shared offset :=
  (runtime.refreshClock_accepted hostConnected nowUs sent replies exchange
    haccepted).deviation hcausal hzero

/-- A probe that left at 1000 and its reply, which took so long on the way back. -/
def sampleProbe : ClockProbeSent := ⟨7, 1000⟩

def sampleReply (localRxUs : UInt64) : ClockReply where
  requestId := 7
  missionRxUs := 51021
  missionTxUs := 51041
  missionGeneration := 1
  sourceErrorUs := 0
  localRxUs

/-- The exchanges that are accepted of the probe and its reply. -/
def sampleAccepted (localRxUs : UInt64) : List ClockExchange :=
  (ClockRuntime.refreshClock {} true 2000 [sampleProbe] [sampleReply localRxUs]).accepted

/-- 21 out and 18 back, the hosts 50000 apart. -/
theorem clock_sample_error_shared : ∃ exchange ∈ sampleAccepted 1059,
    |((exchange.sample.target.toNat : ℤ) - (exchange.sample.source.toNat + 50000))| ≤
      exchange.sample.errorUs.toNat := by
  refine ⟨⟨sampleProbe, sampleReply 1059, ⟨1029, 51031, 19, 1⟩⟩, by decide +kernel, ?_⟩
  refine (clock_sample_error {} true 2000 [sampleProbe] [sampleReply 1059] _ (by decide +kernel)
    50000 ⟨by decide, by decide⟩ rfl).mpr ?_
  exact Or.inr (Or.inl ⟨by decide, by decide⟩)

/-- 21 out and none back: the sample is off by 11, and its error says 10. -/
theorem clock_sample_error_missed : ¬ ∀ exchange ∈ sampleAccepted 1041,
    exchange.Causal 50000 →
      |((exchange.sample.target.toNat : ℤ) - (exchange.sample.source.toNat + 50000))| ≤
        exchange.sample.errorUs.toNat := by
  intro hall
  have hbound := hall ⟨sampleProbe, sampleReply 1041, ⟨1020, 51031, 10, 1⟩⟩ (by decide +kernel)
    ⟨by decide, by decide⟩
  exact absurd hbound (by decide)

end Mission10.Uwb
