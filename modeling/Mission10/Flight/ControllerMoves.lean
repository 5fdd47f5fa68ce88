import Mission10.Flight.OffboardController

/-!
# What the calls of the offboard controller change

The setpoints and the requests of a mission leave the gates, the launch
reference and the telemetry alone and never move the controller towards arming:
they carry it. Each call is shown once to carry the controller, and which kind
of output it publishes; the results about runs use only these facts.
-/
namespace Mission10.Flight

open Engine MathOps

set_option linter.unusedSectionVars false

variable {K : Type*} [Field K] [LinearOrder K] [MathOps K]

/-- The states from which the controller arms, and the one before them. -/
def FlightState.arming : FlightState → Bool
  | .prestream | .takeoff | .engage => true
  | _ => false

/-- A heartbeat or a setpoint of the offboard stream. -/
def Output.streamed : Output K → Bool
  | .command _ => false
  | _ => true

def Output.arms : Output K → Bool
  | .command (.arm _) => true
  | _ => false

theorem Output.eq_of_arms {output : Output K} (h : output.arms = true) :
    ∃ force, output = .command (.arm force) := by
  unfold arms at h
  split at h
  · next force => exact ⟨force, rfl⟩
  · cases h

theorem Output.arms_of_streamed {output : Output K} (h : output.streamed = true) :
    output.arms = false := by
  cases output with
  | command command => simp [streamed] at h
  | _ => rfl

/-- What a position message says of the position. -/
structure Reading (K : Type*) where
  pos : Vec3 K
  xyFinite : Bool
  zFinite : Bool
  xyValid : Bool
  zValid : Bool

def LocalPosition.reading (msg : LocalPosition K) : Reading K :=
  ⟨msg.pos, msg.xyFinite, msg.zFinite, msg.xyValid, msg.zValid⟩

namespace Controller

variable {c c' c'' : Controller K} {nowUs : ℤ}

def reading (c : Controller K) : Reading K := ⟨c.pos, c.xyFinite, c.zFinite, c.xyValid, c.zValid⟩

/-- From one controller to the next nothing came nearer to arming. -/
structure Keeps (c c' : Controller K) : Prop where
  params : c'.params = c.params
  startOk : c'.startOk = c.startOk
  latched : c'.launchReferenceLatched = c.launchReferenceLatched
  attitudeSeen : c'.attitudeSeen = c.attitudeSeen
  abort : c.abortRequested = true → c'.abortRequested = true
  arming : c'.state.arming = true → c'.state = c.state

/-- Nor was a position heard. -/
structure Carries (c c' : Controller K) : Prop extends Keeps c c' where
  reading : c'.reading = c.reading
  lastLocalResetUs : c'.lastLocalResetUs = c.lastLocalResetUs

theorem Keeps.refl (c : Controller K) : Keeps c c :=
  ⟨rfl, rfl, rfl, rfl, id, fun _ => rfl⟩

theorem Keeps.trans (h : Keeps c c') (h' : Keeps c' c'') : Keeps c c'' where
  params := h'.params.trans h.params
  startOk := h'.startOk.trans h.startOk
  latched := h'.latched.trans h.latched
  attitudeSeen := h'.attitudeSeen.trans h.attitudeSeen
  abort := h'.abort ∘ h.abort
  arming := fun harming => by
    have heq := h'.arming harming
    exact heq.trans (h.arming (heq ▸ harming))

theorem Carries.refl (c : Controller K) : Carries c c := ⟨Keeps.refl c, rfl, rfl⟩

theorem Carries.trans (h : Carries c c') (h' : Carries c' c'') : Carries c c'' :=
  ⟨h.toKeeps.trans h'.toKeeps, h'.reading.trans h.reading,
    h'.lastLocalResetUs.trans h.lastLocalResetUs⟩

theorem Carries.launchReady (h : Carries c c') : c'.launchReady nowUs = c.launchReady nowUs := by
  have hreading := h.reading
  simp only [Controller.reading, Reading.mk.injEq] at hreading
  obtain ⟨-, hxyF, hzF, hxyV, hzV⟩ := hreading
  simp only [Controller.launchReady, h.params, h.lastLocalResetUs, h.attitudeSeen, hxyF, hzF, hxyV,
    hzV]

/-! ### Setpoints -/

/-- A setpoint changes the kind of heartbeat only. -/
structure Streams (c : Controller K) (published : Published K) : Prop where
  carries : Carries c published.1
  state : published.1.state = c.state
  abort : published.1.abortRequested = c.abortRequested
  streamed : ∀ output ∈ published.2, output.streamed = true

theorem publishTarget_streams (c : Controller K) (target : Vec3 K) (yaw : K) :
    Streams c (c.publishTarget target yaw) := by
  unfold publishTarget
  split
  · exact ⟨⟨⟨rfl, rfl, rfl, rfl, id, fun _ => rfl⟩, rfl, rfl⟩, rfl, rfl, by
      simp [publishGotoSetpoint, Output.streamed]⟩
  · exact ⟨⟨⟨rfl, rfl, rfl, rfl, id, fun _ => rfl⟩, rfl, rfl⟩, rfl, rfl, by
      simp [publishPositionSetpoint, Output.streamed]⟩

theorem holdSetpoint_streams (c : Controller K) : Streams c c.holdSetpoint :=
  publishTarget_streams c c.takeoffHold c.holdYaw

theorem publishHandoffHold_streams (c : Controller K) : Streams c c.publishHandoffHold := by
  unfold publishHandoffHold
  split
  · exact publishTarget_streams c _ _
  · have h := publishTarget_streams c.captureHandoffHold
      ⟨c.pos.north, c.pos.east, c.pos.down - c.launchZ⟩ c.holdYaw
    have hcapture : Carries c c.captureHandoffHold :=
      ⟨⟨rfl, rfl, rfl, rfl, id, fun _ => rfl⟩, rfl, rfl⟩
    exact ⟨hcapture.trans h.carries, h.state, h.abort, h.streamed⟩

theorem publishMissionSetpoint_streams {setpoint : Option (MissionSetpoint K)}
    {published : Published K} (h : c.publishMissionSetpoint setpoint = some published) :
    Streams c published := by
  cases setpoint with
  | none =>
    rw [publishMissionSetpoint, Option.some.injEq] at h
    exact h ▸ holdSetpoint_streams c
  | some setpoint =>
    cases setpoint with
    | position target yaw =>
      rw [publishMissionSetpoint, Option.some.injEq] at h
      exact h ▸ publishTarget_streams c target yaw
    | positionVelocity target velocity yaw =>
      rw [publishMissionSetpoint] at h
      split at h
      · cases h
      · obtain rfl := Option.some.inj h
        exact ⟨⟨⟨rfl, rfl, rfl, rfl, id, fun _ => rfl⟩, rfl, rfl⟩, rfl, rfl, by
          simp [publishPositionVelocitySetpoint, Output.streamed]⟩

/-! ### Commands -/

/-- A call that carries the controller and publishes commands, none to arm. -/
structure Commands (c : Controller K) (published : Published K) : Prop where
  carries : Carries c published.1
  commanded : ∀ output ∈ published.2, output.streamed = false ∧ output.arms = false

theorem publishCommandThrottled_commands (c : Controller K) (nowUs : ℤ) {command : Command K}
    (h : (Output.command command).arms = false) :
    Commands c (c.publishCommandThrottled nowUs command) ∧
      (c.publishCommandThrottled nowUs command).1.state = c.state := by
  unfold publishCommandThrottled
  split
  · exact ⟨⟨⟨⟨rfl, rfl, rfl, rfl, id, fun _ => rfl⟩, rfl, rfl⟩, by simp [h, Output.streamed]⟩, rfl⟩
  · exact ⟨⟨Carries.refl c, by simp⟩, rfl⟩

theorem beginLanding_commands (c : Controller K) (nowUs : ℤ) :
    Commands c (c.beginLanding nowUs) :=
  ⟨⟨⟨rfl, rfl, rfl, rfl, id, fun h => by simp [beginLanding, FlightState.arming] at h⟩, rfl, rfl⟩, by
    simp [beginLanding, Output.streamed, Output.arms]⟩

/-- The two states that a return leads to. -/
theorem returnOrLand_state (c : Controller K) (nowUs : ℤ) :
    (c.returnOrLand nowUs).1.state = .returning ∨
      (c.returnOrLand nowUs).1.state = .landRequested := by
  unfold returnOrLand
  split
  · exact .inl rfl
  · exact .inr rfl

theorem returnOrLand_commands (c : Controller K) (nowUs : ℤ) :
    Commands c (c.returnOrLand nowUs) := by
  unfold returnOrLand
  split
  · exact ⟨⟨⟨rfl, rfl, rfl, rfl, id, fun h => by simp [FlightState.arming] at h⟩, rfl, rfl⟩, by
      simp [Output.streamed, Output.arms]⟩
  · exact beginLanding_commands c nowUs

theorem beginReturn_commands (c : Controller K) (nowUs : ℤ) :
    Commands c (c.beginReturn nowUs) := by
  unfold beginReturn
  split
  · exact ⟨Carries.refl c, by simp⟩
  · exact returnOrLand_commands c nowUs

/-- A return changes no state that it starts from when it is under way. -/
theorem beginReturn_under_way (h : c.state = .returning ∨ c.state = .landRequested ∨
    c.state = .landing ∨ c.state = .done) : c.beginReturn nowUs = (c, []) := if_pos h

theorem request_commands (nowUs : ℤ) (c : Controller K) (asked : Request K) :
    Commands c (c.request nowUs asked) := by
  cases asked with
  | requestLand =>
    exact ⟨⟨⟨rfl, rfl, rfl, rfl, fun _ => rfl, fun _ => rfl⟩, rfl, rfl⟩, by simp [request]⟩
  | beginReturn => exact beginReturn_commands c nowUs
  | enableGotoSetpoints limits =>
    exact ⟨⟨⟨rfl, rfl, rfl, rfl, id, fun _ => rfl⟩, rfl, rfl⟩, by simp [request]⟩
  | setGlobalOrigin lat lon alt =>
    exact ⟨⟨⟨rfl, rfl, rfl, rfl, id, fun _ => rfl⟩, rfl, rfl⟩, by simp [request]⟩
  | commandDisarm force =>
    exact ⟨Carries.refl c, by simp [request, Output.streamed, Output.arms]⟩

/-- Only a return changes the state. -/
theorem request_state {asked : Request K} (h : asked ≠ .beginReturn) :
    (c.request nowUs asked).1.state = c.state := by
  cases asked with
  | beginReturn => exact absurd rfl h
  | _ => rfl

theorem requests_commands (nowUs : ℤ) (c : Controller K) (asked : List (Request K)) :
    Commands c (c.requests nowUs asked) := by
  induction asked generalizing c with
  | nil => exact ⟨Carries.refl c, by simp [requests]⟩
  | cons first rest ih =>
    have hfirst := request_commands nowUs c first
    have hrest := ih (c.request nowUs first).1
    refine ⟨hfirst.carries.trans hrest.carries, fun output hout => ?_⟩
    rcases List.mem_append.mp hout with hout | hout
    · exact hfirst.commanded output hout
    · exact hrest.commanded output hout

theorem requests_state {asked : List (Request K)} (h : Request.beginReturn ∉ asked) :
    (c.requests nowUs asked).1.state = c.state := by
  induction asked generalizing c with
  | nil => rfl
  | cons first rest ih =>
    rw [List.mem_cons, not_or] at h
    obtain ⟨hfirst, hrest⟩ := h
    exact (ih hrest).trans (request_state (Ne.symm hfirst))

/-- Once a return is under way the requests do not change the state. -/
theorem requests_under_way (h : c.state = .returning ∨ c.state = .landRequested ∨
    c.state = .landing ∨ c.state = .done) (nowUs : ℤ) (asked : List (Request K)) :
    (c.requests nowUs asked).1.state = c.state := by
  induction asked generalizing c with
  | nil => rfl
  | cons first rest ih =>
    have hfirst : (c.request nowUs first).1.state = c.state := by
      by_cases hreturn : first = .beginReturn
      · rw [hreturn, request, beginReturn_under_way h]
      · exact request_state hreturn
    exact (ih (by rwa [hfirst])).trans hfirst

/-- Anywhere else a request to return leads to a return. -/
theorem requests_return (h : ¬ (c.state = .returning ∨ c.state = .landRequested ∨
    c.state = .landing ∨ c.state = .done)) {asked : List (Request K)}
    (hasked : Request.beginReturn ∈ asked) :
    (c.requests nowUs asked).1.state = .returning ∨
      (c.requests nowUs asked).1.state = .landRequested := by
  induction asked generalizing c with
  | nil => cases hasked
  | cons first rest ih =>
    by_cases hreturn : first = .beginReturn
    · have hstate : (c.request nowUs first).1.state = .returning ∨
          (c.request nowUs first).1.state = .landRequested := by
        rw [hreturn, request, beginReturn, if_neg h]
        exact returnOrLand_state c nowUs
      have hkept := requests_under_way (hstate.imp_right Or.inl) nowUs rest
      exact hstate.imp hkept.trans hkept.trans
    · have hrest : Request.beginReturn ∈ rest := by
        cases hasked with
        | head => exact absurd rfl hreturn
        | tail _ hrest => exact hrest
      exact ih (by rwa [request_state hreturn]) hrest

theorem sendPendingOrigin_commands {sent : Published K}
    (h : c.sendPendingOrigin nowUs = some sent) :
    Commands c sent ∧ sent.1.state = c.state ∧ sent.1.abortRequested = c.abortRequested := by
  unfold sendPendingOrigin at h
  split at h
  · obtain rfl := Option.some.inj h
    exact ⟨⟨Carries.refl c, by simp⟩, rfl, rfl⟩
  · split_ifs at h
    · obtain rfl := Option.some.inj h
      exact ⟨⟨⟨⟨rfl, rfl, rfl, rfl, id, fun _ => rfl⟩, rfl, rfl⟩, by simp⟩, rfl, rfl⟩
    · obtain rfl := Option.some.inj h
      exact ⟨⟨Carries.refl c, by simp⟩, rfl, rfl⟩
    · obtain rfl := Option.some.inj h
      exact ⟨⟨⟨⟨rfl, rfl, rfl, rfl, id, fun _ => rfl⟩, rfl, rfl⟩, by
        simp [Output.streamed, Output.arms]⟩, rfl, rfl⟩

end Controller

end Mission10.Flight
