import Mission10.Flight.ControllerMoves
import Mission10.Library.Runs

/-!
# The arming gate

The operator's gates, the telemetry and the timer write different fields of the
controller. What one callback can do to the fields that arming depends on is
said once, for every callback and every mission; by induction over the run, an
arm command is published only after a start gate, with a launch reference that
was taken from valid telemetry, and before any abort.
-/
namespace Mission10.Flight

open Engine MathOps

set_option linter.unusedSectionVars false

variable {K : Type*} [Field K] [LinearOrder K] [MathOps K] {M I : Type*}

/-- The states in which a tick arms. -/
def FlightState.engaging : FlightState → Bool
  | .takeoff | .engage => true
  | _ => false

def Quat.normSq (q : Quat K) : K := q.w * q.w + q.x * q.x + q.y * q.y + q.z * q.z

/-- The position message that an event brings. -/
def NodeEvent.position? : NodeEvent K I → Option (LocalPosition K)
  | .position _ msg => some msg
  | _ => none

/-- What one event can do to the fields that arming depends on. -/
structure Advance (c : Controller K) (event : NodeEvent K I) (c' : Controller K)
    (outputs : List (Output K)) : Prop where
  params : c'.params = c.params
  startOk : c'.startOk = true → c.startOk = true ∨ event = .start true
  keepsStart : c.startOk = true → c'.startOk = true
  abort : c.abortRequested = true ∨ event = .abort true → c'.abortRequested = true
  arming : c'.state.arming = true → c.state.arming = true ∨ c'.startOk = true
  engaging : c'.state.engaging = true →
    c.state.engaging = true ∨ c'.launchReferenceLatched = true
  keepsLatched : c.launchReferenceLatched = true → c'.launchReferenceLatched = true
  latched : c'.launchReferenceLatched = true → c.launchReferenceLatched = true ∨
    ∃ nowUs, event = .tick nowUs ∧ c.launchReady nowUs = true ∧
      c'.launchXy = some c.pos.horizontal ∧ c'.launchZ = c.pos.down
  reading : c'.reading = (event.position?.map LocalPosition.reading).getD c.reading
  attitude : c'.attitudeSeen = true → c.attitudeSeen = true ∨
    ∃ q, event = .attitude q true ∧ 1 / 4 < Quat.normSq q
  arms : ∀ output ∈ outputs, output.arms = true →
    c.state.engaging = true ∧ c.abortRequested = false

theorem FlightState.arming_of_engaging {state : FlightState} (h : state.engaging = true) :
    state.arming = true := by
  cases state <;> first | rfl | exact absurd h (by decide)

section Advance

variable {c c' : Controller K} {event : NodeEvent K I} {outputs : List (Output K)} {nowUs : ℤ}

/-- A call that keeps the controller from arming, whatever it hears. -/
theorem Advance.of_keeps (h : Controller.Keeps c c')
    (hreading : c'.reading = (event.position?.map LocalPosition.reading).getD c.reading)
    (habort : event = .abort true → c'.abortRequested = true)
    (harms : ∀ output ∈ outputs, output.arms = false) :
    Advance c event c' outputs where
  params := h.params
  startOk := fun hstart => .inl (h.startOk ▸ hstart)
  keepsStart := fun hstart => h.startOk ▸ hstart
  abort := fun hor => hor.elim h.abort habort
  arming := fun harming => .inl (h.arming harming ▸ harming)
  engaging := fun hengaging =>
    .inl (h.arming (FlightState.arming_of_engaging hengaging) ▸ hengaging)
  keepsLatched := fun hlatched => h.latched ▸ hlatched
  latched := fun hlatched => .inl (h.latched ▸ hlatched)
  reading := hreading
  attitude := fun hseen => .inl (h.attitudeSeen ▸ hseen)
  arms := fun output hout harm => by
    rw [harms output hout] at harm
    cases harm

/-- The origin and the heartbeat of a tick come before its state machine. -/
theorem Advance.after_carries {mid : Controller K} {front : List (Output K)}
    (h : Controller.Carries c mid) (hstate : mid.state = c.state)
    (habort : mid.abortRequested = c.abortRequested)
    (hfront : ∀ output ∈ front, output.arms = false) (hrest : Advance mid event c' outputs) :
    Advance c event c' (front ++ outputs) where
  params := hrest.params.trans h.params
  startOk := fun hstart => (hrest.startOk hstart).imp_left fun hmid => h.startOk ▸ hmid
  keepsStart := fun hstart => hrest.keepsStart (h.startOk.trans hstart)
  abort := fun hor => hrest.abort (hor.imp_left fun hc => habort.trans hc)
  arming := fun harming => hstate ▸ hrest.arming harming
  engaging := fun hengaging => hstate ▸ hrest.engaging hengaging
  keepsLatched := fun hlatched => hrest.keepsLatched (h.latched.trans hlatched)
  latched := fun hlatched => by
    have hpos : mid.pos = c.pos := congrArg Reading.pos h.reading
    rcases hrest.latched hlatched with hmid | ⟨nowUs, hevent, hready, hxy, hz⟩
    · exact .inl (h.latched ▸ hmid)
    · rw [h.launchReady] at hready
      exact .inr ⟨nowUs, hevent, hready, hpos ▸ hxy, hpos ▸ hz⟩
  reading := by rw [hrest.reading, h.reading]
  attitude := fun hseen => (hrest.attitude hseen).imp_left fun hmid => h.attitudeSeen ▸ hmid
  arms := fun output hout harm => by
    rcases List.mem_append.mp hout with hout | hout
    · rw [hfront output hout] at harm
      cases harm
    · rw [← hstate, ← habort]
      exact hrest.arms output hout harm

/-- A hook's answer carries the controller. -/
theorem answer_carries (c : Controller K) (nowUs : ℤ) (hook : M × List (Request K)) :
    Controller.Carries c (Node.answer c nowUs hook).1.base ∧
      ∀ output ∈ (Node.answer c nowUs hook).2, output.arms = false :=
  have h := Controller.requests_commands nowUs c hook.2
  ⟨h.carries, fun output hout => (h.commanded output hout).2⟩

theorem posCb_advance (mission : Mission K M I) (n : Node K M) (nowUs : ℤ)
    (msg : LocalPosition K) :
    Advance n.base (.position nowUs msg : NodeEvent K I) (n.posCb mission nowUs msg).1.base
      (n.posCb mission nowUs msg).2 := by
  unfold Node.posCb
  split
  · exact Advance.of_keeps ⟨rfl, rfl, rfl, rfl, id, fun _ => rfl⟩ rfl (by simp) (by simp)
  · rename_i reset heq
    let c := (n.base.noteCounters nowUs msg).rebase reset
    have hc : Controller.Keeps n.base c := ⟨rfl, rfl, rfl, rfl, id, fun _ => rfl⟩
    obtain ⟨hcarries, harms⟩ := answer_carries c nowUs
      (mission.onLocalFrameReset n.mission c reset.deltaXy reset.deltaZ reset.deltaHeading)
    have hkeeps := hc.trans hcarries.toKeeps
    exact Advance.of_keeps ⟨hkeeps.params, hkeeps.startOk, hkeeps.latched, hkeeps.attitudeSeen,
      hkeeps.abort, hkeeps.arming⟩ rfl (by simp) harms

/-- A tick that moves on to another state. -/
theorem Advance.toState (h : Advance c event c' outputs) {state : FlightState}
    (harming : state.arming = true → c.state.arming = true ∨ c'.startOk = true)
    (hengaging : state.engaging = true →
      c.state.engaging = true ∨ c'.launchReferenceLatched = true) :
    Advance c event { c' with state } outputs :=
  ⟨h.params, h.startOk, h.keepsStart, h.abort, harming, hengaging, h.keepsLatched, h.latched,
    h.reading, h.attitude, h.arms⟩

theorem fireLinkAcquired_advance (mission : Mission K M I) (n : Node K M) (nowUs : ℤ) :
    Advance n.base (.tick nowUs : NodeEvent K I) (n.fireLinkAcquired mission nowUs).1.base
      (n.fireLinkAcquired mission nowUs).2 := by
  unfold Node.fireLinkAcquired
  split
  · exact Advance.of_keeps (Controller.Keeps.refl _) rfl (by simp) (by simp)
  · have hc : Controller.Keeps n.base { n.base with linkAcquiredFired := true } :=
      ⟨rfl, rfl, rfl, rfl, id, fun _ => rfl⟩
    obtain ⟨hasked, harms⟩ := answer_carries { n.base with linkAcquiredFired := true } nowUs
      (mission.onLinkAcquired n.mission { n.base with linkAcquiredFired := true } nowUs)
    exact Advance.of_keeps (hc.trans hasked.toKeeps) hasked.reading (by simp) harms

theorem tickWaitLink_advance (mission : Mission K M I) (n : Node K M) (nowUs : ℤ) :
    Advance n.base (.tick nowUs : NodeEvent K I) (n.tickWaitLink mission nowUs).1.base
      (n.tickWaitLink mission nowUs).2 := by
  unfold Node.tickWaitLink
  split
  · refine (fireLinkAcquired_advance mission n nowUs).toState ?_ ?_
    · intro harming
      split at harming
      · exact .inr ‹_›
      · simp [FlightState.arming] at harming
    · intro hengaging
      split at hengaging <;> simp [FlightState.engaging] at hengaging
  · exact Advance.of_keeps (Controller.Keeps.refl _) rfl (by simp) (by simp)

/-- A reference that is new was taken from a pose that is ready. -/
theorem latchLaunchReference_cases (h : c.latchLaunchReference nowUs = some c') :
    c' = c ∧ c.launchReferenceLatched = true ∨
      c.launchReady nowUs = true ∧ c' =
        { c with
          launchXy := some c.pos.horizontal
          launchZ := c.pos.down
          launchReferenceLatched := true
          launchZLatched := true
          launchYaw := c.yaw
          launchYawLatched := true } := by
  unfold Controller.latchLaunchReference at h
  split_ifs at h with hlatched hready
  · exact .inl ⟨(Option.some.inj h).symm, hlatched⟩
  · exact .inr ⟨hready, (Option.some.inj h).symm⟩

theorem countPrestream_advance (c : Controller K) (nowUs : ℤ) :
    Controller.Carries c c.countPrestream.1 ∧
      Advance c (.tick nowUs : NodeEvent K I) c.countPrestream.1 c.countPrestream.2 := by
  have hheld := Controller.holdSetpoint_streams c
  have hcarries : Controller.Carries c c.countPrestream.1 :=
    hheld.carries.trans ⟨⟨rfl, rfl, rfl, rfl, id, fun _ => rfl⟩, rfl, rfl⟩
  exact ⟨hcarries, Advance.of_keeps hcarries.toKeeps hcarries.reading (by simp)
    fun output hout => Output.arms_of_streamed (hheld.streamed output hout)⟩

theorem tickPrestream_advance {published : Published K} (hstate : c.state = .prestream)
    (h : c.tickPrestream nowUs = some published) :
    Advance c (.tick nowUs : NodeEvent K I) published.1 published.2 := by
  obtain ⟨hcarries, hcounted⟩ := countPrestream_advance (I := I) c nowUs
  have harms : ∀ output ∈ c.countPrestream.2 ++ [.command .offboardMode],
      output.arms = true → c.state.engaging = true ∧ c.abortRequested = false := by
    intro output hout harm
    rcases List.mem_append.mp hout with hout | hout
    · exact hcounted.arms output hout harm
    · obtain rfl := List.mem_singleton.mp hout
      cases harm
  simp only [Controller.tickPrestream] at h
  split at h
  · split at h
    · split_ifs at h
      obtain rfl := Option.some.inj h
      exact hcounted
    · rename_i latched hlatch
      obtain rfl := Option.some.inj h
      have harming : (latched.engageAt nowUs).state.arming = true →
          c.state.arming = true ∨ latched.startOk = true := fun _ => .inl (hstate ▸ rfl)
      rcases latchLaunchReference_cases hlatch with ⟨rfl, hset⟩ | ⟨hready, rfl⟩
      · exact ⟨hcounted.params, hcounted.startOk, hcounted.keepsStart, hcounted.abort, harming,
          fun _ => .inr hset, hcounted.keepsLatched, hcounted.latched, hcounted.reading,
          hcounted.attitude, harms⟩
      · have hpos : c.countPrestream.1.pos = c.pos := congrArg Reading.pos hcarries.reading
        rw [hcarries.launchReady] at hready
        exact ⟨hcounted.params, hcounted.startOk, hcounted.keepsStart, hcounted.abort, harming,
          fun _ => .inr rfl, fun _ => rfl,
          fun _ => .inr ⟨nowUs, rfl, hready, congrArg (fun p : Vec3 K => some p.horizontal) hpos,
            congrArg Vec3.down hpos⟩,
          hcounted.reading, hcounted.attitude, harms⟩
  · obtain rfl := Option.some.inj h
    exact hcounted

/-- A tick of an engaging controller that nobody asked to abort. -/
theorem Advance.of_engaging (h : Advance c event c' []) (hstate : c.state.engaging = true)
    (habort : c.abortRequested = false) : Advance c event c' outputs :=
  ⟨h.params, h.startOk, h.keepsStart, h.abort, h.arming, h.engaging, h.keepsLatched, h.latched,
    h.reading, h.attitude, fun _ _ _ => ⟨hstate, habort⟩⟩

theorem Advance.of_carried (h : Controller.Carries c c') :
    Advance c (.tick nowUs : NodeEvent K I) c' [] :=
  Advance.of_keeps h.toKeeps h.reading (by simp) (by simp)

/-- An abort turns an engaging controller to landing. -/
theorem landing_advance (c : Controller K) (nowUs : ℤ) :
    Advance c (.tick nowUs : NodeEvent K I) (c.holdSetpoint.1.beginLanding nowUs).1
      (c.holdSetpoint.2 ++ (c.holdSetpoint.1.beginLanding nowUs).2) := by
  have hheld := Controller.holdSetpoint_streams c
  have hlanding := Controller.beginLanding_commands c.holdSetpoint.1 nowUs
  have hcarries := hheld.carries.trans hlanding.carries
  refine Advance.of_keeps hcarries.toKeeps hcarries.reading (by simp) fun output hout => ?_
  rcases List.mem_append.mp hout with hout | hout
  · exact Output.arms_of_streamed (hheld.streamed output hout)
  · exact (hlanding.commanded output hout).2

theorem tickTakeoff_advance (hstate : c.state = .takeoff) :
    Advance c (.tick nowUs : NodeEvent K I) (c.tickTakeoff nowUs).1 (c.tickTakeoff nowUs).2 := by
  have hheld := Controller.holdSetpoint_streams c
  have hengaging : c.state.engaging = true := by rw [hstate]; rfl
  have harming : c.state.arming = true := by rw [hstate]; rfl
  simp only [Controller.tickTakeoff]
  split
  · exact landing_advance c nowUs
  · rename_i habort
    rw [hheld.abort, Bool.not_eq_true] at habort
    obtain ⟨hclimb, -⟩ := Controller.publishCommandThrottled_commands c.holdSetpoint.1 nowUs
      (show (Output.command (.takeoff c.holdSetpoint.1.params.takeoffAltitudeM)).arms = false
        from rfl)
    have hcarries := hheld.carries.trans hclimb.carries
    split
    · refine Advance.of_engaging ((Advance.of_carried hcarries).toState (fun _ => .inl harming)
        fun _ => .inl hengaging) hengaging habort
    · exact Advance.of_engaging (Advance.of_carried hcarries) hengaging habort

theorem tickEngage_advance (mission : Mission K M I) (n : Node K M)
    (hstate : n.base.state = .engage) :
    Advance n.base (.tick nowUs : NodeEvent K I) (n.tickEngage mission nowUs).1.base
      (n.tickEngage mission nowUs).2 := by
  have hheld := Controller.holdSetpoint_streams n.base
  have hengaging : n.base.state.engaging = true := by rw [hstate]; rfl
  simp only [Node.tickEngage]
  split
  · exact landing_advance n.base nowUs
  · rename_i habort
    rw [hheld.abort, Bool.not_eq_true] at habort
    split
    · obtain ⟨hasked, -⟩ := answer_carries { n.base.holdSetpoint.1 with state := .active } nowUs
        (mission.onActiveStart n.mission { n.base.holdSetpoint.1 with state := .active } nowUs)
      have hactive : Controller.Carries n.base { n.base.holdSetpoint.1 with state := .active } :=
        hheld.carries.trans ⟨⟨rfl, rfl, rfl, rfl, id, fun h => by simp [FlightState.arming] at h⟩,
          rfl, rfl⟩
      exact Advance.of_engaging (Advance.of_carried (hactive.trans hasked)) hengaging habort
    · exact Advance.of_engaging (Advance.of_carried hheld.carries) hengaging habort

theorem Advance.of_commands {published : Published K}
    (h : Controller.Commands c published) :
    Advance c (.tick nowUs : NodeEvent K I) published.1 published.2 :=
  Advance.of_keeps h.carries.toKeeps h.carries.reading (by simp)
    fun output hout => (h.commanded output hout).2

theorem tickActive_advance {mission : Mission K M I} {n : Node K M} {after : Node.Effect K M}
    (h : n.tickActive mission nowUs = some after) :
    Advance n.base (.tick nowUs : NodeEvent K I) after.1.base after.2 := by
  simp only [Node.tickActive] at h
  split_ifs at h
  · obtain rfl := Option.some.inj h
    exact Advance.of_commands (Controller.beginLanding_commands n.base nowUs)
  · obtain rfl := Option.some.inj h
    exact (Advance.of_carried (Controller.Carries.refl n.base)).toState
      (by simp [FlightState.arming]) (by simp [FlightState.engaging])
  · obtain ⟨computed, -, hpublished⟩ := Option.bind_eq_some_iff.mp h
    obtain ⟨published, hsetpoint, rfl⟩ := Option.map_eq_some_iff.mp hpublished
    obtain ⟨hasked, harms⟩ := answer_carries n.base nowUs (computed.1, computed.2.1)
    have hstreams := Controller.publishMissionSetpoint_streams hsetpoint
    have hcarries := hasked.trans hstreams.carries
    refine Advance.of_keeps hcarries.toKeeps hcarries.reading (by simp) fun output hout => ?_
    rcases List.mem_append.mp hout with hout | hout
    · exact harms output hout
    · exact Output.arms_of_streamed (hstreams.streamed output hout)

/-- A setpoint of the hold and then a command that is retried. -/
theorem retried_advance {held : Published K} (hheld : Controller.Streams c held)
    {command : Command K} (hcommand : (Output.command command).arms = false) :
    Advance c (.tick nowUs : NodeEvent K I) (held.1.publishCommandThrottled nowUs command).1
      (held.2 ++ (held.1.publishCommandThrottled nowUs command).2) := by
  obtain ⟨hretried, -⟩ :=
    Controller.publishCommandThrottled_commands held.1 nowUs hcommand
  have hcarries := hheld.carries.trans hretried.carries
  refine Advance.of_keeps hcarries.toKeeps hcarries.reading (by simp) fun output hout => ?_
  rcases List.mem_append.mp hout with hout | hout
  · exact Output.arms_of_streamed (hheld.streamed output hout)
  · exact (hretried.commanded output hout).2

/-- A vehicle that is disarmed is done. -/
theorem Advance.untilDisarmed (h : Advance c event c' outputs) :
    Advance c event c'.tickUntilDisarmed outputs := by
  unfold Controller.tickUntilDisarmed
  split
  · exact h
  · exact h.toState (by simp [FlightState.arming]) (by simp [FlightState.engaging])

theorem returningHold_streams (c : Controller K) : Controller.Streams c c.returningHold := by
  unfold Controller.returningHold
  split
  · exact Controller.publishHandoffHold_streams c
  · exact ⟨Controller.Carries.refl c, rfl, rfl, by simp⟩

theorem tickReturning_advance :
    Advance c (.tick nowUs : NodeEvent K I) (c.tickReturning nowUs).1
      (c.tickReturning nowUs).2 := by
  unfold Controller.tickReturning
  split
  · exact Advance.of_commands (Controller.beginLanding_commands c nowUs)
  · exact (retried_advance (returningHold_streams c) rfl).untilDisarmed

theorem tickLandRequested_advance :
    Advance c (.tick nowUs : NodeEvent K I) (c.tickLandRequested nowUs).1
      (c.tickLandRequested nowUs).2 := by
  have hstays : Advance c (.tick nowUs : NodeEvent K I) c [] :=
    Advance.of_carried (Controller.Carries.refl c)
  unfold Controller.tickLandRequested
  split
  · exact hstays.toState (by simp [FlightState.arming]) (by simp [FlightState.engaging])
  · split
    · exact hstays.toState (by simp [FlightState.arming]) (by simp [FlightState.engaging])
    · exact retried_advance (Controller.publishHandoffHold_streams c) rfl

/-- One case for each state of the machine. -/
theorem tickState_advance {mission : Mission K M I} {n : Node K M} {after : Node.Effect K M}
    (h : n.tickState mission nowUs = some after) :
    Advance n.base (.tick nowUs : NodeEvent K I) after.1.base after.2 := by
  simp only [Node.tickState] at h
  split at h
  case h_1 =>
    obtain rfl := Option.some.inj h
    exact tickWaitLink_advance mission n nowUs
  case h_2 =>
    obtain rfl := Option.some.inj h
    refine (Advance.of_carried (Controller.Carries.refl n.base)).toState ?_ ?_
    · intro harming
      split at harming
      · exact .inr ‹_›
      · simp [FlightState.arming] at harming
    · intro hengaging
      split at hengaging <;> simp [FlightState.engaging] at hengaging
  case h_3 hstate =>
    obtain ⟨published, hpublished, rfl⟩ := Option.map_eq_some_iff.mp h
    exact tickPrestream_advance hstate hpublished
  case h_4 hstate =>
    obtain rfl := Option.some.inj h
    exact tickTakeoff_advance hstate
  case h_5 hstate =>
    obtain rfl := Option.some.inj h
    exact tickEngage_advance mission n hstate
  case h_6 => exact tickActive_advance h
  case h_7 =>
    obtain rfl := Option.some.inj h
    exact tickReturning_advance
  case h_8 =>
    obtain rfl := Option.some.inj h
    exact tickLandRequested_advance
  case h_9 | h_10 =>
    obtain rfl := Option.some.inj h
    exact (Advance.of_carried (Controller.Carries.refl n.base)).untilDisarmed
  case h_11 =>
    obtain rfl := Option.some.inj h
    exact Advance.of_carried (Controller.Carries.refl n.base)

theorem tick_advance {mission : Mission K M I} {n : Node K M} {after : Node.Effect K M}
    (h : n.tick mission nowUs = some after) :
    Advance n.base (.tick nowUs : NodeEvent K I) after.1.base after.2 := by
  obtain ⟨sent, hsent, htick⟩ := Option.bind_eq_some_iff.mp h
  obtain ⟨ticked, hstate, rfl⟩ := Option.map_eq_some_iff.mp htick
  obtain ⟨hcommands, hsame, habort⟩ := Controller.sendPendingOrigin_commands hsent
  refine (tickState_advance hstate).after_carries hcommands.carries hsame habort ?_
  intro output hout
  rcases List.mem_append.mp hout with hout | hout
  · exact (hcommands.commanded output hout).2
  · split at hout
    · obtain rfl := List.mem_singleton.mp hout
      rfl
    · cases hout

theorem attCb_advance (c : Controller K) (q : Quat K) (yawFinite : Bool) :
    Advance c (.attitude q yawFinite : NodeEvent K I) (c.attCb q yawFinite) [] := by
  have hstays : Advance c (.attitude q yawFinite : NodeEvent K I) c [] :=
    Advance.of_keeps (Controller.Keeps.refl c) rfl (by simp) (by simp)
  simp only [Controller.attCb]
  split
  · rename_i haccepted
    rw [Bool.and_eq_true, decide_eq_true_eq] at haccepted
    obtain ⟨hfinite, hnorm⟩ := haccepted
    exact { hstays with attitude := fun _ => .inr ⟨q, by rw [hfinite], hnorm⟩ }
  · exact hstays

theorem startCb_advance (c : Controller K) (data : Bool) :
    Advance c (.start data : NodeEvent K I) (c.startCb data) [] := by
  have hstays : Advance c (.start data : NodeEvent K I) c [] :=
    Advance.of_keeps (Controller.Keeps.refl c) rfl (by simp) (by simp)
  unfold Controller.startCb
  split
  · rename_i haccepted
    rw [Bool.and_eq_true] at haccepted
    exact { hstays with
      startOk := fun _ => .inr (by rw [haccepted.1])
      keepsStart := fun _ => rfl
      arming := fun _ => .inr rfl }
  · exact hstays

theorem abortCb_advance (c : Controller K) (data : Bool) :
    Advance c (.abort data : NodeEvent K I) (c.abortCb data) [] := by
  unfold Controller.abortCb
  split
  · exact Advance.of_keeps ⟨rfl, rfl, rfl, rfl, fun _ => rfl, fun _ => rfl⟩ rfl (fun _ => rfl)
      (by simp)
  · rename_i hignored
    refine Advance.of_keeps (Controller.Keeps.refl c) rfl (fun hevent => ?_) (by simp)
    obtain rfl : data = true := NodeEvent.abort.inj hevent
    simpa using hignored

theorem endCb_advance (mission : Mission K M I) (n : Node K M) (nowUs : ℤ) (data : Bool) :
    Advance n.base (.endMission nowUs data : NodeEvent K I) (n.endCb mission nowUs data).1.base
      (n.endCb mission nowUs data).2 := by
  unfold Node.endCb
  split
  · have hc : Controller.Keeps n.base { n.base with homeRequested := true } :=
      ⟨rfl, rfl, rfl, rfl, id, fun _ => rfl⟩
    obtain ⟨hasked, harms⟩ := answer_carries { n.base with homeRequested := true } nowUs
      (mission.onReturnHome n.mission { n.base with homeRequested := true } nowUs)
    exact Advance.of_keeps (hc.trans hasked.toKeeps) hasked.reading (by simp) harms
  · exact Advance.of_keeps (Controller.Keeps.refl _) rfl (by simp) (by simp)

/-- Every callback, of every mission. -/
theorem react_advance {mission : Mission K M I} {n : Node K M} {after : Node.Effect K M}
    (h : n.react mission event = some after) : Advance n.base event after.1.base after.2 := by
  cases event with
  | status nowUs msg =>
    obtain rfl := Option.some.inj h
    exact Advance.of_keeps ⟨rfl, rfl, rfl, rfl, id, fun _ => rfl⟩ rfl (by simp) (by simp)
  | position nowUs msg =>
    obtain rfl := Option.some.inj h
    exact posCb_advance mission n nowUs msg
  | attitude q yawFinite =>
    obtain rfl := Option.some.inj h
    exact attCb_advance n.base q yawFinite
  | globalPosition latLonValid altValid =>
    obtain rfl := Option.some.inj h
    exact Advance.of_keeps ⟨rfl, rfl, rfl, rfl, id, fun _ => rfl⟩ rfl (by simp) (by simp)
  | start data =>
    obtain rfl := Option.some.inj h
    exact startCb_advance n.base data
  | endMission nowUs data =>
    obtain rfl := Option.some.inj h
    exact endCb_advance mission n nowUs data
  | abort data =>
    obtain rfl := Option.some.inj h
    exact abortCb_advance n.base data
  | input nowUs input =>
    obtain rfl := Option.some.inj h
    obtain ⟨hasked, harms⟩ := answer_carries n.base nowUs
      (mission.onInput n.mission n.base nowUs input)
    exact Advance.of_keeps hasked.toKeeps hasked.reading (by simp) harms
  | tick nowUs => exact tick_advance h

end Advance

/-! ### Runs -/

/-- The last position message of a run. -/
def lastPosition (events : List (NodeEvent K I)) : Option (LocalPosition K) :=
  (events.filterMap NodeEvent.position?).getLast?

/-- A tick of the run took the launch reference: from the last position message,
which was valid and finite, after an attitude had been accepted. -/
structure LatchedFromTelemetry (mission : Mission K M I) (start : Node K M)
    (events : List (NodeEvent K I)) : Prop where
  latch : ∃ front nowUs back before after msg,
    events = front ++ .tick nowUs :: back ∧
    Runs.run (Node.step mission) start front = some before ∧
    before.step mission (.tick nowUs) = some after ∧
    lastPosition front = some msg ∧
    (msg.xyValid = true ∧ msg.zValid = true ∧ msg.xyFinite = true ∧ msg.zFinite = true) ∧
    (∃ q, .attitude q true ∈ front ∧ 1 / 4 < Quat.normSq q) ∧
    after.base.launchXy = some msg.pos.horizontal ∧ after.base.launchZ = msg.pos.down

/-- What the gates of a controller say about the events it has seen. -/
structure Gated (mission : Mission K M I) (start : Node K M) (events : List (NodeEvent K I))
    (n : Node K M) : Prop where
  run : Runs.run (Node.step mission) start events = some n
  started : n.base.startOk = true → .start true ∈ events
  aborted : .abort true ∈ events → n.base.abortRequested = true
  arming : n.base.state.arming = true → n.base.startOk = true
  engaging : n.base.state.engaging = true → n.base.launchReferenceLatched = true
  heard : n.base.xyValid = true →
    ∃ msg, lastPosition events = some msg ∧ n.base.reading = msg.reading
  attitude : n.base.attitudeSeen = true →
    ∃ q, .attitude q true ∈ events ∧ 1 / 4 < Quat.normSq q
  latched : n.base.launchReferenceLatched = true → LatchedFromTelemetry mission start events

section Gated

variable {mission : Mission K M I} {start n : Node K M} {events : List (NodeEvent K I)}

theorem lastPosition_append_singleton (events : List (NodeEvent K I)) (event : NodeEvent K I) :
    lastPosition (events ++ [event]) = event.position?.or (lastPosition events) := by
  unfold lastPosition
  rw [List.filterMap_append, List.getLast?_append]
  cases hposition : event.position? with
  | none => simp [hposition]
  | some msg => simp [hposition]

/-- The events so far and one more. -/
theorem LatchedFromTelemetry.snoc (h : LatchedFromTelemetry mission start events)
    (event : NodeEvent K I) : LatchedFromTelemetry mission start (events ++ [event]) := by
  obtain ⟨front, nowUs, back, before, after, msg, rfl, hrest⟩ := h.latch
  exact ⟨⟨front, nowUs, back ++ [event], before, after, msg, by simp, hrest⟩⟩

/-- A pose that is ready was heard, and so was an attitude. -/
theorem Gated.ready {nowUs : ℤ} (h : Gated mission start events n)
    (hready : n.base.launchReady nowUs = true) :
    (∃ msg, lastPosition events = some msg ∧ n.base.reading = msg.reading ∧
      (msg.xyValid = true ∧ msg.zValid = true ∧ msg.xyFinite = true ∧ msg.zFinite = true)) ∧
    ∃ q, .attitude q true ∈ events ∧ 1 / 4 < Quat.normSq q := by
  simp only [Controller.launchReady, Bool.and_eq_true] at hready
  obtain ⟨⟨⟨⟨⟨-, hxyV⟩, hzV⟩, hxyF⟩, hzF⟩, hatt⟩ := hready
  obtain ⟨msg, hlast, hreading⟩ := h.heard hxyV
  have hfields := hreading
  simp only [Controller.reading, LocalPosition.reading, Reading.mk.injEq] at hfields
  obtain ⟨-, exyF, ezF, exyV, ezV⟩ := hfields
  exact ⟨⟨msg, hlast, hreading, exyV ▸ hxyV, ezV ▸ hzV, exyF ▸ hxyF, ezF ▸ hzF⟩, h.attitude hatt⟩

/-- Every event keeps what the gates say. -/
theorem Gated.step {event : NodeEvent K I} {n' : Node K M} (h : Gated mission start events n)
    (hstep : n.step mission event = some n') : Gated mission start (events ++ [event]) n' := by
  obtain ⟨after, hreact, rfl⟩ := Option.map_eq_some_iff.mp hstep
  have hmove := react_advance hreact
  have hfront {e : NodeEvent K I} (he : e ∈ events) : e ∈ events ++ [event] :=
    List.mem_append_left _ he
  have hlast {e : NodeEvent K I} (he : event = e) : e ∈ events ++ [event] := by simp [he]
  refine ⟨?_, ?_, ?_, ?_, ?_, ?_, ?_, ?_⟩
  · rw [Runs.run_append, h.run]
    simpa [Runs.run_cons] using hstep
  · intro hstart
    exact (hmove.startOk hstart).elim (fun hc => hfront (h.started hc)) hlast
  · intro habort
    refine hmove.abort ((List.mem_append.mp habort).imp h.aborted fun hevent => ?_)
    exact (List.mem_singleton.mp hevent).symm
  · intro harming
    exact (hmove.arming harming).elim (fun hc => hmove.keepsStart (h.arming hc)) id
  · intro hengaging
    exact (hmove.engaging hengaging).elim (fun hc => hmove.keepsLatched (h.engaging hc)) id
  · intro hvalid
    rw [lastPosition_append_singleton]
    have hreading := hmove.reading
    cases hposition : event.position? with
    | some msg =>
      rw [hposition] at hreading
      exact ⟨msg, rfl, hreading⟩
    | none =>
      rw [hposition] at hreading
      have hbefore : n.base.xyValid = true :=
        (congrArg Reading.xyValid hreading).symm.trans hvalid
      obtain ⟨msg, hmsg, heq⟩ := h.heard hbefore
      exact ⟨msg, hmsg, hreading.trans heq⟩
  · intro hseen
    rcases hmove.attitude hseen with hc | ⟨q, hevent, hnorm⟩
    · obtain ⟨q, hq, hnorm⟩ := h.attitude hc
      exact ⟨q, hfront hq, hnorm⟩
    · exact ⟨q, hlast hevent, hnorm⟩
  · intro hlatched
    rcases hmove.latched hlatched with hc | ⟨nowUs, rfl, hready, hxy, hz⟩
    · exact (h.latched hc).snoc event
    · obtain ⟨⟨msg, hmsg, hreading, hvalid⟩, hattitude⟩ := h.ready hready
      have hpos : n.base.pos = msg.pos := congrArg Reading.pos hreading
      exact ⟨⟨events, nowUs, [], n, after.1, msg, rfl, h.run, hstep, hmsg, hvalid, hattitude,
        hpos ▸ hxy, hpos ▸ hz⟩⟩

/-- A node that waits for the start, as it is created. -/
theorem Gated.new (mission : Mission K M I) {params : Params K}
    (hwait : params.waitForStart = true) (m : M) :
    Gated mission ⟨Controller.new params, m⟩ [] ⟨Controller.new params, m⟩ where
  run := rfl
  started := by simp [Controller.new, hwait]
  aborted := by simp
  arming := by simp [Controller.new, FlightState.arming]
  engaging := by simp [Controller.new, FlightState.engaging]
  heard := by simp [Controller.new]
  attitude := by simp [Controller.new]
  latched := by simp [Controller.new]

theorem run_gated {params : Params K} (hwait : params.waitForStart = true) {m : M}
    (hrun : Runs.run (Node.step mission) ⟨Controller.new params, m⟩ events = some n) :
    Gated mission ⟨Controller.new params, m⟩ events n :=
  Runs.run_history (Node.step mission) (Gated mission ⟨Controller.new params, m⟩)
    (fun _ _ _ _ h hstep => h.step hstep) (Gated.new mission hwait m) hrun

end Gated

/-- In every run of a node that waits for the start, whatever the mission, an arm
command is published only after a start gate, by a controller whose launch
reference was taken from valid telemetry, and before any abort was asked for. -/
theorem arms_only_when_gated (mission : Mission K M I) {params : Params K}
    (hwait : params.waitForStart = true) (m : M) {events : List (NodeEvent K I)}
    {event : NodeEvent K I} {n n' : Node K M} {outputs : List (Output K)} {force : Bool}
    (hrun : Runs.run (Node.step mission) ⟨Controller.new params, m⟩ events = some n)
    (hreact : n.react mission event = some (n', outputs))
    (harm : .command (.arm force) ∈ outputs) :
    .start true ∈ events ∧ n.base.launchReferenceLatched = true ∧
      LatchedFromTelemetry mission ⟨Controller.new params, m⟩ events ∧
      .abort true ∉ events ∧ n.base.abortRequested = false := by
  have hgated := run_gated hwait hrun
  obtain ⟨hengaging, habort⟩ := (react_advance hreact).arms _ harm rfl
  have hlatched := hgated.engaging hengaging
  have harming := hgated.arming (FlightState.arming_of_engaging hengaging)
  refine ⟨hgated.started harming, hlatched, hgated.latched hlatched, ?_, habort⟩
  intro hevent
  have hset := hgated.aborted hevent
  rw [habort] at hset
  cases hset

/-- The base class alone, with one cycle before the takeoff. -/
def gatedNode : Node ℚ Unit :=
  ⟨Controller.new { waitForStart := true, prestreamCycles := 1 }, ()⟩

/-- Telemetry, the start gate, and ticks until the controller engages. -/
def gatedEvents : List (NodeEvent ℚ Unit) :=
  [.status 0 ⟨.other, armingStateDisarmed, false⟩, .attitude ⟨1, 0, 0, 0⟩ true,
    .position 0 ⟨⟨1, 2, 0⟩, true, true, ⟨0, 0, 0⟩, true, true, true, ⟨0, 0, 0⟩, (0, 0), 0, 0⟩,
    .start true, .tick 1000000, .tick 4000000]

theorem arms_only_when_gated_base : ∃ n after force,
    Runs.run (Node.step (Mission.base ℚ Unit)) gatedNode gatedEvents = some n ∧
    n.react (Mission.base ℚ Unit) (.tick 5000000) = some after ∧
    .command (.arm force) ∈ after.2 ∧ .start true ∈ gatedEvents ∧
    n.base.launchReferenceLatched = true ∧
    LatchedFromTelemetry (Mission.base ℚ Unit) gatedNode gatedEvents ∧
    .abort true ∉ gatedEvents ∧ n.base.abortRequested = false := by
  have harms : (((Runs.run (Node.step (Mission.base ℚ Unit)) gatedNode gatedEvents).bind fun n =>
      (n.react (Mission.base ℚ Unit) (.tick 5000000)).map fun after => (n, after)).any
        fun found => found.2.2.any Output.arms) = true := by
    decide +kernel
  obtain ⟨⟨n, after⟩, hfound, hany⟩ := (Option.any_eq_true _ _).mp harms
  obtain ⟨m, hrun, hreact⟩ := Option.bind_eq_some_iff.mp hfound
  obtain ⟨after', hafter, hpair⟩ := Option.map_eq_some_iff.mp hreact
  obtain ⟨rfl, rfl⟩ := Prod.mk.inj hpair
  obtain ⟨output, hout, harm⟩ := List.any_eq_true.mp hany
  obtain ⟨force, rfl⟩ := Output.eq_of_arms harm
  exact ⟨m, after', force, hrun, hafter, hout,
    arms_only_when_gated (Mission.base ℚ Unit) rfl () hrun hafter hout⟩

end Mission10.Flight
