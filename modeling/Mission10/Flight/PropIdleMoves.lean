import Mission10.Flight.PropIdle
import Mission10.Library.Runs

/-!
# What one event does to the prop-idle mission

A step of the node is one of a few moves between the stages of the mission. The
moves name the stage that a step starts from, what it has seen of the vehicle
and all that it publishes; the results about runs are case splits over them.
-/
namespace Mission10.Flight

open Engine MathOps

set_option linter.unusedSectionVars false

variable {K : Type*} [Field K] [LinearOrder K] [MathOps K]

namespace IdleState

/-- Before the attempt. -/
def waiting : IdleState → Bool
  | .waitLink | .waitStart => true
  | _ => false

/-- The stages in which a tick publishes outputs that are not stopped. -/
def streaming : IdleState → Bool
  | .prestream | .waitOffboard | .waitArm | .holdMinimum => true
  | _ => false

/-- The cleanup has begun or is over. -/
def cleaning : IdleState → Bool
  | .normalDisarm | .forceDisarm | .done => true
  | _ => false

/-- The order of the stages. -/
def rank : IdleState → ℕ
  | .waitLink | .waitStart => 0
  | .prestream => 1
  | .waitOffboard => 2
  | .waitArm => 3
  | .holdMinimum => 4
  | .normalDisarm => 5
  | .forceDisarm => 6
  | .done => 7

theorem waiting_iff (state : IdleState) : state.waiting = true ↔ state.rank = 0 := by
  cases state <;> simp [waiting, rank]

theorem streaming_iff (state : IdleState) :
    state.streaming = true ↔ 1 ≤ state.rank ∧ state.rank ≤ 4 := by
  cases state <;> simp [streaming, rank]

theorem cleaning_of_streaming {state : IdleState} (h : state.streaming = true) :
    state.cleaning = false := by
  cases state <;> simp_all [streaming, cleaning]

theorem cleaning_iff (state : IdleState) : state.cleaning = true ↔ 5 ≤ state.rank := by
  cases state <;> simp [cleaning, rank]

end IdleState

namespace PropIdle

/-- The moves of the mission. -/
inductive Move (n : PropIdle K) : IdleEvent → PropIdle K → List IdleOutput → Prop
  | heard (nowUs : ℤ) (msg : VehicleStatus) : Move n (.status nowUs msg) (n.statusCb nowUs msg) []
  | requested : Move n (.start true) { n with startRequested := true } []
  | idle (event : IdleEvent) (hevent : ∀ nowUs msg, event ≠ .status nowUs msg)
      (htick : ∀ nowUs, event = .tick nowUs → n.state.streaming = false) : Move n event n []
  | linked (nowUs : ℤ) (state : IdleState) (hstate : n.state.waiting = true)
      (hnext : state.waiting = true) : Move n (.tick nowUs) (n.setState nowUs state) []
  | attempts (nowUs : ℤ) (status : VehicleStatus) (hstate : n.state.waiting = true)
      (hrequested : n.startRequested = true) (hstatus : n.status = some status)
      (hdisarmed : status.armingState = armingStateDisarmed)
      (hfresh : n.statusFresh nowUs = true) :
      Move n (.tick nowUs) ({ n with attempted := true }.setState nowUs .prestream) []
  | refused (event : IdleEvent) (nowUs : ℤ) (message : String)
      (hevent : ∀ nowUs msg, event ≠ .status nowUs msg) (hstate : n.state.waiting = true) :
      Move n event ({ n with attempted := true }.setState nowUs .done) [.finished message]
  | streams (nowUs : ℤ) (hstate : n.state.streaming = true)
      (hhold : n.state = .holdMinimum → n.elapsed nowUs < n.params.armedSeconds) :
      Move n (.tick nowUs) n [.motors false nowUs]
  | asksOffboard (nowUs : ℤ) (hstate : n.state = .prestream) :
      Move n (.tick nowUs) (n.setState nowUs .waitOffboard) [.motors false nowUs, .offboardMode]
  | arms (nowUs : ℤ) (status : VehicleStatus) (hstate : n.state = .waitOffboard)
      (hstatus : n.status = some status) (hoffboard : status.navState = .offboard)
      (hfresh : n.statusFresh nowUs = true) :
      Move n (.tick nowUs) (n.setState nowUs .waitArm) [.motors false nowUs, .arm]
  | holds (nowUs : ℤ) (hstate : n.state = .waitArm) :
      Move n (.tick nowUs) (n.setState nowUs .holdMinimum) [.motors false nowUs]
  | disarms (event : IdleEvent) (nowUs : ℤ) (reason : String) (front : List IdleOutput)
      (hevent : ∀ nowUs msg, event ≠ .status nowUs msg) (hstate : n.state.streaming = true)
      (hfront : front = [] ∨ front = [.motors false nowUs] ∧ event = .tick nowUs) :
      Move n event (n.setState nowUs .normalDisarm)
        (front ++ [.cleanup reason, .motors true nowUs, .disarm false])
  | ends (event : IdleEvent) (nowUs : ℤ) (reason : String) (front : List IdleOutput)
      (hevent : ∀ nowUs msg, event ≠ .status nowUs msg) (hstate : n.state.streaming = true)
      (harmed : n.isArmed = false)
      (hfront : (front = [] ∧ ∀ nowUs, event ≠ .tick nowUs) ∨
        front = [.motors false nowUs] ∧ event = .tick nowUs ∧ n.statusFresh nowUs = true) :
      Move n event (n.setState nowUs .done)
        (front ++ [.cleanup reason, .motors true nowUs, .finished "disarm confirmed"])
  | forces (nowUs : ℤ) (reason : String) (stopped : Bool)
      (hstate : n.state.streaming = true ∨ n.state = .normalDisarm)
      (hstopped : stopped = false → n.state.streaming = true) :
      Move n (.tick nowUs) ({ n with lastForceDisarmUs := 0 }.setState nowUs .forceDisarm)
        [.motors stopped nowUs, .cleanup reason]
  | finishes (nowUs : ℤ) (message : String) (stopped : Bool)
      (hstate : n.state = .holdMinimum ∨ n.state = .normalDisarm ∨ n.state = .forceDisarm)
      (hstopped : stopped = false → n.state = .holdMinimum)
      (harmed : n.isArmed = false) (hfresh : n.statusFresh nowUs = true) :
      Move n (.tick nowUs) (n.setState nowUs .done) [.motors stopped nowUs, .finished message]
  | stops (nowUs : ℤ) (outputs : List IdleOutput)
      (hstate : n.state = .normalDisarm ∨ n.state = .forceDisarm)
      (houtputs : ∀ output ∈ outputs, output = .motors true nowUs) :
      Move n (.tick nowUs) n outputs
  | forcesAgain (nowUs : ℤ) (hstate : n.state = .forceDisarm) :
      Move n (.tick nowUs) { n with lastForceDisarmUs := nowUs }
        [.motors true nowUs, .motors true nowUs, .disarm true]
  | shutsDown (nowUs nextUs : ℤ) (outputs : List IdleOutput)
      (houtputs : ∀ output ∈ outputs, output = .motors true nowUs ∨ output = .disarm true) :
      Move n (.shutdown nowUs) { n with shutdownNextUs := nextUs } outputs

variable {n : PropIdle K} {event : IdleEvent} {nowUs : ℤ} {status : VehicleStatus}

/-! ### Every callback is one of the moves -/

theorem beginCleanup_moves (reason : String) {front : List IdleOutput}
    (hevent : ∀ nowUs msg, event ≠ .status nowUs msg) (hstate : n.state.streaming = true)
    (hfront : (front = [] ∧ ∀ nowUs, event ≠ .tick nowUs) ∨
      front = [.motors false nowUs] ∧ event = .tick nowUs ∧ n.statusFresh nowUs = true) :
    Move n event (n.beginCleanup nowUs reason).1 (front ++ (n.beginCleanup nowUs reason).2) := by
  simp only [beginCleanup]
  split
  · exact .disarms event nowUs reason front hevent hstate (hfront.imp And.left fun h => ⟨h.1, h.2.1⟩)
  · rename_i harmed
    exact .ends event nowUs reason front hevent hstate (by simpa using harmed) hfront

theorem endOrAbort_moves (n : PropIdle K) (nowUs : ℤ) (reason : String)
    (hevent : ∀ nowUs msg, event ≠ .status nowUs msg) (htick : ∀ nowUs, event ≠ .tick nowUs) :
    Move n event (n.endOrAbort nowUs reason).1 (n.endOrAbort nowUs reason).2 := by
  have hidle : Move n event n [] := .idle event hevent fun t ht => absurd ht (htick t)
  cases hstate : n.state <;> simp only [endOrAbort, hstate]
  case normalDisarm | forceDisarm | done => exact hidle
  case waitLink | waitStart => exact .refused event nowUs _ hevent (by rw [hstate]; rfl)
  all_goals
    exact beginCleanup_moves reason hevent (by rw [hstate]; rfl) (.inl ⟨rfl, htick⟩)

theorem beginAttempt_moves (hstate : n.state.waiting = true)
    (hrequested : n.startRequested = true) (hfresh : n.statusFresh nowUs = true) :
    Move n (.tick nowUs) (n.beginAttempt nowUs).1 (n.beginAttempt nowUs).2 := by
  simp only [beginAttempt]
  split
  · exact .refused (.tick nowUs) nowUs _ (by simp) hstate
  · rename_i status hstatus
    split_ifs with hdisarmed hfailsafe
    · exact .refused (.tick nowUs) nowUs _ (by simp) hstate
    · exact .refused (.tick nowUs) nowUs _ (by simp) hstate
    · exact .attempts nowUs status hstate hrequested hstatus (not_not.mp hdisarmed) hfresh

theorem tickWaitStart_moves (hstate : n.state.waiting = true) :
    Move n (.tick nowUs) (n.tickWaitStart nowUs).1 (n.tickWaitStart nowUs).2 := by
  unfold tickWaitStart
  split
  · split
    · exact beginAttempt_moves hstate ‹_› ‹_›
    · refine .idle (.tick nowUs) (by simp) fun _ _ => ?_
      cases hcase : n.state <;> simp_all [IdleState.waiting, IdleState.streaming]
  · exact .linked nowUs .waitLink hstate rfl

/-- The node that has just seen a link waits for the start. -/
theorem tickWaitStart_linked (hstate : n.state.waiting = true) :
    Move n (.tick nowUs) ((n.setState nowUs .waitStart).tickWaitStart nowUs).1
      ((n.setState nowUs .waitStart).tickWaitStart nowUs).2 := by
  unfold tickWaitStart
  split
  · split
    · rename_i hfresh hrequested
      simp only [beginAttempt]
      split
      · exact .refused (.tick nowUs) nowUs _ (by simp) hstate
      · rename_i status hstatus
        split_ifs with hdisarmed hfailsafe
        · exact .refused (.tick nowUs) nowUs _ (by simp) hstate
        · exact .refused (.tick nowUs) nowUs _ (by simp) hstate
        · exact .attempts nowUs status hstate hrequested hstatus (not_not.mp hdisarmed) hfresh
    · exact .linked nowUs .waitStart hstate rfl
  · exact .linked nowUs .waitLink hstate rfl

theorem sendForcedDisarm_moves (hstate : n.state = .forceDisarm) :
    Move n (.tick nowUs) (n.sendForcedDisarm nowUs).1
      ([.motors true nowUs] ++ (n.sendForcedDisarm nowUs).2) := by
  unfold sendForcedDisarm
  split
  · exact .forcesAgain nowUs hstate
  · exact .stops nowUs _ (.inr hstate) (by simp)

/-- The state machine of an attempt, one case for each stage. -/
theorem tickAttempt_moves (hstatus : n.status = some status)
    (hfresh : n.statusFresh nowUs = true) (hstate : n.state.streaming = true ∨
      n.state = .normalDisarm ∨ n.state = .forceDisarm) :
    Move n (.tick nowUs) (n.tickAttempt nowUs status).1
      (n.outputsForState nowUs ++ (n.tickAttempt nowUs status).2) := by
  have hfront {front : List IdleOutput} (h : front = [.motors false nowUs]) :
      (front = [] ∧ ∀ t, (.tick nowUs : IdleEvent) ≠ .tick t) ∨ front = [.motors false nowUs] ∧
        (.tick nowUs : IdleEvent) = .tick nowUs ∧ n.statusFresh nowUs = true :=
    .inr ⟨h, rfl, hfresh⟩
  cases hcase : n.state <;> simp only [tickAttempt, outputsForState, hcase]
  case waitLink | waitStart | done => simp [hcase, IdleState.streaming] at hstate
  case prestream =>
    split
    · exact .asksOffboard nowUs hcase
    · exact .streams nowUs (by rw [hcase]; rfl) (by simp [hcase])
  case waitOffboard =>
    split_ifs with hoffboard
    · exact .arms nowUs status hcase hstatus hoffboard hfresh
    · exact beginCleanup_moves _ (by simp) (by rw [hcase]; rfl) (hfront rfl)
    · exact .streams nowUs (by rw [hcase]; rfl) (by simp [hcase])
  case waitArm =>
    split_ifs
    · exact beginCleanup_moves _ (by simp) (by rw [hcase]; rfl) (hfront rfl)
    · exact .holds nowUs hcase
    · exact beginCleanup_moves _ (by simp) (by rw [hcase]; rfl) (hfront rfl)
    · exact .streams nowUs (by rw [hcase]; rfl) (by simp [hcase])
  case holdMinimum =>
    split_ifs with harmed hmode helapsed
    · exact .finishes nowUs _ false (.inl hcase) (fun _ => hcase) (by simpa using harmed) hfresh
    · exact beginCleanup_moves _ (by simp) (by rw [hcase]; rfl) (hfront rfl)
    · exact beginCleanup_moves _ (by simp) (by rw [hcase]; rfl) (hfront rfl)
    · exact .streams nowUs (by rw [hcase]; rfl) fun _ => not_le.mp helapsed
  case normalDisarm =>
    split_ifs with harmed
    · exact .finishes nowUs _ true (.inr (.inl hcase)) (by simp) (by simpa using harmed) hfresh
    · exact .forces nowUs _ true (.inr hcase) (by simp)
    · exact .stops nowUs _ (.inl hcase) (by simp)
  case forceDisarm =>
    split_ifs with harmed
    · exact .finishes nowUs _ true (.inr (.inr hcase)) (by simp) (by simpa using harmed) hfresh
    · exact sendForcedDisarm_moves hcase

/-- A stale status leads to the forced disarm. -/
theorem stale_moves (hstate : n.state.streaming = true ∨
      n.state = .normalDisarm ∨ n.state = .forceDisarm) (reason : String) :
    Move n (.tick nowUs)
      (if n.state = .forceDisarm then n.sendForcedDisarm nowUs
        else n.beginForcedDisarm nowUs reason).1
      (n.outputsForState nowUs ++ (if n.state = .forceDisarm then n.sendForcedDisarm nowUs
        else n.beginForcedDisarm nowUs reason).2) := by
  split
  · rename_i hforce
    have houtputs : n.outputsForState nowUs = [.motors true nowUs] := by
      simp [outputsForState, hforce]
    rw [houtputs]
    exact sendForcedDisarm_moves hforce
  · rename_i hnot
    have hstate' : n.state.streaming = true ∨ n.state = .normalDisarm :=
      hstate.imp_right fun h => h.resolve_right hnot
    have houtputs : ∃ stopped, n.outputsForState nowUs = [.motors stopped nowUs] ∧
        (stopped = false → n.state.streaming = true) := by
      cases hcase : n.state <;> simp_all [outputsForState, IdleState.streaming]
    obtain ⟨stopped, houtputs, hstopped⟩ := houtputs
    rw [houtputs]
    exact .forces nowUs _ stopped hstate' hstopped

theorem tickFresh_moves (hstate : n.state.streaming = true ∨
      n.state = .normalDisarm ∨ n.state = .forceDisarm) :
    Move n (.tick nowUs) (n.tickFresh nowUs).1
      (n.outputsForState nowUs ++ (n.tickFresh nowUs).2) := by
  unfold tickFresh
  split
  · split
    · exact tickAttempt_moves ‹_› ‹_› hstate
    · exact stale_moves hstate _
  · exact stale_moves hstate _

theorem tick_moves (n : PropIdle K) (nowUs : ℤ) :
    Move n (.tick nowUs) (n.tick nowUs).1 (n.tick nowUs).2 := by
  have hidle (h : n.state.streaming = false) : Move n (.tick nowUs) n [] :=
    .idle (.tick nowUs) (by simp) fun _ _ => h
  cases hcase : n.state <;> simp only [tick, hcase]
  case waitLink =>
    split
    · exact tickWaitStart_linked (by rw [hcase]; rfl)
    · exact hidle (by rw [hcase]; rfl)
  case waitStart => exact tickWaitStart_moves (by rw [hcase]; rfl)
  case done => exact hidle (by rw [hcase]; rfl)
  case normalDisarm => exact tickFresh_moves (.inr (.inl hcase))
  case forceDisarm => exact tickFresh_moves (.inr (.inr hcase))
  all_goals exact tickFresh_moves (.inl (by rw [hcase]; rfl))

/-- Every event is a move. -/
theorem react_moves (n : PropIdle K) (event : IdleEvent) :
    Move n event (n.react event).1 (n.react event).2 := by
  cases event with
  | status nowUs msg => exact .heard nowUs msg
  | start data =>
    simp only [react, startCb]
    split
    · exact .idle (.start data) (by simp) (by simp)
    · rename_i haccepted
      obtain rfl : data = true := by
        cases data with
        | true => rfl
        | false => simp at haccepted
      exact .requested
  | endMission nowUs data =>
    simp only [react, endCb]
    split
    · exact endOrAbort_moves n nowUs _ (by simp) (by simp)
    · exact .idle _ (by simp) (by simp)
  | abort nowUs data =>
    simp only [react, abortCb]
    split
    · exact endOrAbort_moves n nowUs _ (by simp) (by simp)
    · exact .idle _ (by simp) (by simp)
  | tick nowUs => exact tick_moves n nowUs
  | shutdown nowUs =>
    simp only [react, shutdownPass]
    split_ifs
    · exact .idle _ (by simp) (by simp)
    · exact .shutsDown nowUs (nowUs + 200000) _ (by simp)
    · exact .shutsDown nowUs n.shutdownNextUs _ (by simp)

end PropIdle

end Mission10.Flight
