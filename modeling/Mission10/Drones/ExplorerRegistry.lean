import Mission10.Library.Dict
import Mission10.Library.Runs
import Mathlib.Data.Rat.Defs

/-!
# The manager's registry of explorer drones

Messages of the drones are handled by two server threads; after every datagram
one of them sweeps the drones that were silent. A handler and a sweep are steps
on the dictionaries and the counter that they share, `none` when one raises.
-/
namespace Mission10.Drones

open Runs

inductive DroneStatus where
  | idle
  | working
  | finished
  deriving DecidableEq

structure DroneRecord where
  droneHost : String
  dronePort : ℤ
  status : DroneStatus
  deriving DecidableEq

/-- A value of the dictionary of drones: a record, or the bare text of a sweep. -/
inductive RegistryValue where
  | record (record : DroneRecord)
  | text (status : String)
  deriving DecidableEq

def RegistryValue.isRecord : RegistryValue → Bool
  | .record _ => true
  | .text _ => false

def RegistryValue.isFinished : RegistryValue → Bool
  | .record drone => decide (drone.status = .finished)
  | .text _ => false

/-- What a handler may raise. -/
inductive ManagerError where
  | keyError
  | typeError
  | valueError
  | connectionError
  | systemExit
  deriving DecidableEq

structure Registry where
  expDrones : Dict String RegistryValue := Dict.empty
  droneLastSeen : Dict String ℚ := Dict.empty
  finishedDrones : ℕ := 0
  selfFinished : Bool := false
  shutdownFlag : Bool := false
  missionStatus : String := "pre-mission"

def droneKey (host : String) (port : ℤ) : String := host ++ "_" ++ toString port

/-- What connecting to a drone ends with. -/
inductive ConnectResult where
  | connected
  | refused
  | failed
  deriving DecidableEq

namespace Registry

/-- Store a fresh record of a drone and the time it was heard of. -/
def hear (s : Registry) (host : String) (port : ℤ) (status : DroneStatus) (now : ℚ) : Registry :=
  { s with
    expDrones := s.expDrones.set (droneKey host port)
      (.record { droneHost := host, dronePort := port, status })
    droneLastSeen := s.droneLastSeen.set (droneKey host port) now }

/-- A registration is acknowledged over a connection that is not guarded. -/
def handleRegistration (s : Registry) (host : String) (port : ℤ) (now : ℚ)
    (connect : ConnectResult) : Except ManagerError Registry :=
  if connect = .connected then .ok (s.hear host port .idle now) else .error .connectionError

def handleHeartbeat (s : Registry) (host : String) (port : ℤ) (now : ℚ) : Registry :=
  s.hear host port .working now

def handleFinished (s : Registry) (host : String) (port : ℤ) : Except ManagerError Registry :=
  match s.expDrones.get (droneKey host port) with
  | none => .error .keyError
  | some (.text _) => .error .typeError
  | some (.record record) =>
    if record.status = .working then
      let expDrones := s.expDrones.set (droneKey host port)
        (.record { record with status := .finished })
      let finishedDrones := s.finishedDrones + 1
      if finishedDrones = expDrones.values.length then
        .ok { s with expDrones, finishedDrones, selfFinished := true, shutdownFlag := true }
      else .ok { s with expDrones, finishedDrones }
    else .error .systemExit

/-- Every drone silent for five seconds is stored as idle. -/
def sweep (s : Registry) (timeNow : ℚ) : Registry :=
  { s with
    expDrones := s.droneLastSeen.entries.foldl
      (fun drones entry =>
        if timeNow - entry.2 ≥ 5 then drones.set entry.1 (.text "idle") else drones)
      s.expDrones }

/-- The host and the port of a key. -/
def workerAddress (key : String) : Option (String × ℤ) :=
  match key.trimAscii.toString.splitOn "_" with
  | [host, port] => port.toInt?.map fun port => (host, port)
  | _ => none

/-- The loop over the drones; one that refuses is skipped. -/
def contact (connect : String → ℤ → ConnectResult) :
    List (String × RegistryValue) → Except ManagerError Unit
  | [] => .ok ()
  | (_, .text _) :: _ => .error .typeError
  | (key, .record record) :: rest =>
    if record.status = .working then
      match workerAddress key with
      | none => .error .valueError
      | some (host, port) =>
        if connect host port = .failed then .error .connectionError else contact connect rest
    else contact connect rest

def handleRunDrones (s : Registry) (connect : String → ℤ → ConnectResult) :
    Except ManagerError Registry :=
  match contact connect s.expDrones.entries with
  | .ok () => .ok { s with missionStatus := "in_mission" }
  | .error e => .error e

end Registry

/-- A message with what the clock and the network answer, or a sweep. -/
inductive RegistryEvent where
  | registration (host : String) (port : ℤ) (now : ℚ) (connect : ConnectResult)
  | heartbeat (host : String) (port : ℤ) (now : ℚ)
  | finished (host : String) (port : ℤ)
  | sweep (timeNow : ℚ)
  | runDrones (connect : String → ℤ → ConnectResult)

namespace Registry

def handle (s : Registry) : RegistryEvent → Except ManagerError Registry
  | .registration host port now connect => s.handleRegistration host port now connect
  | .heartbeat host port now => .ok (s.handleHeartbeat host port now)
  | .finished host port => s.handleFinished host port
  | .sweep timeNow => .ok (s.sweep timeNow)
  | .runDrones connect => s.handleRunDrones connect

def step (s : Registry) (e : RegistryEvent) : Option Registry := (s.handle e).toOption

/-- All values are records, and the counter counts the finished ones. -/
structure Consistent (s : Registry) : Prop where
  records : ∀ v ∈ s.expDrones.values, v.isRecord = true
  count : s.finishedDrones = s.expDrones.values.countP RegistryValue.isFinished

/-- The law of a step: it does not raise, keeps the registry consistent, and ends
the service only when every drone has finished. -/
structure Keeps (s : Registry) (e : RegistryEvent) : Prop where
  noRaise : ∃ s', s.step e = some s'
  consistent : ∀ s', s.step e = some s' → s'.Consistent
  ended : ∀ s', s.step e = some s' → s'.selfFinished = true → s.selfFinished = false →
    ∀ v ∈ s'.expDrones.values, v.isFinished = true

/-- The drone is not marked finished. -/
def NotFinished (s : Registry) (key : String) : Prop :=
  ∀ v, s.expDrones.get key = some v → v.isFinished = false

/-- The message or the sweep meets the registry in a state for it. -/
def Orderly (s : Registry) : RegistryEvent → Prop
  | .registration host port _ connect =>
    connect = .connected ∧ s.NotFinished (droneKey host port)
  | .heartbeat host port _ => s.NotFinished (droneKey host port)
  | .finished host port =>
    ∃ record, s.expDrones.get (droneKey host port) = some (.record record) ∧
      record.status = .working
  | .sweep timeNow => ∀ entry ∈ s.droneLastSeen.entries, timeNow - entry.2 < 5
  | .runDrones connect =>
    ∀ key record, (key, RegistryValue.record record) ∈ s.expDrones.entries →
      record.status = .working →
      ∃ host port, workerAddress key = some (host, port) ∧ connect host port ≠ .failed

/-! ### What each step does -/

theorem step_eq_some_iff {s s' : Registry} {e : RegistryEvent} :
    s.step e = some s' ↔ s.handle e = .ok s' := by
  unfold step
  cases s.handle e with
  | error err => simp [Except.toOption]
  | ok t => simp [Except.toOption]

theorem consistent_start : Consistent {} := by
  constructor
  · intro v hv
    cases hv
  · rfl

/-- Hearing of a drone keeps the count unless the drone was marked finished. -/
theorem hear_consistent_iff {s : Registry} (h : s.Consistent) (host : String) (port : ℤ)
    {status : DroneStatus} (hstatus : status ≠ .finished) (now : ℚ) :
    (s.hear host port status now).Consistent ↔ s.NotFinished (droneKey host port) := by
  have hrecords := (s.expDrones.forall_values_set (droneKey host port)
    (.record { droneHost := host, dronePort := port, status }) h.records).mpr rfl
  have hcount := s.expDrones.countP_set RegistryValue.isFinished (droneKey host port)
    (.record { droneHost := host, dronePort := port, status })
  have hnew : [RegistryValue.record { droneHost := host, dronePort := port, status }].countP
      RegistryValue.isFinished = 0 := by
    simp [RegistryValue.isFinished, hstatus]
  have hold : (s.expDrones.get (droneKey host port)).toList.countP RegistryValue.isFinished = 0 ↔
      s.NotFinished (droneKey host port) := by
    unfold NotFinished
    cases s.expDrones.get (droneKey host port) with
    | none => simp
    | some v => cases hv : v.isFinished <;> simp [hv]
  rw [← hold]
  constructor
  · intro hafter
    have heq := hafter.count
    have hbefore := h.count
    simp only [hear] at heq
    omega
  · intro hzero
    refine ⟨hrecords, ?_⟩
    have hbefore := h.count
    simp only [hear]
    omega

/-- What the handler of a finished drone leaves. -/
theorem handleFinished_ok {s s' : Registry} {host : String} {port : ℤ}
    (h : s.handleFinished host port = .ok s') :
    ∃ record, s.expDrones.get (droneKey host port) = some (.record record) ∧
      record.status = .working ∧
      s'.expDrones = s.expDrones.set (droneKey host port)
        (.record { record with status := .finished }) ∧
      s'.finishedDrones = s.finishedDrones + 1 ∧
      (s'.selfFinished = true → s.selfFinished = false →
        s'.finishedDrones = s'.expDrones.values.length) := by
  unfold handleFinished at h
  split at h
  · cases h
  · cases h
  · next record hget =>
    split_ifs at h with hworking
    dsimp only at h
    split_ifs at h with hall
    · obtain rfl := Except.ok.inj h
      exact ⟨record, hget, hworking, rfl, rfl, fun _ _ => hall⟩
    · obtain rfl := Except.ok.inj h
      refine ⟨record, hget, hworking, rfl, rfl, ?_⟩
      intro htrue hfalse
      exact absurd (htrue.symm.trans hfalse) Bool.noConfusion

theorem handleFinished_text {s : Registry} {host : String} {port : ℤ} {status : String}
    (h : s.expDrones.get (droneKey host port) = some (.text status)) :
    s.handleFinished host port = .error .typeError := by
  unfold handleFinished
  rw [h]

theorem handleFinished_consistent {s s' : Registry} (hs : s.Consistent) {host : String} {port : ℤ}
    (h : s.handleFinished host port = .ok s') : s'.Consistent := by
  obtain ⟨record, hget, hworking, hdrones, hfinished, -⟩ := handleFinished_ok h
  have hcount := s.expDrones.countP_set RegistryValue.isFinished (droneKey host port)
    (.record { record with status := .finished })
  have hold : (s.expDrones.get (droneKey host port)).toList.countP
      RegistryValue.isFinished = 0 := by
    simp [hget, RegistryValue.isFinished, hworking]
  have hnew : [RegistryValue.record { record with status := .finished }].countP
      RegistryValue.isFinished = 1 := by
    simp [RegistryValue.isFinished]
  constructor
  · rw [hdrones]
    exact (s.expDrones.forall_values_set _ _ hs.records).mpr rfl
  · have hbefore := hs.count
    rw [hfinished, hdrones]
    omega

theorem handleFinished_total {s : Registry} {host : String} {port : ℤ} {record : DroneRecord}
    (hget : s.expDrones.get (droneKey host port) = some (.record record))
    (hworking : record.status = .working) : ∃ s', s.handleFinished host port = .ok s' := by
  unfold handleFinished
  rw [hget]
  dsimp only
  rw [if_pos hworking]
  split_ifs
  · exact ⟨_, rfl⟩
  · exact ⟨_, rfl⟩

/-- As many finished ones as there are values means that all are. -/
theorem all_finished {s : Registry} (hs : s.Consistent)
    (hall : s.finishedDrones = s.expDrones.values.length) :
    ∀ v ∈ s.expDrones.values, v.isFinished = true := by
  rw [hs.count] at hall
  exact List.countP_eq_length.mp hall

/-- A sweep leaves records only when no drone was silent. -/
theorem sweep_records_iff (drones : Dict String RegistryValue) (timeNow : ℚ)
    (entries : List (String × ℚ)) :
    (∀ v ∈ (entries.foldl (fun drones entry =>
        if timeNow - entry.2 ≥ 5 then drones.set entry.1 (.text "idle") else drones)
        drones).values, v.isRecord = true) ↔
      (∀ v ∈ drones.values, v.isRecord = true) ∧ ∀ entry ∈ entries, timeNow - entry.2 < 5 := by
  induction entries generalizing drones with
  | nil => simp
  | cons entry entries ih =>
    rw [List.foldl_cons, ih, List.forall_mem_cons]
    split_ifs with hsilent
    · have htext : RegistryValue.text "idle" ∈ (drones.set entry.1 (.text "idle")).values :=
        Dict.mem_values_of_get (drones.get_set_self _ _)
      constructor
      · rintro ⟨hall, -⟩
        cases hall _ htext
      · rintro ⟨-, hheard, -⟩
        exact absurd hsilent (not_le.mpr hheard)
    · constructor
      · rintro ⟨hall, hrest⟩
        exact ⟨hall, lt_of_not_ge hsilent, hrest⟩
      · rintro ⟨hall, -, hrest⟩
        exact ⟨hall, hrest⟩

theorem sweep_eq_self {s : Registry} {timeNow : ℚ}
    (h : ∀ entry ∈ s.droneLastSeen.entries, timeNow - entry.2 < 5) : s.sweep timeNow = s := by
  have hfold : ∀ (entries : List (String × ℚ)) (drones : Dict String RegistryValue),
      (∀ entry ∈ entries, timeNow - entry.2 < 5) →
      entries.foldl (fun drones entry =>
        if timeNow - entry.2 ≥ 5 then drones.set entry.1 (.text "idle") else drones) drones =
        drones := by
    intro entries
    induction entries with
    | nil => exact fun _ _ => rfl
    | cons entry entries ih =>
      intro drones hall
      obtain ⟨hentry, hrest⟩ := List.forall_mem_cons.mp hall
      rw [List.foldl_cons, if_neg (not_le.mpr hentry)]
      exact ih drones hrest
  unfold sweep
  rw [hfold _ _ h]

/-- The loop over records ends when every working drone can be called. -/
theorem contact_ok_iff (connect : String → ℤ → ConnectResult)
    {entries : List (String × RegistryValue)}
    (h : ∀ entry ∈ entries, entry.2.isRecord = true) :
    contact connect entries = .ok () ↔
      ∀ key record, (key, RegistryValue.record record) ∈ entries → record.status = .working →
        ∃ host port, workerAddress key = some (host, port) ∧ connect host port ≠ .failed := by
  induction entries with
  | nil => simp [contact]
  | cons entry entries ih =>
    obtain ⟨hentry, hrest⟩ := List.forall_mem_cons.mp h
    obtain ⟨key, value⟩ := entry
    cases value with
    | text status => cases hentry
    | record record =>
      have hcons : (∀ key' record', (key', RegistryValue.record record') ∈
          (key, RegistryValue.record record) :: entries → record'.status = .working →
          ∃ host port, workerAddress key' = some (host, port) ∧ connect host port ≠ .failed) ↔
          (record.status = .working →
            ∃ host port, workerAddress key = some (host, port) ∧ connect host port ≠ .failed) ∧
          contact connect entries = .ok () := by
        rw [ih hrest]
        constructor
        · intro hall
          exact ⟨hall key record List.mem_cons_self,
            fun key' record' hmem => hall key' record' (List.mem_cons_of_mem _ hmem)⟩
        · rintro ⟨hhead, htail⟩ key' record' hmem
          rcases List.mem_cons.mp hmem with heq | hmem
          · obtain ⟨rfl, hrecord⟩ := Prod.mk.inj heq
            obtain rfl := RegistryValue.record.inj hrecord
            exact hhead
          · exact htail key' record' hmem
      rw [hcons, contact]
      by_cases hworking : record.status = .working
      · rw [if_pos hworking]
        cases haddress : workerAddress key with
        | none => simp [hworking]
        | some address =>
          obtain ⟨host, port⟩ := address
          by_cases hfailed : connect host port = .failed
          · simp [hworking, hfailed]
          · simp [hworking, hfailed]
      · rw [if_neg hworking]
        simp [hworking]

/-! ### The law of a step -/

theorem keeps_of_ok {s s' : Registry} {e : RegistryEvent} (hs' : s.handle e = .ok s')
    (hconsistent : s'.Consistent)
    (hended : s'.selfFinished = true → s.selfFinished = false →
      ∀ v ∈ s'.expDrones.values, v.isFinished = true) : s.Keeps e := by
  have honly : ∀ t, s.step e = some t → t = s' := by
    intro t ht
    exact Except.ok.inj ((step_eq_some_iff.mp ht).symm.trans hs')
  refine ⟨⟨s', step_eq_some_iff.mpr hs'⟩, ?_, ?_⟩
  · intro t ht
    rw [honly t ht]
    exact hconsistent
  · intro t ht
    rw [honly t ht]
    exact hended

theorem Keeps.ok {s : Registry} {e : RegistryEvent} (h : s.Keeps e) :
    ∃ s', s.handle e = .ok s' ∧ s'.Consistent := by
  obtain ⟨s', hs'⟩ := h.noRaise
  exact ⟨s', step_eq_some_iff.mp hs', h.consistent s' hs'⟩

/-- A flag that a step leaves alone is not set by it. -/
theorem not_ended {s : Registry} {p : Prop} (htrue : s.selfFinished = true)
    (hfalse : s.selfFinished = false) : p :=
  absurd (htrue.symm.trans hfalse) Bool.noConfusion

/-- In a consistent registry the law of a step is that the step is orderly. -/
theorem keeps_iff {s : Registry} (hs : s.Consistent) (e : RegistryEvent) :
    s.Keeps e ↔ s.Orderly e := by
  cases e with
  | registration host port now connect =>
    simp only [Orderly]
    have hhear := hear_consistent_iff hs host port (show DroneStatus.idle ≠ .finished by decide) now
    rw [← hhear]
    constructor
    · intro h
      obtain ⟨s', hs', hconsistent⟩ := h.ok
      simp only [handle, handleRegistration] at hs'
      split_ifs at hs' with hconnect
      obtain rfl := Except.ok.inj hs'
      exact ⟨hconnect, hconsistent⟩
    · rintro ⟨hconnect, hconsistent⟩
      have hs' : s.handle (.registration host port now connect) =
          .ok (s.hear host port .idle now) := if_pos hconnect
      exact keeps_of_ok hs' hconsistent fun htrue hfalse => not_ended htrue hfalse
  | heartbeat host port now =>
    simp only [Orderly]
    have hhear :=
      hear_consistent_iff hs host port (show DroneStatus.working ≠ .finished by decide) now
    rw [← hhear]
    constructor
    · intro h
      obtain ⟨s', hs', hconsistent⟩ := h.ok
      obtain rfl := Except.ok.inj hs'
      exact hconsistent
    · intro hconsistent
      have hs' : s.handle (.heartbeat host port now) = .ok (s.hear host port .working now) := rfl
      exact keeps_of_ok hs' hconsistent fun htrue hfalse => not_ended htrue hfalse
  | finished host port =>
    constructor
    · intro h
      obtain ⟨s', hs', -⟩ := h.ok
      obtain ⟨record, hget, hworking, -⟩ := handleFinished_ok hs'
      exact ⟨record, hget, hworking⟩
    · rintro ⟨record, hget, hworking⟩
      obtain ⟨s', hs'⟩ := handleFinished_total hget hworking
      obtain ⟨_, -, -, -, -, hall⟩ := handleFinished_ok hs'
      have hconsistent := handleFinished_consistent hs hs'
      exact keeps_of_ok (e := .finished host port) hs' hconsistent fun htrue hfalse =>
        all_finished hconsistent (hall htrue hfalse)
  | sweep timeNow =>
    constructor
    · intro h
      obtain ⟨s', hs', hconsistent⟩ := h.ok
      obtain rfl := Except.ok.inj hs'
      exact ((sweep_records_iff _ _ _).mp hconsistent.records).2
    · intro hheard
      have hs' : s.handle (.sweep timeNow) = .ok s := by
        simp only [handle, sweep_eq_self hheard]
      exact keeps_of_ok hs' hs fun htrue hfalse => not_ended htrue hfalse
  | runDrones connect =>
    have hentries : ∀ entry ∈ s.expDrones.entries, entry.2.isRecord = true := by
      intro entry hentry
      exact hs.records entry.2 (List.mem_map_of_mem hentry)
    simp only [Orderly]
    rw [← contact_ok_iff connect hentries]
    constructor
    · intro h
      obtain ⟨s', hs', -⟩ := h.ok
      simp only [handle, handleRunDrones] at hs'
      split at hs'
      · next hcontact => exact hcontact
      · cases hs'
    · intro hcontact
      have hs' : s.handle (.runDrones connect) = .ok { s with missionStatus := "in_mission" } := by
        simp only [handle, handleRunDrones, hcontact]
      exact keeps_of_ok hs' ⟨hs.records, hs.count⟩ fun htrue hfalse =>
        not_ended (s := s) htrue hfalse

end Registry

end Mission10.Drones
