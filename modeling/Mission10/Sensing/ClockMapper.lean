import Mathlib.Data.List.Forall2
import Mathlib.Data.List.Induction
import Mathlib.Tactic.Linarith
import Mathlib.Tactic.Ring

/-!
# Camera stamps in realtime

The sensing process stamps its frames in the boot time of the machine and publishes them
in realtime. For each frame it takes seven readings of the realtime clock, each between
two of the boot clock, and moves the stamp by the offset of the tightest. A frame whose
stamp would not lie after the last one is dropped, and an offset that jumps is counted.
-/
namespace Mission10.Sensing

/-- A reading of the realtime clock between two of the boot clock. -/
structure Bracket where
  b0 : ℤ
  realtime : ℤ
  b1 : ℤ

namespace Bracket

/-- The width and the offset that it gives. -/
def sample (bracket : Bracket) : ℤ × ℤ :=
  (bracket.b1 - bracket.b0, bracket.realtime - (bracket.b0 + bracket.b1) / 2)

/-- The tighter of two samples, the first one on a tie. -/
def keepBest (best : Option (ℤ × ℤ)) (bracket : Bracket) : Option (ℤ × ℤ) :=
  match best with
  | none => some bracket.sample
  | some kept => if bracket.sample.1 < kept.1 then some bracket.sample else some kept

end Bracket

/-- The readings of one `_sample_offset`. -/
structure OffsetReading where
  brackets : List Bracket
  seven : brackets.length = 7

namespace OffsetReading

def best (reading : OffsetReading) : Option (ℤ × ℤ) :=
  reading.brackets.foldl Bracket.keepBest none

/-- `_sample_offset` -/
def sampleOffset (reading : OffsetReading) : ℤ := (reading.best.map Prod.snd).getD 0

end OffsetReading

structure ClockMapper where
  stepThresholdNs : ℤ
  initialOffsetNs : ℤ
  lastOffsetNs : ℤ
  maxOffsetDeltaNs : ℤ
  lastRealtimeNs : ℤ
  nonmonotonicDrops : ℕ
  clockStepEvents : ℕ
  maxClockStepNs : ℤ

/-- A stamp with the readings that `map` takes for it. -/
structure MapCall where
  sensorNs : ℤ
  reading : OffsetReading

namespace ClockMapper

def new (stepThresholdNs : ℤ) (reading : OffsetReading) : ClockMapper where
  stepThresholdNs
  initialOffsetNs := reading.sampleOffset
  lastOffsetNs := reading.sampleOffset
  maxOffsetDeltaNs := 0
  lastRealtimeNs := 0
  nonmonotonicDrops := 0
  clockStepEvents := 0
  maxClockStepNs := 0

/-- The mapped stamp and the offset, or nothing for a stamp that is not later. -/
def map (clock : ClockMapper) (call : MapCall) : ClockMapper × Option (ℤ × ℤ) :=
  let offset := call.reading.sampleOffset
  let absoluteStep := |offset - clock.lastOffsetNs|
  let noted := { clock with
    maxClockStepNs := max clock.maxClockStepNs absoluteStep
    clockStepEvents :=
      clock.clockStepEvents + if absoluteStep > clock.stepThresholdNs then 1 else 0
    lastOffsetNs := offset
    maxOffsetDeltaNs := max clock.maxOffsetDeltaNs |offset - clock.initialOffsetNs| }
  let mapped := call.sensorNs + offset
  if mapped ≤ clock.lastRealtimeNs then
    ({ noted with nonmonotonicDrops := clock.nonmonotonicDrops + 1 }, none)
  else ({ noted with lastRealtimeNs := mapped }, some (mapped, offset))

/-- The clock after a run of calls, and what they return. -/
def mapAll (clock : ClockMapper) : List MapCall → ClockMapper × List (Option (ℤ × ℤ))
  | [] => (clock, [])
  | call :: rest =>
    ((mapAll (clock.map call).1 rest).1, (clock.map call).2 :: (mapAll (clock.map call).1 rest).2)

end ClockMapper

/-! ### Offsets -/

/-- The readings were taken while realtime was ahead of boot time by `ahead`, and one of
them took no longer than a width. -/
structure OffsetReading.Honest (reading : OffsetReading) (ahead width : ℤ) : Prop where
  inside : ∀ bracket ∈ reading.brackets,
    bracket.b0 ≤ bracket.realtime - ahead ∧ bracket.realtime - ahead ≤ bracket.b1
  tight : ∃ bracket ∈ reading.brackets, bracket.b1 - bracket.b0 ≤ width

/-- The fold keeps the sample of a bracket than which none is tighter. -/
theorem foldl_keepBest {brackets : List Bracket} (h : brackets ≠ []) :
    ∃ bracket ∈ brackets, brackets.foldl Bracket.keepBest none = some bracket.sample ∧
      ∀ other ∈ brackets, bracket.sample.1 ≤ other.sample.1 := by
  induction brackets using List.reverseRecOn with
  | nil => contradiction
  | append_singleton front last ih =>
    rw [List.foldl_append, List.foldl_cons, List.foldl_nil]
    rcases List.eq_nil_or_concat front with rfl | ⟨_, _, hfront⟩
    · exact ⟨last, by simp, rfl, by simp⟩
    · obtain ⟨bracket, hmem, hkept, hleast⟩ := ih (by simp [hfront])
      rw [hkept, Bracket.keepBest]
      split_ifs with hless
      · refine ⟨last, by simp, rfl, fun other hother => ?_⟩
        obtain hother | hother := List.mem_append.mp hother
        · exact hless.le.trans (hleast other hother)
        · rw [List.mem_singleton.mp hother]
      · refine ⟨bracket, List.mem_append_left _ hmem, rfl, fun other hother => ?_⟩
        obtain hother | hother := List.mem_append.mp hother
        · exact hleast other hother
        · rw [List.mem_singleton.mp hother]
          exact not_lt.mp hless

/-- The offset errs by half the tightest width at most, up to the rounding. -/
theorem OffsetReading.Honest.near {reading : OffsetReading} {ahead width : ℤ}
    (h : reading.Honest ahead width) : 2 * |reading.sampleOffset - ahead| ≤ width + 1 := by
  have hne : reading.brackets ≠ [] := by
    intro hnil
    have hseven := reading.seven
    simp [hnil] at hseven
  obtain ⟨bracket, hmem, hbest, hleast⟩ := foldl_keepBest hne
  obtain ⟨tight, htight, hwidth⟩ := h.tight
  obtain ⟨hlow, hhigh⟩ := h.inside bracket hmem
  have hoffset : reading.sampleOffset = bracket.realtime - (bracket.b0 + bracket.b1) / 2 := by
    rw [sampleOffset, best, hbest]
    rfl
  have hsample : bracket.b1 - bracket.b0 ≤ tight.b1 - tight.b0 := hleast tight htight
  rw [hoffset]
  rcases abs_cases (bracket.realtime - (bracket.b0 + bracket.b1) / 2 - ahead) with
    ⟨habs, -⟩ | ⟨habs, -⟩ <;> rw [habs] <;> omega

/-! ### Runs -/

namespace ClockMapper

variable (clock : ClockMapper)

/-- What one call does to the clock. -/
theorem map_cases (call : MapCall) :
    (call.sensorNs + call.reading.sampleOffset ≤ clock.lastRealtimeNs ∧
      (clock.map call).2 = none ∧ (clock.map call).1.lastRealtimeNs = clock.lastRealtimeNs ∧
      (clock.map call).1.nonmonotonicDrops = clock.nonmonotonicDrops + 1) ∨
    (clock.lastRealtimeNs < call.sensorNs + call.reading.sampleOffset ∧
      (clock.map call).2 =
        some (call.sensorNs + call.reading.sampleOffset, call.reading.sampleOffset) ∧
      (clock.map call).1.lastRealtimeNs = call.sensorNs + call.reading.sampleOffset ∧
      (clock.map call).1.nonmonotonicDrops = clock.nonmonotonicDrops) := by
  unfold map
  dsimp only
  rcases le_or_gt (call.sensorNs + call.reading.sampleOffset) clock.lastRealtimeNs with
    hlate | hlater
  · rw [if_pos hlate]
    exact .inl ⟨hlate, rfl, rfl, rfl⟩
  · rw [if_neg (not_le.mpr hlater)]
    exact .inr ⟨hlater, rfl, rfl, rfl⟩

theorem map_offset (call : MapCall) :
    (clock.map call).1.lastOffsetNs = call.reading.sampleOffset ∧
      (clock.map call).1.stepThresholdNs = clock.stepThresholdNs ∧
      (clock.map call).1.clockStepEvents = clock.clockStepEvents +
        if |call.reading.sampleOffset - clock.lastOffsetNs| > clock.stepThresholdNs then 1
        else 0 := by
  unfold map
  dsimp only
  split_ifs <;> exact ⟨rfl, rfl, rfl⟩

/-- Mapped stamps lie after the last one, each after the one before. -/
theorem mapAll_increasing (calls : List MapCall) :
    (∀ result ∈ (clock.mapAll calls).2.filterMap id, clock.lastRealtimeNs < result.1) ∧
      ((clock.mapAll calls).2.filterMap id).Pairwise fun a b => a.1 < b.1 := by
  induction calls generalizing clock with
  | nil => exact ⟨by simp [mapAll], List.Pairwise.nil⟩
  | cons call rest ih =>
    obtain ⟨hafter, hpairwise⟩ := ih (clock.map call).1
    rcases clock.map_cases call with ⟨-, hresult, hlast, -⟩ | ⟨hlater, hresult, hlast, -⟩ <;>
      rw [hlast] at hafter
    · have hnone : (clock.mapAll (call :: rest)).2.filterMap id =
          ((clock.map call).1.mapAll rest).2.filterMap id := by
        rw [mapAll, hresult]
        rfl
      rw [hnone]
      exact ⟨hafter, hpairwise⟩
    · have hsome : (clock.mapAll (call :: rest)).2.filterMap id =
          (call.sensorNs + call.reading.sampleOffset, call.reading.sampleOffset) ::
            ((clock.map call).1.mapAll rest).2.filterMap id := by
        rw [mapAll, hresult]
        rfl
      rw [hsome]
      refine ⟨?_, List.pairwise_cons.mpr ⟨hafter, hpairwise⟩⟩
      intro result hmem
      obtain rfl | hmem := List.mem_cons.mp hmem
      · exact hlater
      · exact hlater.trans (hafter result hmem)

theorem mapAll_drops (calls : List MapCall) : (clock.mapAll calls).1.nonmonotonicDrops =
    clock.nonmonotonicDrops + (clock.mapAll calls).2.countP Option.isNone := by
  induction calls generalizing clock with
  | nil => rfl
  | cons call rest ih =>
    rw [mapAll, ih]
    rcases clock.map_cases call with ⟨-, hresult, -, hdrops⟩ | ⟨-, hresult, -, hdrops⟩ <;>
      rw [hresult, hdrops] <;> simp [add_assoc, add_comm]

/-- A call with the lead of realtime over boot time during its readings. -/
abbrev TimedCall := MapCall × ℤ

/-- The true realtime of a stamp. -/
def trueNs (entry : TimedCall) : ℤ := entry.1.sensorNs + entry.2

/-- A mapped stamp errs by half a width at most. -/
theorem mapAll_near {width : ℤ} {entries : List TimedCall}
    (hhonest : ∀ entry ∈ entries, entry.1.reading.Honest entry.2 width) :
    List.Forall₂ (fun entry result => ∀ stamped ∈ result,
        stamped.1 = entry.1.sensorNs + stamped.2 ∧ 2 * |stamped.1 - trueNs entry| ≤ width + 1)
      entries (clock.mapAll (entries.map Prod.fst)).2 := by
  induction entries generalizing clock with
  | nil => exact .nil
  | cons entry rest ih =>
    refine .cons ?_ (ih _ fun other hother => hhonest other (List.mem_cons_of_mem _ hother))
    intro stamped hstamped
    have hnear := (hhonest entry List.mem_cons_self).near
    rcases clock.map_cases entry.1 with ⟨-, hresult, -⟩ | ⟨-, hresult, -⟩ <;>
      rw [hresult] at hstamped
    · cases hstamped
    · obtain rfl := Option.some.inj hstamped
      refine ⟨rfl, ?_⟩
      unfold trueNs
      rwa [add_sub_add_left_eq_sub]

/-- Frames further apart than the error of two stamps are all kept. -/
theorem mapAll_kept {width : ℤ} {entries : List TimedCall}
    (hhonest : ∀ entry ∈ entries, entry.1.reading.Honest entry.2 width)
    (hfirst : ∀ entry ∈ entries, 2 * clock.lastRealtimeNs + (width + 1) < 2 * trueNs entry)
    (happart : entries.Pairwise fun a b => trueNs a + (width + 1) < trueNs b) :
    none ∉ (clock.mapAll (entries.map Prod.fst)).2 := by
  induction entries generalizing clock with
  | nil => simp [mapAll]
  | cons entry rest ih =>
    obtain ⟨hnext, hrest⟩ := List.pairwise_cons.mp happart
    have hnear := (hhonest entry List.mem_cons_self).near
    have hearly := hfirst entry List.mem_cons_self
    have hbounds := abs_le.mp (show |entry.1.reading.sampleOffset - entry.2| ≤ (width + 1) / 2 by
      omega)
    rw [List.map_cons, mapAll]
    rcases clock.map_cases entry.1 with ⟨hlate, -⟩ | ⟨-, hresult, hlast, -⟩
    · unfold trueNs at hearly
      omega
    · rw [hresult, List.mem_cons, not_or]
      refine ⟨by simp, ?_⟩
      refine ih _ (fun other hother => hhonest other (List.mem_cons_of_mem _ hother)) ?_ hrest
      intro other hother
      have hgap := hnext other hother
      rw [hlast]
      unfold trueNs at hgap ⊢
      omega

/-- By how much the lead changes from call to call. -/
def jumps (ahead : ℤ) : List TimedCall → List ℤ
  | [] => []
  | entry :: rest => (entry.2 - ahead) :: jumps entry.2 rest

/-- Every jump beyond the threshold and the error is counted, and nothing that stays below
the threshold by the error. -/
theorem mapAll_steps {ahead width : ℤ} {entries : List TimedCall}
    (hlast : 2 * |clock.lastOffsetNs - ahead| ≤ width + 1)
    (hhonest : ∀ entry ∈ entries, entry.1.reading.Honest entry.2 width) :
    clock.clockStepEvents + (jumps ahead entries).countP
        (fun jump => clock.stepThresholdNs + (width + 1) < |jump|) ≤
      (clock.mapAll (entries.map Prod.fst)).1.clockStepEvents ∧
    (clock.mapAll (entries.map Prod.fst)).1.clockStepEvents ≤
      clock.clockStepEvents + (jumps ahead entries).countP
        (fun jump => clock.stepThresholdNs < |jump| + (width + 1)) := by
  induction entries generalizing clock ahead with
  | nil => exact ⟨le_rfl, le_rfl⟩
  | cons entry rest ih =>
    have hnear := (hhonest entry List.mem_cons_self).near
    obtain ⟨hoffset, hthreshold, hevents⟩ := clock.map_offset entry.1
    rw [← hoffset] at hnear
    have hih := ih (clock.map entry.1).1 hnear
      fun other hother => hhonest other (List.mem_cons_of_mem _ hother)
    rw [hthreshold, hevents] at hih
    rw [hoffset] at hnear
    have hstep := abs_sub_abs_le_abs_sub (entry.1.reading.sampleOffset - clock.lastOffsetNs)
      (entry.2 - ahead)
    have hjump := abs_sub_abs_le_abs_sub (entry.2 - ahead)
      (entry.1.reading.sampleOffset - clock.lastOffsetNs)
    have hgap : |entry.1.reading.sampleOffset - clock.lastOffsetNs - (entry.2 - ahead)| ≤
        width + 1 := by
      have hsplit : entry.1.reading.sampleOffset - clock.lastOffsetNs - (entry.2 - ahead) =
          (entry.1.reading.sampleOffset - entry.2) - (clock.lastOffsetNs - ahead) := by
        ring
      have htriangle := abs_sub (entry.1.reading.sampleOffset - entry.2)
        (clock.lastOffsetNs - ahead)
      rw [hsplit]
      omega
    rw [abs_sub_comm (entry.2 - ahead)] at hjump
    rw [List.map_cons, mapAll, jumps, List.countP_cons, List.countP_cons]
    simp only [decide_eq_true_eq]
    split_ifs at hih ⊢ <;> omega

/-- The mapped stamps of a run increase, every one errs by half the tightest bracket at
most, what is dropped is counted, no frame is dropped when the frames are further apart
than two errors, and the jumps of the clock are counted up to the error. -/
theorem clock_run {threshold width ahead : ℤ} {initial : OffsetReading}
    (hinitial : initial.Honest ahead width) {entries : List TimedCall}
    (hhonest : ∀ entry ∈ entries, entry.1.reading.Honest entry.2 width) :
    let outcome := (new threshold initial).mapAll (entries.map Prod.fst)
    ((outcome.2.filterMap id).Pairwise fun a b => a.1 < b.1) ∧
    List.Forall₂ (fun entry result => ∀ stamped ∈ result,
        stamped.1 = entry.1.sensorNs + stamped.2 ∧ 2 * |stamped.1 - trueNs entry| ≤ width + 1)
      entries outcome.2 ∧
    outcome.1.nonmonotonicDrops = outcome.2.countP Option.isNone ∧
    ((∀ entry ∈ entries, width + 1 < 2 * trueNs entry) →
      (entries.Pairwise fun a b => trueNs a + (width + 1) < trueNs b) → none ∉ outcome.2) ∧
    (jumps ahead entries).countP (fun jump => threshold + (width + 1) < |jump|) ≤
      outcome.1.clockStepEvents ∧
    outcome.1.clockStepEvents ≤
      (jumps ahead entries).countP fun jump => threshold < |jump| + (width + 1) := by
  have hdrops := (new threshold initial).mapAll_drops (entries.map Prod.fst)
  have hsteps := (new threshold initial).mapAll_steps hinitial.near hhonest
  have hnew : (new threshold initial).nonmonotonicDrops = 0 ∧
      (new threshold initial).clockStepEvents = 0 ∧
      (new threshold initial).stepThresholdNs = threshold ∧
      (new threshold initial).lastRealtimeNs = 0 := ⟨rfl, rfl, rfl, rfl⟩
  obtain ⟨hzero, hnone, hthreshold, hstart⟩ := hnew
  rw [hzero, zero_add] at hdrops
  rw [hnone, zero_add, zero_add, hthreshold] at hsteps
  refine ⟨((new threshold initial).mapAll_increasing _).2,
    (new threshold initial).mapAll_near hhonest, hdrops, fun hpositive happart => ?_, hsteps⟩
  refine (new threshold initial).mapAll_kept hhonest ?_ happart
  rw [hstart, mul_zero, zero_add]
  exact hpositive

/-- Readings that take 10 ns each. -/
def steadyReading (start lead : ℤ) : OffsetReading :=
  ⟨List.replicate 7 ⟨start, start + 5 + lead, start + 10⟩, rfl⟩

theorem steadyReading_honest (start lead : ℤ) : (steadyReading start lead).Honest lead 10 := by
  constructor
  · intro bracket hbracket
    rw [List.eq_of_mem_replicate hbracket]
    constructor <;> dsimp only <;> omega
  · exact ⟨_, List.mem_replicate.mpr ⟨by decide, rfl⟩, by dsimp only; omega⟩

theorem clock_run_steady :
    let entries : List TimedCall :=
      [(⟨1000, steadyReading 1100 500⟩, 500), (⟨2000, steadyReading 2100 9000⟩, 9000)]
    let outcome := (new 5000 (steadyReading 0 500)).mapAll (entries.map Prod.fst)
    ((outcome.2.filterMap id).Pairwise fun a b => a.1 < b.1) ∧
    List.Forall₂ (fun entry result => ∀ stamped ∈ result,
        stamped.1 = entry.1.sensorNs + stamped.2 ∧ 2 * |stamped.1 - trueNs entry| ≤ 10 + 1)
      entries outcome.2 ∧
    outcome.1.nonmonotonicDrops = outcome.2.countP Option.isNone ∧
    ((∀ entry ∈ entries, 10 + 1 < 2 * trueNs entry) →
      (entries.Pairwise fun a b => trueNs a + (10 + 1) < trueNs b) → none ∉ outcome.2) ∧
    (jumps 500 entries).countP (fun jump => 5000 + (10 + 1) < |jump|) ≤
      outcome.1.clockStepEvents ∧
    outcome.1.clockStepEvents ≤
      (jumps 500 entries).countP fun jump => 5000 < |jump| + (10 + 1) := by
  refine clock_run (steadyReading_honest 0 500) ?_
  intro entry hentry
  rcases List.mem_cons.mp hentry with rfl | hentry
  · exact steadyReading_honest 1100 500
  · rw [List.mem_singleton.mp hentry]
    exact steadyReading_honest 2100 9000

end ClockMapper

end Mission10.Sensing
