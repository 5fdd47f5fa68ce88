import Mathlib.Data.Fin.Basic
import Mathlib.Data.List.MinMax
import Mission10.Library.Numerals
import Mission10.Library.RingLog

/-!
# Bounded affine clock correlation

Samples pair a reading of the mission clock with one of the radio's clock. The
correlator keeps the latest ones of one generation in a ring, refuses a sample that
does not come after all it holds, and anchors its model at the sample that is best
at the newest reading. What it holds is the end of the log of the samples it
accepted since it was last reset.
-/
namespace Mission10.Uwb

open RingLog

def clockSampleCapacity : ℕ := 32
def mappingMaxErrorUs : UInt32 := 750
def initialClockDriftPpm : UInt32 := 50

structure CorrelationSample where
  source : UInt64
  target : UInt64
  errorUs : UInt32
  generation : UInt32
  deriving DecidableEq, Repr

inductive ClockSampleError where
  | nonMonotonic
  | errorBound
  deriving DecidableEq, Repr

structure AffineClockModel where
  sourceAnchor : UInt64
  targetAnchor : UInt64
  targetTicksPerSourceQ32 : UInt64
  errorAtAnchorUs : UInt32
  driftPpm : UInt32
  generation : UInt32
  deriving DecidableEq, Repr

def AffineClockModel.fromSample (sample : CorrelationSample)
    (nominalTargetTicksPerSourceQ32 : UInt64) (driftPpm : UInt32) : AffineClockModel where
  sourceAnchor := sample.source
  targetAnchor := sample.target
  targetTicksPerSourceQ32 := nominalTargetTicksPerSourceQ32
  errorAtAnchorUs := sample.errorUs
  driftPpm
  generation := sample.generation

structure ClockCorrelator (n : ℕ) where
  samples : Vector (Option CorrelationSample) n
  next : Fin n
  count : ℕ
  generation : Option UInt32
  nominalTargetTicksPerSourceQ32 : UInt64
  driftPpm : UInt32

namespace ClockCorrelator
variable {n : ℕ} [NeZero n]

def new (nominalTargetTicksPerSourceQ32 : UInt64) : ClockCorrelator n where
  samples := Vector.replicate n none
  next := 0
  count := 0
  generation := none
  nominalTargetTicksPerSourceQ32
  driftPpm := initialClockDriftPpm

def clear (correlator : ClockCorrelator n) : ClockCorrelator n :=
  { correlator with
    samples := Vector.replicate n none
    next := 0
    count := 0
    generation := none }

omit [NeZero n] in
/-- The samples held, in the order of the slots. -/
def held (correlator : ClockCorrelator n) : List CorrelationSample := stored correlator.samples

/-- The last part of a push: the sample overwrites the oldest slot. -/
def store (correlator : ClockCorrelator n) (sample : CorrelationSample) : ClockCorrelator n :=
  { correlator with
    generation := some sample.generation
    samples := correlator.samples.set correlator.next (some sample)
    next := correlator.next + 1
    count := min (correlator.count + 1) n }

def push (correlator : ClockCorrelator n) (sample : CorrelationSample) :
    ClockCorrelator n × Except ClockSampleError Unit :=
  if mappingMaxErrorUs < sample.errorUs then (correlator, .error .errorBound)
  else
    let correlator :=
      if correlator.generation.any (· ≠ sample.generation) then correlator.clear else correlator
    if correlator.held.any fun current =>
        sample.source ≤ current.source || sample.target ≤ current.target then
      (correlator, .error .nonMonotonic)
    else (correlator.store sample, .ok ())

/-- The error of a sample carried forward to a later reading, as a `u128`. -/
def errorAt (driftPpm : UInt32) (newestSource : UInt64) (sample : CorrelationSample) : ℕ :=
  sample.errorUs.toNat + (newestSource - sample.source).toNat * driftPpm.toNat / 1000000

/-- The best sample so far and its error. -/
structure Best where
  best : Option CorrelationSample
  bestError : ℕ

def considerSample (driftPpm : UInt32) (newestSource : UInt64) (state : Best)
    (sample : CorrelationSample) : Best :=
  let error := errorAt driftPpm newestSource sample
  if error < state.bestError ∨ error = state.bestError ∧
      state.best.all fun current => current.source < sample.source then
    ⟨some sample, error⟩
  else state

omit [NeZero n] in
def model (correlator : ClockCorrelator n) : Option AffineClockModel := do
  let newestSource ← (correlator.held.map CorrelationSample.source).max?
  let state := correlator.held.foldl (considerSample correlator.driftPpm newestSource)
    ⟨none, 2 ^ 128 - 1⟩
  let best ← state.best
  return .fromSample best correlator.nominalTargetTicksPerSourceQ32 correlator.driftPpm

end ClockCorrelator

/-- What a correlator is told to do. -/
inductive ClockOp where
  | push (sample : CorrelationSample)
  | clear

namespace ClockCorrelator
variable {n : ℕ} [NeZero n]

def apply (correlator : ClockCorrelator n) : ClockOp → ClockCorrelator n
  | .push sample => (correlator.push sample).1
  | .clear => correlator.clear

/-- The log of the accepted samples after an operation: a clear empties it, and so does
the first sample of another generation. -/
def logged (correlator : ClockCorrelator n) (log : List CorrelationSample) :
    ClockOp → List CorrelationSample
  | .push sample =>
    match (correlator.push sample).2 with
    | .error _ => log
    | .ok _ => log.filter (·.generation = sample.generation) ++ [sample]
  | .clear => []

/-- A correlator after a sequence of operations, and the log of what it accepted. -/
def run (correlator : ClockCorrelator n) (log : List CorrelationSample) :
    List ClockOp → ClockCorrelator n × List CorrelationSample
  | [] => (correlator, log)
  | op :: rest => run (correlator.apply op) (correlator.logged log op) rest

end ClockCorrelator

/-- The samples that one generation of correlation may accept, oldest first. -/
structure ClockLog (log : List CorrelationSample) : Prop where
  rising : log.Pairwise fun older newer => older.source < newer.source ∧ older.target < newer.target
  oneGeneration : ∀ a ∈ log, ∀ b ∈ log, a.generation = b.generation
  bounded : ∀ sample ∈ log, sample.errorUs ≤ mappingMaxErrorUs

theorem ClockLog.nil : ClockLog [] := ⟨List.Pairwise.nil, by simp, by simp⟩

theorem ClockLog.sublist {log part : List CorrelationSample} (h : ClockLog log)
    (hpart : part.Sublist log) : ClockLog part where
  rising := h.rising.sublist hpart
  oneGeneration := fun a ha b hb => h.oneGeneration a (hpart.subset ha) b (hpart.subset hb)
  bounded := fun sample hsample => h.bounded sample (hpart.subset hsample)

theorem ClockLog.concat {log : List CorrelationSample} {sample : CorrelationSample}
    (h : ClockLog log) (hgeneration : ∀ a ∈ log, a.generation = sample.generation)
    (hbound : sample.errorUs ≤ mappingMaxErrorUs)
    (hafter : ∀ a ∈ log, a.source < sample.source ∧ a.target < sample.target) :
    ClockLog (log ++ [sample]) where
  rising := by
    rw [List.pairwise_append]
    refine ⟨h.rising, List.pairwise_singleton _ _, fun a ha b hb => ?_⟩
    rw [List.mem_singleton.mp hb]
    exact hafter a ha
  oneGeneration := by
    intro a ha b hb
    have hsame : ∀ c ∈ log ++ [sample], c.generation = sample.generation := by
      intro c hc
      rcases List.mem_append.mp hc with hc | hc
      · exact hgeneration c hc
      · rw [List.mem_singleton.mp hc]
    rw [hsame a ha, hsame b hb]
  bounded := by
    intro a ha
    rcases List.mem_append.mp ha with ha | ha
    · exact h.bounded a ha
    · rw [List.mem_singleton.mp ha]
      exact hbound

/-- A correlator holds the end of a log. -/
structure Correlates {n : ℕ} [NeZero n] (correlator : ClockCorrelator n)
    (log : List CorrelationSample) : Prop where
  lawful : ClockLog log
  ring : Holds correlator.samples log
  next : correlator.next.val = log.length % n
  count : correlator.count = min n log.length
  generation : correlator.generation = (log.head?).map CorrelationSample.generation

namespace Correlates
variable {n : ℕ} [NeZero n] {correlator : ClockCorrelator n} {log : List CorrelationSample}

theorem cleared (correlator : ClockCorrelator n) : Correlates correlator.clear [] where
  lawful := .nil
  ring := holds_empty
  next := by simp [ClockCorrelator.clear]
  count := by simp [ClockCorrelator.clear]
  generation := rfl

theorem new (rate : UInt64) : Correlates (ClockCorrelator.new rate : ClockCorrelator n) [] where
  lawful := .nil
  ring := holds_empty
  next := by simp [ClockCorrelator.new]
  count := by simp [ClockCorrelator.new]
  generation := rfl

theorem mem_held (h : Correlates correlator log) (sample : CorrelationSample) :
    sample ∈ correlator.held ↔ sample ∈ recent n log :=
  h.ring.stored_perm.mem_iff

/-- A sample after all that is held is after all that was accepted. -/
theorem after_log (h : Correlates correlator log) {sample : CorrelationSample}
    (hafter : ∀ current ∈ correlator.held,
      current.source < sample.source ∧ current.target < sample.target) :
    ∀ a ∈ log, a.source < sample.source ∧ a.target < sample.target := by
  intro a ha
  rcases List.eq_nil_or_concat log with hnil | ⟨front, newest, hlog⟩
  · rw [hnil] at ha
    cases ha
  · rw [List.concat_eq_append] at hlog
    have hnewest := hafter newest ((h.mem_held newest).mpr (hlog ▸ mem_recent_concat front newest))
    have hrising := h.lawful.rising
    rw [hlog, List.pairwise_append] at hrising
    rw [hlog] at ha
    rcases List.mem_append.mp ha with hfront | hlast
    · have hbefore := hrising.2.2 a hfront newest List.mem_cons_self
      exact ⟨UInt64.lt_trans hbefore.1 hnewest.1, UInt64.lt_trans hbefore.2 hnewest.2⟩
    · rw [List.mem_singleton.mp hlast]
      exact hnewest

/-- Storing a sample that may follow the log. -/
theorem stores (h : Correlates correlator log) {sample : CorrelationSample}
    (hgeneration : ∀ a ∈ log, a.generation = sample.generation)
    (hbound : sample.errorUs ≤ mappingMaxErrorUs)
    (hafter : ∀ current ∈ correlator.held,
      current.source < sample.source ∧ current.target < sample.target) :
    Correlates (correlator.store sample) (log ++ [sample]) where
  lawful := h.lawful.concat hgeneration hbound (h.after_log hafter)
  ring := by
    have hlt : log.length % n < n := Nat.mod_lt _ (Nat.pos_of_ne_zero (NeZero.ne n))
    have hwrite := h.ring.write sample hlt
    simpa only [ClockCorrelator.store, h.next] using hwrite
  next := by
    show (correlator.next + 1).val = _
    rw [Fin.val_add, h.next, List.length_append, List.length_singleton]
    show (log.length % n + 1 % n) % n = _
    rw [← Nat.add_mod]
  count := by
    show min (correlator.count + 1) n = min n (log ++ [sample]).length
    rw [h.count, List.length_append, List.length_singleton]
    omega
  generation := by
    show some sample.generation = _
    cases hlog : log with
    | nil => rfl
    | cons a rest =>
      have hfirst := hgeneration a (by rw [hlog]; exact List.mem_cons_self)
      rw [List.cons_append, List.head?_cons, Option.map_some, hfirst]

theorem generation_of_mem (h : Correlates correlator log) {a : CorrelationSample} (ha : a ∈ log) :
    correlator.generation = some a.generation := by
  rw [h.generation]
  cases hlog : log with
  | nil =>
    rw [hlog] at ha
    cases ha
  | cons first rest =>
    have hsame := h.lawful.oneGeneration first (by rw [hlog]; exact List.mem_cons_self) a ha
    rw [List.head?_cons, Option.map_some, hsame]

end Correlates

namespace ClockCorrelator
variable {n : ℕ} [NeZero n]

theorem held_clear (correlator : ClockCorrelator n) : correlator.clear.held = [] := by
  simp [held, clear, stored]

/-- The correlator that a sample within the error bound is compared with. -/
def readied (correlator : ClockCorrelator n) (sample : CorrelationSample) : ClockCorrelator n :=
  if correlator.generation.any (· ≠ sample.generation) then correlator.clear else correlator

/-- The three ways a push ends. -/
theorem push_cases (correlator : ClockCorrelator n) (sample : CorrelationSample) :
    (mappingMaxErrorUs < sample.errorUs ∧
      correlator.push sample = (correlator, .error .errorBound)) ∨
    (correlator.push sample = (correlator, .error .nonMonotonic)) ∨
    (sample.errorUs ≤ mappingMaxErrorUs ∧
      (∀ current ∈ (correlator.readied sample).held,
        current.source < sample.source ∧ current.target < sample.target) ∧
      correlator.push sample = ((correlator.readied sample).store sample, .ok ())) := by
  by_cases hbound : mappingMaxErrorUs < sample.errorUs
  · exact Or.inl ⟨hbound, by rw [push, if_pos hbound]⟩
  · by_cases hlate : (correlator.readied sample).held.any fun current =>
        sample.source ≤ current.source || sample.target ≤ current.target
    · refine Or.inr (Or.inl ?_)
      have hkept : correlator.readied sample = correlator := by
        unfold readied at hlate ⊢
        split_ifs at hlate ⊢ with hother
        · rw [held_clear] at hlate
          cases hlate
        · rfl
      unfold push
      rw [if_neg hbound]
      show (if (correlator.readied sample).held.any _ then (correlator.readied sample, _) else _) = _
      rw [if_pos hlate, hkept]
    · refine Or.inr (Or.inr ⟨UInt32.not_lt.mp hbound, ?_, ?_⟩)
      · intro current hcurrent
        rw [Bool.not_eq_true, List.any_eq_false] at hlate
        have hsample := hlate current hcurrent
        simp only [Bool.or_eq_true, decide_eq_true_eq, not_or] at hsample
        exact ⟨UInt64.not_le.mp hsample.1, UInt64.not_le.mp hsample.2⟩
      · unfold push
        rw [if_neg hbound]
        show (if (correlator.readied sample).held.any _ then _ else _) = _
        rw [if_neg hlate]
        rfl

/-- A push that fails changes nothing. -/
theorem push_error {correlator : ClockCorrelator n} {sample : CorrelationSample}
    {error : ClockSampleError} (h : (correlator.push sample).2 = .error error) :
    (correlator.push sample).1 = correlator := by
  rcases push_cases correlator sample with ⟨_, hpush⟩ | hpush | ⟨_, _, hpush⟩
  · rw [hpush]
  · rw [hpush]
  · rw [hpush] at h
    cases h

/-- Every operation keeps the correlator at the end of its log. -/
theorem apply_correlates {correlator : ClockCorrelator n} {log : List CorrelationSample}
    (h : Correlates correlator log) (op : ClockOp) :
    Correlates (correlator.apply op) (correlator.logged log op) := by
  cases op with
  | clear => exact Correlates.cleared correlator
  | push sample =>
    dsimp only [apply, logged]
    rcases push_cases correlator sample with ⟨_, hpush⟩ | hpush | ⟨hbound, hafter, hpush⟩
    · rw [hpush]
      exact h
    · rw [hpush]
      exact h
    · rw [hpush]
      dsimp only
      by_cases hother : correlator.generation.any (· ≠ sample.generation)
      · have hready : correlator.readied sample = correlator.clear := if_pos hother
        have hnone : log.filter (·.generation = sample.generation) = [] := by
          rw [List.filter_eq_nil_iff]
          intro a ha
          rw [h.generation_of_mem ha] at hother
          simpa using hother
        rw [hnone, hready]
        refine (Correlates.cleared correlator).stores (by simp) hbound ?_
        rw [held_clear]
        simp
      · have hready : correlator.readied sample = correlator := if_neg hother
        have hsame : ∀ a ∈ log, a.generation = sample.generation := by
          intro a ha
          rw [h.generation_of_mem ha] at hother
          simpa using hother
        have hall : log.filter (·.generation = sample.generation) = log := by
          rw [List.filter_eq_self]
          intro a ha
          simpa using hsame a ha
        rw [hready] at hafter ⊢
        rw [hall]
        exact h.stores hsame hbound hafter

theorem run_correlates {correlator : ClockCorrelator n} {log : List CorrelationSample}
    (h : Correlates correlator log) (ops : List ClockOp) :
    Correlates (correlator.run log ops).1 (correlator.run log ops).2 := by
  induction ops generalizing correlator log with
  | nil => exact h
  | cons op rest ih => exact ih (apply_correlates h op)

/-! ### The model -/

/-- A sample carried forward to the newest reading held. -/
def extrapolated (correlator : ClockCorrelator n) (sample : CorrelationSample) : ℕ :=
  errorAt correlator.driftPpm
    (((correlator.held.map CorrelationSample.source).max?).getD 0) sample

/-- One sample is a better anchor than another: its error is less, or it is the later
one of two with the same error. -/
def Better (error : CorrelationSample → ℕ) (a b : CorrelationSample) : Prop :=
  error a < error b ∨ error a = error b ∧ b.source < a.source

/-- The anchor among some samples: it is better than all the others. -/
structure Anchor (error : CorrelationSample → ℕ) (samples : List CorrelationSample)
    (anchor : CorrelationSample) : Prop where
  mem : anchor ∈ samples
  best : ∀ sample ∈ samples, sample ≠ anchor → Better error anchor sample

theorem errorAt_lt (driftPpm : UInt32) (newestSource : UInt64) (sample : CorrelationSample) :
    errorAt driftPpm newestSource sample < 2 ^ 128 - 1 := by
  have herror := sample.errorUs.toNat_lt
  have hage := (newestSource - sample.source).toNat_lt
  have hdrift := driftPpm.toNat_lt
  have hgrowth : (newestSource - sample.source).toNat * driftPpm.toNat / 1000000 ≤
      2 ^ 64 * 2 ^ 32 :=
    (Nat.div_le_self _ _).trans (Nat.mul_le_mul hage.le hdrift.le)
  unfold errorAt
  omega

theorem Better.trans {error : CorrelationSample → ℕ} {a b c : CorrelationSample}
    (hab : Better error a b) (hbc : Better error b c) : Better error a c := by
  rcases hab with hab | ⟨hab, hsource⟩
  · rcases hbc with hbc | ⟨hbc, _⟩
    · exact Or.inl (hab.trans hbc)
    · exact Or.inl (hbc ▸ hab)
  · rcases hbc with hbc | ⟨hbc, hsource'⟩
    · exact Or.inl (hab ▸ hbc)
    · exact Or.inr ⟨hab.trans hbc, UInt64.lt_trans hsource' hsource⟩

/-- One more sample is considered. -/
theorem considerSample_anchor {driftPpm : UInt32} {newestSource : UInt64}
    {seen : List CorrelationSample} {anchor sample : CorrelationSample}
    (h : Anchor (errorAt driftPpm newestSource) seen anchor)
    (hsource : sample.source ≠ anchor.source) :
    ∃ anchor', Anchor (errorAt driftPpm newestSource) (seen ++ [sample]) anchor' ∧
      considerSample driftPpm newestSource
        ⟨some anchor, errorAt driftPpm newestSource anchor⟩ sample =
        ⟨some anchor', errorAt driftPpm newestSource anchor'⟩ := by
  by_cases hbetter : Better (errorAt driftPpm newestSource) sample anchor
  · refine ⟨sample, ⟨by simp, ?_⟩, ?_⟩
    · intro other hother hne
      rcases List.mem_append.mp hother with hseen | hself
      · by_cases heq : other = anchor
        · exact heq ▸ hbetter
        · exact hbetter.trans (h.best other hseen heq)
      · exact absurd (List.mem_singleton.mp hself) hne
    · exact if_pos (by simpa [Better] using hbetter)
  · refine ⟨anchor, ⟨List.mem_append_left _ h.mem, ?_⟩, ?_⟩
    · intro other hother hne
      rcases List.mem_append.mp hother with hseen | hself
      · exact h.best other hseen hne
      · rw [List.mem_singleton.mp hself]
        rcases lt_trichotomy (errorAt driftPpm newestSource anchor)
          (errorAt driftPpm newestSource sample) with hlt | heq | hgt
        · exact Or.inl hlt
        · refine Or.inr ⟨heq, ?_⟩
          have hlate : ¬ anchor.source < sample.source := fun hlt =>
            hbetter (Or.inr ⟨heq.symm, hlt⟩)
          exact UInt64.lt_of_le_of_ne (UInt64.not_lt.mp hlate) hsource
        · exact absurd (Or.inl hgt) hbetter
    · exact if_neg (by simpa [Better] using hbetter)

/-- The scan over samples with different sources ends at the anchor. -/
theorem foldl_considerSample {driftPpm : UInt32} {newestSource : UInt64}
    (rest : List CorrelationSample) :
    ∀ (seen : List CorrelationSample) (anchor : CorrelationSample),
      ((seen ++ rest).map CorrelationSample.source).Nodup →
      Anchor (errorAt driftPpm newestSource) seen anchor →
      ∃ anchor', Anchor (errorAt driftPpm newestSource) (seen ++ rest) anchor' ∧
        rest.foldl (considerSample driftPpm newestSource)
          ⟨some anchor, errorAt driftPpm newestSource anchor⟩ =
          ⟨some anchor', errorAt driftPpm newestSource anchor'⟩ := by
  induction rest with
  | nil =>
    intro seen anchor _ h
    exact ⟨anchor, by rwa [List.append_nil], rfl⟩
  | cons sample rest ih =>
    intro seen anchor hnodup h
    have hsource : sample.source ≠ anchor.source := by
      rw [List.map_append, List.nodup_append] at hnodup
      exact (hnodup.2.2 _ (List.mem_map_of_mem h.mem) _ (List.mem_map_of_mem
        List.mem_cons_self)).symm
    obtain ⟨anchor', hanchor, hconsider⟩ := considerSample_anchor h hsource
    have hsplit : seen ++ sample :: rest = seen ++ [sample] ++ rest := by simp
    rw [List.foldl_cons, hconsider, hsplit]
    exact ih (seen ++ [sample]) anchor' (hsplit ▸ hnodup) hanchor

omit [NeZero n] in
/-- The model anchors at the best sample held, or there is none to anchor at. -/
theorem model_anchor {correlator : ClockCorrelator n}
    (hnodup : (correlator.held.map CorrelationSample.source).Nodup) :
    (correlator.held = [] ∧ correlator.model = none) ∨
      ∃ anchor, Anchor correlator.extrapolated correlator.held anchor ∧
        correlator.model = some (.fromSample anchor correlator.nominalTargetTicksPerSourceQ32
          correlator.driftPpm) := by
  unfold model extrapolated
  cases hheld : correlator.held with
  | nil => exact Or.inl ⟨rfl, rfl⟩
  | cons first rest =>
    right
    obtain ⟨newest, hnewest⟩ : ∃ newest,
        ((first :: rest).map CorrelationSample.source).max? = some newest := by
      rw [List.map_cons, List.max?_cons']
      exact ⟨_, rfl⟩
    have hfirst : considerSample correlator.driftPpm newest ⟨none, 2 ^ 128 - 1⟩ first =
        ⟨some first, errorAt correlator.driftPpm newest first⟩ :=
      if_pos (Or.inl (errorAt_lt _ _ _))
    have hstart : Anchor (errorAt correlator.driftPpm newest) [first] first :=
      ⟨List.mem_cons_self, fun sample hsample hne => absurd (List.mem_singleton.mp hsample) hne⟩
    rw [hheld] at hnodup
    obtain ⟨anchor, hanchor, hfold⟩ := foldl_considerSample rest [first] first hnodup hstart
    rw [hnewest]
    refine ⟨anchor, hanchor, ?_⟩
    show (Best.best (List.foldl (considerSample correlator.driftPpm newest) ⟨none, 2 ^ 128 - 1⟩
      (first :: rest))).bind _ = _
    rw [List.foldl_cons, hfirst, hfold]
    rfl

theorem apply_constants (correlator : ClockCorrelator n) (op : ClockOp) :
    (correlator.apply op).nominalTargetTicksPerSourceQ32 =
        correlator.nominalTargetTicksPerSourceQ32 ∧
      (correlator.apply op).driftPpm = correlator.driftPpm := by
  cases op with
  | clear => exact ⟨rfl, rfl⟩
  | push sample =>
    have hready : (correlator.readied sample).nominalTargetTicksPerSourceQ32 =
        correlator.nominalTargetTicksPerSourceQ32 ∧
        (correlator.readied sample).driftPpm = correlator.driftPpm := by
      unfold readied
      split_ifs <;> exact ⟨rfl, rfl⟩
    dsimp only [apply]
    rcases push_cases correlator sample with ⟨_, hpush⟩ | hpush | ⟨_, _, hpush⟩
    · rw [hpush]
      exact ⟨rfl, rfl⟩
    · rw [hpush]
      exact ⟨rfl, rfl⟩
    · rw [hpush]
      exact hready

theorem run_constants (correlator : ClockCorrelator n) (log : List CorrelationSample)
    (ops : List ClockOp) :
    (correlator.run log ops).1.nominalTargetTicksPerSourceQ32 =
        correlator.nominalTargetTicksPerSourceQ32 ∧
      (correlator.run log ops).1.driftPpm = correlator.driftPpm := by
  induction ops generalizing correlator log with
  | nil => exact ⟨rfl, rfl⟩
  | cons op rest ih =>
    obtain ⟨hrate, hdrift⟩ := apply_constants correlator op
    obtain ⟨hrate', hdrift'⟩ := ih (correlator.apply op) (correlator.logged log op)
    exact ⟨hrate'.trans hrate, hdrift'.trans hdrift⟩

/-- Over any sequence of pushes and clears: a push that fails changes nothing, what is
held are the last samples that were accepted since the correlator was reset, in rising
order, of one generation and within the error bound, and the model anchors at the
best of them. -/
theorem clock_correlator_runs (n : ℕ) [NeZero n] (rate : UInt64) (ops : List ClockOp) :
    let correlator := ((new rate : ClockCorrelator n).run [] ops).1
    let log := ((new rate : ClockCorrelator n).run [] ops).2
    (∀ sample error, (correlator.push sample).2 = .error error →
      (correlator.push sample).1 = correlator) ∧
    correlator.held.Perm (recent n log) ∧
    ClockLog (recent n log) ∧
    ((correlator.held = [] ∧ correlator.model = none) ∨
      ∃ anchor, Anchor correlator.extrapolated correlator.held anchor ∧
        correlator.model = some (.fromSample anchor rate initialClockDriftPpm)) := by
  have hcorrelates := run_correlates
    (Correlates.new rate : Correlates (new rate : ClockCorrelator n) []) ops
  obtain ⟨hrate, hdrift⟩ := run_constants (new rate : ClockCorrelator n) [] ops
  have hrecent := hcorrelates.lawful.sublist (recent_sublist n _)
  have hperm : ((new rate : ClockCorrelator n).run [] ops).1.held.Perm
      (recent n ((new rate : ClockCorrelator n).run [] ops).2) := hcorrelates.ring.stored_perm
  refine ⟨fun sample error h => push_error h, hperm, hrecent, ?_⟩
  have hnodup : ((((new rate : ClockCorrelator n).run [] ops).1.held).map
      CorrelationSample.source).Nodup := by
    rw [(hperm.map _).nodup_iff, List.Nodup, List.pairwise_map]
    refine hrecent.rising.imp fun {older newer} hlt heq => ?_
    exact UInt64.lt_irrefl newer.source (heq ▸ hlt.1)
  have hmodel := model_anchor hnodup
  rw [hrate, hdrift] at hmodel
  exact hmodel

/-- A ring of two slots after three samples and one that comes too early. -/
theorem clock_correlator_runs_two :
    let ops := [(⟨1, 1, 5, 7⟩ : CorrelationSample), ⟨2, 2, 9, 7⟩, ⟨1, 3, 0, 7⟩, ⟨3, 3, 5, 7⟩].map
      ClockOp.push
    (((new 1 : ClockCorrelator 2).run [] ops).1.held).Perm
      (recent 2 ((new 1 : ClockCorrelator 2).run [] ops).2) :=
  (clock_correlator_runs 2 1 _).2.1

end ClockCorrelator

end Mission10.Uwb
