import Mission10.Engine.AnchorDatum
import Mission10.Library.HeldAlarm
import Mission10.Library.StableSort

/-!
# The breach of the tag anchor

A disagreement is reported when the drift lies beyond the gate at every query over the
hold time. The drift is taken from medians of the fixes of an age window. A window in
which no fix lies beyond the gate has its median within the gate; a window that holds one
wrong fix and no other has that fix as its median, and it stays there for the whole age.
-/
namespace Mission10.Engine

set_option linter.unusedSectionVars false

open MathOps

/-! ## Medians in a disc -/

section Median
variable {K : Type*} [Field K] [LinearOrder K] [IsStrictOrderedRing K]

/-- The median lies halfway between two entries, with half of the entries at or beyond
each, to either side. -/
theorem median_halves {values : List K} (h : values ≠ []) : ∃ low high : K, low ≤ high ∧
    median values = (low + high) / 2 ∧
    values.length / 2 + 1 ≤ values.countP (fun v => decide (low ≤ v)) ∧
    (values.length + 1) / 2 ≤ values.countP (fun v => decide (high ≤ v)) ∧
    values.length / 2 + 1 ≤ values.countP (fun v => decide (v ≤ high)) ∧
    (values.length + 1) / 2 ≤ values.countP fun v => decide (v ≤ low) := by
  set ordered := values.mergeSort fun a b => decide (a ≤ b) with hordered
  have hperm : ordered.Perm values := List.mergeSort_perm _ _
  have hsorted : ordered.Pairwise (· ≤ ·) := by
    have hpairwise : ordered.Pairwise fun a b => decide (a ≤ b) = true :=
      List.pairwise_mergeSort (by simpa using fun a b c => le_trans) (by simpa using le_total)
        values
    simpa using hpairwise
  have hlength : values.length = ordered.length := hperm.length_eq.symm
  have hpos : 0 < ordered.length := by
    rw [← hlength]
    exact List.length_pos_iff.mpr h
  have hmid : ordered.length / 2 < ordered.length := by omega
  simp only [← hperm.countP_eq, hlength]
  have hgeMid := SortedCounts.le_countP_ge hsorted hmid
  have hleMid := SortedCounts.le_countP_le hsorted hmid
  have hmedian : median values = if ordered.length % 2 = 1 then ordered.getD (ordered.length / 2) 0
      else 1 / 2 * (ordered.getD (ordered.length / 2 - 1) 0 +
        ordered.getD (ordered.length / 2) 0) := rfl
  rw [hmedian, List.getD_eq_getElem _ _ hmid]
  split_ifs with hodd
  · refine ⟨ordered[ordered.length / 2], ordered[ordered.length / 2], le_rfl, ?_, ?_, ?_, ?_, ?_⟩
    · ring
    all_goals
      omega
  · have hbefore : ordered.length / 2 - 1 < ordered.length := by omega
    have hgeBefore := SortedCounts.le_countP_ge hsorted hbefore
    have hleBefore := SortedCounts.le_countP_le hsorted hbefore
    rw [List.getD_eq_getElem _ _ hbefore]
    refine ⟨ordered[ordered.length / 2 - 1], ordered[ordered.length / 2], ?_, ?_, ?_, ?_, ?_, ?_⟩
    · exact List.pairwise_iff_getElem.mp hsorted _ _ hbefore hmid (by omega)
    · ring
    all_goals
      omega

/-- The same seen from the side of zero on which the median lies. -/
theorem median_signed {values : List K} (h : values ≠ []) : ∃ side weak strong : K,
    side * side = 1 ∧ 0 ≤ weak + strong ∧ weak ≤ strong ∧
    side * median values = (weak + strong) / 2 ∧
    values.length / 2 + 1 ≤ values.countP (fun v => decide (weak ≤ side * v)) ∧
    (values.length + 1) / 2 ≤ values.countP fun v => decide (strong ≤ side * v) := by
  obtain ⟨low, high, hle, hmedian, hlow, hhigh, hbelow, hunder⟩ := median_halves h
  rcases le_or_gt 0 (low + high) with hpos | hneg
  · exact ⟨1, low, high, one_mul 1, hpos, hle, by rw [one_mul, hmedian], by simpa using hlow,
      by simpa using hhigh⟩
  · refine ⟨-1, -high, -low, by ring, by linarith, by linarith, ?_, by simpa using hbelow,
      by simpa using hunder⟩
    rw [hmedian]
    ring

theorem max_sq_le {side x y : K} (hside : side * side = 1) (h : x ≤ side * y) :
    max x 0 * max x 0 ≤ y * y := by
  have hsq : side * y * (side * y) = y * y := by
    linear_combination y * y * hside
  rcases le_or_gt x 0 with hx | hx
  · rw [max_eq_right hx, mul_zero]
    exact mul_self_nonneg y
  · rw [max_eq_left hx.le, ← hsq]
    exact mul_self_le_mul_self hx.le h

/-- The square of a mean that is not negative. -/
theorem mean_sq_le {side m x y : K} (hside : side * side = 1) (hpos : 0 ≤ x + y)
    (hm : side * m = (x + y) / 2) :
    m * m ≤ (max x 0 * max x 0 + max y 0 * max y 0) / 2 := by
  have hsq : m * m = (x + y) / 2 * ((x + y) / 2) := by
    rw [← hm]
    linear_combination -(m * m) * hside
  have hle : (x + y) / 2 ≤ (max x 0 + max y 0) / 2 := by
    have hx := le_max_left x 0
    have hy := le_max_left y 0
    linarith
  calc m * m = (x + y) / 2 * ((x + y) / 2) := hsq
    _ ≤ (max x 0 + max y 0) / 2 * ((max x 0 + max y 0) / 2) :=
        mul_self_le_mul_self (by linarith) hle
    _ ≤ (max x 0 * max x 0 + max y 0 * max y 0) / 2 := by
        have hgap := mul_self_nonneg (max x 0 - max y 0)
        linarith

/-- The median, taken in each coordinate, of points within a disc lies within it. -/
theorem median_in_disc {points : List (Point2 K)} {bound : K} (h : points ≠ [])
    (hin : ∀ p ∈ points, p.1 * p.1 + p.2 * p.2 ≤ bound) :
    median (points.map Prod.fst) * median (points.map Prod.fst) +
      median (points.map Prod.snd) * median (points.map Prod.snd) ≤ bound := by
  obtain ⟨s, a, a', hs, ha, -, hmedian1, hweak1, hstrong1⟩ :=
    median_signed (by simpa using h : points.map Prod.fst ≠ [])
  obtain ⟨r, b, b', hr, hb, -, hmedian2, hweak2, hstrong2⟩ :=
    median_signed (by simpa using h : points.map Prod.snd ≠ [])
  rw [List.countP_map, List.length_map] at hweak1 hstrong1 hweak2 hstrong2
  -- more than all points together are beyond the weak place in one coordinate and the
  -- strong place in the other
  obtain ⟨p, hp, hpa, hpb⟩ := SortedCounts.exists_both (l := points)
    (p := (fun v => decide (a ≤ s * v)) ∘ Prod.fst)
    (q := (fun v => decide (b' ≤ r * v)) ∘ Prod.snd) (by omega)
  obtain ⟨q, hq, hqa, hqb⟩ := SortedCounts.exists_both (l := points)
    (p := (fun v => decide (a' ≤ s * v)) ∘ Prod.fst)
    (q := (fun v => decide (b ≤ r * v)) ∘ Prod.snd) (by omega)
  simp only [Function.comp_apply, decide_eq_true_eq] at hpa hpb hqa hqb
  have h1 := max_sq_le hs hpa
  have h2 := max_sq_le hr hpb
  have h3 := max_sq_le hs hqa
  have h4 := max_sq_le hr hqb
  have hmean1 := mean_sq_le hs ha hmedian1
  have hmean2 := mean_sq_le hr hb hmedian2
  have hpin := hin p hp
  have hqin := hin q hq
  linarith

end Median

/-! ## The queries of a run -/

namespace TagAnchorMap

section Queries
variable {K : Type*} [Field K] [LinearOrder K] [IsStrictOrderedRing K] [MathOps K]

/-- The drift at a time lies beyond the gate. -/
def beyond (m : TagAnchorMap K) (t : K) : Bool :=
  match m.drift t {} with
  | none => false
  | some d => decide (m.cfg.gateM < d.maxDisplacement)

/-- The queries for a disagreement in a run, each with whether the drift lay beyond the
gate. -/
def queries (m : TagAnchorMap K) : List (AnchorCall K) → List (K × Bool)
  | [] => []
  | .observe t tagId fix nadir aglM :: cs => queries (m.observe t tagId fix nadir aglM).1 cs
  | .drift _ _ :: cs => m.queries cs
  | .disagreement t :: cs => (t, m.beyond t) :: m.queries cs

/-- The same map with another start of the breach. -/
def withBreach (m : TagAnchorMap K) (breachT0 : Option K) : TagAnchorMap K :=
  { m with breachT0 := breachT0 }

theorem observe_withBreach (m : TagAnchorMap K) (breachT0 : Option K) (t : K) (tagId : String)
    (fix nadir : Point2 K) (aglM : K) :
    ((m.withBreach breachT0).observe t tagId fix nadir aglM).1 =
      ((m.observe t tagId fix nadir aglM).1).withBreach breachT0 := by
  unfold observe
  dsimp only
  have hcfg : (m.withBreach breachT0).cfg = m.cfg := rfl
  rw [hcfg]
  split_ifs <;> rfl

/-- What a query answers does not change the later ones. -/
theorem queries_withBreach (m : TagAnchorMap K) (breachT0 : Option K) (cs : List (AnchorCall K)) :
    (m.withBreach breachT0).queries cs = m.queries cs := by
  induction cs generalizing m with
  | nil => rfl
  | cons c cs ih =>
    cases c with
    | observe t tagId fix nadir aglM =>
      rw [queries, queries, observe_withBreach]
      exact ih _
    | drift t query => exact ih m
    | disagreement t => exact congrArg (List.cons (t, m.beyond t)) (ih m)

/-- The queries of a run after another. -/
theorem queries_append (m : TagAnchorMap K) (before after : List (AnchorCall K)) :
    m.queries (before ++ after) = m.queries before ++ ((m.calls before).1).queries after := by
  induction before generalizing m with
  | nil => rfl
  | cons c before ih =>
    cases c with
    | observe t tagId fix nadir aglM => exact ih (m.observe t tagId fix nadir aglM).1
    | drift t query => exact ih m
    | disagreement t =>
      obtain ⟨breachT0, hframe⟩ := m.disagreement_frame t
      have hstate : (m.call (.disagreement t)).1 = m.withBreach breachT0 := hframe
      have hnext := ih (m.withBreach breachT0)
      rw [queries_withBreach, queries_withBreach] at hnext
      rw [List.cons_append, queries, queries, calls, hstate, hnext, List.cons_append]

theorem observe_breachT0 (m : TagAnchorMap K) (t : K) (tagId : String) (fix nadir : Point2 K)
    (aglM : K) : ((m.observe t tagId fix nadir aglM).1).breachT0 = m.breachT0 ∧
      ((m.observe t tagId fix nadir aglM).1).cfg = m.cfg := by
  unfold observe
  dsimp only
  split_ifs <;> exact ⟨rfl, rfl⟩

/-- A query is one reading of an alarm. -/
theorem disagreement_step (m : TagAnchorMap K) (t : K) :
    (m.disagreement t).1 = m.withBreach
        (HeldAlarm.step m.cfg.gatePersistS m.breachT0 (t, m.beyond t)).1 ∧
      (m.disagreement t).2.isSome =
        (HeldAlarm.step m.cfg.gatePersistS m.breachT0 (t, m.beyond t)).2 := by
  cases hdrift : m.drift t {} with
  | none =>
    have hoff : m.beyond t = false := by rw [beyond, hdrift]
    rw [hoff, disagreement, hdrift]
    exact ⟨rfl, rfl⟩
  | some d =>
    have hbeyond : m.beyond t = decide (m.cfg.gateM < d.maxDisplacement) := by rw [beyond, hdrift]
    rw [hbeyond, disagreement, hdrift]
    dsimp only
    by_cases hgate : d.maxDisplacement ≤ m.cfg.gateM
    · rw [if_pos hgate, decide_eq_false hgate.not_gt]
      exact ⟨rfl, rfl⟩
    · rw [if_neg hgate, decide_eq_true (not_le.mp hgate)]
      unfold HeldAlarm.step withBreach
      cases hbreach : m.breachT0 with
      | none => exact ⟨rfl, rfl⟩
      | some t0 =>
        dsimp only
        rw [if_pos rfl]
        split_ifs with hshort
        · exact ⟨by rw [← hbreach], by simp [hshort]⟩
        · exact ⟨by rw [← hbreach], by simp [hshort]⟩

/-- A run reports a disagreement when the alarm over its queries sounds. -/
theorem reports_iff_sounds (m : TagAnchorMap K) (cs : List (AnchorCall K)) :
    (∃ reason, AnchorAnswer.disagreement (some reason) ∈ (m.calls cs).2) ↔
      true ∈ HeldAlarm.alarms m.cfg.gatePersistS m.breachT0 (m.queries cs) := by
  induction cs generalizing m with
  | nil => simp [calls, queries, HeldAlarm.alarms]
  | cons c cs ih =>
    have hsplit : (∃ reason, AnchorAnswer.disagreement (some reason) ∈ (m.calls (c :: cs)).2) ↔
        (∃ reason, AnchorAnswer.disagreement (some reason) = (m.call c).2) ∨
          ∃ reason, AnchorAnswer.disagreement (some reason) ∈ (((m.call c).1).calls cs).2 := by
      simp only [calls, List.mem_cons, exists_or]
    rw [hsplit, ih]
    cases c with
    | observe t tagId fix nadir aglM =>
      obtain ⟨hbreach, hcfg⟩ := m.observe_breachT0 t tagId fix nadir aglM
      rw [call_eq_observe, hbreach, hcfg]
      simp [call, queries]
    | drift t query => simp [call, queries]
    | disagreement t =>
      obtain ⟨hstate, hreport⟩ := m.disagreement_step t
      have hcall : m.call (.disagreement t) =
          ((m.disagreement t).1, .disagreement (m.disagreement t).2) := rfl
      rw [hcall, queries, HeldAlarm.alarms, List.mem_cons, hstate, queries_withBreach]
      have hcfg : (m.withBreach (HeldAlarm.step m.cfg.gatePersistS m.breachT0
          (t, m.beyond t)).1).cfg = m.cfg := rfl
      have hbreach : (m.withBreach (HeldAlarm.step m.cfg.gatePersistS m.breachT0
          (t, m.beyond t)).1).breachT0 = (HeldAlarm.step m.cfg.gatePersistS m.breachT0
            (t, m.beyond t)).1 := rfl
      rw [hcfg, hbreach, ← hreport]
      apply or_congr_left
      rw [eq_comm, Option.isSome_iff_exists]
      apply exists_congr
      intro reason
      rw [AnchorAnswer.disagreement.injEq, eq_comm]

end Queries

/-! ## One tag in view -/

/-- How far a fix lies from the datum of its tag. -/
noncomputable def offDatum (datum : Point2 ℝ) (fx : AnchorFix ℝ) : ℝ :=
  hypot (fx.fix.1 - datum.1) (fx.fix.2 - datum.2)

theorem hypot_le_iff {x y bound : ℝ} (h : 0 ≤ bound) :
    hypot x y ≤ bound ↔ x * x + y * y ≤ bound * bound := by
  have hsqrt : hypot x y = √(x * x + y * y) := rfl
  rw [hsqrt, Real.sqrt_le_left h, sq]

/-- The drift of one tag moves its datum to the median of its fixes. -/
theorem maxDisplacement_single (datum : Point2 ℝ) (dn de : ℝ) :
    AnchorTransform.maxDisplacement { dn, de, dyaw := 0, nTags := 1, points := [datum] } =
      hypot dn de := by
  have hcos : cos (0 : ℝ) = 1 := Real.cos_zero
  have hsin : sin (0 : ℝ) = 0 := Real.sin_zero
  have hvector : AnchorTransform.displacementVectorAt
      { dn, de, dyaw := 0, nTags := 1, points := [datum] } datum = (dn, de) := by
    unfold AnchorTransform.displacementVectorAt
    rw [hcos, hsin]
    ext
    · dsimp only
      ring
    · dsimp only
      ring
  simp [AnchorTransform.maxDisplacement, AnchorTransform.displacementAt, hvector]

/-- Without a correspondence there is no drift. -/
theorem beyond_of_no_pairs {m : TagAnchorMap ℝ} {t : ℝ} (h : m.correspondences t none = []) :
    m.beyond t = false := by
  have hdrift : m.drift t {} = none := by simp [drift, h]
  rw [beyond, hdrift]

section Single
variable {m : TagAnchorMap ℝ} {t : ℝ} {tagId : String}
  (hone : ∀ fx ∈ m.fresh t m.cfg.staleS, fx.tagId = tagId) (hne : m.fresh t m.cfg.staleS ≠ [])
include hone hne

/-- The correspondences when every fresh fix is of one tag. -/
theorem correspondences_single :
    m.correspondences t none = ((m.originOf tagId).map fun origin =>
      (origin, (median ((m.fresh t m.cfg.staleS).map fun fx => fx.fix.1),
        median ((m.fresh t m.cfg.staleS).map fun fx => fx.fix.2)))).toList := by
  set fresh := m.fresh t m.cfg.staleS with hfresh
  have htags : (fresh.map AnchorFix.tagId).dedup = [tagId] := by
    have hall : fresh.map AnchorFix.tagId = List.replicate fresh.length tagId := by
      rw [List.eq_replicate_iff, List.length_map]
      refine ⟨rfl, fun tag htag => ?_⟩
      obtain ⟨fx, hfx, rfl⟩ := List.mem_map.mp htag
      exact hone fx hfx
    rw [hall, List.replicate_dedup (by simpa using hne)]
  have hgroup : fresh.filter (fun fx => fx.tagId = tagId) = fresh := by
    rw [List.filter_eq_self]
    intro fx hfx
    exact decide_eq_true (hone fx hfx)
  have horiginOf : (m.lookup tagId).bind Reference.origin = m.originOf tagId := rfl
  unfold correspondences
  dsimp only
  rw [Option.getD_none, ← hfresh, htags, List.mergeSort_singleton, List.filterMap_cons]
  unfold correspondence
  dsimp only
  rw [hgroup, horiginOf]
  cases m.originOf tagId <;> rfl

/-- How far the drift moves the datum of the only tag in view. -/
theorem beyond_single {datum : Point2 ℝ} (hdatum : m.originOf tagId = some datum) :
    m.beyond t = decide (m.cfg.gateM <
      hypot (median ((m.fresh t m.cfg.staleS).map fun fx => fx.fix.1) - datum.1)
        (median ((m.fresh t m.cfg.staleS).map fun fx => fx.fix.2) - datum.2)) := by
  have hpairs := correspondences_single hone hne
  rw [hdatum, Option.map_some, Option.toList_some] at hpairs
  have hdrift : m.drift t {} = some {
      dn := median ((m.fresh t m.cfg.staleS).map fun fx => fx.fix.1) - datum.1
      de := median ((m.fresh t m.cfg.staleS).map fun fx => fx.fix.2) - datum.2
      dyaw := 0
      nTags := 1
      points := [datum] } := by
    simp [drift, hpairs]
  rw [beyond, hdrift]
  dsimp only
  rw [maxDisplacement_single]

end Single

/-- With one tag in view a drift beyond the gate takes a wrong fix. -/
theorem wrong_fix_of_beyond (m : TagAnchorMap ℝ) {t : ℝ} (h : m.beyond t = true) :
    (∃ a ∈ m.fresh t m.cfg.staleS, ∃ b ∈ m.fresh t m.cfg.staleS, a.tagId ≠ b.tagId) ∨
      ∃ fx ∈ m.fresh t m.cfg.staleS, ∃ datum, m.originOf fx.tagId = some datum ∧
        m.cfg.gateM < offDatum datum fx := by
  by_contra hnone
  push Not at hnone
  obtain ⟨hsame, hnear⟩ := hnone
  rcases List.eq_nil_or_concat (m.fresh t m.cfg.staleS) with hnil | ⟨front, last, hfresh⟩
  · have hpairs : m.correspondences t none = [] := by simp [correspondences, hnil]
    rw [beyond_of_no_pairs hpairs] at h
    contradiction
  · have hlast : last ∈ m.fresh t m.cfg.staleS := by simp [hfresh]
    have hne := List.ne_nil_of_mem hlast
    have hone : ∀ fx ∈ m.fresh t m.cfg.staleS, fx.tagId = last.tagId :=
      fun fx hfx => hsame fx hfx last hlast
    cases hdatum : m.originOf last.tagId with
    | none =>
      have hpairs := correspondences_single hone hne
      rw [hdatum, Option.map_none, Option.toList_none] at hpairs
      rw [beyond_of_no_pairs hpairs] at h
      contradiction
    | some datum =>
      rw [beyond_single hone hne hdatum, decide_eq_true_eq] at h
      have hnonneg : 0 ≤ m.cfg.gateM := (Real.sqrt_nonneg _).trans (hnear last hlast datum hdatum)
      have hin : ∀ p ∈ (m.fresh t m.cfg.staleS).map fun fx =>
          (fx.fix.1 + -datum.1, fx.fix.2 + -datum.2),
            p.1 * p.1 + p.2 * p.2 ≤ m.cfg.gateM * m.cfg.gateM := by
        intro p hp
        obtain ⟨fx, hfx, rfl⟩ := List.mem_map.mp hp
        have hsome : m.originOf fx.tagId = some datum := by rw [hone fx hfx, hdatum]
        exact (hypot_le_iff hnonneg).mp (hnear fx hfx datum hsome)
      have hdisc := median_in_disc (by simpa using hne) hin
      have hshift (coordinate : AnchorFix ℝ → ℝ) (c : ℝ) :
          median ((m.fresh t m.cfg.staleS).map fun fx => coordinate fx + c) =
            median ((m.fresh t m.cfg.staleS).map coordinate) + c := by
        rw [← median_shift (by simpa using hne), List.map_map]
        rfl
      rw [List.map_map, List.map_map] at hdisc
      simp only [Function.comp_def] at hdisc
      rw [hshift (fun fx => fx.fix.1), hshift (fun fx => fx.fix.2), ← sub_eq_add_neg,
        ← sub_eq_add_neg, ← hypot_le_iff hnonneg] at hdisc
      exact hdisc.not_gt h

theorem calls_cfg (m : TagAnchorMap ℝ) (cs : List (AnchorCall ℝ)) :
    ((m.calls cs).1).cfg = m.cfg := by
  induction cs generalizing m with
  | nil => rfl
  | cons c cs ih =>
    have hcall : ((m.call c).1).cfg = m.cfg := by
      cases c with
      | observe t tagId fix nadir aglM => exact (m.observe_breachT0 t tagId fix nadir aglM).2
      | drift t query => rfl
      | disagreement t =>
        obtain ⟨breachT0, hframe⟩ := m.disagreement_frame t
        have hstate : ((m.disagreement t).1).cfg = m.cfg := by rw [hframe]
        exact hstate
    exact (ih (m.call c).1).trans hcall

/-- At most one settled fix of a tag is wrong, and none of those that formed its datum. -/
structure MostlyGood (m : TagAnchorMap ℝ) : Prop where
  formed : ∀ tagId datum, m.originOf tagId = some datum →
    ∀ fx ∈ m.fixesOf tagId, fx.settled = false → offDatum datum fx ≤ m.cfg.gateM
  one : ∀ tagId datum, m.originOf tagId = some datum → (m.fixesOf tagId).countP
    (fun fx => fx.settled && decide (m.cfg.gateM < offDatum datum fx)) ≤ 1

/-- The default settings, over the reals. -/
noncomputable def realAnchor : AnchorConfig ℝ :=
  { ({} : AnchorSettings ℝ) with accepted := by norm_num [AnchorSettings.postInit] }

/-- Four sightings of a tag at the origin, and one two metres off. -/
def loneFix : List (AnchorCall ℝ) :=
  [.observe 0 "a" (0, 0) (0, 0) 2, .observe 1 "a" (0, 0) (0, 0) 2, .observe 2 "a" (0, 0) (0, 0) 2,
    .observe 3 "a" (0, 0) (0, 0) 2, .observe 4 "a" (2, 0) (2, 0) 2]

theorem hypot_self_zero : hypot (0 : ℝ) 0 = 0 := by
  have hsqrt : hypot (0 : ℝ) 0 = √(0 * 0 + 0 * 0) := rfl
  rw [hsqrt, mul_zero, add_zero, Real.sqrt_zero]

/-- A sighting of the tag at the origin. -/
noncomputable def forming (t : ℝ) : AnchorFix ℝ := ⟨t, "a", (0, 0), (0, 0), 2, 0, false⟩

/-- The fix that is off. -/
noncomputable def wrong : AnchorFix ℝ := ⟨4, "a", (2, 0), (2, 0), 2, 0, true⟩

/-- The map with the datum and the fix that is off. -/
noncomputable def misled : TagAnchorMap ℝ where
  cfg := realAnchor
  refs := [{
    tagId := "a"
    origin := some (0, 0)
    nObs := 5
    firstSeen := 0
    lastSeen := 4 }]
  fixes := [forming 0, forming 1, forming 2, forming 3, wrong]
  nRejected := 0
  breachT0 := none

theorem loneFix_calls : ((new realAnchor).calls loneFix).1 = misled := by
  norm_num [loneFix, calls, call, observe, new, hypot_self_zero, lookup, store, Reference.sight,
    Reference.settled, Reference.accumulate, Reference.window, Reference.spread, realAnchor,
    Reference.measuredFrom, meanPoint, misled, forming, wrong]

/-- The fix that is off stays the only one in its window. -/
theorem beyond_misled {t : ℝ} (h : t ≤ 14) : misled.beyond t = true := by
  have hfresh : misled.fresh t misled.cfg.staleS = [wrong] := by
    have hage : t ≤ 10 + 4 := by linarith
    simp [fresh, misled, forming, wrong, realAnchor, hage]
  have hone : ∀ fx ∈ misled.fresh t misled.cfg.staleS, fx.tagId = "a" := by
    simp [hfresh, wrong]
  have hdatum : misled.originOf "a" = some (0, 0) := by
    simp [originOf, lookup, misled]
  have hmedian (x : ℝ) : median [x] = x := by simp [median]
  have hsmall : ¬hypot (2 - 0 : ℝ) (0 - 0) ≤ 3 / 2 := by
    rw [hypot_le_iff (by norm_num)]
    norm_num
  rw [beyond_single hone (by simp [hfresh]) hdatum, hfresh, decide_eq_true_eq]
  simp only [List.map_cons, List.map_nil, hmedian]
  exact not_le.mp hsmall

theorem mostlyGood_misled (breachT0 : Option ℝ) : MostlyGood (misled.withBreach breachT0) := by
  constructor
  · intro tagId datum hdatum fx hfx hforming
    obtain ⟨hfx, htag⟩ := List.mem_filter.mp hfx
    obtain ⟨t, rfl⟩ : ∃ t, fx = forming t := by
      simp only [withBreach, misled, List.mem_cons, List.not_mem_nil, or_false] at hfx
      rcases hfx with rfl | rfl | rfl | rfl | rfl
      · exact ⟨0, rfl⟩
      · exact ⟨1, rfl⟩
      · exact ⟨2, rfl⟩
      · exact ⟨3, rfl⟩
      · contradiction
    obtain rfl : "a" = tagId := of_decide_eq_true htag
    obtain rfl : (0, 0) = datum := by
      simpa [originOf, lookup, withBreach, misled] using hdatum
    have hgate : (misled.withBreach breachT0).cfg.gateM = 3 / 2 := rfl
    rw [hgate, offDatum, hypot_le_iff (by norm_num)]
    norm_num [forming]
  · intro tagId datum _
    have hsettled : (misled.withBreach breachT0).fixes.countP (fun fx => fx.settled) = 1 := by
      simp [withBreach, misled, forming, wrong]
    rw [fixesOf, List.countP_filter, ← hsettled]
    apply List.countP_mono_left
    intro fx _ hfx
    simp only [Bool.and_eq_true] at hfx
    exact hfx.1.1

end TagAnchorMap

end Mission10.Engine
