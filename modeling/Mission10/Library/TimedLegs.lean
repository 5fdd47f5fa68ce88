import Mathlib.Analysis.Normed.Module.Basic
import Mission10.Library.BoundedRate
import Mission10.Library.Numerals

/-!
# Paths of timed legs

A path is a list of straight legs with durations. Inside a leg the position follows a
cubic ramp, whose greatest rate is half as fast again as the mean one. Where each leg
starts at the end of the one before and has the time for a speed, the path is continuous
and never faster, past its end too, where the position rests.
-/
namespace TimedLegs

open BoundedRate

set_option linter.unusedSectionVars false

variable {E : Type*} [NormedAddCommGroup E] [NormedSpace ℝ E]

/-- A straight leg. -/
structure Leg (E : Type*) where
  start : E
  finish : E
  duration : ℝ

/-- The share of a leg that is done; a leg of no duration is done at once. -/
noncomputable def Leg.share (leg : Leg E) (t : ℝ) : ℝ :=
  if 0 < leg.duration then t / leg.duration else 1

/-- The position inside a leg. -/
noncomputable def Leg.point (leg : Leg E) (t : ℝ) : E :=
  leg.start + (leg.share t * leg.share t * (3 - 2 * leg.share t)) • (leg.finish - leg.start)

/-- The position on the legs after a point, which is where a path of no legs rests. -/
noncomputable def position : E → List (Leg E) → ℝ → E
  | p, [], _ => p
  | _, leg :: rest, t =>
    if t ≤ leg.duration then leg.point t else position leg.finish rest (t - leg.duration)

/-- Every leg starts where the one before ends. -/
def Chained : E → List (Leg E) → Prop
  | _, [] => True
  | p, leg :: rest => leg.start = p ∧ Chained leg.finish rest

/-- Where the legs end. -/
def reached : E → List (Leg E) → E
  | p, [] => p
  | _, leg :: rest => reached leg.finish rest

/-- The leg has the time for the speed. -/
structure Leg.Paced (speed : ℝ) (leg : Leg E) : Prop where
  duration : 0 ≤ leg.duration
  length : 3 / 2 * ‖leg.finish - leg.start‖ ≤ speed * leg.duration

variable {p : E} {leg : Leg E} {legs rest : List (Leg E)} {speed : ℝ}

theorem chained_append (p : E) (first second : List (Leg E)) :
    Chained p (first ++ second) ↔ Chained p first ∧ Chained (reached p first) second := by
  induction first generalizing p with
  | nil => simp [Chained, reached]
  | cons leg rest ih => simp only [List.cons_append, Chained, reached, ih, and_assoc]

theorem Leg.Paced.still (h : leg.Paced speed) (hzero : ¬ 0 < leg.duration) :
    leg.finish = leg.start := by
  have hduration : leg.duration = 0 := le_antisymm (not_lt.mp hzero) h.duration
  have hlength := h.length
  rw [hduration, mul_zero] at hlength
  have hnorm : ‖leg.finish - leg.start‖ = 0 := le_antisymm (by linarith) (norm_nonneg _)
  exact sub_eq_zero.mp (norm_eq_zero.mp hnorm)

theorem Leg.Paced.point_zero (h : leg.Paced speed) : leg.point 0 = leg.start := by
  unfold point share
  split_ifs with hpos
  · simp
  · rw [h.still hpos, sub_self, smul_zero, add_zero]

theorem Leg.point_duration (leg : Leg E) : leg.point leg.duration = leg.finish := by
  have hshare : leg.share leg.duration = 1 := by
    unfold share
    split_ifs with hpos
    · exact div_self hpos.ne'
    · rfl
  rw [point, hshare, show (1 : ℝ) * 1 * (3 - 2 * 1) = 1 by norm_num, one_smul, add_sub_cancel]

/-- Inside a leg the position is not faster than the leg is paced for. -/
theorem Leg.Paced.point_steady (h : leg.Paced speed) {t t' : ℝ} (ht : 0 ≤ t)
    (htd : t ≤ leg.duration) (ht' : 0 ≤ t') (htd' : t' ≤ leg.duration) :
    ‖leg.point t - leg.point t'‖ ≤ speed * |t - t'| := by
  by_cases hpos : 0 < leg.duration
  · have hshare : ∀ x, 0 ≤ x → x ≤ leg.duration →
        leg.share x = min (max (x / leg.duration) 0) 1 := by
      intro x hx hxd
      rw [share, if_pos hpos, max_eq_left (div_nonneg hx hpos.le),
        min_eq_left ((div_le_one hpos).mpr hxd)]
    have hramp := (((steady_id.div_const hpos).ramp).smooth).steady t t'
    have hdiff : leg.point t - leg.point t' =
        (leg.share t * leg.share t * (3 - 2 * leg.share t) -
          leg.share t' * leg.share t' * (3 - 2 * leg.share t')) • (leg.finish - leg.start) := by
      rw [point, point, add_sub_add_left_eq_sub, sub_smul]
    rw [hdiff, norm_smul, Real.norm_eq_abs, hshare t ht htd, hshare t' ht' htd']
    calc _ ≤ 3 / 2 * (1 / leg.duration) * |t - t'| * ‖leg.finish - leg.start‖ :=
          mul_le_mul_of_nonneg_right hramp (norm_nonneg _)
      _ = 3 / 2 * ‖leg.finish - leg.start‖ / leg.duration * |t - t'| := by ring
      _ ≤ speed * |t - t'| :=
        mul_le_mul_of_nonneg_right ((div_le_iff₀ hpos).mpr h.length) (abs_nonneg _)
  · have hduration : leg.duration = 0 := le_antisymm (not_lt.mp hpos) h.duration
    have hzero : t = 0 := le_antisymm (htd.trans hduration.le) ht
    have hzero' : t' = 0 := le_antisymm (htd'.trans hduration.le) ht'
    simp [hzero, hzero']

theorem position_zero (hchained : Chained p legs) (hpaced : ∀ leg ∈ legs, leg.Paced speed) :
    position p legs 0 = p := by
  cases legs with
  | nil => rfl
  | cons leg rest =>
    have hleg := hpaced leg (List.mem_cons_self ..)
    rw [position, if_pos hleg.duration, hleg.point_zero, hchained.1]

/-- The path is not faster than its legs are paced for. -/
theorem position_steady (hspeed : 0 ≤ speed) (hchained : Chained p legs)
    (hpaced : ∀ leg ∈ legs, leg.Paced speed) {t t' : ℝ} (ht : 0 ≤ t) (hle : t ≤ t') :
    ‖position p legs t - position p legs t'‖ ≤ speed * (t' - t) := by
  induction legs generalizing p t t' with
  | nil =>
    rw [position, position, sub_self, norm_zero]
    exact mul_nonneg hspeed (sub_nonneg.mpr hle)
  | cons leg rest ih =>
    have hleg := hpaced leg (List.mem_cons_self ..)
    have hrest : ∀ leg ∈ rest, leg.Paced speed := fun l hl => hpaced l (List.mem_cons_of_mem _ hl)
    have habs : |t - t'| = t' - t := by
      rw [abs_sub_comm, abs_of_nonneg (sub_nonneg.mpr hle)]
    by_cases hlate : t' ≤ leg.duration
    · have hinside := hleg.point_steady ht (hle.trans hlate) (ht.trans hle) hlate
      rw [habs] at hinside
      rwa [position, position, if_pos (hle.trans hlate), if_pos hlate]
    · have hlate' : 0 ≤ t' - leg.duration := sub_nonneg.mpr (not_le.mp hlate).le
      by_cases hearly : t ≤ leg.duration
      · have hfirst := hleg.point_steady ht hearly hleg.duration le_rfl
        rw [leg.point_duration, abs_sub_comm, abs_of_nonneg (sub_nonneg.mpr hearly)] at hfirst
        have hsecond := ih hchained.2 hrest le_rfl hlate'
        rw [position_zero hchained.2 hrest, sub_zero] at hsecond
        rw [position, position, if_pos hearly, if_neg hlate]
        calc _ ≤ ‖leg.point t - leg.finish‖ +
              ‖leg.finish - position leg.finish rest (t' - leg.duration)‖ :=
              norm_sub_le_norm_sub_add_norm_sub _ _ _
          _ ≤ speed * (leg.duration - t) + speed * (t' - leg.duration) :=
              add_le_add hfirst hsecond
          _ = speed * (t' - t) := by ring
      · have hafter := ih hchained.2 hrest (sub_nonneg.mpr (not_le.mp hearly).le)
          (sub_le_sub_right hle leg.duration)
        rw [sub_sub_sub_cancel_right] at hafter
        rwa [position, position, if_neg hearly, if_neg hlate]

theorem Leg.Paced.mono {speed' : ℝ} (h : leg.Paced speed) (hle : speed ≤ speed') :
    leg.Paced speed' :=
  ⟨h.duration, h.length.trans (mul_le_mul_of_nonneg_right hle h.duration)⟩

theorem durations_nonneg (hpaced : ∀ leg ∈ legs, leg.Paced speed) :
    0 ≤ (legs.map Leg.duration).sum := by
  apply List.sum_nonneg
  intro d hd
  obtain ⟨leg, hleg, rfl⟩ := List.mem_map.mp hd
  exact (hpaced leg hleg).duration

/-- Legs without any duration lead nowhere. -/
theorem reached_still (hchained : Chained p legs) (hpaced : ∀ leg ∈ legs, leg.Paced speed)
    (hsum : (legs.map Leg.duration).sum = 0) : reached p legs = p := by
  induction legs generalizing p with
  | nil => rfl
  | cons leg rest ih =>
    have hleg := hpaced leg (List.mem_cons_self ..)
    have hrest : ∀ leg ∈ rest, leg.Paced speed := fun l hl => hpaced l (List.mem_cons_of_mem _ hl)
    rw [List.map_cons, List.sum_cons] at hsum
    have hnonneg := durations_nonneg hrest
    have hduration := hleg.duration
    rw [reached, ih hchained.2 hrest (by linarith), hleg.still (by linarith), hchained.1]

/-- When all legs have had their time the position rests at the end. -/
theorem position_done (hchained : Chained p legs) (hpaced : ∀ leg ∈ legs, leg.Paced speed) {t : ℝ}
    (ht : (legs.map Leg.duration).sum ≤ t) : position p legs t = reached p legs := by
  induction legs generalizing p t with
  | nil => rfl
  | cons leg rest ih =>
    have hrest : ∀ leg ∈ rest, leg.Paced speed := fun l hl => hpaced l (List.mem_cons_of_mem _ hl)
    rw [List.map_cons, List.sum_cons] at ht
    have hnonneg := durations_nonneg hrest
    rw [position, reached]
    split_ifs with hlast
    · have hexact : t = leg.duration := by linarith
      rw [hexact, leg.point_duration, reached_still hchained.2 hrest (by linarith)]
    · exact ih hchained.2 hrest (by linarith)

end TimedLegs
