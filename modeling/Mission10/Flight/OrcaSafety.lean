import Mission10.Flight.Orca

/-!
# Reciprocal safety

Two agents that see each other exactly compute mirrored half-planes. A relative
velocity that the two permit keeps the line of sight away from the disc of the
combined radius, on a leg of the velocity obstacle for all time and at the cutoff
until the horizon. The one exception is a cutoff normal that the floor of its
length has shortened.
-/
namespace Mission10.Flight

open Engine (MathOps Point2 sqrt_real)
open Engine.MathOps Plane

/-- A velocity on the permitted side. -/
def Permits (h : HalfPlane ℝ) (v : Point2 ℝ) : Prop := h.2 ≤ dot h.1 v

/-- Any permitted velocities keep the two agents apart until the horizon. -/
def ReciprocallySafe (p ownVelocity peerVelocity : Point2 ℝ) (radius timeHorizon timeStep : ℝ) :
    Prop :=
  ∀ own peer,
    Permits (orcaHalfplane ownVelocity ⟨p, peerVelocity, radius⟩ timeHorizon timeStep) own →
    Permits (orcaHalfplane peerVelocity ⟨-p, ownVelocity, radius⟩ timeHorizon timeStep) peer →
    ∀ t, 0 ≤ t → t ≤ timeHorizon → radius ≤ √(normSq (p + t • (peer - own)))

/-- The other agent computes the mirrored change. -/
theorem cutoffOffset_mirror (p ownVelocity peerVelocity : Point2 ℝ) (radius horizon : ℝ) :
    cutoffOffset peerVelocity ⟨-p, ownVelocity, radius⟩ horizon =
      -cutoffOffset ownVelocity ⟨p, peerVelocity, radius⟩ horizon := by
  simp only [cutoffOffset, smul_neg]
  abel

theorem inCutoff_mirror (p ownVelocity peerVelocity : Point2 ℝ) (radius horizon : ℝ) :
    InCutoff peerVelocity ⟨-p, ownVelocity, radius⟩ horizon ↔
      InCutoff ownVelocity ⟨p, peerVelocity, radius⟩ horizon := by
  simp only [InCutoff, cutoffOffset_mirror, normSq, dot_neg, neg_dot, neg_neg]

theorem avoidApart_mirror (p ownVelocity peerVelocity : Point2 ℝ) (radius timeHorizon : ℝ) :
    avoidApart peerVelocity ⟨-p, ownVelocity, radius⟩ timeHorizon =
      -avoidApart ownVelocity ⟨p, peerVelocity, radius⟩ timeHorizon := by
  simp only [avoidApart, inCutoff_mirror, cutoffOffset_mirror, normSq_neg, det_neg_neg]
  split
  · simp only [smul_neg, Prod.neg_mk, Prod.fst_neg, Prod.snd_neg]
  · apply Prod.ext
    · split <;> ext <;> simp <;> ring
    · have hrelative : peerVelocity - ownVelocity = -(ownVelocity - peerVelocity) := by abel
      split <;> ext <;> simp [dot] <;> ring

/-- Half-planes with opposite normals through two points that are moved by half
of a change each permit the pairs whose difference passes the whole change. -/
theorem halves_iff (n a b change : Point2 ℝ) (P : Point2 ℝ → Prop) :
    (∀ own peer, Permits (n, dot n (a + (1 / 2 : ℝ) • change)) own →
      Permits (-n, dot (-n) (b + (1 / 2 : ℝ) • -change)) peer → P (own - peer)) ↔
    ∀ v, dot n (a - b + change) ≤ dot n v → P v := by
  constructor
  · intro h v hv
    have hsame : a + (1 / 2 : ℝ) • change + (1 / 2 : ℝ) • (v - (a - b + change)) -
        (b + (1 / 2 : ℝ) • -change - (1 / 2 : ℝ) • (v - (a - b + change))) = v := by
      ext <;> simp <;> ring
    rw [← hsame]
    simp only [dot_add, dot_sub] at hv
    apply h
    · simp only [Permits, dot_add, dot_sub, dot_smul]
      linarith
    · simp only [Permits, dot_add, dot_sub, dot_smul, neg_dot, dot_neg]
      linarith
  · intro h own peer hown hpeer
    apply h
    simp only [Permits, dot_add, dot_sub, dot_smul, neg_dot, dot_neg] at hown hpeer ⊢
    linarith

section Pair

variable {p ownVelocity peerVelocity : Point2 ℝ} {radius timeHorizon timeStep : ℝ}

/-- The two are safe when no relative velocity past the change closes in. -/
theorem reciprocallySafe_iff (hapart : radius * radius < normSq p) :
    ReciprocallySafe p ownVelocity peerVelocity radius timeHorizon timeStep ↔
      ∀ v, dot (turn (avoidApart ownVelocity ⟨p, peerVelocity, radius⟩ timeHorizon).1)
          (ownVelocity - peerVelocity +
            (avoidApart ownVelocity ⟨p, peerVelocity, radius⟩ timeHorizon).2) ≤
        dot (turn (avoidApart ownVelocity ⟨p, peerVelocity, radius⟩ timeHorizon).1) v →
        ∀ t, 0 ≤ t → t ≤ timeHorizon → radius ≤ √(normSq (p - t • v)) := by
  rw [← halves_iff]
  have hmirror : normSq (-p) > radius * radius := by rwa [normSq_neg]
  simp only [ReciprocallySafe, orcaHalfplane, if_pos hapart, if_pos hmirror, avoidApart_mirror,
    Prod.fst_neg, Prod.snd_neg, turn_neg]
  have hline (own peer : Point2 ℝ) (t : ℝ) : p + t • (peer - own) = p - t • (own - peer) := by
    rw [← neg_sub own peer, smul_neg, ← sub_eq_add_neg]
  simp only [hline]

/-! ### The legs -/

/-- A vector turned by the angle at which the disc of the radius is seen, to the
side of the sign, has a normal that just reaches the disc. -/
theorem tangent_unit {radius leg : ℝ} (hpos : 0 < normSq p)
    (hleg : leg * leg = normSq p - radius * radius) {direction : Point2 ℝ}
    (hdirection : direction = (1 / normSq p) • (leg • p + radius • turn p) ∨
      direction = -((1 / normSq p) • (leg • p - radius • turn p))) :
    normSq direction = 1 ∧ dot (turn direction) p = -radius := by
  have hne : normSq p ≠ 0 := hpos.ne'
  have hlen : normSq (leg • p + radius • turn p) = normSq p * normSq p ∧
      normSq (leg • p - radius • turn p) = normSq p * normSq p := by
    simp only [normSq, dot, turn, Prod.fst_add, Prod.snd_add, Prod.fst_sub, Prod.snd_sub,
      Prod.smul_fst, Prod.smul_snd, smul_eq_mul] at hleg ⊢
    constructor <;> linear_combination (p.1 * p.1 + p.2 * p.2) * hleg
  have hside : dot (turn (leg • p + radius • turn p)) p = -radius * normSq p ∧
      dot (turn (leg • p - radius • turn p)) p = radius * normSq p := by
    simp only [normSq, dot, turn, Prod.fst_add, Prod.snd_add, Prod.fst_sub, Prod.snd_sub,
      Prod.smul_fst, Prod.smul_snd, smul_eq_mul]
    constructor <;> ring
  rcases hdirection with rfl | rfl
  · rw [normSq_smul, hlen.1, turn_smul, smul_dot, hside.1]
    constructor <;> field_simp
  · rw [normSq_neg, normSq_smul, hlen.2, turn_neg, turn_smul, neg_dot, smul_dot, hside.2]
    constructor <;> field_simp

/-- The normal of a leg: the line of the leg touches the disc of the radius. -/
theorem leg_tangent (timeHorizon : ℝ) (hapart : radius * radius < normSq p)
    (hleg : ¬ InCutoff ownVelocity ⟨p, peerVelocity, radius⟩ (effectiveHorizon timeHorizon)) :
    let avoided := avoidApart ownVelocity ⟨p, peerVelocity, radius⟩ timeHorizon
    normSq (turn avoided.1) = 1 ∧ dot (turn avoided.1) p = -radius ∧
      dot (turn avoided.1) (ownVelocity - peerVelocity + avoided.2) = 0 := by
  intro avoided
  have hpos : 0 < normSq p := (mul_self_nonneg radius).trans_lt hapart
  have hsqrt : √(max 0 (normSq p - radius * radius)) * √(max 0 (normSq p - radius * radius)) =
      normSq p - radius * radius := by
    rw [max_eq_right (sub_nonneg.mpr hapart.le)]
    exact Real.mul_self_sqrt (sub_nonneg.mpr hapart.le)
  have hchange : avoided.2 = dot (ownVelocity - peerVelocity) avoided.1 • avoided.1 -
      (ownVelocity - peerVelocity) := by
    simp only [avoided, avoidApart]
    rw [if_neg hleg]
  have hdirection : avoided.1 = (1 / normSq p) •
        (√(max 0 (normSq p - radius * radius)) • p + radius • turn p) ∨
      avoided.1 = -((1 / normSq p) •
        (√(max 0 (normSq p - radius * radius)) • p - radius • turn p)) := by
    simp only [avoided, avoidApart]
    rw [if_neg hleg]
    dsimp only
    split
    · left
      ext
      · simp only [sqrt_real, turn, Prod.smul_fst, Prod.fst_add, smul_eq_mul]
        ring
      · simp only [sqrt_real, turn, Prod.smul_snd, Prod.snd_add, smul_eq_mul]
        ring
    · right
      ext
      · simp only [sqrt_real, turn, Prod.fst_neg, Prod.smul_fst, Prod.fst_sub, smul_eq_mul]
        ring
      · simp only [sqrt_real, turn, Prod.snd_neg, Prod.smul_snd, Prod.snd_sub, smul_eq_mul]
        ring
  obtain ⟨hunit, htouch⟩ := tangent_unit hpos hsqrt hdirection
  refine ⟨(normSq_turn _).trans hunit, htouch, ?_⟩
  rw [hchange, add_sub_cancel, dot_smul, dot_comm (turn avoided.1), dot_turn_self, mul_zero]

/-- A leg is not crossed at any time. -/
theorem leg_safe (hapart : radius * radius < normSq p) (hradius : 0 ≤ radius)
    (hleg : ¬ InCutoff ownVelocity ⟨p, peerVelocity, radius⟩ (effectiveHorizon timeHorizon)) :
    ReciprocallySafe p ownVelocity peerVelocity radius timeHorizon timeStep := by
  rw [reciprocallySafe_iff hapart]
  obtain ⟨hunit, htouch, hline⟩ := leg_tangent timeHorizon hapart hleg
  intro v hv t ht _
  rw [hline] at hv
  apply Real.le_sqrt_of_sq_le
  rw [normSq_sub_comm]
  apply sq_le_normSq hunit hradius
  rw [dot_sub, dot_smul, htouch, sub_neg_eq_add]
  exact le_add_of_nonneg_left (mul_nonneg ht hv)

/-! ### The cutoff -/

/-- A half-plane of velocities that point away from the disc clears it until a
time if it does so at that time. -/
theorem clears_iff {n : Point2 ℝ} (hn : normSq n = 1) {bound time : ℝ} (hradius : 0 < radius)
    (htime : 0 < time) (hfront : dot n p + radius < 0) :
    (∀ v, bound ≤ dot n v → ∀ t, 0 ≤ t → t ≤ time → radius ≤ √(normSq (p - t • v))) ↔
      dot n p + radius ≤ time * bound := by
  constructor
  · intro h
    by_contra hnot
    rw [not_le] at hnot
    -- the position at that time that is permitted and closest to the normal
    have hlow : 0 ≤ max 0 (time * bound - dot n p) := le_max_left _ _
    have hreach : time * bound ≤ dot n p + max 0 (time * bound - dot n p) := by
      linarith [le_max_right 0 (time * bound - dot n p)]
    have hshort : max 0 (time * bound - dot n p) < radius := max_lt hradius (by linarith)
    generalize max 0 (time * bound - dot n p) = s at hlow hreach hshort
    have hsafe := h ((1 / time) • (p + s • n)) ?_ time htime.le le_rfl
    · rw [smul_smul, mul_one_div_cancel htime.ne', one_smul, sub_add_cancel_left, normSq_neg,
        normSq_smul, hn, mul_one, Real.sqrt_sq hlow] at hsafe
      exact absurd hshort (not_lt.mpr hsafe)
    · have hself : dot n n = 1 := hn
      rw [dot_smul, dot_add, dot_smul, hself, mul_one, one_div, ← div_eq_inv_mul,
        le_div_iff₀ htime, mul_comm]
      exact hreach
  · intro hle v hv t ht htime'
    have hat : dot n p + radius ≤ t * dot n v := by
      rcases le_total 0 (dot n v) with hside | hside
      · exact hfront.le.trans (mul_nonneg ht hside)
      · calc dot n p + radius ≤ time * bound := hle
          _ ≤ time * dot n v := mul_le_mul_of_nonneg_left hv htime.le
          _ ≤ t * dot n v := mul_le_mul_of_nonpos_right htime' hside
    apply Real.le_sqrt_of_sq_le
    rw [normSq_sub_comm]
    apply sq_le_normSq hn hradius.le
    rw [dot_sub, dot_smul]
    linarith

/-- The boundary of the cutoff: the normal is the offset, divided by its floored
length, and the line is moved out by the radius along it. -/
theorem cutoff_boundary
    (hcutoff : InCutoff ownVelocity ⟨p, peerVelocity, radius⟩ (effectiveHorizon timeHorizon)) :
    let avoided := avoidApart ownVelocity ⟨p, peerVelocity, radius⟩ timeHorizon
    let w := cutoffOffset ownVelocity ⟨p, peerVelocity, radius⟩ (effectiveHorizon timeHorizon)
    let wLen := √(max (normSq w) (1 / 10 ^ 12))
    turn avoided.1 = (1 / wLen) • w ∧
      ownVelocity - peerVelocity + avoided.2 =
        (1 / effectiveHorizon timeHorizon) • (p + (radius / wLen) • w) := by
  intro avoided w wLen
  have hpos : 0 < wLen := Real.sqrt_pos.mpr (lt_max_of_lt_right (by norm_num))
  have havoided : avoided = ((((1 / wLen) • w).2, -((1 / wLen) • w).1),
      (radius * (1 / effectiveHorizon timeHorizon) - wLen) • (1 / wLen) • w) := by
    simp only [avoided, avoidApart]
    rw [if_pos hcutoff]
    rfl
  have hvelocity : ownVelocity - peerVelocity = w + (1 / effectiveHorizon timeHorizon) • p := by
    simp only [w, cutoffOffset, sub_add_cancel]
  rw [havoided]
  constructor
  · simp only [turn, neg_neg]
  · rw [hvelocity, smul_smul]
    have hscale : (radius * (1 / effectiveHorizon timeHorizon) - wLen) * (1 / wLen) =
        1 / effectiveHorizon timeHorizon * (radius / wLen) - 1 := by
      field_simp
    rw [hscale, smul_add, smul_smul, sub_smul, one_smul, add_comm w, add_assoc, add_sub_cancel]

/-- In front of the cutoff the offset does not vanish. -/
theorem normSq_pos_of_front {w : Point2 ℝ} (hfront : dot w p < 0) : 0 < normSq w := by
  apply lt_of_le_of_ne (normSq_nonneg w)
  intro hzero
  have hdot : dot w p ^ 2 ≤ 0 := by
    calc dot w p ^ 2 ≤ normSq w * normSq p := dot_sq_le w p
      _ = 0 := by rw [← hzero, zero_mul]
  exact hfront.ne (pow_eq_zero_iff (by omega) |>.mp (le_antisymm hdot (sq_nonneg _)))

/-- In front of the cutoff the disc lies off the line of sight. -/
theorem radial_neg {w : Point2 ℝ} (hfront : dot w p < 0)
    (hcone : radius * radius * normSq w < dot w p * dot w p) :
    dot w p + radius * √(normSq w) < 0 := by
  have hlt : radius * √(normSq w) < -dot w p := by
    apply lt_of_mul_self_lt_mul_self₀ (neg_nonneg.mpr hfront.le)
    rw [neg_mul_neg, mul_mul_mul_comm, Real.mul_self_sqrt (normSq_nonneg w)]
    exact hcone
  linarith

/-- The normal may have any length: the line of the cutoff, moved out by the
radius along a normal that was divided by a floored length. -/
theorem scaled_clears_iff {w : Point2 ℝ} {wLen horizon time : ℝ} (hradius : 0 < radius)
    (htime : 0 < time) (hhorizon : 0 < horizon) (hlen : 0 < wLen) (hfront : dot w p < 0)
    (hcone : radius * radius * normSq w < dot w p * dot w p) :
    (∀ v, dot ((1 / wLen) • w) ((1 / horizon) • (p + (radius / wLen) • w)) ≤
        dot ((1 / wLen) • w) v →
      ∀ t, 0 ≤ t → t ≤ time → radius ≤ √(normSq (p - t • v))) ↔
      horizon * (dot w p + radius * √(normSq w)) ≤
        time * (dot w p + radius / wLen * normSq w) := by
  have hsq : √(normSq w) * √(normSq w) = normSq w := Real.mul_self_sqrt (normSq_nonneg w)
  have hpos : 0 < √(normSq w) := Real.sqrt_pos.mpr (normSq_pos_of_front hfront)
  have hunit : normSq ((1 / √(normSq w)) • w) = 1 := by
    rw [normSq_smul, div_pow, Real.sq_sqrt (normSq_nonneg w), one_pow,
      one_div_mul_cancel (by rw [← hsq]; positivity)]
  have hnormal : dot ((1 / √(normSq w)) • w) p + radius =
      (dot w p + radius * √(normSq w)) / √(normSq w) := by
    rw [smul_dot]
    field_simp
  have hpermitted (v : Point2 ℝ) :
      dot ((1 / wLen) • w) ((1 / horizon) • (p + (radius / wLen) • w)) ≤
        dot ((1 / wLen) • w) v ↔
      (dot w p + radius / wLen * normSq w) / (horizon * √(normSq w)) ≤
        dot ((1 / √(normSq w)) • w) v := by
    rw [smul_dot, smul_dot, smul_dot, mul_le_mul_iff_right₀ (one_div_pos.mpr hlen), dot_smul,
      dot_add, dot_smul, div_le_iff₀ (mul_pos hhorizon hpos)]
    have hright : 1 / √(normSq w) * dot w v * (horizon * √(normSq w)) = dot w v * horizon := by
      field_simp
    rw [hright, one_div, ← div_eq_inv_mul, div_le_iff₀ hhorizon]
    rfl
  simp only [hpermitted]
  rw [clears_iff hunit hradius htime, hnormal, div_le_iff₀ hpos]
  · have hright : time * ((dot w p + radius / wLen * normSq w) / (horizon * √(normSq w))) *
        √(normSq w) = time * (dot w p + radius / wLen * normSq w) / horizon := by
      field_simp
    rw [hright, le_div_iff₀ hhorizon, mul_comm]
  · rw [hnormal]
    exact div_neg_of_neg_of_pos (radial_neg hfront hcone) hpos

end Pair

/-! ### The whole half-plane -/

/-- The relative velocity lies in the cutoff so close to its center that the
floored length divides the normal, and the permitted velocities reach the disc
before the horizon. -/
def Floored (p ownVelocity peerVelocity : Point2 ℝ) (radius timeHorizon : ℝ) : Prop :=
  let horizon := effectiveHorizon timeHorizon
  let w := cutoffOffset ownVelocity ⟨p, peerVelocity, radius⟩ horizon
  InCutoff ownVelocity ⟨p, peerVelocity, radius⟩ horizon ∧ normSq w < 1 / 10 ^ 12 ∧
    0 < radius ∧ 0 < timeHorizon ∧
    timeHorizon * (dot w p + radius * 10 ^ 6 * normSq w) <
      horizon * (dot w p + radius * √(normSq w))

/-- From the least horizon on, every shortened normal lets the disc be reached. -/
theorem floored_iff {p ownVelocity peerVelocity : Point2 ℝ} {radius timeHorizon : ℝ}
    (hhorizon : 1 / 10 ^ 3 ≤ timeHorizon) :
    Floored p ownVelocity peerVelocity radius timeHorizon ↔
      InCutoff ownVelocity ⟨p, peerVelocity, radius⟩ timeHorizon ∧
        normSq (cutoffOffset ownVelocity ⟨p, peerVelocity, radius⟩ timeHorizon) < 1 / 10 ^ 12 ∧
        0 < radius := by
  have hsame : effectiveHorizon timeHorizon = timeHorizon := max_eq_right hhorizon
  have htime : 0 < timeHorizon := lt_of_lt_of_le (by norm_num) hhorizon
  simp only [Floored, hsame]
  constructor
  · rintro ⟨hcutoff, hshort, hradius, -, -⟩
    exact ⟨hcutoff, hshort, hradius⟩
  · rintro ⟨hcutoff, hshort, hradius⟩
    refine ⟨hcutoff, hshort, hradius, htime, ?_⟩
    have hpos := normSq_pos_of_front hcutoff.1
    generalize cutoffOffset ownVelocity ⟨p, peerVelocity, radius⟩ timeHorizon = w at hshort hpos ⊢
    have hsq : √(normSq w) * √(normSq w) = normSq w := Real.mul_self_sqrt hpos.le
    have hroot : 0 < √(normSq w) := Real.sqrt_pos.mpr hpos
    have hlen : √(normSq w) < 1 / 10 ^ 6 := by
      rw [Real.sqrt_lt' (by norm_num)]
      norm_num at hshort ⊢
      exact hshort
    apply mul_lt_mul_of_pos_left _ htime
    apply add_lt_add_right
    calc radius * 10 ^ 6 * normSq w = radius * 10 ^ 6 * (√(normSq w) * √(normSq w)) := by
          rw [hsq]
      _ = radius * √(normSq w) * (10 ^ 6 * √(normSq w)) := by ring
      _ < radius * √(normSq w) * 1 := by
          apply mul_lt_mul_of_pos_left _ (mul_pos hradius hroot)
          linarith
      _ = radius * √(normSq w) := mul_one _

/-- A normal of its true length reaches out far enough. -/
theorem shortened_iff {p ownVelocity peerVelocity : Point2 ℝ} {radius timeHorizon : ℝ}
    (hradius : 0 < radius) (hhorizon : 0 < timeHorizon)
    (hcutoff : InCutoff ownVelocity ⟨p, peerVelocity, radius⟩ (effectiveHorizon timeHorizon)) :
    let w := cutoffOffset ownVelocity ⟨p, peerVelocity, radius⟩ (effectiveHorizon timeHorizon)
    effectiveHorizon timeHorizon * (dot w p + radius * √(normSq w)) ≤
        timeHorizon * (dot w p + radius / √(max (normSq w) (1 / 10 ^ 12)) * normSq w) ↔
      ¬ Floored p ownVelocity peerVelocity radius timeHorizon := by
  intro w
  rcases lt_or_ge (normSq w) (1 / 10 ^ 12) with hshort | hlong
  · have hfloor : √(max (normSq w) (1 / 10 ^ 12)) = 1 / 10 ^ 6 := by
      rw [max_eq_right hshort.le, Real.sqrt_eq_iff_mul_self_eq (by norm_num) (by norm_num)]
      norm_num
    have hscale : radius / (1 / 10 ^ 6) = radius * 10 ^ 6 := by
      rw [div_div_eq_mul_div, div_one]
    rw [hfloor, hscale, ← not_lt]
    apply not_congr
    constructor
    · intro hlt
      exact ⟨hcutoff, hshort, hradius, hhorizon, hlt⟩
    · rintro ⟨-, -, -, -, hlt⟩
      exact hlt
  · apply iff_of_true
    · have hreach : radius / √(normSq w) * normSq w = radius * √(normSq w) := by
        rw [div_mul_eq_mul_div, mul_div_assoc, Real.div_sqrt]
      rw [max_eq_left hlong, hreach]
      exact mul_le_mul_of_nonpos_right (le_max_right _ _) (radial_neg hcutoff.1 hcutoff.2).le
    · rintro ⟨-, hshort, -⟩
      exact absurd hshort (not_lt.mpr hlong)

/-- On the cutoff the agents are safe unless its normal was shortened. -/
theorem cutoff_safe_iff {p ownVelocity peerVelocity : Point2 ℝ} {radius timeHorizon timeStep : ℝ}
    (hapart : radius * radius < normSq p) (hradius : 0 < radius) (hhorizon : 0 < timeHorizon)
    (hcutoff : InCutoff ownVelocity ⟨p, peerVelocity, radius⟩ (effectiveHorizon timeHorizon)) :
    ReciprocallySafe p ownVelocity peerVelocity radius timeHorizon timeStep ↔
      ¬ Floored p ownVelocity peerVelocity radius timeHorizon := by
  obtain ⟨hturn, hpoint⟩ := cutoff_boundary hcutoff
  rw [reciprocallySafe_iff hapart, hturn, hpoint]
  apply Iff.trans _ (shortened_iff hradius hhorizon hcutoff)
  exact scaled_clears_iff hradius hhorizon (lt_max_of_lt_right hhorizon)
    (Real.sqrt_pos.mpr (lt_max_of_lt_right (by norm_num))) hcutoff.1 hcutoff.2

/-- Two agents that are apart and see each other exactly stay apart until the
horizon, whatever they pick of the permitted velocities, exactly when the floor
of the length has not shortened a normal. -/
theorem reciprocallySafe_iff_not_floored (p ownVelocity peerVelocity : Point2 ℝ)
    (radius timeHorizon timeStep : ℝ) (hapart : radius < √(normSq p)) :
    ReciprocallySafe p ownVelocity peerVelocity radius timeHorizon timeStep ↔
      ¬ Floored p ownVelocity peerVelocity radius timeHorizon := by
  rcases le_or_gt radius 0 with hradius | hradius
  · apply iff_of_true
    · intro own peer _ _ t _ _
      exact hradius.trans (Real.sqrt_nonneg _)
    · rintro ⟨-, -, hpos, -⟩
      exact absurd hpos (not_lt.mpr hradius)
  rcases le_or_gt timeHorizon 0 with hhorizon | hhorizon
  · apply iff_of_true
    · intro own peer _ _ t ht htime
      rw [le_antisymm (htime.trans hhorizon) ht, zero_smul, add_zero]
      exact hapart.le
    · rintro ⟨-, -, -, hpos, -⟩
      exact absurd hpos (not_lt.mpr hhorizon)
  have hfar : radius * radius < normSq p := by
    rw [Real.lt_sqrt hradius.le, pow_two] at hapart
    exact hapart
  by_cases hcutoff : InCutoff ownVelocity ⟨p, peerVelocity, radius⟩ (effectiveHorizon timeHorizon)
  · exact cutoff_safe_iff hfar hradius hhorizon hcutoff
  · apply iff_of_true (leg_safe hfar hradius.le hcutoff)
    rintro ⟨hin, -⟩
    exact hcutoff hin

theorem reciprocallySafe_iff_not_floored_crossing :
    ReciprocallySafe (0, 2) (1, 0) (0, 0) 1 1 (1 / 10) ↔
      ¬ Floored (0, 2) (1, 0) (0, 0) 1 1 :=
  reciprocallySafe_iff_not_floored (0, 2) (1, 0) (0, 0) 1 1 (1 / 10) (by
    rw [Real.lt_sqrt zero_le_one]
    norm_num [normSq, dot])

/-- Two agents at distance two, one of which comes almost straight to the center
of the cutoff disc in the second until the horizon. -/
theorem shortened_normal_unsafe :
    (1 : ℝ) < √(normSq ((2, 0) : Point2 ℝ)) ∧
      ¬ ReciprocallySafe (2, 0) (2 - 1 / 10 ^ 7, 0) (0, 0) 1 1 (1 / 10) := by
  have hhorizon : effectiveHorizon (1 : ℝ) = 1 := max_eq_right (by norm_num)
  have hoffset : cutoffOffset ((2 - 1 / 10 ^ 7, 0) : Point2 ℝ) ⟨(2, 0), (0, 0), 1⟩ 1 =
      (-1 / 10 ^ 7, 0) := by
    ext <;> norm_num [cutoffOffset]
  have hcutoff : InCutoff ((2 - 1 / 10 ^ 7, 0) : Point2 ℝ) ⟨(2, 0), (0, 0), 1⟩ 1 := by
    rw [InCutoff, hoffset]
    norm_num [normSq, dot]
  constructor
  · rw [Real.lt_sqrt zero_le_one]
    norm_num [normSq, dot]
  · rw [cutoff_safe_iff (by norm_num [normSq, dot]) one_pos one_pos (by rwa [hhorizon]), not_not,
      floored_iff (by norm_num), hoffset]
    refine ⟨hcutoff, ?_, one_pos⟩
    norm_num [normSq, dot]

end Mission10.Flight
