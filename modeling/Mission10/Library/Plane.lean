import Mathlib.Algebra.Module.Prod
import Mathlib.Analysis.Convex.Basic
import Mathlib.Tactic.FieldSimp
import Mathlib.Tactic.Linarith
import Mathlib.Tactic.LinearCombination
import Mission10.Library.Numerals

/-!
# Vectors of the plane and closest points

The scalar product of pairs over an ordered field, and the points of a set that
are closest to a given one. Distances are compared by their squares, so that no
square root is needed. A closest point is found by a variational inequality; a
half-plane that it violates is met first on its boundary.
-/
namespace Plane

variable {K : Type*} [Field K]

def dot (a b : K × K) : K := a.1 * b.1 + a.2 * b.2

def det (a b : K × K) : K := a.1 * b.2 - a.2 * b.1

def normSq (a : K × K) : K := dot a a

/-- A quarter turn to the left. -/
def turn (a : K × K) : K × K := (-a.2, a.1)

theorem dot_comm (a b : K × K) : dot a b = dot b a := by
  unfold dot
  ring

@[simp] theorem dot_add (a b c : K × K) : dot a (b + c) = dot a b + dot a c := by
  simp only [dot, Prod.fst_add, Prod.snd_add]
  ring

@[simp] theorem dot_sub (a b c : K × K) : dot a (b - c) = dot a b - dot a c := by
  simp only [dot, Prod.fst_sub, Prod.snd_sub]
  ring

@[simp] theorem dot_smul (a : K × K) (t : K) (b : K × K) : dot a (t • b) = t * dot a b := by
  simp only [dot, Prod.smul_fst, Prod.smul_snd, smul_eq_mul]
  ring

@[simp] theorem dot_neg (a b : K × K) : dot a (-b) = -dot a b := by
  simp only [dot, Prod.fst_neg, Prod.snd_neg]
  ring

@[simp] theorem dot_zero (a : K × K) : dot a 0 = 0 := by
  simp [dot]

@[simp] theorem sub_dot (a b c : K × K) : dot (a - b) c = dot a c - dot b c := by
  rw [dot_comm, dot_sub, dot_comm c a, dot_comm c b]

@[simp] theorem smul_dot (t : K) (a b : K × K) : dot (t • a) b = t * dot a b := by
  rw [dot_comm, dot_smul, dot_comm]

@[simp] theorem neg_dot (a b : K × K) : dot (-a) b = -dot a b := by
  rw [dot_comm, dot_neg, dot_comm]

theorem normSq_smul (t : K) (a : K × K) : normSq (t • a) = t ^ 2 * normSq a := by
  simp only [normSq, dot_smul, smul_dot]
  ring

@[simp] theorem normSq_neg (a : K × K) : normSq (-a) = normSq a := by
  simp only [normSq, dot_neg, neg_dot, neg_neg]

theorem normSq_sub_comm (a b : K × K) : normSq (a - b) = normSq (b - a) := by
  rw [← normSq_neg, neg_sub]

@[simp] theorem det_neg_neg (a b : K × K) : det (-a) (-b) = det a b := by
  simp [det]

@[simp] theorem turn_smul (t : K) (a : K × K) : turn (t • a) = t • turn a := by
  simp [turn]

@[simp] theorem turn_neg (a : K × K) : turn (-a) = -turn a := by
  simp [turn]

@[simp] theorem normSq_turn (a : K × K) : normSq (turn a) = normSq a := by
  simp only [normSq, dot, turn]
  ring

@[simp] theorem dot_turn_self (a : K × K) : dot a (turn a) = 0 := by
  simp only [dot, turn]
  ring

/-- A vector in the frame of a unit vector. -/
theorem frame {n : K × K} (hn : normSq n = 1) (v : K × K) :
    v = dot n v • n + dot (turn n) v • turn n := by
  simp only [normSq, dot] at hn
  apply Prod.ext
  · simp only [dot, turn, Prod.fst_add, Prod.smul_fst, smul_eq_mul]
    linear_combination -v.1 * hn
  · simp only [dot, turn, Prod.snd_add, Prod.smul_snd, smul_eq_mul]
    linear_combination -v.2 * hn

theorem normSq_frame {n : K × K} (hn : normSq n = 1) (v : K × K) :
    normSq v = dot n v ^ 2 + dot (turn n) v ^ 2 := by
  simp only [normSq, dot] at hn
  simp only [normSq, dot, turn]
  linear_combination -(v.1 ^ 2 + v.2 ^ 2) * hn

variable [LinearOrder K] [IsStrictOrderedRing K]

theorem normSq_nonneg (a : K × K) : 0 ≤ normSq a :=
  add_nonneg (mul_self_nonneg a.1) (mul_self_nonneg a.2)

/-- The inequality of Cauchy and Schwarz. -/
theorem dot_sq_le (a b : K × K) : dot a b ^ 2 ≤ normSq a * normSq b := by
  have hdet : 0 ≤ det a b ^ 2 := sq_nonneg _
  have hsum : normSq a * normSq b = dot a b ^ 2 + det a b ^ 2 := by
    simp only [normSq, dot, det]
    ring
  rw [hsum]
  exact le_add_of_nonneg_right hdet

/-- A vector is at least as long as its part along a unit vector. -/
theorem sq_le_normSq {n : K × K} (hn : normSq n = 1) {v : K × K} {r : K} (hr : 0 ≤ r)
    (h : r ≤ dot n v) : r ^ 2 ≤ normSq v := by
  calc r ^ 2 ≤ dot n v ^ 2 := pow_le_pow_left₀ hr h 2
    _ ≤ normSq n * normSq v := dot_sq_le n v
    _ = normSq v := by rw [hn, one_mul]

/-- The half-plane on which a linear function is at least a bound is convex. -/
theorem convex_halfPlane (n : K × K) (b : K) : Convex K {v | b ≤ dot n v} := by
  intro v hv w hw s t hs ht hst
  simp only [Set.mem_ofPred_eq, dot_add, dot_smul] at hv hw ⊢
  calc b = s * b + t * b := by rw [← add_mul, hst, one_mul]
    _ ≤ s * dot n v + t * dot n w :=
      add_le_add (mul_le_mul_of_nonneg_left hv hs) (mul_le_mul_of_nonneg_left hw ht)

/-- The square of the distance from a point is a convex function. -/
theorem normSq_segment (p v w : K × K) {s t : K} (hs : 0 ≤ s) (ht : 0 ≤ t) (hst : s + t = 1) :
    normSq (s • v + t • w - p) ≤ s * normSq (v - p) + t * normSq (w - p) := by
  obtain rfl : s = 1 - t := eq_sub_of_add_eq hst
  have hsplit : (1 - t) * normSq (v - p) + t * normSq (w - p) =
      normSq ((1 - t) • v + t • w - p) + (1 - t) * t * normSq (v - w) := by
    simp only [normSq, dot, Prod.fst_sub, Prod.snd_sub, Prod.fst_add, Prod.snd_add,
      Prod.smul_fst, Prod.smul_snd, smul_eq_mul]
    ring
  rw [hsplit]
  exact le_add_of_nonneg_right (mul_nonneg (mul_nonneg hs ht) (normSq_nonneg _))

/-- The disc around zero. -/
theorem convex_disc (m : K) : Convex K {v : K × K | normSq v ≤ m ^ 2} := by
  intro v hv w hw s t hs ht hst
  have hle := normSq_segment 0 v w hs ht hst
  simp only [sub_zero] at hle
  simp only [Set.mem_ofPred_eq] at hv hw ⊢
  calc normSq (s • v + t • w) ≤ s * normSq v + t * normSq w := hle
    _ ≤ s * m ^ 2 + t * m ^ 2 :=
      add_le_add (mul_le_mul_of_nonneg_left hv hs) (mul_le_mul_of_nonneg_left hw ht)
    _ = m ^ 2 := by rw [← add_mul, hst, one_mul]

/-! ### Closest points -/

/-- A point of a set such that no other is closer to the given one. -/
structure Closest (p : K × K) (S : Set (K × K)) (x : K × K) : Prop where
  mem : x ∈ S
  le : ∀ y ∈ S, normSq (x - p) ≤ normSq (y - p)

variable {p x y : K × K} {S : Set (K × K)}

/-- The variational inequality. -/
theorem closest_of_dot (hx : x ∈ S) (h : ∀ y ∈ S, dot (p - x) (y - x) ≤ 0) : Closest p S x := by
  refine ⟨hx, fun y hy => ?_⟩
  have hsplit : normSq (y - p) = normSq (x - p) + normSq (y - x) - 2 * dot (p - x) (y - x) := by
    simp only [normSq, dot, Prod.fst_sub, Prod.snd_sub]
    ring
  have hdot := h y hy
  have hpos := normSq_nonneg (y - x)
  linarith

/-- The point of a disc that is closest to a point outside. -/
theorem closest_disc {m s : K} (hm : 0 ≤ m) (hms : m < s) (hs : normSq p = s ^ 2) :
    Closest p {v | normSq v ≤ m ^ 2} ((m / s) • p) := by
  have hpos : 0 < s := hm.trans_lt hms
  have hne : s ≠ 0 := hpos.ne'
  have hratio : m / s ≤ 1 := (div_le_one hpos).mpr hms.le
  refine closest_of_dot ?_ fun y hy => ?_
  · rw [Set.mem_ofPred_eq, normSq_smul, hs, ← mul_pow, div_mul_cancel₀ _ hne]
  · have hdot : dot p y ≤ s * m := by
      apply le_of_sq_le_sq _ (mul_nonneg hpos.le hm)
      calc dot p y ^ 2 ≤ normSq p * normSq y := dot_sq_le p y
        _ ≤ normSq p * m ^ 2 := mul_le_mul_of_nonneg_left hy (normSq_nonneg p)
        _ = (s * m) ^ 2 := by rw [hs, mul_pow]
    have hself : m / s * normSq p = s * m := by
      rw [hs]
      field_simp
    have hsplit : dot (p - (m / s) • p) (y - (m / s) • p) =
        (1 - m / s) * (dot p y - m / s * normSq p) := by
      simp only [sub_dot, smul_dot, dot_sub, dot_smul, normSq]
      ring
    rw [hsplit, hself]
    exact mul_nonpos_of_nonneg_of_nonpos (sub_nonneg.mpr hratio) (sub_nonpos.mpr hdot)

/-- In a convex set every other point is farther away. -/
theorem Closest.lt (h : Closest p S x) (hS : Convex K S) (hy : y ∈ S) (hne : y ≠ x) :
    normSq (x - p) < normSq (y - p) := by
  by_contra hnot
  have hhalf : (0 : K) ≤ 1 / 2 := by positivity
  have hmid := h.le _ (hS h.mem hy hhalf hhalf (by norm_num))
  have hsplit : normSq ((1 / 2 : K) • x + (1 / 2 : K) • y - p) =
      1 / 2 * normSq (x - p) + 1 / 2 * normSq (y - p) - 1 / 4 * normSq (y - x) := by
    simp only [normSq, dot, Prod.fst_sub, Prod.snd_sub, Prod.fst_add, Prod.snd_add,
      Prod.smul_fst, Prod.smul_snd, smul_eq_mul]
    ring
  have hapart : 0 < normSq (y - x) := by
    apply lt_of_le_of_ne (normSq_nonneg _)
    intro hzero
    apply hne
    have hfst : (y.1 - x.1) * (y.1 - x.1) = 0 :=
      (add_eq_zero_iff_of_nonneg (mul_self_nonneg _) (mul_self_nonneg _)).mp hzero.symm |>.1
    have hsnd : (y.2 - x.2) * (y.2 - x.2) = 0 :=
      (add_eq_zero_iff_of_nonneg (mul_self_nonneg _) (mul_self_nonneg _)).mp hzero.symm |>.2
    exact Prod.ext (sub_eq_zero.mp (mul_self_eq_zero.mp hfst))
      (sub_eq_zero.mp (mul_self_eq_zero.mp hsnd))
  linarith

/-- Between a point that violates a half-plane and one of it lies a point of the
boundary. -/
theorem exists_boundary {n : K × K} {b : K} (hx : dot n x < b) (hy : b ≤ dot n y) :
    ∃ s t : K, 0 ≤ s ∧ 0 ≤ t ∧ s + t = 1 ∧ dot n (s • x + t • y) = b := by
  have hgap : 0 < dot n y - dot n x := sub_pos.mpr (hx.trans_le hy)
  have hne : dot n y - dot n x ≠ 0 := hgap.ne'
  refine ⟨(dot n y - b) / (dot n y - dot n x), (b - dot n x) / (dot n y - dot n x),
    div_nonneg (sub_nonneg.mpr hy) hgap.le, div_nonneg (sub_nonneg.mpr hx.le) hgap.le, ?_, ?_⟩
  · field_simp
    ring
  · rw [dot_add, dot_smul, dot_smul]
    field_simp
    ring

/-- When the closest point of a convex set violates a half-plane, the points of
the set in the half-plane are met on its boundary. -/
theorem Closest.meets_boundary (h : Closest p S x) (hS : Convex K S) {n : K × K} {b : K}
    (hviolated : dot n x < b) (hy : y ∈ S) (hyn : b ≤ dot n y) :
    ∃ w ∈ S, dot n w = b ∧ normSq (w - p) ≤ normSq (y - p) := by
  obtain ⟨s, t, hs, ht, hst, hb⟩ := exists_boundary hviolated hyn
  refine ⟨s • x + t • y, hS h.mem hy hs ht hst, hb, ?_⟩
  calc normSq (s • x + t • y - p) ≤ s * normSq (x - p) + t * normSq (y - p) :=
        normSq_segment p x y hs ht hst
    _ ≤ s * normSq (y - p) + t * normSq (y - p) :=
        add_le_add_left (mul_le_mul_of_nonneg_left (h.le y hy) hs) _
    _ = normSq (y - p) := by rw [← add_mul, hst, one_mul]

/-- The closest point on the boundary is then the closest one of the half-plane. -/
theorem Closest.of_boundary (h : Closest p S x) (hS : Convex K S) {n : K × K} {b : K}
    (hviolated : dot n x < b) (hy : Closest p {v | v ∈ S ∧ dot n v = b} y) :
    Closest p {v | v ∈ S ∧ b ≤ dot n v} y := by
  refine ⟨⟨hy.mem.1, hy.mem.2.ge⟩, fun z hz => ?_⟩
  obtain ⟨w, hw, hwb, hle⟩ := h.meets_boundary hS hviolated hz.1 hz.2
  exact (hy.le w ⟨hw, hwb⟩).trans hle

end Plane

/-!
## The planar Procrustes problem

Pairs of points, and the rotation and translation that take the first ones nearest to
the second ones. About the two centroids the sum of the squared distances falls apart
into a part of the rotation and a part of the translation. The best rotation has the
direction of the sums of the scalar and the cross products, and the best translation
takes one centroid onto the other.
-/
namespace Procrustes

open Plane

variable {K : Type*} [Field K]

/-- A vector turned by the angle of the given cosine and sine. -/
def rotate (c s : K) (v : K × K) : K × K := (c * v.1 - s * v.2, s * v.1 + c * v.2)

/-- The sum of the squared distances after a motion of the first points. -/
def misfit (c s : K) (t : K × K) (pairs : List ((K × K) × K × K)) : K :=
  (pairs.map fun pair => normSq (rotate c s pair.1 + t - pair.2)).sum

/-- The points are the centroids of the pairs. -/
structure Centred (p q : K × K) (pairs : List ((K × K) × K × K)) : Prop where
  first : (pairs.map fun pair => pair.1 - p).sum = 0
  second : (pairs.map fun pair => pair.2 - q).sum = 0

/-- The sum of the squared distances from the points. -/
def spread (p q : K × K) (pairs : List ((K × K) × K × K)) : K :=
  (pairs.map fun pair => normSq (pair.1 - p) + normSq (pair.2 - q)).sum

def dots (p q : K × K) (pairs : List ((K × K) × K × K)) : K :=
  (pairs.map fun pair => dot (pair.1 - p) (pair.2 - q)).sum

def crosses (p q : K × K) (pairs : List ((K × K) × K × K)) : K :=
  (pairs.map fun pair => det (pair.1 - p) (pair.2 - q)).sum

/-- The misfit about any two points. -/
theorem misfit_about {c s : K} (hcs : c ^ 2 + s ^ 2 = 1) (p q t : K × K)
    (pairs : List ((K × K) × K × K)) :
    misfit c s t pairs = spread p q pairs - 2 * (c * dots p q pairs + s * crosses p q pairs) +
      2 * dot (rotate c s p + t - q) (rotate c s (pairs.map fun pair => pair.1 - p).sum -
        (pairs.map fun pair => pair.2 - q).sum) +
      pairs.length * normSq (rotate c s p + t - q) := by
  induction pairs with
  | nil => simp [misfit, spread, dots, crosses, rotate, dot]
  | cons pair pairs ih =>
    have hpair : normSq (rotate c s pair.1 + t - pair.2) =
        normSq (pair.1 - p) + normSq (pair.2 - q) -
          2 * (c * dot (pair.1 - p) (pair.2 - q) + s * det (pair.1 - p) (pair.2 - q)) +
          2 * dot (rotate c s p + t - q) (rotate c s (pair.1 - p) - (pair.2 - q)) +
          normSq (rotate c s p + t - q) := by
      simp only [normSq, dot, det, rotate, Prod.fst_add, Prod.snd_add, Prod.fst_sub, Prod.snd_sub]
      linear_combination ((pair.1.1 - p.1) ^ 2 + (pair.1.2 - p.2) ^ 2) * hcs
    simp only [misfit, spread, dots, crosses, List.map_cons, List.sum_cons, List.length_cons,
      Nat.cast_add, Nat.cast_one] at ih ⊢
    rw [ih, hpair]
    simp only [dot, rotate, Prod.fst_add, Prod.snd_add, Prod.fst_sub, Prod.snd_sub]
    ring

theorem misfit_centred {c s : K} (hcs : c ^ 2 + s ^ 2 = 1) {p q : K × K}
    {pairs : List ((K × K) × K × K)} (h : Centred p q pairs) (t : K × K) :
    misfit c s t pairs = spread p q pairs - 2 * (c * dots p q pairs + s * crosses p q pairs) +
      pairs.length * normSq (rotate c s p + t - q) := by
  rw [misfit_about hcs p q t pairs, h.first, h.second]
  simp [rotate, dot]

variable [LinearOrder K] [IsStrictOrderedRing K]

/-- The rotation of the direction of the two sums, with the translation that takes one
centroid onto the other, fits best. -/
theorem misfit_le {p q t₀ : K × K} {pairs : List ((K × K) × K × K)} (h : Centred p q pairs)
    {c₀ s₀ r : K} (hr : 0 ≤ r) (hunit : c₀ ^ 2 + s₀ ^ 2 = 1) (hdots : dots p q pairs = r * c₀)
    (hcrosses : crosses p q pairs = r * s₀) (ht : rotate c₀ s₀ p + t₀ = q)
    {c s : K} (hcs : c ^ 2 + s ^ 2 = 1) (t : K × K) :
    misfit c₀ s₀ t₀ pairs ≤ misfit c s t pairs := by
  have hbest : c₀ * dots p q pairs + s₀ * crosses p q pairs = r := by
    rw [hdots, hcrosses]
    linear_combination r * hunit
  have hother : c * dots p q pairs + s * crosses p q pairs ≤ r := by
    have hcosine : c * c₀ + s * s₀ ≤ 1 := by
      nlinarith [sq_nonneg (c - c₀), sq_nonneg (s - s₀)]
    calc c * dots p q pairs + s * crosses p q pairs = r * (c * c₀ + s * s₀) := by
          rw [hdots, hcrosses]
          ring
      _ ≤ r * 1 := mul_le_mul_of_nonneg_left hcosine hr
      _ = r := mul_one r
  have hmoved : 0 ≤ (pairs.length : K) * normSq (rotate c s p + t - q) :=
    mul_nonneg (Nat.cast_nonneg _) (normSq_nonneg _)
  have hexact : normSq (rotate c₀ s₀ p + t₀ - q) = 0 := by
    rw [ht, sub_self, normSq, dot_zero]
  rw [misfit_centred hunit h, misfit_centred hcs h, hbest, hexact, mul_zero]
  linarith

end Procrustes

/-!
## Weighted means, one point at a time

The total weight, the weighted mean and the weighted sum of the squared deviations from it
are kept up to date as points come in. The deviations about another center differ by the
weight times the squared distance of the centers, so the running values are those of all
points together.
-/
namespace WeightedMean

open Plane

variable {K : Type*} [Field K]

/-- The sum of the weights. -/
def total (points : List (K × K × K)) : K := (points.map Prod.fst).sum

/-- The sum of the points times their weights. -/
def weightedSum (points : List (K × K × K)) : K × K := (points.map fun p => p.1 • p.2).sum

/-- The weighted sum of the squared distances from a center. -/
def deviation (center : K × K) (points : List (K × K × K)) : K :=
  (points.map fun p => p.1 * normSq (p.2 - center)).sum

structure Moments (K : Type*) where
  weight : K
  mean : K × K
  deviation : K

/-- The moments with one more point. -/
def Moments.absorb (m : Moments K) (w : K) (x : K × K) : Moments K where
  weight := m.weight + w
  mean := m.mean + (w / (m.weight + w)) • (x - m.mean)
  deviation := m.deviation + w * normSq (x - m.mean) * (m.weight / (m.weight + w))

/-- The moments of a list of points. -/
structure Moments.Of (m : Moments K) (points : List (K × K × K)) : Prop where
  weight : m.weight = total points
  mean : m.weight • m.mean = weightedSum points
  deviation : m.deviation = WeightedMean.deviation m.mean points

theorem total_concat (points : List (K × K × K)) (p : K × K × K) :
    total (points ++ [p]) = total points + p.1 := by
  simp [total]

theorem weightedSum_concat (points : List (K × K × K)) (p : K × K × K) :
    weightedSum (points ++ [p]) = weightedSum points + p.1 • p.2 := by
  simp [weightedSum]

theorem deviation_concat (center : K × K) (points : List (K × K × K)) (p : K × K × K) :
    deviation center (points ++ [p]) = deviation center points + p.1 * normSq (p.2 - center) := by
  simp [deviation]

/-- The deviations about two centers. -/
theorem deviation_about (a b : K × K) (points : List (K × K × K)) :
    deviation b points = deviation a points + total points * normSq (a - b) +
      2 * dot (a - b) (weightedSum points - total points • a) := by
  induction points with
  | nil => simp [deviation, total, weightedSum]
  | cons p points ih =>
    simp only [deviation, total, weightedSum, List.map_cons, List.sum_cons] at ih ⊢
    rw [ih]
    simp only [normSq, dot, Prod.fst_sub, Prod.snd_sub, Prod.fst_add, Prod.snd_add, Prod.smul_fst,
      Prod.smul_snd, smul_eq_mul]
    ring

theorem Moments.of_nil (center : K × K) : (⟨0, center, 0⟩ : Moments K).Of [] where
  weight := rfl
  mean := zero_smul K center
  deviation := rfl

section Absorb

variable {m : Moments K} {points : List (K × K × K)} {w : K}

/-- The running moments are those of all points. -/
theorem Moments.Of.absorb (h : m.Of points) (hw : m.weight + w ≠ 0) (x : K × K) :
    (m.absorb w x).Of (points ++ [(w, x)]) where
  weight := by
    rw [total_concat, ← h.weight]
    rfl
  mean := by
    rw [weightedSum_concat, ← h.mean]
    apply Prod.ext
    · simp only [Moments.absorb, Prod.smul_fst, Prod.fst_add, Prod.fst_sub, smul_eq_mul]
      field_simp
      ring
    · simp only [Moments.absorb, Prod.smul_snd, Prod.snd_add, Prod.snd_sub, smul_eq_mul]
      field_simp
      ring
  deviation := by
    have hcentred : weightedSum points - total points • m.mean = 0 := by
      rw [← h.mean, h.weight, sub_self]
    rw [deviation_concat, deviation_about m.mean, hcentred, dot_zero, mul_zero, add_zero,
      ← h.deviation, ← h.weight]
    simp only [Moments.absorb, normSq, dot, Prod.fst_sub, Prod.snd_sub, Prod.fst_add, Prod.snd_add,
      Prod.smul_fst, Prod.smul_snd, smul_eq_mul]
    field_simp
    ring

/-- The mean is the weighted mean. -/
theorem Moments.Of.mean_eq (h : m.Of points) (hw : m.weight ≠ 0) :
    m.mean = (total points)⁻¹ • weightedSum points := by
  rw [← h.mean, ← h.weight, smul_smul, inv_mul_cancel₀ hw, one_smul]

end Absorb

end WeightedMean

/-!
## Projections onto half-spaces with corrections

Dykstra's method looks for the closest point of an intersection of half-spaces:
it projects onto one after the other, and each half-space keeps the correction
that it made and takes it back before its next turn. The relation between a
point and a correction after a turn is stated here. A weighted distance from any
fixed point falls with every turn, and a point at which every half-space rests is
the closest one.
-/
namespace Plane

variable {K : Type*} [Field K]

/-- The squared distance from a point, and what the corrections weigh there. -/
def potential (z x : K × K) (entries : List (((K × K) × K) × (K × K))) : K :=
  normSq (x - z) + 2 * (entries.map fun e => dot e.1.1 e.2 * (e.1.2 - dot e.1.1 z)).sum

theorem potential_zero (z x : K × K) (rows : List ((K × K) × K)) :
    potential z x (rows.map fun row => (row, 0)) = normSq (x - z) := by
  have hsum : ((rows.map fun row => (row, (0 : K × K))).map fun e =>
      dot e.1.1 e.2 * (e.1.2 - dot e.1.1 z)).sum = 0 := by
    induction rows with
    | nil => rfl
    | cons row rest ih => simpa using ih
  rw [potential, hsum, mul_zero, add_zero]

variable [LinearOrder K]

/-- The points that keep every half-space: a normal, and the greatest product
with it. -/
def Cell (rows : List ((K × K) × K)) : Set (K × K) := {x | ∀ row ∈ rows, dot row.1 x ≤ row.2}

/-- A correction points out along the normal. -/
def Outward (n c : K × K) : Prop := c = dot n c • n ∧ 0 ≤ dot n c

/-- The point is the projection of the corrected point onto the half-space. -/
structure Rests (n : K × K) (b : K) (x c : K × K) : Prop where
  outward : Outward n c
  le : dot n x ≤ b
  complementary : dot n c * (b - dot n x) = 0

theorem outward_zero (n : K × K) : Outward n 0 := by
  simp [Outward]

variable [IsStrictOrderedRing K] {n x c x' c' : K × K} {b : K}

/-- Projecting a point that violates the half-space. -/
theorem rests_project (hn : normSq n = 1) (h : b < dot n x) :
    Rests n b (x - (dot n x - b) • n) ((dot n x - b) • n) := by
  have hself : dot n n = 1 := hn
  have hdot : dot n ((dot n x - b) • n) = dot n x - b := by rw [dot_smul, hself, mul_one]
  have hat : dot n (x - (dot n x - b) • n) = b := by rw [dot_sub, hdot, sub_sub_cancel]
  refine ⟨⟨?_, ?_⟩, hat.le, ?_⟩
  · rw [hdot]
  · rw [hdot]
    exact sub_nonneg.mpr h.le
  · rw [hat, sub_self, mul_zero]

/-- A turn of one half-space, seen from any point: the weighted distance falls by
the squared length of the move and by what the old correction weighs. -/
theorem turn_balance (hn : normSq n = 1) (hc : Outward n c) (hrests : Rests n b x' c')
    (hsum : x' + c' = x + c) (z : K × K) :
    normSq (x - z) + 2 * (dot n c * (b - dot n z)) =
      normSq (x' - z) + 2 * (dot n c' * (b - dot n z)) +
        (normSq (x - x') + 2 * (dot n c * (b - dot n x'))) := by
  have hself : dot n n = 1 := hn
  have hmove : x = x' + (dot n c' - dot n c) • n := by
    rw [sub_smul, ← hrests.outward.1, ← hc.1, ← add_sub_assoc, hsum, add_sub_cancel_right]
  have hfar : normSq (x - z) = normSq (x' - z) +
      2 * ((dot n c' - dot n c) * (dot n x' - dot n z)) + (dot n c' - dot n c) ^ 2 := by
    rw [hmove]
    simp only [normSq, dot, Prod.fst_sub, Prod.snd_sub, Prod.fst_add, Prod.snd_add,
      Prod.smul_fst, Prod.smul_snd, smul_eq_mul] at hself ⊢
    linear_combination (n.1 * c'.1 + n.2 * c'.2 - (n.1 * c.1 + n.2 * c.2)) ^ 2 * hself
  have hstep : normSq (x - x') = (dot n c' - dot n c) ^ 2 := by
    have hdiff : x - x' = (dot n c' - dot n c) • n := by rw [sub_eq_iff_eq_add', ← hmove]
    rw [hdiff, normSq_smul, hn, mul_one]
  rw [hfar, hstep]
  linear_combination -2 * hrests.complementary

/-- So it does not grow. -/
theorem turn_balance_le (hn : normSq n = 1) (hc : Outward n c) (hrests : Rests n b x' c')
    (hsum : x' + c' = x + c) (z : K × K) :
    normSq (x' - z) + 2 * (dot n c' * (b - dot n z)) ≤
      normSq (x - z) + 2 * (dot n c * (b - dot n z)) := by
  rw [turn_balance hn hc hrests hsum z]
  have hmove := normSq_nonneg (x - x')
  have hweight := mul_nonneg hc.2 (sub_nonneg.mpr hrests.le)
  linarith

variable {entries : List (((K × K) × K) × (K × K))}

/-- For a point of the cell the corrections weigh at least nothing. -/
theorem normSq_le_potential {z : K × K} (hz : z ∈ Cell (entries.map Prod.fst))
    (hout : ∀ e ∈ entries, Outward e.1.1 e.2) : normSq (x - z) ≤ potential z x entries := by
  have hsum : 0 ≤ (entries.map fun e => dot e.1.1 e.2 * (e.1.2 - dot e.1.1 z)).sum := by
    apply List.sum_nonneg
    intro weight hweight
    obtain ⟨e, he, rfl⟩ := List.mem_map.mp hweight
    exact mul_nonneg (hout e he).2 (sub_nonneg.mpr (hz e.1 (List.mem_map_of_mem he)))
  unfold potential
  linarith

/-- The corrections point out of the cell. -/
theorem dot_corrections_nonpos {y : K × K} (hy : y ∈ Cell (entries.map Prod.fst))
    (hrests : ∀ e ∈ entries, Rests e.1.1 e.1.2 x e.2) :
    dot (entries.map Prod.snd).sum (y - x) ≤ 0 := by
  induction entries with
  | nil => simp [dot]
  | cons e rest ih =>
    obtain ⟨he, hrest⟩ := List.forall_mem_cons.mp hrests
    obtain ⟨hye, hyrest⟩ : dot e.1.1 y ≤ e.1.2 ∧ y ∈ Cell (rest.map Prod.fst) :=
      List.forall_mem_cons.mp hy
    have hhead : dot e.2 (y - x) ≤ 0 := by
      calc dot e.2 (y - x) = dot e.1.1 e.2 * (dot e.1.1 y - dot e.1.1 x) := by
            conv_lhs => rw [he.outward.1, smul_dot, dot_sub]
        _ ≤ dot e.1.1 e.2 * (e.1.2 - dot e.1.1 x) :=
            mul_le_mul_of_nonneg_left (sub_le_sub_right hye _) he.outward.2
        _ = 0 := he.complementary
    have htail := ih hyrest hrest
    rw [List.map_cons, List.sum_cons, dot_comm, dot_add, dot_comm _ e.2, dot_comm (y - x)]
    exact add_nonpos hhead htail

/-- A point at which every half-space rests is the closest point of the cell to
the point with all corrections taken back. -/
theorem closest_of_rests (hrests : ∀ e ∈ entries, Rests e.1.1 e.1.2 x e.2) :
    Closest (x + (entries.map Prod.snd).sum) (Cell (entries.map Prod.fst)) x := by
  apply closest_of_dot
  · intro row hrow
    obtain ⟨e, he, rfl⟩ := List.mem_map.mp hrow
    exact (hrests e he).le
  · intro y hy
    rw [add_sub_cancel_left]
    exact dot_corrections_nonpos hy hrests

end Plane
