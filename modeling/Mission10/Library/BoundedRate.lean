import Mathlib.Analysis.Convex.Segment
import Mathlib.Analysis.Seminorm
import Mathlib.Analysis.SpecialFunctions.Trigonometric.Bounds
import Mission10.Library.Plane

/-!
# Functions of bounded rate

A real function is steady at a rate when it changes no faster than that. A tame
function is bounded besides, so that products of tame functions are tame. Paths
put together from ramps, polynomials of ramps and rotations get explicit rates
from these rules.
-/
namespace BoundedRate

/-- The function changes no faster than the rate. -/
def Steady (c : ℝ) (f : ℝ → ℝ) : Prop := ∀ x y, |f x - f y| ≤ c * |x - y|

/-- A bounded function that changes no faster than a rate. -/
structure Tame (b c : ℝ) (f : ℝ → ℝ) : Prop where
  steady : Steady c f
  bounded : ∀ x, |f x| ≤ b

variable {f g : ℝ → ℝ} {b b' c c' : ℝ}

/-! ### Bounded rate -/

theorem Steady.rate_nonneg (hf : Steady c f) : 0 ≤ c := by
  have hstep := hf 1 0
  rw [sub_zero, abs_one, mul_one] at hstep
  exact (abs_nonneg _).trans hstep

theorem steady_const (a : ℝ) : Steady 0 fun _ => a := by
  intro x y
  simp

theorem steady_id : Steady 1 fun x => x := by
  intro x y
  rw [one_mul]

theorem Steady.mono (hf : Steady c f) (h : c ≤ c') : Steady c' f :=
  fun x y => (hf x y).trans (mul_le_mul_of_nonneg_right h (abs_nonneg _))

theorem Steady.add (hf : Steady c f) (hg : Steady c' g) : Steady (c + c') fun x => f x + g x := by
  intro x y
  calc |f x + g x - (f y + g y)| = |f x - f y + (g x - g y)| := by ring_nf
    _ ≤ |f x - f y| + |g x - g y| := abs_add_le _ _
    _ ≤ c * |x - y| + c' * |x - y| := add_le_add (hf x y) (hg x y)
    _ = (c + c') * |x - y| := by ring

theorem Steady.const_mul (a : ℝ) (hf : Steady c f) : Steady (|a| * c) fun x => a * f x := by
  intro x y
  calc |a * f x - a * f y| = |a| * |f x - f y| := by rw [← mul_sub, abs_mul]
    _ ≤ |a| * (c * |x - y|) := mul_le_mul_of_nonneg_left (hf x y) (abs_nonneg a)
    _ = |a| * c * |x - y| := by ring

theorem Steady.sub (hf : Steady c f) (hg : Steady c' g) : Steady (c + c') fun x => f x - g x := by
  have hsum := hf.add (hg.const_mul (-1))
  simpa [sub_eq_add_neg] using hsum

theorem Steady.div_const {a : ℝ} (ha : 0 < a) (hf : Steady c f) :
    Steady (c / a) fun x => f x / a := by
  have hmul := hf.const_mul a⁻¹
  rw [abs_of_pos (inv_pos.mpr ha), ← div_eq_inv_mul] at hmul
  simpa only [div_eq_inv_mul] using hmul

/-- What changes no faster than a function of bounded rate. -/
theorem Steady.of_le (hf : Steady c f) (h : ∀ x y, |g x - g y| ≤ |f x - f y|) : Steady c g :=
  fun x y => (h x y).trans (hf x y)

theorem Steady.min_const (hf : Steady c f) (a : ℝ) : Steady c fun x => min (f x) a := by
  refine hf.of_le fun x y => ?_
  calc |min (f x) a - min (f y) a| ≤ max |f x - f y| |a - a| := abs_min_sub_min_le_max _ _ _ _
    _ = |f x - f y| := by rw [sub_self, abs_zero, max_eq_left (abs_nonneg _)]

theorem Steady.max_const (hf : Steady c f) (a : ℝ) : Steady c fun x => max (f x) a := by
  refine hf.of_le fun x y => ?_
  calc |max (f x) a - max (f y) a| ≤ max |f x - f y| |a - a| := abs_max_sub_max_le_max _ _ _ _
    _ = |f x - f y| := by rw [sub_self, abs_zero, max_eq_left (abs_nonneg _)]

/-! ### Tame functions -/

theorem Tame.bound_nonneg (hf : Tame b c f) : 0 ≤ b := (abs_nonneg _).trans (hf.bounded 0)

theorem tame_const (a : ℝ) : Tame |a| 0 fun _ => a := ⟨steady_const a, fun _ => le_rfl⟩

theorem Tame.add (hf : Tame b c f) (hg : Tame b' c' g) :
    Tame (b + b') (c + c') fun x => f x + g x :=
  ⟨hf.steady.add hg.steady, fun x =>
    (abs_add_le _ _).trans (add_le_add (hf.bounded x) (hg.bounded x))⟩

theorem Tame.mul (hf : Tame b c f) (hg : Tame b' c' g) :
    Tame (b * b') (b * c' + c * b') fun x => f x * g x := by
  constructor
  · intro x y
    calc |f x * g x - f y * g y| = |f x * (g x - g y) + (f x - f y) * g y| := by ring_nf
      _ ≤ |f x| * |g x - g y| + |f x - f y| * |g y| := by
        rw [← abs_mul, ← abs_mul]
        exact abs_add_le _ _
      _ ≤ b * (c' * |x - y|) + c * |x - y| * b' :=
        add_le_add
          (mul_le_mul (hf.bounded x) (hg.steady x y) (abs_nonneg _) hf.bound_nonneg)
          (mul_le_mul (hf.steady x y) (hg.bounded y) (abs_nonneg _)
            (mul_nonneg hf.steady.rate_nonneg (abs_nonneg _)))
      _ = (b * c' + c * b') * |x - y| := by ring
  · intro x
    rw [abs_mul]
    exact mul_le_mul (hf.bounded x) (hg.bounded x) (abs_nonneg _) hf.bound_nonneg

theorem Steady.cos (hf : Steady c f) : Tame 1 c fun x => Real.cos (f x) :=
  ⟨hf.of_le fun _ _ => Real.abs_cos_sub_cos_le _ _, fun _ => Real.abs_cos_le_one _⟩

theorem Steady.sin (hf : Steady c f) : Tame 1 c fun x => Real.sin (f x) :=
  ⟨hf.of_le fun _ _ => Real.abs_sin_sub_sin_le _ _, fun _ => Real.abs_sin_le_one _⟩

/-! ### Ramps -/

/-- A function of bounded rate with values from zero to one. -/
structure Ramp (c : ℝ) (f : ℝ → ℝ) : Prop where
  steady : Steady c f
  nonneg : ∀ x, 0 ≤ f x
  le_one : ∀ x, f x ≤ 1

theorem Steady.ramp (hf : Steady c f) : Ramp c fun x => min (max (f x) 0) 1 where
  steady := (hf.max_const 0).min_const 1
  nonneg := fun _ => le_min (le_max_right _ _) zero_le_one
  le_one := fun _ => min_le_right _ _

theorem Ramp.tame (hf : Ramp c f) : Tame 1 c f := by
  refine ⟨hf.steady, fun x => ?_⟩
  rw [abs_of_nonneg (hf.nonneg x)]
  exact hf.le_one x

theorem Ramp.fall (hf : Ramp c f) : Ramp c fun x => 1 - f x where
  steady := by
    have hsub := (steady_const 1).sub hf.steady
    rwa [zero_add] at hsub
  nonneg := fun x => sub_nonneg.mpr (hf.le_one x)
  le_one := fun x => sub_le_self 1 (hf.nonneg x)

/-- The cubic ramp between the same ends is at most half as fast again. -/
theorem Ramp.smooth (hf : Ramp c f) : Ramp (3 / 2 * c) fun x => f x * f x * (3 - 2 * f x) where
  steady := by
    intro x y
    have hx := hf.nonneg x
    have hx' := hf.le_one x
    have hy := hf.nonneg y
    have hy' := hf.le_one y
    have hslope : |3 * (f x + f y) - 2 * (f x * f x + f x * f y + f y * f y)| ≤ 3 / 2 := by
      rw [abs_le]
      constructor <;> nlinarith [sq_nonneg (f x + f y - 1), sq_nonneg (f x - f y)]
    calc |f x * f x * (3 - 2 * f x) - f y * f y * (3 - 2 * f y)|
        = |3 * (f x + f y) - 2 * (f x * f x + f x * f y + f y * f y)| * |f x - f y| := by
          rw [← abs_mul]
          ring_nf
      _ ≤ 3 / 2 * (c * |x - y|) :=
        mul_le_mul hslope (hf.steady x y) (abs_nonneg _) (by norm_num)
      _ = 3 / 2 * c * |x - y| := by ring
  nonneg := fun x => by
    have hx' := hf.le_one x
    exact mul_nonneg (mul_self_nonneg _) (by linarith)
  le_one := fun x => by
    have hx := hf.nonneg x
    have hx' := hf.le_one x
    nlinarith [mul_nonneg (mul_self_nonneg (f x - 1)) hx, sq_nonneg (f x - 1)]

end BoundedRate

/-!
## Barriers on one rate

A barrier asks that the square of a distance falls no faster than in proportion to
what it has to spare. Where a controller has one rate to choose, each pair is a
linear constraint on it, so the rates that all pairs admit are an interval, and the
admitted rate closest to a wish is the wish clipped. Along a straight step the
square of the distance lies above its tangent, so that the constraint keeps the
distance for as long as the step is not longer than the inverse of the gain.
-/
namespace RateBarrier

set_option linter.unusedSectionVars false

variable {K : Type*} [Field K] [LinearOrder K] [IsStrictOrderedRing K]

/-- An element of a set such that every other one is farther from the wish. -/
structure Closest (wish : K) (S : Set K) (x : K) : Prop where
  mem : x ∈ S
  lt : ∀ y ∈ S, y ≠ x → |x - wish| < |y - wish|

theorem Closest.congr {wish x : K} {S T : Set K} (h : Closest wish S x)
    (hST : ∀ y, y ∈ S ↔ y ∈ T) : Closest wish T x :=
  ⟨(hST x).mp h.mem, fun y hy hne => h.lt y ((hST y).mpr hy) hne⟩

/-- The wish clipped to an interval is the closest value of the interval. -/
theorem closest_clip (wish : K) {lower upper : K} (h : lower ≤ upper) :
    Closest wish {x | lower ≤ x ∧ x ≤ upper} (min (max wish lower) upper) := by
  refine ⟨⟨le_min (le_max_right _ _) h, min_le_right _ _⟩, fun y hy hne => ?_⟩
  obtain ⟨hlow, hup⟩ := hy
  rcases le_total wish lower with hbelow | habove
  · rw [max_eq_right hbelow, min_eq_left h] at hne ⊢
    have hlt : lower < y := lt_of_le_of_ne hlow hne.symm
    rw [abs_of_nonneg (by linarith), abs_of_nonneg (by linarith)]
    linarith
  · rw [max_eq_left habove] at hne ⊢
    rcases le_total wish upper with hinside | hover
    · rw [min_eq_left hinside] at hne ⊢
      rw [sub_self, abs_zero]
      exact abs_pos.mpr (sub_ne_zero.mpr hne)
    · rw [min_eq_right hover] at hne ⊢
      have hlt : y < upper := lt_of_le_of_ne hup hne
      rw [abs_of_nonpos (by linarith), abs_of_nonpos (by linarith)]
      linarith

open Plane

theorem normSq_step (separation velocity : K × K) (s : K) :
    normSq (separation + s • velocity) =
      normSq separation + s * (2 * dot separation velocity) + s ^ 2 * normSq velocity := by
  simp only [normSq, dot, Prod.fst_add, Prod.snd_add, Prod.smul_fst, Prod.smul_snd, smul_eq_mul]
  ring

/-- A step under the barrier condition keeps the distance. -/
theorem keeps_distance {separation velocity : K × K} {distance gamma s : K}
    (hapart : distance ^ 2 ≤ normSq separation)
    (hbarrier : -gamma * (normSq separation - distance ^ 2) ≤ 2 * dot separation velocity)
    (hs : 0 ≤ s) (hshort : s * gamma ≤ 1) :
    distance ^ 2 ≤ normSq (separation + s • velocity) := by
  have hspare : 0 ≤ normSq separation - distance ^ 2 := sub_nonneg.mpr hapart
  have hlinear := mul_le_mul_of_nonneg_left hbarrier hs
  have hspent := mul_le_mul_of_nonneg_right hshort hspare
  have hsquare : 0 ≤ s ^ 2 * normSq velocity := mul_nonneg (sq_nonneg s) (normSq_nonneg velocity)
  rw [normSq_step]
  linarith

end RateBarrier

/-!
## Pursuit of a target

A point moves towards a target by steps of bounded length, and a target that is too
far from the origin is pulled back. Each step ends on the segment to the target, so a
convex set that holds the point and the targets holds every later point.
-/
namespace Pursuit

variable {E : Type*} [AddCommGroup E] [Module ℝ E] (p : Seminorm ℝ E)

/-- The point after a step of bounded length towards the target. -/
noncomputable def pursue (target : E) (step : ℝ) (x : E) : E :=
  if p (target - x) ≤ step then target
  else x + (step / p (target - x)) • (target - x)

/-- A vector pulled back to a bound of its length. -/
noncomputable def cap (r : ℝ) (x : E) : E := if p x ≤ r then x else (r / p x) • x

theorem cap_le {r : ℝ} (hr : 0 ≤ r) (x : E) : p (cap p r x) ≤ r := by
  unfold cap
  split_ifs with h
  · exact h
  · have hpos : 0 < p x := hr.trans_lt (not_le.mp h)
    rw [map_smul_eq_mul, Real.norm_of_nonneg (by positivity), div_mul_cancel₀ _ hpos.ne']

section Steps

variable {step : ℝ} (hstep : 0 ≤ step) (target x : E)
include hstep

/-- A step ends between the point and the target. -/
theorem pursue_between : ∃ s : ℝ, 0 ≤ s ∧ s ≤ 1 ∧
    pursue p target step x = x + s • (target - x) := by
  unfold pursue
  split_ifs with h
  · exact ⟨1, zero_le_one, le_rfl, by rw [one_smul, add_sub_cancel]⟩
  · have hpos : 0 < p (target - x) := hstep.trans_lt (not_le.mp h)
    exact ⟨step / p (target - x), by positivity, (div_le_one hpos).mpr (not_le.mp h).le, rfl⟩

theorem pursue_moves : p (pursue p target step x - x) ≤ step := by
  unfold pursue
  split_ifs with h
  · exact h
  · have hpos : 0 < p (target - x) := hstep.trans_lt (not_le.mp h)
    rw [add_sub_cancel_left, map_smul_eq_mul, Real.norm_of_nonneg (by positivity),
      div_mul_cancel₀ _ hpos.ne']

/-- A convex set that holds the point and the target holds the point after the step. -/
theorem pursue_mem {s : Set E} (hs : Convex ℝ s) (hx : x ∈ s) (ht : target ∈ s) :
    pursue p target step x ∈ s := by
  obtain ⟨c, hc0, hc1, heq⟩ := pursue_between p hstep target x
  rw [heq]
  exact hs.add_smul_sub_mem hx ht ⟨hc0, hc1⟩

end Steps

end Pursuit
