import Mission10.Engine.Mission
import Mission10.Library.ConvexPolygon

/-!
# The polygon fence

The edge scan of `point_in_polygon` returns at the first edge the point is on and
counts the crossings to the north otherwise. From a point within a convex polygon
there is one, so the scan accepts the whole closed polygon; from a point outside there
are two or none, so off the bands of the edges it refuses. The band of an edge is measured
by a product with the length of the edge, and of a short edge it is wide.
-/
namespace Mission10.Engine

open Plane CyclicList ConvexPolygon

set_option linter.unusedSectionVars false

variable {K : Type*} [Field K] [LinearOrder K] [IsStrictOrderedRing K] [MathOps K]

theorem edgeTol_nonneg : (0 : K) ≤ edgeTol := by
  unfold edgeTol
  positivity

theorem insideScan_of_onEdge {point : Point2 K} {edges : List (Point2 K × Point2 K)}
    (h : ∃ edge ∈ edges, onEdge point edge = true) (inside : Bool) :
    insideScan point edges inside = true := by
  induction edges generalizing inside with
  | nil => simp at h
  | cons edge edges ih =>
    rw [insideScan]
    split_ifs with hedge
    · rfl
    · apply ih
      obtain ⟨edge', hmem, hon⟩ := h
      rcases List.mem_cons.mp hmem with rfl | hmem
      · exact absurd hon hedge
      · exact ⟨edge', hmem, hon⟩

/-- Off all edges the scan returns the parity of the crossings. -/
theorem insideScan_of_off {point : Point2 K} {edges : List (Point2 K × Point2 K)}
    (h : ∀ edge ∈ edges, onEdge point edge = false) (inside : Bool) :
    insideScan point edges inside = (inside ^^ (edges.countP (crossesEdge point)).bodd) := by
  induction edges generalizing inside with
  | nil => simp [insideScan]
  | cons edge edges ih =>
    have hedge := h edge List.mem_cons_self
    rw [insideScan, hedge, if_neg Bool.false_ne_true,
      ih fun edge' hmem => h edge' (List.mem_cons_of_mem edge hmem)]
    cases hcross : crossesEdge point edge <;> simp [hcross]

theorem onEdge_of_between {a b : Point2 K} {u : K} (hu : 0 ≤ u) (hu' : u ≤ 1) :
    onEdge (a + u • (b - a)) (a, b) = true := by
  have htol := edgeTol_nonneg (K := K)
  have hbetween (x y : K) : min x y - edgeTol ≤ x + u * (y - x) ∧
      x + u * (y - x) ≤ max x y + edgeTol := by
    rcases le_total x y with hxy | hxy
    · have hlow := mul_nonneg hu (sub_nonneg.mpr hxy)
      have hhigh := mul_le_of_le_one_left (sub_nonneg.mpr hxy) hu'
      rw [min_eq_left hxy, max_eq_right hxy]
      constructor <;> linarith
    · have hlow := mul_nonneg hu (sub_nonneg.mpr hxy)
      have hhigh := mul_le_of_le_one_left (sub_nonneg.mpr hxy) hu'
      rw [min_eq_right hxy, max_eq_left hxy]
      constructor <;> linarith
  have hcross : (a.1 + u * (b.1 - a.1) - a.1) * (b.2 - a.2) -
      (a.2 + u * (b.2 - a.2) - a.2) * (b.1 - a.1) = 0 := by ring
  simp only [onEdge, Prod.fst_add, Prod.snd_add, Prod.smul_fst, Prod.smul_snd, Prod.fst_sub,
    Prod.snd_sub, smul_eq_mul, decide_eq_true_eq]
  rw [hcross, abs_zero]
  exact ⟨htol, (hbetween a.1 b.1).1, (hbetween a.1 b.1).2, (hbetween a.2 b.2).1,
    (hbetween a.2 b.2).2⟩

/-- The crossings that the scan counts are those to the north. -/
theorem crossesEdge_eq (point : Point2 K) (edge : Point2 K × Point2 K) :
    crossesEdge point edge = crossesInFront (1, 0) point edge := by
  obtain ⟨⟨n1, e1⟩, n2, e2⟩ := edge
  simp only [crossesEdge, crossesInFront, above, crossing, Plane.dot, turn, Prod.fst_add,
    Prod.smul_fst, Prod.fst_sub, smul_eq_mul, neg_zero, zero_mul, one_mul, zero_add, add_zero,
    gt_iff_lt]
  rw [mul_comm (n2 - n1), mul_div_right_comm]

/-- The fence accepts the closed polygon. -/
theorem pointInPolygon_of_mem {polygon : List (Point2 K)} (h : IsConvex polygon)
    {point : Point2 K} (hpoint : point ∈ region polygon) : pointInPolygon point polygon = true := by
  have hlen : ¬ polygon.length < 3 := by
    obtain ⟨a, b, c, hsub, -⟩ := h.spread
    exact Nat.not_lt.mpr hsub.length_le
  rw [pointInPolygon, if_neg hlen]
  by_cases hon : ∃ edge ∈ polygonEdges polygon, onEdge point edge = true
  · exact insideScan_of_onEdge hon false
  · push Not at hon
    have hoff : ∀ edge ∈ polygonEdges polygon, onEdge point edge = false := by
      intro edge hmem
      exact Bool.eq_false_iff.mpr (hon edge hmem)
    have hinner : ¬ OnPerimeter polygon point := by
      rintro ⟨a, b, hab, u, hu, hu', rfl⟩
      exact hon (a, b) hab (onEdge_of_between hu hu')
    have hunit : normSq ((1, 0) : Point2 K) = 1 := by
      simp [normSq, Plane.dot]
    have hone : (polygonEdges polygon).countP (crossesEdge point) = 1 := by
      rw [← h.count_in_front hunit hpoint hinner]
      exact List.countP_congr fun edge _ => by rw [crossesEdge_eq]
    rw [insideScan_of_off hoff, hone]
    rfl

/-- The scan accepts the closed polygon and the bands of its edges, and nothing else. -/
theorem pointInPolygon_iff {polygon : List (Point2 K)} (h : IsConvex polygon)
    (point : Point2 K) :
    pointInPolygon point polygon = true ↔
      point ∈ region polygon ∨ ∃ edge ∈ polygonEdges polygon, onEdge point edge = true := by
  have hlen : ¬polygon.length < 3 := by
    obtain ⟨a, b, c, hsub, -⟩ := h.spread
    exact Nat.not_lt.mpr hsub.length_le
  constructor
  · intro haccepted
    by_contra hnone
    obtain ⟨houtside, hband⟩ := not_or.mp hnone
    have hoff : ∀ edge ∈ polygonEdges polygon, onEdge point edge = false := by
      intro edge hmem
      exact Bool.eq_false_iff.mpr fun hon => hband ⟨edge, hmem, hon⟩
    have hunit : normSq ((1, 0) : Point2 K) = 1 := by simp [normSq, Plane.dot]
    have hcount : (polygonEdges polygon).countP (crossesEdge point) =
        (neighbours polygon).countP (crossesInFront (1, 0) point) :=
      List.countP_congr fun edge _ => by rw [crossesEdge_eq]
    rw [pointInPolygon, if_neg hlen, insideScan_of_off hoff, hcount] at haccepted
    obtain hzero | htwo := h.count_in_front_outside hunit houtside
    · rw [hzero] at haccepted
      contradiction
    · rw [htwo] at haccepted
      contradiction
  · rintro (hinside | hon)
    · exact pointInPolygon_of_mem h hinside
    · rw [pointInPolygon, if_neg hlen]
      exact insideScan_of_onEdge hon false

namespace MissionEngine

theorem fenceViolation_of_mem {e : MissionEngine K} {p : Point2 K} (h : IsConvex e.fencePolygon)
    (hp : p ∈ region e.fencePolygon) : e.fenceViolation p = none := by
  have hne : e.fencePolygon ≠ [] := by
    obtain ⟨a, b, c, hsub, -⟩ := h.spread
    intro hnil
    rw [hnil] at hsub
    cases hsub
  rw [fenceViolation, if_pos hne, if_pos (pointInPolygon_of_mem h hp)]

/-- The command fence lets every setpoint over the closed polygon pass. -/
theorem commandViolation_of_mem {e : MissionEngine K} {sp : Setpoint K}
    (h : IsConvex e.fencePolygon) (hp : sp.pos.horizontal ∈ region e.fencePolygon) :
    e.commandViolation (some sp) = none := by
  unfold commandViolation
  dsimp only
  rw [fenceViolation_of_mem h hp, ite_self]

end MissionEngine

/-- A triangle with a short edge next to the origin. -/
noncomputable def shortEdged : List (Point2 ℝ) := [(0, 1 / 10 ^ 4), (1 / 10 ^ 4, 0), (10, 10)]

theorem shortEdged_convex : IsConvex shortEdged := by
  have horient : 0 < orient ((0, 1 / 10 ^ 4) : Point2 ℝ) (1 / 10 ^ 4, 0) (10, 10) := by
    norm_num [orient, det]
  refine ⟨Or.inl fun a b c hsub => ?_, _, _, _, List.Sublist.refl _, horient.ne'⟩
  have heq := hsub.eq_of_length rfl
  simp only [shortEdged, List.cons.injEq] at heq
  obtain ⟨rfl, rfl, rfl, -⟩ := heq
  rw [one_mul]
  exact horient.le

theorem pointInPolygon_iff_shortEdged : pointInPolygon (1, 1) shortEdged = true ↔
    ((1, 1) : Point2 ℝ) ∈ region shortEdged ∨
      ∃ edge ∈ polygonEdges shortEdged, onEdge (1, 1) edge = true :=
  pointInPolygon_iff shortEdged_convex (1, 1)

/-- The origin is outside the triangle by far more than the tolerance, and accepted. -/
theorem short_edge_accepts_outside : ¬∀ (polygon : List (Point2 ℝ)) (point : Point2 ℝ),
    IsConvex polygon →
      (point ∈ region polygon → pointInPolygon point polygon = true) ∧
        ((∀ y ∈ region polygon, edgeTol < √(normSq (point - y))) →
          pointInPolygon point polygon = false) := by
  intro h
  have hfar : ∀ y ∈ region shortEdged, edgeTol < √(normSq ((0, 0) - y)) := by
    intro y hy
    have hline : (1 / 10 ^ 4 : ℝ) ≤ Plane.dot (1, 1) y := by
      apply le_dot_of_mem hy
      intro v hv
      simp only [shortEdged, List.mem_cons, List.not_mem_nil, or_false] at hv
      obtain rfl | rfl | rfl := hv <;> norm_num [Plane.dot]
    apply Real.lt_sqrt_of_sq_lt
    simp only [Plane.dot, one_mul] at hline
    simp only [normSq, Plane.dot, Prod.fst_sub, Prod.snd_sub, zero_sub, edgeTol]
    nlinarith [sq_nonneg (y.1 - y.2)]
  have haccepted : pointInPolygon (0, 0) shortEdged = true := by
    rw [pointInPolygon_iff shortEdged_convex]
    right
    refine ⟨((0, 1 / 10 ^ 4), (1 / 10 ^ 4, 0)), by simp [polygonEdges, shortEdged], ?_⟩
    norm_num [onEdge, edgeTol, abs_le]
  have hrefused := (h shortEdged (0, 0) shortEdged_convex).2 hfar
  rw [haccepted] at hrefused
  contradiction

end Mission10.Engine
