import Mission10.Engine.Geometry
import Mission10.Library.Outcome
import Mission10.Library.ScaledPolygon

/-!
# The inset of a field

The survey stays within the field polygon, moved inward by a margin. Every edge is moved
on its own and meets the moved edges before and after it, so its length shrinks by the
margin times the tangents of half the angles at its two ends. The result lies within the
field, at the margin from its edges, exactly when no edge shrinks beyond its length; the
check of the area does not notice the edges that do.
-/
namespace Mission10.Engine

open MathOps Plane CyclicList ConvexPolygon

set_option linter.unusedSectionVars false

/-! ## The corners of the inset -/

section Corners
variable {K : Type*} [Field K] [LinearOrder K] [MathOps K]

/-- The corners of a closed polygon, each between its neighbours. -/
def cornersOf {α : Type*} (polygon : List α) : List (α × α × α) :=
  (polygon.rotate (polygon.length - 1)).zip (polygon.zip (polygon.rotate 1))

theorem length_cornersOf {α : Type*} (polygon : List α) :
    (cornersOf polygon).length = polygon.length := by
  simp [cornersOf]

theorem map_cornersOf {α : Type*} (polygon : List α) :
    (cornersOf polygon).map (fun corner => corner.2.1) = polygon := by
  apply List.ext_getElem
  · simp [cornersOf]
  · intro i h1 h2
    simp [cornersOf]

theorem rotate_back {α : Type*} (l : List α) : (l.rotate (l.length - 1)).rotate 1 = l := by
  cases l with
  | nil => rfl
  | cons a l => rw [List.rotate_rotate, Nat.sub_add_cancel (by simp), List.rotate_length]

/-- Neighbouring corners share an edge. -/
theorem neighbours_cornersOf {α : Type*} {polygon : List α} {pair : (α × α × α) × (α × α × α)}
    (h : pair ∈ neighbours (cornersOf polygon)) :
    pair.2.1 = pair.1.2.1 ∧ pair.2.2.1 = pair.1.2.2 := by
  have hnext : (cornersOf polygon).rotate 1 =
      polygon.zip ((polygon.rotate 1).zip ((polygon.rotate 1).rotate 1)) := by
    unfold cornersOf
    rw [List.zip, List.zipWith_rotate_distrib _ _ _ _ (by simp), rotate_back, List.zip,
      List.zipWith_rotate_distrib _ _ _ _ (by simp)]
  unfold neighbours at h
  rw [hnext] at h
  obtain ⟨i, hi, rfl⟩ := List.mem_iff_getElem.mp h
  constructor <;> simp [cornersOf]

/-- The edges of a corner are edges of the polygon. -/
theorem edges_of_corner {α : Type*} {polygon : List α} {corner : α × α × α}
    (h : corner ∈ cornersOf polygon) :
    (corner.1, corner.2.1) ∈ neighbours polygon ∧
      (corner.2.1, corner.2.2) ∈ neighbours polygon := by
  obtain ⟨i, hi, rfl⟩ := List.mem_iff_getElem.mp h
  have hlt : i < polygon.length := length_cornersOf polygon ▸ hi
  have hindex : (i + (polygon.length - 1 + 1)) % polygon.length = i := by
    rw [Nat.sub_add_cancel (by omega), Nat.add_mod_right, Nat.mod_eq_of_lt hlt]
  constructor
  · rw [← List.mem_rotate (n := polygon.length - 1), ← neighbours_rotate]
    exact List.mem_iff_getElem.mpr ⟨i, by simpa [neighbours] using hlt,
      by simp [neighbours, cornersOf, hindex]⟩
  · exact List.mem_iff_getElem.mpr
      ⟨i, by simpa [neighbours] using hlt, by simp [neighbours, cornersOf]⟩

/-- An edge moved inward. -/
def movedEdge (side margin : K) (a b : Point2 K) : Point2 K :=
  (a.1 + margin * (-side * (b.2 - a.2) / hypot (b.1 - a.1) (b.2 - a.2)),
    a.2 + margin * (side * (b.1 - a.1) / hypot (b.1 - a.1) (b.2 - a.2)))

/-- Where two lines meet that are given by a point and a direction. -/
def meetingPoint (p1 d1 p2 d2 : Point2 K) : Point2 K :=
  p1 + (det (p2 - p1) d2 / det d1 d2) • d1

/-- The corner of the inset. -/
def insetCorner (side margin : K) (corner : Point2 K × Point2 K × Point2 K) : Point2 K :=
  meetingPoint (movedEdge side margin corner.1 corner.2.1) (corner.2.1 - corner.1)
    (movedEdge side margin corner.2.1 corner.2.2) (corner.2.2 - corner.2.1)

/-- The side of the perimeter on which the field lies. -/
def insetSide (polygon : List (Point2 K)) : K := if area2 polygon > 0 then 1 else -1

theorem shiftEdge_eq_ok {side margin : K} {edge out : Point2 K × Point2 K} :
    shiftEdge side margin edge = .ok out ↔
      1 / 10 ^ 9 < hypot (edge.2.1 - edge.1.1) (edge.2.2 - edge.1.2) ∧
        out = (movedEdge side margin edge.1 edge.2, edge.2 - edge.1) := by
  unfold shiftEdge
  dsimp only
  split_ifs with hshort
  · exact iff_of_false (by simp) fun h => hshort.not_gt h.1
  · rw [Except.ok.injEq, eq_comm (b := out)]
    exact ⟨fun h => ⟨lt_of_not_ge hshort, h⟩, fun h => h.2⟩

theorem meetEdges_eq_ok {before after : Point2 K × Point2 K} {out : Point2 K} :
    meetEdges before after = .ok out ↔
      1 / 10 ^ 9 < |det before.2 after.2| ∧
        out = meetingPoint before.1 before.2 after.1 after.2 := by
  unfold meetEdges
  dsimp only
  split_ifs with hparallel
  · exact iff_of_false (by simp) fun h => hparallel.not_gt h.1
  · rw [Except.ok.injEq, eq_comm (b := out)]
    exact ⟨fun h => ⟨lt_of_not_ge hparallel, h⟩, fun h => h.2⟩

/-- What is known of a polygon that the inset returns. -/
structure InsetCorners (polygon : List (Point2 K)) (margin : K) (result : List (Point2 K)) :
    Prop where
  margin_pos : 0 < margin
  area : 1 / 10 ^ 9 < |area2 polygon|
  edges : ∀ edge ∈ polygonEdges polygon,
    1 / 10 ^ 9 < hypot (edge.2.1 - edge.1.1) (edge.2.2 - edge.1.2)
  turns : ∀ corner ∈ cornersOf polygon,
    1 / 10 ^ 9 < |det (corner.2.1 - corner.1) (corner.2.2 - corner.2.1)|
  result : result = (cornersOf polygon).map (insetCorner (insetSide polygon) margin)

/-- The pairs of edges that meet at the corners. -/
theorem zip_edges (polygon : List (Point2 K)) :
    ((polygonEdges polygon).rotate ((polygonEdges polygon).length - 1)).zip (polygonEdges polygon) =
      (cornersOf polygon).map fun corner =>
        ((corner.1, corner.2.1), (corner.2.1, corner.2.2)) := by
  have hback : (polygon.rotate 1).rotate (polygon.length - 1) = polygon := by
    rw [List.rotate_rotate, Nat.add_comm, ← List.rotate_rotate, rotate_back]
  have hlength : (polygonEdges polygon).length = polygon.length := by simp [polygonEdges]
  have hrotate : (polygonEdges polygon).rotate (polygon.length - 1) =
      (polygon.rotate (polygon.length - 1)).zip polygon := by
    unfold polygonEdges
    rw [List.zip, List.zipWith_rotate_distrib _ _ _ _ (by simp), hback]
  rw [hlength, hrotate]
  apply List.ext_getElem
  · simp [polygonEdges, cornersOf]
  · intro i h1 h2
    simp [polygonEdges, cornersOf]

/-- What the two loops compute when they succeed. -/
theorem loops_ok {polygon result : List (Point2 K)} {side margin : K}
    {shifted : List (Point2 K × Point2 K)}
    (hshift : (polygonEdges polygon).mapM (shiftEdge side margin) = .ok shifted)
    (hmeet : ((shifted.rotate (shifted.length - 1)).zip shifted).mapM
      (fun x => meetEdges x.1 x.2) = .ok result) :
    (∀ edge ∈ polygonEdges polygon,
        1 / 10 ^ 9 < hypot (edge.2.1 - edge.1.1) (edge.2.2 - edge.1.2)) ∧
      (∀ corner ∈ cornersOf polygon,
        1 / 10 ^ 9 < |det (corner.2.1 - corner.1) (corner.2.2 - corner.2.1)|) ∧
      result = (cornersOf polygon).map (insetCorner side margin) := by
  let move (edge : Point2 K × Point2 K) : Point2 K × Point2 K :=
    (movedEdge side margin edge.1 edge.2, edge.2 - edge.1)
  have hshifted : shifted = (polygonEdges polygon).map move := by
    have hmap := Outcome.map_of_mapM (g := id) (k := move) hshift fun edge _ out hout =>
      (shiftEdge_eq_ok.mp hout).2
    rwa [List.map_id] at hmap
  have hpairs : (shifted.rotate (shifted.length - 1)).zip shifted =
      (cornersOf polygon).map fun corner =>
        (move (corner.1, corner.2.1), move (corner.2.1, corner.2.2)) := by
    rw [hshifted, List.length_map, ← List.map_rotate, List.zip_map, zip_edges, List.map_map]
    rfl
  rw [hpairs, Outcome.mapM_eq_ok, List.forall₂_map_left_iff, ← Outcome.mapM_eq_ok] at hmeet
  refine ⟨fun edge hedge => ?_, fun corner hcorner => ?_, ?_⟩
  · obtain ⟨out, -, hout⟩ := Outcome.exists_of_mapM hshift hedge
    exact (shiftEdge_eq_ok.mp hout).1
  · obtain ⟨out, -, hout⟩ := Outcome.exists_of_mapM hmeet hcorner
    exact (meetEdges_eq_ok.mp hout).1
  · have hmap := Outcome.map_of_mapM (g := id) (k := insetCorner side margin) hmeet
      fun corner _ out hout => (meetEdges_eq_ok.mp hout).2
    rwa [List.map_id] at hmap

theorem insetConvexPolygon_ok {polygon result : List (Point2 K)} {margin : K}
    (h : insetConvexPolygon polygon margin = .ok result) :
    margin = 0 ∧ result = polygon ∨ InsetCorners polygon margin result := by
  have hside : (if area2 polygon > 0 then 1 else -1) = insetSide polygon := rfl
  unfold insetConvexPolygon at h
  simp only [bind, Except.bind, pure, Except.pure, throw, throwThe, MonadExceptOf.throw,
    hside] at h
  split_ifs at h with hlen hneg hzero harea
  · exact .inl ⟨hzero, (Except.ok.inj h).symm⟩
  · have hpos : 0 < margin := lt_of_le_of_ne (not_lt.mp hneg) (Ne.symm hzero)
    cases hshift : (polygonEdges polygon).mapM (shiftEdge (insetSide polygon) margin) with
    | error err =>
      rw [hshift] at h
      contradiction
    | ok shifted =>
      rw [hshift] at h
      dsimp only at h
      cases hmeet : ((shifted.rotate (shifted.length - 1)).zip shifted).mapM
          fun x => meetEdges x.1 x.2 with
      | error err =>
        rw [hmeet] at h
        contradiction
      | ok corners =>
        rw [hmeet] at h
        dsimp only at h
        split_ifs at h
        obtain rfl := Except.ok.inj h
        obtain ⟨hedges, hturns, hresult⟩ := loops_ok hshift hmeet
        exact .inr ⟨hpos, not_le.mp harea, hedges, hturns, hresult⟩

/-- The tangent of half the angle by which the perimeter turns at a corner. -/
def cornerTan (corner : Point2 K × Point2 K × Point2 K) : K :=
  (hypot (corner.2.1.1 - corner.1.1) (corner.2.1.2 - corner.1.2) *
      hypot (corner.2.2.1 - corner.2.1.1) (corner.2.2.2 - corner.2.1.2) -
    Plane.dot (corner.2.1 - corner.1) (corner.2.2 - corner.2.1)) /
      |det (corner.2.1 - corner.1) (corner.2.2 - corner.2.1)|

/-- No edge of the polygon is shorter than what the margin takes off at its two ends. -/
def InsetFits (polygon : List (Point2 K)) (margin : K) : Prop :=
  ∀ pair ∈ neighbours (cornersOf polygon), margin * (cornerTan pair.1 + cornerTan pair.2) ≤
    hypot (pair.1.2.2.1 - pair.1.2.1.1) (pair.1.2.2.2 - pair.1.2.1.2)

/-- The distance of a point from the line of an edge. -/
def lineDistance (point : Point2 K) (edge : Point2 K × Point2 K) : K :=
  |det (edge.2 - edge.1) (point - edge.1)| / hypot (edge.2.1 - edge.1.1) (edge.2.2 - edge.1.2)

/-- The result lies within the polygon, at the margin from the lines of its edges, and its
edges run in the directions of the edges of the polygon. -/
structure InsetSound [IsStrictOrderedRing K] (polygon : List (Point2 K)) (margin : K)
    (result : List (Point2 K)) : Prop where
  inside : ∀ x ∈ region result, x ∈ region polygon
  clear : ∀ x ∈ region result, ∀ edge ∈ polygonEdges polygon, margin ≤ lineDistance x edge
  length_eq : result.length = polygon.length
  ordered : ∀ e ∈ neighbours (polygon.zip result), Scaled e.1 e.2

end Corners

/-! ## One corner -/

section Corner

variable (side margin : ℝ) {a b c p1 d1 p2 d2 : Point2 ℝ}

theorem hypot_mul_self (x y : ℝ) : hypot x y * hypot x y = x * x + y * y :=
  Real.mul_self_sqrt (add_nonneg (mul_self_nonneg x) (mul_self_nonneg y))

/-- The meeting point is on the second line. -/
theorem det_meetingPoint (hdet : det d1 d2 ≠ 0) :
    det d2 (meetingPoint p1 d1 p2 d2 - p2) = 0 := by
  have hstep : det d2 (meetingPoint p1 d1 p2 d2 - p2) =
      det d2 (p1 - p2) + det (p2 - p1) d2 / det d1 d2 * det d2 d1 := by
    simp only [meetingPoint, det, Prod.fst_sub, Prod.snd_sub, Prod.fst_add, Prod.snd_add,
      Prod.smul_fst, Prod.smul_snd, smul_eq_mul]
    ring
  have hflip : det d2 d1 = -det d1 d2 := by
    unfold det
    ring
  rw [hstep, hflip, mul_neg, div_mul_cancel₀ _ hdet]
  simp only [det, Prod.fst_sub, Prod.snd_sub]
  ring

theorem det_eq_dot_turn (v w : Point2 ℝ) : det v w = Plane.dot (turn v) w := by
  simp only [det, Plane.dot, turn]
  ring

/-- The moved edge is at the margin from the edge. -/
theorem det_movedEdge (hlen : 0 < hypot (b.1 - a.1) (b.2 - a.2)) :
    det (b - a) (movedEdge side margin a b - a) =
      side * margin * hypot (b.1 - a.1) (b.2 - a.2) := by
  have hsq := hypot_mul_self (b.1 - a.1) (b.2 - a.2)
  have hne := hlen.ne'
  have hunit : ((b.1 - a.1) * (b.1 - a.1) + (b.2 - a.2) * (b.2 - a.2)) /
      hypot (b.1 - a.1) (b.2 - a.2) = hypot (b.1 - a.1) (b.2 - a.2) := by
    rw [← hsq, mul_div_cancel_right₀ _ hne]
  rw [← hunit]
  simp only [det, movedEdge, Prod.fst_sub, Prod.snd_sub]
  ring

theorem det_insetCorner_before (hlen : 0 < hypot (b.1 - a.1) (b.2 - a.2)) :
    det (b - a) (insetCorner side margin (a, b, c) - b) =
      side * margin * hypot (b.1 - a.1) (b.2 - a.2) := by
  rw [← det_movedEdge side margin hlen]
  simp only [insetCorner, meetingPoint, det, Prod.fst_sub, Prod.snd_sub, Prod.fst_add,
    Prod.snd_add, Prod.smul_fst, Prod.smul_snd, smul_eq_mul]
  ring

theorem det_insetCorner_after (hlen : 0 < hypot (c.1 - b.1) (c.2 - b.2))
    (hdet : det (b - a) (c - b) ≠ 0) :
    det (c - b) (insetCorner side margin (a, b, c) - b) =
      side * margin * hypot (c.1 - b.1) (c.2 - b.2) := by
  have hline : det (c - b) (insetCorner side margin (a, b, c) - movedEdge side margin b c) = 0 :=
    det_meetingPoint hdet
  rw [← det_movedEdge side margin hlen]
  simp only [det, Prod.fst_sub, Prod.snd_sub] at hline ⊢
  linarith

/-- Along its two edges the corner is moved by the margin times the tangent. -/
theorem dot_insetCorner (hside : side * side = 1) (hturn : 0 < side * det (b - a) (c - b))
    (hlen1 : 0 < hypot (b.1 - a.1) (b.2 - a.2)) (hlen2 : 0 < hypot (c.1 - b.1) (c.2 - b.2)) :
    Plane.dot (c - b) (insetCorner side margin (a, b, c) - b) =
        margin * cornerTan (a, b, c) * hypot (c.1 - b.1) (c.2 - b.2) ∧
      Plane.dot (b - a) (insetCorner side margin (a, b, c) - b) =
        -(margin * cornerTan (a, b, c) * hypot (b.1 - a.1) (b.2 - a.2)) := by
  have hdet : det (b - a) (c - b) ≠ 0 := by
    intro hzero
    rw [hzero, mul_zero] at hturn
    exact hturn.ne rfl
  have hbefore := det_insetCorner_before side margin (c := c) hlen1
  have hafter := det_insetCorner_after side margin hlen2 hdet
  have habs : |det (b - a) (c - b)| = side * det (b - a) (c - b) := by
    have hone : |side| = 1 := by
      rw [← abs_one, abs_eq_abs]
      exact mul_self_eq_one_iff.mp hside
    rw [← one_mul |det (b - a) (c - b)|, ← hone, ← abs_mul, abs_of_pos hturn]
  have htan : cornerTan (a, b, c) * (side * det (b - a) (c - b)) =
      hypot (b.1 - a.1) (b.2 - a.2) * hypot (c.1 - b.1) (c.2 - b.2) -
        Plane.dot (b - a) (c - b) := by
    unfold cornerTan
    dsimp only
    rw [habs, div_mul_cancel₀ _ hturn.ne']
  have hsq1 := hypot_mul_self (b.1 - a.1) (b.2 - a.2)
  have hsq2 := hypot_mul_self (c.1 - b.1) (c.2 - b.2)
  set w := insetCorner side margin (a, b, c) - b
  set l1 := hypot (b.1 - a.1) (b.2 - a.2)
  set l2 := hypot (c.1 - b.1) (c.2 - b.2)
  constructor
  · apply mul_right_cancel₀ hturn.ne'
    have hcramer : Plane.dot (c - b) w * det (b - a) (c - b) =
        det (b - a) w * ((c.1 - b.1) * (c.1 - b.1) + (c.2 - b.2) * (c.2 - b.2)) -
          det (c - b) w * Plane.dot (b - a) (c - b) := by
      simp only [Plane.dot, det, Prod.fst_sub, Prod.snd_sub]
      ring
    rw [hbefore, hafter, ← hsq2] at hcramer
    linear_combination side * hcramer + margin * l2 * l1 * l2 * hside -
      margin * l2 * Plane.dot (b - a) (c - b) * hside - margin * l2 * htan
  · apply mul_right_cancel₀ hturn.ne'
    have hcramer : Plane.dot (b - a) w * det (b - a) (c - b) =
        det (b - a) w * Plane.dot (b - a) (c - b) -
          det (c - b) w * ((b.1 - a.1) * (b.1 - a.1) + (b.2 - a.2) * (b.2 - a.2)) := by
      simp only [Plane.dot, det, Prod.fst_sub, Prod.snd_sub]
      ring
    rw [hbefore, hafter, ← hsq1] at hcramer
    linear_combination side * hcramer - margin * l2 * l1 * l1 * hside +
      margin * l1 * Plane.dot (b - a) (c - b) * hside + margin * l1 * htan

/-- A vector along an edge is the edge, scaled. -/
theorem eq_smul_of_det {e v : Point2 ℝ} (hdet : det e v = 0) (hpos : 0 < hypot e.1 e.2) {k : ℝ}
    (hdot : Plane.dot e v = k * (hypot e.1 e.2 * hypot e.1 e.2)) : v = k • e := by
  rw [hypot_mul_self] at hdot
  have hsq : e.1 * e.1 + e.2 * e.2 ≠ 0 := by
    rw [← hypot_mul_self]
    exact (mul_pos hpos hpos).ne'
  simp only [det] at hdet
  simp only [Plane.dot] at hdot
  ext
  · apply mul_left_cancel₀ hsq
    simp only [Prod.smul_fst, smul_eq_mul]
    linear_combination e.1 * hdot - e.2 * hdet
  · apply mul_left_cancel₀ hsq
    simp only [Prod.smul_snd, smul_eq_mul]
    linear_combination e.2 * hdot + e.1 * hdet

/-- Between two corners the inset has the edge of the polygon, shorter by the margin times
the tangents. -/
theorem sub_insetCorner (hside : side * side = 1) (hb : 0 < side * det (b - a) (c - b))
    (hc : 0 < side * det (c - b) (d - c)) (hlen1 : 0 < hypot (b.1 - a.1) (b.2 - a.2))
    (hlen2 : 0 < hypot (c.1 - b.1) (c.2 - b.2)) (hlen3 : 0 < hypot (d.1 - c.1) (d.2 - c.2)) :
    insetCorner side margin (b, c, d) - insetCorner side margin (a, b, c) =
      ((hypot (c.1 - b.1) (c.2 - b.2) - margin * (cornerTan (a, b, c) + cornerTan (b, c, d))) /
        hypot (c.1 - b.1) (c.2 - b.2)) • (c - b) := by
  have hdet : det (b - a) (c - b) ≠ 0 := by
    intro hzero
    rw [hzero, mul_zero] at hb
    exact hb.ne rfl
  have hsplit : insetCorner side margin (b, c, d) - insetCorner side margin (a, b, c) =
      (insetCorner side margin (b, c, d) - c) - (insetCorner side margin (a, b, c) - b) +
        (c - b) := by abel
  have hsq := hypot_mul_self (c.1 - b.1) (c.2 - b.2)
  apply eq_smul_of_det _ hlen2
  · have hdot1 := (dot_insetCorner side margin hside hb hlen1 hlen2).1
    have hdot2 := (dot_insetCorner side margin hside hc hlen2 hlen3).2
    rw [hsplit, dot_add, dot_sub, hdot1, hdot2]
    have hself : Plane.dot (c - b) (c - b) = hypot (c.1 - b.1) (c.2 - b.2) *
        hypot (c.1 - b.1) (c.2 - b.2) := hsq.symm
    rw [hself, Prod.fst_sub, Prod.snd_sub, ← mul_assoc, div_mul_cancel₀ _ hlen2.ne']
    ring
  · have hafter := det_insetCorner_after side margin hlen2 hdet
    have hbefore := det_insetCorner_before side margin (c := d) hlen2
    rw [hsplit]
    simp only [det, Prod.fst_sub, Prod.snd_sub, Prod.fst_add, Prod.snd_add] at hafter hbefore ⊢
    linarith

end Corner

/-! ## The whole inset -/

section Inset
variable {polygon result : List (Point2 ℝ)} {margin : ℝ}

/-- The side of the field is the one to which its corners turn. -/
theorem turns_insetSide (h : IsConvex polygon) (harea : 1 / 10 ^ 9 < |area2 polygon|) :
    Turns (insetSide polygon) polygon := by
  have hpos : 0 < |area2 polygon| := lt_trans (by norm_num) harea
  have hne : area2 polygon ≠ 0 := abs_pos.mp hpos
  rcases h.turns with hturns | hturns
  · have hnonneg : 0 ≤ 1 * area2 polygon := hturns.doubleArea_nonneg
    rw [one_mul] at hnonneg
    have hside : insetSide polygon = 1 := if_pos (lt_of_le_of_ne hnonneg hne.symm)
    rwa [hside]
  · have hnonneg : 0 ≤ -1 * area2 polygon := hturns.doubleArea_nonneg
    have hside : insetSide polygon = -1 := if_neg (by linarith)
    rwa [hside]

theorem insetSide_mul_self (polygon : List (Point2 ℝ)) :
    insetSide polygon * insetSide polygon = 1 := by
  unfold insetSide
  split_ifs <;> norm_num

namespace InsetCorners

variable (h : InsetCorners polygon margin result)
include h

theorem edge_pos {a b : Point2 ℝ} (hab : (a, b) ∈ neighbours polygon) :
    0 < hypot (b.1 - a.1) (b.2 - a.2) :=
  lt_trans (by norm_num) (h.edges (a, b) hab)

theorem corner_turns (hconvex : IsConvex polygon) {corner : Point2 ℝ × Point2 ℝ × Point2 ℝ}
    (hcorner : corner ∈ cornersOf polygon) : 0 < insetSide polygon *
      det (corner.2.1 - corner.1) (corner.2.2 - corner.2.1) := by
  obtain ⟨hbefore, hafter⟩ := edges_of_corner hcorner
  have hle := (turns_insetSide hconvex h.area).edge_le hbefore
    (corner_mem_region (mem_of_mem_neighbours hafter).2)
  have horient : orient corner.1 corner.2.1 corner.2.2 =
      det (corner.2.1 - corner.1) (corner.2.2 - corner.2.1) := by
    simp only [orient, det, Prod.fst_sub, Prod.snd_sub]
    ring
  rw [horient] at hle
  apply lt_of_le_of_ne hle
  intro hzero
  have hturn := h.turns corner hcorner
  have hside : insetSide polygon ≠ 0 := left_ne_zero_of_mul_eq_one
    (insetSide_mul_self polygon)
  rw [(mul_eq_zero.mp hzero.symm).resolve_left hside, abs_zero] at hturn
  norm_num at hturn

/-- The corners of the polygon with those of the inset. -/
theorem zip_result : polygon.zip result = (cornersOf polygon).map fun corner =>
    (corner.2.1, insetCorner (insetSide polygon) margin corner) := by
  calc polygon.zip result = ((cornersOf polygon).map fun corner => corner.2.1).zip
        ((cornersOf polygon).map (insetCorner (insetSide polygon) margin)) := by
        rw [map_cornersOf, ← h.result]
    _ = _ := List.zip_map'

theorem length_result : result.length = polygon.length := by
  rw [h.result, List.length_map, length_cornersOf]

/-- An edge of the inset runs as the edge of the polygon does when it is long enough. -/
theorem scaled_iff (hconvex : IsConvex polygon)
    {pair : (Point2 ℝ × Point2 ℝ × Point2 ℝ) × (Point2 ℝ × Point2 ℝ × Point2 ℝ)}
    (hpair : pair ∈ neighbours (cornersOf polygon)) :
    Scaled (pair.1.2.1, insetCorner (insetSide polygon) margin pair.1)
        (pair.2.2.1, insetCorner (insetSide polygon) margin pair.2) ↔
      margin * (cornerTan pair.1 + cornerTan pair.2) ≤
        hypot (pair.1.2.2.1 - pair.1.2.1.1) (pair.1.2.2.2 - pair.1.2.1.2) := by
  obtain ⟨hfirst, hsecond⟩ := mem_of_mem_neighbours hpair
  obtain ⟨hb, hc⟩ := neighbours_cornersOf hpair
  obtain ⟨⟨a, b, c⟩, b', c', d⟩ := pair
  dsimp only at hb hc hfirst hsecond ⊢
  subst hb hc
  obtain ⟨hab, hbc⟩ := edges_of_corner hfirst
  have hcd := (edges_of_corner hsecond).2
  have hlen := h.edge_pos hbc
  have hsub := sub_insetCorner (insetSide polygon) margin (insetSide_mul_self polygon)
    (h.corner_turns hconvex hfirst) (h.corner_turns hconvex hsecond) (h.edge_pos hab) hlen
    (h.edge_pos hcd)
  constructor
  · rintro ⟨t, ht, heq⟩
    dsimp only at heq
    rw [hsub] at heq
    have hne : c' - b' ≠ 0 := by
      intro hzero
      have hfst := congrArg Prod.fst hzero
      have hsnd := congrArg Prod.snd hzero
      simp only [Prod.fst_sub, Prod.snd_sub, Prod.fst_zero, Prod.snd_zero] at hfst hsnd
      have hsq := hypot_mul_self (c'.1 - b'.1) (c'.2 - b'.2)
      rw [hfst, hsnd] at hsq hlen
      simp at hsq
      exact hlen.ne' hsq
    rw [← smul_left_injective ℝ hne heq, le_div_iff₀ hlen, zero_mul] at ht
    exact sub_nonneg.mp ht
  · intro hle
    exact ⟨_, div_nonneg (sub_nonneg.mpr hle) hlen.le, hsub⟩

theorem ordered_iff (hconvex : IsConvex polygon) :
    (∀ e ∈ neighbours (polygon.zip result), Scaled e.1 e.2) ↔ InsetFits polygon margin := by
  rw [h.zip_result, neighbours_map, List.forall_mem_map]
  exact forall₂_congr fun pair hpair => h.scaled_iff hconvex hpair

/-- When the edges are long enough, the inset is at the margin from every edge. -/
theorem margin_le (hconvex : IsConvex polygon) (hfits : InsetFits polygon margin) {a b x : Point2 ℝ}
    (hab : (a, b) ∈ neighbours polygon) (hx : x ∈ region result) :
    margin * hypot (b.1 - a.1) (b.2 - a.2) ≤ insetSide polygon * orient a b x := by
  have hcorners := hab
  rw [← map_cornersOf polygon, neighbours_map] at hcorners
  obtain ⟨pair, hpair, heq⟩ := List.mem_map.mp hcorners
  obtain ⟨ha, hb⟩ := Prod.mk.inj heq
  have hfirst := (mem_of_mem_neighbours hpair).1
  have hturn := h.corner_turns hconvex hfirst
  have hedge := (neighbours_cornersOf hpair).2
  obtain ⟨⟨a0, a', b'⟩, second⟩ := pair
  dsimp only at ha hb hfirst hturn hedge
  obtain rfl := ha
  obtain rfl : b' = b := hedge.symm.trans hb
  have hdet : det (a' - a0) (b' - a') ≠ 0 := by
    intro hzero
    rw [hzero, mul_zero] at hturn
    exact hturn.ne rfl
  have hcorner := det_insetCorner_after (insetSide polygon) margin
    (h.edge_pos hab) hdet
  have hle : insetSide polygon * Plane.dot (turn (b' - a')) a' + margin *
      hypot (b'.1 - a'.1) (b'.2 - a'.2) ≤
        Plane.dot (insetSide polygon • turn (b' - a')) x := by
    apply le_dot_of_mem hx
    intro y hy
    rw [h.result] at hy
    obtain ⟨corner, hmem, rfl⟩ := List.mem_map.mp hy
    have hedgeMem : ((a', insetCorner (insetSide polygon) margin (a0, a', b')),
        (b', insetCorner (insetSide polygon) margin second)) ∈ neighbours (polygon.zip result) := by
      rw [h.zip_result, neighbours_map]
      exact List.mem_map.mpr ⟨_, hpair, by simp [hb]⟩
    have hcornerMem : (corner.2.1, insetCorner (insetSide polygon) margin corner) ∈
        polygon.zip result := by
      rw [h.zip_result]
      exact List.mem_map_of_mem hmem
    have hinner := hconvex.scaled_inner (turns_insetSide hconvex h.area)
      (List.map_fst_zip h.length_result.ge) ((h.ordered_iff hconvex).mpr hfits) hedgeMem hcornerMem
    dsimp only at hinner
    rw [dot_sub, mul_sub] at hinner
    have hfrom : insetSide polygon * Plane.dot (turn (b' - a'))
        (insetCorner (insetSide polygon) margin (a0, a', b')) =
          insetSide polygon * Plane.dot (turn (b' - a')) a' +
            margin * hypot (b'.1 - a'.1) (b'.2 - a'.2) := by
      have hself := insetSide_mul_self polygon
      rw [det_eq_dot_turn, dot_sub] at hcorner
      linear_combination insetSide polygon * hcorner +
        margin * hypot (b'.1 - a'.1) (b'.2 - a'.2) * hself
    rw [smul_dot]
    linarith
  rw [smul_dot] at hle
  rw [orient_eq_dot, mul_sub]
  linarith

end InsetCorners

theorem abs_side_mul (x : ℝ) : |insetSide polygon * x| = |x| := by
  unfold insetSide
  split_ifs <;> simp

/-- When no edge is too short, the inset is sound. -/
theorem InsetCorners.sound (h : InsetCorners polygon margin result) (hconvex : IsConvex polygon)
    (hfits : InsetFits polygon margin) : InsetSound polygon margin result := by
  refine ⟨fun x hx => ?_, fun x hx edge hedge => ?_, h.length_result,
    (h.ordered_iff hconvex).mpr hfits⟩
  · have hside := mul_self_eq_one_iff.mp (insetSide_mul_self polygon)
    apply hconvex.mem_region_of_inner hside
    intro a b hab
    have hpos := mul_nonneg h.margin_pos.le (h.edge_pos hab).le
    exact hpos.trans (h.margin_le hconvex hfits hab hx)
  · obtain ⟨a, b⟩ := edge
    have hab : (a, b) ∈ neighbours polygon := hedge
    unfold lineDistance
    rw [le_div_iff₀ (h.edge_pos hab)]
    calc margin * hypot (b.1 - a.1) (b.2 - a.2) ≤ insetSide polygon * orient a b x :=
          h.margin_le hconvex hfits hab hx
      _ ≤ |insetSide polygon * orient a b x| := le_abs_self _
      _ = |det (b - a) (x - a)| := abs_side_mul _

/-- The inset is at its margin within a convex field exactly when no edge is shorter than
what the margin takes off at its two ends. -/
theorem insetConvexPolygon_sound (hconvex : IsConvex polygon)
    (h : insetConvexPolygon polygon margin = .ok result) :
    InsetSound polygon margin result ↔ InsetFits polygon margin := by
  rcases insetConvexPolygon_ok h with ⟨rfl, rfl⟩ | hcorners
  · refine iff_of_true ⟨fun x hx => hx, fun x _ edge _ => ?_, rfl, ?_⟩ fun pair _ => ?_
    · exact div_nonneg (abs_nonneg _) (Real.sqrt_nonneg _)
    · have hzip : result.zip result = result.map fun v => (v, v) := by
        simpa using List.zip_map' (f := id) (g := id) (l := result)
      rw [hzip, neighbours_map, List.forall_mem_map]
      exact fun e _ => ⟨1, zero_le_one, (one_smul ℝ _).symm⟩
    · rw [zero_mul]
      exact Real.sqrt_nonneg _
  · exact ⟨fun hsound => (hcorners.ordered_iff hconvex).mp hsound.ordered, hcorners.sound hconvex⟩

end Inset

/-! ## A rectangle -/

theorem sublist_of_four {α : Type*} {a b c d x y z : α} (h : [x, y, z].Sublist [a, b, c, d]) :
    [x, y, z] = [b, c, d] ∨ [x, y, z] = [a, c, d] ∨ [x, y, z] = [a, b, d] ∨
      [x, y, z] = [a, b, c] := by
  cases h with
  | cons _ h => exact .inl (h.eq_of_length rfl)
  | cons_cons _ h =>
    cases h with
    | cons _ h => exact .inr (.inl (congrArg (List.cons _) (h.eq_of_length rfl)))
    | cons_cons _ h =>
      have hmem := List.singleton_sublist.mp h
      simp only [List.mem_cons, List.not_mem_nil, or_false] at hmem
      rcases hmem with rfl | rfl
      · exact .inr (.inr (.inr rfl))
      · exact .inr (.inr (.inl rfl))

/-- A field of ten by six. -/
noncomputable def rectangle : List (Point2 ℝ) := [(0, 0), (10, 0), (10, 6), (0, 6)]

theorem rectangle_convex : IsConvex rectangle := by
  constructor
  · left
    intro a b c hsub
    rcases sublist_of_four hsub with h | h | h | h
    all_goals
      simp only [List.cons.injEq] at h
      obtain ⟨rfl, rfl, rfl, -⟩ := h
      norm_num [orient, det]
  · refine ⟨(0, 0), (10, 0), (10, 6), by simp [rectangle], ?_⟩
    norm_num [orient, det]

theorem hypot_zero_right (x : ℝ) : hypot x 0 = |x| := by
  have hsqrt : hypot x 0 = √(x * x + 0 * 0) := rfl
  rw [hsqrt, zero_mul, add_zero, Real.sqrt_mul_self_eq_abs]

theorem hypot_zero_left (x : ℝ) : hypot 0 x = |x| := by
  have hsqrt : hypot 0 x = √(0 * 0 + x * x) := rfl
  rw [hsqrt, zero_mul, zero_add, Real.sqrt_mul_self_eq_abs]

/-- The edges of the rectangle, moved inward. -/
noncomputable def movedSides (margin : ℝ) : List (Point2 ℝ × Point2 ℝ) :=
  [((0, margin), (10, 0)), ((10 - margin, 0), (0, 6)), ((10, 6 - margin), (-10, 0)),
    ((margin, 6), (0, -6))]

theorem shift_rectangle (margin : ℝ) :
    (polygonEdges rectangle).mapM (shiftEdge 1 margin) = .ok (movedSides margin) := by
  have hedges : polygonEdges rectangle = [((0, 0), (10, 0)), ((10, 0), (10, 6)),
      ((10, 6), (0, 6)), ((0, 6), (0, 0))] := rfl
  rw [hedges, Outcome.mapM_eq_ok]
  refine .cons ?_ (.cons ?_ (.cons ?_ (.cons ?_ .nil)))
  all_goals
    rw [shiftEdge_eq_ok]
    norm_num [movedEdge, hypot_zero_left, hypot_zero_right]
  all_goals
    ring

theorem inset_rectangle (margin : ℝ) (hpos : 0 < margin)
    (harea : 1 / 10 ^ 6 < |2 * ((10 - 2 * margin) * (6 - 2 * margin))|) :
    insetConvexPolygon rectangle margin =
      .ok [(margin, margin), (10 - margin, margin), (10 - margin, 6 - margin),
        (margin, 6 - margin)] := by
  have hside : (if area2 rectangle > 0 then 1 else -1) = (1 : ℝ) := by
    norm_num [area2, polygonEdges, rectangle]
  have hlarge : ¬|area2 rectangle| ≤ 1 / 10 ^ 9 := by
    norm_num [area2, polygonEdges, rectangle]
  have hmeet : (((movedSides margin).rotate ((movedSides margin).length - 1)).zip
      (movedSides margin)).mapM (fun x => meetEdges x.1 x.2) =
        .ok [(margin, margin), (10 - margin, margin), (10 - margin, 6 - margin),
          (margin, 6 - margin)] := by
    have hpairs : ((movedSides margin).rotate ((movedSides margin).length - 1)).zip
        (movedSides margin) = [(((margin, 6), (0, -6)), ((0, margin), (10, 0))),
          (((0, margin), (10, 0)), ((10 - margin, 0), (0, 6))),
          (((10 - margin, 0), (0, 6)), ((10, 6 - margin), (-10, 0))),
          (((10, 6 - margin), (-10, 0)), ((margin, 6), (0, -6)))] := rfl
    rw [hpairs]
    rw [Outcome.mapM_eq_ok]
    refine .cons ?_ (.cons ?_ (.cons ?_ (.cons ?_ .nil)))
    all_goals
      rw [meetEdges_eq_ok]
      norm_num [meetingPoint, det]
    all_goals
      try ring
  have hresult : ¬|area2 [(margin, margin), (10 - margin, margin), (10 - margin, 6 - margin),
      (margin, 6 - margin)]| ≤ 1 / 10 ^ 6 := by
    have heq : area2 [(margin, margin), (10 - margin, margin), (10 - margin, 6 - margin),
        (margin, 6 - margin)] = 2 * ((10 - 2 * margin) * (6 - 2 * margin)) := by
      simp [area2, polygonEdges]
      ring
    rw [heq]
    exact harea.not_ge
  unfold insetConvexPolygon
  simp only [bind, Except.bind, pure, Except.pure, throw, throwThe, MonadExceptOf.throw, hside]
  rw [if_neg (by simp [rectangle]), if_neg hpos.not_gt, if_neg hpos.ne', if_neg hlarge,
    shift_rectangle]
  dsimp only
  rw [hmeet]
  exact if_neg hresult

/-- The inset of a rectangle at a margin of one. -/
theorem insetConvexPolygon_sound_rectangle :
    InsetSound rectangle 1 [(1, 1), (9, 1), (9, 5), (1, 5)] := by
  have hinset : insetConvexPolygon rectangle 1 = .ok [(1, 1), (9, 1), (9, 5), (1, 5)] := by
    have h := inset_rectangle 1 one_pos (by norm_num)
    norm_num at h
    exact h
  have hpairs : neighbours (cornersOf rectangle) =
      [(((0, 6), (0, 0), (10, 0)), ((0, 0), (10, 0), (10, 6))),
        (((0, 0), (10, 0), (10, 6)), ((10, 0), (10, 6), (0, 6))),
        (((10, 0), (10, 6), (0, 6)), ((10, 6), (0, 6), (0, 0))),
        (((10, 6), (0, 6), (0, 0)), ((0, 6), (0, 0), (10, 0)))] := rfl
  rw [insetConvexPolygon_sound rectangle_convex hinset, InsetFits, hpairs]
  intro pair hpair
  simp only [List.mem_cons, List.not_mem_nil, or_false] at hpair
  rcases hpair with rfl | rfl | rfl | rfl <;>
    norm_num [cornerTan, Plane.dot, det, hypot_zero_left, hypot_zero_right]

/-- A margin of four turns the rectangle over, and the check of its area does not notice. -/
theorem margin_turns_over : ¬∀ (polygon result : List (Point2 ℝ)) (margin : ℝ),
    IsConvex polygon → 0 ≤ margin → insetConvexPolygon polygon margin = .ok result →
      InsetSound polygon margin result := by
  intro h
  have hinset := inset_rectangle 4 (by norm_num) (by norm_num)
  have hsound := h _ _ _ rectangle_convex (by norm_num) hinset
  have hclear := hsound.clear (4, 4) (corner_mem_region (by norm_num)) ((10, 6), (0, 6))
    (by simp [polygonEdges, rectangle])
  norm_num [lineDistance, det, hypot_zero_right] at hclear

end Mission10.Engine
