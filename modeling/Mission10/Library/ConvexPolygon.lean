import Mathlib.Analysis.Convex.Hull
import Mission10.Library.CyclicList
import Mission10.Library.Plane

/-!
# Convex polygons

A polygon is the list of its corners along the perimeter. It is convex when any
three corners, taken in that order, turn to the same side. The closed polygon is
the convex hull of the corners. A line meets the perimeter of a convex polygon at
one place on the way up and at one place on the way down, and the closed polygon
lies between the two.
-/
set_option linter.unusedSectionVars false

namespace ConvexPolygon

open Plane CyclicList

variable {K : Type*} [Field K]

/-- Positive when the way from the first point over the second to the third
turns to the left. -/
def orient (a b c : K × K) : K := det (b - a) (c - a)

theorem orient_rotate (a b c : K × K) : orient b c a = orient a b c := by
  simp only [orient, det, Prod.fst_sub, Prod.snd_sub]
  ring

@[simp] theorem orient_left (a b : K × K) : orient a b a = 0 := by
  simp [orient, det]

@[simp] theorem orient_right (a b : K × K) : orient a b b = 0 := by
  simp only [orient, det]
  ring

/-- Seen from an edge the turn is an affine function of the third point. -/
theorem orient_eq_dot (a b v : K × K) :
    orient a b v = dot (turn (b - a)) v - dot (turn (b - a)) a := by
  simp only [orient, det, dot, turn, Prod.fst_sub, Prod.snd_sub]
  ring

theorem orient_sum (a b c d : K × K) :
    orient b c d + orient a b d = orient a c d + orient a b c := by
  simp only [orient, det, Prod.fst_sub, Prod.snd_sub]
  ring

/-- Four points have an affine dependence with their turns as weights. -/
theorem orient_dependence (n a b c d : K × K) :
    orient b c d * dot n a + orient a b d * dot n c =
      orient a c d * dot n b + orient a b c * dot n d := by
  simp only [orient, det, dot, Prod.fst_sub, Prod.snd_sub]
  ring

/-- Two points on a line are turned away from as the line is, scaled by the way
between them. -/
theorem orient_on_line (n : K × K) {a b x y : K × K} (q : K × K) (hx : orient a b x = 0)
    (hy : orient a b y = 0) :
    (dot n b - dot n a) * orient x y q = (dot n y - dot n x) * orient a b q := by
  simp only [orient, det, dot, Prod.fst_sub, Prod.snd_sub] at hx hy ⊢
  linear_combination
    (-(n.1 * (y.1 - x.1) + n.2 * (y.2 - x.2)) +
      (n.2 * (q.2 - x.2) + n.1 * (q.1 - x.1))) * hx -
    (n.2 * (q.2 - x.2) + n.1 * (q.1 - x.1)) * hy

variable [LinearOrder K] [IsStrictOrderedRing K]

/-- Any three corners in order turn to the given side: to the left for `1`, to
the right for `-1`. -/
def Turns (side : K) (polygon : List (K × K)) : Prop :=
  ∀ a b c, [a, b, c].Sublist polygon → 0 ≤ side * orient a b c

/-- The corners of a convex polygon along its perimeter, in either direction. -/
structure IsConvex (polygon : List (K × K)) : Prop where
  turns : Turns 1 polygon ∨ Turns (-1) polygon
  spread : ∃ a b c, [a, b, c].Sublist polygon ∧ orient a b c ≠ 0

/-- The closed polygon. -/
def region (polygon : List (K × K)) : Set (K × K) := convexHull K {v | v ∈ polygon}

/-- A point of the perimeter. -/
def OnPerimeter (polygon : List (K × K)) (x : K × K) : Prop :=
  ∃ a b, (a, b) ∈ neighbours polygon ∧ ∃ u : K, 0 ≤ u ∧ u ≤ 1 ∧ x = a + u • (b - a)

variable {polygon : List (K × K)} {n x : K × K}

/-! ### The closed polygon -/

theorem corner_mem_region {v : K × K} (hv : v ∈ polygon) : v ∈ region polygon :=
  subset_convexHull K _ hv

theorem convex_region : Convex K (region polygon) := convex_convexHull K _

theorem OnPerimeter.mem_region (h : OnPerimeter polygon x) : x ∈ region polygon := by
  obtain ⟨a, b, hab, u, hu, hu', rfl⟩ := h
  obtain ⟨ha, hb⟩ := mem_of_mem_neighbours hab
  have hmid := convex_region (corner_mem_region ha) (corner_mem_region hb) (sub_nonneg.mpr hu') hu
    (sub_add_cancel 1 u)
  have heq : a + u • (b - a) = (1 - u) • a + u • b := by
    rw [smul_sub, sub_smul, one_smul]
    abel
  rwa [heq]

theorem onPerimeter_corner {v : K × K} (hv : v ∈ polygon) : OnPerimeter polygon v := by
  obtain ⟨b, hb⟩ := exists_neighbour hv
  exact ⟨v, b, hb, 0, le_rfl, zero_le_one, by simp⟩

theorem le_dot_of_mem {c : K} (hx : x ∈ region polygon) (h : ∀ v ∈ polygon, c ≤ dot n v) :
    c ≤ dot n x :=
  convexHull_min (fun v hv => h v hv) (convex_halfPlane n c) hx

theorem exists_dot_le (hx : x ∈ region polygon) : ∃ v ∈ polygon, dot n v ≤ dot n x := by
  by_contra hnone
  push Not at hnone
  have hconvex : Convex K {w : K × K | dot n x < dot n w} := by
    intro v hv w hw s t hs ht hst
    simp only [Set.mem_ofPred_eq, dot_add, dot_smul] at hv hw ⊢
    rcases hs.eq_or_lt with rfl | hs
    · obtain rfl : t = 1 := by simpa using hst
      simpa using hw
    · have hleft := mul_lt_mul_of_pos_left hv hs
      have hright := mul_le_mul_of_nonneg_left hw.le ht
      calc dot n x = s * dot n x + t * dot n x := by rw [← add_mul, hst, one_mul]
        _ < s * dot n v + t * dot n w := add_lt_add_of_lt_of_le hleft hright
  exact lt_irrefl _ (convexHull_min (fun v hv => hnone v hv) hconvex hx)

theorem exists_le_dot (hx : x ∈ region polygon) : ∃ v ∈ polygon, dot n x ≤ dot n v := by
  have hneg : ∃ v ∈ polygon, dot (-n) v ≤ dot (-n) x := exists_dot_le hx
  simpa using hneg

/-- The closed polygon lies to the inner side of every edge. -/
theorem Turns.edge_le {side : K} (h : Turns side polygon) {a b : K × K}
    (hab : (a, b) ∈ neighbours polygon) (hx : x ∈ region polygon) : 0 ≤ side * orient a b x := by
  have hcorner : ∀ v ∈ polygon, 0 ≤ side * orient a b v := by
    intro v hv
    rcases order_of_neighbours hab hv with rfl | rfl | hsub | hsub | hsub
    · simp
    · simp
    · rw [orient_rotate v a b]
      exact h v a b hsub
    · exact h a b v hsub
    · rw [← orient_rotate a b v]
      exact h b v a hsub
  have hle : dot (side • turn (b - a)) a ≤ dot (side • turn (b - a)) x := by
    apply le_dot_of_mem hx
    intro v hv
    have hv := hcorner v hv
    rw [orient_eq_dot, mul_sub] at hv
    rw [smul_dot, smul_dot]
    exact sub_nonneg.mp hv
  rw [smul_dot, smul_dot] at hle
  rw [orient_eq_dot, mul_sub]
  exact sub_nonneg.mpr hle

/-! ### The perimeter turns back once -/

/-- A corner off the line through two corners. -/
theorem exists_off_line {a b c i j : K × K} (hab : a ∈ polygon) (hb : b ∈ polygon)
    (hc : c ∈ polygon) (hspread : orient a b c ≠ 0) (hij : dot n i < dot n j) :
    ∃ q ∈ polygon, orient i j q ≠ 0 := by
  by_contra hnone
  push Not at hnone
  have hgap : dot n j - dot n i ≠ 0 := (sub_pos.mpr hij).ne'
  have hline := orient_on_line n c (hnone a hab) (hnone b hb)
  rw [hnone c hc, mul_zero] at hline
  exact hspread ((mul_eq_zero.mp hline).resolve_left hgap)

/-- Four corners in order, of which the second and the fourth lie beyond the
first and the third, all lie on one line. -/
theorem Turns.flat {side : K} (h : Turns side polygon) {i j k l : K × K}
    (hsub : [i, j, k, l].Sublist polygon) {low high : K} (hlow : low < high)
    (hi : dot n i ≤ low) (hk : dot n k ≤ low) (hj : high ≤ dot n j) (hl : high ≤ dot n l) :
    side * orient i j k = 0 ∧ side * orient i j l = 0 := by
  have hjkl := h j k l ((List.sublist_cons_self i _).trans hsub)
  have hikl := h i k l (.trans (.cons_cons i (.cons j (.refl [k, l]))) hsub)
  have hijl := h i j l (.trans (.cons_cons i (.cons_cons j (.cons k (.refl [l])))) hsub)
  have hijk := h i j k (.trans (List.sublist_append_left [i, j, k] [l]) hsub)
  have hsum := congrArg (side * ·) (orient_sum i j k l)
  have hdep := congrArg (side * ·) (orient_dependence n i j k l)
  simp only [mul_add, ← mul_assoc] at hsum hdep
  have h1 := mul_le_mul_of_nonneg_left hi hjkl
  have h2 := mul_le_mul_of_nonneg_left hk hijl
  have h3 := mul_le_mul_of_nonneg_left hj hikl
  have h4 := mul_le_mul_of_nonneg_left hl hijk
  have hzero : (side * orient i k l + side * orient i j k) * (high - low) ≤ 0 := by
    have hless : (side * orient i k l + side * orient i j k) * high ≤
        (side * orient j k l + side * orient i j l) * low := by linarith
    rw [hsum] at hless
    linarith
  have hnone : side * orient i k l + side * orient i j k ≤ 0 :=
    nonpos_of_mul_nonpos_left hzero (sub_pos.mpr hlow)
  constructor <;> linarith

/-- An entry is one of four in order, or takes one of five places among them. -/
theorem place_among_four {l : List (K × K)} {i j k m q : K × K}
    (h : [i, j, k, m].Sublist l) (hq : q ∈ l) :
    q ∈ [i, j, k, m] ∨ [q, i, j].Sublist l ∧ [q, j, k].Sublist l ∨
      [q, j, k].Sublist l ∧ [q, k, m].Sublist l ∨ [i, j, q].Sublist l ∧ [i, q, m].Sublist l ∨
      [i, j, q].Sublist l ∧ [j, k, q].Sublist l := by
  rcases mem_or_insert h hq with hin | ⟨front, back, hs, hsub⟩
  · exact .inl hin
  · right
    rcases front with _ | ⟨i', _ | ⟨j', _ | ⟨k', _ | ⟨m', front⟩⟩⟩⟩
    · left
      simp only [List.nil_append] at hs hsub
      subst hs
      exact ⟨.trans (by simp) hsub, .trans (by simp) hsub⟩
    · right; left
      simp only [List.cons_append, List.nil_append, List.cons.injEq] at hs hsub
      obtain ⟨rfl, rfl⟩ := hs
      exact ⟨.trans (by simp) hsub, .trans (by simp) hsub⟩
    · right; right; left
      simp only [List.cons_append, List.nil_append, List.cons.injEq] at hs hsub
      obtain ⟨rfl, rfl, rfl⟩ := hs
      exact ⟨.trans (by simp) hsub, .trans (by simp) hsub⟩
    · right; right; right
      simp only [List.cons_append, List.nil_append, List.cons.injEq] at hs hsub
      obtain ⟨rfl, rfl, rfl, rfl⟩ := hs
      exact ⟨.trans (by simp) hsub, .trans (by simp) hsub⟩
    · right; right; right
      simp only [List.cons_append, List.cons.injEq] at hs hsub
      obtain ⟨rfl, rfl, rfl, rfl, -⟩ := hs
      exact ⟨.trans (by simp) hsub, .trans (by simp) hsub⟩

theorem ascends_of_turn {side : K} {i j x y q : K × K} (hij : dot n i < dot n j)
    (hx : orient i j x = 0) (hy : orient i j y = 0) (hxy : dot n x < dot n y)
    (hturn : 0 ≤ side * orient x y q) : 0 ≤ side * orient i j q := by
  have hline := congrArg (side * ·) (orient_on_line n q hx hy)
  have hprod : 0 ≤ (dot n y - dot n x) * (side * orient i j q) := by
    calc 0 ≤ (dot n j - dot n i) * (side * orient x y q) :=
          mul_nonneg (sub_nonneg.mpr hij.le) hturn
      _ = (dot n y - dot n x) * (side * orient i j q) := by linear_combination hline
  exact nonneg_of_mul_nonneg_right hprod (sub_pos.mpr hxy)

theorem descends_of_turn {side : K} {i j x y q : K × K} (hij : dot n i < dot n j)
    (hx : orient i j x = 0) (hy : orient i j y = 0) (hxy : dot n y < dot n x)
    (hturn : 0 ≤ side * orient x y q) : side * orient i j q ≤ 0 := by
  have hback : orient x y q = -orient y x q := by
    simp only [orient, det, Prod.fst_sub, Prod.snd_sub]
    ring
  have hline := congrArg (side * ·) (orient_on_line n q hx hy)
  have hprod : 0 ≤ (dot n y - dot n x) * (side * orient i j q) := by
    calc 0 ≤ (dot n j - dot n i) * (side * orient x y q) :=
          mul_nonneg (sub_nonneg.mpr hij.le) hturn
      _ = (dot n y - dot n x) * (side * orient i j q) := by linear_combination hline
  exact nonpos_of_mul_nonneg_right hprod (sub_neg.mpr hxy)

/-- Along a convex perimeter a linear function does not go up twice. -/
theorem IsConvex.not_alternating (h : IsConvex polygon) {i j k l : K × K}
    (hsub : [i, j, k, l].Sublist polygon) {low high : K} (hlow : low < high)
    (hi : dot n i ≤ low) (hk : dot n k ≤ low) (hj : high ≤ dot n j) (hl : high ≤ dot n l) :
    False := by
  obtain ⟨side, hside, hturns⟩ : ∃ side : K, side ≠ 0 ∧ Turns side polygon := by
    rcases h.turns with hturns | hturns
    · exact ⟨1, one_ne_zero, hturns⟩
    · exact ⟨-1, neg_ne_zero.mpr one_ne_zero, hturns⟩
  have hij : dot n i < dot n j := by linarith
  have hkj : dot n k < dot n j := by linarith
  have hkl : dot n k < dot n l := by linarith
  have hil : dot n i < dot n l := by linarith
  obtain ⟨hflatk, hflatl⟩ := hturns.flat hsub hlow hi hk hj hl
  have hk0 := (mul_eq_zero.mp hflatk).resolve_left hside
  have hl0 := (mul_eq_zero.mp hflatl).resolve_left hside
  obtain ⟨a, b, c, habc, hspread⟩ := h.spread
  obtain ⟨q, hq, hoff⟩ := exists_off_line (habc.subset (by simp)) (habc.subset (by simp))
    (habc.subset (by simp)) hspread hij
  have hcontra (hup : 0 ≤ side * orient i j q) (hdown : side * orient i j q ≤ 0) : False :=
    mul_ne_zero hside hoff (le_antisymm hdown hup)
  -- wherever the corner off the line stands, two triples turn against each other
  rcases place_among_four hsub hq with hin | ⟨h1, h2⟩ | ⟨h1, h2⟩ | ⟨h1, h2⟩ | ⟨h1, h2⟩
  · simp only [List.mem_cons, List.not_mem_nil, or_false] at hin
    rcases hin with rfl | rfl | rfl | rfl <;> simp_all
  · apply hcontra
    · exact ascends_of_turn hij (orient_left i j) (orient_right i j) hij
        (orient_rotate q i j ▸ hturns q i j h1)
    · exact descends_of_turn hij (orient_right i j) hk0 hkj
        (orient_rotate q j k ▸ hturns q j k h2)
  · apply hcontra
    · exact ascends_of_turn hij hk0 hl0 hkl (orient_rotate q k l ▸ hturns q k l h2)
    · exact descends_of_turn hij (orient_right i j) hk0 hkj
        (orient_rotate q j k ▸ hturns q j k h1)
  · apply hcontra
    · exact hturns i j q h1
    · have hturn := hturns i q l h2
      rw [← orient_rotate, ← orient_rotate] at hturn
      exact descends_of_turn hij hl0 (orient_left i j) hil hturn
  · apply hcontra
    · exact hturns i j q h1
    · exact descends_of_turn hij (orient_right i j) hk0 hkj (hturns j k q h2)

/-! ### Crossings of a line -/

/-- The point lies beyond the line at the given level. -/
def above (n : K × K) (level : K) (v : K × K) : Bool := decide (level < dot n v)

theorem not_alternates_above (h : IsConvex polygon) (n : K × K) (level : K) :
    ¬ Alternates (above n level) polygon := by
  rintro ⟨a, b, c, d, hsub, ha, hb, hc, hd⟩
  simp only [above, decide_eq_false_iff_not, decide_eq_true_eq, not_lt] at ha hb hc hd
  have hlow : level < min (dot n b) (dot n d) := lt_min hb hd
  exact h.not_alternating hsub hlow ha hc (min_le_left _ _) (min_le_right _ _)

theorem not_alternates_below (h : IsConvex polygon) (n : K × K) (level : K) :
    ¬ Alternates (fun v => !above n level v) polygon := by
  rintro ⟨a, b, c, d, hsub, ha, hb, hc, hd⟩
  simp only [above, Bool.not_eq_true', Bool.not_eq_false', decide_eq_false_iff_not,
    decide_eq_true_eq, not_lt] at ha hb hc hd
  have hlow : max (dot n b) (dot n d) < min (dot n a) (dot n c) :=
    lt_min (max_lt (hb.trans_lt ha) (hd.trans_lt ha)) (max_lt (hb.trans_lt hc) (hd.trans_lt hc))
  have hneg : -min (dot n a) (dot n c) < -max (dot n b) (dot n d) := neg_lt_neg hlow
  apply h.not_alternating hsub hneg <;> rw [neg_dot]
  · exact neg_le_neg (min_le_left _ _)
  · exact neg_le_neg (min_le_right _ _)
  · exact neg_le_neg (le_max_left _ _)
  · exact neg_le_neg (le_max_right _ _)

/-- The perimeter crosses a line once on the way up. -/
theorem IsConvex.count_up (h : IsConvex polygon) {level : K}
    (hover : ∃ v ∈ polygon, level < dot n v) (hunder : ∃ v ∈ polygon, dot n v ≤ level) :
    (neighbours polygon).countP (rises (above n level)) = 1 := by
  apply count_rises (not_alternates_above h n level) (not_alternates_below h n level)
  · simpa [above] using hover
  · simpa [above] using hunder

/-- It crosses it once on the way down. -/
theorem IsConvex.count_down (h : IsConvex polygon) {level : K}
    (hover : ∃ v ∈ polygon, level < dot n v) (hunder : ∃ v ∈ polygon, dot n v ≤ level) :
    (neighbours polygon).countP (rises fun v => !above n level v) = 1 := by
  apply count_rises (not_alternates_below h n level)
  · simpa using not_alternates_above h n level
  · simpa [above] using hunder
  · simpa [above] using hover

/-- Where the line through an edge reaches a level. -/
def crossing (n : K × K) (level : K) (edge : (K × K) × (K × K)) : K × K :=
  edge.1 + ((level - dot n edge.1) / (dot n edge.2 - dot n edge.1)) • (edge.2 - edge.1)

theorem dot_crossing {level : K} {a b : K × K} (hab : dot n a ≠ dot n b) :
    dot n (crossing n level (a, b)) = level := by
  have hne : dot n b - dot n a ≠ 0 := sub_ne_zero.mpr hab.symm
  simp only [crossing, dot_add, dot_smul, dot_sub]
  rw [div_mul_cancel₀ _ hne, add_sub_cancel]

/-- The ends of the edge lie to both sides of the level. -/
def Across (n : K × K) (level : K) (edge : (K × K) × (K × K)) : Prop :=
  dot n edge.1 ≤ level ∧ level < dot n edge.2 ∨ dot n edge.2 ≤ level ∧ level < dot n edge.1

theorem Across.ne {level : K} {a b : K × K} (h : Across n level (a, b)) : dot n a ≠ dot n b := by
  rcases h with ⟨ha, hb⟩ | ⟨hb, ha⟩
  · exact (ha.trans_lt hb).ne
  · exact (hb.trans_lt ha).ne'

/-- Such an edge is crossed between its ends. -/
theorem Across.unit {level : K} {a b : K × K} (h : Across n level (a, b)) :
    0 ≤ (level - dot n a) / (dot n b - dot n a) ∧
      (level - dot n a) / (dot n b - dot n a) ≤ 1 := by
  rcases h with ⟨ha, hb⟩ | ⟨hb, ha⟩
  · exact ⟨div_nonneg (sub_nonneg.mpr ha) (sub_nonneg.mpr (ha.trans hb.le)),
      (div_le_one (sub_pos.mpr (ha.trans_lt hb))).mpr (sub_le_sub_right hb.le _)⟩
  · exact ⟨div_nonneg_of_nonpos (sub_nonpos.mpr ha.le) (sub_nonpos.mpr (hb.trans ha.le)),
      (div_le_one_of_neg (sub_neg.mpr (hb.trans_lt ha))).mpr (sub_le_sub_right hb _)⟩

theorem Across.onPerimeter {level : K} {a b : K × K} (h : Across n level (a, b))
    (hab : (a, b) ∈ neighbours polygon) : OnPerimeter polygon (crossing n level (a, b)) :=
  ⟨a, b, hab, (level - dot n a) / (dot n b - dot n a), h.unit.1, h.unit.2, rfl⟩

variable {f : K × K}

theorem eq_of_dots (hf : normSq f = 1) {y : K × K} (h : dot f x = dot f y)
    (hturn : dot (turn f) x = dot (turn f) y) : x = y := by
  rw [frame hf x, frame hf y, h, hturn]

/-- Between two points of the closed polygon on one level there are only more. -/
theorem mem_region_of_between (hf : normSq f = 1) {a b : K × K} (ha : a ∈ region polygon)
    (hb : b ∈ region polygon) (hlevel : dot (turn f) b = dot (turn f) a)
    (hx : dot (turn f) x = dot (turn f) a) (hlt : dot f a < dot f b) (hax : dot f a ≤ dot f x)
    (hxb : dot f x ≤ dot f b) : x ∈ region polygon := by
  have hgap : 0 < dot f b - dot f a := sub_pos.mpr hlt
  have hsum : (dot f b - dot f x) / (dot f b - dot f a) +
      (dot f x - dot f a) / (dot f b - dot f a) = 1 := by
    rw [← add_div, sub_add_sub_cancel, div_self hgap.ne']
  have hmid := convex_region ha hb (div_nonneg (sub_nonneg.mpr hxb) hgap.le)
    (div_nonneg (sub_nonneg.mpr hax) hgap.le) hsum
  have heq : x = ((dot f b - dot f x) / (dot f b - dot f a)) • a +
      ((dot f x - dot f a) / (dot f b - dot f a)) • b := by
    apply eq_of_dots hf
    · rw [dot_add, dot_smul, dot_smul]
      have hne := hgap.ne'
      field_simp
      ring
    · rw [dot_add, dot_smul, dot_smul, hlevel, ← add_mul, hsum, one_mul, hx]
  exact heq ▸ hmid


/-- A point at a level, seen from an edge, by its way from where the edge crosses
the level. -/
theorem orient_at_level (hf : normSq f = 1) {a b : K × K} (hab : dot (turn f) a ≠ dot (turn f) b) :
    orient a b x = (dot (turn f) b - dot (turn f) a) *
      (dot f (crossing (turn f) (dot (turn f) x) (a, b)) - dot f x) := by
  have hne : dot (turn f) b - dot (turn f) a ≠ 0 := sub_ne_zero.mpr hab.symm
  have hframe : orient a b x = (dot (turn f) b - dot (turn f) a) * (dot f a - dot f x) +
      (dot (turn f) x - dot (turn f) a) * (dot f b - dot f a) := by
    simp only [normSq, dot] at hf
    simp only [orient, det, dot, turn, Prod.fst_sub, Prod.snd_sub]
    linear_combination (-((b.1 - a.1) * (x.2 - a.2) - (b.2 - a.2) * (x.1 - a.1))) * hf
  rw [hframe, crossing, dot_add, dot_smul, dot_sub]
  field_simp
  ring

/-- Every point of the closed polygon lies to the inner side of a crossing. -/
theorem Turns.crossing_up {side : K} (h : Turns side polygon) (hf : normSq f = 1)
    (hx : x ∈ region polygon) {a b : K × K} (hab : (a, b) ∈ neighbours polygon)
    (hup : dot (turn f) a < dot (turn f) b) :
    side * dot f x ≤ side * dot f (crossing (turn f) (dot (turn f) x) (a, b)) := by
  have hedge := h.edge_le hab hx
  rw [orient_at_level hf hup.ne, mul_left_comm] at hedge
  have hinner := nonneg_of_mul_nonneg_right hedge (sub_pos.mpr hup)
  rwa [mul_sub, sub_nonneg] at hinner

theorem Turns.crossing_down {side : K} (h : Turns side polygon) (hf : normSq f = 1)
    (hx : x ∈ region polygon) {a b : K × K} (hab : (a, b) ∈ neighbours polygon)
    (hdown : dot (turn f) b < dot (turn f) a) :
    side * dot f (crossing (turn f) (dot (turn f) x) (a, b)) ≤ side * dot f x := by
  have hedge := h.edge_le hab hx
  rw [orient_at_level hf hdown.ne', mul_left_comm] at hedge
  have hinner := nonpos_of_mul_nonneg_right hedge (sub_neg.mpr hdown)
  rwa [mul_sub, sub_nonpos] at hinner

theorem IsConvex.exists_up (h : IsConvex polygon) {level : K}
    (hover : ∃ v ∈ polygon, level < dot n v) (hunder : ∃ v ∈ polygon, dot n v ≤ level) :
    ∃ a b, (a, b) ∈ neighbours polygon ∧ dot n a ≤ level ∧ level < dot n b := by
  have hone := h.count_up hover hunder
  obtain ⟨⟨a, b⟩, hab, hrise⟩ := List.countP_pos_iff.mp (hone ▸ Nat.one_pos)
  simp only [rises, above, Bool.and_eq_true, Bool.not_eq_true', decide_eq_true_eq,
    decide_eq_false_iff_not, not_lt] at hrise
  exact ⟨a, b, hab, hrise.1, hrise.2⟩

theorem IsConvex.exists_down (h : IsConvex polygon) {level : K}
    (hover : ∃ v ∈ polygon, level < dot n v) (hunder : ∃ v ∈ polygon, dot n v ≤ level) :
    ∃ a b, (a, b) ∈ neighbours polygon ∧ dot n b ≤ level ∧ level < dot n a := by
  have hone := h.count_down hover hunder
  obtain ⟨⟨a, b⟩, hab, hrise⟩ := List.countP_pos_iff.mp (hone ▸ Nat.one_pos)
  simp only [rises, above, Bool.and_eq_true, Bool.not_eq_true', Bool.not_eq_false',
    decide_eq_true_eq, decide_eq_false_iff_not, not_lt] at hrise
  exact ⟨a, b, hab, hrise.2, hrise.1⟩

/-- A point below the topmost corner lies between two crossings of its level. -/
theorem IsConvex.between_crossings (h : IsConvex polygon) (hf : normSq f = 1)
    (hx : x ∈ region polygon) (hover : ∃ v ∈ polygon, dot (turn f) x < dot (turn f) v) :
    ∃ edge edge', edge ∈ neighbours polygon ∧ edge' ∈ neighbours polygon ∧
      Across (turn f) (dot (turn f) x) edge ∧ Across (turn f) (dot (turn f) x) edge' ∧
      dot f (crossing (turn f) (dot (turn f) x) edge) ≤ dot f x ∧
      dot f x ≤ dot f (crossing (turn f) (dot (turn f) x) edge') := by
  obtain ⟨a, b, hab, ha, hb⟩ := h.exists_up hover (exists_dot_le hx)
  obtain ⟨c, d, hcd, hd, hc⟩ := h.exists_down hover (exists_dot_le hx)
  have hup := ha.trans_lt hb
  have hdown := hd.trans_lt hc
  rcases h.turns with hturns | hturns
  · have h1 := hturns.crossing_up hf hx hab hup
    have h2 := hturns.crossing_down hf hx hcd hdown
    rw [one_mul, one_mul] at h1 h2
    exact ⟨(c, d), (a, b), hcd, hab, .inr ⟨hd, hc⟩, .inl ⟨ha, hb⟩, h2, h1⟩
  · have h1 := hturns.crossing_up hf hx hab hup
    have h2 := hturns.crossing_down hf hx hcd hdown
    rw [neg_one_mul, neg_one_mul, neg_le_neg_iff] at h1 h2
    exact ⟨(a, b), (c, d), hab, hcd, .inl ⟨ha, hb⟩, .inr ⟨hd, hc⟩, h1, h2⟩

/-! ### The parity of the crossings to one side -/

/-- The topmost points of a convex polygon are on its perimeter. -/
theorem IsConvex.top_onPerimeter (h : IsConvex polygon) (hf : normSq f = 1)
    (hx : x ∈ region polygon) (htop : ∀ v ∈ polygon, dot (turn f) v ≤ dot (turn f) x) :
    OnPerimeter polygon x := by
  have hquarter : turn (turn f) = -f := rfl
  by_cases hside : ∃ v ∈ polygon, dot (turn (turn f)) x < dot (turn (turn f)) v
  · -- a crossing of the level of the other direction, no lower than the point
    have hf' : normSq (turn f) = 1 := (normSq_turn f).trans hf
    obtain ⟨-, ⟨a, b⟩, -, hab, -, hacross, -, hle⟩ := h.between_crossings hf' hx hside
    have hper := hacross.onPerimeter hab
    have hupper : dot (turn f) (crossing (turn (turn f)) (dot (turn (turn f)) x) (a, b)) ≤
        dot (turn f) x := by
      obtain ⟨v, hv, hmax⟩ := exists_le_dot (n := turn f) hper.mem_region
      exact hmax.trans (htop v hv)
    have heq : x = crossing (turn (turn f)) (dot (turn (turn f)) x) (a, b) :=
      eq_of_dots hf' (le_antisymm hle hupper) (dot_crossing hacross.ne).symm
    exact heq ▸ hper
  · push Not at hside
    -- a corner is topmost and foremost
    obtain ⟨v, hv, hmax⟩ := exists_le_dot (n := turn f + turn (turn f)) hx
    have hv1 := htop v hv
    have hv2 := hside v hv
    simp only [dot_comm (turn f + turn (turn f)), dot_add] at hmax
    rw [dot_comm x, dot_comm x, dot_comm v, dot_comm v] at hmax
    have hsame : x = v := by
      apply eq_of_dots hf
      · rw [hquarter, neg_dot, neg_dot] at hv2 hmax
        linarith
      · linarith
    exact hsame ▸ onPerimeter_corner hv

/-- The edge crosses the level of the point, in front of it. -/
def crossesInFront (f x : K × K) (edge : (K × K) × (K × K)) : Bool :=
  (above (turn f) (dot (turn f) x) edge.1 != above (turn f) (dot (turn f) x) edge.2) &&
    decide (dot f x < dot f (crossing (turn f) (dot (turn f) x) edge))

/-- From a point within the polygon the perimeter is crossed once in front. -/
theorem IsConvex.count_in_front (h : IsConvex polygon) (hf : normSq f = 1)
    (hx : x ∈ region polygon) (hinner : ¬ OnPerimeter polygon x) :
    (neighbours polygon).countP (crossesInFront f x) = 1 := by
  have hover : ∃ v ∈ polygon, dot (turn f) x < dot (turn f) v := by
    by_contra htop
    push Not at htop
    exact hinner (h.top_onPerimeter hf hx htop)
  have hunder : ∃ v ∈ polygon, dot (turn f) v ≤ dot (turn f) x := exists_dot_le hx
  -- the point is not where an edge crosses its level
  have hapart {a b : K × K} (hab : (a, b) ∈ neighbours polygon)
      (hacross : Across (turn f) (dot (turn f) x) (a, b)) :
      dot f x ≠ dot f (crossing (turn f) (dot (turn f) x) (a, b)) := by
    intro heq
    have hsame := eq_of_dots hf heq (dot_crossing hacross.ne).symm
    exact hinner (hsame ▸ hacross.onPerimeter hab)
  rcases h.turns with hturns | hturns
  · rw [← h.count_up hover hunder]
    apply List.countP_congr
    rintro ⟨a, b⟩ hab
    rcases le_or_gt (dot (turn f) a) (dot (turn f) x) with ha | ha <;>
      rcases le_or_gt (dot (turn f) b) (dot (turn f) x) with hb | hb
    · simp [crossesInFront, rises, above, ha.not_gt, hb.not_gt]
    · have hle := hturns.crossing_up hf hx hab (ha.trans_lt hb)
      rw [one_mul, one_mul] at hle
      have hlt := lt_of_le_of_ne hle (hapart hab (.inl ⟨ha, hb⟩))
      simp [crossesInFront, rises, above, ha.not_gt, hb, hlt]
    · have hle := hturns.crossing_down hf hx hab (hb.trans_lt ha)
      rw [one_mul, one_mul] at hle
      simp [crossesInFront, rises, above, ha, hb.not_gt, hle.not_gt]
    · simp [crossesInFront, rises, above, ha, hb]
  · rw [← h.count_down hover hunder]
    apply List.countP_congr
    rintro ⟨a, b⟩ hab
    rcases le_or_gt (dot (turn f) a) (dot (turn f) x) with ha | ha <;>
      rcases le_or_gt (dot (turn f) b) (dot (turn f) x) with hb | hb
    · simp [crossesInFront, rises, above, ha.not_gt, hb.not_gt]
    · have hle := hturns.crossing_up hf hx hab (ha.trans_lt hb)
      rw [neg_one_mul, neg_one_mul, neg_le_neg_iff] at hle
      simp [crossesInFront, rises, above, ha.not_gt, hb, hle.not_gt]
    · have hle := hturns.crossing_down hf hx hab (hb.trans_lt ha)
      rw [neg_one_mul, neg_one_mul, neg_le_neg_iff] at hle
      have hlt := lt_of_le_of_ne hle (hapart hab (.inr ⟨hb, ha⟩))
      simp [crossesInFront, rises, above, ha, hb.not_gt, hlt]
    · simp [crossesInFront, rises, above, ha, hb]

theorem across_iff {n : K × K} {level : K} {edge : (K × K) × (K × K)} :
    (above n level edge.1 != above n level edge.2) = true ↔ Across n level edge := by
  unfold above Across
  rcases le_or_gt (dot n edge.1) level with ha | ha <;>
    rcases le_or_gt (dot n edge.2) level with hb | hb
  · simp [ha.not_gt, hb.not_gt]
  · simp [ha.not_gt, hb, ha]
  · simp [ha, hb.not_gt, hb]
  · simp [ha, hb, ha.not_ge, hb.not_ge]

/-- Seen from outside, the crossings of a level lie to one side. -/
theorem same_side_of_outside (hf : normSq f = 1) (hx : x ∉ region polygon)
    {e e' : (K × K) × (K × K)} (he : e ∈ neighbours polygon) (he' : e' ∈ neighbours polygon)
    (hacross : Across (turn f) (dot (turn f) x) e) (hacross' : Across (turn f) (dot (turn f) x) e')
    (hfront : dot f x < dot f (crossing (turn f) (dot (turn f) x) e)) :
    dot f x < dot f (crossing (turn f) (dot (turn f) x) e') := by
  obtain ⟨a, b⟩ := e
  obtain ⟨c, d⟩ := e'
  by_contra hback
  have hmem := (hacross.onPerimeter he).mem_region
  have hmem' := (hacross'.onPerimeter he').mem_region
  have hlevel : dot (turn f) (crossing (turn f) (dot (turn f) x) (a, b)) = dot (turn f) x :=
    dot_crossing hacross.ne
  have hlevel' : dot (turn f) (crossing (turn f) (dot (turn f) x) (c, d)) = dot (turn f) x :=
    dot_crossing hacross'.ne
  refine hx (mem_region_of_between hf hmem' hmem (hlevel.trans hlevel'.symm) hlevel'.symm ?_
    (not_lt.mp hback) hfront.le)
  exact (not_lt.mp hback).trans_lt hfront

/-- From a point outside the perimeter is crossed in front twice or not at all. -/
theorem IsConvex.count_in_front_outside (h : IsConvex polygon) (hf : normSq f = 1)
    (hx : x ∉ region polygon) :
    (neighbours polygon).countP (crossesInFront f x) = 0 ∨
      (neighbours polygon).countP (crossesInFront f x) = 2 := by
  by_cases hfront : ∃ e ∈ neighbours polygon, crossesInFront f x e = true
  · right
    obtain ⟨e, he, hcross⟩ := hfront
    rw [crossesInFront, Bool.and_eq_true, decide_eq_true_eq] at hcross
    have hacross := across_iff.mp hcross.1
    obtain ⟨he1, he2⟩ := mem_of_mem_neighbours (a := e.1) (b := e.2) he
    have hover : ∃ v ∈ polygon, dot (turn f) x < dot (turn f) v := by
      obtain ⟨-, hlt⟩ | ⟨-, hlt⟩ := hacross
      · exact ⟨e.2, he2, hlt⟩
      · exact ⟨e.1, he1, hlt⟩
    have hunder : ∃ v ∈ polygon, dot (turn f) v ≤ dot (turn f) x := by
      obtain ⟨hle, -⟩ | ⟨hle, -⟩ := hacross
      · exact ⟨e.1, he1, hle⟩
      · exact ⟨e.2, he2, hle⟩
    -- every edge across the level is in front, as this one is
    have hall : (neighbours polygon).countP (crossesInFront f x) = (neighbours polygon).countP
        fun e => above (turn f) (dot (turn f) x) e.1 != above (turn f) (dot (turn f) x) e.2 := by
      apply List.countP_congr
      intro e' he'
      rw [crossesInFront, Bool.and_eq_true, decide_eq_true_eq]
      refine and_iff_left_of_imp fun hacross' => ?_
      exact same_side_of_outside hf hx he he' hacross (across_iff.mp hacross') hcross.2
    rw [hall, countP_changes, h.count_up hover hunder, h.count_down hover hunder]
  · left
    rw [List.countP_eq_zero]
    intro e he hcross
    exact hfront ⟨e, he, hcross⟩

end ConvexPolygon
