import Mathlib.Analysis.Real.Sqrt
import Mission10.Library.ConvexPolygon

/-!
# Half-planes and scaled edges of a convex polygon

A convex polygon is the intersection of the half-planes to the inner side of its edges.
When the edges of a closed polygon are those of a convex one, each scaled by a factor
that is not negative, it lies to the inner side of each of its own edges.
-/
set_option linter.unusedSectionVars false

namespace ConvexPolygon

open Plane CyclicList

section Scaled
variable {K : Type*} [Field K] [LinearOrder K] [IsStrictOrderedRing K]

/-! ### Rotations -/

theorem Turns.rotate {side : K} {polygon : List (K × K)} (h : Turns side polygon) (n : ℕ) :
    Turns side (polygon.rotate n) := by
  intro a b c hsub
  rcases sublist_three_rotate hsub with hsub | hsub | hsub
  · exact h a b c hsub
  · rw [← orient_rotate]
    exact h b c a hsub
  · rw [← orient_rotate, ← orient_rotate]
    exact h c a b hsub

theorem IsConvex.rotate {polygon : List (K × K)} (h : IsConvex polygon) (n : ℕ) :
    IsConvex (polygon.rotate n) := by
  refine ⟨h.turns.imp (fun hturns => hturns.rotate n) fun hturns => hturns.rotate n, ?_⟩
  obtain ⟨k, hk⟩ := List.IsRotated.forall polygon n
  obtain ⟨a, b, c, hsub, hspread⟩ := h.spread
  rw [← hk] at hsub
  rcases sublist_three_rotate hsub with hsub | hsub | hsub
  · exact ⟨a, b, c, hsub, hspread⟩
  · exact ⟨b, c, a, hsub, by rwa [orient_rotate]⟩
  · exact ⟨c, a, b, hsub, by rwa [orient_rotate, orient_rotate]⟩

theorem normSq_pos {v : K × K} (h : v ≠ 0) : 0 < normSq v := by
  apply lt_of_le_of_ne (normSq_nonneg v)
  intro hzero
  apply h
  have hparts := (add_eq_zero_iff_of_nonneg (mul_self_nonneg v.1) (mul_self_nonneg v.2)).mp
    hzero.symm
  exact Prod.ext (mul_self_eq_zero.mp hparts.1) (mul_self_eq_zero.mp hparts.2)

/-! ### Scaled edges -/

/-- The edge of the second polygon is the one of the first, scaled. -/
def Scaled (x y : (K × K) × (K × K)) : Prop :=
  ∃ t : K, 0 ≤ t ∧ y.2 - x.2 = t • (y.1 - x.1)

variable {n : K × K} {x y : (K × K) × (K × K)} {l front back rest : List ((K × K) × (K × K))}

/-- Along edges that do not go down the scaled ones do not either. -/
theorem le_of_scaled (hscaled : List.IsChain Scaled (x :: (l ++ [y])))
    (hup : List.IsChain (fun x y => dot n x.1 ≤ dot n y.1) (x :: (l ++ [y]))) :
    dot n x.2 ≤ dot n y.2 := by
  have hle : List.IsChain (fun x y => dot n x.2 ≤ dot n y.2) (x :: (l ++ [y])) := by
    rw [List.isChain_iff_forall_rel_of_append_cons_cons] at hscaled hup ⊢
    intro v w s t hst
    obtain ⟨scale, hscale, heq⟩ := hscaled hst
    have hrise := mul_nonneg hscale (sub_nonneg.mpr (hup hst))
    have hdot := congrArg (dot n) heq
    rw [dot_sub, dot_smul, dot_sub] at hdot
    linarith
  let R (x y : (K × K) × (K × K)) : Prop := dot n x.2 ≤ dot n y.2
  have : Trans R R R := ⟨le_trans⟩
  have hle : List.IsChain R (x :: (l ++ [y])) := hle
  exact hle.rel_cons (by simp)

/-- From the lowest corner of a convex polygon on, the edges go down only after the last
that goes up. -/
theorem IsConvex.falls_last (h : IsConvex ((x :: (front ++ y :: back)).map Prod.fst))
    (hmin : ∀ z ∈ front ++ y :: back, dot n x.1 ≤ dot n z.1)
    (hfalls : ¬ List.IsChain (fun x y => dot n x.1 ≤ dot n y.1) (x :: (front ++ [y]))) :
    List.IsChain (fun x y => dot n y.1 ≤ dot n x.1) (y :: (back ++ [x])) := by
  rw [List.isChain_iff_forall_rel_of_append_cons_cons] at hfalls ⊢
  push Not at hfalls
  obtain ⟨a, b, l1, l2, hab, hfall⟩ := hfalls
  intro u v l3 l4 huv
  by_contra hrise
  push Not at hrise
  obtain ⟨l1, rfl⟩ : ∃ l, l1 = x :: l := by
    cases l1 with
    | nil =>
      obtain ⟨rfl, hb⟩ := List.cons.inj hab
      have hmem : b ∈ front ++ [y] := hb ▸ List.mem_cons_self
      exact absurd (hmin b (by simp at hmem ⊢; tauto)) hfall.not_ge
    | cons x' l =>
      rw [List.cons_append] at hab
      exact ⟨l, by rw [(List.cons.inj hab).1]⟩
  have hab : front ++ [y] = l1 ++ a :: b :: l2 := (List.cons.inj hab).2
  obtain ⟨l4, rfl⟩ : ∃ l, l4 = l ++ [x] := by
    rcases List.eq_nil_or_concat l4 with rfl | ⟨l, x', rfl⟩
    · have hsplit : (y :: back) ++ [x] = (l3 ++ [u]) ++ [v] := by simpa using huv
      obtain ⟨hback, hv⟩ := List.append_inj' hsplit rfl
      obtain rfl : x = v := by simpa using hv
      have hmem : u ∈ y :: back := hback ▸ by simp
      exact absurd (hmin u (List.mem_append_right _ hmem)) hrise.not_ge
    · have hsplit : (y :: back) ++ [x] = (l3 ++ u :: v :: l) ++ [x'] := by simpa using huv
      obtain ⟨-, hx⟩ := List.append_inj' hsplit rfl
      obtain rfl : x = x' := by simpa using hx
      exact ⟨l, List.concat_eq_append⟩
  have huv : y :: back = l3 ++ u :: v :: l4 := by
    have hsplit : (y :: back) ++ [x] = (l3 ++ u :: v :: l4) ++ [x] := by simpa using huv
    exact (List.append_inj' hsplit rfl).1
  have hsub1 : [a, b].Sublist (front ++ [y]) := by
    rw [hab]
    exact (List.sublist_append_left [a, b] l2).trans (List.sublist_append_right l1 _)
  have hsub2 : [u, v].Sublist (y :: back) := by
    rw [huv]
    exact (List.sublist_append_left [u, v] l4).trans (List.sublist_append_right l3 _)
  have hb : b ∈ front ++ y :: back := by
    have hmem := hsub1.subset (by simp : b ∈ [a, b])
    rw [List.append_cons]
    exact List.mem_append_left back hmem
  have hu : u ∈ front ++ y :: back :=
    List.mem_append_right front (hsub2.subset (by simp : u ∈ [u, v]))
  rcases le_or_gt (dot n b.1) (dot n u.1) with hle | hgt
  · have hsub : [a, b, v].Sublist (front ++ y :: back) := by
      rw [List.append_cons]
      exact hsub1.append hsub2.tail
    have hlow : dot n b.1 < min (dot n a.1) (dot n v.1) := lt_min hfall (hle.trans_lt hrise)
    exact h.not_alternating ((hsub.cons_cons x).map Prod.fst) hlow (hmin b hb) le_rfl
      (min_le_left _ _) (min_le_right _ _)
  · have hfirst : [a].Sublist front := by
      have hdrop := congrArg List.dropLast hab
      rw [List.dropLast_concat, List.dropLast_append_of_ne_nil (by simp),
        List.dropLast_cons_of_ne_nil (by simp)] at hdrop
      rw [hdrop]
      exact List.singleton_sublist.mpr (by simp)
    have hsub : [a, u, v].Sublist (front ++ y :: back) := hfirst.append hsub2
    have hlow : dot n u.1 < min (dot n a.1) (dot n v.1) := lt_min (hgt.trans hfall) hrise
    exact h.not_alternating ((hsub.cons_cons x).map Prod.fst) hlow (hmin u hu) le_rfl
      (min_le_left _ _) (min_le_right _ _)

/-- Where the convex polygon is lowest, the one with the scaled edges is. -/
theorem IsConvex.lowest_scaled (h : IsConvex ((x :: rest).map Prod.fst))
    (hmin : ∀ z ∈ rest, dot n x.1 ≤ dot n z.1)
    (hscaled : ∀ e ∈ neighbours (x :: rest), Scaled e.1 e.2) (hy : y ∈ rest) :
    dot n x.2 ≤ dot n y.2 := by
  rw [forall_neighbours] at hscaled
  obtain ⟨front, back, rfl⟩ := List.append_of_mem hy
  rw [List.append_assoc, List.cons_append, List.isChain_cons_split] at hscaled
  by_cases hup : List.IsChain (fun x y => dot n x.1 ≤ dot n y.1) (x :: (front ++ [y]))
  · exact le_of_scaled hscaled.1 hup
  · have hdown := h.falls_last hmin hup
    have hneg : dot (-n) y.2 ≤ dot (-n) x.2 := by
      apply le_of_scaled hscaled.2
      exact hdown.imp fun a b hab => by
        rw [neg_dot, neg_dot]
        exact neg_le_neg hab
    rw [neg_dot, neg_dot] at hneg
    exact neg_le_neg_iff.mp hneg

/-- A closed polygon with the scaled edges of a convex one lies to the inner side of each
of its edges. -/
theorem IsConvex.scaled_inner {side : K} {polygon : List (K × K)} (h : IsConvex polygon)
    (hturns : Turns side polygon) {pairs : List ((K × K) × (K × K))}
    (hpairs : pairs.map Prod.fst = polygon)
    (hscaled : ∀ e ∈ neighbours pairs, Scaled e.1 e.2) {e : ((K × K) × (K × K)) × _}
    (he : e ∈ neighbours pairs) (hy : y ∈ pairs) :
    0 ≤ side * dot (turn (e.2.1 - e.1.1)) (y.2 - e.1.2) := by
  obtain ⟨x, z⟩ := e
  obtain ⟨k, rest, hrotate⟩ := exists_rotate (mem_of_mem_neighbours he).1
  have hedge : (x.1, z.1) ∈ neighbours polygon := by
    rw [← hpairs, neighbours_map]
    exact List.mem_map.mpr ⟨(x, z), he, rfl⟩
  have hconvex : IsConvex ((x :: rest).map Prod.fst) := by
    rw [← hrotate, List.map_rotate, hpairs]
    exact h.rotate k
  have hmin : ∀ w ∈ rest, dot (side • turn (z.1 - x.1)) x.1 ≤
      dot (side • turn (z.1 - x.1)) w.1 := by
    intro w hw
    have hmem : w.1 ∈ polygon := by
      rw [← hpairs]
      apply List.mem_map_of_mem
      rw [← List.mem_rotate (n := k), hrotate]
      exact List.mem_cons_of_mem x hw
    have hle := hturns.edge_le hedge (corner_mem_region hmem)
    rw [orient_eq_dot, mul_sub] at hle
    rw [smul_dot, smul_dot]
    exact sub_nonneg.mp hle
  have hrotated : ∀ e ∈ neighbours (x :: rest), Scaled e.1 e.2 := by
    rw [← hrotate, neighbours_rotate]
    exact fun e he => hscaled e (List.mem_rotate.mp he)
  rw [← List.mem_rotate (n := k), hrotate] at hy
  have hle : dot (side • turn (z.1 - x.1)) x.2 ≤ dot (side • turn (z.1 - x.1)) y.2 := by
    rcases List.mem_cons.mp hy with rfl | hy
    · exact le_rfl
    · exact hconvex.lowest_scaled hmin hrotated hy
  rw [smul_dot, smul_dot] at hle
  rw [dot_sub, mul_sub]
  exact sub_nonneg.mpr hle

/-! ### The area -/

/-- Twice the signed area, from the edges as they are listed. -/
def doubleArea (polygon : List (K × K)) : K :=
  ((neighbours polygon).map fun e => det e.1 e.2).sum

/-- The area as a fan of triangles around the first corner. -/
theorem sum_pairsFrom (z a : K × K) (l : List (K × K)) :
    ((pairsFrom z a l).map fun e => orient e.1 e.2 z).sum =
      ((pairsFrom z a l).map fun e => det e.1 e.2).sum + det z a := by
  induction l generalizing a with
  | nil =>
    simp only [pairsFrom, List.map_cons, List.map_nil, List.sum_cons, List.sum_nil, orient, det,
      Prod.fst_sub, Prod.snd_sub]
    ring
  | cons b l ih =>
    simp only [pairsFrom, List.map_cons, List.sum_cons, ih b]
    simp only [orient, det, Prod.fst_sub, Prod.snd_sub]
    ring

/-- The sign of the area tells the side to which the corners turn. -/
theorem Turns.doubleArea_nonneg {side : K} {polygon : List (K × K)} (h : Turns side polygon) :
    0 ≤ side * doubleArea polygon := by
  cases polygon with
  | nil => simp [doubleArea, neighbours]
  | cons z l =>
    have hfan := sum_pairsFrom z z l
    have hself : det z z = 0 := by
      unfold det
      ring
    rw [hself, add_zero, ← neighbours_cons] at hfan
    rw [doubleArea, ← hfan, ← List.sum_map_mul_left]
    apply List.sum_nonneg
    intro w hw
    obtain ⟨⟨a, b⟩, hab, rfl⟩ := List.mem_map.mp hw
    exact h.edge_le hab (corner_mem_region List.mem_cons_self)

end Scaled

/-! ### The half-planes of the edges -/

theorem det_frame {f : ℝ × ℝ} (hf : normSq f = 1) (v w : ℝ × ℝ) :
    det v w = dot f v * dot (turn f) w - dot (turn f) v * dot f w := by
  simp only [normSq, dot] at hf
  simp only [det, dot, turn]
  linear_combination (-(v.1 * w.2 - v.2 * w.1)) * hf

/-- A point between two points of the closed polygon on its level. -/
theorem mem_region_of_level {polygon : List (ℝ × ℝ)} {f a b x : ℝ × ℝ} (hf : normSq f = 1)
    (ha : a ∈ region polygon) (hb : b ∈ region polygon)
    (hla : dot (turn f) a = dot (turn f) x) (hlb : dot (turn f) b = dot (turn f) x)
    (hax : dot f a ≤ dot f x) (hxb : dot f x ≤ dot f b) : x ∈ region polygon := by
  rcases (hax.trans hxb).eq_or_lt with heq | hlt
  · have hsame : x = a := eq_of_dots hf (le_antisymm (heq ▸ hxb) hax) hla.symm
    exact hsame ▸ ha
  · exact mem_region_of_between hf ha hb (hlb.trans hla.symm) hla.symm hlt hax hxb

/-- A point to the inner side of every edge is in the closed polygon. -/
theorem IsConvex.mem_region_of_inner {polygon : List (ℝ × ℝ)} (h : IsConvex polygon) {side : ℝ}
    (hside : side = 1 ∨ side = -1) {x : ℝ × ℝ}
    (hx : ∀ a b, (a, b) ∈ neighbours polygon → 0 ≤ side * orient a b x) :
    x ∈ region polygon := by
  obtain ⟨a, b, c, hsub, hspread⟩ := h.spread
  have ha := corner_mem_region (hsub.subset (by simp : a ∈ [a, b, c]))
  have hb := corner_mem_region (hsub.subset (by simp : b ∈ [a, b, c]))
  have hc := corner_mem_region (hsub.subset (by simp : c ∈ [a, b, c]))
  -- a point inside, and the direction to it
  let g : ℝ × ℝ := (2 / 3 : ℝ) • ((1 / 2 : ℝ) • a + (1 / 2 : ℝ) • b) + (1 / 3 : ℝ) • c
  have hg : g ∈ region polygon := by
    have hhalf := convex_region ha hb (by norm_num) (by norm_num)
      (by norm_num : (1 / 2 : ℝ) + 1 / 2 = 1)
    exact convex_region hhalf hc (by norm_num) (by norm_num) (by norm_num)
  have hmean (n : ℝ × ℝ) : dot n a + dot n b + dot n c = 3 * dot n g := by
    simp only [g, dot_add, dot_smul]
    ring
  rcases eq_or_ne x g with rfl | hne
  · exact hg
  have hpos : 0 < √(normSq (g - x)) := Real.sqrt_pos.mpr (normSq_pos (sub_ne_zero.mpr hne.symm))
  let f : ℝ × ℝ := (√(normSq (g - x)))⁻¹ • (g - x)
  have hf : normSq f = 1 := by
    rw [normSq_smul, inv_pow, Real.sq_sqrt (normSq_nonneg _)]
    exact inv_mul_cancel₀ (normSq_pos (sub_ne_zero.mpr hne.symm)).ne'
  have hlevel : dot (turn f) g = dot (turn f) x := by
    have hzero : dot (turn f) (g - x) = 0 := by
      rw [turn_smul, smul_dot, dot_comm, dot_turn_self, mul_zero]
    rw [dot_sub] at hzero
    exact sub_eq_zero.mp hzero
  have hunder : ∃ v ∈ polygon, dot (turn f) v ≤ dot (turn f) x := hlevel ▸ exists_dot_le hg
  have hover : ∃ v ∈ polygon, dot (turn f) x < dot (turn f) v := by
    by_contra hnone
    push Not at hnone
    -- the three corners off a line would all be on the line through the inside
    have h1 := hnone a (hsub.subset (by simp))
    have h2 := hnone b (hsub.subset (by simp))
    have h3 := hnone c (hsub.subset (by simp))
    have hsum := hmean (turn f)
    rw [hlevel] at hsum
    apply hspread
    have hab : dot (turn f) (b - a) = 0 := by
      rw [dot_sub]
      linarith
    have hac : dot (turn f) (c - a) = 0 := by
      rw [dot_sub]
      linarith
    rw [orient, det_frame hf, hab, hac, mul_zero, zero_mul, sub_zero]
  obtain ⟨p, q, hpq, hp, hq⟩ := h.exists_up hover hunder
  obtain ⟨r, s, hrs, hs, hr⟩ := h.exists_down hover hunder
  have hup := hp.trans_lt hq
  have hdown := hs.trans_lt hr
  have hinner := hx p q hpq
  have houter := hx r s hrs
  rw [orient_at_level hf hup.ne, mul_left_comm] at hinner
  rw [orient_at_level hf hdown.ne', mul_left_comm] at houter
  have hinner := nonneg_of_mul_nonneg_right hinner (sub_pos.mpr hup)
  have houter := nonpos_of_mul_nonneg_right houter (sub_neg.mpr hdown)
  have hmem := (Across.onPerimeter (.inl ⟨hp, hq⟩) hpq).mem_region
  have hmem' := (Across.onPerimeter (.inr ⟨hs, hr⟩) hrs).mem_region
  rcases hside with rfl | rfl
  · refine mem_region_of_level hf hmem' hmem (dot_crossing hdown.ne') (dot_crossing hup.ne) ?_ ?_
    · linarith
    · linarith
  · refine mem_region_of_level hf hmem hmem' (dot_crossing hup.ne) (dot_crossing hdown.ne') ?_ ?_
    · linarith
    · linarith

end ConvexPolygon
