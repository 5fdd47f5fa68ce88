import Mission10.Engine.PolygonFence

/-!
# Survey lanes of a convex field

`polygon_serpentine` looks for the hits of a lane with the perimeter up to small
tolerances, which absorb the rounding of its numbers. They are parameters here:
the deployed ones give the lanes of the source, and with none the hits are exact.
-/
namespace Mission10.Engine

open MathOps Plane CyclicList ConvexPolygon

set_option linter.unusedSectionVars false

/-- The tolerances of the hits. -/
structure HitTolerances (K : Type*) where
  parallel : K
  onLine : K
  parameter : K

section Definitions
variable {K : Type*} [Field K] [LinearOrder K] [MathOps K]

/-- The direction of the first edge. -/
def surveyForward (polygon : List (Point2 K)) : Point2 K :=
  let (n0, e0) := polygon.getD 0 (0, 0)
  let (n1, e1) := polygon.getD 1 (0, 0)
  let edgeLen := hypot (n1 - n0) (e1 - e0)
  ((n1 - n0) / edgeLen, (e1 - e0) / edgeLen)

/-- The lines of the survey, by their distance across. -/
def surveyOffsets (polygon : List (Point2 K)) (spacing : K) : List K :=
  let fwd := surveyForward polygon
  let right := (-fwd.2, fwd.1)
  let across := polygon.map fun p => p.1 * right.1 + p.2 * right.2
  let lo := across.min?.getD 0
  let hi := across.max?.getD 0
  let count := (max 2 (ceil ((hi - lo) / spacing) + 1)).toNat
  (List.range count).map fun i : ℕ => lo + (hi - lo) * (i : K) / ((count : K) - 1)

/-- How far across a lane lies. -/
def laneOffset (polygon : List (Point2 K)) (lane : Lane K) : K :=
  Plane.dot (turn (surveyForward polygon)) lane.start

def Lane.direction (lane : Lane K) : Point2 K := (cos lane.heading, sin lane.heading)

/-- The lane between two hits, run in the direction its index asks for. -/
def laneBetween (fwd right : Point2 K) (index : ℕ) (offset startS endS : K) : Lane K :=
  let (a, b) := if index % 2 = 0 then (startS, endS) else (endS, startS)
  { index
    start := (a * fwd.1 + offset * right.1, a * fwd.2 + offset * right.2)
    heading := atan2 ((b - a) * fwd.2) ((b - a) * fwd.1)
    length := |b - a| }

namespace HitTolerances

def deployed : HitTolerances K := ⟨1 / 10 ^ 9, 1 / 10 ^ 8, 1 / 10 ^ 9⟩

def zero : HitTolerances K := ⟨0, 0, 0⟩

variable (tol : HitTolerances K)

/-- Where the line at `offset` meets one edge, along the lane direction. -/
def laneHits (fwd right : Point2 K) (offset : K) (edge : Point2 K × Point2 K) : List K :=
  let (p1, p2) := edge
  let a1 := p1.1 * right.1 + p1.2 * right.2
  let a2 := p2.1 * right.1 + p2.2 * right.2
  if |a2 - a1| ≤ tol.parallel then
    if |offset - a1| ≤ tol.onLine then
      [p1.1 * fwd.1 + p1.2 * fwd.2, p2.1 * fwd.1 + p2.2 * fwd.2]
    else []
  else
    let u := (offset - a1) / (a2 - a1)
    if -tol.parameter ≤ u ∧ u ≤ 1 + tol.parameter then
      [(p1.1 + u * (p2.1 - p1.1)) * fwd.1 + (p1.2 + u * (p2.2 - p1.2)) * fwd.2]
    else []

def hits (fwd right : Point2 K) (polygon : List (Point2 K)) (offset : K) : List K :=
  (polygonEdges polygon).flatMap (tol.laneHits fwd right offset)

/-- The hits span a lane. -/
def Spans (hits : List K) : Prop :=
  ¬ (hits.length < 2 ∨ hits.max?.getD 0 - hits.min?.getD 0 ≤ 1 / 10 ^ 6)

instance (hits : List K) : Decidable (Spans hits) := by
  unfold Spans
  infer_instance

/-- One more lane, unless the line misses the polygon. -/
def clipLane (fwd right : Point2 K) (polygon : List (Point2 K)) (lanes : List (Lane K))
    (offset : K) : List (Lane K) :=
  let hits := tol.hits fwd right polygon offset
  if Spans hits then
    lanes ++ [laneBetween fwd right lanes.length offset (hits.min?.getD 0) (hits.max?.getD 0)]
  else lanes

/-- Clip parallel survey lanes to a convex polygon. -/
def polygonSerpentine (polygon : List (Point2 K)) (spacing : K) :
    Except String (List (Lane K)) := do
  let (n0, e0) := polygon.getD 0 (0, 0)
  let (n1, e1) := polygon.getD 1 (0, 0)
  if polygon.length < 3 ∨ spacing ≤ 0 then
    throw "polygon needs at least three corners and positive spacing"
  let edgeLen := hypot (n1 - n0) (e1 - e0)
  if edgeLen ≤ 1 / 10 ^ 6 then
    throw "the first two polygon corners must be distinct"
  let fwd := surveyForward polygon
  let right := (-fwd.2, fwd.1)
  let lanes := (surveyOffsets polygon spacing).foldl (tol.clipLane fwd right polygon) []
  if lanes.isEmpty then
    throw "polygon produced no survey lanes"
  return lanes

theorem clipLane_deployed (fwd right : Point2 K) (polygon : List (Point2 K)) :
    (deployed (K := K)).clipLane fwd right polygon = Engine.clipLane fwd right polygon := by
  funext lanes offset
  have hhits : (deployed (K := K)).hits fwd right polygon offset =
      (polygonEdges polygon).flatMap (Engine.laneHits fwd right offset) := rfl
  rw [clipLane, Engine.clipLane, hhits]
  dsimp only [Spans]
  rw [ite_not]
  rfl

/-- With the deployed tolerances these are the lanes of the source. -/
theorem polygonSerpentine_deployed (polygon : List (Point2 K)) (spacing : K) :
    (deployed (K := K)).polygonSerpentine polygon spacing =
      Engine.polygonSerpentine polygon spacing := by
  unfold polygonSerpentine Engine.polygonSerpentine
  simp only [clipLane_deployed]
  rfl

/-- The lane over a line that the perimeter meets. -/
def laneOver (fwd right : Point2 K) (polygon : List (Point2 K)) (index : ℕ) (offset : K) :
    Lane K :=
  let hits := tol.hits fwd right polygon offset
  laneBetween fwd right index offset (hits.min?.getD 0) (hits.max?.getD 0)

/-- The lines over which a lane is flown. -/
def keptOffsets (fwd right : Point2 K) (polygon : List (Point2 K)) (offsets : List K) : List K :=
  offsets.filter fun offset => Spans (tol.hits fwd right polygon offset)

theorem foldl_clipLane (fwd right : Point2 K) (polygon : List (Point2 K)) (offsets : List K)
    (lanes : List (Lane K)) : offsets.foldl (tol.clipLane fwd right polygon) lanes =
      lanes ++ (tol.keptOffsets fwd right polygon offsets).mapIdx fun i offset =>
        tol.laneOver fwd right polygon (lanes.length + i) offset := by
  induction offsets generalizing lanes with
  | nil => simp [keptOffsets]
  | cons offset offsets ih =>
    rw [List.foldl_cons, ih]
    unfold clipLane
    dsimp only
    split_ifs with hspans
    · have hkept : tol.keptOffsets fwd right polygon (offset :: offsets) =
          offset :: tol.keptOffsets fwd right polygon offsets :=
        List.filter_cons_of_pos (decide_eq_true hspans)
      rw [hkept, List.mapIdx_cons, List.append_assoc, List.length_append]
      simp [laneOver, add_assoc, add_comm 1]
    · have hkept : tol.keptOffsets fwd right polygon (offset :: offsets) =
          tol.keptOffsets fwd right polygon offsets :=
        List.filter_cons_of_neg (by simpa using hspans)
      rw [hkept]

/-- The lanes are those over the kept lines, in their order. -/
theorem polygonSerpentine_ok {polygon : List (Point2 K)} {spacing : K} {lanes : List (Lane K)}
    (h : tol.polygonSerpentine polygon spacing = .ok lanes) :
    ¬ spacing ≤ 0 ∧
      ¬ hypot ((polygon.getD 1 (0, 0)).1 - (polygon.getD 0 (0, 0)).1)
        ((polygon.getD 1 (0, 0)).2 - (polygon.getD 0 (0, 0)).2) ≤ 1 / 10 ^ 6 ∧
      lanes = (tol.keptOffsets (surveyForward polygon) (turn (surveyForward polygon)) polygon
        (surveyOffsets polygon spacing)).mapIdx
          (tol.laneOver (surveyForward polygon) (turn (surveyForward polygon)) polygon) := by
  unfold polygonSerpentine at h
  simp only [bind, Except.bind, pure, Except.pure, throw, throwThe, MonadExceptOf.throw] at h
  split_ifs at h with hshort hlen hempty
  have hlanes := Except.ok.inj h
  rw [foldl_clipLane, List.nil_append] at hlanes
  refine ⟨fun hle => hshort (.inr hle), hlen, ?_⟩
  rw [← hlanes]
  simp only [List.length_nil, Nat.zero_add]
  rfl

/-- There are lanes as soon as one line spans one. -/
theorem polygonSerpentine_surveys {polygon : List (Point2 K)} {spacing : K}
    (hcorners : 3 ≤ polygon.length) (hspacing : 0 < spacing)
    (hedge : 1 / 10 ^ 6 < hypot ((polygon.getD 1 (0, 0)).1 - (polygon.getD 0 (0, 0)).1)
      ((polygon.getD 1 (0, 0)).2 - (polygon.getD 0 (0, 0)).2))
    (hspans : ∃ offset ∈ surveyOffsets polygon spacing,
      Spans (tol.hits (surveyForward polygon) (turn (surveyForward polygon)) polygon offset)) :
    ∃ lanes, tol.polygonSerpentine polygon spacing = .ok lanes := by
  have hkept : tol.keptOffsets (surveyForward polygon) (turn (surveyForward polygon)) polygon
      (surveyOffsets polygon spacing) ≠ [] := by
    obtain ⟨offset, hoffset, hspan⟩ := hspans
    exact List.ne_nil_of_mem (List.mem_filter.mpr ⟨hoffset, decide_eq_true hspan⟩)
  have hlanes : ((surveyOffsets polygon spacing).foldl (tol.clipLane (surveyForward polygon)
      (turn (surveyForward polygon)) polygon) []).isEmpty = false := by
    rw [foldl_clipLane, List.nil_append]
    simpa using hkept
  have hshort : ¬ (polygon.length < 3 ∨ spacing ≤ 0) := by
    rw [not_or, not_lt, not_le]
    exact ⟨hcorners, hspacing⟩
  refine ⟨(surveyOffsets polygon spacing).foldl (tol.clipLane (surveyForward polygon)
    (turn (surveyForward polygon)) polygon) [], ?_⟩
  unfold polygonSerpentine
  simp only [bind, Except.bind, pure, Except.pure, throw, throwThe, MonadExceptOf.throw]
  rw [if_neg hshort, if_neg hedge.not_ge]
  exact if_neg (by rw [Bool.not_eq_true]; exact hlanes)

end HitTolerances

end Definitions

section Hits
variable {K : Type*} [Field K] [LinearOrder K] [IsStrictOrderedRing K] [MathOps K]

theorem min_getD {l : List K} (h : l ≠ []) : l.min?.getD 0 ∈ l ∧ ∀ x ∈ l, l.min?.getD 0 ≤ x := by
  cases hmin : l.min? with
  | none => exact absurd (List.min?_eq_none_iff.mp hmin) h
  | some m => exact List.min?_eq_some_iff.mp hmin

theorem max_getD {l : List K} (h : l ≠ []) : l.max?.getD 0 ∈ l ∧ ∀ x ∈ l, x ≤ l.max?.getD 0 := by
  cases hmax : l.max? with
  | none => exact absurd (List.max?_eq_none_iff.mp hmax) h
  | some m => exact List.max?_eq_some_iff.mp hmax

theorem dot_comm' (a b : Point2 K) : a.1 * b.1 + a.2 * b.2 = Plane.dot b a := dot_comm a b

/-- Without tolerances an edge on the line is hit at its ends, and another one
where it crosses the line. -/
theorem laneHits_zero (fwd : Point2 K) (offset : K) (a b : Point2 K) :
    HitTolerances.zero.laneHits fwd (turn fwd) offset (a, b) =
      if Plane.dot (turn fwd) b = Plane.dot (turn fwd) a then
        if offset = Plane.dot (turn fwd) a then [Plane.dot fwd a, Plane.dot fwd b] else []
      else if 0 ≤ (offset - Plane.dot (turn fwd) a) /
            (Plane.dot (turn fwd) b - Plane.dot (turn fwd) a) ∧
          (offset - Plane.dot (turn fwd) a) /
            (Plane.dot (turn fwd) b - Plane.dot (turn fwd) a) ≤ 1 then
        [Plane.dot fwd (crossing (turn fwd) offset (a, b))]
      else [] := by
  unfold HitTolerances.laneHits HitTolerances.zero
  simp only [dot_comm', abs_nonpos_iff, sub_eq_zero, neg_zero, add_zero]
  congr 3
  simp only [crossing, Plane.dot, Prod.fst_add, Prod.snd_add, Prod.smul_fst, Prod.smul_snd,
    Prod.fst_sub, Prod.snd_sub, smul_eq_mul]
  ring_nf

variable {polygon : List (Point2 K)} {fwd : Point2 K} {offset : K}

/-- A hit is a point of the perimeter on the line. -/
theorem hit_onPerimeter {s : K}
    (h : s ∈ HitTolerances.zero.hits fwd (turn fwd) polygon offset) :
    ∃ x, OnPerimeter polygon x ∧ Plane.dot (turn fwd) x = offset ∧ Plane.dot fwd x = s := by
  obtain ⟨⟨a, b⟩, hab, hs⟩ := List.mem_flatMap.mp h
  rw [laneHits_zero] at hs
  obtain ⟨ha, hb⟩ := mem_of_mem_neighbours hab
  split_ifs at hs with hflat honline hunit
  · simp only [List.mem_cons, List.not_mem_nil, or_false] at hs
    rcases hs with rfl | rfl
    · exact ⟨a, onPerimeter_corner ha, honline.symm, rfl⟩
    · exact ⟨b, onPerimeter_corner hb, hflat.trans honline.symm, rfl⟩
  · exact absurd hs List.not_mem_nil
  · rw [List.mem_singleton] at hs
    refine ⟨crossing (turn fwd) offset (a, b), ⟨a, b, hab, _, hunit.1, hunit.2, rfl⟩, ?_, hs.symm⟩
    exact dot_crossing fun heq => hflat heq.symm
  · exact absurd hs List.not_mem_nil

/-- Where an edge goes across the line there is a hit. -/
theorem hit_of_across {edge : Point2 K × Point2 K} (hmem : edge ∈ neighbours polygon)
    (hacross : Across (turn fwd) offset edge) :
    Plane.dot fwd (crossing (turn fwd) offset edge) ∈
      HitTolerances.zero.hits fwd (turn fwd) polygon offset := by
  obtain ⟨a, b⟩ := edge
  refine List.mem_flatMap.mpr ⟨(a, b), hmem, ?_⟩
  rw [laneHits_zero, if_neg fun heq => hacross.ne heq.symm, if_pos hacross.unit]
  exact List.mem_singleton_self _

/-- The line meets the polygon on the way from the first hit to the last. -/
theorem hits_enclose (h : IsConvex polygon) (hf : normSq fwd = 1) {x : Point2 K}
    (hx : x ∈ region polygon)
    (hover : ∃ v ∈ polygon, Plane.dot (turn fwd) x < Plane.dot (turn fwd) v) :
    (∃ s ∈ HitTolerances.zero.hits fwd (turn fwd) polygon (Plane.dot (turn fwd) x),
        s ≤ Plane.dot fwd x) ∧
      ∃ s ∈ HitTolerances.zero.hits fwd (turn fwd) polygon (Plane.dot (turn fwd) x),
        Plane.dot fwd x ≤ s := by
  obtain ⟨e, e', he, he', hacross, hacross', hle, hge⟩ := h.between_crossings hf hx hover
  exact ⟨⟨_, hit_of_across he hacross, hle⟩, ⟨_, hit_of_across he' hacross', hge⟩⟩

theorem spans_iff {hits : List K} :
    HitTolerances.Spans hits ↔ ∃ s ∈ hits, ∃ t ∈ hits, 1 / 10 ^ 6 < t - s := by
  unfold HitTolerances.Spans
  rw [not_or, not_lt, not_le]
  have hpos : (0 : K) < 1 / 10 ^ 6 := by positivity
  constructor
  · rintro ⟨hlen, hwide⟩
    have hne : hits ≠ [] := by
      rintro rfl
      simp at hlen
    exact ⟨_, (min_getD hne).1, _, (max_getD hne).1, hwide⟩
  · rintro ⟨s, hs, t, ht, hwide⟩
    have hne : hits ≠ [] := List.ne_nil_of_mem hs
    have hmin := (min_getD hne).2 s hs
    have hmax := (max_getD hne).2 t ht
    constructor
    · by_contra hshort
      obtain ⟨a, rfl⟩ : ∃ a, hits = [a] := by
        apply List.length_eq_one_iff.mp
        have := List.length_pos_of_mem hs
        omega
      rw [List.mem_singleton] at hs ht
      rw [hs, ht, sub_self] at hwide
      exact lt_asymm hpos hwide
    · linarith

/-- Between two lines that span lanes every line spans one. -/
theorem spans_between (h : IsConvex polygon) (hf : normSq fwd = 1) {low high : K}
    (hlow : low < offset) (hhigh : offset < high)
    (hspanLow : HitTolerances.Spans (HitTolerances.zero.hits fwd (turn fwd) polygon low))
    (hspanHigh : HitTolerances.Spans (HitTolerances.zero.hits fwd (turn fwd) polygon high)) :
    HitTolerances.Spans (HitTolerances.zero.hits fwd (turn fwd) polygon offset) := by
  obtain ⟨s, hs, t, ht, hst⟩ := spans_iff.mp hspanLow
  obtain ⟨s', hs', t', ht', hst'⟩ := spans_iff.mp hspanHigh
  obtain ⟨a, ha, hal, rfl⟩ := hit_onPerimeter hs
  obtain ⟨b, hb, hbl, rfl⟩ := hit_onPerimeter ht
  obtain ⟨a', ha', hal', rfl⟩ := hit_onPerimeter hs'
  obtain ⟨b', hb', hbl', rfl⟩ := hit_onPerimeter ht'
  have hgap : 0 < high - low := sub_pos.mpr (hlow.trans hhigh)
  -- the share of the way from the low line to the high one
  obtain ⟨c, hc⟩ : ∃ c, c = (offset - low) / (high - low) := ⟨_, rfl⟩
  have hc0 : 0 < c := hc ▸ div_pos (sub_pos.mpr hlow) hgap
  have hc1 : 0 < 1 - c := by
    rw [hc, sub_pos, div_lt_one hgap]
    linarith
  have hlevel {p q : Point2 K} (hp : Plane.dot (turn fwd) p = low)
      (hq : Plane.dot (turn fwd) q = high) :
      Plane.dot (turn fwd) ((1 - c) • p + c • q) = offset := by
    rw [dot_add, dot_smul, dot_smul, hp, hq, hc]
    field_simp
    ring
  have hover : ∃ v ∈ polygon, offset < Plane.dot (turn fwd) v := by
    obtain ⟨v, hv, hle⟩ := exists_le_dot (n := turn fwd) ha'.mem_region
    exact ⟨v, hv, hhigh.trans_le (hal' ▸ hle)⟩
  have hleft := convex_region ha.mem_region ha'.mem_region hc1.le hc0.le (sub_add_cancel 1 c)
  have hright := convex_region hb.mem_region hb'.mem_region hc1.le hc0.le (sub_add_cancel 1 c)
  obtain ⟨⟨s, hs, hsle⟩, -⟩ := hits_enclose h hf hleft (by rw [hlevel hal hal']; exact hover)
  obtain ⟨-, t, ht, hge⟩ := hits_enclose h hf hright (by rw [hlevel hbl hbl']; exact hover)
  rw [hlevel hal hal'] at hs
  rw [hlevel hbl hbl'] at ht
  refine spans_iff.mpr ⟨s, hs, t, ht, ?_⟩
  have hwide : 1 / 10 ^ 6 < (1 - c) * (Plane.dot fwd b - Plane.dot fwd a) +
      c * (Plane.dot fwd b' - Plane.dot fwd a') := by
    calc (1 : K) / 10 ^ 6 = (1 - c) * (1 / 10 ^ 6) + c * (1 / 10 ^ 6) := by ring
      _ < (1 - c) * (Plane.dot fwd b - Plane.dot fwd a) +
          c * (Plane.dot fwd b' - Plane.dot fwd a') :=
        add_lt_add (mul_lt_mul_of_pos_left hst hc1) (mul_lt_mul_of_pos_left hst' hc0)
  simp only [dot_add, dot_smul] at hsle hge
  linarith

end Hits

/-- What holds of neighbours holds of the neighbours left when the entries that go
are at the ends. -/
theorem isChain_filter {α : Type*} {R : α → α → Prop} {p : α → Bool} {l : List α}
    (h : l.IsChain R)
    (hmid : ∀ a b c, [a, b, c].Sublist l → p a = true → p c = true → p b = true) :
    (l.filter p).IsChain R := by
  induction l with
  | nil => exact List.isChain_nil
  | cons a l ih =>
    have hrest := ih h.tail fun b c d hsub => hmid b c d (hsub.cons a)
    cases ha : p a with
    | false => rwa [List.filter_cons_of_neg (by simp [ha])]
    | true =>
      rw [List.filter_cons_of_pos ha]
      cases l with
      | nil => exact List.isChain_singleton a
      | cons b l =>
        have hab : R a b := (List.isChain_cons_cons.mp h).1
        cases hb : p b with
        | true =>
          rw [List.filter_cons_of_pos hb] at hrest ⊢
          exact List.isChain_cons_cons.mpr ⟨hab, hrest⟩
        | false =>
          have hnone : (b :: l).filter p = [] := by
            apply List.filter_eq_nil_iff.mpr
            intro c hc hpc
            rcases List.mem_cons.mp hc with rfl | hc
            · exact absurd (hb.symm.trans hpc) Bool.noConfusion
            · have hsub := ((List.singleton_sublist.mpr hc).cons_cons b).cons_cons a
              exact absurd (hb.symm.trans (hmid a b c hsub ha hpc)) Bool.noConfusion
          rw [hnone]
          exact List.isChain_singleton a

section Real
variable {polygon : List (Point2 ℝ)} {spacing : ℝ}

/-- Neighbouring lines are at most the spacing apart. -/
theorem surveyOffsets_isChain (hne : polygon ≠ []) (hspacing : 0 < spacing) :
    (surveyOffsets polygon spacing).IsChain fun x y => x ≤ y ∧ y - x ≤ spacing := by
  unfold surveyOffsets
  dsimp only
  generalize hlo : (polygon.map fun p => p.1 * -(surveyForward polygon).2 +
    p.2 * (surveyForward polygon).1) = across
  have hacross : across ≠ [] := by
    rw [← hlo]
    simpa using hne
  obtain ⟨hmem, hmin⟩ := min_getD hacross
  obtain ⟨-, hmax⟩ := max_getD hacross
  generalize across.min?.getD 0 = lo at hmem hmin
  generalize across.max?.getD 0 = hi at hmax
  have hrange : 0 ≤ hi - lo := sub_nonneg.mpr (hmax lo hmem)
  generalize hcount : (max 2 (ceil ((hi - lo) / spacing) + 1)).toNat = count
  have hsteps : (hi - lo) / spacing ≤ (count : ℝ) - 1 ∧ (1 : ℝ) ≤ (count : ℝ) - 1 := by
    have hceil : ceil ((hi - lo) / spacing) + 1 ≤ (count : ℤ) := by omega
    have htwo : (2 : ℤ) ≤ count := by omega
    have hle : (hi - lo) / spacing ≤ (ceil ((hi - lo) / spacing) : ℝ) := Int.le_ceil _
    have hceil' : ((ceil ((hi - lo) / spacing) : ℤ) : ℝ) + 1 ≤ count := by exact_mod_cast hceil
    have htwo' : (2 : ℝ) ≤ count := by exact_mod_cast htwo
    constructor <;> linarith
  have hpos : (0 : ℝ) < (count : ℝ) - 1 := one_pos.trans_le hsteps.2
  have hstep : (hi - lo) / ((count : ℝ) - 1) ≤ spacing := by
    rw [div_le_iff₀ hpos]
    exact (div_le_iff₀' hspacing).mp hsteps.1
  rw [List.isChain_map]
  apply List.isChain_iff_getElem.mpr
  intro i hbound
  simp only [List.getElem_range]
  push_cast
  have hdiff : lo + (hi - lo) * ((i : ℝ) + 1) / ((count : ℝ) - 1) -
      (lo + (hi - lo) * (i : ℝ) / ((count : ℝ) - 1)) = (hi - lo) / ((count : ℝ) - 1) := by ring
  have hnonneg := div_nonneg hrange hpos.le
  constructor <;> linarith

/-- Neighbouring lanes are at most the spacing apart. -/
theorem keptOffsets_isChain (h : IsConvex polygon) (hf : normSq (surveyForward polygon) = 1)
    (hspacing : 0 < spacing) :
    (HitTolerances.zero.keptOffsets (surveyForward polygon) (turn (surveyForward polygon)) polygon
      (surveyOffsets polygon spacing)).IsChain fun x y => x ≤ y ∧ y - x ≤ spacing := by
  have hne : polygon ≠ [] := by
    obtain ⟨a, b, c, hsub, -⟩ := h.spread
    exact List.ne_nil_of_mem (hsub.subset List.mem_cons_self)
  have hchain := surveyOffsets_isChain hne hspacing
  have hsorted : (surveyOffsets polygon spacing).Pairwise (· ≤ ·) :=
    List.isChain_iff_pairwise.mp (hchain.imp fun _ _ hstep => hstep.1)
  apply isChain_filter hchain
  intro a b c hsub hspanA hspanC
  simp only [decide_eq_true_eq] at hspanA hspanC ⊢
  have habc := hsorted.sublist hsub
  have hab : a ≤ b := List.rel_of_pairwise_cons habc List.mem_cons_self
  have hbc : b ≤ c := List.rel_of_pairwise_cons habc.of_cons List.mem_cons_self
  rcases hab.eq_or_lt with rfl | hab
  · exact hspanA
  rcases hbc.eq_or_lt with rfl | hbc
  · exact hspanC
  exact spans_between h hf hab hbc hspanA hspanC

theorem normSq_surveyForward
    (h : ¬ hypot ((polygon.getD 1 (0, 0)).1 - (polygon.getD 0 (0, 0)).1)
      ((polygon.getD 1 (0, 0)).2 - (polygon.getD 0 (0, 0)).2) ≤ 1 / 10 ^ 6) :
    normSq (surveyForward polygon) = 1 := by
  unfold surveyForward
  generalize polygon.getD 0 (0, 0) = first at h ⊢
  generalize polygon.getD 1 (0, 0) = second at h ⊢
  obtain ⟨n0, e0⟩ := first
  obtain ⟨n1, e1⟩ := second
  dsimp only at h ⊢
  have hpos : 0 < hypot (n1 - n0) (e1 - e0) := by
    have hsmall : (0 : ℝ) < 1 / 10 ^ 6 := by positivity
    exact hsmall.trans (not_le.mp h)
  have hsq : hypot (n1 - n0) (e1 - e0) ^ 2 = (n1 - n0) * (n1 - n0) + (e1 - e0) * (e1 - e0) := by
    unfold hypot
    rw [sqrt_real, Real.sq_sqrt (add_nonneg (mul_self_nonneg _) (mul_self_nonneg _))]
  simp only [normSq, Plane.dot]
  rw [div_mul_div_comm, div_mul_div_comm, ← add_div, ← hsq, ← sq, div_self (pow_ne_zero 2 hpos.ne')]

/-! ### The lanes -/

theorem direction_laneBetween {fwd right : Point2 ℝ} (hf : normSq fwd = 1) (index : ℕ)
    (offset : ℝ) {startS endS : ℝ} (hlt : startS < endS) :
    (laneBetween fwd right index offset startS endS).direction =
      if index % 2 = 0 then fwd else -fwd := by
  have hheading {r : ℝ} (hr : 0 < r) {v : Point2 ℝ} (hv : normSq v = 1) :
      cos (atan2 (r * v.2) (r * v.1)) = v.1 ∧ sin (atan2 (r * v.2) (r * v.1)) = v.2 := by
    have hnorm : ‖(⟨r * v.1, r * v.2⟩ : ℂ)‖ = r := by
      have hsq : r * v.1 * (r * v.1) + r * v.2 * (r * v.2) = r ^ 2 := by
        simp only [normSq, Plane.dot] at hv
        linear_combination r ^ 2 * hv
      rw [Complex.norm_eq_sqrt_sq_add_sq, sq, sq, hsq, Real.sqrt_sq hr.le]
    have hne : (⟨r * v.1, r * v.2⟩ : ℂ) ≠ 0 := by
      rw [← norm_ne_zero_iff, hnorm]
      exact hr.ne'
    constructor
    · calc cos (atan2 (r * v.2) (r * v.1)) = r * v.1 / ‖(⟨r * v.1, r * v.2⟩ : ℂ)‖ :=
            Complex.cos_arg hne
        _ = v.1 := by rw [hnorm, mul_div_cancel_left₀ _ hr.ne']
    · calc sin (atan2 (r * v.2) (r * v.1)) = r * v.2 / ‖(⟨r * v.1, r * v.2⟩ : ℂ)‖ :=
            Complex.sin_arg _
        _ = v.2 := by rw [hnorm, mul_div_cancel_left₀ _ hr.ne']
  have hpos : 0 < endS - startS := sub_pos.mpr hlt
  unfold laneBetween Lane.direction
  split_ifs with heven
  · dsimp only
    rw [(hheading hpos hf).1, (hheading hpos hf).2]
  · dsimp only
    have hback (x : ℝ) : (startS - endS) * x = (endS - startS) * -x := by ring
    have hneg := hheading hpos ((normSq_neg fwd).trans hf)
    rw [hback, hback]
    exact Prod.ext hneg.1 hneg.2

theorem length_laneBetween {fwd right : Point2 ℝ} (index : ℕ) (offset : ℝ) {startS endS : ℝ}
    (hlt : startS < endS) :
    (laneBetween fwd right index offset startS endS).length = endS - startS := by
  unfold laneBetween
  split_ifs
  · exact abs_of_pos (sub_pos.mpr hlt)
  · dsimp only
    rw [abs_sub_comm]
    exact abs_of_pos (sub_pos.mpr hlt)

/-- A point of a lane is on its line, between the two hits. -/
theorem pointAt_laneBetween {fwd : Point2 ℝ} (right : Point2 ℝ) (hf : normSq fwd = 1) (index : ℕ)
    (offset : ℝ) {startS endS : ℝ} (hlt : startS < endS) {s : ℝ} (hs : 0 ≤ s)
    (hs' : s ≤ endS - startS) : ∃ x, startS ≤ x ∧ x ≤ endS ∧
      (laneBetween fwd right index offset startS endS).pointAt s = x • fwd + offset • right := by
  have hdirection : (laneBetween fwd right index offset startS endS).direction =
      if index % 2 = 0 then fwd else -fwd := direction_laneBetween hf index offset hlt
  have hpoint : (laneBetween fwd right index offset startS endS).pointAt s =
      (laneBetween fwd right index offset startS endS).start +
        s • (laneBetween fwd right index offset startS endS).direction := rfl
  rw [hpoint, hdirection]
  unfold laneBetween
  split_ifs with heven
  · refine ⟨startS + s, by linarith, by linarith, ?_⟩
    apply Prod.ext
    · simp only [Prod.fst_add, Prod.smul_fst, smul_eq_mul]
      ring
    · simp only [Prod.snd_add, Prod.smul_snd, smul_eq_mul]
      ring
  · refine ⟨endS - s, by linarith, by linarith, ?_⟩
    apply Prod.ext
    · simp only [Prod.fst_add, Prod.smul_fst, smul_eq_mul, Prod.fst_neg]
      ring
    · simp only [Prod.snd_add, Prod.smul_snd, smul_eq_mul, Prod.snd_neg]
      ring

/-- The lane of an index over a line, between two points of the perimeter. -/
def LiesOver (polygon : List (Point2 ℝ)) (i : ℕ) (offset : ℝ) (lane : Lane ℝ) : Prop :=
  ∃ a b, OnPerimeter polygon a ∧ OnPerimeter polygon b ∧
    Plane.dot (turn (surveyForward polygon)) a = offset ∧
    Plane.dot (turn (surveyForward polygon)) b = offset ∧
    Plane.dot (surveyForward polygon) a < Plane.dot (surveyForward polygon) b ∧
    lane = laneBetween (surveyForward polygon) (turn (surveyForward polygon)) i offset
      (Plane.dot (surveyForward polygon) a) (Plane.dot (surveyForward polygon) b)

theorem laneOver_liesOver {offset : ℝ} (h : HitTolerances.Spans
    (HitTolerances.zero.hits (surveyForward polygon) (turn (surveyForward polygon)) polygon
      offset)) (i : ℕ) :
    LiesOver polygon i offset (HitTolerances.zero.laneOver (surveyForward polygon)
      (turn (surveyForward polygon)) polygon i offset) := by
  obtain ⟨s, hs, t, ht, hwide⟩ := spans_iff.mp h
  have hne := List.ne_nil_of_mem hs
  obtain ⟨hmin, hmin'⟩ := min_getD hne
  obtain ⟨hmax, hmax'⟩ := max_getD hne
  obtain ⟨a, ha, hal, hmin⟩ := hit_onPerimeter hmin
  obtain ⟨b, hb, hbl, hmax⟩ := hit_onPerimeter hmax
  refine ⟨a, b, ha, hb, hal, hbl, ?_, ?_⟩
  · have hlow := hmin' s hs
    have hhigh := hmax' t ht
    have hpos : (0 : ℝ) < 1 / 10 ^ 6 := by positivity
    rw [hmin, hmax]
    linarith
  · rw [HitTolerances.laneOver, hmin, hmax]

namespace LiesOver
variable {i : ℕ} {offset : ℝ} {lane : Lane ℝ}

theorem length_nonneg (h : LiesOver polygon i offset lane) : 0 ≤ lane.length := by
  obtain ⟨a, b, -, -, -, -, hlt, rfl⟩ := h
  rw [length_laneBetween i offset hlt]
  exact sub_nonneg.mpr hlt.le

theorem index (h : LiesOver polygon i offset lane) : lane.index = i := by
  obtain ⟨a, b, -, -, -, -, -, rfl⟩ := h
  unfold laneBetween
  split_ifs <;> rfl

theorem direction (hf : normSq (surveyForward polygon) = 1) (h : LiesOver polygon i offset lane) :
    lane.direction = if i % 2 = 0 then surveyForward polygon else -surveyForward polygon := by
  obtain ⟨a, b, -, -, -, -, hlt, rfl⟩ := h
  exact direction_laneBetween hf i offset hlt

theorem dot_turn_point {fwd : Point2 ℝ} (hf : normSq fwd = 1) (x offset : ℝ) :
    Plane.dot (turn fwd) (x • fwd + offset • turn fwd) = offset := by
  have hunit : Plane.dot (turn fwd) (turn fwd) = 1 := (normSq_turn fwd).trans hf
  rw [dot_add, dot_smul, dot_smul, dot_comm (turn fwd) fwd, dot_turn_self, hunit, mul_zero,
    zero_add, mul_one]

theorem dot_point {fwd : Point2 ℝ} (hf : normSq fwd = 1) (x offset : ℝ) :
    Plane.dot fwd (x • fwd + offset • turn fwd) = x := by
  have hunit : Plane.dot fwd fwd = 1 := hf
  rw [dot_add, dot_smul, dot_smul, dot_turn_self, hunit, mul_zero, add_zero, mul_one]

theorem laneOffset_eq (hf : normSq (surveyForward polygon) = 1)
    (h : LiesOver polygon i offset lane) : laneOffset polygon lane = offset := by
  obtain ⟨a, b, -, -, -, -, -, rfl⟩ := h
  unfold laneBetween laneOffset
  split_ifs <;> exact dot_turn_point hf _ offset

/-- The whole lane lies in the closed polygon. -/
theorem inside (hf : normSq (surveyForward polygon) = 1) (h : LiesOver polygon i offset lane)
    {s : ℝ} (hs : 0 ≤ s) (hs' : s ≤ lane.length) : lane.pointAt s ∈ region polygon := by
  obtain ⟨a, b, ha, hb, hal, hbl, hlt, rfl⟩ := h
  rw [length_laneBetween i offset hlt] at hs'
  obtain ⟨x, hx, hx', hpoint⟩ :=
    pointAt_laneBetween (turn (surveyForward polygon)) hf i offset hlt hs hs'
  rw [hpoint]
  apply mem_region_of_between hf ha.mem_region hb.mem_region (hbl.trans hal.symm) _ hlt
  · rwa [dot_point hf]
  · rwa [dot_point hf]
  · rw [dot_turn_point hf, hal]

end LiesOver

/-- What the lanes of a field are meant to be. -/
structure FieldLanes (polygon : List (Point2 ℝ)) (spacing : ℝ) (lanes : List (Lane ℝ)) :
    Prop where
  length : ∀ lane ∈ lanes, 0 ≤ lane.length
  inside : ∀ lane ∈ lanes, ∀ s, 0 ≤ s → s ≤ lane.length → lane.pointAt s ∈ region polygon
  index : ∀ (i : ℕ) (lane : Lane ℝ), lanes[i]? = some lane → lane.index = i
  opposite : ∀ (i : ℕ) (lane next : Lane ℝ), lanes[i]? = some lane → lanes[i + 1]? = some next →
    next.direction = -lane.direction
  spaced : ∀ (i : ℕ) (lane next : Lane ℝ), lanes[i]? = some lane → lanes[i + 1]? = some next →
    |laneOffset polygon next - laneOffset polygon lane| ≤ spacing

/-- Without tolerances the lanes of a convex polygon lie in it. -/
theorem fieldLanes {lanes : List (Lane ℝ)} (h : IsConvex polygon)
    (hlanes : HitTolerances.zero.polygonSerpentine polygon spacing = .ok lanes) :
    FieldLanes polygon spacing lanes := by
  obtain ⟨hspacing, hlen, hlanes⟩ := HitTolerances.polygonSerpentine_ok _ hlanes
  have hf := normSq_surveyForward hlen
  have hchain := keptOffsets_isChain h hf (not_le.mp hspacing)
  have hget {i : ℕ} {lane : Lane ℝ} (hlane : lanes[i]? = some lane) :
      ∃ offset, (HitTolerances.zero.keptOffsets (surveyForward polygon)
          (turn (surveyForward polygon)) polygon
          (surveyOffsets polygon spacing))[i]? = some offset ∧
        LiesOver polygon i offset lane := by
    rw [hlanes, List.getElem?_mapIdx, Option.map_eq_some_iff] at hlane
    obtain ⟨offset, hoffset, rfl⟩ := hlane
    have hspans := (List.mem_filter.mp (List.mem_of_getElem? hoffset)).2
    exact ⟨offset, hoffset, laneOver_liesOver (of_decide_eq_true hspans) i⟩
  constructor
  case length =>
    intro lane hmem
    obtain ⟨i, hi⟩ := List.mem_iff_getElem?.mp hmem
    obtain ⟨offset, -, hover⟩ := hget hi
    exact hover.length_nonneg
  case inside =>
    intro lane hmem s hs hs'
    obtain ⟨i, hi⟩ := List.mem_iff_getElem?.mp hmem
    obtain ⟨offset, -, hover⟩ := hget hi
    exact hover.inside hf hs hs'
  case index =>
    intro i lane hlane
    obtain ⟨offset, -, hover⟩ := hget hlane
    exact hover.index
  case opposite =>
    intro i lane next hlane hnext
    obtain ⟨offset, -, hover⟩ := hget hlane
    obtain ⟨offset', -, hover'⟩ := hget hnext
    rw [hover.direction hf, hover'.direction hf]
    rcases Nat.mod_two_eq_zero_or_one i with heven | hodd
    · rw [if_pos heven, if_neg (by omega)]
    · rw [if_neg (show ¬ i % 2 = 0 by omega), if_pos (by omega), neg_neg]
  case spaced =>
    intro i lane next hlane hnext
    obtain ⟨offset, hoffset, hover⟩ := hget hlane
    obtain ⟨offset', hoffset', hover'⟩ := hget hnext
    rw [hover.laneOffset_eq hf, hover'.laneOffset_eq hf]
    obtain ⟨hi, rfl⟩ := List.getElem?_eq_some_iff.mp hoffset
    obtain ⟨hi', rfl⟩ := List.getElem?_eq_some_iff.mp hoffset'
    obtain ⟨hle, hstep⟩ := List.isChain_iff_getElem.mp hchain i hi'
    rwa [abs_of_nonneg (sub_nonneg.mpr hle)]

end Real

end Mission10.Engine
