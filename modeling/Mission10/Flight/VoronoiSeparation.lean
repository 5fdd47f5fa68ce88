import Mission10.Flight.VoronoiSweeps

/-!
# Separation by buffered cells

Two points that keep to their cells are apart by both buffers, less what they
overstep the bisector. A goal within the tolerance passes as it is; otherwise the
drone goes to the closest point of its cell where the sweeps have settled.
-/
namespace Mission10.Flight

open Engine (MathOps Point2 sqrt_real)
open Engine.MathOps Plane

/-! ### The bisectors -/

/-- The row toward a peer. -/
noncomputable def bisector (own peer : Point2 ℝ) (safetyRadius : ℝ) : HalfSpace ℝ :=
  let dist := √(normSq (peer - own))
  ((1 / dist) • (peer - own), dot ((1 / dist) • (peer - own)) own + dist / 2 - safetyRadius)

theorem mem_bufferedVoronoiHalfspaces {invCdf : ℝ → ℝ} {own : Point2 ℝ} {peers : List (Point2 ℝ)}
    {safetyRadius : ℝ} {row : HalfSpace ℝ} :
    row ∈ bufferedVoronoiHalfspaces invCdf own peers safetyRadius ↔
      ∃ peer ∈ peers, 1 / 10 ^ 6 ≤ √(normSq (peer - own)) ∧
        row = bisector own peer safetyRadius := by
  simp only [bufferedVoronoiHalfspaces, voronoiHalfspaces, List.filterMap_map, List.mem_filterMap,
    Function.comp_apply, sqrt_real]
  apply exists_congr
  intro peer
  apply and_congr_right
  intro _
  rcases lt_or_ge (√(normSq (peer - own))) (1 / 10 ^ 6) with hclose | hapart
  · apply iff_of_false
    · intro hrow
      rw [if_pos hclose] at hrow
      cases hrow
    · rintro ⟨hapart, -⟩
      exact absurd hclose (not_lt.mpr hapart)
  · rw [if_neg (not_lt.mpr hapart), Option.some_inj, eq_comm]
    exact (and_iff_right hapart).symm

theorem bisector_unit {own peer : Point2 ℝ} {safetyRadius : ℝ}
    (hapart : 0 < √(normSq (peer - own))) : normSq (bisector own peer safetyRadius).1 = 1 := by
  have hne : normSq (peer - own) ≠ 0 := (Real.sqrt_pos.mp hapart).ne'
  rw [bisector, normSq_smul, div_pow, one_pow, Real.sq_sqrt (normSq_nonneg _),
    one_div_mul_cancel hne]

/-- The length of the way to the peer, along the normal. -/
theorem bisector_reach {own peer : Point2 ℝ} {safetyRadius : ℝ}
    (hapart : 0 < √(normSq (peer - own))) :
    dot (bisector own peer safetyRadius).1 (peer - own) = √(normSq (peer - own)) := by
  have hsq : dot (peer - own) (peer - own) = √(normSq (peer - own)) * √(normSq (peer - own)) :=
    (Real.mul_self_sqrt (normSq_nonneg _)).symm
  rw [bisector, smul_dot, hsq, one_div, inv_mul_cancel_left₀ hapart.ne']

/-- The peer draws the same bisector from the other side. -/
theorem bisector_mirror (own peer : Point2 ℝ) (safetyRadius : ℝ) :
    bisector peer own safetyRadius = (-(bisector own peer safetyRadius).1,
      dot (-(bisector own peer safetyRadius).1) peer + √(normSq (peer - own)) / 2 -
        safetyRadius) := by
  simp only [bisector]
  rw [normSq_sub_comm own peer, ← smul_neg, neg_sub]

/-- Two points that overstep the bisector by a little only. -/
theorem separated {own peer x y : Point2 ℝ} {safetyRadius s t : ℝ}
    (hapart : 0 < √(normSq (peer - own)))
    (hx : dot (bisector own peer safetyRadius).1 x ≤ (bisector own peer safetyRadius).2 + s)
    (hy : dot (bisector peer own safetyRadius).1 y ≤ (bisector peer own safetyRadius).2 + t) :
    2 * safetyRadius - s - t ≤ √(normSq (x - y)) := by
  have hunit : normSq (bisector own peer safetyRadius).1 = 1 := bisector_unit hapart
  have hreach : dot (bisector own peer safetyRadius).1 (peer - own) =
      √(normSq (peer - own)) := bisector_reach hapart
  have hbound : (bisector own peer safetyRadius).2 = dot (bisector own peer safetyRadius).1 own +
      √(normSq (peer - own)) / 2 - safetyRadius := rfl
  rw [hbound] at hx
  rw [bisector_mirror, neg_dot, neg_dot] at hy
  rw [dot_sub] at hreach
  have hway : 2 * safetyRadius - s - t ≤ dot (bisector own peer safetyRadius).1 (y - x) := by
    rw [dot_sub]
    linarith
  rw [normSq_sub_comm]
  calc 2 * safetyRadius - s - t ≤ dot (bisector own peer safetyRadius).1 (y - x) := hway
    _ ≤ √(dot (bisector own peer safetyRadius).1 (y - x) ^ 2) := Real.le_sqrt_of_sq_le le_rfl
    _ ≤ √(normSq (y - x)) := by
        apply Real.sqrt_le_sqrt
        rw [← one_mul (normSq (y - x)), ← hunit]
        exact dot_sq_le _ _

/-- A drone that keeps its distance is in its own cell. -/
theorem own_mem_cell {invCdf : ℝ → ℝ} {own : Point2 ℝ} {peers : List (Point2 ℝ)}
    {safetyRadius : ℝ} (hapart : ∀ peer ∈ peers, 2 * safetyRadius ≤ √(normSq (peer - own))) :
    own ∈ Cell (bufferedVoronoiHalfspaces invCdf own peers safetyRadius) := by
  intro row hrow
  obtain ⟨peer, hpeer, -, rfl⟩ := mem_bufferedVoronoiHalfspaces.mp hrow
  have hfar := hapart peer hpeer
  simp only [bisector]
  linarith

theorem unit_rows {invCdf : ℝ → ℝ} {own : Point2 ℝ} {peers : List (Point2 ℝ)} {safetyRadius : ℝ} :
    ∀ row ∈ bufferedVoronoiHalfspaces invCdf own peers safetyRadius, normSq row.1 = 1 := by
  intro row hrow
  obtain ⟨peer, -, hapart, rfl⟩ := mem_bufferedVoronoiHalfspaces.mp hrow
  exact bisector_unit (lt_of_lt_of_le (by norm_num) hapart)

/-! ### The clip -/

/-- The goal passes, or the sweeps have settled. -/
def Answered (goal : Point2 ℝ) (rows : List (HalfSpace ℝ)) : Prop :=
  Transparent goal rows ∨ Settled goal rows 30

theorem clip_of_transparent {invCdf : ℝ → ℝ} {own goal : Point2 ℝ} {peers : List (Point2 ℝ)}
    {safetyRadius : ℝ}
    (h : Transparent goal (bufferedVoronoiHalfspaces invCdf own peers safetyRadius)) :
    bufferedVoronoiClip invCdf own goal peers safetyRadius = goal :=
  if_pos (.inr h)

theorem clip_closest {invCdf : ℝ → ℝ} {own goal : Point2 ℝ} {peers : List (Point2 ℝ)}
    {safetyRadius : ℝ}
    (hnot : ¬ Transparent goal (bufferedVoronoiHalfspaces invCdf own peers safetyRadius))
    (hsettled : Settled goal (bufferedVoronoiHalfspaces invCdf own peers safetyRadius) 30) :
    Closest goal (Cell (bufferedVoronoiHalfspaces invCdf own peers safetyRadius))
      (bufferedVoronoiClip invCdf own goal peers safetyRadius) := by
  have hrows : (bufferedVoronoiHalfspaces invCdf own peers safetyRadius).length ≠ 0 := by
    intro hnone
    apply hnot
    rw [List.length_eq_zero_iff.mp hnone]
    simp [Transparent]
  rw [bufferedVoronoiClip, projectToHalfspaces, if_neg (not_or.mpr ⟨hrows, hnot⟩)]
  exact projection_closest unit_rows hsettled

/-- An answered drone oversteps its cell by no more than the tolerance. -/
theorem clip_oversteps {invCdf : ℝ → ℝ} {own goal : Point2 ℝ} {peers : List (Point2 ℝ)}
    {safetyRadius : ℝ}
    (h : Answered goal (bufferedVoronoiHalfspaces invCdf own peers safetyRadius)) :
    ∀ row ∈ bufferedVoronoiHalfspaces invCdf own peers safetyRadius,
      dot row.1 (bufferedVoronoiClip invCdf own goal peers safetyRadius) ≤ row.2 + 1 / 10 ^ 9 := by
  intro row hrow
  by_cases hpass : Transparent goal (bufferedVoronoiHalfspaces invCdf own peers safetyRadius)
  · rw [clip_of_transparent hpass]
    exact hpass row hrow
  · have hkeep := (clip_closest hpass (h.resolve_left hpass)).mem row hrow
    exact hkeep.trans (le_add_of_nonneg_right (by positivity))

section Drones

variable {ι : Type*} {invCdf : ℝ → ℝ} {position goal : ι → Point2 ℝ} {peers : ι → List ι}
  {safetyRadius : ℝ}

/-- The row of a drone toward another one. -/
theorem bisector_mem (hradius : 1 / 10 ^ 6 < safetyRadius)
    (hpeers : ∀ i j, j ∈ peers i ↔ j ≠ i)
    (hapart : ∀ i j, i ≠ j → 2 * safetyRadius ≤ √(normSq (position i - position j)))
    {i j : ι} (hij : i ≠ j) :
    bisector (position i) (position j) safetyRadius ∈
      bufferedVoronoiHalfspaces invCdf (position i) ((peers i).map position) safetyRadius := by
  refine mem_bufferedVoronoiHalfspaces.mpr ⟨position j, ?_, ?_, rfl⟩
  · exact List.mem_map_of_mem ((hpeers i j).mpr hij.symm)
  · have hfar := hapart j i hij.symm
    linarith

/-- The new positions of two drones, by what they overstep the half-spaces. -/
theorem clip_apart (hradius : 1 / 10 ^ 6 < safetyRadius) (hpeers : ∀ i j, j ∈ peers i ↔ j ≠ i)
    (hapart : ∀ i j, i ≠ j → 2 * safetyRadius ≤ √(normSq (position i - position j)))
    {s : ℝ} {x y : Point2 ℝ} {i j : ι} (hij : i ≠ j)
    (hx : ∀ row ∈
      bufferedVoronoiHalfspaces invCdf (position i) ((peers i).map position) safetyRadius,
      dot row.1 x ≤ row.2 + s)
    (hy : ∀ row ∈
      bufferedVoronoiHalfspaces invCdf (position j) ((peers j).map position) safetyRadius,
      dot row.1 y ≤ row.2 + s) :
    2 * safetyRadius - 2 * s ≤ √(normSq (x - y)) := by
  have hdist : 0 < √(normSq (position j - position i)) := by
    have hfar := hapart j i hij.symm
    have hpos : (0 : ℝ) < 1 / 10 ^ 6 := by norm_num
    linarith
  have hsep := separated hdist (hx _ (bisector_mem hradius hpeers hapart hij))
    (hy _ (bisector_mem hradius hpeers hapart hij.symm))
  linarith

end Drones

/-! ### Two drones side by side -/

theorem row_right : bisector (0, 0) (2, 0) 1 = ((1, 0), 0) := by
  have hdist : √(normSq (((2, 0) : Point2 ℝ) - (0, 0))) = 2 := by
    rw [Real.sqrt_eq_iff_mul_self_eq (normSq_nonneg _) zero_le_two]
    norm_num [normSq, dot]
  rw [bisector, hdist]
  norm_num [dot]

theorem row_left : bisector (2, 0) (0, 0) 1 = ((-1, 0), -2) := by
  have hdist : √(normSq (((0, 0) : Point2 ℝ) - (2, 0))) = 2 := by
    rw [Real.sqrt_eq_iff_mul_self_eq (normSq_nonneg _) zero_le_two]
    norm_num [normSq, dot]
  rw [bisector, hdist]
  norm_num [dot]

/-- Goals beyond the bisector by the tolerance pass. -/
theorem pair_transparent (invCdf : ℝ → ℝ) :
    Transparent ((1 / 10 ^ 9, 0) : Point2 ℝ)
        (bufferedVoronoiHalfspaces invCdf (0, 0) [(2, 0)] 1) ∧
      Transparent ((2 - 1 / 10 ^ 9, 0) : Point2 ℝ)
        (bufferedVoronoiHalfspaces invCdf (2, 0) [(0, 0)] 1) := by
  constructor
  · intro row hrow
    obtain ⟨peer, hpeer, -, rfl⟩ := mem_bufferedVoronoiHalfspaces.mp hrow
    rw [List.mem_singleton.mp hpeer, row_right]
    norm_num [dot]
  · intro row hrow
    obtain ⟨peer, hpeer, -, rfl⟩ := mem_bufferedVoronoiHalfspaces.mp hrow
    rw [List.mem_singleton.mp hpeer, row_left]
    norm_num [dot]

theorem pair_apart : 2 * (1 : ℝ) ≤ √(normSq (((0, 0) : Point2 ℝ) - (2, 0))) := by
  rw [Real.le_sqrt (by norm_num) (normSq_nonneg _)]
  norm_num [normSq, dot]

/-- The rows of a drone with one peer to the right and one almost opposite. -/
theorem rows_between (invCdf : ℝ → ℝ) :
    bufferedVoronoiHalfspaces invCdf (0, 0) [(2, 0), (-48 / 25, 14 / 25)] 1 =
      [((1, 0), 0), ((-24 / 25, 7 / 25), 0)] := by
  have hright : √(normSq (((2, 0) : Point2 ℝ) - (0, 0))) = 2 := by
    rw [Real.sqrt_eq_iff_mul_self_eq (normSq_nonneg _) zero_le_two]
    norm_num [normSq, dot]
  have hleft : √(normSq (((-48 / 25, 14 / 25) : Point2 ℝ) - (0, 0))) = 2 := by
    rw [Real.sqrt_eq_iff_mul_self_eq (normSq_nonneg _) zero_le_two]
    norm_num [normSq, dot]
  simp only [bufferedVoronoiHalfspaces, voronoiHalfspaces, List.map_cons, List.map_nil,
    List.filterMap_cons, List.filterMap_nil, sqrt_real, hright, hleft]
  norm_num [dot]

/-- Thirty sweeps leave the point beyond the first bisector. -/
theorem clip_between (invCdf : ℝ → ℝ) :
    bufferedVoronoiClip invCdf (0, 0) (1, 6) [(2, 0), (-48 / 25, 14 / 25)] 1 =
      ((576 / 625) ^ 29 * (1008 / 625), 24 / 7 * ((576 / 625) ^ 29 * (1008 / 625))) := by
  have hopposed := @projection_opposed ℝ _ _ _ (1, 0) (-24 / 25, 7 / 25) 0 0 (24 / 25)
    (by norm_num [normSq, dot]) (by norm_num [normSq, dot]) (by norm_num [dot]) (by norm_num) 29
    (1, 6) (by norm_num [dot]) (by norm_num [dot])
  have hnot : ¬ Transparent ((1, 6) : Point2 ℝ) [((1, 0), 0), ((-24 / 25, 7 / 25), 0)] := by
    norm_num [Transparent, dot]
  rw [bufferedVoronoiClip, rows_between, projectToHalfspaces, if_neg (by simpa using hnot)]
  obtain ⟨hfirst, hsecond⟩ := hopposed
  generalize (projection ((1, 6) : Point2 ℝ) [((1, 0), 0), ((-24 / 25, 7 / 25), 0)] (29 + 1)).1 = x
    at hfirst hsecond ⊢
  have hx : x.1 = (576 / 625) ^ 29 * (1008 / 625) := by
    norm_num [dot] at hfirst ⊢
    exact hfirst
  have hy : x.2 = 24 / 7 * x.1 := by
    simp only [dot] at hsecond
    linarith
  rw [← hx, ← hy]

end Mission10.Flight
