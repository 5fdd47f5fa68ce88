import Mission10.Engine.Numerics
import Mission10.Library.Plane

/-!
# Buffered Voronoi cells

Every drone keeps to its side of the perpendicular bisector toward each peer,
moved in by a buffer. Its goal is projected onto that cell by sweeps over the
half-spaces, a fixed number of them. The quantile function of the normal
distribution, which the variant for uncertain peers needs, is a parameter.
-/
namespace Mission10.Flight

open Engine (MathOps Point2 sqrt_real)
open Engine.MathOps Plane

variable {K : Type*} [Field K] [LinearOrder K] [MathOps K]

/-- A row of `a_mat` with its bound: a unit normal and the greatest product with it. -/
abbrev HalfSpace (K : Type*) := Point2 K × K

/-! ### The projection -/

/-- One turn of the inner loop: a point and the correction of a row. -/
def projectRow (row : HalfSpace K) (x correction : Point2 K) : Point2 K × Point2 K :=
  let yIn := x + correction
  let slack := dot row.1 yIn - row.2
  let y := if slack > 0 then yIn - slack • row.1 else yIn
  (y, yIn - y)

/-- The inner loop over the rows and their corrections. -/
def sweep : Point2 K → List (HalfSpace K × Point2 K) → Point2 K × List (HalfSpace K × Point2 K)
  | x, [] => (x, [])
  | x, (row, correction) :: rest =>
    let turned := projectRow row x correction
    let swept := sweep turned.1 rest
    (swept.1, (row, turned.2) :: swept.2)

/-- The outer loop. -/
def sweeps : ℕ → Point2 K × List (HalfSpace K × Point2 K) →
    Point2 K × List (HalfSpace K × Point2 K)
  | 0, state => state
  | iters + 1, state => sweeps iters (sweep state.1 state.2)

/-- The goal passes: it oversteps no half-space by more than the tolerance. -/
def Transparent (goal : Point2 K) (rows : List (HalfSpace K)) : Prop :=
  ∀ row ∈ rows, dot row.1 goal ≤ row.2 + 1 / 10 ^ 9

instance (goal : Point2 K) (rows : List (HalfSpace K)) : Decidable (Transparent goal rows) := by
  unfold Transparent
  infer_instance

/-- The state of the loops when they end. -/
def projection (goal : Point2 K) (rows : List (HalfSpace K)) (iters : ℕ) :
    Point2 K × List (HalfSpace K × Point2 K) :=
  sweeps iters (goal, rows.map fun row => (row, 0))

/-- `_project_to_halfspaces`. -/
def projectToHalfspaces (goal : Point2 K) (rows : List (HalfSpace K)) (iters : ℕ) : Point2 K :=
  if rows.length = 0 ∨ Transparent goal rows then goal else (projection goal rows iters).1

/-! ### The cells -/

/-- A covariance matrix, by its rows. -/
structure Covariance (K : Type*) where
  first : Point2 K
  second : Point2 K

def normalUncertaintyBuffer (invCdf : K → K) (normal : Point2 K) (cov : Covariance K)
    (delta : K) : K :=
  let var := dot normal (dot cov.first normal, dot cov.second normal)
  if var ≤ 0 then 0 else sqrt var * invCdf (1 - delta)

/-- `_voronoi_halfspaces`; peers at the same place are left out. -/
def voronoiHalfspaces (invCdf : K → K) (own : Point2 K)
    (peers : List (Point2 K × Option (Covariance K))) (safetyRadius delta : K) :
    List (HalfSpace K) :=
  peers.filterMap fun peer =>
    let d := peer.1 - own
    let dist := sqrt (normSq d)
    if dist < 1 / 10 ^ 6 then none
    else
      let n := (1 / dist) • d
      let buffer := match peer.2 with
        | some cov =>
          if delta > 0 then safetyRadius + normalUncertaintyBuffer invCdf n cov delta
          else safetyRadius
        | none => safetyRadius
      some (n, dot n own + dist / 2 - buffer)

def bufferedVoronoiHalfspaces (invCdf : K → K) (own : Point2 K) (peers : List (Point2 K))
    (safetyRadius : K) : List (HalfSpace K) :=
  voronoiHalfspaces invCdf own (peers.map fun peer => (peer, none)) safetyRadius 0

def bufferedUncertaintyHalfspaces (invCdf : K → K) (own : Point2 K)
    (peers : List (Point2 K × Option (Covariance K))) (safetyRadius delta : K) :
    List (HalfSpace K) :=
  voronoiHalfspaces invCdf own peers safetyRadius delta

def bufferedVoronoiClip (invCdf : K → K) (own goal : Point2 K) (peers : List (Point2 K))
    (safetyRadius : K) (iters : ℕ := 30) : Point2 K :=
  projectToHalfspaces goal (bufferedVoronoiHalfspaces invCdf own peers safetyRadius) iters

def bufferedUncertaintyVoronoiClip (invCdf : K → K) (own goal : Point2 K)
    (peers : List (Point2 K × Option (Covariance K))) (safetyRadius delta : K)
    (iters : ℕ := 30) : Point2 K :=
  projectToHalfspaces goal (bufferedUncertaintyHalfspaces invCdf own peers safetyRadius delta) iters

end Mission10.Flight

/-!
## Sweeps over half-spaces

The sweeps never lead away from the cell, and where they have settled the point is
the one of the cell that is closest to the goal. Between two opposed half-spaces
they close in on the cell without reaching it, so that a fixed number of them
leaves a remainder, and its size is known.
-/
namespace Mission10.Flight

open Engine (MathOps Point2 sqrt_real)
open Engine.MathOps Plane

set_option linter.unusedSectionVars false

variable {K : Type*} [Field K] [LinearOrder K] [IsStrictOrderedRing K]

/-- After its turn a half-space rests, and the corrected point is the same. -/
theorem projectRow_spec {row : HalfSpace K} (hunit : normSq row.1 = 1) (x correction : Point2 K) :
    Rests row.1 row.2 (projectRow row x correction).1 (projectRow row x correction).2 ∧
      (projectRow row x correction).1 + (projectRow row x correction).2 = x + correction := by
  simp only [projectRow, add_sub_cancel, and_true]
  split
  · next hslack =>
    rw [sub_sub_cancel]
    exact rests_project hunit (sub_pos.mp hslack)
  · next hslack =>
    rw [sub_self]
    refine ⟨outward_zero _, sub_nonpos.mp (not_lt.mp hslack), ?_⟩
    rw [dot_zero, zero_mul]

/-- What the sweeps keep: the rows, corrections that point outward, and the goal
as the point with all corrections taken back. -/
structure Swept (goal : Point2 K) (rows : List (HalfSpace K)) (x : Point2 K)
    (entries : List (HalfSpace K × Point2 K)) : Prop where
  rows : entries.map Prod.fst = rows
  outward : ∀ e ∈ entries, Outward e.1.1 e.2
  total : x + (entries.map Prod.snd).sum = goal

theorem swept_start (goal : Point2 K) (rows : List (HalfSpace K)) :
    Swept goal rows goal (rows.map fun row => (row, 0)) := by
  constructor
  · rw [List.map_map]
    exact List.map_id rows
  · intro e he
    obtain ⟨row, -, rfl⟩ := List.mem_map.mp he
    exact outward_zero _
  · rw [List.map_map]
    have hzero : (rows.map (Prod.snd ∘ fun row => (row, (0 : Point2 K)))).sum = 0 := by
      apply List.sum_eq_zero
      intro c hc
      obtain ⟨row, -, rfl⟩ := List.mem_map.mp hc
      rfl
    rw [hzero, add_zero]

/-- One sweep keeps it, and the weighted distance from no point grows. -/
theorem sweep_spec (entries : List (HalfSpace K × Point2 K)) (x : Point2 K)
    (hunit : ∀ e ∈ entries, normSq e.1.1 = 1) (hout : ∀ e ∈ entries, Outward e.1.1 e.2) :
    Swept (x + (entries.map Prod.snd).sum) (entries.map Prod.fst) (sweep x entries).1
        (sweep x entries).2 ∧
      ∀ z, potential z (sweep x entries).1 (sweep x entries).2 ≤ potential z x entries := by
  induction entries generalizing x with
  | nil => exact ⟨⟨rfl, hout, rfl⟩, fun z => le_rfl⟩
  | cons e rest ih =>
    obtain ⟨row, correction⟩ := e
    obtain ⟨hn, hunit'⟩ := List.forall_mem_cons.mp hunit
    obtain ⟨hc, hout'⟩ := List.forall_mem_cons.mp hout
    obtain ⟨hrests, hsum⟩ := projectRow_spec hn x correction
    obtain ⟨hswept, hfall⟩ := ih (projectRow row x correction).1 hunit' hout'
    constructor
    · constructor
      · simp only [sweep, List.map_cons, hswept.rows]
      · simp only [sweep]
        exact List.forall_mem_cons.mpr ⟨hrests.outward, hswept.outward⟩
      · simp only [sweep, List.map_cons, List.sum_cons]
        rw [add_left_comm, hswept.total, ← add_assoc, ← add_assoc, ← hsum,
          add_comm (projectRow row x correction).2]
    · intro z
      have hturn := turn_balance_le hn hc hrests hsum z
      have hrest := hfall z
      simp only [potential, sweep, List.map_cons, List.sum_cons] at hturn hrest ⊢
      linarith

/-- The same for a number of sweeps. -/
theorem sweeps_spec {goal : Point2 K} {rows : List (HalfSpace K)}
    (hunit : ∀ row ∈ rows, normSq row.1 = 1) (iters : ℕ)
    (state : Point2 K × List (HalfSpace K × Point2 K)) (hstate : Swept goal rows state.1 state.2) :
    Swept goal rows (sweeps iters state).1 (sweeps iters state).2 ∧
      ∀ z, potential z (sweeps iters state).1 (sweeps iters state).2 ≤
        potential z state.1 state.2 := by
  induction iters generalizing state with
  | zero => exact ⟨hstate, fun z => le_rfl⟩
  | succ iters ih =>
    have hentries : ∀ e ∈ state.2, normSq e.1.1 = 1 := by
      intro e he
      apply hunit
      rw [← hstate.rows]
      exact List.mem_map_of_mem he
    obtain ⟨hswept, hfall⟩ := sweep_spec state.2 state.1 hentries hstate.outward
    rw [hstate.rows, hstate.total] at hswept
    obtain ⟨hswept', hfall'⟩ := ih (sweep state.1 state.2) hswept
    exact ⟨hswept', fun z => (hfall' z).trans (hfall z)⟩

theorem projection_spec {rows : List (HalfSpace K)} (hunit : ∀ row ∈ rows, normSq row.1 = 1)
    (goal : Point2 K) (iters : ℕ) :
    Swept goal rows (projection goal rows iters).1 (projection goal rows iters).2 ∧
      ∀ z, potential z (projection goal rows iters).1 (projection goal rows iters).2 ≤
        normSq (goal - z) := by
  have hspec := sweeps_spec hunit iters (goal, rows.map fun row => (row, 0))
    (swept_start goal rows)
  refine ⟨hspec.1, fun z => ?_⟩
  rw [← potential_zero z goal rows]
  exact hspec.2 z

/-- The projected point is never farther from a point of the cell than the goal. -/
theorem projectToHalfspaces_le {goal : Point2 K} {rows : List (HalfSpace K)}
    (hunit : ∀ row ∈ rows, normSq row.1 = 1) (iters : ℕ) {z : Point2 K} (hz : z ∈ Cell rows) :
    normSq (projectToHalfspaces goal rows iters - z) ≤ normSq (goal - z) := by
  unfold projectToHalfspaces
  split
  · exact le_rfl
  · obtain ⟨hswept, hfall⟩ := projection_spec hunit goal iters
    rw [← hswept.rows] at hz
    exact (normSq_le_potential hz hswept.outward).trans (hfall z)

/-! ### Settled sweeps -/

/-- One more sweep would change nothing. -/
def Settled (goal : Point2 K) (rows : List (HalfSpace K)) (iters : ℕ) : Prop :=
  sweep (projection goal rows iters).1 (projection goal rows iters).2 = projection goal rows iters

/-- A sweep that keeps the corrections finds every half-space at rest. -/
theorem rests_of_sweep (entries : List (HalfSpace K × Point2 K)) (x : Point2 K)
    (hunit : ∀ e ∈ entries, normSq e.1.1 = 1) (hsame : (sweep x entries).2 = entries) :
    ∀ e ∈ entries, Rests e.1.1 e.1.2 x e.2 := by
  induction entries generalizing x with
  | nil => simp
  | cons e rest ih =>
    obtain ⟨row, correction⟩ := e
    obtain ⟨hn, hunit'⟩ := List.forall_mem_cons.mp hunit
    obtain ⟨hrests, hsum⟩ := projectRow_spec hn x correction
    simp only [sweep, List.cons.injEq, Prod.mk.injEq, true_and] at hsame
    obtain ⟨hcorrection, hrest⟩ := hsame
    have hpoint : (projectRow row x correction).1 = x := by
      rw [hcorrection] at hsum
      exact add_right_cancel hsum
    rw [hpoint, hcorrection] at hrests
    rw [hpoint] at hrest
    exact List.forall_mem_cons.mpr ⟨hrests, ih x hunit' hrest⟩

/-- Where the sweeps have settled, the point is the closest one of the cell. -/
theorem projection_closest {goal : Point2 K} {rows : List (HalfSpace K)} {iters : ℕ}
    (hunit : ∀ row ∈ rows, normSq row.1 = 1) (hsettled : Settled goal rows iters) :
    Closest goal (Cell rows) (projection goal rows iters).1 := by
  obtain ⟨hswept, -⟩ := projection_spec hunit goal iters
  have hentries : ∀ e ∈ (projection goal rows iters).2, normSq e.1.1 = 1 := by
    intro e he
    apply hunit
    rw [← hswept.rows]
    exact List.mem_map_of_mem he
  have hclosest := closest_of_rests
    (rests_of_sweep _ (projection goal rows iters).1 hentries (congrArg Prod.snd hsettled))
  rwa [hswept.total, hswept.rows] at hclosest

/-! ### Opposed half-spaces -/

/-- The turn of a half-space that holds the point back. -/
theorem projectRow_active {n x : Point2 K} {b load excess : K} (hn : normSq n = 1)
    (hx : dot n x = b + excess) (hload : 0 ≤ load + excess) :
    projectRow (n, b) x (load • n) = (x - excess • n, (load + excess) • n) := by
  have hself : dot n n = 1 := hn
  have hslack : dot n (x + load • n) - b = load + excess := by
    rw [dot_add, dot_smul, hself, hx]
    ring
  simp only [projectRow, hslack]
  rcases hload.lt_or_eq with hpos | hzero
  · rw [if_pos hpos, sub_sub_cancel, add_smul, add_comm (load • n), add_sub_add_right_eq_sub]
  · have hexcess : excess = -load := by linarith
    rw [if_neg hzero.not_lt, ← hzero, sub_self, zero_smul, hexcess, neg_smul, sub_neg_eq_add]

variable {n₁ n₂ : Point2 K} {b₁ b₂ c : K}

/-- Between opposed half-spaces a sweep multiplies what is left of the overstep of the first. -/
theorem sweep_opposed (hn₁ : normSq n₁ = 1) (hn₂ : normSq n₂ = 1) (hc : dot n₁ n₂ = -c)
    {x : Point2 K} {load₁ load₂ excess₁ excess₂ : K} (hload₁ : 0 ≤ load₁) (hload₂ : 0 ≤ load₂)
    (hx₁ : dot n₁ x = b₁ + excess₁) (hx₂ : dot n₂ x = b₂ + excess₂) (hexcess₁ : 0 ≤ excess₁)
    (hexcess₂ : 0 ≤ excess₂ + c * excess₁) :
    ∃ y, sweep x [((n₁, b₁), load₁ • n₁), ((n₂, b₂), load₂ • n₂)] =
        (y, [((n₁, b₁), (load₁ + excess₁) • n₁),
          ((n₂, b₂), (load₂ + (excess₂ + c * excess₁)) • n₂)]) ∧
      dot n₁ y = b₁ + c * (excess₂ + c * excess₁) ∧ dot n₂ y = b₂ + 0 := by
  have hself₁ : dot n₁ n₁ = 1 := hn₁
  have hself₂ : dot n₂ n₂ = 1 := hn₂
  have hbetween : dot n₂ (x - excess₁ • n₁) = b₂ + (excess₂ + c * excess₁) := by
    rw [dot_sub, dot_smul, dot_comm n₂ n₁, hc, hx₂]
    ring
  refine ⟨x - excess₁ • n₁ - (excess₂ + c * excess₁) • n₂, ?_, ?_, ?_⟩
  · simp only [sweep, projectRow_active hn₁ hx₁ (add_nonneg hload₁ hexcess₁),
      projectRow_active hn₂ hbetween (add_nonneg hload₂ hexcess₂)]
  · rw [dot_sub, dot_sub, dot_smul, dot_smul, hself₁, hc, hx₁]
    ring
  · rw [dot_sub, hbetween, dot_smul, hself₂]
    ring

/-- What a number of sweeps leaves: the overstep of the first half-space falls by
the squared cosine with each sweep and never vanishes. -/
theorem sweeps_opposed (hn₁ : normSq n₁ = 1) (hn₂ : normSq n₂ = 1) (hc : dot n₁ n₂ = -c)
    (hopposed : 0 ≤ c) (iters : ℕ) {x : Point2 K} {load₁ load₂ excess : K} (hload₁ : 0 ≤ load₁)
    (hload₂ : 0 ≤ load₂) (hx₁ : dot n₁ x = b₁ + excess) (hx₂ : dot n₂ x = b₂ + 0)
    (hexcess : 0 ≤ excess) :
    let y := (sweeps iters (x, [((n₁, b₁), load₁ • n₁), ((n₂, b₂), load₂ • n₂)])).1
    dot n₁ y = b₁ + (c * c) ^ iters * excess ∧ dot n₂ y = b₂ := by
  induction iters generalizing x load₁ load₂ excess with
  | zero =>
    constructor
    · rw [pow_zero, one_mul]
      exact hx₁
    · rw [← add_zero b₂]
      exact hx₂
  | succ iters ih =>
    have hnext : 0 ≤ 0 + c * excess := by
      rw [zero_add]
      exact mul_nonneg hopposed hexcess
    obtain ⟨y, hsweep, hy₁, hy₂⟩ :=
      sweep_opposed hn₁ hn₂ hc hload₁ hload₂ hx₁ hx₂ hexcess hnext
    have hrest := ih (add_nonneg hload₁ hexcess) (add_nonneg hload₂ hnext) hy₁ hy₂
      (mul_nonneg hopposed hnext)
    simp only [sweeps, hsweep]
    constructor
    · rw [hrest.1]
      ring
    · exact hrest.2

/-- The projection of a goal beyond two opposed half-spaces. -/
theorem projection_opposed (hn₁ : normSq n₁ = 1) (hn₂ : normSq n₂ = 1) (hc : dot n₁ n₂ = -c)
    (hopposed : 0 ≤ c) (iters : ℕ) {goal : Point2 K} (hgoal₁ : b₁ ≤ dot n₁ goal)
    (hgoal₂ : b₂ ≤ dot n₂ goal) :
    let x := (projection goal [(n₁, b₁), (n₂, b₂)] (iters + 1)).1
    dot n₁ x = b₁ + (c * c) ^ iters *
        (c * (dot n₂ goal - b₂ + c * (dot n₁ goal - b₁))) ∧ dot n₂ x = b₂ := by
  have hexcess₁ : 0 ≤ dot n₁ goal - b₁ := sub_nonneg.mpr hgoal₁
  have hexcess₂ : 0 ≤ dot n₂ goal - b₂ + c * (dot n₁ goal - b₁) :=
    add_nonneg (sub_nonneg.mpr hgoal₂) (mul_nonneg hopposed hexcess₁)
  obtain ⟨y, hsweep, hy₁, hy₂⟩ := sweep_opposed hn₁ hn₂ hc le_rfl le_rfl
    (add_sub_cancel b₁ (dot n₁ goal)).symm (add_sub_cancel b₂ (dot n₂ goal)).symm hexcess₁ hexcess₂
  rw [zero_smul, zero_smul, zero_add, zero_add] at hsweep
  simp only [projection, List.map_cons, List.map_nil, sweeps, hsweep]
  exact sweeps_opposed hn₁ hn₂ hc hopposed iters hexcess₁ hexcess₂ hy₁ hy₂
    (mul_nonneg hopposed hexcess₂)

end Mission10.Flight
