import Mission10.Drones.ShortestPath

/-!
# The best corridor

A corridor is a path from the bottom row to the top row with a half-width: its
cells are farther than the half-width from every mine and as many columns from
the sides. The pathfinder returns a corridor of the highest score, and no path
exactly when no path avoids the mines.
-/
namespace Mission10.Drones

open BreadthFirst

/-- A path that is safe for a half-width. -/
structure Corridor (mines : List Cell) (G : ℕ) (path : List Cell) : Prop where
  bottom : ∃ first, path.head? = some first ∧ first.2 = 0
  top : ∃ last, path.getLast? = some last ∧ last.2 = rows - 1
  adjacent : path.IsChain Adjacent
  inside : ∀ cell ∈ path, inGrid cell = true
  safe : ∀ cell ∈ path, ∀ mine ∈ mines, G < chebyshev cell mine
  margin : ∀ cell ∈ path, (G : ℤ) ≤ cell.1 ∧ (G : ℤ) ≤ cols - 1 - cell.1

section Score

variable {scanTime : ℚ} {G : ℕ} {path other : List Cell}

theorem candidateScore_eq (hscan : 0 ≤ scanTime) (hpath : path ≠ []) :
    candidateScore path G scanTime =
      150000 * ((1 + 2 * G) * 2) / (path.length * 2 * (1 + 7 * scanTime)) := by
  have hlength : (0 : ℚ) < path.length := by
    exact_mod_cast List.length_pos_iff.mpr hpath
  have hpositive : (0 : ℚ) < (1 + 0) * (path.length * cellFt) * (1 + 7 * scanTime + 100 * 0) := by
    have hft : (0 : ℚ) < cellFt := by norm_num [cellFt]
    positivity
  rw [candidateScore, officialScore, if_pos hpositive]
  norm_num [cellFt]

theorem candidateScore_pos (hscan : 0 ≤ scanTime) (hpath : path ≠ []) :
    0 < candidateScore path G scanTime := by
  have hlength : (0 : ℚ) < path.length := by
    exact_mod_cast List.length_pos_iff.mpr hpath
  rw [candidateScore_eq hscan hpath]
  positivity

/-- A shorter path scores no less. -/
theorem candidateScore_le (hscan : 0 ≤ scanTime) (hpath : path ≠ [])
    (hle : path.length ≤ other.length) :
    candidateScore other G scanTime ≤ candidateScore path G scanTime := by
  have hlength : 0 < path.length := List.length_pos_iff.mpr hpath
  have hother : other ≠ [] := List.length_pos_iff.mp (hlength.trans_le hle)
  rw [candidateScore_eq hscan hpath, candidateScore_eq hscan hother]
  have hlength' : (0 : ℚ) < path.length := by exact_mod_cast hlength
  have hle' : (path.length : ℚ) ≤ other.length := by exact_mod_cast hle
  have hdenominator : (path.length : ℚ) * 2 * (1 + 7 * scanTime) ≤
      other.length * 2 * (1 + 7 * scanTime) := by
    gcongr
  exact div_le_div_of_nonneg_left (by positivity) (by positivity) hdenominator

end Score

theorem Walk.ne_nil {clearance : Marks Cell ℕ} {G : ℕ} {path : List Cell}
    (h : Walk clearance G path) : path ≠ [] := by
  obtain ⟨first, hfirst, -⟩ := h.bottom
  rintro rfl
  simp at hfirst

/-- What holds of the best candidate after the half-widths below a bound. -/
structure Best (clearance : Marks Cell ℕ) (scanTime : ℚ) (bound : ℕ) (best : BestPath) : Prop where
  absent : best.path = none → best.score = 0
  present : ∀ path, best.path = some path →
    Walk clearance best.G path ∧ best.score = candidateScore path best.G scanTime
  highest : ∀ G < bound, ∀ path, Walk clearance G path →
    candidateScore path G scanTime ≤ best.score

theorem tryWidth_spec {clearance : Marks Cell ℕ} {scanTime : ℚ} (hscan : 0 ≤ scanTime)
    {bound : ℕ} {best : BestPath} (h : Best clearance scanTime bound best) :
    ∃ best', tryWidth clearance scanTime best bound = .ok best' ∧
      Best clearance scanTime (bound + 1) best' := by
  obtain ⟨result, hresult, hshortest⟩ := shortestSafePath_spec clearance bound
  have hnone : ∀ path, Walk clearance bound path → result ≠ none := by
    rintro path hpath rfl
    exact hshortest path hpath
  unfold tryWidth
  rw [hresult]
  cases result with
  | none =>
    refine ⟨best, rfl, h.absent, h.present, fun G hG path hpath => ?_⟩
    rcases Nat.lt_or_eq_of_le (Nat.le_of_lt_succ hG) with hlt | rfl
    · exact h.highest G hlt path hpath
    · exact absurd rfl (hnone path hpath)
  | some path =>
    obtain ⟨⟨hwalk, -⟩, hleast⟩ := hshortest
    have hbest : ∀ other, Walk clearance bound other →
        candidateScore other bound scanTime ≤ candidateScore path bound scanTime :=
      fun other hother => candidateScore_le hscan hwalk.ne_nil (hleast other hother)
    dsimp only
    split
    · rename_i hbetter
      refine ⟨_, rfl, by simp, ?_, fun G hG other hother => ?_⟩
      · rintro found hfound
        obtain rfl := Option.some.inj hfound
        exact ⟨hwalk, rfl⟩
      · rcases Nat.lt_or_eq_of_le (Nat.le_of_lt_succ hG) with hlt | rfl
        · exact (h.highest G hlt other hother).trans hbetter.le
        · exact hbest other hother
    · rename_i hworse
      refine ⟨best, rfl, h.absent, h.present, fun G hG other hother => ?_⟩
      rcases Nat.lt_or_eq_of_le (Nat.le_of_lt_succ hG) with hlt | rfl
      · exact h.highest G hlt other hother
      · exact (hbest other hother).trans (not_lt.mp hworse)

theorem tryWidths_spec (clearance : Marks Cell ℕ) {scanTime : ℚ} (hscan : 0 ≤ scanTime)
    (bound : ℕ) : ∃ best, (List.range bound).foldlM (tryWidth clearance scanTime) {} = .ok best ∧
      Best clearance scanTime bound best := by
  induction bound with
  | zero => exact ⟨{}, rfl, fun _ => rfl, by simp, by simp⟩
  | succ bound ih =>
    obtain ⟨best, hfold, hbest⟩ := ih
    obtain ⟨best', htry, hbest'⟩ := tryWidth_spec hscan hbest
    refine ⟨best', ?_, hbest'⟩
    rw [List.range_succ, List.foldlM_append, hfold]
    simp only [bind, Except.bind, List.foldlM_cons, List.foldlM_nil, htry]
    rfl

section Corridors

variable {mines : List Cell} {clearance : Marks Cell ℕ} {G : ℕ} {path : List Cell}

theorem Corridor.lt_twenty (h : Corridor mines G path) : G < 20 := by
  obtain ⟨first, hfirst, -⟩ := h.bottom
  have hmargin := h.margin first (List.mem_of_mem_head? hfirst)
  have hcols : cols = 40 := rfl
  omega

/-- The corridors of a half-width are the walks over the clearance map. -/
theorem Clears.walk_iff (h : Clears mines clearance) :
    Walk clearance G path ↔ Corridor mines G path := by
  have hcols : cols = 40 := rfl
  constructor
  · intro hwalk
    have hinside : ∀ cell ∈ path, inGrid cell = true := fun cell hcell =>
      inGrid_of_isOpen (hwalk.passable cell hcell)
    have hopen : ∀ cell ∈ path, _ := fun cell hcell =>
      (isOpen_iff cell).mp (hwalk.passable cell hcell)
    refine ⟨hwalk.bottom, hwalk.top, hwalk.adjacent, hinside, fun cell hcell => ?_,
      fun cell hcell => ?_⟩
    · have hbounds := (hopen cell hcell).1
      exact (h.clears cell G (hinside cell hcell) (by omega)).mp (hopen cell hcell).2
    · have hbounds := (hopen cell hcell).1
      omega
  · intro hcorridor
    have hnarrow := hcorridor.lt_twenty
    refine ⟨hcorridor.bottom, hcorridor.top, hcorridor.adjacent, fun cell hcell => ?_⟩
    have hinside := hcorridor.inside cell hcell
    have hgrid := (inGrid_iff cell).mp hinside
    have hmargin := hcorridor.margin cell hcell
    rw [isOpen_iff]
    refine ⟨by omega, ?_⟩
    exact (h.clears cell G hinside (by omega)).mpr (hcorridor.safe cell hcell)

/-- A corridor is one of half-width 0, a path that avoids the mines. -/
theorem Corridor.mineFree (h : Corridor mines G path) : Corridor mines 0 path := by
  refine ⟨h.bottom, h.top, h.adjacent, h.inside, fun cell hcell mine hmine => ?_,
    fun cell hcell => ?_⟩
  · have hsafe := h.safe cell hcell mine hmine
    omega
  · have hmargin := h.margin cell hcell
    push_cast
    omega

end Corridors

/-- For mines inside the grid the pathfinder returns a corridor whose score no
corridor exceeds, and no path exactly when no path avoids the mines. -/
theorem best_corridor {mines : List Cell} (hgrid : ∀ mine ∈ mines, inGrid mine = true)
    {scanTime : ℚ} (hscan : 0 ≤ scanTime) : ∃ path G clearance,
    findBestPath mines scanTime = .ok (path, G, clearance) ∧
    (path = none ↔ ∀ other, ¬ Corridor mines 0 other) ∧
    ∀ best, path = some best → Corridor mines G best ∧
      ∀ G' other, Corridor mines G' other →
        candidateScore other G' scanTime ≤ candidateScore best G scanTime := by
  obtain ⟨clearance, hclearance, hclears⟩ := computeClearanceMap_spec hgrid
  obtain ⟨best, hfold, hbest⟩ := tryWidths_spec clearance hscan 20
  have hall : ∀ G other, Corridor mines G other →
      candidateScore other G scanTime ≤ best.score := fun G other hother =>
    hbest.highest G hother.lt_twenty other (hclears.walk_iff.mpr hother)
  refine ⟨best.path, best.G, best.clearance, ?_, ⟨fun hnone other hother => ?_, fun hnone => ?_⟩,
    fun path hpath => ?_⟩
  · unfold findBestPath
    rw [hclearance]
    exact congrArg (fun result : Except PathfinderFault BestPath =>
      result >>= fun best => pure (best.path, best.G, best.clearance)) hfold
  · have hle := hall 0 other hother
    have hpositive := candidateScore_pos (G := 0) hscan (hclears.walk_iff.mpr hother).ne_nil
    rw [hbest.absent hnone] at hle
    exact absurd hpositive (not_lt.mpr hle)
  · cases hpath : best.path with
    | none => rfl
    | some path =>
      exact absurd (hclears.walk_iff.mp (hbest.present path hpath).1).mineFree (hnone path)
  · obtain ⟨hwalk, hscore⟩ := hbest.present path hpath
    exact ⟨hclears.walk_iff.mp hwalk, fun G' other hother => hscore ▸ hall G' other hother⟩

theorem best_corridor_two_mines : ∃ path G clearance,
    findBestPath [(5, 20), (33, 35)] 7 = .ok (path, G, clearance) ∧
    (path = none ↔ ∀ other, ¬ Corridor [(5, 20), (33, 35)] 0 other) := by
  have hgrid : ∀ mine ∈ ([(5, 20), (33, 35)] : List Cell), inGrid mine = true := by decide
  have hscan : (0 : ℚ) ≤ 7 := by norm_num
  obtain ⟨path, G, clearance, hfind, hnone, -⟩ := best_corridor hgrid hscan
  exact ⟨path, G, clearance, hfind, hnone⟩

/-!
## The shortest corridor

The clearance map holds the exact Chebyshev distance of every cell from the
nearest mine, or more than any distance of the field when there is no mine. Over
this map the search for a half-width returns a corridor with the fewest cells, and
none exactly when there is no corridor.
-/
/-- Two cells of the grid are closer than the grid is high. -/
theorem chebyshev_lt_rows {a b : Cell} (ha : inGrid a = true) (hb : inGrid b = true) :
    chebyshev a b < 150 := by
  rw [inGrid_iff] at ha hb
  unfold chebyshev
  omega

section Distances

variable {mines : List Cell} {clearance : Marks Cell ℕ} {cell : Cell}

/-- No mine is nearer than the clearance. -/
theorem Clears.clearance_le (h : Clears mines clearance)
    (hgrid : ∀ mine ∈ mines, inGrid mine = true) (hcell : inGrid cell = true) {mine : Cell}
    (hmine : mine ∈ mines) : clearanceAt clearance cell ≤ chebyshev cell mine := by
  have hnear : chebyshev cell mine < 150 := chebyshev_lt_rows hcell (hgrid mine hmine)
  by_contra hlarge
  have hfar := (h.clears cell (chebyshev cell mine) hcell hnear.le).mp (not_le.mp hlarge)
  exact absurd (hfar mine hmine) (lt_irrefl _)

/-- Some mine is as near as the clearance. -/
theorem Clears.exists_mine (h : Clears mines clearance)
    (hgrid : ∀ mine ∈ mines, inGrid mine = true) (hcell : inGrid cell = true)
    (hmines : mines ≠ []) :
    ∃ mine ∈ mines, chebyshev cell mine = clearanceAt clearance cell := by
  obtain ⟨first, hfirst⟩ := List.exists_mem_of_ne_nil mines hmines
  have hsmall : clearanceAt clearance cell ≤ 150 :=
    (h.clearance_le hgrid hcell hfirst).trans (chebyshev_lt_rows hcell (hgrid first hfirst)).le
  by_contra hnone
  have hfar : ∀ mine ∈ mines, clearanceAt clearance cell < chebyshev cell mine := by
    intro mine hmine
    refine lt_of_le_of_ne (h.clearance_le hgrid hcell hmine) fun heq => ?_
    exact hnone ⟨mine, hmine, heq.symm⟩
  exact absurd ((h.clears cell _ hcell hsmall).mpr hfar) (lt_irrefl _)

/-- The clearance is the distance from the nearest mine. -/
theorem Clears.isLeast (h : Clears mines clearance)
    (hgrid : ∀ mine ∈ mines, inGrid mine = true) (hcell : inGrid cell = true)
    (hmines : mines ≠ []) :
    IsLeast {d | ∃ mine ∈ mines, chebyshev cell mine = d} (clearanceAt clearance cell) := by
  refine ⟨h.exists_mine hgrid hcell hmines, ?_⟩
  rintro d ⟨mine, hmine, rfl⟩
  exact h.clearance_le hgrid hcell hmine

/-- Without mines the clearance exceeds every distance of the field. -/
theorem Clears.lt_of_nil (h : Clears [] clearance) (hcell : inGrid cell = true) {other : Cell}
    (hother : inGrid other = true) : chebyshev cell other < clearanceAt clearance cell := by
  have hlarge : 150 < clearanceAt clearance cell :=
    (h.clears cell 150 hcell le_rfl).mpr (by simp)
  exact (chebyshev_lt_rows hcell hother).trans hlarge

/-- The search over the map of the distances. -/
theorem Clears.search (h : Clears mines clearance) (G : ℕ) :
    ∃ result, shortestSafePath clearance G = .ok result ∧
      (result = none ↔ ∀ other, ¬ Corridor mines G other) ∧
      ∀ path, result = some path → Corridor mines G path ∧
        ∀ other, Corridor mines G other → path.length ≤ other.length := by
  obtain ⟨result, hresult, hshortest⟩ := shortestSafePath_spec clearance G
  refine ⟨result, hresult, ?_⟩
  cases result with
  | none =>
    refine ⟨iff_of_true rfl fun other hother => ?_, by simp⟩
    exact hshortest other (h.walk_iff.mpr hother)
  | some path =>
    obtain ⟨⟨hwalk, -⟩, hleast⟩ := hshortest
    have hcorridor : Corridor mines G path := h.walk_iff.mp hwalk
    refine ⟨iff_of_false (by simp) fun hnone => hnone path hcorridor, fun found hfound => ?_⟩
    obtain rfl := Option.some.inj hfound
    exact ⟨hcorridor, fun other hother => hleast other (h.walk_iff.mpr hother)⟩

end Distances

/-- For mines inside the grid the clearance map covers the grid with the distances
from the nearest mine, and for every half-width the search over it returns a
corridor with the fewest cells, or none when there is none. -/
theorem shortest_corridor {mines : List Cell} (hgrid : ∀ mine ∈ mines, inGrid mine = true) :
    ∃ clearance, computeClearanceMap mines = .ok clearance ∧
      (∀ cell, cell ∈ clearance ↔ inGrid cell = true) ∧
      (∀ cell, inGrid cell = true → mines ≠ [] →
        IsLeast {d | ∃ mine ∈ mines, chebyshev cell mine = d} (clearanceAt clearance cell)) ∧
      (mines = [] → ∀ cell other, inGrid cell = true → inGrid other = true →
        chebyshev cell other < clearanceAt clearance cell) ∧
      ∀ G, ∃ result, shortestSafePath clearance G = .ok result ∧
        (result = none ↔ ∀ other, ¬ Corridor mines G other) ∧
        ∀ path, result = some path → Corridor mines G path ∧
          ∀ other, Corridor mines G other → path.length ≤ other.length := by
  obtain ⟨clearance, hmap, hclears⟩ := computeClearanceMap_spec hgrid
  refine ⟨clearance, hmap, hclears.covers, ?_, ?_, hclears.search⟩
  · intro cell hcell hmines
    exact hclears.isLeast hgrid hcell hmines
  · rintro rfl cell other hcell hother
    exact hclears.lt_of_nil hcell hother

theorem shortest_corridor_two_mines :
    ∃ clearance, computeClearanceMap [(5, 20), (33, 35)] = .ok clearance ∧
      IsLeast {d | ∃ mine ∈ ([(5, 20), (33, 35)] : List Cell), chebyshev (5, 22) mine = d}
        (clearanceAt clearance (5, 22)) := by
  have hgrid : ∀ mine ∈ ([(5, 20), (33, 35)] : List Cell), inGrid mine = true := by decide
  obtain ⟨clearance, hmap, -, hleast, -⟩ := shortest_corridor hgrid
  exact ⟨clearance, hmap, hleast (5, 22) (by decide) (by simp)⟩

end Mission10.Drones
