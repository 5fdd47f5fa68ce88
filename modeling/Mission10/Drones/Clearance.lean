import Mission10.Drones.Pathfinder

/-!
# The clearance map

For mines inside the grid the map is computed, covers the grid, and holds the
Chebyshev distance of each cell from the nearest mine: a cell is cleared by more
than `G` exactly when every mine is more than `G` away.
-/
namespace Mission10.Drones

open BreadthFirst

/-- The Chebyshev distance. -/
def chebyshev (a b : Cell) : ℕ := max (a.1 - b.1).natAbs (a.2 - b.2).natAbs

theorem inGrid_iff (cell : Cell) :
    inGrid cell = true ↔ (0 ≤ cell.1 ∧ cell.1 < 40) ∧ 0 ≤ cell.2 ∧ cell.2 < 150 := by
  rw [inGrid, decide_eq_true_eq]
  rfl

theorem mem_intRange {lo hi x : ℤ} : x ∈ intRange lo hi ↔ lo ≤ x ∧ x < hi := by
  rw [intRange, List.mem_map]
  constructor
  · rintro ⟨k, hk, rfl⟩
    rw [List.mem_range] at hk
    omega
  · rintro ⟨hlo, hhi⟩
    refine ⟨(x - lo).toNat, ?_, by omega⟩
    rw [List.mem_range]
    omega

theorem mem_gridCells (cell : Cell) : cell ∈ gridCells ↔ inGrid cell = true := by
  rw [gridCells, List.mem_flatMap, inGrid_iff]
  constructor
  · rintro ⟨x, hx, hcell⟩
    obtain ⟨y, hy, rfl⟩ := List.mem_map.mp hcell
    exact ⟨mem_intRange.mp hx, mem_intRange.mp hy⟩
  · rintro ⟨hx, hy⟩
    exact ⟨cell.1, mem_intRange.mpr hx, List.mem_map.mpr ⟨cell.2, mem_intRange.mpr hy, rfl⟩⟩

/-- The cells of the grid. -/
noncomputable def gridField : Finset Cell := Finset.Ico 0 40 ×ˢ Finset.Ico 0 150

theorem mem_gridField (cell : Cell) : cell ∈ gridField ↔ inGrid cell = true := by
  rw [inGrid_iff, gridField, Finset.mem_product, Finset.mem_Ico, Finset.mem_Ico]

theorem card_gridField : gridField.card = 6000 := by
  rw [gridField, Finset.card_product, Int.card_Ico, Int.card_Ico]
  rfl

theorem mem_neighbors (cell other : Cell) :
    other ∈ neighbors cell ↔ inGrid other = true ∧ chebyshev other cell = 1 := by
  obtain ⟨x, y⟩ := cell
  obtain ⟨x', y'⟩ := other
  simp only [neighbors, moved, chebyshev, List.mem_filter, List.mem_map, List.mem_flatMap,
    List.mem_cons, List.not_mem_nil, or_false, decide_eq_true_eq, Prod.mk.injEq]
  constructor
  · rintro ⟨⟨delta, ⟨⟨dx, hdx, dy, hdy, rfl⟩, hne⟩, rfl, rfl⟩, hgrid⟩
    refine ⟨hgrid, ?_⟩
    simp only [ne_eq, Prod.mk.injEq] at hne
    omega
  · rintro ⟨hgrid, hdistance⟩
    refine ⟨⟨(x' - x, y' - y), ⟨⟨x' - x, by omega, y' - y, by omega, rfl⟩, ?_⟩, by simp⟩, hgrid⟩
    intro hzero
    obtain ⟨hx, hy⟩ := Prod.mk.inj hzero
    omega

theorem chebyshev_triangle (a b c : Cell) : chebyshev a c ≤ chebyshev a b + chebyshev b c := by
  have hx : (a.1 - c.1).natAbs ≤ (a.1 - b.1).natAbs + (b.1 - c.1).natAbs := by omega
  have hy : (a.2 - c.2).natAbs ≤ (a.2 - b.2).natAbs + (b.2 - c.2).natAbs := by omega
  refine max_le (hx.trans ?_) (hy.trans ?_)
  · exact add_le_add (le_max_left _ _) (le_max_left _ _)
  · exact add_le_add (le_max_right _ _) (le_max_right _ _)

/-- A coordinate moved by one towards another. -/
def toward (x target : ℤ) : ℤ := if x < target then x + 1 else if target < x then x - 1 else x

section Distance

variable {mines : List Cell}

theorem reach_near {n : ℕ} {cell : Cell} (h : Reach mines neighbors n cell) :
    ∃ mine ∈ mines, chebyshev cell mine ≤ n := by
  induction h with
  | source hmine => exact ⟨_, hmine, by simp [chebyshev]⟩
  | step _ hnext ih =>
    obtain ⟨mine, hmine, hnear⟩ := ih
    have hone := ((mem_neighbors _ _).mp hnext).2
    have htriangle := chebyshev_triangle _ _ mine |>.trans (Nat.add_le_add hone.le hnear)
    exact ⟨mine, hmine, by omega⟩

/-- A mine reaches every cell of the grid in their distance. -/
theorem reach_far (hgrid : ∀ mine ∈ mines, inGrid mine = true) {mine : Cell}
    (hmine : mine ∈ mines) : ∀ n cell, inGrid cell = true → chebyshev cell mine = n →
      Reach mines neighbors n cell := by
  have hinside := (inGrid_iff mine).mp (hgrid mine hmine)
  obtain ⟨mx, my⟩ := mine
  intro n
  induction n with
  | zero =>
    rintro ⟨x, y⟩ - hdistance
    simp only [chebyshev] at hdistance
    obtain ⟨rfl, rfl⟩ : x = mx ∧ y = my := by omega
    exact .source hmine
  | succ n ih =>
    rintro ⟨x, y⟩ hcell hdistance
    rw [inGrid_iff] at hcell
    simp only [chebyshev] at hdistance
    have hx : toward x mx = x ∧ x = mx ∨ toward x mx = x + 1 ∧ x < mx ∨
        toward x mx = x - 1 ∧ mx < x := by
      unfold toward
      omega
    have hy : toward y my = y ∧ y = my ∨ toward y my = y + 1 ∧ y < my ∨
        toward y my = y - 1 ∧ my < y := by
      unfold toward
      omega
    have hbefore : inGrid (toward x mx, toward y my) = true := by
      rw [inGrid_iff]
      omega
    refine .step (ih (toward x mx, toward y my) hbefore ?_) ((mem_neighbors _ _).mpr ⟨?_, ?_⟩)
    · simp only [chebyshev]
      omega
    · rw [inGrid_iff]
      exact hcell
    · simp only [chebyshev]
      omega

end Distance

theorem lookup_dictOf {cells : List Cell} (value : ℕ) {cell : Cell} (h : cell ∈ cells) :
    (dictOf cells value).lookup cell = some value :=
  (lookup_start value cells cell).trans (if_pos h)

theorem mem_dictOf (cells : List Cell) (value : ℕ) (cell : Cell) :
    cell ∈ dictOf cells value ↔ cell ∈ cells := by
  constructor
  · intro hmem
    obtain ⟨found, hfound⟩ := mem_iff_lookup.mp hmem
    by_contra hout
    have hnone := (lookup_start value cells cell).trans (if_neg hout)
    exact absurd (hfound.symm.trans hnone) (by simp)
  · intro h
    exact mem_iff_lookup.mpr ⟨value, lookup_dictOf value h⟩

theorem entries_length_eq {marks : Marks Cell ℕ} (h : ∀ cell, cell ∈ marks ↔ inGrid cell = true) :
    marks.entries.length = 6000 := by
  have hkeys : marks.keys.toFinset = gridField := by
    ext cell
    rw [List.mem_toFinset, ← AList.mem_keys, h, mem_gridField]
  have hcard := List.toFinset_card_of_nodup marks.keys_nodup
  rw [hkeys, card_gridField, AList.keys, List.keys, List.length_map] at hcard
  exact hcard.symm

/-- The map covers the grid with the distances from the mines. -/
structure Clears (mines : List Cell) (clearance : Marks Cell ℕ) : Prop where
  covers : ∀ cell, cell ∈ clearance ↔ inGrid cell = true
  clears : ∀ cell G, inGrid cell = true → G ≤ 150 →
    (G < clearanceAt clearance cell ↔ ∀ mine ∈ mines, G < chebyshev cell mine)

theorem computeClearanceMap_spec {mines : List Cell}
    (hgrid : ∀ mine ∈ mines, inGrid mine = true) :
    ∃ clearance, computeClearanceMap mines = .ok clearance ∧ Clears mines clearance := by
  have hinside : mines.filter (!inGrid ·) = [] := by
    rw [List.filter_eq_nil_iff]
    intro mine hmine
    simp [hgrid mine hmine]
  unfold computeClearanceMap
  simp only [hinside, List.mergeSort_nil, ne_eq, not_true_eq_false, if_false]
  by_cases hnone : mines = []
  · subst hnone
    have hcovers : ∀ cell, cell ∈ dictOf gridCells 151 ↔ inGrid cell = true := fun cell =>
      (mem_dictOf gridCells 151 cell).trans (mem_gridCells cell)
    refine ⟨dictOf gridCells 151, rfl, hcovers, fun cell G hcell hG => ?_⟩
    rw [clearanceAt, lookup_dictOf 151 ((mem_gridCells cell).mpr hcell)]
    exact iff_of_true (Nat.lt_succ_of_le hG) (by simp)
  · rw [if_neg hnone]
    obtain ⟨found, clearance, pred, depth, hsearch, htree, hends⟩ :=
      @search_total Cell ℕ _ mines neighbors (fun cell clearance => (clearance.lookup cell).getD 0 + 1)
        (fun _ => false) (fun _ n => n) gridField
        (fun mine hmine => (mem_gridField mine).mpr (hgrid mine hmine))
        (fun cell _ other hother => (mem_gridField other).mpr ((mem_neighbors _ _).mp hother).1)
        (fun marks cell p n hlookup => by rw [hlookup]; rfl) (searchFuel mines)
        (by rw [card_gridField]; exact Nat.lt_succ_self _)
    have hall : ∀ n cell, Reach mines neighbors n cell → cell ∈ clearance ∧ depth cell ≤ n := by
      cases found with
      | none => exact fun n cell hreach => (hends n cell hreach).2
      | some goal => exact absurd hends.1 (by simp)
    obtain ⟨mine, hmine⟩ := List.exists_mem_of_ne_nil mines hnone
    have hcovers : ∀ cell, cell ∈ clearance ↔ inGrid cell = true := by
      intro cell
      constructor
      · intro hcell
        rw [← mem_gridField]
        exact (htree.reach _ cell rfl hcell).mem_field
          (fun mine hmine => (mem_gridField mine).mpr (hgrid mine hmine))
          (fun cell _ other hother => (mem_gridField other).mpr ((mem_neighbors _ _).mp hother).1)
      · exact fun hcell => (hall _ cell (reach_far hgrid hmine _ cell hcell rfl)).1
    refine ⟨clearance, ?_, hcovers, fun cell G hcell _ => ?_⟩
    · have hfull : ¬ clearance.entries.length ≠ (cols * rows).toNat :=
        not_not.mpr (entries_length_eq hcovers)
      rw [show start 0 mines = start ((fun _ n => n : Option Cell → ℕ → ℕ) none 0) mines from rfl,
        hsearch]
      exact if_neg hfull
    · have hmem := (hcovers cell).mpr hcell
      have hdepth : clearanceAt clearance cell = depth cell := by
        rw [clearanceAt, htree.lookup cell hmem]
        rfl
      rw [hdepth]
      constructor
      · intro hG mine hmine
        have hleast := (hall _ cell (reach_far hgrid hmine _ cell hcell rfl)).2
        omega
      · intro hG
        obtain ⟨mine, hmine, hnear⟩ := reach_near (htree.reach _ cell rfl hmem)
        have hfar := hG mine hmine
        omega

end Mission10.Drones
