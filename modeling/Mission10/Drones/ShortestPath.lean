import Mission10.Drones.Clearance

/-!
# The shortest safe path

A walk for a half-width goes from the bottom row to the top row over open cells,
one step at a time. The search returns a shortest one or none when there is none.
Its path enters the bottom row and leaves the top row at no step, since all open
cells of the bottom row are entrances and a cell of the top row ends the search.
-/
namespace Mission10.Drones

open BreadthFirst

variable {clearance : Marks Cell ℕ} {G : ℕ}

/-- Cells that share a side. -/
def Adjacent (a b : Cell) : Prop := (a.1 - b.1).natAbs + (a.2 - b.2).natAbs = 1

/-- A path over open cells from the bottom row to the top row. -/
structure Walk (clearance : Marks Cell ℕ) (G : ℕ) (path : List Cell) : Prop where
  bottom : ∃ first, path.head? = some first ∧ first.2 = 0
  top : ∃ last, path.getLast? = some last ∧ last.2 = rows - 1
  adjacent : path.IsChain Adjacent
  passable : ∀ cell ∈ path, isOpen clearance G cell = true

/-- A step that enters no cell of the bottom row and leaves none of the top row. -/
def Onward (a b : Cell) : Prop := b.2 ≠ 0 ∧ a.2 ≠ rows - 1

theorem isOpen_iff (cell : Cell) : isOpen clearance G cell = true ↔
    (((G : ℤ) ≤ cell.1 ∧ cell.1 ≤ 40 - G - 1) ∧ 0 ≤ cell.2 ∧ cell.2 < 150) ∧
      G < clearanceAt clearance cell := by
  rw [isOpen, decide_eq_true_eq]
  rfl

theorem inGrid_of_isOpen {cell : Cell} (h : isOpen clearance G cell = true) :
    inGrid cell = true := by
  rw [isOpen_iff] at h
  rw [inGrid_iff]
  omega

theorem mem_openNeighbors (cell other : Cell) : other ∈ openNeighbors clearance G cell ↔
    Adjacent cell other ∧ isOpen clearance G other = true := by
  obtain ⟨x, y⟩ := cell
  obtain ⟨x', y'⟩ := other
  simp only [openNeighbors, moved, Adjacent, List.mem_filter, List.map_cons, List.map_nil,
    List.mem_cons, List.not_mem_nil, or_false, Prod.mk.injEq]
  refine and_congr_left fun _ => ?_
  omega

theorem mem_entrances (cell : Cell) : cell ∈ entrances clearance G ↔
    cell.2 = 0 ∧ isOpen clearance G cell = true := by
  obtain ⟨x, y⟩ := cell
  rw [entrances, List.mem_filter, List.mem_map, isOpen_iff, decide_eq_true_eq]
  constructor
  · rintro ⟨⟨x', hx, heq⟩, hclear⟩
    obtain ⟨rfl, rfl⟩ := Prod.mk.inj heq
    rw [mem_intRange] at hx
    have hcols : cols = 40 := rfl
    dsimp only
    exact ⟨rfl, by omega, hclear⟩
  · rintro ⟨hrow, hbounds, hclear⟩
    dsimp only at hrow
    subst hrow
    have hcols : cols = 40 := rfl
    exact ⟨⟨x, mem_intRange.mpr (by dsimp only at hbounds; omega), rfl⟩, hclear⟩

/-- The walk from an entrance reaches its last cell. -/
theorem reach_of_chain {sources : List Cell} {path : List Cell} : ∀ {n : ℕ} {first last : Cell},
    Reach sources (openNeighbors clearance G) n first →
    (first :: path).IsChain Adjacent → (∀ cell ∈ path, isOpen clearance G cell = true) →
    (first :: path).getLast? = some last →
    Reach sources (openNeighbors clearance G) (n + path.length) last := by
  induction path with
  | nil =>
    intro n first last hreach _ _ hlast
    obtain rfl : first = last := by simpa using hlast
    exact hreach
  | cons second path ih =>
    intro n first last hreach hchain hopen hlast
    obtain ⟨hadjacent, hchain⟩ := List.isChain_cons_cons.mp hchain
    obtain ⟨hsecond, hopen⟩ := List.forall_mem_cons.mp hopen
    have hnext := hreach.step ((mem_openNeighbors first second).mpr ⟨hadjacent, hsecond⟩)
    have hrest := ih hnext hchain hopen (by simpa using hlast)
    rwa [List.length_cons, show n + (path.length + 1) = n + 1 + path.length by omega]

theorem Walk.reach {path : List Cell} (h : Walk clearance G path) :
    ∃ last, last.2 = rows - 1 ∧
      Reach (entrances clearance G) (openNeighbors clearance G) (path.length - 1) last := by
  obtain ⟨first, hfirst, hbottom⟩ := h.bottom
  obtain ⟨last, hlast, htop⟩ := h.top
  cases path with
  | nil => simp at hfirst
  | cons head path =>
    obtain rfl : head = first := by simpa using hfirst
    have hsource : Reach (entrances clearance G) (openNeighbors clearance G) 0 head :=
      .source ((mem_entrances head).mpr ⟨hbottom, h.passable head List.mem_cons_self⟩)
    have hreach := reach_of_chain hsource h.adjacent
      (fun cell hcell => h.passable cell (List.mem_cons_of_mem _ hcell)) hlast
    refine ⟨last, htop, ?_⟩
    simpa using hreach

theorem isOpen_of_marked {goal : Cell → Bool} {cameFrom : Marks Cell (Option Cell)}
    {pred : Cell → Option Cell} {depth : Cell → ℕ}
    (htree : Tree (entrances clearance G) (openNeighbors clearance G) goal (fun p _ => p) cameFrom
      pred depth) {cell : Cell} (hcell : cell ∈ cameFrom) : isOpen clearance G cell = true := by
  rcases htree.source_or_next hcell with h | ⟨before, h⟩
  · exact ((mem_entrances cell).mp h).2
  · exact ((mem_openNeighbors before cell).mp h).2

/-- The path read from the marks of the search. -/
theorem walk_of_trace {cameFrom : Marks Cell (Option Cell)} {pred : Cell → Option Cell}
    {depth : Cell → ℕ}
    (htree : Tree (entrances clearance G) (openNeighbors clearance G)
      (fun cell => cell.2 = rows - 1) (fun p _ => p) cameFrom pred depth)
    {goal : Cell} (hgoal : goal.2 = rows - 1) {path : List Cell}
    (hhead : path.head? = some goal)
    (hlast : ∃ s ∈ entrances clearance G, path.getLast? = some s)
    (hmarked : ∀ cell ∈ path, cell ∈ cameFrom)
    (hchain : path.IsChain fun b a => b ∈ openNeighbors clearance G a ∧
      decide (a.2 = rows - 1) = false ∧ depth b = depth a + 1) :
    Walk clearance G path.reverse ∧ path.reverse.IsChain Onward := by
  obtain ⟨source, hsource, hlast⟩ := hlast
  have hstep : ∀ b a : Cell, (b ∈ openNeighbors clearance G a ∧
      decide (a.2 = rows - 1) = false ∧ depth b = depth a + 1) → Adjacent a b ∧ Onward a b := by
    rintro b a ⟨hnext, htop, hdepth⟩
    obtain ⟨hadjacent, hopen⟩ := (mem_openNeighbors a b).mp hnext
    refine ⟨hadjacent, fun hbottom => ?_, of_decide_eq_false htop⟩
    have hentrance := (htree.source b ((mem_entrances b).mpr ⟨hbottom, hopen⟩)).2
    omega
  have hreversed : path.reverse.IsChain fun a b => Adjacent a b ∧ Onward a b :=
    List.isChain_reverse.mpr (hchain.imp hstep)
  refine ⟨⟨?_, ?_, hreversed.imp fun _ _ h => h.1, fun cell hcell => ?_⟩,
    hreversed.imp fun _ _ h => h.2⟩
  · exact ⟨source, by rw [List.head?_reverse, hlast], ((mem_entrances source).mp hsource).1⟩
  · exact ⟨goal, by rw [List.getLast?_reverse, hhead], hgoal⟩
  · exact isOpen_of_marked htree (hmarked cell (List.mem_reverse.mp hcell))

/-- The result is a shortest walk, which only moves onward, or none when there is
no walk. -/
def Shortest (clearance : Marks Cell ℕ) (G : ℕ) : Option (List Cell) → Prop
  | none => ∀ path, ¬ Walk clearance G path
  | some path => (Walk clearance G path ∧ path.IsChain Onward) ∧
      ∀ other, Walk clearance G other → path.length ≤ other.length

/-- A walk starts at an entrance between the margins. -/
theorem Walk.exists_entrance {path : List Cell} (h : Walk clearance G path) :
    ¬ cols - G - 1 < G ∧ entrances clearance G ≠ [] := by
  obtain ⟨first, hfirst, hbottom⟩ := h.bottom
  have hopen := h.passable first (List.mem_of_mem_head? hfirst)
  have hbounds := ((isOpen_iff first).mp hopen).1
  have hcols : cols = 40 := rfl
  exact ⟨by omega, List.ne_nil_of_mem ((mem_entrances first).mpr ⟨hbottom, hopen⟩)⟩

theorem mem_field_of_isOpen {cell : Cell} (h : isOpen clearance G cell = true) :
    cell ∈ gridField := (mem_gridField cell).mpr (inGrid_of_isOpen h)

theorem shortestSafePath_spec (clearance : Marks Cell ℕ) (G : ℕ) :
    ∃ result, shortestSafePath clearance G = .ok result ∧ Shortest clearance G result := by
  unfold shortestSafePath
  split
  · rename_i hnarrow
    exact ⟨none, rfl, fun path hpath => hpath.exists_entrance.1 hnarrow⟩
  · dsimp only
    split
    · rename_i hclosed
      exact ⟨none, rfl, fun path hpath => hpath.exists_entrance.2 hclosed⟩
    · obtain ⟨found, cameFrom, pred, depth, hsearch, htree, hends⟩ :=
        @search_total Cell (Option Cell) _ (entrances clearance G) (openNeighbors clearance G)
          (fun current _ => some current) (fun cell => cell.2 = rows - 1) (fun p _ => p) gridField
          (fun cell hcell => mem_field_of_isOpen ((mem_entrances cell).mp hcell).2)
          (fun cell _ other hother => mem_field_of_isOpen ((mem_openNeighbors _ _).mp hother).2)
          (fun _ _ _ _ _ => rfl) (searchFuel (entrances clearance G))
          (by rw [card_gridField]; exact Nat.lt_succ_self _)
      rw [hsearch]
      cases found with
      | none =>
        refine ⟨none, rfl, fun path hpath => ?_⟩
        obtain ⟨last, htop, hreach⟩ := hpath.reach
        exact of_decide_eq_false (hends _ last hreach).1 htop
      | some current =>
        obtain ⟨hgoal, hcurrent, hleast⟩ := hends
        have hdepth := htree.depth_lt (fun cell hcell =>
          mem_field_of_isOpen (isOpen_of_marked htree hcell)) hcurrent
        have hfuel : depth current < searchFuel (entrances clearance G) := by
          rw [card_gridField] at hdepth
          exact hdepth.trans_le (Nat.le_succ_of_le (Nat.le_add_left _ _))
        obtain ⟨path, htrace, hlength, hhead, hlast, hmarked, hchain⟩ :=
          trace_spec htree hcurrent hfuel
        dsimp only
        rw [htrace]
        obtain ⟨hwalk, honward⟩ :=
          walk_of_trace htree (of_decide_eq_true hgoal) hhead hlast hmarked hchain
        refine ⟨some path.reverse, rfl, ⟨hwalk, honward⟩, fun other hother => ?_⟩
        obtain ⟨last, htop, hreach⟩ := hother.reach
        have hbest := hleast _ last hreach (decide_eq_true htop)
        have hpositive : 0 < other.length := by
          obtain ⟨first, hfirst, -⟩ := hother.bottom
          exact List.length_pos_of_mem (List.mem_of_mem_head? hfirst)
        rw [List.length_reverse, hlength]
        omega

end Mission10.Drones
