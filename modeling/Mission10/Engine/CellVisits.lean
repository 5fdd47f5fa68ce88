import Mission10.Engine.Associate
import Mission10.Engine.Visibility
import Mission10.Library.Grouping

/-!
# Visits and queries

The visits of a cell, kept pose by pose, are the groups of the times at which the cell was
in view. A query scans a square of cells around the cell of the point; the square misses no
cell whose center is within the margin.
-/
namespace Mission10.Engine

set_option linter.unusedSectionVars false

open MathOps Associate

variable {K : Type*} [Field K] [LinearOrder K] [MathOps K]

/-- The visit of a group of times. -/
def Visit.ofTimes (times : List K) : Visit K := ⟨times.headD 0, times.getLastD 0, times.length⟩

/-- One visit for each maximal group of times with no gap between neighbours. -/
def visitsOf (gap : K) (times : List K) : List (Visit K) :=
  (times.splitBy fun a b => decide (b - a ≤ gap)).map Visit.ofTimes

/-- Counting the cells of a query that were seen, and those that were not. -/
def tally (seen : Cell → Bool) (counts : ℕ × ℕ) (cell : Cell) : ℕ × ℕ :=
  if seen cell then (counts.1 + 1, counts.2) else (counts.1, counts.2 + 1)

namespace VisibilityLedger

variable (ledger : VisibilityLedger K)

/-- The ledger with these settings, as the constructor makes it. -/
def fresh : VisibilityLedger K :=
  { ledger with
    cells := fun _ => []
    nFrames := 0
    lastT := none }

/-- The poses of a stream, one after the other. -/
def notePoses (snaps : List (PoseSnapshot K)) : Except String (VisibilityLedger K) :=
  snaps.foldlM notePose ledger

/-- The pose has the cell in view. -/
def sees (snap : PoseSnapshot K) (cell : Cell) : Bool :=
  decide (0 < snap.height) && decide (0 < ledger.radius snap) &&
    decide (cell ∈ ledger.window snap (ledger.radius snap)) &&
      ledger.inView snap (quatRotate snap.q ledger.cam.xBody) (quatRotate snap.q ledger.cam.yBody)
        (quatRotate snap.q ledger.cam.zBody) cell

/-- The times at which a cell was in view. -/
def viewTimes (snaps : List (PoseSnapshot K)) (cell : Cell) : List K :=
  (snaps.filter fun snap => ledger.sees snap cell).map PoseSnapshot.t

def cellOf (ne : Point2 K) : Cell := (floor (ne.1 / ledger.cellM), floor (ne.2 / ledger.cellM))

/-- The visits of the cell of a point. -/
def visits (ne : Point2 K) : List (Visit K) := ledger.cells (ledger.cellOf ne)

/-- Whether a visit of enough frames overlaps the window. -/
def cellSeen (cell : Cell) (minFrames : ℤ) (window : Option (K × K)) : Bool :=
  (ledger.cells cell).any fun v =>
    if (v.nFrames : ℤ) < minFrames then false
    else window.all fun w => decide (v.t0 ≤ w.2) && decide (v.t1 ≥ w.1)

/-- The square of the distance of a point from the center of a cell. -/
def centerDist2 (ne : Point2 K) (cell : Cell) : K :=
  let dn := ((cell.1 : K) + 1 / 2) * ledger.cellM - ne.1
  let de := ((cell.2 : K) + 1 / 2) * ledger.cellM - ne.2
  dn * dn + de * de

/-- The cells that a query looks at. -/
def queryCells (ne : Point2 K) (marginM : K) : List Cell :=
  let k := if marginM > 0 then ceil (marginM / ledger.cellM) else 0
  let own := ledger.cellOf ne
  (indices (own.1 - k) (own.1 + k)).flatMap fun i =>
    ((indices (own.2 - k) (own.2 + k)).map fun j => (i, j)).filter fun cell =>
      decide (cell = own) || !decide (ledger.centerDist2 ne cell > marginM * marginM)

/-- Was the point observed, during the window if one is given? -/
def query (ne : Point2 K) (marginM : K) (minFrames : ℤ) (window : Option (K × K)) : Verdict :=
  let counts := (ledger.queryCells ne marginM).foldl
    (tally fun cell => ledger.cellSeen cell minFrames window) (0, 0)
  if counts.1 = 0 then .unseen
  else if counts.2 = 0 then .observed
  else .edge

end VisibilityLedger

/-! ### The visits of a cell -/

/-- Noting a time makes the visits those of one more time. -/
theorem noteVisit_visitsOf (gap t : K) (times : List K) :
    noteVisit gap t (visitsOf gap times) = visitsOf gap (times ++ [t]) := by
  by_cases hnil : times = []
  · subst hnil
    rfl
  obtain ⟨groups, last, hgroups, hend⟩ :=
    Grouping.exists_last_group (fun a b : K => decide (b - a ≤ gap)) hnil
  have hlast : last.getLast? = some (last.getLastD 0) := by
    rw [hend, List.getLast?_eq_some_getLast hnil, List.getLastD_eq_getLast?, hend,
      List.getLast?_eq_some_getLast hnil]
    rfl
  have hvisits : visitsOf gap times = groups.map Visit.ofTimes ++ [Visit.ofTimes last] := by
    unfold visitsOf
    rw [hgroups, List.map_append]
    rfl
  unfold noteVisit
  rw [hvisits, List.getLast?_concat]
  dsimp only
  split_ifs with hgap
  · unfold visitsOf
    rw [Grouping.splitBy_begin, hgroups, List.map_append, List.map_append]
    · rfl
    · intro before hbefore
      have hsame : before = last.getLastD 0 := by
        rw [← hend, hlast] at hbefore
        exact (Option.some.inj hbefore).symm
      rw [hsame, decide_eq_false_iff_not]
      exact hgap.not_ge
  · rw [List.dropLast_concat]
    unfold visitsOf
    rw [Grouping.splitBy_join hgroups, List.map_append]
    · have hhead : (last ++ [t]).headD 0 = last.headD 0 := by
        cases last with
        | nil => simp at hlast
        | cons first rest => rfl
      have hvisit : Visit.ofTimes (last ++ [t]) =
          { Visit.ofTimes last with t1 := t, nFrames := (Visit.ofTimes last).nFrames + 1 } := by
        unfold Visit.ofTimes
        rw [hhead, List.length_append]
        simp
      rw [List.map_singleton, hvisit]
    · intro before hbefore
      rw [hlast] at hbefore
      rw [← Option.some.inj hbefore, decide_eq_true_eq]
      exact not_lt.mp hgap

namespace VisibilityLedger

/-- What noting a pose does to the ledger. -/
theorem notePose_cells (ledger : VisibilityLedger K) (snap : PoseSnapshot K)
    (htime : ∀ last ∈ ledger.lastT, last ≤ snap.t) :
    ∃ cells nFrames, ledger.notePose snap =
        .ok { ledger with cells := cells, lastT := some snap.t, nFrames := nFrames } ∧
      ∀ cell, cells cell = if ledger.sees snap cell then
        noteVisit ledger.revisitGapS snap.t (ledger.cells cell) else ledger.cells cell := by
  have hmonotonic : ¬(ledger.lastT.any fun last => snap.t < last) = true := by
    rw [Option.any_eq_true]
    rintro ⟨last, hlast, hlt⟩
    exact (of_decide_eq_true hlt).not_ge (htime last hlast)
  unfold notePose
  rw [if_neg hmonotonic]
  dsimp only
  split_ifs with hlow hempty
  · refine ⟨ledger.cells, ledger.nFrames + 1, rfl, fun cell => ?_⟩
    rw [if_neg]
    simp [sees, hlow]
  · refine ⟨ledger.cells, ledger.nFrames + 1, rfl, fun cell => ?_⟩
    rw [if_neg]
    simp [sees, hempty]
  · refine ⟨ledger.scan snap (ledger.radius snap), ledger.nFrames + 1, rfl, fun cell => ?_⟩
    have hsees : ledger.sees snap cell = true ↔
        cell ∈ ledger.window snap (ledger.radius snap) ∧
          ledger.inView snap (quatRotate snap.q ledger.cam.xBody)
            (quatRotate snap.q ledger.cam.yBody) (quatRotate snap.q ledger.cam.zBody) cell =
              true := by
      simp only [sees, not_le.mp hlow, not_le.mp hempty, decide_true, Bool.true_and,
        Bool.and_eq_true, decide_eq_true_eq]
    unfold scan
    rw [Loops.foldl_update (ledger.nodup_window snap _)]
    by_cases h : ledger.sees snap cell = true
    · rw [if_pos h, if_pos (hsees.mp h)]
    · rw [if_neg h, if_neg fun hboth => h (hsees.mpr hboth)]

theorem notePoses_concat (ledger : VisibilityLedger K) (snaps : List (PoseSnapshot K))
    (snap : PoseSnapshot K) :
    ledger.notePoses (snaps ++ [snap]) =
      (ledger.notePoses snaps).bind fun noted => noted.notePose snap := by
  unfold notePoses
  rw [List.foldlM_append]
  simp only [List.foldlM_cons, List.foldlM_nil, bind_pure]
  rfl

/-- After a stream of poses the visits of every cell are the groups of its view times. -/
theorem notePoses_visits (ledger : VisibilityLedger K) (snaps : List (PoseSnapshot K))
    (hordered : (snaps.map PoseSnapshot.t).IsChain (· ≤ ·)) :
    ∃ cells nFrames, ledger.fresh.notePoses snaps = .ok { ledger with
        cells := cells, lastT := (snaps.map PoseSnapshot.t).getLast?, nFrames := nFrames } ∧
      ∀ cell, cells cell = visitsOf ledger.revisitGapS (ledger.viewTimes snaps cell) := by
  induction snaps using List.reverseRecOn with
  | nil => exact ⟨fun _ => [], 0, rfl, fun _ => rfl⟩
  | append_singleton snaps snap ih =>
    rw [List.map_append, List.map_singleton, List.isChain_append] at hordered
    obtain ⟨cells, nFrames, hrun, hcells⟩ := ih hordered.1
    obtain ⟨cells', nFrames', hnote, hcells'⟩ := notePose_cells
      { ledger with
        cells := cells
        lastT := (snaps.map PoseSnapshot.t).getLast?
        nFrames := nFrames } snap fun last hlast => hordered.2.2 last hlast snap.t rfl
    refine ⟨cells', nFrames', ?_, fun cell => ?_⟩
    · rw [notePoses_concat, hrun, List.map_append, List.map_singleton, List.getLast?_concat]
      exact hnote
    · rw [hcells' cell]
      dsimp only
      rw [hcells cell, noteVisit_visitsOf]
      have hsame : sees { ledger with
          cells := cells
          lastT := (snaps.map PoseSnapshot.t).getLast?
          nFrames := nFrames } snap cell = ledger.sees snap cell := rfl
      rw [hsame]
      unfold viewTimes
      rw [List.filter_append, List.map_append]
      split_ifs with hsees
      · simp [hsees]
      · simp [hsees]

/-! ### The cells of a query -/

/-- The count of the seen cells and of the others. -/
theorem foldl_tally (seen : Cell → Bool) (cells : List Cell) (counts : ℕ × ℕ) :
    cells.foldl (tally seen) counts =
      (counts.1 + cells.countP seen, counts.2 + cells.countP fun cell => !seen cell) := by
  induction cells generalizing counts with
  | nil => rfl
  | cons cell cells ih =>
    rw [List.foldl_cons, ih, List.countP_cons, List.countP_cons]
    unfold tally
    cases seen cell with
    | true => simp; omega
    | false => simp; omega

/-- The verdict says whether all, some or none of the scanned cells were seen. -/
theorem query_iff (ledger : VisibilityLedger K) (ne : Point2 K) (marginM : K) (minFrames : ℤ)
    (window : Option (K × K)) (hown : ∃ cell, cell ∈ ledger.queryCells ne marginM) :
    (ledger.query ne marginM minFrames window = .observed ↔
        ∀ cell ∈ ledger.queryCells ne marginM, ledger.cellSeen cell minFrames window = true) ∧
      (ledger.query ne marginM minFrames window = .unseen ↔
        ∀ cell ∈ ledger.queryCells ne marginM, ledger.cellSeen cell minFrames window = false) := by
  have hseen : (ledger.queryCells ne marginM).countP
      (fun cell => ledger.cellSeen cell minFrames window) = 0 ↔
        ∀ cell ∈ ledger.queryCells ne marginM, ledger.cellSeen cell minFrames window = false := by
    simp [List.countP_eq_zero]
  have hunseen : (ledger.queryCells ne marginM).countP
      (fun cell => !ledger.cellSeen cell minFrames window) = 0 ↔
        ∀ cell ∈ ledger.queryCells ne marginM, ledger.cellSeen cell minFrames window = true := by
    simp [List.countP_eq_zero]
  rw [← hseen, ← hunseen]
  unfold query
  rw [foldl_tally]
  simp only [Nat.zero_add]
  split_ifs with hnone hall
  · refine ⟨iff_of_false (by simp) fun hzero => ?_, iff_of_true rfl hnone⟩
    obtain ⟨cell, hcell⟩ := hown
    have hfalse := hseen.mp hnone cell hcell
    have htrue := hunseen.mp hzero cell hcell
    rw [hfalse] at htrue
    contradiction
  · exact ⟨iff_of_true rfl hall, iff_of_false (by simp) hnone⟩
  · exact ⟨iff_of_false (by simp) hall, iff_of_false (by simp) hnone⟩

end VisibilityLedger

section Grid

namespace VisibilityLedger

variable (ledger : VisibilityLedger ℝ)

/-- The square of a cell holds the point. -/
def Contains (ne : Point2 ℝ) (cell : Cell) : Prop :=
  (cell.1 * ledger.cellM ≤ ne.1 ∧ ne.1 < (cell.1 + 1) * ledger.cellM) ∧
    cell.2 * ledger.cellM ≤ ne.2 ∧ ne.2 < (cell.2 + 1) * ledger.cellM

/-- The cell holds the point, or its center is within the margin. -/
def Near (ne : Point2 ℝ) (marginM : ℝ) (cell : Cell) : Prop :=
  ledger.Contains ne cell ∨ √(ledger.centerDist2 ne cell) ≤ marginM

/-- The cell has a visit of enough frames that overlaps the window. -/
def Seen (minFrames : ℤ) (window : Option (ℝ × ℝ)) (cell : Cell) : Prop :=
  ∃ v ∈ ledger.cells cell, minFrames ≤ v.nFrames ∧ ∀ w ∈ window, v.t0 ≤ w.2 ∧ w.1 ≤ v.t1

theorem cellSeen_iff (minFrames : ℤ) (window : Option (ℝ × ℝ)) (cell : Cell) :
    ledger.cellSeen cell minFrames window = true ↔ ledger.Seen minFrames window cell := by
  unfold cellSeen Seen
  rw [List.any_eq_true]
  refine exists_congr fun v => and_congr_right fun _ => ?_
  split_ifs with hfew
  · exact iff_of_false (by simp) fun h => hfew.not_ge h.1
  · rw [and_iff_right (not_lt.mp hfew)]
    cases window with
    | none => simp
    | some w => simp

theorem floor_div_eq_iff {x cm : ℝ} (hcm : 0 < cm) (i : ℤ) :
    floor (x / cm) = i ↔ i * cm ≤ x ∧ x < (i + 1) * cm := by
  rw [floor_eq, Int.floor_eq_iff, le_div_iff₀ hcm, div_lt_iff₀ hcm]

theorem cellOf_eq_iff (ne : Point2 ℝ) (cell : Cell) :
    cell = ledger.cellOf ne ↔ ledger.Contains ne cell := by
  unfold cellOf Contains
  rw [eq_comm, Prod.ext_iff]
  exact and_congr (floor_div_eq_iff ledger.cellM_pos _) (floor_div_eq_iff ledger.cellM_pos _)

/-- Along one axis: a center within the margin has its index in the scanned range. -/
theorem index_in_range {x cm margin : ℝ} (hcm : 0 < cm) {k i : ℤ} (hk : margin ≤ k * cm)
    (h : |((i : ℝ) + 1 / 2) * cm - x| ≤ margin) :
    i ∈ indices (floor (x / cm) - k) (floor (x / cm) + k) := by
  obtain ⟨hlo, hhi⟩ := abs_le.mp h
  obtain ⟨hleft, hright⟩ := (floor_div_eq_iff hcm (floor (x / cm))).mp rfl
  rw [mem_indices]
  constructor
  · have hlt : ((floor (x / cm) - k - 1 : ℤ) : ℝ) < i := by
      push_cast
      by_contra hge
      have hscaled := mul_le_mul_of_nonneg_right (not_lt.mp hge) hcm.le
      nlinarith
    have hint : floor (x / cm) - k - 1 < i := by exact_mod_cast hlt
    omega
  · have hlt : (i : ℝ) < ((floor (x / cm) + k + 1 : ℤ) : ℝ) := by
      push_cast
      by_contra hge
      have hscaled := mul_le_mul_of_nonneg_right (not_lt.mp hge) hcm.le
      nlinarith
    have hint : i < floor (x / cm) + k + 1 := by exact_mod_cast hlt
    omega

theorem sqrt_centerDist2_le {ne : Point2 ℝ} {marginM : ℝ} {cell : Cell} :
    √(ledger.centerDist2 ne cell) ≤ marginM ↔
      0 ≤ marginM ∧ ledger.centerDist2 ne cell ≤ marginM * marginM := by
  rw [Real.sqrt_le_iff, sq]

/-- The scanned square reaches as far as the margin. -/
theorem reach_of_margin (marginM : ℝ) :
    ∃ k : ℤ, (if marginM > 0 then ceil (marginM / ledger.cellM) else 0) = k ∧ 0 ≤ k ∧
      marginM ≤ k * ledger.cellM ∧ (marginM ≤ 0 → k = 0) := by
  have hcm := ledger.cellM_pos
  by_cases hpos : marginM > 0
  · have hle : marginM / ledger.cellM ≤ (⌈marginM / ledger.cellM⌉ : ℝ) := Int.le_ceil _
    refine ⟨⌈marginM / ledger.cellM⌉, if_pos hpos, ?_, ?_, fun h => absurd h hpos.not_ge⟩
    · exact Int.ceil_nonneg (div_pos hpos hcm).le
    · exact (div_le_iff₀ hcm).mp hle
  · refine ⟨0, if_neg hpos, le_rfl, ?_, fun _ => rfl⟩
    rw [Int.cast_zero, zero_mul]
    exact not_lt.mp hpos

/-- The scan looks at exactly the cells near the point. -/
theorem mem_queryCells (ne : Point2 ℝ) (marginM : ℝ) (cell : Cell) :
    cell ∈ ledger.queryCells ne marginM ↔ ledger.Near ne marginM cell := by
  obtain ⟨k, hk, hnonneg, hreach, hzero⟩ := ledger.reach_of_margin marginM
  have hmem : cell ∈ ledger.queryCells ne marginM ↔
      (cell.1 ∈ indices ((ledger.cellOf ne).1 - k) ((ledger.cellOf ne).1 + k) ∧
        cell.2 ∈ indices ((ledger.cellOf ne).2 - k) ((ledger.cellOf ne).2 + k)) ∧
          (cell = ledger.cellOf ne ∨ ledger.centerDist2 ne cell ≤ marginM * marginM) := by
    unfold queryCells
    dsimp only
    rw [hk]
    simp only [List.mem_flatMap, List.mem_filter, List.mem_map, Bool.or_eq_true,
      Bool.not_eq_true', decide_eq_true_eq, decide_eq_false_iff_not, not_lt]
    constructor
    · rintro ⟨i, hi, ⟨j, hj, rfl⟩, hnear⟩
      exact ⟨⟨hi, hj⟩, hnear⟩
    · rintro ⟨⟨hi, hj⟩, hnear⟩
      exact ⟨cell.1, hi, ⟨cell.2, hj, rfl⟩, hnear⟩
  rw [hmem]
  unfold Near
  rw [sqrt_centerDist2_le, ← cellOf_eq_iff]
  constructor
  · rintro ⟨⟨hi, hj⟩, hown | hnear⟩
    · exact Or.inl hown
    · by_cases hneg : marginM < 0
      · left
        rw [mem_indices, hzero hneg.le] at hi hj
        exact Prod.ext (by omega) (by omega)
      · exact Or.inr ⟨not_lt.mp hneg, hnear⟩
  · rintro (hown | ⟨hmargin, hnear⟩)
    · refine ⟨?_, Or.inl hown⟩
      rw [hown, mem_indices, mem_indices]
      omega
    · refine ⟨⟨?_, ?_⟩, Or.inr hnear⟩
      · refine index_in_range ledger.cellM_pos hreach (abs_le_of_sq_le_sq ?_ hmargin)
        unfold centerDist2 at hnear
        nlinarith [mul_self_nonneg (((cell.2 : ℝ) + 1 / 2) * ledger.cellM - ne.2)]
      · refine index_in_range ledger.cellM_pos hreach (abs_le_of_sq_le_sq ?_ hmargin)
        unfold centerDist2 at hnear
        nlinarith [mul_self_nonneg (((cell.1 : ℝ) + 1 / 2) * ledger.cellM - ne.1)]

/-- The verdict of a query says whether all, some or none of the cells near the point were
seen. -/
def AnswersExactly : Prop :=
  ∀ (ne : Point2 ℝ) (marginM : ℝ) (minFrames : ℤ) (window : Option (ℝ × ℝ)),
    (ledger.query ne marginM minFrames window = .observed ↔
        ∀ cell, ledger.Near ne marginM cell → ledger.Seen minFrames window cell) ∧
      (ledger.query ne marginM minFrames window = .edge ↔
        (∃ cell, ledger.Near ne marginM cell ∧ ledger.Seen minFrames window cell) ∧
          ∃ cell, ledger.Near ne marginM cell ∧ ¬ledger.Seen minFrames window cell) ∧
      (ledger.query ne marginM minFrames window = .unseen ↔
        ∀ cell, ledger.Near ne marginM cell → ¬ledger.Seen minFrames window cell)

theorem answersExactly : ledger.AnswersExactly := by
  intro ne marginM minFrames window
  have hown : ledger.cellOf ne ∈ ledger.queryCells ne marginM :=
    (ledger.mem_queryCells ne marginM _).mpr (Or.inl ((ledger.cellOf_eq_iff ne _).mp rfl))
  obtain ⟨hall, hnone⟩ := ledger.query_iff ne marginM minFrames window ⟨_, hown⟩
  simp only [mem_queryCells, cellSeen_iff, Bool.eq_false_iff, ne_eq] at hall hnone
  refine ⟨hall, ?_, hnone⟩
  have hsome : (∃ cell, ledger.Near ne marginM cell ∧ ledger.Seen minFrames window cell) ↔
      ¬ledger.query ne marginM minFrames window = .unseen := by
    rw [hnone]
    simp only [not_forall, not_not, exists_prop]
  have hmissed : (∃ cell, ledger.Near ne marginM cell ∧ ¬ledger.Seen minFrames window cell) ↔
      ¬ledger.query ne marginM minFrames window = .observed := by
    rw [hall]
    simp only [not_forall, exists_prop]
  rw [hsome, hmissed]
  cases ledger.query ne marginM minFrames window <;> simp

/-- The scan has in view what the projection of the cell says, unless the slant range ends
at the ground straight below. -/
theorem sees_iff (snap : PoseSnapshot ℝ) (hrange : ¬ledger.RangeEndsAtGround snap) (cell : Cell) :
    ledger.sees snap cell = true ↔ ledger.Qualifies snap cell := by
  unfold sees
  simp only [Bool.and_eq_true, decide_eq_true_eq]
  constructor
  · rintro ⟨⟨⟨hheight, -⟩, -⟩, hview⟩
    exact (ledger.inView_iff snap hheight cell).mp hview
  · intro h
    have hpos : 0 < ledger.radius snap := by
      refine (radius_pos_or h.1).resolve_right fun hends => ?_
      exact hrange (center_below hends h).1
    exact ⟨⟨⟨h.1, hpos⟩, mem_window hpos h⟩, (ledger.inView_iff snap h.1 cell).mpr h⟩

/-- After every stream of poses in time order, the visits of a cell are the groups of the
times at which it was in view, and a query says whether all, some or none of the cells that
hold the point, or have their center within the margin, were seen. -/
theorem visits_and_query (snaps : List (PoseSnapshot ℝ))
    (hordered : (snaps.map PoseSnapshot.t).IsChain (· ≤ ·)) :
    ∃ noted, ledger.fresh.notePoses snaps = .ok noted ∧
      (∀ cell, noted.cells cell = visitsOf ledger.revisitGapS (ledger.viewTimes snaps cell)) ∧
      (∀ ne, noted.visits ne =
        visitsOf ledger.revisitGapS (ledger.viewTimes snaps (ledger.cellOf ne))) ∧
      noted.AnswersExactly := by
  obtain ⟨cells, nFrames, hrun, hcells⟩ := ledger.notePoses_visits snaps hordered
  exact ⟨_, hrun, hcells, fun ne => hcells (ledger.cellOf ne), answersExactly _⟩

/-- Two poses over a cell, a minute apart. -/
theorem visits_and_query_two_poses :
    let snaps := [poseOver (-1), { poseOver (-2) with t := 60 }]
    ∃ noted, newLedger.fresh.notePoses snaps = .ok noted ∧
      (∀ cell, noted.cells cell =
        visitsOf newLedger.revisitGapS (newLedger.viewTimes snaps cell)) ∧
      (∀ ne, noted.visits ne =
        visitsOf newLedger.revisitGapS (newLedger.viewTimes snaps (newLedger.cellOf ne))) ∧
      noted.AnswersExactly :=
  visits_and_query newLedger [poseOver (-1), { poseOver (-2) with t := 60 }] (by
    norm_num [poseOver])

end VisibilityLedger

end Grid

end Mission10.Engine
