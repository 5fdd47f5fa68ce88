import Mathlib
import Mission10.Engine.Associate
import Mission10.Engine.OptimalAssignment

/-!
# What one association pass guarantees

The augmented matrix has an assignment without a forbidden cell, the one that
leaves every track and founds one for every tracklet, so an optimal assignment
uses no forbidden cell either. What a matched pair may cost, and what an
unmatched one must, follows by exchanging the columns of a tracklet's row and a
track's miss row.
-/
namespace Mission10.Engine.Associate

open Loops Hungarian Assignment

set_option linter.unusedSectionVars false

variable {K : Type*} [Field K] [LinearOrder K] [MathOps K] [IsStrictOrderedRing K]

variable (a : Associator K) (tracklets : List (Tracklet K))
  (visibility : Option (Point2 K → Verdict)) (place : Tracklet K → Point2 K)

/-- The cost of founding a track for every tracklet and leaving every track. -/
def allBirthCost : K :=
  tracklets.length * birthCost a.gateM +
    (a.tracks.map fun t => missCost a.gateM (verdict visibility t)).sum

theorem dist2_nonneg (p q : Point2 K) : 0 ≤ dist2 p q := by
  unfold dist2
  positivity

theorem big_pos : (0 : K) < big := by
  unfold big
  positivity

theorem birthCost_nonneg (gateM : K) : 0 ≤ birthCost gateM := by
  unfold birthCost
  positivity

theorem missCost_nonneg (gateM : K) (v : Verdict) : 0 ≤ missCost gateM v := by
  cases v
  · exact birthCost_nonneg gateM
  · simp only [missCost]
    positivity
  · exact le_rfl

theorem pairCost_nonneg (gateM : K) (tk : Tracklet K) (p : Point2 K) (track : Track K) :
    0 ≤ pairCost gateM tk p track := by
  unfold pairCost
  split_ifs
  · exact big_pos.le
  · exact dist2_nonneg _ _
  · exact big_pos.le

/-- An allowed pair has one class and lies within the gate. -/
theorem pairCost_lt_big {gateM : K} {tk : Tracklet K} {p : Point2 K} {track : Track K}
    (h : pairCost gateM tk p track < big) :
    tk.classId = track.classId ∧ dist2 p track.center ≤ gateM ^ 2 ∧
      pairCost gateM tk p track = dist2 p track.center := by
  unfold pairCost at h ⊢
  split_ifs at h ⊢ with hclass hgate
  · exact absurd h (lt_irrefl _)
  · exact ⟨not_not.mp hclass, hgate, rfl⟩
  · exact absurd h (lt_irrefl _)

theorem pairCost_eq {gateM : K} {tk : Tracklet K} {p : Point2 K} {track : Track K}
    (hclass : tk.classId = track.classId) (hgate : dist2 p track.center ≤ gateM ^ 2) :
    pairCost gateM tk p track = dist2 p track.center := by
  rw [pairCost, if_neg (not_not.mpr hclass), if_pos hgate]

section Cells

variable {a tracklets visibility place}

theorem cell_nonneg (r c : ℕ) : 0 ≤ cell a tracklets visibility place r c := by
  unfold cell
  cases tracklets[r]? <;> cases a.tracks[c]? <;> dsimp only
  · exact le_rfl
  · split_ifs
    · exact missCost_nonneg _ _
    · exact big_pos.le
  · split_ifs
    · exact birthCost_nonneg _
    · exact big_pos.le
  · exact pairCost_nonneg _ _ _ _

theorem cell_pair {i j : ℕ} {tk : Tracklet K} {track : Track K} (hi : tracklets[i]? = some tk)
    (hj : a.tracks[j]? = some track) :
    cell a tracklets visibility place i j = pairCost a.gateM tk (place tk) track := by
  simp [cell, hi, hj]

theorem cell_birth {i : ℕ} (hi : i < tracklets.length) :
    cell a tracklets visibility place i (a.tracks.length + i) = birthCost a.gateM := by
  simp [cell, List.getElem?_eq_getElem hi]

theorem cell_birth_other {i c : ℕ} (hi : i < tracklets.length) (hc : a.tracks.length ≤ c)
    (hne : c ≠ a.tracks.length + i) : cell a tracklets visibility place i c = big := by
  simp [cell, List.getElem?_eq_getElem hi, List.getElem?_eq_none hc, hne]

theorem cell_miss {j : ℕ} {track : Track K} (hj : a.tracks[j]? = some track) :
    cell a tracklets visibility place (tracklets.length + j) j =
      missCost a.gateM (verdict visibility track) := by
  simp [cell, hj]

theorem cell_miss_other {r j : ℕ} (hr : tracklets.length ≤ r) (hj : j < a.tracks.length)
    (hne : r ≠ tracklets.length + j) : cell a tracklets visibility place r j = big := by
  simp [cell, List.getElem?_eq_getElem hj, List.getElem?_eq_none hr, hne]

theorem cell_dummy {r c : ℕ} (hr : tracklets.length ≤ r) (hc : a.tracks.length ≤ c) :
    cell a tracklets visibility place r c = 0 := by
  simp [cell, List.getElem?_eq_none hr, List.getElem?_eq_none hc]

theorem entry_costMatrix {r c : ℕ} (hr : r < tracklets.length + a.tracks.length)
    (hc : c < tracklets.length + a.tracks.length) :
    entry (costMatrix a tracklets visibility place) r c =
      cell a tracklets visibility place r c := by
  simp [entry, costMatrix, hr, hc]

end Cells

/-- The augmented matrix as a function of its places. -/
abbrev cells (r c : Fin (tracklets.length + a.tracks.length)) : K :=
  cell a tracklets visibility place r c

/-- Every tracklet founds a track and every track is left. -/
def allBirth (m k : ℕ) : Equiv.Perm (Fin (m + k)) :=
  finAddFlip.trans (finCongr (Nat.add_comm k m))

theorem total_allBirth :
    total (cells a tracklets visibility place) (allBirth tracklets.length a.tracks.length) =
      allBirthCost a tracklets visibility := by
  unfold total allBirthCost
  rw [Fin.sum_univ_add]
  congr 1
  · have hbirth : ∀ i : Fin tracklets.length, cells a tracklets visibility place
        (Fin.castAdd a.tracks.length i)
        (allBirth tracklets.length a.tracks.length (Fin.castAdd a.tracks.length i)) =
          birthCost a.gateM := by
      intro i
      have hcell : cell a tracklets visibility place i (a.tracks.length + i) =
          birthCost a.gateM := cell_birth i.2
      simpa [allBirth, cells, Nat.add_comm] using hcell
    simp [hbirth]
  · rw [← Fin.sum_univ_fun_getElem]
    apply Finset.sum_congr rfl
    intro j _
    simp [allBirth, cells, cell_miss (List.getElem?_eq_getElem j.2)]

section Optimal

variable {a tracklets visibility place}
variable {σ : Equiv.Perm (Fin (tracklets.length + a.tracks.length))}
  (hopt : Optimal (cells a tracklets visibility place) σ)
  (hbound : allBirthCost a tracklets visibility < big)

include hopt hbound

/-- An optimal assignment uses no forbidden cell. -/
theorem chosen_lt_big (r : Fin (tracklets.length + a.tracks.length)) :
    cell a tracklets visibility place r (σ r) < big := by
  have hsingle : cells a tracklets visibility place r (σ r) ≤
      total (cells a tracklets visibility place) σ :=
    Finset.single_le_sum (f := fun r => cells a tracklets visibility place r (σ r))
      (fun l _ => cell_nonneg _ _) (Finset.mem_univ r)
  calc cell a tracklets visibility place r (σ r)
      ≤ total (cells a tracklets visibility place) σ := hsingle
    _ ≤ total (cells a tracklets visibility place)
          (allBirth tracklets.length a.tracks.length) := hopt _
    _ = allBirthCost a tracklets visibility := total_allBirth a tracklets visibility place
    _ < big := hbound

/-- A tracklet is assigned to an allowed track or to its own birth column. -/
theorem tracklet_column {i : ℕ} {tk : Tracklet K} (hi : tracklets[i]? = some tk)
    (hin : i < tracklets.length + a.tracks.length) :
    (∃ track, a.tracks[(σ ⟨i, hin⟩ : ℕ)]? = some track ∧
      pairCost a.gateM tk (place tk) track < big) ∨
      (σ ⟨i, hin⟩ : ℕ) = a.tracks.length + i := by
  have hlt := chosen_lt_big hopt hbound ⟨i, hin⟩
  have him : i < tracklets.length := (List.getElem?_eq_some_iff.mp hi).1
  by_cases hc : (σ ⟨i, hin⟩ : ℕ) < a.tracks.length
  · have htrack := List.getElem?_eq_getElem hc
    rw [cell_pair hi htrack] at hlt
    exact Or.inl ⟨_, htrack, hlt⟩
  · by_contra hnot
    rw [not_or] at hnot
    rw [cell_birth_other him (by omega) hnot.2] at hlt
    exact lt_irrefl _ hlt

/-- A miss row is assigned to its own track or to a birth column. -/
theorem miss_column {r : ℕ} (hr : tracklets.length ≤ r)
    (hin : r < tracklets.length + a.tracks.length) :
    tracklets.length + (σ ⟨r, hin⟩ : ℕ) = r ∨ a.tracks.length ≤ (σ ⟨r, hin⟩ : ℕ) := by
  have hlt := chosen_lt_big hopt hbound ⟨r, hin⟩
  by_contra hnot
  rw [not_or] at hnot
  rw [cell_miss_other hr (by omega) (fun e => hnot.1 e.symm)] at hlt
  exact lt_irrefl _ hlt

/-- The row of a column that no tracklet took is the miss row of its track. -/
theorem untaken_row {j : ℕ} (hj : j < a.tracks.length)
    (hfree : ∀ i, ∀ hin : i < tracklets.length + a.tracks.length, i < tracklets.length →
      (σ ⟨i, hin⟩ : ℕ) ≠ j) :
    σ ⟨tracklets.length + j, by omega⟩ = ⟨j, by omega⟩ := by
  obtain ⟨⟨r, hr⟩, hσ⟩ := σ.surjective ⟨j, by omega⟩
  have hval : (σ ⟨r, hr⟩ : ℕ) = j := by rw [hσ]
  have hrow : tracklets.length ≤ r := by
    by_contra hlt
    exact hfree r hr (by omega) hval
  have hown : tracklets.length + j = r := by
    rcases miss_column hopt hbound hrow hr with hown | hbirth
    · rw [← hown, hval]
    · omega
  subst hown
  exact hσ

/-- A tracklet and a track that it leaves cost at least a birth and a miss. -/
theorem unmatched_cost {i j : ℕ} {tk : Tracklet K} {track : Track K}
    (hi : tracklets[i]? = some tk) (hj : a.tracks[j]? = some track)
    (hin : i < tracklets.length + a.tracks.length)
    (hborn : (σ ⟨i, hin⟩ : ℕ) = a.tracks.length + i)
    (hfree : ∀ i, ∀ hin : i < tracklets.length + a.tracks.length, i < tracklets.length →
      (σ ⟨i, hin⟩ : ℕ) ≠ j) :
    birthCost a.gateM + missCost a.gateM (verdict visibility track) ≤
      pairCost a.gateM tk (place tk) track := by
  have him : i < tracklets.length := (List.getElem?_eq_some_iff.mp hi).1
  have hjk : j < a.tracks.length := (List.getElem?_eq_some_iff.mp hj).1
  have hmiss := untaken_row hopt hbound hjk hfree
  have hne : (⟨i, hin⟩ : Fin (tracklets.length + a.tracks.length)) ≠
      ⟨tracklets.length + j, by omega⟩ := by
    intro heq
    rw [Fin.mk.injEq] at heq
    omega
  have hswap := hopt.le_exchange hne
  simp only [cells, hmiss, hborn] at hswap
  rw [cell_birth him, cell_miss hj, cell_pair hi hj, cell_dummy (by omega) (by omega),
    add_zero] at hswap
  exact hswap

/-- A matched pair costs at most a birth and a miss. -/
theorem matched_cost {i : ℕ} {tk : Tracklet K} {track : Track K}
    (hi : tracklets[i]? = some tk) (hin : i < tracklets.length + a.tracks.length)
    (hj : a.tracks[(σ ⟨i, hin⟩ : ℕ)]? = some track) :
    pairCost a.gateM tk (place tk) track ≤
      birthCost a.gateM + missCost a.gateM (verdict visibility track) := by
  have him : i < tracklets.length := (List.getElem?_eq_some_iff.mp hi).1
  have hjk : (σ ⟨i, hin⟩ : ℕ) < a.tracks.length := (List.getElem?_eq_some_iff.mp hj).1
  set row : Fin (tracklets.length + a.tracks.length) := ⟨i, hin⟩ with hrow
  set miss : Fin (tracklets.length + a.tracks.length) :=
    ⟨tracklets.length + (σ row : ℕ), by omega⟩ with hmiss
  set birth : Fin (tracklets.length + a.tracks.length) :=
    ⟨a.tracks.length + i, by omega⟩ with hbirth
  have hne : row ≠ miss := by
    intro heq
    rw [Fin.ext_iff] at heq
    simp only [hrow, hmiss] at heq
    omega
  -- The miss row of the track holds a birth column, which can be taken for this
  -- tracklet's: birth columns cost a miss row nothing.
  have hcol : a.tracks.length ≤ (σ miss : ℕ) := by
    rcases miss_column hopt hbound (r := tracklets.length + (σ row : ℕ)) (by omega) (by omega)
      with hown | hfree
    · have heq : σ miss = σ row := Fin.ext (by simpa using hown)
      exact absurd (σ.injective heq).symm hne
    · exact hfree
  obtain ⟨τ, hτ, hτrow, hτmiss⟩ : ∃ τ, Optimal (cells a tracklets visibility place) τ ∧
      τ row = σ row ∧ τ miss = birth := by
    obtain ⟨e, he⟩ := σ.surjective birth
    have hem : tracklets.length ≤ (e : ℕ) := by
      by_contra hlt
      have hetk := List.getElem?_eq_getElem (show (e : ℕ) < tracklets.length by omega)
      rcases tracklet_column hopt hbound hetk e.2 with ⟨_, htrack, _⟩ | hown
      · have hlt' := (List.getElem?_eq_some_iff.mp htrack).1
        rw [Fin.eta, he] at hlt'
        simp only [hbirth] at hlt'
        omega
      · rw [Fin.eta, he] at hown
        simp only [hbirth] at hown
        have hei : e = row := Fin.ext (by simp only [hrow]; omega)
        rw [hei] at he
        rw [he] at hjk
        simp only [hbirth] at hjk
        omega
    have hrowe : row ≠ e := by
      intro heq
      rw [← heq] at hem
      simp only [hrow] at hem
      omega
    by_cases hmisse : miss = e
    · exact ⟨σ, hopt, rfl, by rw [hmisse, he]⟩
    · refine ⟨exchange σ miss e, hopt.exchange hmisse ?_, exchange_of_ne hne hrowe, ?_⟩
      · have hmissm : tracklets.length ≤ (miss : ℕ) := by simp only [hmiss]; omega
        simp only [cells, he]
        rw [cell_dummy hmissm (by simp only [hbirth]; omega), cell_dummy hem hcol,
          cell_dummy hmissm hcol, cell_dummy hem (by simp only [hbirth]; omega)]
      · rw [exchange_left, he]
  have hswap := hτ.le_exchange hne
  simp only [cells, hτrow, hτmiss] at hswap
  rw [cell_pair hi hj, cell_dummy (by simp only [hmiss]; omega) (by simp only [hbirth]; omega),
    add_zero] at hswap
  have hbirthcell : cell a tracklets visibility place row birth = birthCost a.gateM :=
    cell_birth him
  have hmisscell : cell a tracklets visibility place miss (σ row : ℕ) =
      missCost a.gateM (verdict visibility track) := cell_miss hj
  rw [hbirthcell, hmisscell] at hswap
  exact hswap

end Optimal

end Mission10.Engine.Associate
