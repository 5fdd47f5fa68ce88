import Mathlib.Algebra.Order.Floor.Ring
import Mathlib.Data.Rat.Floor
import Mathlib.Tactic

/-!
# Evenly spaced windows

Rounding to the nearest integer, halves to the even one, is monotone and
commutes with even shifts. Windows at the rounded multiples of an even spacing
then hold every interval short enough for the spacing.
-/
namespace EvenSpacing

def roundHalfEven (x : ℚ) : ℤ :=
  if Int.fract x < 1 / 2 then ⌊x⌋
  else if 1 / 2 < Int.fract x then ⌊x⌋ + 1
  else if Even ⌊x⌋ then ⌊x⌋
  else ⌊x⌋ + 1

@[simp] theorem roundHalfEven_intCast (n : ℤ) : roundHalfEven n = n := by
  simp [roundHalfEven]

theorem floor_le_roundHalfEven (x : ℚ) : ⌊x⌋ ≤ roundHalfEven x := by
  unfold roundHalfEven
  split_ifs <;> omega

theorem roundHalfEven_le (x : ℚ) : roundHalfEven x ≤ ⌊x⌋ + 1 := by
  unfold roundHalfEven
  split_ifs <;> omega

theorem roundHalfEven_mono {x y : ℚ} (h : x ≤ y) : roundHalfEven x ≤ roundHalfEven y := by
  rcases (Int.floor_le_floor h).lt_or_eq with hlt | heq
  · have hx := roundHalfEven_le x
    have hy := floor_le_roundHalfEven y
    omega
  · have hfract : Int.fract x ≤ Int.fract y := by
      rw [Int.fract, Int.fract, heq]
      linarith
    unfold roundHalfEven
    rw [heq]
    split_ifs <;> first | omega | (exfalso; linarith)

/-- What is more than a half is rounded to at least one. -/
theorem roundHalfEven_pos_iff {x : ℚ} : 0 < roundHalfEven x ↔ 1 / 2 < x := by
  constructor
  · intro h
    by_contra hx
    have hmono := roundHalfEven_mono (not_lt.mp hx)
    have hhalf : roundHalfEven (1 / 2) = 0 := by norm_num [roundHalfEven]
    omega
  · intro h
    have hround := floor_le_roundHalfEven x
    rcases lt_or_ge x 1 with hx | hx
    · have hfloor : ⌊x⌋ = 0 := Int.floor_eq_iff.mpr ⟨by norm_num; linarith, by norm_num; linarith⟩
      have hfract : Int.fract x = x := by rw [Int.fract, hfloor]; norm_num
      rw [roundHalfEven, hfract, if_neg (by linarith), if_pos h, hfloor]
      norm_num
    · have hfloor : 1 ≤ ⌊x⌋ := Int.le_floor.mpr (by exact_mod_cast hx)
      omega

/-- An even integer is reached half a step before it. -/
theorem le_roundHalfEven_iff {n : ℤ} (h : Even n) {x : ℚ} :
    n ≤ roundHalfEven x ↔ (n : ℚ) - 1 / 2 ≤ x := by
  have hx : (⌊x⌋ : ℚ) + Int.fract x = x := Int.floor_add_fract x
  have hnonneg := Int.fract_nonneg x
  have hlt := Int.fract_lt_one x
  rcases lt_trichotomy ⌊x⌋ (n - 1) with hbelow | hnext | habove
  · have hround := roundHalfEven_le x
    have hcast : (⌊x⌋ : ℚ) + 1 ≤ n - 1 := by exact_mod_cast hbelow
    refine iff_of_false (by omega) ?_
    linarith
  · have hodd : ¬ Even ⌊x⌋ := by
      rw [hnext]
      grind
    have hcast : (⌊x⌋ : ℚ) = n - 1 := by exact_mod_cast hnext
    unfold roundHalfEven
    rw [if_neg hodd]
    split_ifs with hlow hhigh
    · exact iff_of_false (by omega) (by linarith)
    · exact iff_of_true (by omega) (by linarith)
    · exact iff_of_true (by omega) (by linarith)
  · have hround := floor_le_roundHalfEven x
    have hcast : (n : ℚ) ≤ ⌊x⌋ := by exact_mod_cast (show n ≤ ⌊x⌋ by omega)
    refine iff_of_true (by omega) ?_
    linarith

/-- The rounded origins of windows spread over a span in equal steps. -/
def evenGrid (span : ℤ) (steps : ℕ) : List ℤ :=
  (List.range (steps + 1)).map fun i : ℕ => roundHalfEven ((i : ℚ) * span / steps)

@[simp] theorem length_evenGrid (span : ℤ) (steps : ℕ) :
    (evenGrid span steps).length = steps + 1 := by
  simp [evenGrid]

/-- A number is rounded to at most the integer whose upper half it stays below. -/
theorem roundHalfEven_le_of_lt {x : ℚ} {m : ℤ} (h : x < m + 1 / 2) : roundHalfEven x ≤ m := by
  have hx : (⌊x⌋ : ℚ) + Int.fract x = x := Int.floor_add_fract x
  have hnonneg := Int.fract_nonneg x
  have hfloor : ⌊x⌋ ≤ m := by
    have hcast : (⌊x⌋ : ℚ) < m + 1 := by linarith
    have hint : ⌊x⌋ < m + 1 := by exact_mod_cast hcast
    omega
  rcases hfloor.lt_or_eq with hlt | heq
  · have hround := roundHalfEven_le x
    omega
  · have hfract : Int.fract x < 1 / 2 := by
      rw [heq] at hx
      linarith
    rw [roundHalfEven, if_pos hfract]
    omega

/-- It is rounded to at least the integer whose lower half it stays above. -/
theorem le_roundHalfEven_of_lt {x : ℚ} {m : ℤ} (h : (m : ℚ) - 1 / 2 < x) :
    m ≤ roundHalfEven x := by
  have hx : (⌊x⌋ : ℚ) + Int.fract x = x := Int.floor_add_fract x
  have hlt := Int.fract_lt_one x
  have hfloor : m - 1 ≤ ⌊x⌋ := by
    have hcast : (m : ℚ) - 2 < ⌊x⌋ := by linarith
    have hint : m - 2 < ⌊x⌋ := by exact_mod_cast hcast
    omega
  rcases hfloor.lt_or_eq with habove | heq
  · have hround := floor_le_roundHalfEven x
    omega
  · have hfract : 1 / 2 < Int.fract x := by
      have hcast : (⌊x⌋ : ℚ) = m - 1 := by exact_mod_cast heq.symm
      linarith
    rw [roundHalfEven, if_neg (by linarith), if_pos hfract]
    omega

/-- Rounding moves a number by half at most. -/
theorem abs_roundHalfEven_sub_le (x : ℚ) : (roundHalfEven x : ℚ) - 1 / 2 ≤ x ∧
    x ≤ roundHalfEven x + 1 / 2 := by
  constructor
  · by_contra hlow
    have hbelow : x < ((roundHalfEven x - 1 : ℤ) : ℚ) + 1 / 2 := by
      push_cast
      linarith
    have hround := roundHalfEven_le_of_lt hbelow
    omega
  · by_contra hhigh
    have habove : ((roundHalfEven x + 1 : ℤ) : ℚ) - 1 / 2 < x := by
      push_cast
      linarith
    have hround := le_roundHalfEven_of_lt habove
    omega

section Grid

variable {span stride : ℤ} {steps : ℕ}

/-- The rounded origin of a window. -/
def origin (span : ℤ) (steps i : ℕ) : ℤ := roundHalfEven (i * span / steps)

theorem mem_evenGrid {x : ℤ} : x ∈ evenGrid span steps ↔ ∃ i ≤ steps, origin span steps i = x := by
  rw [evenGrid, List.mem_map]
  constructor
  · rintro ⟨i, hi, rfl⟩
    exact ⟨i, by have := List.mem_range.mp hi; omega, rfl⟩
  · rintro ⟨i, hi, rfl⟩
    exact ⟨i, List.mem_range.mpr (by omega), rfl⟩

@[simp] theorem origin_zero (span : ℤ) (steps : ℕ) : origin span steps 0 = 0 := by
  simp [origin, roundHalfEven]

theorem origin_last (hsteps : 0 < steps) (span : ℤ) : origin span steps steps = span := by
  have hpos : (0 : ℚ) < steps := Nat.cast_pos.mpr hsteps
  rw [origin, mul_div_cancel_left₀ _ hpos.ne', roundHalfEven_intCast]

theorem origin_mem (hspan : 0 ≤ span) {i : ℕ} (hi : i ≤ steps) :
    0 ≤ origin span steps i ∧ origin span steps i ≤ span := by
  have hcast : (0 : ℚ) ≤ span := by exact_mod_cast hspan
  constructor
  · have hvalue : (0 : ℚ) ≤ i * span / steps := by positivity
    refine le_roundHalfEven_of_lt ?_
    push_cast
    linarith
  · have hshare : (i : ℚ) * span / steps ≤ span := by
      rcases Nat.eq_zero_or_pos steps with rfl | hsteps
      · simpa using hcast
      · rw [div_le_iff₀ (Nat.cast_pos.mpr hsteps), mul_comm]
        exact mul_le_mul_of_nonneg_left (Nat.cast_le.mpr hi) hcast
    exact roundHalfEven_le_of_lt (by linarith)

/-- A spacing that is a whole number needs no rounding. -/
theorem origin_of_whole (hsteps : 0 < steps) (hspan : span = steps * stride) (i : ℕ) :
    origin span steps i = i * stride := by
  have hpos : (0 : ℚ) < steps := Nat.cast_pos.mpr hsteps
  have hvalue : (i * span / steps : ℚ) = ((i * stride : ℤ) : ℚ) := by
    rw [hspan]
    push_cast
    field_simp
  rw [origin, hvalue, roundHalfEven_intCast]

/-- Neighbours are apart, and no further than the stride. The rounding cannot widen a
spacing that is below the stride, and one that meets it is whole. -/
theorem origin_succ (hsteps : 0 < steps) (hlow : steps ≤ span) (hspan : span ≤ steps * stride)
    (i : ℕ) : origin span steps i < origin span steps (i + 1) ∧
      origin span steps (i + 1) ≤ origin span steps i + stride := by
  have hpos : (0 : ℚ) < steps := Nat.cast_pos.mpr hsteps
  have hnext : ((i + 1 : ℕ) * span / steps : ℚ) = i * span / steps + span / steps := by
    push_cast
    ring
  have hround := abs_roundHalfEven_sub_le (i * span / steps)
  have hnat : (0 : ℤ) < steps := by exact_mod_cast hsteps
  constructor
  · rcases hlow.lt_or_eq with hlt | heq
    · have hspacing : (1 : ℚ) < span / steps := by
        rw [lt_div_iff₀ hpos, one_mul]
        exact_mod_cast hlt
      refine Int.add_one_le_iff.mp (le_roundHalfEven_of_lt ?_)
      rw [hnext]
      push_cast
      show (origin span steps i : ℚ) + 1 - 1 / 2 < _
      rw [origin]
      linarith [hround.1]
    · have hunit : span = steps * 1 := by rw [mul_one, heq]
      rw [origin_of_whole hsteps hunit, origin_of_whole hsteps hunit]
      push_cast
      omega
  · rcases hspan.lt_or_eq with hlt | heq
    · have hspacing : (span / steps : ℚ) < stride := by
        rw [div_lt_iff₀ hpos]
        have hcast : (span : ℚ) < steps * stride := by exact_mod_cast hlt
        linarith
      refine roundHalfEven_le_of_lt ?_
      rw [hnext]
      push_cast
      show _ < (origin span steps i : ℚ) + stride + 1 / 2
      rw [origin]
      linarith [hround.2]
    · rw [origin_of_whole hsteps heq, origin_of_whole hsteps heq]
      push_cast
      linarith

theorem isChain_evenGrid {R : ℤ → ℤ → Prop}
    (h : ∀ i < steps, R (origin span steps i) (origin span steps (i + 1))) :
    (evenGrid span steps).IsChain R := by
  rw [List.isChain_iff_getElem]
  intro i hi
  rw [length_evenGrid] at hi
  simp only [evenGrid, List.getElem_map, List.getElem_range]
  exact h i (by omega)

/-- Windows whose spacing leaves an overlap hold every interval of that length. -/
theorem evenGrid_covers (hsteps : 0 < steps) (hlow : steps ≤ span)
    (hspan : span ≤ steps * stride) {tile left right : ℚ} (hleft : 0 ≤ left)
    (hright : right ≤ span + tile) (hfits : right - left + stride ≤ tile) :
    ∃ x ∈ evenGrid span steps, x ≤ left ∧ right ≤ x + tile := by
  have hfirst : (origin span steps 0 : ℚ) ≤ left := by
    rw [origin_zero]
    exact_mod_cast hleft
  classical
  -- the last window that starts at the interval or before it
  let i := Nat.findGreatest (fun i => (origin span steps i : ℚ) ≤ left) steps
  have hile : i ≤ steps := Nat.findGreatest_le steps
  have hbefore : (origin span steps i : ℚ) ≤ left :=
    Nat.findGreatest_spec (P := fun i => (origin span steps i : ℚ) ≤ left) (Nat.zero_le steps)
      hfirst
  refine ⟨origin span steps i, mem_evenGrid.mpr ⟨i, hile, rfl⟩, hbefore, ?_⟩
  rcases hile.lt_or_eq with hlt | heq
  · have hafter : ¬ (origin span steps (i + 1) : ℚ) ≤ left :=
      Nat.findGreatest_is_greatest (Nat.lt_succ_self i) hlt
    have hgap : (origin span steps (i + 1) : ℚ) ≤ origin span steps i + stride := by
      exact_mod_cast (origin_succ hsteps hlow hspan i).2
    linarith [not_le.mp hafter]
  · rw [heq, origin_last hsteps]
    exact hright

end Grid

/-- A row of windows from one end of a span to the other, none further from the one
before than the stride, has the length of the span in its steps. -/
theorem span_le_of_isChain {stride span : ℚ} {windows : List ℚ}
    (hfirst : ∀ x ∈ windows.head?, x ≤ 0) (hlast : ∃ x ∈ windows.getLast?, span ≤ x)
    (hchain : windows.IsChain fun x y => y ≤ x + stride) :
    span ≤ ((windows.length : ℚ) - 1) * stride := by
  obtain ⟨last, hmem, hspan⟩ := hlast
  have hreach (i : ℕ) (hi : i < windows.length) : windows[i] ≤ i * stride := by
    induction i with
    | zero =>
      have hzero := hfirst windows[0] (by rw [List.head?_eq_getElem?]; simp [hi])
      simpa using hzero
    | succ i ih =>
      have hstep := List.isChain_iff_getElem.mp hchain i hi
      have hbefore := ih (by omega)
      push_cast
      linarith
  have hne : windows ≠ [] := by
    rintro rfl
    cases hmem
  have hpos := List.length_pos_iff.mpr hne
  have hlast' : windows[windows.length - 1] = last := by
    rw [List.getLast?_eq_getElem?] at hmem
    simpa [hpos] using hmem
  have hbound := hreach (windows.length - 1) (by omega)
  rw [hlast', Nat.cast_sub (by omega)] at hbound
  push_cast at hbound
  linarith

end EvenSpacing
