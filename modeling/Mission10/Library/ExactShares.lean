import Mathlib.Algebra.Order.Field.Rat
import Mathlib.Algebra.Order.Floor.Div
import Mathlib.Data.Int.CardIntervalMod
import Mathlib.Data.Rat.Lemmas
import Mathlib.Tactic

/-!
# Exact shares

A whole is divided in given proportions, each share a whole number and at least
as large as required. The wholes for which this works are the multiples of the
common denominator that are large enough for every share, so there is a smallest
one.
-/
namespace ExactShares

variable {ν : Type*}

/-- A share of the whole in its proportion, a whole number that is large enough. -/
def Share (whole : ℕ) (proportion : ℚ) (size share : ℕ) : Prop :=
  (share : ℚ) = whole * proportion ∧ size ≤ share

/-- Every part of the whole has a share. -/
def Divides (proportions : List (ν × ℚ)) (size : ν → ℕ) (whole : ℕ) : Prop :=
  ∀ part ∈ proportions, ∃ share, Share whole part.2 (size part.1) share

/-- The common denominator. -/
def quantum (proportions : List (ν × ℚ)) : ℕ :=
  (proportions.map fun part => part.2.den).foldl Nat.lcm 1

/-- The least whole that a part needs. -/
def needed (size : ℕ) (proportion : ℚ) : ℕ :=
  (size * proportion.den + proportion.num.toNat - 1) / proportion.num.toNat

def minimum (proportions : List (ν × ℚ)) (size : ν → ℕ) : ℕ :=
  (proportions.map fun part => needed (size part.1) part.2).foldl max 0

/-- The least multiple of the common denominator that is enough for all parts. -/
def leastWhole (proportions : List (ν × ℚ)) (size : ν → ℕ) : ℕ :=
  (minimum proportions size + quantum proportions - 1) / quantum proportions *
    quantum proportions

section Multiples

theorem foldl_lcm_dvd {start whole : ℕ} {numbers : List ℕ} :
    numbers.foldl Nat.lcm start ∣ whole ↔ start ∣ whole ∧ ∀ n ∈ numbers, n ∣ whole := by
  induction numbers generalizing start with
  | nil => simp
  | cons n numbers ih => simp [ih, Nat.lcm_dvd_iff, and_assoc]

theorem foldl_lcm_pos {start : ℕ} {numbers : List ℕ} (hstart : 0 < start)
    (h : ∀ n ∈ numbers, 0 < n) : 0 < numbers.foldl Nat.lcm start := by
  induction numbers generalizing start with
  | nil => exact hstart
  | cons n numbers ih =>
    apply ih (Nat.lcm_pos hstart (h n List.mem_cons_self))
    exact fun m hm => h m (List.mem_cons_of_mem n hm)

theorem foldl_max_le {start bound : ℕ} {numbers : List ℕ} :
    numbers.foldl max start ≤ bound ↔ start ≤ bound ∧ ∀ n ∈ numbers, n ≤ bound := by
  induction numbers generalizing start with
  | nil => simp
  | cons n numbers ih => simp [ih, and_assoc]

/-- The least multiple of a number that is at least another one. -/
theorem roundUp_le {unit least whole : ℕ} (hunit : 0 < unit) :
    (least + unit - 1) / unit * unit ≤ whole ∧ unit ∣ whole ↔ least ≤ whole ∧ unit ∣ whole := by
  constructor
  · rintro ⟨hle, hdvd⟩
    refine ⟨le_trans ?_ hle, hdvd⟩
    have hrem := Nat.mod_lt (least + unit - 1) hunit
    have hdiv := Nat.div_add_mod' (least + unit - 1) unit
    omega
  · rintro ⟨hle, k, rfl⟩
    refine ⟨?_, dvd_mul_right unit k⟩
    rw [mul_comm unit k]
    apply Nat.mul_le_mul_right
    have hbound : least + unit - 1 < (k + 1) * unit := by
      rw [add_mul, one_mul, mul_comm k unit]
      omega
    exact Nat.lt_succ_iff.mp ((Nat.div_lt_iff_lt_mul hunit).mpr hbound)

end Multiples

section Parts

variable {proportion : ℚ} {whole size : ℕ}

theorem num_pos (h : 0 < proportion) : 0 < proportion.num.toNat := by
  have hnum := Rat.num_pos.mpr h
  omega

theorem proportion_eq (h : 0 < proportion) :
    proportion = (proportion.num.toNat : ℚ) / proportion.den := by
  have hnum : ((proportion.num.toNat : ℕ) : ℤ) = proportion.num :=
    Int.toNat_of_nonneg (Rat.num_pos.mpr h).le
  have hcast : ((proportion.num.toNat : ℕ) : ℚ) = (proportion.num : ℚ) := by
    exact_mod_cast congrArg (Int.cast : ℤ → ℚ) hnum
  rw [hcast, Rat.num_div_den]

/-- A share is a whole number exactly for the multiples of the denominator. -/
theorem share_eq_iff (h : 0 < proportion) {share : ℕ} :
    (share : ℚ) = whole * proportion ↔ share * proportion.den = whole * proportion.num.toNat := by
  have hden : (proportion.den : ℚ) ≠ 0 := by
    exact_mod_cast proportion.den_ne_zero
  conv_lhs => rw [proportion_eq h]
  rw [mul_div_assoc', eq_div_iff hden]
  exact_mod_cast Iff.rfl

theorem exists_share_iff (h : 0 < proportion) :
    (∃ share : ℕ, (share : ℚ) = whole * proportion) ↔ proportion.den ∣ whole := by
  have hcoprime : Nat.Coprime proportion.den proportion.num.toNat := by
    have hnum : proportion.num.toNat = proportion.num.natAbs := by
      have hpositive := Rat.num_pos.mpr h
      omega
    rw [hnum]
    exact proportion.reduced.symm
  constructor
  · rintro ⟨share, hshare⟩
    rw [share_eq_iff h] at hshare
    exact hcoprime.dvd_of_dvd_mul_right ⟨share, by rw [← hshare, mul_comm]⟩
  · rintro ⟨k, rfl⟩
    refine ⟨k * proportion.num.toNat, (share_eq_iff h).mpr ?_⟩
    rw [mul_right_comm, mul_comm k]

/-- A share is large enough when the whole is. -/
theorem size_le_share_iff (h : 0 < proportion) {share : ℕ}
    (hshare : (share : ℚ) = whole * proportion) :
    size ≤ share ↔ needed size proportion ≤ whole := by
  have hnum := num_pos h
  have hden := proportion.den_pos
  rw [share_eq_iff h] at hshare
  rw [needed, ← Nat.ceilDiv_eq_add_pred_div, ceilDiv_le_iff_le_mul hnum, mul_comm _ whole,
    ← hshare]
  exact (Nat.mul_le_mul_right_iff hden).symm

end Parts

section Wholes

variable {proportions : List (ν × ℚ)} {size : ν → ℕ} {whole : ℕ}

theorem quantum_pos (proportions : List (ν × ℚ)) : 0 < quantum proportions := by
  apply foldl_lcm_pos Nat.one_pos
  intro n hn
  obtain ⟨part, -, rfl⟩ := List.mem_map.mp hn
  exact part.2.den_pos

/-- The wholes that can be divided. -/
theorem divides_iff (hpos : ∀ part ∈ proportions, 0 < part.2) :
    Divides proportions size whole ↔
      minimum proportions size ≤ whole ∧ quantum proportions ∣ whole := by
  rw [minimum, quantum, foldl_max_le, foldl_lcm_dvd]
  simp only [List.forall_mem_map, Nat.zero_le, one_dvd, true_and]
  rw [← forall₂_and]
  apply forall₂_congr
  intro part hpart
  have hproportion := hpos part hpart
  rw [← exists_share_iff hproportion]
  constructor
  · rintro ⟨share, hshare, hsize⟩
    exact ⟨(size_le_share_iff hproportion hshare).mp hsize, share, hshare⟩
  · rintro ⟨hneeded, share, hshare⟩
    exact ⟨share, hshare, (size_le_share_iff hproportion hshare).mpr hneeded⟩

/-- The least whole can be divided, and no smaller one can. -/
theorem leastWhole_le_iff (hpos : ∀ part ∈ proportions, 0 < part.2) :
    Divides proportions size whole ↔
      leastWhole proportions size ≤ whole ∧ quantum proportions ∣ whole := by
  rw [divides_iff hpos, leastWhole, roundUp_le (quantum_pos proportions)]

theorem divides_leastWhole (size : ν → ℕ) (hpos : ∀ part ∈ proportions, 0 < part.2) :
    Divides proportions size (leastWhole proportions size) :=
  (leastWhole_le_iff hpos).mpr ⟨le_refl _, dvd_mul_left _ _⟩

theorem leastWhole_le (hpos : ∀ part ∈ proportions, 0 < part.2)
    (h : Divides proportions size whole) : leastWhole proportions size ≤ whole :=
  ((leastWhole_le_iff hpos).mp h).1

end Wholes

end ExactShares

/-!
## Dealing in turns

Items are dealt to the hands in turns, the first one to the first hand. Every hand
gets the whole part of the number of items by the number of hands, and the first
hands get one more.
-/
namespace Dealing

variable {hands hand other count : ℕ}

/-- How many of the first items go to a hand. -/
def dealt (hands count hand : ℕ) : ℕ :=
  (List.range count).countP fun ordinal => decide (ordinal % hands = hand)

theorem dealt_eq (h : hand < hands) :
    dealt hands count hand = count / hands + if hand < count % hands then 1 else 0 := by
  have hmod := Nat.count_modEq_card count (Nat.lt_of_le_of_lt (Nat.zero_le hand) h) hand
  rw [Nat.mod_eq_of_lt h] at hmod
  rw [← hmod, Nat.count, dealt]
  apply List.countP_congr
  intro ordinal _
  simp [Nat.ModEq, Nat.mod_eq_of_lt h]

/-- Two hands differ by one item at most. -/
theorem dealt_le_succ (h : hand < hands) (hother : other < hands) :
    dealt hands count hand ≤ dealt hands count other + 1 := by
  rw [dealt_eq h, dealt_eq hother]
  split_ifs <;> omega

/-- With as many items as hands, every hand gets one. -/
theorem dealt_pos (h : hand < hands) (hcount : hands ≤ count) : 0 < dealt hands count hand := by
  have hpos : 0 < hands := Nat.lt_of_le_of_lt (Nat.zero_le hand) h
  have hquotient : 1 ≤ count / hands := (Nat.one_le_div_iff hpos).mpr hcount
  rw [dealt_eq h]
  omega

end Dealing
