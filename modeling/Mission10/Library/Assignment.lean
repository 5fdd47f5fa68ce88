import Mathlib.Algebra.Order.BigOperators.Group.Finset
import Mathlib.Data.Fintype.BigOperators
import Mathlib.Logic.Equiv.Basic
import Mathlib.Tactic.Abel

/-!
# The assignment problem

Rows are matched one-to-one with columns at minimum total cost. Potentials of
the rows and columns that stay below every entry bound every assignment from
below, so an assignment whose entries they meet is optimal. The second half
says what an optimal assignment satisfies when two of its pairs are exchanged.
-/
namespace Assignment

variable {ι κ K : Type*} [AddCommGroup K]

/-- What an entry costs above the potentials of its row and column. -/
def slack (c : ι → κ → K) (u : ι → K) (v : κ → K) (i : ι) (j : κ) : K := c i j - u i - v j

section Raise

open Classical in
/-- A function raised by `d` on a set. -/
noncomputable def raised {α : Type*} (d : K) (S : Set α) (f : α → K) : α → K :=
  fun a => if a ∈ S then f a + d else f a

theorem raised_empty {α : Type*} (d : K) (f : α → K) : raised d ∅ f = f := by
  ext a
  simp [raised]

variable (c : ι → κ → K) (u : ι → K) (v : κ → K) (d : K) {R : Set ι} {C : Set κ} {i : ι} {j : κ}

theorem slack_raised_inside (hi : i ∈ R) (hj : j ∈ C) :
    slack c (raised d R u) (raised (-d) C v) i j = slack c u v i j := by
  simp only [slack, raised, if_pos hi, if_pos hj]
  abel

theorem slack_raised_outside (hi : i ∉ R) (hj : j ∉ C) :
    slack c (raised d R u) (raised (-d) C v) i j = slack c u v i j := by
  simp only [slack, raised, if_neg hi, if_neg hj]

theorem slack_raised_leaving (hi : i ∈ R) (hj : j ∉ C) :
    slack c (raised d R u) (raised (-d) C v) i j = slack c u v i j - d := by
  simp only [slack, raised, if_pos hi, if_neg hj]
  abel

theorem slack_raised_entering (hi : i ∉ R) (hj : j ∈ C) :
    slack c (raised d R u) (raised (-d) C v) i j = slack c u v i j + d := by
  simp only [slack, raised, if_neg hi, if_pos hj]
  abel

end Raise

variable [Fintype ι] [Fintype κ]

/-- The cost of an assignment. -/
def total (c : ι → κ → K) (σ : ι ≃ κ) : K := ∑ i, c i (σ i)

theorem total_slack (c : ι → κ → K) (u : ι → K) (v : κ → K) (σ : ι ≃ κ) :
    total (slack c u v) σ = total c σ - ∑ i, u i - ∑ j, v j := by
  unfold total slack
  rw [Finset.sum_sub_distrib, Finset.sum_sub_distrib, Equiv.sum_comp σ v]

variable [LinearOrder K] [IsOrderedAddMonoid K]

/-- No assignment is cheaper. -/
def Optimal (c : ι → κ → K) (σ : ι ≃ κ) : Prop := ∀ τ : ι ≃ κ, total c σ ≤ total c τ

/-- Potentials below every entry that an assignment meets on its own entries
make it optimal. -/
theorem optimal_of_potentials {c : ι → κ → K} {σ : ι ≃ κ} (u : ι → K) (v : κ → K)
    (hfeasible : ∀ i j, 0 ≤ slack c u v i j) (htight : ∀ i, slack c u v i (σ i) = 0) :
    Optimal c σ := by
  intro τ
  have hσ : total (slack c u v) σ = 0 := Finset.sum_eq_zero fun i _ => htight i
  have hτ : 0 ≤ total (slack c u v) τ := Finset.sum_nonneg fun i _ => hfeasible i (τ i)
  rw [total_slack] at hσ hτ
  have hle : total c σ - ∑ i, u i - ∑ j, v j ≤ total c τ - ∑ i, u i - ∑ j, v j := hσ.trans_le hτ
  simpa using hle

section Exchange

variable [DecidableEq ι] {c : ι → κ → K} {σ : ι ≃ κ}

/-- The assignment with the columns of two rows exchanged. -/
def exchange (σ : ι ≃ κ) (i k : ι) : ι ≃ κ := (Equiv.swap i k).trans σ

omit [Fintype ι] [Fintype κ] in
@[simp] theorem exchange_left (i k : ι) : exchange σ i k i = σ k := by simp [exchange]

omit [Fintype ι] [Fintype κ] in
@[simp] theorem exchange_right (i k : ι) : exchange σ i k k = σ i := by simp [exchange]

omit [Fintype ι] [Fintype κ] in
theorem exchange_of_ne {i k l : ι} (hi : l ≠ i) (hk : l ≠ k) : exchange σ i k l = σ l := by
  simp [exchange, Equiv.swap_apply_of_ne_of_ne hi hk]

omit [Fintype κ] [LinearOrder K] [IsOrderedAddMonoid K] in
theorem total_exchange {i k : ι} (hik : i ≠ k) :
    total c (exchange σ i k) + (c i (σ i) + c k (σ k)) =
      total c σ + (c i (σ k) + c k (σ i)) := by
  have hsplit : ∀ f : ι → K, ∑ l, f l = f i + f k + ∑ l ∈ (Finset.univ.erase i).erase k, f l := by
    intro f
    rw [← Finset.add_sum_erase _ f (Finset.mem_univ i),
      ← Finset.add_sum_erase _ f (Finset.mem_erase.mpr ⟨hik.symm, Finset.mem_univ k⟩), add_assoc]
  have hrest : ∑ l ∈ (Finset.univ.erase i).erase k, c l (exchange σ i k l) =
      ∑ l ∈ (Finset.univ.erase i).erase k, c l (σ l) := by
    apply Finset.sum_congr rfl
    intro l hl
    simp only [Finset.mem_erase, Finset.mem_univ, and_true] at hl
    rw [exchange_of_ne hl.2 hl.1]
  unfold total
  rw [hsplit fun l => c l (exchange σ i k l), hsplit fun l => c l (σ l), hrest, exchange_left,
    exchange_right]
  abel

omit [Fintype κ] in
/-- Exchanging two pairs of an optimal assignment does not make it cheaper. -/
theorem Optimal.le_exchange (h : Optimal c σ) {i k : ι} (hik : i ≠ k) :
    c i (σ i) + c k (σ k) ≤ c i (σ k) + c k (σ i) := by
  have hle := add_le_add_left (h (exchange σ i k)) (c i (σ i) + c k (σ k))
  rw [total_exchange hik] at hle
  exact le_of_add_le_add_left hle

omit [Fintype κ] in
/-- An exchange that costs nothing keeps an assignment optimal. -/
theorem Optimal.exchange (h : Optimal c σ) {i k : ι} (hik : i ≠ k)
    (hfree : c i (σ k) + c k (σ i) = c i (σ i) + c k (σ k)) :
    Optimal c (Assignment.exchange σ i k) := by
  intro τ
  have heq := total_exchange (c := c) (σ := σ) hik
  rw [hfree] at heq
  rw [add_right_cancel heq]
  exact h τ

end Exchange

end Assignment
