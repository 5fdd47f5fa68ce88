import Mathlib
import Mission10.Engine.AssignmentRounds

/-!
# Optimality of the assignment search

Before every round of the search the columns reached so far form a tree of
pairs without slack that hangs from the row being placed, and the slack of all
pairs of placed rows is nonnegative. The potentials move so that one more column
joins the tree; the first free column to join closes a path along which the
columns are handed on. When all rows are placed the potentials certify that the
assignment is optimal.
-/
namespace Mission10.Engine.Hungarian

open Loops Assignment

set_option linter.unusedSectionVars false

variable {K : Type*} [AddCommGroup K] [LinearOrder K] [IsOrderedAddMonoid K]

/-- Columns 1 to `n` hold the rows below `i`, each of them once. -/
structure Placed (n i : ℕ) (p : ℕ → ℕ) : Prop where
  lt : ∀ j, 1 ≤ j → j ≤ n → p j < i
  inj : ∀ j k, 1 ≤ j → j ≤ n → 1 ≤ k → k ≤ n → p j = p k → p j ≠ 0 → j = k
  onto : ∀ r, 1 ≤ r → r < i → ∃ j, 1 ≤ j ∧ j ≤ n ∧ p j = r

/-- The rows below `i` are placed at no slack, and no pair of them has less. -/
structure Priced (cost : List (List K)) (n i : ℕ) (m : Matching K) : Prop
    extends Placed n i m.p where
  feasible : ∀ r j, 1 ≤ r → r < i → 1 ≤ j → j ≤ n → 0 ≤ slack (price cost) m.u m.v r j
  tight : ∀ j, 1 ≤ j → j ≤ n → m.p j ≠ 0 → slack (price cost) m.u m.v (m.p j) j = 0

/-- The columns reached before a round, counted. -/
def reached (n : ℕ) (s : Search K) : ℕ := ((Finset.range (n + 1)).filter (s.used ·)).card

/-- The state of the search for row `i` before a round. `rank` orders the columns
of the tree by the round in which they joined it. -/
structure Searching (cost : List (List K)) (n i : ℕ) (rank : ℕ → ℕ) (s : Search K) : Prop
    extends Placed n i s.p where
  row_pos : 1 ≤ i
  row_le : i ≤ n
  row : s.p 0 = i
  used_le : ∀ j, s.used j = true → j ≤ n
  used_occupied : ∀ j, s.used j = true → s.p j ≠ 0
  j0_le : s.j0 ≤ n
  j0_fresh : s.used s.j0 = false
  root : s.j0 = 0 ∧ (∀ j, s.used j = false) ∨ s.j0 ≠ 0 ∧ s.used 0 = true
  feasible : ∀ r j, 1 ≤ r → r < i → 1 ≤ j → j ≤ n → 0 ≤ slack (price cost) s.u s.v r j
  entered : s.j0 ≠ 0 → ∀ j, 1 ≤ j → j ≤ n → 0 ≤ slack (price cost) s.u s.v i j
  tight : ∀ j, 1 ≤ j → j ≤ n → s.p j ≠ 0 → slack (price cost) s.u s.v (s.p j) j = 0
  tree : ∀ j, 1 ≤ j → s.used j = true ∨ j = s.j0 → s.used (s.way j) = true ∧
    rank (s.way j) < rank j ∧ slack (price cost) s.u s.v (s.p (s.way j)) j = 0
  rank_le : ∀ j, s.used j = true ∨ j = s.j0 → rank j ≤ reached n s
  minv_le : ∀ j, 1 ≤ j → j ≤ n → s.used j = false →
    ∀ k, s.used k = true → s.minv j ≤ slack (price cost) s.u s.v (s.p k) j
  minv_eq : ∀ j, 1 ≤ j → j ≤ n → s.used j = false → s.minv j = ⊤ ∨
    s.used (s.way j) = true ∧ s.minv j = slack (price cost) s.u s.v (s.p (s.way j)) j

variable {cost : List (List K)} {n i : ℕ} {rank : ℕ → ℕ}

/-- The search starts with an empty tree. -/
theorem Priced.enter {m : Matching K} (h : Priced cost n i m) (h1 : 1 ≤ i) (hn : i ≤ n) :
    Searching cost n i (fun _ => 0) (m.enter i) := by
  have hp : ∀ j, 1 ≤ j → (m.enter i).p j = m.p j := fun j hj =>
    Function.update_of_ne (by omega) _ _
  exact
    { lt := fun j hj hjn => (hp j hj).trans_lt (h.lt j hj hjn)
      inj := by
        intro j k hj hjn hk hkn
        rw [hp j hj, hp k hk]
        exact h.inj j k hj hjn hk hkn
      onto := by
        intro r hr hri
        obtain ⟨j, hj, hjn, hjr⟩ := h.onto r hr hri
        exact ⟨j, hj, hjn, (hp j hj).trans hjr⟩
      row_pos := h1
      row_le := hn
      row := by simp [Matching.enter]
      used_le := by simp [Matching.enter]
      used_occupied := by simp [Matching.enter]
      j0_le := Nat.zero_le n
      j0_fresh := rfl
      root := Or.inl ⟨rfl, fun _ => rfl⟩
      feasible := h.feasible
      entered := fun hne => absurd rfl hne
      tight := by
        intro j hj hjn hne
        rw [hp j hj] at hne ⊢
        exact h.tight j hj hjn hne
      tree := by
        rintro j hj (hused | rfl)
        · simp [Matching.enter] at hused
        · exact absurd hj (by simp [Matching.enter])
      rank_le := fun _ _ => Nat.zero_le _
      minv_le := by
        intro j _ _ _ k hk
        simp [Matching.enter] at hk
      minv_eq := fun _ _ _ _ => Or.inl rfl }

namespace Searching

variable {s : Search K}

theorem inj_all (h : Searching cost n i rank s) {j k : ℕ} (hj : j ≤ n) (hk : k ≤ n)
    (heq : s.p j = s.p k) (hne : s.p j ≠ 0) : j = k := by
  rcases Nat.eq_zero_or_pos j with rfl | hj1 <;> rcases Nat.eq_zero_or_pos k with rfl | hk1
  · rfl
  · have := h.lt k hk1 hk
    have := h.row
    omega
  · have := h.lt j hj1 hj
    have := h.row
    omega
  · exact h.inj j k hj1 hj hk1 hk heq hne

theorem le_row (h : Searching cost n i rank s) {j : ℕ} (hj : j ≤ n) : s.p j ≤ i := by
  rcases Nat.eq_zero_or_pos j with rfl | hj1
  · exact h.row.le
  · exact (h.lt j hj1 hj).le

/-- The tree has too few rows to cover all columns. -/
theorem room (h : Searching cost n i rank s) (hocc : s.p s.j0 ≠ 0) :
    ∃ j, 1 ≤ j ∧ j ≤ n ∧ j ≠ s.j0 ∧ s.used j = false := by
  by_contra hnone
  push Not at hnone
  have hall : ∀ j, j ≤ n → s.p j ≠ 0 := by
    intro j hj
    rcases Nat.eq_zero_or_pos j with rfl | hj1
    · rw [h.row]
      exact Nat.one_le_iff_ne_zero.mp h.row_pos
    by_cases hj0 : j = s.j0
    · exact hj0 ▸ hocc
    · exact h.used_occupied j (by simpa using hnone j hj1 hj hj0)
  have hcard : (Finset.range (n + 1)).card ≤ (Finset.Icc 1 n).card := by
    apply Finset.card_le_card_of_injOn s.p
    · intro j hj
      have hjn : j ≤ n := by simpa [Nat.lt_succ_iff] using hj
      have hpos := hall j hjn
      have hle := h.le_row hjn
      have hin := h.row_le
      simp only [Finset.coe_Icc, Set.mem_Icc]
      omega
    · intro j hj k hk heq
      exact h.inj_all (by simpa [Nat.lt_succ_iff] using hj) (by simpa [Nat.lt_succ_iff] using hk)
        heq (hall j (by simpa [Nat.lt_succ_iff] using hj))
  simp at hcard

theorem reached_le (h : Searching cost n i rank s) : reached n s ≤ n := by
  have hsub : (Finset.range (n + 1)).filter (s.used ·) ⊆ (Finset.range (n + 1)).erase s.j0 := by
    intro k hk
    rw [Finset.mem_filter] at hk
    refine Finset.mem_erase.mpr ⟨?_, hk.1⟩
    rintro rfl
    simp [h.j0_fresh] at hk
  have hcard := Finset.card_le_card hsub
  rw [Finset.card_erase_of_mem (Finset.mem_range.mpr (Nat.lt_succ_of_le h.j0_le)),
    Finset.card_range] at hcard
  exact hcard

variable {t : Search K} {delta : K} {reach : ℕ → K}

theorem used_iff (g : Grown cost n s t delta reach) (k : ℕ) :
    t.used k = true ↔ k = s.j0 ∨ s.used k = true := by
  rw [g.used]
  by_cases hk : k = s.j0
  · simp [hk]
  · simp [hk]

theorem reached_grown (h : Searching cost n i rank s) (g : Grown cost n s t delta reach) :
    reached n t = reached n s + 1 := by
  have hset : (Finset.range (n + 1)).filter (t.used ·) =
      insert s.j0 ((Finset.range (n + 1)).filter (s.used ·)) := by
    ext k
    have hj0 := h.j0_le
    simp only [Finset.mem_filter, Finset.mem_range, Finset.mem_insert, used_iff g]
    constructor
    · rintro ⟨hk, rfl | hused⟩
      · exact Or.inl rfl
      · exact Or.inr ⟨hk, hused⟩
    · rintro (rfl | ⟨hk, hused⟩)
      · exact ⟨by omega, Or.inl rfl⟩
      · exact ⟨hk, Or.inr hused⟩
  rw [reached, hset, Finset.card_insert_of_notMem]
  · rfl
  · simp [h.j0_fresh]

theorem grown_le (h : Searching cost n i rank s) (g : Grown cost n s t delta reach) {k : ℕ}
    (hk : t.used k = true) : k ≤ n := by
  rcases (used_iff g k).mp hk with rfl | hused
  · exact h.j0_le
  · exact h.used_le k hused

theorem grown_occupied (h : Searching cost n i rank s) (hocc : s.p s.j0 ≠ 0)
    (g : Grown cost n s t delta reach) {k : ℕ} (hk : t.used k = true) : s.p k ≠ 0 := by
  rcases (used_iff g k).mp hk with rfl | hused
  · exact hocc
  · exact h.used_occupied k hused

theorem grown_root (h : Searching cost n i rank s) (g : Grown cost n s t delta reach) :
    t.used 0 = true := by
  rw [used_iff g]
  rcases h.root with ⟨h0, _⟩ | ⟨_, h0⟩
  · exact Or.inl h0.symm
  · exact Or.inr h0

/-- A column of the tree other than column 0 shows that a round was played. -/
theorem past_start (h : Searching cost n i rank s) (g : Grown cost n s t delta reach) {j : ℕ}
    (hj : 1 ≤ j) (hused : t.used j = true) : s.j0 ≠ 0 := by
  rcases h.root with ⟨h0, hnone⟩ | ⟨h0, _⟩
  · rcases (used_iff g j).mp hused with rfl | hused
    · omega
    · simp [hnone j] at hused
  · exact h0

/-- After the first round no pair of the rows up to `i` has negative slack. -/
theorem slack_nonneg (h : Searching cost n i rank s) (hj0 : s.j0 ≠ 0) {r j : ℕ} (hr : 1 ≤ r)
    (hri : r ≤ i) (hj : 1 ≤ j) (hjn : j ≤ n) : 0 ≤ slack (price cost) s.u s.v r j := by
  rcases Nat.lt_or_eq_of_le hri with hlt | rfl
  · exact h.feasible r j hr hlt hj hjn
  · exact h.entered hj0 j hj hjn

theorem reach_le_all (h : Searching cost n i rank s) (g : Grown cost n s t delta reach) {j k : ℕ}
    (hj : 1 ≤ j) (hjn : j ≤ n) (hfree : t.used j = false) (hk : t.used k = true) :
    reach j ≤ slack (price cost) s.u s.v (s.p k) j := by
  rcases (used_iff g k).mp hk with rfl | hused
  · exact g.reach_le j hj hjn hfree
  · have hjfree : s.used j = false := by
      by_contra hj'
      have := (used_iff g j).mpr (Or.inr (by simpa using hj'))
      simp [this] at hfree
    have hold := (g.reach_le_old j hj hjn hfree).trans (h.minv_le j hj hjn hjfree k hused)
    exact WithTop.coe_le_coe.mp hold

theorem reach_eq (h : Searching cost n i rank s) (g : Grown cost n s t delta reach) {j : ℕ}
    (hj : 1 ≤ j) (hjn : j ≤ n) (hfree : t.used j = false) :
    t.used (t.way j) = true ∧ slack (price cost) s.u s.v (s.p (t.way j)) j = reach j := by
  have hjfree : s.used j = false := by
    by_contra hj'
    have := (used_iff g j).mpr (Or.inr (by simpa using hj'))
    simp [this] at hfree
  rcases g.source j hj hjn hfree with ⟨hway, hold⟩ | ⟨hway, hnew⟩
  · rcases h.minv_eq j hj hjn hjfree with htop | ⟨hused, heq⟩
    · rw [htop] at hold
      exact absurd hold WithTop.top_ne_coe
    · rw [hway]
      refine ⟨(used_iff g _).mpr (Or.inr hused), ?_⟩
      rw [hold, WithTop.coe_inj] at heq
      exact heq.symm
  · rw [hway]
    exact ⟨(used_iff g _).mpr (Or.inl rfl), hnew⟩

/-- Only the first round may lower the potentials of the tree. -/
theorem delta_nonneg (h : Searching cost n i rank s) (hocc : s.p s.j0 ≠ 0)
    (g : Grown cost n s t delta reach) (hj0 : s.j0 ≠ 0) : 0 ≤ delta := by
  obtain ⟨h1, hn, hfree, heq⟩ := g.nearest
  obtain ⟨hway, hslack⟩ := h.reach_eq g h1 hn hfree
  rw [← heq, ← hslack]
  exact h.slack_nonneg hj0 (Nat.one_le_iff_ne_zero.mpr (h.grown_occupied hocc g hway))
    (h.le_row (h.grown_le g hway)) h1 hn

section Moved

variable (h : Searching cost n i rank s) (hocc : s.p s.j0 ≠ 0)
  (g : Grown cost n s t delta reach)

theorem mem_treeRows (g : Grown cost n s t delta reach) {k : ℕ} (hk : t.used k = true) :
    s.p k ∈ treeRows t := ⟨k, hk, by rw [g.p]⟩

include h hocc g in
theorem notMem_treeRows {k : ℕ} (hkn : k ≤ n) (hk : t.used k = false) :
    s.p k ∉ treeRows t := by
  rintro ⟨l, hl, hlp⟩
  rw [g.p] at hlp
  have hlk := h.inj_all (h.grown_le g hl) hkn hlp (h.grown_occupied hocc g hl)
  simp [← hlk, hl] at hk

include g

theorem slack_inside {r j : ℕ} (hr : r ∈ treeRows t) (hj : t.used j = true) :
    slack (price cost) t.u t.v r j = slack (price cost) s.u s.v r j := by
  rw [g.u, g.v]
  exact slack_raised_inside _ _ _ _ hr hj

theorem slack_outside {r j : ℕ} (hr : r ∉ treeRows t) (hj : t.used j = false) :
    slack (price cost) t.u t.v r j = slack (price cost) s.u s.v r j := by
  rw [g.u, g.v]
  exact slack_raised_outside _ _ _ _ hr (by simp [treeColumns, hj])

theorem slack_leaving {r j : ℕ} (hr : r ∈ treeRows t) (hj : t.used j = false) :
    slack (price cost) t.u t.v r j = slack (price cost) s.u s.v r j - delta := by
  rw [g.u, g.v]
  exact slack_raised_leaving _ _ _ _ hr (by simp [treeColumns, hj])

theorem slack_entering {r j : ℕ} (hr : r ∉ treeRows t) (hj : t.used j = true) :
    slack (price cost) t.u t.v r j = slack (price cost) s.u s.v r j + delta := by
  rw [g.u, g.v]
  exact slack_raised_entering _ _ _ _ hr hj

include h hocc

/-- After a round no pair of the rows up to `i` has negative slack. -/
theorem feasible_grown {r j : ℕ} (hr : 1 ≤ r) (hri : r ≤ i) (hj : 1 ≤ j) (hjn : j ≤ n) :
    0 ≤ slack (price cost) t.u t.v r j := by
  by_cases hrow : r ∈ treeRows t <;> cases hcol : t.used j
  · rw [slack_leaving g hrow hcol, sub_nonneg]
    obtain ⟨k, hk, rfl⟩ := hrow
    rw [g.p]
    exact (g.delta_le j hj hjn hcol).trans (h.reach_le_all g hj hjn hcol hk)
  · rw [slack_inside g hrow hcol]
    exact h.slack_nonneg (h.past_start g hj hcol) hr hri hj hjn
  · rw [slack_outside g hrow hcol]
    have hne : r ≠ i := by
      rintro rfl
      apply hrow
      rw [← h.row]
      exact mem_treeRows g (h.grown_root g)
    exact h.feasible r j hr (by omega) hj hjn
  · rw [slack_entering g hrow hcol]
    have hj0 := h.past_start g hj hcol
    exact add_nonneg (h.slack_nonneg hj0 hr hri hj hjn) (h.delta_nonneg hocc g hj0)

/-- A round keeps the invariant of the search. -/
theorem grown : Searching cost n i (Function.update rank t.j0 (reached n s + 1)) t := by
  obtain ⟨h1, hn, hfree, hreach⟩ := g.nearest
  have hrank : ∀ k, t.used k = true →
      Function.update rank t.j0 (reached n s + 1) k = rank k ∧ rank k ≤ reached n s := by
    intro k hk
    have hne : k ≠ t.j0 := fun e => by simp [← e, hk] at hfree
    refine ⟨Function.update_of_ne hne _ _, ?_⟩
    rcases (used_iff g k).mp hk with rfl | hused
    · exact h.rank_le _ (Or.inr rfl)
    · exact h.rank_le k (Or.inl hused)
  constructor
  · rw [g.p]
    exact h.toPlaced
  · exact h.row_pos
  · exact h.row_le
  · rw [g.p]
    exact h.row
  · intro j hj
    exact h.grown_le g hj
  · intro j hj
    rw [g.p]
    exact h.grown_occupied hocc g hj
  · exact hn
  · exact hfree
  · exact Or.inr ⟨by omega, h.grown_root g⟩
  · intro r j hr hri hj hjn
    exact h.feasible_grown hocc g hr hri.le hj hjn
  · intro _ j hj hjn
    exact h.feasible_grown hocc g h.row_pos le_rfl hj hjn
  · intro j hj hjn hne
    rw [g.p] at hne ⊢
    cases hused : t.used j
    · rw [slack_outside g (h.notMem_treeRows hocc g hjn hused) hused]
      exact h.tight j hj hjn hne
    · rw [slack_inside g (mem_treeRows g hused) hused]
      exact h.tight j hj hjn hne
  · intro j hj hjoin
    rw [g.p]
    rcases hjoin with hused | rfl
    · have hold := h.tree j hj (((used_iff g j).mp hused).symm)
      have hway := (used_iff g _).mpr (Or.inr hold.1)
      rw [g.way_used j hused, (hrank j hused).1, (hrank _ hway).1,
        slack_inside g (mem_treeRows g hway) hused]
      exact ⟨hway, hold.2⟩
    · obtain ⟨hway, hslack⟩ := h.reach_eq g h1 hn hfree
      have hlt := (hrank _ hway).2
      refine ⟨hway, ?_, ?_⟩
      · rw [(hrank _ hway).1, Function.update_self]
        omega
      · rw [slack_leaving g (mem_treeRows g hway) hfree, hslack, hreach, sub_self]
  · intro j hjoin
    rw [h.reached_grown g]
    rcases hjoin with hused | rfl
    · have := hrank j hused
      omega
    · rw [Function.update_self]
  · intro j hj hjn hjfree k hk
    rw [g.minv j hj hjn hjfree, g.p, slack_leaving g (mem_treeRows g hk) hjfree,
      WithTop.coe_le_coe]
    exact sub_le_sub_right (h.reach_le_all g hj hjn hjfree hk) delta
  · intro j hj hjn hjfree
    obtain ⟨hway, hslack⟩ := h.reach_eq g hj hjn hjfree
    refine Or.inr ⟨hway, ?_⟩
    rw [g.minv j hj hjn hjfree, g.p, slack_leaving g (mem_treeRows g hway) hjfree, hslack]

end Moved

/-- The search ends at a free column. -/
theorem search_total (h : Searching cost n i rank s) (hocc : s.p s.j0 ≠ 0) {fuel : ℕ}
    (hfuel : n - reached n s < fuel) :
    ∃ t, repeatUntil (grow cost n) (fun s => s.p s.j0 == 0) fuel s = some t ∧
      ∃ rank', Searching cost n i rank' t ∧ t.p t.j0 = 0 ∧ 1 ≤ t.j0 := by
  apply repeatUntil_total (fun s => (∃ rank, Searching cost n i rank s) ∧ s.p s.j0 ≠ 0)
    (fun t => ∃ rank', Searching cost n i rank' t ∧ t.p t.j0 = 0 ∧ 1 ≤ t.j0)
    (fun s => n - reached n s)
  · rintro s ⟨⟨rank, h⟩, hocc⟩
    obtain ⟨t, delta, reach, ht, g⟩ := grow_spec h.used_le h.j0_le
      (fun j k hj hk => h.inj_all hj hk) h.used_occupied hocc (h.room hocc)
    have hnext := h.grown hocc g
    refine ⟨t, ht, ?_, ?_⟩
    · intro hdone
      exact ⟨_, hnext, by simpa using hdone, g.nearest.1⟩
    · intro hdone
      refine ⟨⟨⟨_, hnext⟩, by simpa using hdone⟩, ?_⟩
      have hle := hnext.reached_le
      have hstep := h.reached_grown g
      show n - reached n t < n - reached n s
      omega
  · exact ⟨⟨rank, h⟩, hocc⟩
  · exact hfuel

end Searching

/-- The columns while they are handed on: column `h` waits for its new row, and
the columns of the tree below it still hold the rows they were reached from. -/
structure Rewiring (cost : List (List K)) (n i : ℕ) (rank : ℕ → ℕ) (s : Search K)
    (q : (ℕ → ℕ) × ℕ) : Prop where
  hole_le : q.2 ≤ n
  hole_tree : s.used q.2 = true ∨ q.2 = s.j0
  le_row : ∀ j, j ≤ n → q.1 j ≤ i
  inj : ∀ j k, j ≤ n → k ≤ n → j ≠ q.2 → k ≠ q.2 → q.1 j = q.1 k → q.1 j ≠ 0 → j = k
  onto : ∀ r, 1 ≤ r → r ≤ i → ∃ j, j ≤ n ∧ j ≠ q.2 ∧ q.1 j = r
  tight : ∀ j, 1 ≤ j → j ≤ n → j ≠ q.2 → q.1 j ≠ 0 →
    slack (price cost) s.u s.v (q.1 j) j = 0
  below : ∀ j, rank j < rank q.2 → q.1 j = s.p j

namespace Rewiring

variable {s : Search K} {q : (ℕ → ℕ) × ℕ}

theorem start (h : Searching cost n i rank s) (hfree : s.p s.j0 = 0) (h1 : 1 ≤ s.j0) :
    Rewiring cost n i rank s (s.p, s.j0) := by
  exact
    { hole_le := h.j0_le
      hole_tree := Or.inr rfl
      le_row := fun j hj => h.le_row hj
      inj := fun j k hj hk _ _ heq hne => h.inj_all hj hk heq hne
      onto := by
        intro r hr hri
        rcases Nat.lt_or_eq_of_le hri with hlt | rfl
        · obtain ⟨j, hj, hjn, hjr⟩ := h.onto r hr hlt
          refine ⟨j, hjn, ?_, hjr⟩
          rintro rfl
          change s.p s.j0 = r at hjr
          omega
        · refine ⟨0, Nat.zero_le n, ?_, h.row⟩
          show 0 ≠ s.j0
          omega
      tight := fun j hj hjn _ hne => h.tight j hj hjn hne
      below := fun _ _ => rfl }

theorem step (h : Searching cost n i rank s) (w : Rewiring cost n i rank s q)
    (hhole : q.2 ≠ 0) :
    Rewiring cost n i rank s (rewire s.way q) ∧ rank (rewire s.way q).2 < rank q.2 := by
  obtain ⟨hway, hrank, hslack⟩ := h.tree q.2 (Nat.one_le_iff_ne_zero.mpr hhole) w.hole_tree
  have hne : s.way q.2 ≠ q.2 := fun e => by rw [e] at hrank; exact lt_irrefl _ hrank
  have hself : (rewire s.way q).1 q.2 = q.1 (s.way q.2) := by simp [rewire]
  have hother : ∀ j, j ≠ q.2 → (rewire s.way q).1 j = q.1 j := by
    intro j hj
    simp [rewire, hj]
  have hhole' : (rewire s.way q).2 = s.way q.2 := rfl
  have hwayn := h.used_le _ hway
  refine ⟨?_, hrank⟩
  -- The new row of the old hole and the row of the new hole are one row.
  have htrade : ∀ j, j ≤ n → j ≠ s.way q.2 → ∃ k, k ≤ n ∧ k ≠ q.2 ∧
      (rewire s.way q).1 j = q.1 k ∧ (k = j ∨ j = q.2 ∧ k = s.way q.2) := by
    intro j hj hjway
    by_cases hjq : j = q.2
    · subst hjq
      exact ⟨s.way q.2, hwayn, hne, hself, Or.inr ⟨rfl, rfl⟩⟩
    · exact ⟨j, hj, hjq, hother j hjq, Or.inl rfl⟩
  constructor
  · exact hwayn
  · exact Or.inl hway
  · intro j hj
    by_cases hjq : j = q.2
    · rw [hjq, hself]
      exact w.le_row _ hwayn
    · rw [hother j hjq]
      exact w.le_row j hj
  · intro j k hj hk hjw hkw heq hnz
    rw [hhole'] at hjw hkw
    obtain ⟨j', hj', hj'q, hjeq, hjcase⟩ := htrade j hj hjw
    obtain ⟨k', hk', hk'q, hkeq, hkcase⟩ := htrade k hk hkw
    have hjk := w.inj j' k' hj' hk' hj'q hk'q (by rw [← hjeq, ← hkeq, heq]) (hjeq ▸ hnz)
    rcases hjcase with rfl | ⟨rfl, rfl⟩ <;> rcases hkcase with rfl | ⟨rfl, rfl⟩
    · exact hjk
    · exact absurd hjk hjw
    · exact absurd hjk.symm hkw
    · rfl
  · intro r hr hri
    obtain ⟨j, hj, hjq, hjr⟩ := w.onto r hr hri
    rw [hhole']
    by_cases hjway : j = s.way q.2
    · exact ⟨q.2, w.hole_le, hne.symm, by rw [hself, ← hjway, hjr]⟩
    · exact ⟨j, hj, hjway, by rw [hother j hjq, hjr]⟩
  · intro j hj hjn hjw hnz
    by_cases hjq : j = q.2
    · subst hjq
      rw [hself, w.below _ hrank]
      exact hslack
    · rw [hother j hjq] at hnz ⊢
      exact w.tight j hj hjn hjq hnz
  · intro j hj
    rw [hhole'] at hj
    have hjq : j ≠ q.2 := by
      rintro rfl
      omega
    rw [hother j hjq]
    exact w.below j (hj.trans hrank)

/-- When column 0 is the one that waits, the rows up to `i` are placed. -/
theorem finish (h : Searching cost n i rank s) (h1 : 1 ≤ s.j0) (w : Rewiring cost n i rank s q)
    (hhole : q.2 = 0) : Priced cost n (i + 1) { s.toMatching with p := q.1 } := by
  exact
    { lt := fun j hj hjn => Nat.lt_succ_of_le (w.le_row j hjn)
      inj := fun j k hj hjn hk hkn => w.inj j k hjn hkn (by omega) (by omega)
      onto := by
        intro r hr hri
        obtain ⟨j, hjn, hj, hjr⟩ := w.onto r hr (by omega)
        exact ⟨j, by omega, hjn, hjr⟩
      feasible := by
        intro r j hr hri hj hjn
        exact h.slack_nonneg (by omega) hr (by omega) hj hjn
      tight := fun j hj hjn hne => w.tight j hj hjn (by omega) hne }

end Rewiring

/-- The loop over the rows places one row a round. -/
theorem placeRow_total {m : Matching K} (hm : Priced cost n i m) (h1 : 1 ≤ i) (hn : i ≤ n) :
    ∃ m', placeRow cost n m i = some m' ∧ Priced cost n (i + 1) m' := by
  have henter := hm.enter h1 hn
  have hocc : (m.enter i).p (m.enter i).j0 ≠ 0 := by
    rw [show (m.enter i).j0 = 0 from rfl, henter.row]
    omega
  obtain ⟨s, hs, rank, h, hfree, hj0⟩ := henter.search_total hocc
    (show n - reached n (m.enter i) < n + 1 by omega)
  have hrank : rank s.j0 < n + 1 := by
    have := h.rank_le s.j0 (Or.inr rfl)
    have := h.reached_le
    omega
  obtain ⟨q, hq, w, hdone⟩ : ∃ q, whileLoop (fun q => q.2 != 0) (rewire s.way) (n + 1)
      (s.p, s.j0) = some q ∧ Rewiring cost n i rank s q ∧ (q.2 != 0) = false :=
    whileLoop_total (Rewiring cost n i rank s) (fun q => rank q.2)
      (fun q w hguard => w.step h (by simpa using hguard)) (Rewiring.start h hfree hj0) hrank
  refine ⟨{ s.toMatching with p := q.1 }, ?_, w.finish h hj0 (by simpa using hdone)⟩
  rw [placeRow, hs, Option.bind_some, hq, Option.map_some]

theorem placeRows_total (cost : List (List K)) (n : ℕ) :
    ∃ m, tryRange 1 (n + 1) (placeRow cost n)
        { u := fun _ => 0, v := fun _ => 0, p := fun _ => 0, way := fun _ => 0 } = some m ∧
      Priced cost n (n + 1) m := by
  apply tryRange_total (Priced cost n) (by omega)
  · exact
      { lt := fun _ _ _ => Nat.one_pos
        inj := fun _ _ _ _ _ _ _ hne => absurd rfl hne
        onto := fun r hr hr1 => by omega
        feasible := fun r _ hr hr1 => by omega
        tight := fun _ _ _ hne => absurd rfl hne }
  · intro i m h1 hn h
    exact placeRow_total h h1 (by omega)

/-- The columns of the rows when all of them are placed. -/
theorem Placed.columns {p : ℕ → ℕ} (h : Placed n (n + 1) p) :
    ∃ σ : Equiv.Perm (Fin n), ∀ r : Fin n, p (σ r + 1) = r + 1 := by
  have hcol : ∀ r : Fin n, ∃ j : Fin n, p (j + 1) = r + 1 := by
    intro r
    obtain ⟨j, hj, hjn, hjr⟩ := h.onto (r + 1) (by omega) (by omega)
    refine ⟨⟨j - 1, by omega⟩, ?_⟩
    rw [← hjr, Nat.sub_add_cancel hj]
  choose f hf using hcol
  have hinj : Function.Injective f := by
    intro r r' heq
    have hr := hf r
    rw [heq, hf r'] at hr
    exact Fin.ext (by omega)
  exact ⟨Equiv.ofBijective f (Finite.injective_iff_bijective.mp hinj), hf⟩

/-- The list of the columns holds the column of every row. -/
theorem readOut_eq {p : ℕ → ℕ} (h : Placed n (n + 1) p) {σ : Equiv.Perm (Fin n)}
    (hσ : ∀ r : Fin n, p (σ r + 1) = r + 1) :
    readOut n p = List.ofFn fun r => (σ r : ℕ) := by
  have hinv : (readOut n p).length = n ∧
      ∀ j, 1 ≤ j → j < n + 1 → p j ≠ 0 → (readOut n p)[p j - 1]? = some (j - 1) := by
    apply forRange_invariant (fun k (out : List ℕ) => out.length = n ∧
      ∀ j, 1 ≤ j → j < k → p j ≠ 0 → out[p j - 1]? = some (j - 1)) (by omega)
    · exact ⟨List.length_replicate, fun j hj hj1 => by omega⟩
    · intro k out hk hkn hout
      obtain ⟨hlen, hget⟩ := hout
      have hpk := h.lt k hk (by omega)
      by_cases hpk0 : p k = 0
      · rw [if_neg (by simpa using hpk0)]
        refine ⟨hlen, fun j hj hjk hne => ?_⟩
        have hjk' : j ≠ k := fun e => hne (e ▸ hpk0)
        exact hget j hj (by omega) hne
      · rw [if_pos hpk0]
        refine ⟨by simpa using hlen, fun j hj hjk hne => ?_⟩
        by_cases hjk' : j = k
        · subst hjk'
          rw [List.getElem?_set_self (by omega)]
        · have hpjk : p j ≠ p k := fun e => hjk' (h.inj j k hj (by omega) hk (by omega) e hne)
          rw [List.getElem?_set_ne (by omega)]
          exact hget j hj (by omega) hne
  · obtain ⟨hlen, hget⟩ := hinv
    apply List.ext_getElem?
    intro r
    by_cases hr : r < n
    · have hcol := hget (σ ⟨r, hr⟩ + 1) (by omega) (by omega)
      rw [hσ ⟨r, hr⟩] at hcol
      simpa [hr] using hcol (by omega)
    · rw [List.getElem?_eq_none (by omega), List.getElem?_eq_none (by simpa using hr)]

/-- The search returns an optimal assignment. -/
theorem hungarian_spec (cost : List (List K)) (hn : cost.length = n) :
    ∃ σ : Equiv.Perm (Fin n), hungarian cost = some (List.ofFn fun r => (σ r : ℕ)) ∧
      Optimal (fun r j : Fin n => entry cost r j) σ := by
  obtain ⟨m, hm, h⟩ := placeRows_total cost n
  obtain ⟨σ, hσ⟩ := h.toPlaced.columns
  refine ⟨σ, ?_, ?_⟩
  · rw [hungarian, hn, hm, Option.map_some, readOut_eq h.toPlaced hσ]
  · apply optimal_of_potentials (fun r : Fin n => m.u (r + 1)) (fun j : Fin n => m.v (j + 1))
    · intro r j
      exact h.feasible (r + 1) (j + 1) (by omega) (by omega) (by omega) (by omega)
    · intro r
      have htight := h.tight (σ r + 1) (by omega) (by omega) (by rw [hσ]; omega)
      rw [hσ] at htight
      exact htight

/-- The rows of a matrix. -/
def matrixRows (M : Matrix (Fin n) (Fin n) K) : List (List K) :=
  List.ofFn fun r => List.ofFn (M r)

theorem entry_matrixRows (M : Matrix (Fin n) (Fin n) K) (r j : Fin n) :
    entry (matrixRows M) r j = M r j := by
  simp [entry, matrixRows]

/-- On every square matrix the search ends and returns a permutation, the column
of every row, whose total cost no permutation undercuts. -/
theorem hungarian_optimal (n : ℕ) (M : Matrix (Fin n) (Fin n) K) :
    ∃ σ : Equiv.Perm (Fin n), hungarian (matrixRows M) = some (List.ofFn fun r => (σ r : ℕ)) ∧
      ∀ τ : Equiv.Perm (Fin n), ∑ r, M r (σ r) ≤ ∑ r, M r (τ r) := by
  obtain ⟨σ, hσ, hopt⟩ := hungarian_spec (matrixRows M)
    (show _ = n by simp [matrixRows])
  refine ⟨σ, hσ, fun τ => ?_⟩
  have hle := hopt τ
  simp only [total, entry_matrixRows] at hle
  exact hle

/-- A matrix of the rationals with negative entries. -/
theorem hungarian_optimal_three :
    ∃ σ : Equiv.Perm (Fin 3),
      hungarian (matrixRows !![4, -1, 3; 2, 0, 5; 3, 2, (-2 : ℚ)]) =
        some (List.ofFn fun r => (σ r : ℕ)) ∧
      ∀ τ : Equiv.Perm (Fin 3), ∑ r, !![4, -1, 3; 2, 0, 5; 3, 2, (-2 : ℚ)] r (σ r) ≤
        ∑ r, !![4, -1, 3; 2, 0, 5; 3, 2, (-2 : ℚ)] r (τ r) :=
  hungarian_optimal 3 !![4, -1, 3; 2, 0, 5; 3, 2, (-2 : ℚ)]

example : hungarian [[4, -1, 3], [2, 0, 5], [3, 2, (-2 : ℚ)]] = some [1, 0, 2] := by
  decide +kernel

end Mission10.Engine.Hungarian
