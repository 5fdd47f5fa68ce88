import Mathlib
import Mission10.Library.Assignment
import Mission10.Engine.Hungarian

/-!
# Rounds of the assignment search

What the two inner loops of the search compute: the scan finds for every column
outside the tree how near it is, and the second loop moves the potentials of the
tree by the distance of the nearest column. Together they say what one round of
the search does.
-/
namespace Mission10.Engine.Hungarian

open Loops Assignment

set_option linter.unusedSectionVars false

variable {K : Type*} [AddCommGroup K] [LinearOrder K]

/-- The cost of a row and a column numbered from 1. -/
def price (cost : List (List K)) (r j : ℕ) : K := entry cost (r - 1) (j - 1)

section Scan

variable (cost : List (List K)) (s : Search K) (i0 : ℕ)

/-- The slack of a column seen from the row under scan. -/
def current (j : ℕ) : K := slack (price cost) s.u s.v i0 j

/-- What the loop over the columns has found before column `k`. -/
structure Scanned (k : ℕ) (acc : Scan K) : Prop where
  le_old : ∀ j, acc.minv j ≤ s.minv j
  le_current : ∀ j, 1 ≤ j → j < k → s.used j = false → acc.minv j ≤ current cost s i0 j
  source : ∀ j, acc.way j = s.way j ∧ acc.minv j = s.minv j ∨
    s.used j = false ∧ acc.way j = s.j0 ∧ acc.minv j = current cost s i0 j
  delta_le : ∀ j, 1 ≤ j → j < k → s.used j = false → acc.delta ≤ acc.minv j
  delta_eq : acc.delta = ⊤ ∨
    1 ≤ acc.j1 ∧ acc.j1 < k ∧ s.used acc.j1 = false ∧ acc.delta = acc.minv acc.j1

variable {cost s i0} {k : ℕ} {acc : Scan K}

theorem Scanned.skip (h : Scanned cost s i0 k acc) (hused : s.used k = true) :
    Scanned cost s i0 (k + 1) acc := by
  have hlt : ∀ j, j < k + 1 → s.used j = false → j < k := by
    intro j hj hfree
    rcases Nat.lt_succ_iff_lt_or_eq.mp hj with hlt | rfl
    · exact hlt
    · simp [hused] at hfree
  exact
    { le_old := h.le_old
      le_current := fun j h1 hj hfree => h.le_current j h1 (hlt j hj hfree) hfree
      source := h.source
      delta_le := fun j h1 hj hfree => h.delta_le j h1 (hlt j hj hfree) hfree
      delta_eq := h.delta_eq.imp_right fun ⟨h1, hj1, hrest⟩ => ⟨h1, by omega, hrest⟩ }

@[simp] theorem offer_delta (j j0 : ℕ) (cur : K) : (acc.offer j j0 cur).delta = acc.delta := by
  unfold Scan.offer
  split <;> rfl

@[simp] theorem offer_j1 (j j0 : ℕ) (cur : K) : (acc.offer j j0 cur).j1 = acc.j1 := by
  unfold Scan.offer
  split <;> rfl

@[simp] theorem offer_minv_self (j j0 : ℕ) (cur : K) :
    (acc.offer j j0 cur).minv j = min (acc.minv j) cur := by
  unfold Scan.offer
  split_ifs with h
  · simp [h.le]
  · simp [not_lt.mp h]

theorem offer_way_self (acc : Scan K) (j j0 : ℕ) (cur : K) :
    (acc.offer j j0 cur).way j = acc.way j ∧ (acc.offer j j0 cur).minv j = acc.minv j ∨
      (acc.offer j j0 cur).way j = j0 ∧ (acc.offer j j0 cur).minv j = cur := by
  unfold Scan.offer
  split_ifs with h
  · exact Or.inr ⟨by simp, by simp⟩
  · exact Or.inl ⟨rfl, rfl⟩

theorem offer_of_ne {j l : ℕ} (j0 : ℕ) (cur : K) (hl : l ≠ j) :
    (acc.offer j j0 cur).minv l = acc.minv l ∧ (acc.offer j j0 cur).way l = acc.way l := by
  unfold Scan.offer
  split_ifs
  · exact ⟨by simp [hl], by simp [hl]⟩
  · exact ⟨rfl, rfl⟩

@[simp] theorem keep_minv (j : ℕ) : (acc.keep j).minv = acc.minv := by
  unfold Scan.keep
  split <;> rfl

@[simp] theorem keep_way (j : ℕ) : (acc.keep j).way = acc.way := by
  unfold Scan.keep
  split <;> rfl

@[simp] theorem keep_delta (j : ℕ) : (acc.keep j).delta = min acc.delta (acc.minv j) := by
  unfold Scan.keep
  split_ifs with h
  · simp [h.le]
  · simp [not_lt.mp h]

theorem keep_j1 (acc : Scan K) (j : ℕ) :
    (acc.keep j).j1 = acc.j1 ∧ (acc.keep j).delta = acc.delta ∨
      (acc.keep j).j1 = j ∧ (acc.keep j).delta = acc.minv j := by
  unfold Scan.keep
  split_ifs
  · exact Or.inr ⟨rfl, rfl⟩
  · exact Or.inl ⟨rfl, rfl⟩

theorem Scanned.step (hk : 1 ≤ k) (h : Scanned cost s i0 k acc) :
    Scanned cost s i0 (k + 1) (scanColumn cost s i0 acc k) := by
  unfold scanColumn
  split_ifs with hused
  · exact h.skip hused
  have hfree : s.used k = false := by simpa using hused
  have hcur : entry cost (i0 - 1) (k - 1) - s.u i0 - s.v k = current cost s i0 k := rfl
  rw [hcur]
  generalize hoffer : acc.offer k s.j0 (current cost s i0 k) = acc'
  have hself : acc'.minv k = min (acc.minv k) (current cost s i0 k : K) := by
    rw [← hoffer, offer_minv_self]
  have hother : ∀ l, l ≠ k → acc'.minv l = acc.minv l ∧ acc'.way l = acc.way l := by
    intro l hl
    rw [← hoffer]
    exact offer_of_ne s.j0 _ hl
  have hle : ∀ l, acc'.minv l ≤ acc.minv l := by
    intro l
    by_cases hl : l = k
    · subst hl
      exact hself.le.trans (min_le_left _ _)
    · exact (hother l hl).1.le
  have hdelta : acc'.delta = acc.delta := by rw [← hoffer, offer_delta]
  have hj1 : acc'.j1 = acc.j1 := by rw [← hoffer, offer_j1]
  constructor
  · intro j
    rw [keep_minv]
    exact (hle j).trans (h.le_old j)
  · intro j h1 hj hjfree
    rw [keep_minv]
    by_cases hjk : j = k
    · subst hjk
      exact hself.le.trans (min_le_right _ _)
    · exact (hle j).trans (h.le_current j h1 (by omega) hjfree)
  · intro j
    rw [keep_minv, keep_way]
    by_cases hjk : j = k
    · subst hjk
      rcases h.source j with ⟨hway, hminv⟩ | hnew
      · rcases offer_way_self acc j s.j0 (current cost s i0 j) with hold | hnew
        · rw [hoffer, hway, hminv] at hold
          exact Or.inl hold
        · rw [hoffer] at hnew
          exact Or.inr ⟨hfree, hnew⟩
      · rcases offer_way_self acc j s.j0 (current cost s i0 j) with hold | hnew'
        · rw [hoffer, hnew.2.1, hnew.2.2] at hold
          exact Or.inr ⟨hfree, hold⟩
        · rw [hoffer] at hnew'
          exact Or.inr ⟨hfree, hnew'⟩
    · rw [(hother j hjk).1, (hother j hjk).2]
      exact h.source j
  · intro j h1 hj hjfree
    rw [keep_delta, keep_minv]
    by_cases hjk : j = k
    · subst hjk
      exact min_le_right _ _
    · rw [hdelta, (hother j hjk).1]
      exact (min_le_left _ _).trans (h.delta_le j h1 (by omega) hjfree)
  · rcases keep_j1 acc' k with ⟨hj, hd⟩ | ⟨hj, hd⟩
    · rw [hj, hd, hdelta, hj1, keep_minv]
      rcases h.delta_eq with htop | ⟨h1, hlt, hj1free, heq⟩
      · exact Or.inl htop
      · refine Or.inr ⟨h1, by omega, hj1free, ?_⟩
        rw [(hother acc.j1 (by omega)).1]
        exact heq
    · rw [hj, hd, keep_minv]
      exact Or.inr ⟨hk, by omega, hfree, rfl⟩

/-- The whole loop over the columns. -/
theorem scan_spec (cost : List (List K)) (s : Search K) (i0 n : ℕ) :
    Scanned cost s i0 (n + 1) (forRange 1 (n + 1) (scanColumn cost s i0)
      { minv := s.minv, way := s.way, delta := ⊤, j1 := 0 }) := by
  apply forRange_invariant (Scanned cost s i0) (by omega)
  · exact
      { le_old := fun _ => le_rfl
        le_current := fun j h1 hj => by omega
        source := fun _ => Or.inl ⟨rfl, rfl⟩
        delta_le := fun j h1 hj => by omega
        delta_eq := Or.inl rfl }
  · intro k acc hk _ h
    exact h.step hk

end Scan

section Raise

/-- What the loop that moves the potentials has done before column `k`. -/
structure Raised (delta : K) (s : Search K) (k : ℕ) (t : Search K) : Prop where
  u : t.u = raised delta {r | ∃ j, j < k ∧ s.used j = true ∧ s.p j = r} s.u
  v : t.v = raised (-delta) {j | j < k ∧ s.used j = true} s.v
  minv_lt : ∀ j, j < k → s.used j = false → t.minv j = (s.minv j).map (· - delta)
  minv_ge : ∀ j, k ≤ j → t.minv j = s.minv j
  p : t.p = s.p
  way : t.way = s.way
  used : t.used = s.used

theorem Raised.step {delta : K} {s t : Search K} {k : ℕ} (h : Raised delta s k t)
    (hinj : ∀ j, s.used j = true → s.used k = true → s.p j = s.p k → j = k) :
    Raised delta s (k + 1) (raiseColumn delta t k) := by
  unfold raiseColumn
  by_cases hused : s.used k = true
  · rw [if_pos (by rw [h.used]; exact hused)]
    refine ⟨?_, ?_, ?_, fun j hj => h.minv_ge j (by omega), h.p, h.way, h.used⟩
    · have hfresh : s.p k ∉ {r | ∃ j, j < k ∧ s.used j = true ∧ s.p j = r} := by
        rintro ⟨j, hj, hjused, hjp⟩
        have := hinj j hjused hused hjp
        omega
      ext r
      show Function.update t.u (t.p k) (t.u (t.p k) + delta) r = _
      rw [h.p]
      by_cases hr : r = s.p k
      · subst hr
        rw [Function.update_self, h.u]
        simp only [raised, if_neg hfresh]
        rw [if_pos]
        exact ⟨k, by omega, hused, rfl⟩
      · rw [Function.update_of_ne hr, h.u]
        simp only [raised]
        congr 1
        apply propext
        constructor
        · rintro ⟨j, hj, hrest⟩
          exact ⟨j, by omega, hrest⟩
        · rintro ⟨j, hj, hjused, hjp⟩
          have hjk : j ≠ k := fun e => hr (by rw [← hjp, e])
          exact ⟨j, by omega, hjused, hjp⟩
    · ext j
      show Function.update t.v k (t.v k - delta) j = _
      by_cases hj : j = k
      · subst hj
        simp [h.v, raised, hused, sub_eq_add_neg]
      · rw [Function.update_of_ne hj, h.v]
        have hiff : j < k ↔ j < k + 1 := by omega
        simp [raised, hiff]
    · intro j hj hfree
      have hjk : j ≠ k := fun e => by simp [e, hused] at hfree
      exact h.minv_lt j (by omega) hfree
  · rw [if_neg (by rw [h.used]; exact hused)]
    have hfree : ∀ j, s.used j = true → (j < k ↔ j < k + 1) := by
      intro j hj
      have hjk : j ≠ k := fun e => hused (e ▸ hj)
      omega
    refine ⟨?_, ?_, ?_, ?_, h.p, h.way, h.used⟩
    · rw [h.u]
      congr 1
      ext r
      exact exists_congr fun j => and_congr_left fun hj => hfree j hj.1
    · rw [h.v]
      congr 1
      ext j
      exact and_congr_left fun hj => hfree j hj
    · intro j hj hjfree
      show Function.update t.minv k ((t.minv k).map (· - delta)) j = _
      by_cases hjk : j = k
      · subst hjk
        rw [Function.update_self, h.minv_ge j le_rfl]
      · rw [Function.update_of_ne hjk, h.minv_lt j (by omega) hjfree]
    · intro j hj
      show Function.update t.minv k ((t.minv k).map (· - delta)) j = _
      rw [Function.update_of_ne (by omega), h.minv_ge j (by omega)]

/-- The whole loop that moves the potentials. -/
theorem raise_spec (delta : K) (s : Search K) (n : ℕ)
    (hinj : ∀ j k, s.used j = true → s.used k = true → s.p j = s.p k → j = k) :
    Raised delta s (n + 1) (forRange 0 (n + 1) (raiseColumn delta) s) := by
  apply forRange_invariant (Raised delta s) (by omega)
  · refine ⟨?_, ?_, fun j hj => by omega, fun _ _ => rfl, rfl, rfl, rfl⟩
    · simp [raised_empty]
    · simp [raised_empty]
  · intro k t _ _ h
    exact h.step fun j => hinj j k

end Raise

section Grow

/-- The columns of the tree. -/
def treeColumns (s : Search K) : Set ℕ := {j | s.used j = true}

/-- The rows of the tree. -/
def treeRows (s : Search K) : Set ℕ := {r | ∃ j, s.used j = true ∧ s.p j = r}

/-- What a round of the search does: the tree takes in the column `s.j0`, each
column outside is at the distance `reach` from it, and the potentials of the
tree move by the distance of the nearest. -/
structure Grown (cost : List (List K)) (n : ℕ) (s t : Search K) (delta : K) (reach : ℕ → K) :
    Prop where
  p : t.p = s.p
  used : t.used = Function.update s.used s.j0 true
  u : t.u = raised delta (treeRows t) s.u
  v : t.v = raised (-delta) (treeColumns t) s.v
  way_used : ∀ j, t.used j = true → t.way j = s.way j
  reach_le_old : ∀ j, 1 ≤ j → j ≤ n → t.used j = false → (reach j : WithTop K) ≤ s.minv j
  reach_le : ∀ j, 1 ≤ j → j ≤ n → t.used j = false →
    reach j ≤ slack (price cost) s.u s.v (s.p s.j0) j
  source : ∀ j, 1 ≤ j → j ≤ n → t.used j = false →
    t.way j = s.way j ∧ s.minv j = reach j ∨
      t.way j = s.j0 ∧ slack (price cost) s.u s.v (s.p s.j0) j = reach j
  minv : ∀ j, 1 ≤ j → j ≤ n → t.used j = false → t.minv j = ((reach j - delta : K) : WithTop K)
  nearest : 1 ≤ t.j0 ∧ t.j0 ≤ n ∧ t.used t.j0 = false ∧ reach t.j0 = delta
  delta_le : ∀ j, 1 ≤ j → j ≤ n → t.used j = false → delta ≤ reach j

theorem grow_spec {cost : List (List K)} {n : ℕ} {s : Search K}
    (hle : ∀ j, s.used j = true → j ≤ n) (hj0 : s.j0 ≤ n)
    (hinj : ∀ j k, j ≤ n → k ≤ n → s.p j = s.p k → s.p j ≠ 0 → j = k)
    (hocc : ∀ j, s.used j = true → s.p j ≠ 0) (hocc0 : s.p s.j0 ≠ 0)
    (hroom : ∃ j, 1 ≤ j ∧ j ≤ n ∧ j ≠ s.j0 ∧ s.used j = false) :
    ∃ t delta reach, grow cost n s = some t ∧ Grown cost n s t delta reach := by
  set s1 : Search K := { s with used := Function.update s.used s.j0 true } with hs1
  have hscan := scan_spec cost s1 (s.p s.j0) n
  set acc := forRange 1 (n + 1) (scanColumn cost s1 (s.p s.j0))
    { minv := s.minv, way := s.way, delta := ⊤, j1 := 0 } with hacc
  have hfinite : ∀ j, 1 ≤ j → j ≤ n → s1.used j = false → acc.minv j ≠ ⊤ := by
    intro j h1 hj hfree
    exact ne_top_of_le_ne_top WithTop.coe_ne_top (hscan.le_current j h1 (by omega) hfree)
  obtain ⟨j, h1, hj, hne, hfree⟩ := hroom
  have hfree1 : s1.used j = false := by simpa [hs1, hne] using hfree
  have hdelta_ne : acc.delta ≠ ⊤ :=
    ne_top_of_le_ne_top (hfinite j h1 hj hfree1) (hscan.delta_le j h1 (by omega) hfree1)
  obtain ⟨delta, hdelta⟩ := WithTop.ne_top_iff_exists.mp hdelta_ne
  set s2 : Search K := { s1 with minv := acc.minv, way := acc.way } with hs2
  have hle1 : ∀ k, s1.used k = true → k ≤ n := by
    intro k hk
    by_cases hk0 : k = s.j0
    · exact hk0 ▸ hj0
    · exact hle k (by simpa [hs1, hk0] using hk)
  have hocc1 : ∀ k, s1.used k = true → s.p k ≠ 0 := by
    intro k hk
    by_cases hk0 : k = s.j0
    · exact hk0 ▸ hocc0
    · exact hocc k (by simpa [hs1, hk0] using hk)
  have hraise := raise_spec delta s2 n
    fun k l hk hl heq => hinj k l (hle1 k hk) (hle1 l hl) heq (hocc1 k hk)
  set t := forRange 0 (n + 1) (raiseColumn delta) s2 with ht
  have hgrow : grow cost n s = some { t with j0 := acc.j1 } := by
    unfold grow
    simp only [← hs1, ← hacc]
    rw [← hdelta]
  have hcols : {k | k < n + 1 ∧ s2.used k = true} = {k | s1.used k = true} := by
    ext k
    exact and_iff_right_of_imp fun hk => Nat.lt_succ_of_le (hle1 k hk)
  have hrows : {r | ∃ k, k < n + 1 ∧ s2.used k = true ∧ s2.p k = r} =
      {r | ∃ k, s1.used k = true ∧ s.p k = r} := by
    ext r
    exact exists_congr fun k => and_iff_right_of_imp fun hk => Nat.lt_succ_of_le (hle1 k hk.1)
  have hreach : ∀ k, 1 ≤ k → k ≤ n → s1.used k = false →
      (((acc.minv k).untopD 0 : K) : WithTop K) = acc.minv k := by
    intro k hk1 hk hkfree
    obtain ⟨d, hd⟩ := WithTop.ne_top_iff_exists.mp (hfinite k hk1 hk hkfree)
    rw [← hd, WithTop.untopD_coe]
  have hnear := hscan.delta_eq.resolve_left hdelta_ne
  refine ⟨{ t with j0 := acc.j1 }, delta, fun k => (acc.minv k).untopD 0, hgrow, ?_⟩
  constructor
  · exact hraise.p
  · exact hraise.used
  · show t.u = raised delta {r | ∃ k, t.used k = true ∧ t.p k = r} s.u
    rw [hraise.u, hrows, hraise.used, hraise.p]
  · show t.v = raised (-delta) {k | t.used k = true} s.v
    rw [hraise.v, hcols, hraise.used]
  · intro k hk
    have hk1 : s1.used k = true := by rw [← hk]; exact (congrFun hraise.used k).symm
    show t.way k = s.way k
    rw [hraise.way]
    rcases hscan.source k with hold | hnew
    · exact hold.1
    · simp [hk1] at hnew
  all_goals try intro k hk1 hk hkfree
  all_goals try have hkfree1 : s1.used k = false :=
    (congrFun hraise.used k).symm.trans hkfree
  · rw [hreach k hk1 hk hkfree1]
    exact hscan.le_old k
  · rw [← WithTop.coe_le_coe, hreach k hk1 hk hkfree1]
    exact hscan.le_current k hk1 (by omega) hkfree1
  · show t.way k = s.way k ∧ _ ∨ t.way k = s.j0 ∧ _
    rw [hraise.way]
    rcases hscan.source k with ⟨hway, hminv⟩ | ⟨_, hway, hminv⟩
    · refine Or.inl ⟨hway, ?_⟩
      rw [hreach k hk1 hk hkfree1]
      exact hminv.symm
    · refine Or.inr ⟨hway, ?_⟩
      rw [← WithTop.coe_inj, hreach k hk1 hk hkfree1]
      exact hminv.symm
  · show t.minv k = _
    rw [hraise.minv_lt k (by omega) hkfree1]
    show (acc.minv k).map (· - delta) = _
    rw [← hreach k hk1 hk hkfree1]
    rfl
  · obtain ⟨hj1, hjn, hjfree, heq⟩ := hnear
    refine ⟨hj1, by show acc.j1 ≤ n; omega, ?_, ?_⟩
    · rw [← hjfree]
      exact congrFun hraise.used acc.j1
    · show (acc.minv acc.j1).untopD 0 = delta
      rw [← heq, ← hdelta, WithTop.untopD_coe]
  · rw [← WithTop.coe_le_coe, hreach k hk1 hk hkfree1, hdelta]
    exact hscan.delta_le k hk1 (by omega) hkfree1

end Grow

end Mission10.Engine.Hungarian
