import Mathlib.Algebra.Order.Field.Basic
import Mathlib.Data.List.Sort
import Mathlib.Tactic.Linarith
import Mathlib.Tactic.Ring

/-!
# Stable sorting and filtering

An insertion sort keeps the order of what it need not move. What is left of a
sorted list once some values are dropped is therefore the sorted list of what is
left of them. Where no two items have one key, the order is that of the keys alone.
-/
namespace StableSort

variable {α : Type*} {r : α → α → Prop} [DecidableRel r]

theorem orderedInsert_of_forall_rel {a : α} {items : List α} (h : ∀ b ∈ items, r a b) :
    items.orderedInsert r a = a :: items := by
  cases items with
  | nil => rfl
  | cons b items => exact List.orderedInsert_cons_of_le _ items (h b List.mem_cons_self)

theorem filter_orderedInsert [IsTrans α r] (p : α → Bool) (a : α) {items : List α}
    (hsorted : items.Pairwise r) :
    (items.orderedInsert r a).filter p =
      if p a then (items.filter p).orderedInsert r a else items.filter p := by
  induction items with
  | nil => cases ha : p a <;> simp [ha]
  | cons b items ih =>
    rw [List.pairwise_cons] at hsorted
    by_cases hab : r a b
    · rw [List.orderedInsert_cons_of_le _ items hab, List.filter_cons]
      have hall : ∀ c ∈ (b :: items).filter p, r a c := by
        intro c hc
        rcases List.mem_cons.mp (List.mem_of_mem_filter hc) with rfl | hc
        · exact hab
        · exact IsTrans.trans _ _ _ hab (hsorted.1 c hc)
      rw [orderedInsert_of_forall_rel hall]
    · rw [List.orderedInsert_of_not_le _ items hab, List.filter_cons, List.filter_cons, ih hsorted.2]
      split_ifs
      · rw [List.orderedInsert_of_not_le _ _ hab]
      all_goals rfl

theorem filter_insertionSort [Std.Total r] [IsTrans α r] (p : α → Bool) (items : List α) :
    (items.insertionSort r).filter p = (items.filter p).insertionSort r := by
  induction items with
  | nil => rfl
  | cons a items ih =>
    rw [List.insertionSort_cons, filter_orderedInsert p a (List.pairwise_insertionSort r items), ih,
      List.filter_cons]
    split_ifs
    · rw [List.insertionSort_cons]
    · rfl

/-- Items with distinct keys come out in one order, however they are given. -/
theorem insertionSort_eq_of_perm {κ : Type*} [LinearOrder κ] {key : α → κ}
    {items other : List α} (h : items.Perm other) (hnodup : (items.map key).Nodup) :
    items.insertionSort (key · ≤ key ·) = other.insertionSort (key · ≤ key ·) := by
  have hsorted := List.perm_insertionSort (key · ≤ key ·)
  have htotal : Std.Total fun first second : α => key first ≤ key second :=
    ⟨fun first second => le_total (key first) (key second)⟩
  have htrans : IsTrans α fun first second : α => key first ≤ key second :=
    ⟨fun _ _ _ => le_trans⟩
  refine @List.Perm.eq_of_pairwise _ (key · ≤ key ·) _ _ ?_ ?_ ?_ ?_
  · intro first second hfirst hsecond hle hge
    have hmem := (hsorted items).mem_iff.mp hfirst
    have hother := h.mem_iff.mpr ((hsorted other).mem_iff.mp hsecond)
    exact List.inj_on_of_nodup_map hnodup hmem hother (le_antisymm hle hge)
  · exact List.pairwise_insertionSort _ items
  · exact List.pairwise_insertionSort _ other
  · exact (hsorted items).trans (h.trans (hsorted other).symm)

end StableSort

/-!
## Counts in a sorted list

How many entries of a sorted list lie at or beyond one of its places, and two properties
that hold of too many entries to miss one another.
-/
namespace SortedCounts

variable {α : Type*}

/-- Two properties that hold of more than all entries together meet at one. -/
theorem exists_both {l : List α} {p q : α → Bool} (h : l.length < l.countP p + l.countP q) :
    ∃ a ∈ l, p a = true ∧ q a = true := by
  by_contra hnone
  push Not at hnone
  have hmono : l.countP q ≤ l.countP fun a => ¬p a = true := by
    apply List.countP_mono_left
    intro a ha hq
    rw [decide_eq_true_eq]
    exact fun hp => hnone a ha hp hq
  have hlength := List.length_eq_countP_add_countP p (l := l)
  omega

variable [LinearOrder α] {l : List α}

theorem le_countP_ge (h : l.Pairwise (· ≤ ·)) {i : ℕ} (hi : i < l.length) :
    l.length - i ≤ l.countP fun v => decide (l[i] ≤ v) := by
  have hdrop : ∀ v ∈ l.drop i, decide (l[i] ≤ v) = true := by
    intro v hv
    rw [List.drop_eq_getElem_cons hi, List.mem_cons] at hv
    rw [decide_eq_true_eq]
    rcases hv with rfl | hv
    · exact le_rfl
    · rw [← List.take_append_drop (i + 1) l, List.pairwise_append] at h
      exact h.2.2 l[i] (List.mem_take_iff_getElem.mpr ⟨i, by omega, rfl⟩) v hv
  calc l.length - i = (l.drop i).length := List.length_drop.symm
    _ = (l.drop i).countP fun v => decide (l[i] ≤ v) := (List.countP_eq_length.mpr hdrop).symm
    _ ≤ l.countP fun v => decide (l[i] ≤ v) := (List.drop_sublist i l).countP_le

theorem le_countP_le (h : l.Pairwise (· ≤ ·)) {i : ℕ} (hi : i < l.length) :
    i + 1 ≤ l.countP fun v => decide (v ≤ l[i]) := by
  have htake : ∀ v ∈ l.take (i + 1), decide (v ≤ l[i]) = true := by
    intro v hv
    obtain ⟨j, hj, rfl⟩ := List.mem_take_iff_getElem.mp hv
    rw [decide_eq_true_eq]
    have hji : j ≤ i := by omega
    rcases hji.eq_or_lt with rfl | hlt
    · exact le_rfl
    · exact List.pairwise_iff_getElem.mp h j i (by omega) hi hlt
  have hlength : (l.take (i + 1)).length = i + 1 := by
    rw [List.length_take]
    omega
  calc i + 1 = (l.take (i + 1)).countP fun v => decide (v ≤ l[i]) := by
        rw [List.countP_eq_length.mpr htake, hlength]
    _ ≤ l.countP fun v => decide (v ≤ l[i]) := (List.take_sublist (i + 1) l).countP_le

end SortedCounts
