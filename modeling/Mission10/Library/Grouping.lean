import Mathlib

/-!
# Groups of a growing list

A list falls apart into the maximal groups whose neighbours are related. A value at the
end joins the last group or begins a new one, so the groups can be kept while the list
grows.
-/
namespace Grouping

variable {α : Type*} {r : α → α → Bool} {xs : List α} {x : α}

/-- The last group of a list that is not empty ends as the list does. -/
theorem exists_last_group (r : α → α → Bool) (h : xs ≠ []) : ∃ groups last,
    xs.splitBy r = groups ++ [last] ∧ last.getLast? = xs.getLast? := by
  have hne : xs.splitBy r ≠ [] := List.splitBy_ne_nil.mpr h
  refine ⟨(xs.splitBy r).dropLast, (xs.splitBy r).getLast hne,
    (List.dropLast_append_getLast hne).symm, ?_⟩
  rw [List.getLast?_eq_some_getLast h, ← List.getLast_getLast_splitBy r h]
  exact List.getLast?_eq_some_getLast _

/-- An unrelated value begins a group. -/
theorem splitBy_begin (h : ∀ last, xs.getLast? = some last → r last x = false) :
    (xs ++ [x]).splitBy r = xs.splitBy r ++ [[x]] := by
  rw [List.splitBy_append_cons [] h]
  rfl

/-- A related value joins the last group. -/
theorem splitBy_join {groups : List (List α)} {last : List α}
    (hgroups : xs.splitBy r = groups ++ [last])
    (h : ∀ y, last.getLast? = some y → r y x = true) :
    (xs ++ [x]).splitBy r = groups ++ [last ++ [x]] := by
  obtain ⟨hflat, hnil, hchain, hbreaks⟩ := List.splitBy_eq_iff.mp hgroups
  have hlast : last ≠ [] := by
    rintro rfl
    simp at hnil
  rw [List.splitBy_eq_iff]
  refine ⟨?_, ?_, ?_, ?_⟩
  · rw [hflat]
    simp
  · intro hmem
    obtain hmem | hmem := List.mem_append.mp hmem
    · exact hnil (List.mem_append_left _ hmem)
    · simp at hmem
  · intro group hgroup
    obtain hgroup | hgroup := List.mem_append.mp hgroup
    · exact hchain group (List.mem_append_left _ hgroup)
    · rw [List.mem_singleton.mp hgroup]
      refine List.IsChain.append (hchain last (by simp)) (List.isChain_singleton x) ?_
      intro y hy z hz
      rw [List.head?_cons, Option.mem_some_iff] at hz
      rw [← hz]
      exact h y hy
  · rw [List.isChain_append] at hbreaks ⊢
    refine ⟨hbreaks.1, List.isChain_singleton _, ?_⟩
    intro before hbefore after hafter
    rw [List.head?_cons, Option.mem_some_iff] at hafter
    obtain ⟨hb, hl, hbreak⟩ := hbreaks.2.2 before hbefore last rfl
    subst hafter
    refine ⟨hb, by simp, ?_⟩
    rw [List.head_append_of_ne_nil hlast]
    exact hbreak

/-! ### Counts -/

/-- Values at least a distance apart in a window are few. -/
theorem length_le_of_apart {distance : ℕ} (hdistance : 0 < distance) (low high : ℕ) {times : List ℕ}
    (hapart : times.Pairwise fun earlier later => earlier + distance ≤ later)
    (hwindow : ∀ time ∈ times, low ≤ time ∧ time ≤ high) :
    times.length ≤ (high - low) / distance + 1 := by
  induction times generalizing low with
  | nil => exact Nat.zero_le _
  | cons time times ih =>
    obtain ⟨hfirst, hrest⟩ := List.pairwise_cons.mp hapart
    obtain ⟨hlow, hhigh⟩ := hwindow time List.mem_cons_self
    cases htimes : times with
    | nil => simp
    | cons next others =>
      have hlater : ∀ later ∈ times, time + distance ≤ later ∧ later ≤ high := fun later hmem =>
        ⟨hfirst later hmem, (hwindow later (List.mem_cons_of_mem _ hmem)).2⟩
      have hcount := ih (time + distance) hrest hlater
      have hnext := hlater next (by simp [htimes])
      have hshift : (high - (time + distance)) / distance + 1 = (high - time) / distance := by
        rw [← Nat.add_div_right _ hdistance]
        congr 1
        omega
      have hwide : (high - time) / distance ≤ (high - low) / distance :=
        Nat.div_le_div_right (by omega)
      rw [← htimes, List.length_cons]
      omega

/-- A list is counted key by key. -/
theorem countP_le_sum {κ : Type*} [DecidableEq κ] {key : α → κ} {p : α → Bool} {keys : List κ}
    (hkeys : ∀ x ∈ xs, key x ∈ keys) :
    xs.countP p ≤ (keys.map fun k => xs.countP fun x => decide (key x = k) && p x).sum := by
  induction xs with
  | nil => simp
  | cons x xs ih =>
    obtain ⟨hx, hxs⟩ := List.forall_mem_cons.mp hkeys
    have hcons : ∀ k, (x :: xs).countP (fun y => decide (key y = k) && p y) =
        xs.countP (fun y => decide (key y = k) && p y) +
          if decide (key x = k) && p x then 1 else 0 := fun k => List.countP_cons
    simp only [hcons, List.sum_map_add]
    rw [List.countP_cons]
    refine Nat.add_le_add (ih hxs) ?_
    cases hp : p x with
    | false => simp
    | true =>
      have hmem : 1 ∈ keys.map fun k => if (decide (key x = k) && true) = true then 1 else 0 :=
        List.mem_map.mpr ⟨key x, hx, by simp⟩
      exact List.le_sum_of_mem hmem

end Grouping
