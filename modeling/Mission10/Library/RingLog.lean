import Mathlib.Algebra.GroupWithZero.Nat
import Mathlib.Algebra.NeZero
import Mathlib.Data.List.Basic

/-!
# Ring buffers as the end of a log

A ring of `n` slots that is written round and round holds the last `n` entries of
the log of all writes. The order of the slots is not that of the log, so what is
stored is stated up to permutation.
-/
namespace RingLog

variable {α : Type*} {n : ℕ}

/-- What the slots hold, in the order of the slots. -/
def stored (slots : Vector (Option α) n) : List α := slots.toList.filterMap id

/-- The last entries of a log, as many as there are slots. -/
def recent (n : ℕ) (log : List α) : List α := log.drop (log.length - n)

theorem recent_sublist (n : ℕ) (log : List α) : (recent n log).Sublist log :=
  List.drop_sublist _ _

/-- A log that ends with an entry still holds it. -/
theorem mem_recent_concat [NeZero n] (log : List α) (x : α) : x ∈ recent n (log ++ [x]) := by
  have hn := Nat.pos_of_ne_zero (NeZero.ne n)
  have hlen : (log ++ [x]).length - n ≤ log.length := by
    rw [List.length_append, List.length_singleton]
    omega
  rw [recent, List.drop_append_of_le_length hlen]
  exact List.mem_append_right _ List.mem_cons_self

/-- The slots after the log was written to them, one entry after the other. -/
structure Holds (slots : Vector (Option α) n) (log : List α) : Prop where
  filled : ∀ j (hj : j < log.length) (hi : j % n < n), log.length ≤ j + n →
    slots[j % n] = some log[j]
  free : ∀ i (hi : i < n), log.length ≤ i → slots[i] = none
  stored_perm : (stored slots).Perm (recent n log)

theorem holds_empty : Holds (Vector.replicate n (none : Option α)) [] where
  filled := fun j hj => absurd hj (Nat.not_lt_zero j)
  free := fun i hi _ => by simp
  stored_perm := by simp [stored, recent]

/-- A write replaces what one slot held. -/
theorem stored_set (slots : Vector (Option α) n) {i : ℕ} (hi : i < n) (x : α) :
    ∃ before after, stored slots = before ++ slots[i].toList ++ after ∧
      stored (slots.set i (some x)) = before ++ x :: after := by
  have hlen : i < slots.toList.length := by simpa using hi
  refine ⟨(slots.toList.take i).filterMap id, (slots.toList.drop (i + 1)).filterMap id, ?_, ?_⟩
  · have hsplit : slots.toList = slots.toList.take i ++ slots[i] :: slots.toList.drop (i + 1) := by
      have hget : slots.toList[i] = slots[i] := by simp
      rw [← hget, List.getElem_cons_drop, List.take_append_drop]
    unfold stored
    conv_lhs => rw [hsplit]
    rw [List.filterMap_append, List.filterMap_cons]
    cases hslot : slots[i] with
    | none => simp
    | some y => simp
  · unfold stored
    rw [Vector.toList_set, List.set_eq_take_append_cons_drop, if_pos hlen, List.filterMap_append,
      List.filterMap_cons]
    rfl

/-- Writing the next slot of the ring writes the next entry of the log. -/
theorem Holds.write {slots : Vector (Option α) n} {log : List α} (h : Holds slots log) (x : α)
    (hi : log.length % n < n) :
    Holds (slots.set (log.length % n) (some x)) (log ++ [x]) where
  filled := by
    intro j hj hjn hrecent
    rw [List.length_append, List.length_singleton] at hj hrecent
    rw [Vector.getElem_set]
    by_cases hlast : j = log.length
    · subst hlast
      simp
    · have hlt : j < log.length := by omega
      have hother : log.length % n ≠ j % n := by
        intro heq
        have hdvd : n ∣ log.length - j := Nat.dvd_of_mod_eq_zero (Nat.sub_mod_eq_zero_of_mod_eq heq)
        have hle := Nat.le_of_dvd (by omega) hdvd
        omega
      rw [if_neg hother, List.getElem_append_left hlt]
      exact h.filled j hlt hjn (by omega)
  free := by
    intro i hin hlen
    rw [List.length_append, List.length_singleton] at hlen
    have hother : log.length % n ≠ i := by
      rw [Nat.mod_eq_of_lt (by omega)]
      omega
    rw [Vector.getElem_set, if_neg hother]
    exact h.free i hin (by omega)
  stored_perm := by
    obtain ⟨before, after, hold, hnew⟩ := stored_set slots hi x
    have hperm := h.stored_perm
    rw [hold] at hperm
    rw [hnew]
    have hmiddle : (before ++ x :: after).Perm (before ++ after ++ [x]) :=
      List.perm_middle.trans (List.perm_append_singleton x _).symm
    refine hmiddle.trans ?_
    by_cases hfull : n ≤ log.length
    · have hstart : log.length - n < log.length := by omega
      have holdest : slots[log.length % n] = some log[log.length - n] := by
        have hmod : (log.length - n) % n = log.length % n := (Nat.mod_eq_sub_mod hfull).symm
        have hslot := h.filled (log.length - n) hstart (by omega) (by omega)
        simpa only [hmod] using hslot
      have hrecent : recent n log = log[log.length - n] :: log.drop (log.length - n + 1) := by
        rw [recent, List.drop_eq_getElem_cons hstart]
      rw [holdest, hrecent, Option.toList_some, List.append_assoc, List.singleton_append] at hperm
      have hrest := (List.perm_middle.symm.trans hperm).cons_inv
      have hlen : (log ++ [x]).length - n = log.length - n + 1 := by
        rw [List.length_append, List.length_singleton]
        omega
      rw [recent, hlen, List.drop_append_of_le_length (by omega)]
      exact hrest.append_right [x]
    · have hempty : slots[log.length % n] = none := by
        have hmod : log.length % n = log.length := Nat.mod_eq_of_lt (by omega)
        have hslot := h.free log.length (by omega) (Nat.le_refl _)
        simpa only [hmod] using hslot
      have hall : log.length - n = 0 := by omega
      have hall' : (log ++ [x]).length - n = 0 := by
        rw [List.length_append, List.length_singleton]
        omega
      rw [hempty, recent, hall, Option.toList_none, List.append_nil, List.drop_zero] at hperm
      rw [recent, hall', List.drop_zero]
      exact hperm.append_right [x]

end RingLog
