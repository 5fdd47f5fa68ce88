import Mathlib.Data.List.Nodup
import Mathlib.Tactic

/-!
# Dictionaries in insertion order

A list of entries with distinct keys. Storing under a present key replaces its
value where it stands, storing under a new one appends an entry; what follows
for membership and counts is read off that split.
-/

structure Dict (κ ν : Type*) where
  entries : List (κ × ν)
  nodup : (entries.map Prod.fst).Nodup

namespace Dict

variable {κ ν : Type*}

/-- Under a name that is given once, its entry is found. -/
theorem lookup_of_mem [BEq κ] [LawfulBEq κ] {entries : List (κ × ν)}
    (hnodup : (entries.map Prod.fst).Nodup) {entry : κ × ν} (h : entry ∈ entries) :
    entries.lookup entry.1 = some entry.2 := by
  induction entries with
  | nil => cases h
  | cons first entries ih =>
    rw [List.map_cons, List.nodup_cons] at hnodup
    rcases List.mem_cons.mp h with rfl | h
    · exact List.lookup_cons_self
    · have hne : (entry.1 == first.1) = false := by
        rw [beq_eq_false_iff_ne]
        intro heq
        exact hnodup.1 (heq ▸ List.mem_map_of_mem h)
      rw [List.lookup_cons, hne]
      exact ih hnodup.2 h

def empty : Dict κ ν := ⟨[], List.nodup_nil⟩

def values (d : Dict κ ν) : List ν := d.entries.map Prod.snd

variable [DecidableEq κ]

def get (d : Dict κ ν) (k : κ) : Option ν :=
  (d.entries.find? fun entry => entry.1 = k).map Prod.snd

/-- The entries after a store. -/
def store (k : κ) (v : ν) : List (κ × ν) → List (κ × ν)
  | [] => [(k, v)]
  | entry :: rest => if entry.1 = k then (k, v) :: rest else entry :: store k v rest

theorem store_keys (k : κ) (v : ν) (entries : List (κ × ν)) :
    (store k v entries).map Prod.fst =
      if k ∈ entries.map Prod.fst then entries.map Prod.fst else entries.map Prod.fst ++ [k] := by
  induction entries with
  | nil => simp [store]
  | cons entry rest ih =>
    by_cases hk : entry.1 = k
    · simp [store, hk]
    · rw [store, if_neg hk, List.map_cons, ih]
      by_cases hmem : k ∈ rest.map Prod.fst
      · have hcons : k ∈ (entry :: rest).map Prod.fst := List.mem_cons_of_mem _ hmem
        rw [if_pos hmem, if_pos hcons]
        rfl
      · have hnot : k ∉ (entry :: rest).map Prod.fst := by
          intro h
          rcases List.mem_cons.mp h with h | h
          · exact hk h.symm
          · exact hmem h
        rw [if_neg hmem, if_neg hnot]
        rfl

/-- A new key is stored behind the others. -/
theorem store_of_notMem {k : κ} {v : ν} {entries : List (κ × ν)}
    (h : k ∉ entries.map Prod.fst) : store k v entries = entries ++ [(k, v)] := by
  induction entries with
  | nil => rfl
  | cons entry rest ih =>
    rw [List.map_cons, List.mem_cons, not_or] at h
    rw [store, if_neg (Ne.symm h.1), ih h.2, List.cons_append]

def set (d : Dict κ ν) (k : κ) (v : ν) : Dict κ ν where
  entries := store k v d.entries
  nodup := by
    rw [store_keys]
    split_ifs with hmem
    · exact d.nodup
    · have hconcat := d.nodup.concat hmem
      rwa [List.concat_eq_append] at hconcat

theorem get_eq_some_iff (d : Dict κ ν) {k : κ} {v : ν} :
    d.get k = some v ↔ (k, v) ∈ d.entries := by
  unfold get
  constructor
  · intro h
    obtain ⟨entry, hfind, rfl⟩ := Option.map_eq_some_iff.mp h
    have hkey : entry.1 = k := by simpa using List.find?_some hfind
    rw [← hkey]
    exact List.mem_of_find?_eq_some hfind
  · intro hmem
    cases hfind : d.entries.find? fun entry => entry.1 = k with
    | none =>
      have hnone := List.find?_eq_none.mp hfind (k, v) hmem
      simp at hnone
    | some entry =>
      have hkey : entry.1 = k := by simpa using List.find?_some hfind
      have heq := List.inj_on_of_nodup_map d.nodup (List.mem_of_find?_eq_some hfind) hmem hkey
      rw [heq]
      rfl

/-- A store replaces the value of its key or appends an entry. -/
theorem set_split (d : Dict κ ν) (k : κ) (v : ν) :
    (∃ front back old, d.entries = front ++ (k, old) :: back ∧ d.get k = some old ∧
      (d.set k v).entries = front ++ (k, v) :: back) ∨
    (d.get k = none ∧ (d.set k v).entries = d.entries ++ [(k, v)]) := by
  have hstore : ∀ entries : List (κ × ν),
      (∃ front back old, entries = front ++ (k, old) :: back ∧
        store k v entries = front ++ (k, v) :: back) ∨
      (k ∉ entries.map Prod.fst ∧ store k v entries = entries ++ [(k, v)]) := by
    intro entries
    induction entries with
    | nil => exact .inr ⟨by simp, rfl⟩
    | cons entry rest ih =>
      by_cases hk : entry.1 = k
      · refine .inl ⟨[], rest, entry.2, ?_, ?_⟩
        · rw [← hk, List.nil_append]
        · rw [store, if_pos hk, List.nil_append]
      · rcases ih with ⟨front, back, old, hrest, hset⟩ | ⟨hnot, hset⟩
        · refine .inl ⟨entry :: front, back, old, ?_, ?_⟩
          · rw [hrest, List.cons_append]
          · rw [store, if_neg hk, hset, List.cons_append]
        · refine .inr ⟨?_, ?_⟩
          · intro h
            rcases List.mem_cons.mp h with h | h
            · exact hk h.symm
            · exact hnot h
          · rw [store, if_neg hk, hset, List.cons_append]
  rcases hstore d.entries with ⟨front, back, old, hentries, hset⟩ | ⟨hnot, hset⟩
  · refine .inl ⟨front, back, old, hentries, ?_, hset⟩
    rw [get_eq_some_iff, hentries]
    simp
  · refine .inr ⟨?_, hset⟩
    rw [Option.eq_none_iff_forall_ne_some]
    intro old hget
    exact hnot (List.mem_map.mpr ⟨(k, old), d.get_eq_some_iff.mp hget, rfl⟩)

@[simp] theorem get_set_self (d : Dict κ ν) (k : κ) (v : ν) : (d.set k v).get k = some v := by
  rw [get_eq_some_iff]
  rcases d.set_split k v with ⟨front, back, old, -, -, hset⟩ | ⟨-, hset⟩
  · simp [hset]
  · simp [hset]

theorem get_set_of_ne (d : Dict κ ν) {k other : κ} (v : ν) (h : other ≠ k) :
    (d.set k v).get other = d.get other := by
  have hmem (w : ν) : (other, w) ∈ (d.set k v).entries ↔ (other, w) ∈ d.entries := by
    rcases d.set_split k v with ⟨front, back, old, hentries, -, hset⟩ | ⟨-, hset⟩
    · rw [hset, hentries]
      simp [h]
    · rw [hset]
      simp [h]
  apply Option.ext
  intro w
  rw [get_eq_some_iff, get_eq_some_iff, hmem]

/-- A property of all values after a store. -/
theorem forall_values_set {p : ν → Prop} (d : Dict κ ν) (k : κ) (v : ν)
    (h : ∀ w ∈ d.values, p w) : (∀ w ∈ (d.set k v).values, p w) ↔ p v := by
  unfold values at h ⊢
  rcases d.set_split k v with ⟨front, back, old, hentries, -, hset⟩ | ⟨-, hset⟩
  · rw [hentries] at h
    rw [hset]
    simp only [List.map_append, List.map_cons, List.mem_append, List.mem_cons] at h ⊢
    constructor
    · intro hall
      exact hall v (.inr (.inl rfl))
    · rintro hv w (hw | rfl | hw)
      · exact h w (.inl hw)
      · exact hv
      · exact h w (.inr (.inr hw))
  · rw [hset]
    simp only [List.map_append, List.map_cons, List.map_nil, List.mem_append,
      List.mem_singleton] at h ⊢
    constructor
    · intro hall
      exact hall v (.inr rfl)
    · rintro hv w (hw | rfl)
      · exact h w hw
      · exact hv

/-- A store changes a count by the new and the replaced value. -/
theorem countP_set (p : ν → Bool) (d : Dict κ ν) (k : κ) (v : ν) :
    (d.set k v).values.countP p + (d.get k).toList.countP p =
      d.values.countP p + [v].countP p := by
  unfold values
  rcases d.set_split k v with ⟨front, back, old, hentries, hget, hset⟩ | ⟨hget, hset⟩
  · rw [hentries, hget, hset]
    simp only [List.map_append, List.map_cons, List.countP_append, List.countP_cons,
      Option.toList_some, List.countP_nil]
    omega
  · rw [hget, hset]
    simp

theorem mem_values_of_get {d : Dict κ ν} {k : κ} {v : ν} (h : d.get k = some v) :
    v ∈ d.values :=
  List.mem_map.mpr ⟨(k, v), d.get_eq_some_iff.mp h, rfl⟩

end Dict
