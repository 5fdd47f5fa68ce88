import Mathlib.Data.List.Chain
import Mathlib.Data.List.Rotate

/-!
# Changes around a cyclic list

The pairs of neighbours of a closed list, and how often a property begins to
hold from one neighbour to the next. Where the entries never alternate twice,
a property of some of them begins to hold at one place only.
-/
namespace CyclicList

variable {α : Type*}

/-- The pairs of neighbours, with the pair that closes the list. -/
def neighbours (l : List α) : List (α × α) := l.zip (l.rotate 1)

/-- The pairs from an entry on, up to the one that closes the list at `z`. -/
def pairsFrom (z : α) : α → List α → List (α × α)
  | a, [] => [(a, z)]
  | a, b :: l => (a, b) :: pairsFrom z b l

theorem zip_concat (z a : α) (l : List α) : (a :: l).zip (l ++ [z]) = pairsFrom z a l := by
  induction l generalizing a with
  | nil => rfl
  | cons b l ih =>
    rw [pairsFrom, ← ih b]
    rfl

theorem neighbours_cons (z : α) (l : List α) : neighbours (z :: l) = pairsFrom z z l := by
  rw [neighbours, List.rotate_cons_succ, List.rotate_zero, zip_concat]

theorem mem_of_mem_neighbours {l : List α} {a b : α} (h : (a, b) ∈ neighbours l) :
    a ∈ l ∧ b ∈ l := by
  obtain ⟨ha, hb⟩ := List.of_mem_zip h
  exact ⟨ha, List.mem_rotate.mp hb⟩

theorem exists_neighbour {l : List α} {a : α} (h : a ∈ l) : ∃ b, (a, b) ∈ neighbours l := by
  obtain ⟨i, hi, rfl⟩ := List.mem_iff_getElem.mp h
  have hrotate : i < (l.rotate 1).length := by rwa [List.length_rotate]
  have hzip : i < (neighbours l).length := by
    rw [neighbours, List.length_zip, List.length_rotate, min_self]
    exact hi
  refine ⟨(l.rotate 1)[i], List.mem_iff_getElem.mpr ⟨i, hzip, ?_⟩⟩
  simp [neighbours]

/-- Neighbours follow one another, or the pair closes the list. -/
theorem mem_pairsFrom {z a b c : α} {l : List α} (h : (a, b) ∈ pairsFrom z c l) :
    (∃ s t, c :: l = s ++ a :: b :: t) ∨ b = z ∧ ∃ s, c :: l = s ++ [a] := by
  induction l generalizing c with
  | nil =>
    rw [pairsFrom, List.mem_singleton, Prod.mk.injEq] at h
    exact .inr ⟨h.2, [], by rw [h.1, List.nil_append]⟩
  | cons d l ih =>
    rw [pairsFrom, List.mem_cons, Prod.mk.injEq] at h
    rcases h with ⟨rfl, rfl⟩ | h
    · exact .inl ⟨[], l, rfl⟩
    · rcases ih h with ⟨s, t, hst⟩ | ⟨hz, s, hs⟩
      · exact .inl ⟨c :: s, t, by rw [hst, List.cons_append]⟩
      · exact .inr ⟨hz, c :: s, by rw [hs, List.cons_append]⟩

/-- Where an entry stands to a pair of neighbours, around the list. -/
theorem order_of_neighbours {l : List α} {a b v : α} (h : (a, b) ∈ neighbours l) (hv : v ∈ l) :
    v = a ∨ v = b ∨ [v, a, b].Sublist l ∨ [a, b, v].Sublist l ∨ [b, v, a].Sublist l := by
  cases l with
  | nil => exact absurd hv List.not_mem_nil
  | cons z l =>
    rw [neighbours_cons] at h
    rcases mem_pairsFrom h with ⟨s, t, hst⟩ | ⟨rfl, s, hs⟩
    · rw [hst] at hv ⊢
      rcases List.mem_append.mp hv with hv | hv
      · have hback : [a, b].Sublist (a :: b :: t) := ((List.nil_sublist t).cons_cons b).cons_cons a
        have hsub := (List.singleton_sublist.mpr hv).append hback
        exact .inr (.inr (.inl hsub))
      · rcases List.mem_cons.mp hv with hv | hv
        · exact .inl hv
        · rcases List.mem_cons.mp hv with hv | hv
          · exact .inr (.inl hv)
          · have hback : [a, b, v].Sublist (a :: b :: t) :=
              ((List.singleton_sublist.mpr hv).cons_cons b).cons_cons a
            have hsub := hback.trans (List.sublist_append_right s (a :: b :: t))
            exact .inr (.inr (.inr (.inl hsub)))
    · cases s with
      | nil =>
        rw [hs, List.nil_append, List.mem_singleton] at hv
        exact .inl hv
      | cons c s =>
        obtain ⟨rfl, rfl⟩ := List.cons.inj hs
        rcases List.mem_cons.mp hv with hv | hv
        · exact .inr (.inl hv)
        · rcases List.mem_append.mp hv with hv | hv
          · have hsub := (List.singleton_sublist.mpr hv).append (List.Sublist.refl [a])
            exact .inr (.inr (.inr (.inr (hsub.cons_cons b))))
          · exact .inl (List.mem_singleton.mp hv)

theorem neighbours_rotate (l : List α) (n : ℕ) :
    neighbours (l.rotate n) = (neighbours l).rotate n := by
  unfold neighbours
  rw [List.rotate_rotate, Nat.add_comm, ← List.rotate_rotate]
  exact (List.zipWith_rotate_distrib Prod.mk l (l.rotate 1) n (List.length_rotate l 1).symm).symm

theorem neighbours_map {β : Type*} (f : α → β) (l : List α) :
    neighbours (l.map f) = (neighbours l).map (Prod.map f f) := by
  unfold neighbours
  rw [← List.map_rotate, List.zip_map]

theorem forall_pairsFrom {R : α → α → Prop} {z a : α} {l : List α} :
    (∀ e ∈ pairsFrom z a l, R e.1 e.2) ↔ List.IsChain R (a :: (l ++ [z])) := by
  induction l generalizing a with
  | nil => simp [pairsFrom]
  | cons b l ih => rw [pairsFrom, List.forall_mem_cons, ih, List.cons_append, List.isChain_cons_cons]

/-- A relation of all neighbours is a chain that leads back to its first entry. -/
theorem forall_neighbours {R : α → α → Prop} {z : α} {l : List α} :
    (∀ e ∈ neighbours (z :: l), R e.1 e.2) ↔ List.IsChain R (z :: (l ++ [z])) := by
  rw [neighbours_cons, forall_pairsFrom]

/-- Any entry comes first after some rotation. -/
theorem exists_rotate {l : List α} {a : α} (h : a ∈ l) : ∃ n rest, l.rotate n = a :: rest := by
  obtain ⟨front, back, rfl⟩ := List.append_of_mem h
  exact ⟨front.length, back ++ front, by rw [List.rotate_append_length_eq, List.cons_append]⟩

/-- An entry of a list is in a given sublist, or can be put into it. -/
theorem mem_or_insert {l s : List α} (h : s.Sublist l) {q : α} (hq : q ∈ l) :
    q ∈ s ∨ ∃ front back, s = front ++ back ∧ (front ++ q :: back).Sublist l := by
  induction h with
  | slnil => exact absurd hq List.not_mem_nil
  | @cons s l a h ih =>
    rcases List.mem_cons.mp hq with rfl | hq
    · exact .inr ⟨[], s, rfl, h.cons_cons q⟩
    · rcases ih hq with hin | ⟨front, back, hs, hsub⟩
      · exact .inl hin
      · exact .inr ⟨front, back, hs, hsub.cons a⟩
  | @cons_cons s l a h ih =>
    rcases List.mem_cons.mp hq with rfl | hq
    · exact .inl List.mem_cons_self
    · rcases ih hq with hin | ⟨front, back, rfl, hsub⟩
      · exact .inl (List.mem_cons_of_mem a hin)
      · exact .inr ⟨a :: front, back, rfl, hsub.cons_cons a⟩

/-- Three entries in order are, up to a rotation of them, in order in every rotation. -/
theorem sublist_three_rotate {l : List α} {n : ℕ} {a b c : α}
    (h : [a, b, c].Sublist (l.rotate n)) :
    [a, b, c].Sublist l ∨ [b, c, a].Sublist l ∨ [c, a, b].Sublist l := by
  rw [List.rotate_eq_drop_append_take_mod] at h
  obtain ⟨s, t, hst, hs, ht⟩ := List.sublist_append_iff.mp h
  have hback : (t ++ s).Sublist l := by
    have happend := ht.append hs
    rwa [List.take_append_drop] at happend
  rcases s with _ | ⟨a', _ | ⟨b', _ | ⟨c', s⟩⟩⟩
  · rw [List.nil_append] at hst
    rw [List.append_nil, ← hst] at hback
    exact .inl hback
  · simp only [List.cons_append, List.nil_append, List.cons.injEq] at hst
    obtain ⟨rfl, rfl⟩ := hst
    exact .inr (.inl hback)
  · simp only [List.cons_append, List.nil_append, List.cons.injEq] at hst
    obtain ⟨rfl, rfl, rfl⟩ := hst
    exact .inr (.inr hback)
  · simp only [List.cons_append, List.cons.injEq, List.nil_eq, List.append_eq_nil_iff] at hst
    obtain ⟨rfl, rfl, rfl, rfl, rfl⟩ := hst
    exact .inl hback

section Rises
variable (p : α → Bool)

/-- The property begins to hold from the first entry to the second. -/
def rises (pair : α × α) : Bool := !p pair.1 && p pair.2

/-- Four entries in order on which the property changes three times, from
failing to holding. -/
def Alternates (l : List α) : Prop :=
  ∃ a b c d, [a, b, c, d].Sublist l ∧ p a = false ∧ p b = true ∧ p c = false ∧ p d = true

variable {p} {z a : α} {l : List α}

theorem rises_true {b : α} (h : p a = true) : rises p (a, b) = false := by
  simp [rises, h]

theorem rises_false {b : α} (h : p a = false) : rises p (a, b) = p b := by
  simp [rises, h]

/-- The changes of a property are those to it and those from it. -/
theorem countP_changes (p : α → Bool) (edges : List (α × α)) :
    edges.countP (fun e => p e.1 != p e.2) =
      edges.countP (rises p) + edges.countP (rises fun v => !p v) := by
  induction edges with
  | nil => rfl
  | cons e edges ih =>
    have hone (a b : Bool) : (if (a != b) = true then 1 else 0) =
        (if (!a && b) = true then 1 else 0) + if (!!a && !b) = true then 1 else 0 := by
      revert a b
      decide
    have hedge : (if (p e.1 != p e.2) = true then 1 else 0) =
        (if rises p e = true then 1 else 0) + if rises (fun v => !p v) e = true then 1 else 0 :=
      hone (p e.1) (p e.2)
    rw [List.countP_cons, List.countP_cons, List.countP_cons, ih]
    omega

/-! ### Lists closed where the property fails -/

theorem count_rises_none (hz : p z = false) (ha : p a = false) (hl : ∀ b ∈ l, p b = false) :
    (pairsFrom z a l).countP (rises p) = 0 := by
  induction l generalizing a with
  | nil => simp [pairsFrom, rises_false ha, hz]
  | cons b l ih =>
    have hb := hl b List.mem_cons_self
    have hrest := ih hb fun c hc => hl c (List.mem_cons_of_mem b hc)
    simp [pairsFrom, rises_false ha, hb, hrest]

theorem count_rises_last (hz : p z = false) (ha : p a = true)
    (hl : ∀ b c, [b, c].Sublist l → p b = false → p c = false) :
    (pairsFrom z a l).countP (rises p) = 0 := by
  induction l generalizing a with
  | nil => simp [pairsFrom, rises_true ha]
  | cons b l ih =>
    rw [pairsFrom, List.countP_cons_of_neg (by simp [rises_true ha])]
    cases hb : p b with
    | true => exact ih hb fun c d hsub => hl c d (hsub.cons b)
    | false =>
      apply count_rises_none hz hb
      intro c hc
      exact hl b c ((List.singleton_sublist.mpr hc).cons_cons b) hb

theorem count_rises_once (hz : p z = false) (ha : p a = false)
    (hl : ∀ b c d, [b, c, d].Sublist l → p b = true → p c = false → p d = false)
    (hex : ∃ b ∈ l, p b = true) : (pairsFrom z a l).countP (rises p) = 1 := by
  induction l generalizing a with
  | nil => simp at hex
  | cons b l ih =>
    rw [pairsFrom]
    cases hb : p b with
    | true =>
      rw [List.countP_cons_of_pos (by rw [rises_false ha, hb]), count_rises_last hz hb]
      intro c d hsub
      exact hl b c d (hsub.cons_cons b) hb
    | false =>
      rw [List.countP_cons_of_neg (by simp [rises_false ha, hb])]
      apply ih hb fun c d e hsub => hl c d e (hsub.cons b)
      obtain ⟨c, hc, hpc⟩ := hex
      rcases List.mem_cons.mp hc with rfl | hc
      · exact absurd (hpc.symm.trans hb) Bool.noConfusion
      · exact ⟨c, hc, hpc⟩

/-! ### Lists closed where the property holds -/

theorem count_rises_all (ha : p a = true) (hl : ∀ b ∈ l, p b = true) :
    (pairsFrom z a l).countP (rises p) = 0 := by
  induction l generalizing a with
  | nil => simp [pairsFrom, rises_true ha]
  | cons b l ih =>
    have hrest := ih (hl b List.mem_cons_self) fun c hc => hl c (List.mem_cons_of_mem b hc)
    simp [pairsFrom, rises_true ha, hrest]

theorem count_rises_closing (hz : p z = true) (ha : p a = false)
    (hl : ∀ b c, [b, c].Sublist l → p b = true → p c = true) :
    (pairsFrom z a l).countP (rises p) = 1 := by
  induction l generalizing a with
  | nil => simp [pairsFrom, rises_false ha, hz]
  | cons b l ih =>
    rw [pairsFrom]
    cases hb : p b with
    | false =>
      rw [List.countP_cons_of_neg (by simp [rises_false ha, hb])]
      exact ih hb fun c d hsub => hl c d (hsub.cons b)
    | true =>
      rw [List.countP_cons_of_pos (by rw [rises_false ha, hb]), count_rises_all hb]
      intro c hc
      exact hl b c ((List.singleton_sublist.mpr hc).cons_cons b) hb

theorem count_rises_within (hz : p z = true) (ha : p a = true)
    (hl : ∀ b c d, [b, c, d].Sublist l → p b = false → p c = true → p d = true)
    (hex : ∃ b ∈ l, p b = false) : (pairsFrom z a l).countP (rises p) = 1 := by
  induction l generalizing a with
  | nil => simp at hex
  | cons b l ih =>
    rw [pairsFrom, List.countP_cons_of_neg (by simp [rises_true ha])]
    cases hb : p b with
    | false =>
      apply count_rises_closing hz hb
      intro c d hsub
      exact hl b c d (hsub.cons_cons b) hb
    | true =>
      apply ih hb fun c d e hsub => hl c d e (hsub.cons b)
      obtain ⟨c, hc, hpc⟩ := hex
      rcases List.mem_cons.mp hc with rfl | hc
      · exact absurd (hb.symm.trans hpc) Bool.noConfusion
      · exact ⟨c, hc, hpc⟩

/-- Around a list whose entries never alternate twice, a property of some but not
all of them begins to hold at one place. -/
theorem count_rises (hup : ¬ Alternates p l) (hdown : ¬ Alternates (fun a => !p a) l)
    (hsome : ∃ a ∈ l, p a = true) (hnot : ∃ a ∈ l, p a = false) :
    (neighbours l).countP (rises p) = 1 := by
  cases l with
  | nil => simp at hsome
  | cons z l =>
    rw [neighbours_cons]
    cases hz : p z with
    | false =>
      apply count_rises_once hz hz
      · intro b c d hsub hb hc
        by_contra hd
        rw [Bool.not_eq_false] at hd
        exact hup ⟨z, b, c, d, hsub.cons_cons z, hz, hb, hc, hd⟩
      · obtain ⟨a, ha, hpa⟩ := hsome
        rcases List.mem_cons.mp ha with rfl | ha
        · exact absurd (hpa.symm.trans hz) Bool.noConfusion
        · exact ⟨a, ha, hpa⟩
    | true =>
      apply count_rises_within hz hz
      · intro b c d hsub hb hc
        by_contra hd
        rw [Bool.not_eq_true] at hd
        exact hdown ⟨z, b, c, d, hsub.cons_cons z, by simp [hz], by simp [hb], by simp [hc],
          by simp [hd]⟩
      · obtain ⟨a, ha, hpa⟩ := hnot
        rcases List.mem_cons.mp ha with rfl | ha
        · exact absurd (hz.symm.trans hpa) Bool.noConfusion
        · exact ⟨a, ha, hpa⟩

end Rises

end CyclicList
