import Mathlib.Data.List.Induction

/-!
# Alarms that wait

An alarm watches readings of a condition. It sounds at a reading when the condition has
held at every reading since one that lies the hold time back; the first reading at which
the condition fails starts it anew.
-/
namespace HeldAlarm

variable {T : Type*}

/-- Since when the condition has held after the readings. -/
def since (readings : List (T × Bool)) : Option T :=
  readings.foldl (fun since reading => if reading.2 then some (since.getD reading.1) else none) none

variable {readings : List (T × Bool)} {reading : T × Bool}

theorem since_concat : since (readings ++ [reading]) =
    if reading.2 then some ((since readings).getD reading.1) else none := by
  simp only [since, List.foldl_append, List.foldl_cons, List.foldl_nil]

theorem since_eq_none : since readings = none ↔
    ∀ reading ∈ readings.getLast?, reading.2 = false := by
  induction readings using List.reverseRecOn with
  | nil => simp [since]
  | append_singleton front last ih =>
    rw [since_concat]
    cases hon : last.2 <;> simp [hon]

theorem since_eq_some {start : T} : since readings = some start ↔
    ∃ front first mid, readings = front ++ first :: mid ∧ first.1 = start ∧
      (∀ reading ∈ front.getLast?, reading.2 = false) ∧
      ∀ reading ∈ first :: mid, reading.2 = true := by
  induction readings using List.reverseRecOn generalizing start with
  | nil => simp [since]
  | append_singleton before last ih =>
    rw [since_concat]
    constructor
    · intro h
      split_ifs at h with hon
      cases hbefore : since before with
      | none =>
        rw [hbefore] at h
        refine ⟨before, last, [], rfl, Option.some.inj h, since_eq_none.mp hbefore, ?_⟩
        simpa using hon
      | some start' =>
        rw [hbefore] at h
        obtain rfl : start' = start := Option.some.inj h
        obtain ⟨front, first, mid, rfl, hstart, hfront, hheld⟩ := ih.mp hbefore
        refine ⟨front, first, mid ++ [last], by simp, hstart, hfront, ?_⟩
        rw [← List.cons_append]
        intro reading hreading
        obtain hreading | hreading := List.mem_append.mp hreading
        · exact hheld reading hreading
        · rw [List.mem_singleton.mp hreading]
          exact hon
    · rintro ⟨front, first, mid, hsplit, hstart, hfront, hheld⟩
      rcases List.eq_nil_or_concat mid with rfl | ⟨mid', last', rfl⟩
      · obtain ⟨rfl, hlast⟩ := List.append_inj' hsplit rfl
        obtain rfl : last = first := by simpa using hlast
        rw [if_pos (hheld last List.mem_cons_self), since_eq_none.mpr hfront, ← hstart]
        rfl
      · rw [List.concat_eq_append] at hsplit hheld
        have hsplit' : before ++ [last] = (front ++ first :: mid') ++ [last'] := by
          simpa using hsplit
        obtain ⟨hbefore, hlast⟩ := List.append_inj' hsplit' rfl
        obtain rfl : last = last' := by simpa using hlast
        have hsince : since before = some start :=
          ih.mpr ⟨front, first, mid', hbefore, hstart, hfront, fun reading hreading =>
            hheld reading (by rw [← List.cons_append]; exact List.mem_append_left _ hreading)⟩
        rw [if_pos (hheld last (by simp)), hsince]
        rfl

variable [Sub T] [LT T] [DecidableLT T] {hold : T}

/-- One reading: since when the condition has held, and whether the alarm sounds. -/
def step (hold : T) (held : Option T) (reading : T × Bool) : Option T × Bool :=
  if reading.2 then
    match held with
    | none => (some reading.1, false)
    | some start => (some start, decide (¬reading.1 - start < hold))
  else (none, false)

/-- Whether the alarm sounds, reading by reading. -/
def alarms (hold : T) : Option T → List (T × Bool) → List Bool
  | _, [] => []
  | held, reading :: readings =>
    (step hold held reading).2 :: alarms hold (step hold held reading).1 readings

/-- The condition held from a first reading on, that is not preceded by one at which it
held, up to one that lies the hold time later. -/
def Held (hold : T) (readings : List (T × Bool)) : Prop :=
  ∃ front first mid last back, readings = front ++ first :: (mid ++ last :: back) ∧
    (∀ reading ∈ front.getLast?, reading.2 = false) ∧
    (∀ reading ∈ first :: (mid ++ [last]), reading.2 = true) ∧ ¬last.1 - first.1 < hold

theorem step_fst (held : Option T) :
    (step hold held reading).1 = if reading.2 then some (held.getD reading.1) else none := by
  unfold step
  split_ifs
  · cases held <;> rfl
  · rfl

theorem step_snd {held : Option T} : (step hold held reading).2 = true ↔
    reading.2 = true ∧ ∃ start, held = some start ∧ ¬reading.1 - start < hold := by
  unfold step
  split_ifs with hon
  · cases held with
    | none => simp
    | some start => simp [hon]
  · simp [hon]

/-- Where the alarm sounds, after the readings before. -/
theorem true_mem_alarms (before : List (T × Bool)) :
    true ∈ alarms hold (since before) readings ↔ ∃ front reading back,
      readings = front ++ reading :: back ∧
        (step hold (since (before ++ front)) reading).2 = true := by
  induction readings generalizing before with
  | nil => simp [alarms]
  | cons reading readings ih =>
    have hnext : (step hold (since before) reading).1 = since (before ++ [reading]) := by
      rw [step_fst, since_concat]
    rw [alarms, List.mem_cons, hnext, ih]
    constructor
    · rintro (hsounds | ⟨front, later, back, rfl, hsounds⟩)
      · exact ⟨[], reading, readings, rfl, by rw [List.append_nil]; exact hsounds.symm⟩
      · exact ⟨reading :: front, later, back, rfl, by simpa using hsounds⟩
    · rintro ⟨front, later, back, hsplit, hsounds⟩
      cases front with
      | nil =>
        obtain ⟨rfl, rfl⟩ := List.cons.inj hsplit
        rw [List.append_nil] at hsounds
        exact Or.inl hsounds.symm
      | cons reading' front =>
        obtain ⟨rfl, rfl⟩ := List.cons.inj hsplit
        exact Or.inr ⟨front, later, back, rfl, by simpa using hsounds⟩

/-- The alarm sounds at some reading exactly when the condition was held. -/
theorem sounds_iff_held : true ∈ alarms hold none readings ↔ Held hold readings := by
  have hstart : (none : Option T) = since [] := rfl
  rw [hstart, true_mem_alarms]
  constructor
  · rintro ⟨before, last, back, rfl, hsounds⟩
    obtain ⟨hon, start, hsince, hlong⟩ := step_snd.mp hsounds
    rw [List.nil_append] at hsince
    obtain ⟨front, first, mid, rfl, rfl, hfront, hheld⟩ := since_eq_some.mp hsince
    refine ⟨front, first, mid, last, back, by simp, hfront, ?_, hlong⟩
    rw [← List.cons_append]
    intro reading hreading
    obtain hreading | hreading := List.mem_append.mp hreading
    · exact hheld reading hreading
    · rw [List.mem_singleton.mp hreading]
      exact hon
  · rintro ⟨front, first, mid, last, back, rfl, hfront, hheld, hlong⟩
    refine ⟨front ++ first :: mid, last, back, by simp, ?_⟩
    have hsince : since (front ++ first :: mid) = some first.1 :=
      since_eq_some.mpr ⟨front, first, mid, rfl, rfl, hfront, fun reading hreading =>
        hheld reading (by rw [← List.cons_append]; exact List.mem_append_left _ hreading)⟩
    rw [List.nil_append, hsince]
    exact step_snd.mpr ⟨hheld last (by simp), first.1, rfl, hlong⟩

end HeldAlarm
