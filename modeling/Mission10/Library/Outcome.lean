import Mathlib.Data.List.Forall2
import Mathlib.Data.List.Induction
import Mathlib.Logic.Basic
import Mathlib.Tactic.SplitIfs

/-!
# Computations that may fail

The inversion rules of the `Except` monad: a sequence that succeeds is a success
of each of its parts.
-/
namespace Outcome

universe u

variable {ε : Type*} {α β : Type u}

theorem bind_ok {x : Except ε α} {f : α → Except ε β} {b : β} (h : (x >>= f) = .ok b) :
    ∃ a, x = .ok a ∧ f a = .ok b := by
  cases x with
  | error err => cases h
  | ok a => exact ⟨a, rfl, h⟩

theorem ok_bind (a : α) (f : α → Except ε β) : (Except.ok a >>= f) = f a := rfl

theorem error_bind (err : ε) (f : α → Except ε β) :
    ((Except.error err : Except ε α) >>= f) = .error err := rfl

/-- A sequence fails with its first part or with its rest after it. -/
theorem bind_error {x : Except ε α} {f : α → Except ε β} {err : ε} (h : (x >>= f) = .error err) :
    x = .error err ∨ ∃ a, x = .ok a ∧ f a = .error err := by
  cases x with
  | error err' => exact Or.inl (congrArg Except.error (Except.error.inj h))
  | ok a => exact Or.inr ⟨a, rfl, h⟩

theorem pure_ok {a b : α} (h : (pure a : Except ε α) = .ok b) : b = a :=
  (Except.ok.inj h).symm

/-- A sequence succeeds when its first part does and its rest does after it. -/
theorem bind_total {x : Except ε α} {f : α → Except ε β} {a : α} (hx : x = .ok a)
    (hf : ∃ b, f a = .ok b) : ∃ b, (x >>= f) = .ok b := by
  obtain ⟨b, hb⟩ := hf
  exact ⟨b, hx ▸ hb⟩

theorem bind_total_of {x : Except ε α} {f : α → Except ε β} (hx : ∃ a, x = .ok a)
    (hf : ∀ a, ∃ b, f a = .ok b) : ∃ b, (x >>= f) = .ok b := by
  obtain ⟨a, ha⟩ := hx
  exact bind_total ha (hf a)

/-- A check that fails with a message. -/
def refuseIf (condition : Prop) [Decidable condition] (err : ε) : Except ε PUnit :=
  if condition then .error err else .ok ⟨⟩

theorem refuseIf_pos {condition : Prop} [Decidable condition] (h : condition) (err : ε) :
    refuseIf condition err = .error err := if_pos h

theorem refuseIf_neg {condition : Prop} [Decidable condition] (h : ¬ condition) (err : ε) :
    refuseIf condition err = .ok ⟨⟩ := if_neg h

theorem refuseIf_eq_ok {condition : Prop} [Decidable condition] {err : ε} {u : PUnit} :
    refuseIf condition err = .ok u ↔ ¬ condition := by
  unfold refuseIf
  split_ifs with h <;> simp [h]

theorem ok_of_isOk {x : Except ε α} (h : x.isOk = true) : ∃ a, x = .ok a := by
  cases x with
  | error err => contradiction
  | ok a => exact ⟨a, rfl⟩

theorem ok_of_toOption {x : Except ε α} {a : α} (h : x.toOption = some a) : x = .ok a := by
  cases x with
  | error err => cases h
  | ok b =>
    obtain rfl := Option.some.inj h
    rfl

theorem bind_eq_ok {x : Except ε α} {f : α → Except ε β} {b : β} :
    (x >>= f) = .ok b ↔ ∃ a, x = .ok a ∧ f a = .ok b := by
  refine ⟨bind_ok, ?_⟩
  intro h
  obtain ⟨a, rfl, hf⟩ := h
  exact hf

theorem refuseIf_bind_eq_ok {condition : Prop} [Decidable condition] {err : ε}
    {f : PUnit → Except ε β} {b : β} :
    (refuseIf condition err >>= f) = .ok b ↔ ¬ condition ∧ f ⟨⟩ = .ok b := by
  rw [bind_eq_ok]
  constructor
  · intro h
    obtain ⟨u, hu, hf⟩ := h
    exact ⟨refuseIf_eq_ok.mp hu, hf⟩
  · intro h
    exact ⟨⟨⟩, refuseIf_eq_ok.mpr h.1, h.2⟩

theorem pure_eq_ok {a b : α} : (pure a : Except ε α) = .ok b ↔ a = b :=
  ⟨fun h => Except.ok.inj h, fun h => congrArg _ h⟩

theorem error_ne_ok {err : ε} {b : β} : (throw err : Except ε β) ≠ .ok b := by
  intro h
  cases h

theorem mapError_eq_ok {ε' : Type*} {g : ε → ε'} {x : Except ε α} {a : α} :
    x.mapError g = .ok a ↔ x = .ok a := by
  cases x <;> simp [Except.mapError]

/-- The value of an option; without one, a failure. -/
def getOr (value : Option α) (err : ε) : Except ε α :=
  match value with
  | some a => .ok a
  | none => .error err

theorem getOr_eq_ok {value : Option α} {err : ε} {a : α} :
    getOr value err = .ok a ↔ value = some a := by
  cases value <;> simp [getOr]

/-- A traversal succeeds with the values of its parts. -/
theorem mapM_eq_ok {f : α → Except ε β} {items : List α} {values : List β} :
    items.mapM f = .ok values ↔
      List.Forall₂ (fun item value => f item = .ok value) items values := by
  induction items generalizing values with
  | nil => rw [List.mapM_nil, pure_eq_ok, List.forall₂_nil_left_iff, eq_comm]
  | cons item items ih =>
    simp only [List.mapM_cons, bind_eq_ok, ih, pure_eq_ok]
    constructor
    · rintro ⟨value, hvalue, rest, hrest, rfl⟩
      exact List.Forall₂.cons hvalue hrest
    · intro h
      cases h with
      | cons hvalue hrest => exact ⟨_, hvalue, _, hrest, rfl⟩

section Related

variable {γ δ : Type*} {R : γ → δ → Prop} {items : List γ} {values : List δ}

theorem exists_left_of_forall₂ {value : δ} (h : List.Forall₂ R items values)
    (hvalue : value ∈ values) : ∃ item ∈ items, R item value := by
  induction h with
  | nil => cases hvalue
  | cons hhead _ ih =>
    rcases List.mem_cons.mp hvalue with rfl | hvalue
    · exact ⟨_, List.mem_cons_self, hhead⟩
    · obtain ⟨item, hitem, hrelated⟩ := ih hvalue
      exact ⟨item, List.mem_cons_of_mem _ hitem, hrelated⟩

theorem exists_right_of_forall₂ {item : γ} (h : List.Forall₂ R items values)
    (hitem : item ∈ items) : ∃ value ∈ values, R item value := by
  induction h with
  | nil => cases hitem
  | cons hhead _ ih =>
    rcases List.mem_cons.mp hitem with rfl | hitem
    · exact ⟨_, List.mem_cons_self, hhead⟩
    · obtain ⟨value, hvalue, hrelated⟩ := ih hitem
      exact ⟨value, List.mem_cons_of_mem _ hvalue, hrelated⟩

end Related

/-- Every value of a traversal is one of its parts. -/
theorem mem_of_mapM {f : α → Except ε β} {items : List α} {values : List β} {value : β}
    (h : items.mapM f = .ok values) (hvalue : value ∈ values) :
    ∃ item ∈ items, f item = .ok value :=
  exists_left_of_forall₂ (R := fun item value => f item = .ok value) (mapM_eq_ok.mp h) hvalue

/-- Every part of a traversal has its value. -/
theorem exists_of_mapM {f : α → Except ε β} {items : List α} {values : List β} {item : α}
    (h : items.mapM f = .ok values) (hitem : item ∈ items) :
    ∃ value ∈ values, f item = .ok value :=
  exists_right_of_forall₂ (R := fun item value => f item = .ok value) (mapM_eq_ok.mp h) hitem

/-- What is read off the values of a traversal is read off its parts. -/
theorem map_of_mapM {γ : Type*} {f : α → Except ε β} {items : List α} {values : List β}
    {g : β → γ} {k : α → γ} (h : items.mapM f = .ok values)
    (hf : ∀ item ∈ items, ∀ value, f item = .ok value → g value = k item) :
    values.map g = items.map k := by
  have hall := mapM_eq_ok.mp h
  clear h
  induction hall with
  | nil => rfl
  | cons hhead _ ih =>
    rw [List.map_cons, List.map_cons, hf _ List.mem_cons_self _ hhead]
    rw [ih fun item hitem => hf item (List.mem_cons_of_mem _ hitem)]

theorem map_eq_ok {g : α → β} {x : Except ε α} {b : β} :
    (g <$> x) = .ok b ↔ ∃ a, x = .ok a ∧ g a = b := by
  cases x <;> simp [Functor.map, Except.map]

theorem mapM_congr {f g : α → Except ε β} {items : List α}
    (h : ∀ item ∈ items, f item = g item) : items.mapM f = items.mapM g := by
  induction items with
  | nil => rfl
  | cons item items ih =>
    rw [List.mapM_cons, List.mapM_cons, h item List.mem_cons_self]
    rw [ih fun other hother => h other (List.mem_cons_of_mem _ hother)]

/-- A traversal whose parts all succeed, with values of which a relation holds. -/
theorem mapM_total {f : α → Except ε β} {items : List α} {R : α → β → Prop}
    (h : ∀ item ∈ items, ∃ value, f item = .ok value ∧ R item value) :
    ∃ values, items.mapM f = .ok values ∧ List.Forall₂ R items values := by
  induction items with
  | nil => exact ⟨[], rfl, List.Forall₂.nil⟩
  | cons item items ih =>
    obtain ⟨value, hvalue, hrelated⟩ := h item List.mem_cons_self
    obtain ⟨values, hvalues, hall⟩ := ih fun other hother => h other (List.mem_cons_of_mem _ hother)
    refine ⟨value :: values, ?_, List.Forall₂.cons hrelated hall⟩
    rw [List.mapM_cons, hvalue, hvalues]
    rfl

/-- The invariant rule of a loop whose body does not fail where the invariant holds. -/
theorem foldlM_invariant {σ : Type u} {f : σ → α → Except ε σ} {items : List α}
    (Inv : List α → σ → Prop) {s : σ} (hs : Inv [] s)
    (hstep : ∀ done, ∀ x ∈ items, ∀ s, Inv done s →
      ∃ s', f s x = .ok s' ∧ Inv (done ++ [x]) s') :
    ∃ s', items.foldlM f s = .ok s' ∧ Inv items s' := by
  induction items using List.reverseRecOn with
  | nil => exact ⟨s, rfl, hs⟩
  | append_singleton items x ih =>
    obtain ⟨mid, hmid, hinv⟩ := ih fun done y hy => hstep done y (List.mem_append_left _ hy)
    obtain ⟨s', hx, hinv'⟩ := hstep items x (by simp) mid hinv
    refine ⟨s', ?_, hinv'⟩
    rw [List.foldlM_append, bind_eq_ok]
    refine ⟨mid, hmid, ?_⟩
    rw [List.foldlM_cons, bind_eq_ok]
    exact ⟨s', hx, rfl⟩

theorem mapM_flatMap {γ : Type*} {f : α → Except ε β} {part : γ → List α} {g : γ → α → β}
    {items : List γ} (h : ∀ item ∈ items, ∀ a ∈ part item, f a = .ok (g item a)) :
    (items.flatMap part).mapM f = .ok (items.flatMap fun item => (part item).map (g item)) := by
  rw [mapM_eq_ok]
  induction items with
  | nil => exact List.Forall₂.nil
  | cons item items ih =>
    rw [List.flatMap_cons, List.flatMap_cons]
    refine List.rel_append ?_ (ih fun other hother => h other (List.mem_cons_of_mem _ hother))
    rw [List.forall₂_map_right_iff, List.forall₂_same]
    exact h item List.mem_cons_self

end Outcome
