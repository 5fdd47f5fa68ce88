import Mathlib.Order.Nat
import Mathlib.Tactic.ByContra

/-!
# A cell under a generation counter

A writer opens a cell by an odd generation, changes its content, and closes it
by the next even one. A reader that loads the content piece by piece and finds
the generation it started from may trust what it read, as long as the counter
was not restarted in between; the epoch counts the restarts and is no part of
the memory.
-/
namespace VersionedCell

variable {C : Type*}

structure Cell (C : Type*) where
  epoch : ℕ
  generation : ℕ
  content : C

/-- Only a content under such a generation may be read. -/
def Closed (generation : ℕ) : Prop := generation ≠ 0 ∧ generation % 2 = 0

instance (generation : ℕ) : Decidable (Closed generation) :=
  inferInstanceAs (Decidable (_ ∧ _))

theorem not_closed_zero : ¬ Closed 0 := fun h => h.1 rfl

theorem not_closed_of_odd {generation : ℕ} (h : generation % 2 = 1) : ¬ Closed generation := by
  intro hclosed
  have heven := hclosed.2
  omega

/-- What a writer may do: restart the counter, or raise it, changing nothing as
long as it stays at a closed generation. -/
def Moves (c c' : Cell C) : Prop :=
  c.epoch < c'.epoch ∨
    (c.epoch = c'.epoch ∧ c.generation ≤ c'.generation ∧
      (c.generation = c'.generation → Closed c.generation → c.content = c'.content))

theorem Moves.refl (c : Cell C) : Moves c c := Or.inr ⟨rfl, le_rfl, fun _ _ => rfl⟩

theorem Moves.trans {a b c : Cell C} (hab : Moves a b) (hbc : Moves b c) : Moves a c := by
  rcases hab with hab | ⟨heab, hgab, hcab⟩
  · left
    rcases hbc with hbc | ⟨hebc, -, -⟩
    · exact lt_trans hab hbc
    · omega
  · rcases hbc with hbc | ⟨hebc, hgbc, hcbc⟩
    · left
      omega
    · refine Or.inr ⟨heab.trans hebc, hgab.trans hgbc, fun hgen hclosed => ?_⟩
      have hmid : a.generation = b.generation := by omega
      exact (hcab hmid hclosed).trans (hcbc (by omega) (hmid ▸ hclosed))

/-- Loads begun at an epoch and a generation: what they say of the content is
so if the cell is still at that epoch and that generation. -/
def Observed (c : Cell C) (epoch generation : ℕ) (holds : C → Prop) : Prop :=
  epoch ≤ c.epoch ∧ (epoch = c.epoch →
    generation ≤ c.generation ∧ (generation = c.generation → holds c.content))

theorem Observed.now {c : Cell C} {holds : C → Prop} (h : holds c.content) :
    Observed c c.epoch c.generation holds :=
  ⟨le_rfl, fun _ => ⟨le_rfl, fun _ => h⟩⟩

theorem Observed.moves {c c' : Cell C} {epoch generation : ℕ} {holds : C → Prop}
    (h : Observed c epoch generation holds) (hclosed : Closed generation) (hmoves : Moves c c') :
    Observed c' epoch generation holds := by
  obtain ⟨hepoch, hsays⟩ := h
  rcases hmoves with hlt | ⟨hsame, hraise, hcontent⟩
  · exact ⟨by omega, fun heq => by omega⟩
  · refine ⟨by omega, fun heq => ?_⟩
    obtain ⟨hle, hread⟩ := hsays (by omega)
    refine ⟨by omega, fun hgen => ?_⟩
    have hstill : generation = c.generation := by omega
    rw [← hcontent (by omega) (hstill ▸ hclosed)]
    exact hread hstill

/-- One more load. -/
theorem Observed.load {c : Cell C} {epoch generation : ℕ} {holds also : C → Prop}
    (h : Observed c epoch generation holds) (hloaded : holds c.content → also c.content) :
    Observed c epoch generation also :=
  ⟨h.1, fun heq => ⟨(h.2 heq).1, fun hgen => hloaded ((h.2 heq).2 hgen)⟩⟩

/-- The generation is loaded once more and has not changed. -/
theorem Observed.confirmed {c : Cell C} {epoch generation : ℕ} {holds : C → Prop}
    (h : Observed c epoch generation holds) (hepoch : c.epoch = epoch)
    (hgen : c.generation = generation) : holds c.content :=
  (h.2 hepoch.symm).2 hgen.symm

end VersionedCell
