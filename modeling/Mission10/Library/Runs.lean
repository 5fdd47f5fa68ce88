import Mathlib.Data.List.Basic
import Mathlib.Data.List.Induction
import Mathlib.Order.Basic

/-!
# Runs of a partial step function

A machine is a function from a state and an event to the next state, `none`
when the event is not enabled or the step raises. Everything nondeterministic
is carried by the event, so a run is determined by its list of events and can
be evaluated. The rules below are the only inductions over runs that the
machines built on this module need.
-/
namespace Runs

variable {σ ε : Type*} (step : σ → ε → Option σ)

/-- The state after a list of events, if every one of them is enabled. -/
def run : σ → List ε → Option σ
  | s, [] => some s
  | s, e :: es => (step s e).bind fun s' => run s' es

@[simp] theorem run_nil (s : σ) : run step s [] = some s := rfl

theorem run_cons (s : σ) (e : ε) (es : List ε) :
    run step s (e :: es) = (step s e).bind fun s' => run step s' es := rfl

theorem run_cons_some {s t : σ} {e : ε} {es : List ε} (h : run step s (e :: es) = some t) :
    ∃ m, step s e = some m ∧ run step m es = some t := by
  rw [run_cons, Option.bind_eq_some_iff] at h
  exact h

theorem run_append (s : σ) (es fs : List ε) :
    run step s (es ++ fs) = (run step s es).bind fun m => run step m fs := by
  induction es generalizing s with
  | nil => rfl
  | cons e es ih =>
    cases h : step s e with
    | none => simp [run_cons, h]
    | some m => simp [run_cons, h, ih]

theorem run_append_some {s t : σ} {es fs : List ε} (h : run step s (es ++ fs) = some t) :
    ∃ m, run step s es = some m ∧ run step m fs = some t := by
  rw [run_append, Option.bind_eq_some_iff] at h
  exact h

theorem run_snoc_some {s t : σ} {es : List ε} {e : ε} (h : run step s (es ++ [e]) = some t) :
    ∃ m, run step s es = some m ∧ step m e = some t := by
  obtain ⟨m, hm, ht⟩ := run_append_some step h
  obtain ⟨t', ht', hr⟩ := run_cons_some step ht
  rw [run_nil, Option.some.injEq] at hr
  exact ⟨m, hm, hr ▸ ht'⟩

/-- A property of the first state that every step preserves holds of the last. -/
theorem run_invariant (Inv : σ → Prop)
    (hstep : ∀ s e s', Inv s → step s e = some s' → Inv s')
    {s t : σ} {es : List ε} (hs : Inv s) (h : run step s es = some t) : Inv t := by
  induction es generalizing s with
  | nil =>
    rw [run_nil, Option.some.injEq] at h
    exact h ▸ hs
  | cons e es ih =>
    obtain ⟨m, hm, ht⟩ := run_cons_some step h
    exact ih (hstep s e m hs hm) ht

/-- The invariant rule for properties of a state together with the events that
led to it. -/
theorem run_history (Inv : List ε → σ → Prop)
    (hstep : ∀ hist s e s', Inv hist s → step s e = some s' → Inv (hist ++ [e]) s')
    {s t : σ} {es : List ε} (hs : Inv [] s) (h : run step s es = some t) : Inv es t := by
  induction es using List.reverseRecOn generalizing t with
  | nil =>
    rw [run_nil, Option.some.injEq] at h
    exact h ▸ hs
  | append_singleton es e ih =>
    obtain ⟨m, hm, ht⟩ := run_snoc_some step h
    exact hstep es m e t (ih hm) ht

/-- Every step of the run meets `P`, read at the state the step starts from. -/
def Along (P : σ → ε → Prop) : σ → List ε → Prop
  | _, [] => True
  | s, e :: es => P s e ∧ ∀ s', step s e = some s' → Along P s' es

@[simp] theorem along_nil (P : σ → ε → Prop) (s : σ) : Along step P s [] := trivial

theorem along_cons {P : σ → ε → Prop} {s m : σ} {e : ε} {es : List ε}
    (hm : step s e = some m) : Along step P s (e :: es) ↔ P s e ∧ Along step P m es := by
  constructor
  · rintro ⟨hp, hrest⟩
    exact ⟨hp, hrest m hm⟩
  · rintro ⟨hp, hrest⟩
    refine ⟨hp, fun s' hs' => ?_⟩
    rw [hm, Option.some.injEq] at hs'
    exact hs' ▸ hrest

instance decidableAlong {P : σ → ε → Prop} [∀ s e, Decidable (P s e)] :
    ∀ s es, Decidable (Along step P s es)
  | _, [] => isTrue trivial
  | s, e :: es =>
    match h : step s e with
    | none => decidable_of_iff (P s e) ⟨fun hp => ⟨hp, fun s' hs' => by simp [h] at hs'⟩, And.left⟩
    | some m =>
      haveI : Decidable (Along step P m es) := decidableAlong m es
      decidable_of_iff (P s e ∧ Along step P m es) (along_cons step h).symm

theorem along_append {P : σ → ε → Prop} {s m : σ} {es fs : List ε}
    (hm : run step s es = some m) :
    Along step P s (es ++ fs) ↔ Along step P s es ∧ Along step P m fs := by
  induction es generalizing s with
  | nil =>
    rw [run_nil, Option.some.injEq] at hm
    subst hm
    simp
  | cons e es ih =>
    obtain ⟨n, hn, hr⟩ := run_cons_some step hm
    rw [List.cons_append, along_cons step hn, along_cons step hn, ih hr, and_assoc]

/-- A condition holds along a run when it holds at every event of it. -/
theorem along_iff_forall {P : σ → ε → Prop} {s : σ} {es : List ε} :
    Along step P s es ↔
      ∀ front e back m, es = front ++ e :: back → run step s front = some m → P m e := by
  induction es generalizing s with
  | nil => simp
  | cons e es ih =>
    constructor
    · rintro ⟨hp, hrest⟩ front e' back m heq hrun
      cases front with
      | nil =>
        obtain ⟨rfl, -⟩ := List.cons.inj heq
        rw [run_nil, Option.some.injEq] at hrun
        exact hrun ▸ hp
      | cons e'' front =>
        obtain ⟨rfl, rfl⟩ := List.cons.inj heq
        obtain ⟨n, hn, hr⟩ := run_cons_some step hrun
        exact ih.mp (hrest n hn) front e' back m rfl hr
    · intro h
      refine ⟨h [] e es s rfl rfl, fun s' hs' => ih.mpr fun front e' back m heq hrun => ?_⟩
      refine h (e :: front) e' back m (by rw [heq, List.cons_append]) ?_
      rw [run_cons, hs']
      exact hrun

theorem Along.mono {P Q : σ → ε → Prop} (hPQ : ∀ s e, P s e → Q s e) {s : σ} {es : List ε}
    (h : Along step P s es) : Along step Q s es := by
  induction es generalizing s with
  | nil => trivial
  | cons e es ih => exact ⟨hPQ s e h.1, fun s' hs' => ih (h.2 s' hs')⟩

theorem along_of_mem {Q : ε → Prop} {s : σ} {es : List ε} (hQ : ∀ e ∈ es, Q e) :
    Along step (fun _ e => Q e) s es := by
  induction es generalizing s with
  | nil => trivial
  | cons e es ih =>
    obtain ⟨he, hes⟩ := List.forall_mem_cons.mp hQ
    exact ⟨he, fun s' _ => ih hes⟩

theorem Along.and_mem {P : σ → ε → Prop} {Q : ε → Prop} {s : σ} {es : List ε}
    (h : Along step P s es) (hQ : ∀ e ∈ es, Q e) : Along step (fun s e => Q e ∧ P s e) s es := by
  induction es generalizing s with
  | nil => trivial
  | cons e es ih =>
    obtain ⟨he, hes⟩ := List.forall_mem_cons.mp hQ
    exact ⟨⟨he, h.1⟩, fun s' hs' => ih (h.2 s' hs') hes⟩

/-- Two conditions that agree in the states of an invariant, which the steps that
meet them keep, hold along the same runs. -/
theorem along_iff_along {P Q : σ → ε → Prop} (Inv : σ → Prop)
    (hstep : ∀ s e s', Inv s → Q s e → step s e = some s' → Inv s')
    (hPQ : ∀ s e, Inv s → (P s e ↔ Q s e)) {s : σ} {es : List ε} (hs : Inv s) :
    Along step P s es ↔ Along step Q s es := by
  induction es generalizing s with
  | nil => exact Iff.rfl
  | cons e es ih =>
    constructor
    · rintro ⟨hp, hrest⟩
      have hq := (hPQ s e hs).mp hp
      exact ⟨hq, fun s' hs' => (ih (hstep s e s' hs hq hs')).mp (hrest s' hs')⟩
    · rintro ⟨hq, hrest⟩
      exact ⟨(hPQ s e hs).mpr hq, fun s' hs' => (ih (hstep s e s' hs hq hs')).mpr (hrest s' hs')⟩

/-- Two conditions that agree in the states of an invariant hold along the same
runs. -/
theorem along_congr {P Q : σ → ε → Prop} (Inv : σ → Prop)
    (hstep : ∀ s e s', Inv s → step s e = some s' → Inv s')
    (hPQ : ∀ s e, Inv s → (P s e ↔ Q s e)) {s : σ} {es : List ε} (hs : Inv s) :
    Along step P s es ↔ Along step Q s es :=
  along_iff_along step Inv (fun s e s' hs _ => hstep s e s' hs) hPQ hs

/-- If a step from a state with `P` keeps `P` exactly when it meets a condition,
then all states of a run have `P` exactly when the condition holds along it. -/
theorem visited_iff_along {P : σ → Prop} {C : σ → ε → Prop}
    (hstep : ∀ s e s', P s → step s e = some s' → (P s' ↔ C s e))
    {s t : σ} {es : List ε} (hs : P s) (h : run step s es = some t) :
    (∀ front back m, es = front ++ back → run step s front = some m → P m) ↔
      Along step C s es := by
  induction es generalizing s with
  | nil =>
    refine iff_of_true ?_ trivial
    intro front back m heq hrun
    obtain ⟨rfl, -⟩ := List.append_eq_nil_iff.mp heq.symm
    rw [run_nil, Option.some.injEq] at hrun
    exact hrun ▸ hs
  | cons e es ih =>
    obtain ⟨n, hn, ht⟩ := run_cons_some step h
    rw [along_cons step hn, ← hstep s e n hs hn]
    constructor
    · intro hall
      have hPn : P n := hall [e] es n rfl (by simp [run_cons, hn])
      refine ⟨hPn, (ih hPn ht).mp fun front back m heq hrun => ?_⟩
      refine hall (e :: front) back m (by rw [heq, List.cons_append]) ?_
      rw [run_cons, hn]
      exact hrun
    · rintro ⟨hPn, halong⟩ front back m heq hrun
      cases front with
      | nil =>
        rw [run_nil, Option.some.injEq] at hrun
        exact hrun ▸ hs
      | cons e' front =>
        obtain ⟨rfl, heq'⟩ := List.cons.inj heq
        rw [run_cons, hn] at hrun
        exact (ih hPn ht).mpr halong front back m heq' hrun

/-- The invariant rule for runs whose steps all meet a condition. -/
theorem run_invariant_along (Inv : σ → Prop) (P : σ → ε → Prop)
    (hstep : ∀ s e s', Inv s → P s e → step s e = some s' → Inv s')
    {s t : σ} {es : List ε} (hs : Inv s) (hP : Along step P s es)
    (h : run step s es = some t) : Inv t := by
  induction es generalizing s with
  | nil =>
    rw [run_nil, Option.some.injEq] at h
    exact h ▸ hs
  | cons e es ih =>
    obtain ⟨m, hm, ht⟩ := run_cons_some step h
    exact ih (hstep s e m hs hP.1 hm) (hP.2 m hm) ht

/-- The relation rule for runs whose steps all meet a condition and start from
states of an invariant. -/
theorem run_relates_along (Inv : σ → Prop) (P : σ → ε → Prop) (R : σ → σ → Prop)
    (hrefl : ∀ s, R s s) (htrans : ∀ a b c, R a b → R b c → R a c)
    (hstep : ∀ s e s', Inv s → P s e → step s e = some s' → Inv s' ∧ R s s')
    {s t : σ} {es : List ε} (hs : Inv s) (hP : Along step P s es)
    (h : run step s es = some t) : R s t := by
  induction es generalizing s with
  | nil =>
    rw [run_nil, Option.some.injEq] at h
    exact h ▸ hrefl s
  | cons e es ih =>
    obtain ⟨m, hm, ht⟩ := run_cons_some step h
    obtain ⟨hinv, hrel⟩ := hstep s e m hs hP.1 hm
    exact htrans s m t hrel (ih hinv (hP.2 m hm) ht)

end Runs
