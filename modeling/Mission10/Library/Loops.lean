import Mathlib.Data.List.Range
import Mathlib.Logic.Function.Basic
import Mathlib.Order.Basic

/-!
# Loops of an imperative program

A `for` loop over a range is a fold, a `while` loop carries fuel and returns
`none` when the fuel runs out. Each comes with its invariant rule; the rules of
the `while` loops are for total correctness, since they name a variant that
bounds the number of rounds.
-/
namespace Loops

variable {σ : Type*}

/-- `for k in range(lo, hi)`. -/
def forRange (lo hi : ℕ) (body : σ → ℕ → σ) (s : σ) : σ :=
  (List.range' lo (hi - lo)).foldl body s

/-- The same with a body that may fail. -/
def tryRange (lo hi : ℕ) (body : σ → ℕ → Option σ) (s : σ) : Option σ :=
  (List.range' lo (hi - lo)).foldlM body s

/-- `for k, x in enumerate(xs)`. -/
def forEach {α : Type*} (xs : List α) (body : σ → ℕ → α → σ) (s : σ) : σ :=
  xs.zipIdx.foldl (fun s x => body s x.2 x.1) s

/-- A loop that leaves after the first round whose result is `done`. -/
def repeatUntil (body : σ → Option σ) (done : σ → Bool) : ℕ → σ → Option σ
  | 0, _ => none
  | fuel + 1, s =>
    (body s).bind fun s' => if done s' then some s' else repeatUntil body done fuel s'

/-- `while guard: body`. -/
def whileLoop (guard : σ → Bool) (body : σ → σ) : ℕ → σ → Option σ
  | 0, _ => none
  | fuel + 1, s => if guard s then whileLoop guard body fuel (body s) else some s

theorem forRange_invariant {body : σ → ℕ → σ} (Inv : ℕ → σ → Prop) {lo hi : ℕ} {s : σ}
    (hle : lo ≤ hi) (hs : Inv lo s)
    (hbody : ∀ k s, lo ≤ k → k < hi → Inv k s → Inv (k + 1) (body s k)) :
    Inv hi (forRange lo hi body s) := by
  obtain ⟨len, rfl⟩ := Nat.exists_eq_add_of_le hle
  have hrun : ∀ m, m ≤ len → Inv (lo + m) ((List.range' lo m).foldl body s) := by
    intro m
    induction m with
    | zero =>
      intro _
      simpa using hs
    | succ m ih =>
      intro hm
      rw [List.range'_1_concat, List.foldl_append]
      exact hbody (lo + m) _ (by omega) (by omega) (ih (by omega))
  simpa [forRange] using hrun len le_rfl

theorem forEach_invariant {α : Type*} {xs : List α} {body : σ → ℕ → α → σ}
    (Inv : ℕ → σ → Prop) {s : σ} (hs : Inv 0 s)
    (hbody : ∀ k x s, xs[k]? = some x → Inv k s → Inv (k + 1) (body s k x)) :
    Inv xs.length (forEach xs body s) := by
  have hrun : ∀ rest done s, xs = done ++ rest → Inv done.length s →
      Inv xs.length ((rest.zipIdx done.length).foldl (fun s x => body s x.2 x.1) s) := by
    intro rest
    induction rest with
    | nil =>
      rintro done s rfl hinv
      simpa using hinv
    | cons x rest ih =>
      intro done s heq hinv
      have hnext := ih (done ++ [x]) (body s done.length x) (by simp [heq]) (by
        rw [List.length_append]
        exact hbody done.length x s (by simp [heq]) hinv)
      simpa [List.zipIdx_cons] using hnext
  exact hrun xs [] s rfl hs

theorem tryRange_total {body : σ → ℕ → Option σ} (Inv : ℕ → σ → Prop) {lo hi : ℕ} {s : σ}
    (hle : lo ≤ hi) (hs : Inv lo s)
    (hbody : ∀ k s, lo ≤ k → k < hi → Inv k s → ∃ s', body s k = some s' ∧ Inv (k + 1) s') :
    ∃ t, tryRange lo hi body s = some t ∧ Inv hi t := by
  obtain ⟨len, rfl⟩ := Nat.exists_eq_add_of_le hle
  have hrun : ∀ m, m ≤ len →
      ∃ t, (List.range' lo m).foldlM body s = some t ∧ Inv (lo + m) t := by
    intro m
    induction m with
    | zero =>
      intro _
      exact ⟨s, rfl, hs⟩
    | succ m ih =>
      intro hm
      obtain ⟨t, ht, hinv⟩ := ih (by omega)
      obtain ⟨t', ht', hinv'⟩ := hbody (lo + m) t (by omega) (by omega) hinv
      refine ⟨t', ?_, hinv'⟩
      rw [List.range'_1_concat, List.foldlM_append, ht]
      simpa using ht'
  simpa [tryRange] using hrun len le_rfl

theorem repeatUntil_total {body : σ → Option σ} {done : σ → Bool} (Inv Post : σ → Prop)
    (variant : σ → ℕ)
    (hbody : ∀ s, Inv s → ∃ s', body s = some s' ∧
      (done s' = true → Post s') ∧ (done s' = false → Inv s' ∧ variant s' < variant s))
    {fuel : ℕ} {s : σ} (hs : Inv s) (hfuel : variant s < fuel) :
    ∃ t, repeatUntil body done fuel s = some t ∧ Post t := by
  induction fuel generalizing s with
  | zero => omega
  | succ fuel ih =>
    obtain ⟨s', hs', hpost, hnext⟩ := hbody s hs
    cases hd : done s' with
    | true => exact ⟨s', by simp [repeatUntil, hs', hd], hpost hd⟩
    | false =>
      obtain ⟨hinv, hlt⟩ := hnext hd
      obtain ⟨t, ht, hp⟩ := ih hinv (by omega)
      exact ⟨t, by simp [repeatUntil, hs', hd, ht], hp⟩

theorem whileLoop_total {guard : σ → Bool} {body : σ → σ} (Inv : σ → Prop) (variant : σ → ℕ)
    (hbody : ∀ s, Inv s → guard s = true → Inv (body s) ∧ variant (body s) < variant s)
    {fuel : ℕ} {s : σ} (hs : Inv s) (hfuel : variant s < fuel) :
    ∃ t, whileLoop guard body fuel s = some t ∧ Inv t ∧ guard t = false := by
  induction fuel generalizing s with
  | zero => omega
  | succ fuel ih =>
    cases hg : guard s with
    | false => exact ⟨s, by simp [whileLoop, hg], hs, hg⟩
    | true =>
      obtain ⟨hinv, hlt⟩ := hbody s hs hg
      obtain ⟨t, ht, hpost⟩ := ih hinv (by omega)
      exact ⟨t, by simp [whileLoop, hg, ht], hpost⟩

/-- A loop over keys, no two the same, that updates the entries of some of them. -/
theorem foldl_update {α β : Type*} [DecidableEq α] {keys : List α} (hkeys : keys.Nodup)
    (p : α → Bool) (f : β → β) (m : α → β) (a : α) :
    (keys.foldl (fun m k => if p k then Function.update m k (f (m k)) else m) m) a =
      if a ∈ keys ∧ p a then f (m a) else m a := by
  induction keys generalizing m with
  | nil => simp
  | cons k keys ih =>
    obtain ⟨hfresh, hkeys⟩ := List.nodup_cons.mp hkeys
    rw [List.foldl_cons, ih hkeys]
    by_cases heq : a = k
    · subst heq
      cases hp : p a <;> simp [hfresh]
    · have hsame : (if p k then Function.update m k (f (m k)) else m) a = m a := by
        split
        · exact Function.update_of_ne heq _ _
        · rfl
      rw [hsame]
      simp [heq]

end Loops
