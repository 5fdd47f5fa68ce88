import Mathlib.Data.List.Nodup
import Mathlib.Data.List.Perm.Subperm
import Mission10.Library.Runs

/-!
# Latest-value stores with one consumer

A bounded store keeps at most one pending item for each key. A producer pushes
items, a single consumer takes one out, delivers it or puts it back, and the
store may be cleared. The laws of a store say only how its contents change up
to reordering. From them follow, for every order of the operations, that each
pushed item is accounted for once and that the items delivered for one key are
in push order.
-/
namespace LatestStore

/-- The operations of a store with contents of type `α` keyed by `κ`. -/
structure Ops (σ α κ : Type*) where
  key : α → κ
  contents : σ → List α
  push : σ → α → σ × Bool
  pop : σ → Option (α × σ)
  restore : σ → α → σ × Bool
  clear : σ → σ

variable {σ α κ : Type*}

namespace Ops

/-- The keys of the contents are distinct. -/
def Keyed (ops : Ops σ α κ) (s : σ) : Prop := ((ops.contents s).map ops.key).Nodup

/-- An insertion of `x` removes at most one old item, reports whether it did,
and leaves no other item under the key of `x`. -/
def Inserts (ops : Ops σ α κ) (s : σ) (x : α) (out : σ × Bool) : Prop :=
  ∃ gone rest, (ops.contents s).Perm (gone ++ rest) ∧ (ops.contents out.1).Perm (x :: rest) ∧
    gone.length = out.2.toNat ∧ ∀ y ∈ rest, ops.key y ≠ ops.key x

structure Lawful (ops : Ops σ α κ) : Prop where
  push : ∀ s x, ops.Keyed s → ops.Inserts s x (ops.push s x)
  pop_some : ∀ s x s', ops.pop s = some (x, s') → (ops.contents s).Perm (x :: ops.contents s')
  restore_taken : ∀ s x, (∃ y ∈ ops.contents s, ops.key y = ops.key x) →
    ops.restore s x = (s, true)
  restore_free : ∀ s x, ops.Keyed s → (∀ y ∈ ops.contents s, ops.key y ≠ ops.key x) →
    ops.Inserts s x (ops.restore s x)
  clear : ∀ s, ops.contents (ops.clear s) = []

end Ops

/-- Items kept in slots: setting a slot exchanges what it holds and leaves the rest. -/
theorem filterMap_set_perm {slot item : Type*} (held : slot → Option item) {entries : List slot}
    {index : ℕ} (h : index < entries.length) (new : slot) :
    ∃ rest, (entries.filterMap held).Perm ((held entries[index]).toList ++ rest) ∧
      ((entries.set index new).filterMap held).Perm ((held new).toList ++ rest) := by
  have hsplit : entries = entries.take index ++ entries[index] :: entries.drop (index + 1) := by
    rw [List.getElem_cons_drop, List.take_append_drop]
  have hperm (s : slot) :
      ((entries.take index ++ s :: entries.drop (index + 1)).filterMap held).Perm
        ((held s).toList ++ ((entries.take index).filterMap held ++
          (entries.drop (index + 1)).filterMap held)) := by
    rw [List.filterMap_append, List.filterMap_cons]
    cases held s with
    | none => simp
    | some x => simp
  refine ⟨(entries.take index).filterMap held ++ (entries.drop (index + 1)).filterMap held, ?_, ?_⟩
  · conv_lhs => rw [hsplit]
    exact hperm entries[index]
  · rw [List.set_eq_take_append_cons_drop, if_pos h]
    exact hperm new

/-- The store, the item its consumer holds, and the history of both. -/
structure Delivery (σ α : Type*) where
  store : σ
  inFlight : Option α
  drops : ℕ
  pushed : List α
  sent : List α
  cleared : List α

inductive Event (α : Type*) where
  | push (item : α)
  | pop
  | deliver
  | putBack
  | clear

/-- The consumer pops only with empty hands. -/
def step (ops : Ops σ α κ) (d : Delivery σ α) : Event α → Option (Delivery σ α)
  | .push x =>
    let out := ops.push d.store x
    some { d with store := out.1, drops := d.drops + out.2.toNat, pushed := d.pushed ++ [x] }
  | .pop =>
    match d.inFlight, ops.pop d.store with
    | some _, _ => none
    | none, none => some d
    | none, some (x, store) => some { d with store := store, inFlight := some x }
  | .deliver =>
    d.inFlight.map fun x => { d with inFlight := none, sent := d.sent ++ [x] }
  | .putBack =>
    d.inFlight.map fun x =>
      let out := ops.restore d.store x
      { d with store := out.1, inFlight := none, drops := d.drops + out.2.toNat }
  | .clear =>
    some { d with store := ops.clear d.store, cleared := d.cleared ++ ops.contents d.store }

theorem Ops.Keyed.of_inserts {ops : Ops σ α κ} {s : σ} {x : α} {out : σ × Bool}
    (hs : ops.Keyed s) (h : ops.Inserts s x out) : ops.Keyed out.1 := by
  obtain ⟨gone, rest, hold, hnew, -, hrest⟩ := h
  have hk : ((gone ++ rest).map ops.key).Nodup := (hold.map ops.key).nodup_iff.mp hs
  rw [List.map_append, List.nodup_append] at hk
  refine (hnew.map ops.key).nodup_iff.mpr ?_
  rw [List.map_cons, List.nodup_cons]
  refine ⟨fun hmem => ?_, hk.2.1⟩
  obtain ⟨y, hy, hyk⟩ := List.mem_map.mp hmem
  exact hrest y hy hyk

/-- A short list keeps no order to lose. -/
theorem sublist_of_subperm_short {xs ys : List α} (h : xs.Subperm ys) (hy : ys.length ≤ 1) :
    xs.Sublist ys := by
  obtain ⟨m, hm, hs⟩ := h
  have hlen : m.length ≤ 1 := Nat.le_trans hs.length_le hy
  have : m = xs := by
    match m, hlen with
    | [], _ => exact (List.nil_perm.mp hm).symm
    | [a], _ => exact (List.singleton_perm.mp hm)
  exact this ▸ hs

/-- Every pushed item is sent, dropped, pending, in flight or cleared, and
nothing else is. -/
def Accounted (ops : Ops σ α κ) (d : Delivery σ α) : Prop :=
  ∃ dropped : List α, dropped.length = d.drops ∧
    d.pushed.Perm (d.sent ++ dropped ++ ops.contents d.store ++ d.inFlight.toList ++ d.cleared)

/-- An insertion takes the new item into the contents and moves at most one old
item from there to the dropped. -/
theorem Ops.Inserts.accounted {ops : Ops σ α κ} {s : σ} {x : α} {out : σ × Bool}
    (h : ops.Inserts s x out) {items sent dropped others : List α}
    (hperm : items.Perm (x :: (sent ++ dropped ++ ops.contents s ++ others))) :
    ∃ dropped' : List α, dropped'.length = dropped.length + out.2.toNat ∧
      items.Perm (sent ++ dropped' ++ ops.contents out.1 ++ others) := by
  classical
  obtain ⟨gone, rest, hold, hnew, hlen, -⟩ := h
  refine ⟨dropped ++ gone, by simp [hlen], ?_⟩
  rw [List.perm_iff_count] at *
  intro a
  have h1 := hperm a
  have h2 := hold a
  have h3 := hnew a
  simp only [List.count_append, List.count_cons] at *
  omega

section Invariant
variable [DecidableEq κ] (ops : Ops σ α κ)

/-- The items of a list under one key. -/
def under (k : κ) (items : List α) : List α := items.filter fun x => ops.key x = k

@[simp] theorem under_append (k : κ) (xs ys : List α) :
    under ops k (xs ++ ys) = under ops k xs ++ under ops k ys := List.filter_append ..

@[simp] theorem under_nil (k : κ) : under ops k [] = [] := rfl

theorem under_singleton_self {x : α} {k : κ} (h : ops.key x = k) : under ops k [x] = [x] := by
  simp [under, h]

/-- What was sent under a key, then what is in flight, then what is pending,
all in the order it was pushed. -/
def Ordered (d : Delivery σ α) : Prop :=
  ∀ k, (under ops k d.sent ++ under ops k d.inFlight.toList ++
    under ops k (ops.contents d.store)).Sublist (under ops k d.pushed)

structure Inv (d : Delivery σ α) : Prop where
  keyed : ops.Keyed d.store
  accounted : Accounted ops d
  ordered : Ordered ops d

variable {ops}

theorem under_length_le_one {s : σ} (h : ops.Keyed s) (k : κ) :
    (under ops k (ops.contents s)).length ≤ 1 := by
  have hkeys : ∀ y ∈ (under ops k (ops.contents s)).map ops.key, y = k := by
    intro y hy
    obtain ⟨x, hx, rfl⟩ := List.mem_map.mp hy
    simpa using (List.mem_filter.mp hx).2
  have hnodup : ((under ops k (ops.contents s)).map ops.key).Nodup :=
    h.sublist (List.filter_sublist.map _)
  have hrep := List.eq_replicate_of_mem hkeys
  rw [hrep, List.nodup_replicate, List.length_map] at hnodup
  exact hnodup

/-- After an insertion the pending items of a key are the inserted one, or a
part of what was pending under that key before. -/
theorem Ops.Inserts.under_self {s : σ} {x : α} {out : σ × Bool} (h : ops.Inserts s x out) :
    under ops (ops.key x) (ops.contents out.1) = [x] := by
  obtain ⟨gone, rest, -, hnew, -, hrest⟩ := h
  have hperm : (under ops (ops.key x) (ops.contents out.1)).Perm
      (under ops (ops.key x) (x :: rest)) := hnew.filter _
  have hone : under ops (ops.key x) (x :: rest) = [x] := by
    simpa [under, List.filter_eq_nil_iff] using hrest
  rw [hone] at hperm
  exact List.perm_singleton.mp hperm

theorem Ops.Inserts.under_other {s : σ} {x : α} {out : σ × Bool} (h : ops.Inserts s x out)
    (hs : ops.Keyed s) {k : κ} (hk : ops.key x ≠ k) :
    (under ops k (ops.contents out.1)).Sublist (under ops k (ops.contents s)) := by
  obtain ⟨gone, rest, hold, hnew, -, -⟩ := h
  have hafter : (under ops k (ops.contents out.1)).Perm (under ops k rest) := by
    have hperm : (under ops k (ops.contents out.1)).Perm (under ops k (x :: rest)) :=
      hnew.filter _
    simpa [under, hk] using hperm
  have hbefore : (under ops k (ops.contents s)).Perm (under ops k gone ++ under ops k rest) := by
    simpa [under] using hold.filter (fun x => decide (ops.key x = k))
  have hsub : (under ops k rest).Subperm (under ops k (ops.contents s)) :=
    (List.sublist_append_right _ _).subperm.trans hbefore.symm.subperm
  exact sublist_of_subperm_short (hafter.subperm.trans hsub) (under_length_le_one hs k)

/-- A value that arrives after everything sent and in flight under its key, and
after every pending value it does not replace, keeps the order. -/
theorem Ops.Inserts.ordered {s : σ} {x : α} {out : σ × Bool} (h : ops.Inserts s x out)
    (hs : ops.Keyed s) {k : κ} {before pushed pushed' : List α}
    (hself : ops.key x = k → (before ++ [x]).Sublist pushed')
    (hother : (before ++ under ops k (ops.contents s)).Sublist pushed)
    (hmono : pushed.Sublist pushed') :
    (before ++ under ops k (ops.contents out.1)).Sublist pushed' := by
  by_cases hk : ops.key x = k
  · rw [← hk, h.under_self]
    exact hself hk
  · exact (((List.Sublist.refl before).append (h.under_other hs hk)).trans hother).trans hmono

section Steps

variable {d d' : Delivery σ α}

theorem push_inv (laws : ops.Lawful) {x : α} (hd : Inv ops d)
    (h : step ops d (.push x) = some d') : Inv ops d' := by
  obtain ⟨hkeyed, ⟨dropped, hdrops, hperm⟩, hordered⟩ := hd
  simp only [step, Option.some.injEq] at h
  subst h
  have hins := laws.push d.store x hkeyed
  refine ⟨hkeyed.of_inserts hins, ?_, fun k => ?_⟩
  · have hx : (d.pushed ++ [x]).Perm (x :: (d.sent ++ dropped ++ ops.contents d.store ++
        (d.inFlight.toList ++ d.cleared))) := by
      refine (List.perm_append_singleton x d.pushed).trans (List.Perm.cons x ?_)
      simpa using hperm
    obtain ⟨dropped', hlen, hp⟩ := hins.accounted hx
    exact ⟨dropped', by simp [hlen, hdrops], by simpa using hp⟩
  · have hprev := hordered k
    refine hins.ordered hkeyed (fun hk => ?_) hprev (by simp)
    rw [under_append, under_singleton_self ops hk]
    exact ((List.sublist_append_left _ _).trans hprev).append (List.Sublist.refl _)

theorem pop_inv (laws : ops.Lawful) (hd : Inv ops d)
    (h : step ops d .pop = some d') : Inv ops d' := by
  obtain ⟨hkeyed, ⟨dropped, hdrops, hperm⟩, hordered⟩ := hd
  cases hfly : d.inFlight with
  | some y => simp [step, hfly] at h
  | none =>
    cases hpop : ops.pop d.store with
    | none =>
      simp only [step, hfly, hpop, Option.some.injEq] at h
      subst h
      exact ⟨hkeyed, ⟨dropped, hdrops, hperm⟩, hordered⟩
    | some out =>
      obtain ⟨x, store⟩ := out
      simp only [step, hfly, hpop, Option.some.injEq] at h
      subst h
      have hout := laws.pop_some d.store x store hpop
      have hkeyed' : ops.Keyed store := by
        have hk := (hout.map ops.key).nodup_iff.mp hkeyed
        exact hk.of_cons
      refine ⟨hkeyed', ⟨dropped, hdrops, ?_⟩, fun k => ?_⟩
      · classical
        rw [List.perm_iff_count] at *
        intro a
        have h1 := hperm a
        have h2 := hout a
        simp only [hfly, Option.toList_none, Option.toList_some, List.count_append,
          List.count_cons, List.count_nil] at *
        omega
      · have hprev := hordered k
        have hone := under_length_le_one hkeyed k
        have hpu : (under ops k (ops.contents d.store)).Perm
            (under ops k [x] ++ under ops k (ops.contents store)) := by
          rw [← under_append]
          exact hout.filter _
        have heq : under ops k [x] ++ under ops k (ops.contents store) =
            under ops k (ops.contents d.store) := by
          refine ((sublist_of_subperm_short hpu.symm.subperm hone).eq_of_length ?_)
          exact hpu.length_eq.symm
        simpa [hfly, List.append_assoc, heq] using hprev

theorem deliver_inv (hd : Inv ops d)
    (h : step ops d .deliver = some d') : Inv ops d' := by
  obtain ⟨hkeyed, ⟨dropped, hdrops, hperm⟩, hordered⟩ := hd
  cases hfly : d.inFlight with
  | none => simp [step, hfly] at h
  | some x =>
    simp only [step, hfly, Option.map_some, Option.some.injEq] at h
    subst h
    refine ⟨hkeyed, ⟨dropped, hdrops, ?_⟩, fun k => ?_⟩
    · classical
      rw [List.perm_iff_count] at *
      intro a
      have h1 := hperm a
      simp only [hfly, Option.toList_none, Option.toList_some, List.count_append,
        List.count_cons, List.count_nil] at *
      omega
    · simpa [hfly] using hordered k

/-- An item that is put back is dropped where a newer one of its key waits. -/
theorem putBack_inv (laws : ops.Lawful) (hd : Inv ops d)
    (h : step ops d .putBack = some d') : Inv ops d' := by
  obtain ⟨hkeyed, ⟨dropped, hdrops, hperm⟩, hordered⟩ := hd
  cases hfly : d.inFlight with
  | none => simp [step, hfly] at h
  | some x =>
    simp only [step, hfly, Option.map_some, Option.some.injEq] at h
    subst h
    by_cases htaken : ∃ y ∈ ops.contents d.store, ops.key y = ops.key x
    · -- a newer value of the same key waits: the interrupted one is dropped
      rw [laws.restore_taken d.store x htaken]
      refine ⟨hkeyed, ⟨dropped ++ [x], by simp [hdrops], ?_⟩, fun k => ?_⟩
      · classical
        rw [List.perm_iff_count] at *
        intro a
        have h1 := hperm a
        simp only [hfly, Option.toList_none, Option.toList_some, List.count_append,
          List.count_cons, List.count_nil] at *
        omega
      · have hprev := hordered k
        refine List.Sublist.trans ?_ hprev
        simp
    · push Not at htaken
      have hins := laws.restore_free d.store x hkeyed htaken
      refine ⟨hkeyed.of_inserts hins, ?_, fun k => ?_⟩
      · have hx : d.pushed.Perm (x :: (d.sent ++ dropped ++ ops.contents d.store ++
            d.cleared)) := by
          refine hperm.trans ?_
          rw [hfly, Option.toList_some, List.append_assoc _ [x]]
          exact List.perm_middle
        obtain ⟨dropped', hlen, hp⟩ := hins.accounted hx
        exact ⟨dropped', by simp [hlen, hdrops], by simpa using hp⟩
      · have hprev := hordered k
        have hbefore : (under ops k d.sent ++ under ops k [x]).Sublist
            (under ops k d.pushed) := by
          refine List.Sublist.trans ?_ hprev
          simp [hfly]
        have hsent : (under ops k d.sent ++ under ops k (ops.contents d.store)).Sublist
            (under ops k d.pushed) := by
          refine List.Sublist.trans ?_ hprev
          simp
        simp only [Option.toList_none, under_nil, List.append_nil]
        refine hins.ordered hkeyed (fun hk => ?_) hsent (List.Sublist.refl _)
        rwa [under_singleton_self ops hk] at hbefore

theorem clear_inv (laws : ops.Lawful) (hd : Inv ops d)
    (h : step ops d .clear = some d') : Inv ops d' := by
  obtain ⟨hkeyed, ⟨dropped, hdrops, hperm⟩, hordered⟩ := hd
  simp only [step, Option.some.injEq] at h
  subst h
  have hempty := laws.clear d.store
  refine ⟨by simp [Ops.Keyed, hempty], ⟨dropped, hdrops, ?_⟩, fun k => ?_⟩
  · classical
    rw [List.perm_iff_count] at *
    intro a
    have h1 := hperm a
    simp only [hempty, List.count_append, List.count_nil] at *
    omega
  · have hprev := hordered k
    refine List.Sublist.trans ?_ hprev
    simp [hempty]

theorem step_inv (laws : ops.Lawful) {e : Event α} (hd : Inv ops d)
    (h : step ops d e = some d') : Inv ops d' := by
  cases e with
  | push x => exact push_inv laws hd h
  | pop => exact pop_inv laws hd h
  | deliver => exact deliver_inv hd h
  | putBack => exact putBack_inv laws hd h
  | clear => exact clear_inv laws hd h

end Steps

/-- The three laws hold after every sequence of operations. -/
theorem run_inv (laws : ops.Lawful) {d d' : Delivery σ α} {es : List (Event α)}
    (hd : Inv ops d) (h : Runs.run (step ops) d es = some d') : Inv ops d' :=
  Runs.run_invariant (step ops) (Inv ops) (fun _ _ _ hi hs => step_inv laws hi hs) hd h

end Invariant

end LatestStore
