import Mission10.Library.Runs
import Mission10.Uwb.LatestExchanges

/-!
# The oldest pending exchange

The store is kept together with the order in which its exchanges were inserted or
replaced. While the generations of the pending exchanges rise in that order, the least
generation is the oldest exchange. A generation that wraps is the least of all, and
keeps the rise only where nothing else is pending.
-/
namespace Mission10.Uwb

namespace LatestExchanges

/-- The pending exchanges with their generations, in slot order. -/
def occupied (slots : LatestExchanges) : List (UInt32 × CompletedExchange) :=
  slots.entries.filterMap id

/-- Every slot is taken, by other peers than this one. -/
def FullFor (slots : LatestExchanges) (peer : NodeAddress) : Prop :=
  none ∉ slots.entries ∧ ∀ exchange ∈ slots.pending, exchange.peer ≠ peer

end LatestExchanges

/-- The store and its exchanges, the one inserted or replaced last at the end. -/
structure AgedExchanges where
  slots : LatestExchanges := .new
  order : List CompletedExchange := []

inductive ExchangeOp where
  | push (exchange : CompletedExchange)
  | popOldest
  | restore (exchange : CompletedExchange)
  | clear

namespace AgedExchanges

/-- The new exchange comes last, after those that are still pending. -/
def push (aged : AgedExchanges) (exchange : CompletedExchange) : AgedExchanges where
  slots := (aged.slots.push exchange).1
  order := (aged.order.filter fun other =>
    other.peer ≠ exchange.peer ∧ other ∈ (aged.slots.push exchange).1.pending) ++ [exchange]

def popOldest (aged : AgedExchanges) : AgedExchanges :=
  match aged.slots.popOldest with
  | none => aged
  | some (exchange, slots) => ⟨slots, aged.order.filter fun other => other.peer ≠ exchange.peer⟩

/-- A restored exchange that is not obsolete is pushed. -/
def restore (aged : AgedExchanges) (exchange : CompletedExchange) : AgedExchanges :=
  if aged.slots.entries.any (LatestExchanges.holds exchange.peer) then aged
  else aged.push exchange

def step (aged : AgedExchanges) : ExchangeOp → Option AgedExchanges
  | .push exchange => some (aged.push exchange)
  | .popOldest => some aged.popOldest
  | .restore exchange => some (aged.restore exchange)
  | .clear => some ⟨aged.slots.clear, []⟩

/-- The exchange that a pop takes, and the one that a push on a full store evicts, is the
first of the order. -/
structure ServesOldest (aged : AgedExchanges) : Prop where
  pop : aged.slots.popOldest.map Prod.fst = aged.order.head?
  evict : ∀ exchange, aged.slots.FullFor exchange.peer →
    (aged.slots.push exchange).1.pending.Perm (exchange :: aged.order.tail)

/-- The operation inserts an exchange. -/
def Inserts (aged : AgedExchanges) : ExchangeOp → CompletedExchange → Prop
  | .push exchange, inserted => exchange = inserted
  | .restore exchange, inserted =>
    exchange = inserted ∧ ¬ aged.slots.entries.any (LatestExchanges.holds exchange.peer)
  | _, _ => False

/-- The operation inserts an exchange with a generation that wraps to zero, while that of
another peer is pending. -/
def WrapsBeside (aged : AgedExchanges) (op : ExchangeOp) : Prop :=
  aged.slots.generation = UInt32.ofNat (2 ^ 32 - 1) ∧
    ∃ inserted, aged.Inserts op inserted ∧
      ∃ other ∈ aged.slots.pending, other.peer ≠ inserted.peer

end AgedExchanges

namespace LatestExchanges

variable {slots : LatestExchanges} {stamped : List (UInt32 × CompletedExchange)}

theorem pending_eq_map (slots : LatestExchanges) :
    slots.pending = slots.occupied.map Prod.snd := by
  rw [pending, occupied, List.map_filterMap]
  rfl

theorem mem_occupied {entry : UInt32 × CompletedExchange} :
    entry ∈ slots.occupied ↔ some entry ∈ slots.entries := by
  simp [occupied]

/-- The pending exchanges in an order in which their generations rise to the last one
given. -/
structure Stamped (slots : LatestExchanges) (stamped : List (UInt32 × CompletedExchange)) :
    Prop where
  perm : slots.occupied.Perm stamped
  rising : stamped.Pairwise fun first second => first.1.toNat < second.1.toNat
  bounded : ∀ entry ∈ stamped, entry.1.toNat ≤ slots.generation.toNat
  keyed : ops.Keyed slots

/-- The first one has the least generation, and no other has it. -/
theorem Stamped.least (h : slots.Stamped stamped) {entry : UInt32 × CompletedExchange}
    (hmem : entry ∈ slots.occupied)
    (hleast : ∀ other ∈ slots.occupied, entry.1.toNat ≤ other.1.toNat) :
    ∃ rest, stamped = entry :: rest := by
  have hmem' := h.perm.mem_iff.mp hmem
  cases stamped with
  | nil => exact absurd hmem' List.not_mem_nil
  | cons first rest =>
    rcases List.mem_cons.mp hmem' with rfl | hrest
    · exact ⟨rest, rfl⟩
    · have hlt := (List.pairwise_cons.mp h.rising).1 entry hrest
      have hle := hleast first (h.perm.mem_iff.mpr List.mem_cons_self)
      omega

/-! ### Taking the oldest -/

/-- The entry that is taken is pending, with the least generation. -/
theorem oldestEntry_spec {index : ℕ} {exchange : CompletedExchange}
    (h : slots.oldestEntry = some (index, exchange)) :
    ∃ generation, slots.entries[index]? = some (some (generation, exchange)) ∧
      ∀ other ∈ slots.occupied, generation.toNat ≤ other.1.toNat := by
  simp only [oldestEntry, Option.map_eq_some_iff, Prod.mk.injEq, Prod.exists] at h
  obtain ⟨i, generation, x, hmin, rfl, rfl⟩ := h
  have hmem := List.argmin_mem hmin
  simp only [List.mem_filterMap, Option.map_eq_some_iff, Prod.mk.injEq, Prod.exists] at hmem
  obtain ⟨slot, j, hzip, g, y, rfl, rfl, rfl, rfl⟩ := hmem
  refine ⟨g, List.mk_mem_zipIdx_iff_getElem?.mp hzip, ?_⟩
  intro other hother
  obtain ⟨k, hk, hslot⟩ := List.mem_iff_getElem.mp (mem_occupied.mp hother)
  have hzip' : (slots.entries[k], k) ∈ slots.entries.zipIdx :=
    List.mk_mem_zipIdx_iff_getElem?.mpr (List.getElem?_eq_getElem hk)
  have hle := List.le_of_mem_argmin
    (f := fun entry : ℕ × UInt32 × CompletedExchange => entry.2.1.toNat)
    (List.mem_filterMap.mpr ⟨_, hzip', by rw [hslot]; rfl⟩) hmin
  exact hle

theorem oldestEntry_eq_none : slots.oldestEntry = none ↔ slots.occupied = [] := by
  rw [oldestEntry, Option.map_eq_none_iff, List.argmin_eq_none]
  constructor
  · intro hnone
    rw [List.eq_nil_iff_forall_not_mem]
    intro entry hentry
    obtain ⟨k, hk, hslot⟩ := List.mem_iff_getElem.mp (mem_occupied.mp hentry)
    have hzip : (slots.entries[k], k) ∈ slots.entries.zipIdx :=
      List.mk_mem_zipIdx_iff_getElem?.mpr (List.getElem?_eq_getElem hk)
    have hfree := List.filterMap_eq_nil_iff.mp hnone _ hzip
    rw [hslot] at hfree
    exact absurd hfree (Option.some_ne_none _)
  · intro hnone
    rw [List.filterMap_eq_nil_iff]
    rintro ⟨slot, k⟩ hzip
    cases slot with
    | none => rfl
    | some entry =>
      have hmem := mem_occupied.mpr (List.fst_mem_of_mem_zipIdx hzip)
      rw [hnone] at hmem
      exact absurd hmem List.not_mem_nil

/-- A pop takes the first exchange of a stamped order and leaves the others. -/
theorem Stamped.popOldest (h : slots.Stamped stamped) :
    stamped = [] ∧ slots.popOldest = none ∨
      ∃ entry rest slots', stamped = entry :: rest ∧
        slots.popOldest = some (entry.2, slots') ∧ slots'.Stamped rest := by
  cases hentry : slots.oldestEntry with
  | none =>
    have hnil := h.perm
    rw [oldestEntry_eq_none.mp hentry, List.nil_perm] at hnil
    exact Or.inl ⟨hnil, by rw [LatestExchanges.popOldest, hentry, Option.map_none]⟩
  | some found =>
    obtain ⟨index, exchange⟩ := found
    obtain ⟨generation, hslot, hleast⟩ := oldestEntry_spec hentry
    obtain ⟨hindex, hget⟩ := List.getElem?_eq_some_iff.mp hslot
    have hmem : (generation, exchange) ∈ slots.occupied :=
      mem_occupied.mpr (List.mem_of_getElem? hslot)
    obtain ⟨rest, hrest⟩ := h.least hmem hleast
    have hpop : slots.popOldest = some (exchange,
        ⟨slots.entries.set index none, slots.generation, by simp [slots.size_eq]⟩) := by
      rw [LatestExchanges.popOldest, hentry, Option.map_some]
    refine Or.inr ⟨(generation, exchange), rest, _, hrest, hpop, ?_⟩
    obtain ⟨others, hbefore, hafter⟩ := LatestStore.filterMap_set_perm (id : Slot → _) hindex none
    rw [hget] at hbefore
    have hperm : others.Perm rest := by
      have hboth := hbefore.symm.trans (h.perm.trans (List.Perm.of_eq hrest))
      exact hboth.cons_inv
    rw [hrest] at h
    refine ⟨hafter.trans hperm, (List.pairwise_cons.mp h.rising).2, ?_, ?_⟩
    · intro entry hentry
      exact h.bounded entry (List.mem_cons_of_mem _ hentry)
    · have hkeyed := h.keyed
      have hpending := popOldest_perm hpop
      have hnodup := (hpending.map CompletedExchange.peer).nodup_iff.mp hkeyed
      exact (List.nodup_cons.mp hnodup).2

/-! ### Inserting -/

/-- A push fills one slot under the next generation. -/
theorem push_fills (slots : LatestExchanges) (exchange : CompletedExchange) :
    ∃ index, ∃ _ : index < slots.entries.length,
      (slots.push exchange).1 = slots.bump.fill index exchange ∧
        (slots.FullFor exchange.peer → index = slots.bump.oldestSlot) := by
  unfold push
  dsimp only
  cases hsame : slots.bump.entries.findIdx? (holds exchange.peer) with
  | some index =>
    obtain ⟨hlt, hholds, -⟩ := List.findIdx?_eq_some_iff_getElem.mp hsame
    refine ⟨index, hlt, rfl, ?_⟩
    intro hfull
    obtain ⟨generation, old, hslot, hpeer⟩ := holds_iff.mp hholds
    have hold : old ∈ slots.pending := mem_pending.mpr ⟨generation, hslot ▸ List.getElem_mem hlt⟩
    exact absurd hpeer (hfull.2 old hold)
  | none =>
    cases hfree : slots.bump.entries.findIdx? Option.isNone with
    | some index =>
      obtain ⟨hlt, hempty, -⟩ := List.findIdx?_eq_some_iff_getElem.mp hfree
      refine ⟨index, hlt, rfl, ?_⟩
      intro hfull
      have hnone : none ∈ slots.entries := by
        rw [← Option.isNone_iff_eq_none.mp hempty]
        exact List.getElem_mem hlt
      exact absurd hnone hfull.1
    | none => exact ⟨slots.bump.oldestSlot, slots.bump.oldestSlot_lt, rfl, fun _ => rfl⟩

theorem toNat_succ {generation : UInt32} (h : generation ≠ UInt32.ofNat (2 ^ 32 - 1)) :
    (generation + 1).toNat = generation.toNat + 1 := by
  have hlt := generation.toNat_lt
  have hne : generation.toNat ≠ 2 ^ 32 - 1 := by
    intro heq
    refine h (UInt32.toNat.inj ?_)
    rw [heq]
    rfl
  rw [UInt32.toNat_add, UInt32.toNat_one]
  exact Nat.mod_eq_of_lt (by omega)

theorem Stamped.nodup (h : slots.Stamped stamped) : stamped.Nodup :=
  h.rising.imp fun hlt heq => by
    rw [heq] at hlt
    exact lt_irrefl _ hlt

theorem Stamped.nodup_peers (h : slots.Stamped stamped) :
    (stamped.map fun entry => entry.2.peer).Nodup := by
  have hperm := (h.perm.map Prod.snd).map CompletedExchange.peer
  rw [← pending_eq_map, List.map_map] at hperm
  exact hperm.nodup_iff.mp h.keyed

/-- A push that does not wrap beside another exchange puts its own last. -/
theorem Stamped.push (h : slots.Stamped stamped) {exchange : CompletedExchange}
    (hwraps : slots.generation = UInt32.ofNat (2 ^ 32 - 1) →
      ∀ other ∈ slots.pending, other.peer = exchange.peer) :
    ∃ kept, (slots.push exchange).1.Stamped (kept ++ [(slots.generation + 1, exchange)]) ∧
      kept.map Prod.snd = (stamped.map Prod.snd).filter fun other =>
        other.peer ≠ exchange.peer ∧ other ∈ (slots.push exchange).1.pending := by
  obtain ⟨index, hindex, hpush, -⟩ := slots.push_fills exchange
  have hkeyed : ops.Keyed (slots.push exchange).1 :=
    h.keyed.of_inserts (push_inserts slots exchange h.keyed)
  obtain ⟨rest, hbefore, hafter⟩ :=
    LatestStore.filterMap_set_perm (id : Slot → _) hindex (some (slots.generation + 1, exchange))
  have hoccupied : (slots.push exchange).1.occupied.Perm
      ((slots.generation + 1, exchange) :: rest) := by
    rw [hpush]
    exact hafter
  have hpending : (slots.push exchange).1.pending.Perm (exchange :: rest.map Prod.snd) := by
    rw [pending_eq_map]
    exact hoccupied.map Prod.snd
  have hothers : ∀ entry ∈ rest, entry.2.peer ≠ exchange.peer := by
    have hnodup := (hpending.map CompletedExchange.peer).nodup_iff.mp hkeyed
    intro entry hentry hpeer
    refine (List.nodup_cons.mp hnodup).1 ?_
    rw [← hpeer]
    exact List.mem_map_of_mem (List.mem_map_of_mem hentry)
  have hrest : ∀ entry ∈ rest, entry ∈ stamped := by
    intro entry hentry
    exact h.perm.mem_iff.mp (hbefore.mem_iff.mpr (List.mem_append_right _ hentry))
  have hkept : rest.Perm (stamped.filter fun entry => entry ∈ rest) := by
    have hrestNodup : rest.Nodup := by
      have hall := (hbefore.symm.trans h.perm).nodup_iff.mpr h.nodup
      exact (List.nodup_append.mp hall).2.1
    rw [List.perm_ext_iff_of_nodup hrestNodup (h.nodup.filter _)]
    intro entry
    rw [List.mem_filter, decide_eq_true_iff]
    exact ⟨fun hentry => ⟨hrest entry hentry, hentry⟩, And.right⟩
  have hearlier : ∀ entry ∈ stamped.filter fun entry => entry ∈ rest,
      entry.1.toNat < (slots.generation + 1).toNat := by
    intro entry hentry
    obtain ⟨hmem, hin⟩ := List.mem_filter.mp hentry
    by_cases hmax : slots.generation = UInt32.ofNat (2 ^ 32 - 1)
    · -- nothing else is pending when the generation wraps
      have hother : entry.2 ∈ slots.pending := by
        rw [pending_eq_map]
        exact List.mem_map_of_mem (h.perm.mem_iff.mpr hmem)
      exact absurd (hwraps hmax entry.2 hother) (hothers entry (of_decide_eq_true hin))
    · have hbounded := h.bounded entry hmem
      have hnext := toNat_succ hmax
      omega
  refine ⟨stamped.filter fun entry => entry ∈ rest, ⟨?_, ?_, ?_, hkeyed⟩, ?_⟩
  · exact hoccupied.trans ((List.Perm.cons _ hkept).trans (List.perm_append_singleton _ _).symm)
  · refine List.pairwise_append.mpr ⟨h.rising.sublist List.filter_sublist,
      List.pairwise_singleton _ _, ?_⟩
    intro entry hentry last hlast
    rw [List.mem_singleton.mp hlast]
    exact hearlier entry hentry
  · intro entry hentry
    have hgeneration : (slots.push exchange).1.generation = slots.generation + 1 := by
      rw [hpush]
      rfl
    rw [hgeneration]
    rcases List.mem_append.mp hentry with hentry | hentry
    · exact (hearlier entry hentry).le
    · rw [List.mem_singleton.mp hentry]
  · rw [List.filter_map]
    refine congrArg (List.map Prod.snd) (List.filter_congr ?_)
    intro entry hentry
    refine decide_eq_decide.mpr ?_
    have hmem : entry.2 ∈ (slots.push exchange).1.pending ↔
        entry.2 = exchange ∨ entry.2 ∈ rest.map Prod.snd := by
      rw [hpending.mem_iff, List.mem_cons]
    constructor
    · intro hin
      exact ⟨hothers entry hin, hmem.mpr (Or.inr (List.mem_map_of_mem hin))⟩
    · rintro ⟨hpeer, hin⟩
      rcases hmem.mp hin with heq | hin
      · exact absurd (congrArg CompletedExchange.peer heq) hpeer
      · obtain ⟨twin, htwin, hsame⟩ := List.mem_map.mp hin
        have heq : twin = entry := List.inj_on_of_nodup_map h.nodup_peers (hrest twin htwin)
          hentry (congrArg CompletedExchange.peer hsame)
        exact heq ▸ htwin

/-! ### Evicting the oldest -/

/-- In a full store the oldest slot holds the least generation. -/
theorem oldestSlot_spec (h : none ∉ slots.entries) : ∃ entry,
    slots.entries[slots.oldestSlot]? = some (some entry) ∧
      ∀ other ∈ slots.occupied, entry.1.toNat ≤ other.1.toNat := by
  have hlt := slots.oldestSlot_lt
  unfold oldestSlot at hlt ⊢
  cases hmin : slots.entries.zipIdx.argmin slotAge with
  | none =>
    rw [List.argmin_eq_none, List.zipIdx_eq_nil_iff] at hmin
    rw [hmin] at hlt
    exact absurd hlt (Nat.not_lt_zero _)
  | some oldest =>
    obtain ⟨slot, index⟩ := oldest
    have hmem := List.mk_mem_zipIdx_iff_getElem?.mp (List.argmin_mem hmin)
    cases slot with
    | none => exact absurd (List.mem_of_getElem? hmem) h
    | some entry =>
      refine ⟨entry, hmem, ?_⟩
      intro other hother
      obtain ⟨k, hk, hslot⟩ := List.mem_iff_getElem.mp (mem_occupied.mp hother)
      have hzip : (slots.entries[k], k) ∈ slots.entries.zipIdx :=
        List.mk_mem_zipIdx_iff_getElem?.mpr (List.getElem?_eq_getElem hk)
      have hle := List.le_of_mem_argmin hzip hmin
      rw [hslot] at hle
      exact WithBot.coe_le_coe.mp hle

/-- A push on a full store replaces the first exchange of a stamped order. -/
theorem Stamped.evict (h : slots.Stamped stamped) {exchange : CompletedExchange}
    (hfull : slots.FullFor exchange.peer) :
    (slots.push exchange).1.pending.Perm (exchange :: (stamped.map Prod.snd).tail) := by
  obtain ⟨index, hindex, hpush, hoccupied⟩ := slots.push_fills exchange
  obtain ⟨entry, hslot, hleast⟩ := slots.bump.oldestSlot_spec hfull.1
  rw [← hoccupied hfull] at hslot
  have hget : slots.entries[index] = some entry := (List.getElem?_eq_some_iff.mp hslot).2
  obtain ⟨rest, hbefore, hafter⟩ :=
    LatestStore.filterMap_set_perm (id : Slot → _) hindex (some (slots.generation + 1, exchange))
  rw [hget] at hbefore
  obtain ⟨others, hothers⟩ := h.least (mem_occupied.mpr (List.mem_of_getElem? hslot)) hleast
  have hperm : rest.Perm others := by
    have hboth := hbefore.symm.trans (h.perm.trans (List.Perm.of_eq hothers))
    exact hboth.cons_inv
  rw [hpush, pending_eq_map, hothers, List.map_cons, List.tail_cons]
  exact (hafter.trans (List.Perm.cons _ hperm)).map Prod.snd

end LatestExchanges

/-! ### Runs -/

namespace AgedExchanges

/-- The order is one in which the generations rise. -/
def Rising (aged : AgedExchanges) : Prop :=
  ∃ stamped, aged.slots.Stamped stamped ∧ aged.order = stamped.map Prod.snd

theorem Rising.servesOldest {aged : AgedExchanges} (h : aged.Rising) : aged.ServesOldest := by
  obtain ⟨stamped, hstamped, horder⟩ := h
  refine ⟨?_, ?_⟩
  · rw [horder]
    rcases hstamped.popOldest with ⟨rfl, hpop⟩ | ⟨entry, rest, slots, rfl, hpop, -⟩
    · rw [hpop]
      rfl
    · rw [hpop]
      rfl
  · intro exchange hfull
    rw [horder]
    exact hstamped.evict hfull

theorem rising_empty {slots : LatestExchanges} (h : slots.occupied = []) :
    Rising ⟨slots, []⟩ := by
  refine ⟨[], ⟨List.Perm.of_eq h, List.Pairwise.nil, by simp, ?_⟩, rfl⟩
  have hpending : slots.pending = [] := by
    rw [LatestExchanges.pending_eq_map, h, List.map_nil]
  rw [LatestStore.Ops.Keyed, LatestExchanges.ops_contents, hpending]
  exact List.nodup_nil

theorem Rising.push {aged : AgedExchanges} (h : aged.Rising) {exchange : CompletedExchange}
    (hwraps : aged.slots.generation = UInt32.ofNat (2 ^ 32 - 1) →
      ∀ other ∈ aged.slots.pending, other.peer = exchange.peer) :
    (aged.push exchange).Rising := by
  obtain ⟨stamped, hstamped, horder⟩ := h
  obtain ⟨kept, hkept, hmap⟩ := hstamped.push hwraps
  refine ⟨_, hkept, ?_⟩
  rw [List.map_append, hmap, AgedExchanges.push, horder]
  rfl

theorem Rising.popOldest {aged : AgedExchanges} (h : aged.Rising) : aged.popOldest.Rising := by
  obtain ⟨stamped, hstamped, horder⟩ := h
  unfold AgedExchanges.popOldest
  rcases hstamped.popOldest with ⟨rfl, hpop⟩ | ⟨entry, rest, slots, rfl, hpop, hrest⟩
  · rw [hpop]
    exact ⟨[], hstamped, horder⟩
  · rw [hpop]
    refine ⟨rest, hrest, ?_⟩
    have hpending := LatestExchanges.popOldest_perm hpop
    have hnodup := (hpending.map CompletedExchange.peer).nodup_iff.mp hstamped.keyed
    have hothers : ∀ other ∈ rest.map Prod.snd, other.peer ≠ entry.2.peer := by
      intro other hother hpeer
      refine (List.nodup_cons.mp hnodup).1 ?_
      have hmem : other ∈ slots.pending := by
        rw [LatestExchanges.pending_eq_map]
        exact (hrest.perm.map Prod.snd).mem_iff.mpr hother
      rw [← hpeer]
      exact List.mem_map_of_mem hmem
    dsimp only
    rw [horder, List.map_cons, List.filter_cons_of_neg (by simp)]
    exact List.filter_eq_self.mpr fun other hother => decide_eq_true (hothers other hother)

theorem step_rising {aged next : AgedExchanges} {op : ExchangeOp} (h : aged.Rising)
    (hwraps : ¬ aged.WrapsBeside op) (hstep : aged.step op = some next) : next.Rising := by
  have halone {exchange : CompletedExchange} (hinserts : aged.Inserts op exchange)
      (hmax : aged.slots.generation = UInt32.ofNat (2 ^ 32 - 1)) :
      ∀ other ∈ aged.slots.pending, other.peer = exchange.peer := by
    intro other hother
    by_contra hpeer
    exact hwraps ⟨hmax, exchange, hinserts, other, hother, hpeer⟩
  cases op with
  | push exchange =>
    rw [← Option.some.inj hstep]
    exact h.push (halone rfl)
  | popOldest =>
    rw [← Option.some.inj hstep]
    exact h.popOldest
  | restore exchange =>
    rw [← Option.some.inj hstep, restore]
    split_ifs with htaken
    · exact h
    · exact h.push (halone ⟨rfl, htaken⟩)
  | clear =>
    rw [← Option.some.inj hstep]
    exact rising_empty (by simp [LatestExchanges.occupied, LatestExchanges.clear])

/-- In a run in which no insertion wraps the generation beside another exchange, a pop
takes the oldest exchange and a push on a full store evicts it. -/
theorem oldest_first {ops : List ExchangeOp} {aged : AgedExchanges}
    (hrun : Runs.run step {} ops = some aged)
    (hwraps : Runs.Along step (fun aged op => ¬ aged.WrapsBeside op) {} ops) :
    aged.ServesOldest := by
  refine (Runs.run_invariant_along step Rising _ ?_ ?_ hwraps hrun).servesOldest
  · intro aged op next hrising hop hstep
    exact step_rising hrising hop hstep
  · exact rising_empty (by decide)

/-- An exchange with one of two peers. -/
def peerExchange (second : Bool) : CompletedExchange where
  peer := if second then ⟨1, by decide⟩ else default
  exchangeId := ⟨0⟩
  rangeEventTimeDtu := 0
  missionEventTime := .unavailable
  millimetres := 0
  rssiCdbm := 0
  qualityFlags := 0
  state := {}

/-- The first peer's exchange is replaced after the second peer's came. -/
def replacedRun : List ExchangeOp :=
  [.push (peerExchange false), .push (peerExchange true), .push (peerExchange false)]

theorem oldest_first_replaced : ∃ aged, Runs.run step {} replacedRun = some aged ∧
    aged.slots.popOldest.map Prod.fst = some (peerExchange true) := by
  refine ⟨_, rfl, ?_⟩
  have hrun : Runs.run step {} replacedRun = some _ := rfl
  refine (oldest_first hrun ?_).pop.trans (by decide)
  refine ⟨fun hwraps => ?_, fun first hfirst => ?_⟩
  · exact absurd hwraps.1 (by decide)
  · rw [← Option.some.inj hfirst]
    refine ⟨fun hwraps => ?_, fun second hsecond => ?_⟩
    · exact absurd hwraps.1 (by decide)
    · rw [← Option.some.inj hsecond]
      exact ⟨fun hwraps => absurd hwraps.1 (by decide), fun _ _ => trivial⟩

/-- The store after a number of pushes of one exchange. -/
def pushedOnce (generation : UInt32) : AgedExchanges where
  slots := ⟨[some (generation, peerExchange false), none, none, none, none], generation, rfl⟩
  order := [peerExchange false]

theorem push_pushedOnce (generation : UInt32) :
    (pushedOnce generation).push (peerExchange false) = pushedOnce (generation + 1) := by
  have hslots : ((pushedOnce generation).slots.push (peerExchange false)).1 =
      (pushedOnce (generation + 1)).slots := rfl
  rw [push, hslots]
  rfl

theorem run_replicate (n : ℕ) :
    Runs.run step {} (List.replicate (n + 1) (.push (peerExchange false))) =
      some (pushedOnce (UInt32.ofNat (n + 1))) := by
  induction n with
  | zero => rfl
  | succ n ih =>
    rw [List.replicate_succ', Runs.run_append, ih, Option.bind_some, Runs.run_cons]
    change some ((pushedOnce (UInt32.ofNat (n + 1))).push (peerExchange false)) = _
    rw [push_pushedOnce, UInt32.ofNat_add (n + 1) 1]
    rfl

/-- The second peer's exchange is pushed after as many of the first peer's as the counter
counts, and is popped first. -/
theorem wrapped_exchange_first : ¬ ∀ ops aged, Runs.run step {} ops = some aged →
    aged.slots.popOldest.map Prod.fst = aged.order.head? := by
  intro hall
  have hrun : Runs.run step {} (List.replicate (4294967294 + 1) (.push (peerExchange false)) ++
      [.push (peerExchange true)]) =
        some ((pushedOnce (UInt32.ofNat (4294967294 + 1))).push (peerExchange true)) := by
    rw [Runs.run_append, run_replicate]
    rfl
  have hwrapped := hall _ _ hrun
  exact absurd hwrapped (by decide)

end AgedExchanges

end Mission10.Uwb
