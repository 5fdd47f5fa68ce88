import Mission10.Library.LatestStore
import Mission10.Uwb.HostMessages

/-!
# Latest unsent exchange per peer

Five slots hold unsent exchanges with the generation of their insertion. A push
replaces the exchange of the same peer, fills a free slot, or evicts the oldest
generation, in that order. The store satisfies the laws of a latest-value store
keyed by the peer address.
-/
namespace Mission10.Uwb

abbrev Slot := Option (UInt32 × CompletedExchange)

structure LatestExchanges where
  entries : List Slot
  generation : UInt32
  size_eq : entries.length = maxPeers
  deriving DecidableEq

namespace LatestExchanges

def new : LatestExchanges := ⟨List.replicate maxPeers none, 0, by simp⟩

/-- The slot holds an exchange of this peer. -/
def holds (peer : NodeAddress) (slot : Slot) : Bool :=
  slot.any fun entry => entry.2.peer = peer

/-- Fills one slot under the current generation. -/
def fill (slots : LatestExchanges) (index : ℕ) (exchange : CompletedExchange) :
    LatestExchanges :=
  ⟨slots.entries.set index (some (slots.generation, exchange)), slots.generation,
    by simp [slots.size_eq]⟩

def bump (slots : LatestExchanges) : LatestExchanges :=
  ⟨slots.entries, slots.generation + 1, slots.size_eq⟩

/-- Slots compare by generation; an empty slot is older than any generation. -/
def slotAge (entry : Slot × ℕ) : WithBot ℕ :=
  entry.1.elim ⊥ fun e => (e.1.toNat : WithBot ℕ)

/-- The index of the oldest slot. -/
def oldestSlot (slots : LatestExchanges) : ℕ :=
  ((slots.entries.zipIdx.argmin slotAge).map Prod.snd).getD 0

/-- Inserts the newest exchange for a peer. The second component is true when an
older unsent exchange was replaced. -/
def push (slots : LatestExchanges) (exchange : CompletedExchange) : LatestExchanges × Bool :=
  let slots := slots.bump
  match slots.entries.findIdx? (holds exchange.peer) with
  | some index => (slots.fill index exchange, true)
  | none =>
    match slots.entries.findIdx? Option.isNone with
    | some index => (slots.fill index exchange, false)
    | none => (slots.fill slots.oldestSlot exchange, true)

/-- The index and exchange of the oldest occupied slot. -/
def oldestEntry (slots : LatestExchanges) : Option (ℕ × CompletedExchange) :=
  let occupied := slots.entries.zipIdx.filterMap fun entry =>
    entry.1.map fun e => (entry.2, e.1, e.2)
  (occupied.argmin fun entry => entry.2.1.toNat).map fun entry => (entry.1, entry.2.2)

def popOldest (slots : LatestExchanges) : Option (CompletedExchange × LatestExchanges) :=
  slots.oldestEntry.map fun entry =>
    (entry.2, ⟨slots.entries.set entry.1 none, slots.generation, by simp [slots.size_eq]⟩)

/-- Restores an interrupted transmission unless a newer exchange for the same
peer is already pending. -/
def restore (slots : LatestExchanges) (exchange : CompletedExchange) : LatestExchanges × Bool :=
  if slots.entries.any (holds exchange.peer) then (slots, true) else slots.push exchange

def clear (slots : LatestExchanges) : LatestExchanges :=
  ⟨List.replicate maxPeers none, slots.generation, by simp⟩

/-- The unsent exchanges, in slot order. -/
def pending (slots : LatestExchanges) : List CompletedExchange :=
  slots.entries.filterMap fun slot => slot.map Prod.snd

def ops : LatestStore.Ops LatestExchanges CompletedExchange NodeAddress where
  key := CompletedExchange.peer
  contents := pending
  push := push
  pop := popOldest
  restore := restore
  clear := clear

@[simp] theorem ops_key (exchange : CompletedExchange) : ops.key exchange = exchange.peer := rfl
@[simp] theorem ops_contents (slots : LatestExchanges) : ops.contents slots = slots.pending := rfl

@[simp] theorem pending_new : new.pending = [] := by decide

@[simp] theorem pending_bump (slots : LatestExchanges) : slots.bump.pending = slots.pending := rfl

@[simp] theorem pending_clear (slots : LatestExchanges) : slots.clear.pending = [] := by
  simp [clear, pending]

theorem holds_iff {peer : NodeAddress} {slot : Slot} :
    holds peer slot = true ↔ ∃ generation exchange,
      slot = some (generation, exchange) ∧ exchange.peer = peer := by
  cases slot with
  | none => simp [holds]
  | some entry => obtain ⟨generation, exchange⟩ := entry; simp [holds]

theorem mem_pending {slots : LatestExchanges} {exchange : CompletedExchange} :
    exchange ∈ slots.pending ↔ ∃ generation, some (generation, exchange) ∈ slots.entries := by
  simp only [pending, List.mem_filterMap, Option.map_eq_some_iff, Prod.exists]
  constructor
  · rintro ⟨slot, hslot, generation, x, rfl, rfl⟩
    exact ⟨generation, hslot⟩
  · rintro ⟨generation, hmem⟩
    exact ⟨_, hmem, generation, exchange, rfl, rfl⟩

theorem any_holds_iff {slots : LatestExchanges} {peer : NodeAddress} :
    slots.entries.any (holds peer) = true ↔ ∃ y ∈ slots.pending, y.peer = peer := by
  simp only [List.any_eq_true, holds_iff, mem_pending]
  constructor
  · rintro ⟨_, hmem, generation, exchange, rfl, hpeer⟩
    exact ⟨exchange, ⟨generation, hmem⟩, hpeer⟩
  · rintro ⟨exchange, ⟨generation, hmem⟩, hpeer⟩
    exact ⟨_, hmem, generation, exchange, rfl, hpeer⟩

theorem fill_inserts {slots : LatestExchanges} {index : ℕ} {exchange : CompletedExchange}
    (h : index < slots.entries.length) (hkeyed : ops.Keyed slots) {replaced : Bool}
    (hflag : replaced = slots.entries[index].isSome)
    (hpeer : ∀ y ∈ slots.pending, y.peer = exchange.peer →
      slots.entries[index].map Prod.snd = some y) :
    ops.Inserts slots exchange (slots.fill index exchange, replaced) := by
  obtain ⟨rest, hold, hnew⟩ := LatestStore.filterMap_set_perm (fun s : Slot => s.map Prod.snd) h
    (some (slots.generation, exchange))
  refine ⟨(slots.entries[index].map Prod.snd).toList, rest, hold, hnew, ?_, ?_⟩
  · cases hs : slots.entries[index] <;> simp [hflag, hs]
  · intro y hy hyp
    have hmem : y ∈ slots.pending := hold.mem_iff.mpr (List.mem_append_right _ hy)
    have hhead := hpeer y hmem hyp
    -- the slot's own exchange would then occur twice among distinct peers
    have hk := (hold.map CompletedExchange.peer).nodup_iff.mp hkeyed
    rw [hhead] at hk
    simp only [Option.toList_some, List.singleton_append, List.map_cons, List.nodup_cons] at hk
    exact hk.1 (List.mem_map_of_mem hy)

theorem oldestSlot_lt (slots : LatestExchanges) : slots.oldestSlot < slots.entries.length := by
  have hpos : 0 < slots.entries.length := by rw [slots.size_eq]; decide
  unfold oldestSlot
  cases hmin : slots.entries.zipIdx.argmin slotAge with
  | none => simpa using hpos
  | some entry =>
    have hmem := List.argmin_mem hmin
    have := List.snd_lt_of_mem_zipIdx hmem
    simpa using this

theorem push_inserts (slots : LatestExchanges) (exchange : CompletedExchange)
    (hkeyed : ops.Keyed slots) : ops.Inserts slots exchange (slots.push exchange) := by
  change ops.Inserts slots.bump exchange (slots.push exchange)
  have hkeyed' : ops.Keyed slots.bump := hkeyed
  cases hsame : slots.bump.entries.findIdx? (holds exchange.peer) with
  | some index =>
    rw [show slots.push exchange = (slots.bump.fill index exchange, true) by
      simp only [push, hsame]]
    obtain ⟨hlt, hholds, -⟩ := List.findIdx?_eq_some_iff_getElem.mp hsame
    obtain ⟨generation, old, hslot, hpeer⟩ := holds_iff.mp hholds
    refine fill_inserts hlt hkeyed' (by simp [hslot]) fun y hy hyp => ?_
    have hold : old ∈ slots.bump.pending :=
      mem_pending.mpr ⟨generation, hslot ▸ List.getElem_mem hlt⟩
    rw [hslot]
    exact congrArg some (List.inj_on_of_nodup_map hkeyed' hold hy (hpeer.trans hyp.symm))
  | none =>
    have hnone : ∀ y ∈ slots.bump.pending, y.peer ≠ exchange.peer := by
      intro y hy hyp
      obtain ⟨slot, hmem, hslot⟩ := List.any_eq_true.mp (any_holds_iff.mpr ⟨y, hy, hyp⟩)
      have hfree := List.findIdx?_eq_none_iff.mp hsame slot hmem
      simp [hslot] at hfree
    cases hfree : slots.bump.entries.findIdx? Option.isNone with
    | some index =>
      rw [show slots.push exchange = (slots.bump.fill index exchange, false) by
        simp only [push, hsame, hfree]]
      obtain ⟨hlt, hempty, -⟩ := List.findIdx?_eq_some_iff_getElem.mp hfree
      refine fill_inserts hlt hkeyed' ?_ fun y hy hyp => absurd hyp (hnone y hy)
      simp [Option.isNone_iff_eq_none.mp hempty]
    | none =>
      rw [show slots.push exchange = (slots.bump.fill slots.bump.oldestSlot exchange, true) by
        simp only [push, hsame, hfree]]
      refine fill_inserts slots.bump.oldestSlot_lt hkeyed' ?_
        fun y hy hyp => absurd hyp (hnone y hy)
      have hfull := List.findIdx?_eq_none_iff.mp hfree _
        (List.getElem_mem slots.bump.oldestSlot_lt)
      simpa [Option.isSome_iff_ne_none] using hfull

theorem popOldest_perm {slots slots' : LatestExchanges} {exchange : CompletedExchange}
    (h : slots.popOldest = some (exchange, slots')) :
    slots.pending.Perm (exchange :: slots'.pending) := by
  unfold popOldest oldestEntry at h
  simp only [Option.map_map, Option.map_eq_some_iff, Function.comp_apply, Prod.mk.injEq] at h
  obtain ⟨⟨index, generation, x⟩, hmin, rfl, rfl⟩ := h
  have hmem := List.argmin_mem hmin
  simp only [List.mem_filterMap, Option.map_eq_some_iff, Prod.mk.injEq, Prod.exists] at hmem
  obtain ⟨slot, i, hzip, g, y, rfl, rfl, rfl, rfl⟩ := hmem
  obtain ⟨hlt, hslot⟩ := List.mem_zipIdx' hzip
  obtain ⟨rest, hold, hnew⟩ := LatestStore.filterMap_set_perm (fun s : Slot => s.map Prod.snd) hlt none
  rw [← hslot] at hold
  exact hold.trans (List.Perm.cons y (by simpa [pending] using hnew.symm))

theorem ops_lawful : ops.Lawful where
  push := push_inserts
  pop_some _ _ _ h := popOldest_perm h
  restore_taken slots exchange htaken := by
    have hany : slots.entries.any (holds exchange.peer) = true := any_holds_iff.mpr htaken
    simp [ops, restore, hany]
  restore_free slots exchange hkeyed hfree := by
    have hany : ¬ slots.entries.any (holds exchange.peer) = true := by
      rw [any_holds_iff]
      rintro ⟨y, hy, hpeer⟩
      exact hfree y hy hpeer
    have hrestore : ops.restore slots exchange = slots.push exchange := if_neg hany
    rw [hrestore]
    exact push_inserts slots exchange hkeyed
  clear := pending_clear

end LatestExchanges

end Mission10.Uwb
