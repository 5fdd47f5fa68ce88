import Mission10.Sensing.FrameCopies
import Mathlib.Algebra.Order.Ring.Int
import Mathlib.Data.Nat.Cast.Order.Basic

/-!
# Leases on frames

A local consumer borrows a slot by taking a lease on the frame in it. The owner
counts the leases of each slot and reserves only slots without one; a lease is
granted only on a slot that holds a frame. With one reservation at a time the
reserved slot is never one that holds a frame, so no slot is reserved and leased
at once, and a leased slot keeps its frame until the lease is released.
-/
namespace Mission10.Sensing

open VersionedCell Runs

/-- A reservation is made only when none is outstanding. -/
def OneReservation (pool : Pool) : Pool.Event → Prop
  | .call .beginWrite => ∀ owner ∈ pool.owner, owner.reserved = []
  | _ => True

instance (pool : Pool) (event : Pool.Event) : Decidable (OneReservation pool event) := by
  unfold OneReservation
  split
  · infer_instance
  · infer_instance

namespace FrameLease

/-- The lease still holds the slot. -/
def On (slot : ℕ) (lease : FrameLease) : Bool :=
  !lease.released && decide (lease.metadata.slot = slot)

theorem on_iff {slot : ℕ} {lease : FrameLease} :
    lease.On slot = true ↔ lease.released = false ∧ lease.metadata.slot = slot := by
  simp [On]

end FrameLease

/-- The books of an owner: what it counts, what it has reserved and what it has
still to store. -/
structure Accounted (layout : Layout) (memory : Memory) (owner : Owner) : Prop where
  counts : ∀ slot, owner.leases slot = (owner.granted.countP (FrameLease.On slot) : ℤ)
  single : owner.reserved.length ≤ 1
  busy : owner.pending ≠ [] → owner.reserved = []
  reserved : ∀ slot ∈ owner.reserved, memory.generation slot % 2 = 1 ∧ owner.leases slot = 0
  pending : ∀ next ∈ owner.pending, ∀ slot, Memory.target next = some slot → owner.leases slot = 0
  leased : ∀ lease ∈ owner.granted, lease.released = false →
    lease.metadata.slot < layout.slots ∧ Closed (memory.generation lease.metadata.slot) ∧
      memory.control lease.metadata.slot .sequence = lease.metadata.sequence

namespace Accounted

variable {layout : Layout} {memory : Memory} {owner : Owner}

theorem leases_nonneg (h : Accounted layout memory owner) (slot : ℕ) : 0 ≤ owner.leases slot := by
  rw [h.counts]
  exact Int.natCast_nonneg _

theorem leases_ne_zero_iff (h : Accounted layout memory owner) (slot : ℕ) :
    owner.leases slot ≠ 0 ↔
      ∃ lease ∈ owner.granted, lease.released = false ∧ lease.metadata.slot = slot := by
  have hpos : owner.leases slot ≠ 0 ↔ 0 < owner.granted.countP (FrameLease.On slot) := by
    rw [h.counts]
    omega
  rw [hpos, List.countP_pos_iff]
  simp only [FrameLease.on_iff]

theorem leases_ne_zero (h : Accounted layout memory owner) {lease : FrameLease}
    (hlease : lease ∈ owner.granted) (hheld : lease.released = false) :
    owner.leases lease.metadata.slot ≠ 0 :=
  (h.leases_ne_zero_iff _).mpr ⟨lease, hlease, hheld, rfl⟩

/-- No slot is reserved and leased at once. -/
theorem not_reserved (h : Accounted layout memory owner) {lease : FrameLease}
    (hlease : lease ∈ owner.granted) (hheld : lease.released = false) :
    lease.metadata.slot ∉ owner.reserved :=
  fun hreserved => h.leases_ne_zero hlease hheld (h.reserved _ hreserved).2

/-- The books are right in another memory that has the leased slots as they
were and the reserved ones still reserved. -/
theorem congr {memory' : Memory} (h : Accounted layout memory owner)
    (hleased : ∀ slot, owner.leases slot ≠ 0 → memory'.control slot = memory.control slot)
    (hreserved : ∀ slot ∈ owner.reserved, memory'.generation slot % 2 = 1) :
    Accounted layout memory' owner where
  counts := h.counts
  single := h.single
  busy := h.busy
  reserved := fun slot hslot => ⟨hreserved slot hslot, (h.reserved slot hslot).2⟩
  pending := h.pending
  leased := by
    intro lease hlease hheld
    obtain ⟨hslot, hclosed, hsequence⟩ := h.leased lease hlease hheld
    have hsame := hleased _ (h.leases_ne_zero hlease hheld)
    unfold Memory.generation at hclosed ⊢
    rw [hsame]
    exact ⟨hslot, hclosed, hsequence⟩

theorem create (layout : Layout) (memory memory' : Memory) :
    Accounted layout memory' (.create layout memory) where
  counts := fun _ => rfl
  single := Nat.zero_le _
  busy := fun _ => rfl
  reserved := fun _ hslot => absurd hslot List.not_mem_nil
  pending := fun _ _ _ _ => rfl
  leased := fun _ hlease => absurd hlease List.not_mem_nil

end Accounted

namespace Owner

variable {layout : Layout} {memory memory' : Memory} {owner owner' : Owner}

theorem freeSlot_some {slot : ℕ} (h : owner.freeSlot layout = some slot) :
    owner.leases slot = 0 := by
  have hfound := List.find?_some h
  exact of_decide_eq_true hfound

/-- The cursor passes every slot. -/
theorem cursor_reaches (nextSlot : ℕ) {slot slots : ℕ} (hslot : slot < slots) :
    ∃ offset < slots, (nextSlot + offset) % slots = slot := by
  have hcursor : nextSlot % slots < slots := Nat.mod_lt _ (by omega)
  refine ⟨(slot + (slots - nextSlot % slots)) % slots, Nat.mod_lt _ (by omega), ?_⟩
  have hround : nextSlot % slots + (slot + (slots - nextSlot % slots)) = slot + slots := by omega
  rw [Nat.add_mod_mod, ← Nat.mod_add_mod, hround, Nat.add_mod_right, Nat.mod_eq_of_lt hslot]

theorem freeSlot_none (h : owner.freeSlot layout = none) :
    ∀ slot < layout.slots, owner.leases slot ≠ 0 := by
  intro slot hslot
  unfold freeSlot at h
  rw [List.find?_eq_none] at h
  obtain ⟨offset, hoffset, hreached⟩ := cursor_reaches owner.nextSlot hslot
  have hleased := h slot (List.mem_map.mpr ⟨offset, List.mem_range.mpr hoffset, hreached⟩)
  simpa using hleased

theorem freeSlot_of_full (h : (owner.beginWrite layout memory).2 = .full) :
    owner.freeSlot layout = none := by
  unfold beginWrite at h
  split at h
  · assumption
  · dsimp only at h
    split at h
    · contradiction
    · contradiction

theorem beginWrite_frames (layout : Layout) (memory : Memory) (owner : Owner) :
    (owner.beginWrite layout memory).1.1.frames = memory.frames := by
  unfold beginWrite
  split
  · rfl
  · dsimp only
    split <;> rfl

theorem beginWrite_accounted (h : Accounted layout memory owner) (hnone : owner.reserved = [])
    (hpending : owner.pending = [])
    (hbegin : (owner.beginWrite layout memory).1 = (memory', owner')) :
    Accounted layout memory' owner' ∧
      ∀ slot, owner.leases slot ≠ 0 → memory'.control slot = memory.control slot := by
  unfold beginWrite at hbegin
  split at hbegin
  · obtain ⟨rfl, rfl⟩ := Prod.mk.inj hbegin
    exact ⟨⟨h.counts, h.single, h.busy, h.reserved, h.pending, h.leased⟩, fun _ _ => rfl⟩
  · rename_i slot hslot
    have hfree := freeSlot_some hslot
    dsimp only at hbegin
    split at hbegin
    · obtain ⟨rfl, rfl⟩ := Prod.mk.inj hbegin
      have hothers : ∀ other, owner.leases other ≠ 0 →
          (memory.store (.field slot .generation (reservedGeneration
            (memory.generation slot)))).control other = memory.control other := by
        intro other hother
        refine Memory.store_control_of_ne memory ?_
        rintro ⟨⟩
        exact hother hfree
      have hbooks := h.congr hothers (by simp [hnone])
      refine ⟨⟨hbooks.counts, ?_, ?_, ?_, hbooks.pending, hbooks.leased⟩, hothers⟩
      · simp [hnone]
      · exact fun hne => absurd hpending hne
      · intro other hother
        obtain rfl : other = slot := by simpa [hnone] using hother
        rw [Memory.store_generation_self]
        refine ⟨?_, hfree⟩
        unfold reservedGeneration
        split <;> omega
    · obtain ⟨rfl, rfl⟩ := Prod.mk.inj hbegin
      exact ⟨⟨h.counts, h.single, h.busy, h.reserved, h.pending, h.leased⟩, fun _ _ => rfl⟩

/-- A completed reservation leaves none. -/
theorem eraseIdx_reserved (h : Accounted layout memory owner) {index : ℕ}
    (hindex : index < owner.reserved.length) : owner.reserved.eraseIdx index = [] := by
  have hsingle := h.single
  apply List.eq_nil_of_length_eq_zero
  rw [List.length_eraseIdx_of_lt hindex]
  omega

theorem commitStores_target {metadata : FrameMetadata} {oddGeneration : ℕ}
    {payload : List UInt8} {next : Store} {slot : ℕ}
    (hnext : next ∈ commitStores metadata oddGeneration payload)
    (htarget : Memory.target next = some slot) : slot = metadata.slot := by
  unfold commitStores at hnext
  dsimp only at hnext
  rcases List.mem_append.mp hnext with hnext | hnext
  · obtain ⟨field, -, rfl⟩ := List.mem_map.mp hnext
    exact (Option.some.inj htarget).symm
  · split at hnext
    · simp only [List.mem_cons, List.not_mem_nil, or_false] at hnext
      rcases hnext with rfl | rfl | rfl
      · exact (Option.some.inj htarget).symm
      · contradiction
      · contradiction
    · exact absurd hnext List.not_mem_nil

theorem commit_accounted (h : Accounted layout memory owner) {index : ℕ} {stamps : Stamps}
    (hcommit : owner.commit layout memory index stamps = some owner') :
    Accounted layout memory owner' := by
  unfold commit at hcommit
  split at hcommit
  · contradiction
  · rename_i slot hslot
    have hnone := eraseIdx_reserved h (List.getElem?_eq_some_iff.mp hslot).1
    have hfree := (h.reserved slot (List.mem_of_getElem? hslot)).2
    dsimp only at hcommit
    rw [hnone] at hcommit
    split at hcommit
    · rw [← Option.some.inj hcommit]
      exact ⟨h.counts, Nat.zero_le _, fun _ => rfl, fun _ hmem => absurd hmem List.not_mem_nil,
        h.pending, h.leased⟩
    · rw [← Option.some.inj hcommit]
      refine ⟨h.counts, Nat.zero_le _, fun _ => rfl, fun _ hmem => absurd hmem List.not_mem_nil,
        fun next hnext other htarget => ?_, h.leased⟩
      have hsame : other = slot := commitStores_target hnext htarget
      exact hsame ▸ hfree

theorem lease_accounted (h : Accounted layout memory owner) {metadata : FrameMetadata}
    (hpending : owner.pending = []) (hlease : owner.lease layout memory metadata = some owner') :
    Accounted layout memory owner' := by
  unfold lease at hlease
  split at hlease
  · rename_i hslot
    split at hlease
    · rw [← Option.some.inj hlease]
      exact h
    · rename_i current hread
      split at hlease
      · rename_i hsequence
        rw [← Option.some.inj hlease]
        obtain ⟨hclosed, rfl⟩ := readMeta_some hread
        have hopen : ∀ slot ∈ owner.reserved, slot ≠ metadata.slot := by
          rintro slot hslot rfl
          exact not_closed_of_odd (h.reserved _ hslot).1 hclosed
        refine ⟨fun slot => ?_, h.single, h.busy, fun slot hreserved => ?_, ?_, ?_⟩
        · rw [List.countP_append, List.countP_singleton, Nat.cast_add, ← h.counts]
          by_cases heq : slot = metadata.slot
          · subst heq
            simp [FrameLease.On]
          · simp [FrameLease.On, heq, Ne.symm heq]
        · obtain ⟨hodd, hfree⟩ := h.reserved slot hreserved
          exact ⟨hodd, (Function.update_of_ne (hopen slot hreserved) _ _).trans hfree⟩
        · intro next hnext
          exact absurd (hpending ▸ hnext) List.not_mem_nil
        · intro held hheld hreleased
          rcases List.mem_append.mp hheld with hheld | hheld
          · exact h.leased held hheld hreleased
          · rw [List.mem_singleton.mp hheld]
            exact ⟨hslot, hclosed, hsequence⟩
      · rw [← Option.some.inj hlease]
        exact h
  · contradiction

theorem release_accounted (h : Accounted layout memory owner) {index : ℕ}
    (hpending : owner.pending = []) (hrelease : owner.release index = some owner') :
    Accounted layout memory owner' := by
  unfold release at hrelease
  split at hrelease
  · contradiction
  · rename_i lease hlease
    split at hrelease
    · rw [← Option.some.inj hrelease]
      exact h
    · rename_i hheld
      rw [Bool.not_eq_true] at hheld
      obtain ⟨hindex, hget⟩ := List.getElem?_eq_some_iff.mp hlease
      have hmem : lease ∈ owner.granted := List.mem_of_getElem? hlease
      have hcount := h.leases_ne_zero hmem hheld
      have hpos : ¬ owner.leases lease.metadata.slot ≤ 0 := by
        have hnonneg := h.leases_nonneg lease.metadata.slot
        omega
      dsimp only at hrelease
      rw [if_neg hpos] at hrelease
      rw [← Option.some.inj hrelease]
      refine ⟨fun slot => ?_, h.single, h.busy, fun slot hreserved => ?_, ?_, ?_⟩
      · have hset := List.countP_set (p := FrameLease.On slot) (a := { lease with released := true })
          hindex
        rw [hget] at hset
        dsimp only
        rw [hset]
        by_cases heq : slot = lease.metadata.slot
        · subst heq
          have hwas : lease.On lease.metadata.slot = true := FrameLease.on_iff.mpr ⟨hheld, rfl⟩
          have his : FrameLease.On lease.metadata.slot { lease with released := true } = false := by
            simp [FrameLease.On]
          have hcounted := h.counts lease.metadata.slot
          rw [Function.update_self, hwas, his]
          simp only [if_true, Bool.false_eq_true, if_false]
          omega
        · rw [Function.update_of_ne heq, h.counts]
          simp [FrameLease.On, Ne.symm heq]
      · obtain ⟨hodd, hfree⟩ := h.reserved slot hreserved
        refine ⟨hodd, (Function.update_of_ne ?_ _ _).trans hfree⟩
        rintro rfl
        exact hcount hfree
      · intro next hnext
        exact absurd (hpending ▸ hnext) List.not_mem_nil
      · intro held hmem' hreleased
        rcases List.mem_or_eq_of_mem_set hmem' with hmem' | rfl
        · exact h.leased held hmem' hreleased
        · contradiction

/-- One call: the books stay right, and a leased slot stays as it is. -/
theorem call_accounted (h : Accounted layout memory owner) (hpending : owner.pending = [])
    {made : Call} (hone : made = .beginWrite → owner.reserved = [])
    (hcall : owner.call layout memory made = some (memory', owner')) :
    Accounted layout memory' owner' ∧ ∀ slot, owner.leases slot ≠ 0 →
      memory'.control slot = memory.control slot ∧ memory'.frames slot = memory.frames slot := by
  cases made with
  | beginWrite =>
    simp only [call, Option.some.injEq] at hcall
    obtain ⟨hbooks, hothers⟩ := beginWrite_accounted h (hone rfl) hpending hcall
    have hframes := owner.beginWrite_frames layout memory
    rw [hcall] at hframes
    exact ⟨hbooks, fun slot hslot => ⟨hothers slot hslot, congrFun hframes slot⟩⟩
  | write index offset byte =>
    simp only [call] at hcall
    split at hcall
    · contradiction
    · rename_i slot hslot
      split at hcall
      · simp only [Option.some.injEq, Prod.mk.injEq] at hcall
        obtain ⟨rfl, rfl⟩ := hcall
        have hreserved := h.reserved slot (List.mem_of_getElem? hslot)
        refine ⟨h.congr (fun _ _ => rfl) fun other hother => (h.reserved other hother).1, ?_⟩
        intro other hother
        refine ⟨rfl, Function.update_of_ne ?_ _ _⟩
        rintro rfl
        exact hother hreserved.2
      · contradiction
  | commit index stamps =>
    simp only [call, Option.map_eq_some_iff, Prod.mk.injEq] at hcall
    obtain ⟨owner'', hcommit, rfl, rfl⟩ := hcall
    exact ⟨commit_accounted h hcommit, fun _ _ => ⟨rfl, rfl⟩⟩
  | abort index =>
    simp only [call] at hcall
    split at hcall
    · rename_i hindex
      simp only [Option.some.injEq, Prod.mk.injEq] at hcall
      obtain ⟨rfl, rfl⟩ := hcall
      rw [eraseIdx_reserved h hindex]
      exact ⟨⟨h.counts, Nat.zero_le _, fun _ => rfl, fun _ hmem => absurd hmem List.not_mem_nil,
        h.pending, h.leased⟩, fun _ _ => ⟨rfl, rfl⟩⟩
    · contradiction
  | lease metadata =>
    simp only [call, Option.map_eq_some_iff, Prod.mk.injEq] at hcall
    obtain ⟨owner'', hlease, rfl, rfl⟩ := hcall
    exact ⟨lease_accounted h hpending hlease, fun _ _ => ⟨rfl, rfl⟩⟩
  | release index =>
    simp only [call, Option.map_eq_some_iff, Prod.mk.injEq] at hcall
    obtain ⟨owner'', hrelease, rfl, rfl⟩ := hcall
    exact ⟨release_accounted h hpending hrelease, fun _ _ => ⟨rfl, rfl⟩⟩

/-- One store of the call in progress. -/
theorem store_accounted (h : Accounted layout memory owner) {next : Store} {pending : List Store}
    (hpending : owner.pending = next :: pending) :
    Accounted layout (memory.store next) { owner with pending } ∧
      ∀ slot, owner.leases slot ≠ 0 →
        (memory.store next).control slot = memory.control slot := by
  have hnone := h.busy (by simp [hpending])
  have hothers : ∀ slot, owner.leases slot ≠ 0 →
      (memory.store next).control slot = memory.control slot := by
    intro slot hslot
    refine Memory.store_control_of_ne memory fun htarget => hslot ?_
    exact h.pending next (by simp [hpending]) slot htarget
  have hbooks := h.congr hothers (by simp [hnone])
  refine ⟨⟨hbooks.counts, hbooks.single, fun _ => hnone, hbooks.reserved, ?_, hbooks.leased⟩,
    hothers⟩
  intro other hother
  exact h.pending other (by simp [hpending, hother])

/-- Each lease of `owner` is one of `owner'`, and is not un-released. -/
def KeepsLeases (owner owner' : Owner) : Prop :=
  ∀ (index : ℕ) (lease : FrameLease), owner.granted[index]? = some lease →
    ∃ lease', owner'.granted[index]? = some lease' ∧ lease'.metadata = lease.metadata ∧
      (lease'.released = false → lease.released = false)

theorem KeepsLeases.of_eq (h : owner'.granted = owner.granted) : owner.KeepsLeases owner' :=
  fun _ lease hlease => ⟨lease, h ▸ hlease, rfl, id⟩

theorem lease_keeps {metadata : FrameMetadata}
    (hlease : owner.lease layout memory metadata = some owner') : owner.KeepsLeases owner' := by
  unfold lease at hlease
  split at hlease
  · split at hlease
    · exact .of_eq (congrArg granted (Option.some.inj hlease)).symm
    · split at hlease
      · rw [← Option.some.inj hlease]
        intro index lease hget
        refine ⟨lease, ?_, rfl, id⟩
        dsimp only
        rw [List.getElem?_append_left (List.getElem?_eq_some_iff.mp hget).1]
        exact hget
      · exact .of_eq (congrArg granted (Option.some.inj hlease)).symm
  · contradiction

theorem release_keeps {index : ℕ} (hrelease : owner.release index = some owner') :
    owner.KeepsLeases owner' := by
  unfold release at hrelease
  split at hrelease
  · contradiction
  · rename_i lease hlease
    split at hrelease
    · exact .of_eq (congrArg granted (Option.some.inj hrelease)).symm
    · rw [← Option.some.inj hrelease]
      intro other lease' hget
      dsimp only
      by_cases heq : index = other
      · subst heq
        obtain rfl := Option.some.inj (hlease.symm.trans hget)
        refine ⟨{ lease with released := true }, ?_, rfl, fun h => by contradiction⟩
        exact List.getElem?_set_self (List.getElem?_eq_some_iff.mp hget).1
      · exact ⟨lease', (List.getElem?_set_ne heq).trans hget, rfl, id⟩

theorem call_keeps {made : Call}
    (hcall : owner.call layout memory made = some (memory', owner')) :
    owner.KeepsLeases owner' := by
  cases made with
  | beginWrite =>
    simp only [call, Option.some.injEq] at hcall
    refine .of_eq ?_
    rw [beginWrite] at hcall
    split at hcall
    · exact (congrArg (fun after => after.2.granted) hcall).symm
    · dsimp only at hcall
      split at hcall
      · exact (congrArg (fun after => after.2.granted) hcall).symm
      · exact (congrArg (fun after => after.2.granted) hcall).symm
  | write index offset byte =>
    simp only [call] at hcall
    split at hcall
    · contradiction
    · split at hcall
      · simp only [Option.some.injEq, Prod.mk.injEq] at hcall
        exact .of_eq (congrArg granted hcall.2).symm
      · contradiction
  | commit index stamps =>
    simp only [call, Option.map_eq_some_iff, Prod.mk.injEq] at hcall
    obtain ⟨owner'', hcommit, rfl, rfl⟩ := hcall
    unfold commit at hcommit
    split at hcommit
    · contradiction
    · dsimp only at hcommit
      split at hcommit
      · exact .of_eq (congrArg granted (Option.some.inj hcommit)).symm
      · exact .of_eq (congrArg granted (Option.some.inj hcommit)).symm
  | abort index =>
    simp only [call] at hcall
    split at hcall
    · simp only [Option.some.injEq, Prod.mk.injEq] at hcall
      exact .of_eq (congrArg granted hcall.2).symm
    · contradiction
  | lease metadata =>
    simp only [call, Option.map_eq_some_iff, Prod.mk.injEq] at hcall
    obtain ⟨owner'', hlease, rfl, rfl⟩ := hcall
    exact lease_keeps hlease
  | release index =>
    simp only [call, Option.map_eq_some_iff, Prod.mk.injEq] at hcall
    obtain ⟨owner'', hrelease, rfl, rfl⟩ := hcall
    exact release_keeps hrelease

end Owner

/-- The owner's books along a run. -/
structure Kept (layout : Layout) (pool : Pool) : Prop where
  published : Published layout pool
  accounted : ∀ owner, pool.owner = some owner → Accounted layout pool.memory owner

/-- The owner of the second pool is that of the first, and what its leases hold
in the second they have held since the first. -/
def Pool.LeasesHold (pool pool' : Pool) : Prop :=
  ∀ owner, pool.owner = some owner → ∃ owner', pool'.owner = some owner' ∧
    ∀ (index : ℕ) (lease : FrameLease), owner.granted[index]? = some lease →
      ∃ lease', owner'.granted[index]? = some lease' ∧ lease'.metadata = lease.metadata ∧
        (lease'.released = false → lease.released = false ∧
          pool'.memory.control lease.metadata.slot = pool.memory.control lease.metadata.slot ∧
          pool'.memory.frames lease.metadata.slot = pool.memory.frames lease.metadata.slot)

namespace Pool

variable {layout : Layout} {pool pool' : Pool} {event : Event}

theorem LeasesHold.refl (pool : Pool) : pool.LeasesHold pool :=
  fun owner howner => ⟨owner, howner, fun _ lease hlease =>
    ⟨lease, hlease, rfl, fun hheld => ⟨hheld, rfl, rfl⟩⟩⟩

theorem LeasesHold.trans {a b c : Pool} (hab : a.LeasesHold b) (hbc : b.LeasesHold c) :
    a.LeasesHold c := by
  intro owner howner
  obtain ⟨owner', howner', hfirst⟩ := hab owner howner
  obtain ⟨owner'', howner'', hlast⟩ := hbc owner' howner'
  refine ⟨owner'', howner'', fun index lease hlease => ?_⟩
  obtain ⟨lease', hlease', hsame', hheld'⟩ := hfirst index lease hlease
  obtain ⟨lease'', hlease'', hsame'', hheld''⟩ := hlast index lease' hlease'
  refine ⟨lease'', hlease'', hsame''.trans hsame', fun hheld => ?_⟩
  obtain ⟨hmid, hcontrol'', hframes''⟩ := hheld'' hheld
  obtain ⟨hstart, hcontrol', hframes'⟩ := hheld' hmid
  rw [hsame'] at hcontrol'' hframes''
  exact ⟨hstart, hcontrol''.trans hcontrol', hframes''.trans hframes'⟩

/-- With one reservation at a time, payloads go into reserved slots only. -/
theorem Kept.writesOpen (h : Kept layout pool) : WritesOpen pool event := by
  unfold WritesOpen
  split
  · rename_i index offset byte
    intro owner howner slot hslot
    exact ((h.accounted owner howner).reserved slot (List.mem_of_getElem? hslot)).1
  · trivial

theorem leasesHold_of_keeps {owner owner' : Owner} (hbooks : Accounted layout pool.memory owner)
    (howner : pool.owner = some owner) (howner' : pool'.owner = some owner')
    (hkeeps : owner.KeepsLeases owner')
    (hsame : ∀ slot, owner.leases slot ≠ 0 →
      pool'.memory.control slot = pool.memory.control slot ∧
        pool'.memory.frames slot = pool.memory.frames slot) : pool.LeasesHold pool' := by
  intro owner₀ howner₀
  obtain rfl := Option.some.inj (howner.symm.trans howner₀)
  refine ⟨owner', howner', fun index lease hlease => ?_⟩
  obtain ⟨lease', hlease', hmetadata, hheld⟩ := hkeeps index lease hlease
  refine ⟨lease', hlease', hmetadata, fun hheld' => ⟨hheld hheld', ?_⟩⟩
  exact hsame _ (hbooks.leases_ne_zero (List.mem_of_getElem? hlease) (hheld hheld'))

/-- One step of a run with one reservation at a time. -/
theorem step_kept (hkept : Kept layout pool) (hone : OneReservation pool event)
    (h : pool.step layout event = some pool') :
    Kept layout pool' ∧ (event ≠ .die → pool.LeasesHold pool') := by
  have hpublished := (step_published hkept.published (Kept.writesOpen hkept) h).1
  cases event with
  | create =>
    simp only [step] at h
    split at h
    · contradiction
    · rename_i hnone
      rw [← Option.some.inj h] at hpublished ⊢
      refine ⟨⟨hpublished, fun owner howner => ?_⟩, fun _ owner howner => ?_⟩
      · rw [← Option.some.inj howner]
        exact Accounted.create layout _ _
      · exact absurd (hnone.symm.trans howner) (by simp)
  | call made =>
    simp only [step] at h
    split at h
    · contradiction
    · rename_i owner howner
      split at h
      · rename_i hidle
        rw [List.isEmpty_iff] at hidle
        rw [Option.map_eq_some_iff] at h
        obtain ⟨⟨memory', owner'⟩, hcall, rfl⟩ := h
        have hbooks := hkept.accounted owner howner
        have hnone : made = .beginWrite → owner.reserved = [] := by
          rintro rfl
          exact hone owner howner
        obtain ⟨hbooks', hsame⟩ := Owner.call_accounted hbooks hidle hnone hcall
        refine ⟨⟨hpublished, fun owner'' howner'' => ?_⟩, fun _ => ?_⟩
        · exact Option.some.inj howner'' ▸ hbooks'
        · exact leasesHold_of_keeps hbooks howner rfl (Owner.call_keeps hcall) hsame
      · contradiction
  | store =>
    simp only [step] at h
    split at h
    · contradiction
    · rename_i owner howner
      split at h
      · contradiction
      · rename_i next pending hpending
        rw [← Option.some.inj h] at hpublished ⊢
        have hbooks := hkept.accounted owner howner
        obtain ⟨hbooks', hsame⟩ := Owner.store_accounted hbooks hpending
        refine ⟨⟨hpublished, fun owner'' howner'' => ?_⟩, fun _ => ?_⟩
        · exact Option.some.inj howner'' ▸ hbooks'
        · refine leasesHold_of_keeps hbooks howner rfl (.of_eq rfl) fun slot hslot => ?_
          exact ⟨hsame slot hslot, congrFun (Memory.store_frames _ _) slot⟩
  | die =>
    rw [← Option.some.inj h] at hpublished ⊢
    exact ⟨⟨hpublished, fun owner howner => by contradiction⟩, fun hdie => absurd rfl hdie⟩
  | read move =>
    simp only [step, Option.map_eq_some_iff] at h
    obtain ⟨reader, -, rfl⟩ := h
    exact ⟨⟨hpublished, hkept.accounted⟩, fun _ => LeasesHold.refl pool⟩

theorem start_kept (layout : Layout) : Kept layout start where
  published := start_published layout
  accounted := fun owner howner => by contradiction

end Pool

/-- Between two states of a run with one reservation at a time, a lease that is
not released in the second has kept its slot since the first: unreserved, and
holding the frame of the lease's sequence. Lease counts count the leases, and a
reservation is refused only when every slot has one. -/
theorem leases_hold {layout : Layout} {front back : List Pool.Event} {pool pool' : Pool}
    {owner owner' : Owner}
    (hone : Along (Pool.step layout) OneReservation Pool.start (front ++ back))
    (hfront : run (Pool.step layout) Pool.start front = some pool)
    (hback : run (Pool.step layout) pool back = some pool') (hlives : .die ∉ back)
    (howner : pool.owner = some owner) (howner' : pool'.owner = some owner') :
    (∀ (index : ℕ) (lease : FrameLease), owner.granted[index]? = some lease →
      owner'.granted[index]? = some lease → lease.released = false →
        lease.metadata.slot ∉ owner'.reserved ∧
        pool'.memory.control lease.metadata.slot = pool.memory.control lease.metadata.slot ∧
        pool'.memory.frames lease.metadata.slot = pool.memory.frames lease.metadata.slot ∧
        ∃ frame ∈ pool.memory.committed,
          frame.metadata.sequence = lease.metadata.sequence ∧
            pool'.memory.Holds layout lease.metadata.slot frame) ∧
      (∀ slot, owner'.leases slot = (owner'.granted.countP (FrameLease.On slot) : ℤ)) ∧
      (∀ slot, 0 ≤ owner'.leases slot) ∧
      ((owner'.beginWrite layout pool'.memory).2 = .full →
        ∀ slot < layout.slots, ∃ lease ∈ owner'.granted,
          lease.released = false ∧ lease.metadata.slot = slot) := by
  obtain ⟨hone, hone'⟩ := (along_append (Pool.step layout) hfront).mp hone
  have hkept := run_invariant_along (Pool.step layout) (Kept layout) _
    (fun _ _ _ hkept hone h => (Pool.step_kept hkept hone h).1) (Pool.start_kept layout) hone hfront
  have hkept' := run_invariant_along (Pool.step layout) (Kept layout) _
    (fun _ _ _ hkept hone h => (Pool.step_kept hkept hone h).1) hkept hone' hback
  have hbooks := hkept.accounted owner howner
  have hbooks' := hkept'.accounted owner' howner'
  refine ⟨fun index lease hlease hlease' hheld => ?_, hbooks'.counts, hbooks'.leases_nonneg, ?_⟩
  · have hholds := run_relates_along (Pool.step layout) (Kept layout)
      (fun pool event => event ≠ .die ∧ OneReservation pool event) Pool.LeasesHold
      Pool.LeasesHold.refl (fun _ _ _ => Pool.LeasesHold.trans)
      (fun _ _ _ hkept hmeets h =>
        ⟨(Pool.step_kept hkept hmeets.2 h).1, (Pool.step_kept hkept hmeets.2 h).2 hmeets.1⟩)
      hkept (hone'.and_mem _ fun event hevent heq => hlives (heq ▸ hevent)) hback
    obtain ⟨owner'', howner'', hsame⟩ := hholds owner howner
    obtain rfl := Option.some.inj (howner'.symm.trans howner'')
    obtain ⟨lease', hget, -, hkeeps⟩ := hsame index lease hlease
    obtain rfl := Option.some.inj (hlease'.symm.trans hget)
    obtain ⟨-, hcontrol, hframes⟩ := hkeeps hheld
    have hmem := List.mem_of_getElem? hlease
    obtain ⟨-, hclosed, hsequence⟩ := hbooks.leased lease hmem hheld
    obtain ⟨frame, hframe, hholds⟩ := hkept.published.recorded _ hclosed
    refine ⟨hbooks'.not_reserved (List.mem_of_getElem? hlease') hheld, hcontrol, hframes, frame,
      hframe, ?_, hholds.congr hcontrol hframes⟩
    rw [hholds.1]
    exact hsequence
  · intro hfull slot hslot
    exact (hbooks'.leases_ne_zero_iff slot).mp
      (Owner.freeSlot_none (Owner.freeSlot_of_full hfull) slot hslot)

/-- The frame of one byte that the first commit of an owner publishes. -/
def firstMetadata : FrameMetadata := ⟨1, 0, 0, 0, 0, 1, 0, 2⟩

/-- A frame is leased and the next one is published: the lease keeps its slot. -/
theorem leases_hold_byte :
    ∃ pool pool' owner owner',
      run (Pool.step threeBytes) Pool.start
          (publishByte threeBytes 1 ++ [.call (.lease firstMetadata)]) = some pool ∧
        run (Pool.step threeBytes) pool
          ([.call .beginWrite, .call (.write 0 0 2), .call (.commit 0 ⟨0, 0, 0, 0, none⟩)] ++
            List.replicate 10 .store ++ [.call .beginWrite]) = some pool' ∧
        pool.owner = some owner ∧ pool'.owner = some owner' ∧
        0 ∉ owner'.reserved ∧ pool'.memory.frames 0 = pool.memory.frames 0 ∧
        (∀ slot, 0 ≤ owner'.leases slot) := by
  have hone : Along (Pool.step threeBytes) OneReservation Pool.start
      ((publishByte threeBytes 1 ++ [.call (.lease firstMetadata)]) ++
        ([.call .beginWrite, .call (.write 0 0 2), .call (.commit 0 ⟨0, 0, 0, 0, none⟩)] ++
          List.replicate 10 .store ++ [.call .beginWrite])) := by decide +kernel
  have hfront : ((run (Pool.step threeBytes) Pool.start
      (publishByte threeBytes 1 ++ [.call (.lease firstMetadata)])).any fun pool =>
        pool.owner.any fun owner => owner.granted[0]? = some ⟨firstMetadata, false⟩) = true := by
    decide +kernel
  have hboth : ((run (Pool.step threeBytes) Pool.start
      ((publishByte threeBytes 1 ++ [.call (.lease firstMetadata)]) ++
        ([.call .beginWrite, .call (.write 0 0 2), .call (.commit 0 ⟨0, 0, 0, 0, none⟩)] ++
          List.replicate 10 .store ++ [.call .beginWrite]))).any fun pool =>
        pool.owner.any fun owner => owner.granted[0]? = some ⟨firstMetadata, false⟩) = true := by
    decide +kernel
  simp only [Option.any_eq_true, decide_eq_true_eq] at hfront hboth
  obtain ⟨pool, hpool, owner, howner, hlease⟩ := hfront
  obtain ⟨pool', hpool', owner', howner', hlease'⟩ := hboth
  obtain ⟨middle, hmiddle, hback⟩ := run_append_some _ hpool'
  obtain rfl := Option.some.inj (hpool.symm.trans hmiddle)
  have hsafe := leases_hold hone hpool hback (by simp) howner howner'
  obtain ⟨hreserved, -, hframes, -⟩ := hsafe.1 0 _ hlease hlease' rfl
  exact ⟨pool, pool', owner, owner', hpool, hback, howner, howner', hreserved, hframes,
    hsafe.2.2.1⟩

end Mission10.Sensing
