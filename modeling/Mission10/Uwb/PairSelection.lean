import Mission10.Uwb.Firmware

/-!
# The order of the pairs and the choice of the next one

The two indices of the iterator walk through the pairs of a roster row by row, so
every unordered pair of its nodes has one index, below the number of state slots.
The scheduler's two selections agree: there is a due pair exactly when the smallest
due time has come, and the pair returned is the one with that time.
-/
namespace Mission10.Uwb

/-- The iterator over the pairs of a roster. -/
structure PairIter where
  roster : FlightRoster
  lower : ℕ
  upper : ℕ

namespace FlightRoster

def iterPairs (roster : FlightRoster) : PairIter := ⟨roster, 0, 1⟩

end FlightRoster

namespace PairIter

def next (iter : PairIter) : Option (Pair × PairIter) :=
  match iter.roster.nodes[iter.lower]?, iter.roster.nodes[iter.upper]? with
  | some first, some second =>
    (Pair.new first second).map fun pair =>
      if iter.roster.nodes.length ≤ iter.upper + 1 then
        (pair, { iter with lower := iter.lower + 1, upper := iter.lower + 2 })
      else (pair, { iter with upper := iter.upper + 1 })
  | _, _ => none

/-- Calls `next` until it returns nothing. -/
def collect : ℕ → PairIter → Option (List Pair)
  | 0, _ => none
  | fuel + 1, iter =>
    match iter.next with
    | none => some []
    | some (pair, iter) => (collect fuel iter).map (pair :: ·)

end PairIter

namespace FlightRoster

/-- In a sorted list the pairs of a node with the later ones are all there. -/
theorem filterMap_new {lower : NodeAddress} {rest : List NodeAddress}
    (h : ∀ node ∈ rest, lower < node) :
    rest.filterMap (Pair.new lower) = rest.map fun node => ⟨lower, node⟩ := by
  induction rest with
  | nil => rfl
  | cons node rest ih =>
    have hnode := h node List.mem_cons_self
    rw [List.filterMap_cons_some (Pair.new_of_lt hnode),
      ih fun other hother => h other (List.mem_cons_of_mem _ hother), List.map_cons]

theorem pairsOf_nodup {nodes : List NodeAddress} (h : nodes.Pairwise (· < ·)) :
    (pairsOf nodes).Nodup := by
  induction nodes with
  | nil => exact List.nodup_nil
  | cons lower rest ih =>
    obtain ⟨hlower, hrest⟩ := List.pairwise_cons.mp h
    rw [pairsOf, filterMap_new hlower, List.nodup_append]
    refine ⟨?_, ih hrest, ?_⟩
    · rw [List.Nodup, List.pairwise_map]
      refine hrest.imp fun {a b} hab heq => ?_
      exact NodeAddress.ne_of_lt hab (congrArg Pair.responder heq)
    · intro pair hpair other hother heq
      obtain ⟨node, _, rfl⟩ := List.mem_map.mp hpair
      have hmem := ((mem_pairsOf hrest other).mp hother).1
      rw [← heq] at hmem
      exact NodeAddress.lt_irrefl lower (hlower lower hmem)

theorem length_pairsOf {nodes : List NodeAddress} (h : nodes.Pairwise (· < ·)) :
    2 * (pairsOf nodes).length = nodes.length * (nodes.length - 1) := by
  induction nodes with
  | nil => rfl
  | cons lower rest ih =>
    obtain ⟨hlower, hrest⟩ := List.pairwise_cons.mp h
    have hcount := ih hrest
    rw [pairsOf, filterMap_new hlower, List.length_append, List.length_map, List.length_cons,
      Nat.mul_add, hcount, Nat.add_sub_cancel]
    cases rest.length with
    | zero => rfl
    | succ k =>
      rw [Nat.add_sub_cancel]
      ring

theorem nodes_pairwise (roster : FlightRoster) : roster.nodes.Pairwise (· < ·) :=
  List.isChain_iff_pairwise.mp roster.sorted

theorem pairs_nodup (roster : FlightRoster) : roster.pairs.Nodup :=
  pairsOf_nodup roster.nodes_pairwise

/-- There is a state slot for every pair. -/
theorem length_pairs_le (roster : FlightRoster) : roster.pairs.length ≤ maxPairs := by
  have hcount : 2 * roster.pairs.length = _ := length_pairsOf roster.nodes_pairwise
  have hnodes : roster.nodes.length ≤ 6 := roster.count_valid.2
  have hbound : roster.nodes.length * (roster.nodes.length - 1) ≤ 6 * 5 :=
    Nat.mul_le_mul hnodes (by omega)
  unfold maxPairs
  omega

end FlightRoster

/-! ### The iterator -/

namespace PairIter

/-- The pairs that are left to enumerate. -/
def left (iter : PairIter) : List Pair :=
  match iter.roster.nodes[iter.lower]? with
  | none => []
  | some first =>
    (iter.roster.nodes.drop iter.upper).filterMap (Pair.new first) ++
      FlightRoster.pairsOf (iter.roster.nodes.drop (iter.lower + 1))

/-- The second index is behind the first, and within the nodes until the last row. -/
structure Within (iter : PairIter) : Prop where
  ordered : iter.lower < iter.upper
  bounded : iter.upper < iter.roster.nodes.length ∨ iter.roster.nodes.length ≤ iter.lower + 1

/-- A row starts with the pairs of its node. -/
theorem left_row (iter : PairIter) (hupper : iter.upper = iter.lower + 1) :
    iter.left = FlightRoster.pairsOf (iter.roster.nodes.drop iter.lower) := by
  unfold left
  cases hfirst : iter.roster.nodes[iter.lower]? with
  | none =>
    rw [List.getElem?_eq_none_iff] at hfirst
    rw [List.drop_eq_nil_of_le hfirst]
    rfl
  | some first =>
    obtain ⟨hlt, hget⟩ := List.getElem?_eq_some_iff.mp hfirst
    rw [List.drop_eq_getElem_cons hlt, hget, hupper]
    rfl

theorem next_left {iter : PairIter} (h : iter.Within) :
    (iter.next = none ∧ iter.left = []) ∨
      ∃ pair rest, iter.next = some (pair, rest) ∧ rest.Within ∧ iter.left = pair :: rest.left := by
  cases hfirst : iter.roster.nodes[iter.lower]? with
  | none =>
    refine Or.inl ⟨?_, ?_⟩
    · rw [next, hfirst]
    · rw [left, hfirst]
  | some first =>
    cases hsecond : iter.roster.nodes[iter.upper]? with
    | none =>
      rw [List.getElem?_eq_none_iff] at hsecond
      have hlast : iter.roster.nodes.length ≤ iter.lower + 1 :=
        h.bounded.resolve_left (by omega)
      refine Or.inl ⟨?_, ?_⟩
      · rw [next, hfirst, List.getElem?_eq_none hsecond]
      · rw [left, hfirst]
        dsimp only
        rw [List.drop_eq_nil_of_le hsecond, List.drop_eq_nil_of_le hlast]
        rfl
    | some second =>
      right
      obtain ⟨hlower, hgetfirst⟩ := List.getElem?_eq_some_iff.mp hfirst
      obtain ⟨hupper, hgetsecond⟩ := List.getElem?_eq_some_iff.mp hsecond
      have hlt : first < second := by
        rw [← hgetfirst, ← hgetsecond]
        exact List.pairwise_iff_getElem.mp iter.roster.nodes_pairwise _ _ hlower hupper h.ordered
      have hleft : iter.left = ⟨first, second⟩ ::
          ((iter.roster.nodes.drop (iter.upper + 1)).filterMap (Pair.new first) ++
            FlightRoster.pairsOf (iter.roster.nodes.drop (iter.lower + 1))) := by
        rw [left, hfirst]
        dsimp only
        rw [List.drop_eq_getElem_cons hupper, hgetsecond,
          List.filterMap_cons_some (Pair.new_of_lt hlt)]
        rfl
      have hnext : iter.next = some (if iter.roster.nodes.length ≤ iter.upper + 1 then
          (⟨first, second⟩, { iter with lower := iter.lower + 1, upper := iter.lower + 2 })
          else (⟨first, second⟩, { iter with upper := iter.upper + 1 })) := by
        rw [next, hfirst, hsecond]
        dsimp only
        rw [Pair.new_of_lt hlt]
        rfl
      have hordered := h.ordered
      by_cases hend : iter.roster.nodes.length ≤ iter.upper + 1
      · refine ⟨⟨first, second⟩, { iter with lower := iter.lower + 1, upper := iter.lower + 2 },
          ?_, ?_, ?_⟩
        · rw [hnext, if_pos hend]
        · exact ⟨Nat.lt_succ_self _, by dsimp only; omega⟩
        · rw [hleft, left_row _ rfl, List.drop_eq_nil_of_le hend]
          rfl
      · refine ⟨⟨first, second⟩, { iter with upper := iter.upper + 1 }, ?_, ?_, ?_⟩
        · rw [hnext, if_neg hend]
        · exact ⟨Nat.lt_succ_of_lt h.ordered, Or.inl (by dsimp only; omega)⟩
        · rw [hleft, left, hfirst]

/-- With enough calls the iterator returns all that is left. -/
theorem collect_left (fuel : ℕ) :
    ∀ iter : PairIter, iter.Within → iter.left.length < fuel →
      collect fuel iter = some iter.left := by
  induction fuel with
  | zero =>
    intro iter _ hfuel
    omega
  | succ fuel ih =>
    intro iter h hfuel
    rcases next_left h with ⟨hnext, hleft⟩ | ⟨pair, rest, hnext, hrest, hleft⟩
    · rw [collect, hnext, hleft]
    · rw [hleft, List.length_cons] at hfuel
      rw [collect, hnext, hleft]
      dsimp only
      rw [ih rest hrest (by omega)]
      rfl

end PairIter

theorem collect_iterPairs (roster : FlightRoster) {fuel : ℕ} (h : maxPairs < fuel) :
    PairIter.collect fuel roster.iterPairs = some roster.pairs := by
  have hcount := roster.count_valid
  have hwithin : roster.iterPairs.Within :=
    ⟨Nat.zero_lt_one, Or.inl (by show 1 < roster.nodes.length; omega)⟩
  have hleft : roster.iterPairs.left = roster.pairs := PairIter.left_row _ rfl
  have hlength := roster.length_pairs_le
  rw [PairIter.collect_left fuel _ hwithin (by rw [hleft]; omega), hleft]

/-! ### The index of a pair -/

theorem pairIndex_eq_some {roster : FlightRoster} {pair : Pair} {index : ℕ} :
    pairIndex roster pair = some index ↔ roster.pairs[index]? = some pair := by
  unfold pairIndex
  rw [List.findIdx?_eq_some_iff_getElem]
  constructor
  · rintro ⟨hlt, hhit, _⟩
    rw [decide_eq_true_eq] at hhit
    rw [List.getElem?_eq_getElem hlt, hhit]
  · intro hget
    obtain ⟨hlt, heq⟩ := List.getElem?_eq_some_iff.mp hget
    refine ⟨hlt, decide_eq_true heq, fun j hj => ?_⟩
    rw [decide_eq_true_eq]
    intro hsame
    have hindex := (List.Nodup.getElem_inj_iff roster.pairs_nodup).mp (hsame.trans heq.symm)
    omega

/-! ### The selections -/

/-- A pair this node initiates, with its state. -/
def Initiates (roster : FlightRoster) (localNode : NodeAddress) (pairStates : List PairMacState)
    (pair : Pair) (state : PairMacState) : Prop :=
  pair.initiator = localNode ∧
    ∃ index : ℕ, roster.pairs[index]? = some pair ∧ pairStates[index]? = some state

theorem mem_zip_iff_getElem? {α β : Type*} {xs : List α} {ys : List β} {x : α} {y : β} :
    (x, y) ∈ xs.zip ys ↔ ∃ index : ℕ, xs[index]? = some x ∧ ys[index]? = some y := by
  rw [List.mem_iff_getElem?]
  simp [List.getElem?_zip_eq_some]

theorem mem_filter_initiates {roster : FlightRoster} {localNode : NodeAddress}
    {pairStates : List PairMacState} {pair : Pair} {state : PairMacState} :
    (pair, state) ∈ (roster.pairs.zip pairStates).filter (fun entry =>
      entry.1.initiator = localNode) ↔ Initiates roster localNode pairStates pair state := by
  rw [List.mem_filter, mem_zip_iff_getElem?, decide_eq_true_eq, Initiates, and_comm]

/-- The pair returned is due, and no due pair comes before it. -/
theorem duePair_least {roster : FlightRoster} {localNode : NodeAddress} {nowUs : UInt64}
    {pairStates : List PairMacState} {pair : Pair}
    (h : duePair roster localNode nowUs pairStates = some pair) :
    ∃ state, Initiates roster localNode pairStates pair state ∧ state.isDue nowUs = true ∧
      ∀ other otherState, Initiates roster localNode pairStates other otherState →
        otherState.isDue nowUs = true →
        state.nextDueUs < otherState.nextDueUs ∨
          state.nextDueUs = otherState.nextDueUs ∧ pair.responder ≤ other.responder := by
  unfold duePair at h
  obtain ⟨⟨chosen, state⟩, hargmin, rfl⟩ := Option.map_eq_some_iff.mp h
  have hmem := List.argmin_mem hargmin
  rw [List.mem_filter, Bool.and_eq_true, decide_eq_true_eq, mem_zip_iff_getElem?] at hmem
  obtain ⟨hindex, hinitiator, hdue⟩ := hmem
  refine ⟨state, ⟨hinitiator, hindex⟩, hdue, fun other otherState hother hotherDue => ?_⟩
  have hcandidate : (other, otherState) ∈ (roster.pairs.zip pairStates).filter fun entry =>
      entry.1.initiator = localNode && entry.2.isDue nowUs := by
    rw [List.mem_filter, Bool.and_eq_true, decide_eq_true_eq, mem_zip_iff_getElem?]
    exact ⟨hother.2, hother.1, hotherDue⟩
  have hleast := List.le_of_mem_argmin hcandidate hargmin
  rw [Prod.Lex.toLex_le_toLex] at hleast
  rcases hleast with hlt | ⟨heq, hpair⟩
  · exact Or.inl (UInt64.lt_iff_toNat_lt.mpr hlt)
  · refine Or.inr ⟨UInt64.toNat_inj.mp heq, ?_⟩
    rw [Prod.Lex.toLex_le_toLex] at hpair
    rcases hpair with hlt | ⟨_, hresponder⟩
    · have hsame : chosen.initiator = other.initiator := hinitiator.trans hother.1.symm
      rw [hsame] at hlt
      exact absurd hlt (Nat.lt_irrefl _)
    · exact UInt16.le_iff_toNat_le.mpr hresponder

theorem duePair_isSome {roster : FlightRoster} {localNode : NodeAddress} {nowUs : UInt64}
    {pairStates : List PairMacState} :
    (∃ pair, duePair roster localNode nowUs pairStates = some pair) ↔
      ∃ pair state, Initiates roster localNode pairStates pair state ∧
        state.isDue nowUs = true := by
  constructor
  · rintro ⟨pair, h⟩
    obtain ⟨state, hinitiates, hdue, _⟩ := duePair_least h
    exact ⟨pair, state, hinitiates, hdue⟩
  · rintro ⟨pair, state, hinitiates, hdue⟩
    unfold duePair
    dsimp only
    generalize hkey : (fun entry : Pair × PairMacState => toLex (entry.2.nextDueUs.toNat,
      toLex (entry.1.initiator.get.toNat, entry.1.responder.get.toNat))) = key
    cases hargmin : ((roster.pairs.zip pairStates).filter fun entry =>
        entry.1.initiator = localNode && entry.2.isDue nowUs).argmin key with
    | some entry => exact ⟨entry.1, rfl⟩
    | none =>
      rw [List.argmin_eq_none, List.filter_eq_nil_iff] at hargmin
      have hentry := hargmin (pair, state) (mem_zip_iff_getElem?.mpr hinitiates.2)
      exact absurd (by simp [hinitiates.1, hdue]) hentry

/-- The smallest due time of the pairs this node initiates. -/
theorem nextDueUs_eq_some {roster : FlightRoster} {localNode : NodeAddress} {t : UInt64}
    {pairStates : List PairMacState}
    (h : Firmware.nextDueUs roster localNode pairStates = some t) :
    (∃ pair state, Initiates roster localNode pairStates pair state ∧ state.nextDueUs = t) ∧
      ∀ pair state, Initiates roster localNode pairStates pair state → t ≤ state.nextDueUs := by
  obtain ⟨least, hmin, rfl⟩ := Option.map_eq_some_iff.mp h
  obtain ⟨hmem, hleast⟩ := List.min?_eq_some_iff.mp hmin
  obtain ⟨⟨pair, state⟩, hentry, rfl⟩ := List.mem_map.mp hmem
  rw [UInt64.ofNat_toNat]
  refine ⟨⟨pair, state, mem_filter_initiates.mp hentry, rfl⟩, fun other otherState hother => ?_⟩
  rw [UInt64.le_iff_toNat_le]
  exact hleast _ (List.mem_map_of_mem (mem_filter_initiates.mpr hother))

theorem nextDueUs_eq_none {roster : FlightRoster} {localNode : NodeAddress}
    {pairStates : List PairMacState}
    (h : Firmware.nextDueUs roster localNode pairStates = none) (pair : Pair)
    (state : PairMacState) : ¬ Initiates roster localNode pairStates pair state := by
  intro hinitiates
  unfold Firmware.nextDueUs at h
  rw [Option.map_eq_none_iff, List.min?_eq_none_iff, List.map_eq_nil_iff] at h
  have hentry := mem_filter_initiates.mpr hinitiates
  rw [h] at hentry
  cases hentry

/-- The pairs of a roster and their indices. -/
structure PairOrder (roster : FlightRoster) : Prop where
  enumerated : ∀ fuel, maxPairs < fuel →
    PairIter.collect fuel roster.iterPairs = some roster.pairs
  once : roster.pairs.Nodup
  ordered : ∀ pair ∈ roster.pairs, pair.initiator < pair.responder
  complete : ∀ a ∈ roster.nodes, ∀ b ∈ roster.nodes, a ≠ b →
    ∃! pair, pair ∈ roster.pairs ∧ (pair = ⟨a, b⟩ ∨ pair = ⟨b, a⟩)
  sound : ∀ pair ∈ roster.pairs, pair.initiator ∈ roster.nodes ∧ pair.responder ∈ roster.nodes
  index : ∀ pair index, pairIndex roster pair = some index ↔ roster.pairs[index]? = some pair
  slots : ∀ pair index, pairIndex roster pair = some index → index < maxPairs

theorem pairOrder (roster : FlightRoster) : PairOrder roster where
  enumerated := fun fuel h => collect_iterPairs roster h
  once := roster.pairs_nodup
  ordered := fun pair hpair => ((roster.mem_pairs pair).mp hpair).2.2
  complete := by
    intro a ha b hb hne
    rcases NodeAddress.lt_or_gt_of_ne hne with hlt | hlt
    · refine ⟨⟨a, b⟩, ⟨(FlightRoster.mem_pairsOf roster.nodes_pairwise _).mpr ⟨ha, hb, hlt⟩,
        Or.inl rfl⟩, ?_⟩
      rintro pair ⟨hpair, rfl | rfl⟩
      · rfl
      · exact absurd ((roster.mem_pairs _).mp hpair).2.2 (NodeAddress.lt_asymm hlt)
    · refine ⟨⟨b, a⟩, ⟨(FlightRoster.mem_pairsOf roster.nodes_pairwise _).mpr ⟨hb, ha, hlt⟩,
        Or.inr rfl⟩, ?_⟩
      rintro pair ⟨hpair, rfl | rfl⟩
      · exact absurd ((roster.mem_pairs _).mp hpair).2.2 (NodeAddress.lt_asymm hlt)
      · rfl
  sound := by
    intro pair hpair
    have hnodes := (FlightRoster.mem_pairsOf roster.nodes_pairwise pair).mp hpair
    exact ⟨hnodes.1, hnodes.2.1⟩
  index := fun pair index => pairIndex_eq_some
  slots := by
    intro pair index h
    obtain ⟨hlt, _⟩ := List.getElem?_eq_some_iff.mp (pairIndex_eq_some.mp h)
    exact hlt.trans_le roster.length_pairs_le

/-- The pairs of a roster are enumerated once each, and the scheduler's two selections
agree on the pair that is due first. -/
theorem scheduler_selection (roster : FlightRoster) (localNode : NodeAddress) (nowUs : UInt64)
    (pairStates : List PairMacState) (hslots : pairStates.length = maxPairs)
    (hinitialized : ∀ pair state, Initiates roster localNode pairStates pair state →
      state.initialized = true) :
    PairOrder roster ∧
    (∀ pair ∈ roster.pairs, ∃ index state, pairIndex roster pair = some index ∧
      pairStates[index]? = some state) ∧
    (∀ pair, duePair roster localNode nowUs pairStates = some pair →
      ∃ state, Initiates roster localNode pairStates pair state ∧ state.isDue nowUs = true ∧
        ∀ other otherState, Initiates roster localNode pairStates other otherState →
          otherState.isDue nowUs = true →
          state.nextDueUs < otherState.nextDueUs ∨
            state.nextDueUs = otherState.nextDueUs ∧ pair.responder ≤ other.responder) ∧
    ((∃ pair, duePair roster localNode nowUs pairStates = some pair) ↔
      ∃ t, Firmware.nextDueUs roster localNode pairStates = some t ∧ t ≤ nowUs) := by
  refine ⟨pairOrder roster, ?_, fun pair h => duePair_least h, ?_⟩
  · intro pair hpair
    obtain ⟨index, hindex⟩ := pairIndex_isSome hpair
    have hslot : index < pairStates.length := hslots ▸ (pairOrder roster).slots pair index hindex
    exact ⟨index, pairStates[index], hindex, List.getElem?_eq_getElem hslot⟩
  rw [duePair_isSome]
  constructor
  · rintro ⟨pair, state, hinitiates, hdue⟩
    cases hnext : Firmware.nextDueUs roster localNode pairStates with
    | none => exact absurd hinitiates (nextDueUs_eq_none hnext pair state)
    | some t =>
      have hleast := (nextDueUs_eq_some hnext).2 pair state hinitiates
      rw [PairMacState.isDue, Bool.and_eq_true, decide_eq_true_eq] at hdue
      exact ⟨t, rfl, UInt64.le_trans hleast hdue.2⟩
  · rintro ⟨t, hnext, hle⟩
    obtain ⟨⟨pair, state, hinitiates, rfl⟩, _⟩ := nextDueUs_eq_some hnext
    refine ⟨pair, state, hinitiates, ?_⟩
    rw [PairMacState.isDue, hinitialized pair state hinitiates, Bool.true_and, decide_eq_true_eq]
    exact hle

/-- Two radios: node 0 initiates their one pair, which falls due at 1000. -/
theorem scheduler_selection_two :
    ∃ pair, duePair ⟨[.aircraft 0, .aircraft 1], by decide, by decide⟩ (.aircraft 0) 1000
      (List.replicate 15 { nextDueUs := 1000, randomState := 7, initialized := true }) =
        some pair := by
  refine (scheduler_selection ⟨[.aircraft 0, .aircraft 1], by decide, by decide⟩ (.aircraft 0) 1000
    (List.replicate 15 { nextDueUs := 1000, randomState := 7, initialized := true })
    (by decide) ?_).2.2.2.mpr ⟨1000, by decide, by decide⟩
  rintro pair state ⟨_, index, _, hstate⟩
  obtain ⟨_, rfl⟩ := List.getElem?_eq_some_iff.mp hstate
  rw [List.getElem_replicate]

end Mission10.Uwb
