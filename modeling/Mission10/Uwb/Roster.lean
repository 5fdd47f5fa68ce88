import Mission10.Uwb.HostMessages

/-!
# The pairs of a roster

A roster holds the local node and its peers in address order, and its pairs are
all ordered choices of two of its nodes. What the scheduler selects is one of
the pairs the local node initiates.
-/
namespace Mission10.Uwb

namespace NodeAddress

theorem lt_asymm {a b : NodeAddress} (h : a < b) : ¬ b < a := by
  rw [lt_iff] at h ⊢
  omega

theorem ne_of_lt {a b : NodeAddress} (h : a < b) : a ≠ b := by
  rintro rfl
  exact lt_irrefl a h

end NodeAddress

namespace Pair

theorem new_eq_some {a b : NodeAddress} {pair : Pair} (h : new a b = some pair) :
    a ≠ b ∧ (pair = ⟨a, b⟩ ∧ a < b ∨ pair = ⟨b, a⟩ ∧ b < a) := by
  unfold new at h
  split_ifs at h with hne hlt
  · exact ⟨hne, Or.inl ⟨(Option.some.inj h).symm, hlt⟩⟩
  · rcases NodeAddress.lt_or_gt_of_ne hne with hab | hba
    · exact absurd hab hlt
    · exact ⟨hne, Or.inr ⟨(Option.some.inj h).symm, hba⟩⟩

theorem new_comm (a b : NodeAddress) : new a b = new b a := by
  by_cases hne : a = b
  · rw [hne]
  · rcases NodeAddress.lt_or_gt_of_ne hne with h | h
    · rw [new_of_lt h, new_of_gt h]
    · rw [new_of_gt h, new_of_lt h]

@[simp] theorem new_self (a : NodeAddress) : new a a = none := by simp [new]

end Pair

namespace FlightRoster

theorem new_perm {localNode : NodeAddress} {peers : List NodeAddress} {roster : FlightRoster}
    (h : new localNode peers = some roster) :
    roster.nodes.Perm (localNode :: peers) ∧ localNode ∉ peers := by
  unfold new at h
  dsimp only at h
  split_ifs at h with hbad hvalid
  push Not at hbad
  have hnodes := congrArg FlightRoster.nodes (Option.some.inj h)
  dsimp only at hnodes
  rw [← hnodes]
  exact ⟨List.mergeSort_perm _ _, hbad.2.2⟩

/-- Peers listed in address order above the local node form the roster as listed. -/
theorem new_of_sorted {localNode : NodeAddress} {peers : List NodeAddress}
    (hcount : 2 ≤ (localNode :: peers).length ∧ (localNode :: peers).length ≤ maxNodes)
    (hsorted : (localNode :: peers).IsChain (· < ·)) :
    new localNode peers = some ⟨localNode :: peers, hcount, hsorted⟩ := by
  have hpairwise := List.isChain_iff_pairwise.mp hsorted
  have hle : (localNode :: peers).Pairwise fun a b => decide (a ≤ b) = true := by
    refine hpairwise.imp fun {a b} hab => ?_
    rw [NodeAddress.lt_iff] at hab
    exact decide_eq_true (UInt16.le_iff_toNat_le.mpr hab.le)
  have hvalid : ¬ (peers = [] ∨ maxNodes ≤ peers.length ∨ localNode ∈ peers) := by
    rw [List.length_cons] at hcount
    rintro (rfl | hmany | hself)
    · simp at hcount
    · omega
    · exact NodeAddress.lt_irrefl localNode ((List.pairwise_cons.mp hpairwise).1 _ hself)
  unfold new
  rw [if_neg hvalid]
  simp only [List.mergeSort_of_pairwise hle]
  rw [dif_pos ⟨hcount, hsorted⟩]

theorem contains_new {localNode node : NodeAddress} {peers : List NodeAddress}
    {roster : FlightRoster} (h : new localNode peers = some roster) :
    roster.contains node = true ↔ node = localNode ∨ node ∈ peers := by
  rw [contains, decide_eq_true_eq, (new_perm h).1.mem_iff, List.mem_cons]

theorem mem_pairsOf {nodes : List NodeAddress} (h : nodes.Pairwise (· < ·)) (pair : Pair) :
    pair ∈ pairsOf nodes ↔
      pair.initiator ∈ nodes ∧ pair.responder ∈ nodes ∧ pair.initiator < pair.responder := by
  induction nodes with
  | nil => simp [pairsOf]
  | cons lower rest ih =>
    obtain ⟨hlower, hrest⟩ := List.pairwise_cons.mp h
    have hhead : pair ∈ rest.filterMap (Pair.new lower) ↔
        pair.initiator = lower ∧ pair.responder ∈ rest := by
      rw [List.mem_filterMap]
      constructor
      · rintro ⟨node, hnode, hpair⟩
        rw [Pair.new_of_lt (hlower node hnode), Option.some.injEq] at hpair
        subst hpair
        exact ⟨rfl, hnode⟩
      · rintro ⟨rfl, hresponder⟩
        exact ⟨pair.responder, hresponder, Pair.new_of_lt (hlower _ hresponder)⟩
    rw [pairsOf, List.mem_append, hhead, ih hrest]
    constructor
    · rintro (⟨hinitiator, hresponder⟩ | ⟨hinitiator, hresponder, hlt⟩)
      · refine ⟨by simp [hinitiator], List.mem_cons_of_mem _ hresponder, ?_⟩
        exact hinitiator ▸ hlower _ hresponder
      · exact ⟨List.mem_cons_of_mem _ hinitiator, List.mem_cons_of_mem _ hresponder, hlt⟩
    · rintro ⟨hinitiator, hresponder, hlt⟩
      rcases List.mem_cons.mp hinitiator with heq | hinitiator
      · refine Or.inl ⟨heq, ?_⟩
        rcases List.mem_cons.mp hresponder with heq' | hresponder
        · rw [heq, heq'] at hlt
          exact absurd hlt (NodeAddress.lt_irrefl lower)
        · exact hresponder
      · rcases List.mem_cons.mp hresponder with heq' | hresponder
        · have hgt := hlower _ hinitiator
          rw [heq'] at hlt
          exact absurd hlt (NodeAddress.lt_asymm hgt)
        · exact Or.inr ⟨hinitiator, hresponder, hlt⟩

theorem mem_pairs (roster : FlightRoster) (pair : Pair) :
    pair ∈ roster.pairs ↔
      roster.contains pair.initiator = true ∧ roster.contains pair.responder = true ∧
        pair.initiator < pair.responder := by
  rw [pairs, mem_pairsOf (List.isChain_iff_pairwise.mp roster.sorted)]
  simp [contains]

end FlightRoster

theorem pairIndex_isSome {roster : FlightRoster} {pair : Pair} (h : pair ∈ roster.pairs) :
    ∃ index, pairIndex roster pair = some index := by
  rw [← Option.isSome_iff_exists, pairIndex, List.findIdx?_isSome, List.any_eq_true]
  exact ⟨pair, h, by simp⟩

/-- A due pair is one the local node initiates, and its state says it is due. -/
theorem duePair_spec {roster : FlightRoster} {localNode : NodeAddress} {nowUs : UInt64}
    {pairStates : List PairMacState} {pair : Pair}
    (h : duePair roster localNode nowUs pairStates = some pair) :
    pair ∈ roster.pairs ∧ pair.initiator = localNode ∧
      ∃ state, (pair, state) ∈ roster.pairs.zip pairStates ∧ state.isDue nowUs = true := by
  unfold duePair at h
  obtain ⟨⟨chosen, state⟩, hargmin, rfl⟩ := Option.map_eq_some_iff.mp h
  have hmem := List.argmin_mem hargmin
  rw [List.mem_filter, Bool.and_eq_true, decide_eq_true_eq] at hmem
  exact ⟨(List.of_mem_zip hmem.1).1, hmem.2.1, state, hmem.1, hmem.2.2⟩

end Mission10.Uwb
