import Mathlib
import Mission10.Engine.AssociationPass

/-!
# The association of a pass

The loops that read the assignment sort every tracklet into the matched and the
born and every track that was there into the matched, the missed and those out
of view. Together with the costs of the assignment this is the outcome of a pass.
-/
namespace Mission10.Engine.Associate

open Loops Hungarian Assignment

set_option linter.unusedSectionVars false

variable {K : Type*} [Field K] [LinearOrder K] [MathOps K]

/-- Where the pass sees a tracklet on the map. -/
def PassResult.place (r : PassResult K) (a : Associator K) (tk : Tracklet K) : Point2 K :=
  if a.tracks.isEmpty then tk.center else applySe2 r.theta r.trans tk.center

/-- The outcome of one pass. `founders` are the tracklets that found the tracks
of `r.born`, in this order. -/
structure Associated (a : Associator K) (tracklets : List (Tracklet K))
    (visibility : Option (Point2 K → Verdict)) (a' : Associator K) (r : PassResult K)
    (founders : List ℕ) : Prop where
  /-- Every tracklet is matched or a founder, and only one of them, once. -/
  tracklets_split : (r.matched.map Prod.snd ++ founders).Perm (List.range tracklets.length)
  /-- Every old track is matched, missed or out of view, and only one of them, once. -/
  tracks_split : (r.matched.map Prod.fst ++ r.missed ++ r.outOfView).Perm
    (List.range a.tracks.length)
  born_eq : r.born = List.range' a.tracks.length founders.length
  founded : ∀ (k i : ℕ), founders[k]? = some i → ∃ tk, tracklets[i]? = some tk ∧
    a'.tracks[a.tracks.length + k]? = some (Track.born (a.tracks.length + k) tk (r.place a tk))
  length_eq : a'.tracks.length = a.tracks.length + founders.length
  looked : ∀ j ∈ r.missed, ∀ track, a.tracks[j]? = some track → verdict visibility track ≠ .unseen
  unlooked : ∀ j ∈ r.outOfView, ∀ track, a.tracks[j]? = some track →
    verdict visibility track = .unseen
  /-- A matched pair has one class, lies within the gate and costs at most a birth
  and a miss. -/
  matched_pair : ∀ j i, (j, i) ∈ r.matched → ∃ tk track, tracklets[i]? = some tk ∧
    a.tracks[j]? = some track ∧ tk.classId = track.classId ∧
    dist2 (r.place a tk) track.center ≤ a.gateM ^ 2 ∧
    dist2 (r.place a tk) track.center ≤
      birthCost a.gateM + missCost a.gateM (verdict visibility track)
  /-- A founder and an old track that was not matched, of one class and within the
  gate, cost at least a birth and a miss. -/
  unmatched_pair : ∀ i ∈ founders, ∀ j ∈ r.missed ++ r.outOfView, ∀ tk track,
    tracklets[i]? = some tk → a.tracks[j]? = some track → tk.classId = track.classId →
    dist2 (r.place a tk) track.center ≤ a.gateM ^ 2 →
    birthCost a.gateM + missCost a.gateM (verdict visibility track) ≤
      dist2 (r.place a tk) track.center
  /-- The number of a track is its index. -/
  ids : ∀ j (track : Track K), a'.tracks[j]? = some track → track.trackId = j

section FirstLoop

variable (a : Associator K) (tracklets : List (Tracklet K)) (cost : List (List K))
  (assign : List ℕ) (place : Tracklet K → Point2 K) (r0 : PassResult K)

/-- The assignment of a tracklet to a track is taken. -/
def taken (i : ℕ) : Bool :=
  decide (assign.getD i 0 < a.tracks.length ∧ entry cost i (assign.getD i 0) < big)

/-- The tracklets before `q` that are matched. -/
def takers (q : ℕ) : List ℕ := (List.range q).filter (taken a cost assign)

/-- The tracklets before `q` that found a track. -/
def founders (q : ℕ) : List ℕ := (List.range q).filter fun i => !taken a cost assign i

/-- The loop over the tracklets before tracklet `q`. -/
structure TrackletsSettled (q : ℕ) (s : Pass K) : Prop where
  length_eq : s.assoc.tracks.length = a.tracks.length + (founders a cost assign q).length
  matched : s.result.matched = (takers a cost assign q).map fun i => (assign.getD i 0, i)
  matchedTracks : s.matchedTracks = (takers a cost assign q).map fun i => assign.getD i 0
  born : s.result.born = List.range' a.tracks.length (founders a cost assign q).length
  founded : ∀ (k i : ℕ), (founders a cost assign q)[k]? = some i → ∃ tk, tracklets[i]? = some tk ∧
    s.assoc.tracks[a.tracks.length + k]? =
      some (Track.born (a.tracks.length + k) tk (place tk))
  rest : s.result.missed = [] ∧ s.result.outOfView = [] ∧ s.result.theta = r0.theta ∧
    s.result.trans = r0.trans

variable {a tracklets cost assign place r0}

theorem takers_succ_of {q : ℕ} (h : taken a cost assign q = true) :
    takers a cost assign (q + 1) = takers a cost assign q ++ [q] ∧
      founders a cost assign (q + 1) = founders a cost assign q := by
  simp [takers, founders, List.range_succ, h]

theorem takers_succ_of_not {q : ℕ} (h : taken a cost assign q = false) :
    takers a cost assign (q + 1) = takers a cost assign q ∧
      founders a cost assign (q + 1) = founders a cost assign q ++ [q] := by
  simp [takers, founders, List.range_succ, h]

theorem TrackletsSettled.step {q : ℕ} {tk : Tracklet K} {s : Pass K}
    (hq : tracklets[q]? = some tk) (h : TrackletsSettled a tracklets cost assign place r0 q s) :
    TrackletsSettled a tracklets cost assign place r0 (q + 1)
      (settleTracklet a.tracks.length cost assign place s q tk) := by
  unfold settleTracklet
  by_cases htaken : assign.getD q 0 < a.tracks.length ∧ entry cost q (assign.getD q 0) < big
  · simp only [if_pos htaken]
    have htrue : taken a cost assign q = true := decide_eq_true htaken
    obtain ⟨htk, hfd⟩ := takers_succ_of htrue
    have hid : s.assoc.idAt (assign.getD q 0) = assign.getD q 0 :=
      s.assoc.idAt_eq (by rw [h.length_eq]; omega)
    constructor
    · rw [hfd, ← h.length_eq]
      exact List.length_modify _ _ _
    · rw [htk, List.map_append, ← h.matched, hid]
      rfl
    · rw [htk, List.map_append, ← h.matchedTracks]
      rfl
    · rw [hfd]
      exact h.born
    · intro k i hk
      rw [hfd] at hk
      obtain ⟨tk', htk', htrack⟩ := h.founded k i hk
      refine ⟨tk', htk', ?_⟩
      show (s.assoc.tracks.modify _ _)[_]? = _
      rw [List.getElem?_modify_ne _ _ (by omega)]
      exact htrack
    · exact h.rest
  · simp only [if_neg htaken]
    have hfalse : taken a cost assign q = false := decide_eq_false htaken
    obtain ⟨htk, hfd⟩ := takers_succ_of_not hfalse
    constructor
    · rw [hfd]
      show (s.assoc.tracks ++ [_]).length = _
      simp [h.length_eq, Nat.add_assoc]
    · rw [htk]
      exact h.matched
    · rw [htk]
      exact h.matchedTracks
    · rw [hfd, List.length_append, List.length_singleton, List.range'_1_concat, ← h.born,
        ← h.length_eq]
    · intro k i hk
      show ∃ tk', _ ∧ (s.assoc.tracks ++ [Track.born s.assoc.tracks.length tk (place tk)])[_]? = _
      rw [hfd, List.getElem?_append] at hk
      split at hk
      · obtain ⟨tk', htk', htrack⟩ := h.founded k i hk
        exact ⟨tk', htk', by rw [List.getElem?_append_left (by rw [h.length_eq]; omega), htrack]⟩
      · rename_i hlen
        rw [List.getElem?_singleton] at hk
        split at hk
        · rename_i hk0
          rw [Option.some.injEq] at hk
          have hkeq : k = (founders a cost assign q).length := by omega
          refine ⟨tk, hk ▸ hq, ?_⟩
          rw [hkeq, ← h.length_eq]
          simp
        · simp at hk
    · exact h.rest

variable (a tracklets cost assign place r0)

theorem trackletsSettled (hr0 : r0.matched = [] ∧ r0.born = [] ∧ r0.missed = [] ∧
    r0.outOfView = []) :
    TrackletsSettled a tracklets cost assign place r0 tracklets.length
      (forEach tracklets (settleTracklet a.tracks.length cost assign place)
        { assoc := a, result := r0 }) := by
  apply forEach_invariant (TrackletsSettled a tracklets cost assign place r0)
  · exact
      { length_eq := by simp [founders]
        matched := by simp [takers, hr0.1]
        matchedTracks := by simp [takers]
        born := by simp [founders, hr0.2.1]
        founded := by simp [founders]
        rest := ⟨hr0.2.2.1, hr0.2.2.2, rfl, rfl⟩ }
  · intro q tk s hq h
    exact h.step hq

end FirstLoop

section SecondLoop

variable (k : ℕ) (verdicts : List Verdict) (s0 : Pass K)

/-- The loop over the tracks that were there before the pass, before track `q`. -/
structure TracksSettled (q : ℕ) (s : Pass K) : Prop where
  length_eq : s.assoc.tracks.length = s0.assoc.tracks.length
  later : ∀ j, q ≤ j → s.assoc.tracks[j]? = s0.assoc.tracks[j]?
  missed : s.result.missed = s0.result.missed ++ (List.range q).filter fun j =>
    decide (j ∉ s0.matchedTracks ∧ verdicts[j]? ≠ some .unseen)
  outOfView : s.result.outOfView = s0.result.outOfView ++ (List.range q).filter fun j =>
    decide (j ∉ s0.matchedTracks ∧ verdicts[j]? = some .unseen)
  rest : s.matchedTracks = s0.matchedTracks ∧ s.result.matched = s0.result.matched ∧
    s.result.born = s0.result.born ∧ s.result.theta = s0.result.theta ∧
    s.result.trans = s0.result.trans

variable {verdicts s0}

theorem TracksSettled.step {q : ℕ} {v : Verdict} {s : Pass K} (hq : verdicts[q]? = some v)
    (hlen : q < s0.assoc.tracks.length) (h : TracksSettled verdicts s0 q s) :
    TracksSettled verdicts s0 (q + 1) (settleTrack s q v) := by
  have hid : s.assoc.idAt q = q := s.assoc.idAt_eq (by rw [h.length_eq]; exact hlen)
  unfold settleTrack
  by_cases hmatched : q ∈ s0.matchedTracks
  · rw [if_pos (h.rest.1 ▸ hmatched)]
    exact
      { length_eq := h.length_eq
        later := fun j hj => h.later j (by omega)
        missed := by simp [List.range_succ, hmatched, h.missed]
        outOfView := by simp [List.range_succ, hmatched, h.outOfView]
        rest := h.rest }
  rw [if_neg (h.rest.1 ▸ hmatched)]
  by_cases hv : v = .unseen
  · rw [if_pos hv]
    subst hv
    exact
      { length_eq := h.length_eq
        later := fun j hj => h.later j (by omega)
        missed := by simp [List.range_succ, hq, h.missed]
        outOfView := by simp [List.range_succ, hmatched, hq, h.outOfView, hid]
        rest := h.rest }
  · rw [if_neg hv]
    constructor
    · rw [← h.length_eq]
      exact List.length_modify _ _ _
    · intro j hj
      show (s.assoc.tracks.modify _ _)[_]? = _
      rw [List.getElem?_modify_ne _ _ (by omega)]
      exact h.later j (by omega)
    · simp [List.range_succ, hmatched, hq, hv, h.missed, hid]
    · simp [List.range_succ, hq, hv, h.outOfView]
    · exact h.rest

variable (verdicts s0)

theorem tracksSettled (hlen : verdicts.length ≤ s0.assoc.tracks.length) :
    TracksSettled verdicts s0 verdicts.length (forEach verdicts settleTrack s0) := by
  apply forEach_invariant (TracksSettled verdicts s0)
  · exact
      { length_eq := rfl
        later := fun _ _ => rfl
        missed := by simp
        outOfView := by simp
        rest := ⟨rfl, rfl, rfl, rfl, rfl⟩ }
  · intro q v s hq h
    have hqlen : q < verdicts.length := (List.getElem?_eq_some_iff.mp hq).1
    exact h.step hq (by omega)

end SecondLoop

/-- The taken tracks, the missed and those out of view are all tracks, each once. -/
theorem split_perm {k : ℕ} {taken : List ℕ} (hnodup : taken.Nodup) (hlt : ∀ j ∈ taken, j < k)
    (seen : ℕ → Prop) [DecidablePred seen] :
    (taken ++ (List.range k).filter (fun j => decide (j ∉ taken ∧ seen j)) ++
      (List.range k).filter (fun j => decide (j ∉ taken ∧ ¬ seen j))).Perm (List.range k) := by
  refine (List.perm_ext_iff_of_nodup ?_ List.nodup_range).mpr ?_
  · refine List.Nodup.append (List.Nodup.append hnodup (List.nodup_range.filter _) ?_)
      (List.nodup_range.filter _) ?_
    · intro j hj hfilter
      simp [hj] at hfilter
    · intro j hj hfilter
      rw [List.mem_append] at hj
      rcases hj with hj | hj
      · simp [hj] at hfilter
      · simp only [List.mem_filter, decide_eq_true_eq] at hj hfilter
        exact hfilter.2.2 hj.2.2
  · intro j
    simp only [List.mem_append, List.mem_filter, List.mem_range, decide_eq_true_eq]
    constructor
    · rintro ((hj | hj) | hj)
      · exact hlt j hj
      · exact hj.1
      · exact hj.1
    · intro hj
      by_cases htaken : j ∈ taken
      · exact Or.inl (Or.inl htaken)
      · by_cases hseen : seen j
        · exact Or.inl (Or.inr ⟨hj, htaken, hseen⟩)
        · exact Or.inr ⟨hj, htaken, hseen⟩

section Total

variable [IsStrictOrderedRing K]

theorem alignRounds_total (obs ref : List (Point2 K)) (rotation : Bool) (coarseGateM : K)
    (rounds : ℕ) (theta : K) (move : Point2 K) :
    ∃ x, alignRounds obs ref rotation coarseGateM rounds theta move = some x := by
  induction rounds generalizing theta move with
  | zero => exact ⟨_, rfl⟩
  | succ rounds ih =>
    obtain ⟨σ, hσ, _⟩ := hungarian_spec
      (alignCost (obs.map (applySe2 theta move)) ref coarseGateM) rfl
    simp only [alignRounds, hσ, Option.bind_some]
    split_ifs
    · exact ⟨_, rfl⟩
    · exact ⟨_, rfl⟩
    · exact ih _ _

theorem blindAlign_total (obs ref : List (Point2 K)) (rotation : Bool) (coarseGateM : K) :
    ∃ x, blindAlign obs ref rotation coarseGateM = some x := by
  unfold blindAlign
  split_ifs
  · exact ⟨_, rfl⟩
  · exact alignRounds_total _ _ _ _ _ _ _

end Total

section EmptyMap

variable (a : Associator K) (tracklets : List (Tracklet K))

/-- The loop of a pass on an empty map before tracklet `q`. -/
structure AllFound (q : ℕ) (s : Associator K × List ℕ) : Prop where
  length_eq : s.1.tracks.length = q
  born : s.2 = List.range' 0 q
  founded : ∀ i, i < q → ∃ tk, tracklets[i]? = some tk ∧
    s.1.tracks[i]? = some (Track.born i tk tk.center)

variable {a}

theorem allFound (ha : a.tracks = []) :
    AllFound tracklets tracklets.length (forEach tracklets
      (fun (s : Associator K × List ℕ) _ tk =>
        (s.1.newTrack tk tk.center, s.2 ++ [s.1.tracks.length])) (a, [])) := by
  apply forEach_invariant (AllFound tracklets)
  · exact ⟨by simp [ha], rfl, fun i hi => by omega⟩
  · intro q tk s hq h
    constructor
    · show (s.1.tracks ++ [_]).length = _
      simp [h.length_eq]
    · show s.2 ++ [s.1.tracks.length] = _
      rw [List.range'_1_concat, ← h.born, h.length_eq, Nat.zero_add]
    · intro i hi
      show ∃ tk', _ ∧ (s.1.tracks ++ [Track.born s.1.tracks.length tk tk.center])[i]? = _
      rcases Nat.lt_succ_iff_lt_or_eq.mp hi with hlt | rfl
      · obtain ⟨tk', htk', htrack⟩ := h.founded i hlt
        exact ⟨tk', htk', by rw [List.getElem?_append_left (by rw [h.length_eq]; exact hlt), htrack]⟩
      · exact ⟨tk, hq, by simp [h.length_eq]⟩

end EmptyMap

variable (a : Associator K) (tracklets : List (Tracklet K))
  (visibility : Option (Point2 K → Verdict))

theorem ingestPass_empty (ha : a.tracks = []) {a' : Associator K} {r : PassResult K}
    (h : a.ingestPass tracklets visibility = some (a', r)) :
    Associated a tracklets visibility a' r (List.range tracklets.length) := by
  have hloop := allFound tracklets ha
  simp only [Associator.ingestPass, ha, List.isEmpty_nil, if_true, Option.some.injEq,
    Prod.mk.injEq] at h
  obtain ⟨rfl, rfl⟩ := h
  have hplace : ∀ (r : PassResult K) (tk : Tracklet K), r.place a tk = tk.center := by
    intro r tk
    simp [PassResult.place, ha]
  exact
    { tracklets_split := by simp
      tracks_split := by simp [ha]
      born_eq := by
        rw [hloop.born]
        simp [ha]
      founded := by
        intro k i hk
        obtain ⟨hkm, rfl⟩ := List.getElem?_eq_some_iff.mp hk
        obtain ⟨tk, htk, htrack⟩ := hloop.founded k (by simpa using hkm)
        refine ⟨tk, by simpa using htk, ?_⟩
        rw [hplace]
        simpa [ha] using htrack
      length_eq := by
        rw [hloop.length_eq]
        simp [ha]
      looked := by simp
      unlooked := by simp
      matched_pair := by simp
      unmatched_pair := by simp
      ids := Associator.ids _ }

section General

variable [IsStrictOrderedRing K]

/-- The list the search returns. -/
def columns {n : ℕ} (σ : Equiv.Perm (Fin n)) : List ℕ := List.ofFn fun r => (σ r : ℕ)

theorem getD_columns {n : ℕ} (σ : Equiv.Perm (Fin n)) {i : ℕ} (hi : i < n) :
    (columns σ).getD i 0 = σ ⟨i, hi⟩ := by
  simp [columns, hi]

variable {a tracklets visibility} {place : Tracklet K → Point2 K}
variable {σ : Equiv.Perm (Fin (tracklets.length + a.tracks.length))}

/-- With an optimal assignment a tracklet that is not taken is in its birth column. -/
theorem taken_iff (hopt : Optimal (cells a tracklets visibility place) σ)
    (hbound : allBirthCost a tracklets visibility < big) {i : ℕ} (hi : i < tracklets.length) :
    taken a (costMatrix a tracklets visibility place) (columns σ) i = true ∧
        (columns σ).getD i 0 < a.tracks.length ∨
      taken a (costMatrix a tracklets visibility place) (columns σ) i = false ∧
        (columns σ).getD i 0 = a.tracks.length + i := by
  have hin : i < tracklets.length + a.tracks.length := by omega
  have hentry : entry (costMatrix a tracklets visibility place) i ((columns σ).getD i 0) < big := by
    rw [getD_columns σ hin, entry_costMatrix hin (σ ⟨i, hin⟩).2]
    exact chosen_lt_big hopt hbound ⟨i, hin⟩
  rcases tracklet_column hopt hbound (List.getElem?_eq_getElem hi) hin with ⟨_, htrack, _⟩ | hborn
  · have hlt := (List.getElem?_eq_some_iff.mp htrack).1
    rw [← getD_columns σ hin] at hlt
    exact Or.inl ⟨decide_eq_true ⟨hlt, hentry⟩, hlt⟩
  · rw [← getD_columns σ hin] at hborn
    exact Or.inr ⟨decide_eq_false (by omega), hborn⟩

/-! ### The outcome of the two loops -/

theorem mem_takers {cost : List (List K)} {assign : List ℕ} {q i : ℕ} :
    i ∈ takers a cost assign q ↔ i < q ∧ taken a cost assign i = true := by
  simp [takers]

theorem mem_founders {cost : List (List K)} {assign : List ℕ} {q i : ℕ} :
    i ∈ founders a cost assign q ↔ i < q ∧ taken a cost assign i = false := by
  simp [founders]

/-- A tracklet that is matched is in the column of a track. -/
theorem column_of_taker (hopt : Optimal (cells a tracklets visibility place) σ)
    (hbound : allBirthCost a tracklets visibility < big) {i : ℕ}
    (hi : i ∈ takers a (costMatrix a tracklets visibility place) (columns σ) tracklets.length) :
    i < tracklets.length ∧ (columns σ).getD i 0 < a.tracks.length := by
  obtain ⟨hlt, htaken⟩ := mem_takers.mp hi
  rcases taken_iff hopt hbound hlt with ⟨-, hcolumn⟩ | ⟨hnot, -⟩
  · exact ⟨hlt, hcolumn⟩
  · rw [htaken] at hnot
    cases hnot

/-- A tracklet in the column of a track is matched. -/
theorem taker_of_column (hopt : Optimal (cells a tracklets visibility place) σ)
    (hbound : allBirthCost a tracklets visibility < big) {i : ℕ} (hi : i < tracklets.length)
    (hcolumn : (columns σ).getD i 0 < a.tracks.length) :
    i ∈ takers a (costMatrix a tracklets visibility place) (columns σ) tracklets.length := by
  rcases taken_iff hopt hbound hi with ⟨htaken, -⟩ | ⟨-, hborn⟩
  · exact mem_takers.mpr ⟨hi, htaken⟩
  · omega

theorem column_of_founder (hopt : Optimal (cells a tracklets visibility place) σ)
    (hbound : allBirthCost a tracklets visibility < big) {i : ℕ}
    (hi : i ∈ founders a (costMatrix a tracklets visibility place) (columns σ)
      tracklets.length) :
    i < tracklets.length ∧ (columns σ).getD i 0 = a.tracks.length + i := by
  obtain ⟨hlt, hnot⟩ := mem_founders.mp hi
  rcases taken_iff hopt hbound hlt with ⟨htaken, -⟩ | ⟨-, hborn⟩
  · rw [hnot] at htaken
    cases htaken
  · exact ⟨hlt, hborn⟩

section Outcome

variable {r0 : PassResult K} {s1 s2 : Pass K}

/-- Two tracklets are not matched to one track. -/
theorem TrackletsSettled.nodup (hopt : Optimal (cells a tracklets visibility place) σ)
    (hbound : allBirthCost a tracklets visibility < big)
    (h1 : TrackletsSettled a tracklets (costMatrix a tracklets visibility place) (columns σ) place
      r0 tracklets.length s1) :
    s1.matchedTracks.Nodup ∧ ∀ j ∈ s1.matchedTracks, j < a.tracks.length := by
  rw [h1.matchedTracks]
  constructor
  · apply List.Nodup.map_on _ (List.nodup_range.filter _)
    intro i hi l hl heq
    obtain ⟨him, -⟩ := mem_takers.mp hi
    obtain ⟨hlm, -⟩ := mem_takers.mp hl
    rw [getD_columns σ (by omega), getD_columns σ (by omega)] at heq
    simpa using σ.injective (Fin.ext heq)
  · intro j hj
    obtain ⟨i, hi, rfl⟩ := List.mem_map.mp hj
    exact (column_of_taker hopt hbound hi).2

/-- A matched pair is cheap, and of one class within the gate. -/
theorem matched_pair (hopt : Optimal (cells a tracklets visibility place) σ)
    (hbound : allBirthCost a tracklets visibility < big) {i : ℕ}
    (hi : i ∈ takers a (costMatrix a tracklets visibility place) (columns σ) tracklets.length) :
    ∃ tk track, tracklets[i]? = some tk ∧ a.tracks[(columns σ).getD i 0]? = some track ∧
      tk.classId = track.classId ∧ dist2 (place tk) track.center ≤ a.gateM ^ 2 ∧
        dist2 (place tk) track.center ≤
          birthCost a.gateM + missCost a.gateM (verdict visibility track) := by
  obtain ⟨him, hlt⟩ := column_of_taker hopt hbound hi
  have hin : i < tracklets.length + a.tracks.length := by omega
  have htk := List.getElem?_eq_getElem him
  obtain ⟨track, htrack⟩ : ∃ track, a.tracks[(columns σ).getD i 0]? = some track :=
    ⟨_, List.getElem?_eq_getElem hlt⟩
  refine ⟨_, track, htk, htrack, ?_⟩
  rw [getD_columns σ hin] at htrack
  have hpair := chosen_lt_big hopt hbound ⟨i, hin⟩
  rw [cell_pair htk htrack] at hpair
  obtain ⟨hclass, hgate, hdist⟩ := pairCost_lt_big hpair
  have hle := matched_cost hopt hbound htk hin htrack
  rw [hdist] at hle
  exact ⟨hclass, hgate, hle⟩

/-- A founder and a track that no tracklet is matched to are not cheap. -/
theorem unmatched_pair (hopt : Optimal (cells a tracklets visibility place) σ)
    (hbound : allBirthCost a tracklets visibility < big) {i j : ℕ}
    (hi : i ∈ founders a (costMatrix a tracklets visibility place) (columns σ) tracklets.length)
    (hfree : ∀ l ∈ takers a (costMatrix a tracklets visibility place) (columns σ)
      tracklets.length, (columns σ).getD l 0 ≠ j)
    {tk : Tracklet K} {track : Track K} (htk : tracklets[i]? = some tk)
    (htrack : a.tracks[j]? = some track) (hclass : tk.classId = track.classId)
    (hgate : dist2 (place tk) track.center ≤ a.gateM ^ 2) :
    birthCost a.gateM + missCost a.gateM (verdict visibility track) ≤
      dist2 (place tk) track.center := by
  obtain ⟨him, hborn⟩ := column_of_founder hopt hbound hi
  have hin : i < tracklets.length + a.tracks.length := by omega
  rw [getD_columns σ hin] at hborn
  rw [← pairCost_eq hclass hgate]
  refine unmatched_cost hopt hbound htk htrack hin hborn ?_
  intro l hlin hlm heq
  rw [← getD_columns σ hlin] at heq
  have hjk := (List.getElem?_eq_some_iff.mp htrack).1
  exact hfree l (taker_of_column hopt hbound hlm (by omega)) heq

/-- The outcome of the two loops over an optimal assignment. -/
theorem associated_of_optimal (hopt : Optimal (cells a tracklets visibility place) σ)
    (hbound : allBirthCost a tracklets visibility < big)
    (hplace : ∀ tk, PassResult.place r0 a tk = place tk)
    (h1 : TrackletsSettled a tracklets (costMatrix a tracklets visibility place) (columns σ) place
      r0 tracklets.length s1)
    (h2 : TracksSettled (a.tracks.map (verdict visibility)) s1 a.tracks.length s2) :
    Associated a tracklets visibility s2.assoc s2.result
      (founders a (costMatrix a tracklets visibility place) (columns σ) tracklets.length) := by
  have hplace2 : ∀ tk, s2.result.place a tk = place tk := by
    intro tk
    rw [← hplace, PassResult.place, PassResult.place, h2.rest.2.2.2.1, h2.rest.2.2.2.2,
      h1.rest.2.2.1, h1.rest.2.2.2]
  obtain ⟨hnodup, hlt⟩ := h1.nodup hopt hbound
  have hmatched : s2.result.matched = (takers a (costMatrix a tracklets visibility place)
      (columns σ) tracklets.length).map fun i => ((columns σ).getD i 0, i) := by
    rw [h2.rest.2.1, h1.matched]
  have hmissed : s2.result.missed = (List.range a.tracks.length).filter fun j =>
      decide (j ∉ s1.matchedTracks ∧
        (a.tracks.map (verdict visibility))[j]? ≠ some .unseen) := by
    rw [h2.missed, h1.rest.1, List.nil_append]
  have hout : s2.result.outOfView = (List.range a.tracks.length).filter fun j =>
      decide (j ∉ s1.matchedTracks ∧
        ¬ (a.tracks.map (verdict visibility))[j]? ≠ some .unseen) := by
    simp only [not_not]
    rw [h2.outOfView, h1.rest.2.1, List.nil_append]
  constructor
  case tracklets_split =>
    have hsnd : s2.result.matched.map Prod.snd = takers a (costMatrix a tracklets visibility place)
        (columns σ) tracklets.length := by
      rw [hmatched, List.map_map]
      exact List.map_id _
    rw [hsnd]
    exact List.filter_append_perm _ _
  case tracks_split =>
    have hfst : s2.result.matched.map Prod.fst = s1.matchedTracks := by
      rw [hmatched, h1.matchedTracks, List.map_map]
      rfl
    rw [hfst, hmissed, hout]
    exact split_perm hnodup hlt _
  case born_eq => rw [h2.rest.2.2.1, h1.born]
  case founded =>
    intro k i hk
    obtain ⟨tk, htk, htrack⟩ := h1.founded k i hk
    refine ⟨tk, htk, ?_⟩
    rw [h2.later _ (by omega), htrack, hplace2]
  case length_eq => rw [h2.length_eq, h1.length_eq]
  case looked =>
    intro j hj track htrack
    rw [hmissed] at hj
    have hmem := (List.mem_filter.mp hj).2
    simp only [List.getElem?_map, htrack, decide_eq_true_eq] at hmem
    simpa using hmem.2
  case unlooked =>
    intro j hj track htrack
    rw [hout] at hj
    have hmem := (List.mem_filter.mp hj).2
    simp only [not_not, List.getElem?_map, htrack, decide_eq_true_eq] at hmem
    simpa using hmem.2
  case matched_pair =>
    intro j i hji
    rw [hmatched] at hji
    obtain ⟨l, hl, heq⟩ := List.mem_map.mp hji
    rw [Prod.mk.injEq] at heq
    obtain ⟨rfl, rfl⟩ := heq
    simp only [hplace2]
    exact matched_pair hopt hbound hl
  case unmatched_pair =>
    intro i hi j hj tk track htk htrack hclass hgate
    have hfree : j ∉ s1.matchedTracks := by
      rw [hmissed, hout, List.mem_append, List.mem_filter, List.mem_filter] at hj
      rcases hj with hj | hj
      · exact (of_decide_eq_true hj.2).1
      · exact (of_decide_eq_true hj.2).1
    rw [h1.matchedTracks] at hfree
    rw [hplace2] at hgate ⊢
    exact unmatched_pair hopt hbound hi
      (fun l hl heq => hfree (List.mem_map.mpr ⟨l, hl, heq⟩)) htk htrack hclass hgate
  case ids => exact s2.assoc.ids

end Outcome

end General

/-- A pass fails only on a track whose weights sum to 0; otherwise, when founding
all tracks costs less than a forbidden pair, it associates as `Associated` says. -/
theorem ingest_pass_associates [IsStrictOrderedRing K] :
    (a.ingestPass tracklets visibility = none ↔ ∃ t ∈ a.tracks, t.weights.sum = 0) ∧
    ∀ a' r, a.ingestPass tracklets visibility = some (a', r) →
      allBirthCost a tracklets visibility < big →
      ∃ founders, Associated a tracklets visibility a' r founders := by
  by_cases hempty : a.tracks = []
  · constructor
    · simp [Associator.ingestPass, hempty]
    · intro a' r h _
      exact ⟨_, ingestPass_empty a tracklets visibility hempty h⟩
  have hisEmpty : a.tracks.isEmpty = false := by simpa using hempty
  by_cases hzero : ∃ t ∈ a.tracks, t.weights.sum = 0
  · have hnone : a.ingestPass tracklets visibility = none := by
      simp [Associator.ingestPass, hisEmpty, hzero]
    refine ⟨iff_of_true hnone hzero, fun a' r h => ?_⟩
    simp [hnone] at h
  obtain ⟨⟨theta, move⟩, halign⟩ := blindAlign_total (tracklets.map (·.center))
    (a.tracks.map Track.center) (decide (2 ≤ tracklets.length)) a.coarseGateM
  obtain ⟨σ, hσ, hopt⟩ := hungarian_spec
    (costMatrix a tracklets visibility fun tk => applySe2 theta move tk.center)
    (show _ = tracklets.length + a.tracks.length by simp [costMatrix])
  have hcells : (fun r c : Fin (tracklets.length + a.tracks.length) =>
      entry (costMatrix a tracklets visibility fun tk => applySe2 theta move tk.center) r c) =
      cells a tracklets visibility fun tk => applySe2 theta move tk.center := by
    ext r c
    exact entry_costMatrix r.2 c.2
  rw [hcells] at hopt
  set r0 : PassResult K := { theta, trans := move } with hr0
  set place := fun tk : Tracklet K => applySe2 theta move tk.center with hplace
  set s1 := forEach tracklets (settleTracklet a.tracks.length
    (costMatrix a tracklets visibility place) (columns σ) place) { assoc := a, result := r0 }
    with hs1
  have hpass : a.ingestPass tracklets visibility =
      some ((forEach (a.tracks.map (verdict visibility)) settleTrack s1).assoc,
        (forEach (a.tracks.map (verdict visibility)) settleTrack s1).result) := by
    simp only [Associator.ingestPass, hisEmpty, if_neg hzero, halign, Option.bind_some]
    rw [if_neg (by simp), hσ, Option.map_some]
    rfl
  refine ⟨iff_of_false (by simp [hpass]) hzero, fun a' r h hbound => ?_⟩
  rw [hpass, Option.some.injEq, Prod.mk.injEq] at h
  obtain ⟨rfl, rfl⟩ := h
  have h1 := trackletsSettled a tracklets (costMatrix a tracklets visibility place) (columns σ)
    place r0 ⟨rfl, rfl, rfl, rfl⟩
  have h2 := tracksSettled (a.tracks.map (verdict visibility)) s1
    (by rw [h1.length_eq]; simp)
  rw [List.length_map] at h2
  refine ⟨_, associated_of_optimal hopt hbound (fun tk => ?_) h1 h2⟩
  simp [PassResult.place, hisEmpty, hr0, hplace]

/-- A map of one track after its first pass. -/
def oneTrack : Associator ℚ := (Associator.new 1 3).newTrack
  { center := (0, 0), t0 := 0, t1 := 1, nObs := 1, weight := 1, spreadM := 0, classId := "mine",
    tagIds := ["a"] } (0, 0)

/-- Two tracklets near one place. -/
def twoTracklets : List (Tracklet ℚ) :=
  [{ center := (1 / 20, 0), t0 := 2, t1 := 3, nObs := 1, weight := 1, spreadM := 0,
      classId := "mine", tagIds := ["b"] },
    { center := (2 / 5, 0), t0 := 2, t1 := 3, nObs := 2, weight := 2, spreadM := 0,
      classId := "mine", tagIds := [] }]

/-- The second pass of a map, with a track in view for two tracklets. -/
theorem ingest_pass_associates_two : ∃ a' r founders,
    oneTrack.ingestPass twoTracklets none = some (a', r) ∧
      Associated oneTrack twoTracklets none a' r founders := by
  obtain ⟨hfails, hassoc⟩ := ingest_pass_associates oneTrack twoTracklets none
  have hsome : oneTrack.ingestPass twoTracklets none ≠ none := by
    rw [Ne, hfails]
    simp [oneTrack, Associator.newTrack, Associator.new, Track.born, Track.hit]
  obtain ⟨⟨a', r⟩, hpass⟩ := Option.ne_none_iff_exists'.mp hsome
  have hbound : allBirthCost oneTrack twoTracklets none < big := by
    simp [allBirthCost, oneTrack, twoTracklets, Associator.newTrack, Associator.new, birthCost,
      missCost, verdict, big]
    norm_num
  obtain ⟨founders, h⟩ := hassoc a' r hpass hbound
  exact ⟨a', r, founders, hpass, h⟩

example : (oneTrack.ingestPass twoTracklets none).map (fun x => (x.2.matched, x.2.born)) =
    some ([(0, 0)], [1]) := by
  decide +kernel

end Mission10.Engine.Associate
