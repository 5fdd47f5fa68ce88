import Mathlib.Data.Prod.Lex
import Mission10.Library.GreedySelection
import Mission10.Sensing.TileMerges

/-!
# Scoring of one image

The certified evaluation merges the candidates of an image, leaves out those whose
center lies in a reviewed region, and matches the others with the ground truth,
strongest first. The merge sorts by every field of a candidate, so the score does
not depend on the order in which the tiles were read.
-/
namespace Mission10.Sensing.Evaluation

open GreedySelection GreedyMatching

def iouThreshold : ℚ := 1 / 2

/-- A prediction whose center is inside a reviewed region. -/
def isIgnored (ignoreRegions : List Detection) (prediction : Detection) : Bool :=
  let centerX := (prediction.x0 + prediction.x1) / 2
  let centerY := (prediction.y0 + prediction.y1) / 2
  ignoreRegions.any fun region =>
    decide (region.x0 ≤ centerX ∧ centerX ≤ region.x1 ∧ region.y0 ≤ centerY ∧
      centerY ≤ region.y1)

def tileOf (box : Detection) : ℤ × ℤ := (box.tileX, box.tileY)

/-- The overlaps of a prediction with the boxes that are left, with their indices. -/
def choices (groundTruth : List Detection) (unmatched : Finset ℕ) (prediction : Detection) :
    List (ℚ ×ₗ ℤ) :=
  (groundTruth.zipIdx.filter fun box => box.2 ∈ unmatched).map fun box =>
    toLex (iou prediction box.1, (box.2 : ℤ))

/-- The box that a prediction takes: that of the largest overlap and index, if the overlap
reaches the threshold. -/
def pickBox (groundTruth : List Detection) (unmatched : Finset ℕ) (prediction : Detection) :
    Option ℕ :=
  let best := ofLex ((choices groundTruth unmatched prediction).max?.getD (toLex (0, -1)))
  if iouThreshold ≤ best.1 then some best.2.toNat else none

/-- The loop over the scored predictions. -/
def matchBoxes (groundTruth scored : List Detection) : Matching Detection ℕ :=
  matchAll (pickBox groundTruth) (Finset.range groundTruth.length) scored

structure VisibilityCounts where
  tp : ℕ
  fn : ℕ
  total : ℕ
  recallRate : ℚ
deriving DecidableEq

structure ImageScore where
  tp : ℕ
  fp : ℕ
  fn : ℕ
  tileCandidates : ℕ
  mergedCandidates : ℕ
  tileFragments : ℤ
  ignoredCandidates : ℤ
  falsePositiveTiles : ℕ
  emptyRealTiles : ℕ
  emptyRealTilesWithFalsePositive : ℕ
  recallByVisibility : List (String × VisibilityCounts)
deriving DecidableEq

/-- The arguments of `evaluate_image` besides its three lists. -/
structure ScoreOptions where
  threshold : ℚ
  mergeOverlap : ℚ
  groundTruthVisibility : Option (List String)
  emptyTileOrigins : Finset (ℤ × ℤ)

/-- The counts for one visibility of the ground truth. -/
def visibilityCounts (visibilities : List String) (matched : Finset ℕ) (visibility : String) :
    VisibilityCounts :=
  let indices := (Finset.range visibilities.length).filter fun index =>
    visibilities[index]? = some visibility
  let visibleTp := (indices ∩ matched).card
  let total := indices.card
  { tp := visibleTp
    fn := total - visibleTp
    total := total
    recallRate := if total = 0 then 1 else (visibleTp : ℚ) / total }

def recallByVisibility (visibilities : Option (List String)) (matched : Finset ℕ) :
    List (String × VisibilityCounts) :=
  match visibilities with
  | none => []
  | some visibilities =>
    (visibilities.dedup.mergeSort fun a b => decide (a ≤ b)).map fun visibility =>
      (visibility, visibilityCounts visibilities matched visibility)

/-- The candidates that reach the threshold. -/
def thresholded (options : ScoreOptions) (candidates : List Detection) : List Detection :=
  candidates.filter fun box => decide (options.threshold ≤ box.confidence)

/-- What the merge keeps of them. -/
def merged (options : ScoreOptions) (candidates : List Detection) : List Detection :=
  (mergeCandidates (thresholded options candidates) options.mergeOverlap).1

def scored (ignoreRegions : List Detection) (options : ScoreOptions)
    (candidates : List Detection) : List Detection :=
  (merged options candidates).filter fun box => !isIgnored ignoreRegions box

/-- `evaluate_image`. -/
def evaluateImage (groundTruth ignoreRegions candidates : List Detection)
    (options : ScoreOptions) : Except String ImageScore :=
  if ∃ visibilities ∈ options.groundTruthVisibility,
      visibilities.length ≠ groundTruth.length then
    .error "ground-truth visibility count does not match boxes"
  else
    let kept := merged options candidates
    let matching := matchBoxes groundTruth (scored ignoreRegions options candidates)
    let emptyFalsePositives := (thresholded options candidates).filter fun box =>
      decide (tileOf box ∈ options.emptyTileOrigins) && !isIgnored ignoreRegions box
    .ok
      { tp := matching.matched.card
        fp := matching.rejected.length
        fn := matching.unmatched.card
        tileCandidates := (thresholded options candidates).length
        mergedCandidates := kept.length
        tileFragments :=
          (mergeCandidates (thresholded options candidates) options.mergeOverlap).2
        ignoredCandidates :=
          (kept.length : ℤ) - (scored ignoreRegions options candidates).length
        falsePositiveTiles := (matching.rejected.map tileOf).toFinset.card
        emptyRealTiles := options.emptyTileOrigins.card
        emptyRealTilesWithFalsePositive :=
          (emptyFalsePositives.map tileOf).toFinset.card
        recallByVisibility :=
          recallByVisibility options.groundTruthVisibility matching.matched }

/-! ### What a score promises -/

/-- A prediction and a box of the ground truth that overlap enough. -/
def Hits (groundTruth : List Detection) (prediction : Detection) (index : ℕ) : Prop :=
  ∃ box, groundTruth[index]? = some box ∧ iouThreshold ≤ iou prediction box

/-- The merge: kept boxes overlap little, and a copy of a candidate that was left out overlaps
a kept box that is no weaker. -/
structure MergeOf (overlap : ℚ) (candidates kept : List Detection) : Prop where
  apart : kept.Pairwise fun a b =>
    duplicateOverlap a b < overlap ∧ duplicateOverlap b a < overlap
  suppressed : ∀ candidate ∈ candidates.diff kept, ∃ box ∈ kept,
    candidate.confidence ≤ box.confidence ∧ overlap ≤ duplicateOverlap candidate box

/-- The counts of a score add up. -/
structure Conserved (groundTruth : List Detection) (score : ImageScore) : Prop where
  boxes : score.tp + score.fn = groundTruth.length
  merged : ((score.tp + score.fp : ℕ) : ℤ) + score.ignoredCandidates = score.mergedCandidates
  tiles : (score.mergedCandidates : ℤ) + score.tileFragments = score.tileCandidates

/-- The score of an image: the merge it is taken of, and a matching of the predictions that
are not ignored, which is one to one, good, and cannot be extended. -/
structure ScoreOf (groundTruth ignoreRegions candidates : List Detection)
    (options : ScoreOptions) (score : ImageScore) : Prop where
  conserved : Conserved groundTruth score
  merge : MergeOf options.mergeOverlap (thresholded options candidates)
    (merged options candidates)
  matching : ∃ pairs, MatchingOf (Hits groundTruth) (Finset.range groundTruth.length)
    (scored ignoreRegions options candidates)
    (matchBoxes groundTruth (scored ignoreRegions options candidates)) pairs ∧
    score.tp = pairs.length ∧
    score.fp = (matchBoxes groundTruth
      (scored ignoreRegions options candidates)).rejected.length ∧
    score.fn = (matchBoxes groundTruth
      (scored ignoreRegions options candidates)).unmatched.card

/-! ### The merge -/

/-- The key of the sort holds every field. -/
theorem sortKey_injective : Function.Injective sortKey := by
  intro a b h
  simp only [sortKey, List.cons.injEq, neg_inj, Int.cast_inj, and_true] at h
  obtain ⟨hconfidence, htileY, htileX, hy0, hx0, hy1, hx1⟩ := h
  cases a
  cases b
  simp_all

theorem pairwise_sorted (candidates : List Detection) :
    (candidates.mergeSort fun a b => decide (sortKey a ≤ sortKey b)).Pairwise
      fun a b => sortKey a ≤ sortKey b := by
  have h : (candidates.mergeSort fun a b => decide (sortKey a ≤ sortKey b)).Pairwise
      fun a b => decide (sortKey a ≤ sortKey b) = true := by
    apply List.pairwise_mergeSort
    · simpa using fun a b c hab hbc => le_trans hab hbc
    · simpa using fun a b => le_total (sortKey a) (sortKey b)
  simpa using h

/-- The sorted candidates do not depend on their order. -/
theorem sorted_perm {candidates others : List Detection} (h : candidates.Perm others) :
    (candidates.mergeSort fun a b => decide (sortKey a ≤ sortKey b)) =
      others.mergeSort fun a b => decide (sortKey a ≤ sortKey b) := by
  refine List.Perm.eq_of_pairwise ?_ (pairwise_sorted candidates) (pairwise_sorted others) ?_
  · intro a b _ _ hab hba
    exact sortKey_injective (le_antisymm hab hba)
  · exact (List.mergeSort_perm _ _).trans (h.trans (List.mergeSort_perm _ _).symm)

theorem mergeCandidates_perm {candidates others : List Detection} (h : candidates.Perm others)
    (overlap : ℚ) : mergeCandidates candidates overlap = mergeCandidates others overlap := by
  simp only [mergeCandidates, sorted_perm h, h.length_eq]

theorem duplicateOverlap_comm (a b : Detection) : duplicateOverlap a b = duplicateOverlap b a := by
  have hover : a.intersection b = b.intersection a := by
    simp only [Detection.intersection, min_comm, max_comm]
  simp only [duplicateOverlap, containment_comm a b, iou, hover, add_comm a.area]

theorem merge_mergeOf (overlap : ℚ) (candidates : List Detection) :
    MergeOf overlap candidates (mergeCandidates candidates overlap).1 := by
  have hperm := List.mergeSort_perm candidates fun a b => decide (sortKey a ≤ sortKey b)
  constructor
  · have hpairwise := select_pairwise
      (fun candidate accepted => ¬ duplicateOverlap candidate accepted < overlap)
      (candidates.mergeSort fun a b => decide (sortKey a ≤ sortKey b))
    apply hpairwise.imp
    intro earlier later h
    have hlater := not_not.mp h
    exact ⟨duplicateOverlap_comm later earlier ▸ hlater, hlater⟩
  · intro candidate hcandidate
    have hcount : 0 < (candidates.diff (mergeCandidates candidates overlap).1).count candidate :=
      List.count_pos_iff.mpr hcandidate
    rw [List.count_diff] at hcount
    have hsorted : (candidates.mergeSort fun a b =>
        decide (sortKey a ≤ sortKey b)).Pairwise fun a b => b.confidence ≤ a.confidence :=
      pairwise_sortKey candidates
    have hnone : ∀ a ∈ ([] : List Detection), ∀ b ∈ candidates.mergeSort fun a b =>
        decide (sortKey a ≤ sortKey b), b.confidence ≤ a.confidence :=
      fun a ha => absurd ha List.not_mem_nil
    have hmore : (mergeCandidates candidates overlap).1.count candidate <
        ([] : List Detection).count candidate + (candidates.mergeSort fun a b =>
          decide (sortKey a ≤ sortKey b)).count candidate := by
      rw [List.count_nil, hperm.count_eq, Nat.zero_add]
      exact Nat.lt_of_sub_pos hcount
    obtain ⟨box, hbox, hweaker, hconflict⟩ := exists_conflict_of_count
      (fun candidate accepted => ¬ duplicateOverlap candidate accepted < overlap)
      hnone hsorted hmore
    exact ⟨box, hbox, hweaker, not_lt.mp hconflict⟩

/-! ### The matching -/

theorem mem_choices {groundTruth : List Detection} {unmatched : Finset ℕ}
    {prediction : Detection} {choice : ℚ ×ₗ ℤ} :
    choice ∈ choices groundTruth unmatched prediction ↔ ∃ index ∈ unmatched, ∃ box,
      groundTruth[index]? = some box ∧ choice = toLex (iou prediction box, (index : ℤ)) := by
  simp only [choices, List.mem_map, List.mem_filter, decide_eq_true_eq, Prod.exists,
    List.mem_zipIdx_iff_getElem?]
  constructor
  · rintro ⟨box, index, ⟨hbox, hindex⟩, rfl⟩
    exact ⟨index, hindex, box, hbox, rfl⟩
  · rintro ⟨index, hindex, box, hbox, rfl⟩
    exact ⟨box, index, ⟨hbox, hindex⟩, rfl⟩

/-- The overlap of the best choice bounds the overlaps of the others. -/
theorem pickBox_picksGood (groundTruth : List Detection) :
    PicksGood (pickBox groundTruth) (Hits groundTruth) := by
  constructor
  · intro unmatched prediction index hpick
    rw [pickBox] at hpick
    cases hbest : (choices groundTruth unmatched prediction).max? with
    | none =>
      simp only [hbest, Option.getD_none, ofLex_toLex] at hpick
      rw [if_neg (by norm_num [iouThreshold])] at hpick
      cases hpick
    | some best =>
      obtain ⟨target, htarget, box, hbox, rfl⟩ :=
        mem_choices.mp (List.max?_eq_some_iff.mp hbest).1
      simp only [hbest, Option.getD_some, ofLex_toLex] at hpick
      split at hpick
      · rename_i hoverlap
        obtain rfl : target = index := by simpa using hpick
        exact ⟨htarget, box, hbox, hoverlap⟩
      · cases hpick
  · rintro unmatched prediction hpick index hindex ⟨box, hbox, hoverlap⟩
    have hmem : toLex (iou prediction box, (index : ℤ)) ∈
        choices groundTruth unmatched prediction :=
      mem_choices.mpr ⟨index, hindex, box, hbox, rfl⟩
    rw [pickBox] at hpick
    cases hbest : (choices groundTruth unmatched prediction).max? with
    | none =>
      rw [List.max?_eq_none_iff.mp hbest] at hmem
      cases hmem
    | some best =>
      have hle := (List.max?_eq_some_iff.mp hbest).2 _ hmem
      have hfirst : iou prediction box ≤ (ofLex best).1 := Prod.Lex.monotone_fst _ _ hle
      simp only [hbest, Option.getD_some] at hpick
      rw [if_pos (hoverlap.trans hfirst)] at hpick
      cases hpick

/-! ### The score -/

variable {groundTruth ignoreRegions candidates others : List Detection} {options : ScoreOptions}
  {score : ImageScore}

/-- The score does not depend on the order of the candidates. -/
theorem evaluateImage_perm (h : candidates.Perm others) :
    evaluateImage groundTruth ignoreRegions candidates options =
      evaluateImage groundTruth ignoreRegions others options := by
  have hthresholded : (thresholded options candidates).Perm (thresholded options others) :=
    h.filter _
  have hmerge : mergeCandidates (thresholded options candidates) options.mergeOverlap =
      mergeCandidates (thresholded options others) options.mergeOverlap :=
    mergeCandidates_perm hthresholded options.mergeOverlap
  have hmerged : merged options candidates = merged options others := by
    rw [merged, merged, hmerge]
  have hscored : scored ignoreRegions options candidates = scored ignoreRegions options others := by
    rw [scored, scored, hmerged]
  have hempty : (((thresholded options candidates).filter fun box =>
        decide (tileOf box ∈ options.emptyTileOrigins) &&
          !isIgnored ignoreRegions box).map tileOf).toFinset =
      (((thresholded options others).filter fun box =>
        decide (tileOf box ∈ options.emptyTileOrigins) &&
          !isIgnored ignoreRegions box).map tileOf).toFinset :=
    List.toFinset_eq_of_perm _ _ ((hthresholded.filter _).map _)
  simp only [evaluateImage, hmerge, hmerged, hscored, hempty, hthresholded.length_eq]

theorem scoreOf (h : evaluateImage groundTruth ignoreRegions candidates options = .ok score) :
    ScoreOf groundTruth ignoreRegions candidates options score := by
  rw [evaluateImage] at h
  split at h
  · cases h
  · obtain rfl := Except.ok.inj h
    obtain ⟨pairs, hpairs⟩ := matchAll_matchingOf (pickBox_picksGood groundTruth)
      (Finset.range groundTruth.length) (scored ignoreRegions options candidates)
    refine ⟨⟨?_, ?_, ?_⟩, merge_mergeOf _ _, pairs, hpairs, hpairs.card_matched, rfl, rfl⟩
    · have hboxes := hpairs.card_targets
      rwa [Finset.card_range] at hboxes
    · have hitems := hpairs.length_items
      dsimp only
      rw [matchBoxes, hitems]
      omega
    · dsimp only [mergeCandidates, merged]
      omega

/-- The score of an image is the same for every order of its candidates, and it is that of a
sound merge and of a maximal matching whose counts add up. -/
theorem evaluateImage_sound (groundTruth ignoreRegions candidates : List Detection)
    (options : ScoreOptions) :
    (∀ others, others.Perm candidates → evaluateImage groundTruth ignoreRegions others options =
        evaluateImage groundTruth ignoreRegions candidates options) ∧
      ((∃ score, evaluateImage groundTruth ignoreRegions candidates options = .ok score) ↔
        ∀ visibilities ∈ options.groundTruthVisibility,
          visibilities.length = groundTruth.length) ∧
      ∀ score, evaluateImage groundTruth ignoreRegions candidates options = .ok score →
        ScoreOf groundTruth ignoreRegions candidates options score := by
  refine ⟨fun others h => evaluateImage_perm h, ?_, fun score => scoreOf⟩
  rw [evaluateImage]
  split
  · rename_i hcounts
    obtain ⟨visibilities, hmem, hne⟩ := hcounts
    refine iff_of_false ?_ fun hall => hne (hall visibilities hmem)
    rintro ⟨score, h⟩
    cases h
  · rename_i hcounts
    push Not at hcounts
    exact iff_of_true ⟨_, rfl⟩ hcounts

/-- A mine, a box on it, and a fragment of the box on the next tile. -/
def benchOptions : ScoreOptions := ⟨37 / 100, 1 / 2, some ["clear"], ∅⟩

theorem evaluateImage_sound_bench : ∃ score,
    evaluateImage (wholeAndFragment.take 1) [] wholeAndFragment benchOptions = .ok score ∧
      evaluateImage (wholeAndFragment.take 1) [] wholeAndFragment.reverse benchOptions =
        .ok score ∧
      ScoreOf (wholeAndFragment.take 1) [] wholeAndFragment benchOptions score := by
  obtain ⟨hperm, htotal, hscore⟩ :=
    evaluateImage_sound (wholeAndFragment.take 1) [] wholeAndFragment benchOptions
  obtain ⟨score, hok⟩ := htotal.mpr (by simp [benchOptions, wholeAndFragment])
  exact ⟨score, hok, (hperm _ wholeAndFragment.reverse_perm).trans hok, hscore score hok⟩

end Mission10.Sensing.Evaluation
