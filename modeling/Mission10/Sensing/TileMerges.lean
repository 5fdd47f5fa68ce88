import Mission10.Library.GreedySelection
import Mathlib.Data.List.Sort
import Mathlib.Data.Rat.Defs
import Mathlib.Tactic

/-!
# Merges of tile detections

Overlapping tiles see the same object, so detections are merged greedily,
strongest first: in flight by the overlap of two boxes over their union, in the
image audit and in the certified evaluation by the larger of that and the
overlap over the smaller box. Box coordinates are exact.
-/
namespace Mission10.Sensing

open GreedySelection

/-- A detection of the audit, and a box of the evaluation. -/
structure Detection where
  x0 : ℚ
  y0 : ℚ
  x1 : ℚ
  y1 : ℚ
  confidence : ℚ
  tileX : ℤ
  tileY : ℤ
  deriving DecidableEq

namespace Detection

def area (box : Detection) : ℚ := max 0 (box.x1 - box.x0) * max 0 (box.y1 - box.y0)

def intersection (first second : Detection) : ℚ :=
  max 0 (min first.x1 second.x1 - max first.x0 second.x0) *
    max 0 (min first.y1 second.y1 - max first.y0 second.y0)

def Stronger (first second : Detection) : Prop := second.confidence < first.confidence

end Detection

namespace MineDetector

/-- A box in flight: corner, sides and score. -/
structure Box where
  x : ℚ
  y : ℚ
  w : ℚ
  h : ℚ
  score : ℚ
  deriving DecidableEq

def defaultDedupIou : ℚ := 9 / 20

def iou (a b : Box) : ℚ :=
  let x0 := max a.x b.x
  let y0 := max a.y b.y
  let x1 := min (a.x + a.w) (b.x + b.w)
  let y1 := min (a.y + a.h) (b.y + b.h)
  if x1 ≤ x0 ∨ y1 ≤ y0 then 0
  else
    let overlap := (x1 - x0) * (y1 - y0)
    overlap / (a.w * a.h + b.w * b.h - overlap)

/-- The merge in flight. -/
def dedupBoxes (boxes : List Box) (iouThreshold : ℚ := defaultDedupIou) : List Box :=
  let ordered := boxes.mergeSort fun a b => decide (b.score ≤ a.score)
  select (fun candidate existing => ¬ iou candidate existing < iouThreshold) ordered

end MineDetector

namespace AuditIrl

def duplicateOverlap (first second : Detection) : ℚ :=
  let intersection := first.intersection second
  let firstArea := first.area
  let secondArea := second.area
  let union := firstArea + secondArea - intersection
  let iou := if 0 < union then intersection / union else 0
  let smaller := min firstArea secondArea
  let containment := if 0 < smaller then intersection / smaller else 0
  max iou containment

/-- The merge of the image audit. -/
def mergeDetections (detections : List Detection) (overlapThreshold : ℚ := 1 / 2) :
    List Detection :=
  select (fun candidate accepted => ¬ duplicateOverlap candidate accepted < overlapThreshold)
    (detections.mergeSort fun a b => decide (b.confidence ≤ a.confidence))

end AuditIrl

namespace Evaluation

def iou (first second : Detection) : ℚ :=
  let overlap := first.intersection second
  let union := first.area + second.area - overlap
  if 0 < union then overlap / union else 0

/-- The overlap over the smaller box. -/
def containment (first second : Detection) : ℚ :=
  let overlap := first.intersection second
  let smaller := min first.area second.area
  if 0 < smaller then overlap / smaller else 0

def duplicateOverlap (first second : Detection) : ℚ :=
  max (iou first second) (containment first second)

/-- Strongest first, then by tile and corner. -/
def sortKey (item : Detection) : List ℚ :=
  [-item.confidence, item.tileY, item.tileX, item.y0, item.x0, item.y1, item.x1]

/-- The merge of the certified evaluation, with the number of boxes dropped. -/
def mergeCandidates (candidates : List Detection) (overlapThreshold : ℚ := 1 / 2) :
    List Detection × ℤ :=
  let kept := select
    (fun candidate accepted => ¬ duplicateOverlap candidate accepted < overlapThreshold)
    (candidates.mergeSort fun a b => decide (sortKey a ≤ sortKey b))
  (kept, candidates.length - kept.length)

end Evaluation

/-- The same detection in the format of the flight software. -/
def Detection.inFlight (box : Detection) : MineDetector.Box where
  x := box.x0
  y := box.y0
  w := box.x1 - box.x0
  h := box.y1 - box.y0
  score := box.confidence

/-- The three merges keep the same detections. -/
structure SameKept (candidates : List Detection) : Prop where
  audit : AuditIrl.mergeDetections candidates = (Evaluation.mergeCandidates candidates).1
  flight : MineDetector.dedupBoxes (candidates.map Detection.inFlight) =
    (Evaluation.mergeCandidates candidates).1.map Detection.inFlight

/-- A detection stands when no stronger one that stands covers it by the overlap
of flight. -/
def Standing (candidates : List Detection) (standing : Set Detection) : Prop :=
  IsKernel (fun a b => MineDetector.defaultDedupIou ≤ Evaluation.iou a b) Detection.Stronger
    candidates standing

/-! ### Overlap measures -/

namespace Detection

theorem area_pos_iff {box : Detection} : 0 < box.area ↔ box.x0 < box.x1 ∧ box.y0 < box.y1 := by
  constructor
  · intro h
    constructor
    · by_contra hx
      rw [area, max_eq_left (by linarith), zero_mul] at h
      exact lt_irrefl _ h
    · by_contra hy
      rw [area, max_eq_left (by linarith : box.y1 - box.y0 ≤ 0), mul_zero] at h
      exact lt_irrefl _ h
  · rintro ⟨hx, hy⟩
    exact mul_pos (lt_max_of_lt_right (sub_pos.mpr hx)) (lt_max_of_lt_right (sub_pos.mpr hy))

theorem area_eq {box : Detection} (h : 0 < box.area) :
    box.area = (box.x1 - box.x0) * (box.y1 - box.y0) := by
  obtain ⟨hx, hy⟩ := area_pos_iff.mp h
  rw [area, max_eq_right (by linarith), max_eq_right (by linarith)]

theorem intersection_le_left (first second : Detection) :
    first.intersection second ≤ first.area := by
  apply mul_le_mul
  · exact max_le_max_left 0 (sub_le_sub (min_le_left _ _) (le_max_left _ _))
  · exact max_le_max_left 0 (sub_le_sub (min_le_left _ _) (le_max_left _ _))
  · exact le_max_left _ _
  · exact le_max_left _ _

end Detection

/-- Both formats measure the same overlap over the union. -/
theorem iou_inFlight {a b : Detection} (ha : 0 < a.area) (hb : 0 < b.area) :
    MineDetector.iou a.inFlight b.inFlight = Evaluation.iou a b := by
  have hunion : 0 < a.area + b.area - a.intersection b := by
    have hle := a.intersection_le_left b
    linarith
  unfold MineDetector.iou Evaluation.iou
  dsimp only [Detection.inFlight]
  rw [if_pos hunion, add_sub_cancel, add_sub_cancel, add_sub_cancel, add_sub_cancel,
    ← Detection.area_eq ha, ← Detection.area_eq hb]
  split_ifs with hapart
  · have hzero : a.intersection b = 0 := by
      unfold Detection.intersection
      rcases hapart with hx | hy
      · rw [max_eq_left (by linarith), zero_mul]
      · rw [max_eq_left (by linarith : min a.y1 b.y1 - max a.y0 b.y0 ≤ 0), mul_zero]
    rw [hzero, zero_div]
  · push Not at hapart
    have hover : (min a.x1 b.x1 - max a.x0 b.x0) * (min a.y1 b.y1 - max a.y0 b.y0) =
        a.intersection b := by
      rw [Detection.intersection, max_eq_right (sub_nonneg.mpr hapart.1.le),
        max_eq_right (sub_nonneg.mpr hapart.2.le)]
    rw [hover]

/-- An overlap of 0.45 of the union is more than half of the smaller box. -/
theorem duplicateOverlap_of_iou {a b : Detection} (ha : 0 < a.area) (hb : 0 < b.area)
    (h : MineDetector.defaultDedupIou ≤ Evaluation.iou a b) :
    1 / 2 ≤ Evaluation.duplicateOverlap a b := by
  have hle := a.intersection_le_left b
  have hunion : 0 < a.area + b.area - a.intersection b := by linarith
  have hsmaller : 0 < min a.area b.area := lt_min ha hb
  apply le_max_of_le_right
  unfold Evaluation.iou at h
  unfold Evaluation.containment
  dsimp only at h ⊢
  rw [if_pos hunion, MineDetector.defaultDedupIou, le_div_iff₀ hunion] at h
  rw [if_pos hsmaller, le_div_iff₀ hsmaller]
  have hmin₁ := min_le_left a.area b.area
  have hmin₂ := min_le_right a.area b.area
  linarith

theorem duplicateOverlap_eq (first second : Detection) :
    AuditIrl.duplicateOverlap first second = Evaluation.duplicateOverlap first second := rfl

/-! ### Orders of the candidates -/

theorem confidence_of_sortKey_le {a b : Detection}
    (h : Evaluation.sortKey a ≤ Evaluation.sortKey b) : b.confidence ≤ a.confidence := by
  rcases h.lt_or_eq with hlt | heq
  · exact neg_le_neg_iff.mp (List.head_le_of_lt hlt)
  · exact (neg_injective (List.cons.inj heq).1).ge

/-- Detections with distinct confidences have one order, strongest first. -/
theorem order_unique {candidates xs ys : List Detection}
    (hdistinct : (candidates.map Detection.confidence).Nodup) (hx : xs.Perm candidates)
    (hy : ys.Perm candidates) (hxs : xs.Pairwise fun a b => b.confidence ≤ a.confidence)
    (hys : ys.Pairwise fun a b => b.confidence ≤ a.confidence) : xs = ys := by
  refine List.Perm.eq_of_pairwise ?_ hxs hys (hx.trans hy.symm)
  intro a b ha hb hab hba
  exact List.inj_on_of_nodup_map hdistinct (hx.subset ha) (hy.subset hb) (le_antisymm hba hab)

theorem pairwise_confidence (candidates : List Detection) :
    (candidates.mergeSort fun a b => decide (b.confidence ≤ a.confidence)).Pairwise
      fun a b => b.confidence ≤ a.confidence := by
  have h : (candidates.mergeSort fun a b => decide (b.confidence ≤ a.confidence)).Pairwise
      fun a b => decide (b.confidence ≤ a.confidence) = true := by
    apply List.pairwise_mergeSort
    · simpa using fun a b c hab hbc => hbc.trans hab
    · simpa using fun a b : Detection => le_total b.confidence a.confidence
  simpa using h

theorem pairwise_sortKey (candidates : List Detection) :
    (candidates.mergeSort fun a b => decide (Evaluation.sortKey a ≤ Evaluation.sortKey b)).Pairwise
      fun a b => b.confidence ≤ a.confidence := by
  have h : (candidates.mergeSort fun a b =>
      decide (Evaluation.sortKey a ≤ Evaluation.sortKey b)).Pairwise fun a b =>
        decide (Evaluation.sortKey a ≤ Evaluation.sortKey b) = true := by
    apply List.pairwise_mergeSort
    · simpa using fun a b c hab hbc => le_trans hab hbc
    · simpa using fun a b => le_total (Evaluation.sortKey a) (Evaluation.sortKey b)
  apply h.imp
  intro a b hab
  exact confidence_of_sortKey_le (of_decide_eq_true hab)

/-- Under distinct confidences both offline merges see one order. -/
theorem sorted_eq {candidates : List Detection}
    (hdistinct : (candidates.map Detection.confidence).Nodup) :
    (candidates.mergeSort fun a b => decide (Evaluation.sortKey a ≤ Evaluation.sortKey b)) =
      candidates.mergeSort fun a b => decide (b.confidence ≤ a.confidence) :=
  order_unique hdistinct (List.mergeSort_perm _ _) (List.mergeSort_perm _ _)
    (pairwise_sortKey candidates) (pairwise_confidence candidates)

theorem sorted_stronger {candidates : List Detection}
    (hdistinct : (candidates.map Detection.confidence).Nodup) :
    (candidates.mergeSort fun a b => decide (b.confidence ≤ a.confidence)).Pairwise
      Detection.Stronger := by
  have hperm := List.mergeSort_perm candidates fun a b => decide (b.confidence ≤ a.confidence)
  have hnodup : ((candidates.mergeSort fun a b => decide (b.confidence ≤ a.confidence)).map
      Detection.confidence).Nodup := (hperm.map _).nodup_iff.mpr hdistinct
  have hne := List.pairwise_map.mp hnodup
  apply ((pairwise_confidence candidates).and hne).imp
  rintro a b ⟨hle, hne⟩
  exact lt_of_le_of_ne hle (Ne.symm hne)

/-! ### The merges -/

theorem mergeDetections_eq {candidates : List Detection}
    (hdistinct : (candidates.map Detection.confidence).Nodup) :
    AuditIrl.mergeDetections candidates = (Evaluation.mergeCandidates candidates).1 := by
  unfold AuditIrl.mergeDetections Evaluation.mergeCandidates
  dsimp only
  rw [sorted_eq hdistinct]
  rfl

/-- The merge in flight, in the format of the audits. -/
def flightKept (candidates : List Detection) : List Detection :=
  select (fun a b => MineDetector.defaultDedupIou ≤ Evaluation.iou a b)
    (candidates.mergeSort fun a b => decide (b.confidence ≤ a.confidence))

theorem dedupBoxes_eq {candidates : List Detection} (hpos : ∀ box ∈ candidates, 0 < box.area) :
    MineDetector.dedupBoxes (candidates.map Detection.inFlight) =
      (flightKept candidates).map Detection.inFlight := by
  have hsort := List.map_mergeSort (f := Detection.inFlight) (l := candidates)
    (r := fun a b : Detection => decide (b.confidence ≤ a.confidence))
    (s := fun a b : MineDetector.Box => decide (b.score ≤ a.score)) (fun _ _ _ _ => rfl)
  unfold MineDetector.dedupBoxes flightKept select
  dsimp only
  rw [← hsort, ← List.map_nil, selectFrom_map]
  congr 1
  apply selectFrom_congr
  intro a ha b hb
  have hmem := (List.mergeSort_perm candidates fun a b =>
    decide (b.confidence ≤ a.confidence)).subset
  rw [iou_inFlight (hpos a (hmem ha)) (hpos b (hmem hb)), not_lt]

theorem map_inFlight_inj {candidates xs ys : List Detection}
    (hdistinct : (candidates.map Detection.confidence).Nodup) (hx : xs ⊆ candidates)
    (hy : ys ⊆ candidates) (h : xs.map Detection.inFlight = ys.map Detection.inFlight) :
    xs = ys := by
  have hlen := congrArg List.length h
  rw [List.length_map, List.length_map] at hlen
  apply List.ext_getElem hlen
  intro i hi hi'
  have hbox : xs[i].inFlight = ys[i].inFlight := by
    have hget := List.getElem_of_eq h (by simpa using hi : i < (xs.map Detection.inFlight).length)
    simpa using hget
  exact List.inj_on_of_nodup_map hdistinct (hx (List.getElem_mem hi)) (hy (List.getElem_mem hi'))
    (congrArg MineDetector.Box.score hbox)

/-- The detections that stand are those kept in flight. -/
theorem standing_iff {candidates : List Detection}
    (hdistinct : (candidates.map Detection.confidence).Nodup) {standing : Set Detection} :
    Standing candidates standing ↔ ∀ a, a ∈ standing ↔ a ∈ flightKept candidates := by
  have hperm := List.mergeSort_perm candidates fun a b => decide (b.confidence ≤ a.confidence)
  have hasymm : ∀ a b : Detection, a.Stronger b → ¬ b.Stronger a := fun _ _ => lt_asymm
  have hsorted : Standing candidates standing ↔
      IsKernel (fun a b => MineDetector.defaultDedupIou ≤ Evaluation.iou a b) Detection.Stronger
        (candidates.mergeSort fun a b => decide (b.confidence ≤ a.confidence)) standing := by
    unfold Standing IsKernel
    simp only [hperm.mem_iff]
  rw [hsorted]
  constructor
  · intro hkernel
    exact hkernel.mem_iff hasymm (sorted_stronger hdistinct)
  · intro hall
    obtain rfl : standing = {a | a ∈ flightKept candidates} := Set.ext hall
    exact select_isKernel hasymm (sorted_stronger hdistinct)

/-- The overlap over the smaller box that separates the offline merges from the
one in flight. -/
theorem pairwise_kept_iff {candidates : List Detection} :
    ((flightKept candidates).Pairwise fun earlier later =>
        ¬ ¬ Evaluation.duplicateOverlap later earlier < 1 / 2) ↔
      (flightKept candidates).Pairwise fun earlier later =>
        Evaluation.containment later earlier < 1 / 2 := by
  have hkept := select_pairwise (fun a b => MineDetector.defaultDedupIou ≤ Evaluation.iou a b)
    (candidates.mergeSort fun a b => decide (b.confidence ≤ a.confidence))
  constructor
  · intro h
    apply h.imp
    intro earlier later hoverlap
    exact (max_lt_iff.mp (not_not.mp hoverlap)).2
  · intro h
    apply (hkept.and h).imp
    rintro earlier later ⟨hiou, hcontained⟩
    have hsmall : Evaluation.iou later earlier < 1 / 2 := by
      have hlt := lt_of_not_ge hiou
      rw [MineDetector.defaultDedupIou] at hlt
      linarith
    exact not_not.mpr (max_lt hsmall hcontained)

theorem containment_comm (first second : Detection) :
    Evaluation.containment first second = Evaluation.containment second first := by
  have hover : first.intersection second = second.intersection first := by
    simp only [Detection.intersection, min_comm, max_comm]
  simp only [Evaluation.containment, hover, min_comm]

/-- On detections with positive areas and distinct confidences the three merges
keep the same exactly when of those that stand by the overlap of flight no two
overlap in half of the smaller box. -/
theorem same_kept_iff {candidates : List Detection} (hpos : ∀ box ∈ candidates, 0 < box.area)
    (hdistinct : (candidates.map Detection.confidence).Nodup) :
    SameKept candidates ↔ ∀ standing, Standing candidates standing →
      ∀ a ∈ standing, ∀ b ∈ standing, a ≠ b → Evaluation.containment a b < 1 / 2 := by
  have hperm := List.mergeSort_perm candidates fun a b => decide (b.confidence ≤ a.confidence)
  have hoffline : (Evaluation.mergeCandidates candidates).1 =
      select (fun a b => ¬ Evaluation.duplicateOverlap a b < 1 / 2)
        (candidates.mergeSort fun a b => decide (b.confidence ≤ a.confidence)) := by
    rw [← mergeDetections_eq hdistinct]
    rfl
  have hsame : SameKept candidates ↔
      (Evaluation.mergeCandidates candidates).1 = flightKept candidates := by
    constructor
    · intro h
      have hmap := h.flight
      rw [dedupBoxes_eq hpos] at hmap
      refine (map_inFlight_inj hdistinct ?_ ?_ hmap).symm
      · exact fun a ha => hperm.subset (mem_of_mem_select _ ha)
      · rw [hoffline]
        exact fun a ha => hperm.subset (mem_of_mem_select _ ha)
    · intro h
      exact ⟨mergeDetections_eq hdistinct, by rw [dedupBoxes_eq hpos, h]⟩
  have hnodup : (flightKept candidates).Nodup := by
    have hsub := selectFrom_sublist
      (fun a b => MineDetector.defaultDedupIou ≤ Evaluation.iou a b) []
      (candidates.mergeSort fun a b => decide (b.confidence ≤ a.confidence))
    exact hsub.nodup (hperm.nodup_iff.mpr (List.Nodup.of_map _ hdistinct))
  rw [hsame, hoffline, flightKept, select_eq_iff, ← flightKept, pairwise_kept_iff]
  · constructor
    · intro h standing hstanding a ha b hb hne
      have hmem := (standing_iff hdistinct).mp hstanding
      have hsymm : Std.Symm fun earlier later : Detection =>
          Evaluation.containment later earlier < 1 / 2 := by
        constructor
        intro x y hxy
        rw [containment_comm]
        exact hxy
      exact h.forall ((hmem b).mp hb) ((hmem a).mp ha) (Ne.symm hne)
    · intro h
      have hall := h {a | a ∈ flightKept candidates} ((standing_iff hdistinct).mpr fun _ => Iff.rfl)
      apply hnodup.imp_of_mem
      intro a b ha hb hne
      exact hall b hb a ha (Ne.symm hne)
  · intro a ha b hb hiou
    rw [not_lt]
    exact duplicateOverlap_of_iou (hpos a (hperm.subset ha)) (hpos b (hperm.subset hb)) hiou

/-- A whole object and the fragment of it that a tile border cut off. -/
def wholeAndFragment : List Detection :=
  [{ x0 := 0, y0 := 0, x1 := 100, y1 := 100, confidence := 9 / 10, tileX := 0, tileY := 0 },
    { x0 := 0, y0 := 0, x1 := 20, y1 := 100, confidence := 8 / 10, tileX := 1, tileY := 0 }]

/-- The law on these two. -/
theorem same_kept_iff_whole :
    SameKept wholeAndFragment ↔ ∀ standing, Standing wholeAndFragment standing →
      ∀ a ∈ standing, ∀ b ∈ standing, a ≠ b → Evaluation.containment a b < 1 / 2 :=
  same_kept_iff (by decide +kernel) (by decide +kernel)

/-- In flight the fragment is kept, offline it is dropped. -/
theorem fragment_kept_in_flight :
    (∀ box ∈ wholeAndFragment, 0 < box.area) ∧
    (wholeAndFragment.map Detection.confidence).Nodup ∧
    MineDetector.dedupBoxes (wholeAndFragment.map Detection.inFlight) =
      wholeAndFragment.map Detection.inFlight ∧
    (Evaluation.mergeCandidates wholeAndFragment).1 = wholeAndFragment.take 1 ∧
    AuditIrl.mergeDetections wholeAndFragment = wholeAndFragment.take 1 := by
  have hpos : ∀ box ∈ wholeAndFragment, 0 < box.area := by decide +kernel
  have hdistinct : (wholeAndFragment.map Detection.confidence).Nodup := by decide +kernel
  have hsorted : (wholeAndFragment.mergeSort fun a b => decide (b.confidence ≤ a.confidence)) =
      wholeAndFragment := List.mergeSort_of_pairwise (by decide +kernel)
  have haudit : AuditIrl.mergeDetections wholeAndFragment = wholeAndFragment.take 1 := by
    rw [AuditIrl.mergeDetections, hsorted]
    decide +kernel
  refine ⟨hpos, hdistinct, ?_, ?_, haudit⟩
  · rw [dedupBoxes_eq hpos, flightKept, hsorted]
    decide +kernel
  · rw [← mergeDetections_eq hdistinct]
    exact haudit

end Mission10.Sensing
