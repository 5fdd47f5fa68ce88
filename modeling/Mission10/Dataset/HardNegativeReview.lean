import Mission10.Dataset.HardNegatives
import Mission10.Sensing.TileGrids

/-!
# Proposals and reviews of hard negatives

What a proposal holds, and what is left of it in a review. An entry is a tile of an
eligible photo without an annotation in it; a photo has eight of the baseline and
two of the grid at most. Updates of the confirmations lead to reviews that are
accepted, and a review that differs in anything else is not.
-/
namespace Mission10.Dataset.HardNegatives

open Outcome
open Sensing (Detection)

/-- A point inside a box. -/
def Inside (xyxy : List ℚ) (x y : ℚ) : Prop :=
  ∃ x0 y0 x1 y1, xyxy = [x0, y0, x1, y1] ∧ x0 < x ∧ x < x1 ∧ y0 < y ∧ y < y1

/-- The boxes of the objects and of the ignore regions of a photo. -/
def annotationBoxes (record : Photo) : List (List ℚ) :=
  record.objects.map Annotation.xyxy ++ record.ignoreRegions.map IgnoreRegion.xyxy

/-- A tile and a box have an area of the photo in common. -/
def SharesArea (record : Photo) (tileXyxy : List ℤ) (xyxy : List ℚ) : Prop :=
  ∃ x y, Inside [0, 0, record.width, record.height] x y ∧
    Inside (tileXyxy.map fun corner : ℤ => (corner : ℚ)) x y ∧ Inside xyxy x y

/-- A tile that has no area in common with an annotation of its photo. -/
def ClearTile (record : Photo) (tileXyxy : List ℤ) : Prop :=
  ∀ xyxy ∈ annotationBoxes record, ¬ SharesArea record tileXyxy xyxy

/-! ### One tile -/

theorem intersection_pos {first second : Detection} {x y : ℚ}
    (hfirst : first.x0 < x ∧ x < first.x1 ∧ first.y0 < y ∧ y < first.y1)
    (hsecond : second.x0 < x ∧ x < second.x1 ∧ second.y0 < y ∧ y < second.y1) :
    0 < first.intersection second := by
  have hx : max first.x0 second.x0 < min first.x1 second.x1 :=
    (max_lt hfirst.1 hsecond.1).trans (lt_min hfirst.2.1 hsecond.2.1)
  have hy : max first.y0 second.y0 < min first.y1 second.y1 :=
    (max_lt hfirst.2.2.1 hsecond.2.2.1).trans (lt_min hfirst.2.2.2 hsecond.2.2.2)
  rw [Detection.intersection, max_eq_right (sub_pos.mpr hx).le, max_eq_right (sub_pos.mpr hy).le]
  exact mul_pos (sub_pos.mpr hx) (sub_pos.mpr hy)

/-- A tile that is clear by the check has no area in common with an annotation. -/
theorem clearTile_of_isClear {record : Photo} {tile : ℤ} {origin : ℤ × ℤ}
    (h : isClear record tile origin = true) :
    ClearTile record [origin.1, origin.2, origin.1 + tile, origin.2 + tile] := by
  rintro xyxy hxyxy ⟨x, y, ⟨_, _, _, _, hphoto, -, hwidth, -, hheight⟩,
    ⟨_, _, _, _, hcorners, hx0, hx1, hy0, hy1⟩, ⟨x0, y0, x1, y1, rfl, hbox⟩⟩
  simp only [List.cons.injEq, and_true] at hphoto
  simp only [List.map_cons, List.map_nil, List.cons.injEq, and_true] at hcorners
  obtain ⟨-, -, rfl, rfl⟩ := hphoto
  obtain ⟨rfl, rfl, rfl, rfl⟩ := hcorners
  have hrect : (tileRect origin.1 origin.2 tile record.width record.height).x0 < x ∧
      x < (tileRect origin.1 origin.2 tile record.width record.height).x1 ∧
      (tileRect origin.1 origin.2 tile record.width record.height).y0 < y ∧
      y < (tileRect origin.1 origin.2 tile record.width record.height).y1 := by
    simp only [tileRect, Int.cast_min, lt_min_iff]
    exact ⟨hx0, ⟨hx1, hwidth⟩, hy0, hy1, hheight⟩
  have hshared : 0 < (tileRect origin.1 origin.2 tile record.width record.height).intersection
      ⟨x0, y0, x1, y1, 1, 0, 0⟩ := intersection_pos hrect hbox
  rw [isClear, Bool.not_eq_true', rectIntersectsAnnotations, List.any_eq_false] at h
  apply h ⟨x0, y0, x1, y1, 1, 0, 0⟩ (List.mem_filterMap.mpr ⟨_, hxyxy, rfl⟩)
  exact decide_eq_true hshared

/-- The tiles of a photo are those of the shared grid. -/
theorem tileOrigins_eq_tileGrid {width height tile overlap : ℤ}
    (hoverlap : 0 ≤ overlap ∧ overlap < tile) (hwidth : 1 ≤ width) (hheight : 1 ≤ height) :
    Sensing.Tiles.tileGrid width height tile overlap =
      .ok (tileOrigins width height tile overlap) := by
  rw [Sensing.Tiles.tileGrid, if_neg (not_not.mpr hoverlap), if_neg (by omega)]
  rfl

/-! ### Reviews that are valid -/

section Reviews

variable {digests : TileDigests} {review checked : Review} {requireDecided : Bool}

theorem checkReviewEntries_ok {tile : ℤ} {index : ℕ} {seen : List String}
    {entries : List ReviewEntry}
    (h : checkReviewEntries digests tile requireDecided index seen entries = .ok ()) :
    (entries.map ReviewEntry.id).Nodup ∧ (∀ entry ∈ entries, entry.id ∉ seen) ∧
      ∀ entry ∈ entries, requireDecided = true → entry.confirmation ≠ .pending := by
  induction entries generalizing index seen with
  | nil => exact ⟨List.nodup_nil, by simp, by simp⟩
  | cons entry entries ih =>
    simp only [checkReviewEntries, refuseIf_bind_eq_ok] at h
    obtain ⟨hnew, hdecided, -, h⟩ := h
    obtain ⟨⟨⟩, -, h⟩ := bind_ok h
    simp only [refuseIf_bind_eq_ok] at h
    obtain ⟨hnodup, hrest, hall⟩ := ih h.2.2
    refine ⟨?_, ?_, ?_⟩
    · rw [List.map_cons, List.nodup_cons]
      refine ⟨fun hmem => ?_, hnodup⟩
      obtain ⟨other, hother, hsame⟩ := List.mem_map.mp hmem
      exact hrest other hother (hsame ▸ List.mem_cons_self)
    · intro other hother
      rcases List.mem_cons.mp hother with rfl | hother
      · exact hnew
      · exact fun hmem => hrest other hother (List.mem_cons_of_mem _ hmem)
    · intro other hother hrequired
      rcases List.mem_cons.mp hother with rfl | hother
      · exact fun hpending => hdecided ⟨hrequired, hpending⟩
      · exact hall other hother hrequired

/-- A review that passes the checks names every entry once, and every one is decided where
that is required. -/
theorem validateReview_ok (h : validateReview digests review requireDecided = .ok checked) :
    checked = review ∧ (review.entries.map ReviewEntry.id).Nodup ∧
      ∀ entry ∈ review.entries, requireDecided = true → entry.confirmation ≠ .pending := by
  simp only [validateReview, refuseIf_bind_eq_ok] at h
  obtain ⟨-, -, h⟩ := h
  obtain ⟨⟨⟩, hentries, h⟩ := bind_ok h
  obtain ⟨hnodup, -, hdecided⟩ := checkReviewEntries_ok hentries
  exact ⟨pure_ok h, hnodup, hdecided⟩

end Reviews

/-! ### Proposals -/

section Proposals

variable {digests : TileDigests} {labels : FileAt Labels} {baseline : FileAt Audit}
  {proposal : Review} {audit : Audit} {records : List AuditRecord} {record : Photo}
  {entries : List ReviewEntry}

/-- An entry that is proposed of a photo. -/
def ProposedOf (digests : TileDigests) (tile : ℤ) (record : Photo) (entry : ReviewEntry) : Prop :=
  ∃ kind confidence origin, entry = proposalEntry digests record tile kind confidence origin ∧
    isClear record tile origin = true

/-- The entries that are proposed of a photo. -/
structure PhotoProposal (digests : TileDigests) (tile : ℤ) (record : Photo)
    (entries : List ReviewEntry) : Prop where
  proposed : ∀ entry ∈ entries, ProposedOf digests tile record entry
  baseline : entries.countP (fun entry => entry.kind = .baselineCandidate) ≤ maxBaselinePerPhoto
  clean : entries.countP (fun entry => entry.kind = .deterministicClean) ≤ cleanPerPhoto

theorem proposePhoto_ok (h : proposePhoto digests audit records record = .ok entries) :
    PhotoProposal digests audit.tilePx record entries := by
  obtain ⟨auditRecord, -, h⟩ := bind_ok h
  obtain ⟨candidates, -, h⟩ := bind_ok h
  obtain ⟨-, h⟩ := refuseIf_bind_eq_ok.mp h
  obtain ⟨strongest, -, h⟩ := bind_ok h
  obtain rfl := pure_ok h
  have hbaseline (item : (ℤ × ℤ) × ℚ)
      (hitem : item ∈ baselineOrigins record audit.tilePx strongest) :
      isClear record audit.tilePx item.1 = true :=
    (List.mem_filter.mp (List.mem_of_mem_take hitem)).2
  have hclean (origin : ℤ × ℤ) (used : List (ℤ × ℤ))
      (horigin : origin ∈ cleanOrigins digests record audit.tilePx audit.overlapPx used) :
      isClear record audit.tilePx origin = true :=
    (Bool.and_eq_true_iff.mp (List.mem_filter.mp (List.mem_of_mem_take horigin)).2).2
  refine ⟨?_, ?_, ?_⟩
  · intro entry hentry
    rcases List.mem_append.mp hentry with hentry | hentry
    · obtain ⟨item, hitem, rfl⟩ := List.mem_map.mp hentry
      exact ⟨_, _, _, rfl, hbaseline item hitem⟩
    · obtain ⟨origin, horigin, rfl⟩ := List.mem_map.mp hentry
      exact ⟨_, _, _, rfl, hclean origin _ horigin⟩
  · rw [List.countP_append, List.countP_map, List.countP_map]
    have hnone : (cleanOrigins digests record audit.tilePx audit.overlapPx
        ((baselineOrigins record audit.tilePx strongest).map Prod.fst)).countP
          ((fun entry : ReviewEntry => decide (entry.kind = .baselineCandidate)) ∘
            proposalEntry digests record audit.tilePx .deterministicClean none) = 0 := by
      simp [List.countP_eq_zero, proposalEntry]
    rw [hnone, Nat.add_zero]
    exact List.countP_le_length.trans (List.length_take_le _ _)
  · rw [List.countP_append, List.countP_map, List.countP_map]
    have hnone : (baselineOrigins record audit.tilePx strongest).countP
        ((fun entry : ReviewEntry => decide (entry.kind = .deterministicClean)) ∘
          fun item => proposalEntry digests record audit.tilePx .baselineCandidate (some item.2)
            item.1) = 0 := by
      simp [List.countP_eq_zero, proposalEntry]
    rw [hnone, Nat.zero_add]
    exact List.countP_le_length.trans (List.length_take_le _ _)

/-- Of entries in parts, one part for each photo, those of one photo are in its part. -/
theorem countP_parts_le {records : List Photo} {parts : List (List ReviewEntry)}
    {p : ReviewEntry → Bool} {bound : ℕ} (sourceSha256 : String)
    (hparts : List.Forall₂ (fun record entries => (∀ entry ∈ entries,
      entry.sourceSha256 = record.sourceSha256) ∧ entries.countP p ≤ bound) records parts)
    (hnodup : (records.map Photo.sourceSha256).Nodup) :
    parts.flatten.countP (fun entry => decide (entry.sourceSha256 = sourceSha256) && p entry) ≤
      bound := by
  induction hparts with
  | nil => simp
  | cons hpart hrest ih =>
    rename_i record entries records parts
    obtain ⟨hsource, hbound⟩ := hpart
    rw [List.map_cons, List.nodup_cons] at hnodup
    rw [List.flatten_cons, List.countP_append]
    by_cases hsame : record.sourceSha256 = sourceSha256
    · have hothers : parts.flatten.countP
          (fun entry => decide (entry.sourceSha256 = sourceSha256) && p entry) = 0 := by
        rw [List.countP_eq_zero]
        intro entry hentry hp
        obtain ⟨part, hpart, hmem⟩ := List.mem_flatten.mp hentry
        obtain ⟨other, hother, hof⟩ := exists_left_of_forall₂ hrest hpart
        have hname := of_decide_eq_true (Bool.and_eq_true_iff.mp hp).1
        apply hnodup.1
        rw [hsame, ← hname, hof.1 entry hmem]
        exact List.mem_map_of_mem hother
      rw [hothers, Nat.add_zero]
      refine (List.countP_mono_left fun entry _ hp => ?_).trans hbound
      exact (Bool.and_eq_true_iff.mp hp).2
    · have hnone : entries.countP
          (fun entry => decide (entry.sourceSha256 = sourceSha256) && p entry) = 0 := by
        rw [List.countP_eq_zero]
        intro entry hentry hp
        have hname := of_decide_eq_true (Bool.and_eq_true_iff.mp hp).1
        exact hsame ((hsource entry hentry).symm.trans hname)
      rw [hnone, Nat.zero_add]
      exact ih hnodup.2

/-- What a proposal holds. -/
structure ProposalOf (digests : TileDigests) (labels : FileAt Labels) (baseline : FileAt Audit)
    (proposal : Review) : Prop where
  certified : validateLabels digests.toDigests labels.document true true = .ok labels.document
  labelsSha256 : proposal.labelsSha256 = digests.sha256 labels.bytes
  baselineSha256 : proposal.baselineSha256 = digests.sha256 baseline.bytes
  valid : validateReview digests proposal false = .ok proposal
  proposed : ∀ entry ∈ proposal.entries, ∃ record ∈ labels.document.images,
    isEligible record = true ∧ ProposedOf digests proposal.tilePx record entry
  baseline : ∀ sourceSha256, proposal.entries.countP (fun entry =>
    decide (entry.sourceSha256 = sourceSha256) && decide (entry.kind = .baselineCandidate)) ≤
      maxBaselinePerPhoto
  clean : ∀ sourceSha256, proposal.entries.countP (fun entry =>
    decide (entry.sourceSha256 = sourceSha256) && decide (entry.kind = .deterministicClean)) ≤
      cleanPerPhoto

theorem propose_ok (h : propose digests labels baseline = .ok proposal) :
    ProposalOf digests labels baseline proposal := by
  obtain ⟨document, hlabels, h⟩ := bind_ok h
  obtain ⟨rfl, hdistinct⟩ := validateLabels_distinct hlabels
  obtain ⟨records, -, h⟩ := bind_ok h
  obtain ⟨-, h⟩ := refuseIf_bind_eq_ok.mp h
  obtain ⟨-, h⟩ := refuseIf_bind_eq_ok.mp h
  obtain ⟨parts, hparts, hvalid⟩ := bind_ok h
  obtain ⟨rfl, -⟩ := validateReview_ok hvalid
  have hall := (mapM_eq_ok.mp hparts).imp fun _ _ hpart => proposePhoto_ok hpart
  have hsort := List.perm_insertionSort (fun first second : ReviewEntry => first.id ≤ second.id)
    parts.flatten
  have hcount {p : ReviewEntry → Bool} {bound : ℕ} (sourceSha256 : String)
      (hbound : ∀ record entries, PhotoProposal digests baseline.document.tilePx record entries →
        entries.countP p ≤ bound) :
      (sortReviewEntries parts.flatten).countP (fun entry =>
        decide (entry.sourceSha256 = sourceSha256) && p entry) ≤ bound := by
    rw [sortReviewEntries, hsort.countP_eq]
    refine countP_parts_le sourceSha256 (hall.imp fun record entries hpart => ?_)
      (hdistinct.filter _).hashes
    refine ⟨fun entry hentry => ?_, hbound record entries hpart⟩
    obtain ⟨_, _, _, rfl, -⟩ := hpart.proposed entry hentry
    rfl
  refine ⟨hlabels, rfl, rfl, hvalid, ?_, ?_, ?_⟩
  · intro entry hentry
    obtain ⟨part, hpart, hmem⟩ := List.mem_flatten.mp (hsort.mem_iff.mp hentry)
    obtain ⟨record, hrecord, hof⟩ := exists_left_of_forall₂ hall hpart
    obtain ⟨himage, heligible⟩ := List.mem_filter.mp hrecord
    exact ⟨record, himage, heligible, hof.proposed entry hmem⟩
  · exact fun sourceSha256 => hcount sourceSha256 fun _ _ hpart => hpart.baseline
  · exact fun sourceSha256 => hcount sourceSha256 fun _ _ hpart => hpart.clean

end Proposals

/-! ### What a reviewer may change -/

section Revalidation

variable {digests : TileDigests} {labels : FileAt Labels} {baseline : FileAt Audit}
  {proposal review next : Review}

@[simp] theorem confirm_confirm (entry : ReviewEntry) (first second : Decision) :
    (entry.confirm first).confirm second = entry.confirm second := rfl

theorem provenance_entries (review : Review) :
    review.provenance.entries = review.entries.map (ReviewEntry.confirm · .pending) := rfl

/-- An update changes a confirmation and leaves a valid review. -/
theorem updateConfirmation_ok {update : Update}
    (h : updateConfirmation digests review update = .ok next) :
    validateReview digests next false = .ok next ∧ next.provenance = review.provenance := by
  obtain ⟨_, -, h⟩ := bind_ok h
  obtain ⟨-, h⟩ := refuseIf_bind_eq_ok.mp h
  obtain ⟨-, h⟩ := refuseIf_bind_eq_ok.mp h
  obtain ⟨-, h⟩ := refuseIf_bind_eq_ok.mp h
  obtain ⟨-, hvalid⟩ := refuseIf_bind_eq_ok.mp h
  obtain ⟨rfl, -⟩ := validateReview_ok hvalid
  refine ⟨hvalid, ?_⟩
  have hentries : (review.entries.map fun entry =>
      if entry.id = update.id then entry.confirm update.confirmation else entry).map
        (ReviewEntry.confirm · .pending) = review.entries.map (ReviewEntry.confirm · .pending) := by
    rw [List.map_map]
    apply List.map_congr_left
    intro entry _
    by_cases hid : entry.id = update.id
    · simp [hid]
    · simp [hid]
  simp only [Review.provenance, hentries]

/-- So does every sequence of updates. -/
theorem updates_ok {updates : List Update} (hvalid : validateReview digests review false = .ok review)
    (h : updates.foldlM (updateConfirmation digests) review = .ok next) :
    validateReview digests next false = .ok next ∧ next.provenance = review.provenance := by
  induction updates generalizing review with
  | nil =>
    obtain rfl := pure_ok h
    exact ⟨hvalid, rfl⟩
  | cons update updates ih =>
    rw [List.foldlM_cons] at h
    obtain ⟨updated, hupdated, h⟩ := bind_ok h
    obtain ⟨hvalid', hsame⟩ := updateConfirmation_ok hupdated
    obtain ⟨hnext, hprovenance⟩ := ih hvalid' h
    exact ⟨hnext, hprovenance.trans hsame⟩

/-- All that is proposed is pending. -/
theorem ProposalOf.provenance_eq (h : ProposalOf digests labels baseline proposal) :
    proposal.provenance = proposal := by
  have hentries : proposal.entries.map (ReviewEntry.confirm · .pending) = proposal.entries := by
    refine (List.map_congr_left fun entry hentry => ?_).trans (List.map_id _)
    obtain ⟨_, -, -, _, _, _, rfl, -⟩ := h.proposed entry hentry
    rfl
  rw [Review.provenance, hentries]

/-- An entry of a review with the provenance of the proposal was proposed. -/
theorem ProposalOf.mem_of_provenance (h : ProposalOf digests labels baseline proposal)
    (hsame : review.provenance = proposal.provenance) {entry : ReviewEntry}
    (hentry : entry ∈ review.entries) : entry.confirm .pending ∈ proposal.entries := by
  have hentries := congrArg Review.entries (hsame.trans h.provenance_eq)
  rw [← hentries, provenance_entries]
  exact List.mem_map_of_mem hentry

theorem findRecord_of_mem {document : Labels} (hdistinct : Distinct document.images)
    {record : Photo} (hrecord : record ∈ document.images) :
    findRecord document record.sourceSha256 = some record := by
  cases hfound : findRecord document record.sourceSha256 with
  | none =>
    have hnot := List.find?_eq_none.mp hfound record hrecord
    simp at hnot
  | some other =>
    have hother : other.sourceSha256 = record.sourceSha256 := by
      simpa using List.find?_some hfound
    rw [List.inj_on_of_nodup_map hdistinct.hashes (List.mem_of_find?_eq_some hfound) hrecord hother]

/-- Entries of clear tiles of eligible photos pass the last check. -/
theorem checkEntrySources_total {document : Labels} (hdistinct : Distinct document.images)
    {tile : ℤ} {entries : List ReviewEntry}
    (h : ∀ entry ∈ entries, ∃ record ∈ document.images, isEligible record = true ∧
      ProposedOf digests tile record (entry.confirm .pending)) :
    checkEntrySources document tile entries = .ok () := by
  induction entries with
  | nil => rfl
  | cons entry entries ih =>
    obtain ⟨⟨record, hrecord, heligible, kind, confidence, origin, heq, hclear⟩, hrest⟩ :=
      List.forall_mem_cons.mp h
    have hsha256 : entry.sourceSha256 = record.sourceSha256 := congrArg ReviewEntry.sourceSha256 heq
    have hsource : entry.source = record.source := congrArg ReviewEntry.source heq
    have hcorners : entry.tileXyxy =
        [origin.1, origin.2, origin.1 + tile, origin.2 + tile] := congrArg ReviewEntry.tileXyxy heq
    have hfound : getOr (findRecord document entry.sourceSha256)
        s!"review source changed: {entry.id}" = .ok record := by
      rw [getOr_eq_ok, hsha256]
      exact findRecord_of_mem hdistinct hrecord
    obtain ⟨hrole, hstate⟩ := Bool.and_eq_true_iff.mp heligible
    have htile : checkEntryTile tile record entry = .ok () := by
      rw [isClear, Bool.not_eq_true'] at hclear
      simp only [checkEntryTile, hcorners]
      rw [refuseIf_neg (by rw [hclear]; exact Bool.false_ne_true)]
    rw [checkEntrySources, hfound, ok_bind, refuseIf_neg (not_not.mpr hsource.symm), ok_bind,
      refuseIf_neg, ok_bind, htile, ok_bind]
    · exact ih hrest
    · rw [not_or, not_not, not_not]
      exact ⟨of_decide_eq_true hrole, of_decide_eq_true hstate⟩

/-- The reviews that are accepted are the valid ones that differ from the proposal in
confirmations at most. -/
theorem revalidateReview_eq_ok (hpropose : propose digests labels baseline = .ok proposal)
    {document : Labels} :
    revalidateReview digests review labels baseline = .ok document ↔
      document = labels.document ∧ validateReview digests review false = .ok review ∧
        review.provenance = proposal.provenance := by
  have hproposal := propose_ok hpropose
  constructor
  · intro h
    obtain ⟨checked, hvalid, h⟩ := bind_ok h
    obtain ⟨rfl, -⟩ := validateReview_ok hvalid
    obtain ⟨-, h⟩ := refuseIf_bind_eq_ok.mp h
    obtain ⟨-, h⟩ := refuseIf_bind_eq_ok.mp h
    rw [hpropose, ok_bind] at h
    obtain ⟨hsame, h⟩ := refuseIf_bind_eq_ok.mp h
    rw [hproposal.certified, ok_bind] at h
    obtain ⟨⟨⟩, -, h⟩ := bind_ok h
    exact ⟨pure_ok h, hvalid, not_not.mp hsame⟩
  · rintro ⟨rfl, hvalid, hsame⟩
    have heq := hsame.trans hproposal.provenance_eq
    have hlabels : digests.sha256 labels.bytes = review.labelsSha256 :=
      ((congrArg Review.labelsSha256 heq).trans hproposal.labelsSha256).symm
    have hbaseline : digests.sha256 baseline.bytes = review.baselineSha256 :=
      ((congrArg Review.baselineSha256 heq).trans hproposal.baselineSha256).symm
    have hprovenance : review.provenance.tilePx = review.tilePx := rfl
    have htile : review.tilePx = proposal.tilePx :=
      hprovenance.symm.trans (congrArg Review.tilePx heq)
    have hsources : checkEntrySources labels.document review.tilePx review.entries = .ok () := by
      have hproposed : ∀ entry ∈ review.entries, ∃ record ∈ labels.document.images,
          isEligible record = true ∧
            ProposedOf digests review.tilePx record (entry.confirm .pending) := by
        intro entry hentry
        rw [htile]
        exact hproposal.proposed _ (hproposal.mem_of_provenance hsame hentry)
      exact checkEntrySources_total (validateLabels_distinct hproposal.certified).2 hproposed
    rw [revalidateReview, hvalid, ok_bind, refuseIf_neg (not_not.mpr hlabels), ok_bind,
      refuseIf_neg (not_not.mpr hbaseline), ok_bind, hpropose, ok_bind,
      refuseIf_neg (not_not.mpr hsame), ok_bind, hproposal.certified, ok_bind, hsources]
    rfl

/-- What a reviewer makes of the proposal is accepted. -/
theorem revalidateReview_updates (hpropose : propose digests labels baseline = .ok proposal)
    {updates : List Update}
    (h : updates.foldlM (updateConfirmation digests) proposal = .ok review) :
    revalidateReview digests review labels baseline = .ok labels.document := by
  obtain ⟨hvalid, hsame⟩ := updates_ok (propose_ok hpropose).valid h
  exact (revalidateReview_eq_ok hpropose).mpr ⟨rfl, hvalid, hsame⟩

end Revalidation

end Mission10.Dataset.HardNegatives
