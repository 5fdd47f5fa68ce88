import Mission10.Dataset.ComponentReading
import Mission10.Dataset.RealPositives

/-!
# What a fold is made into

The hard negatives of a fold are the records of its component whose photos are not
held out. Its positives are the contexts of the training photos and the pastes of
the confirmed masks among them. Both are listed in the order of their tiles in a
directory of their own.
-/
namespace Mission10.Dataset

open Outcome

/-- Whether a provenance names one of the photos at its top. -/
def isHeldOut (heldOut : List String) (provenance : Json) : Bool :=
  match provenance.get "source_sha256" with
  | some (.str hash) => heldOut.contains hash
  | _ => false

namespace FoldInputs

variable (inputs : FoldInputs)

/-- The held-out photos. -/
def heldOut : List String := sideHashes inputs.foldLock.document inputs.heldOutFold true

/-- The photos of the training folds. -/
def training : List String := sideHashes inputs.foldLock.document inputs.heldOutFold false

end FoldInputs

variable {digests : Digests} {dumps : ComponentLock → List UInt8} {pillow : Pillow}
  {random : Random}

theorem mem_sortEntries {entries : List Entry} {entry : Entry} :
    entry ∈ sortEntries entries ↔ entry ∈ entries :=
  (List.perm_insertionSort _ entries).mem_iff

/-! ### The hard negatives -/

/-- A record with the provenance that is written: the fields there are, or none. -/
def Record.written (record : Record) : Record :=
  { record with
    provenance := match record.provenance with
      | .obj fields => .obj fields
      | _ => .obj [] }

theorem provenanceFields_ok {record : Record} {fields : List (String × Json)}
    (h : provenanceFields record.provenance = .ok fields) :
    record.written.provenance = .obj fields ∧
      ∀ key, (Json.obj fields).get key = record.provenance.get key := by
  unfold provenanceFields at h
  split at h
  case h_7 read hread =>
    rw [pure_ok h]
    simp [Record.written, hread]
  case h_4 x hread =>
    split_ifs at h
    rw [pure_ok h]
    simp [Record.written, hread, Json.get]
  case h_8 => exact absurd h error_ne_ok
  all_goals
    rename_i hread
    rw [pure_ok h]
    simp [Record.written, hread, Json.get]

theorem isExcluded_ok {excluded : List String} {provenance : Json} {out : Bool}
    (h : isExcluded excluded (provenance.get "source_sha256") = .ok out) :
    out = isHeldOut excluded provenance := by
  unfold isExcluded at h
  unfold isHeldOut
  split at h
  · next hash hget => rw [hget]; exact pure_ok h
  · exact absurd h error_ne_ok
  · exact absurd h error_ne_ok
  · next hstr _ _ =>
    rw [pure_ok h]
    split
    · next hash hget => exact absurd hget (hstr hash)
    · rfl

/-- The records that are kept are those of photos that are not held out. -/
theorem keepRecords_ok {excluded : List String} {records : List Record}
    {kept : List Record × ℕ} (h : keepRecords excluded records = .ok kept) :
    kept.1 = (records.filter fun record => !isHeldOut excluded record.provenance).map
      Record.written := by
  induction records generalizing kept with
  | nil => rw [pure_ok h]; rfl
  | cons record records ih =>
    simp only [keepRecords, bind_eq_ok] at h
    obtain ⟨fields, hfields, out, hout, rest, hrest, h⟩ := h
    obtain ⟨hwritten, hget⟩ := provenanceFields_ok hfields
    rw [hget] at hout
    have hkept := ih hrest
    rw [isExcluded_ok hout] at h
    rw [List.filter_cons]
    cases hheld : isHeldOut excluded record.provenance with
    | true =>
      rw [hheld] at h
      rw [pure_ok h]
      exact hkept
    | false =>
      rw [hheld] at h
      rw [pure_ok h]
      have hrecord : { record with provenance := .obj fields } = record.written := by
        rw [← hwritten]
        rfl
      simp only [hrecord, hkept, Bool.not_false, if_true, List.map_cons]

/-- The hard negatives that are left, in the directory they are written to. -/
structure FilteredOf (digests : Digests) (sourceComponent : Directory) (excluded : List String)
    (source : Component) (kept : List Record) (written : WrittenComponent) : Prop where
  read : loadComponent digests.sha256 .hardneg sourceComponent = .ok source
  filtered : kept = ((source.split .train).filter fun record =>
    !isHeldOut excluded record.provenance).map Record.written
  nonempty : kept ≠ []
  entries : written.lock.entries = [("train", sortEntries (kept.map recordEntry))]
  schema : written.lock.schema = "mission10-yolo-training-component/1"
  images : written.directory.images .train = some (kept.map fun record =>
    (record.tile ++ (PathName.suffix record.image.1).toLower, record.image.2))
  labels : written.directory.labels .train = some (kept.map fun record =>
    (record.tile ++ ".txt", record.label))
  lock : ∃ bytes, written.directory.componentLock = some ⟨written.lock, bytes⟩

theorem filterHardNegatives_ok {sourceComponent : Directory} {out : Out} {foldLockPath : String}
    {foldLock : JsonFile FoldDocument} {heldOutFold : ℤ} {written : WrittenComponent}
    (h : filterHardNegatives digests dumps sourceComponent out foldLockPath foldLock heldOutFold =
      .ok written) :
    (foldLock.document.assignments.map Assignment.sourceSha256).Nodup ∧
      ∃ source kept, FilteredOf digests sourceComponent
        (sideHashes foldLock.document heldOutFold true) source kept written := by
  obtain ⟨source, hsource, h⟩ := bind_ok h
  obtain ⟨fold, hfold, h⟩ := bind_ok h
  obtain ⟨excluded, hexcluded, h⟩ := bind_ok h
  obtain ⟨-, h⟩ := refuseIf_bind_eq_ok.mp h
  obtain ⟨kept, hkept, h⟩ := bind_ok h
  obtain ⟨hne, h⟩ := refuseIf_bind_eq_ok.mp h
  rw [(validateFoldDocument_nodup hfold).1] at hexcluded
  obtain ⟨hhashes, hnodup⟩ := sourceHashes_ok hexcluded
  rw [hhashes] at hkept
  rw [pure_ok h]
  exact ⟨hnodup, source, kept.1, hsource, keepRecords_ok hkept, hne, rfl, rfl, rfl, rfl, _, rfl⟩

/-! ### The positives -/

/-- The positives of a fold, in the directory they are written to. -/
structure PositivesOf (digests : Digests) (pillow : Pillow) (random : Random)
    (inputs : FoldInputs) (filteredHardneg : Directory) (production hardneg : Component)
    (contexts pastes : List Made) (written : WrittenComponent) : Prop where
  readProduction : loadComponent digests.sha256 .production inputs.production = .ok production
  readHardneg : loadComponent digests.sha256 .hardneg filteredHardneg = .ok hardneg
  makes : makeContexts pillow digests.sha256 inputs.photo
    (trainingPhotos inputs.labelsFile.document inputs.training) = .ok contexts
  pastesOnto : makePastes pillow random digests.sha256 inputs.cutout (hardneg.split .train)
    (production.split .train) (confirmedMasks inputs.reviewFile.document inputs.training) =
      .ok pastes
  reviewed : ∃ review, loadMaskReview inputs.reviewFile true = .ok review
  certified : ∃ labels, validateLabels digests inputs.labelsFile.document true true = .ok labels
  entries : written.lock.entries =
    [("train", sortEntries ((contexts ++ pastes).map (madeEntry digests)))]
  schema : written.lock.schema = "mission10-yolo-training-component/1"
  images : written.directory.images .train = some (filesOf ".png" Made.image (contexts ++ pastes))
  labels : written.directory.labels .train = some (filesOf ".txt" Made.label (contexts ++ pastes))
  lock : ∃ bytes, written.directory.componentLock = some ⟨written.lock, bytes⟩

theorem validateLabels_ok {document labels : Labels} {requireFrozen requireCertified : Bool}
    (h : validateLabels digests document requireFrozen requireCertified = .ok labels) :
    labels = document := by
  simp only [validateLabels, refuseIf_bind_eq_ok] at h
  obtain ⟨-, -, h⟩ := h
  obtain ⟨⟨⟩, -, h⟩ := bind_ok h
  obtain ⟨⟨⟩, -, h⟩ := bind_ok h
  obtain ⟨⟨⟩, -, h⟩ := bind_ok h
  exact pure_ok h

theorem loadMaskReview_ok {file : JsonFile MaskReview} {review : MaskReview}
    (h : loadMaskReview file true = .ok review) : review = file.document := by
  obtain ⟨document, hvalid, h⟩ := bind_ok h
  obtain ⟨-, h⟩ := refuseIf_bind_eq_ok.mp h
  simp only [validateMaskReview, refuseIf_bind_eq_ok] at hvalid
  obtain ⟨-, -, hvalid⟩ := hvalid
  obtain ⟨⟨⟩, -, hvalid⟩ := bind_ok hvalid
  rw [pure_ok h, pure_ok hvalid]

theorem loadFoldDocumentFor_ok {file : JsonFile FoldDocument} {labelsFile : JsonFile Labels}
    {document : FoldDocument} (h : loadFoldDocumentFor digests file labelsFile = .ok document) :
    document = file.document := by
  obtain ⟨labels, -, h⟩ := bind_ok h
  exact (validateFoldDocument_nodup h).1

theorem materializeRealPositives_ok {inputs : FoldInputs} {filteredHardneg : Directory}
    {written : WrittenComponent}
    (h : materializeRealPositives digests dumps pillow random inputs filteredHardneg =
      .ok written) :
    ∃ production hardneg contexts pastes, PositivesOf digests pillow random inputs
      filteredHardneg production hardneg contexts pastes written := by
  obtain ⟨labels, hlabels, h⟩ := bind_ok h
  obtain ⟨review, hreview, h⟩ := bind_ok h
  obtain ⟨-, h⟩ := refuseIf_bind_eq_ok.mp h
  obtain ⟨fold, hfold, h⟩ := bind_ok h
  obtain ⟨trainingHashes, htraining, h⟩ := bind_ok h
  obtain ⟨-, h⟩ := refuseIf_bind_eq_ok.mp h
  obtain ⟨production, hproduction, h⟩ := bind_ok h
  obtain ⟨hardneg, hhardneg, h⟩ := bind_ok h
  obtain ⟨-, h⟩ := refuseIf_bind_eq_ok.mp h
  obtain ⟨contexts, hcontexts, h⟩ := bind_ok h
  obtain ⟨pastes, hpastes, h⟩ := bind_ok h
  rw [loadFoldDocumentFor_ok hfold] at htraining
  rw [(sourceHashes_ok htraining).1, validateLabels_ok hlabels] at hcontexts
  rw [(sourceHashes_ok htraining).1, loadMaskReview_ok hreview] at hpastes
  rw [pure_ok h]
  exact ⟨production, hardneg, contexts, pastes, hproduction, hhardneg, hcontexts, hpastes,
    ⟨review, hreview⟩, ⟨labels, hlabels⟩, rfl, rfl, rfl, rfl, _, rfl⟩

theorem drawTargets_mem {hardneg production : List Record} {entry : MaskEntry}
    {targets : List ((String × Record) × ℕ)} {state : random.State}
    {target : (String × Record) × ℕ}
    (h : drawTargets random hardneg production entry = .ok (targets, state))
    (htarget : target ∈ targets) : target.1.2 ∈ hardneg ∨ target.1.2 ∈ production := by
  simp only [drawTargets, refuseIf_bind_eq_ok] at h
  obtain ⟨-, -, -, h⟩ := h
  obtain ⟨htargets, -⟩ := Prod.mk.inj (pure_ok h)
  rw [htargets] at htarget
  rcases List.mem_append.mp (List.of_mem_zip htarget).1 with hreal | hsynthetic
  · obtain ⟨i, -, hi⟩ := List.mem_map.mp hreal
    rw [← hi]
    exact Or.inl (List.get_mem _ i)
  · obtain ⟨i, -, hi⟩ := List.mem_map.mp hsynthetic
    rw [← hi]
    exact Or.inr (List.get_mem _ i)

theorem materializeFold_ok {inputs : FoldInputs} {one : WrittenComponent × WrittenComponent}
    (h : materializeFold digests dumps pillow random inputs = .ok one) :
    (inputs.foldLock.document.assignments.map Assignment.sourceSha256).Nodup ∧
      (∃ source kept, FilteredOf digests inputs.hardneg inputs.heldOut source kept one.1) ∧
      ∃ production hardneg contexts pastes, PositivesOf digests pillow random inputs
        one.1.directory production hardneg contexts pastes one.2 := by
  obtain ⟨filtered, hfiltered, h⟩ := bind_ok h
  obtain ⟨positives, hpositives, h⟩ := bind_ok h
  obtain ⟨hnodup, hkept⟩ := filterHardNegatives_ok hfiltered
  rw [pure_ok h]
  exact ⟨hnodup, hkept, materializeRealPositives_ok hpositives⟩

end Mission10.Dataset
