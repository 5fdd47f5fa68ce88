import Mission10.Dataset.Documents
import Mission10.Library.Outcome
import Mission10.Library.PlainText

/-!
# Annotations of real photos

The checks of a label document and of a mask review. A certified label document
is bound to its content by the digests it carries, of the roles that were frozen
and of everything that was certified.
-/
namespace Mission10.Dataset

open Outcome

variable (digests : Digests)

/-- `_role_assignments`. -/
def roleAssignments (document : Labels) : List RoleAssignment :=
  (document.images.insertionSort fun first second =>
      first.sourceSha256 ≤ second.sourceSha256).map fun image =>
    ⟨image.sourceSha256, image.captureGroup, image.role⟩

/-- `_annotation_payload`. -/
def annotationPayload (document : Labels) : AnnotationPayload where
  schema := document.schema
  images := document.images
  roleFreeze := document.roleFreeze
  certification := document.certification.map fun certification =>
    (certification.certifiedBy, certification.certifiedAt)

/-- `_box`. -/
def checkBox (xyxy : List ℚ) (width height : ℤ) (place : String) : Except String Unit :=
  match xyxy with
  | [x0, y0, x1, y1] =>
    if 0 ≤ x0 ∧ x0 < x1 ∧ x1 ≤ width ∧ 0 ≤ y0 ∧ y0 < y1 ∧ y1 ≤ height then pure ()
    else throw s!"{place}: xyxy is outside {width}x{height}"
  | _ => throw s!"{place}: xyxy must contain four numbers"

/-- Whether a text is a digest in lower case. -/
def isSha256 (text : String) : Bool :=
  text.length == 64 && text.toList.all fun c => "0123456789abcdef".toList.contains c

def isBlankText (text : String) : Bool := PlainText.isBlank text.toList

def checkObjects (width height : ℤ) (place : String) : ℕ → List Annotation → Except String Unit
  | _, [] => pure ()
  | objectIndex, annotation :: objects => do
    checkBox annotation.xyxy width height s!"{place}.objects[{objectIndex}]"
    checkObjects width height place (objectIndex + 1) objects

def checkRegions (width height : ℤ) (place : String) : ℕ → List IgnoreRegion → Except String Unit
  | _, [] => pure ()
  | regionIndex, region :: regions => do
    let regionPlace := s!"{place}.ignore_regions[{regionIndex}]"
    checkBox region.xyxy width height regionPlace
    refuseIf (isBlankText region.reason) s!"{regionPlace}: reason must be non-empty"
    checkRegions width height place (regionIndex + 1) regions

/-- The checks of the photos from an index on, after photos with the given sources,
hashes and roles of capture groups. -/
def checkPhotos : ℕ → List String → List String → List (String × Role) → List Photo →
    Except String Unit
  | _, _, _, _, [] => pure ()
  | imageIndex, sources, hashes, groupRoles, image :: images => do
    let place := s!"images[{imageIndex}]"
    refuseIf (image.source = "") s!"{place}: source must be a non-empty string"
    refuseIf (image.source ∈ sources) s!"{place}: duplicate source {image.source}"
    refuseIf (¬ isSha256 image.sourceSha256) s!"{place}: source_sha256 must be lowercase SHA-256"
    refuseIf (image.sourceSha256 ∈ hashes)
      s!"{place}: duplicate source content {image.sourceSha256}"
    refuseIf (image.width < 1 ∨ image.height < 1)
      s!"{place}: width and height must be positive integers"
    refuseIf (isBlankText image.captureGroup) s!"{place}: capture_group must be non-empty"
    let previousRole := (groupRoles.lookup image.captureGroup).getD image.role
    refuseIf (previousRole ≠ image.role) s!"capture group {image.captureGroup} has two roles"
    checkObjects image.width image.height place 0 image.objects
    checkRegions image.width image.height place 0 image.ignoreRegions
    checkPhotos (imageIndex + 1) (image.source :: sources) (image.sourceSha256 :: hashes)
      ((image.captureGroup, previousRole) :: groupRoles) images

def checkFreeze (document : Labels) (requireFrozen : Bool) : Except String Unit :=
  match document.roleFreeze with
  | none => if requireFrozen then throw "capture-group roles must be frozen" else pure ()
  | some freeze => do
    refuseIf (freeze.state ≠ "frozen") "role_freeze must have state 'frozen'"
    refuseIf (freeze.assignmentsSha256 ≠ digests.roles (roleAssignments document))
      "capture-group roles changed after role freeze"
    refuseIf (isBlankText freeze.frozenBy) "role_freeze.frozen_by must be non-empty"

def checkCertification (document : Labels) (requireCertified : Bool) : Except String Unit :=
  match document.certification with
  | none =>
    if requireCertified then throw "labels require final human certification" else pure ()
  | some certification => do
    refuseIf (document.images.any fun image => image.reviewState ≠ .certified)
      "all images must be certified in a certified document"
    refuseIf (certification.annotationsSha256 ≠ digests.annotations (annotationPayload document))
      "annotations changed after human certification"
    refuseIf (isBlankText certification.certifiedBy) "certification.certified_by must be non-empty"

def validateLabels (document : Labels) (requireFrozen requireCertified : Bool) :
    Except String Labels := do
  refuseIf (document.schema ≠ "mission10-yolo-real-labels/1")
    s!"expected schema mission10-yolo-real-labels/1, got {document.schema}"
  refuseIf (document.images = []) "images must be a non-empty list"
  checkPhotos 0 [] [] [] document.images
  checkFreeze digests document requireFrozen
  checkCertification digests document requireCertified
  pure document

/-! ### Mask reviews -/

def checkReviewBox (place name : String) (box : List ℤ) : Except String Unit :=
  match box with
  | [x0, y0, x1, y1] =>
    if x0 < x1 ∧ y0 < y1 then pure () else throw s!"{place}.{name} is invalid"
  | _ => throw s!"{place}.{name} is invalid"

def checkText (place name text : String) : Except String Unit :=
  if text = "" then throw s!"{place}.{name} must be non-empty" else pure ()

def checkMaskEntries : ℕ → List String → List (String × ℤ) → List MaskEntry → Except String Unit
  | _, _, _, [] => pure ()
  | index, ids, sources, entry :: entries => do
    let place := s!"entries[{index}]"
    refuseIf (entry.id ∈ ids) s!"{place}.id is invalid or duplicate"
    refuseIf (entry.visibility ≠ .clear) s!"{place} must be a clear mine"
    let sourceKey := (entry.sourceSha256, entry.objectIndex)
    refuseIf (sourceKey ∈ sources) s!"{place} duplicates a source object"
    checkReviewBox place "prompt_xyxy" entry.promptXyxy
    checkReviewBox place "segmentation_xyxy" entry.segmentationXyxy
    checkText place "cutout" entry.cutout
    checkText place "preview" entry.preview
    checkText place "cutout_sha256" entry.cutoutSha256
    checkText place "preview_sha256" entry.previewSha256
    checkMaskEntries (index + 1) (entry.id :: ids) (sourceKey :: sources) entries

def validateMaskReview (document : MaskReview) : Except String MaskReview := do
  refuseIf (document.schema ≠ "mission10-yolo-mask-review/1")
    "mask review must use schema mission10-yolo-mask-review/1"
  refuseIf (document.entries = []) "mask review entries must be a non-empty list"
  checkMaskEntries 0 [] [] document.entries
  pure document

def loadMaskReview (file : JsonFile MaskReview) (requireDecided : Bool) :
    Except String MaskReview := do
  let document ← validateMaskReview file.document
  refuseIf (requireDecided ∧ document.entries.any fun entry => entry.confirmation = .pending)
    "mask review still has pending proposals"
  pure document

section Checks

variable {digests}

/-- Photos that can be told apart by their source and by their content. -/
structure Distinct (images : List Photo) : Prop where
  sources : (images.map Photo.source).Nodup
  hashes : (images.map Photo.sourceSha256).Nodup
  named : ∀ image ∈ images, image.source ≠ ""
  sha256 : ∀ image ∈ images, isSha256 image.sourceSha256 = true

theorem checkPhotos_distinct {imageIndex : ℕ} {sources hashes : List String}
    {groupRoles : List (String × Role)} {images : List Photo}
    (h : checkPhotos imageIndex sources hashes groupRoles images = .ok ()) :
    Distinct images ∧
      ∀ image ∈ images, image.source ∉ sources ∧ image.sourceSha256 ∉ hashes := by
  induction images generalizing imageIndex sources hashes groupRoles with
  | nil => exact ⟨⟨List.nodup_nil, List.nodup_nil, by simp, by simp⟩, by simp⟩
  | cons image images ih =>
    simp only [checkPhotos, refuseIf_bind_eq_ok] at h
    obtain ⟨hnamed, hsource, hsha256, hhash, -, -, -, h⟩ := h
    obtain ⟨⟨⟩, -, h⟩ := bind_ok h
    obtain ⟨⟨⟩, -, h⟩ := bind_ok h
    obtain ⟨hdistinct, hnew⟩ := ih h
    refine ⟨⟨?_, ?_, ?_, ?_⟩, ?_⟩
    · rw [List.map_cons, List.nodup_cons]
      refine ⟨fun hmem => ?_, hdistinct.sources⟩
      obtain ⟨other, hother, heq⟩ := List.mem_map.mp hmem
      exact (hnew other hother).1 (heq ▸ List.mem_cons_self)
    · rw [List.map_cons, List.nodup_cons]
      refine ⟨fun hmem => ?_, hdistinct.hashes⟩
      obtain ⟨other, hother, heq⟩ := List.mem_map.mp hmem
      exact (hnew other hother).2 (heq ▸ List.mem_cons_self)
    · exact List.forall_mem_cons.mpr ⟨hnamed, hdistinct.named⟩
    · exact List.forall_mem_cons.mpr ⟨not_not.mp hsha256, hdistinct.sha256⟩
    · refine List.forall_mem_cons.mpr ⟨⟨hsource, hhash⟩, fun other hother => ?_⟩
      obtain ⟨hothersource, hotherhash⟩ := hnew other hother
      exact ⟨fun hmem => hothersource (List.mem_cons_of_mem _ hmem),
        fun hmem => hotherhash (List.mem_cons_of_mem _ hmem)⟩

theorem Distinct.filter {images : List Photo} (h : Distinct images) (p : Photo → Bool) :
    Distinct (images.filter p) where
  sources := h.sources.sublist (List.filter_sublist.map _)
  hashes := h.hashes.sublist (List.filter_sublist.map _)
  named image hmem := h.named image (List.mem_of_mem_filter hmem)
  sha256 image hmem := h.sha256 image (List.mem_of_mem_filter hmem)

/-- The photos of a label document can be told apart. -/
theorem validateLabels_distinct {document labels : Labels} {requireFrozen requireCertified : Bool}
    (h : validateLabels digests document requireFrozen requireCertified = .ok labels) :
    labels = document ∧ Distinct document.images := by
  simp only [validateLabels, refuseIf_bind_eq_ok] at h
  obtain ⟨-, -, h⟩ := h
  obtain ⟨⟨⟩, hphotos, h⟩ := bind_ok h
  obtain ⟨⟨⟩, -, h⟩ := bind_ok h
  obtain ⟨⟨⟩, -, h⟩ := bind_ok h
  exact ⟨pure_ok h, (checkPhotos_distinct hphotos).1⟩

/-- Certified photos carry digests. -/
theorem validateLabels_sha256 {document labels : Labels} {requireFrozen requireCertified : Bool}
    (h : validateLabels digests document requireFrozen requireCertified = .ok labels) :
    ∀ image ∈ document.images, isSha256 image.sourceSha256 = true :=
  (validateLabels_distinct h).2.sha256

theorem checkMaskEntries_nodup {index : ℕ} {ids : List String} {sources : List (String × ℤ)}
    {entries : List MaskEntry} (h : checkMaskEntries index ids sources entries = .ok ()) :
    (entries.map MaskEntry.id).Nodup ∧ ∀ entry ∈ entries, entry.id ∉ ids := by
  induction entries generalizing index ids sources with
  | nil => exact ⟨List.nodup_nil, by simp⟩
  | cons entry entries ih =>
    simp only [checkMaskEntries, refuseIf_bind_eq_ok] at h
    obtain ⟨hid, -, -, h⟩ := h
    obtain ⟨⟨⟩, -, h⟩ := bind_ok h
    obtain ⟨⟨⟩, -, h⟩ := bind_ok h
    obtain ⟨⟨⟩, -, h⟩ := bind_ok h
    obtain ⟨⟨⟩, -, h⟩ := bind_ok h
    obtain ⟨⟨⟩, -, h⟩ := bind_ok h
    obtain ⟨⟨⟩, -, h⟩ := bind_ok h
    obtain ⟨hnodup, hnew⟩ := ih h
    constructor
    · rw [List.map_cons, List.nodup_cons]
      refine ⟨?_, hnodup⟩
      intro hmem
      obtain ⟨other, hother, hsame⟩ := List.mem_map.mp hmem
      exact hnew other hother (hsame ▸ List.mem_cons_self)
    · intro other hother
      rcases List.mem_cons.mp hother with rfl | hother
      · exact hid
      · exact fun hmem => hnew other hother (List.mem_cons_of_mem _ hmem)

/-- No two masks of a review have one name. -/
theorem loadMaskReview_nodup {file : JsonFile MaskReview} {review : MaskReview}
    {requireDecided : Bool} (h : loadMaskReview file requireDecided = .ok review) :
    (file.document.entries.map MaskEntry.id).Nodup := by
  obtain ⟨document, hvalid, -⟩ := bind_ok h
  simp only [validateMaskReview, refuseIf_bind_eq_ok] at hvalid
  obtain ⟨-, -, hvalid⟩ := hvalid
  obtain ⟨⟨⟩, hentries, -⟩ := bind_ok hvalid
  exact (checkMaskEntries_nodup hentries).1

end Checks

end Mission10.Dataset
