import Mathlib.Data.Prod.Lex
import Mathlib.Data.String.Basic
import Mission10.Dataset.RealPositives
import Mission10.Library.EvenSpacing
import Mission10.Sensing.TileMerges

/-!
# Hard negatives

Tiles of certified photos that show no mine. They are proposed from the candidates
of a frozen baseline and from the grid of a photo, a reviewer confirms or rejects
them, and what is not rejected is written, once for each image. The review may
change confirmations only: all else is proposed again and compared.
-/
namespace Mission10.Dataset.HardNegatives

open Outcome EvenSpacing
open Sensing (Detection)

def reviewSchema : String := "mission10-yolo-hard-negative-review/1"
def componentSchema : String := "mission10-yolo-training-component/1"
def baselineMinConfidence : ℚ := 1 / 10
def maxBaselinePerPhoto : ℕ := 8
def cleanPerPhoto : ℕ := 2
def trainingRoles : List Role := [.trainingCandidate, .hardNegativePool]

/-! ### Documents -/

/-- A JSON file at its resolved path. -/
structure FileAt (α : Type) extends JsonFile α where
  path : String

/-- A candidate of the baseline; the confidence is missing where it is not finite. -/
structure Candidate where
  confidence : Option ℚ
  tileX : ℚ
  tileY : ℚ

structure AuditRecord where
  sourceSha256 : String
  width : ℤ
  height : ℤ
  candidates : Option (List Candidate)

/-- The report of the baseline. -/
structure Audit where
  schema : String
  tilePx : ℤ
  overlapPx : ℤ
  candidateFloor : Option ℚ
  images : List AuditRecord

inductive Kind
  | baselineCandidate
  | deterministicClean
deriving DecidableEq, Repr

def Kind.name : Kind → String
  | baselineCandidate => "baseline_candidate"
  | deterministicClean => "deterministic_clean"

/-- An entry of a review, with the names of the fields it has besides. -/
structure ReviewEntry where
  id : String
  source : String
  sourceSha256 : String
  captureGroup : String
  role : Role
  tileXyxy : List ℤ
  kind : Kind
  baselineConfidence : Option ℚ
  confirmation : Decision
  otherFields : List String
deriving DecidableEq

structure Policy where
  baselineMinConfidence : ℚ
  maxBaselinePerPhoto : ℤ
  deterministicCleanPerPhoto : ℤ
  mineOrIgnoreIntersectionAllowed : Bool
  eligibleRoles : List String
  eligibleReviewStates : List String
  otherFields : List String
deriving DecidableEq

structure Review where
  schema : String
  labels : String
  labelsSha256 : String
  baseline : String
  baselineSha256 : String
  policy : Policy
  tilePx : ℤ
  overlapPx : ℤ
  entries : List ReviewEntry
  otherFields : List String
deriving DecidableEq

/-- The digests, also of a tile and of the origin of a tile within a photo. -/
structure TileDigests extends Digests where
  tile : String → List ℤ → String
  origin : String → ℤ × ℤ → String

/-! ### Proposals -/

section Proposals

/-- `Box.from_xyxy`. Certified boxes have four numbers. -/
def boxOf : List ℚ → Option Detection
  | [x0, y0, x1, y1] => some ⟨x0, y0, x1, y1, 1, 0, 0⟩
  | _ => none

/-- `_rect_intersects_annotations`. -/
def rectIntersectsAnnotations (rect : Detection) (record : Photo) : Bool :=
  let annotations := record.objects.map Annotation.xyxy ++
    record.ignoreRegions.map IgnoreRegion.xyxy
  (annotations.filterMap boxOf).any fun box => decide (rect.intersection box > 0)

/-- `_tile_rect`. -/
def tileRect (x y tile width height : ℤ) : Detection where
  x0 := x
  y0 := y
  x1 := (min (x + tile) width : ℤ)
  y1 := (min (y + tile) height : ℤ)
  confidence := 1
  tileX := 0
  tileY := 0

def axis (tile overlap extent : ℤ) : List ℤ :=
  if extent ≤ tile then [0]
  else
    let count : ℤ := 1 + ⌈((extent - tile : ℤ) : ℚ) / ((tile - overlap : ℤ) : ℚ)⌉
    let span := extent - tile
    (List.range count.toNat).map fun index : ℕ => roundHalfEven (index * span / (count - 1 : ℤ))

/-- `_tile_origins`. -/
def tileOrigins (width height tile overlap : ℤ) : List (ℤ × ℤ) :=
  (axis tile overlap height).flatMap fun y => (axis tile overlap width).map fun x => (x, y)

/-- `int` of a number, which is cut off. -/
def toInt (x : ℚ) : ℤ := if x < 0 then ⌈x⌉ else ⌊x⌋

/-- Origins that compare equal are the same. -/
local instance lawfulOrigins : LawfulBEq (ℤ × ℤ) := inferInstance

variable (digests : TileDigests)

/-- `_candidate_id`. -/
def candidateId (sourceSha256 : String) (x y tile : ℤ) : String :=
  String.ofList ((digests.tile sourceSha256 [x, y, x + tile, y + tile]).toList.take 24)

def checkAuditRecords : List String → List AuditRecord → Except String Unit
  | _, [] => pure ()
  | hashes, record :: records => do
    refuseIf (record.sourceSha256 ∈ hashes) "baseline has missing or duplicate source hashes"
    checkAuditRecords (record.sourceSha256 :: hashes) records

/-- `_audit_records`. -/
def auditRecords (audit : Audit) : Except String (List AuditRecord) := do
  refuseIf (audit.schema ≠ "mission10-yolo-irl-audit/1")
    "baseline must be a mission10-yolo-irl-audit/1 report"
  checkAuditRecords [] audit.images
  pure audit.images

/-- `_proposal_entry`. -/
def proposalEntry (record : Photo) (tile : ℤ) (kind : Kind) (confidence : Option ℚ)
    (origin : ℤ × ℤ) : ReviewEntry where
  id := candidateId digests record.sourceSha256 origin.1 origin.2 tile
  source := record.source
  sourceSha256 := record.sourceSha256
  captureGroup := record.captureGroup
  role := record.role
  tileXyxy := [origin.1, origin.2, origin.1 + tile, origin.2 + tile]
  kind := kind
  baselineConfidence := confidence
  confirmation := .pending
  otherFields := []

/-- A candidate is taken up: the strongest one of each origin is kept. -/
def takeCandidate (source : String) (validOrigins : List (ℤ × ℤ))
    (strongest : Dict (ℤ × ℤ) ℚ) (candidate : Candidate) : Except String (Dict (ℤ × ℤ) ℚ) := do
  let confidence ← getOr candidate.confidence s!"baseline has invalid confidence for {source}"
  refuseIf (¬ (0 ≤ confidence ∧ confidence ≤ 1)) s!"baseline has invalid confidence for {source}"
  if confidence < baselineMinConfidence then pure strongest
  else
    let origin := (toInt candidate.tileX, toInt candidate.tileY)
    refuseIf (origin ∉ validOrigins) s!"baseline has invalid tile origin for {source}"
    pure (strongest.set origin (max confidence ((strongest.get origin).getD (-1))))

/-- Strongest first, then by row and column. -/
def strengthKey (item : (ℤ × ℤ) × ℚ) : ℚ ×ₗ ℤ ×ₗ ℤ :=
  toLex (-item.2, toLex (item.1.2, item.1.1))

def isClear (record : Photo) (tile : ℤ) (origin : ℤ × ℤ) : Bool :=
  !rectIntersectsAnnotations (tileRect origin.1 origin.2 tile record.width record.height) record

/-- The strongest origins with no annotation. -/
def baselineOrigins (record : Photo) (tile : ℤ) (strongest : Dict (ℤ × ℤ) ℚ) :
    List ((ℤ × ℤ) × ℚ) :=
  ((strongest.entries.insertionSort fun first second =>
    strengthKey first ≤ strengthKey second).filter fun item => isClear record tile item.1).take
      maxBaselinePerPhoto

/-- Further origins with no annotation, in the order of their digests. -/
def cleanOrigins (record : Photo) (tile overlap : ℤ) (used : List (ℤ × ℤ)) : List (ℤ × ℤ) :=
  (((tileOrigins record.width record.height tile overlap).insertionSort fun first second =>
    digests.origin record.sourceSha256 first ≤ digests.origin record.sourceSha256 second).filter
      fun origin => decide (origin ∉ used) && isClear record tile origin).take cleanPerPhoto

/-- The entries of a photo. -/
def proposePhoto (audit : Audit) (records : List AuditRecord) (record : Photo) :
    Except String (List ReviewEntry) := do
  let tile := audit.tilePx
  let auditRecord ← getOr (records.find? fun other => other.sourceSha256 = record.sourceSha256)
    s!"baseline is missing eligible source {record.source}"
  let candidates ← getOr auditRecord.candidates
    "baseline lacks 0.001 candidates; rerun tools/audit_irl.py"
  refuseIf (auditRecord.width ≠ record.width ∨ auditRecord.height ≠ record.height)
    s!"baseline dimensions disagree for {record.source}"
  let validOrigins := tileOrigins record.width record.height tile audit.overlapPx
  let strongest ← candidates.foldlM (takeCandidate record.source validOrigins) Dict.empty
  let baseline := baselineOrigins record tile strongest
  let clean := cleanOrigins digests record tile audit.overlapPx (baseline.map Prod.fst)
  pure ((baseline.map fun item =>
      proposalEntry digests record tile .baselineCandidate (some item.2) item.1) ++
    clean.map (proposalEntry digests record tile .deterministicClean none))

def isEligible (record : Photo) : Bool :=
  decide (record.role ∈ trainingRoles) && decide (record.reviewState = .certified)

def checkReviewTile (tile : ℤ) (index : ℕ) (entry : ReviewEntry) : Except String Unit :=
  match entry.tileXyxy with
  | [x0, y0, x1, y1] => do
    refuseIf (x1 - x0 ≠ tile ∨ y1 - y0 ≠ tile) s!"entries[{index}] has invalid tile"
    refuseIf (entry.id ≠ candidateId digests entry.sourceSha256 x0 y0 tile)
      s!"entries[{index}] identity does not match provenance"
  | _ => throw s!"entries[{index}] has invalid tile"

/-- The checks of the entries of a review from an index on, after entries with the given
names. -/
def checkReviewEntries (tile : ℤ) (requireDecided : Bool) :
    ℕ → List String → List ReviewEntry → Except String Unit
  | _, _, [] => pure ()
  | index, seen, entry :: entries => do
    refuseIf (entry.id ∈ seen) s!"duplicate review entry '{entry.id}'"
    refuseIf (requireDecided ∧ entry.confirmation = .pending)
      s!"hard-negative review is incomplete: {entry.id}"
    refuseIf (entry.sourceSha256.length ≠ 64) s!"entries[{index}] has invalid source hash"
    checkReviewTile digests tile index entry
    refuseIf (entry.kind = .baselineCandidate ∧
        entry.baselineConfidence.all fun confidence => decide (confidence < baselineMinConfidence))
      s!"entries[{index}] has invalid baseline confidence"
    refuseIf (entry.kind = .deterministicClean ∧ entry.baselineConfidence ≠ none)
      s!"entries[{index}] clean tile has model confidence"
    checkReviewEntries tile requireDecided (index + 1) (entry.id :: seen) entries

def validateReview (review : Review) (requireDecided : Bool) : Except String Review := do
  refuseIf (review.schema ≠ reviewSchema) s!"expected {reviewSchema}"
  refuseIf (review.tilePx < 1 ∨ ¬ (0 ≤ review.overlapPx ∧ review.overlapPx < review.tilePx))
    "review has invalid tile geometry"
  checkReviewEntries digests review.tilePx requireDecided 0 [] review.entries
  pure review

def policy : Policy where
  baselineMinConfidence := baselineMinConfidence
  maxBaselinePerPhoto := maxBaselinePerPhoto
  deterministicCleanPerPhoto := cleanPerPhoto
  mineOrIgnoreIntersectionAllowed := false
  eligibleRoles := ["hard_negative_pool", "training_candidate"]
  eligibleReviewStates := ["certified"]
  otherFields := []

def sortReviewEntries (entries : List ReviewEntry) : List ReviewEntry :=
  entries.insertionSort fun first second => first.id ≤ second.id

def propose (labels : FileAt Labels) (baseline : FileAt Audit) : Except String Review := do
  let document ← validateLabels digests.toDigests labels.document true true
  let audit := baseline.document
  let records ← auditRecords audit
  refuseIf (audit.tilePx < 1 ∨ ¬ (0 ≤ audit.overlapPx ∧ audit.overlapPx < audit.tilePx))
    "baseline has invalid tile geometry"
  refuseIf (audit.candidateFloor.getD 1 > baselineMinConfidence)
    "baseline did not preserve candidates down to 0.10"
  let entries ← (document.images.filter isEligible).mapM (proposePhoto digests audit records)
  let proposal : Review :=
    { schema := reviewSchema
      labels := labels.path
      labelsSha256 := digests.sha256 labels.bytes
      baseline := baseline.path
      baselineSha256 := digests.sha256 baseline.bytes
      policy := policy
      tilePx := audit.tilePx
      overlapPx := audit.overlapPx
      entries := sortReviewEntries entries.flatten
      otherFields := [] }
  validateReview digests proposal false

/-! ### Reviews -/

/-- An update of the review page, with the names of the fields it has besides. -/
structure Update where
  id : String
  confirmation : Decision
  otherFields : List String

def ReviewEntry.confirm (entry : ReviewEntry) (decision : Decision) : ReviewEntry :=
  { entry with confirmation := decision }

def updateConfirmation (review : Review) (update : Update) : Except String Review := do
  let _ ← validateReview digests review false
  refuseIf (update.otherFields ≠ []) "review update may contain only id and confirmation"
  refuseIf (update.id = "") "review update requires an entry id"
  refuseIf (update.confirmation = .pending) "confirmation must be confirmed or rejected"
  refuseIf (review.entries.countP (fun entry => entry.id = update.id) ≠ 1)
    "review entry id was not found"
  validateReview digests
    { review with
      entries := review.entries.map fun entry =>
        if entry.id = update.id then entry.confirm update.confirmation else entry } false

/-- A review with the confirmations taken out. -/
def Review.provenance (review : Review) : Review :=
  { review with entries := review.entries.map (ReviewEntry.confirm · .pending) }

def findRecord (document : Labels) (sourceSha256 : String) : Option Photo :=
  document.images.find? fun record => record.sourceSha256 = sourceSha256

def checkEntryTile (tile : ℤ) (record : Photo) (entry : ReviewEntry) : Except String Unit :=
  match entry.tileXyxy with
  | [x0, y0, _, _] =>
    refuseIf (rectIntersectsAnnotations (tileRect x0 y0 tile record.width record.height) record)
      s!"review tile intersects a mine or ignore region: {entry.id}"
  | _ => throw "not enough values to unpack"

def checkEntrySources (document : Labels) (tile : ℤ) : List ReviewEntry → Except String Unit
  | [] => pure ()
  | entry :: entries => do
    let record ← getOr (findRecord document entry.sourceSha256) s!"review source changed: {entry.id}"
    refuseIf (record.source ≠ entry.source) s!"review source changed: {entry.id}"
    refuseIf (record.role ∉ trainingRoles ∨ record.reviewState ≠ .certified)
      s!"review source is no longer training-eligible: {entry.id}"
    checkEntryTile tile record entry
    checkEntrySources document tile entries

def revalidateReview (review : Review) (labels : FileAt Labels) (baseline : FileAt Audit) :
    Except String Labels := do
  let _ ← validateReview digests review false
  refuseIf (digests.sha256 labels.bytes ≠ review.labelsSha256)
    "labels changed after hard-negative proposal"
  refuseIf (digests.sha256 baseline.bytes ≠ review.baselineSha256)
    "baseline changed after hard-negative proposal"
  let expected ← propose digests labels baseline
  refuseIf (review.provenance ≠ expected.provenance)
    "hard-negative proposal provenance was modified"
  let document ← validateLabels digests.toDigests labels.document true true
  checkEntrySources document review.tilePx review.entries
  pure document

end Proposals

/-! ### Materialization -/

/-- The files that the sources of photos are resolved to. -/
structure Sources where
  resolve : String → String
  read : String → Option (List UInt8)

inductive Basis
  | humanConfirmed
  | certifiedAnnotationAbsence
deriving DecidableEq, Repr

def Basis.name : Basis → String
  | humanConfirmed => "human_confirmed"
  | certifiedAnnotationAbsence => "certified_annotation_absence"

/-- A tile that is written: its lock entry, which lists no boxes, and its image. -/
structure NegativeTile where
  tile : String
  imageSha256 : String
  labelSha256 : String
  reviewEntryId : String
  reviewConfirmation : Decision
  selectionBasis : Basis
  kind : Kind
  baselineConfidence : Option ℚ
  source : String
  sourceSha256 : String
  captureGroup : String
  tileXyxy : List ℤ
  image : List UInt8

def NegativeTile.entry (tile : NegativeTile) : Entry where
  tile := tile.tile
  boxes := 0
  imageSha256 := tile.imageSha256
  labelSha256 := tile.labelSha256
  provenance := .obj
    [("review_entry_id", .str tile.reviewEntryId),
      ("review_confirmation", .str tile.reviewConfirmation.name),
      ("selection_basis", .str tile.selectionBasis.name), ("kind", .str tile.kind.name),
      ("baseline_confidence", (tile.baselineConfidence.map Json.float).getD .null),
      ("source", .str tile.source), ("source_sha256", .str tile.sourceSha256),
      ("capture_group", .str tile.captureGroup), ("tile_xyxy", .arr (tile.tileXyxy.map .int))]

/-- An entry whose image is that of another one. -/
structure Duplicate where
  entryId : String
  duplicateOf : String

/-- The state of the loop over the entries of a review. -/
structure Progress where
  tiles : List NegativeTile
  duplicates : List Duplicate
  humanConfirmed : ℕ
  certifiedAnnotationAbsence : ℕ
  humanRejected : ℕ

def Progress.start : Progress := ⟨[], [], 0, 0, 0⟩

/-- The owner of an image. -/
def Progress.owner (progress : Progress) (imageSha256 : String) : Option String :=
  (progress.tiles.find? fun tile => tile.imageSha256 = imageSha256).map NegativeTile.reviewEntryId

def Progress.write (progress : Progress) (tile : NegativeTile) : Progress :=
  match tile.selectionBasis with
  | .humanConfirmed =>
    { progress with
      tiles := progress.tiles ++ [tile]
      humanConfirmed := progress.humanConfirmed + 1 }
  | .certifiedAnnotationAbsence =>
    { progress with
      tiles := progress.tiles ++ [tile]
      certifiedAnnotationAbsence := progress.certifiedAnnotationAbsence + 1 }

/-- What `materialize` leaves: the lock, the images and the labels. -/
structure HardNegativeComponent where
  schema : String
  component : String
  scope : String
  labelsSha256 : String
  baselineSha256 : String
  reviewSha256 : String
  policy : Policy
  tiles : List NegativeTile
  duplicates : List Duplicate
  humanConfirmed : ℕ
  certifiedAnnotationAbsence : ℕ
  humanRejected : ℕ
  datasetSha256 : String
  images : List (String × List UInt8)
  labelFiles : List (String × String)

section Materialization

variable (digests : TileDigests) (pillow : Pillow) (sources : Sources)

/-- The part of a photo that an entry names. The corners of a proposal are not negative. -/
def cropTile (image : pillow.Image) : List ℤ → Except String pillow.Image
  | [x0, y0, x1, y1] => pure (pillow.crop image (x0.toNat, y0.toNat, x1.toNat, y1.toNat))
  | _ => throw "coordinates must be four numbers"

/-- The image of an entry, from the photo it comes from. -/
def tileImage (document : Labels) (entry : ReviewEntry) : Except String (List UInt8) := do
  let record ← getOr (findRecord document entry.sourceSha256) entry.sourceSha256
  let path := sources.resolve record.source
  let bytes ← getOr (sources.read path) s!"no such file: {path}"
  refuseIf (digests.sha256 bytes ≠ record.sourceSha256) s!"source changed: {path}"
  let image ← getOr (pillow.openRgb bytes) s!"cannot identify image file: {path}"
  refuseIf (((pillow.size image).1 : ℤ) ≠ record.width ∨ ((pillow.size image).2 : ℤ) ≠ record.height)
    s!"oriented dimensions changed: {path}"
  let tile ← cropTile pillow image entry.tileXyxy
  pure (pillow.png tile)

/-- The basis on which an entry is included, if it is. -/
def selectionBasis (certificationBacked : Bool) : Decision → Option Basis
  | .rejected => none
  | .confirmed => some .humanConfirmed
  | .pending => if certificationBacked then some .certifiedAnnotationAbsence else none

def negativeTile (entry : ReviewEntry) (basis : Basis) (image : List UInt8) : NegativeTile where
  tile := "hn_" ++ entry.id
  imageSha256 := digests.sha256 image
  labelSha256 := digests.sha256 []
  reviewEntryId := entry.id
  reviewConfirmation := entry.confirmation
  selectionBasis := basis
  kind := entry.kind
  baselineConfidence := entry.baselineConfidence
  source := entry.source
  sourceSha256 := entry.sourceSha256
  captureGroup := entry.captureGroup
  tileXyxy := entry.tileXyxy
  image := image

/-- One pass of the loop over the entries. -/
def materializeEntry (document : Labels) (certificationBacked : Bool) (progress : Progress)
    (entry : ReviewEntry) : Except String Progress :=
  match selectionBasis certificationBacked entry.confirmation with
  | none =>
    pure (if entry.confirmation = .rejected then
      { progress with humanRejected := progress.humanRejected + 1 } else progress)
  | some basis => do
    let image ← tileImage digests pillow sources document entry
    match progress.owner (digests.sha256 image) with
    | some owner =>
      pure { progress with duplicates := progress.duplicates ++ [⟨entry.id, owner⟩] }
    | none => pure (progress.write (negativeTile digests entry basis image))

def materialize (review : JsonFile Review) (labels : FileAt Labels) (baseline : FileAt Audit)
    (out : Out) (certificationBacked : Bool) : Except String HardNegativeComponent := do
  let checked ← validateReview digests review.document !certificationBacked
  let document ← revalidateReview digests checked labels baseline
  refuseIf (¬ out.empty) s!"output directory is not empty: {out.path}"
  let progress ← checked.entries.foldlM
    (materializeEntry digests pillow sources document certificationBacked) Progress.start
  let tiles := progress.tiles.insertionSort fun first second => first.tile ≤ second.tile
  refuseIf (tiles = []) "review contains no confirmed, unique hard negatives"
  pure
    { schema := componentSchema
      component :=
        if certificationBacked then "certification-backed-real-hard-negatives"
        else "human-confirmed-real-hard-negatives"
      scope := "train_only"
      labelsSha256 := digests.sha256 labels.bytes
      baselineSha256 := digests.sha256 baseline.bytes
      reviewSha256 := digests.sha256 review.bytes
      policy := checked.policy
      tiles := tiles
      duplicates := progress.duplicates
      humanConfirmed := progress.humanConfirmed
      certifiedAnnotationAbsence := progress.certifiedAnnotationAbsence
      humanRejected := progress.humanRejected
      datasetSha256 := digests.entries (tiles.map NegativeTile.entry)
      images := progress.tiles.map fun tile => (tile.tile ++ ".png", tile.image)
      labelFiles := progress.tiles.map fun tile => (tile.tile ++ ".txt", "") }

end Materialization

end Mission10.Dataset.HardNegatives
