import Mission10.Library.Json

/-!
# Documents of the training data

The JSON documents that certify the real photos and list the tiles made of them:
labels, mask reviews, fold locks and component locks. A document is a record of
the fields that are read, since one in which such a field is missing or of
another kind is refused wherever it is read.
-/
namespace Mission10.Dataset

/-- A JSON file: its document and its bytes. -/
structure JsonFile (α : Type) where
  document : α
  bytes : List UInt8

/-- Whether two lists hold the same names. -/
def sameNames (first second : List String) : Bool :=
  first.all second.contains && second.all first.contains

theorem sameNames_of_mem_iff {first second : List String}
    (h : ∀ name, name ∈ first ↔ name ∈ second) : sameNames first second = true := by
  rw [sameNames, Bool.and_eq_true, List.all_eq_true, List.all_eq_true]
  refine ⟨fun name hname => ?_, fun name hname => ?_⟩
  · exact List.contains_iff_mem.mpr ((h name).mp hname)
  · exact List.contains_iff_mem.mpr ((h name).mpr hname)

theorem mem_iff_of_sameNames {first second : List String} (h : sameNames first second = true)
    (name : String) : name ∈ first ↔ name ∈ second := by
  rw [sameNames, Bool.and_eq_true, List.all_eq_true, List.all_eq_true] at h
  constructor
  · exact fun hname => List.contains_iff_mem.mp (h.1 name hname)
  · exact fun hname => List.contains_iff_mem.mp (h.2 name hname)

theorem sameNames_refl (names : List String) : sameNames names names = true :=
  sameNames_of_mem_iff fun _ => Iff.rfl

/-! ### Labels -/

inductive Visibility
  | clear
  | partly
  | notVisible
  | unknown
deriving DecidableEq, Repr

def Visibility.name : Visibility → String
  | clear => "clear"
  | partly => "partial"
  | notVisible => "not_visible"
  | unknown => "unknown"

inductive Role
  | trainingCandidate
  | developmentEval
  | finalHoldout
  | oodHoldout
  | hardNegativePool
deriving DecidableEq, Repr

def Role.name : Role → String
  | trainingCandidate => "training_candidate"
  | developmentEval => "development_eval"
  | finalHoldout => "final_holdout"
  | oodHoldout => "ood_holdout"
  | hardNegativePool => "hard_negative_pool"

inductive ReviewState
  | unreviewed
  | inProgress
  | complete
  | certified
deriving DecidableEq, Repr

structure Annotation where
  xyxy : List ℚ
  visibility : Visibility
deriving DecidableEq

structure IgnoreRegion where
  xyxy : List ℚ
  reason : String
deriving DecidableEq

/-- The record of a photo. -/
structure Photo where
  source : String
  sourceSha256 : String
  width : ℤ
  height : ℤ
  captureGroup : String
  role : Role
  reviewState : ReviewState
  objects : List Annotation
  ignoreRegions : List IgnoreRegion
deriving DecidableEq

structure RoleAssignment where
  sourceSha256 : String
  captureGroup : String
  role : Role
deriving DecidableEq

structure RoleFreeze where
  state : String
  frozenBy : String
  assignmentsSha256 : String
deriving DecidableEq

structure Certification where
  certifiedBy : String
  certifiedAt : String
  annotationsSha256 : String
deriving DecidableEq

structure Labels where
  schema : String
  images : List Photo
  roleFreeze : Option RoleFreeze
  certification : Option Certification
deriving DecidableEq

/-- What a certification is taken of: the document, with the name and the time of the
certification alone. -/
structure AnnotationPayload where
  schema : String
  images : List Photo
  roleFreeze : Option RoleFreeze
  certification : Option (String × String)
deriving DecidableEq

/-! ### Mask reviews -/

inductive Decision
  | pending
  | confirmed
  | rejected
deriving DecidableEq, Repr

def Decision.name : Decision → String
  | pending => "pending"
  | confirmed => "confirmed"
  | rejected => "rejected"

structure MaskEntry where
  id : String
  source : String
  sourceSha256 : String
  objectIndex : ℤ
  visibility : Visibility
  confirmation : Decision
  promptXyxy : List ℤ
  segmentationXyxy : List ℤ
  cutout : String
  preview : String
  cutoutSha256 : String
  previewSha256 : String
deriving DecidableEq

structure MaskReview where
  schema : String
  labelsSha256 : String
  samWeightsSha256 : String
  entries : List MaskEntry
deriving DecidableEq

/-! ### Folds -/

inductive Stratum
  | clear
  | partly
  | negative
deriving DecidableEq, Repr

structure Assignment where
  source : String
  sourceSha256 : String
  fold : ℤ
  stratum : Stratum
  objects : ℤ
deriving DecidableEq

structure FoldCounts where
  photos : ℕ
  clear : ℕ
  partly : ℕ
  negative : ℕ
deriving DecidableEq

structure FoldDocument where
  schema : String
  labelsSha256 : String
  assignmentsSha256 : String
  role : Role
  grouping : String
  seed : String
  foldCount : ℤ
  assignments : List Assignment
  counts : List (String × FoldCounts)
deriving DecidableEq

/-! ### Components -/

/-- A tile in the lock of a component. One without a provenance has the value null. -/
structure Entry where
  tile : String
  boxes : ℤ
  imageSha256 : String
  labelSha256 : String
  provenance : Json

/-- The lock of a component; the metadata are the fields that no reader reads. -/
structure ComponentLock where
  schema : String
  datasetSha256 : String
  entries : List (String × List Entry)
  metadata : List (String × Json)

/-- The digests: of the bytes of a file, and of the canonical JSON of a value. -/
structure Digests where
  sha256 : List UInt8 → String
  roles : List RoleAssignment → String
  annotations : AnnotationPayload → String
  assignments : List Assignment → String
  entries : List Entry → String

end Mission10.Dataset
