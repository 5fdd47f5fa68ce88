import Mission10.Dataset.Annotations

/-!
# Folds of exact photos

A fold lock assigns photos to folds by the digest of their content. No digest is
assigned twice, so that the photos of a fold and the photos of the others have no
digest in common.
-/
namespace Mission10.Dataset

open Outcome

variable (digests : Digests)

/-- `_stratum`. -/
def stratumOf (image : Photo) : Except String Stratum :=
  match image.objects.filter fun object =>
      object.visibility = .clear ∨ object.visibility = .partly with
  | [] => pure .negative
  | [object] =>
    if image.objects.length ≠ 1 then
      throw s!"fold v1 requires zero or one scorable object: {image.source}"
    else pure (if object.visibility = .clear then .clear else .partly)
  | _ => throw s!"fold v1 requires zero or one scorable object: {image.source}"

/-- The checks of the assignments from an index on, after assignments with the given
sources and hashes. -/
def checkAssignments (folds : ℤ) :
    ℕ → List String → List String → List Assignment → Except String Unit
  | _, _, _, [] => pure ()
  | index, sources, hashes, item :: assignments => do
    let place := s!"assignments[{index}]"
    refuseIf (item.source = "") s!"{place}.source must be non-empty"
    refuseIf (item.source ∈ sources) s!"duplicate fold source {item.source}"
    refuseIf (¬ isSha256 item.sourceSha256 ∨ item.sourceSha256 ∈ hashes)
      s!"{place}.source_sha256 is invalid or duplicate"
    refuseIf (¬ (0 ≤ item.fold ∧ item.fold < folds)) s!"{place}.fold is outside the fold range"
    let expectedObjects : ℤ := if item.stratum = .negative then 0 else 1
    refuseIf (item.objects ≠ expectedObjects) s!"{place}.objects disagrees with stratum"
    checkAssignments folds (index + 1) (item.source :: sources) (item.sourceSha256 :: hashes)
      assignments

/-- The checks of the assignments against the photos of the role. -/
def checkCover (expected : List Photo) : List Assignment → Except String Unit
  | [] => pure ()
  | item :: assignments =>
    match expected.find? fun image => image.sourceSha256 = item.sourceSha256 with
    | none => throw s!"{item.sourceSha256}"
    | some image => do
      refuseIf (item.source ≠ image.source) s!"fold assignment changed for {image.source}"
      let stratum ← stratumOf image
      refuseIf (item.stratum ≠ stratum) s!"fold assignment changed for {image.source}"
      checkCover expected assignments

def foldCounts (assignments : List Assignment) (fold : ℤ) : FoldCounts where
  photos := assignments.countP fun item => item.fold = fold
  clear := assignments.countP fun item => item.fold = fold ∧ item.stratum = .clear
  partly := assignments.countP fun item => item.fold = fold ∧ item.stratum = .partly
  negative := assignments.countP fun item => item.fold = fold ∧ item.stratum = .negative

/-- Whether the counts are those of the folds, one entry for each. -/
def countsAgree (document : FoldDocument) : Bool :=
  let folds := (List.range document.foldCount.toNat).map fun fold => (fold : ℤ)
  decide (document.counts.length = folds.length) && folds.all fun fold =>
    document.counts.lookup (toString fold) = some (foldCounts document.assignments fold)

/-- The checks against the labels and their digest, where these are given. -/
def checkFoldLabels (document : FoldDocument) : Option (Labels × String) → Except String Unit
  | none => pure ()
  | some (labels, labelsSha256) => do
    refuseIf (document.labelsSha256 ≠ labelsSha256) "fold lock labels hash changed"
    let labels ← validateLabels digests labels true true
    let expected := labels.images.filter fun image => image.role = document.role
    refuseIf (¬ sameNames (expected.map Photo.sourceSha256)
        (document.assignments.map Assignment.sourceSha256))
      "fold assignments do not exactly cover the selected role"
    checkCover expected document.assignments

def validateFoldDocument (document : FoldDocument) (labels : Option (Labels × String)) :
    Except String FoldDocument := do
  refuseIf (document.schema ≠ "mission10-yolo-real-folds/1")
    "fold lock must use schema mission10-yolo-real-folds/1"
  refuseIf (document.foldCount < 2) "fold_count must be an integer of at least two"
  refuseIf (document.grouping ≠ "exact_source_photo")
    "fold lock must group by exact source photo"
  refuseIf (document.seed = "") "fold lock seed must be non-empty"
  refuseIf (document.assignments = []) "fold lock assignments must be a non-empty list"
  checkAssignments document.foldCount 0 [] [] document.assignments
  refuseIf (document.assignmentsSha256 ≠ digests.assignments document.assignments)
    "fold assignments changed after locking"
  checkFoldLabels digests document labels
  refuseIf (¬ countsAgree document) "fold counts disagree with assignments"
  pure document

/-- `load_fold_document` without labels. -/
def loadFoldDocument (file : JsonFile FoldDocument) : Except String FoldDocument :=
  validateFoldDocument digests file.document none

/-- `load_fold_document` with labels. -/
def loadFoldDocumentFor (file : JsonFile FoldDocument) (labelsFile : JsonFile Labels) :
    Except String FoldDocument := do
  let labels ← validateLabels digests labelsFile.document true true
  validateFoldDocument digests file.document
    (some (labels, digests.sha256 labelsFile.bytes))

/-- The hashes on one side of a fold. -/
def sideHashes (document : FoldDocument) (fold : ℤ) (heldOut : Bool) : List String :=
  (document.assignments.filter fun item => decide (item.fold = fold) == heldOut).map
    Assignment.sourceSha256

/-- `source_hashes`. -/
def sourceHashes (document : FoldDocument) (fold : ℤ) (heldOut : Bool) :
    Except String (List String) := do
  let document ← validateFoldDocument digests document none
  refuseIf (¬ (0 ≤ fold ∧ fold < document.foldCount)) "held-out fold is outside the fold range"
  pure (sideHashes document fold heldOut)

section Checks

variable {digests}

theorem checkAssignments_nodup {folds : ℤ} {index : ℕ} {sources hashes : List String}
    {assignments : List Assignment}
    (h : checkAssignments folds index sources hashes assignments = .ok ()) :
    (assignments.map Assignment.sourceSha256).Nodup ∧
      ∀ item ∈ assignments, item.sourceSha256 ∉ hashes := by
  induction assignments generalizing index sources hashes with
  | nil => exact ⟨List.nodup_nil, by simp⟩
  | cons item assignments ih =>
    simp only [checkAssignments, refuseIf_bind_eq_ok] at h
    obtain ⟨-, -, hhash, -, -, hrest⟩ := h
    obtain ⟨hnodup, hnew⟩ := ih hrest
    have hitem : item.sourceSha256 ∉ hashes := fun hmem => hhash (Or.inr hmem)
    constructor
    · rw [List.map_cons, List.nodup_cons]
      refine ⟨?_, hnodup⟩
      intro hmem
      obtain ⟨other, hother, heq⟩ := List.mem_map.mp hmem
      exact hnew other hother (heq ▸ List.mem_cons_self)
    · intro other hother
      rcases List.mem_cons.mp hother with rfl | hother
      · exact hitem
      · exact fun hmem => hnew other hother (List.mem_cons_of_mem _ hmem)

/-- No hash of a fold lock is assigned twice. -/
theorem validateFoldDocument_nodup {document checked : FoldDocument}
    {labels : Option (Labels × String)}
    (h : validateFoldDocument digests document labels = .ok checked) :
    checked = document ∧ (document.assignments.map Assignment.sourceSha256).Nodup := by
  simp only [validateFoldDocument, refuseIf_bind_eq_ok] at h
  obtain ⟨-, -, -, -, -, hchecks⟩ := h
  obtain ⟨⟨⟩, hassignments, hrest⟩ := bind_ok hchecks
  obtain ⟨-, hrest⟩ := refuseIf_bind_eq_ok.mp hrest
  obtain ⟨⟨⟩, -, hrest⟩ := bind_ok hrest
  obtain ⟨-, hrest⟩ := refuseIf_bind_eq_ok.mp hrest
  exact ⟨pure_ok hrest, (checkAssignments_nodup hassignments).1⟩

variable {document : FoldDocument} {fold : ℤ} {heldOut : Bool} {hashes : List String}

theorem mem_sideHashes {hash : String} : hash ∈ sideHashes document fold heldOut ↔
    ∃ item ∈ document.assignments, item.sourceSha256 = hash ∧
      decide (item.fold = fold) = heldOut := by
  simp only [sideHashes, List.mem_map, List.mem_filter, beq_iff_eq]
  constructor
  · rintro ⟨item, ⟨hitem, hside⟩, rfl⟩
    exact ⟨item, hitem, rfl, hside⟩
  · rintro ⟨item, hitem, rfl, hside⟩
    exact ⟨item, ⟨hitem, hside⟩, rfl⟩

theorem sourceHashes_ok (h : sourceHashes digests document fold heldOut = .ok hashes) :
    hashes = sideHashes document fold heldOut ∧
      (document.assignments.map Assignment.sourceSha256).Nodup := by
  obtain ⟨checked, hvalid, hrest⟩ := bind_ok h
  obtain ⟨rfl, hnodup⟩ := validateFoldDocument_nodup hvalid
  obtain ⟨-, hrest⟩ := refuseIf_bind_eq_ok.mp hrest
  exact ⟨pure_ok hrest, hnodup⟩

/-- The photos of a fold and the photos of the others have no digest in common. -/
theorem sides_disjoint (hnodup : (document.assignments.map Assignment.sourceSha256).Nodup)
    {hash : String} (htraining : hash ∈ sideHashes document fold false) :
    hash ∉ sideHashes document fold true := by
  intro hheld
  obtain ⟨first, hfirst, hhash, hout⟩ := mem_sideHashes.mp htraining
  obtain ⟨second, hsecond, hsame, hin⟩ := mem_sideHashes.mp hheld
  have heq : first = second :=
    List.inj_on_of_nodup_map hnodup hfirst hsecond (hhash.trans hsame.symm)
  rw [heq, hin] at hout
  contradiction

end Checks

end Mission10.Dataset
