import Mathlib.Data.Prod.Lex
import Mathlib.Data.String.Basic
import Mission10.Dataset.Components
import Mission10.Dataset.Folds
import Mission10.Library.ExactShares
import Mission10.Library.Dict
import Mission10.Library.StableSort

/-!
# Building of fold locks

The photos of a role are dealt to the folds in turns, stratum by stratum, in an
order that a digest of the seed and of their content fixes. What is built passes
the checks of a fold lock, is the same for every order of the labels, and every
fold splits the photos in two.
-/
namespace Mission10.Dataset

open Outcome

section Building

variable (digests : Digests)

/-- `_order_key`. -/
def orderKey (seed sourceSha256 : String) : String :=
  digests.sha256 (utf8 (seed ++ "\x00" ++ sourceSha256))

/-- What the photos of a stratum are sorted by. -/
def dealKey (seed : String) (image : Photo) : String ×ₗ String :=
  toLex (orderKey digests seed image.sourceSha256, image.sourceSha256)

def assignmentOf (folds : ℤ) (stratum : Stratum) (ordinal : ℕ) (image : Photo) : Assignment where
  source := image.source
  sourceSha256 := image.sourceSha256
  fold := ordinal % folds
  stratum := stratum
  objects := if stratum = .negative then 0 else 1

/-- The assignments of the photos of a stratum. -/
def stratumAssignments (folds : ℤ) (seed : String) (stratum : Stratum) (photos : List Photo) :
    List Assignment :=
  (photos.insertionSort fun first second =>
    dealKey digests seed first ≤ dealKey digests seed second).mapIdx (assignmentOf folds stratum)

def strata : List Stratum := [.clear, .partly, .negative]

def sortAssignments (assignments : List Assignment) : List Assignment :=
  assignments.insertionSort fun first second => first.sourceSha256 ≤ second.sourceSha256

/-- The counts of all folds. -/
def countsOf (folds : ℤ) (assignments : List Assignment) : List (String × FoldCounts) :=
  (List.range folds.toNat).map fun fold : ℕ =>
    (toString (fold : ℤ), foldCounts assignments fold)

/-- `build_fold_document`. -/
def buildFoldDocument (labels : Labels) (labelsSha256 : String) (folds : ℤ) (seed : String)
    (role : Role) : Except String FoldDocument := do
  let labels ← validateLabels digests labels true true
  refuseIf (folds < 2) "fold count must be at least two"
  refuseIf (seed = "") "fold seed must be non-empty"
  let records := labels.images.filter fun image => image.role = role
  refuseIf (records = []) s!"no certified records assigned to role '{role.name}'"
  let placed ← records.mapM fun image => do pure (← stratumOf image, image)
  let byStratum := fun stratum => (placed.filter fun item => item.1 = stratum).map Prod.snd
  refuseIf (∃ stratum ∈ strata, byStratum stratum = [])
    "fold input must contain clear, partial, and negative photos"
  let assignments := sortAssignments (strata.flatMap fun stratum =>
    stratumAssignments digests folds seed stratum (byStratum stratum))
  pure
    { schema := "mission10-yolo-real-folds/1"
      labelsSha256 := labelsSha256
      assignmentsSha256 := digests.assignments assignments
      role := role
      grouping := "exact_source_photo"
      seed := seed
      foldCount := folds
      assignments := assignments
      counts := countsOf folds assignments }

/-- `select_records`. -/
def selectRecords (records : List Photo) (document : FoldDocument) (fold : ℤ) :
    Except String (List Photo) := do
  let selected ← sourceHashes digests document fold true
  let result := records.filter fun image => selected.contains image.sourceSha256
  refuseIf (¬ sameNames (result.map Photo.sourceSha256) selected)
    "fold selection is missing certified records"
  pure result

end Building

/-! ### What is built -/

section Built

variable {digests : Digests} {labels : Labels} {labelsSha256 seed : String} {folds : ℤ}
  {role : Role} {document : FoldDocument}

/-- The stratum of a photo that has one. -/
def scoredStratum (image : Photo) : Stratum := (stratumOf image).toOption.getD .negative

/-- The photos of a role. -/
def Labels.ofRole (labels : Labels) (role : Role) : List Photo :=
  labels.images.filter fun image => image.role = role

/-- The photos of a role in a stratum. -/
def Labels.ofStratum (labels : Labels) (role : Role) (stratum : Stratum) : List Photo :=
  (labels.ofRole role).filter fun image => scoredStratum image = stratum

/-- The assignments of the photos of a role. -/
def assignmentsOf (digests : Digests) (labels : Labels) (folds : ℤ) (seed : String)
    (role : Role) : List Assignment :=
  sortAssignments (strata.flatMap fun stratum =>
    stratumAssignments digests folds seed stratum (labels.ofStratum role stratum))

/-- The fold lock of the photos of a role. -/
def foldDocumentOf (digests : Digests) (labels : Labels) (labelsSha256 : String) (folds : ℤ)
    (seed : String) (role : Role) : FoldDocument where
  schema := "mission10-yolo-real-folds/1"
  labelsSha256 := labelsSha256
  assignmentsSha256 := digests.assignments (assignmentsOf digests labels folds seed role)
  role := role
  grouping := "exact_source_photo"
  seed := seed
  foldCount := folds
  assignments := assignmentsOf digests labels folds seed role
  counts := countsOf folds (assignmentsOf digests labels folds seed role)

/-- Labels that can be dealt to the folds. -/
structure Foldable (digests : Digests) (labels : Labels) (folds : ℤ) (seed : String)
    (role : Role) : Prop where
  certified : validateLabels digests labels true true = .ok labels
  folds : 2 ≤ folds
  seed : seed ≠ ""
  scored : ∀ image ∈ labels.ofRole role, stratumOf image = .ok (scoredStratum image)
  full : ∀ stratum, labels.ofStratum role stratum ≠ []

theorem mem_strata (stratum : Stratum) : stratum ∈ strata := by
  cases stratum <;> decide

theorem scoredStratum_eq {image : Photo} {stratum : Stratum}
    (h : stratumOf image = .ok stratum) : scoredStratum image = stratum := by
  rw [scoredStratum, h]
  rfl

theorem placed_eq_ok {records : List Photo} {placed : List (Stratum × Photo)} :
    (records.mapM fun image => do pure (← stratumOf image, image)) = .ok placed ↔
      (∀ image ∈ records, stratumOf image = .ok (scoredStratum image)) ∧
        placed = records.map fun image => (scoredStratum image, image) := by
  induction records generalizing placed with
  | nil =>
    rw [List.mapM_nil, pure_eq_ok, List.map_nil, eq_comm]
    exact ⟨fun h => ⟨by simp, h⟩, And.right⟩
  | cons image records ih =>
    rw [List.mapM_cons, List.forall_mem_cons, List.map_cons]
    simp only [bind_eq_ok, pure_eq_ok, ih]
    constructor
    · rintro ⟨_, ⟨stratum, hstratum, rfl⟩, rest, ⟨hrest, rfl⟩, rfl⟩
      rw [scoredStratum_eq hstratum]
      exact ⟨⟨hstratum, hrest⟩, rfl⟩
    · rintro ⟨⟨hstratum, hrest⟩, rfl⟩
      exact ⟨_, ⟨_, hstratum, rfl⟩, _, ⟨hrest, rfl⟩, rfl⟩

theorem placed_filter (records : List Photo) (stratum : Stratum) :
    ((records.map fun image => (scoredStratum image, image)).filter fun item =>
      decide (item.1 = stratum)).map Prod.snd =
        records.filter fun image => scoredStratum image = stratum := by
  rw [List.filter_map, List.map_map]
  exact List.map_id _

/-- A fold lock is built exactly of labels that can be dealt, from their assignments. -/
theorem buildFoldDocument_eq_ok :
    buildFoldDocument digests labels labelsSha256 folds seed role = .ok document ↔
      Foldable digests labels folds seed role ∧
        document = foldDocumentOf digests labels labelsSha256 folds seed role := by
  simp only [buildFoldDocument, bind_eq_ok (x := validateLabels _ _ _ _),
    bind_eq_ok (x := List.mapM _ _), refuseIf_bind_eq_ok, placed_eq_ok, pure_eq_ok]
  constructor
  · rintro ⟨checked, hchecked, hfolds, hseed, -, placed, ⟨hscored, rfl⟩, hfull, rfl⟩
    obtain ⟨rfl, -⟩ := validateLabels_distinct hchecked
    simp only [placed_filter] at hfull ⊢
    refine ⟨⟨hchecked, not_lt.mp hfolds, hseed, hscored, fun stratum hnone => ?_⟩, rfl⟩
    exact hfull ⟨stratum, mem_strata stratum, hnone⟩
  · rintro ⟨h, rfl⟩
    refine ⟨labels, h.certified, not_lt.mpr h.folds, h.seed, fun hnone => ?_, _, ⟨h.scored, rfl⟩,
      ?_, ?_⟩
    · apply h.full .clear
      rw [Labels.ofStratum, Labels.ofRole, hnone]
      rfl
    · rintro ⟨stratum, -, hnone⟩
      rw [placed_filter] at hnone
      exact h.full stratum hnone
    · simp only [placed_filter]
      rfl

/-! ### The assignments -/

/-- What is read of an assignment's photo alone is read of the photos of its stratum. -/
theorem map_stratumAssignments {β : Type} {g : Assignment → β} {k : Photo → β}
    {stratum : Stratum} (photos : List Photo)
    (h : ∀ ordinal image, g (assignmentOf folds stratum ordinal image) = k image) :
    ((stratumAssignments digests folds seed stratum photos).map g).Perm (photos.map k) := by
  have hmap : (stratumAssignments digests folds seed stratum photos).map g =
      (photos.insertionSort fun first second =>
        dealKey digests seed first ≤ dealKey digests seed second).map k := by
    apply List.ext_getElem
    · simp [stratumAssignments]
    · intro ordinal hfirst hsecond
      simp [stratumAssignments, h]
  rw [hmap]
  exact (List.perm_insertionSort _ photos).map k

/-- The photos of a role are those of its strata. -/
theorem ofStratum_perm (labels : Labels) (role : Role) :
    (strata.flatMap (labels.ofStratum role)).Perm (labels.ofRole role) := by
  rw [List.perm_iff_count]
  intro image
  have hcount (stratum : Stratum) : (labels.ofStratum role stratum).count image =
      if scoredStratum image = stratum then (labels.ofRole role).count image else 0 := by
    rw [Labels.ofStratum]
    split_ifs with hstratum
    · exact List.count_filter (by simpa using hstratum)
    · apply List.count_eq_zero_of_not_mem
      intro hmem
      exact hstratum (by simpa using (List.mem_filter.mp hmem).2)
  simp only [strata, List.flatMap_cons, List.flatMap_nil, List.append_nil, List.count_append,
    hcount]
  cases scoredStratum image <;> simp

theorem map_assignmentsOf {β : Type} {g : Assignment → β} {k : Photo → β}
    (h : ∀ stratum ordinal image, g (assignmentOf folds stratum ordinal image) = k image) :
    ((assignmentsOf digests labels folds seed role).map g).Perm ((labels.ofRole role).map k) := by
  have hsort := (List.perm_insertionSort (fun first second : Assignment =>
    first.sourceSha256 ≤ second.sourceSha256) (strata.flatMap fun stratum =>
      stratumAssignments digests folds seed stratum (labels.ofStratum role stratum))).map g
  refine hsort.trans (List.Perm.trans ?_ ((ofStratum_perm labels role).map k))
  rw [List.map_flatMap, List.map_flatMap]
  exact List.Perm.flatMap_left _ fun stratum _ => map_stratumAssignments _ (h stratum)

theorem hashes_perm : ((assignmentsOf digests labels folds seed role).map
    Assignment.sourceSha256).Perm ((labels.ofRole role).map Photo.sourceSha256) :=
  map_assignmentsOf fun _ _ _ => rfl

theorem sources_perm : ((assignmentsOf digests labels folds seed role).map
    Assignment.source).Perm ((labels.ofRole role).map Photo.source) :=
  map_assignmentsOf fun _ _ _ => rfl

/-- An assignment is that of a photo in its stratum. -/
theorem exists_of_mem_assignmentsOf {item : Assignment}
    (h : item ∈ assignmentsOf digests labels folds seed role) : ∃ stratum ordinal,
      ∃ image ∈ labels.ofStratum role stratum, item = assignmentOf folds stratum ordinal image := by
  obtain ⟨stratum, -, hitem⟩ := List.mem_flatMap.mp (List.mem_insertionSort _ |>.mp h)
  obtain ⟨ordinal, hordinal, rfl⟩ := List.mem_mapIdx.mp hitem
  exact ⟨stratum, ordinal, _, (List.mem_insertionSort _).mp (List.getElem_mem hordinal), rfl⟩

/-- Assignments without a fault pass the checks, whatever was assigned before them. -/
theorem checkAssignments_total {index : ℕ} {sources hashes : List String}
    {assignments : List Assignment}
    (hitems : ∀ item ∈ assignments, item.source ≠ "" ∧ isSha256 item.sourceSha256 = true ∧
      (0 ≤ item.fold ∧ item.fold < folds) ∧
      item.objects = if item.stratum = .negative then 0 else 1)
    (hsources : (assignments.map Assignment.source).Nodup)
    (hhashes : (assignments.map Assignment.sourceSha256).Nodup)
    (hnew : ∀ item ∈ assignments, item.source ∉ sources ∧ item.sourceSha256 ∉ hashes) :
    checkAssignments folds index sources hashes assignments = .ok () := by
  induction assignments generalizing index sources hashes with
  | nil => rfl
  | cons item assignments ih =>
    rw [List.map_cons, List.nodup_cons] at hsources hhashes
    obtain ⟨⟨hsource, hsha256, hfold, hobjects⟩, hrest⟩ := List.forall_mem_cons.mp hitems
    obtain ⟨⟨hnewsource, hnewhash⟩, hnewrest⟩ := List.forall_mem_cons.mp hnew
    simp only [checkAssignments, refuseIf_bind_eq_ok]
    refine ⟨hsource, hnewsource, ?_, not_not.mpr hfold, not_not.mpr hobjects,
      ih hrest hsources.2 hhashes.2 fun other hother => ⟨?_, ?_⟩⟩
    · rintro (hnot | hmem)
      · exact hnot hsha256
      · exact hnewhash hmem
    · rw [List.mem_cons, not_or]
      refine ⟨fun heq => hsources.1 ?_, (hnewrest other hother).1⟩
      exact heq ▸ List.mem_map_of_mem hother
    · rw [List.mem_cons, not_or]
      refine ⟨fun heq => hhashes.1 ?_, (hnewrest other hother).2⟩
      exact heq ▸ List.mem_map_of_mem hother

/-- Assignments of photos that are expected pass the checks against them. -/
theorem checkCover_total {expected : List Photo} {assignments : List Assignment}
    (hnodup : (expected.map Photo.sourceSha256).Nodup)
    (h : ∀ item ∈ assignments, ∃ image ∈ expected, image.sourceSha256 = item.sourceSha256 ∧
      item.source = image.source ∧ stratumOf image = .ok item.stratum) :
    checkCover expected assignments = .ok () := by
  induction assignments with
  | nil => rfl
  | cons item assignments ih =>
    obtain ⟨⟨image, himage, hhash, hsource, hstratum⟩, hrest⟩ := List.forall_mem_cons.mp h
    have hfind : expected.find? (fun image => image.sourceSha256 = item.sourceSha256) =
        some image := by
      cases hfound : expected.find? fun image => image.sourceSha256 = item.sourceSha256 with
      | none =>
        have hnot := List.find?_eq_none.mp hfound image himage
        simp [hhash] at hnot
      | some other =>
        have hother : other.sourceSha256 = item.sourceSha256 := by
          simpa using List.find?_some hfound
        rw [List.inj_on_of_nodup_map hnodup (List.mem_of_find?_eq_some hfound) himage
          (hother.trans hhash.symm)]
    simp only [checkCover, hfind]
    rw [refuseIf_bind_eq_ok]
    refine ⟨not_not.mpr hsource, ?_⟩
    rw [hstratum, ok_bind, refuseIf_bind_eq_ok]
    exact ⟨not_not.mpr rfl, ih hrest⟩

/-! ### The checks of what is built -/

/-- The keys of the counts. -/
theorem toString_natCast_injective : Function.Injective fun fold : ℕ => toString (fold : ℤ) := by
  intro first second h
  have hdigits : Nat.toDigits 10 first = Nat.toDigits 10 second := by
    have hlist := congrArg String.toList h
    simpa [Int.toString_eq_repr, Int.repr_eq_if] using hlist
  have hread := congrArg (fun digits => Nat.ofDigitChars 10 digits 0) hdigits
  simpa [Nat.ofDigitChars_toDigits] using hread

/-- The counts of a fold are found under its number. -/
theorem lookup_countsOf {assignments : List Assignment} {fold : ℕ} (h : fold < folds.toNat) :
    (countsOf folds assignments).lookup (toString (fold : ℤ)) =
      some (foldCounts assignments fold) := by
  have hkeys : ((countsOf folds assignments).map Prod.fst) =
      (List.range folds.toNat).map fun fold : ℕ => toString (fold : ℤ) := by
    rw [countsOf, List.map_map]
    rfl
  have hnodup : ((countsOf folds assignments).map Prod.fst).Nodup := by
    rw [hkeys]
    exact List.nodup_range.map toString_natCast_injective
  have hmem : (toString (fold : ℤ), foldCounts assignments fold) ∈ countsOf folds assignments :=
    List.mem_map.mpr ⟨fold, List.mem_range.mpr h, rfl⟩
  exact Dict.lookup_of_mem hnodup hmem

theorem countsAgree_of (h : document.counts = countsOf document.foldCount document.assignments) :
    countsAgree document = true := by
  rw [countsAgree, h, Bool.and_eq_true, decide_eq_true_eq, List.all_eq_true]
  constructor
  · simp [countsOf]
  · intro fold hfold
    obtain ⟨number, hnumber, rfl⟩ : ∃ number : ℕ, (number : ℤ) < document.foldCount ∧
        fold = number := by simpa using hfold
    exact decide_eq_true (lookup_countsOf (Int.lt_toNat.mpr hnumber))

theorem Foldable.distinct (h : Foldable digests labels folds seed role) :
    Distinct (labels.ofRole role) :=
  (validateLabels_distinct h.certified).2.filter _

/-- An assignment is that of a photo of the role, with its stratum. -/
theorem Foldable.exists_photo (h : Foldable digests labels folds seed role) {item : Assignment}
    (hitem : item ∈ assignmentsOf digests labels folds seed role) :
    ∃ ordinal : ℕ, ∃ image ∈ labels.ofRole role, stratumOf image = .ok item.stratum ∧
      item = assignmentOf folds item.stratum ordinal image := by
  obtain ⟨stratum, ordinal, image, himage, rfl⟩ := exists_of_mem_assignmentsOf hitem
  obtain ⟨hmem, hstratum⟩ := List.mem_filter.mp himage
  have hscored := h.scored image hmem
  rw [of_decide_eq_true hstratum] at hscored
  exact ⟨ordinal, image, hmem, hscored, rfl⟩

theorem Foldable.checkAssignments_ok (h : Foldable digests labels folds seed role) :
    checkAssignments folds 0 [] [] (assignmentsOf digests labels folds seed role) = .ok () := by
  have hfolds := h.folds
  apply checkAssignments_total
  · intro item hitem
    obtain ⟨ordinal, image, hmem, -, heq⟩ := h.exists_photo hitem
    rw [heq]
    exact ⟨h.distinct.named image hmem, h.distinct.sha256 image hmem,
      ⟨Int.emod_nonneg _ (by omega), Int.emod_lt_of_pos _ (by omega)⟩, rfl⟩
  · exact sources_perm.nodup_iff.mpr h.distinct.sources
  · exact hashes_perm.nodup_iff.mpr h.distinct.hashes
  · simp

theorem Foldable.checkFoldLabels_ok (h : Foldable digests labels folds seed role) :
    checkFoldLabels digests (foldDocumentOf digests labels labelsSha256 folds seed role)
      (some (labels, labelsSha256)) = .ok () := by
  simp only [checkFoldLabels, h.certified, ok_bind, refuseIf_bind_eq_ok]
  refine ⟨not_not.mpr rfl, not_not.mpr ?_, checkCover_total h.distinct.hashes ?_⟩
  · apply sameNames_of_mem_iff
    intro hash
    exact hashes_perm.mem_iff.symm
  · intro item hitem
    obtain ⟨ordinal, image, hmem, hstratum, heq⟩ := h.exists_photo hitem
    refine ⟨image, hmem, ?_, ?_, hstratum⟩
    · rw [heq]
      rfl
    · rw [heq]
      rfl

theorem Foldable.assignments_ne_nil (h : Foldable digests labels folds seed role) :
    assignmentsOf digests labels folds seed role ≠ [] := by
  obtain ⟨image, himage⟩ := List.exists_mem_of_ne_nil _ (h.full .clear)
  have hhash : image.sourceSha256 ∈ (assignmentsOf digests labels folds seed role).map
      Assignment.sourceSha256 :=
    hashes_perm.mem_iff.mpr (List.mem_map_of_mem (List.mem_of_mem_filter himage))
  obtain ⟨item, hitem, -⟩ := List.mem_map.mp hhash
  exact List.ne_nil_of_mem hitem

/-- A fold lock that agrees with the labels passes the checks. -/
theorem Foldable.validate (h : Foldable digests labels folds seed role)
    {given : Option (Labels × String)}
    (hgiven : checkFoldLabels digests (foldDocumentOf digests labels labelsSha256 folds seed role)
      given = .ok ()) :
    validateFoldDocument digests (foldDocumentOf digests labels labelsSha256 folds seed role)
      given = .ok (foldDocumentOf digests labels labelsSha256 folds seed role) := by
  have hassignments : checkAssignments
      (foldDocumentOf digests labels labelsSha256 folds seed role).foldCount 0 [] []
      (foldDocumentOf digests labels labelsSha256 folds seed role).assignments = .ok () :=
    h.checkAssignments_ok
  have hcounts : countsAgree (foldDocumentOf digests labels labelsSha256 folds seed role) = true :=
    countsAgree_of rfl
  simp only [validateFoldDocument, refuseIf_bind_eq_ok, hassignments, hgiven, ok_bind]
  exact ⟨not_not.mpr rfl, not_lt.mpr h.folds, not_not.mpr rfl, h.seed, h.assignments_ne_nil,
    not_not.mpr rfl, not_not.mpr hcounts, rfl⟩

/-! ### Order, balance and sides -/

variable {other : Labels} {stratum : Stratum}

/-- The order of the labels is not seen in the assignments. -/
theorem assignmentsOf_perm (h : other.images.Perm labels.images)
    (hdistinct : Distinct (labels.ofRole role)) :
    assignmentsOf digests other folds seed role = assignmentsOf digests labels folds seed role := by
  rw [assignmentsOf, assignmentsOf]
  congr 2
  funext stratum
  have hperm : (labels.ofStratum role stratum).Perm (other.ofStratum role stratum) :=
    (h.symm.filter _).filter _
  have hhashes : ((labels.ofStratum role stratum).map Photo.sourceSha256).Nodup :=
    (hdistinct.filter _).hashes
  have hkeys : ((labels.ofStratum role stratum).map (dealKey digests seed)).Nodup := by
    apply List.Nodup.of_map fun key => (ofLex key).2
    rw [List.map_map]
    exact hhashes
  rw [stratumAssignments, stratumAssignments, StableSort.insertionSort_eq_of_perm hperm hkeys]

theorem Foldable.perm (h : Foldable digests labels folds seed role)
    (hperm : other.images.Perm labels.images)
    (hcertified : validateLabels digests other true true = .ok other) :
    Foldable digests other folds seed role where
  certified := hcertified
  folds := h.folds
  seed := h.seed
  scored image hmem := h.scored image ((hperm.filter _).mem_iff.mp hmem)
  full stratum hnone := by
    have hsame : (other.ofStratum role stratum).Perm (labels.ofStratum role stratum) :=
      (hperm.filter _).filter _
    rw [hnone] at hsame
    exact h.full stratum hsame.nil_eq.symm

/-- The photos of a stratum in a fold. -/
def FoldDocument.size (document : FoldDocument) (stratum : Stratum) (fold : ℤ) : ℕ :=
  document.assignments.countP fun item => item.fold = fold ∧ item.stratum = stratum

/-- Of the photos of one stratum, a fold is dealt its share; of another one it has none. -/
theorem countP_stratumAssignments (hands hand : ℕ) (photos : List Photo) (dealt : Stratum) :
    (stratumAssignments digests hands seed dealt photos).countP
        (fun item => item.fold = (hand : ℤ) ∧ item.stratum = stratum) =
      if dealt = stratum then Dealing.dealt hands photos.length hand else 0 := by
  have hmap : (stratumAssignments digests hands seed dealt photos).map
      (fun item => (item.fold, item.stratum)) =
        (List.range photos.length).map fun ordinal => (((ordinal % hands : ℕ) : ℤ), dealt) := by
    apply List.ext_getElem
    · simp [stratumAssignments]
    · intro ordinal hfirst hsecond
      simp [stratumAssignments, assignmentOf]
  have hcount := congrArg (List.countP fun pair : ℤ × Stratum =>
    decide (pair.1 = (hand : ℤ) ∧ pair.2 = stratum)) hmap
  rw [List.countP_map, List.countP_map] at hcount
  refine hcount.trans ?_
  split_ifs with hsame
  · apply List.countP_congr
    intro ordinal _
    rw [Function.comp_apply, decide_eq_true_eq, decide_eq_true_eq, Int.natCast_inj]
    exact and_iff_left hsame
  · simp [hsame]

/-- A fold has its share of the photos of a stratum. -/
theorem size_foldDocumentOf (labelsSha256 : String) (hands hand : ℕ) :
    (foldDocumentOf digests labels labelsSha256 hands seed role).size stratum hand =
      Dealing.dealt hands (labels.ofStratum role stratum).length hand := by
  have hsort := List.perm_insertionSort (fun first second : Assignment =>
    first.sourceSha256 ≤ second.sourceSha256) (strata.flatMap fun stratum =>
      stratumAssignments digests hands seed stratum (labels.ofStratum role stratum))
  rw [FoldDocument.size, foldDocumentOf]
  dsimp only
  rw [assignmentsOf, sortAssignments, hsort.countP_eq]
  simp only [strata, List.flatMap_cons, List.flatMap_nil, List.append_nil, List.countP_append,
    countP_stratumAssignments]
  cases stratum <;> simp

/-- What a fold lock of the photos of a role promises. -/
structure FoldLockOf (digests : Digests) (labels : Labels) (labelsSha256 : String) (role : Role)
    (document : FoldDocument) : Prop where
  valid : validateFoldDocument digests document (some (labels, labelsSha256)) = .ok document
  balanced : ∀ stratum, ∀ first second : ℤ, 0 ≤ first → first < document.foldCount →
    0 ≤ second → second < document.foldCount →
      document.size stratum first ≤ document.size stratum second + 1
  sides : ∀ fold : ℤ, 0 ≤ fold → fold < document.foldCount → ∃ heldOut training,
    sourceHashes digests document fold true = .ok heldOut ∧
      sourceHashes digests document fold false = .ok training ∧ heldOut.Disjoint training ∧
      ∀ hash, (hash ∈ heldOut ∨ hash ∈ training) ↔
        ∃ image ∈ labels.images, image.role = role ∧ image.sourceSha256 = hash

theorem Foldable.sourceHashes_ok (h : Foldable digests labels folds seed role)
    (labelsSha256 : String) {fold : ℤ} (hnonneg : 0 ≤ fold) (hfold : fold < folds)
    (heldOut : Bool) :
    sourceHashes digests (foldDocumentOf digests labels labelsSha256 folds seed role) fold
      heldOut = .ok (sideHashes (foldDocumentOf digests labels labelsSha256 folds seed role) fold
        heldOut) := by
  rw [sourceHashes, h.validate rfl, ok_bind, refuseIf_neg (not_not.mpr ⟨hnonneg, hfold⟩)]
  rfl

/-- Both sides of a fold together are the photos of the role. -/
theorem mem_sides {fold : ℤ} {hash : String} :
    (hash ∈ sideHashes (foldDocumentOf digests labels labelsSha256 folds seed role) fold true ∨
      hash ∈ sideHashes (foldDocumentOf digests labels labelsSha256 folds seed role) fold false) ↔
        ∃ image ∈ labels.images, image.role = role ∧ image.sourceSha256 = hash := by
  have hrole : hash ∈ (labels.ofRole role).map Photo.sourceSha256 ↔
      ∃ image ∈ labels.images, image.role = role ∧ image.sourceSha256 = hash := by
    simp [Labels.ofRole, and_assoc]
  have hperm : ((assignmentsOf digests labels folds seed role).map Assignment.sourceSha256).Perm
      ((labels.ofRole role).map Photo.sourceSha256) := hashes_perm
  rw [← hrole, ← hperm.mem_iff, mem_sideHashes, mem_sideHashes, List.mem_map]
  constructor
  · rintro (⟨item, hitem, hhash, -⟩ | ⟨item, hitem, hhash, -⟩)
    · exact ⟨item, hitem, hhash⟩
    · exact ⟨item, hitem, hhash⟩
  · rintro ⟨item, hitem, hhash⟩
    by_cases hfold : item.fold = fold
    · exact Or.inl ⟨item, hitem, hhash, decide_eq_true hfold⟩
    · exact Or.inr ⟨item, hitem, hhash, decide_eq_false hfold⟩

/-- A fold lock that is built keeps what it promises, and it is built of the labels in any
order, with the digest of their file. -/
theorem built_fold_lock
    (h : buildFoldDocument digests labels labelsSha256 folds seed role = .ok document) :
    FoldLockOf digests labels labelsSha256 role document ∧
      ∀ (other : Labels) (otherSha256 : String), other.images.Perm labels.images →
        validateLabels digests other true true = .ok other →
          buildFoldDocument digests other otherSha256 folds seed role =
            .ok { document with labelsSha256 := otherSha256 } := by
  obtain ⟨hfoldable, rfl⟩ := buildFoldDocument_eq_ok.mp h
  have hfolds := hfoldable.folds
  refine ⟨⟨hfoldable.validate hfoldable.checkFoldLabels_ok, ?_, ?_⟩, ?_⟩
  · intro stratum first second hfirst hltfirst hsecond hltsecond
    obtain ⟨hands, rfl⟩ := Int.eq_ofNat_of_zero_le (Int.le_trans hfirst hltfirst.le)
    obtain ⟨first, rfl⟩ := Int.eq_ofNat_of_zero_le hfirst
    obtain ⟨second, rfl⟩ := Int.eq_ofNat_of_zero_le hsecond
    rw [size_foldDocumentOf, size_foldDocumentOf]
    exact Dealing.dealt_le_succ (Int.ofNat_lt.mp hltfirst) (Int.ofNat_lt.mp hltsecond)
  · intro fold hnonneg hfold
    refine ⟨_, _, hfoldable.sourceHashes_ok labelsSha256 hnonneg hfold true,
      hfoldable.sourceHashes_ok labelsSha256 hnonneg hfold false, ?_, fun hash => mem_sides⟩
    have hnodup : ((assignmentsOf digests labels folds seed role).map
        Assignment.sourceSha256).Nodup := hashes_perm.nodup_iff.mpr hfoldable.distinct.hashes
    intro hash hheld htraining
    rw [mem_sideHashes] at hheld htraining
    obtain ⟨held, hmem, rfl, hfold⟩ := hheld
    obtain ⟨item, hitem, hsame, hother⟩ := htraining
    rw [List.inj_on_of_nodup_map hnodup hitem hmem hsame, hfold] at hother
    cases hother
  · intro other otherSha256 hperm hcertified
    rw [buildFoldDocument_eq_ok]
    refine ⟨hfoldable.perm hperm hcertified, ?_⟩
    rw [foldDocumentOf, foldDocumentOf, assignmentsOf_perm hperm hfoldable.distinct]

/-- The photos of a fold are selected from the labels, and no others. -/
theorem selectRecords_built {fold : ℤ}
    (h : buildFoldDocument digests labels labelsSha256 folds seed role = .ok document)
    (hnonneg : 0 ≤ fold) (hfold : fold < folds) :
    selectRecords digests labels.images document fold =
      .ok (labels.images.filter fun image =>
        (sideHashes document fold true).contains image.sourceSha256) := by
  obtain ⟨hfoldable, rfl⟩ := buildFoldDocument_eq_ok.mp h
  have hsame : sameNames ((labels.images.filter fun image =>
      (sideHashes (foldDocumentOf digests labels labelsSha256 folds seed role) fold true).contains
        image.sourceSha256).map Photo.sourceSha256)
      (sideHashes (foldDocumentOf digests labels labelsSha256 folds seed role) fold true) = true := by
    apply sameNames_of_mem_iff
    intro hash
    constructor
    · intro hhash
      obtain ⟨image, himage, rfl⟩ := List.mem_map.mp hhash
      exact List.contains_iff_mem.mp (List.mem_filter.mp himage).2
    · intro hhash
      obtain ⟨image, himage, -, rfl⟩ := mem_sides.mp (Or.inl hhash)
      exact List.mem_map_of_mem (List.mem_filter.mpr ⟨himage, List.contains_iff_mem.mpr hhash⟩)
  rw [selectRecords, hfoldable.sourceHashes_ok labelsSha256 hnonneg hfold, ok_bind]
  dsimp only
  rw [refuseIf_neg (not_not.mpr hsame)]
  rfl

end Built

section Sample

def samplePhotos : List (String × String × List Annotation) :=
  [("clear.png", "e3b0c44298fc1c149afbf4c8996fb92427ae41e4649b934ca495991b7852b855",
      [⟨[100, 100, 160, 160], .clear⟩]),
    ("partial.png", "44136fa355b3678a1146ad16f7e8649e94fb4fc21fe77e8310c060f61caaff8a",
      [⟨[100, 100, 160, 160], .partly⟩]),
    ("negative.png", "ca978112ca1bbdcafac231b39a23dc4da786eff8147c4e72b9807785afee48bb", []),
    ("second.png", "3e23e8160039594a33894f6564e1b1348bbd7a0088d42c4acb73eeaed59c009d",
      [⟨[200, 200, 260, 260], .clear⟩])]

/-- The digests of the photos' contents behind the seed. -/
def sampleOrder : List (List UInt8 × String) :=
  [(utf8 "folds\x00e3b0c44298fc1c149afbf4c8996fb92427ae41e4649b934ca495991b7852b855",
      "d72306a52a31611b628d8870d709121ffd4430f12aa3a30c63ea68c423861dbd"),
    (utf8 "folds\x0044136fa355b3678a1146ad16f7e8649e94fb4fc21fe77e8310c060f61caaff8a",
      "cbbca4661599eafa52e8448f50a231de5f4df7dbf86d50f72eeeae0fdfe9c6c5"),
    (utf8 "folds\x00ca978112ca1bbdcafac231b39a23dc4da786eff8147c4e72b9807785afee48bb",
      "7021438e4d80cb41b6638c74eafd19d906d58ec1d19a736aded344f22eba154b"),
    (utf8 "folds\x003e23e8160039594a33894f6564e1b1348bbd7a0088d42c4acb73eeaed59c009d",
      "58b7f4bb94e9850cc57503af13ffcc34401db5110885bd80fc51bb7438045dce")]

def sampleFoldDigests : Digests where
  sha256 bytes := (sampleOrder.lookup bytes).getD ""
  roles _ := ""
  annotations _ := ""
  assignments _ := "locked"
  entries _ := ""

def sampleFoldLabels : Labels where
  schema := "mission10-yolo-real-labels/1"
  images := samplePhotos.map fun image =>
    { source := image.1
      sourceSha256 := image.2.1
      width := 640
      height := 640
      captureGroup := image.1
      role := .trainingCandidate
      reviewState := .certified
      objects := image.2.2
      ignoreRegions := [] }
  roleFreeze := some ⟨"frozen", "reviewer", ""⟩
  certification := some ⟨"reviewer", "today", ""⟩

theorem built_fold_lock_sample : ∃ document,
    buildFoldDocument sampleFoldDigests sampleFoldLabels "labels" 2 "folds" .trainingCandidate =
        .ok document ∧
      FoldLockOf sampleFoldDigests sampleFoldLabels "labels" .trainingCandidate document := by
  have hbuilt : (buildFoldDocument sampleFoldDigests sampleFoldLabels "labels" 2 "folds"
      .trainingCandidate).isOk = true := by decide +kernel
  obtain ⟨document, hdocument⟩ := ok_of_isOk hbuilt
  exact ⟨document, hdocument, (built_fold_lock hdocument).1⟩

end Sample

end Mission10.Dataset
