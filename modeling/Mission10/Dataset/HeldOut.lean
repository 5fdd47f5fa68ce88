import Mission10.Dataset.CompositionIdentity
import Mission10.Dataset.Materialization
import Mission10.Library.StableSort

/-!
# Held-out photos

The photos of the held-out fold take no part in what a fold trains on. Two folds
that differ only in what is made of held-out photos are made into the same hard
negatives and the same positives, tile by tile: every list that is drawn from is
filtered first, and the filtered lists are the same.
-/
namespace Mission10.Dataset

open Outcome

/-- A provenance names the photo of its tile at its top, and no other. -/
def NamesPhoto (provenance : Json) : Prop :=
  ∃ hash, provenance.get "source_sha256" = some (.str hash) ∧
    provenanceSourceHashes provenance = [hash]

namespace FoldInputs

variable (inputs : FoldInputs)

/-- What is left of the inputs without the held-out photos. -/
def photos : List Photo :=
  inputs.labelsFile.document.images.filter fun record =>
    !inputs.heldOut.contains record.sourceSha256

def masks : List MaskEntry :=
  inputs.reviewFile.document.entries.filter fun entry =>
    !inputs.heldOut.contains entry.sourceSha256

def assignments : List Assignment :=
  inputs.foldLock.document.assignments.filter fun item =>
    !inputs.heldOut.contains item.sourceSha256

def hardNegatives : List Entry :=
  match inputs.hardneg.componentLock with
  | some file =>
    (file.document.split .train).filter fun entry => !isHeldOut inputs.heldOut entry.provenance
  | none => []

/-- The images of a hard negative and its label. -/
def hardNegativeFiles (entry : Entry) :
    Option (List (String × List UInt8)) × Option (Option String) :=
  ((inputs.hardneg.images .train).map fun images => tileImages images entry.tile,
    (inputs.hardneg.labels .train).map fun labels => labels.lookup (entry.tile ++ ".txt"))

end FoldInputs

/-- Inputs are the same once everything of held-out photos is removed. -/
structure SameBeyondHeldOut (first second : FoldInputs) : Prop where
  heldOutFold : first.heldOutFold = second.heldOutFold
  production : first.production = second.production
  photos : first.photos = second.photos
  masks : first.masks = second.masks
  assignments : first.assignments = second.assignments
  hardNegatives : first.hardNegatives = second.hardNegatives
  photoFiles : ∀ record ∈ first.photos, first.photo record.source = second.photo record.source
  cutoutFiles : ∀ entry ∈ first.masks, first.cutout entry.cutout = second.cutout entry.cutout
  tileFiles : ∀ entry ∈ first.hardNegatives,
    first.hardNegativeFiles entry = second.hardNegativeFiles entry

/-- Every hard negative names its photo, and no production tile names one. -/
structure NamesPhotos (inputs : FoldInputs) : Prop where
  hardneg : ∀ file ∈ inputs.hardneg.componentLock, ∀ entry ∈ file.document.split .train,
    NamesPhoto entry.provenance
  production : ∀ file ∈ inputs.production.splitLock, ∀ entry ∈ file.document.split .train,
    provenanceSourceHashes entry.provenance = []

variable {digests : Digests} {dumps : ComponentLock → List UInt8} {pillow : Pillow}
  {random : Random}

/-! ### The hard negatives -/

section HardNegatives

theorem NamesPhoto.written {record : Record} (h : NamesPhoto record.provenance) :
    record.written = record := by
  obtain ⟨hash, hget, -⟩ := h
  obtain ⟨tile, image, label, imageSha256, labelSha256, boxes, provenance⟩ := record
  cases provenance with
  | obj fields => rfl
  | _ => simp [Json.get] at hget

theorem filter_sortRecords (p : Record → Bool) (records : List Record) :
    (sortRecords records).filter p = sortRecords (records.filter p) := by
  have htotal : Std.Total fun first second : Record => first.tile ≤ second.tile :=
    ⟨fun first second => String.le_total first.tile second.tile⟩
  have htrans : IsTrans Record fun first second => first.tile ≤ second.tile :=
    ⟨fun _ _ _ => String.le_trans⟩
  exact StableSort.filter_insertionSort p records

/-- The records of the entries of which the provenance passes a test. -/
theorem Loaded.filter {prepared : Directory} {lock : ComponentLock} {split : Split}
    {loaded : Split × List Record} (h : Loaded digests.sha256 prepared lock split loaded)
    (p : Json → Bool) :
    ∃ images labels records, prepared.images split = some images ∧
      prepared.labels split = some labels ∧
      List.Forall₂ (RecordOf digests.sha256 images labels)
        ((lock.split split).filter fun entry => p entry.provenance) records ∧
      loaded.2.filter (fun record => p record.provenance) = sortRecords records := by
  obtain ⟨-, images, labels, records, hsplit, hloaded⟩ := h
  refine ⟨images, labels, records.filter fun record => p record.provenance, hsplit.hasImages,
    hsplit.hasLabels, ?_, ?_⟩
  · refine List.rel_filter ?_ hsplit.records
    intro entry record hrecord
    simp only [hrecord.provenance]
  · rw [hloaded, filter_sortRecords]

end HardNegatives

/-! ### The positives -/

section Positives

theorem photoContexts_names {sha256 : List UInt8 → String} {photo : String → Option (List UInt8)}
    {record : Photo} {contexts : List Made} {made : Made}
    (h : photoContexts pillow sha256 photo record = .ok contexts) (hmade : made ∈ contexts) :
    provenanceSourceHashes (.obj made.provenance) = [record.sourceSha256] := by
  unfold photoContexts at h
  split_ifs at h
  · rw [pure_ok h] at hmade
    cases hmade
  · obtain ⟨image, -, h⟩ := bind_ok h
    obtain ⟨all, hall, h⟩ := bind_ok h
    rw [pure_ok h] at hmade
    obtain ⟨some, hsome, hmade⟩ := List.mem_flatten.mp hmade
    obtain ⟨object, -, hobject⟩ := mem_of_mapM hall hsome
    obtain ⟨targetPx, -, hcontext⟩ := mem_of_mapM hobject hmade
    obtain ⟨⟨context, truth⟩, -, hcontext⟩ := bind_ok hcontext
    rw [pure_ok hcontext]
    simp [provenanceSourceHashes, Json.stringsUnderFields_cons]

/-- A context names the training photo it is cut from. -/
theorem makeContexts_names {sha256 : List UInt8 → String} {photo : String → Option (List UInt8)}
    {records : List Photo} {contexts : List Made} {made : Made}
    (h : makeContexts pillow sha256 photo records = .ok contexts) (hmade : made ∈ contexts) :
    ∃ record ∈ records, provenanceSourceHashes (.obj made.provenance) = [record.sourceSha256] := by
  obtain ⟨all, hall, rfl⟩ := map_eq_ok.mp h
  obtain ⟨some, hsome, hmade⟩ := List.mem_flatten.mp hmade
  obtain ⟨record, hrecord, hcontexts⟩ := mem_of_mapM hall hsome
  exact ⟨record, hrecord, photoContexts_names hcontexts hmade⟩

theorem composite_transform {cutoutFile : List UInt8} {target : Record} {targetPx : ℕ}
    {state next : random.State} {pasted : Composite}
    (h : composite pillow random cutoutFile target targetPx state = .ok (pasted, next)) :
    Json.stringsUnderFields "source_sha256" pasted.transform = [] := by
  obtain ⟨background, -, h⟩ := bind_ok h
  obtain ⟨-, h⟩ := refuseIf_bind_eq_ok.mp h
  obtain ⟨cutout, -, h⟩ := bind_ok h
  obtain ⟨existing, -, h⟩ := bind_ok h
  obtain ⟨⟨position, state⟩, -, h⟩ := bind_ok h
  obtain ⟨⟨x, y⟩, -, h⟩ := bind_ok h
  obtain ⟨hpasted, -⟩ := Prod.mk.inj (pure_ok h)
  rw [hpasted]
  simp [Json.stringsUnderFields_cons, Json.stringsUnderItems_eq]

theorem pasteOnto_names {entry : MaskEntry} {cutoutFile : List UInt8} {ordinal : ℕ}
    {targets : List ((String × Record) × ℕ)} {state : random.State} {pastes : List Made}
    {made : Made}
    (h : pasteOnto pillow random entry cutoutFile ordinal targets state = .ok pastes)
    (hmade : made ∈ pastes) :
    ∃ target ∈ targets, provenanceSourceHashes (.obj made.provenance) =
      entry.sourceSha256 :: provenanceSourceHashes target.1.2.provenance := by
  induction targets generalizing ordinal state pastes with
  | nil => rw [pasteOnto] at h; rw [pure_ok h] at hmade; cases hmade
  | cons target targets ih =>
    obtain ⟨⟨kind, record⟩, targetPx⟩ := target
    obtain ⟨⟨pasted, next⟩, hpasted, h⟩ := bind_ok h
    obtain ⟨-, h⟩ := refuseIf_bind_eq_ok.mp h
    obtain ⟨rest, hrest, h⟩ := bind_ok h
    rw [pure_ok h] at hmade
    rcases List.mem_cons.mp hmade with rfl | hmade
    · refine ⟨_, List.mem_cons_self, ?_⟩
      simp [provenanceSourceHashes, Json.stringsUnderFields_cons, composite_transform hpasted]
    · obtain ⟨target, htarget, hnames⟩ := ih hrest hmade
      exact ⟨target, List.mem_cons_of_mem _ htarget, hnames⟩

/-- A paste names the training photo of its mask and what its target names. -/
theorem makePastes_names {sha256 : List UInt8 → String} {cutout : String → Option (List UInt8)}
    {hardneg production : List Record} {confirmed : List MaskEntry} {pastes : List Made}
    {made : Made}
    (h : makePastes pillow random sha256 cutout hardneg production confirmed = .ok pastes)
    (hmade : made ∈ pastes) :
    ∃ entry ∈ confirmed, ∃ target, (target ∈ hardneg ∨ target ∈ production) ∧
      provenanceSourceHashes (.obj made.provenance) =
        entry.sourceSha256 :: provenanceSourceHashes target.provenance := by
  obtain ⟨all, hall, rfl⟩ := map_eq_ok.mp h
  obtain ⟨some, hsome, hmade⟩ := List.mem_flatten.mp hmade
  obtain ⟨entry, hentry, hpastes⟩ := mem_of_mapM hall hsome
  obtain ⟨cutoutFile, -, hpastes⟩ := bind_ok hpastes
  obtain ⟨-, hpastes⟩ := refuseIf_bind_eq_ok.mp hpastes
  obtain ⟨⟨targets, state⟩, hdraw, hpastes⟩ := bind_ok hpastes
  obtain ⟨target, htarget, hnames⟩ := pasteOnto_names hpastes hmade
  exact ⟨entry, hentry, target.1.2, drawTargets_mem hdraw htarget, hnames⟩

theorem makeContexts_congr {sha256 : List UInt8 → String}
    {photo other : String → Option (List UInt8)} {records : List Photo}
    (h : ∀ record ∈ records, photo record.source = other record.source) :
    makeContexts pillow sha256 photo records = makeContexts pillow sha256 other records := by
  rw [makeContexts, makeContexts]
  congr 1
  refine mapM_congr ?_
  intro record hrecord
  simp only [photoContexts, loadRgb, h record hrecord]

theorem makePastes_congr {sha256 : List UInt8 → String}
    {cutout other : String → Option (List UInt8)} {hardneg production : List Record}
    {confirmed : List MaskEntry}
    (h : ∀ entry ∈ confirmed, cutout entry.cutout = other entry.cutout) :
    makePastes pillow random sha256 cutout hardneg production confirmed =
      makePastes pillow random sha256 other hardneg production confirmed := by
  rw [makePastes, makePastes]
  congr 1
  refine mapM_congr ?_
  intro entry hentry
  simp only [maskPastes, h entry hentry]

end Positives

/-! ### Two runs -/

section TwoRuns

variable {first second : FoldInputs}

/-- The hard negatives that are left are the same. -/
theorem SameBeyondHeldOut.kept {one two : Component} {keptOne keptTwo : List Record}
    {filteredOne filteredTwo : WrittenComponent} (hsame : SameBeyondHeldOut first second)
    (hone : FilteredOf digests first.hardneg first.heldOut one keptOne filteredOne)
    (htwo : FilteredOf digests second.hardneg second.heldOut two keptTwo filteredTwo) :
    keptOne = keptTwo := by
  obtain ⟨fileOne, hreadOne⟩ := loadComponent_eq_ok.mp hone.read
  obtain ⟨fileTwo, hreadTwo⟩ := loadComponent_eq_ok.mp htwo.read
  have hlockOne : first.hardneg.componentLock = some fileOne := hreadOne.hasLock
  have hlockTwo : second.hardneg.componentLock = some fileTwo := hreadTwo.hasLock
  obtain ⟨images, labels, records, himages, hlabels, hrecords, hleft⟩ :=
    hreadOne.train.filter fun provenance => !isHeldOut first.heldOut provenance
  obtain ⟨otherImages, otherLabels, others, hotherImages, hotherLabels, hothers, hotherLeft⟩ :=
    hreadTwo.train.filter fun provenance => !isHeldOut second.heldOut provenance
  have hentriesOne : first.hardNegatives = (fileOne.document.split .train).filter fun entry =>
      !isHeldOut first.heldOut entry.provenance := by
    rw [FoldInputs.hardNegatives, hlockOne]
  have hentriesTwo : second.hardNegatives = (fileTwo.document.split .train).filter fun entry =>
      !isHeldOut second.heldOut entry.provenance := by
    rw [FoldInputs.hardNegatives, hlockTwo]
  rw [← hentriesOne] at hrecords
  rw [← hentriesTwo, ← hsame.hardNegatives] at hothers
  have hrecords : records = others := by
    refine records_unique hrecords hothers ?_
    intro entry hentry
    have hfiles := hsame.tileFiles entry hentry
    simp only [FoldInputs.hardNegativeFiles, himages, hlabels, hotherImages, hotherLabels,
      Option.map_some, Prod.mk.injEq, Option.some.injEq] at hfiles
    exact hfiles
  rw [hone.filtered, htwo.filtered]
  simp only at hleft hotherLeft
  rw [hleft, hotherLeft, hrecords]

/-- The training photos are those that are left. -/
theorem training_eq {document : FoldDocument} {fold : ℤ}
    (hnodup : (document.assignments.map Assignment.sourceSha256).Nodup) :
    sideHashes document fold false = (document.assignments.filter fun item =>
      !(sideHashes document fold true).contains item.sourceSha256).map
        Assignment.sourceSha256 := by
  rw [sideHashes]
  congr 1
  refine List.filter_congr ?_
  intro item hitem
  by_cases hfold : item.fold = fold
  · have hheld : item.sourceSha256 ∈ sideHashes document fold true :=
      mem_sideHashes.mpr ⟨item, hitem, rfl, decide_eq_true hfold⟩
    simp [hfold, hheld]
  · have htraining : item.sourceSha256 ∈ sideHashes document fold false :=
      mem_sideHashes.mpr ⟨item, hitem, rfl, decide_eq_false hfold⟩
    simp [hfold, sides_disjoint hnodup htraining]

theorem SameBeyondHeldOut.training (hsame : SameBeyondHeldOut first second)
    (hfirst : (first.foldLock.document.assignments.map Assignment.sourceSha256).Nodup)
    (hsecond : (second.foldLock.document.assignments.map Assignment.sourceSha256).Nodup) :
    first.training = second.training := by
  have hassignments := hsame.assignments
  rw [FoldInputs.training, FoldInputs.training, training_eq hfirst, training_eq hsecond]
  exact congrArg (List.map Assignment.sourceSha256) hassignments

section Left

variable {inputs : FoldInputs}

/-- What is filtered by the training photos may be filtered by the held-out ones first. -/
theorem filter_left {α : Type} (hash : α → String) (p : α → Bool) (items : List α)
    (hnodup : (inputs.foldLock.document.assignments.map Assignment.sourceSha256).Nodup) :
    (items.filter fun item => inputs.training.contains (hash item) && p item) =
      (items.filter fun item => !inputs.heldOut.contains (hash item)).filter fun item =>
        inputs.training.contains (hash item) && p item := by
  rw [List.filter_filter]
  refine List.filter_congr ?_
  intro item _
  cases htraining : inputs.training.contains (hash item) with
  | false => simp
  | true =>
    have hheld := sides_disjoint hnodup (List.contains_iff_mem.mp htraining)
    have hnot : inputs.heldOut.contains (hash item) = false := by
      rw [Bool.eq_false_iff, ne_eq, List.contains_iff_mem]
      exact hheld
    simp only [hnot, Bool.not_false, Bool.and_true]

theorem trainingPhotos_left
    (hnodup : (inputs.foldLock.document.assignments.map Assignment.sourceSha256).Nodup) :
    trainingPhotos inputs.labelsFile.document inputs.training =
      inputs.photos.filter fun record => inputs.training.contains record.sourceSha256 := by
  have hfilter := filter_left Photo.sourceSha256 (fun _ => true)
    inputs.labelsFile.document.images hnodup
  simp only [Bool.and_true] at hfilter
  exact hfilter

theorem confirmedMasks_left
    (hnodup : (inputs.foldLock.document.assignments.map Assignment.sourceSha256).Nodup) :
    confirmedMasks inputs.reviewFile.document inputs.training =
      inputs.masks.filter fun entry => inputs.training.contains entry.sourceSha256 &&
        decide (entry.confirmation = .confirmed) :=
  filter_left MaskEntry.sourceSha256 (fun entry => decide (entry.confirmation = .confirmed))
    inputs.reviewFile.document.entries hnodup

end Left

/-- What the reader finds in the directory of the hard negatives that are left. -/
theorem FilteredOf.read_back {sourceComponent : Directory} {excluded : List String}
    {source again : Component} {kept : List Record} {filtered : WrittenComponent}
    (h : FilteredOf digests sourceComponent excluded source kept filtered)
    (hread : loadComponent digests.sha256 .hardneg filtered.directory = .ok again) :
    ∃ records, List.Forall₂ (RecordOf digests.sha256
        (kept.map fun record =>
          (record.tile ++ (PathName.suffix record.image.1).toLower, record.image.2))
        (kept.map fun record => (record.tile ++ ".txt", record.label)))
        (sortEntries (kept.map recordEntry)) records ∧
      again.split .train = sortRecords records := by
  obtain ⟨file, hfile⟩ := loadComponent_eq_ok.mp hread
  have hlock : file.document.split .train = sortEntries (kept.map recordEntry) := by
    obtain ⟨bytes, hbytes⟩ := h.lock
    have hsame : filtered.directory.componentLock = some file := hfile.hasLock
    rw [hbytes] at hsame
    cases hsame
    simp [ComponentLock.split, h.entries, Split.name]
  obtain ⟨-, images, labels, records, hsplit, hrecords⟩ := hfile.train
  have himages := hsplit.hasImages
  have hlabels := hsplit.hasLabels
  have hall := hsplit.records
  rw [h.images] at himages
  rw [h.labels] at hlabels
  rw [hlock, ← Option.some.inj himages, ← Option.some.inj hlabels] at hall
  exact ⟨records, hall, hrecords⟩

/-- The reader finds the same records where the same records were written. -/
theorem FilteredOf.train_eq {sourceOne sourceTwo : Directory} {excludedOne excludedTwo : List String}
    {one two againOne againTwo : Component} {kept : List Record}
    {filteredOne filteredTwo : WrittenComponent}
    (hone : FilteredOf digests sourceOne excludedOne one kept filteredOne)
    (htwo : FilteredOf digests sourceTwo excludedTwo two kept filteredTwo)
    (hreadOne : loadComponent digests.sha256 .hardneg filteredOne.directory = .ok againOne)
    (hreadTwo : loadComponent digests.sha256 .hardneg filteredTwo.directory = .ok againTwo) :
    againOne.split .train = againTwo.split .train := by
  obtain ⟨records, hrecords, hsplitOne⟩ := hone.read_back hreadOne
  obtain ⟨others, hothers, hsplitTwo⟩ := htwo.read_back hreadTwo
  rw [hsplitOne, hsplitTwo]
  rw [records_unique hrecords hothers fun entry _ => ⟨rfl, rfl⟩]

variable {one two : WrittenComponent × WrittenComponent}

/-- No hard negative that is left names a held-out photo. -/
theorem FilteredOf.names_none {inputs : FoldInputs} {source : Component} {kept : List Record}
    {filtered : WrittenComponent} {record : Record} {hash : String}
    (h : FilteredOf digests inputs.hardneg inputs.heldOut source kept filtered)
    (hphotos : NamesPhotos inputs) (hrecord : record ∈ kept)
    (hhash : hash ∈ provenanceSourceHashes record.provenance) : hash ∉ inputs.heldOut := by
  rw [h.filtered] at hrecord
  obtain ⟨original, horiginal, rfl⟩ := List.mem_map.mp hrecord
  obtain ⟨hmem, hnot⟩ := List.mem_filter.mp horiginal
  obtain ⟨file, hfile⟩ := loadComponent_eq_ok.mp h.read
  obtain ⟨entry, hentry, hprovenance⟩ := hfile.train.provenance hmem
  have hlock : inputs.hardneg.componentLock = some file := hfile.hasLock
  have hphoto := hphotos.hardneg file hlock entry hentry
  rw [← hprovenance] at hphoto
  rw [hphoto.written] at hhash
  obtain ⟨photo, hget, hnames⟩ := hphoto
  rw [hnames, List.mem_singleton] at hhash
  rw [isHeldOut, hget] at hnot
  intro hheld
  simp [hhash ▸ hheld] at hnot

/-- Nothing that is written names a held-out photo. -/
theorem written_names_none {inputs : FoldInputs} {entry : Entry} {hash : String}
    (h : materializeFold digests dumps pillow random inputs = .ok one)
    (hphotos : NamesPhotos inputs)
    (hentry : entry ∈ one.1.lock.split .train ∨ entry ∈ one.2.lock.split .train)
    (hhash : hash ∈ provenanceSourceHashes entry.provenance) : hash ∉ inputs.heldOut := by
  obtain ⟨hnodup, ⟨source, kept, hkept⟩, production, hardneg, contexts, pastes, hmade⟩ :=
    materializeFold_ok h
  have hfiltered : ∀ entry ∈ sortEntries (kept.map recordEntry),
      ∀ hash ∈ provenanceSourceHashes entry.provenance, hash ∉ inputs.heldOut := by
    intro entry hentry hash hhash
    obtain ⟨record, hrecord, rfl⟩ := List.mem_map.mp (mem_sortEntries.mp hentry)
    exact hkept.names_none hphotos hrecord hhash
  have htraining {hash : String} (hin : inputs.training.contains hash = true) :
      hash ∉ inputs.heldOut := sides_disjoint hnodup (List.contains_iff_mem.mp hin)
  rcases hentry with hentry | hentry
  · have hlock : one.1.lock.split .train = sortEntries (kept.map recordEntry) := by
      simp [ComponentLock.split, hkept.entries, Split.name]
    rw [hlock] at hentry
    exact hfiltered entry hentry hash hhash
  · have hlock : one.2.lock.split .train =
        sortEntries ((contexts ++ pastes).map (madeEntry digests)) := by
      simp [ComponentLock.split, hmade.entries, Split.name]
    rw [hlock, mem_sortEntries] at hentry
    obtain ⟨made, hmem, rfl⟩ := List.mem_map.mp hentry
    rw [madeEntry] at hhash
    rcases List.mem_append.mp hmem with hcontext | hpaste
    · obtain ⟨record, hrecord, hnames⟩ := makeContexts_names hmade.makes hcontext
      rw [hnames, List.mem_singleton] at hhash
      rw [hhash]
      exact htraining (List.mem_filter.mp hrecord).2
    · obtain ⟨mask, hmask, target, htarget, hnames⟩ := makePastes_names hmade.pastesOnto hpaste
      rw [hnames, List.mem_cons] at hhash
      rcases hhash with rfl | hhash
      · have hconfirmed := (List.mem_filter.mp hmask).2
        rw [Bool.and_eq_true] at hconfirmed
        exact htraining hconfirmed.1
      rcases htarget with htarget | htarget
      · obtain ⟨records, hrecords, hsplit⟩ := hkept.read_back hmade.readHardneg
        rw [hsplit, mem_sortRecords] at htarget
        obtain ⟨entry, hentry, hprovenance⟩ := records_provenance hrecords htarget
        rw [hprovenance] at hhash
        exact hfiltered entry hentry hash hhash
      · obtain ⟨file, hfile⟩ := loadComponent_eq_ok.mp hmade.readProduction
        obtain ⟨entry, hentry, hprovenance⟩ := hfile.train.provenance htarget
        have hlock : inputs.production.splitLock = some file := hfile.hasLock
        rw [hprovenance, hphotos.production file hlock entry hentry] at hhash
        cases hhash

/-- Held-out photos have no influence on what is trained on: inputs that are the same
without them make the same hard negatives and the same positives, and nothing that is
written names a held-out photo. -/
theorem held_out_photos_have_no_influence
    (hfirst : materializeFold digests dumps pillow random first = .ok one)
    (hsecond : materializeFold digests dumps pillow random second = .ok two)
    (hsame : SameBeyondHeldOut first second) (hphotosFirst : NamesPhotos first)
    (hphotosSecond : NamesPhotos second) :
    one.1.lock.entries = two.1.lock.entries ∧ one.2.lock.entries = two.2.lock.entries ∧
      ∀ entry, entry ∈ one.1.lock.split .train ∨ entry ∈ one.2.lock.split .train →
        ∀ hash ∈ provenanceSourceHashes entry.provenance,
          hash ∉ first.heldOut ∧ hash ∉ second.heldOut := by
  obtain ⟨hnodupOne, ⟨sourceOne, keptOne, hkeptOne⟩, productionOne, hardnegOne, contextsOne,
    pastesOne, hone⟩ := materializeFold_ok hfirst
  obtain ⟨hnodupTwo, ⟨sourceTwo, keptTwo, hkeptTwo⟩, productionTwo, hardnegTwo, contextsTwo,
    pastesTwo, htwo⟩ := materializeFold_ok hsecond
  have hkept : keptOne = keptTwo := hsame.kept hkeptOne hkeptTwo
  subst hkept
  have htraining := hsame.training hnodupOne hnodupTwo
  have hfiltered : one.1.lock.entries = two.1.lock.entries := by
    rw [hkeptOne.entries, hkeptTwo.entries]
  -- Both runs crop and paste from the same lists.
  have hrecords : trainingPhotos first.labelsFile.document first.training =
      trainingPhotos second.labelsFile.document second.training := by
    rw [trainingPhotos_left hnodupOne, trainingPhotos_left hnodupTwo, hsame.photos, htraining]
  have hconfirmed : confirmedMasks first.reviewFile.document first.training =
      confirmedMasks second.reviewFile.document second.training := by
    rw [confirmedMasks_left hnodupOne, confirmedMasks_left hnodupTwo, hsame.masks, htraining]
  have hproduction : productionOne = productionTwo := by
    have hread := hone.readProduction
    rw [hsame.production, htwo.readProduction] at hread
    exact (Except.ok.inj hread).symm
  have hhardneg := hkeptOne.train_eq hkeptTwo hone.readHardneg htwo.readHardneg
  have hcontexts : contextsOne = contextsTwo := by
    have hfiles : ∀ record ∈ trainingPhotos first.labelsFile.document first.training,
        first.photo record.source = second.photo record.source := by
      intro record hrecord
      rw [trainingPhotos_left hnodupOne] at hrecord
      exact hsame.photoFiles record (List.mem_of_mem_filter hrecord)
    have hmakes := hone.makes
    rw [makeContexts_congr hfiles, hrecords, htwo.makes] at hmakes
    exact (Except.ok.inj hmakes).symm
  have hpastes : pastesOne = pastesTwo := by
    have hfiles : ∀ entry ∈ confirmedMasks first.reviewFile.document first.training,
        first.cutout entry.cutout = second.cutout entry.cutout := by
      intro entry hentry
      rw [confirmedMasks_left hnodupOne] at hentry
      exact hsame.cutoutFiles entry (List.mem_of_mem_filter hentry)
    have hpasted := hone.pastesOnto
    rw [makePastes_congr hfiles, hconfirmed, hproduction, hhardneg, htwo.pastesOnto] at hpasted
    exact (Except.ok.inj hpasted).symm
  have hpositives : one.2.lock.entries = two.2.lock.entries := by
    rw [hone.entries, htwo.entries, hcontexts, hpastes]
  refine ⟨hfiltered, hpositives, ?_⟩
  intro entry hentry hash hhash
  refine ⟨written_names_none hfirst hphotosFirst hentry hhash, ?_⟩
  refine written_names_none hsecond hphotosSecond ?_ hhash
  rw [ComponentLock.split, ComponentLock.split, hfiltered, hpositives] at hentry
  exact hentry

end TwoRuns

/-! ### Two folds -/

section Sample

/-- Images that are their sizes. -/
def samplePillow : Pillow where
  Image := ℕ × ℕ
  openRgb _ := some (640, 640)
  openRgba _ := some (640, 640)
  size image := image
  extent _ side _ := (side, side)
  rotate image _ := image
  alphaBox image := some (0, 0, image.1, image.2)
  crop _ box := (box.2.2.1 - box.1, box.2.2.2 - box.2.1)
  resize _ shape := shape
  blurAlpha image _ := image
  alphaComposite background _ _ := background
  rgb image := image
  png _ := []
  size_resize _ _ := rfl
  size_blurAlpha _ _ := rfl

/-- A generator that draws the first of what there is. -/
def sampleRandom : Random where
  State := Unit
  seeded _ := ()
  sample _ n count := ((List.finRange n).take count, ())
  shuffle _ n := (List.finRange n, ())
  uniform _ low _ := (low, ())
  randrange _ _ h := (⟨0, h⟩, ())

def samplePhoto (source sourceSha256 : String) (visibility : Visibility) : Photo where
  source
  sourceSha256
  width := 640
  height := 640
  captureGroup := source
  role := .trainingCandidate
  reviewState := .certified
  objects := [⟨[100, 100, 160, 160], visibility⟩]
  ignoreRegions := []

def sampleMask (source sourceSha256 : String) : MaskEntry where
  id := source
  source
  sourceSha256
  objectIndex := 0
  visibility := .clear
  confirmation := .confirmed
  promptXyxy := [100, 100, 160, 160]
  segmentationXyxy := [100, 100, 160, 160]
  cutout := "cutout.png"
  preview := "preview.png"
  cutoutSha256 := sampleDigests.sha256 []
  previewSha256 := sampleDigests.sha256 []

/-- A hard negative of a photo, empty files both. -/
def sampleHardNegative (tile photo : String) : Entry where
  tile
  boxes := 0
  imageSha256 := sampleDigests.sha256 []
  labelSha256 := sampleDigests.sha256 []
  provenance := .obj [("kind", .str "deterministic_clean"), ("source_sha256", .str photo)]

/-- A fold that trains on one photo and holds out another. -/
def sampleFold (heldOut : String) : FoldInputs where
  labelsFile :=
    { document :=
        { schema := "mission10-yolo-real-labels/1"
          images := [samplePhoto "train.png" (sampleDigests.sha256 []) .partly,
            samplePhoto "held-out.png" heldOut .clear]
          roleFreeze := some ⟨"frozen", "reviewer", ""⟩
          certification := some ⟨"reviewer", "today", ""⟩ }
      bytes := [0x7B, 0x7D] }
  photo _ := some []
  reviewFile :=
    { document :=
        { schema := "mission10-yolo-mask-review/1"
          labelsSha256 := sampleDigests.sha256 [0x7B, 0x7D]
          samWeightsSha256 := ""
          entries := [sampleMask "held-out.png" heldOut] }
      bytes := [0x7B, 0x7D] }
  cutout _ := some []
  foldLockPath := "/folds.json"
  foldLock :=
    { document :=
        { sampleFolds with
          labelsSha256 := sampleDigests.sha256 [0x7B, 0x7D]
          assignments := [⟨"train.png", sampleDigests.sha256 [], 0, .partly, 1⟩,
            ⟨"held-out.png", heldOut, 1, .clear, 1⟩]
          counts := [("0", ⟨1, 0, 1, 0⟩), ("1", ⟨1, 1, 0, 0⟩)] }
      bytes := [0x7B, 0x7D] }
  heldOutFold := 1
  production := sampleProduction "/production" "s1_k0"
  hardneg :=
    { path := "/hardneg"
      splitLock := none
      componentLock := some
        { document :=
            { schema := "mission10-yolo-training-component/1"
              datasetSha256 := ""
              entries := [("train", [sampleHardNegative "hn_0" (sampleDigests.sha256 []),
                sampleHardNegative "hn_1" heldOut])]
              metadata := [] }
          bytes := [0x7B, 0x7D] }
      hasDatasetYaml := false
      images := fun _ => some [("hn_0.png", []), ("hn_1.png", [])]
      labels := fun _ => some [("hn_0.txt", ""), ("hn_1.txt", "")] }
  filteredOut := ⟨"/filtered", true⟩
  positivesOut := ⟨"/positives", true⟩

theorem sampleFold_namesPhotos (heldOut : String) : NamesPhotos (sampleFold heldOut) where
  hardneg := by
    intro file hfile entry hentry
    cases hfile
    simp only [ComponentLock.split, Split.name, List.lookup_cons_self,
      Option.getD_some, List.mem_cons, List.not_mem_nil, or_false] at hentry
    rcases hentry with rfl | rfl
    · exact ⟨_, rfl, rfl⟩
    · exact ⟨_, rfl, rfl⟩
  production := by
    intro file hfile entry hentry
    cases hfile
    simp only [ComponentLock.split, Split.name, List.map_cons, List.lookup_cons_self,
      Option.getD_some, List.mem_singleton] at hentry
    rw [hentry]
    rfl

def samplePhotoHashes : String × String :=
  ("60303ae22b998861bce3b28f33eec1be758a213c86c93c076dbe9f558c11c752",
    "fd61a03af4f77d870fc21e05e7e80678095c92d808cfb3b5c279ee04c74aca13")

/-- A photo is replaced in the held-out fold. -/
theorem held_out_photo_replaced : ∃ one two : WrittenComponent × WrittenComponent,
    materializeFold sampleDigests (fun _ => []) samplePillow sampleRandom
        (sampleFold samplePhotoHashes.1) = .ok one ∧
      materializeFold sampleDigests (fun _ => []) samplePillow sampleRandom
        (sampleFold samplePhotoHashes.2) = .ok two ∧
      one.1.lock.entries = two.1.lock.entries ∧ one.2.lock.entries = two.2.lock.entries := by
  have hfirst : (materializeFold sampleDigests (fun _ => []) samplePillow sampleRandom
      (sampleFold samplePhotoHashes.1)).isOk = true := by decide +kernel
  have hsecond : (materializeFold sampleDigests (fun _ => []) samplePillow sampleRandom
      (sampleFold samplePhotoHashes.2)).isOk = true := by decide +kernel
  obtain ⟨one, hone⟩ := ok_of_isOk hfirst
  obtain ⟨two, htwo⟩ := ok_of_isOk hsecond
  have hsame : SameBeyondHeldOut (sampleFold samplePhotoHashes.1)
      (sampleFold samplePhotoHashes.2) :=
    { heldOutFold := rfl
      production := rfl
      photos := by decide +kernel
      masks := by decide +kernel
      assignments := by decide +kernel
      hardNegatives := rfl
      photoFiles := fun _ _ => rfl
      cutoutFiles := fun _ _ => rfl
      tileFiles := fun _ _ => rfl }
  obtain ⟨hfiltered, hpositives, -⟩ := held_out_photos_have_no_influence hone htwo hsame
    (sampleFold_namesPhotos _) (sampleFold_namesPhotos _)
  exact ⟨one, two, hone, htwo, hfiltered, hpositives⟩

end Sample

end Mission10.Dataset
