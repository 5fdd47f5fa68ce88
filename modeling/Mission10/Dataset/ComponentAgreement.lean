import Mission10.Dataset.HeldOut
import Mission10.Dataset.PositiveTiles
import Mission10.Dataset.Preparation
import Mission10.Dataset.TileFiles

/-!
# Writers and the reader of components

The filtered hard negatives are always read back. A prepared data set is read back
where every split has a tile and every tile is a plain name, and the positives
where there is one, their names differ, no context is lost to rounding and every
label that a box is added to ends with a line of its own.
-/
namespace Mission10.Dataset

open PlainText Outcome

variable {digests : Digests} {dumps : ComponentLock → List UInt8} {pillow : Pillow}
  {random : Random}

/-! ### The hard negatives -/

section HardNegatives

theorem suffix_toLower {ending : String} (h : ending ∈ imageSuffixes) :
    ending.toLower = ending := by
  simp only [imageSuffixes, List.mem_cons, List.not_mem_nil, or_false] at h
  rcases h with rfl | rfl | rfl | rfl | rfl | rfl | rfl <;> decide +kernel

/-- The image of a record has the name of its tile. -/
theorem RecordOf.imageName {sha256 : List UInt8 → String} {images : List (String × List UInt8)}
    {labels : List (String × String)} {entry : Entry} {record : Record}
    (h : RecordOf sha256 images labels entry record) :
    ∃ ending ∈ imageSuffixes, record.image.1 = record.tile ++ ending := by
  have hmem : record.image ∈ tileImages images entry.tile := by
    rw [h.image]
    exact List.mem_singleton_self _
  obtain ⟨ending, hending, hfile⟩ := List.mem_filterMap.mp hmem
  obtain ⟨content, -, himage⟩ := Option.map_eq_some_iff.mp hfile
  exact ⟨ending, hending, by rw [← himage, h.tile]⟩

/-- The files of a record that is written again. -/
def Record.files (record : Record) : TileFiles where
  tile := record.tile
  suffix := (PathName.suffix record.image.1).toLower
  image := record.image.2
  label := record.label
  boxes := record.boxes
  provenance := record.provenance

/-- Records that were read are acceptable where there is one. -/
theorem acceptable_of_loaded {prepared : Directory} {lock : ComponentLock} {split : Split}
    {loaded : Split × List Record} {kept : List Record}
    (h : Loaded digests.sha256 prepared lock split loaded) (hsublist : kept.Sublist loaded.2)
    (hnonempty : kept ≠ []) :
    Acceptable (kept.map fun record => record.written.files) ∧
      ∀ record ∈ kept, record.written.files.suffix ∈ imageSuffixes ∧
        recordEntry record.written = record.written.files.entry digests.sha256 := by
  obtain ⟨-, images, labels, records, hsplit, hloaded⟩ := h
  have hread : ∀ record ∈ kept, ∃ entry ∈ lock.split split,
      RecordOf digests.sha256 images labels entry record := by
    intro record hrecord
    have hmem := hsublist.subset hrecord
    rw [hloaded, mem_sortRecords] at hmem
    exact exists_left_of_forall₂ hsplit.records hmem
  have hnodup : (kept.map Record.tile).Nodup := by
    have htiles : (loaded.2.map Record.tile).Nodup := by
      rw [hloaded]
      refine ((List.perm_insertionSort _ records).map Record.tile).nodup_iff.mpr ?_
      rw [tiles_of_recordOf hsplit.records]
      exact hsplit.nodup
    exact htiles.sublist (hsublist.map Record.tile)
  refine ⟨⟨?_, ?_, ?_, ?_⟩, ?_⟩
  · intro hnil
    exact hnonempty (List.map_eq_nil_iff.mp hnil)
  · intro files hfiles
    obtain ⟨record, hrecord, rfl⟩ := List.mem_map.mp hfiles
    obtain ⟨entry, -, hrecordOf⟩ := hread record hrecord
    have hnamed := hrecordOf.named
    rw [← hrecordOf.tile] at hnamed
    exact hnamed
  · rw [List.map_map]
    exact hnodup
  · intro files hfiles
    obtain ⟨record, hrecord, rfl⟩ := List.mem_map.mp hfiles
    obtain ⟨entry, -, hrecordOf⟩ := hread record hrecord
    exact hrecordOf.counted
  · intro record hrecord
    obtain ⟨entry, -, hrecordOf⟩ := hread record hrecord
    obtain ⟨ending, hending, hname⟩ := hrecordOf.imageName
    have hne : record.tile ≠ "" := by
      rw [hrecordOf.tile]
      exact hrecordOf.named.1
    have hsuffix : record.written.files.suffix = ending := by
      have himage : record.written.files.suffix = (PathName.suffix record.image.1).toLower := rfl
      rw [himage, hname, PathName.suffix_append hne (isSuffix_of_mem hending),
        suffix_toLower hending]
    refine ⟨hsuffix ▸ hending, ?_⟩
    have himageHash := hrecordOf.imageSha256.trans hrecordOf.imageHash.symm
    have hlabelHash := hrecordOf.labelSha256.trans hrecordOf.labelHash.symm
    simp only [recordEntry, TileFiles.entry, Record.files, Record.written, himageHash, hlabelHash]

/-- The hard negatives that are left are read back. -/
theorem filterHardNegatives_readsBack {sourceComponent : Directory} {out : Out}
    {foldLockPath : String} {foldLock : JsonFile FoldDocument} {heldOutFold : ℤ}
    {written : WrittenComponent}
    (h : filterHardNegatives digests dumps sourceComponent out foldLockPath foldLock heldOutFold =
      .ok written) : ReadsBack digests.sha256 .hardneg written := by
  obtain ⟨-, source, kept, hkept⟩ := filterHardNegatives_ok h
  obtain ⟨file, hfile⟩ := loadComponent_eq_ok.mp hkept.read
  set left := (source.split .train).filter fun record =>
    !isHeldOut (sideHashes foldLock.document heldOutFold true) record.provenance with hleft
  have hnonempty : left ≠ [] := by
    intro hnil
    exact hkept.nonempty (by rw [hkept.filtered, ← hleft, hnil, List.map_nil])
  obtain ⟨hacceptable, hfiles⟩ := acceptable_of_loaded hfile.train List.filter_sublist hnonempty
  have hentries : (kept.map recordEntry) =
      (left.map fun record => record.written.files).map (TileFiles.entry digests.sha256) := by
    rw [hkept.filtered, ← hleft, List.map_map, List.map_map]
    exact List.map_congr_left fun record hrecord => (hfiles record hrecord).2
  have hwritten : WrittenOf digests.sha256 .hardneg written
      fun _ => left.map fun record => record.written.files :=
    { lock := hkept.lock
      schema := hkept.schema
      yaml := fun hfull => absurd hfull (by decide)
      splits := by rw [hkept.entries]; rfl
      entries := by
        intro split hsplit
        rw [List.mem_singleton.mp hsplit, ComponentLock.split, hkept.entries, hentries]
        rfl
      suffixes := by
        intro split files hmem
        obtain ⟨record, hrecord, rfl⟩ := List.mem_map.mp hmem
        exact (hfiles record hrecord).1
      files := by
        intro split hsplit _ _ _
        rw [List.mem_singleton.mp hsplit, hkept.images, hkept.labels, hkept.filtered, ← hleft]
        simp only [List.map_map]
        exact ⟨rfl, rfl⟩ }
  refine (readsBack_iff hwritten).mpr ⟨fun _ _ => hacceptable, ?_⟩
  have hone : ComponentName.hardneg.expectedSplits = [.train] := rfl
  rw [hone, List.flatMap_singleton]
  exact hacceptable.nodup

end HardNegatives

/-! ### The positives -/

section Positives

/-- The tiles that are drawn for a mask, from the components as they are read. -/
def drawnFor (digests : Digests) (random : Random) (inputs : FoldInputs)
    (filteredHardneg : Directory) (entry : MaskEntry) : List Record :=
  match loadComponent digests.sha256 .hardneg filteredHardneg,
    loadComponent digests.sha256 .production inputs.production with
  | .ok hardneg, .ok production =>
    drawnTiles random (hardneg.split .train) (production.split .train) entry
  | _, _ => []

/-- The training photos and the confirmed masks among them. -/
def FoldInputs.trainingPhotos (inputs : FoldInputs) : List Photo :=
  Dataset.trainingPhotos inputs.labelsFile.document inputs.training

def FoldInputs.confirmedMasks (inputs : FoldInputs) : List MaskEntry :=
  Dataset.confirmedMasks inputs.reviewFile.document inputs.training

/-- What makes positives that are read back: something to make them of, names that differ,
boxes that are not too long for their width, and labels that a line can be added to. -/
structure PositivesReadable (digests : Digests) (random : Random) (inputs : FoldInputs)
    (filteredHardneg : Directory) : Prop where
  nonempty : (∃ record ∈ inputs.trainingPhotos, visibleObjects record ≠ []) ∨
    ∃ entry ∈ inputs.confirmedMasks, drawnFor digests random inputs filteredHardneg entry ≠ []
  names : inputs.trainingPhotos.Pairwise fun first second => ¬ SharesName first second
  boxes : ∀ record ∈ inputs.trainingPhotos, ∀ object ∈ visibleObjects record,
    Proportioned object.1.xyxy 9375000
  labels : ∀ entry ∈ inputs.confirmedMasks,
    ∀ target ∈ drawnFor digests random inputs filteredHardneg entry,
      isBlank (openLine (readText target.label)) = true

def Made.files (made : Made) : TileFiles where
  tile := made.tile
  suffix := ".png"
  image := made.image
  label := made.label
  boxes := made.boxes
  provenance := .obj made.provenance

theorem filesOf_eq {α : Type} (suffix : String) (content : Made → α) {made : List Made}
    (hnodup : (made.map Made.tile).Nodup) :
    filesOf suffix content made = made.map fun tile => (tile.tile ++ suffix, content tile) := by
  induction made using List.reverseRecOn with
  | nil => rfl
  | append_singleton made last ih =>
    rw [List.map_append, List.nodup_append] at hnodup
    have hrest := ih hnodup.1
    have hnew : last.tile ++ suffix ∉ (filesOf suffix content made).map Prod.fst := by
      rw [hrest, List.map_map]
      intro hmem
      obtain ⟨other, hother, hname⟩ := List.mem_map.mp hmem
      have htile : other.tile = last.tile := (String.append_left_inj suffix).mp hname
      exact hnodup.2.2 other.tile (List.mem_map_of_mem hother) last.tile (by simp) htile
    have hstep : filesOf suffix content (made ++ [last]) =
        Dict.store (last.tile ++ suffix) (content last) (filesOf suffix content made) := by
      rw [filesOf, List.foldl_append]
      rfl
    rw [hstep, Dict.store_of_notMem hnew, hrest, List.map_append]
    rfl

variable {inputs : FoldInputs} {filteredHardneg : Directory} {production hardneg : Component}
  {contexts pastes : List Made} {written : WrittenComponent}

theorem PositivesOf.writtenOf
    (h : PositivesOf digests pillow random inputs filteredHardneg production hardneg contexts
      pastes written) :
    WrittenOf digests.sha256 .realPositive written
      fun _ => (contexts ++ pastes).map Made.files where
  lock := h.lock
  schema := h.schema
  yaml := fun hfull => absurd hfull (by decide)
  splits := by rw [h.entries]; rfl
  entries := by
    intro split hsplit
    rw [List.mem_singleton.mp hsplit, ComponentLock.split, h.entries, List.map_map]
    rfl
  suffixes := by
    intro split files hfiles
    obtain ⟨made, -, rfl⟩ := List.mem_map.mp hfiles
    have hpng : ".png" ∈ imageSuffixes := by decide
    exact hpng
  files := by
    intro split hsplit _ hnodup _
    rw [List.map_map] at hnodup
    rw [List.mem_singleton.mp hsplit, h.images, h.labels, filesOf_eq ".png" Made.image hnodup,
      filesOf_eq ".txt" Made.label hnodup, List.map_map, List.map_map]
    exact ⟨rfl, rfl⟩

theorem isPlain_of_head {tile : String} (hhead : tile.toList.head? = some 'r')
    (hslash : '/' ∉ tile.toList) : TileFiles.IsPlain tile := by
  have hne : tile ≠ "" := by
    rintro rfl
    cases hhead
  refine ⟨hne, PathName.name_eq_self hne hslash ?_⟩
  rintro rfl
  revert hhead
  decide

theorem contextTile_plain {record : Photo} {i px : ℕ}
    (h : isSha256 record.sourceSha256 = true) : TileFiles.IsPlain (contextTile record i px) := by
  have hslash : '/' ∉ (contextTile record i px).toList := by
    rw [isSha256, Bool.and_eq_true, List.all_eq_true] at h
    have hdigest : '/' ∉ record.sourceSha256.toList.take 12 := by
      intro hmem
      have hhex := h.2 _ (List.mem_of_mem_take hmem)
      revert hhex
      decide
    have hstart : '/' ∉ "rp_context_".toList := by decide
    have hunder : '/' ∉ "_".toList := by decide
    simp only [contextTile_eq, String.toList_append, String.toList_ofList, List.mem_append, not_or]
    exact ⟨⟨⟨⟨⟨hstart, hdigest⟩, hunder⟩, slash_notMem_repr i⟩, hunder⟩, slash_notMem_repr px⟩
  refine isPlain_of_head ?_ hslash
  simp only [contextTile_eq, String.toList_append]
  rfl

theorem pasteTile_plain {entry : MaskEntry} {i : ℕ} (hslash : '/' ∉ (pasteTile entry i).toList) :
    TileFiles.IsPlain (pasteTile entry i) := by
  refine isPlain_of_head ?_ hslash
  simp only [pasteTile_eq, String.toList_append]
  rfl

theorem PositivesOf.drawnFor_eq
    (h : PositivesOf digests pillow random inputs filteredHardneg production hardneg contexts
      pastes written) (entry : MaskEntry) :
    drawnFor digests random inputs filteredHardneg entry =
      drawnTiles random (hardneg.split .train) (production.split .train) entry := by
  rw [drawnFor, h.readHardneg, h.readProduction]

/-- A tile that is drawn was read with its boxes. -/
theorem PositivesOf.drawn_read
    (h : PositivesOf digests pillow random inputs filteredHardneg production hardneg contexts
      pastes written) {entry : MaskEntry} {target : Record}
    (htarget : target ∈ drawnTiles random (hardneg.split .train) (production.split .train) entry) :
    labelBoxes target.label = .ok target.boxes := by
  have hread {source : Component} {component : ComponentName} {prepared : Directory}
      (hsource : loadComponent digests.sha256 component prepared = .ok source)
      (hmem : target ∈ source.split .train) : labelBoxes target.label = .ok target.boxes := by
    obtain ⟨file, hfile⟩ := loadComponent_eq_ok.mp hsource
    obtain ⟨-, images, labels, records, hsplit, hloaded⟩ := hfile.train
    dsimp only at hloaded
    rw [hloaded, mem_sortRecords] at hmem
    obtain ⟨entry, -, hrecord⟩ := exists_left_of_forall₂ hsplit.records hmem
    exact hrecord.counted
  rw [drawnTiles] at htarget
  split at htarget
  · next targets state hdraw =>
    obtain ⟨drawn, hdrawn, rfl⟩ := List.mem_map.mp htarget
    rcases drawTargets_mem hdraw hdrawn with hmem | hmem
    · exact hread h.readHardneg hmem
    · exact hread h.readProduction hmem
  · cases htarget

theorem PositivesOf.masks_nodup
    (h : PositivesOf digests pillow random inputs filteredHardneg production hardneg contexts
      pastes written) : (inputs.confirmedMasks.map MaskEntry.id).Nodup := by
  obtain ⟨review, hreview⟩ := h.reviewed
  exact (loadMaskReview_nodup hreview).sublist (List.filter_sublist.map MaskEntry.id)

/-- The names of the positives differ where those of the contexts do. -/
theorem PositivesOf.nodup_iff
    (h : PositivesOf digests pillow random inputs filteredHardneg production hardneg contexts
      pastes written) :
    ((contexts ++ pastes).map Made.tile).Nodup ↔
      inputs.trainingPhotos.Pairwise fun first second => ¬ SharesName first second := by
  have hcontexts := makeContexts_ok h.makes
  have hpastes := makePastes_ok h.pastesOnto
  rw [List.map_append, hcontexts.tiles, hpastes.tiles, List.nodup_append, nodup_contextTiles_iff]
  refine ⟨fun hnames => hnames.1, fun hnames => ⟨hnames, nodup_pasteTiles h.masks_nodup, ?_⟩⟩
  rintro tile hcontext other hpaste rfl
  obtain ⟨record, -, htile⟩ := List.mem_flatMap.mp hcontext
  obtain ⟨i, -, px, -, rfl⟩ := mem_contextTiles.mp htile
  obtain ⟨entry, -, htile⟩ := List.mem_flatMap.mp hpaste
  obtain ⟨j, -, hname⟩ := List.mem_map.mp htile
  exact contextTile_ne_pasteTile hname.symm

/-- The names of the positives are plain. -/
theorem PositivesOf.plain
    (h : PositivesOf digests pillow random inputs filteredHardneg production hardneg contexts
      pastes written) : ∀ made ∈ contexts ++ pastes, TileFiles.IsPlain made.tile := by
  intro made hmade
  rcases List.mem_append.mp hmade with hcontext | hpaste
  · have htile : made.tile ∈ inputs.trainingPhotos.flatMap contextTiles := by
      have htiles : contexts.map Made.tile = inputs.trainingPhotos.flatMap contextTiles :=
        (makeContexts_ok h.makes).tiles
      rw [← htiles]
      exact List.mem_map_of_mem hcontext
    obtain ⟨record, hrecord, htile⟩ := List.mem_flatMap.mp htile
    obtain ⟨i, -, px, -, hname⟩ := mem_contextTiles.mp htile
    obtain ⟨labels, hlabels⟩ := h.certified
    have hsha256 := validateLabels_sha256 hlabels record (List.mem_of_mem_filter hrecord)
    rw [← hname]
    exact contextTile_plain hsha256
  · have hpastes := makePastes_ok h.pastesOnto
    obtain ⟨-, -, target, -, hpasteOf⟩ := hpastes.sound made hpaste
    have htile : made.tile ∈ pastes.map Made.tile := List.mem_map_of_mem hpaste
    rw [hpastes.tiles] at htile
    obtain ⟨entry, -, htile⟩ := List.mem_flatMap.mp htile
    obtain ⟨i, -, hname⟩ := List.mem_map.mp htile
    have hslash := hpasteOf.slash
    rw [← hname] at hslash ⊢
    exact pasteTile_plain hslash

/-- The contexts hold their boxes where no visible object is too long for its width. -/
theorem PositivesOf.contexts_counted_iff
    (h : PositivesOf digests pillow random inputs filteredHardneg production hardneg contexts
      pastes written) :
    (∀ made ∈ contexts, made.files.Counted) ↔
      ∀ record ∈ inputs.trainingPhotos, ∀ object ∈ visibleObjects record,
        Proportioned object.1.xyxy 9375000 := by
  have hcontexts := makeContexts_ok h.makes
  constructor
  · intro hcounted record hrecord object hobject
    have hsmallest : 30 ∈ contextScales := by decide
    obtain ⟨made, hmade, box, hboxes, hbox, hlabel⟩ :=
      hcontexts.complete record hrecord object hobject 30 hsmallest
    have hread : labelBoxes made.label = .ok made.boxes := hcounted made hmade
    rw [hlabel, hboxes] at hread
    have hproportioned := (labelBoxes_context hbox).mp hread
    norm_num at hproportioned
    exact hproportioned
  · intro hproportioned made hmade
    obtain ⟨record, hrecord, object, hobject, targetPx, -, box, hboxes, hbox, hlabel⟩ :=
      hcontexts.sound made hmade
    have hread : labelBoxes made.label = .ok made.boxes := by
      rw [hlabel, hboxes]
      exact labelBoxes_context_of hbox (hproportioned record hrecord object hobject)
    exact hread

/-- The pastes hold their boxes where a line can be added to the labels that are drawn. -/
theorem PositivesOf.pastes_counted_iff
    (h : PositivesOf digests pillow random inputs filteredHardneg production hardneg contexts
      pastes written) :
    (∀ made ∈ pastes, made.files.Counted) ↔
      ∀ entry ∈ inputs.confirmedMasks,
        ∀ target ∈ drawnFor digests random inputs filteredHardneg entry,
          isBlank (openLine (readText target.label)) = true := by
  have hpastes := makePastes_ok h.pastesOnto
  constructor
  · intro hcounted entry hentry target htarget
    rw [h.drawnFor_eq] at htarget
    obtain ⟨made, hmade, hpaste⟩ := hpastes.complete entry hentry target htarget
    exact (hpaste.label (h.drawn_read htarget)).mp (hcounted made hmade)
  · intro hlabels made hmade
    obtain ⟨entry, hentry, target, htarget, hpaste⟩ := hpastes.sound made hmade
    refine (hpaste.label (h.drawn_read htarget)).mpr (hlabels entry hentry target ?_)
    rw [h.drawnFor_eq]
    exact htarget

theorem PositivesOf.nonempty_iff
    (h : PositivesOf digests pillow random inputs filteredHardneg production hardneg contexts
      pastes written) :
    contexts ++ pastes ≠ [] ↔
      (∃ record ∈ inputs.trainingPhotos, visibleObjects record ≠ []) ∨
        ∃ entry ∈ inputs.confirmedMasks,
          drawnFor digests random inputs filteredHardneg entry ≠ [] := by
  have hcontexts := makeContexts_ok h.makes
  have hpastes := makePastes_ok h.pastesOnto
  constructor
  · intro hne
    obtain ⟨made, hmade⟩ := List.exists_mem_of_ne_nil _ hne
    rcases List.mem_append.mp hmade with hcontext | hpaste
    · obtain ⟨record, hrecord, object, hobject, -⟩ := hcontexts.sound made hcontext
      exact Or.inl ⟨record, hrecord, List.ne_nil_of_mem hobject⟩
    · obtain ⟨entry, hentry, target, htarget, -⟩ := hpastes.sound made hpaste
      refine Or.inr ⟨entry, hentry, ?_⟩
      rw [h.drawnFor_eq]
      exact List.ne_nil_of_mem htarget
  · rintro (⟨record, hrecord, hvisible⟩ | ⟨entry, hentry, hdrawn⟩)
    · obtain ⟨object, hobject⟩ := List.exists_mem_of_ne_nil _ hvisible
      have hsmallest : 30 ∈ contextScales := by decide
      obtain ⟨made, hmade, -⟩ := hcontexts.complete record hrecord object hobject 30 hsmallest
      exact List.ne_nil_of_mem (List.mem_append_left pastes hmade)
    · rw [h.drawnFor_eq] at hdrawn
      obtain ⟨target, htarget⟩ := List.exists_mem_of_ne_nil _ hdrawn
      obtain ⟨made, hmade, -⟩ := hpastes.complete entry hentry target htarget
      exact List.ne_nil_of_mem (List.mem_append_right contexts hmade)

/-- The positives are read back just where their inputs are readable. -/
theorem materializeRealPositives_readsBack
    (h : materializeRealPositives digests dumps pillow random inputs filteredHardneg =
      .ok written) :
    ReadsBack digests.sha256 .realPositive written ↔
      PositivesReadable digests random inputs filteredHardneg := by
  obtain ⟨production, hardneg, contexts, pastes, hmade⟩ := materializeRealPositives_ok h
  have htiles : ((contexts ++ pastes).map Made.files).map TileFiles.tile =
      (contexts ++ pastes).map Made.tile := by
    rw [List.map_map]
    rfl
  have hone : ComponentName.realPositive.expectedSplits = [.train] := rfl
  rw [readsBack_iff hmade.writtenOf, hone, List.flatMap_singleton, htiles]
  constructor
  · rintro ⟨hacceptable, hnodup⟩
    have htrain := hacceptable .train List.mem_cons_self
    have hcounted : ∀ made ∈ contexts ++ pastes, made.files.Counted :=
      fun made hmem => htrain.counted made.files (List.mem_map_of_mem hmem)
    refine ⟨hmade.nonempty_iff.mp ?_, hmade.nodup_iff.mp hnodup,
      hmade.contexts_counted_iff.mp ?_, hmade.pastes_counted_iff.mp ?_⟩
    · intro hnil
      exact htrain.nonempty (by rw [hnil, List.map_nil])
    · exact fun made hmem => hcounted made (List.mem_append_left pastes hmem)
    · exact fun made hmem => hcounted made (List.mem_append_right contexts hmem)
  · intro hreadable
    have hnodup := hmade.nodup_iff.mpr hreadable.names
    have hacceptable : Acceptable ((contexts ++ pastes).map Made.files) := by
      refine ⟨?_, ?_, ?_, ?_⟩
      · intro hnil
        exact hmade.nonempty_iff.mpr hreadable.nonempty (List.map_eq_nil_iff.mp hnil)
      · intro files hfiles
        obtain ⟨made, hmem, rfl⟩ := List.mem_map.mp hfiles
        exact hmade.plain made hmem
      · rw [htiles]
        exact hnodup
      · intro files hfiles
        obtain ⟨made, hmem, rfl⟩ := List.mem_map.mp hfiles
        rcases List.mem_append.mp hmem with hcontext | hpaste
        · exact hmade.contexts_counted_iff.mpr hreadable.boxes made hcontext
        · exact hmade.pastes_counted_iff.mpr hreadable.labels made hpaste
    exact ⟨fun _ _ => hacceptable, hnodup⟩

end Positives

/-! ### The prepared data set -/

section Preparation

variable {canonicalSha256 : PreparedContent → String} {raw : Raw} {out : Out}
  {splitFile : JsonFile SplitDocument} {written : WrittenComponent}

/-- What makes a data set that is read back: a tile in every split, and plain names. -/
structure Preparable (raw : Raw) (document : SplitDocument) : Prop where
  nonempty : ∀ split, ∃ scene ∈ document.splitScenes split,
    raw.records (sceneKey document.seed scene) ≠ []
  plain : ∀ split, ∀ scene ∈ document.splitScenes split,
    ∀ record ∈ raw.records (sceneKey document.seed scene), TileFiles.IsPlain record.tile

def Linked.files (link : Linked) : TileFiles where
  tile := link.tile
  suffix := ".png"
  image := link.image
  label := link.label
  boxes := link.boxes
  provenance := .null

/-- A file of a plain tile is linked under its own name. -/
theorem name_append_of_plain {tile ending : String} (h : TileFiles.IsPlain tile)
    (hending : PathName.IsSuffix ending) (hslash : '/' ∉ ending.toList) :
    PathName.name (tile ++ ending) = tile ++ ending := by
  have htile : '/' ∉ tile.toList := by
    have hname := PathName.slash_notMem_name tile
    rwa [h.2] at hname
  refine PathName.name_eq_self ?_ ?_ ?_
  · intro hempty
    have hletters := congrArg String.toList hempty
    rw [String.toList_append] at hletters
    exact PathName.toList_ne_nil h.1 (List.append_eq_nil_iff.mp hletters).1
  · rw [String.toList_append, List.mem_append, not_or]
    exact ⟨htile, hslash⟩
  · intro hpoint
    have hsuffix := PathName.suffix_append h.1 hending
    obtain ⟨last, rfl, -, -⟩ := hending
    rw [hpoint] at hsuffix
    have hempty : PathName.suffix "." = "" := by decide +kernel
    rw [hempty] at hsuffix
    exact PathName.ofList_ne_empty (List.cons_ne_nil _ _) hsuffix.symm

/-- What `prepare` makes of its input. -/
structure PreparedOf (digests : Digests) (raw : Raw) (document : SplitDocument) (seed : String)
    (splits : List (Split × List ℤ)) (keys : List String) (linked : List Linked)
    (written : WrittenComponent) : Prop where
  splitsOf : SplitsOf document seed splits
  keyed : ∀ key, key ∈ keys ↔ ∃ split, ∃ scene ∈ document.splitScenes split,
    sceneKey seed scene = key
  scenes : ScenesLinked raw seed splits [] linked keys
  writtenOf : WrittenOf digests.sha256 .production written
    fun split => (linkedOf linked split).map Linked.files

theorem prepare_ok (h : prepare digests canonicalSha256 dumps raw out splitFile = .ok written) :
    ∃ seed splits keys linked, PreparedOf digests raw splitFile.document seed splits keys linked
      written := by
  obtain ⟨⟨seed, splits⟩, hsplits, h⟩ := bind_ok h
  simp only [refuseIf_bind_eq_ok, not_not] at h
  obtain ⟨hkeys, -, h⟩ := h
  obtain ⟨linked, hlinked, h⟩ := bind_ok h
  obtain ⟨links, hlinks, hscenes⟩ := linkScenes_ok hlinked
  rw [List.nil_append] at hlinks
  subst hlinks
  have hsplitsOf := loadSplitFile_ok hsplits
  have hwritten := pure_ok h
  refine ⟨seed, splits, sortNames (raw.index.document.map Prod.fst).dedup, linked, hsplitsOf, ?_,
    hscenes, ?_⟩
  · intro key
    rw [mem_iff_of_sameNames hkeys, hsplitsOf.listed]
    simp only [List.mem_map, List.mem_flatMap]
    constructor
    · rintro ⟨scene, ⟨owner, ⟨split, -, rfl⟩, hscene⟩, hkey⟩
      exact ⟨split, scene, hscene, hkey⟩
    · rintro ⟨split, scene, hscene, hkey⟩
      exact ⟨scene, ⟨_, ⟨split, by cases split <;> decide, rfl⟩, hscene⟩, hkey⟩
  · rw [hwritten]
    refine ⟨⟨_, rfl⟩, rfl, fun _ => rfl, rfl, ?_, ?_, ?_⟩
    · intro split _
      have hlock : ∀ entries : Split → List Entry, ((splitNames.map fun split =>
          (split.name, entries split)).lookup split.name).getD [] = entries split := by
        intro entries
        cases split <;> rfl
      rw [ComponentLock.split, hlock, List.map_map, sortEntries]
      exact List.map_insertionSort _ _ _ _ fun first _ second _ => Iff.rfl
    · intro split files hfiles
      obtain ⟨link, -, rfl⟩ := List.mem_map.mp hfiles
      have hpng : ".png" ∈ imageSuffixes := by decide
      exact hpng
    · intro split _ hplain _ hne
      have hne : linkedOf linked split ≠ [] := fun hnil => hne (by rw [hnil, List.map_nil])
      obtain ⟨link, hlink⟩ := List.exists_mem_of_ne_nil _ hne
      obtain ⟨hmem, hlinkSplit⟩ := List.mem_filter.mp hlink
      obtain ⟨key, hkey, hkeySplit, -⟩ := hscenes.sound link hmem
      rw [of_decide_eq_true hlinkSplit] at hkeySplit
      have hmade : split ∈ (sortNames (raw.index.document.map Prod.fst).dedup).filterMap
          (splitForScene seed splits) := List.mem_filterMap.mpr ⟨key, hkey, hkeySplit⟩
      dsimp only
      rw [splitDirectory, splitDirectory, if_pos hmade, if_pos hmade, List.map_map, List.map_map]
      have hpng : PathName.IsSuffix ".png" := isSuffix_of_mem (by decide)
      constructor
      · refine congrArg some (List.map_congr_left ?_)
        intro other hother
        have hname := name_append_of_plain (hplain other.files (List.mem_map_of_mem hother)) hpng
          (by decide)
        exact Prod.ext hname rfl
      · refine congrArg some (List.map_congr_left ?_)
        intro other hother
        have hname := name_append_of_plain (hplain other.files (List.mem_map_of_mem hother))
          isSuffix_txt (by decide)
        exact Prod.ext hname rfl

theorem nodup_linkedOf {linked : List Linked} (h : (linked.map Linked.tile).Nodup)
    (split : Split) : ((linkedOf linked split).map Linked.tile).Nodup :=
  h.sublist (List.filter_sublist.map Linked.tile)

/-- No tile is linked in two splits. -/
theorem nodup_splits {linked : List Linked} (h : (linked.map Linked.tile).Nodup) :
    (splitNames.flatMap fun split => (linkedOf linked split).map Linked.tile).Nodup := by
  refine List.nodup_flatMap.mpr ⟨fun split _ => nodup_linkedOf h split, ?_⟩
  have hsplits : splitNames.Nodup := by decide
  refine hsplits.imp ?_
  intro first second hne tile hfirst hsecond
  obtain ⟨link, hlink, rfl⟩ := List.mem_map.mp hfirst
  obtain ⟨other, hother, htile⟩ := List.mem_map.mp hsecond
  obtain ⟨hmem, hsplit⟩ := List.mem_filter.mp hlink
  obtain ⟨hotherMem, hotherSplit⟩ := List.mem_filter.mp hother
  have hsame : other = link := List.inj_on_of_nodup_map h hotherMem hmem htile
  rw [hsame] at hotherSplit
  exact hne ((of_decide_eq_true hsplit).symm.trans (of_decide_eq_true hotherSplit))

/-- A prepared data set is read back just where its input is preparable. -/
theorem prepare_readsBack
    (h : prepare digests canonicalSha256 dumps raw out splitFile = .ok written) :
    ReadsBack digests.sha256 .production written ↔ Preparable raw splitFile.document := by
  obtain ⟨seed, splits, keys, linked, hprepared⟩ := prepare_ok h
  have hseed := hprepared.splitsOf.seedEq
  have hnodup : (linked.map Linked.tile).Nodup := by
    have hlinked := hprepared.scenes.nodup List.nodup_nil
    rwa [List.nil_append] at hlinked
  have hexpected : ∀ split, split ∈ ComponentName.production.expectedSplits := by
    intro split
    cases split <;> decide
  have htiles (split : Split) : ((linkedOf linked split).map Linked.files).map TileFiles.tile =
      (linkedOf linked split).map Linked.tile := by
    rw [List.map_map]
    rfl
  have hlinkedOf {link : Linked} {split : Split} :
      link ∈ linkedOf linked split ↔ link ∈ linked ∧ link.split = split := by
    rw [linkedOf, List.mem_filter, decide_eq_true_iff]
  rw [readsBack_iff hprepared.writtenOf]
  constructor
  · rintro ⟨hacceptable, -⟩
    refine ⟨?_, ?_⟩
    · intro split
      have hne := (hacceptable split (hexpected split)).nonempty
      obtain ⟨files, hfiles⟩ := List.exists_mem_of_ne_nil _ hne
      obtain ⟨link, hlink, -⟩ := List.mem_map.mp hfiles
      obtain ⟨hmem, hsplit⟩ := hlinkedOf.mp hlink
      obtain ⟨key, -, hkeySplit, record, hrecord, -⟩ := hprepared.scenes.sound link hmem
      obtain ⟨scene, hscene, hkey⟩ := hprepared.splitsOf.splitForScene_iff.mp hkeySplit
      refine ⟨scene, hsplit ▸ hscene, ?_⟩
      rw [← hseed, hkey]
      exact List.ne_nil_of_mem hrecord
    · intro split scene hscene record hrecord
      rw [← hseed] at hrecord
      have hkey := (hprepared.keyed _).mpr ⟨split, scene, hscene, rfl⟩
      obtain ⟨link, hlink, -, htile⟩ := hprepared.scenes.complete _ hkey record hrecord
      have hmem := hlinkedOf.mpr ⟨hlink, rfl⟩
      have hplain := (hacceptable link.split (hexpected _)).plain link.files
        (List.mem_map_of_mem hmem)
      rw [← htile]
      exact hplain
  · intro hpreparable
    refine ⟨?_, ?_⟩
    · intro split _
      refine ⟨?_, ?_, ?_, ?_⟩
      · obtain ⟨scene, hscene, hrecords⟩ := hpreparable.nonempty split
        obtain ⟨record, hrecord⟩ := List.exists_mem_of_ne_nil _ hrecords
        rw [← hseed] at hrecord
        have hkeySplit := hprepared.splitsOf.splitForScene_iff.mpr ⟨scene, hscene, rfl⟩
        have hkey := (hprepared.keyed _).mpr ⟨split, scene, hscene, rfl⟩
        obtain ⟨link, hlink, hlinkSplit, -⟩ := hprepared.scenes.complete _ hkey record hrecord
        rw [hkeySplit] at hlinkSplit
        have hmem := hlinkedOf.mpr ⟨hlink, (Option.some.inj hlinkSplit).symm⟩
        exact List.ne_nil_of_mem (List.mem_map_of_mem hmem)
      · intro files hfiles
        obtain ⟨link, hlink, rfl⟩ := List.mem_map.mp hfiles
        obtain ⟨hmem, hsplit⟩ := hlinkedOf.mp hlink
        obtain ⟨key, -, hkeySplit, record, hrecord, htile⟩ := hprepared.scenes.sound link hmem
        obtain ⟨scene, hscene, hkey⟩ := hprepared.splitsOf.splitForScene_iff.mp hkeySplit
        rw [← hkey, hseed] at hrecord
        have hplain := hpreparable.plain link.split scene hscene record hrecord
        rw [← htile] at hplain
        exact hplain
      · rw [htiles]
        exact nodup_linkedOf hnodup split
      · intro files hfiles
        obtain ⟨link, hlink, rfl⟩ := List.mem_map.mp hfiles
        exact hprepared.scenes.counted link (hlinkedOf.mp hlink).1
    · simp only [htiles]
      exact nodup_splits hnodup

end Preparation

/-! ### The three writers -/

/-- What each writer returns is read back just where its input is one that it can be read
back of: always after the filter. -/
theorem written_components_read_back (digests : Digests) (dumps : ComponentLock → List UInt8) :
    (∀ (canonicalSha256 : PreparedContent → String) (raw : Raw) (out : Out)
        (splitFile : JsonFile SplitDocument) (written : WrittenComponent),
      prepare digests canonicalSha256 dumps raw out splitFile = .ok written →
        (ReadsBack digests.sha256 .production written ↔ Preparable raw splitFile.document)) ∧
      (∀ (sourceComponent : Directory) (out : Out) (foldLockPath : String)
          (foldLock : JsonFile FoldDocument) (heldOutFold : ℤ) (written : WrittenComponent),
        filterHardNegatives digests dumps sourceComponent out foldLockPath foldLock heldOutFold =
            .ok written → ReadsBack digests.sha256 .hardneg written) ∧
      ∀ (pillow : Pillow) (random : Random) (inputs : FoldInputs) (filteredHardneg : Directory)
        (written : WrittenComponent),
        materializeRealPositives digests dumps pillow random inputs filteredHardneg =
            .ok written →
          (ReadsBack digests.sha256 .realPositive written ↔
            PositivesReadable digests random inputs filteredHardneg) := by
  refine ⟨?_, ?_, ?_⟩
  · intro canonicalSha256 raw out splitFile written h
    exact prepare_readsBack h
  · intro sourceComponent out foldLockPath foldLock heldOutFold written h
    exact filterHardNegatives_readsBack h
  · intro pillow random inputs filteredHardneg written h
    exact materializeRealPositives_readsBack h

section Sample

/-- Tiles of one split with the labels given, empty images all. -/
def sampleTiles (tiles : List (String × String)) : List Entry :=
  tiles.map fun tile =>
    { tile := tile.1
      boxes := if tile.2 = "" then 0 else 1
      imageSha256 := sampleDigests.sha256 []
      labelSha256 := sampleDigests.sha256 (utf8 tile.2)
      provenance := .null }

/-- Hard negatives without a label. -/
def sampleNegatives : Directory :=
  let names := ["hn_0", "hn_1", "hn_2", "hn_3"]
  { path := "/filtered"
    splitLock := none
    componentLock := some
      { document :=
          { schema := "mission10-yolo-training-component/1"
            datasetSha256 := ""
            entries := [("train", sampleTiles (names.map fun name => (name, "")))]
            metadata := [] }
        bytes := [0x7B, 0x7D] }
    hasDatasetYaml := false
    images := fun _ => some (names.map fun name => (name ++ ".png", []))
    labels := fun _ => some (names.map fun name => (name ++ ".txt", "")) }

/-- A production data set whose training tiles have a label each. -/
def sampleLabelled (label : String) : Directory :=
  let tiles : Split → List (String × String)
    | .train => ["s1_k0", "s1_k1", "s1_k2", "s1_k3"].map fun tile => (tile, label)
    | .val => [("s2_k0", "")]
    | .test => [("s3_k0", "")]
  { path := "/production"
    splitLock := some
      { document :=
          { schema := "mission10-yolo-dataset/1"
            datasetSha256 := "declared"
            entries := splitNames.map fun split => (split.name, sampleTiles (tiles split))
            metadata := [] }
        bytes := [0x7B, 0x7D] }
    componentLock := none
    hasDatasetYaml := true
    images := fun split => some ((tiles split).map fun tile => (tile.1 ++ ".png", []))
    labels := fun split => some ((tiles split).map fun tile => (tile.1 ++ ".txt", tile.2)) }

/-- A fold that trains on a photo with a confirmed mask, and pastes it onto labelled tiles. -/
def samplePastes (label : String) : FoldInputs :=
  { sampleFold (sampleDigests.sha256 [0x7B, 0x7D]) with
    photo := fun source => some (if source = "train.png" then [] else [0x7B, 0x7D])
    heldOutFold := 0
    production := sampleLabelled label }

/-- Rendered tiles of three scenes. -/
def sampleRaw (tiles : List (String × List TileRecord)) : Raw where
  path := "/raw"
  index := ⟨tiles, [0x7B, 0x7D]⟩
  manifest key := (sceneNumber key).map fun scene => ⟨"seed", scene⟩
  image _ := some []
  label _ := some ""

def sampleSplit : JsonFile SplitDocument where
  document := ⟨"mission10-yolo-split/1", "seed", [("train", [1]), ("val", [2]), ("test", [3])]⟩
  bytes := [0x7B, 0x7D]

def sampleIndex : List (String × List TileRecord) :=
  [("seed_s0001", [⟨"s1_k0", "seed_s0001_k0.png"⟩]),
    ("seed_s0002", [⟨"s2_k0", "seed_s0002_k0.png"⟩]),
    ("seed_s0003", [⟨"s3_k0", "seed_s0003_k0.png"⟩])]

/-- What is read of a component that was written, where its writer returns. -/
def readBack (component : ComponentName) (written : Except String WrittenComponent) :
    Option (Except String Component) :=
  written.toOption.map fun made => loadComponent sampleDigests.sha256 component made.directory

theorem not_readsBack {component : ComponentName} {made : Except String WrittenComponent}
    (h : ((readBack component made).any fun source => !source.isOk) = true) :
    ∃ written, made = .ok written ∧ ¬ ReadsBack sampleDigests.sha256 component written := by
  cases made with
  | error message => exact absurd h (by simp [readBack, Except.toOption])
  | ok written =>
    refine ⟨written, rfl, ?_⟩
    rintro ⟨source, hsource, -⟩
    simp [readBack, Except.toOption, hsource, Except.isOk, Except.toBool] at h

/-- Pastes onto a label that is drawn open are not read back. -/
theorem not_readsBack_of_open {inputs : FoldInputs} {filteredHardneg : Directory}
    (hmade : (materializeRealPositives digests dumps pillow random inputs
      filteredHardneg).isOk = true)
    (hopen : (inputs.confirmedMasks.any fun entry =>
      (drawnFor digests random inputs filteredHardneg entry).any fun target =>
        !isBlank (openLine (readText target.label))) = true) :
    ∃ written, materializeRealPositives digests dumps pillow random inputs filteredHardneg =
        .ok written ∧
      ¬ ReadsBack digests.sha256 .realPositive written := by
  obtain ⟨written, hwritten⟩ := ok_of_isOk hmade
  refine ⟨written, hwritten, fun hreads => ?_⟩
  have hreadable := (materializeRealPositives_readsBack hwritten).mp hreads
  obtain ⟨entry, hentry, hopen⟩ := List.any_eq_true.mp hopen
  obtain ⟨target, htarget, hopen⟩ := List.any_eq_true.mp hopen
  rw [hreadable.labels entry hentry target htarget] at hopen
  cases hopen

/-- A prepared data set, filtered hard negatives and pastes onto closed labels. -/
theorem written_samples_read_back : ∃ prepared filtered positives,
    prepare sampleDigests (fun _ => "") (fun _ => []) (sampleRaw sampleIndex) ⟨"/out", true⟩
        sampleSplit = .ok prepared ∧
      filterHardNegatives sampleDigests (fun _ => []) (sampleFold samplePhotoHashes.1).hardneg
          ⟨"/filtered", true⟩ "/folds.json" (sampleFold samplePhotoHashes.1).foldLock 1 =
        .ok filtered ∧
      materializeRealPositives sampleDigests (fun _ => []) samplePillow sampleRandom
          (samplePastes "0 0.5 0.5 0.1 0.1\n") sampleNegatives = .ok positives ∧
      (ReadsBack sampleDigests.sha256 .production prepared ↔
        Preparable (sampleRaw sampleIndex) sampleSplit.document) ∧
      ReadsBack sampleDigests.sha256 .hardneg filtered ∧
      (ReadsBack sampleDigests.sha256 .realPositive positives ↔
        PositivesReadable sampleDigests sampleRandom (samplePastes "0 0.5 0.5 0.1 0.1\n")
          sampleNegatives) := by
  have hprepare : (prepare sampleDigests (fun _ => "") (fun _ => []) (sampleRaw sampleIndex)
      ⟨"/out", true⟩ sampleSplit).isOk = true := by decide +kernel
  have hfilter : (filterHardNegatives sampleDigests (fun _ => [])
      (sampleFold samplePhotoHashes.1).hardneg ⟨"/filtered", true⟩ "/folds.json"
      (sampleFold samplePhotoHashes.1).foldLock 1).isOk = true := by decide +kernel
  have hpositives : (materializeRealPositives sampleDigests (fun _ => []) samplePillow
      sampleRandom (samplePastes "0 0.5 0.5 0.1 0.1\n") sampleNegatives).isOk = true := by
    decide +kernel
  obtain ⟨prepared, hprepared⟩ := ok_of_isOk hprepare
  obtain ⟨filtered, hfiltered⟩ := ok_of_isOk hfilter
  obtain ⟨positives, hpositives⟩ := ok_of_isOk hpositives
  obtain ⟨hfirst, hsecond, hthird⟩ :=
    written_components_read_back sampleDigests (fun _ => [])
  exact ⟨prepared, filtered, positives, hprepared, hfiltered, hpositives,
    hfirst _ _ _ _ _ hprepared, hsecond _ _ _ _ _ _ hfiltered,
    hthird _ _ _ _ _ hpositives⟩

/-- Pastes onto labels without a final newline, and scenes without a tile, are written and
not read back. -/
theorem written_samples_not_read_back :
    (∃ positives, materializeRealPositives sampleDigests (fun _ => []) samplePillow sampleRandom
        (samplePastes "0 0.5 0.5 0.1 0.1") sampleNegatives = .ok positives ∧
      ¬ ReadsBack sampleDigests.sha256 .realPositive positives) ∧
    ∃ prepared, prepare sampleDigests (fun _ => "") (fun _ => [])
        (sampleRaw (sampleIndex.map fun scene => (scene.1, []))) ⟨"/out", true⟩ sampleSplit =
          .ok prepared ∧
      ¬ ReadsBack sampleDigests.sha256 .production prepared :=
  ⟨not_readsBack_of_open (by decide +kernel) (by decide +kernel),
    not_readsBack (by decide +kernel)⟩

end Sample

end Mission10.Dataset
