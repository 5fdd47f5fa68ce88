import Mission10.Dataset.Components

/-!
# What the reader of a component accepts

A component is read where its lock has the expected schema and splits, every entry
is true of the files of its tile, no tile is listed twice and no file is left
unlisted. The records of a split are then those of its entries in the order of
their tiles.
-/
namespace Mission10.Dataset

open PlainText Outcome

variable {sha256 : List UInt8 → String} {component : ComponentName} {split : Split}
  {labelDir : String} {images : List (String × List UInt8)} {labels : List (String × String)}
  {allTiles : List String} {entry : Entry} {record : Record}

theorem sourceImage_eq_ok {tile : String} {image : String × List UInt8} :
    sourceImage images tile = .ok image ↔ tileImages images tile = [image] := by
  unfold sourceImage
  split
  · next found hfound => simp [hfound, pure_eq_ok]
  · next found hfound =>
    refine ⟨fun h => absurd h error_ne_ok, fun h => absurd h ?_⟩
    exact hfound image

/-- A record is read from an entry: the tile's one image and its label have the hashes and
the boxes that the entry lists. -/
structure RecordOf (sha256 : List UInt8 → String) (images : List (String × List UInt8))
    (labels : List (String × String)) (entry : Entry) (record : Record) : Prop where
  named : entry.tile ≠ "" ∧ PathName.name entry.tile = entry.tile
  image : tileImages images entry.tile = [record.image]
  label : labels.lookup (entry.tile ++ ".txt") = some record.label
  imageHash : sha256 record.image.2 = entry.imageSha256
  labelHash : sha256 (utf8 record.label) = entry.labelSha256
  counted : labelBoxes record.label = .ok record.boxes
  boxes : (record.boxes : ℤ) = entry.boxes
  tile : record.tile = entry.tile
  imageSha256 : record.imageSha256 = entry.imageSha256
  labelSha256 : record.labelSha256 = entry.labelSha256
  provenance : record.provenance = entry.provenance

theorem loadRecord_eq_ok :
    loadRecord sha256 component split labelDir images labels allTiles entry = .ok record ↔
      entry.tile ∉ allTiles ∧ RecordOf sha256 images labels entry record := by
  constructor
  · intro h
    simp only [loadRecord, refuseIf_bind_eq_ok] at h
    obtain ⟨hnamed, hnew, h⟩ := h
    obtain ⟨image, himage, h⟩ := bind_ok h
    obtain ⟨label, hlabel, h⟩ := bind_ok h
    simp only [refuseIf_bind_eq_ok] at h
    obtain ⟨himageHash, hlabelHash, h⟩ := h
    obtain ⟨boxes, hboxes, h⟩ := bind_ok h
    obtain ⟨hcount, h⟩ := refuseIf_bind_eq_ok.mp h
    rw [pure_ok h]
    rw [not_or, not_not] at hnamed
    exact ⟨hnew, hnamed, sourceImage_eq_ok.mp himage, getOr_eq_ok.mp hlabel,
      not_not.mp himageHash, not_not.mp hlabelHash, mapError_eq_ok.mp hboxes,
      not_not.mp hcount, rfl, not_not.mp himageHash, not_not.mp hlabelHash, rfl⟩
  · rintro ⟨hnew, h⟩
    simp only [loadRecord, refuseIf_bind_eq_ok, not_or, not_not]
    refine ⟨h.named, hnew, bind_eq_ok.mpr ⟨_, sourceImage_eq_ok.mpr h.image, ?_⟩⟩
    refine bind_eq_ok.mpr ⟨_, getOr_eq_ok.mpr h.label, ?_⟩
    simp only [refuseIf_bind_eq_ok, not_not]
    refine ⟨h.imageHash, h.labelHash, bind_eq_ok.mpr ⟨_, mapError_eq_ok.mpr h.counted, ?_⟩⟩
    refine refuseIf_bind_eq_ok.mpr ⟨not_not.mpr h.boxes, pure_eq_ok.mpr ?_⟩
    rw [h.imageHash, h.labelHash, ← h.imageSha256, ← h.labelSha256, ← h.tile, ← h.provenance]

theorem loadRecords_eq_ok {entries : List Entry} {records : List Record} :
    loadRecords sha256 component split labelDir images labels allTiles entries = .ok records ↔
      List.Forall₂ (RecordOf sha256 images labels) entries records ∧
        (entries.map Entry.tile).Nodup ∧ ∀ entry ∈ entries, entry.tile ∉ allTiles := by
  induction entries generalizing allTiles records with
  | nil =>
    simp only [loadRecords, pure_eq_ok, List.forall₂_nil_left_iff]
    simp [eq_comm]
  | cons entry entries ih =>
    simp only [loadRecords, bind_eq_ok, loadRecord_eq_ok, ih, pure_eq_ok]
    constructor
    · rintro ⟨record, ⟨hnew, hrecord⟩, rest, ⟨hrest, hnodup, hothers⟩, rfl⟩
      refine ⟨List.Forall₂.cons hrecord hrest, ?_, ?_⟩
      · rw [List.map_cons, List.nodup_cons]
        refine ⟨?_, hnodup⟩
        intro hmem
        obtain ⟨other, hother, htile⟩ := List.mem_map.mp hmem
        exact hothers other hother (htile ▸ List.mem_cons_self)
      · intro other hother
        rcases List.mem_cons.mp hother with rfl | hother
        · exact hnew
        · exact fun hmem => hothers other hother (List.mem_cons_of_mem _ hmem)
    · rintro ⟨hall, hnodup, hnew⟩
      rw [List.map_cons, List.nodup_cons] at hnodup
      cases hall with
      | cons hrecord hrest =>
        refine ⟨_, ⟨hnew _ List.mem_cons_self, hrecord⟩, _, ⟨hrest, hnodup.2, ?_⟩, rfl⟩
        intro other hother hmem
        rcases List.mem_cons.mp hmem with htile | hmem
        · exact hnodup.1 (htile ▸ List.mem_map_of_mem hother)
        · exact hnew other (List.mem_cons_of_mem _ hother) hmem

/-- The tiles of records are those of their entries. -/
theorem tiles_of_recordOf {entries : List Entry} {records : List Record}
    (h : List.Forall₂ (RecordOf sha256 images labels) entries records) :
    records.map Record.tile = entries.map Entry.tile := by
  induction h with
  | nil => rfl
  | cons hrecord _ ih => rw [List.map_cons, List.map_cons, hrecord.tile, ih]

/-- An entry is read to one record wherever the files of its tile are the same. -/
theorem RecordOf.unique {otherImages : List (String × List UInt8)}
    {otherLabels : List (String × String)} {other : Record}
    (h : RecordOf sha256 images labels entry record)
    (hother : RecordOf sha256 otherImages otherLabels entry other)
    (himages : tileImages images entry.tile = tileImages otherImages entry.tile)
    (hlabels : labels.lookup (entry.tile ++ ".txt") = otherLabels.lookup (entry.tile ++ ".txt")) :
    record = other := by
  have himage : record.image = other.image := by
    have hlist : [record.image] = [other.image] := h.image.symm.trans (himages.trans hother.image)
    exact List.cons.inj hlist |>.1
  have hlabel : record.label = other.label :=
    Option.some.inj (h.label.symm.trans (hlabels.trans hother.label))
  have hboxes : record.boxes = other.boxes := by
    have hcounted := h.counted
    rw [hlabel, hother.counted] at hcounted
    exact (Except.ok.inj hcounted).symm
  have htile := h.tile.trans hother.tile.symm
  have himageSha256 := h.imageSha256.trans hother.imageSha256.symm
  have hlabelSha256 := h.labelSha256.trans hother.labelSha256.symm
  have hprovenance := h.provenance.trans hother.provenance.symm
  cases record
  cases other
  simp_all

/-- Entries are read to the same records wherever the files of their tiles are the same. -/
theorem records_unique {otherImages : List (String × List UInt8)}
    {otherLabels : List (String × String)} {entries : List Entry}
    {records others : List Record}
    (h : List.Forall₂ (RecordOf sha256 images labels) entries records)
    (hother : List.Forall₂ (RecordOf sha256 otherImages otherLabels) entries others)
    (hfiles : ∀ entry ∈ entries, tileImages images entry.tile = tileImages otherImages entry.tile ∧
      labels.lookup (entry.tile ++ ".txt") = otherLabels.lookup (entry.tile ++ ".txt")) :
    records = others := by
  induction h generalizing others with
  | nil => cases hother; rfl
  | cons hrecord _ ih =>
    cases hother with
    | cons hsame hrest =>
      obtain ⟨himages, hlabels⟩ := hfiles _ List.mem_cons_self
      rw [hrecord.unique hsame himages hlabels]
      rw [ih hrest fun entry hentry => hfiles entry (List.mem_cons_of_mem _ hentry)]

theorem records_provenance {entries : List Entry} {records : List Record}
    (h : List.Forall₂ (RecordOf sha256 images labels) entries records)
    (hrecord : record ∈ records) : ∃ entry ∈ entries, record.provenance = entry.provenance := by
  obtain ⟨entry, hentry, hread⟩ := exists_left_of_forall₂ h hrecord
  exact ⟨entry, hentry, hread.provenance⟩

/-- A split is read: its entries are records, and its directories hold no other file. -/
structure SplitOf (sha256 : List UInt8 → String) (prepared : Directory) (split : Split)
    (entries : List Entry) (records : List Record) (images : List (String × List UInt8))
    (labels : List (String × String)) : Prop where
  hasImages : prepared.images split = some images
  hasLabels : prepared.labels split = some labels
  nonempty : entries ≠ []
  records : List.Forall₂ (RecordOf sha256 images labels) entries records
  nodup : (entries.map Entry.tile).Nodup
  imageNames : sameNames (images.map fun file => PathName.stem file.1)
    (entries.map Entry.tile) = true
  labelNames : sameNames (labelStems labels) (entries.map Entry.tile) = true

variable {prepared : Directory} {lock : ComponentLock}

theorem loadSplit_eq_ok {loaded : List Record} :
    loadSplit sha256 component prepared lock allTiles split = .ok loaded ↔
      ∃ images labels records, SplitOf sha256 prepared split
          (lock.split split) records images labels ∧
        (∀ entry ∈ lock.split split, entry.tile ∉ allTiles) ∧
          loaded = sortRecords records := by
  constructor
  · intro h
    obtain ⟨images, himages, h⟩ := bind_ok h
    obtain ⟨labels, hlabels, h⟩ := bind_ok h
    obtain ⟨hne, h⟩ := refuseIf_bind_eq_ok.mp h
    obtain ⟨records, hrecords, h⟩ := bind_ok h
    simp only [refuseIf_bind_eq_ok, not_or, not_not] at h
    obtain ⟨-, ⟨himageNames, hlabelNames⟩, h⟩ := h
    obtain ⟨hall, hnodup, hnew⟩ := loadRecords_eq_ok.mp hrecords
    rw [tiles_of_recordOf hall] at himageNames hlabelNames
    exact ⟨images, labels, records, ⟨getOr_eq_ok.mp himages, getOr_eq_ok.mp hlabels, hne, hall,
      hnodup, himageNames, hlabelNames⟩, hnew, pure_ok h⟩
  · rintro ⟨images, labels, records, h, hnew, rfl⟩
    refine bind_eq_ok.mpr ⟨_, getOr_eq_ok.mpr h.hasImages, ?_⟩
    refine bind_eq_ok.mpr ⟨_, getOr_eq_ok.mpr h.hasLabels, ?_⟩
    refine refuseIf_bind_eq_ok.mpr ⟨h.nonempty, ?_⟩
    refine bind_eq_ok.mpr ⟨records, loadRecords_eq_ok.mpr ⟨h.records, h.nodup, hnew⟩, ?_⟩
    simp only [refuseIf_bind_eq_ok, not_or, not_not]
    rw [tiles_of_recordOf h.records, List.Nodup.dedup h.nodup, List.length_map]
    exact ⟨h.records.length_eq.symm, ⟨h.imageNames, h.labelNames⟩, pure_eq_ok.mpr rfl⟩

theorem mem_sortRecords {records : List Record} {record : Record} :
    record ∈ sortRecords records ↔ record ∈ records :=
  (List.perm_insertionSort _ records).mem_iff

/-- What is read of a split: the records of its entries in the order of their tiles. -/
def Loaded (sha256 : List UInt8 → String) (prepared : Directory) (lock : ComponentLock)
    (split : Split) (loaded : Split × List Record) : Prop :=
  loaded.1 = split ∧ ∃ images labels records,
    SplitOf sha256 prepared split (lock.split split) records images labels ∧
      loaded.2 = sortRecords records

theorem Loaded.provenance {loaded : Split × List Record}
    (h : Loaded sha256 prepared lock split loaded) (hrecord : record ∈ loaded.2) :
    ∃ entry ∈ lock.split split, record.provenance = entry.provenance := by
  obtain ⟨-, images, labels, records, hsplit, hloaded⟩ := h
  rw [hloaded, mem_sortRecords] at hrecord
  exact records_provenance hsplit.records hrecord

theorem loadSplits_eq_ok {splits : List Split} {normalized : List (Split × List Record)} :
    loadSplits sha256 component prepared lock allTiles splits = .ok normalized ↔
      List.Forall₂ (Loaded sha256 prepared lock) splits normalized ∧
        (lock.tiles splits).Nodup ∧ ∀ tile ∈ lock.tiles splits, tile ∉ allTiles := by
  induction splits generalizing allTiles normalized with
  | nil =>
    simp only [loadSplits, pure_eq_ok, List.forall₂_nil_left_iff]
    simp [ComponentLock.tiles, eq_comm]
  | cons split splits ih =>
    have htiles : lock.tiles (split :: splits) =
        (lock.split split).map Entry.tile ++ lock.tiles splits := List.flatMap_cons
    have hread {records : List Record} {images : List (String × List UInt8)}
        {labels : List (String × String)}
        (h : SplitOf sha256 prepared split (lock.split split) records images labels)
        {tile : String} : tile ∈ (sortRecords records).map Record.tile ++ allTiles ↔
          tile ∈ (lock.split split).map Entry.tile ∨ tile ∈ allTiles := by
      rw [List.mem_append, ← tiles_of_recordOf h.records, List.mem_map, List.mem_map]
      simp only [mem_sortRecords]
    simp only [loadSplits, bind_eq_ok, loadSplit_eq_ok, ih, pure_eq_ok, htiles,
      List.nodup_append, List.mem_append]
    constructor
    · rintro ⟨loaded, ⟨images, labels, records, hsplit, hnew, rfl⟩, rest,
        ⟨hrest, hnodup, hothers⟩, rfl⟩
      have hdisjoint : ∀ tile ∈ lock.tiles splits,
          tile ∉ (lock.split split).map Entry.tile ∧ tile ∉ allTiles := by
        intro tile htile
        have hnot := hothers tile htile
        rw [← List.mem_append, hread hsplit, not_or] at hnot
        exact hnot
      refine ⟨List.Forall₂.cons ⟨rfl, images, labels, records, hsplit, rfl⟩ hrest,
        ⟨hsplit.nodup, hnodup, ?_⟩, ?_⟩
      · rintro tile htile other hother rfl
        exact (hdisjoint tile hother).1 htile
      · rintro tile (htile | htile)
        · obtain ⟨entry, hentry, rfl⟩ := List.mem_map.mp htile
          exact hnew entry hentry
        · exact (hdisjoint tile htile).2
    · rintro ⟨hall, ⟨-, hnodup, hdisjoint⟩, hnew⟩
      cases hall with
      | cons hfirst hrest =>
        rename_i loaded rest
        obtain ⟨name, loaded⟩ := loaded
        obtain ⟨rfl, images, labels, records, hsplit, hloaded⟩ := hfirst
        dsimp only at hloaded
        subst hloaded
        refine ⟨_, ⟨images, labels, records, hsplit, ?_, rfl⟩, rest, ⟨hrest, hnodup, ?_⟩, rfl⟩
        · exact fun entry hentry => hnew entry.tile (Or.inl (List.mem_map_of_mem hentry))
        · intro tile htile
          rw [← List.mem_append, hread hsplit, not_or]
          exact ⟨fun hmem => hdisjoint tile hmem tile htile rfl, hnew tile (Or.inr htile)⟩

/-- What the reader makes of a component's lock and its splits. -/
structure ComponentOf (sha256 : List UInt8 → String) (component : ComponentName)
    (prepared : Directory) (lockFile : JsonFile ComponentLock) (source : Component) : Prop where
  hasLock : prepared.lock component = some lockFile
  expectedSchema : lockFile.document.schema = component.expectedSchema
  yaml : component.fullDataset = true → prepared.hasDatasetYaml = true
  splits : sameNames (lockFile.document.entries.map Prod.fst)
    (component.expectedSplits.map Split.name) = true
  loaded : List.Forall₂ (Loaded sha256 prepared lockFile.document) component.expectedSplits
    source.entries
  nodup : (lockFile.document.tiles component.expectedSplits).Nodup
  path : source.path = prepared.path
  lockName : source.lockName = component.lockName
  schema : source.schema = component.expectedSchema
  lockSha256 : source.lockSha256 = sha256 lockFile.bytes
  datasetSha256 : source.datasetSha256 = lockFile.document.datasetSha256

theorem loadComponent_eq_ok {source : Component} :
    loadComponent sha256 component prepared = .ok source ↔
      ∃ lockFile, ComponentOf sha256 component prepared lockFile source := by
  constructor
  · intro h
    obtain ⟨lockFile, hlock, h⟩ := bind_ok h
    simp only [refuseIf_bind_eq_ok, not_and, not_not] at h
    obtain ⟨hschema, hyaml, hsplits, h⟩ := h
    obtain ⟨normalized, hloaded, h⟩ := bind_ok h
    obtain ⟨hall, hnodup, -⟩ := loadSplits_eq_ok.mp hloaded
    rw [pure_ok h]
    exact ⟨lockFile, getOr_eq_ok.mp hlock, hschema, hyaml, hsplits, hall, hnodup, rfl, rfl,
      hschema, rfl, rfl⟩
  · rintro ⟨lockFile, h⟩
    refine bind_eq_ok.mpr ⟨lockFile, getOr_eq_ok.mpr h.hasLock, ?_⟩
    simp only [refuseIf_bind_eq_ok, not_and, not_not]
    refine ⟨h.expectedSchema, h.yaml, h.splits, bind_eq_ok.mpr ⟨source.entries, ?_, ?_⟩⟩
    · exact loadSplits_eq_ok.mpr ⟨h.loaded, h.nodup, by simp⟩
    · rw [pure_eq_ok, h.expectedSchema, ← h.path, ← h.lockName, ← h.schema, ← h.lockSha256,
        ← h.datasetSha256]

theorem loaded_of_mem {splits : List Split} {normalized : List (Split × List Record)}
    (h : List.Forall₂ (Loaded sha256 prepared lock) splits normalized) (hmem : split ∈ splits) :
    Loaded sha256 prepared lock split (split, (normalized.lookup split).getD []) := by
  induction h with
  | nil => cases hmem
  | @cons first loaded splits normalized hfirst _ ih =>
    obtain ⟨name, records⟩ := loaded
    obtain ⟨rfl, hrecords⟩ := hfirst
    by_cases hname : split = name
    · subst hname
      refine ⟨rfl, ?_⟩
      simpa using hrecords
    · have hrest := ih ((List.mem_cons.mp hmem).resolve_left hname)
      rwa [List.lookup_cons, beq_eq_false_iff_ne.mpr hname]

/-- Every split that is expected is read. -/
theorem ComponentOf.ofSplit {lockFile : JsonFile ComponentLock} {source : Component}
    (h : ComponentOf sha256 component prepared lockFile source)
    (hsplit : split ∈ component.expectedSplits) :
    Loaded sha256 prepared lockFile.document split (split, source.split split) :=
  loaded_of_mem h.loaded hsplit

/-- A component of any name has a training split. -/
theorem ComponentOf.train {lockFile : JsonFile ComponentLock} {source : Component}
    (h : ComponentOf sha256 component prepared lockFile source) :
    Loaded sha256 prepared lockFile.document .train (.train, source.split .train) := by
  refine h.ofSplit ?_
  cases component <;> exact List.mem_cons_self

/-! ### Listings -/

/-- What tells tiles apart: their names, their hashes and their boxes. -/
structure Listing where
  tile : String
  imageSha256 : String
  labelSha256 : String
  boxes : ℕ
deriving DecidableEq

def Record.listing (record : Record) : Listing :=
  ⟨record.tile, record.imageSha256, record.labelSha256, record.boxes⟩

def Entry.listing (entry : Entry) : Listing :=
  ⟨entry.tile, entry.imageSha256, entry.labelSha256, entry.boxes.toNat⟩

def sortListings (listings : List Listing) : List Listing :=
  listings.insertionSort fun first second => first.tile ≤ second.tile

theorem RecordOf.listing (h : RecordOf sha256 images labels entry record) :
    record.listing = entry.listing := by
  have hboxes : entry.boxes.toNat = record.boxes := by
    rw [← h.boxes]
    rfl
  rw [Record.listing, Entry.listing, h.tile, h.imageSha256, h.labelSha256, hboxes]

theorem listings_of_recordOf {entries : List Entry} {records : List Record}
    (h : List.Forall₂ (RecordOf sha256 images labels) entries records) :
    records.map Record.listing = entries.map Entry.listing := by
  induction h with
  | nil => rfl
  | cons hrecord _ ih => rw [List.map_cons, List.map_cons, hrecord.listing, ih]

/-- What is read of a split is what its entries list, in the order of the tiles. -/
theorem Loaded.listings {loaded : Split × List Record}
    (h : Loaded sha256 prepared lock split loaded) :
    loaded.2.map Record.listing = sortListings ((lock.split split).map Entry.listing) := by
  obtain ⟨-, images, labels, records, hsplit, hloaded⟩ := h
  rw [hloaded, ← listings_of_recordOf hsplit.records, sortRecords, sortListings]
  exact List.map_insertionSort _ _ _ _ fun first _ second _ => Iff.rfl

end Mission10.Dataset
