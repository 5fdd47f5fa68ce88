import Mission10.Dataset.Materialization

/-!
# Files named after tiles

A writer leaves an image and a label for every tile it lists, both named after the
tile. The reader finds them again where the tiles are plain names, no two of them
are the same and every label has the boxes that are listed.
-/
namespace Mission10.Dataset

open Outcome

/-- A tile with its files. -/
structure TileFiles where
  tile : String
  suffix : String
  image : List UInt8
  label : String
  boxes : ℕ
  provenance : Json

namespace TileFiles

variable (sha256 : List UInt8 → String)

def entry (files : TileFiles) : Entry where
  tile := files.tile
  boxes := files.boxes
  imageSha256 := sha256 files.image
  labelSha256 := sha256 (utf8 files.label)
  provenance := files.provenance

def imageFile (files : TileFiles) : String × List UInt8 := (files.tile ++ files.suffix, files.image)

def labelFile (files : TileFiles) : String × String := (files.tile ++ ".txt", files.label)

/-- What is read of a tile. -/
def record (files : TileFiles) : Record where
  tile := files.tile
  image := files.imageFile
  label := files.label
  imageSha256 := sha256 files.image
  labelSha256 := sha256 (utf8 files.label)
  boxes := files.boxes
  provenance := files.provenance

/-- A name that is the last component of its path. -/
def IsPlain (tile : String) : Prop := tile ≠ "" ∧ PathName.name tile = tile

end TileFiles

/-! ### Names -/

theorem isSuffix_txt : PathName.IsSuffix ".txt" := ⟨"txt".toList, rfl, by decide, by decide⟩

theorem isSuffix_of_mem {ending : String} (h : ending ∈ imageSuffixes) :
    PathName.IsSuffix ending := by
  simp only [imageSuffixes, List.mem_cons, List.not_mem_nil, or_false] at h
  rcases h with rfl | rfl | rfl | rfl | rfl | rfl | rfl
  · exact ⟨"bmp".toList, rfl, by decide, by decide⟩
  · exact ⟨"jpeg".toList, rfl, by decide, by decide⟩
  · exact ⟨"jpg".toList, rfl, by decide, by decide⟩
  · exact ⟨"png".toList, rfl, by decide, by decide⟩
  · exact ⟨"tif".toList, rfl, by decide, by decide⟩
  · exact ⟨"tiff".toList, rfl, by decide, by decide⟩
  · exact ⟨"webp".toList, rfl, by decide, by decide⟩

/-- A name is taken apart into its tile and its suffix in one way. -/
theorem append_suffix_inj {tile other ending otherEnding : String} (htile : tile ≠ "")
    (hother : other ≠ "") (hending : PathName.IsSuffix ending)
    (hotherEnding : PathName.IsSuffix otherEnding) (h : tile ++ ending = other ++ otherEnding) :
    tile = other ∧ ending = otherEnding := by
  have hstem := congrArg PathName.stem h
  have hsuffix := congrArg PathName.suffix h
  rw [PathName.stem_append htile hending, PathName.stem_append hother hotherEnding] at hstem
  rw [PathName.suffix_append htile hending, PathName.suffix_append hother hotherEnding] at hsuffix
  exact ⟨hstem, hsuffix⟩

/-! ### Lookups -/

section Lookups

variable {tiles : List TileFiles} {files : TileFiles}

/-- Where no two tiles are the same, a file is found under the name of its tile. -/
theorem lookup_files {α : Type} (ending : TileFiles → String) (content : TileFiles → α)
    (hending : ∀ files ∈ tiles, PathName.IsSuffix (ending files))
    (hnamed : ∀ files ∈ tiles, files.tile ≠ "") (hnodup : (tiles.map TileFiles.tile).Nodup)
    (hfiles : files ∈ tiles) {last : String} (hlast : PathName.IsSuffix last) :
    (tiles.map fun files => (files.tile ++ ending files, content files)).lookup
        (files.tile ++ last) =
      if ending files = last then some (content files) else none := by
  induction tiles with
  | nil => cases hfiles
  | cons first tiles ih =>
    rw [List.map_cons, List.nodup_cons] at hnodup
    have hfirst := hnamed first List.mem_cons_self
    have hfirstEnding := hending first List.mem_cons_self
    rw [List.map_cons, List.lookup_cons]
    rcases List.mem_cons.mp hfiles with rfl | hmem
    · by_cases hsame : ending files = last
      · rw [hsame, beq_self_eq_true, if_pos rfl]
      · have hne : files.tile ++ last ≠ files.tile ++ ending files := by
          intro heq
          exact hsame (append_suffix_inj hfirst hfirst hlast hfirstEnding heq).2.symm
        rw [beq_eq_false_iff_ne.mpr hne, if_neg hsame]
        refine List.lookup_eq_none_iff.mpr ?_
        intro entry hentry
        obtain ⟨other, hother, rfl⟩ := List.mem_map.mp hentry
        refine bne_iff_ne.mpr ?_
        intro heq
        have htile := (append_suffix_inj hfirst (hnamed other (List.mem_cons_of_mem _ hother)) hlast
          (hending other (List.mem_cons_of_mem _ hother)) heq).1
        exact hnodup.1 (htile ▸ List.mem_map_of_mem hother)
    · have hne : files.tile ++ last ≠ first.tile ++ ending first := by
        intro heq
        have htile := (append_suffix_inj (hnamed files hfiles) hfirst hlast hfirstEnding heq).1
        exact hnodup.1 (htile ▸ List.mem_map_of_mem hmem)
      rw [beq_eq_false_iff_ne.mpr hne]
      exact ih (fun other hother => hending other (List.mem_cons_of_mem _ hother))
        (fun other hother => hnamed other (List.mem_cons_of_mem _ hother)) hnodup.2 hmem

theorem tileImages_files (hending : ∀ files ∈ tiles, files.suffix ∈ imageSuffixes)
    (hnamed : ∀ files ∈ tiles, files.tile ≠ "") (hnodup : (tiles.map TileFiles.tile).Nodup)
    (hfiles : files ∈ tiles) :
    tileImages (tiles.map TileFiles.imageFile) files.tile = [files.imageFile] := by
  have hlookup {last : String} (hlast : last ∈ imageSuffixes) :
      (tiles.map TileFiles.imageFile).lookup (files.tile ++ last) =
        if files.suffix = last then some files.image else none :=
    lookup_files TileFiles.suffix TileFiles.image
      (fun other hother => isSuffix_of_mem (hending other hother)) hnamed hnodup hfiles
      (isSuffix_of_mem hlast)
  have hmap : tileImages (tiles.map TileFiles.imageFile) files.tile =
      imageSuffixes.filterMap fun last => if files.suffix = last then some files.imageFile
        else none := by
    refine List.filterMap_congr ?_
    intro last hlast
    rw [hlookup hlast]
    split_ifs with hsame
    · rw [← hsame]
      rfl
    · rfl
  rw [hmap]
  have hsuffix := hending files hfiles
  simp only [imageSuffixes, List.mem_cons, List.not_mem_nil, or_false] at hsuffix
  rcases hsuffix with hsuffix | hsuffix | hsuffix | hsuffix | hsuffix | hsuffix | hsuffix
  all_goals
    rw [hsuffix]
    simp [imageSuffixes]

end Lookups

/-! ### A split -/

section Splits

variable {sha256 : List UInt8 → String} {tiles : List TileFiles} {files : TileFiles}

/-- The label of a tile has the boxes that are listed. -/
def TileFiles.Counted (files : TileFiles) : Prop := labelBoxes files.label = .ok files.boxes

/-- Tiles a reader accepts together: plain names, no two the same, and true counts. -/
structure Acceptable (tiles : List TileFiles) : Prop where
  nonempty : tiles ≠ []
  plain : ∀ files ∈ tiles, TileFiles.IsPlain files.tile
  nodup : (tiles.map TileFiles.tile).Nodup
  counted : ∀ files ∈ tiles, files.Counted

theorem label_files (hnamed : ∀ files ∈ tiles, files.tile ≠ "")
    (hnodup : (tiles.map TileFiles.tile).Nodup) (hfiles : files ∈ tiles) :
    (tiles.map TileFiles.labelFile).lookup (files.tile ++ ".txt") = some files.label := by
  have hlookup := lookup_files (fun _ => ".txt") TileFiles.label
    (fun _ _ => isSuffix_txt) hnamed hnodup hfiles isSuffix_txt
  rwa [if_pos rfl] at hlookup

theorem recordOf_files (hending : ∀ files ∈ tiles, files.suffix ∈ imageSuffixes)
    (hnodup : (tiles.map TileFiles.tile).Nodup)
    (hplain : ∀ files ∈ tiles, TileFiles.IsPlain files.tile) (hfiles : files ∈ tiles)
    (hcounted : files.Counted) :
    RecordOf sha256 (tiles.map TileFiles.imageFile) (tiles.map TileFiles.labelFile)
      (files.entry sha256) (files.record sha256) where
  named := hplain files hfiles
  image := tileImages_files hending (fun other hother => (hplain other hother).1) hnodup hfiles
  label := label_files (fun other hother => (hplain other hother).1) hnodup hfiles
  imageHash := rfl
  labelHash := rfl
  counted := hcounted
  boxes := rfl
  tile := rfl
  imageSha256 := rfl
  labelSha256 := rfl
  provenance := rfl

theorem imageStems (hending : ∀ files ∈ tiles, files.suffix ∈ imageSuffixes)
    (hnamed : ∀ files ∈ tiles, files.tile ≠ "") :
    (tiles.map TileFiles.imageFile).map (fun file => PathName.stem file.1) =
      tiles.map TileFiles.tile := by
  rw [List.map_map]
  refine List.map_congr_left ?_
  intro files hfiles
  exact PathName.stem_append (hnamed files hfiles) (isSuffix_of_mem (hending files hfiles))

theorem labelStems_files (hnamed : ∀ files ∈ tiles, files.tile ≠ "") :
    labelStems (tiles.map TileFiles.labelFile) = tiles.map TileFiles.tile := by
  have hall : ∀ file ∈ tiles.map TileFiles.labelFile,
      decide (PathName.suffix file.1 = ".txt") = true := by
    intro file hfile
    obtain ⟨files, hfiles, rfl⟩ := List.mem_map.mp hfile
    exact decide_eq_true (PathName.suffix_append (hnamed files hfiles) isSuffix_txt)
  rw [labelStems, List.filter_eq_self.mpr hall, List.map_map]
  refine List.map_congr_left ?_
  intro files hfiles
  exact PathName.stem_append (hnamed files hfiles) isSuffix_txt

/-- The files of a split are read where they are acceptable. -/
theorem splitOf_files {prepared : Directory} {split : Split} {entries : List Entry}
    {order : List TileFiles} (h : Acceptable tiles)
    (hending : ∀ files ∈ tiles, files.suffix ∈ imageSuffixes)
    (himages : prepared.images split = some (tiles.map TileFiles.imageFile))
    (hlabels : prepared.labels split = some (tiles.map TileFiles.labelFile))
    (horder : order.Perm tiles) (hentries : entries = order.map (TileFiles.entry sha256)) :
    SplitOf sha256 prepared split entries (order.map (TileFiles.record sha256))
      (tiles.map TileFiles.imageFile) (tiles.map TileFiles.labelFile) := by
  have hnamed : ∀ files ∈ tiles, files.tile ≠ "" := fun files hfiles => (h.plain files hfiles).1
  have htiles : entries.map Entry.tile = order.map TileFiles.tile := by
    rw [hentries, List.map_map]
    rfl
  have hsame : ∀ name, name ∈ tiles.map TileFiles.tile ↔ name ∈ entries.map Entry.tile := by
    intro name
    rw [htiles]
    exact (horder.map TileFiles.tile).mem_iff.symm
  refine ⟨himages, hlabels, ?_, ?_, ?_, ?_, ?_⟩
  · rw [hentries]
    intro hnil
    have horderNil : order = [] := List.map_eq_nil_iff.mp hnil
    rw [horderNil] at horder
    exact h.nonempty horder.nil_eq.symm
  · rw [hentries, List.forall₂_map_left_iff, List.forall₂_map_right_iff, List.forall₂_same]
    intro files hfiles
    have hmem := horder.mem_iff.mp hfiles
    exact recordOf_files hending h.nodup h.plain hmem (h.counted files hmem)
  · rw [htiles]
    exact (horder.map TileFiles.tile).nodup_iff.mpr h.nodup
  · rw [imageStems hending hnamed]
    exact sameNames_of_mem_iff hsame
  · rw [labelStems_files hnamed]
    exact sameNames_of_mem_iff hsame

/-- Files that are read are acceptable. -/
theorem acceptable_of_splitOf {prepared : Directory} {split : Split} {entries : List Entry}
    {order : List TileFiles} {records : List Record} {images : List (String × List UInt8)}
    {labels : List (String × String)}
    (h : SplitOf sha256 prepared split entries records images labels)
    (horder : order.Perm tiles) (hentries : entries = order.map (TileFiles.entry sha256))
    (hlabels : (∀ files ∈ tiles, TileFiles.IsPlain files.tile) →
      (tiles.map TileFiles.tile).Nodup → labels = tiles.map TileFiles.labelFile) :
    Acceptable tiles := by
  have hread : ∀ files ∈ tiles, ∃ record, RecordOf sha256 images labels (files.entry sha256)
      record := by
    intro files hfiles
    have hentry : files.entry sha256 ∈ entries := by
      rw [hentries]
      exact List.mem_map_of_mem (horder.mem_iff.mpr hfiles)
    obtain ⟨record, -, hrecord⟩ := exists_right_of_forall₂ h.records hentry
    exact ⟨record, hrecord⟩
  have hplain : ∀ files ∈ tiles, TileFiles.IsPlain files.tile := by
    intro files hfiles
    obtain ⟨record, hrecord⟩ := hread files hfiles
    exact hrecord.named
  have hnodup : (tiles.map TileFiles.tile).Nodup := by
    have htiles := h.nodup
    rw [hentries, List.map_map] at htiles
    exact (horder.map TileFiles.tile).nodup_iff.mp htiles
  have hlabels := hlabels hplain hnodup
  refine ⟨?_, hplain, hnodup, ?_⟩
  · rintro rfl
    rw [List.perm_nil.mp horder] at hentries
    exact h.nonempty hentries
  · intro files hfiles
    obtain ⟨record, hrecord⟩ := hread files hfiles
    have hfound := label_files (fun other hother => (hplain other hother).1) hnodup hfiles
    rw [← hlabels] at hfound
    have hlabel : record.label = files.label :=
      Option.some.inj (hrecord.label.symm.trans hfound)
    have hboxes : record.boxes = files.boxes := Int.ofNat.inj hrecord.boxes
    rw [TileFiles.Counted, ← hlabel, ← hboxes]
    exact hrecord.counted

end Splits

/-! ### A component -/

section Components

variable {sha256 : List UInt8 → String} {component : ComponentName} {written : WrittenComponent}
  {tiles : Split → List TileFiles}

/-- A component is read back with the tiles, hashes and boxes that its lock lists. -/
def ReadsBack (sha256 : List UInt8 → String) (component : ComponentName)
    (written : WrittenComponent) : Prop :=
  ∃ source, loadComponent sha256 component written.directory = .ok source ∧
    ∀ split ∈ component.expectedSplits, (source.split split).map Record.listing =
      (written.lock.split split).map Entry.listing

/-- A component is written: its lock lists tiles in order, and their files are named after
them at least where the tiles are plain names and no two are the same. -/
structure WrittenOf (sha256 : List UInt8 → String) (component : ComponentName)
    (written : WrittenComponent) (tiles : Split → List TileFiles) : Prop where
  lock : ∃ bytes, written.directory.lock component = some ⟨written.lock, bytes⟩
  schema : written.lock.schema = component.expectedSchema
  yaml : component.fullDataset = true → written.directory.hasDatasetYaml = true
  splits : written.lock.entries.map Prod.fst = component.expectedSplits.map Split.name
  entries : ∀ split ∈ component.expectedSplits,
    written.lock.split split = sortEntries ((tiles split).map (TileFiles.entry sha256))
  suffixes : ∀ split, ∀ files ∈ tiles split, files.suffix ∈ imageSuffixes
  files : ∀ split ∈ component.expectedSplits,
    (∀ files ∈ tiles split, TileFiles.IsPlain files.tile) →
      ((tiles split).map TileFiles.tile).Nodup → tiles split ≠ [] →
        written.directory.images split = some ((tiles split).map TileFiles.imageFile) ∧
          written.directory.labels split = some ((tiles split).map TileFiles.labelFile)

theorem WrittenOf.order (h : WrittenOf sha256 component written tiles) {split : Split}
    (hsplit : split ∈ component.expectedSplits) :
    ∃ order : List TileFiles, order.Perm (tiles split) ∧
      written.lock.split split = order.map (TileFiles.entry sha256) := by
  let order := (tiles split).insertionSort fun first second => first.tile ≤ second.tile
  refine ⟨order, List.perm_insertionSort _ _, ?_⟩
  have hmap : order.map (TileFiles.entry sha256) =
      sortEntries ((tiles split).map (TileFiles.entry sha256)) :=
    List.map_insertionSort _ _ _ _ fun first _ second _ => Iff.rfl
  rw [h.entries split hsplit, hmap]

theorem lockTiles_perm {lock : ComponentLock} {splits : List Split}
    (h : ∀ split ∈ splits,
      lock.split split = sortEntries ((tiles split).map (TileFiles.entry sha256))) :
    (lock.tiles splits).Perm (splits.flatMap fun split => (tiles split).map TileFiles.tile) := by
  refine List.Perm.flatMap_left _ ?_
  intro split hsplit
  rw [h split hsplit]
  have hsorted : (sortEntries ((tiles split).map (TileFiles.entry sha256))).Perm
      ((tiles split).map (TileFiles.entry sha256)) := List.perm_insertionSort _ _
  have htiles := hsorted.map Entry.tile
  rwa [List.map_map] at htiles

theorem sortListings_sortEntries (entries : List Entry) :
    sortListings ((sortEntries entries).map Entry.listing) =
      (sortEntries entries).map Entry.listing := by
  have htotal : Std.Total fun first second : Entry => first.tile ≤ second.tile :=
    ⟨fun first second => String.le_total first.tile second.tile⟩
  have htrans : IsTrans Entry fun first second => first.tile ≤ second.tile :=
    ⟨fun _ _ _ => String.le_trans⟩
  have hsorted := List.pairwise_insertionSort
    (fun first second : Entry => first.tile ≤ second.tile) entries
  refine List.Pairwise.insertionSort_eq ?_
  exact List.pairwise_map.mpr hsorted

/-- What is read of a split is what the lock lists, in the same order. -/
theorem WrittenOf.listing (h : WrittenOf sha256 component written tiles) {split : Split}
    {loaded : Split × List Record} (hsplit : split ∈ component.expectedSplits)
    (hloaded : Loaded sha256 written.directory written.lock split loaded) :
    loaded.2.map Record.listing = (written.lock.split split).map Entry.listing := by
  rw [hloaded.listings, h.entries split hsplit, sortListings_sortEntries]

theorem WrittenOf.loaded (h : WrittenOf sha256 component written tiles) {split : Split}
    (hsplit : split ∈ component.expectedSplits) (htiles : Acceptable (tiles split)) :
    ∃ records, Loaded sha256 written.directory written.lock split (split, records) := by
  obtain ⟨order, horder, hentries⟩ := h.order hsplit
  obtain ⟨himages, hlabels⟩ := h.files split hsplit htiles.plain htiles.nodup htiles.nonempty
  exact ⟨_, rfl, _, _, _, splitOf_files htiles (h.suffixes split) himages hlabels horder hentries,
    rfl⟩

theorem WrittenOf.acceptable (h : WrittenOf sha256 component written tiles) {split : Split}
    {loaded : Split × List Record} (hsplit : split ∈ component.expectedSplits)
    (hloaded : Loaded sha256 written.directory written.lock split loaded) :
    Acceptable (tiles split) := by
  obtain ⟨-, images, labels, records, hsplitOf, -⟩ := hloaded
  obtain ⟨order, horder, hentries⟩ := h.order hsplit
  refine acceptable_of_splitOf hsplitOf horder hentries ?_
  intro hplain hnodup
  have hnonempty : tiles split ≠ [] := by
    intro hnil
    rw [hnil, List.perm_nil] at horder
    rw [horder] at hentries
    exact hsplitOf.nonempty hentries
  have hfiles := (h.files split hsplit hplain hnodup hnonempty).2
  rw [hsplitOf.hasLabels] at hfiles
  exact Option.some.inj hfiles

/-- A component that is written is read back just where its tiles are acceptable in every
split and no two of them are the same. -/
theorem readsBack_iff (h : WrittenOf sha256 component written tiles) :
    ReadsBack sha256 component written ↔
      (∀ split ∈ component.expectedSplits, Acceptable (tiles split)) ∧
        (component.expectedSplits.flatMap fun split =>
          (tiles split).map TileFiles.tile).Nodup := by
  obtain ⟨bytes, hlock⟩ := h.lock
  have hperm := lockTiles_perm h.entries
  constructor
  · rintro ⟨source, hread, -⟩
    obtain ⟨file, hfile⟩ := loadComponent_eq_ok.mp hread
    have hsame := hfile.hasLock
    rw [hlock] at hsame
    cases hsame
    refine ⟨fun split hsplit => h.acceptable hsplit (hfile.ofSplit hsplit), ?_⟩
    exact hperm.nodup_iff.mp hfile.nodup
  · rintro ⟨htiles, hnodup⟩
    have hloaded : ∀ split ∈ component.expectedSplits, ∃ records,
        Loaded sha256 written.directory written.lock split (split, records) :=
      fun split hsplit => h.loaded hsplit (htiles split hsplit)
    choose! records hrecords using hloaded
    have hsource : ComponentOf sha256 component written.directory ⟨written.lock, bytes⟩
        { path := written.directory.path
          lockName := component.lockName
          schema := component.expectedSchema
          lockSha256 := sha256 bytes
          datasetSha256 := written.lock.datasetSha256
          entries := component.expectedSplits.map fun split => (split, records split) } :=
      { hasLock := hlock
        expectedSchema := h.schema
        yaml := h.yaml
        splits := by rw [h.splits]; exact sameNames_refl _
        loaded := by
          rw [List.forall₂_map_right_iff, List.forall₂_same]
          exact hrecords
        nodup := hperm.nodup_iff.mpr hnodup
        path := rfl
        lockName := rfl
        schema := rfl
        lockSha256 := rfl
        datasetSha256 := rfl }
    refine ⟨_, loadComponent_eq_ok.mpr ⟨_, hsource⟩, ?_⟩
    intro split hsplit
    exact h.listing hsplit (hsource.ofSplit hsplit)

end Components

end Mission10.Dataset
