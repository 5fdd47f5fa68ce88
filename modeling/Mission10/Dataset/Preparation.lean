import Mission10.Dataset.RealPositives

/-!
# Preparation of a data set

The tiles of every scene lie together where they are rendered. A split file says
which scenes train, validate and test; each tile is checked, linked into the
directories of its scene's split and listed in the lock of the data set.
-/
namespace Mission10.Dataset

open PlainText Outcome

/-- The JSON document of a split file. -/
structure SplitDocument where
  schema : String
  seed : String
  scenes : List (String × List ℤ)

structure TileRecord where
  tile : String
  src : String

structure Manifest where
  seed : String
  scene : ℤ

/-- The rendered tiles: their index, the scenes' manifests and the files by tile. -/
structure Raw where
  path : String
  index : JsonFile (List (String × List TileRecord))
  manifest : String → Option Manifest
  image : String → Option (List UInt8)
  label : String → Option String

/-- A tile that is linked into the directories of a split. -/
structure Linked where
  split : Split
  scene : String
  tile : String
  boxes : ℕ
  image : List UInt8
  label : String

/-- What the digest of a data set is taken of. -/
structure PreparedContent where
  seed : String
  scenes : List (Split × List ℤ)
  entries : List (Split × List (String × Entry))

/-! ### The split file -/

section SplitFile

/-- The split that has a scene among those of earlier splits. -/
def ownerOf (owners : List (Split × List ℤ)) (scene : ℤ) : Option Split :=
  (owners.find? fun owner => owner.2.contains scene).map Prod.fst

def checkOwners (owners : List (Split × List ℤ)) (split : Split) : List ℤ → Except String Unit
  | [] => pure ()
  | scene :: scenes =>
    match ownerOf owners scene with
    | some owner => throw s!"scene {scene} appears in both {owner.name} and {split.name}"
    | none => checkOwners owners split scenes

/-- The scenes of the splits, after those of earlier ones. -/
def checkSplits (scenes : List (String × List ℤ)) :
    List (Split × List ℤ) → List Split → Except String (List (Split × List ℤ))
  | normalized, [] => pure normalized
  | normalized, split :: splits => do
    let values := (scenes.lookup split.name).getD []
    refuseIf (values = []) s!"{split.name} scenes must be a non-empty list"
    refuseIf (values.any fun value => decide (value < 0))
      s!"{split.name} contains an invalid scene index"
    refuseIf (values ≠ values.dedup.insertionSort (· ≤ ·))
      s!"{split.name} scenes must be sorted and unique"
    checkOwners normalized split values
    checkSplits scenes (normalized ++ [(split, values)]) splits

/-- `_load_split`. -/
def loadSplitFile (document : SplitDocument) :
    Except String (String × List (Split × List ℤ)) := do
  refuseIf (document.schema ≠ "mission10-yolo-split/1")
    s!"expected mission10-yolo-split/1, got '{document.schema}'"
  refuseIf (document.seed = "") "split seed must be a non-empty string"
  refuseIf (¬ sameNames (document.scenes.map Prod.fst) (splitNames.map Split.name))
    "split scenes must contain exactly ('train', 'val', 'test')"
  let normalized ← checkSplits document.scenes [] splitNames
  pure (document.seed, normalized)

end SplitFile

/-! ### Scenes -/

section Scenes

/-- The digits of a number, at least four of them. -/
def paddedDigits (n : ℕ) : List ℕ :=
  List.replicate (4 - (wholeDigits n).length) 0 ++ wholeDigits n

/-- The key of a scene, its number padded to four digits. -/
def sceneKey (seed : String) (scene : ℤ) : String :=
  s!"{seed}_s{String.ofList ((paddedDigits scene.toNat).map Nat.digitChar)}"

/-- The number behind the last `s` of a key. -/
def sceneNumber (key : String) : Option ℤ :=
  readInt (key.toList.reverse.takeWhile (· ≠ 's')).reverse

/-- The keys of the scenes with their splits. -/
def sceneSplits (seed : String) (splits : List (Split × List ℤ)) : List (String × Split) :=
  splits.flatMap fun split => split.2.map fun scene => (sceneKey seed scene, split.1)

/-- The split of a scene. A key that is given twice has its last split. -/
def splitForScene (seed : String) (splits : List (Split × List ℤ)) (key : String) :
    Option Split :=
  (sceneSplits seed splits).reverse.lookup key

def sortNames (names : List String) : List String := names.insertionSort (· ≤ ·)

/-- Names as a list of them is printed. -/
def listNames (names : List String) : String :=
  "[" ++ ", ".intercalate (names.map fun name => "'" ++ name ++ "'") ++ "]"

end Scenes

/-! ### Tiles -/

section Tiles

variable (digests : Digests)

def Linked.imageName (linked : Linked) : String := PathName.name (linked.tile ++ ".png")

def Linked.labelName (linked : Linked) : String := PathName.name (linked.tile ++ ".txt")

def Linked.entry (linked : Linked) : Entry where
  tile := linked.tile
  boxes := linked.boxes
  imageSha256 := digests.sha256 linked.image
  labelSha256 := digests.sha256 (utf8 linked.label)
  provenance := .null

/-- A tile is linked after others. A name that is taken in its split cannot be linked. -/
def linkTile (raw : Raw) (key : String) (split : Split) (linked : List Linked)
    (record : TileRecord) : Except String (List Linked) := do
  let tile := record.tile
  refuseIf (tile ∈ linked.map Linked.tile) s!"duplicate tile identity: {tile}"
  refuseIf (¬ s!"{key}_k".toList <+: record.src.toList)
    s!"tile {tile} points outside {key}: {record.src}"
  let image ← getOr (raw.image tile) s!"missing image/label pair for {tile}"
  let label ← getOr (raw.label tile) s!"missing image/label pair for {tile}"
  let boxes ← validateLabel s!"{raw.path}/train/labels/{tile}.txt" label
  let link : Linked := { split, scene := key, tile, boxes, image, label }
  refuseIf (linked.any fun other => decide (other.split = split ∧
      (other.imageName = link.imageName ∨ other.labelName = link.labelName)))
    s!"File exists: {link.imageName}"
  pure (linked ++ [link])

def linkTiles (raw : Raw) (key : String) (split : Split) :
    List Linked → List TileRecord → Except String (List Linked)
  | linked, [] => pure linked
  | linked, record :: records => do
    let linked ← linkTile raw key split linked record
    linkTiles raw key split linked records

/-- The scenes with the given keys are linked after others. -/
def linkScenes (raw : Raw) (seed : String) (splits : List (Split × List ℤ)) :
    List Linked → List String → Except String (List Linked)
  | linked, [] => pure linked
  | linked, key :: keys => do
    let manifest ← getOr (raw.manifest key)
      s!"missing scene manifest: {raw.path}/{key}.manifest.json"
    let number ← getOr (sceneNumber key) "invalid literal for int() with base 10"
    refuseIf (manifest.seed ≠ seed ∨ manifest.scene ≠ number)
      s!"manifest identity mismatch: {raw.path}/{key}.manifest.json"
    let split ← getOr (splitForScene seed splits key) key
    let records := (raw.index.document.lookup key).getD []
    let linked ← linkTiles raw key split linked records
    linkScenes raw seed splits linked keys

/-- The tiles of a split, in the order in which they are linked. -/
def linkedOf (linked : List Linked) (split : Split) : List Linked :=
  linked.filter fun link => decide (link.split = split)

/-- The directories of the splits of some scenes, which hold what was linked. -/
def splitDirectory {α : Type} (made : List Split) (linked : List Linked)
    (file : Linked → String × α) (split : Split) : Option (List (String × α)) :=
  if split ∈ made then some ((linkedOf linked split).map file) else none

/-- The counts of a split. -/
def splitCounts (entries : List Entry) : Json :=
  .obj [("tiles", .int entries.length), ("boxes", .int (entries.map Entry.boxes).sum),
    ("empty", .int (entries.countP fun entry => entry.boxes = 0))]

/-- `prepare`. -/
def prepare (canonicalSha256 : PreparedContent → String) (dumps : ComponentLock → List UInt8)
    (raw : Raw) (out : Out) (splitFile : JsonFile SplitDocument) :
    Except String WrittenComponent := do
  let (seed, splits) ← loadSplitFile splitFile.document
  let index := raw.index.document
  let keys := sortNames (index.map Prod.fst).dedup
  let expected := (splits.flatMap Prod.snd).map (sceneKey seed)
  let missing := sortNames (expected.filter fun key => !keys.contains key).dedup
  let extra := keys.filter fun key => !expected.contains key
  refuseIf (¬ sameNames keys expected)
    s!"tile-index scene mismatch: missing={listNames missing}, extra={listNames extra}"
  refuseIf (¬ out.empty) s!"output directory is not empty: {out.path}"
  let linked ← linkScenes raw seed splits [] keys
  let listed (split : Split) : List Linked :=
    (linkedOf linked split).insertionSort fun first second => first.tile ≤ second.tile
  let entries (split : Split) : List Entry := (listed split).map (Linked.entry digests)
  let content : PreparedContent :=
    { seed
      scenes := splits
      entries := splitNames.map fun split =>
        (split, (listed split).map fun link => (link.scene, link.entry digests)) }
  let lock : ComponentLock :=
    { schema := "mission10-yolo-dataset/1"
      datasetSha256 := canonicalSha256 content
      entries := splitNames.map fun split => (split.name, entries split)
      metadata :=
        [("source", .str raw.path),
          ("source_tiles_sha256", .str (digests.sha256 raw.index.bytes)),
          ("split_file_sha256", .str (digests.sha256 splitFile.bytes)), ("seed", .str seed),
          ("scenes", .obj (splits.map fun split =>
            (split.1.name, .arr (split.2.map Json.int)))),
          ("counts", .obj (splitNames.map fun split =>
            (split.name, splitCounts (entries split))))] }
  let made := keys.filterMap (splitForScene seed splits)
  pure
    { lock
      directory :=
        { path := out.path
          splitLock := some ⟨lock, dumps lock⟩
          componentLock := none
          hasDatasetYaml := true
          images := splitDirectory made linked fun link => (link.imageName, link.image)
          labels := splitDirectory made linked fun link => (link.labelName, link.label) } }

end Tiles

/-! ### What is prepared -/

section Keys

theorem digitsToNat_paddedDigits (n : ℕ) : digitsToNat (paddedDigits n) = n := by
  have hzeros (count : ℕ) (digits : List ℕ) :
      digitsToNat (List.replicate count 0 ++ digits) = digitsToNat digits := by
    induction count with
    | zero => rfl
    | succ count ih => rw [List.replicate_succ, List.cons_append, ← ih]; rfl
  rw [paddedDigits, hzeros, digitsToNat_wholeDigits]

theorem paddedDigits_lt {n : ℕ} : ∀ digit ∈ paddedDigits n, digit < 10 := by
  intro digit hdigit
  rcases List.mem_append.mp hdigit with hzero | hdigit
  · rw [List.eq_of_mem_replicate hzero]
    omega
  · exact wholeDigits_lt digit hdigit

theorem paddedDigits_ne_nil (n : ℕ) : paddedDigits n ≠ [] := by
  intro hnil
  exact wholeDigits_ne_nil n (List.append_eq_nil_iff.mp hnil).2

/-- Scenes of different numbers have different keys. -/
theorem sceneKey_inj {seed : String} {first second : ℤ} (hfirst : 0 ≤ first)
    (hsecond : 0 ≤ second) (h : sceneKey seed first = sceneKey seed second) : first = second := by
  have hform (scene : ℤ) : sceneKey seed scene =
      seed ++ "_s" ++ String.ofList ((paddedDigits scene.toNat).map Nat.digitChar) := rfl
  rw [hform, hform] at h
  have hletters := congrArg String.toList ((String.append_right_inj _).mp h)
  rw [String.toList_ofList, String.toList_ofList] at hletters
  have hdigits : some (paddedDigits first.toNat) = some (paddedDigits second.toNat) := by
    rw [← digitRun_digits paddedDigits_lt (paddedDigits_ne_nil _), hletters,
      digitRun_digits paddedDigits_lt (paddedDigits_ne_nil _)]
  have hnumbers : first.toNat = second.toNat := by
    rw [← digitsToNat_paddedDigits first.toNat, Option.some.inj hdigits,
      digitsToNat_paddedDigits]
  omega

end Keys

section SplitScenes

theorem checkOwners_ok {owners : List (Split × List ℤ)} {split : Split} {scenes : List ℤ}
    (h : checkOwners owners split scenes = .ok ()) :
    ∀ scene ∈ scenes, ∀ owner ∈ owners, scene ∉ owner.2 := by
  induction scenes with
  | nil => simp
  | cons scene scenes ih =>
    rw [checkOwners] at h
    split at h
    · exact absurd h error_ne_ok
    · next hnone =>
      intro other hother owner howner
      rcases List.mem_cons.mp hother with rfl | hother
      · rw [ownerOf, Option.map_eq_none_iff, List.find?_eq_none] at hnone
        intro hmem
        exact hnone owner howner (List.contains_iff_mem.mpr hmem)
      · exact ih h other hother owner howner

/-- The scenes of different splits. -/
def ScenesApart (first second : Split × List ℤ) : Prop := ∀ scene ∈ second.2, scene ∉ first.2

theorem checkSplits_ok {scenes : List (String × List ℤ)} {normalized splits : List (Split × List ℤ)}
    {names : List Split} (h : checkSplits scenes normalized names = .ok splits) :
    splits = normalized ++ names.map (fun split => (split, (scenes.lookup split.name).getD [])) ∧
      (normalized.Pairwise ScenesApart → splits.Pairwise ScenesApart) ∧
        ∀ split ∈ names, ∀ scene ∈ (scenes.lookup split.name).getD [], 0 ≤ scene := by
  induction names generalizing normalized with
  | nil =>
    rw [pure_ok h]
    exact ⟨by simp, id, by simp⟩
  | cons split names ih =>
    simp only [checkSplits, refuseIf_bind_eq_ok] at h
    obtain ⟨-, hnegative, -, h⟩ := h
    obtain ⟨⟨⟩, howners, h⟩ := bind_ok h
    obtain ⟨hsplits, hapart, hrest⟩ := ih h
    refine ⟨by rw [hsplits, List.append_assoc]; rfl, ?_, ?_⟩
    · intro hnormalized
      refine hapart (List.pairwise_append.mpr ⟨hnormalized, List.pairwise_singleton _ _, ?_⟩)
      intro owner howner last hlast scene hscene
      rw [List.mem_singleton.mp hlast] at hscene
      exact checkOwners_ok howners scene hscene owner howner
    · intro other hother
      rcases List.mem_cons.mp hother with rfl | hother
      · intro scene hscene
        by_contra hneg
        refine hnegative (List.any_eq_true.mpr ⟨scene, hscene, ?_⟩)
        simpa using hneg
      · exact hrest other hother

/-- The scenes of a split in its file. -/
def SplitDocument.splitScenes (document : SplitDocument) (split : Split) : List ℤ :=
  (document.scenes.lookup split.name).getD []

/-- What is read of a split file. -/
structure SplitsOf (document : SplitDocument) (seed : String) (splits : List (Split × List ℤ)) :
    Prop where
  seedEq : seed = document.seed
  listed : splits = splitNames.map fun split => (split, document.splitScenes split)
  apart : splits.Pairwise ScenesApart
  nonneg : ∀ split, ∀ scene ∈ document.splitScenes split, 0 ≤ scene

theorem loadSplitFile_ok {document : SplitDocument} {seed : String}
    {splits : List (Split × List ℤ)} (h : loadSplitFile document = .ok (seed, splits)) :
    SplitsOf document seed splits := by
  simp only [loadSplitFile, refuseIf_bind_eq_ok] at h
  obtain ⟨-, -, -, h⟩ := h
  obtain ⟨normalized, hnormalized, h⟩ := bind_ok h
  obtain ⟨rfl, rfl⟩ := Prod.mk.inj (pure_ok h)
  obtain ⟨hsplits, hapart, hnonneg⟩ := checkSplits_ok hnormalized
  refine ⟨rfl, hsplits, hapart List.Pairwise.nil, ?_⟩
  intro split
  refine hnonneg split ?_
  cases split <;> decide

/-- No scene is listed by two splits. -/
theorem SplitsOf.scenes_apart {document : SplitDocument} {seed : String}
    {splits : List (Split × List ℤ)} (h : SplitsOf document seed splits) {first second : Split}
    (hne : first ≠ second) {scene : ℤ} (hfirst : scene ∈ document.splitScenes first) :
    scene ∉ document.splitScenes second := by
  have hapart := h.apart
  rw [h.listed] at hapart
  simp only [splitNames, List.map_cons, List.map_nil, List.pairwise_cons, List.mem_cons,
    List.not_mem_nil, or_false, forall_eq_or_imp, forall_eq, ScenesApart] at hapart
  obtain ⟨⟨htrainVal, htrainTest⟩, hvalTest, -⟩ := hapart
  intro hsecond
  cases first <;> cases second
  case train.val => exact htrainVal scene hsecond hfirst
  case train.test => exact htrainTest scene hsecond hfirst
  case val.test => exact hvalTest scene hsecond hfirst
  case val.train => exact htrainVal scene hfirst hsecond
  case test.train => exact htrainTest scene hfirst hsecond
  case test.val => exact hvalTest scene hfirst hsecond
  all_goals exact hne rfl

/-- The split of a scene's key is the one that lists the scene. -/
theorem SplitsOf.splitForScene_iff {document : SplitDocument} {seed : String}
    {splits : List (Split × List ℤ)} (h : SplitsOf document seed splits) {key : String}
    {split : Split} :
    splitForScene seed splits key = some split ↔
      ∃ scene ∈ document.splitScenes split, sceneKey seed scene = key := by
  have hmem (other : Split) : (key, other) ∈ (sceneSplits seed splits).reverse ↔
      ∃ scene ∈ document.splitScenes other, sceneKey seed scene = key := by
    simp only [List.mem_reverse, sceneSplits, h.listed, List.mem_flatMap, List.mem_map]
    constructor
    · rintro ⟨owner, ⟨name, -, rfl⟩, scene, hscene, hkey⟩
      obtain ⟨hname, rfl⟩ := Prod.mk.inj hkey
      exact ⟨scene, hscene, hname⟩
    · rintro ⟨scene, hscene, hkey⟩
      exact ⟨_, ⟨other, by cases other <;> decide, rfl⟩, scene, hscene, by rw [hkey]⟩
  have hsound {other : Split} (hlookup : splitForScene seed splits key = some other) :
      ∃ scene ∈ document.splitScenes other, sceneKey seed scene = key := by
    obtain ⟨before, after, hsplits, -⟩ := List.lookup_eq_some_iff.mp hlookup
    refine (hmem other).mp ?_
    rw [hsplits]
    exact List.mem_append_right before List.mem_cons_self
  refine ⟨hsound, ?_⟩
  intro hscene
  cases hlookup : splitForScene seed splits key with
  | none =>
    have hnone := List.lookup_eq_none_iff.mp hlookup _ ((hmem split).mpr hscene)
    simp at hnone
  | some other =>
    obtain ⟨scene, hmemScene, hkey⟩ := hscene
    obtain ⟨twin, hmemTwin, htwinKey⟩ := hsound hlookup
    have hsame : twin = scene := sceneKey_inj (h.nonneg other twin hmemTwin)
      (h.nonneg split scene hmemScene) (htwinKey.trans hkey.symm)
    rw [hsame] at hmemTwin
    by_contra hne
    exact h.scenes_apart (fun heq => hne (congrArg some heq)) hmemTwin hmemScene

end SplitScenes

section Links

variable {raw : Raw} {seed : String} {splits : List (Split × List ℤ)}

/-- The tiles of a scene in the index. -/
def Raw.records (raw : Raw) (key : String) : List TileRecord :=
  (raw.index.document.lookup key).getD []

/-- What is linked of some tiles, each with the boxes of its label. -/
structure LinksOf (before links : List Linked) (split : Split) (records : List TileRecord) :
    Prop where
  tiles : links.map Linked.tile = records.map TileRecord.tile
  counted : ∀ link ∈ links, link.split = split ∧ labelBoxes link.label = .ok link.boxes
  nodup : (before.map Linked.tile).Nodup → ((before ++ links).map Linked.tile).Nodup

theorem linkTile_ok {key : String} {split : Split} {linked next : List Linked}
    {record : TileRecord} (h : linkTile raw key split linked record = .ok next) :
    ∃ link, next = linked ++ [link] ∧ LinksOf linked [link] split [record] := by
  simp only [linkTile, refuseIf_bind_eq_ok] at h
  obtain ⟨hnew, -, h⟩ := h
  obtain ⟨image, -, h⟩ := bind_ok h
  obtain ⟨label, -, h⟩ := bind_ok h
  obtain ⟨boxes, hboxes, h⟩ := bind_ok h
  obtain ⟨-, h⟩ := refuseIf_bind_eq_ok.mp h
  refine ⟨_, pure_ok h, rfl, ?_, ?_⟩
  · intro link hlink
    rw [List.mem_singleton.mp hlink]
    exact ⟨rfl, mapError_eq_ok.mp hboxes⟩
  · intro hnodup
    have hconcat := hnodup.concat hnew
    rw [List.concat_eq_append] at hconcat
    rw [List.map_append]
    exact hconcat

theorem linkTiles_ok {key : String} {split : Split} {linked next : List Linked}
    {records : List TileRecord} (h : linkTiles raw key split linked records = .ok next) :
    ∃ links, next = linked ++ links ∧ LinksOf linked links split records := by
  induction records generalizing linked with
  | nil =>
    refine ⟨[], by rw [pure_ok h, List.append_nil], rfl, by simp, ?_⟩
    intro hnodup
    rwa [List.append_nil]
  | cons record records ih =>
    obtain ⟨first, hfirst, h⟩ := bind_ok h
    obtain ⟨link, rfl, hlink⟩ := linkTile_ok hfirst
    obtain ⟨links, rfl, hlinks⟩ := ih h
    refine ⟨link :: links, by simp, ?_, ?_, ?_⟩
    · have htile : link.tile = record.tile := List.cons.inj hlink.tiles |>.1
      rw [List.map_cons, List.map_cons, htile, hlinks.tiles]
    · intro other hother
      rcases List.mem_cons.mp hother with rfl | hother
      · exact hlink.counted other List.mem_cons_self
      · exact hlinks.counted other hother
    · intro hnodup
      have hrest := hlinks.nodup (hlink.nodup hnodup)
      rwa [List.append_assoc] at hrest

/-- What is linked of some scenes: a tile for every record, in the split of its scene. -/
structure ScenesLinked (raw : Raw) (seed : String) (splits : List (Split × List ℤ))
    (before links : List Linked) (keys : List String) : Prop where
  counted : ∀ link ∈ links, labelBoxes link.label = .ok link.boxes
  sound : ∀ link ∈ links, ∃ key ∈ keys, splitForScene seed splits key = some link.split ∧
    ∃ record ∈ raw.records key, link.tile = record.tile
  complete : ∀ key ∈ keys, ∀ record ∈ raw.records key, ∃ link ∈ links,
    splitForScene seed splits key = some link.split ∧ link.tile = record.tile
  nodup : (before.map Linked.tile).Nodup → ((before ++ links).map Linked.tile).Nodup

theorem mem_of_tiles {links : List Linked} {records : List TileRecord} {tile : String}
    (h : links.map Linked.tile = records.map TileRecord.tile) :
    (∃ link ∈ links, link.tile = tile) ↔ ∃ record ∈ records, record.tile = tile := by
  rw [← List.mem_map, ← List.mem_map, h]

theorem linkScenes_ok {linked next : List Linked} {keys : List String}
    (h : linkScenes raw seed splits linked keys = .ok next) :
    ∃ links, next = linked ++ links ∧ ScenesLinked raw seed splits linked links keys := by
  induction keys generalizing linked with
  | nil =>
    refine ⟨[], by rw [pure_ok h, List.append_nil], by simp, by simp, by simp, ?_⟩
    intro hnodup
    rwa [List.append_nil]
  | cons key keys ih =>
    obtain ⟨manifest, -, h⟩ := bind_ok h
    obtain ⟨number, -, h⟩ := bind_ok h
    obtain ⟨-, h⟩ := refuseIf_bind_eq_ok.mp h
    obtain ⟨split, hsplit, h⟩ := bind_ok h
    obtain ⟨first, hfirst, h⟩ := bind_ok h
    obtain ⟨scene, rfl, hscene⟩ := linkTiles_ok hfirst
    obtain ⟨links, rfl, hlinks⟩ := ih h
    have hsplit := getOr_eq_ok.mp hsplit
    refine ⟨scene ++ links, by simp, ?_, ?_, ?_, ?_⟩
    · intro link hlink
      rcases List.mem_append.mp hlink with hlink | hlink
      · exact (hscene.counted link hlink).2
      · exact hlinks.counted link hlink
    · intro link hlink
      rcases List.mem_append.mp hlink with hlink | hlink
      · obtain ⟨record, hrecord, htile⟩ := (mem_of_tiles hscene.tiles).mp ⟨link, hlink, rfl⟩
        refine ⟨key, List.mem_cons_self, ?_, record, hrecord, htile.symm⟩
        rw [(hscene.counted link hlink).1]
        exact hsplit
      · obtain ⟨other, hother, hrest⟩ := hlinks.sound link hlink
        exact ⟨other, List.mem_cons_of_mem _ hother, hrest⟩
    · intro other hother record hrecord
      rcases List.mem_cons.mp hother with rfl | hother
      · obtain ⟨link, hlink, htile⟩ := (mem_of_tiles hscene.tiles).mpr ⟨record, hrecord, rfl⟩
        refine ⟨link, List.mem_append_left links hlink, ?_, htile⟩
        rw [(hscene.counted link hlink).1]
        exact hsplit
      · obtain ⟨link, hlink, hrest⟩ := hlinks.complete other hother record hrecord
        exact ⟨link, List.mem_append_right scene hlink, hrest⟩
    · intro hnodup
      have hrest := hlinks.nodup (hscene.nodup hnodup)
      rwa [List.append_assoc] at hrest

end Links

end Mission10.Dataset
