import Mission10.Dataset.Documents
import Mission10.Library.Outcome
import Mission10.Library.PlainText

/-!
# Prepared components

A component of the training corpus is a directory of images and labels with a
lock that lists them. The reader takes no entry on trust: it finds the one image
and the label of every tile, hashes both, counts the boxes of the label and
refuses files that the lock does not list.
-/
namespace Mission10.Dataset

open PlainText Outcome

inductive Split
  | train
  | val
  | test
deriving DecidableEq, Repr

def Split.name : Split → String
  | train => "train"
  | val => "val"
  | test => "test"

def splitNames : List Split := [.train, .val, .test]

inductive ComponentName
  | production
  | appearance
  | hardneg
  | realPositive
deriving DecidableEq, Repr

namespace ComponentName

def name : ComponentName → String
  | production => "production"
  | appearance => "appearance"
  | hardneg => "hardneg"
  | realPositive => "real_positive"

/-- Whether the component brings a validation and a test split of its own. -/
def fullDataset : ComponentName → Bool
  | production => true
  | appearance => true
  | hardneg => false
  | realPositive => false

def lockName (component : ComponentName) : String :=
  if component.fullDataset then "split.lock.json" else "component.lock.json"

def expectedSchema (component : ComponentName) : String :=
  if component.fullDataset then "mission10-yolo-dataset/1"
  else "mission10-yolo-training-component/1"

def expectedSplits (component : ComponentName) : List Split :=
  if component.fullDataset then splitNames else [.train]

end ComponentName

/-- A component's directory. A label file is the text it is decoded to. -/
structure Directory where
  path : String
  splitLock : Option (JsonFile ComponentLock)
  componentLock : Option (JsonFile ComponentLock)
  hasDatasetYaml : Bool
  images : Split → Option (List (String × List UInt8))
  labels : Split → Option (List (String × String))

def Directory.lock (prepared : Directory) (component : ComponentName) :
    Option (JsonFile ComponentLock) :=
  if component.fullDataset then prepared.splitLock else prepared.componentLock

/-- The entries of a split in a lock. -/
def ComponentLock.split (lock : ComponentLock) (split : Split) : List Entry :=
  (lock.entries.lookup split.name).getD []

/-- The tiles of a lock's splits. -/
def ComponentLock.tiles (lock : ComponentLock) (splits : List Split) : List String :=
  splits.flatMap fun split => (lock.split split).map Entry.tile

def utf8 (text : String) : List UInt8 := text.toUTF8.data.toList

/-- `path.read_text()`. -/
def readText (text : String) : List Char := universalNewlines text.toList

section Labels

/-- A coordinate of a centre. Neither an infinity nor a NaN is one. -/
def isCenter : Option ℚ → Bool
  | some x => decide (0 ≤ x ∧ x ≤ 1)
  | none => false

def isBoxSize : Option ℚ → Bool
  | some x => decide (0 < x ∧ x ≤ 1)
  | none => false

/-- The boxes of a line of a label: none of a blank one, one of any other. -/
def lineBoxes (line : List Char) : Except String ℕ :=
  if isBlank line then pure 0
  else
    match fields line with
    | [cls, cx, cy, width, height] =>
      match readInt cls, readFloat cx, readFloat cy, readFloat width, readFloat height with
      | some cls, some cx, some cy, some width, some height =>
        if cls ≠ 0 then throw s!"expected class 0, got {cls}"
        else if ¬ (isCenter cx ∧ isCenter cy) then throw "center outside [0, 1]"
        else if ¬ (isBoxSize width ∧ isBoxSize height) then throw "invalid box size"
        else pure 1
      | _, _, _, _, _ => throw "non-numeric label"
    | _ => throw "expected 5 fields"

/-- The boxes of the lines from a line number on; a failure names its line. -/
def linesBoxes : ℕ → List (List Char) → Except String ℕ
  | _, [] => pure 0
  | lineNumber, line :: lines => do
    let boxes ← (lineBoxes line).mapError fun message => s!"{lineNumber}: {message}"
    let rest ← linesBoxes (lineNumber + 1) lines
    pure (boxes + rest)

def labelBoxes (text : String) : Except String ℕ := linesBoxes 1 (splitLines (readText text))

def validateLabel (path text : String) : Except String ℕ :=
  (labelBoxes text).mapError fun message => s!"{path}:{message}"

end Labels

def imageSuffixes : List String :=
  [".bmp", ".jpeg", ".jpg", ".png", ".tif", ".tiff", ".webp"]

/-- The images of a tile: one for each suffix under which there is one. -/
def tileImages (files : List (String × List UInt8)) (tile : String) :
    List (String × List UInt8) :=
  imageSuffixes.filterMap fun suffix =>
    (files.lookup (tile ++ suffix)).map fun content => (tile ++ suffix, content)

def sourceImage (files : List (String × List UInt8)) (tile : String) :
    Except String (String × List UInt8) :=
  match tileImages files tile with
  | [image] => pure image
  | images => throw s!"expected one source image for {tile}, found {images.length}"

/-- A tile as it was read: its image file, its label and what the reader made of them. -/
structure Record where
  tile : String
  image : String × List UInt8
  label : String
  imageSha256 : String
  labelSha256 : String
  boxes : ℕ
  provenance : Json

structure Component where
  path : String
  lockName : String
  schema : String
  lockSha256 : String
  datasetSha256 : String
  entries : List (Split × List Record)

/-- The records of a split. -/
def Component.split (source : Component) (split : Split) : List Record :=
  (source.entries.lookup split).getD []

/-- The stems of the labels among the files of a directory. -/
def labelStems (files : List (String × String)) : List String :=
  (files.filter fun file => PathName.suffix file.1 = ".txt").map fun file => PathName.stem file.1

def sortRecords (records : List Record) : List Record :=
  records.insertionSort fun first second => first.tile ≤ second.tile

section Reader

variable (sha256 : List UInt8 → String)

/-- The record of an entry, if no earlier one has its tile. -/
def loadRecord (component : ComponentName) (split : Split) (labelDir : String)
    (images : List (String × List UInt8)) (labels : List (String × String))
    (allTiles : List String) (entry : Entry) : Except String Record := do
  let name := component.name
  let tile := entry.tile
  refuseIf (tile = "" ∨ PathName.name tile ≠ tile) s!"{name}: invalid tile identity in {split.name}"
  refuseIf (tile ∈ allTiles) s!"{name}: duplicate tile identity: {tile}"
  let image ← sourceImage images tile
  let label ← getOr (labels.lookup (tile ++ ".txt")) s!"{name}: missing label for {tile}"
  let imageHash := sha256 image.2
  let labelHash := sha256 (utf8 label)
  refuseIf (imageHash ≠ entry.imageSha256) s!"{name}: image hash mismatch for {tile}"
  refuseIf (labelHash ≠ entry.labelSha256) s!"{name}: label hash mismatch for {tile}"
  let boxes ← validateLabel s!"{labelDir}/{tile}.txt" label
  refuseIf ((boxes : ℤ) ≠ entry.boxes) s!"{name}: box count mismatch for {tile}"
  pure ⟨tile, image, label, imageHash, labelHash, boxes, entry.provenance⟩

def loadRecords (component : ComponentName) (split : Split) (labelDir : String)
    (images : List (String × List UInt8)) (labels : List (String × String)) :
    List String → List Entry → Except String (List Record)
  | _, [] => pure []
  | allTiles, entry :: entries => do
    let record ← loadRecord sha256 component split labelDir images labels allTiles entry
    let records ← loadRecords component split labelDir images labels (entry.tile :: allTiles)
      entries
    pure (record :: records)

def loadSplit (component : ComponentName) (prepared : Directory) (lock : ComponentLock)
    (allTiles : List String) (split : Split) : Except String (List Record) := do
  let name := component.name
  let images ← getOr (prepared.images split)
    s!"{name}: missing {split.name} image or label directory"
  let labels ← getOr (prepared.labels split)
    s!"{name}: missing {split.name} image or label directory"
  let entries := lock.split split
  refuseIf (entries = []) s!"{name}: {split.name} entries must be a non-empty list"
  let labelDir := s!"{prepared.path}/labels/{split.name}"
  let records ← loadRecords sha256 component split labelDir images labels allTiles entries
  let splitTiles := records.map Record.tile
  refuseIf (records.length ≠ splitTiles.dedup.length) s!"{name}: duplicate {split.name} entries"
  let actualImages := images.map fun file => PathName.stem file.1
  refuseIf (¬ sameNames actualImages splitTiles ∨ ¬ sameNames (labelStems labels) splitTiles)
    s!"{name}: unindexed or missing files in {split.name}"
  pure (sortRecords records)

def loadSplits (component : ComponentName) (prepared : Directory) (lock : ComponentLock) :
    List String → List Split → Except String (List (Split × List Record))
  | _, [] => pure []
  | allTiles, split :: splits => do
    let records ← loadSplit sha256 component prepared lock allTiles split
    let normalized ← loadSplits component prepared lock
      (records.map Record.tile ++ allTiles) splits
    pure ((split, records) :: normalized)

/-- `_load_component`. -/
def loadComponent (component : ComponentName) (prepared : Directory) :
    Except String Component := do
  let name := component.name
  let lockFile ← getOr (prepared.lock component)
    s!"{name}: missing {component.lockName} in {prepared.path}"
  let lock := lockFile.document
  refuseIf (lock.schema ≠ component.expectedSchema)
    s!"{name}: expected source schema {component.expectedSchema}"
  refuseIf (component.fullDataset ∧ ¬ prepared.hasDatasetYaml)
    s!"{name}: missing dataset.yaml in {prepared.path}"
  refuseIf (¬ sameNames (lock.entries.map Prod.fst) (component.expectedSplits.map Split.name))
    s!"{name}: lock entries must contain exactly the splits of the component"
  let normalized ← loadSplits sha256 component prepared lock [] component.expectedSplits
  pure
    { path := prepared.path
      lockName := component.lockName
      schema := lock.schema
      lockSha256 := sha256 lockFile.bytes
      datasetSha256 := lock.datasetSha256
      entries := normalized }

end Reader

end Mission10.Dataset
