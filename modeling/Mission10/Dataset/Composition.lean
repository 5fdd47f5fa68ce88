import Mission10.Dataset.Components
import Mission10.Dataset.Folds

/-!
# Composition of the training corpus

A preset gives every component a fraction of the epoch. The smallest epoch that
holds every training set repeats the smaller ones in the order of their tiles;
validation and test are the production component's, once. The lock of the
composition carries the digest of its identity, which leaves out where the
components lie and the bytes of their locks.
-/
namespace Mission10.Dataset

open Outcome

inductive Preset
  | control
  | appearance
  | hardneg
  | combined
  | realPositive
  | realPositiveAppearance
deriving DecidableEq, Repr

namespace Preset

def all : List Preset :=
  [control, appearance, hardneg, combined, realPositive, realPositiveAppearance]

def name : Preset → String
  | control => "control"
  | appearance => "appearance"
  | hardneg => "hardneg"
  | combined => "combined"
  | realPositive => "real_positive"
  | realPositiveAppearance => "real_positive_appearance"

def ofName (name : String) : Option Preset := all.find? fun preset => preset.name = name

/-- The components of a preset and their fractions, as decimals and as numbers. -/
def requested : Preset → List (ComponentName × String × ℚ)
  | control => [(.production, "1", 1)]
  | appearance => [(.production, "0.85", 17 / 20), (.appearance, "0.15", 3 / 20)]
  | hardneg => [(.production, "0.85", 17 / 20), (.hardneg, "0.15", 3 / 20)]
  | combined =>
    [(.production, "0.70", 7 / 10), (.appearance, "0.15", 3 / 20), (.hardneg, "0.15", 3 / 20)]
  | realPositive =>
    [(.production, "0.75", 3 / 4), (.hardneg, "0.15", 3 / 20), (.realPositive, "0.10", 1 / 10)]
  | realPositiveAppearance =>
    [(.production, "0.65", 13 / 20), (.appearance, "0.10", 1 / 10), (.hardneg, "0.15", 3 / 20),
      (.realPositive, "0.10", 1 / 10)]

def components (preset : Preset) : List ComponentName := preset.requested.map Prod.fst

def fractions (preset : Preset) : List (ComponentName × ℚ) :=
  preset.requested.map fun component => (component.1, component.2.2)

/-- Whether a held-out fold is selected under the preset. -/
def foldSafe : Preset → Bool
  | realPositive => true
  | realPositiveAppearance => true
  | _ => false

end Preset

/-- `_provenance_source_hashes`. -/
def provenanceSourceHashes (provenance : Json) : List String :=
  provenance.stringsUnder "source_sha256"

structure Selection where
  foldLock : String
  foldLockSha256 : String
  heldOutFold : ℤ
  heldOutSourceSha256 : List String
deriving DecidableEq

/-- What the identity keeps of a component. -/
structure ComponentSummary where
  schema : String
  datasetSha256 : String
  sourceLock : String
  sourceCounts : List (Split × ℕ)
deriving DecidableEq

structure ComponentEntry extends ComponentSummary where
  source : String
  sourceLockSha256 : String
deriving DecidableEq

structure Content (κ : Type) where
  preset : String
  requestedEpochFractions : List (ComponentName × String)
  actualEpochFractions : List (ComponentName × ℚ)
  trainEpochSize : ℕ
  components : List (ComponentName × κ)
  counts : List (Split × List (ComponentName × ℕ))
  boxes : List (Split × List (ComponentName × ℕ))
  trainRepeatRange : List (ComponentName × ℕ × ℕ)
  ordering : String
  selection : Option Selection
deriving DecidableEq

abbrev Identity := Content ComponentSummary

/-- The content without the paths of the components and the digests of their locks. -/
def Content.identity (content : Content ComponentEntry) : Identity :=
  { content with
    components := content.components.map fun component =>
      (component.1, component.2.toComponentSummary) }

structure CompositionLock where
  schema : String
  datasetSha256 : String
  content : Content ComponentEntry
deriving DecidableEq

/-- The arguments of a composition: a fold lock comes with its resolved path. -/
structure Call where
  out : String
  outEmpty : Bool
  preset : String
  components : List (String × Directory)
  foldLock : Option (String × JsonFile FoldDocument)
  heldOutFold : Option ℤ

/-- What a composition writes. -/
structure Composed where
  lock : CompositionLock
  images : List (Split × List (String × List UInt8))
  labels : List (Split × List (String × String))
  datasetYaml : String

section Epoch

/-- `_epoch_counts`. -/
def epochCounts {ν : Type} [DecidableEq ν] (fractions : List (ν × ℚ)) (sizes : List (ν × ℕ)) :
    Except String (List (ν × ℕ)) := do
  let sizeOf (name : ν) : ℕ := (sizes.lookup name).getD 0
  let quantum := (fractions.map fun fraction => fraction.2.den).foldl Nat.lcm 1
  let minimum := (fractions.map fun fraction =>
    (sizeOf fraction.1 * fraction.2.den + fraction.2.num.toNat - 1) /
      fraction.2.num.toNat).foldl max 0
  let epochSize := (minimum + quantum - 1) / quantum * quantum
  let counts := fractions.map fun fraction =>
    (fraction.1, epochSize * fraction.2.num.toNat / fraction.2.den)
  refuseIf ((counts.map Prod.snd).sum ≠ epochSize ∨
      counts.any fun count => decide (count.2 < sizeOf count.1))
    "invalid exact epoch allocation"
  pure counts

/-- The records of a part of an epoch with the ordinals they are linked under. -/
def roundRobin (records : List Record) (count : ℕ) : List (ℕ × Record) :=
  (List.range count).filterMap fun ordinal =>
    (records[ordinal % records.length]?).map fun record => (ordinal, record)

def linkedBoxes (records : List Record) (count : ℕ) : ℕ :=
  ((roundRobin records count).map fun link => link.2.boxes).sum

/-- How often each record is linked. -/
def copies (size count : ℕ) : List ℕ :=
  (List.range size).map fun index =>
    (List.range count).countP fun ordinal => ordinal % size = index

/-- The stem of a link. -/
def linkStem (name : ComponentName) (link : ℕ × Record) : String :=
  let ordinal := String.ofList ((Nat.toDigits 10 link.1).leftpad 8 '0')
  s!"{name.name}__{ordinal}__{link.2.tile}"

def linkedImages (name : ComponentName) (records : List Record) (count : ℕ) :
    List (String × List UInt8) :=
  (roundRobin records count).map fun link =>
    (linkStem name link ++ (PathName.suffix link.2.image.1).toLower, link.2.image.2)

def linkedLabels (name : ComponentName) (records : List Record) (count : ℕ) :
    List (String × String) :=
  (roundRobin records count).map fun link => (linkStem name link ++ ".txt", link.2.label)

end Epoch

/-- What a composition reads before it writes anything. -/
structure Reading where
  preset : Preset
  sources : List (ComponentName × Component)
  selection : Option Selection
  trainCounts : List (ComponentName × ℕ)

namespace Reading

/-- The parts of a split: the components with their records and the count to link. -/
def parts (reading : Reading) (split : Split) : List (ComponentName × List Record × ℕ) :=
  if split = .train then
    reading.sources.map fun source =>
      (source.1, source.2.split split, (reading.trainCounts.lookup source.1).getD 0)
  else
    match reading.sources.lookup .production with
    | none => []
    | some source => [(.production, source.split split, (source.split split).length)]

end Reading

def componentEntry (source : Component) : ComponentEntry where
  schema := source.schema
  datasetSha256 := source.datasetSha256
  sourceLock := source.lockName
  sourceCounts := source.entries.map fun entries => (entries.1, entries.2.length)
  source := source.path
  sourceLockSha256 := source.lockSha256

def Reading.content (reading : Reading) : Content ComponentEntry :=
  let epochSize := (reading.trainCounts.map Prod.snd).sum
  { preset := reading.preset.name
    requestedEpochFractions :=
      reading.preset.requested.map fun component => (component.1, component.2.1)
    actualEpochFractions :=
      reading.trainCounts.map fun count => (count.1, (count.2 : ℚ) / epochSize)
    trainEpochSize := epochSize
    components := reading.sources.map fun source => (source.1, componentEntry source.2)
    counts := splitNames.map fun split =>
      (split, (reading.parts split).map fun part => (part.1, part.2.2))
    boxes := splitNames.map fun split =>
      (split, (reading.parts split).map fun part =>
        (part.1, linkedBoxes part.2.1 part.2.2))
    trainRepeatRange := (reading.parts .train).map fun part =>
      (part.1, ((copies part.2.1.length part.2.2).min?.getD 0,
        (copies part.2.1.length part.2.2).max?.getD 0))
    ordering := "component preset order; source tile order; round-robin repetition"
    selection := reading.selection }

section Compose

variable (digests : Digests) (canonicalSha256 : Identity → String)

/-- The components of the preset, each read from its directory. -/
def loadSources (preset : Preset) (components : List (String × Directory)) :
    Except String (List (ComponentName × Component)) :=
  preset.components.mapM fun name => do
    let prepared ← getOr (components.lookup name.name) name.name
    let source ← loadComponent digests.sha256 name prepared
    pure (name, source)

/-- Refuses a component with a record whose provenance names a held-out photo. -/
def refuseLeaked (sources : List (ComponentName × Component)) (heldOutHashes : List String)
    (name : ComponentName) : Except String Unit := do
  let source ← getOr (sources.lookup name) name.name
  let leaked := ((source.split .train).flatMap fun record =>
    (provenanceSourceHashes record.provenance).filter (· ∈ heldOutHashes)).dedup
  refuseIf (leaked ≠ []) s!"{name.name} contains {leaked.length} held-out source photo(s)"

def selectFold (sources : List (ComponentName × Component)) :
    Option (String × JsonFile FoldDocument) → Option ℤ → Except String (Option Selection)
  | some (path, file), some heldOutFold => do
    let document ← loadFoldDocument digests file
    let heldOutHashes ← sourceHashes digests document heldOutFold true
    refuseLeaked sources heldOutHashes .hardneg
    refuseLeaked sources heldOutHashes .realPositive
    pure (some ⟨path, digests.sha256 file.bytes, heldOutFold,
      heldOutHashes.insertionSort (· ≤ ·)⟩)
  | _, _ => pure none

def datasetYaml (out : String) : String :=
  s!"path: {out}\ntrain: images/train\nval: images/val\ntest: images/test\nnames:\n  0: mine\n"

/-- The checks and the reading that come before the first link. -/
def Call.read (call : Call) : Except String Reading := do
  let preset ← getOr (Preset.ofName call.preset) s!"unknown composition preset: {call.preset}"
  refuseIf (call.foldLock.isNone ≠ call.heldOutFold.isNone)
    "fold lock and held-out fold must be provided together"
  refuseIf (preset.foldSafe ∧ call.foldLock.isNone)
    s!"{preset.name} composition requires a held-out fold lock"
  refuseIf (¬ preset.foldSafe ∧ call.foldLock.isSome)
    "fold selection is only valid for a real-positive composition"
  refuseIf (¬ sameNames (call.components.map Prod.fst)
      (preset.components.map ComponentName.name))
    s!"{preset.name} components must be exactly those of the preset"
  let sources ← loadSources digests preset call.components
  let selection ← selectFold digests sources call.foldLock call.heldOutFold
  refuseIf ((preset.fractions.map Prod.snd).sum ≠ 1)
    s!"{preset.name} fractions do not sum to one"
  let trainCounts ← epochCounts preset.fractions
    (sources.map fun source => (source.1, (source.2.split .train).length))
  pure ⟨preset, sources, selection, trainCounts⟩

def compose (call : Call) : Except String Composed := do
  let reading ← call.read digests
  refuseIf (¬ call.outEmpty) s!"output directory is not empty: {call.out}"
  pure
    { lock :=
        { schema := "mission10-yolo-composition/1"
          datasetSha256 := canonicalSha256 reading.content.identity
          content := reading.content }
      images := splitNames.map fun split =>
        (split, (reading.parts split).flatMap fun part =>
          linkedImages part.1 part.2.1 part.2.2)
      labels := splitNames.map fun split =>
        (split, (reading.parts split).flatMap fun part =>
          linkedLabels part.1 part.2.1 part.2.2)
      datasetYaml := datasetYaml call.out }

end Compose

end Mission10.Dataset
