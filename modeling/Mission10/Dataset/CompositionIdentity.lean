import Mission10.Dataset.ComponentReading
import Mission10.Dataset.Composition
import Mathlib.Data.Rat.Encodable
import Mathlib.Logic.Equiv.List
import Std.Data.String.ToNat

/-!
# The identity of a composition

The identity of a composition holds, of each component, the digest that its lock
declares and the sizes of its splits, beside totals of boxes and the selection of
the fold. Equal identities therefore stand for equal tiles as far as the declared
digests do. The selection names the path of the fold lock, so that the identity
changes with the place of that file.
-/
namespace Mission10.Dataset

open Outcome

/-- The corpus of a composition: its preset, the training tiles of each component, the
validation and test tiles and the photos that are held out. -/
structure Corpus where
  preset : Preset
  training : List (ComponentName × List Listing)
  validation : List Listing
  test : List Listing
  heldOut : List String
deriving DecidableEq

/-- What the components of a call declare: the digests in their locks and the sizes of
their splits, with the totals of their boxes and the selected fold. -/
structure Declared where
  preset : Preset
  selection : Option Selection
  components : List (ComponentName × String × List (Split × ℕ))
  boxes : List (Split × List (ComponentName × ℕ))
deriving DecidableEq

namespace Reading

/-- The tiles of a split that is the production component's alone. -/
def authoritative (reading : Reading) (split : Split) : List Listing :=
  ((reading.sources.lookup .production).elim [] fun source => source.split split).map
    Record.listing

def corpus (reading : Reading) : Corpus where
  preset := reading.preset
  training := reading.sources.map fun source =>
    (source.1, (source.2.split .train).map Record.listing)
  validation := reading.authoritative .val
  test := reading.authoritative .test
  heldOut := reading.selection.elim [] Selection.heldOutSourceSha256

end Reading

/-- What the lock of a component declares of it. -/
def Component.declared (source : Component) : String × List (Split × ℕ) :=
  (source.datasetSha256, source.entries.map fun entries => (entries.1, entries.2.length))

def Reading.declared (reading : Reading) : Declared where
  preset := reading.preset
  selection := reading.selection
  components := reading.sources.map fun source => (source.1, source.2.declared)
  boxes := reading.content.boxes

namespace Call

variable (digests : Digests)

def corpus (call : Call) : Except String Corpus := Reading.corpus <$> call.read digests

def declared (call : Call) : Except String Declared := Reading.declared <$> call.read digests

def foldLockPath (call : Call) : Option String := call.foldLock.map Prod.fst

end Call

/-- A directory apart from its place. -/
def Directory.contents (prepared : Directory) : Directory := { prepared with path := "" }

/-- One call's components and fold lock are copies of the other's: the same contents, it
may be at other paths. -/
structure Call.Copied (first second : Call) : Prop where
  preset : first.preset = second.preset
  components : first.components.map (fun component => (component.1, component.2.contents)) =
    second.components.map fun component => (component.1, component.2.contents)
  foldLock : first.foldLock.map Prod.snd = second.foldLock.map Prod.snd
  heldOutFold : first.heldOutFold = second.heldOutFold

/-! ### Sizes -/

section Sizes

/-- Values are looked up before or after they are mapped. -/
theorem lookup_map {κ α β : Type} [BEq κ] (f : α → β) (entries : List (κ × α)) (key : κ) :
    (entries.map fun entry => (entry.1, f entry.2)).lookup key = (entries.lookup key).map f := by
  induction entries with
  | nil => rfl
  | cons entry entries ih =>
    rw [List.map_cons, List.lookup_cons, List.lookup_cons, ih]
    cases key == entry.1 <;> rfl

/-- The size of a split among declared sizes. -/
def sizeOf (sizes : List (Split × ℕ)) (split : Split) : ℕ := (sizes.lookup split).getD 0

theorem sizeOf_declared (source : Component) (split : Split) :
    sizeOf source.declared.2 split = (source.split split).length := by
  rw [sizeOf, Component.declared, Component.split, lookup_map]
  cases source.entries.lookup split <;> rfl

/-- The sizes of the parts of a split. -/
def partSizes (components : List (ComponentName × String × List (Split × ℕ)))
    (trainCounts : List (ComponentName × ℕ)) (split : Split) : List (ComponentName × ℕ × ℕ) :=
  if split = .train then
    components.map fun component =>
      (component.1, sizeOf component.2.2 split, (trainCounts.lookup component.1).getD 0)
  else
    match components.lookup .production with
    | none => []
    | some component =>
      [(.production, sizeOf component.2 split, sizeOf component.2 split)]

theorem parts_sizes (reading : Reading) (split : Split) :
    (reading.parts split).map (fun part => (part.1, part.2.1.length, part.2.2)) =
      partSizes reading.declared.components reading.trainCounts split := by
  unfold Reading.parts partSizes Reading.declared
  split_ifs
  · rw [List.map_map, List.map_map]
    refine List.map_congr_left fun source _ => ?_
    simp [sizeOf_declared]
  · dsimp only
    rw [lookup_map]
    cases reading.sources.lookup .production with
    | none => rfl
    | some source => simp [sizeOf_declared]

/-- The identity that goes with what is declared. -/
def identityOf (declared : Declared) (trainCounts : List (ComponentName × ℕ)) : Identity :=
  let epochSize := (trainCounts.map Prod.snd).sum
  { preset := declared.preset.name
    requestedEpochFractions :=
      declared.preset.requested.map fun component => (component.1, component.2.1)
    actualEpochFractions := trainCounts.map fun count => (count.1, (count.2 : ℚ) / epochSize)
    trainEpochSize := epochSize
    components := declared.components.map fun component =>
      (component.1, ⟨component.1.expectedSchema, component.2.1, component.1.lockName,
        component.2.2⟩)
    counts := splitNames.map fun split =>
      (split, (partSizes declared.components trainCounts split).map fun part =>
        (part.1, part.2.2))
    boxes := declared.boxes
    trainRepeatRange := (partSizes declared.components trainCounts .train).map fun part =>
      (part.1, ((copies part.2.1 part.2.2).min?.getD 0, (copies part.2.1 part.2.2).max?.getD 0))
    ordering := "component preset order; source tile order; round-robin repetition"
    selection := declared.selection }

end Sizes

/-! ### Readings -/

section Readings

variable {digests : Digests} {call : Call} {reading : Reading}

/-- What a call has read. -/
structure ReadingOf (digests : Digests) (call : Call) (reading : Reading) : Prop where
  preset : Preset.ofName call.preset = some reading.preset
  together : call.foldLock.isNone = call.heldOutFold.isNone
  sources : List.Forall₂ (fun name source => source.1 = name ∧ ∃ prepared,
      call.components.lookup name.name = some prepared ∧
        loadComponent digests.sha256 name prepared = .ok source.2)
    reading.preset.components reading.sources
  selection : selectFold digests reading.sources call.foldLock call.heldOutFold =
    .ok reading.selection
  trainCounts : epochCounts reading.preset.fractions
    (reading.sources.map fun source => (source.1, (source.2.split .train).length)) =
      .ok reading.trainCounts

theorem loadSources_ok {preset : Preset} {components : List (String × Directory)}
    {sources : List (ComponentName × Component)}
    (h : loadSources digests preset components = .ok sources) :
    List.Forall₂ (fun name source => source.1 = name ∧ ∃ prepared,
      components.lookup name.name = some prepared ∧
        loadComponent digests.sha256 name prepared = .ok source.2) preset.components sources := by
  refine (mapM_eq_ok.mp h).imp fun name source hsource => ?_
  obtain ⟨prepared, hprepared, hsource⟩ := bind_ok hsource
  obtain ⟨component, hcomponent, hsource⟩ := bind_ok hsource
  rw [pure_ok hsource]
  exact ⟨rfl, prepared, getOr_eq_ok.mp hprepared, hcomponent⟩

theorem readingOf (h : call.read digests = .ok reading) : ReadingOf digests call reading := by
  obtain ⟨preset, hpreset, h⟩ := bind_ok h
  simp only [refuseIf_bind_eq_ok, not_not] at h
  obtain ⟨htogether, -, -, -, h⟩ := h
  obtain ⟨sources, hsources, h⟩ := bind_ok h
  obtain ⟨selection, hselection, h⟩ := bind_ok h
  obtain ⟨-, h⟩ := refuseIf_bind_eq_ok.mp h
  obtain ⟨trainCounts, htrainCounts, h⟩ := bind_ok h
  rw [pure_ok h]
  exact ⟨getOr_eq_ok.mp hpreset, htogether, loadSources_ok hsources, hselection, htrainCounts⟩

/-- The digest of a composition is that of what was read. -/
theorem compose_read {canonicalSha256 : Identity → String} {composed : Composed}
    (h : compose digests canonicalSha256 call = .ok composed) :
    ∃ reading, call.read digests = .ok reading ∧
      composed.lock.datasetSha256 = canonicalSha256 reading.content.identity := by
  obtain ⟨reading, hreading, h⟩ := bind_ok h
  obtain ⟨-, h⟩ := refuseIf_bind_eq_ok.mp h
  rw [pure_ok h]
  exact ⟨reading, hreading, rfl⟩

/-- The components are read under their own schemas and from locks of their own names. -/
theorem ReadingOf.source (h : ReadingOf digests call reading) :
    ∀ source ∈ reading.sources, source.2.schema = source.1.expectedSchema ∧
      source.2.lockName = source.1.lockName := by
  have hsources := h.sources
  generalize reading.preset.components = names at hsources
  generalize reading.sources = sources at hsources ⊢
  induction hsources with
  | nil => simp
  | cons hfirst _ ih =>
    intro source hsource
    rcases List.mem_cons.mp hsource with rfl | hsource
    · obtain ⟨rfl, prepared, -, hloaded⟩ := hfirst
      obtain ⟨lockFile, hcomponent⟩ := loadComponent_eq_ok.mp hloaded
      exact ⟨hcomponent.schema, hcomponent.lockName⟩
    · exact ih source hsource

theorem ReadingOf.identity (h : ReadingOf digests call reading) :
    reading.content.identity = identityOf reading.declared reading.trainCounts := by
  have hcomponents : (reading.sources.map fun source => (source.1, componentEntry source.2)).map
      (fun component => (component.1, component.2.toComponentSummary)) =
        reading.declared.components.map fun component =>
          (component.1, (⟨component.1.expectedSchema, component.2.1, component.1.lockName,
            component.2.2⟩ : ComponentSummary)) := by
    rw [Reading.declared, List.map_map, List.map_map]
    refine List.map_congr_left fun source hsource => ?_
    obtain ⟨hschema, hlockName⟩ := h.source source hsource
    simp [componentEntry, Component.declared, hschema, hlockName]
  have hcounts (split : Split) : ((reading.parts split).map fun part => (part.1, part.2.2)) =
      (partSizes reading.declared.components reading.trainCounts split).map fun part =>
        (part.1, part.2.2) := by
    rw [← parts_sizes, List.map_map]
    rfl
  have hrange : ((reading.parts .train).map fun part =>
      (part.1, ((copies part.2.1.length part.2.2).min?.getD 0,
        (copies part.2.1.length part.2.2).max?.getD 0))) =
      (partSizes reading.declared.components reading.trainCounts .train).map fun part =>
        (part.1, ((copies part.2.1 part.2.2).min?.getD 0,
          (copies part.2.1 part.2.2).max?.getD 0)) := by
    rw [← parts_sizes, List.map_map]
    rfl
  unfold Content.identity identityOf
  rw [← hcomponents, ← hrange]
  simp only [← hcounts]
  rfl

theorem ReadingOf.sizes (h : ReadingOf digests call reading) :
    epochCounts reading.declared.preset.fractions (reading.declared.components.map
      fun component => (component.1, sizeOf component.2.2 .train)) = .ok reading.trainCounts := by
  rw [← h.trainCounts, Reading.declared, List.map_map]
  congr 1
  refine List.map_congr_left fun source _ => ?_
  simp [sizeOf_declared]

theorem Preset.name_injective : Function.Injective Preset.name := by
  intro first second h
  revert h
  cases first <;> cases second <;> decide

variable {other : Call} {another : Reading}

/-- Two compositions have one identity when the same is declared for both. -/
theorem identity_eq_iff (h : ReadingOf digests call reading)
    (hother : ReadingOf digests other another) :
    reading.content.identity = another.content.identity ↔
      reading.declared = another.declared := by
  constructor
  · intro heq
    have hpreset : reading.preset = another.preset :=
      Preset.name_injective (congrArg Content.preset heq)
    have hcomponents : reading.declared.components = another.declared.components := by
      have hsummaries := congrArg (fun identity => identity.components.map fun component =>
        (component.1, component.2.datasetSha256, component.2.sourceCounts)) heq
      rw [h.identity, hother.identity] at hsummaries
      simpa [identityOf, Function.comp_def] using hsummaries
    have hselection : reading.selection = another.selection := congrArg Content.selection heq
    have hboxes : reading.content.identity.boxes = another.content.identity.boxes :=
      congrArg Content.boxes heq
    simp only [Reading.declared, Declared.mk.injEq]
    exact ⟨hpreset, hselection, hcomponents, hboxes⟩
  · intro heq
    have hcounts : reading.trainCounts = another.trainCounts := by
      have hsizes := h.sizes
      rw [heq, hother.sizes] at hsizes
      exact (Except.ok.inj hsizes).symm
    rw [h.identity, hother.identity, heq, hcounts]

end Readings

/-! ### Copies -/

section Copies

variable {digests : Digests} {call other : Call} {reading another : Reading}

/-- A component apart from its place. -/
def Component.contents (source : Component) : Component := { source with path := "" }

/-- A component read from a directory is read from a copy of it. -/
theorem loadComponent_contents {sha256 : List UInt8 → String} {component : ComponentName}
    {prepared : Directory} {source : Component}
    (h : loadComponent sha256 component prepared = .ok source) :
    loadComponent sha256 component prepared.contents = .ok source.contents := by
  obtain ⟨lockFile, h⟩ := loadComponent_eq_ok.mp h
  refine loadComponent_eq_ok.mpr ⟨lockFile, h.hasLock, h.expectedSchema, h.yaml, h.splits, ?_,
    h.nodup, rfl, h.lockName, h.schema, h.lockSha256, h.datasetSha256⟩
  refine h.loaded.imp fun split loaded hloaded => ?_
  obtain ⟨hname, images, labels, records, hsplit, hrecords⟩ := hloaded
  exact ⟨hname, images, labels, records, ⟨hsplit.hasImages, hsplit.hasLabels, hsplit.nonempty,
    hsplit.records, hsplit.nodup, hsplit.imageNames, hsplit.labelNames⟩, hrecords⟩

theorem sources_contents {names : List ComponentName}
    {components others : List (String × Directory)}
    {sources copied : List (ComponentName × Component)}
    (hcopy : components.map (fun component => (component.1, component.2.contents)) =
      others.map fun component => (component.1, component.2.contents))
    (hsources : List.Forall₂ (fun name source => source.1 = name ∧ ∃ prepared,
      components.lookup name.name = some prepared ∧
        loadComponent digests.sha256 name prepared = .ok source.2) names sources)
    (hcopied : List.Forall₂ (fun name source => source.1 = name ∧ ∃ prepared,
      others.lookup name.name = some prepared ∧
        loadComponent digests.sha256 name prepared = .ok source.2) names copied) :
    sources.map (fun source => (source.1, source.2.contents)) =
      copied.map fun source => (source.1, source.2.contents) := by
  induction hsources generalizing copied with
  | nil =>
    rw [List.forall₂_nil_left_iff] at hcopied
    rw [hcopied]
  | @cons name source names sources hfirst _ ih =>
    cases hcopied with
    | cons hsecond hrest =>
      obtain ⟨hname, prepared, hprepared, hloaded⟩ := hfirst
      obtain ⟨hsame, place, hplace, hfound⟩ := hsecond
      have hcontents : prepared.contents = place.contents := by
        have hlookup := congrArg (List.lookup name.name) hcopy
        rw [lookup_map, lookup_map, hprepared, hplace] at hlookup
        exact Option.some.inj hlookup
      have hread := loadComponent_contents hloaded
      rw [hcontents, loadComponent_contents hfound] at hread
      rw [List.map_cons, List.map_cons, ih hrest, hname, hsame, Except.ok.inj hread]

/-- A reading apart from where its components lie. -/
def Reading.contents (reading : Reading) : Reading :=
  { reading with
    sources := reading.sources.map fun source => (source.1, source.2.contents) }

theorem parts_contents (reading : Reading) (split : Split) :
    reading.contents.parts split = reading.parts split := by
  unfold Reading.parts Reading.contents
  split_ifs
  · rw [List.map_map]
    rfl
  · dsimp only
    rw [lookup_map]
    cases reading.sources.lookup .production <;> rfl

/-- What is declared does not see where the components lie. -/
theorem declared_contents (reading : Reading) :
    reading.contents.declared = reading.declared := by
  have hboxes : reading.contents.content.boxes = reading.content.boxes := by
    simp only [Reading.content, parts_contents]
  have hcomponents : reading.contents.declared.components = reading.declared.components := by
    simp only [Reading.declared, Reading.contents, List.map_map]
    rfl
  simp only [Reading.declared, Declared.mk.injEq]
  exact ⟨rfl, rfl, hcomponents, hboxes⟩

/-- The selection of a call: a fold lock with its path, or nothing. -/
theorem selectFold_ok {sources : List (ComponentName × Component)}
    {foldLock : Option (String × JsonFile FoldDocument)} {heldOutFold : Option ℤ}
    {selection : Option Selection}
    (h : selectFold digests sources foldLock heldOutFold = .ok selection)
    (htogether : foldLock.isNone = heldOutFold.isNone) :
    foldLock = none ∧ selection = none ∨
      ∃ path file fold, foldLock = some (path, file) ∧ heldOutFold = some fold ∧
        selection = some ⟨path, digests.sha256 file.bytes, fold,
          (sideHashes file.document fold true).insertionSort (· ≤ ·)⟩ := by
  cases foldLock with
  | none =>
    left
    cases heldOutFold with
    | none => exact ⟨rfl, pure_ok h⟩
    | some fold => exact ⟨rfl, pure_ok h⟩
  | some lock =>
    right
    obtain ⟨path, file⟩ := lock
    cases heldOutFold with
    | none => simp at htogether
    | some fold =>
      obtain ⟨document, hdocument, h⟩ := bind_ok h
      obtain ⟨hashes, hhashes, h⟩ := bind_ok h
      obtain ⟨⟨⟩, -, h⟩ := bind_ok h
      obtain ⟨⟨⟩, -, h⟩ := bind_ok h
      refine ⟨path, file, fold, rfl, rfl, ?_⟩
      rw [pure_ok h, (sourceHashes_ok hhashes).1, (validateFoldDocument_nodup hdocument).1]

/-- Of copies the same is declared just where the fold lock has its path in both calls. -/
theorem Call.Copied.declared_iff (hcopy : call.Copied other)
    (h : ReadingOf digests call reading) (hother : ReadingOf digests other another) :
    reading.declared = another.declared ↔ call.foldLockPath = other.foldLockPath := by
  have hpreset : reading.preset = another.preset := by
    have hname := h.preset
    rw [hcopy.preset, hother.preset] at hname
    exact (Option.some.inj hname).symm
  have hsources : reading.sources.map (fun source => (source.1, source.2.contents)) =
      another.sources.map fun source => (source.1, source.2.contents) :=
    sources_contents hcopy.components h.sources (hpreset ▸ hother.sources)
  have hcounts : reading.trainCounts = another.trainCounts := by
    have hsizes := h.trainCounts
    have hlengths : (reading.sources.map fun source =>
        (source.1, (source.2.split .train).length)) =
          another.sources.map fun source => (source.1, (source.2.split .train).length) := by
      have hmap := congrArg (List.map fun source : ComponentName × Component =>
        (source.1, (source.2.split .train).length)) hsources
      simpa [Function.comp_def, Component.contents, Component.split] using hmap
    rw [hpreset, hlengths, hother.trainCounts] at hsizes
    exact (Except.ok.inj hsizes).symm
  have hselection : reading.selection = another.selection ↔
      call.foldLockPath = other.foldLockPath := by
    unfold Call.foldLockPath
    have hlock := hcopy.foldLock
    rcases selectFold_ok h.selection h.together with
      ⟨hnone, hselected⟩ | ⟨path, file, fold, hsome, hfold, hselected⟩
    · rcases selectFold_ok hother.selection hother.together with
        ⟨hnone', hselected'⟩ | ⟨path', file', fold', hsome', -, -⟩
      · simp [hnone, hnone', hselected, hselected']
      · simp [hnone, hsome'] at hlock
    · rcases selectFold_ok hother.selection hother.together with
        ⟨hnone', -⟩ | ⟨path', file', fold', hsome', hfold', hselected'⟩
      · simp [hsome, hnone'] at hlock
      · have hfile : file = file' := by simpa [hsome, hsome'] using hlock
        have hsame : fold = fold' := by
          have heq := hcopy.heldOutFold
          rw [hfold, hfold'] at heq
          exact Option.some.inj heq
        simp [hselected, hselected', hsome, hsome', hfile, hsame]
  rw [← hselection]
  constructor
  · intro heq
    exact congrArg Declared.selection heq
  · intro heq
    have hcontents : reading.contents = another.contents := by
      unfold Reading.contents
      rw [hsources, hpreset, heq, hcounts]
    rw [← declared_contents reading, hcontents, declared_contents]

end Copies

/-! ### Declared digests -/

section Honest

variable {digests : Digests} {first second : Call}

/-- The tiles of a component's splits. -/
def Component.listings (source : Component) : List (Split × List Listing) :=
  source.entries.map fun entries => (entries.1, entries.2.map Record.listing)

theorem split_listings (source : Component) (split : Split) :
    (source.split split).map Record.listing = (source.listings.lookup split).getD [] := by
  rw [Component.split, Component.listings, lookup_map]
  cases source.entries.lookup split <;> rfl

/-- The corpus is a matter of what the components list. -/
theorem corpus_of_listings {reading another : Reading}
    (hpreset : reading.preset = another.preset)
    (hselection : reading.selection = another.selection)
    (hlistings : reading.sources.map (fun source => (source.1, source.2.listings)) =
      another.sources.map fun source => (source.1, source.2.listings)) :
    reading.corpus = another.corpus := by
  have htraining : (reading.sources.map fun source =>
      (source.1, (source.2.split .train).map Record.listing)) =
        another.sources.map fun source =>
          (source.1, (source.2.split .train).map Record.listing) := by
    have hmap := congrArg (List.map fun source : ComponentName × List (Split × List Listing) =>
      (source.1, (source.2.lookup .train).getD [])) hlistings
    simpa only [List.map_map, Function.comp_def, ← split_listings] using hmap
  have hauthoritative (split : Split) :
      reading.authoritative split = another.authoritative split := by
    have hlookup := congrArg (List.lookup ComponentName.production) hlistings
    rw [lookup_map, lookup_map] at hlookup
    unfold Reading.authoritative
    cases hone : reading.sources.lookup .production with
    | none =>
      cases htwo : another.sources.lookup .production with
      | none => rfl
      | some source => simp [hone, htwo] at hlookup
    | some source =>
      cases htwo : another.sources.lookup .production with
      | none => simp [hone, htwo] at hlookup
      | some other =>
        have heq : source.listings = other.listings := by simpa [hone, htwo] using hlookup
        simp only [Option.elim, split_listings, heq]
  unfold Reading.corpus
  rw [hpreset, hselection, htraining, hauthoritative .val, hauthoritative .test]

/-- The locks of a call declare digests of their entries. -/
def Call.Honest (contentSha256 : List (String × List Entry) → String) (call : Call) : Prop :=
  ∀ component ∈ call.components, ∀ name lockFile, component.2.lock name = some lockFile →
    lockFile.document.datasetSha256 = contentSha256 lockFile.document.entries

theorem mem_of_lookup {κ α : Type} [BEq κ] [LawfulBEq κ] {entries : List (κ × α)} {key : κ}
    {value : α} (h : entries.lookup key = some value) : (key, value) ∈ entries := by
  obtain ⟨before, after, hentries, -⟩ := List.lookup_eq_some_iff.mp h
  rw [hentries]
  exact List.mem_append_right before List.mem_cons_self

theorem listings_of_lock {sha256 : List UInt8 → String} {component : ComponentName}
    {prepared : Directory} {lockFile : JsonFile ComponentLock} {source : Component}
    (h : ComponentOf sha256 component prepared lockFile source) :
    source.listings = component.expectedSplits.map fun split =>
      (split, sortListings ((lockFile.document.split split).map Entry.listing)) := by
  have hloaded := h.loaded
  unfold Component.listings
  generalize component.expectedSplits = splits at hloaded
  generalize source.entries = entries at hloaded
  induction hloaded with
  | nil => rfl
  | cons hfirst _ ih => rw [List.map_cons, List.map_cons, ih, hfirst.listings, hfirst.1]

/-- Where locks declare digests that tell their entries apart, what is declared pins the
corpus. -/
theorem corpus_of_declared {contentSha256 : List (String × List Entry) → String}
    (hinjective : Function.Injective contentSha256) (hfirst : first.Honest contentSha256)
    (hsecond : second.Honest contentSha256) {reading another : Reading}
    (hreading : ReadingOf digests first reading) (hanother : ReadingOf digests second another)
    (hdeclared : reading.declared = another.declared) : reading.corpus = another.corpus := by
  have hpreset : reading.preset = another.preset := congrArg Declared.preset hdeclared
  refine corpus_of_listings hpreset (congrArg Declared.selection hdeclared) ?_
  have hcomponents : reading.sources.map (fun source => (source.1, source.2.declared)) =
      another.sources.map fun source => (source.1, source.2.declared) :=
    congrArg Declared.components hdeclared
  have hsources := hreading.sources
  have hothers := hanother.sources
  rw [← hpreset] at hothers
  generalize reading.preset.components = names at hsources hothers
  generalize reading.sources = sources at hsources hcomponents ⊢
  generalize another.sources = others at hothers hcomponents ⊢
  induction hsources generalizing others with
  | nil =>
    rw [List.forall₂_nil_left_iff] at hothers
    rw [hothers]
  | @cons name source names sources hone _ ih =>
    cases hothers with
    | @cons _ other _ others htwo hrest =>
      rw [List.map_cons, List.map_cons, List.cons.injEq] at hcomponents
      obtain ⟨hname, prepared, hprepared, hloaded⟩ := hone
      obtain ⟨hsame, place, hplace, hfound⟩ := htwo
      obtain ⟨lockFile, hcomponent⟩ := loadComponent_eq_ok.mp hloaded
      obtain ⟨otherLock, hother⟩ := loadComponent_eq_ok.mp hfound
      have hentries : lockFile.document.entries = otherLock.document.entries := by
        have hdigest : source.2.datasetSha256 = other.2.datasetSha256 := by
          have hpair := congrArg (fun component => component.2.1) hcomponents.1
          exact hpair
        rw [hcomponent.datasetSha256, hother.datasetSha256,
          hfirst _ (mem_of_lookup hprepared) _ _ hcomponent.hasLock,
          hsecond _ (mem_of_lookup hplace) _ _ hother.hasLock] at hdigest
        exact hinjective hdigest
      have hlistings : source.2.listings = other.2.listings := by
        rw [listings_of_lock hcomponent, listings_of_lock hother]
        simp only [ComponentLock.split, hentries]
      rw [List.map_cons, List.map_cons, ih others hrest hcomponents.2, hlistings, hname, hsame]

end Honest

/-! ### The identity -/

section Identity

variable {digests : Digests} {canonicalSha256 : Identity → String} {first second : Call}
  {one two : Composed}

/-- Two compositions have one digest when the same is declared for both. -/
theorem digest_eq_iff (hinjective : Function.Injective canonicalSha256)
    (hfirst : compose digests canonicalSha256 first = .ok one)
    (hsecond : compose digests canonicalSha256 second = .ok two) :
    one.lock.datasetSha256 = two.lock.datasetSha256 ↔
      first.declared digests = second.declared digests := by
  obtain ⟨reading, hread, hone⟩ := compose_read hfirst
  obtain ⟨another, hread', htwo⟩ := compose_read hsecond
  rw [hone, htwo, hinjective.eq_iff, identity_eq_iff (readingOf hread) (readingOf hread'),
    Call.declared, Call.declared, hread, hread']
  exact ⟨fun heq => congrArg Except.ok heq, fun heq => Except.ok.inj heq⟩

/-- The digest of a composition pins its corpus and does not see where the inputs lie
exactly where what the locks declare pins the tiles, and a copied fold lock stays at its
path. -/
theorem dataset_identity (hinjective : Function.Injective canonicalSha256)
    (hfirst : compose digests canonicalSha256 first = .ok one)
    (hsecond : compose digests canonicalSha256 second = .ok two) :
    ((one.lock.datasetSha256 = two.lock.datasetSha256 →
          first.corpus digests = second.corpus digests) ∧
        (first.Copied second → one.lock.datasetSha256 = two.lock.datasetSha256)) ↔
      ((first.declared digests = second.declared digests →
          first.corpus digests = second.corpus digests) ∧
        (first.Copied second → first.foldLockPath = second.foldLockPath)) := by
  have hdigest := digest_eq_iff hinjective hfirst hsecond
  have hcopies (hcopy : first.Copied second) : one.lock.datasetSha256 =
      two.lock.datasetSha256 ↔ first.foldLockPath = second.foldLockPath := by
    obtain ⟨reading, hread, hone⟩ := compose_read hfirst
    obtain ⟨another, hread', htwo⟩ := compose_read hsecond
    rw [hone, htwo, hinjective.eq_iff, identity_eq_iff (readingOf hread) (readingOf hread'),
      hcopy.declared_iff (readingOf hread) (readingOf hread')]
  constructor
  · rintro ⟨hpins, hplaces⟩
    exact ⟨fun heq => hpins (hdigest.mpr heq), fun hcopy => (hcopies hcopy).mp (hplaces hcopy)⟩
  · rintro ⟨hpins, hplaces⟩
    exact ⟨fun heq => hpins (hdigest.mp heq), fun hcopy => (hcopies hcopy).mpr (hplaces hcopy)⟩

/-- The digest of the empty file, of the text of an empty object and of a list of
assignments. -/
def sampleDigests : Digests where
  sha256 bytes :=
    if bytes = [] then "e3b0c44298fc1c149afbf4c8996fb92427ae41e4649b934ca495991b7852b855"
    else "44136fa355b3678a1146ad16f7e8649e94fb4fc21fe77e8310c060f61caaff8a"
  roles _ := ""
  annotations _ := ""
  assignments _ := "locked"
  entries _ := ""

/-- A directory whose splits have a tile each, empty files both. -/
def sampleDirectory (path : String) (component : ComponentName) (tiles : List (Split × String)) :
    Directory :=
  let empty := sampleDigests.sha256 []
  let lock : JsonFile ComponentLock :=
    { document :=
        { schema := component.expectedSchema
          datasetSha256 := "declared"
          entries := tiles.map fun tile =>
            (tile.1.name, [⟨tile.2, 0, empty, empty, .null⟩])
          metadata := [] }
      bytes := [0x7B, 0x7D] }
  { path
    splitLock := if component.fullDataset then some lock else none
    componentLock := if component.fullDataset then none else some lock
    hasDatasetYaml := component.fullDataset
    images := fun split => (tiles.lookup split).map fun tile => [(tile ++ ".png", [])]
    labels := fun split => (tiles.lookup split).map fun tile => [(tile ++ ".txt", "")] }

def sampleProduction (place tile : String) : Directory :=
  sampleDirectory place .production [(.train, tile), (.val, "s2_k0"), (.test, "s3_k0")]

def sampleControl (place tile : String) : Call where
  out := "/control"
  outEmpty := true
  preset := "control"
  components := [("production", sampleProduction place tile)]
  foldLock := none
  heldOutFold := none

def sampleFolds : FoldDocument where
  schema := "mission10-yolo-real-folds/1"
  labelsSha256 := ""
  assignmentsSha256 := "locked"
  role := .trainingCandidate
  grouping := "exact_source_photo"
  seed := "folds"
  foldCount := 2
  assignments :=
    [⟨"a.png", "44136fa355b3678a1146ad16f7e8649e94fb4fc21fe77e8310c060f61caaff8a", 0,
      .negative, 0⟩]
  counts := [("0", ⟨1, 0, 0, 1⟩), ("1", ⟨0, 0, 0, 0⟩)]

def sampleRealPositive (foldLockPath : String) : Call where
  out := "/real-positive"
  outEmpty := true
  preset := "real_positive"
  components :=
    [("production", sampleProduction "/production" "s1_k0"),
      ("hardneg", sampleDirectory "/hardneg" .hardneg [(.train, "hn_0")]),
      ("real_positive", sampleDirectory "/positives" .realPositive [(.train, "rp_0")])]
  foldLock := some (foldLockPath, ⟨sampleFolds, [0x7B, 0x7D]⟩)
  heldOutFold := some 1

theorem countable_identity : Countable Identity := by
  have hchar : Countable Char :=
    Function.Injective.countable fun _ _ h => Char.toNat_inj.mp h
  have hstring : Countable String :=
    Function.Injective.countable fun _ _ h => String.toList_injective h
  have hsplit : Countable Split := by
    refine Function.Injective.countable (f := Split.name) fun first second h => ?_
    cases first <;> cases second <;> first | rfl | exact absurd h (by decide)
  have hname : Countable ComponentName := by
    refine Function.Injective.countable (f := ComponentName.name) fun first second h => ?_
    cases first <;> cases second <;> first | rfl | exact absurd h (by decide)
  have hselection : Countable Selection := by
    refine Function.Injective.countable (f := fun selection => (selection.foldLock,
      selection.foldLockSha256, selection.heldOutFold, selection.heldOutSourceSha256)) ?_
    rintro ⟨⟩ ⟨⟩ h
    simpa using h
  have hsummary : Countable ComponentSummary := by
    refine Function.Injective.countable (f := fun summary => (summary.schema,
      summary.datasetSha256, summary.sourceLock, summary.sourceCounts)) ?_
    rintro ⟨⟩ ⟨⟩ h
    simpa using h
  refine Function.Injective.countable (f := fun content => (content.preset,
    content.requestedEpochFractions, content.actualEpochFractions, content.trainEpochSize,
    content.components, content.counts, content.boxes, content.trainRepeatRange,
    content.ordering, content.selection)) ?_
  rintro ⟨⟩ ⟨⟩ h
  simpa using h

theorem exists_injective_digest : ∃ canonicalSha256 : Identity → String,
    Function.Injective canonicalSha256 := by
  have hcountable := countable_identity
  obtain ⟨code, hcode⟩ := exists_injective_nat Identity
  exact ⟨fun identity => (code identity).repr, fun _ _ h => hcode (Nat.repr_injective h)⟩

theorem compose_total (digests : Digests) (canonicalSha256 : Identity → String) (call : Call)
    (hread : (call.read digests).isOk = true) (hout : call.outEmpty = true) :
    ∃ composed, compose digests canonicalSha256 call = .ok composed := by
  obtain ⟨reading, hreading⟩ := ok_of_isOk hread
  refine bind_total hreading ?_
  have hempty : ¬ ¬ call.outEmpty = true := not_not.mpr hout
  rw [refuseIf, if_neg hempty]
  exact ⟨_, rfl⟩

/-- A component and a copy of it. -/
theorem dataset_identity_copy : ∃ (canonicalSha256 : Identity → String) (one two : Composed),
    Function.Injective canonicalSha256 ∧
      compose sampleDigests canonicalSha256 (sampleControl "/production" "s1_k0") = .ok one ∧
        compose sampleDigests canonicalSha256 (sampleControl "/copy" "s1_k0") = .ok two ∧
          one.lock.datasetSha256 = two.lock.datasetSha256 := by
  obtain ⟨canonicalSha256, hinjective⟩ := exists_injective_digest
  obtain ⟨one, hone⟩ := compose_total sampleDigests canonicalSha256
    (sampleControl "/production" "s1_k0") (by decide +kernel) rfl
  obtain ⟨two, htwo⟩ := compose_total sampleDigests canonicalSha256
    (sampleControl "/copy" "s1_k0") (by decide +kernel) rfl
  refine ⟨canonicalSha256, one, two, hinjective, hone, htwo, ?_⟩
  refine ((dataset_identity hinjective hone htwo).mpr ⟨fun _ => by decide +kernel, fun _ => rfl⟩).2
    ⟨rfl, rfl, rfl, rfl⟩

/-- Locks that declare one digest for different tiles give their compositions one digest,
and a fold lock that is moved gives its composition another one. -/
theorem identity_misses_tiles_and_sees_path :
    (¬ ∀ (digests : Digests) (canonicalSha256 : Identity → String) (first second : Call)
        (one two : Composed), Function.Injective canonicalSha256 →
      compose digests canonicalSha256 first = .ok one →
        compose digests canonicalSha256 second = .ok two →
          one.lock.datasetSha256 = two.lock.datasetSha256 →
            first.corpus digests = second.corpus digests) ∧
      ¬ ∀ (digests : Digests) (canonicalSha256 : Identity → String) (first second : Call)
        (one two : Composed), Function.Injective canonicalSha256 →
      compose digests canonicalSha256 first = .ok one →
        compose digests canonicalSha256 second = .ok two →
          first.Copied second → one.lock.datasetSha256 = two.lock.datasetSha256 := by
  obtain ⟨canonicalSha256, hinjective⟩ := exists_injective_digest
  constructor
  · intro hclaim
    obtain ⟨one, hone⟩ := compose_total sampleDigests canonicalSha256
      (sampleControl "/production" "s1_k0") (by decide +kernel) rfl
    obtain ⟨two, htwo⟩ := compose_total sampleDigests canonicalSha256
      (sampleControl "/production" "s1_k1") (by decide +kernel) rfl
    have hdigest := (digest_eq_iff hinjective hone htwo).mpr (by decide +kernel)
    have hcorpus := hclaim _ _ _ _ _ _ hinjective hone htwo hdigest
    revert hcorpus
    decide +kernel
  · intro hclaim
    obtain ⟨one, hone⟩ := compose_total sampleDigests canonicalSha256
      (sampleRealPositive "/folds/folds.json") (by decide +kernel) rfl
    obtain ⟨two, htwo⟩ := compose_total sampleDigests canonicalSha256
      (sampleRealPositive "/copy/folds.json") (by decide +kernel) rfl
    have hdigest := hclaim _ _ _ _ _ _ hinjective hone htwo ⟨rfl, rfl, rfl, rfl⟩
    have hdeclared := (digest_eq_iff hinjective hone htwo).mp hdigest
    revert hdeclared
    decide +kernel

end Identity

end Mission10.Dataset
