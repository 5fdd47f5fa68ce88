import Mission10.Dataset.Components
import Mission10.Dataset.Folds
import Mission10.Library.Dict

/-!
# Real positives and hard negatives of a fold

The hard negatives of a training fold are those whose photos are not held out. The
positives are contexts, crops around the visible mines of the training photos, and
pastes, confirmed cutouts of clear mines composed onto tiles drawn from the hard
negatives and from the production component. What is drawn and where a cutout comes
to lie is read off a generator that is seeded with the name of the mask.
-/
namespace Mission10.Dataset

open PlainText Outcome

/-- The image functions of Pillow. -/
structure Pillow where
  Image : Type
  /-- Opened, turned by its EXIF orientation and converted to RGB. -/
  openRgb : List UInt8 → Option Image
  openRgba : List UInt8 → Option Image
  size : Image → ℕ × ℕ
  /-- A square tile of an extent of the image. -/
  extent : Image → ℕ → ℚ × ℚ × ℚ × ℚ → Image
  rotate : Image → ℚ → Image
  alphaBox : Image → Option (ℕ × ℕ × ℕ × ℕ)
  crop : Image → ℕ × ℕ × ℕ × ℕ → Image
  resize : Image → ℕ × ℕ → Image
  blurAlpha : Image → ℚ → Image
  alphaComposite : Image → Image → ℕ × ℕ → Image
  rgb : Image → Image
  png : Image → List UInt8
  size_resize : ∀ image shape, size (resize image shape) = shape
  size_blurAlpha : ∀ image radius, size (blurAlpha image radius) = size image

/-- A generator of random numbers, a function of its seed. -/
structure Random where
  State : Type
  seeded : ℕ → State
  sample : State → (n : ℕ) → ℕ → List (Fin n) × State
  shuffle : State → (n : ℕ) → List (Fin n) × State
  uniform : State → ℚ → ℚ → ℚ × State
  randrange : State → (stop : ℕ) → 0 < stop → Fin stop × State

def tilePx : ℕ := 640

def contextScales : List ℕ := [30, 60, 120]

/-- A directory to write to: its path, and whether it is empty or not there yet. -/
structure Out where
  path : String
  empty : Bool

/-- A tile that is made, before it is written. -/
structure Made where
  tile : String
  image : List UInt8
  label : String
  boxes : ℕ
  provenance : List (String × Json)

/-- A component that was written. -/
structure WrittenComponent where
  lock : ComponentLock
  directory : Directory

/-- The line of a label, for a centre and a size in units of the tile. -/
def labelText (cx cy width height : ℚ) : List Char :=
  '0' :: ' ' :: (fixed 8 cx ++ ' ' :: (fixed 8 cy ++ ' ' :: (fixed 8 width ++ ' ' ::
    (fixed 8 height ++ ['\n']))))

/-- A box in pixels of a tile. -/
structure PixelBox where
  x0 : ℚ
  y0 : ℚ
  x1 : ℚ
  y1 : ℚ
deriving DecidableEq

/-- `_label_line`. -/
def labelLine (box : PixelBox) : List Char :=
  labelText ((box.x0 + box.x1) / (2 * tilePx)) ((box.y0 + box.y1) / (2 * tilePx))
    ((box.x1 - box.x0) / tilePx) ((box.y1 - box.y0) / tilePx)

section Writing

variable (digests : Digests) (dumps : ComponentLock → List UInt8)

def sortEntries (entries : List Entry) : List Entry :=
  entries.insertionSort fun first second => first.tile ≤ second.tile

/-- `_write_component`, into a directory with the given images and labels. -/
def writeComponent (out : Out) (entries : List Entry) (metadata : List (String × Json))
    (images : List (String × List UInt8)) (labels : List (String × String)) :
    WrittenComponent :=
  let entries := sortEntries entries
  let boxes := (entries.map Entry.boxes).sum
  let lock : ComponentLock :=
    { schema := "mission10-yolo-training-component/1"
      datasetSha256 := digests.entries entries
      entries := [("train", entries)]
      metadata := ("scope", .str "train_only") :: metadata ++
        [("counts", .obj [("train", .obj [("tiles", .int entries.length),
          ("boxes", .int boxes)])])] }
  { lock
    directory :=
      { path := out.path
        splitLock := none
        componentLock := some ⟨lock, dumps lock⟩
        hasDatasetYaml := false
        images := fun split => if split = .train then some images else none
        labels := fun split => if split = .train then some labels else none } }

/-- The fields of a provenance, or none of them where there is none. -/
def provenanceFields : Json → Except String (List (String × Json))
  | .null => pure []
  | .bool false => pure []
  | .int 0 => pure []
  | .float x => if x = 0 then pure [] else throw "the provenance has no attribute 'get'"
  | .str "" => pure []
  | .arr [] => pure []
  | .obj fields => pure fields
  | _ => throw "the provenance has no attribute 'get'"

/-- Whether a value is one of the hashes. A list or an object is not hashable. -/
def isExcluded (excluded : List String) : Option Json → Except String Bool
  | some (.str hash) => pure (excluded.contains hash)
  | some (.arr _) => throw "unhashable type: 'list'"
  | some (.obj _) => throw "unhashable type: 'dict'"
  | _ => pure false

/-- The records that are kept and the number of those that are not. -/
def keepRecords (excluded : List String) : List Record → Except String (List Record × ℕ)
  | [] => pure ([], 0)
  | record :: records => do
    let fields ← provenanceFields record.provenance
    let out ← isExcluded excluded ((Json.obj fields).get "source_sha256")
    let (kept, removed) ← keepRecords excluded records
    if out then pure (kept, removed + 1)
    else pure ({ record with provenance := .obj fields } :: kept, removed)

def recordEntry (record : Record) : Entry where
  tile := record.tile
  boxes := record.boxes
  imageSha256 := record.imageSha256
  labelSha256 := record.labelSha256
  provenance := record.provenance

/-- `filter_hard_negatives`. -/
def filterHardNegatives (sourceComponent : Directory) (out : Out) (foldLockPath : String)
    (foldLock : JsonFile FoldDocument) (heldOutFold : ℤ) : Except String WrittenComponent := do
  let source ← loadComponent digests.sha256 .hardneg sourceComponent
  let fold ← loadFoldDocument digests foldLock
  let excluded ← sourceHashes digests fold heldOutFold true
  refuseIf (¬ out.empty) s!"output directory is not empty: {out.path}"
  let kept ← keepRecords excluded (source.split .train)
  refuseIf (kept.1 = []) "fold filtering removed every hard-negative tile"
  pure (writeComponent digests dumps out (kept.1.map recordEntry)
    [("component", .str "fold-filtered-real-hard-negatives"),
      ("source_component", .str sourceComponent.path),
      ("source_component_lock_sha256", .str source.lockSha256),
      ("fold_lock", .str foldLockPath),
      ("fold_lock_sha256", .str (digests.sha256 foldLock.bytes)),
      ("held_out_fold", .int heldOutFold), ("removed_held_out_tiles", .int kept.2)]
    (kept.1.map fun record =>
      (record.tile ++ (PathName.suffix record.image.1).toLower, record.image.2))
    (kept.1.map fun record => (record.tile ++ ".txt", record.label)))

end Writing

/-! ### Contexts -/

section Contexts

variable (pillow : Pillow)

/-- `_scale_probe_geometry`. -/
def scaleProbeGeometry (xyxy : List ℚ) (targetPx : ℕ) :
    Except String ((ℚ × ℚ × ℚ × ℚ) × ℚ) := do
  refuseIf (targetPx ∉ contextScales) s!"unsupported scale probe {targetPx}"
  match xyxy with
  | [x0, y0, x1, y1] =>
    let objectSide := max (x1 - x0) (y1 - y0)
    refuseIf (objectSide ≤ 0) "scale probe object has empty box"
    let scale := targetPx / objectSide
    let sourceSide := tilePx / scale
    let cropX0 := (x0 + x1) / 2 - sourceSide / 2
    let cropY0 := (y0 + y1) / 2 - sourceSide / 2
    pure ((cropX0, cropY0, cropX0 + sourceSide, cropY0 + sourceSide), tilePx / sourceSide)
  | _ => throw "not enough values to unpack"

/-- `transform_scale_probe_box` of the probed annotation itself. -/
def transformScaleProbeBox (xyxy : List ℚ) (targetPx : ℕ) : Except String (Option PixelBox) := do
  let (crop, scale) ← scaleProbeGeometry xyxy targetPx
  match xyxy with
  | [x0, y0, x1, y1] =>
    let clip (x : ℚ) : ℚ := max 0 (min tilePx x)
    let box : PixelBox := ⟨clip ((x0 - crop.1) * scale), clip ((y0 - crop.2.1) * scale),
      clip ((x1 - crop.1) * scale), clip ((y1 - crop.2.1) * scale)⟩
    pure (if max 0 (box.x1 - box.x0) * max 0 (box.y1 - box.y0) > 0 then some box else none)
  | _ => throw "not enough values to unpack"

def scaleProbe (image : pillow.Image) (object : Annotation) (targetPx : ℕ) :
    Except String (pillow.Image × PixelBox) := do
  let (crop, _) ← scaleProbeGeometry object.xyxy targetPx
  let transformed ← transformScaleProbeBox object.xyxy targetPx
  let box ← getOr transformed "target vanished from its scale probe"
  pure (pillow.extent image tilePx crop, box)

/-- `_load_rgb`. -/
def loadRgb (sha256 : List UInt8 → String) (photo : String → Option (List UInt8))
    (record : Photo) : Except String pillow.Image := do
  let bytes ← getOr (photo record.source) s!"no such file: {record.source}"
  refuseIf (sha256 bytes ≠ record.sourceSha256) s!"source hash changed: {record.source}"
  let image ← getOr (pillow.openRgb bytes) s!"cannot identify image file: {record.source}"
  refuseIf (((pillow.size image).1 : ℤ) ≠ record.width ∨ ((pillow.size image).2 : ℤ) ≠ record.height)
    s!"oriented dimensions changed: {record.source}"
  pure image

def isVisible (object : Annotation) : Bool :=
  object.visibility = .clear ∨ object.visibility = .partly

def contextTile (record : Photo) (objectIndex targetPx : ℕ) : String :=
  s!"rp_context_{String.ofList (record.sourceSha256.toList.take 12)}_{objectIndex}_{targetPx}"

def makeContext (image : pillow.Image) (record : Photo) (object : Annotation)
    (objectIndex targetPx : ℕ) : Except String Made := do
  let (context, truth) ← scaleProbe pillow image object targetPx
  pure
    { tile := contextTile record objectIndex targetPx
      image := pillow.png context
      label := String.ofList (labelLine truth)
      boxes := 1
      provenance :=
        [("kind", .str "real_context"), ("source", .str record.source),
          ("source_sha256", .str record.sourceSha256), ("object_index", .int objectIndex),
          ("visibility", .str object.visibility.name), ("target_max_side_px", .int targetPx),
          ("partial_policy", .str "whole_context_only")] }

/-- The visible objects of a photo with their indices. -/
def visibleObjects (record : Photo) : List ( Annotation × ℕ) :=
  record.objects.zipIdx.filter fun object => isVisible object.1

/-- The contexts of a photo, which is opened where an object of it is visible. -/
def photoContexts (sha256 : List UInt8 → String) (photo : String → Option (List UInt8))
    (record : Photo) : Except String (List Made) := do
  if visibleObjects record = [] then pure []
  else
    let image ← loadRgb pillow sha256 photo record
    let contexts ← (visibleObjects record).mapM fun object =>
      contextScales.mapM fun targetPx => makeContext pillow image record object.1 object.2 targetPx
    pure contexts.flatten

def makeContexts (sha256 : List UInt8 → String) (photo : String → Option (List UInt8))
    (records : List Photo) : Except String (List Made) :=
  List.flatten <$> records.mapM (photoContexts pillow sha256 photo)

end Contexts

/-! ### Pastes -/

section Pastes

variable (pillow : Pillow) (random : Random)

def boxOfLine (line : List Char) : Except String (ℚ × ℚ × ℚ × ℚ) :=
  match fields line with
  | [_, cx, cy, width, height] =>
    match readFloat cx, readFloat cy, readFloat width, readFloat height with
    | some (some cx), some (some cy), some (some width), some (some height) =>
      pure ((cx - width / 2) * tilePx, (cy - height / 2) * tilePx, (cx + width / 2) * tilePx,
        (cy + height / 2) * tilePx)
    | _, _, _, _ => throw "could not convert string to float"
  | _ => throw "wrong number of values to unpack"

/-- `_parse_boxes`. -/
def parseBoxes (label : String) : Except String (List (ℚ × ℚ × ℚ × ℚ)) :=
  ((splitLines (readText label)).filter fun line => !isBlank line).mapM boxOfLine

/-- `_intersects`. -/
def intersects (box : ℕ × ℕ × ℕ × ℕ) (others : List (ℚ × ℚ × ℚ × ℚ)) : Bool :=
  others.any fun other =>
    decide (min (box.2.2.1 : ℚ) other.2.2.1 > max (box.1 : ℚ) other.1 ∧
      min (box.2.2.2 : ℚ) other.2.2.2 > max (box.2.1 : ℚ) other.2.1)

/-- `_prepared_cutout`. -/
def preparedCutout (cutout : List UInt8) (targetPx : ℕ) (angle feather : ℚ) :
    Except String pillow.Image := do
  let image ← getOr (pillow.openRgba cutout) "cannot identify image file"
  let rotated := pillow.rotate image angle
  let box ← getOr (pillow.alphaBox rotated) "empty confirmed cutout"
  let cropped := pillow.crop rotated box
  let (width, height) := pillow.size cropped
  let factor : ℚ := targetPx / (max width height : ℕ)
  let scaled (side : ℕ) : ℕ := max 1 (EvenSpacing.roundHalfEven (side * factor)).toNat
  pure (pillow.blurAlpha (pillow.resize cropped (scaled width, scaled height)) feather)

/-- `_target_sizes`: eight sizes between 20 and 130, evenly spaced in their logarithms. -/
def targetSizes : List ℕ := [22, 28, 36, 45, 57, 72, 92, 116]

/-- The first of at most so many random positions at which a cutout meets no box. -/
def findPosition (width height : ℕ) (existing : List (ℚ × ℚ × ℚ × ℚ)) :
    ℕ → random.State → Except String (Option (ℕ × ℕ) × random.State)
  | 0, state => pure (none, state)
  | tries + 1, state => do
    if hx : width ≤ tilePx then
      let (x, state) := random.randrange state (tilePx - width + 1) (by omega)
      if hy : height ≤ tilePx then
        let (y, state) := random.randrange state (tilePx - height + 1) (by omega)
        if intersects (x, y, x + width, y + height) existing then
          findPosition width height existing tries state
        else pure (some (x, y), state)
      else throw "empty range for randrange()"
    else throw "empty range for randrange()"

/-- What `_composite` returns. -/
structure Composite where
  image : List UInt8
  label : String
  transform : List (String × Json)

/-- `_composite`. -/
def composite (cutoutFile : List UInt8) (target : Record) (targetPx : ℕ)
    (state : random.State) : Except String (Composite × random.State) := do
  let background ← getOr (pillow.openRgba target.image.2) "cannot identify image file"
  refuseIf (pillow.size background ≠ (tilePx, tilePx)) s!"composite target is not {tilePx}px"
  let (angle, state) := random.uniform state 0 360
  let (feather, state) := random.uniform state 1 3
  let cutout ← preparedCutout pillow cutoutFile targetPx angle feather
  let existing ← parseBoxes target.label
  let (width, height) := pillow.size cutout
  let (position, state) ← findPosition random width height existing 256 state
  let (x, y) ← getOr position s!"could not place cutout on {target.tile}"
  let line := labelText ((x + (x + width : ℕ) : ℚ) / (2 * tilePx))
    ((y + (y + height : ℕ) : ℚ) / (2 * tilePx)) (width / tilePx) (height / tilePx)
  pure
    ({ image := pillow.png (pillow.rgb (pillow.alphaComposite background cutout (x, y)))
       label := String.ofList (readText target.label ++ line)
       transform :=
        [("target_max_side_px", .int (max width height : ℕ)), ("rotation_degrees", .float angle),
          ("feather_radius_px", .float feather),
          ("pasted_xyxy", .arr [.int x, .int y, .int (x + width : ℕ), .int (y + height : ℕ)])] },
      state)

def pasteTile (entry : MaskEntry) (ordinal : ℕ) : String := s!"rp_paste_{entry.id}_{ordinal}"

/-- The pastes of a cutout onto targets from an ordinal on. -/
def pasteOnto (entry : MaskEntry) (cutoutFile : List UInt8) :
    ℕ → List ((String × Record) × ℕ) → random.State → Except String (List Made)
  | _, [], _ => pure []
  | ordinal, ((kind, target), targetPx) :: targets, state => do
    let (pasted, state) ← composite pillow random cutoutFile target targetPx state
    let tile := pasteTile entry ordinal
    -- The name of a file cannot hold these characters.
    refuseIf ('/' ∈ tile.toList ∨ Char.ofNat 0 ∈ tile.toList) s!"no such file: {tile}.png"
    let made : Made :=
      { tile
        image := pasted.image
        label := pasted.label
        boxes := target.boxes + 1
        provenance :=
          [("kind", .str "confirmed_clear_copy_paste"), ("source", .str entry.source),
            ("source_sha256", .str entry.sourceSha256), ("object_index", .int entry.objectIndex),
            ("mask_review_id", .str entry.id),
            ("mask_confirmation", .str entry.confirmation.name), ("target_kind", .str kind),
            ("target_tile", .str target.tile), ("target_provenance", target.provenance)] ++
            pasted.transform }
    let rest ← pasteOnto entry cutoutFile (ordinal + 1) targets state
    pure (made :: rest)

/-- The seed of a mask's generator. -/
def seedOf (id : String) : ℕ :=
  (utf8 s!"mission10-real-positive-component-v1{Char.ofNat 0}{id}").foldr
    (fun byte value => byte.toNat + 256 * value) 0

/-- The targets of a mask with the sizes to paste at, and the generator after the draws. -/
def drawTargets (hardneg production : List Record) (entry : MaskEntry) :
    Except String (List ((String × Record) × ℕ) × random.State) := do
  let state := random.seeded (seedOf entry.id)
  refuseIf (hardneg.length < 4) "Sample larger than population or is negative"
  let (real, state) := random.sample state hardneg.length 4
  refuseIf (production.length < 4) "Sample larger than population or is negative"
  let (synthetic, state) := random.sample state production.length 4
  let targets := (real.map fun i => ("real_negative", hardneg.get i)) ++
    synthetic.map fun i => ("production", production.get i)
  let (order, state) := random.shuffle state targetSizes.length
  let sizes := order.map targetSizes.get
  refuseIf (targets.length ≠ sizes.length) "zip() arguments have different lengths"
  pure (targets.zip sizes, state)

def maskPastes (sha256 : List UInt8 → String) (cutout : String → Option (List UInt8))
    (hardneg production : List Record) (entry : MaskEntry) : Except String (List Made) := do
  let cutoutFile ← getOr (cutout entry.cutout) s!"no such file: {entry.cutout}"
  refuseIf (sha256 cutoutFile ≠ entry.cutoutSha256)
    s!"confirmed cutout hash changed: {entry.cutout}"
  let (targets, state) ← drawTargets random hardneg production entry
  pasteOnto pillow random entry cutoutFile 0 targets state

def makePastes (sha256 : List UInt8 → String) (cutout : String → Option (List UInt8))
    (hardneg production : List Record) (confirmed : List MaskEntry) :
    Except String (List Made) :=
  List.flatten <$> confirmed.mapM (maskPastes pillow random sha256 cutout hardneg production)

end Pastes

/-! ### The fold -/

/-- What the component of a fold is made of. -/
structure FoldInputs where
  labelsFile : JsonFile Labels
  /-- The file of a source, as it is resolved beside the labels. -/
  photo : String → Option (List UInt8)
  reviewFile : JsonFile MaskReview
  /-- The file of a cutout, as it is resolved beside the review. -/
  cutout : String → Option (List UInt8)
  foldLockPath : String
  foldLock : JsonFile FoldDocument
  heldOutFold : ℤ
  production : Directory
  hardneg : Directory
  filteredOut : Out
  positivesOut : Out

section Fold

variable (digests : Digests) (dumps : ComponentLock → List UInt8) (pillow : Pillow)
  (random : Random)

def madeEntry (made : Made) : Entry where
  tile := made.tile
  boxes := made.boxes
  imageSha256 := digests.sha256 made.image
  labelSha256 := digests.sha256 (utf8 made.label)
  provenance := .obj made.provenance

/-- The files of tiles, a later one over an earlier one of its name. -/
def filesOf {α : Type} (suffix : String) (content : Made → α) (made : List Made) :
    List (String × α) :=
  made.foldl (fun files tile => Dict.store (tile.tile ++ suffix) (content tile) files) []

def clearCount (records : List Photo) : ℕ :=
  (records.map fun record =>
    record.objects.countP fun annotation => annotation.visibility = .clear).sum

/-- The policy that the metadata of the positives record. -/
def componentPolicy : List (String × Json) :=
  [("clear_cutouts_only", .bool true),
    ("partial_definition", .str "any_occluding_grass_blade_is_partial"),
    ("contexts_per_visible_mine", .int contextScales.length),
    ("context_scales_px", .arr (contextScales.map fun scale => .int scale)),
    ("composites_per_confirmed_clear", .int 8),
    ("composite_target_px", .arr [.int 20, .int 130]),
    ("composite_target_mix", .obj [("real_negative", .int 4), ("production", .int 4)]),
    ("rotation_degrees", .arr [.int 0, .int 360]), ("feather_radius_px", .arr [.int 1, .int 3])]

/-- The photos of the training folds. -/
def trainingPhotos (labels : Labels) (trainingHashes : List String) : List Photo :=
  labels.images.filter fun record => trainingHashes.contains record.sourceSha256

/-- The confirmed masks of the training folds. -/
def confirmedMasks (review : MaskReview) (trainingHashes : List String) : List MaskEntry :=
  review.entries.filter fun entry =>
    trainingHashes.contains entry.sourceSha256 && decide (entry.confirmation = .confirmed)

/-- `materialize_real_positives`. -/
def materializeRealPositives (inputs : FoldInputs) (filteredHardneg : Directory) :
    Except String WrittenComponent := do
  let labels ← validateLabels digests inputs.labelsFile.document true true
  let review ← loadMaskReview inputs.reviewFile true
  refuseIf (review.labelsSha256 ≠ digests.sha256 inputs.labelsFile.bytes)
    "mask review labels hash changed"
  let fold ← loadFoldDocumentFor digests inputs.foldLock inputs.labelsFile
  let trainingHashes ← sourceHashes digests fold inputs.heldOutFold false
  let records := trainingPhotos labels trainingHashes
  let clearTotal := clearCount records
  let confirmed := confirmedMasks review trainingHashes
  let required := (clearTotal * 3 + 3) / 4
  refuseIf (confirmed.length < required)
    s!"only {confirmed.length}/{clearTotal} training clear masks confirmed; need at least {required}"
  let production ← loadComponent digests.sha256 .production inputs.production
  let hardneg ← loadComponent digests.sha256 .hardneg filteredHardneg
  refuseIf (¬ inputs.positivesOut.empty)
    s!"output directory is not empty: {inputs.positivesOut.path}"
  let contexts ← makeContexts pillow digests.sha256 inputs.photo records
  let pastes ← makePastes pillow random digests.sha256 inputs.cutout (hardneg.split .train)
    (production.split .train) confirmed
  let made := contexts ++ pastes
  pure (writeComponent digests dumps inputs.positivesOut (made.map (madeEntry digests))
    [("component", .str "fold-filtered-real-positive-anchor"),
      ("labels_sha256", .str (digests.sha256 inputs.labelsFile.bytes)),
      ("mask_review_sha256", .str (digests.sha256 inputs.reviewFile.bytes)),
      ("fold_lock_sha256", .str (digests.sha256 inputs.foldLock.bytes)),
      ("held_out_fold", .int inputs.heldOutFold),
      ("confirmed_training_clear_masks", .int confirmed.length),
      ("training_clear_masks", .int clearTotal), ("policy", .obj componentPolicy)]
    (filesOf ".png" Made.image made) (filesOf ".txt" Made.label made))

/-- `materialize_fold`. -/
def materializeFold (inputs : FoldInputs) :
    Except String (WrittenComponent × WrittenComponent) := do
  let filtered ← filterHardNegatives digests dumps inputs.hardneg inputs.filteredOut
    inputs.foldLockPath inputs.foldLock inputs.heldOutFold
  let positives ← materializeRealPositives digests dumps pillow random inputs filtered.directory
  pure (filtered, positives)

end Fold

end Mission10.Dataset
