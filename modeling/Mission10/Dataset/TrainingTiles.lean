import Mission10.Engine.Visibility
import Mission10.Library.Dict
import Mission10.Library.Numerals
import Mission10.Library.Outcome
import Mission10.Sensing.TileGrids

/-!
# Training tiles

Labels are computed from the geometry of a scene and the occlusion that the
renderer measured. A frame is cut on the shared grid, shifted at random, and a
tile that a visible mine crosses without keeping a label is left out. A random
part of the frames is listed whole besides, with labels of its own.
-/
namespace Mission10.Dataset.Datagen

open Outcome Engine Sensing

variable {K : Type} [Field K] [LinearOrder K] [MathOps K]

def occlusionSchema : String := "minefield-occlusion/2"
def readableSchemas : List String := ["minefield-datagen/6", "minefield-datagen/7"]

/-- Untiled inference letterboxes the frame to this. -/
def fullframeModelPx : ℕ := 640

def poisonMinFrac : K := 15 / 100

/-! ### Scenes -/

structure MinePose (K : Type) where
  north : K
  east : K
  yaw : K

structure Station (K : Type) where
  pos : Vec3 K
  q : Quat K

/-- What labels need of the configuration of a dataset. -/
structure GenConfig (K : Type) [Field K] [LinearOrder K] where
  seed : String
  camera : CameraModel K
  mineDimsM : K × K × K
  minVisibleFrac : K
  minBoxPx : K
  visible : 0 < minVisibleFrac ∧ minVisibleFrac ≤ 1

structure Scene (K : Type) where
  index : ℤ
  mines : List (MinePose K)
  stations : List (Station K)
  tilt : K

/-- The stem of the image of a station. -/
def imageStem (cfg : GenConfig K) (scene : Scene K) (k : ℤ) : String :=
  s!"{cfg.seed}_s{PaddedDigits.paddedInt 4 scene.index}_k{PaddedDigits.paddedInt 4 k}"

/-! ### Labels -/

/-- The rectangle of the projected corners of a mine, in pixels. -/
structure Extents (K : Type) where
  u0 : K
  u1 : K
  v0 : K
  v1 : K

/-- A window of pixels that extents are clipped to. -/
structure Window (K : Type) where
  x0 : K
  y0 : K
  x1 : K
  y1 : K

structure YoloBox (K : Type) where
  cls : ℕ
  cx : K
  cy : K
  w : K
  h : K
  visibleFrac : K

def YoloBox.line (box : YoloBox K) : String :=
  s!"{box.cls} {fixedText 6 box.cx} {fixedText 6 box.cy} {fixedText 6 box.w} {fixedText 6 box.h}"

/-- The eight corners of a mine on the ground. -/
def mineCorners (m : MinePose K) (dims : K × K × K) : List (Vec3 K) :=
  let hl := dims.1 / 2
  let hw := dims.2.1 / 2
  let c := MathOps.cos m.yaw
  let s := MathOps.sin m.yaw
  [(hl, hw), (hl, -hw), (-hl, hw), (-hl, -hw)].flatMap fun (dx, dy) =>
    let north := m.north + dx * c - dy * s
    let east := m.east + dx * s + dy * c
    [⟨north, east, 0⟩, ⟨north, east, -dims.2.2⟩]

/-- The extents of a mine before the clipping; `none` where a corner is behind the camera. -/
def rawExtents (cam : CameraModel K) (pos : Vec3 K) (q : Quat K) (mine : MinePose K)
    (dims : K × K × K) : Option (Extents K) := do
  let pixels ← (mineCorners mine dims).mapM (cam.projectRaw pos q)
  let us := pixels.map Prod.fst
  let vs := pixels.map Prod.snd
  return ⟨← us.min?, ← us.max?, ← vs.min?, ← vs.max?⟩

namespace Extents

def rawArea (ext : Extents K) : K := (ext.u1 - ext.u0) * (ext.v1 - ext.v0)

/-- The size of the extents in a window. -/
def clippedWidth (ext : Extents K) (win : Window K) : K := min ext.u1 win.x1 - max ext.u0 win.x0

def clippedHeight (ext : Extents K) (win : Window K) : K := min ext.v1 win.y1 - max ext.v0 win.y0

/-- The area of the extents in a window. -/
def inter (ext : Extents K) (win : Window K) : K :=
  max 0 (ext.clippedWidth win) * max 0 (ext.clippedHeight win)

/-- The box of the extents in a window, in units of the window. -/
def clippedBox (ext : Extents K) (win : Window K) : YoloBox K where
  cls := 0
  cx := ((max ext.u0 win.x0 + min ext.u1 win.x1) / 2 - win.x0) / (win.x1 - win.x0)
  cy := ((max ext.v0 win.y0 + min ext.v1 win.y1) / 2 - win.y0) / (win.y1 - win.y0)
  w := ext.clippedWidth win / (win.x1 - win.x0)
  h := ext.clippedHeight win / (win.y1 - win.y0)
  visibleFrac := ext.clippedWidth win * ext.clippedHeight win / ext.rawArea

end Extents

/-- The box of extents in a window; `none` where they are not usefully visible in it. -/
def boxFromExtents (ext : Extents K) (win : Window K) (minVisibleFrac minBoxPx : K) :
    Option (YoloBox K) :=
  if ext.rawArea ≤ 0 then none
  else if min ext.u1 win.x1 ≤ max ext.u0 win.x0 ∨ min ext.v1 win.y1 ≤ max ext.v0 win.y0 then none
  else if (ext.clippedBox win).visibleFrac < minVisibleFrac then none
  else if ext.clippedWidth win < minBoxPx ∨ ext.clippedHeight win < minBoxPx then none
  else some (ext.clippedBox win)

def yoloBox (cam : CameraModel K) (pos : Vec3 K) (q : Quat K) (mine : MinePose K)
    (dims : K × K × K) (minVisibleFrac minBoxPx : K) : Option (YoloBox K) := do
  let ext ← rawExtents cam pos q mine dims
  boxFromExtents ext ⟨0, 0, cam.widthPx, cam.heightPx⟩ minVisibleFrac minBoxPx

/-! ### Occlusion tables -/

/-- A table of measured occlusion. -/
structure Occlusion (K : Type) where
  schema : String
  seed : String
  scene : ℤ
  stationIndices : List ℤ
  visibleFrac : Dict String (Dict String K)

structure Manifest (K : Type) [Field K] [LinearOrder K] where
  schema : String
  seed : String
  scene : ℤ
  config : Except String (GenConfig K)
  stations : List (Option ℤ)

/-- `sorted(set(values))`. -/
def sortedSet (values : List ℤ) : List ℤ := values.dedup.insertionSort (· ≤ ·)

/-- The visible part of a mine, all of it where the table has none. -/
def Occlusion.fraction (occ : Occlusion K) (stem : String) (i : ℕ) : K :=
  ((occ.visibleFrac.get stem).bind fun fracs => fracs.get (toString i)).getD 1

/-- The configuration and the scene of a table, with the checks of its stations. -/
def sceneContext (out : String) (manifests : String → Option (Manifest K))
    (buildScene : GenConfig K → ℤ → Except String (Scene K)) (occ : Occlusion K) :
    Except String (GenConfig K × Scene K) := do
  refuseIf (occ.schema ≠ occlusionSchema) s!"expected {occlusionSchema}, got '{occ.schema}'"
  let manifestPath := s!"{out}/{occ.seed}_s{PaddedDigits.paddedInt 4 occ.scene}.manifest.json"
  let manifest ← getOr (manifests manifestPath) s!"missing scene manifest {manifestPath}"
  let readable := "', '".intercalate readableSchemas
  refuseIf (manifest.schema ∉ readableSchemas)
    s!"expected one of ['{readable}'], got '{manifest.schema}'"
  refuseIf (manifest.seed ≠ occ.seed ∨ manifest.scene ≠ occ.scene)
    "occlusion sidecar and manifest identify different scenes"
  let cfg ← manifest.config
  refuseIf (cfg.seed ≠ occ.seed) "manifest config seed does not match dataset identity"
  let scene ← buildScene cfg occ.scene
  refuseIf (occ.stationIndices ≠ sortedSet occ.stationIndices)
    "occlusion station_indices must be sorted and unique"
  refuseIf (∃ k ∈ occ.stationIndices, k < 0 ∨ scene.stations.length ≤ k)
    "occlusion station index outside the generated path"
  refuseIf (occ.stationIndices.map some ≠ manifest.stations)
    "occlusion and manifest station selections differ"
  let stems := occ.stationIndices.map (imageStem cfg scene)
  let named := occ.visibleFrac.entries.map Prod.fst
  refuseIf (¬ (named ⊆ stems ∧ stems ⊆ named))
    "occlusion entries do not exactly match selected stations"
  let mines := (List.range scene.mines.length).map toString
  occ.visibleFrac.entries.forM fun entry => do
    let named := entry.2.entries.map Prod.fst
    refuseIf (¬ (named ⊆ mines ∧ mines ⊆ named))
      s!"occlusion mine entries are incomplete for {entry.1}"
    refuseIf (∃ value ∈ entry.2.values, ¬ (0 ≤ value ∧ value ≤ 1))
      s!"invalid occlusion fraction for {entry.1}"
  return (cfg, scene)

/-! ### Shifted grids -/

structure TileParams (K : Type) [Field K] [LinearOrder K] where
  tile : ℤ
  overlap : ℤ
  emptyKeep : K
  fullframeFrac : K
  geometry : 1 ≤ tile ∧ 0 ≤ overlap ∧ overlap < tile
  fractions : (0 ≤ emptyKeep ∧ emptyKeep ≤ 1) ∧ 0 ≤ fullframeFrac ∧ fullframeFrac ≤ 1

/-- A generator of random numbers, a function of its seed. -/
structure TileRandom (K : Type) where
  State : Type
  seeded : String → State
  randrange : State → (stop : ℕ) → 0 < stop → Fin stop × State
  random : State → K × State

/-- The shifted origins with one more. An origin too near to the last one takes its place. -/
def shiftOrigin (spacing offset limit : ℤ) (shifted : List ℤ) (value : ℤ) : List ℤ :=
  let candidate := min (value + offset) limit
  match shifted.getLast? with
  | none => [candidate]
  | some last =>
    if 2 * (candidate - last) < spacing then shifted.dropLast ++ [candidate]
    else if candidate ≠ last then shifted ++ [candidate]
    else shifted

/-- The smallest distance of neighbours. -/
def minSpacing (values : List ℤ) : ℤ :=
  ((List.zipWith (fun a b => b - a) values values.tail).min?).getD 0

/-- The shifted origins of an axis, of which there is at least one. -/
def jitterAxis (values : List ℤ) (offset limit : ℤ) : List ℤ :=
  if values.length < 2 then values.map fun value => min (value + offset) limit
  else values.foldl (shiftOrigin (minSpacing values) offset limit) []

/-- The grid of a frame, shifted by an offset of less than half a tile. -/
def jittered (random : TileRandom K) (grid : List (ℤ × ℤ)) (w h tile : ℤ)
    (state : random.State) : Except String (List (ℤ × ℤ) × random.State) :=
  if hstop : 0 < (tile / 2).toNat then
    let (jx, state) := random.randrange state (tile / 2).toNat hstop
    let (jy, state) := random.randrange state (tile / 2).toNat hstop
    let xs := jitterAxis (sortedSet (grid.map Prod.fst)) (jx : ℕ) (w - tile)
    let ys := jitterAxis (sortedSet (grid.map Prod.snd)) (jy : ℕ) (h - tile)
    .ok (ys.flatMap fun y => xs.map fun x => (x, y), state)
  else .error "empty range for randrange()"

/-! ### Tiles -/

/-- A label and the mine that it is of, which its line does not say. -/
structure Label (K : Type) where
  mine : ℕ
  box : YoloBox K

/-- The labels of a window; `none` where a learnable mine keeps no label in it. -/
def windowLabels (cfg : GenConfig K) (fraction : ℕ → K) (minFrac : K) (win : Window K) :
    List (Option (Extents K) × ℕ) → Option (List (Label K))
  | [] => some []
  | (none, _) :: rest => windowLabels cfg fraction minFrac win rest
  | (some ext, i) :: rest =>
    match (boxFromExtents ext win cfg.minVisibleFrac cfg.minBoxPx).filter
        fun box => minFrac ≤ fraction i * box.visibleFrac with
    | some box => (windowLabels cfg fraction minFrac win rest).map (⟨i, box⟩ :: ·)
    | none =>
      if 0 < ext.rawArea ∧ min minFrac poisonMinFrac ≤ fraction i * ext.inter win / ext.rawArea
      then none
      else windowLabels cfg fraction minFrac win rest

/-- The labels for each window of a station. -/
def stationTiles (cfg : GenConfig K) (cam : CameraModel K) (st : Station K)
    (fraction : ℕ → K) (mines : List (MinePose K)) (windows : List (Window K)) (minFrac : K) :
    List (Option (List (Label K))) :=
  let extents := mines.map fun mine => rawExtents cam st.pos st.q mine cfg.mineDimsM
  windows.map fun win => windowLabels cfg fraction minFrac win extents.zipIdx

/-- An image as the index lists it. -/
structure IndexEntry where
  tile : String
  src : String
  x0 : ℤ
  y0 : ℤ
  full : Bool

/-- An image with the labels that were written for it. -/
structure TrainingImage (K : Type) extends IndexEntry where
  labels : List (Label K)

/-- The text of the label file. -/
def TrainingImage.text (image : TrainingImage K) : String :=
  String.join (image.labels.map fun label => label.box.line ++ "\n")

/-- The image of a tile. -/
def tileImage (stem : String) (origin : ℤ × ℤ) (labels : List (Label K)) : TrainingImage K where
  tile := s!"{stem}_x{PaddedDigits.paddedInt 4 origin.1}_y{PaddedDigits.paddedInt 4 origin.2}"
  src := stem
  x0 := origin.1
  y0 := origin.2
  full := false
  labels := labels

/-- The tiles of a station that are kept: the poisoned are left out, and the empty but for
some. -/
def keepTiles (random : TileRandom K) (emptyKeep : K) (stem : String) :
    List ((ℤ × ℤ) × Option (List (Label K))) → random.State →
      List (TrainingImage K) × random.State
  | [], state => ([], state)
  | (_, none) :: rest, state => keepTiles random emptyKeep stem rest state
  | (origin, some []) :: rest, state =>
    let (draw, state) := random.random state
    let (images, next) := keepTiles random emptyKeep stem rest state
    if emptyKeep ≤ draw then (images, next) else (tileImage stem origin [] :: images, next)
  | (origin, some (label :: labels)) :: rest, state =>
    let (images, next) := keepTiles random emptyKeep stem rest state
    (tileImage stem origin (label :: labels) :: images, next)

/-- The whole frame of a station; a box must be as large as it is on the letterboxed frame. -/
def frameImage (cfg : GenConfig K) (cam : CameraModel K) (st : Station K) (fraction : ℕ → K)
    (mines : List (MinePose K)) (minFrac : K) (stem : String) : TrainingImage K where
  tile := s!"{stem}_full"
  src := stem
  x0 := 0
  y0 := 0
  full := true
  labels := mines.zipIdx.filterMap fun (mine, i) =>
    ((yoloBox cam st.pos st.q mine cfg.mineDimsM cfg.minVisibleFrac
      (cfg.minBoxPx * cam.widthPx / fullframeModelPx)).filter
        fun box => minFrac ≤ fraction i * box.visibleFrac).map fun box => ⟨i, box⟩

/-- The tiles that are kept of one station, the number of poisoned ones and the generator
after them. -/
structure StationCut (K State : Type) where
  tiles : List (TrainingImage K)
  poisoned : ℕ
  state : State

/-- What a run has to work with. -/
structure TileJob (K : Type) [Field K] [LinearOrder K] where
  cfg : GenConfig K
  scene : Scene K
  occ : Occlusion K
  minFrac : K
  tp : TileParams K

namespace TileJob

variable (job : TileJob K)

/-- The camera with the tilt of the scene. -/
def cam : CameraModel K := { job.cfg.camera with tiltDeg := job.scene.tilt }

def stem (k : ℤ) : String := imageStem job.cfg job.scene k

def station (k : ℤ) : Except String (Station K) :=
  getOr job.scene.stations[k.toNat]? "list index out of range"

/-- The window of an image: the square of a tile, or the frame. -/
def window (image : TrainingImage K) : Window K :=
  if image.full then ⟨0, 0, job.cam.widthPx, job.cam.heightPx⟩
  else ⟨image.x0, image.y0, image.x0 + job.tp.tile, image.y0 + job.tp.tile⟩

def cutStation (random : TileRandom K) (k : ℤ) : Except String (StationCut K random.State) := do
  let grid ← Tiles.tileGrid job.cam.widthPx job.cam.heightPx job.tp.tile job.tp.overlap
  let st ← job.station k
  let (origins, state) ← jittered random grid job.cam.widthPx job.cam.heightPx job.tp.tile
    (random.seeded s!"{job.cfg.seed}:{job.stem k}:tiles")
  let windows : List (Window K) := origins.map fun origin : ℤ × ℤ =>
    ⟨origin.1, origin.2, origin.1 + job.tp.tile, origin.2 + job.tp.tile⟩
  let perWin := stationTiles job.cfg job.cam st (job.occ.fraction (job.stem k)) job.scene.mines
    windows job.minFrac
  let (tiles, state) := keepTiles random job.tp.emptyKeep (job.stem k) (origins.zip perWin) state
  return ⟨tiles, perWin.countP Option.isNone, state⟩

/-- The images of one station, with the number of poisoned tiles. -/
def tileStation (random : TileRandom K) (k : ℤ) : Except String (List (TrainingImage K) × ℕ) := do
  let cut ← job.cutStation random k
  let st ← job.station k
  if (random.random cut.state).1 < job.tp.fullframeFrac then
    return (cut.tiles ++ [frameImage job.cfg job.cam st (job.occ.fraction (job.stem k))
      job.scene.mines job.minFrac (job.stem k)], cut.poisoned)
  return (cut.tiles, cut.poisoned)

end TileJob

/-- The images of a scene in the index. -/
structure SceneTiles where
  tilePx : ℤ
  overlapPx : ℤ
  tiles : List IndexEntry

/-- The directory of a training set: its label files by name, and its index by scene. -/
structure TrainDir where
  labels : Dict String String
  index : Dict String SceneTiles

/-- What a run leaves: the images, the number of poisoned tiles and the directory. -/
structure Tiled (K : Type) where
  images : List (TrainingImage K)
  poisoned : ℕ
  train : TrainDir

/-- The label files after those of some images. -/
def writeLabels (labels : Dict String String) (images : List (TrainingImage K)) :
    Dict String String :=
  images.foldl (fun labels image => labels.set image.tile image.text) labels

/-- The key of a scene in the index. -/
def sceneKey (cfg : GenConfig K) (scene : Scene K) : String :=
  s!"{cfg.seed}_s{PaddedDigits.paddedInt 4 scene.index}"

/-- The tiles of a scene. -/
def tileScene (out : String) (manifests : String → Option (Manifest K))
    (buildScene : GenConfig K → ℤ → Except String (Scene K)) (random : TileRandom K)
    (train : TrainDir) (occ : Occlusion K) (minFrac : K) (tp : TileParams K) :
    Except String (Tiled K) := do
  let (cfg, scene) ← sceneContext out manifests buildScene occ
  let stations ← occ.stationIndices.mapM (TileJob.tileStation ⟨cfg, scene, occ, minFrac, tp⟩ random)
  let images := stations.flatMap Prod.fst
  return {
    images := images
    poisoned := (stations.map Prod.snd).sum
    train := {
      labels := writeLabels train.labels images
      index := train.index.set (sceneKey cfg scene)
        ⟨tp.tile, tp.overlap, images.map TrainingImage.toIndexEntry⟩ } }

/-- What is counted: the images, the poisoned tiles and the boxes. -/
def Tiled.counts (tiled : Tiled K) : ℕ × ℕ × ℕ :=
  (tiled.images.length, tiled.poisoned,
    (tiled.images.map fun image => image.labels.length).sum)

end Mission10.Dataset.Datagen
