import Mission10.Dataset.JitteredGrids
import Mission10.Library.PlainText

/-!
# Labels of training tiles

A tile that is listed has a label for every mine that could be learned from it: the
others are poisoned. The whole frame is listed without that check, and there the
thresholds of a label may leave out a mine that could be learned. Every image keeps a
label file of its own, because no two images of a scene have the same name.
-/
namespace Mission10.Dataset.Datagen

set_option linter.unusedSectionVars false

open Outcome Engine Sensing

variable {K : Type} [Field K] [LinearOrder K] [MathOps K]

/-! ### Names -/

section Names

theorem underscore_notMem_paddedInt (width : ℕ) (n : ℤ) :
    '_' ∉ (PaddedDigits.paddedInt width n).toList := by
  intro hmem
  rcases PaddedDigits.isDigit_or_sign_of_mem hmem with hdigit | hsign
  · exact absurd hdigit (by decide)
  · exact absurd hsign (by decide)

theorem imageStem_inj {cfg : GenConfig K} {scene : Scene K} {k other : ℤ}
    (h : imageStem cfg scene k = imageStem cfg scene other) : k = other := by
  have hlists := congrArg String.toList h
  simp only [imageStem, String.toList_append] at hlists
  exact PaddedDigits.paddedInt_injective 4
    (String.toList_injective (List.append_cancel_left hlists))

/-- The name of an image of a stem: that of a tile, or of the whole frame. -/
def imageName (stem : String) (x0 y0 : ℤ) (full : Bool) : String :=
  if full then s!"{stem}_full"
  else s!"{stem}_x{PaddedDigits.paddedInt 4 x0}_y{PaddedDigits.paddedInt 4 y0}"

/-- The name tells the stem, and where the tile is. -/
theorem imageName_inj {stem otherStem : String} {x0 y0 otherX otherY : ℤ} {full otherFull : Bool}
    (h : imageName stem x0 y0 full = imageName otherStem otherX otherY otherFull) :
    stem = otherStem ∧ full = otherFull ∧ (full = false → x0 = otherX ∧ y0 = otherY) := by
  have hlists := congrArg String.toList h
  have htile (stem : String) (x0 y0 : ℤ) : (imageName stem x0 y0 false).toList =
      (stem.toList ++ '_' :: ('x' :: (PaddedDigits.paddedInt 4 x0).toList)) ++
        '_' :: ('y' :: (PaddedDigits.paddedInt 4 y0).toList) := by
    have hx : "_x".toList = ['_', 'x'] := rfl
    have hy : "_y".toList = ['_', 'y'] := rfl
    show (stem ++ "_x" ++ PaddedDigits.paddedInt 4 x0 ++ "_y" ++
      PaddedDigits.paddedInt 4 y0).toList = _
    simp only [String.toList_append, hx, hy, List.append_assoc, List.cons_append, List.nil_append]
  have hframe (stem : String) (x0 y0 : ℤ) : (imageName stem x0 y0 true).toList =
      stem.toList ++ '_' :: ['f', 'u', 'l', 'l'] := by
    have hfull : "_full".toList = ['_', 'f', 'u', 'l', 'l'] := rfl
    show (stem ++ "_full").toList = _
    rw [String.toList_append, hfull]
  have hlast (c : Char) (hc : c ≠ '_') (n : ℤ) :
      '_' ∉ c :: (PaddedDigits.paddedInt 4 n).toList := by
    rw [List.mem_cons, not_or]
    exact ⟨hc.symm, underscore_notMem_paddedInt 4 n⟩
  cases full <;> cases otherFull
  · rw [htile, htile] at hlists
    obtain ⟨hfront, hy⟩ := PlainText.splitLast_inj (hlast 'y' (by decide) y0)
      (hlast 'y' (by decide) otherY) hlists
    obtain ⟨hstem, hx⟩ := PlainText.splitLast_inj (hlast 'x' (by decide) x0)
      (hlast 'x' (by decide) otherX) hfront
    refine ⟨String.toList_injective hstem, rfl, fun _ => ⟨?_, ?_⟩⟩
    · exact PaddedDigits.paddedInt_injective 4 (String.toList_injective (List.cons.inj hx).2)
    · exact PaddedDigits.paddedInt_injective 4 (String.toList_injective (List.cons.inj hy).2)
  · rw [htile, hframe] at hlists
    have hy := (PlainText.splitLast_inj (hlast 'y' (by decide) y0) (by decide) hlists).2
    exact absurd (List.cons.inj hy).1 (by decide)
  · rw [htile, hframe] at hlists
    have hy := (PlainText.splitLast_inj (by decide) (hlast 'y' (by decide) otherY) hlists).2
    exact absurd (List.cons.inj hy).1 (by decide)
  · rw [hframe, hframe] at hlists
    have hstem := (PlainText.splitLast_inj (by decide) (by decide) hlists).1
    exact ⟨String.toList_injective hstem, rfl, fun hfalse => absurd hfalse (by decide)⟩

end Names

/-! ### Label files -/

section Files

variable {images : List (TrainingImage K)} {image : TrainingImage K}

theorem get_writeLabels_of_notMem {labels : Dict String String} {name : String}
    (h : name ∉ images.map (·.tile)) : (writeLabels labels images).get name = labels.get name := by
  induction images generalizing labels with
  | nil => rfl
  | cons image images ih =>
    rw [List.map_cons, List.mem_cons, not_or] at h
    rw [writeLabels, List.foldl_cons]
    exact (ih h.2).trans (Dict.get_set_of_ne labels image.text h.1)

/-- Where no two images have the same name, each keeps its text. -/
theorem get_writeLabels {labels : Dict String String} (hnodup : (images.map (·.tile)).Nodup)
    (h : image ∈ images) : (writeLabels labels images).get image.tile = some image.text := by
  induction images generalizing labels with
  | nil => cases h
  | cons first images ih =>
    rw [List.map_cons, List.nodup_cons] at hnodup
    rw [writeLabels, List.foldl_cons]
    rcases List.mem_cons.mp h with rfl | h
    · exact (get_writeLabels_of_notMem hnodup.1).trans (Dict.get_set_self labels _ _)
    · exact ih hnodup.2 h

end Files

/-! ### Boxes -/

/-- The extents keep a label in a window, with some thresholds. -/
structure Survives (ext : Extents K) (win : Window K)
    (minVisibleFrac minBoxPx minFrac fraction : K) : Prop where
  rawArea : 0 < ext.rawArea
  share : minFrac ≤ fraction * ext.inter win / ext.rawArea
  visible : minVisibleFrac ≤ ext.inter win / ext.rawArea
  wide : minBoxPx ≤ ext.clippedWidth win
  high : minBoxPx ≤ ext.clippedHeight win

section Boxes

variable {ext : Extents K} {win : Window K} {minVisibleFrac minBoxPx minFrac fraction : K}
  {box : YoloBox K}

theorem box_eq (h : boxFromExtents ext win minVisibleFrac minBoxPx = some box) :
    box = ext.clippedBox win := by
  unfold boxFromExtents at h
  split_ifs at h
  exact (Option.some.inj h).symm

variable [IsStrictOrderedRing K]

theorem inter_eq (hwide : 0 < ext.clippedWidth win) (hhigh : 0 < ext.clippedHeight win) :
    ext.inter win = ext.clippedWidth win * ext.clippedHeight win := by
  rw [Extents.inter, max_eq_right hwide.le, max_eq_right hhigh.le]

/-- What is visible at all has a size. -/
theorem Survives.size (h : Survives ext win minVisibleFrac minBoxPx minFrac fraction)
    (hvisible : 0 < minVisibleFrac) :
    0 < ext.clippedWidth win ∧ 0 < ext.clippedHeight win := by
  have hinter : 0 < ext.inter win := by
    by_contra hnot
    have hnonpos := div_nonpos_of_nonpos_of_nonneg (not_lt.mp hnot) h.rawArea.le
    exact absurd (hvisible.trans_le h.visible) (not_lt.mpr hnonpos)
  constructor
  · by_contra hnot
    rw [Extents.inter, max_eq_left (not_lt.mp hnot), zero_mul] at hinter
    exact lt_irrefl 0 hinter
  · by_contra hnot
    rw [Extents.inter, max_eq_left (not_lt.mp hnot), mul_zero] at hinter
    exact lt_irrefl 0 hinter

/-- A box survives both checks exactly when the extents do. -/
theorem filter_box (hvisible : 0 < minVisibleFrac) :
    ((boxFromExtents ext win minVisibleFrac minBoxPx).filter
        fun box => minFrac ≤ fraction * box.visibleFrac) = some box ↔
      Survives ext win minVisibleFrac minBoxPx minFrac fraction ∧ box = ext.clippedBox win := by
  have hwidth : 0 < ext.clippedWidth win ↔ max ext.u0 win.x0 < min ext.u1 win.x1 := sub_pos
  have hheight : 0 < ext.clippedHeight win ↔ max ext.v0 win.y0 < min ext.v1 win.y1 := sub_pos
  rw [Option.filter_eq_some_iff]
  constructor
  · rintro ⟨hbox, hshare⟩
    obtain rfl := box_eq hbox
    unfold boxFromExtents at hbox
    split_ifs at hbox with harea hempty hseen hsmall
    push Not at harea hempty hseen hsmall
    have hinter := inter_eq (hwidth.mpr hempty.1) (hheight.mpr hempty.2)
    refine ⟨⟨harea, ?_, ?_, hsmall.1, hsmall.2⟩, rfl⟩
    · rw [hinter, mul_div_assoc]
      exact of_decide_eq_true hshare
    · rw [hinter]
      exact hseen
  · rintro ⟨h, rfl⟩
    obtain ⟨hwide, hhigh⟩ := h.size hvisible
    have hinter := inter_eq hwide hhigh
    have hshare := h.share
    have hseen : minVisibleFrac ≤ (ext.clippedBox win).visibleFrac := by
      have hvisible := h.visible
      rwa [hinter] at hvisible
    rw [hinter, mul_div_assoc] at hshare
    refine ⟨?_, decide_eq_true hshare⟩
    unfold boxFromExtents
    rw [if_neg h.rawArea.not_ge, if_neg, if_neg (not_lt.mpr hseen), if_neg]
    · exact not_or.mpr ⟨not_lt.mpr h.wide, not_lt.mpr h.high⟩
    · exact not_or.mpr ⟨not_le.mpr (hwidth.mp hwide), not_le.mpr (hheight.mp hhigh)⟩

end Boxes

/-! ### Windows -/

section Windows

variable {cfg : GenConfig K} {fractions : ℕ → K} {minFrac : K} {win : Window K}
  {extents : List (Option (Extents K) × ℕ)} {labels : List (Label K)}

/-- In a window that is not poisoned every learnable mine has a label. -/
theorem windowLabels_labelled (h : windowLabels cfg fractions minFrac win extents = some labels)
    {ext : Extents K} {i : ℕ} (hmem : (some ext, i) ∈ extents) (harea : 0 < ext.rawArea)
    (hshare : min minFrac poisonMinFrac ≤ fractions i * ext.inter win / ext.rawArea) :
    ∃ box, ⟨i, box⟩ ∈ labels := by
  induction extents generalizing labels with
  | nil => cases hmem
  | cons first extents ih =>
    obtain ⟨firstExt, j⟩ := first
    cases firstExt with
    | none =>
      rw [windowLabels] at h
      refine ih h ?_
      simpa using hmem
    | some firstExt =>
      rw [windowLabels] at h
      split at h
      · rename_i box hbox
        obtain ⟨rest, hrest, rfl⟩ := Option.map_eq_some_iff.mp h
        rcases List.mem_cons.mp hmem with heq | hmem
        · obtain ⟨-, rfl⟩ := Prod.mk.inj heq
          exact ⟨box, List.mem_cons_self⟩
        · obtain ⟨other, hother⟩ := ih hrest hmem
          exact ⟨other, List.mem_cons_of_mem _ hother⟩
      · split_ifs at h with hpoison
        rcases List.mem_cons.mp hmem with heq | hmem
        · obtain ⟨hext, rfl⟩ := Prod.mk.inj heq
          obtain rfl := Option.some.inj hext
          exact absurd ⟨harea, hshare⟩ hpoison
        · exact ih h hmem

/-- Every label is that of a mine, clipped to the window. -/
theorem windowLabels_own (h : windowLabels cfg fractions minFrac win extents = some labels)
    {label : Label K} (hlabel : label ∈ labels) :
    ∃ ext, (some ext, label.mine) ∈ extents ∧ label.box = ext.clippedBox win := by
  induction extents generalizing labels with
  | nil =>
    obtain rfl := Option.some.inj h
    cases hlabel
  | cons first extents ih =>
    have hrest {rest : List (Label K)}
        (hrest : windowLabels cfg fractions minFrac win extents = some rest)
        (hmem : label ∈ rest) : ∃ ext, (some ext, label.mine) ∈ first :: extents ∧
          label.box = ext.clippedBox win := by
      obtain ⟨ext, hext, hbox⟩ := ih hrest hmem
      exact ⟨ext, List.mem_cons_of_mem _ hext, hbox⟩
    obtain ⟨firstExt, j⟩ := first
    cases firstExt with
    | none => exact hrest (by rwa [windowLabels] at h) hlabel
    | some firstExt =>
      rw [windowLabels] at h
      split at h
      · rename_i box hbox
        obtain ⟨rest, hsome, rfl⟩ := Option.map_eq_some_iff.mp h
        rcases List.mem_cons.mp hlabel with rfl | hmem
        · refine ⟨firstExt, List.mem_cons_self, ?_⟩
          exact box_eq (Option.filter_eq_some_iff.mp hbox).1
        · exact hrest hsome hmem
      · split_ifs at h with hpoison
        exact hrest h hlabel

end Windows

/-! ### Stations -/

section Tiles

variable {random : TileRandom K} {emptyKeep : K} {stem : String}
  {tiles : List ((ℤ × ℤ) × Option (List (Label K)))} {state : random.State}

theorem keepTiles_mem {image : TrainingImage K}
    (h : image ∈ (keepTiles random emptyKeep stem tiles state).1) :
    ∃ origin labels, (origin, some labels) ∈ tiles ∧ image = tileImage stem origin labels := by
  induction tiles generalizing state with
  | nil => cases h
  | cons first tiles ih =>
    have hrest {state : random.State}
        (hmem : image ∈ (keepTiles random emptyKeep stem tiles state).1) :
        ∃ origin labels, (origin, some labels) ∈ first :: tiles ∧
          image = tileImage stem origin labels := by
      obtain ⟨origin, labels, htile, heq⟩ := ih hmem
      exact ⟨origin, labels, List.mem_cons_of_mem _ htile, heq⟩
    obtain ⟨origin, found⟩ := first
    rcases found with _ | _ | ⟨label, labels⟩
    · exact hrest h
    · simp only [keepTiles] at h
      split_ifs at h
      · exact hrest h
      · rcases List.mem_cons.mp h with rfl | h
        · exact ⟨origin, [], List.mem_cons_self, rfl⟩
        · exact hrest h
    · rcases List.mem_cons.mp h with rfl | h
      · exact ⟨origin, label :: labels, List.mem_cons_self, rfl⟩
      · exact hrest h

theorem keepTiles_sublist :
    ((keepTiles random emptyKeep stem tiles state).1.map fun image => (image.x0, image.y0)).Sublist
      (tiles.map Prod.fst) := by
  induction tiles generalizing state with
  | nil => exact List.Sublist.refl _
  | cons first tiles ih =>
    obtain ⟨origin, found⟩ := first
    rcases found with _ | _ | ⟨label, labels⟩
    · exact ih.cons origin
    · simp only [keepTiles]
      split_ifs
      · exact ih.cons origin
      · exact ih.cons_cons origin
    · exact ih.cons_cons origin

end Tiles

theorem nodup_grid {xs ys : List ℤ} (hxs : xs.Nodup) (hys : ys.Nodup) :
    (ys.flatMap fun y => xs.map fun x => (x, y)).Nodup := by
  rw [List.nodup_flatMap]
  constructor
  · intro y _
    exact hxs.map fun x other heq => congrArg Prod.fst heq
  · refine hys.imp ?_
    intro y other hne
    simp only [List.disjoint_left, List.mem_map]
    rintro _ ⟨x, -, rfl⟩ ⟨x', -, heq⟩
    exact hne (congrArg Prod.snd heq).symm

theorem jittered_nodup {random : TileRandom K} {grid origins : List (ℤ × ℤ)} {w h tile : ℤ}
    {state next : random.State} (hok : jittered random grid w h tile state = .ok (origins, next)) :
    origins.Nodup := by
  unfold jittered at hok
  split_ifs at hok
  obtain ⟨rfl, -⟩ := Prod.mk.inj (Except.ok.inj hok)
  exact nodup_grid (pairwise_jitterAxis (pairwise_sortedSet _)).nodup
    (pairwise_jitterAxis (pairwise_sortedSet _)).nodup

namespace TileJob

variable (job : TileJob K)

/-- The extents of a mine from a station. -/
def extents (k : ℤ) (i : ℕ) : Option (Extents K) := do
  let st ← job.scene.stations[k.toNat]?
  let mine ← job.scene.mines[i]?
  rawExtents job.cam st.pos st.q mine job.cfg.mineDimsM

variable {job : TileJob K} {k : ℤ} {st : Station K}

theorem extents_eq_some (hst : job.scene.stations[k.toNat]? = some st) {i : ℕ}
    {ext : Extents K} : job.extents k i = some ext ↔
      ∃ mine, job.scene.mines[i]? = some mine ∧
        rawExtents job.cam st.pos st.q mine job.cfg.mineDimsM = some ext := by
  rw [extents, hst, Option.bind_eq_bind, Option.bind_some]
  exact Option.bind_eq_some_iff

theorem mem_zipIdx_extents (hst : job.scene.stations[k.toNat]? = some st) {i : ℕ}
    {ext : Extents K} : (some ext, i) ∈ (job.scene.mines.map fun mine =>
      rawExtents job.cam st.pos st.q mine job.cfg.mineDimsM).zipIdx ↔
        job.extents k i = some ext := by
  rw [extents_eq_some hst, List.mk_mem_zipIdx_iff_getElem?, List.getElem?_map,
    Option.map_eq_some_iff]

variable {random : TileRandom K}

/-- What is known of the tiles of a station. -/
structure CutOf (job : TileJob K) (k : ℤ) (st : Station K) (tiles : List (TrainingImage K)) :
    Prop where
  nodup : (tiles.map fun image => (image.x0, image.y0)).Nodup
  labelled : ∀ image ∈ tiles, ∃ origin labels, image = tileImage (job.stem k) origin labels ∧
    windowLabels job.cfg (job.occ.fraction (job.stem k)) job.minFrac (job.window image)
      (job.scene.mines.map fun mine =>
        rawExtents job.cam st.pos st.q mine job.cfg.mineDimsM).zipIdx = some labels

theorem cutStation_ok {cut : StationCut K random.State} (h : job.cutStation random k = .ok cut) :
    ∃ st, job.scene.stations[k.toNat]? = some st ∧ CutOf job k st cut.tiles := by
  obtain ⟨grid, -, h⟩ := bind_ok h
  obtain ⟨st, hst, h⟩ := bind_ok h
  obtain ⟨⟨origins, state⟩, horigins, h⟩ := bind_ok h
  rw [station, getOr_eq_ok] at hst
  obtain rfl := Except.ok.inj h
  refine ⟨st, hst, ?_⟩
  have hzip (windows : List (Window K)) (hlength : windows.length = origins.length) :
      (origins.zip (stationTiles job.cfg job.cam st (job.occ.fraction (job.stem k))
        job.scene.mines windows job.minFrac)).map Prod.fst = origins :=
    List.map_fst_zip (by simp [stationTiles, hlength])
  constructor
  case nodup =>
    refine keepTiles_sublist.nodup ?_
    rw [hzip _ (List.length_map _)]
    exact jittered_nodup horigins
  case labelled =>
    intro image himage
    obtain ⟨origin, labels, hmem, rfl⟩ := keepTiles_mem himage
    refine ⟨origin, labels, rfl, ?_⟩
    rw [stationTiles, List.map_map, ← List.map_prod_left_eq_zip, List.mem_map] at hmem
    obtain ⟨other, -, heq⟩ := hmem
    obtain ⟨rfl, hlabels⟩ := Prod.mk.inj heq
    exact hlabels

/-- The slice of a station is taken: the draw after its tiles says so. -/
def SliceTaken (job : TileJob K) (random : TileRandom K) (k : ℤ) : Prop :=
  ∃ cut, job.cutStation random k = .ok cut ∧
    (random.random cut.state).1 < job.tp.fullframeFrac

/-- The whole frame of a station. -/
def frame (job : TileJob K) (k : ℤ) (st : Station K) : TrainingImage K :=
  frameImage job.cfg job.cam st (job.occ.fraction (job.stem k)) job.scene.mines job.minFrac
    (job.stem k)

def frameWindow (job : TileJob K) : Window K := ⟨0, 0, job.cam.widthPx, job.cam.heightPx⟩

/-- The least size of a box in the frame, for that of the letterboxed one. -/
def frameBoxPx (job : TileJob K) : K := job.cfg.minBoxPx * job.cam.widthPx / fullframeModelPx

theorem tileStation_ok {images : List (TrainingImage K)} {poisoned : ℕ}
    (h : job.tileStation random k = .ok (images, poisoned)) :
    ∃ st tiles, job.scene.stations[k.toNat]? = some st ∧ CutOf job k st tiles ∧
      ((job.SliceTaken random k ∧ images = tiles ++ [job.frame k st]) ∨
        (¬ job.SliceTaken random k ∧ images = tiles)) := by
  obtain ⟨cut, hcut, h⟩ := bind_ok h
  obtain ⟨st, hst, h⟩ := bind_ok h
  obtain ⟨found, hfound, htiles⟩ := cutStation_ok hcut
  rw [station, getOr_eq_ok] at hst
  obtain rfl := Option.some.inj (hfound.symm.trans hst)
  refine ⟨found, cut.tiles, hfound, htiles, ?_⟩
  split_ifs at h with hdraw
  · exact Or.inl ⟨⟨cut, hcut, hdraw⟩, (congrArg Prod.fst (Except.ok.inj h)).symm⟩
  · refine Or.inr ⟨?_, (congrArg Prod.fst (Except.ok.inj h)).symm⟩
    rintro ⟨other, hother, hless⟩
    obtain rfl := Except.ok.inj (hcut.symm.trans hother)
    exact hdraw hless

/-- The images of a station are named after it, and differently. -/
structure NamedAfter (stem : String) (images : List (TrainingImage K)) : Prop where
  src : ∀ image ∈ images, image.src = stem
  tile : ∀ image ∈ images, image.tile = imageName stem image.x0 image.y0 image.full
  nodup : (images.map (·.tile)).Nodup

theorem CutOf.namedAfter {tiles : List (TrainingImage K)} (h : CutOf job k st tiles) :
    NamedAfter (job.stem k) tiles := by
  have htile : ∀ image ∈ tiles, image.src = job.stem k ∧
      image.tile = imageName (job.stem k) image.x0 image.y0 false ∧ image.full = false := by
    intro image himage
    obtain ⟨origin, labels, rfl, -⟩ := h.labelled image himage
    exact ⟨rfl, rfl, rfl⟩
  constructor
  case src => exact fun image himage => (htile image himage).1
  case tile =>
    intro image himage
    rw [(htile image himage).2.2]
    exact (htile image himage).2.1
  case nodup =>
    have hmap : tiles.map (·.tile) = (tiles.map fun image => (image.x0, image.y0)).map
        fun origin : ℤ × ℤ => imageName (job.stem k) origin.1 origin.2 false := by
      rw [List.map_map]
      exact List.map_congr_left fun image himage => (htile image himage).2.1
    rw [hmap]
    refine h.nodup.map ?_
    intro origin other heq
    obtain ⟨hx, hy⟩ := (imageName_inj heq).2.2 rfl
    exact Prod.ext hx hy

theorem NamedAfter.snoc {tiles : List (TrainingImage K)} (h : NamedAfter (job.stem k) tiles)
    (hfull : ∀ image ∈ tiles, image.full = false) :
    NamedAfter (job.stem k) (tiles ++ [job.frame k st]) := by
  constructor
  case src =>
    simp only [List.mem_append, List.mem_singleton]
    rintro image (himage | rfl)
    · exact h.src image himage
    · rfl
  case tile =>
    simp only [List.mem_append, List.mem_singleton]
    rintro image (himage | rfl)
    · exact h.tile image himage
    · rfl
  case nodup =>
    rw [List.map_append, List.nodup_append]
    refine ⟨h.nodup, List.nodup_singleton _, ?_⟩
    simp only [List.mem_map, List.map_cons, List.map_nil, List.mem_singleton]
    rintro _ ⟨image, himage, rfl⟩ _ rfl heq
    have hname : imageName (job.stem k) image.x0 image.y0 image.full =
        imageName (job.stem k) 0 0 true := (h.tile image himage).symm.trans heq
    have hsame := (imageName_inj hname).2.1
    rw [hfull image himage] at hsame
    cases hsame

theorem tileStation_namedAfter {images : List (TrainingImage K)} {poisoned : ℕ}
    (h : job.tileStation random k = .ok (images, poisoned)) :
    NamedAfter (job.stem k) images := by
  obtain ⟨st, tiles, -, htiles, ⟨-, rfl⟩ | ⟨-, rfl⟩⟩ := tileStation_ok h
  · refine htiles.namedAfter.snoc ?_
    intro image himage
    obtain ⟨origin, labels, rfl, -⟩ := htiles.labelled image himage
    rfl
  · exact htiles.namedAfter

/-- The names of all images differ, because those of each station do. -/
theorem nodup_names {indices : List ℤ} {stations : List (List (TrainingImage K) × ℕ)}
    (hnodup : indices.Nodup) (h : indices.mapM (job.tileStation random) = .ok stations) :
    ((stations.flatMap Prod.fst).map (·.tile)).Nodup := by
  have hall := mapM_eq_ok.mp h
  clear h
  induction hall with
  | nil => exact List.nodup_nil
  | @cons k result indices stations hresult hrest ih =>
    obtain ⟨hk, hindices⟩ := List.nodup_cons.mp hnodup
    have hnamed := tileStation_namedAfter hresult
    rw [List.flatMap_cons, List.map_append, List.nodup_append]
    refine ⟨hnamed.nodup, ih hindices, ?_⟩
    simp only [List.mem_map]
    rintro _ ⟨image, himage, rfl⟩ _ ⟨other, hother, rfl⟩ heq
    obtain ⟨found, hfound, hmem⟩ := List.mem_flatMap.mp hother
    obtain ⟨k', hk', hstation⟩ := exists_left_of_forall₂ hrest hfound
    have hnamed' := tileStation_namedAfter hstation
    have hname := (hnamed.tile image himage).symm.trans (heq.trans (hnamed'.tile other hmem))
    obtain rfl := imageStem_inj (imageName_inj hname).1
    exact hk hk'

/-! ### Learnable mines -/

/-- Enough of a mine is visible in a window to learn from. -/
structure Learnable (job : TileJob K) (k : ℤ) (i : ℕ) (ext : Extents K) (win : Window K) :
    Prop where
  rawArea : 0 < ext.rawArea
  share : min job.minFrac poisonMinFrac ≤
    job.occ.fraction (job.stem k) i * ext.inter win / ext.rawArea

/-- No learnable mine of a listed image goes without a label: the image is in the index, its
file holds its labels, these are the boxes of mines in its window, and no mine is missed. -/
structure NoneUnlabelled (job : TileJob K) (tiled : Tiled K) : Prop where
  indexed : tiled.train.index.get (sceneKey job.cfg job.scene) =
    some ⟨job.tp.tile, job.tp.overlap, tiled.images.map TrainingImage.toIndexEntry⟩
  written : ∀ image ∈ tiled.images, tiled.train.labels.get image.tile = some image.text
  own : ∀ image ∈ tiled.images, ∀ k ∈ job.occ.stationIndices, image.src = job.stem k →
    ∀ label ∈ image.labels, ∃ ext, job.extents k label.mine = some ext ∧
      label.box = ext.clippedBox (job.window image)
  labelled : ∀ image ∈ tiled.images, ∀ k ∈ job.occ.stationIndices, image.src = job.stem k →
    ∀ i ext, job.extents k i = some ext → job.Learnable k i ext (job.window image) →
      ∃ box, ⟨i, box⟩ ∈ image.labels

/-- In every frame that is listed whole, the learnable mines meet the thresholds of a label. -/
def SlicesKeep (job : TileJob K) (random : TileRandom K) : Prop :=
  ∀ k ∈ job.occ.stationIndices, job.SliceTaken random k →
    ∀ i ext, job.extents k i = some ext → job.Learnable k i ext job.frameWindow →
      Survives ext job.frameWindow job.cfg.minVisibleFrac job.frameBoxPx job.minFrac
        (job.occ.fraction (job.stem k) i)

variable [IsStrictOrderedRing K]

/-- The labels of a whole frame are those of the mines that meet the thresholds. -/
theorem mem_labels_frame (hst : job.scene.stations[k.toNat]? = some st) {i : ℕ}
    {box : YoloBox K} : ⟨i, box⟩ ∈ (job.frame k st).labels ↔
      ∃ ext, job.extents k i = some ext ∧
        Survives ext job.frameWindow job.cfg.minVisibleFrac job.frameBoxPx job.minFrac
          (job.occ.fraction (job.stem k) i) ∧ box = ext.clippedBox job.frameWindow := by
  have hyolo (mine : MinePose K) (j : ℕ) :
      ((yoloBox job.cam st.pos st.q mine job.cfg.mineDimsM job.cfg.minVisibleFrac
          job.frameBoxPx).filter fun box =>
            job.minFrac ≤ job.occ.fraction (job.stem k) j * box.visibleFrac) = some box ↔
        ∃ ext, rawExtents job.cam st.pos st.q mine job.cfg.mineDimsM = some ext ∧
          Survives ext job.frameWindow job.cfg.minVisibleFrac job.frameBoxPx job.minFrac
            (job.occ.fraction (job.stem k) j) ∧ box = ext.clippedBox job.frameWindow := by
    cases hext : rawExtents job.cam st.pos st.q mine job.cfg.mineDimsM with
    | none => simp [yoloBox, hext]
    | some ext =>
      rw [yoloBox, hext, Option.bind_eq_bind, Option.bind_some]
      refine (filter_box job.cfg.visible.1).trans ?_
      simp [frameWindow]
  show _ ∈ List.filterMap _ _ ↔ _
  rw [List.mem_filterMap]
  constructor
  · rintro ⟨⟨mine, j⟩, hmine, hbox⟩
    obtain ⟨found, hfound, heq⟩ := Option.map_eq_some_iff.mp hbox
    obtain ⟨rfl, rfl⟩ := Label.mk.inj heq
    obtain ⟨ext, hext, hsurvives⟩ := (hyolo mine j).mp hfound
    exact ⟨ext, (extents_eq_some hst).mpr ⟨mine, List.mk_mem_zipIdx_iff_getElem?.mp hmine, hext⟩,
      hsurvives⟩
  · rintro ⟨ext, hext, hsurvives⟩
    obtain ⟨mine, hmine, hraw⟩ := (extents_eq_some hst).mp hext
    refine ⟨(mine, i), List.mk_mem_zipIdx_iff_getElem?.mpr hmine, ?_⟩
    exact Option.map_eq_some_iff.mpr ⟨box, (hyolo mine i).mpr ⟨ext, hraw, hsurvives⟩, rfl⟩

/-- In a tile that is kept every learnable mine has a label. -/
theorem CutOf.labelled_of_learnable {tiles : List (TrainingImage K)} (h : CutOf job k st tiles)
    (hst : job.scene.stations[k.toNat]? = some st) {image : TrainingImage K}
    (himage : image ∈ tiles) {i : ℕ} {ext : Extents K} (hext : job.extents k i = some ext)
    (hlearn : job.Learnable k i ext (job.window image)) : ∃ box, ⟨i, box⟩ ∈ image.labels := by
  obtain ⟨origin, labels, rfl, hlabels⟩ := h.labelled image himage
  exact windowLabels_labelled hlabels ((mem_zipIdx_extents hst).mpr hext) hlearn.rawArea
    hlearn.share

end TileJob

/-! ### Runs -/

section Runs

variable {out : String} {manifests : String → Option (Manifest K)}
  {buildScene : GenConfig K → ℤ → Except String (Scene K)} {random : TileRandom K}
  {train : TrainDir} {occ : Occlusion K} {minFrac : K} {tp : TileParams K} {cfg : GenConfig K}
  {scene : Scene K} {tiled : Tiled K}

/-- What the checks leave: the configuration of a manifest, its scene, and stations in order. -/
theorem sceneContext_ok (h : sceneContext out manifests buildScene occ = .ok (cfg, scene)) :
    (∃ path manifest, manifests path = some manifest ∧ manifest.config = .ok cfg) ∧
      buildScene cfg occ.scene = .ok scene ∧ occ.stationIndices = sortedSet occ.stationIndices := by
  obtain ⟨_, -, h⟩ := bind_ok h
  obtain ⟨manifest, hmanifest, h⟩ := bind_ok h
  obtain ⟨_, -, h⟩ := bind_ok h
  obtain ⟨_, -, h⟩ := bind_ok h
  obtain ⟨foundCfg, hcfg, h⟩ := bind_ok h
  obtain ⟨_, -, h⟩ := bind_ok h
  obtain ⟨foundScene, hscene, h⟩ := bind_ok h
  obtain ⟨_, hsorted, h⟩ := bind_ok h
  obtain ⟨_, -, h⟩ := bind_ok h
  obtain ⟨_, -, h⟩ := bind_ok h
  obtain ⟨_, -, h⟩ := bind_ok h
  obtain ⟨_, -, h⟩ := bind_ok h
  obtain ⟨rfl, rfl⟩ := Prod.mk.inj (pure_ok h)
  exact ⟨⟨_, manifest, getOr_eq_ok.mp hmanifest, hcfg⟩, hscene,
    not_not.mp (refuseIf_eq_ok.mp hsorted)⟩

theorem nodup_stationIndices (h : sceneContext out manifests buildScene occ = .ok (cfg, scene)) :
    occ.stationIndices.Nodup := by
  rw [(sceneContext_ok h).2.2]
  exact (pairwise_sortedSet _).nodup

theorem tileScene_ok (hcontext : sceneContext out manifests buildScene occ = .ok (cfg, scene))
    (h : tileScene out manifests buildScene random train occ minFrac tp = .ok tiled) :
    ∃ stations, occ.stationIndices.mapM
        (TileJob.tileStation ⟨cfg, scene, occ, minFrac, tp⟩ random) = .ok stations ∧
      tiled.images = stations.flatMap Prod.fst ∧
      tiled.train.labels = writeLabels train.labels tiled.images ∧
      tiled.train.index = train.index.set (sceneKey cfg scene)
        ⟨tp.tile, tp.overlap, tiled.images.map TrainingImage.toIndexEntry⟩ := by
  obtain ⟨⟨foundCfg, foundScene⟩, hfound, h⟩ := bind_ok h
  obtain ⟨rfl, rfl⟩ := Prod.mk.inj (Except.ok.inj (hcontext.symm.trans hfound))
  obtain ⟨stations, hstations, h⟩ := bind_ok h
  obtain rfl := Except.ok.inj h
  exact ⟨stations, hstations, rfl, rfl, rfl⟩

variable [IsStrictOrderedRing K]

/-- No learnable mine of a listed image goes without a label exactly when the frames that are
listed whole have no learnable mine below the thresholds of a label. -/
theorem none_unlabelled_iff
    (hcontext : sceneContext out manifests buildScene occ = .ok (cfg, scene))
    (h : tileScene out manifests buildScene random train occ minFrac tp = .ok tiled) :
    TileJob.NoneUnlabelled ⟨cfg, scene, occ, minFrac, tp⟩ tiled ↔
      TileJob.SlicesKeep ⟨cfg, scene, occ, minFrac, tp⟩ random := by
  obtain ⟨stations, hstations, himages, hlabels, hindex⟩ := tileScene_ok hcontext h
  generalize hjob : (⟨cfg, scene, occ, minFrac, tp⟩ : TileJob K) = job at hstations ⊢
  have hocc : job.occ.stationIndices = occ.stationIndices := by rw [← hjob]
  have hmem (image : TrainingImage K) (himage : image ∈ tiled.images) :
      ∃ k images poisoned, job.tileStation random k = .ok (images, poisoned) ∧
        image ∈ images := by
    rw [himages] at himage
    obtain ⟨⟨images, poisoned⟩, hresult, himage⟩ := List.mem_flatMap.mp himage
    obtain ⟨k, -, hstation⟩ := mem_of_mapM hstations hresult
    exact ⟨k, images, poisoned, hstation, himage⟩
  constructor
  · intro hnone k hk hslice i ext hext hlearn
    rw [hocc] at hk
    obtain ⟨⟨images, poisoned⟩, hresult, hstation⟩ := exists_of_mapM hstations hk
    obtain ⟨st, tiles, hst, -, ⟨-, rfl⟩ | ⟨hnot, -⟩⟩ := TileJob.tileStation_ok hstation
    · have himage : job.frame k st ∈ tiled.images := by
        rw [himages]
        exact List.mem_flatMap.mpr ⟨_, hresult, by simp⟩
      obtain ⟨box, hbox⟩ := hnone.labelled _ himage k (hocc ▸ hk) rfl i ext hext hlearn
      obtain ⟨found, hfound, hsurvives, -⟩ := (TileJob.mem_labels_frame hst).mp hbox
      obtain rfl := Option.some.inj (hext.symm.trans hfound)
      exact hsurvives
    · exact absurd hslice hnot
  · intro hkeep
    -- an image is that of the station that it names
    have hstation (image : TrainingImage K) (himage : image ∈ tiled.images) (k : ℤ)
        (hsrc : image.src = job.stem k) : ∃ st tiles, job.scene.stations[k.toNat]? = some st ∧
          TileJob.CutOf job k st tiles ∧
          (image ∈ tiles ∨ job.SliceTaken random k ∧ image = job.frame k st) := by
      obtain ⟨other, images, poisoned, hok, hmember⟩ := hmem image himage
      obtain rfl := imageStem_inj
        (hsrc.symm.trans ((TileJob.tileStation_namedAfter hok).src image hmember))
      obtain ⟨st, tiles, hst, htiles, ⟨hslice, rfl⟩ | ⟨-, rfl⟩⟩ := TileJob.tileStation_ok hok
      · refine ⟨st, tiles, hst, htiles, ?_⟩
        rcases List.mem_append.mp hmember with hmember | hmember
        · exact Or.inl hmember
        · exact Or.inr ⟨hslice, List.mem_singleton.mp hmember⟩
      · exact ⟨st, images, hst, htiles, Or.inl hmember⟩
    constructor
    case indexed =>
      subst hjob
      rw [hindex]
      exact Dict.get_set_self _ _ _
    case written =>
      intro image himage
      rw [hlabels]
      refine get_writeLabels ?_ himage
      rw [himages]
      exact TileJob.nodup_names (nodup_stationIndices hcontext) hstations
    case own =>
      intro image himage k _ hsrc label hlabel
      obtain ⟨st, tiles, hst, htiles, htile | ⟨-, rfl⟩⟩ := hstation image himage k hsrc
      · obtain ⟨origin, labels, rfl, hwindow⟩ := htiles.labelled image htile
        obtain ⟨ext, hext, hbox⟩ := windowLabels_own hwindow hlabel
        exact ⟨ext, (TileJob.mem_zipIdx_extents hst).mp hext, hbox⟩
      · obtain ⟨ext, hext, -, hbox⟩ := (TileJob.mem_labels_frame hst).mp hlabel
        exact ⟨ext, hext, hbox⟩
    case labelled =>
      intro image himage k hk hsrc i ext hext hlearn
      obtain ⟨st, tiles, hst, htiles, htile | ⟨hslice, rfl⟩⟩ := hstation image himage k hsrc
      · exact htiles.labelled_of_learnable hst htile hext hlearn
      · have hsurvives := hkeep k hk hslice i ext hext hlearn
        exact ⟨_, (TileJob.mem_labels_frame hst).mpr ⟨ext, hext, hsurvives, rfl⟩⟩

end Runs

/-! ### A buried mine -/

section Sample

def oneMineConfig : GenConfig ℚ where
  seed := "m10"
  camera := ⟨640, 640, 90, 0, by decide, by decide⟩
  mineDimsM := (12 / 100, 61 / 1000, 20 / 1000)
  minVisibleFrac := 1 / 4
  minBoxPx := 4
  visible := by norm_num

/-- One mine, straight below one station. -/
def oneMineScene : Scene ℚ where
  index := 0
  mines := [⟨0, 0, 0⟩]
  stations := [⟨⟨0, 0, -1⟩, ⟨1, 0, 0, 0⟩⟩]
  tilt := 0

def oneMineManifests : String → Option (Manifest ℚ) :=
  fun _ => some ⟨"minefield-datagen/7", "m10", 0, .ok oneMineConfig, [some 0]⟩

/-- The mine is seen by a fraction. -/
def oneMineTable (fraction : ℚ) : Occlusion ℚ where
  schema := occlusionSchema
  seed := "m10"
  scene := 0
  stationIndices := [0]
  visibleFrac := ⟨[("m10_s0000_k0000", ⟨[("0", fraction)], by simp⟩)], by simp⟩

/-- Tiles as large as the frame, and every frame whole. -/
def wholeFrames : TileParams ℚ where
  tile := 640
  overlap := 192
  emptyKeep := 1
  fullframeFrac := 1
  geometry := by decide
  fractions := by norm_num

/-- The run on the table, from an empty directory. -/
def oneMineRun (fraction : ℚ) : Except String (Tiled ℚ) :=
  tileScene "out" oneMineManifests (fun _ _ => .ok oneMineScene) lastRandom
    ⟨Dict.empty, Dict.empty⟩ (oneMineTable fraction) (2 / 5) wholeFrames

/-- The checks pass for any measured fraction that is tried here. -/
theorem oneMine_context {fraction : ℚ}
    (h : (sceneContext "out" oneMineManifests (fun _ _ => .ok oneMineScene)
      (oneMineTable fraction)).isOk = true) :
    sceneContext "out" oneMineManifests (fun _ _ => .ok oneMineScene) (oneMineTable fraction) =
      .ok (oneMineConfig, oneMineScene) := by
  obtain ⟨⟨cfg, scene⟩, hcontext⟩ := ok_of_isOk h
  obtain ⟨⟨path, manifest, hmanifest, hcfg⟩, hscene, -⟩ := sceneContext_ok hcontext
  obtain rfl := Option.some.inj hmanifest
  obtain rfl := Except.ok.inj hcfg
  obtain rfl := Except.ok.inj hscene
  exact hcontext

def oneMineJob (fraction : ℚ) : TileJob ℚ :=
  ⟨oneMineConfig, oneMineScene, oneMineTable fraction, 2 / 5, wholeFrames⟩

/-- The tile of a mine that is seen by three tenths is poisoned, and the frame with the same
pixels is listed without a label. -/
theorem buried_mine_unlabelled :
    ∃ tiled, oneMineRun (3 / 10) = .ok tiled ∧ tiled.poisoned = 1 ∧
      ¬ TileJob.NoneUnlabelled (oneMineJob (3 / 10)) tiled := by
  have hrun : (oneMineRun (3 / 10)).toOption.map (fun tiled => (tiled.poisoned,
      tiled.images.map fun image => (image.src, image.full, image.labels.length))) =
        some (1, [("m10_s0000_k0000", true, 0)]) := by decide +kernel
  obtain ⟨tiled, htiled, hresult⟩ := Option.map_eq_some_iff.mp hrun
  obtain ⟨hpoisoned, himages⟩ := Prod.mk.inj hresult
  refine ⟨tiled, ok_of_toOption htiled, hpoisoned, ?_⟩
  intro hnone
  have hmem : ("m10_s0000_k0000", true, 0) ∈ tiled.images.map fun image =>
      (image.src, image.full, image.labels.length) := by
    rw [himages]
    exact List.mem_singleton_self _
  obtain ⟨image, himage, heq⟩ := List.mem_map.mp hmem
  obtain ⟨hsrc, heq⟩ := Prod.mk.inj heq
  obtain ⟨hfull, hlabels⟩ := Prod.mk.inj heq
  have hstem : (oneMineJob (3 / 10)).stem 0 = "m10_s0000_k0000" := by decide +kernel
  have hwindow : (oneMineJob (3 / 10)).window image = (oneMineJob (3 / 10)).frameWindow := by
    rw [TileJob.window, hfull, if_pos rfl]
    rfl
  have hlearn : ∃ ext ∈ (oneMineJob (3 / 10)).extents 0 0, 0 < ext.rawArea ∧
      min (2 / 5) poisonMinFrac ≤ (oneMineJob (3 / 10)).occ.fraction
        ((oneMineJob (3 / 10)).stem 0) 0 * ext.inter (oneMineJob (3 / 10)).frameWindow /
          ext.rawArea := by decide +kernel
  obtain ⟨ext, hext, harea, hshare⟩ := hlearn
  obtain ⟨box, hbox⟩ := hnone.labelled image himage 0 (List.mem_singleton_self 0)
    (hsrc.trans hstem.symm) 0 ext hext ⟨harea, hwindow ▸ hshare⟩
  rw [List.eq_nil_of_length_eq_zero hlabels] at hbox
  cases hbox

/-- A mine that is seen whole has its labels in the tile and in the frame. -/
theorem none_unlabelled_whole_mine :
    ∃ tiled, oneMineRun 1 = .ok tiled ∧ TileJob.NoneUnlabelled (oneMineJob 1) tiled := by
  obtain ⟨tiled, hrun⟩ := ok_of_isOk (show (oneMineRun 1).isOk = true by decide +kernel)
  refine ⟨tiled, hrun, (none_unlabelled_iff (oneMine_context (by decide +kernel)) hrun).mpr ?_⟩
  intro k hk _ i ext hext _
  obtain rfl := List.mem_singleton.mp hk
  cases i with
  | zero =>
    have hkept : ∀ ext ∈ (oneMineJob 1).extents 0 0, 0 < ext.rawArea ∧
        2 / 5 ≤ (oneMineJob 1).occ.fraction ((oneMineJob 1).stem 0) 0 *
          ext.inter (oneMineJob 1).frameWindow / ext.rawArea ∧
        1 / 4 ≤ ext.inter (oneMineJob 1).frameWindow / ext.rawArea ∧
        (oneMineJob 1).frameBoxPx ≤ ext.clippedWidth (oneMineJob 1).frameWindow ∧
        (oneMineJob 1).frameBoxPx ≤ ext.clippedHeight (oneMineJob 1).frameWindow := by
      decide +kernel
    obtain ⟨harea, hshare, hvisible, hwide, hhigh⟩ := hkept ext hext
    exact ⟨harea, hshare, hvisible, hwide, hhigh⟩
  | succ i =>
    have hst : (oneMineJob 1).scene.stations[(0 : ℤ).toNat]? = some ⟨⟨0, 0, -1⟩, ⟨1, 0, 0, 0⟩⟩ :=
      rfl
    obtain ⟨mine, hmine, -⟩ := (TileJob.extents_eq_some hst).mp hext
    cases hmine

end Sample

end Mission10.Dataset.Datagen
