import Mission10.Library.EvenSpacing
import Mission10.Sensing.TileMerges

/-!
# Tile grids

Frames are cut into square tiles. The flight software takes the fewest tiles
that cover an axis, the shared grid the fewest that also leave an overlap; both
spread them evenly and round the origins. Divisions are exact.
-/
namespace Mission10.Sensing

open EvenSpacing GreedySelection

namespace MineDetector

def tileSize : ℤ := 640

/-- The origins on one axis. -/
def axis (tile extent : ℤ) : List ℤ :=
  if extent ≤ tile then [0]
  else
    let steps : ℤ := ⌈((extent - tile : ℤ) : ℚ) / (tile : ℚ)⌉
    let stride : ℚ := ((extent - tile : ℤ) : ℚ) / steps
    (List.range (steps + 1).toNat).map fun index : ℕ => roundHalfEven (index * stride)

def tileOrigins (width height : ℤ) (tile : ℤ := tileSize) : List (ℤ × ℤ) :=
  (axis tile height).flatMap fun y => (axis tile width).map fun x => (x, y)

/-- The detections of a frame: those of the backend on every tile, merged. -/
def detectFrame (infer : ℤ × ℤ → List Box) (width height : ℤ) (tile : ℤ := tileSize)
    (iouThreshold : ℚ := defaultDedupIou) : List Box :=
  dedupBoxes ((tileOrigins width height tile).flatMap fun origin =>
    (infer origin).map fun box => { box with x := box.x + origin.1, y := box.y + origin.2 })
    iouThreshold

end MineDetector

namespace Tiles

def axis (tile overlap extent : ℤ) : List ℤ :=
  if extent ≤ tile then [0]
  else
    let n : ℤ := 1 + ⌈((extent - tile : ℤ) : ℚ) / ((tile - overlap : ℤ) : ℚ)⌉
    let span := extent - tile
    (List.range n.toNat).map fun i : ℕ => roundHalfEven (i * span / (n - 1 : ℤ))

/-- The shared grid; an error is a `ValueError`. -/
def tileGrid (width height : ℤ) (tile : ℤ := 640) (overlap : ℤ := 192) :
    Except String (List (ℤ × ℤ)) :=
  if ¬ (0 ≤ overlap ∧ overlap < tile) then
    .error s!"need 0 <= overlap < tile, got {overlap} vs {tile}"
  else if width < 1 ∨ height < 1 then .error s!"bad frame {width}x{height}"
  else
    .ok ((axis tile overlap height).flatMap fun y => (axis tile overlap width).map fun x => (x, y))

end Tiles

/-- A box inside the frame with no side longer than the overlap. -/
structure SmallBox (width height overlap : ℤ) where
  x0 : ℚ
  y0 : ℚ
  x1 : ℚ
  y1 : ℚ
  inFrame : 0 ≤ x0 ∧ 0 ≤ y0 ∧ x1 ≤ width ∧ y1 ≤ height
  small : x1 - x0 ≤ overlap ∧ y1 - y0 ≤ overlap

/-- Some tile holds the whole box. -/
def SmallBox.Whole {width height overlap : ℤ} (box : SmallBox width height overlap)
    (tile : ℤ) (origins : List (ℤ × ℤ)) : Prop :=
  ∃ origin ∈ origins, (origin.1 : ℚ) ≤ box.x0 ∧ box.x1 ≤ origin.1 + tile ∧
    (origin.2 : ℚ) ≤ box.y0 ∧ box.y1 ≤ origin.2 + tile

/-- One geometry: the grids are equal, and every small box lies whole in a tile. -/
structure OneGeometry (width height : ℤ) : Prop where
  sameGrid : Tiles.tileGrid width height = .ok (MineDetector.tileOrigins width height)
  whole : ∀ box : SmallBox width height 192,
    box.Whole MineDetector.tileSize (MineDetector.tileOrigins width height)

/-- The extents that need as many tiles with the overlap as without it. -/
def AgreeingExtent (extent : ℤ) : Prop :=
  1 ≤ extent ∧ extent ≤ 1088 ∨ 1281 ≤ extent ∧ extent ≤ 1536 ∨ 1921 ≤ extent ∧ extent ≤ 1984

/-! ### The axes -/

/-- The number of steps, as an integer division. -/
theorem steps_pos {span step : ℤ} (hspan : 0 < span) (hstep : 0 < step) :
    0 < ⌈(span : ℚ) / (step : ℚ)⌉ := by
  apply Int.ceil_pos.mpr
  exact div_pos (Int.cast_pos.mpr hspan) (Int.cast_pos.mpr hstep)

theorem flightAxis_eq {tile extent : ℤ} (htile : 0 < tile) (hlong : tile < extent) :
    MineDetector.axis tile extent =
      evenGrid (extent - tile) ⌈((extent - tile : ℤ) : ℚ) / (tile : ℚ)⌉.toNat := by
  have hpos := steps_pos (sub_pos.mpr hlong) htile
  unfold MineDetector.axis evenGrid
  rw [if_neg (not_le.mpr hlong)]
  dsimp only
  generalize ⌈((extent - tile : ℤ) : ℚ) / (tile : ℚ)⌉ = steps at hpos ⊢
  obtain ⟨n, rfl⟩ := Int.eq_ofNat_of_zero_le hpos.le
  have hnat : ((n : ℤ) + 1).toNat = n + 1 := by omega
  rw [hnat, Int.toNat_natCast]
  apply List.map_congr_left
  intro i _
  rw [mul_div_assoc, Int.cast_natCast]

theorem sharedAxis_eq {tile overlap extent : ℤ} (hoverlap : overlap < tile)
    (hlong : tile < extent) :
    Tiles.axis tile overlap extent =
      evenGrid (extent - tile) ⌈((extent - tile : ℤ) : ℚ) / ((tile - overlap : ℤ) : ℚ)⌉.toNat := by
  have hpos := steps_pos (sub_pos.mpr hlong) (sub_pos.mpr hoverlap)
  unfold Tiles.axis evenGrid
  rw [if_neg (not_le.mpr hlong)]
  dsimp only
  generalize ⌈((extent - tile : ℤ) : ℚ) / ((tile - overlap : ℤ) : ℚ)⌉ = steps at hpos ⊢
  obtain ⟨n, rfl⟩ := Int.eq_ofNat_of_zero_le hpos.le
  have hnat : (1 + (n : ℤ)).toNat = n + 1 := by omega
  rw [hnat, Int.toNat_natCast]
  apply List.map_congr_left
  intro i _
  rw [add_sub_cancel_left, Int.cast_natCast]

theorem ceil_640 (span : ℤ) : ⌈(span : ℚ) / ((640 : ℤ) : ℚ)⌉ = -(-span / 640) :=
  Rat.ceil_intCast_div_natCast span 640

theorem ceil_448 (span : ℤ) : ⌈(span : ℚ) / ((640 - 192 : ℤ) : ℚ)⌉ = -(-span / 448) :=
  Rat.ceil_intCast_div_natCast span 448

/-- The number of tiles on an axis of the shared grid. -/
theorem length_sharedAxis (extent : ℤ) :
    ((Tiles.axis 640 192 extent).length : ℤ) =
      if extent ≤ 640 then 1 else -(-(extent - 640) / 448) + 1 := by
  split_ifs with hshort
  · rw [Tiles.axis, if_pos hshort]
    rfl
  · rw [sharedAxis_eq (by decide) (not_le.mp hshort), length_evenGrid, ceil_448]
    omega

theorem length_flightAxis (extent : ℤ) :
    ((MineDetector.axis 640 extent).length : ℤ) =
      if extent ≤ 640 then 1 else -(-(extent - 640) / 640) + 1 := by
  split_ifs with hshort
  · rw [MineDetector.axis, if_pos hshort]
    rfl
  · rw [flightAxis_eq (by decide) (not_le.mp hshort), length_evenGrid, ceil_640]
    omega

/-- Flight never cuts an axis into more tiles. -/
theorem length_axis_le (extent : ℤ) :
    (MineDetector.axis 640 extent).length ≤ (Tiles.axis 640 192 extent).length := by
  have hflight := length_flightAxis extent
  have hshared := length_sharedAxis extent
  split_ifs at hflight hshared <;> omega

theorem length_axis_eq_iff {extent : ℤ} (hextent : 1 ≤ extent) :
    (MineDetector.axis 640 extent).length = (Tiles.axis 640 192 extent).length ↔
      AgreeingExtent extent := by
  have hflight := length_flightAxis extent
  have hshared := length_sharedAxis extent
  unfold AgreeingExtent
  split_ifs at hflight hshared <;> omega

/-- As many tiles on an axis means the same tiles. -/
theorem axis_eq_of_length {extent : ℤ}
    (h : (MineDetector.axis 640 extent).length = (Tiles.axis 640 192 extent).length) :
    MineDetector.axis 640 extent = Tiles.axis 640 192 extent := by
  by_cases hshort : extent ≤ 640
  · rw [MineDetector.axis, Tiles.axis, if_pos hshort, if_pos hshort]
  · rw [flightAxis_eq (by decide) (not_le.mp hshort),
      sharedAxis_eq (by decide) (not_le.mp hshort)] at h ⊢
    rw [length_evenGrid, length_evenGrid] at h
    rw [Nat.succ_injective h]

/-! ### The grids -/

theorem length_grid (xs ys : List ℤ) :
    (ys.flatMap fun y => xs.map fun x => (x, y)).length = ys.length * xs.length := by
  simp [List.length_flatMap]

theorem axis_length_pos (extent : ℤ) : 0 < (MineDetector.axis 640 extent).length := by
  have hflight := length_flightAxis extent
  split_ifs at hflight <;> omega

/-- The grids are equal exactly when both axes of the frame agree. -/
theorem sameGrid_iff (width height : ℤ) :
    Tiles.tileGrid width height = .ok (MineDetector.tileOrigins width height) ↔
      AgreeingExtent width ∧ AgreeingExtent height := by
  unfold Tiles.tileGrid MineDetector.tileOrigins MineDetector.tileSize
  rw [if_neg (by decide)]
  split_ifs with hbad
  · constructor
    · intro h
      cases h
    · rintro ⟨hwidth, hheight⟩
      unfold AgreeingExtent at hwidth hheight
      omega
  · push Not at hbad
    rw [← length_axis_eq_iff hbad.1, ← length_axis_eq_iff hbad.2, Except.ok.injEq]
    constructor
    · intro h
      have hlen := congrArg List.length h
      rw [length_grid, length_grid] at hlen
      have hx := length_axis_le width
      have hy := length_axis_le height
      have hx' := axis_length_pos width
      have hy' := axis_length_pos height
      constructor
      · by_contra hne
        have hlt := lt_of_le_of_ne hx hne
        exact absurd hlen (Nat.mul_lt_mul_of_le_of_lt hy hlt (hy'.trans_le hy)).ne'
      · by_contra hne
        have hlt := lt_of_le_of_ne hy hne
        exact absurd hlen (Nat.mul_lt_mul_of_lt_of_le hlt hx (hx'.trans_le hx)).ne'
    · rintro ⟨hx, hy⟩
      rw [axis_eq_of_length hx, axis_eq_of_length hy]

/-- On an agreeing axis every short interval lies in one tile. -/
theorem axis_covers {extent : ℤ} (h : AgreeingExtent extent) {left right : ℚ}
    (hleft : 0 ≤ left) (hright : right ≤ extent) (hsmall : right - left ≤ 192) :
    ∃ origin ∈ MineDetector.axis 640 extent, (origin : ℚ) ≤ left ∧ right ≤ origin + 640 := by
  have hextent : 1 ≤ extent := by
    unfold AgreeingExtent at h
    omega
  rw [axis_eq_of_length ((length_axis_eq_iff hextent).mpr h)]
  by_cases hshort : extent ≤ 640
  · rw [Tiles.axis, if_pos hshort]
    have hcast : (extent : ℚ) ≤ 640 := by exact_mod_cast hshort
    refine ⟨0, List.mem_singleton_self 0, by simpa using hleft, ?_⟩
    push_cast
    linarith
  · have hceil := ceil_448 (extent - 640)
    rw [sharedAxis_eq (by decide) (not_le.mp hshort), hceil]
    have hreach : extent - 640 ≤ ((-(-(extent - 640) / 448)).toNat : ℤ) * 448 := by omega
    refine evenGrid_covers ?_ ?_ hreach hleft ?_ ?_
    · omega
    · omega
    · push_cast
      linarith
    · push_cast
      linarith

theorem mem_tileOrigins {width height tile x y : ℤ} :
    (x, y) ∈ MineDetector.tileOrigins width height tile ↔
      x ∈ MineDetector.axis tile width ∧ y ∈ MineDetector.axis tile height := by
  simp [MineDetector.tileOrigins, and_comm]

theorem mem_detectFrame {infer : ℤ × ℤ → List MineDetector.Box} {width height tile : ℤ}
    {iouThreshold : ℚ} {box : MineDetector.Box}
    (h : box ∈ MineDetector.detectFrame infer width height tile iouThreshold) :
    ∃ origin ∈ MineDetector.tileOrigins width height tile, ∃ found ∈ infer origin,
      box = { found with x := found.x + origin.1, y := found.y + origin.2 } := by
  have hmem := (List.mergeSort_perm _ _).subset (mem_of_mem_select _ h)
  obtain ⟨origin, horigin, hbox⟩ := List.mem_flatMap.mp hmem
  obtain ⟨found, hfound, rfl⟩ := List.mem_map.mp hbox
  exact ⟨origin, horigin, found, hfound, rfl⟩

/-- Flight and training cut a frame alike, and every small object is seen whole in
flight, exactly when both extents need no more tiles for the overlap. -/
theorem one_geometry_iff (width height : ℤ) :
    OneGeometry width height ↔ AgreeingExtent width ∧ AgreeingExtent height := by
  constructor
  · intro h
    exact (sameGrid_iff width height).mp h.sameGrid
  · rintro ⟨hwidth, hheight⟩
    refine ⟨(sameGrid_iff width height).mpr ⟨hwidth, hheight⟩, ?_⟩
    intro box
    obtain ⟨hx, hy, hx', hy'⟩ := box.inFrame
    obtain ⟨x, hxmem, hxleft, hxright⟩ := axis_covers hwidth hx hx' (by simpa using box.small.1)
    obtain ⟨y, hymem, hyleft, hyright⟩ := axis_covers hheight hy hy' (by simpa using box.small.2)
    refine ⟨(x, y), mem_tileOrigins.mpr ⟨hxmem, hymem⟩, hxleft, ?_, hyleft, ?_⟩
    · simpa [MineDetector.tileSize] using hxright
    · simpa [MineDetector.tileSize] using hyright

/-- A box over the seam of the first two flight tiles of the camera's frame. -/
def seamBox : SmallBox 1640 1232 192 where
  x0 := 470
  y0 := 0
  x1 := 650
  y1 := 100
  inFrame := by decide +kernel
  small := by decide +kernel

/-- On the camera's frame flight cuts six tiles where training cuts twelve, and no
flight tile holds the box. -/
theorem camera_frame_differs :
    (MineDetector.tileOrigins 1640 1232).length = 6 ∧
    (Tiles.tileGrid 1640 1232).map List.length = .ok 12 ∧
    ¬ seamBox.Whole MineDetector.tileSize (MineDetector.tileOrigins 1640 1232) := by
  have horigins : MineDetector.tileOrigins 1640 1232 =
      [(0, 0), (500, 0), (1000, 0), (0, 592), (500, 592), (1000, 592)] := by decide +kernel
  refine ⟨by rw [horigins]; rfl, by decide +kernel, ?_⟩
  rw [horigins]
  unfold SmallBox.Whole
  decide +kernel

/-! ### The shared grid on a long axis -/

/-- Windows from edge to edge, in order, each overlapping the one before it. -/
structure EdgeToEdge (tile overlap extent : ℤ) (windows : List ℚ) : Prop where
  first : ∀ x ∈ windows.head?, x ≤ 0
  last : ∃ x ∈ windows.getLast?, (extent : ℚ) ≤ x + tile
  overlapping : windows.IsChain fun x y : ℚ => y + overlap ≤ x + tile

/-- The origins of tiles on an axis that is longer than a tile. -/
structure EvenCover (tile overlap extent : ℤ) (origins : List ℤ) : Prop where
  inside : ∀ x ∈ origins, 0 ≤ x ∧ x + tile ≤ extent
  first : origins.head? = some 0
  last : origins.getLast? = some (extent - tile)
  increasing : origins.IsChain (· < ·)
  spaced : origins.IsChain fun x y => y - x ≤ tile - overlap
  covered : ∀ pixel, 0 ≤ pixel → pixel < extent → ∃ x ∈ origins, x ≤ pixel ∧ pixel < x + tile
  whole : ∀ left right : ℚ, 0 ≤ left → right ≤ extent → right - left ≤ overlap →
    ∃ x ∈ origins, (x : ℚ) ≤ left ∧ right ≤ x + tile
  fewest : ∀ windows, EdgeToEdge tile overlap extent windows → origins.length ≤ windows.length

theorem ceil_le_of_edgeToEdge {tile overlap extent : ℤ} (hoverlap : overlap < tile)
    {windows : List ℚ} (h : EdgeToEdge tile overlap extent windows) :
    ⌈((extent - tile : ℤ) : ℚ) / ((tile - overlap : ℤ) : ℚ)⌉ ≤ windows.length - 1 := by
  have hstride : (0 : ℚ) < ((tile - overlap : ℤ) : ℚ) := by exact_mod_cast sub_pos.mpr hoverlap
  have hspan : ((extent - tile : ℤ) : ℚ) ≤
      ((windows.length : ℚ) - 1) * ((tile - overlap : ℤ) : ℚ) := by
    apply span_le_of_isChain h.first
    · obtain ⟨x, hx, hend⟩ := h.last
      refine ⟨x, hx, ?_⟩
      push_cast
      linarith
    · apply h.overlapping.imp
      intro x y hxy
      push_cast
      linarith
  rw [Int.ceil_le, div_le_iff₀ hstride]
  push_cast at hspan ⊢
  exact hspan

theorem evenCover_axis {tile overlap extent : ℤ} (hnonneg : 0 ≤ overlap) (hoverlap : overlap < tile)
    (hlong : tile < extent) : EvenCover tile overlap extent (Tiles.axis tile overlap extent) := by
  have hstride : (0 : ℚ) < ((tile - overlap : ℤ) : ℚ) := by exact_mod_cast sub_pos.mpr hoverlap
  have hpos := steps_pos (sub_pos.mpr hlong) (sub_pos.mpr hoverlap)
  obtain ⟨steps, hsteps⟩ := Int.eq_ofNat_of_zero_le hpos.le
  have hnat : 0 < steps := by omega
  -- the rounded-up quotient is at most the span and its strides reach over the span
  have hlow : (steps : ℤ) ≤ extent - tile := by
    rw [← hsteps, Int.ceil_le, div_le_iff₀ hstride]
    have hone : (1 : ℤ) ≤ tile - overlap := by omega
    have hspan : (0 : ℤ) ≤ extent - tile := by omega
    have hmul := mul_le_mul_of_nonneg_left hone hspan
    rw [mul_one] at hmul
    exact_mod_cast hmul
  have hhigh : extent - tile ≤ steps * (tile - overlap) := by
    have hceil := Int.le_ceil (((extent - tile : ℤ) : ℚ) / ((tile - overlap : ℤ) : ℚ))
    rw [hsteps, div_le_iff₀ hstride] at hceil
    exact_mod_cast hceil
  have hgrid : Tiles.axis tile overlap extent = evenGrid (extent - tile) steps := by
    rw [sharedAxis_eq hoverlap hlong, hsteps]
    rfl
  rw [hgrid]
  constructor
  case inside =>
    intro x hx
    obtain ⟨i, hi, rfl⟩ := mem_evenGrid.mp hx
    have hmem := origin_mem (sub_nonneg.mpr hlong.le) hi
    omega
  case first =>
    rw [evenGrid, List.range_succ_eq_map, List.map_cons, List.head?_cons]
    exact congrArg some (origin_zero (extent - tile) steps)
  case last =>
    rw [evenGrid, List.range_succ, List.map_append, List.getLast?_append]
    exact congrArg some (origin_last hnat (extent - tile))
  case increasing => exact isChain_evenGrid fun i _ => (origin_succ hnat hlow hhigh i).1
  case spaced =>
    apply isChain_evenGrid
    intro i _
    have hgap := (origin_succ hnat hlow hhigh i).2
    omega
  case covered =>
    -- the centre of the pixel is an interval of no length
    intro pixel hleft hright
    have hcast : (0 : ℚ) ≤ pixel := by exact_mod_cast hleft
    have hedge : (pixel : ℚ) + 1 ≤ extent := by exact_mod_cast hright
    have hwide : (0 : ℚ) ≤ overlap := by exact_mod_cast hnonneg
    have hcentre : ∃ x ∈ evenGrid (extent - tile) steps,
        (x : ℚ) ≤ pixel + 1 / 2 ∧ (pixel : ℚ) + 1 / 2 ≤ x + tile := by
      apply evenGrid_covers hnat hlow hhigh
      · linarith
      · push_cast
        linarith
      · push_cast
        linarith
    obtain ⟨x, hx, hbefore, hafter⟩ := hcentre
    refine ⟨x, hx, ?_, ?_⟩
    · by_contra hlt
      have hnext : (pixel : ℚ) + 1 ≤ x := by exact_mod_cast not_le.mp hlt
      linarith
    · by_contra hge
      have hpast : (x : ℚ) + tile ≤ pixel := by exact_mod_cast not_lt.mp hge
      linarith
  case whole =>
    intro left right hleft hright hsmall
    refine evenGrid_covers hnat hlow hhigh hleft ?_ ?_
    · push_cast
      linarith
    · push_cast
      linarith
  case fewest =>
    intro windows h
    have hceil := ceil_le_of_edgeToEdge hoverlap h
    rw [hsteps] at hceil
    rw [length_evenGrid]
    omega

/-- On every axis that is longer than a tile, the tiles of an accepted grid lie inside the
frame from edge to edge, hold every pixel and every interval as long as the overlap, start
at increasing places no further apart than the overlap allows, and are as few as can be. -/
theorem tileGrid_covers {width height tile overlap : ℤ} {grid : List (ℤ × ℤ)}
    (h : Tiles.tileGrid width height tile overlap = .ok grid) :
    grid = ((Tiles.axis tile overlap height).flatMap fun y =>
        (Tiles.axis tile overlap width).map fun x => (x, y)) ∧
      ∀ extent ∈ [width, height], tile < extent →
        EvenCover tile overlap extent (Tiles.axis tile overlap extent) := by
  unfold Tiles.tileGrid at h
  split_ifs at h with hoverlap hframe
  refine ⟨(Except.ok.inj h).symm, ?_⟩
  intro extent _ hlong
  exact evenCover_axis hoverlap.1 hoverlap.2 hlong

theorem tileGrid_covers_camera :
    EvenCover 640 192 1640 [0, 333, 667, 1000] ∧ EvenCover 640 192 1232 [0, 296, 592] := by
  obtain ⟨-, hcover⟩ := tileGrid_covers (show Tiles.tileGrid 1640 1232 640 192 = .ok
    [(0, 0), (333, 0), (667, 0), (1000, 0), (0, 296), (333, 296), (667, 296), (1000, 296),
      (0, 592), (333, 592), (667, 592), (1000, 592)] by decide +kernel)
  have hwidth := hcover 1640 (by simp) (by decide)
  have hheight := hcover 1232 (by simp) (by decide)
  rw [show Tiles.axis 640 192 1640 = [0, 333, 667, 1000] by decide +kernel] at hwidth
  rw [show Tiles.axis 640 192 1232 = [0, 296, 592] by decide +kernel] at hheight
  exact ⟨hwidth, hheight⟩

end Mission10.Sensing
