import Mission10.Engine.Ingest
import Mission10.Library.Loops

/-!
# Visibility ledger

Every pose adds to the visits of the ground cells it has in view. The scan goes
over the cells around the vehicle, with the camera axes rotated once. It marks
what the projection of each cell of the plane would mark, except where the slant
range ends exactly at the ground: the one cell straight below is then in range
and not in the window.
-/
namespace Mission10.Engine

set_option linter.unusedSectionVars false

open MathOps Loops

variable {K : Type*} [Field K] [LinearOrder K] [MathOps K]

/-! ### The reference projection -/

def quatConj (q : Quat K) : Quat K := ⟨q.w, -q.x, -q.y, -q.z⟩

def dot (a b : Vec3 K) : K := a.north * b.north + a.east * b.east + a.down * b.down

namespace CameraModel

/-- The optical axes in the body frame. -/
def xBody (_cam : CameraModel K) : Vec3 K := ⟨0, 1, 0⟩

def yBody (cam : CameraModel K) : Vec3 K :=
  ⟨-cos (radians cam.tiltDeg), 0, sin (radians cam.tiltDeg)⟩

def zBody (cam : CameraModel K) : Vec3 K :=
  ⟨sin (radians cam.tiltDeg), 0, cos (radians cam.tiltDeg)⟩

/-- The raw pixel of a point; `none` for a point that is not before the camera. -/
def projectRaw (cam : CameraModel K) (pos : Vec3 K) (q : Quat K) (point : Vec3 K) :
    Option (Point2 K) :=
  let dNed : Vec3 K := ⟨point.north - pos.north, point.east - pos.east, point.down - pos.down⟩
  let dBody := quatRotate (quatConj q) dNed
  let xCam := dot cam.xBody dBody
  let yCam := dot cam.yBody dBody
  let zCam := dot cam.zBody dBody
  if zCam ≤ 0 then none
  else some (cam.cx + cam.focalPx * xCam / zCam, cam.cy + cam.focalPx * yCam / zCam)

end CameraModel

/-! ### The ledger -/

/-- One maximal in-view interval of one cell. -/
structure Visit (K : Type*) where
  t0 : K
  t1 : K
  nFrames : ℕ

/-- North and east index of a cell. -/
abbrev Cell := ℤ × ℤ

/-- A cell without visits is in no entry of the dictionary. -/
structure VisibilityLedger (K : Type*) [Field K] [LinearOrder K] where
  cam : CameraModel K
  cellM : K := 1 / 2
  revisitGapS : K := 5
  minDepressionDeg : K := 20
  maxRangeM : K := 15
  edgeMarginPx : K := 0
  cells : Cell → List (Visit K) := fun _ => []
  nFrames : ℕ := 0
  lastT : Option K := none
  cellM_pos : 0 < cellM

/-- The height above the ground plane of a pose. -/
def PoseSnapshot.height (snap : PoseSnapshot K) : K := snap.agl.getD (-snap.pos.down)

/-- A frame at a time adds to the last visit, or begins one after a pause. -/
def noteVisit (gap t : K) (visits : List (Visit K)) : List (Visit K) :=
  match visits.getLast? with
  | none => [⟨t, t, 1⟩]
  | some last =>
    if t - last.t1 > gap then visits ++ [⟨t, t, 1⟩]
    else visits.dropLast ++ [{ last with t1 := t, nFrames := last.nFrames + 1 }]

/-- The integers of `range(i0, i1 + 1)`. -/
def indices (i0 i1 : ℤ) : List ℤ :=
  (List.range (i1 + 1 - i0).toNat).map fun k : ℕ => i0 + k

namespace VisibilityLedger

def tanMinDep (ledger : VisibilityLedger K) : K := tan (radians ledger.minDepressionDeg)

/-- The offset of a cell's center from the vehicle, on the ground. -/
def offset (ledger : VisibilityLedger K) (snap : PoseSnapshot K) (cell : Cell) : Vec3 K where
  north := ((cell.1 : K) + 1 / 2) * ledger.cellM - snap.pos.north
  east := ((cell.2 : K) + 1 / 2) * ledger.cellM - snap.pos.east
  down := snap.pos.down + snap.height - snap.pos.down

/-- The tests that the scan makes of a cell, in its order. -/
def inView (ledger : VisibilityLedger K) (snap : PoseSnapshot K) (xAx yAx zAx : Vec3 K)
    (cell : Cell) : Bool :=
  let cam := ledger.cam
  let d := ledger.offset snap cell
  let h2 := d.north * d.north + d.east * d.east
  if h2 + d.down * d.down > ledger.maxRangeM ^ 2 then false
  else if d.down * d.down < h2 * ledger.tanMinDep ^ 2 then false
  else
    let xC := dot xAx d
    let yC := dot yAx d
    let zC := dot zAx d
    if zC ≤ 0 then false
    else
      let u := cam.cx + cam.focalPx * xC / zC
      let v := cam.cy + cam.focalPx * yC / zC
      decide (ledger.edgeMarginPx ≤ u ∧ u ≤ (cam.widthPx : K) - 1 - ledger.edgeMarginPx) &&
        decide (ledger.edgeMarginPx ≤ v ∧ v ≤ (cam.heightPx : K) - 1 - ledger.edgeMarginPx)

/-- The radius of the window: the depression floor and the slant range cap it. -/
def radius (ledger : VisibilityLedger K) (snap : PoseSnapshot K) : K :=
  let agl := snap.height
  let rng := sqrt (max (ledger.maxRangeM ^ 2 - agl * agl) 0)
  if ledger.tanMinDep > 0 then min (agl / ledger.tanMinDep) rng else rng

/-- The cells of the window, row by row. -/
def window (ledger : VisibilityLedger K) (snap : PoseSnapshot K) (r : K) : List Cell :=
  (indices (floor ((snap.pos.north - r) / ledger.cellM))
      (floor ((snap.pos.north + r) / ledger.cellM))).flatMap fun i =>
    (indices (floor ((snap.pos.east - r) / ledger.cellM))
      (floor ((snap.pos.east + r) / ledger.cellM))).map fun j => (i, j)

/-- The scan of the window. -/
def scan (ledger : VisibilityLedger K) (snap : PoseSnapshot K) (r : K) : Cell → List (Visit K) :=
  let xAx := quatRotate snap.q ledger.cam.xBody
  let yAx := quatRotate snap.q ledger.cam.yBody
  let zAx := quatRotate snap.q ledger.cam.zBody
  (ledger.window snap r).foldl (fun cells cell =>
    if ledger.inView snap xAx yAx zAx cell then
      Function.update cells cell (noteVisit ledger.revisitGapS snap.t (cells cell))
    else cells) ledger.cells

/-- `note_pose`: fold one pose into the ledger. -/
def notePose (ledger : VisibilityLedger K) (snap : PoseSnapshot K) :
    Except String (VisibilityLedger K) :=
  if ledger.lastT.any fun last => snap.t < last then .error "non-monotonic pose time"
  else
    let noted := { ledger with lastT := some snap.t, nFrames := ledger.nFrames + 1 }
    if snap.height ≤ 0 then .ok noted
    else
      let r := ledger.radius snap
      if r ≤ 0 then .ok noted
      else .ok { noted with cells := ledger.scan snap r }

/-- The center of a cell, on the ground. -/
def center (ledger : VisibilityLedger K) (snap : PoseSnapshot K) (cell : Cell) : Vec3 K where
  north := ((cell.1 : K) + 1 / 2) * ledger.cellM
  east := ((cell.2 : K) + 1 / 2) * ledger.cellM
  down := snap.pos.down + snap.height

/-- The center of the cell is below the vehicle, in range, under the depression
floor, and projects into the image. -/
def Qualifies (ledger : VisibilityLedger K) (snap : PoseSnapshot K) (cell : Cell) : Prop :=
  let d := ledger.offset snap cell
  let h2 := d.north * d.north + d.east * d.east
  0 < snap.height ∧ h2 + d.down * d.down ≤ ledger.maxRangeM ^ 2 ∧
    h2 * ledger.tanMinDep ^ 2 ≤ d.down * d.down ∧
    ∃ pixel ∈ ledger.cam.projectRaw snap.pos snap.q (ledger.center snap cell),
      (ledger.edgeMarginPx ≤ pixel.1 ∧
        pixel.1 ≤ (ledger.cam.widthPx : K) - 1 - ledger.edgeMarginPx) ∧
      ledger.edgeMarginPx ≤ pixel.2 ∧
        pixel.2 ≤ (ledger.cam.heightPx : K) - 1 - ledger.edgeMarginPx

end VisibilityLedger

/-! ### One cell -/

section Cells

/-- Rotating the axes is rotating the offset back. -/
theorem dot_quatRotate (q : Quat K) (a d : Vec3 K) :
    dot (quatRotate q a) d = dot a (quatRotate (quatConj q) d) := by
  simp only [dot, quatRotate, quatConj]
  ring

theorem noteVisit_ne (gap t : K) (visits : List (Visit K)) : noteVisit gap t visits ≠ visits := by
  unfold noteVisit
  split
  · rename_i hlast
    rw [List.getLast?_eq_none_iff.mp hlast]
    exact List.cons_ne_nil _ _
  · rename_i last hlast
    split
    · intro heq
      have hlength := congrArg List.length heq
      rw [List.length_append, List.length_singleton] at hlength
      omega
    · intro heq
      obtain ⟨front, rfl⟩ := List.getLast?_eq_some_iff.mp hlast
      rw [List.dropLast_concat] at heq
      have hsame := List.append_cancel_left heq
      have hframes := congrArg Visit.nFrames (List.cons.inj hsame).1
      dsimp only at hframes
      omega

theorem mem_indices {i0 i1 i : ℤ} : i ∈ indices i0 i1 ↔ i0 ≤ i ∧ i ≤ i1 := by
  rw [indices, List.mem_map]
  constructor
  · rintro ⟨k, hk, rfl⟩
    rw [List.mem_range] at hk
    omega
  · rintro ⟨hlo, hhi⟩
    exact ⟨(i - i0).toNat, List.mem_range.mpr (by omega), by omega⟩

theorem nodup_indices (i0 i1 : ℤ) : (indices i0 i1).Nodup := by
  refine List.Nodup.map ?_ List.nodup_range
  intro a b h
  have hcast := add_left_cancel h
  exact_mod_cast hcast

namespace VisibilityLedger

variable (ledger : VisibilityLedger K) (snap : PoseSnapshot K)

theorem nodup_window (r : K) : (ledger.window snap r).Nodup :=
  List.Nodup.product (nodup_indices _ _) (nodup_indices _ _)

theorem offset_down (cell : Cell) : (ledger.offset snap cell).down = snap.height := by
  simp [offset]

/-- The scan's tests of a cell are the tests of its projection. -/
theorem inView_iff (hheight : 0 < snap.height) (cell : Cell) :
    ledger.inView snap (quatRotate snap.q ledger.cam.xBody) (quatRotate snap.q ledger.cam.yBody)
        (quatRotate snap.q ledger.cam.zBody) cell = true ↔ ledger.Qualifies snap cell := by
  have hoffset : (⟨(ledger.center snap cell).north - snap.pos.north,
      (ledger.center snap cell).east - snap.pos.east,
      (ledger.center snap cell).down - snap.pos.down⟩ : Vec3 K) = ledger.offset snap cell := rfl
  unfold inView Qualifies CameraModel.projectRaw
  simp only [dot_quatRotate, hoffset, hheight, true_and]
  by_cases hrange : (ledger.offset snap cell).north * (ledger.offset snap cell).north +
      (ledger.offset snap cell).east * (ledger.offset snap cell).east +
        (ledger.offset snap cell).down * (ledger.offset snap cell).down > ledger.maxRangeM ^ 2
  · rw [if_pos hrange]
    exact iff_of_false (by simp) fun h => absurd h.1 (not_le.mpr hrange)
  · rw [if_neg hrange, and_iff_right (not_lt.mp hrange)]
    by_cases hdepression : (ledger.offset snap cell).down * (ledger.offset snap cell).down <
        ((ledger.offset snap cell).north * (ledger.offset snap cell).north +
          (ledger.offset snap cell).east * (ledger.offset snap cell).east) *
            ledger.tanMinDep ^ 2
    · rw [if_pos hdepression]
      exact iff_of_false (by simp) fun h => absurd h.1 (not_le.mpr hdepression)
    · rw [if_neg hdepression, and_iff_right (not_lt.mp hdepression)]
      split
      · simp
      · simp

end VisibilityLedger

end Cells

/-! ### The window -/

theorem floor_eq (x : ℝ) : floor x = ⌊x⌋ := by
  change -⌈-x⌉ = ⌊x⌋
  rw [Int.ceil_neg, neg_neg]

/-- A half-integer center within the radius has its index in the window. -/
theorem index_in_window {p r cm : ℝ} (hcm : 0 < cm) {i : ℤ} (h : |((i : ℝ) + 1 / 2) * cm - p| ≤ r) :
    i ∈ indices (floor ((p - r) / cm)) (floor ((p + r) / cm)) := by
  obtain ⟨hlo, hhi⟩ := abs_le.mp h
  rw [mem_indices, floor_eq, floor_eq]
  constructor
  · have hle : (p - r) / cm < (i : ℝ) + 1 := by
      rw [div_lt_iff₀ hcm]
      nlinarith
    have hfloor := Int.floor_le_iff.mpr hle
    exact hfloor
  · rw [Int.le_floor, le_div_iff₀ hcm]
    nlinarith

namespace VisibilityLedger

variable {ledger : VisibilityLedger ℝ} {snap : PoseSnapshot ℝ}

/-- The range of the ledger ends at the ground straight below. -/
def RangeEndsAtGround (ledger : VisibilityLedger ℝ) (snap : PoseSnapshot ℝ) : Prop :=
  ledger.maxRangeM ^ 2 = snap.height * snap.height

theorem sq_le_radius {cell : Cell} (h : ledger.Qualifies snap cell) :
    (ledger.offset snap cell).north ^ 2 + (ledger.offset snap cell).east ^ 2 ≤
      ledger.radius snap ^ 2 := by
  obtain ⟨hheight, hrange, hdepression, -⟩ := h
  rw [offset_down] at hrange hdepression
  have hrng : (ledger.offset snap cell).north ^ 2 + (ledger.offset snap cell).east ^ 2 ≤
      Real.sqrt (max (ledger.maxRangeM ^ 2 - snap.height * snap.height) 0) ^ 2 := by
    rw [Real.sq_sqrt (le_max_right _ _)]
    refine le_trans ?_ (le_max_left _ _)
    linarith
  unfold radius
  dsimp only
  split_ifs with htan
  · rcases min_choice (snap.height / ledger.tanMinDep)
      (MathOps.sqrt (max (ledger.maxRangeM ^ 2 - snap.height * snap.height) 0)) with hmin | hmin
    · rw [hmin, div_pow, le_div_iff₀ (by positivity)]
      linarith
    · rw [hmin]
      exact hrng
  · exact hrng

theorem radius_pos_or (hheight : 0 < snap.height) :
    0 < ledger.radius snap ∨ ledger.maxRangeM ^ 2 ≤ snap.height * snap.height := by
  by_cases hout : ledger.maxRangeM ^ 2 ≤ snap.height * snap.height
  · exact Or.inr hout
  · left
    have hrng : 0 < MathOps.sqrt (max (ledger.maxRangeM ^ 2 - snap.height * snap.height) 0) := by
      refine Real.sqrt_pos.mpr (lt_max_of_lt_left ?_)
      linarith
    unfold radius
    dsimp only
    split_ifs with htan
    · exact lt_min (div_pos hheight htan) hrng
    · exact hrng

theorem radius_nonpos (h : ledger.RangeEndsAtGround snap) : ledger.radius snap ≤ 0 := by
  have hrng : MathOps.sqrt (max (ledger.maxRangeM ^ 2 - snap.height * snap.height) 0) = 0 := by
    rw [h, sub_self, max_self]
    exact Real.sqrt_zero
  unfold radius
  dsimp only
  rw [hrng]
  split_ifs
  · exact min_le_right _ _
  · exact le_rfl

/-- The window misses no cell that qualifies. -/
theorem mem_window (hpos : 0 < ledger.radius snap) {cell : Cell} (h : ledger.Qualifies snap cell) :
    cell ∈ ledger.window snap (ledger.radius snap) := by
  have hsq := sq_le_radius h
  have hnorth : |(ledger.offset snap cell).north| ≤ ledger.radius snap :=
    abs_le_of_sq_le_sq (by nlinarith [sq_nonneg (ledger.offset snap cell).east]) hpos.le
  have heast : |(ledger.offset snap cell).east| ≤ ledger.radius snap :=
    abs_le_of_sq_le_sq (by nlinarith [sq_nonneg (ledger.offset snap cell).north]) hpos.le
  exact List.pair_mem_product.mpr
    ⟨index_in_window ledger.cellM_pos hnorth, index_in_window ledger.cellM_pos heast⟩

/-- With the range ending at the ground, only a cell straight below qualifies,
and the window is empty. -/
theorem center_below (hends : ledger.maxRangeM ^ 2 ≤ snap.height * snap.height) {cell : Cell}
    (h : ledger.Qualifies snap cell) :
    ledger.RangeEndsAtGround snap ∧ (ledger.center snap cell).horizontal = snap.pos.horizontal := by
  obtain ⟨-, hrange, -, -⟩ := h
  rw [offset_down] at hrange
  have hnorth := mul_self_nonneg (ledger.offset snap cell).north
  have heast := mul_self_nonneg (ledger.offset snap cell).east
  refine ⟨by unfold RangeEndsAtGround; linarith, ?_⟩
  have hn : (ledger.offset snap cell).north = 0 := mul_self_eq_zero.mp (by linarith)
  have he : (ledger.offset snap cell).east = 0 := mul_self_eq_zero.mp (by linarith)
  exact Prod.ext (sub_eq_zero.mp hn) (sub_eq_zero.mp he)

/-- The ledger marks the cells that qualify, and no other. -/
def MarksQualifying (ledger ledger' : VisibilityLedger ℝ) (snap : PoseSnapshot ℝ) : Prop :=
  ∀ cell, (ledger.Qualifies snap cell →
      ledger'.cells cell = noteVisit ledger.revisitGapS snap.t (ledger.cells cell)) ∧
    (¬ ledger.Qualifies snap cell → ledger'.cells cell = ledger.cells cell)

theorem scan_marks (hheight : 0 < snap.height) (hpos : 0 < ledger.radius snap) (cell : Cell) :
    (ledger.Qualifies snap cell → ledger.scan snap (ledger.radius snap) cell =
        noteVisit ledger.revisitGapS snap.t (ledger.cells cell)) ∧
      (¬ ledger.Qualifies snap cell →
        ledger.scan snap (ledger.radius snap) cell = ledger.cells cell) := by
  have hview := inView_iff ledger snap hheight cell
  unfold scan
  rw [foldl_update (ledger.nodup_window snap _)]
  constructor
  · intro h
    rw [if_pos ⟨mem_window hpos h, hview.mpr h⟩]
  · intro h
    rw [if_neg fun hboth => h (hview.mp hboth.2)]

/-- A pose marks exactly the cells of the plane that qualify, unless the slant
range ends at the ground straight below and a cell centered there qualifies. -/
theorem notePose_marks_iff {ledger' : VisibilityLedger ℝ} (h : ledger.notePose snap = .ok ledger') :
    ledger.MarksQualifying ledger' snap ↔
      ¬ (ledger.RangeEndsAtGround snap ∧ ∃ cell, ledger.Qualifies snap cell ∧
        (ledger.center snap cell).horizontal = snap.pos.horizontal) := by
  unfold notePose at h
  split at h
  · contradiction
  · dsimp only at h
    split_ifs at h with hlow hempty
    · rw [← Except.ok.inj h]
      have hnone : ∀ cell, ¬ ledger.Qualifies snap cell := fun cell hq => absurd hq.1 hlow.not_gt
      exact iff_of_true (fun cell => ⟨fun hq => absurd hq (hnone cell), fun _ => rfl⟩)
        fun ⟨_, cell, hq, _⟩ => hnone cell hq
    · rw [← Except.ok.inj h]
      have hends : ledger.maxRangeM ^ 2 ≤ snap.height * snap.height :=
        (radius_pos_or (not_le.mp hlow)).resolve_left hempty.not_gt
      constructor
      · rintro hmarks ⟨-, cell, hq, -⟩
        exact noteVisit_ne _ _ _ ((hmarks cell).1 hq).symm
      · intro hclear cell
        refine ⟨fun hq => ?_, fun _ => rfl⟩
        obtain ⟨hat, hbelow⟩ := center_below hends hq
        exact absurd ⟨hat, cell, hq, hbelow⟩ hclear
    · rw [← Except.ok.inj h]
      have hpos := not_le.mp hempty
      refine iff_of_true (fun cell => scan_marks (not_le.mp hlow) hpos cell) ?_
      rintro ⟨hat, -⟩
      exact absurd (radius_nonpos hat) hempty

theorem notePose_first (hfirst : ledger.lastT = none) :
    ∃ ledger', ledger.notePose snap = .ok ledger' := by
  unfold notePose
  rw [if_neg (by simp [hfirst])]
  dsimp only
  split_ifs
  · exact ⟨_, rfl⟩
  · exact ⟨_, rfl⟩
  · exact ⟨_, rfl⟩

/-- A level camera sees what is straight below in the middle of its image. -/
theorem projectRaw_below {cam : CameraModel ℝ} (htilt : cam.tiltDeg = 0) {pos : Vec3 ℝ}
    {depth : ℝ} (hdepth : 0 < depth) :
    cam.projectRaw pos ⟨1, 0, 0, 0⟩ ⟨pos.north, pos.east, pos.down + depth⟩ =
      some (cam.cx, cam.cy) := by
  have hcos : MathOps.cos (radians cam.tiltDeg) = (1 : ℝ) := by
    rw [htilt, radians, zero_mul, zero_div]
    exact Real.cos_zero
  have hsin : MathOps.sin (radians cam.tiltDeg) = (0 : ℝ) := by
    rw [htilt, radians, zero_mul, zero_div]
    exact Real.sin_zero
  simp [CameraModel.projectRaw, dot, quatRotate, quatConj, CameraModel.xBody, CameraModel.yBody,
    CameraModel.zBody, hcos, hsin, hdepth.not_ge]

/-- The ledger as the constructor leaves it, for the default camera. -/
noncomputable def newLedger : VisibilityLedger ℝ where
  cam := ⟨1640, 1232, 622 / 10, 0, by norm_num, by norm_num⟩
  cellM_pos := by norm_num

/-- A level pose over the center of a cell. -/
noncomputable def poseOver (down : ℝ) : PoseSnapshot ℝ where
  t := 0
  pos := ⟨1 / 4, 1 / 4, down⟩
  q := ⟨1, 0, 0, 0⟩

theorem notePose_marks_low_pose : ∃ ledger', newLedger.notePose (poseOver (-1)) = .ok ledger' ∧
    newLedger.MarksQualifying ledger' (poseOver (-1)) := by
  obtain ⟨ledger', h⟩ : ∃ ledger', newLedger.notePose (poseOver (-1)) = .ok ledger' :=
    notePose_first rfl
  refine ⟨ledger', h, (notePose_marks_iff h).mpr ?_⟩
  rintro ⟨hat, -⟩
  norm_num [RangeEndsAtGround, newLedger, poseOver, PoseSnapshot.height] at hat

/-- At the height of the maximal range the cell below is in range, and missed. -/
theorem notePose_misses_cell_below :
    ¬ ∀ (ledger ledger' : VisibilityLedger ℝ) (snap : PoseSnapshot ℝ),
      snap.q.w ^ 2 + snap.q.x ^ 2 + snap.q.y ^ 2 + snap.q.z ^ 2 = 1 →
        ledger.notePose snap = .ok ledger' → ledger.MarksQualifying ledger' snap := by
  intro hall
  obtain ⟨ledger', h⟩ : ∃ ledger', newLedger.notePose (poseOver (-15)) = .ok ledger' :=
    notePose_first rfl
  have hmarks := hall newLedger ledger' (poseOver (-15)) (by norm_num [poseOver]) h
  have hclear := (notePose_marks_iff h).mp hmarks
  refine hclear ⟨?_, (0, 0), ⟨?_, ?_, ?_, ?_⟩, ?_⟩
  · norm_num [RangeEndsAtGround, newLedger, poseOver, PoseSnapshot.height]
  · norm_num [poseOver, PoseSnapshot.height]
  · norm_num [newLedger, poseOver, PoseSnapshot.height, offset]
  · norm_num [newLedger, poseOver, PoseSnapshot.height, offset]
  · have hcenter : newLedger.center (poseOver (-15)) (0, 0) =
        ⟨(poseOver (-15)).pos.north, (poseOver (-15)).pos.east,
          (poseOver (-15)).pos.down + 15⟩ := by
      norm_num [newLedger, poseOver, center, PoseSnapshot.height]
    refine ⟨(newLedger.cam.cx, newLedger.cam.cy), ?_, ?_⟩
    · rw [hcenter]
      exact projectRaw_below rfl (by norm_num)
    · norm_num [newLedger, CameraModel.cx, CameraModel.cy]
  · norm_num [newLedger, poseOver, center, Vec3.horizontal]

end VisibilityLedger

end Mission10.Engine
