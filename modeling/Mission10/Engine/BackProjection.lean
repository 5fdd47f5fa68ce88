import Mission10.Engine.Visibility

/-!
# Projection and back-projection

A pixel is the direction of a ray in the optical frame. The optical axes and the
attitude of the vehicle are both rotations, so a direction can be carried to the ground
frame and back. A ray that meets the ground plane has its point before the camera, and
the two functions undo each other there.
-/
namespace Mission10.Engine

set_option linter.unusedSectionVars false

open MathOps

section Rotations

variable {K : Type*} [Field K] [LinearOrder K] [MathOps K]

/-- A vector times a number. -/
def Vec3.scale (k : K) (v : Vec3 K) : Vec3 K := ⟨k * v.north, k * v.east, k * v.down⟩

theorem quatRotate_scale (q : Quat K) (k : K) (v : Vec3 K) :
    quatRotate q (v.scale k) = (quatRotate q v).scale k := by
  simp only [quatRotate, Vec3.scale, Vec3.mk.injEq]
  refine ⟨?_, ?_, ?_⟩ <;> ring

/-- A quaternion of length 1. -/
def Quat.Unit (q : Quat K) : Prop := q.w ^ 2 + q.x ^ 2 + q.y ^ 2 + q.z ^ 2 = 1

theorem Quat.Unit.conj {q : Quat K} (h : q.Unit) : (quatConj q).Unit := by
  simpa [Quat.Unit, quatConj] using h

/-- The conjugate rotates back. -/
theorem Quat.Unit.rotate_conj {q : Quat K} (h : q.Unit) (v : Vec3 K) :
    quatRotate q (quatRotate (quatConj q) v) = v := by
  unfold Quat.Unit at h
  obtain ⟨north, east, down⟩ := v
  simp only [quatRotate, quatConj, Vec3.mk.injEq]
  refine ⟨?_, ?_, ?_⟩
  · linear_combination -4 * (q.x * (q.x * north + q.y * east + q.z * down) -
      north * (q.x ^ 2 + q.y ^ 2 + q.z ^ 2)) * h
  · linear_combination -4 * (q.y * (q.x * north + q.y * east + q.z * down) -
      east * (q.x ^ 2 + q.y ^ 2 + q.z ^ 2)) * h
  · linear_combination -4 * (q.z * (q.x * north + q.y * east + q.z * down) -
      down * (q.x ^ 2 + q.y ^ 2 + q.z ^ 2)) * h

theorem Quat.Unit.conj_rotate {q : Quat K} (h : q.Unit) (v : Vec3 K) :
    quatRotate (quatConj q) (quatRotate q v) = v := by
  have hback : quatConj (quatConj q) = q := by
    simp [quatConj]
  have hrotate := h.conj.rotate_conj v
  rwa [hback] at hrotate

end Rotations

namespace CameraModel

variable (cam : CameraModel ℝ)

theorem axes_unit : cos (radians cam.tiltDeg) ^ 2 + sin (radians cam.tiltDeg) ^ 2 = 1 :=
  Real.cos_sq_add_sin_sq _

/-- A body vector in the optical frame. -/
noncomputable def ofBody (b : Vec3 ℝ) : Vec3 ℝ :=
  ⟨dot cam.xBody b, dot cam.yBody b, dot cam.zBody b⟩

theorem toBody_ofBody (b : Vec3 ℝ) : cam.toBody (cam.ofBody b) = b := by
  have hunit := cam.axes_unit
  obtain ⟨north, east, down⟩ := b
  simp only [toBody, ofBody, dot, xBody, yBody, zBody, Vec3.mk.injEq]
  refine ⟨?_, ?_, ?_⟩
  · linear_combination north * hunit
  · ring
  · linear_combination down * hunit

theorem ofBody_toBody (d : Vec3 ℝ) : cam.ofBody (cam.toBody d) = d := by
  have hunit := cam.axes_unit
  obtain ⟨north, east, down⟩ := d
  simp only [toBody, ofBody, dot, xBody, yBody, zBody, Vec3.mk.injEq]
  refine ⟨?_, ?_, ?_⟩
  · ring
  · linear_combination east * hunit
  · linear_combination down * hunit

theorem toBody_scale (k : ℝ) (d : Vec3 ℝ) : cam.toBody (d.scale k) = (cam.toBody d).scale k := by
  simp only [toBody, Vec3.scale, Vec3.mk.injEq]
  refine ⟨?_, ?_, ?_⟩ <;> ring

theorem ofBody_scale (k : ℝ) (b : Vec3 ℝ) : cam.ofBody (b.scale k) = (cam.ofBody b).scale k := by
  simp only [ofBody, dot, Vec3.scale, Vec3.mk.injEq]
  refine ⟨?_, ?_, ?_⟩ <;> ring

theorem focalPx_pos : 0 < cam.focalPx := by
  have hwidth : (0 : ℝ) < cam.widthPx := by
    exact_mod_cast cam.resolution.1
  have hpi := Real.pi_pos
  have hangle : (radians cam.hfovDeg : ℝ) = cam.hfovDeg * Real.pi / 180 := rfl
  have hhalf : 0 < (radians cam.hfovDeg : ℝ) / 2 ∧ (radians cam.hfovDeg : ℝ) / 2 < Real.pi / 2 := by
    obtain ⟨hpos, hlt⟩ := cam.view
    rw [hangle]
    constructor
    · positivity
    · nlinarith
  have htan : 0 < tan ((radians cam.hfovDeg : ℝ) / 2) :=
    Real.tan_pos_of_pos_of_lt_pi_div_two hhalf.1 hhalf.2
  unfold focalPx
  positivity

section Rays

variable (pos : Vec3 ℝ) (q : Quat ℝ)

/-- The offset of a point from the camera in the optical frame. -/
noncomputable def sight (point : Vec3 ℝ) : Vec3 ℝ :=
  cam.ofBody (quatRotate (quatConj q)
    ⟨point.north - pos.north, point.east - pos.east, point.down - pos.down⟩)

/-- The point is before the camera. -/
def InFront (point : Vec3 ℝ) : Prop := 0 < (cam.sight pos q point).down

/-- The pixel of a sight. -/
noncomputable def pixelOf (sight : Vec3 ℝ) : Point2 ℝ :=
  (cam.cx + cam.focalPx * sight.north / sight.down, cam.cy + cam.focalPx * sight.east / sight.down)

/-- The ray of a pixel, in the optical frame. -/
noncomputable def rayOf (pixel : Point2 ℝ) : Vec3 ℝ :=
  ⟨(pixel.1 - cam.cx) / cam.focalPx, (pixel.2 - cam.cy) / cam.focalPx, 1⟩

theorem rayOf_pixelOf {sight : Vec3 ℝ} (h : 0 < sight.down) :
    cam.rayOf (cam.pixelOf sight) = sight.scale (1 / sight.down) := by
  have hfocal := cam.focalPx_pos.ne'
  have hdown := h.ne'
  simp only [rayOf, pixelOf, Vec3.scale, Vec3.mk.injEq]
  refine ⟨?_, ?_, ?_⟩ <;> field_simp <;> ring

theorem pixelOf_rayOf {k : ℝ} (hk : 0 < k) (pixel : Point2 ℝ) :
    cam.pixelOf ((cam.rayOf pixel).scale k) = pixel := by
  have hfocal := cam.focalPx_pos.ne'
  have hdown := hk.ne'
  apply Prod.ext
  · simp only [rayOf, pixelOf, Vec3.scale]
    field_simp
    ring
  · simp only [rayOf, pixelOf, Vec3.scale]
    field_simp
    ring

/-- Only a point before the camera projects. -/
theorem projectRaw_eq_some {point : Vec3 ℝ} {pixel : Point2 ℝ} :
    cam.projectRaw pos q point = some pixel ↔
      cam.InFront pos q point ∧ pixel = cam.pixelOf (cam.sight pos q point) := by
  unfold projectRaw InFront
  dsimp only
  split_ifs with hbehind
  · exact iff_of_false (by simp) fun h => hbehind.not_gt h.1
  · rw [Option.some.injEq, eq_comm (b := pixel)]
    exact ⟨fun h => ⟨not_le.mp hbehind, h⟩, fun h => h.2⟩

variable {groundZ : ℝ}

/-- A ray that descends meets the ground plane below the camera. -/
theorem groundPoint_eq_some {pixel point : Point2 ℝ} :
    cam.groundPoint pos q pixel groundZ = some point ↔
      let d := quatRotate q (cam.toBody (cam.rayOf pixel))
      0 < d.down ∧ pos.down < groundZ ∧
        point = (pos.north + (groundZ - pos.down) / d.down * d.north,
          pos.east + (groundZ - pos.down) / d.down * d.east) := by
  let d := quatRotate q (cam.toBody (cam.rayOf pixel))
  unfold groundPoint
  change (if d.down ≤ 0 then none else if (groundZ - pos.down) / d.down ≤ 0 then none else
    some (pos.north + (groundZ - pos.down) / d.down * d.north,
      pos.east + (groundZ - pos.down) / d.down * d.east)) = some point ↔
    0 < d.down ∧ pos.down < groundZ ∧
      point = (pos.north + (groundZ - pos.down) / d.down * d.north,
        pos.east + (groundZ - pos.down) / d.down * d.east)
  by_cases hdown : d.down ≤ 0
  · rw [if_pos hdown]
    exact iff_of_false (by simp) fun h => hdown.not_gt h.1
  · have hpos := not_le.mp hdown
    have hbelow : (groundZ - pos.down) / d.down ≤ 0 ↔ groundZ ≤ pos.down := by
      rw [div_le_iff₀ hpos, zero_mul, sub_nonpos]
    rw [if_neg hdown]
    by_cases hlow : groundZ ≤ pos.down
    · rw [if_pos (hbelow.mpr hlow)]
      exact iff_of_false (by simp) fun h => hlow.not_gt h.2.1
    · rw [if_neg fun h => hlow (hbelow.mp h), Option.some.injEq, eq_comm (b := point)]
      exact ⟨fun h => ⟨hpos, not_le.mp hlow, h⟩, fun h => h.2.2⟩

variable {q} (hunit : q.Unit)
include hunit

/-- The ray of a sight points to the point. -/
theorem ray_sight {point : Vec3 ℝ} (h : cam.InFront pos q point) :
    quatRotate q (cam.toBody (cam.rayOf (cam.pixelOf (cam.sight pos q point)))) =
      Vec3.scale (1 / (cam.sight pos q point).down)
        ⟨point.north - pos.north, point.east - pos.east, point.down - pos.down⟩ := by
  rw [cam.rayOf_pixelOf h, toBody_scale, quatRotate_scale]
  unfold sight
  rw [toBody_ofBody, hunit.rotate_conj]

/-- A point before the camera, on the ground below it, is found again. -/
theorem groundPoint_of_inFront (habove : pos.down < groundZ) {north east : ℝ}
    (h : cam.InFront pos q ⟨north, east, groundZ⟩) :
    cam.groundPoint pos q (cam.pixelOf (cam.sight pos q ⟨north, east, groundZ⟩)) groundZ =
      some (north, east) := by
  have hz : 0 < (cam.sight pos q ⟨north, east, groundZ⟩).down := h
  have hdepth : 0 < groundZ - pos.down := sub_pos.mpr habove
  rw [groundPoint_eq_some, cam.ray_sight pos hunit h]
  generalize (cam.sight pos q ⟨north, east, groundZ⟩).down = z at hz ⊢
  dsimp only [Vec3.scale]
  refine ⟨by positivity, habove, ?_⟩
  have hdepth' := hdepth.ne'
  apply Prod.ext
  · dsimp only
    field_simp
    ring
  · dsimp only
    field_simp
    ring

/-- The sight of a point on the ray of a pixel is a multiple of the ray. -/
theorem sight_of_groundPoint {pixel point : Point2 ℝ}
    (h : cam.groundPoint pos q pixel groundZ = some point) :
    ∃ k, 0 < k ∧ cam.sight pos q ⟨point.1, point.2, groundZ⟩ = (cam.rayOf pixel).scale k := by
  obtain ⟨hdown, habove, hpoint⟩ := (cam.groundPoint_eq_some pos q).mp h
  let d := quatRotate q (cam.toBody (cam.rayOf pixel))
  have hdepth : 0 < groundZ - pos.down := sub_pos.mpr habove
  refine ⟨(groundZ - pos.down) / d.down, div_pos hdepth hdown, ?_⟩
  have hoffset : (⟨point.1 - pos.north, point.2 - pos.east, groundZ - pos.down⟩ : Vec3 ℝ) =
      d.scale ((groundZ - pos.down) / d.down) := by
    rw [hpoint]
    simp only [Vec3.scale, Vec3.mk.injEq]
    refine ⟨by ring, by ring, ?_⟩
    exact (div_mul_cancel₀ _ hdown.ne').symm
  unfold sight
  dsimp only
  rw [hoffset, quatRotate_scale, hunit.conj_rotate, ofBody_scale, ofBody_toBody]

end Rays

end CameraModel

/-- For every camera, every attitude and every camera position: a point of the ground
plane below the camera that is before it projects to a pixel whose ray meets the plane at
the point; and where the ray of a pixel meets the plane, the point is before the camera
and projects to the pixel. -/
theorem back_projection_inverts (cam : CameraModel ℝ) (pos : Vec3 ℝ) {q : Quat ℝ}
    (hunit : q.Unit) (groundZ : ℝ) :
    (∀ north east, pos.down < groundZ → cam.InFront pos q ⟨north, east, groundZ⟩ →
      ∃ pixel, cam.projectRaw pos q ⟨north, east, groundZ⟩ = some pixel ∧
        cam.groundPoint pos q pixel groundZ = some (north, east)) ∧
      ∀ pixel point, cam.groundPoint pos q pixel groundZ = some point →
        cam.InFront pos q ⟨point.1, point.2, groundZ⟩ ∧
          cam.projectRaw pos q ⟨point.1, point.2, groundZ⟩ = some pixel := by
  constructor
  · intro north east habove hfront
    exact ⟨_, (cam.projectRaw_eq_some pos q).mpr ⟨hfront, rfl⟩,
      cam.groundPoint_of_inFront pos hunit habove hfront⟩
  · intro pixel point hpoint
    obtain ⟨k, hk, hsight⟩ := cam.sight_of_groundPoint pos hunit hpoint
    have hfront : cam.InFront pos q ⟨point.1, point.2, groundZ⟩ := by
      unfold CameraModel.InFront
      rw [hsight]
      simpa [Vec3.scale, CameraModel.rayOf] using hk
    refine ⟨hfront, (cam.projectRaw_eq_some pos q).mpr ⟨hfront, ?_⟩⟩
    rw [hsight, cam.pixelOf_rayOf hk]

/-- A level camera sees a point of the ground two metres below it. -/
theorem back_projection_inverts_level :
    let cam := VisibilityLedger.newLedger.cam
    ∃ pixel, cam.projectRaw ⟨0, 0, -2⟩ ⟨1, 0, 0, 0⟩ ⟨1, 1, 0⟩ = some pixel ∧
      cam.groundPoint ⟨0, 0, -2⟩ ⟨1, 0, 0, 0⟩ pixel 0 = some (1, 1) := by
  intro cam
  have hunit : (⟨1, 0, 0, 0⟩ : Quat ℝ).Unit := by
    norm_num [Quat.Unit]
  have hcos : cos (radians cam.tiltDeg) = (1 : ℝ) := by
    simp [cam, VisibilityLedger.newLedger, radians, MathOps.cos]
  have hsin : sin (radians cam.tiltDeg) = (0 : ℝ) := by
    simp [cam, VisibilityLedger.newLedger, radians, MathOps.sin]
  have hfront : cam.InFront ⟨0, 0, -2⟩ ⟨1, 0, 0, 0⟩ ⟨1, 1, 0⟩ := by
    norm_num [CameraModel.InFront, CameraModel.sight, CameraModel.ofBody, CameraModel.zBody, dot,
      quatRotate, quatConj, hcos, hsin]
  exact (back_projection_inverts cam ⟨0, 0, -2⟩ hunit 0).1 1 1 (by norm_num) hfront

end Mission10.Engine
