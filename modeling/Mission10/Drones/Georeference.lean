import Mission10.Engine.Ingest
import Mission10.Library.Dict
import Mission10.Library.Outcome
import Mission10.Library.PlainText

/-!
# Legacy georeferencing

The manager and the explorers put a detection on the map by the fields of view of the
camera and the height above the base. Both constructors read the two angles from a
file, and both store the vertical one under a misspelt name, so the angle that
`find_mines` uses stays zero. The transformers between the geographic and the plane
coordinates are parameters.
-/
namespace Mission10.Drones

open Engine (MathOps Point2 Vec3 Quat CameraModel radians)
open Engine.MathOps PlainText

/-! ### The files -/

/-- The lines that iteration over a file yields, without their ends. -/
def fileLines (text : List Char) : List (List Char) :=
  let pieces := (universalNewlines text).splitOn '\n'
  if pieces.getLast? = some [] then pieces.dropLast else pieces

section Model

variable {K : Type*} [Field K] [LinearOrder K] [MathOps K]

/-- `float` of a word of a line; an infinity or a NaN is left out of the model. -/
def floatAt (words : List (List Char)) (i : ℕ) : Except String K :=
  match words[i]? with
  | none => .error "list index out of range"
  | some word =>
    match readFloat word with
    | none => .error "could not convert string to float"
    | some none => .error "not a finite number"
    | some (some q) => .ok (q : K)

/-- A corner of the field. -/
def readCorner (line : List Char) : Except String (Point2 K) := do
  let latitude ← floatAt (fields line) 0
  let longitude ← floatAt (fields line) 1
  return (latitude, longitude)

/-- The fields that the constructors read, the misspelt one among them. -/
structure RoleFields (K : Type*) where
  bounds : List (Point2 K)
  cameraHFOV : K
  cameraVFOV : K
  cammeraVFOV : Option K
  baseAltitude : K

/-- The camera specification is the first line of its file. -/
def RoleFields.readCamera (role : RoleFields K) (specs : List Char) :
    Except String (RoleFields K) :=
  match fileLines specs with
  | [] => .ok role
  | line :: _ => do
    let hfov ← floatAt (fields line) 0
    let vfov ← floatAt (fields line) 1
    return { role with cameraHFOV := hfov, cammeraVFOV := some vfov }

def RoleFields.readAltitude (role : RoleFields K) (altitude : List Char) :
    Except String (RoleFields K) :=
  match fileLines altitude with
  | [] => .ok role
  | line :: _ => do
    let base ← floatAt (fields line) 0
    return { role with baseAltitude := base }

/-- The part of the constructors that is the same in both roles. -/
def RoleFields.load (bounds specs altitude : List Char) : Except String (RoleFields K) := do
  let corners ← (fileLines bounds).mapM readCorner
  let role ← RoleFields.readCamera ⟨corners, 0, 0, none, 0⟩ specs
  role.readAltitude altitude

/-! ### The geometry -/

/-- The transformers between longitude and latitude and the plane. -/
structure Transformers (K : Type*) where
  toSpcs : Point2 K → Point2 K
  fromSpcs : Point2 K → Point2 K

def rotatePoint (pivot point : Point2 K) (theta : K) : Point2 K :=
  let dx := point.1 - pivot.1
  let dy := point.2 - pivot.2
  (dx * cos theta - dy * sin theta + pivot.1, dx * sin theta + dy * cos theta + pivot.2)

/-- The position, turned about the first corner against the direction to the second. -/
def RoleFields.rotateCoords (role : RoleFields K) (spcs : Transformers K) (pt : Point2 K) :
    Except String (Point2 K) :=
  match role.bounds with
  | tl :: tr :: _ =>
    let tlSpcs := spcs.toSpcs (tl.2, tl.1)
    let trSpcs := spcs.toSpcs (tr.2, tr.1)
    let theta := atan2 (trSpcs.2 - tlSpcs.2) (trSpcs.1 - tlSpcs.1)
    let rotated := spcs.fromSpcs (rotatePoint tlSpcs (spcs.toSpcs (pt.2, pt.1)) (-1 * theta))
    .ok (rotated.2, rotated.1)
  | _ => .error "list index out of range"

/-- An entry of `gps_data`. -/
structure GpsData (K : Type*) where
  altitude : K
  latitude : K
  longitude : K

/-- An entry of `timestamp_bounding_boxes`: centers are shares of the image, sizes are
pixels. -/
structure BoundingBox (K : Type*) where
  timestamp : ℤ
  xCenter : K
  yCenter : K
  xWidth : K
  yWidth : K

/-- What `find_mines` makes of a box: the offsets in meters and the new coordinates. -/
structure MineFix (K : Type*) where
  scaledXMeters : K
  scaledYMeters : K
  newLat : K
  newLong : K

/-- The side of the image in pixels. -/
def imageSize : K := ((640 : ℕ) : K)

def metersPerDegree : K := ((111320 : ℕ) : K)

/-- The offset of a point of the image, north before east. -/
def RoleFields.imageOffset (role : RoleFields K) (absoluteHeight : K) (mine : Point2 K) :
    Point2 K :=
  let imgWidthM := 2 * (absoluteHeight - role.baseAltitude) * tan (radians role.cameraHFOV / 2)
  let imgHeightM := 2 * (absoluteHeight - role.baseAltitude) * tan (radians role.cameraVFOV / 2)
  (-(mine.2 - 1 / 2) * imgHeightM, (mine.1 - 1 / 2) * imgWidthM)

/-- A turn of the loop of `find_mines` after the queue has given a box, `none` for a turn
that goes on with the next one. -/
def RoleFields.locateMine (role : RoleFields K) (spcs : Transformers K)
    (gps : Dict ℤ (GpsData K)) (box : BoundingBox K) : Except String (Option (MineFix K)) :=
  if box.timestamp = -1 then .ok none
  else
    match gps.get box.timestamp with
    | none => .error (toString box.timestamp)
    | some data =>
      let mineXMin := box.xCenter - box.xWidth / 2 / imageSize
      let mineXMax := box.xCenter + box.xWidth / 2 / imageSize
      let mineYMin := box.yCenter - box.yWidth / 2 / imageSize
      let mineYMax := box.yCenter + box.yWidth / 2 / imageSize
      if mineXMin = -1 then .ok none
      else do
        let pt ← role.rotateCoords spcs (data.latitude, data.longitude)
        let mine := ((mineXMin + mineXMax) / 2, (mineYMin + mineYMax) / 2)
        let offset := role.imageOffset data.altitude mine
        return some {
          scaledXMeters := offset.2
          scaledYMeters := offset.1
          newLat := offset.1 / metersPerDegree + pt.1
          newLong := offset.2 / (metersPerDegree * cos (radians pt.1)) + pt.2 }

/-! ### The roles -/

structure Manager (K : Type*) where
  role : RoleFields K
  detectedMineData : List (Point2 K)

structure Explorer (K : Type*) where
  role : RoleFields K
  coords : List (Point2 K)
  sendBuffer : List (Point2 K)

def Manager.new (bounds specs altitude : List Char) : Except String (Manager K) := do
  let role ← RoleFields.load bounds specs altitude
  return ⟨role, []⟩

def Explorer.new (bounds specs altitude : List Char) : Except String (Explorer K) := do
  let role ← RoleFields.load bounds specs altitude
  return ⟨role, [], []⟩

def Manager.findMines (manager : Manager K) (spcs : Transformers K) (gps : Dict ℤ (GpsData K))
    (box : BoundingBox K) : Except String (Manager K) := do
  let found ← manager.role.locateMine spcs gps box
  match found with
  | none => return manager
  | some fix => return { manager with
      detectedMineData := manager.detectedMineData ++ [(fix.newLat, fix.newLong)] }

/-- The explorer sends its buffer to the manager when it holds ten points; the batch is the
second result. -/
def Explorer.findMines (explorer : Explorer K) (spcs : Transformers K)
    (gps : Dict ℤ (GpsData K)) (box : BoundingBox K) :
    Except String (Explorer K × List (Point2 K)) := do
  let found ← explorer.role.locateMine spcs gps box
  match found with
  | none => return (explorer, [])
  | some fix =>
    let coords := explorer.coords ++ [(fix.newLat, fix.newLong)]
    let sendBuffer := explorer.sendBuffer ++ [(fix.newLat, fix.newLong)]
    if sendBuffer.length ≥ 10 then
      return ({ explorer with coords := coords, sendBuffer := [] }, sendBuffer)
    else
      return ({ explorer with coords := coords, sendBuffer := sendBuffer }, [])

/-- The offsets of a level camera that looks straight down, north before east, by its two
fields of view. -/
def nadirOffset (hfovDeg vfovDeg height : K) (norm : Point2 K) : Point2 K :=
  (-(norm.2 - 1 / 2) * (2 * height * tan (radians vfovDeg / 2)),
    (norm.1 - 1 / 2) * (2 * height * tan (radians hfovDeg / 2)))

end Model

/-! ### The pinhole model -/

theorem tan_real (x : ℝ) : tan x = Real.tan x := rfl

theorem tan_half_view {angleDeg : ℝ} (h : 0 < angleDeg ∧ angleDeg < 180) :
    0 < tan (radians angleDeg / 2) := by
  have hpi := Real.pi_pos
  rw [tan_real, radians]
  show 0 < Real.tan (angleDeg * Real.pi / 180 / 2)
  apply Real.tan_pos_of_pos_of_lt_pi_div_two
  · have hpos := mul_pos h.1 hpi
    positivity
  · have hlt := mul_lt_mul_of_pos_right h.2 hpi
    linarith

/-- For a level camera that looks straight down the ground point of a pixel is the nadir
offset. Its pixels are square, so its vertical field of view follows from the other one. -/
theorem groundPoint_level (cam : CameraModel ℝ) (htilt : cam.tiltDeg = 0) {vfovDeg : ℝ}
    (hsquare : tan (radians vfovDeg / 2) =
      cam.heightPx / cam.widthPx * tan (radians cam.hfovDeg / 2))
    (pos : Vec3 ℝ) {height : ℝ} (hheight : 0 < height) (pixel : Point2 ℝ) :
    cam.groundPoint pos ⟨1, 0, 0, 0⟩ pixel (pos.down + height) =
      some (pos.north + (nadirOffset cam.hfovDeg vfovDeg height
          (pixel.1 / cam.widthPx, pixel.2 / cam.heightPx)).1,
        pos.east + (nadirOffset cam.hfovDeg vfovDeg height
          (pixel.1 / cam.widthPx, pixel.2 / cam.heightPx)).2) := by
  have hview := tan_half_view cam.view
  have hwidth : (0 : ℝ) < cam.widthPx := by exact_mod_cast cam.resolution.1
  have hheightPx : (0 : ℝ) < cam.heightPx := by exact_mod_cast cam.resolution.2
  have hcos : cos (radians (0 : ℝ)) = 1 := by simp [radians]; exact Real.cos_zero
  have hsin : sin (radians (0 : ℝ)) = 0 := by simp [radians]; exact Real.sin_zero
  simp only [CameraModel.groundPoint, CameraModel.toBody, Engine.quatRotate, htilt, hcos, hsin,
    nadirOffset, CameraModel.cx, CameraModel.cy, CameraModel.focalPx, hsquare]
  norm_num [hheight.not_ge]
  constructor
  · field_simp
    ring
  · field_simp

/-! ### What the constructors load -/

section Roles

variable {bounds specs altitude line : List Char} {rest : List (List Char)} {role : RoleFields ℝ}

/-- The vertical field of view of the file never reaches its attribute. -/
theorem RoleFields.load_camera (hlines : fileLines specs = line :: rest)
    (h : RoleFields.load bounds specs altitude = .ok role) :
    ∃ hfov vfov, floatAt (fields line) 0 = .ok hfov ∧ floatAt (fields line) 1 = .ok vfov ∧
      role.cameraHFOV = hfov ∧ role.cammeraVFOV = some vfov ∧ role.cameraVFOV = 0 := by
  obtain ⟨corners, -, hloaded⟩ := Outcome.bind_ok h
  obtain ⟨withCamera, hcamera, haltitude⟩ := Outcome.bind_ok hloaded
  rw [readCamera, hlines] at hcamera
  obtain ⟨hfov, hhfov, hnext⟩ := Outcome.bind_ok hcamera
  obtain ⟨vfov, hvfov, hfields⟩ := Outcome.bind_ok hnext
  obtain rfl := Outcome.pure_ok hfields
  refine ⟨hfov, vfov, hhfov, hvfov, ?_⟩
  unfold readAltitude at haltitude
  cases hbase : fileLines altitude with
  | nil =>
    rw [hbase] at haltitude
    obtain rfl := Except.ok.inj haltitude
    exact ⟨rfl, rfl, rfl⟩
  | cons first _ =>
    rw [hbase] at haltitude
    obtain ⟨base, -, hrole⟩ := Outcome.bind_ok haltitude
    obtain rfl := Outcome.pure_ok hrole
    exact ⟨rfl, rfl, rfl⟩

/-- Where a box gives a point, the offset is that of its center. -/
theorem RoleFields.locateMine_fix {spcs : Transformers ℝ} {gps : Dict ℤ (GpsData ℝ)}
    {box : BoundingBox ℝ} {data : GpsData ℝ} {fix : MineFix ℝ}
    (hdata : gps.get box.timestamp = some data)
    (h : role.locateMine spcs gps box = .ok (some fix)) :
    (fix.scaledYMeters, fix.scaledXMeters) =
      role.imageOffset data.altitude (box.xCenter, box.yCenter) := by
  unfold locateMine at h
  split_ifs at h with hsentinel
  · cases Except.ok.inj h
  · rw [hdata] at h
    dsimp only at h
    split_ifs at h with hempty
    · cases Except.ok.inj h
    · obtain ⟨pt, -, hfix⟩ := Outcome.bind_ok h
      obtain rfl := Option.some.inj (Outcome.pure_ok hfix)
      have hcenter : ∀ c w : ℝ, (c - w / 2 / imageSize + (c + w / 2 / imageSize)) / 2 = c := by
        intro c w
        ring
      simp only [hcenter]

/-- A box with a stamp of the log gives a point. -/
theorem RoleFields.exists_locateMine {spcs : Transformers ℝ} {gps : Dict ℤ (GpsData ℝ)}
    {box : BoundingBox ℝ} {data : GpsData ℝ} {pt : Point2 ℝ} (hstamp : box.timestamp ≠ -1)
    (hdata : gps.get box.timestamp = some data)
    (hbox : box.xCenter - box.xWidth / 2 / imageSize ≠ -1)
    (hturn : role.rotateCoords spcs (data.latitude, data.longitude) = .ok pt) :
    ∃ fix, role.locateMine spcs gps box = .ok (some fix) := by
  unfold locateMine
  rw [if_neg hstamp, hdata]
  dsimp only
  rw [if_neg hbox, hturn]
  exact ⟨_, rfl⟩

end Roles

/-- The offset of a role whose vertical angle is zero. -/
theorem RoleFields.imageOffset_flat {role : RoleFields ℝ} (h : role.cameraVFOV = 0)
    (absoluteHeight : ℝ) (mine : Point2 ℝ) : role.imageOffset absoluteHeight mine =
      (0, (nadirOffset role.cameraHFOV 0 (absoluteHeight - role.baseAltitude) mine).2) := by
  have hzero : tan (radians (0 : ℝ) / 2) = 0 := by simp [radians]; exact Real.tan_zero
  rw [imageOffset, h, hzero, mul_zero, mul_zero]
  rfl

/-- The offset north of the nadir vanishes in three cases. -/
theorem nadirOffset_north_eq_zero (hfovDeg vfovDeg height : ℝ) (norm : Point2 ℝ) :
    0 = (nadirOffset hfovDeg vfovDeg height norm).1 ↔
      norm.2 = 1 / 2 ∨ height = 0 ∨ tan (radians vfovDeg / 2) = 0 := by
  rw [eq_comm, nadirOffset, mul_eq_zero, mul_eq_zero, mul_eq_zero, neg_eq_zero, sub_eq_zero]
  constructor
  · intro h
    rcases h with h | (h | h) | h
    · exact Or.inl h
    · norm_num at h
    · exact Or.inr (Or.inl h)
    · exact Or.inr (Or.inr h)
  · intro h
    rcases h with h | h | h
    · exact Or.inl h
    · exact Or.inr (Or.inl (Or.inr h))
    · exact Or.inr (Or.inr h)

/-- For a specification with a first line both roles compute the offset east of the nadir for
the horizontal angle of the file. The offset north is the one for its vertical angle only where
the detection lies on the middle line of the image, the drone is at the height of the base
or that angle gives no extent. -/
theorem findMines_pinhole_iff {bounds specs altitude line : List Char}
    {rest : List (List Char)} (hlines : fileLines specs = line :: rest) {manager : Manager ℝ}
    {explorer : Explorer ℝ} (hmanager : Manager.new bounds specs altitude = .ok manager)
    (hexplorer : Explorer.new bounds specs altitude = .ok explorer) :
    ∃ hfov vfov, floatAt (fields line) 0 = .ok hfov ∧ floatAt (fields line) 1 = .ok vfov ∧
      explorer.role = manager.role ∧
      ∀ (spcs : Transformers ℝ) (gps : Dict ℤ (GpsData ℝ)) (box : BoundingBox ℝ)
        (data : GpsData ℝ) (fix : MineFix ℝ), gps.get box.timestamp = some data →
        manager.role.locateMine spcs gps box = .ok (some fix) →
        ((fix.scaledYMeters, fix.scaledXMeters) = nadirOffset hfov vfov
            (data.altitude - manager.role.baseAltitude) (box.xCenter, box.yCenter) ↔
          box.yCenter = 1 / 2 ∨ data.altitude = manager.role.baseAltitude ∨
            tan (radians vfov / 2) = 0) ∧
        fix.scaledXMeters = (nadirOffset hfov vfov
          (data.altitude - manager.role.baseAltitude) (box.xCenter, box.yCenter)).2 := by
  obtain ⟨role, hrole, hmade⟩ := Outcome.bind_ok hmanager
  obtain rfl := Outcome.pure_ok hmade
  obtain ⟨role', hrole', hmade'⟩ := Outcome.bind_ok hexplorer
  obtain rfl := Outcome.pure_ok hmade'
  obtain rfl : role' = role := Except.ok.inj (hrole'.symm.trans hrole)
  obtain ⟨hfov, vfov, hhfov, hvfov, hset, -, hflat⟩ := RoleFields.load_camera hlines hrole
  refine ⟨hfov, vfov, hhfov, hvfov, rfl, fun spcs gps box data fix hdata hfix => ?_⟩
  have hoffset := RoleFields.locateMine_fix hdata hfix
  rw [RoleFields.imageOffset_flat hflat, hset] at hoffset
  have hnorth := congrArg Prod.fst hoffset
  have heast := congrArg Prod.snd hoffset
  have hcondition := nadirOffset_north_eq_zero hfov vfov (data.altitude - role'.baseAltitude)
    (box.xCenter, box.yCenter)
  rw [sub_eq_zero] at hcondition
  refine ⟨?_, heast⟩
  rw [hoffset, ← hcondition]
  constructor
  · exact fun h => congrArg Prod.fst h
  · exact fun h => Prod.ext h rfl

/-! ### The file of the repository -/

def cameraSpecs : List Char := "62.2 48.8\nHFOV VFOV".toList

def baseAltitude : List Char := "199\nALT (m)".toList

def corners : List Char := "42.0 -83.0\n42.0 -82.0\n".toList

/-- The fields a role has with these files. -/
noncomputable def legacyRole : RoleFields ℝ :=
  ⟨[(42, -83), (42, -82)], 311 / 5, 0, some (244 / 5), 199⟩

theorem floatAt_of_read {words : List (List Char)} {i : ℕ} {q : ℚ}
    (h : (words[i]?).bind readFloat = some (some q)) : floatAt words i = .ok (q : ℝ) := by
  obtain ⟨word, hword, hread⟩ := Option.bind_eq_some_iff.mp h
  simp only [floatAt, hword, hread]

theorem load_legacyRole : RoleFields.load corners cameraSpecs baseAltitude = .ok legacyRole := by
  have hcorners : fileLines corners = ["42.0 -83.0".toList, "42.0 -82.0".toList] := by decide
  have hspecs : fileLines cameraSpecs = ["62.2 48.8".toList, "HFOV VFOV".toList] := by decide
  have hbase : fileLines baseAltitude = ["199".toList, "ALT (m)".toList] := by decide
  have hfirst : readCorner (K := ℝ) "42.0 -83.0".toList = .ok (42, -83) := by
    have hlatitude : floatAt (fields "42.0 -83.0".toList) 0 = .ok ((42 : ℚ) : ℝ) :=
      floatAt_of_read (by decide +kernel)
    have hlongitude : floatAt (fields "42.0 -83.0".toList) 1 = .ok ((-83 : ℚ) : ℝ) :=
      floatAt_of_read (by decide +kernel)
    rw [readCorner, hlatitude, hlongitude]
    norm_num [bind, Except.bind, pure, Except.pure]
  have hsecond : readCorner (K := ℝ) "42.0 -82.0".toList = .ok (42, -82) := by
    have hlatitude : floatAt (fields "42.0 -82.0".toList) 0 = .ok ((42 : ℚ) : ℝ) :=
      floatAt_of_read (by decide +kernel)
    have hlongitude : floatAt (fields "42.0 -82.0".toList) 1 = .ok ((-82 : ℚ) : ℝ) :=
      floatAt_of_read (by decide +kernel)
    rw [readCorner, hlatitude, hlongitude]
    norm_num [bind, Except.bind, pure, Except.pure]
  have hhfov : floatAt (fields "62.2 48.8".toList) 0 = .ok ((311 / 5 : ℚ) : ℝ) :=
    floatAt_of_read (by decide +kernel)
  have hvfov : floatAt (fields "62.2 48.8".toList) 1 = .ok ((244 / 5 : ℚ) : ℝ) :=
    floatAt_of_read (by decide +kernel)
  have haltitude : floatAt (fields "199".toList) 0 = .ok ((199 : ℚ) : ℝ) :=
    floatAt_of_read (by decide +kernel)
  rw [RoleFields.load, hcorners, List.mapM_cons, List.mapM_cons, hfirst, hsecond]
  simp only [List.mapM_nil, RoleFields.readCamera, RoleFields.readAltitude, hspecs, hbase, hhfov,
    hvfov, haltitude, bind, Except.bind, pure, Except.pure]
  norm_num [legacyRole]

theorem manager_legacyRole :
    Manager.new corners cameraSpecs baseAltitude = .ok ⟨legacyRole, []⟩ := by
  rw [Manager.new, load_legacyRole]
  rfl

theorem explorer_legacyRole :
    Explorer.new corners cameraSpecs baseAltitude = .ok ⟨legacyRole, [], []⟩ := by
  rw [Explorer.new, load_legacyRole]
  rfl

/-- A log with one entry, one meter above the base. -/
noncomputable def oneMeterLog : Dict ℤ (GpsData ℝ) := Dict.empty.set 5 ⟨200, 42, -83⟩

/-- A detection below the middle of the image. -/
noncomputable def lowBox : BoundingBox ℝ := ⟨5, 1 / 2, 3 / 4, 64, 64⟩

theorem oneMeterLog_lowBox : oneMeterLog.get lowBox.timestamp = some ⟨200, 42, -83⟩ := rfl

theorem locate_lowBox : ∃ fix, legacyRole.locateMine ⟨id, id⟩ oneMeterLog lowBox =
    .ok (some fix) := by
  apply RoleFields.exists_locateMine _ oneMeterLog_lowBox
  · norm_num [lowBox, imageSize]
  · rfl
  · decide

theorem findMines_pinhole_lowBox : ∃ fix, legacyRole.locateMine ⟨id, id⟩ oneMeterLog lowBox =
    .ok (some fix) ∧ ∃ hfov vfov,
      fix.scaledXMeters = (nadirOffset hfov vfov (200 - 199) (1 / 2, 3 / 4)).2 := by
  have hspecs : fileLines cameraSpecs = ["62.2 48.8".toList, "HFOV VFOV".toList] := by decide
  obtain ⟨fix, hfix⟩ := locate_lowBox
  obtain ⟨hfov, vfov, -, -, -, hall⟩ :=
    findMines_pinhole_iff hspecs manager_legacyRole explorer_legacyRole
  exact ⟨fix, hfix, hfov, vfov, (hall _ _ _ _ fix oneMeterLog_lowBox hfix).2⟩

/-- The detection is put on the parallel of the drone, though it lies south of it. -/
theorem lowBox_flattened :
    Manager.new corners cameraSpecs baseAltitude = .ok ⟨legacyRole, []⟩ ∧
    ∃ fix, legacyRole.locateMine ⟨id, id⟩ oneMeterLog lowBox = .ok (some fix) ∧
      fix.scaledYMeters = 0 ∧
      (nadirOffset (311 / 5 : ℝ) (244 / 5) (200 - 199) (1 / 2, 3 / 4)).1 < 0 := by
  obtain ⟨fix, hfix⟩ := locate_lowBox
  refine ⟨manager_legacyRole, fix, hfix, ?_, ?_⟩
  · have hoffset := RoleFields.locateMine_fix oneMeterLog_lowBox hfix
    rw [RoleFields.imageOffset_flat rfl] at hoffset
    exact congrArg Prod.fst hoffset
  · have hview : 0 < tan (radians (244 / 5 : ℝ) / 2) := tan_half_view (by norm_num)
    rw [nadirOffset]
    dsimp only
    nlinarith

end Mission10.Drones
