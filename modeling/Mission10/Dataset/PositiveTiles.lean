import Mission10.Dataset.LabelLines
import Mission10.Dataset.Materialization
import Std.Data.String.ToNat

/-!
# Labels of the positives

The label of a context is one box in the middle of its tile, which eight decimals
leave a size unless the box is many times as long as it is wide. The label of a
paste is its target's label with a box inside the tile added to it.
-/
namespace Mission10.Dataset

open PlainText Outcome

variable {pillow : Pillow} {random : Random}

/-! ### Numbered names -/

section Names

theorem underscore_notMem_repr (n : ℕ) : '_' ∉ n.repr.toList := by
  rw [Nat.toList_repr]
  intro hmem
  have hdigit := Nat.isDigit_of_mem_toDigits (by omega) (by omega) hmem
  revert hdigit
  decide

theorem slash_notMem_repr (n : ℕ) : '/' ∉ n.repr.toList := by
  rw [Nat.toList_repr]
  intro hmem
  have hdigit := Nat.isDigit_of_mem_toDigits (by omega) (by omega) hmem
  revert hdigit
  decide

/-- A name and its number are read off together. -/
theorem numbered_inj {first second : String} {i j : ℕ}
    (h : first ++ "_" ++ i.repr = second ++ "_" ++ j.repr) : first = second ∧ i = j := by
  have hlists := congrArg String.toList h
  simp only [String.toList_append, List.append_assoc] at hlists
  have hunder : "_".toList = ['_'] := rfl
  simp only [hunder, List.singleton_append] at hlists
  obtain ⟨hname, hdigits⟩ := PlainText.splitLast_inj (underscore_notMem_repr i)
    (underscore_notMem_repr j) hlists
  exact ⟨String.toList_injective hname, Nat.repr_injective (String.toList_injective hdigits)⟩

end Names

/-! ### Contexts -/

section Contexts

/-- The short side of a box is not lost beside its long one. -/
def Proportioned (xyxy : List ℚ) (bound : ℚ) : Prop :=
  ∀ x0 y0 x1 y1, xyxy = [x0, y0, x1, y1] →
    max (x1 - x0) (y1 - y0) < bound * min (x1 - x0) (y1 - y0)

/-- A coordinate of a probed box lies in the middle of the tile. -/
theorem probe_clip {side length : ℚ} {targetPx : ℕ} (hside : 0 < side) (hlength : |length| ≤ side)
    (htarget : targetPx ≤ 120) :
    max 0 (min (tilePx : ℚ) (320 + length / 2 * (targetPx / side))) =
      320 + length / 2 * (targetPx / side) := by
  have hpx : (targetPx : ℚ) ≤ 120 := by exact_mod_cast htarget
  have hratio : |length / side| ≤ 1 := by
    rw [abs_div, abs_of_pos hside]
    exact (div_le_one hside).mpr hlength
  have hform : length / 2 * (targetPx / side) = length / side * (targetPx / 2) := by ring
  have hnonneg : (0 : ℚ) ≤ targetPx / 2 := by positivity
  obtain ⟨hlow, hhigh⟩ := abs_le.mp hratio
  have hmin : 320 + length / 2 * (targetPx / side) ≤ (tilePx : ℚ) := by
    rw [hform, tilePx]
    push_cast
    nlinarith
  have hmax : 0 ≤ 320 + length / 2 * (targetPx / side) := by
    rw [hform]
    nlinarith
  rw [min_eq_right hmin, max_eq_right hmax]

theorem scaleProbeGeometry_ok {x0 y0 x1 y1 : ℚ} {targetPx : ℕ} {crop : ℚ × ℚ × ℚ × ℚ} {scale : ℚ}
    (h : scaleProbeGeometry [x0, y0, x1, y1] targetPx = .ok (crop, scale)) :
    targetPx ∈ contextScales ∧ 0 < max (x1 - x0) (y1 - y0) ∧
      scale = targetPx / max (x1 - x0) (y1 - y0) ∧
        (x0 - crop.1) * scale = 320 + -(x1 - x0) / 2 * scale ∧
          (x1 - crop.1) * scale = 320 + (x1 - x0) / 2 * scale ∧
            (y0 - crop.2.1) * scale = 320 + -(y1 - y0) / 2 * scale ∧
              (y1 - crop.2.1) * scale = 320 + (y1 - y0) / 2 * scale := by
  simp only [scaleProbeGeometry, refuseIf_bind_eq_ok, not_not, not_le] at h
  obtain ⟨htarget, hside, h⟩ := h
  have hpx : 0 < targetPx := by
    simp only [contextScales, List.mem_cons, List.not_mem_nil, or_false] at htarget
    omega
  have hpx' : (0 : ℚ) < targetPx := by exact_mod_cast hpx
  obtain ⟨hcrop, hscale⟩ := Prod.mk.inj (pure_ok h)
  set side := max (x1 - x0) (y1 - y0) with hsideDef
  have hscale' : scale = targetPx / side := by
    rw [hscale, tilePx]
    push_cast
    field_simp
  have hunit : 640 / (targetPx / side) / 2 * (targetPx / side) = 320 := by
    field_simp
    norm_num
  refine ⟨htarget, hside, hscale', ?_, ?_, ?_, ?_⟩
  all_goals
    rw [hcrop, hscale', tilePx]
    push_cast
    linear_combination hunit

/-- The coordinates on an axis do not leave room where the box has no length there. -/
theorem clip_sub_nonpos (low high : ℚ) (h : high ≤ low) :
    max 0 (max 0 (min (tilePx : ℚ) high) - max 0 (min (tilePx : ℚ) low)) = 0 := by
  have hmono : max 0 (min (tilePx : ℚ) high) ≤ max 0 (min (tilePx : ℚ) low) :=
    max_le_max le_rfl (min_le_min le_rfl h)
  exact max_eq_left (by linarith)

/-- A probed box lies around the middle of its tile, its longer side at the target size. -/
theorem transformScaleProbeBox_ok {xyxy : List ℚ} {targetPx : ℕ} {box : PixelBox}
    (h : transformScaleProbeBox xyxy targetPx = .ok (some box)) :
    ∃ x0 y0 x1 y1 scale, xyxy = [x0, y0, x1, y1] ∧ targetPx ∈ contextScales ∧
      0 < x1 - x0 ∧ 0 < y1 - y0 ∧ scale = targetPx / max (x1 - x0) (y1 - y0) ∧
        box = ⟨320 + -(x1 - x0) / 2 * scale, 320 + -(y1 - y0) / 2 * scale,
          320 + (x1 - x0) / 2 * scale, 320 + (y1 - y0) / 2 * scale⟩ := by
  obtain ⟨⟨crop, scale⟩, hgeometry, h⟩ := bind_ok h
  dsimp only at h
  split at h
  case h_2 => exact absurd h error_ne_ok
  case h_1 x0 y0 x1 y1 _ =>
  obtain ⟨htarget, hside, hscale, hx0, hx1, hy0, hy1⟩ := scaleProbeGeometry_ok hgeometry
  simp only [hx0, hx1, hy0, hy1, pure_eq_ok] at h
  have hpx : (targetPx : ℚ) ≤ 120 ∧ 0 < (targetPx : ℚ) := by
    simp only [contextScales, List.mem_cons, List.not_mem_nil, or_false] at htarget
    rcases htarget with rfl | rfl | rfl <;> norm_num
  have hpositive : 0 < scale := by
    rw [hscale]
    exact div_pos hpx.2 hside
  split_ifs at h with harea
  have hx : 0 < x1 - x0 := by
    by_contra hle
    have hzero := clip_sub_nonpos (320 + -(x1 - x0) / 2 * scale)
      (320 + (x1 - x0) / 2 * scale) (by nlinarith)
    rw [hzero, zero_mul] at harea
    exact lt_irrefl 0 harea
  have hy : 0 < y1 - y0 := by
    by_contra hle
    have hzero := clip_sub_nonpos (320 + -(y1 - y0) / 2 * scale)
      (320 + (y1 - y0) / 2 * scale) (by nlinarith)
    rw [hzero, mul_zero] at harea
    exact lt_irrefl 0 harea
  refine ⟨x0, y0, x1, y1, scale, rfl, htarget, hx, hy, hscale, ?_⟩
  have hbound : targetPx ≤ 120 := by exact_mod_cast hpx.1
  have hclip {length : ℚ} (hlength : |length| ≤ max (x1 - x0) (y1 - y0)) :
      max 0 (min (tilePx : ℚ) (320 + length / 2 * scale)) = 320 + length / 2 * scale := by
    rw [hscale]
    exact probe_clip hside hlength hbound
  have habsX : |x1 - x0| ≤ max (x1 - x0) (y1 - y0) := by
    rw [abs_of_pos hx]
    exact le_max_left _ _
  have habsY : |y1 - y0| ≤ max (x1 - x0) (y1 - y0) := by
    rw [abs_of_pos hy]
    exact le_max_right _ _
  rw [← Option.some.inj h, hclip habsX, hclip habsY, hclip (by rwa [abs_neg]),
    hclip (by rwa [abs_neg])]

/-- The label of a context has its box unless the box is too long for its width. -/
theorem labelBoxes_context {xyxy : List ℚ} {targetPx : ℕ} {box : PixelBox}
    (h : transformScaleProbeBox xyxy targetPx = .ok (some box)) :
    labelBoxes (String.ofList (labelLine box)) = .ok 1 ↔
      Proportioned xyxy (312500 * targetPx) := by
  obtain ⟨x0, y0, x1, y1, scale, rfl, htarget, hx, hy, hscale, rfl⟩ := transformScaleProbeBox_ok h
  set side := max (x1 - x0) (y1 - y0) with hsideDef
  have hpx : (targetPx : ℚ) ≤ 120 ∧ 30 ≤ (targetPx : ℚ) := by
    simp only [contextScales, List.mem_cons, List.not_mem_nil, or_false] at htarget
    rcases htarget with rfl | rfl | rfl <;> norm_num
  have hside : 0 < side := lt_of_lt_of_le hx (le_max_left _ _)
  -- The lengths of the box are fractions of the target size.
  have hlength {length : ℚ} (hpos : 0 < length) (hle : length ≤ side) :
      (0 ≤ length * scale / 640 ∧ length * scale / 640 ≤ 1) ∧
        (Written (length * scale / 640) ↔ side < 312500 * targetPx * length) := by
    have hratio : length / side ≤ 1 := (div_le_one hside).mpr hle
    have hratio' : 0 < length / side := div_pos hpos hside
    have hform : length * scale / 640 = length / side * targetPx / 640 := by rw [hscale]; ring
    rw [hform]
    refine ⟨⟨by positivity, by nlinarith⟩, ?_⟩
    have hten : length / side * targetPx / 640 * 10 ^ 8 = 156250 * targetPx * length / side := by
      ring
    rw [Written, hten, lt_div_iff₀ hside]
    constructor <;> intro h <;> linarith
  have hline : labelLine ⟨320 + -(x1 - x0) / 2 * scale, 320 + -(y1 - y0) / 2 * scale,
      320 + (x1 - x0) / 2 * scale, 320 + (y1 - y0) / 2 * scale⟩ =
        labelText (1 / 2) (1 / 2) ((x1 - x0) * scale / 640) ((y1 - y0) * scale / 640) := by
    have hcx : (320 + -(x1 - x0) / 2 * scale + (320 + (x1 - x0) / 2 * scale)) /
        (2 * (tilePx : ℚ)) = 1 / 2 := by rw [tilePx]; push_cast; ring
    have hcy : (320 + -(y1 - y0) / 2 * scale + (320 + (y1 - y0) / 2 * scale)) /
        (2 * (tilePx : ℚ)) = 1 / 2 := by rw [tilePx]; push_cast; ring
    have hwidth : (320 + (x1 - x0) / 2 * scale - (320 + -(x1 - x0) / 2 * scale)) / (tilePx : ℚ) =
        (x1 - x0) * scale / 640 := by rw [tilePx]; push_cast; ring
    have hheight : (320 + (y1 - y0) / 2 * scale - (320 + -(y1 - y0) / 2 * scale)) / (tilePx : ℚ) =
        (y1 - y0) * scale / 640 := by rw [tilePx]; push_cast; ring
    rw [labelLine, hcx, hcy, hwidth, hheight]
  obtain ⟨hwidth, hwidthWritten⟩ := hlength hx (le_max_left _ _)
  obtain ⟨hheight, hheightWritten⟩ := hlength hy (le_max_right _ _)
  have hunit : UnitBox (1 / 2) (1 / 2) ((x1 - x0) * scale / 640) ((y1 - y0) * scale / 640) :=
    ⟨by norm_num, by norm_num, hwidth, hheight⟩
  rw [hline, labelBoxes_line hunit, hwidthWritten, hheightWritten]
  have hfactor : (0 : ℚ) < 312500 * targetPx := by linarith [hpx.2]
  constructor
  · rintro ⟨hshortX, hshortY⟩ a0 b0 a1 b1 hcoords
    simp only [List.cons.injEq, and_true] at hcoords
    obtain ⟨rfl, rfl, rfl, rfl⟩ := hcoords
    rcases min_choice (x1 - x0) (y1 - y0) with hmin | hmin
    · rw [hmin]; exact hshortX
    · rw [hmin]; exact hshortY
  · intro hproportioned
    have hshort := hproportioned x0 y0 x1 y1 rfl
    have hminX : 312500 * targetPx * min (x1 - x0) (y1 - y0) ≤ 312500 * targetPx * (x1 - x0) :=
      mul_le_mul_of_nonneg_left (min_le_left _ _) hfactor.le
    have hminY : 312500 * targetPx * min (x1 - x0) (y1 - y0) ≤ 312500 * targetPx * (y1 - y0) :=
      mul_le_mul_of_nonneg_left (min_le_right _ _) hfactor.le
    exact ⟨lt_of_lt_of_le hshort hminX, lt_of_lt_of_le hshort hminY⟩

/-- The label of a context holds its box at every scale if it does at the smallest. -/
theorem labelBoxes_context_of {xyxy : List ℚ} {targetPx : ℕ} {box : PixelBox}
    (h : transformScaleProbeBox xyxy targetPx = .ok (some box))
    (hproportioned : Proportioned xyxy 9375000) :
    labelBoxes (String.ofList (labelLine box)) = .ok 1 := by
  obtain ⟨x0, y0, x1, y1, scale, rfl, htarget, hx, hy, -, -⟩ := transformScaleProbeBox_ok h
  refine (labelBoxes_context h).mpr ?_
  intro a0 b0 a1 b1 hcoords
  have hshort := hproportioned a0 b0 a1 b1 hcoords
  simp only [List.cons.injEq, and_true] at hcoords
  obtain ⟨rfl, rfl, rfl, rfl⟩ := hcoords
  have hmin : 0 < min (x1 - x0) (y1 - y0) := lt_min hx hy
  have hpx : (30 : ℚ) ≤ targetPx := by
    simp only [contextScales, List.mem_cons, List.not_mem_nil, or_false] at htarget
    rcases htarget with rfl | rfl | rfl <;> norm_num
  nlinarith

/-- The names of a photo's contexts. -/
def contextTiles (record : Photo) : List String :=
  (visibleObjects record).flatMap fun object => contextScales.map (contextTile record object.2)

theorem makeContext_ok {image : pillow.Image} {record : Photo} {object : Annotation}
    {objectIndex targetPx : ℕ} {made : Made}
    (h : makeContext pillow image record object objectIndex targetPx = .ok made) :
    made.tile = contextTile record objectIndex targetPx ∧ made.boxes = 1 ∧
      ∃ box, transformScaleProbeBox object.xyxy targetPx = .ok (some box) ∧
        made.label = String.ofList (labelLine box) := by
  obtain ⟨⟨context, truth⟩, hprobe, h⟩ := bind_ok h
  obtain ⟨⟨crop, scale⟩, -, hprobe⟩ := bind_ok hprobe
  obtain ⟨transformed, htransformed, hprobe⟩ := bind_ok hprobe
  obtain ⟨box, hbox, hprobe⟩ := bind_ok hprobe
  obtain ⟨-, rfl⟩ := Prod.mk.inj (pure_ok hprobe)
  rw [getOr_eq_ok.mp hbox] at htransformed
  rw [pure_ok h]
  exact ⟨rfl, rfl, truth, htransformed, rfl⟩

/-- The contexts of photos, one for each visible object and scale. -/
structure ContextsOf (records : List Photo) (contexts : List Made) : Prop where
  tiles : contexts.map Made.tile = records.flatMap contextTiles
  sound : ∀ made ∈ contexts, ∃ record ∈ records, ∃ object ∈ visibleObjects record,
    ∃ targetPx ∈ contextScales, ∃ box, made.boxes = 1 ∧
      transformScaleProbeBox object.1.xyxy targetPx = .ok (some box) ∧
        made.label = String.ofList (labelLine box)
  complete : ∀ record ∈ records, ∀ object ∈ visibleObjects record, ∀ targetPx ∈ contextScales,
    ∃ made ∈ contexts, ∃ box, made.boxes = 1 ∧
      transformScaleProbeBox object.1.xyxy targetPx = .ok (some box) ∧
        made.label = String.ofList (labelLine box)

theorem photoContexts_ok {sha256 : List UInt8 → String} {photo : String → Option (List UInt8)}
    {record : Photo} {contexts : List Made}
    (h : photoContexts pillow sha256 photo record = .ok contexts) :
    ContextsOf [record] contexts := by
  unfold photoContexts at h
  split_ifs at h with hnone
  · rw [pure_ok h]
    refine ⟨by simp [contextTiles, hnone], by simp, ?_⟩
    intro other hother object hobject
    rw [List.mem_singleton.mp hother, hnone] at hobject
    cases hobject
  · obtain ⟨image, -, h⟩ := bind_ok h
    obtain ⟨all, hall, h⟩ := bind_ok h
    rw [pure_ok h]
    refine ⟨?_, ?_, ?_⟩
    · have hmap : all.map (List.map Made.tile) = (visibleObjects record).map fun object =>
          contextScales.map (contextTile record object.2) := by
        refine map_of_mapM hall ?_
        intro object _ contexts hcontexts
        exact map_of_mapM hcontexts fun targetPx _ made hmade => (makeContext_ok hmade).1
      rw [List.map_flatten, hmap, List.flatMap_singleton]
      rfl
    · intro made hmade
      obtain ⟨contexts, hcontexts, hmade⟩ := List.mem_flatten.mp hmade
      obtain ⟨object, hobject, hobjectContexts⟩ := mem_of_mapM hall hcontexts
      obtain ⟨targetPx, htarget, hcontext⟩ := mem_of_mapM hobjectContexts hmade
      obtain ⟨-, hboxes, box, hbox, hlabel⟩ := makeContext_ok hcontext
      exact ⟨record, List.mem_singleton_self _, object, hobject, targetPx, htarget, box, hboxes,
        hbox, hlabel⟩
    · intro other hother object hobject targetPx htarget
      rw [List.mem_singleton.mp hother] at hobject
      obtain ⟨contexts, hcontexts, hobjectContexts⟩ := exists_of_mapM hall hobject
      obtain ⟨made, hmade, hcontext⟩ := exists_of_mapM hobjectContexts htarget
      obtain ⟨-, hboxes, box, hbox, hlabel⟩ := makeContext_ok hcontext
      exact ⟨made, List.mem_flatten.mpr ⟨contexts, hcontexts, hmade⟩, box, hboxes, hbox, hlabel⟩

theorem makeContexts_ok {sha256 : List UInt8 → String} {photo : String → Option (List UInt8)}
    {records : List Photo} {contexts : List Made}
    (h : makeContexts pillow sha256 photo records = .ok contexts) :
    ContextsOf records contexts := by
  obtain ⟨all, hall, rfl⟩ := map_eq_ok.mp h
  refine ⟨?_, ?_, ?_⟩
  · have hmap : all.map (List.map Made.tile) = records.map contextTiles := by
      refine map_of_mapM hall ?_
      intro record _ contexts hcontexts
      have htiles := (photoContexts_ok hcontexts).tiles
      rwa [List.flatMap_singleton] at htiles
    rw [List.map_flatten, hmap]
    rfl
  · intro made hmade
    obtain ⟨contexts, hcontexts, hmade⟩ := List.mem_flatten.mp hmade
    obtain ⟨record, hrecord, hrecordContexts⟩ := mem_of_mapM hall hcontexts
    obtain ⟨other, hother, hrest⟩ := (photoContexts_ok hrecordContexts).sound made hmade
    rw [List.mem_singleton.mp hother] at hrest
    exact ⟨record, hrecord, hrest⟩
  · intro record hrecord object hobject targetPx htarget
    obtain ⟨contexts, hcontexts, hrecordContexts⟩ := exists_of_mapM hall hrecord
    obtain ⟨made, hmade, hrest⟩ := (photoContexts_ok hrecordContexts).complete record
      (List.mem_singleton_self _) object hobject targetPx htarget
    exact ⟨made, List.mem_flatten.mpr ⟨contexts, hcontexts, hmade⟩, hrest⟩

/-- Two photos that have a name of a context in common. -/
def SharesName (first second : Photo) : Prop :=
  first.sourceSha256.toList.take 12 = second.sourceSha256.toList.take 12 ∧
    ∃ objectIndex, objectIndex ∈ (visibleObjects first).map Prod.snd ∧
      objectIndex ∈ (visibleObjects second).map Prod.snd

theorem contextTile_eq (record : Photo) (i px : ℕ) : contextTile record i px =
    "rp_context_" ++ String.ofList (record.sourceSha256.toList.take 12) ++ "_" ++ i.repr ++ "_" ++
      px.repr := rfl

theorem contextTile_inj {first second : Photo} {i j px size : ℕ}
    (h : contextTile first i px = contextTile second j size) :
    first.sourceSha256.toList.take 12 = second.sourceSha256.toList.take 12 ∧ i = j ∧ px = size := by
  rw [contextTile_eq, contextTile_eq] at h
  obtain ⟨hrest, hsize⟩ := numbered_inj h
  obtain ⟨hphoto, hindex⟩ := numbered_inj hrest
  have hdigits := (String.append_right_inj _).mp hphoto
  have hletters := congrArg String.toList hdigits
  rw [String.toList_ofList, String.toList_ofList] at hletters
  exact ⟨hletters, hindex, hsize⟩

theorem mem_contextTiles {record : Photo} {tile : String} :
    tile ∈ contextTiles record ↔ ∃ i ∈ (visibleObjects record).map Prod.snd,
      ∃ px ∈ contextScales, contextTile record i px = tile := by
  simp only [contextTiles, List.mem_flatMap, List.mem_map, exists_exists_and_eq_and]

theorem nodup_visibleObjects (record : Photo) :
    ((visibleObjects record).map Prod.snd).Nodup := by
  have hindices : (record.objects.zipIdx.map Prod.snd).Nodup := by
    rw [List.zipIdx_map_snd]
    exact List.nodup_range'
  exact hindices.sublist (List.filter_sublist.map Prod.snd)

theorem nodup_contextTiles (record : Photo) : (contextTiles record).Nodup := by
  refine List.nodup_flatMap.mpr ⟨?_, ?_⟩
  · intro object _
    refine List.Nodup.map_on ?_ (by decide)
    intro px _ size _ h
    exact (contextTile_inj h).2.2
  · refine (List.pairwise_map.mp (nodup_visibleObjects record)).imp ?_
    intro first second hne tile hfirst hsecond
    obtain ⟨px, -, rfl⟩ := List.mem_map.mp hfirst
    obtain ⟨size, -, hname⟩ := List.mem_map.mp hsecond
    exact hne (contextTile_inj hname).2.1.symm

/-- The names of contexts differ where no two photos have one in common. -/
theorem nodup_contextTiles_iff {records : List Photo} :
    (records.flatMap contextTiles).Nodup ↔
      records.Pairwise fun first second => ¬ SharesName first second := by
  rw [List.nodup_flatMap]
  constructor
  · rintro ⟨-, hdisjoint⟩
    refine hdisjoint.imp ?_
    rintro first second hnames ⟨hdigits, i, hfirst, hsecond⟩
    have htile : contextTile first i 30 = contextTile second i 30 := by
      rw [contextTile, contextTile, hdigits]
    refine hnames (mem_contextTiles.mpr ⟨i, hfirst, 30, by decide, rfl⟩)
      (mem_contextTiles.mpr ⟨i, hsecond, 30, by decide, htile.symm⟩)
  · intro hpairs
    refine ⟨fun record _ => nodup_contextTiles record, hpairs.imp ?_⟩
    intro first second hnot tile hfirst hsecond
    obtain ⟨i, hi, px, -, rfl⟩ := mem_contextTiles.mp hfirst
    obtain ⟨j, hj, size, -, hname⟩ := mem_contextTiles.mp hsecond
    obtain ⟨hdigits, rfl, -⟩ := contextTile_inj hname
    exact hnot ⟨hdigits.symm, j, hi, hj⟩

end Contexts

/-! ### Pastes -/

section Pastes

/-- A position that is found keeps the cutout inside the tile. -/
theorem findPosition_ok {width height : ℕ} {existing : List (ℚ × ℚ × ℚ × ℚ)} {tries x y : ℕ}
    {state next : random.State}
    (h : findPosition random width height existing tries state = .ok (some (x, y), next)) :
    x + width ≤ tilePx ∧ y + height ≤ tilePx := by
  induction tries generalizing state with
  | zero => cases pure_ok h
  | succ tries ih =>
    unfold findPosition at h
    split_ifs at h with hx hy
    dsimp only at h
    split_ifs at h with hmeets
    · exact ih h
    · obtain ⟨hposition, -⟩ := Prod.mk.inj (pure_ok h)
      obtain ⟨rfl, rfl⟩ := Prod.mk.inj (Option.some.inj hposition)
      constructor
      · have hlt := (random.randrange state (tilePx - width + 1) (by omega)).1.isLt
        omega
      · have hlt := (random.randrange (random.randrange state (tilePx - width + 1) (by omega)).2
          (tilePx - height + 1) (by omega)).1.isLt
        omega

theorem preparedCutout_size {cutout : List UInt8} {targetPx : ℕ} {angle feather : ℚ}
    {image : pillow.Image}
    (h : preparedCutout pillow cutout targetPx angle feather = .ok image) :
    1 ≤ (pillow.size image).1 ∧ 1 ≤ (pillow.size image).2 := by
  obtain ⟨opened, -, h⟩ := bind_ok h
  obtain ⟨box, -, h⟩ := bind_ok h
  rw [pure_ok h, pillow.size_blurAlpha, pillow.size_resize]
  exact ⟨le_max_left _ _, le_max_left _ _⟩

theorem center_le_one {start length : ℕ} (h : start + length ≤ tilePx) :
    0 ≤ ((start : ℚ) + (start + length : ℕ)) / (2 * tilePx) ∧
      ((start : ℚ) + (start + length : ℕ)) / (2 * tilePx) ≤ 1 := by
  have hle : (start : ℚ) + length ≤ 640 := by exact_mod_cast h
  have hstart : (0 : ℚ) ≤ start := by positivity
  have hlength : (0 : ℚ) ≤ length := by positivity
  rw [tilePx]
  push_cast
  constructor
  · positivity
  · linarith

theorem length_le_one {start length : ℕ} (h : start + length ≤ tilePx) :
    0 ≤ (length : ℚ) / tilePx ∧ (length : ℚ) / tilePx ≤ 1 := by
  have hle : (start : ℚ) + length ≤ 640 := by exact_mod_cast h
  have hstart : (0 : ℚ) ≤ start := by positivity
  rw [tilePx]
  push_cast
  constructor
  · positivity
  · linarith

theorem written_of_one_le {length : ℕ} (h : 1 ≤ length) : Written ((length : ℚ) / tilePx) := by
  have hone : (1 : ℚ) ≤ length := by exact_mod_cast h
  rw [Written, tilePx]
  push_cast
  linarith

/-- A paste adds a box to the label of its target. -/
theorem composite_label {cutoutFile : List UInt8} {target : Record} {targetPx : ℕ}
    {state next : random.State} {pasted : Composite}
    (h : composite pillow random cutoutFile target targetPx state = .ok (pasted, next))
    (hread : labelBoxes target.label = .ok target.boxes) :
    labelBoxes pasted.label = .ok (target.boxes + 1) ↔
      isBlank (openLine (readText target.label)) = true := by
  obtain ⟨background, -, h⟩ := bind_ok h
  obtain ⟨-, h⟩ := refuseIf_bind_eq_ok.mp h
  obtain ⟨cutout, hcutout, h⟩ := bind_ok h
  obtain ⟨existing, -, h⟩ := bind_ok h
  obtain ⟨⟨position, moved⟩, hposition, h⟩ := bind_ok h
  obtain ⟨⟨x, y⟩, hfound, h⟩ := bind_ok h
  obtain ⟨hpasted, -⟩ := Prod.mk.inj (pure_ok h)
  rw [getOr_eq_ok.mp hfound] at hposition
  obtain ⟨hx, hy⟩ := findPosition_ok hposition
  obtain ⟨hwidth, hheight⟩ := preparedCutout_size hcutout
  rw [hpasted]
  exact labelBoxes_append hread
    ⟨center_le_one hx, center_le_one hy, length_le_one hx, length_le_one hy⟩
    (written_of_one_le hwidth) (written_of_one_le hheight)

/-- A paste onto a target. -/
structure PasteOf (target : Record) (made : Made) : Prop where
  slash : '/' ∉ made.tile.toList
  label : labelBoxes target.label = .ok target.boxes →
    (labelBoxes made.label = .ok made.boxes ↔ isBlank (openLine (readText target.label)) = true)

theorem pasteOnto_ok {entry : MaskEntry} {cutoutFile : List UInt8} {ordinal : ℕ}
    {targets : List ((String × Record) × ℕ)} {state : random.State} {pastes : List Made}
    (h : pasteOnto pillow random entry cutoutFile ordinal targets state = .ok pastes) :
    List.Forall₂ (fun target made => PasteOf target.1.2 made) targets pastes ∧
      pastes.map Made.tile = (List.range' ordinal targets.length).map (pasteTile entry) := by
  induction targets generalizing ordinal state pastes with
  | nil =>
    rw [pasteOnto] at h
    rw [pure_ok h]
    exact ⟨List.Forall₂.nil, rfl⟩
  | cons target targets ih =>
    obtain ⟨⟨kind, record⟩, targetPx⟩ := target
    obtain ⟨⟨pasted, next⟩, hpasted, h⟩ := bind_ok h
    obtain ⟨hname, h⟩ := refuseIf_bind_eq_ok.mp h
    obtain ⟨rest, hrest, h⟩ := bind_ok h
    obtain ⟨hall, htiles⟩ := ih hrest
    rw [pure_ok h]
    refine ⟨List.Forall₂.cons ?_ hall, ?_⟩
    · exact ⟨fun hslash => hname (Or.inl hslash), composite_label hpasted⟩
    · rw [List.map_cons, htiles, List.length_cons, List.range'_succ, List.map_cons]

theorem pasteTile_eq (entry : MaskEntry) (i : ℕ) :
    pasteTile entry i = "rp_paste_" ++ entry.id ++ "_" ++ i.repr := rfl

theorem pasteTile_inj {first second : MaskEntry} {i j : ℕ}
    (h : pasteTile first i = pasteTile second j) : first.id = second.id ∧ i = j := by
  rw [pasteTile_eq, pasteTile_eq] at h
  obtain ⟨hids, hnumber⟩ := numbered_inj h
  exact ⟨String.append_right_inj _ |>.mp hids, hnumber⟩

/-- The tiles that are drawn for a mask. -/
def drawnTiles (random : Random) (hardneg production : List Record) (entry : MaskEntry) :
    List Record :=
  match drawTargets random hardneg production entry with
  | .ok (targets, _) => targets.map fun target => target.1.2
  | .error _ => []

/-- The pastes of masks, one onto each tile that is drawn for them. -/
structure PastesOf (drawn : MaskEntry → List Record) (masks : List MaskEntry)
    (pastes : List Made) : Prop where
  tiles : pastes.map Made.tile = masks.flatMap fun entry =>
    (List.range (drawn entry).length).map (pasteTile entry)
  sound : ∀ made ∈ pastes, ∃ entry ∈ masks, ∃ target ∈ drawn entry, PasteOf target made
  complete : ∀ entry ∈ masks, ∀ target ∈ drawn entry, ∃ made ∈ pastes, PasteOf target made

theorem maskPastes_ok {sha256 : List UInt8 → String} {cutout : String → Option (List UInt8)}
    {hardneg production : List Record} {entry : MaskEntry} {pastes : List Made}
    (h : maskPastes pillow random sha256 cutout hardneg production entry = .ok pastes) :
    List.Forall₂ PasteOf (drawnTiles random hardneg production entry) pastes ∧
      pastes.map Made.tile = (List.range (drawnTiles random hardneg production entry).length).map
        (pasteTile entry) := by
  obtain ⟨cutoutFile, -, h⟩ := bind_ok h
  obtain ⟨-, h⟩ := refuseIf_bind_eq_ok.mp h
  obtain ⟨⟨targets, state⟩, hdraw, h⟩ := bind_ok h
  obtain ⟨hall, htiles⟩ := pasteOnto_ok h
  have hdrawn : drawnTiles random hardneg production entry =
      targets.map fun target => target.1.2 := by
    rw [drawnTiles, hdraw]
  rw [hdrawn, List.forall₂_map_left_iff, List.length_map, List.range_eq_range']
  exact ⟨hall, htiles⟩

theorem makePastes_ok {sha256 : List UInt8 → String} {cutout : String → Option (List UInt8)}
    {hardneg production : List Record} {masks : List MaskEntry} {pastes : List Made}
    (h : makePastes pillow random sha256 cutout hardneg production masks = .ok pastes) :
    PastesOf (drawnTiles random hardneg production) masks pastes := by
  obtain ⟨all, hall, rfl⟩ := map_eq_ok.mp h
  refine ⟨?_, ?_, ?_⟩
  · have hmap : all.map (List.map Made.tile) = masks.map fun entry =>
        (List.range (drawnTiles random hardneg production entry).length).map (pasteTile entry) :=
      map_of_mapM hall fun entry _ pastes hpastes => (maskPastes_ok hpastes).2
    rw [List.map_flatten, hmap]
    rfl
  · intro made hmade
    obtain ⟨pastes, hpastes, hmade⟩ := List.mem_flatten.mp hmade
    obtain ⟨entry, hentry, hmask⟩ := mem_of_mapM hall hpastes
    obtain ⟨target, htarget, hpaste⟩ :=
      exists_left_of_forall₂ (maskPastes_ok hmask).1 hmade
    exact ⟨entry, hentry, target, htarget, hpaste⟩
  · intro entry hentry target htarget
    obtain ⟨pastes, hpastes, hmask⟩ := exists_of_mapM hall hentry
    obtain ⟨made, hmade, hpaste⟩ := exists_right_of_forall₂ (maskPastes_ok hmask).1 htarget
    exact ⟨made, List.mem_flatten.mpr ⟨pastes, hpastes, hmade⟩, hpaste⟩

theorem nodup_pasteTiles {drawn : MaskEntry → List Record} {masks : List MaskEntry}
    (hids : (masks.map MaskEntry.id).Nodup) :
    (masks.flatMap fun entry =>
      (List.range (drawn entry).length).map (pasteTile entry)).Nodup := by
  refine List.nodup_flatMap.mpr ⟨?_, ?_⟩
  · intro entry _
    refine List.Nodup.map_on ?_ List.nodup_range
    intro i _ j _ h
    exact (pasteTile_inj h).2
  · refine (List.pairwise_map.mp hids).imp ?_
    intro first second hne tile hfirst hsecond
    obtain ⟨i, -, rfl⟩ := List.mem_map.mp hfirst
    obtain ⟨j, -, hname⟩ := List.mem_map.mp hsecond
    exact hne (pasteTile_inj hname).1.symm

/-- No context has the name of a paste. -/
theorem contextTile_ne_pasteTile {record : Photo} {entry : MaskEntry} {i px j : ℕ} :
    contextTile record i px ≠ pasteTile entry j := by
  intro h
  rw [contextTile_eq, pasteTile_eq] at h
  have hletter := congrArg (fun text => text.toList[3]?) h
  simp only [String.toList_append] at hletter
  revert hletter
  have hfirst : "rp_context_".toList = ['r', 'p', '_', 'c', 'o', 'n', 't', 'e', 'x', 't', '_'] := rfl
  have hsecond : "rp_paste_".toList = ['r', 'p', '_', 'p', 'a', 's', 't', 'e', '_'] := rfl
  rw [hfirst, hsecond]
  simp

end Pastes

end Mission10.Dataset
