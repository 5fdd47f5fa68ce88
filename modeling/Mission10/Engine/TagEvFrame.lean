import Mission10.Engine.AnchorBreach
import Mission10.Engine.BackProjection
import Mission10.Engine.CorrectionBounds
import Mission10.Engine.TagEv
import Mission10.Library.Outcome

/-!
# The frame of the tag observations

The first tag fixes a frame that is the true one moved by a constant. Each later tag is
registered from a position in that frame, so its place errs by no more than the scatter
of its window and twice the error of a sighting beyond the tags before it. Whatever
arrives and in whatever order, all published positions lie in the one frame up to the
errors of the tags.
-/
namespace Mission10.Engine

open MathOps

set_option linter.unusedSectionVars false

/-! ### Medians and windows -/

/-- The median of points within a distance of a center. -/
theorem medianPoint_near {points : List (Point2 ℝ)} (h : points ≠ []) {center : Point2 ℝ} {r : ℝ}
    (hin : ∀ p ∈ points, offsetLength (p - center) ≤ r) :
    offsetLength (medianPoint points - center) ≤ r := by
  obtain ⟨p, hp⟩ := List.exists_mem_of_ne_nil points h
  have hr : 0 ≤ r := (apply_nonneg offsetLength _).trans (hin p hp)
  have hfst : median ((points.map (shiftPoint (-center))).map Prod.fst) =
      (medianPoint points).1 - center.1 := by
    rw [List.map_map]
    change median (points.map fun p => p.1 + -center.1) = _
    rw [← Function.comp_def (· + -center.1) Prod.fst, ← List.map_map,
      median_shift (by simpa using h), ← sub_eq_add_neg]
    rfl
  have hsnd : median ((points.map (shiftPoint (-center))).map Prod.snd) =
      (medianPoint points).2 - center.2 := by
    rw [List.map_map]
    change median (points.map fun p => p.2 + -center.2) = _
    rw [← Function.comp_def (· + -center.2) Prod.snd, ← List.map_map,
      median_shift (by simpa using h), ← sub_eq_add_neg]
    rfl
  have hmoved : points.map (shiftPoint (-center)) ≠ [] := by
    simpa using h
  have hball : ∀ q ∈ points.map (shiftPoint (-center)), q.1 * q.1 + q.2 * q.2 ≤ r * r := by
    intro q hq
    obtain ⟨p, hp, rfl⟩ := List.mem_map.mp hq
    have hle := hin p hp
    rw [offsetLength_eq, TagAnchorMap.hypot_le_iff hr, sub_eq_add_neg] at hle
    exact hle
  have hdisc := median_in_disc hmoved hball
  rw [hfst, hsnd] at hdisc
  rw [offsetLength_eq, TagAnchorMap.hypot_le_iff hr]
  exact hdisc

/-- No point of a list is further from the center than its scatter. -/
theorem le_scatterAbout {points : List (Point2 ℝ)} (center : Point2 ℝ) {p : Point2 ℝ}
    (hp : p ∈ points) : offsetLength (p - center) ≤ scatterAbout center points := by
  have hmem : hypot (p.1 - center.1) (p.2 - center.2) ∈
      points.map fun p => hypot (p.1 - center.1) (p.2 - center.2) :=
    List.mem_map_of_mem hp
  rw [offsetLength_eq]
  unfold scatterAbout
  cases hmax : (points.map fun p => hypot (p.1 - center.1) (p.2 - center.2)).max? with
  | none =>
    rw [List.max?_eq_none_iff.mp hmax] at hmem
    contradiction
  | some largest => exact (List.max?_eq_some_iff.mp hmax).2 _ hmem

namespace TagEvNode

theorem settledPlace_spec {cfg : TagEvConfig ℝ} {rows : List (Point2 ℝ)} {place : Point2 ℝ}
    (h : settledPlace cfg rows = some place) : rows.length = cfg.registrationSamples ∧
      ∀ row ∈ rows, offsetLength (row - place) ≤ cfg.registrationScatterM := by
  unfold settledPlace at h
  split_ifs at h with hsettled
  obtain ⟨hlength, htight⟩ := hsettled
  obtain rfl := Option.some.inj h
  exact ⟨hlength, fun row hrow => (le_scatterAbout _ hrow).trans htight⟩

variable (node : TagEvNode ℝ)

theorem mem_window (tagId : ℤ) (sample : Point2 ℝ) : sample ∈ node.window tagId sample := by
  have hpos := node.cfg.samples_pos
  unfold window
  rw [List.drop_append_of_le_length (by omega)]
  exact List.mem_append_right _ (List.mem_singleton_self sample)

/-- A sample either leaves the references, or it completes a tight window of its tag. -/
theorem collect_cases (tagId : ℤ) (sample : Point2 ℝ) :
    (node.collect tagId sample).references = node.references ∨
      ∃ place, (node.collect tagId sample).references = node.references.set tagId place ∧
        (node.window tagId sample).length = node.cfg.registrationSamples ∧
        ∀ row ∈ node.window tagId sample,
          offsetLength (row - place) ≤ node.cfg.registrationScatterM := by
  cases hsettled : settledPlace node.cfg (node.window tagId sample) with
  | none =>
    left
    simp only [collect, hsettled]
  | some place =>
    right
    refine ⟨place, ?_, settledPlace_spec hsettled⟩
    simp only [collect, hsettled]

@[simp] theorem collect_cfg (tagId : ℤ) (sample : Point2 ℝ) :
    (node.collect tagId sample).cfg = node.cfg := rfl

/-- A sample for a new tag leaves the places of the known ones. -/
theorem collect_keeps {tagId known : ℤ} (hnone : node.references.get tagId = none)
    (sample : Point2 ℝ) (hknown : (node.references.get known).isSome) :
    ((node.collect tagId sample).references.get known).isSome := by
  rcases node.collect_cases tagId sample with hsame | ⟨place, hset, -, -⟩
  · rwa [hsame]
  · have hne : known ≠ tagId := by
      rintro rfl
      simp [hnone] at hknown
    rwa [hset, Dict.get_set_of_ne _ _ hne]

theorem tagId_mem_of_observations {msg : TagDetectionArray ℝ} {s : TagSighting ℝ}
    (hs : s ∈ node.observations msg) : s.tagId ∈ node.cfg.tagIds := by
  obtain ⟨detection, -, hsighting⟩ := List.mem_filterMap.mp hs
  unfold sighting at hsighting
  cases hid : tagIdOf detection.id with
  | none => simp [hid] at hsighting
  | some tagId =>
    simp only [hid] at hsighting
    split_ifs at hsighting with hmem
    obtain ⟨seen, -, rfl⟩ := Option.map_eq_some_iff.mp hsighting
    exact hmem

/-- Over flat ground, a tag is sighted where it lies: its pixel is the direction from the
camera, and the attitude and the range nearest the time of its row are the true ones. -/
theorem cameraToTag_exact (center offset : Point2 ℝ) {timestampNs attitudeNs rangeNs quality : ℤ}
    {q : Quat ℝ} {distance depth : ℝ} (hunit : q.Unit)
    (hattitude : node.attitudes.nearest
      (timestampNs + truncate (center.2 * node.camera.lineDelayS * 10 ^ 9)) 100000000 =
        some (attitudeNs, q))
    (hrange : node.ranges.nearest
      (timestampNs + truncate (center.2 * node.camera.lineDelayS * 10 ^ 9)) 100000000 =
        some (rangeNs, distance, quality))
    (hdepth : 0 < depth) (hheight : depth / 10 < distance * (quatRotate q ⟨0, 0, 1⟩).down)
    (hpixel : (TagCamera.mount ⟨(node.camera.undistortPoints center).1,
        (node.camera.undistortPoints center).2, 1⟩).scale depth =
      quatRotate (quatConj q) ⟨offset.1, offset.2, distance * (quatRotate q ⟨0, 0, 1⟩).down⟩) :
    node.cameraToTag center timestampNs =
      some (timestampNs + truncate (center.2 * node.camera.lineDelayS * 10 ^ 9), offset) := by
  set height := distance * (quatRotate q ⟨0, 0, 1⟩).down with hagl
  have hturned := congrArg (quatRotate q) hpixel
  rw [quatRotate_scale, hunit.rotate_conj] at hturned
  set ray := quatRotate q (TagCamera.mount ⟨(node.camera.undistortPoints center).1,
    (node.camera.undistortPoints center).2, 1⟩) with hray
  obtain ⟨hnorth, heast, hdown⟩ := (Vec3.mk.injEq ..).mp hturned
  have hpos : 0 < height := lt_trans (by positivity) hheight
  have hray_pos : 0 < ray.down := by
    by_contra hle
    nlinarith
  have hsteep : ¬(height ≤ 0 ∨ ray.down ≤ 1 / 10) := by
    rintro (hle | hle)
    · linarith
    · nlinarith
  unfold cameraToTag
  dsimp only
  rw [hattitude, hrange]
  dsimp only
  rw [← hray, ← hagl, if_neg hsteep, ← hdown, mul_div_cancel_right₀ _ hray_pos.ne',
    mul_comm ray.north, mul_comm ray.east, hnorth, heast]

/-! ### Anchored nodes -/

/-- How far the places of the known tags may lie from the frame. -/
noncomputable def reach (error : ℝ) : ℝ :=
  ((node.references.entries.length : ℝ) - 1) * (node.cfg.registrationScatterM + 2 * error)

/-- The sightings of a message, taken at a place, err by no more than a distance. -/
def Accurate (tags : ℤ → Point2 ℝ) (error : ℝ) (place : Point2 ℝ)
    (sightings : List (TagSighting ℝ)) : Prop :=
  ∀ s ∈ sightings, offsetLength (s.offset - (tags s.tagId - place)) ≤ error

/-- The known tags lie in the true frame moved by the datum, up to the reach. -/
structure Anchored (tags : ℤ → Point2 ℝ) (error : ℝ) (datum : Point2 ℝ) : Prop where
  some : node.references.entries ≠ []
  known : ∀ entry ∈ node.references.entries, entry.1 ∈ node.cfg.tagIds
  slack : 0 ≤ node.cfg.registrationScatterM + 2 * error
  near : ∀ entry ∈ node.references.entries,
    offsetLength (entry.2 - (tags entry.1 + datum)) ≤ node.reach error

variable {node} {tags : ℤ → Point2 ℝ} {error : ℝ} {datum place : Point2 ℝ}
  {sightings : List (TagSighting ℝ)}

namespace Anchored

/-- The positions that the known tags give lie in the frame. -/
theorem candidates_near (h : node.Anchored tags error datum)
    (haccurate : Accurate tags error place sightings) {p : Point2 ℝ}
    (hp : p ∈ node.candidates sightings) :
    offsetLength (p - (place + datum)) ≤ node.reach error + error := by
  obtain ⟨s, hs, hcandidate⟩ := List.mem_filterMap.mp hp
  obtain ⟨tag, htag, rfl⟩ := Option.map_eq_some_iff.mp hcandidate
  have hentry := h.near (s.tagId, tag) (node.references.get_eq_some_iff.mp htag)
  have hsighting := haccurate s hs
  have hsplit : ((tag.1 - s.offset.1, tag.2 - s.offset.2) : Point2 ℝ) - (place + datum) =
      (tag - (tags s.tagId + datum)) - (s.offset - (tags s.tagId - place)) := by
    change tag - s.offset - (place + datum) = _
    abel
  rw [hsplit]
  exact (map_sub_le_add offsetLength _ _).trans (add_le_add hentry hsighting)

/-- A sample that is measured from a position in the frame keeps the node in it. -/
theorem collected (h : node.Anchored tags error datum) {s : TagSighting ℝ}
    (hid : s.tagId ∈ node.cfg.tagIds) (hnone : node.references.get s.tagId = none)
    (hsighting : offsetLength (s.offset - (tags s.tagId - place)) ≤ error)
    {provisional : Point2 ℝ}
    (hprovisional : offsetLength (provisional - (place + datum)) ≤ node.reach error + error) :
    (node.collect s.tagId (provisional + s.offset)).Anchored tags error datum ∧
      node.reach error ≤ (node.collect s.tagId (provisional + s.offset)).reach error := by
  rcases node.collect_cases s.tagId (provisional + s.offset) with hsame | ⟨tag, hset, -, htight⟩
  · have hreach : (node.collect s.tagId (provisional + s.offset)).reach error =
        node.reach error := by
      unfold reach
      rw [hsame, collect_cfg]
    refine ⟨⟨by simpa [hsame] using h.some, ?_, h.slack, ?_⟩, hreach.ge⟩
    · rw [hsame]
      exact h.known
    · rw [hsame, hreach]
      exact h.near
  · obtain ⟨_, _, _, _, hget, _⟩ | ⟨-, hentries⟩ := node.references.set_split s.tagId tag
    · rw [hnone] at hget
      contradiction
    rw [← hset] at hentries
    have hgrown : (node.collect s.tagId (provisional + s.offset)).reach error =
        node.reach error + (node.cfg.registrationScatterM + 2 * error) := by
      unfold reach
      rw [hentries, List.length_append, List.length_singleton, collect_cfg]
      push_cast
      ring
    refine ⟨⟨by simp [hentries], ?_, h.slack, ?_⟩, ?_⟩
    · intro entry hentry
      rw [hentries] at hentry
      obtain hentry | hentry := List.mem_append.mp hentry
      · exact h.known entry hentry
      · rw [List.mem_singleton.mp hentry]
        exact hid
    · intro entry hentry
      rw [hgrown]
      rw [hentries] at hentry
      obtain hentry | hentry := List.mem_append.mp hentry
      · exact (h.near entry hentry).trans (le_add_of_nonneg_right h.slack)
      · rw [List.mem_singleton.mp hentry]
        have hrow := htight _ (node.mem_window s.tagId (provisional + s.offset))
        have hsplit : tag - (tags s.tagId + datum) = (s.offset - (tags s.tagId - place)) +
            (provisional - (place + datum)) - (provisional + s.offset - tag) := by
          abel
        change offsetLength (tag - (tags s.tagId + datum)) ≤ _
        rw [hsplit]
        have hsub := map_sub_le_add offsetLength ((s.offset - (tags s.tagId - place)) +
          (provisional - (place + datum))) (provisional + s.offset - tag)
        have hadd := map_add_le_add offsetLength (s.offset - (tags s.tagId - place))
          (provisional - (place + datum))
        linarith
    · rw [hgrown]
      exact le_add_of_nonneg_right h.slack

/-- The registration of the later tags keeps the frame and the tags that are known. -/
theorem registered (h : node.Anchored tags error datum)
    (hids : ∀ s ∈ sightings, s.tagId ∈ node.cfg.tagIds)
    (haccurate : Accurate tags error place sightings) {provisional : Point2 ℝ}
    (hprovisional : offsetLength (provisional - (place + datum)) ≤ node.reach error + error) :
    (sightings.foldl (registerTag provisional) node).Anchored tags error datum ∧
      ∀ tagId, (node.references.get tagId).isSome →
        ((sightings.foldl (registerTag provisional) node).references.get tagId).isSome := by
  induction sightings generalizing node with
  | nil => exact ⟨h, fun _ hknown => hknown⟩
  | cons s rest ih =>
    have hrest : Accurate tags error place rest :=
      fun other hother => haccurate other (List.mem_cons_of_mem s hother)
    rw [List.foldl_cons]
    cases hget : node.references.get s.tagId with
    | some tag =>
      have hstep : registerTag provisional node s = node := by
        simp [registerTag, hget]
      rw [hstep]
      exact ih h (fun other hother => hids other (List.mem_cons_of_mem s hother)) hrest hprovisional
    | none =>
      have hstep : registerTag provisional node s =
          node.collect s.tagId (provisional + s.offset) := by
        simp only [registerTag, hget, Option.isSome_none, Bool.false_eq_true, if_false]
        rfl
      obtain ⟨hcollected, hreach⟩ := h.collected (hids s List.mem_cons_self) hget
        (haccurate s List.mem_cons_self) hprovisional
      obtain ⟨hanchored, hknown⟩ := ih hcollected
        (fun other hother => hids other (List.mem_cons_of_mem s hother)) hrest
        (hprovisional.trans (add_le_add_left hreach error))
      rw [hstep]
      refine ⟨hanchored, fun tagId hsome => hknown tagId ?_⟩
      exact node.collect_keeps hget _ hsome

/-- What an anchored node says about a message lies in the frame. -/
theorem located (h : node.Anchored tags error datum)
    (hids : ∀ s ∈ sightings, s.tagId ∈ node.cfg.tagIds)
    (haccurate : Accurate tags error place sightings) (hfirst : node.candidates sightings ≠ []) :
    let found := sightings.foldl (registerTag (medianPoint (node.candidates sightings))) node
    found.Anchored tags error datum ∧
      offsetLength (medianPoint (found.candidates sightings) - (place + datum)) ≤
        found.reach error + error := by
  have hprovisional := medianPoint_near hfirst fun _ hp => h.candidates_near haccurate hp
  obtain ⟨hanchored, hknown⟩ := h.registered hids haccurate hprovisional
  refine ⟨hanchored, medianPoint_near ?_ fun _ hp => hanchored.candidates_near haccurate hp⟩
  obtain ⟨p, hp⟩ := List.exists_mem_of_ne_nil _ hfirst
  obtain ⟨s, hs, hcandidate⟩ := List.mem_filterMap.mp hp
  obtain ⟨tag, htag, -⟩ := Option.map_eq_some_iff.mp hcandidate
  obtain ⟨known, hget⟩ := Option.isSome_iff_exists.mp (hknown s.tagId (by simp [htag]))
  have hmem : (known.1 - s.offset.1, known.2 - s.offset.2) ∈
      (sightings.foldl (registerTag (medianPoint (node.candidates sightings)))
        node).candidates sightings :=
    List.mem_filterMap.mpr ⟨s, hs, by rw [hget, Option.map_some]⟩
  exact List.ne_nil_of_mem hmem

/-- The reach is bounded by the number of tags that the node knows by name. -/
theorem reach_le (h : node.Anchored tags error datum) : node.reach error ≤
    ((node.cfg.tagIds.card : ℝ) - 1) * (node.cfg.registrationScatterM + 2 * error) := by
  have hsub : (node.references.entries.map Prod.fst).toFinset ⊆ node.cfg.tagIds := by
    intro tagId htag
    obtain ⟨entry, hentry, rfl⟩ := List.mem_map.mp (List.mem_toFinset.mp htag)
    exact h.known entry hentry
  have hcard := Finset.card_le_card hsub
  rw [List.toFinset_card_of_nodup node.references.nodup, List.length_map] at hcard
  have hcast : (node.references.entries.length : ℝ) ≤ node.cfg.tagIds.card := by
    exact_mod_cast hcard
  exact mul_le_mul_of_nonneg_right (sub_le_sub_right hcast 1) h.slack

end Anchored

/-! ### Before the first tag -/

/-- No tag is known, and each window holds sightings of its tag from places the vehicle
went through, in order. -/
structure Waiting (tags : ℤ → Point2 ℝ) (error : ℝ) (node : TagEvNode ℝ)
    (history : List (Point2 ℝ)) : Prop where
  none : node.references.entries = []
  windows : ∀ tagId, ∃ samples : List (Point2 ℝ), samples.Sublist history ∧
    List.Forall₂ (fun row p => offsetLength (row - (tags tagId - p)) ≤ error)
      (node.registration tagId) samples

/-- The datum lies opposite to the places of a whole window. -/
def Centred (cfg : TagEvConfig ℝ) (error : ℝ) (datum : Point2 ℝ) (history : List (Point2 ℝ)) :
    Prop :=
  ∃ samples : List (Point2 ℝ), samples.Sublist history ∧
    samples.length = cfg.registrationSamples ∧
    ∀ p ∈ samples, offsetLength (p + datum) ≤ cfg.registrationScatterM + error

theorem Waiting.pass {history : List (Point2 ℝ)} (h : Waiting tags error node history)
    (place : Point2 ℝ) : Waiting tags error node (history ++ [place]) where
  none := h.none
  windows tagId := by
    obtain ⟨samples, hsub, hrows⟩ := h.windows tagId
    exact ⟨samples, hsub.trans (List.sublist_append_left _ _), hrows⟩

/-- The window of a tag that is sighted once more is measured from later places. -/
theorem Waiting.window {history : List (Point2 ℝ)} (h : Waiting tags error node history)
    {s : TagSighting ℝ} (hsighting : offsetLength (s.offset - (tags s.tagId - place)) ≤ error) :
    ∃ samples : List (Point2 ℝ), samples.Sublist (history ++ [place]) ∧
      List.Forall₂ (fun row p => offsetLength (row - (tags s.tagId - p)) ≤ error)
        (node.window s.tagId s.offset) samples := by
  obtain ⟨samples, hsub, hrows⟩ := h.windows s.tagId
  exact ⟨(samples ++ [place]).drop _,
    (List.drop_sublist _ _).trans (hsub.append (List.Sublist.refl _)),
    List.forall₂_drop _ (List.rel_append hrows (.cons hsighting .nil))⟩

/-- The first place of a tag anchors a node where the frame has the tag. -/
theorem Anchored.first {other : TagEvNode ℝ} {tagId : ℤ} {tag : Point2 ℝ}
    (hentries : other.references.entries = [(tagId, tag)]) (hid : tagId ∈ other.cfg.tagIds)
    (hslack : 0 ≤ other.cfg.registrationScatterM + 2 * error) :
    other.Anchored tags error (tag - tags tagId) := by
  refine ⟨by simp [hentries], ?_, hslack, ?_⟩
  · intro entry hentry
    rw [hentries] at hentry
    rw [List.mem_singleton.mp hentry]
    exact hid
  · intro entry hentry
    have hzero : other.reach error = 0 := by
      simp [reach, hentries]
    rw [hentries] at hentry
    rw [List.mem_singleton.mp hentry, hzero, add_sub_cancel, sub_self, map_zero]

/-- One more accurate sighting of a tag: the node waits on, or it is anchored. -/
theorem Waiting.collected {history : List (Point2 ℝ)} (h : Waiting tags error node history)
    {s : TagSighting ℝ} (hid : s.tagId ∈ node.cfg.tagIds)
    (hsighting : offsetLength (s.offset - (tags s.tagId - place)) ≤ error) :
    Waiting tags error (node.collect s.tagId s.offset) (history ++ [place]) ∨
      ∃ datum, (node.collect s.tagId s.offset).Anchored tags error datum ∧
        Centred node.cfg error datum (history ++ [place]) := by
  have hwindow := h.window hsighting
  rcases node.collect_cases s.tagId s.offset with hsame | ⟨tag, hset, hlength, htight⟩
  · refine .inl ⟨hsame.symm ▸ h.none, fun tagId => ?_⟩
    by_cases htag : tagId = s.tagId
    · subst htag
      simpa [collect] using hwindow
    · simpa [collect, htag] using (h.pass place).windows tagId
  · obtain ⟨samples, hsub, hrows⟩ := hwindow
    have hentries : (node.collect s.tagId s.offset).references.entries = [(s.tagId, tag)] := by
      rw [hset]
      change Dict.store s.tagId tag node.references.entries = _
      rw [h.none, Dict.store]
    have hscatter := (apply_nonneg offsetLength _).trans
      (htight _ (node.mem_window s.tagId s.offset))
    have herror := (apply_nonneg offsetLength _).trans hsighting
    have hslack : 0 ≤ (node.collect s.tagId s.offset).cfg.registrationScatterM + 2 * error := by
      rw [collect_cfg]
      linarith
    refine .inr ⟨tag - tags s.tagId, Anchored.first hentries hid hslack, samples, hsub, ?_, ?_⟩
    · rw [← hrows.length_eq, hlength]
    · intro p hp
      obtain ⟨row, hrow, hnear⟩ := Outcome.exists_left_of_forall₂ hrows hp
      have hsplit : p + (tag - tags s.tagId) =
          (row - (tags s.tagId - p)) - (row - tag) := by
        abel
      have hsub := map_sub_le_add offsetLength (row - (tags s.tagId - p)) (row - tag)
      have htag := htight row hrow
      rw [hsplit]
      linarith

/-! ### Events -/

/-- How far a position may lie from the frame. -/
noncomputable def frameError (cfg : TagEvConfig ℝ) (error : ℝ) : ℝ :=
  ((cfg.tagIds.card : ℝ) - 1) * (cfg.registrationScatterM + 2 * error) + error

/-- The positions of the messages that answer an event at a place lie in the frame. -/
def Framed (cfg : TagEvConfig ℝ) (error : ℝ) (datum place : Point2 ℝ)
    (event : TagEvEvent ℝ) (messages : List (TagEvMessage ℝ)) : Prop :=
  event.isDetections = true → ∀ message ∈ messages, ∀ position ∈ message.place,
    offsetLength (position - (place + datum)) ≤ frameError cfg error

theorem place_of_report {values : List (Point2 ℝ)} {usedNs nowUs : ℤ} {message : TagEvMessage ℝ}
    (hmessage : message ∈ node.report values usedNs nowUs) {position : Point2 ℝ}
    (hposition : position ∈ message.place) : position = medianPoint values := by
  unfold report at hmessage
  dsimp only at hmessage
  split_ifs at hmessage <;>
    simp only [List.mem_cons, List.mem_append, List.not_mem_nil, or_false, false_or] at hmessage
  · subst hmessage
    exact (Option.some.inj hposition).symm
  · rcases hmessage with rfl | rfl <;> exact (Option.some.inj hposition).symm
  · subst hmessage
    exact (Option.some.inj hposition).symm

theorem bootstrap_cfg (sightings : List (TagSighting ℝ)) (monotonic : ℝ) :
    (node.bootstrap sightings monotonic).cfg = node.cfg := by
  unfold bootstrap
  split_ifs
  · split <;> rfl
  · rfl

theorem registered_cfg (provisional : Point2 ℝ) (sightings : List (TagSighting ℝ)) :
    (sightings.foldl (registerTag provisional) node).cfg = node.cfg := by
  induction sightings generalizing node with
  | nil => rfl
  | cons s rest ih =>
    rw [List.foldl_cons, ih]
    unfold registerTag
    split_ifs <;> rfl

/-- A message without a candidate leaves the node where the bootstrap left it; any other
is answered by a report. -/
theorem onDetections_cases (msg : TagDetectionArray ℝ) (nowUs : ℤ) (monotonic : ℝ) :
    (node.observations msg = [] ∧ node.onDetections msg nowUs monotonic = (node, [])) ∨
      ∃ usedNs, let sightings := node.observations msg
        let started := node.bootstrap sightings monotonic
        let first := started.candidates sightings
        let found := sightings.foldl (registerTag (medianPoint first)) started
        (first = [] ∧ node.onDetections msg nowUs monotonic = (started, [])) ∨
        (first ≠ [] ∧ node.onDetections msg nowUs monotonic =
          (found, found.report (found.candidates sightings) usedNs nowUs)) := by
  unfold onDetections
  dsimp only
  cases hlast : (node.observations msg).getLast? with
  | none => exact .inl ⟨List.getLast?_eq_none_iff.mp hlast, rfl⟩
  | some last =>
    refine .inr ⟨last.rowNs, ?_⟩
    dsimp only
    split_ifs with hfirst
    · exact .inl ⟨hfirst, rfl⟩
    · exact .inr ⟨hfirst, rfl⟩

theorem onAttitude_eq (timestamp : ℤ) (q : Quat ℝ) :
    ∃ attitudes, node.onAttitude timestamp q = { node with attitudes } := by
  unfold onAttitude
  dsimp only
  split_ifs
  · exact ⟨_, rfl⟩
  · exact ⟨node.attitudes, rfl⟩

theorem onRange_eq (msg : RangeReading ℝ) : ∃ ranges, node.onRange msg = { node with ranges } := by
  unfold onRange
  dsimp only
  split_ifs
  · exact ⟨_, rfl⟩
  · exact ⟨node.ranges, rfl⟩

theorem onStatus_eq (armed : Bool) (monotonic : ℝ) :
    ∃ armedSince, node.onStatus armed monotonic = { node with armedSince } := by
  cases armed <;> exact ⟨_, rfl⟩

/-- Without detections a step takes over an attitude, a range or the arming state. -/
theorem step_quiet {event : TagEvEvent ℝ} (h : event.isDetections = false) :
    ∃ attitudes ranges armedSince,
      (node.step event).1 = { node with attitudes, ranges, armedSince } := by
  cases event with
  | attitude timestamp q =>
    obtain ⟨attitudes, heq⟩ := node.onAttitude_eq timestamp q
    exact ⟨attitudes, node.ranges, node.armedSince, heq⟩
  | range msg =>
    obtain ⟨ranges, heq⟩ := node.onRange_eq msg
    exact ⟨node.attitudes, ranges, node.armedSince, heq⟩
  | status armed monotonic =>
    obtain ⟨armedSince, heq⟩ := node.onStatus_eq armed monotonic
    exact ⟨node.attitudes, node.ranges, armedSince, heq⟩
  | priorTick nowNs nowUs monotonic => exact ⟨node.attitudes, node.ranges, node.armedSince, rfl⟩
  | detections msg nowUs monotonic => contradiction

theorem step_cfg (event : TagEvEvent ℝ) : (node.step event).1.cfg = node.cfg := by
  cases hevent : event.isDetections with
  | false =>
    obtain ⟨attitudes, ranges, armedSince, heq⟩ := step_quiet hevent
    rw [heq]
  | true =>
    cases event with
    | detections msg nowUs monotonic =>
      change (node.onDetections msg nowUs monotonic).1.cfg = _
      rcases node.onDetections_cases msg nowUs monotonic with
        ⟨-, heq⟩ | ⟨usedNs, ⟨-, heq⟩ | ⟨-, heq⟩⟩
      · rw [heq]
      · rw [heq, bootstrap_cfg]
      · rw [heq, registered_cfg, bootstrap_cfg]
    | _ => contradiction

/-- Only detections touch the windows and the references. -/
theorem step_same {event : TagEvEvent ℝ} (h : event.isDetections = false) :
    (node.step event).1.references = node.references ∧
      (node.step event).1.registration = node.registration := by
  obtain ⟨attitudes, ranges, armedSince, heq⟩ := step_quiet h
  rw [heq]
  exact ⟨rfl, rfl⟩

namespace Anchored

theorem of_same {other : TagEvNode ℝ} (h : node.Anchored tags error datum)
    (hreferences : other.references = node.references) (hcfg : other.cfg = node.cfg) :
    other.Anchored tags error datum := by
  have hreach : other.reach error = node.reach error := by
    unfold reach
    rw [hreferences, hcfg]
  refine ⟨?_, ?_, ?_, ?_⟩
  · rw [hreferences]
    exact h.some
  · rw [hreferences, hcfg]
    exact h.known
  · rw [hcfg]
    exact h.slack
  · rw [hreferences, hreach]
    exact h.near

/-- The rest of the handler, from an anchored node on. -/
theorem answered {node started : TagEvNode ℝ} (h : started.Anchored tags error datum)
    (hcfg : started.cfg = node.cfg) {msg : TagDetectionArray ℝ}
    (haccurate : Accurate tags error place (node.observations msg)) (nowUs : ℤ) {monotonic : ℝ}
    (hstarted : node.bootstrap (node.observations msg) monotonic = started) :
    (node.onDetections msg nowUs monotonic = (node, []) ∧ node.observations msg = []) ∨
    ((node.onDetections msg nowUs monotonic).1.Anchored tags error datum ∧
      Framed node.cfg error datum place (.detections msg nowUs monotonic)
        (node.onDetections msg nowUs monotonic).2) := by
  have hids : ∀ s ∈ node.observations msg, s.tagId ∈ started.cfg.tagIds := by
    intro s hs
    rw [hcfg]
    exact node.tagId_mem_of_observations hs
  rcases node.onDetections_cases msg nowUs monotonic with
    ⟨hnone, heq⟩ | ⟨usedNs, ⟨-, heq⟩ | ⟨hfirst, heq⟩⟩
  · exact .inl ⟨heq, hnone⟩
  · rw [heq, hstarted]
    exact .inr ⟨h, fun _ message hmessage => by simp at hmessage⟩
  · rw [hstarted] at hfirst heq
    obtain ⟨hanchored, hnear⟩ := h.located hids haccurate hfirst
    have hreach := hanchored.reach_le
    rw [registered_cfg, hcfg] at hreach
    rw [heq]
    refine .inr ⟨hanchored, fun _ message hmessage position hposition => ?_⟩
    rw [place_of_report hmessage hposition]
    exact hnear.trans (add_le_add_left hreach error)

/-- An anchored node keeps the frame, and its positions lie in it. -/
theorem step (h : node.Anchored tags error datum) (event : TagEvEvent ℝ)
    (haccurate : Accurate tags error place (node.sightingsOf event)) :
    (node.step event).1.Anchored tags error datum ∧
      Framed node.cfg error datum place event (node.step event).2 := by
  cases hevent : event.isDetections with
  | false =>
    exact ⟨h.of_same (step_same hevent).1 (step_cfg event),
      fun htrue => by rw [hevent] at htrue; contradiction⟩
  | true =>
    cases event with
    | detections msg nowUs monotonic =>
      have hbootstrap : node.bootstrap (node.observations msg) monotonic = node := by
        unfold bootstrap
        rw [if_neg fun hempty => h.some hempty.1]
      rcases h.answered rfl haccurate nowUs hbootstrap with ⟨heq, -⟩ | hanswered
      · change (node.onDetections msg nowUs monotonic).1.Anchored tags error datum ∧
          Framed node.cfg error datum place _ (node.onDetections msg nowUs monotonic).2
        rw [heq]
        exact ⟨h, fun _ message hmessage => by simp at hmessage⟩
      · exact hanswered
    | _ => contradiction

end Anchored

/-! ### Runs -/

theorem anchor_mem {s : TagSighting ℝ} (h : node.anchor sightings = some s) : s ∈ sightings := by
  cases sightings with
  | nil => contradiction
  | cons first rest =>
    obtain rfl := Option.some.inj h
    exact List.foldlRecOn rest _ List.mem_cons_self fun best hbest s hs => by
      split_ifs
      · exact List.mem_cons_of_mem first hs
      · exact hbest

theorem candidates_of_none (h : node.references.entries = []) (sightings : List (TagSighting ℝ)) :
    node.candidates sightings = [] := by
  unfold candidates Dict.get
  simp [h]

/-- A waiting node waits on and says nothing of a position, or it is anchored from then on. -/
theorem Waiting.step {history : List (Point2 ℝ)} (h : Waiting tags error node history)
    (event : TagEvEvent ℝ) (haccurate : Accurate tags error place (node.sightingsOf event)) :
    (Waiting tags error (node.step event).1 (history ++ [place]) ∧
      (event.isDetections = true → (node.step event).2 = [])) ∨
    ∃ datum, (node.step event).1.Anchored tags error datum ∧
      Centred node.cfg error datum (history ++ [place]) ∧
      Framed node.cfg error datum place event (node.step event).2 := by
  cases hevent : event.isDetections with
  | false =>
    obtain ⟨hreferences, hregistration⟩ := step_same hevent
    obtain ⟨hnone, hwindows⟩ := h.pass place
    exact .inl ⟨⟨hreferences.symm ▸ hnone, hregistration.symm ▸ hwindows⟩, by simp⟩
  | true =>
    cases event with
    | detections msg nowUs monotonic =>
      change (Waiting tags error (node.onDetections msg nowUs monotonic).1 _ ∧
          (_ → (node.onDetections msg nowUs monotonic).2 = [])) ∨
        ∃ datum, (node.onDetections msg nowUs monotonic).1.Anchored tags error datum ∧ _ ∧
          Framed node.cfg error datum place _ (node.onDetections msg nowUs monotonic).2
      have hstarted : Waiting tags error
          (node.bootstrap (node.observations msg) monotonic) (history ++ [place]) ∨
          ∃ datum, (node.bootstrap (node.observations msg) monotonic).Anchored tags error datum ∧
            Centred node.cfg error datum (history ++ [place]) := by
        unfold bootstrap
        split_ifs
        · cases hanchor : node.anchor (node.observations msg) with
          | none => exact .inl (h.pass place)
          | some s =>
            have hs := anchor_mem hanchor
            exact h.collected (node.tagId_mem_of_observations hs) (haccurate s hs)
        · exact .inl (h.pass place)
      rcases hstarted with hwaiting | ⟨datum, hanchored, hcentred⟩
      · have hempty := candidates_of_none hwaiting.none (node.observations msg)
        left
        rcases node.onDetections_cases msg nowUs monotonic with
          ⟨-, heq⟩ | ⟨usedNs, ⟨-, heq⟩ | ⟨hfirst, -⟩⟩
        · rw [heq]
          exact ⟨h.pass place, fun _ => rfl⟩
        · rw [heq]
          exact ⟨hwaiting, fun _ => rfl⟩
        · exact absurd hempty hfirst
      · rcases hanchored.answered (bootstrap_cfg _ _) haccurate nowUs rfl with
          ⟨heq, -⟩ | ⟨hlater, hframed⟩
        · rw [heq]
          exact .inl ⟨h.pass place, fun _ => rfl⟩
        · exact .inr ⟨datum, hlater, hcentred, hframed⟩
    | _ => contradiction

/-- An event with the place where the vehicle is then. -/
abbrev PlacedEvent := TagEvEvent ℝ × Point2 ℝ

/-- Every sighting of the run errs by no more than a distance. -/
def AccurateRun (tags : ℤ → Point2 ℝ) (error : ℝ) : TagEvNode ℝ → List PlacedEvent → Prop
  | _, [] => True
  | node, (event, place) :: rest => Accurate tags error place (node.sightingsOf event) ∧
      AccurateRun tags error (node.step event).1 rest

/-- The positions of the trace lie in the frame. -/
def FramedTrace (cfg : TagEvConfig ℝ) (error : ℝ) (datum : Point2 ℝ)
    (entries : List (PlacedEvent × TagEvMessage ℝ)) : Prop :=
  ∀ entry ∈ entries, entry.1.1.isDetections = true → ∀ position ∈ entry.2.place,
    offsetLength (position - (entry.1.2 + datum)) ≤ frameError cfg error

theorem Framed.trace {event : TagEvEvent ℝ} {cfg : TagEvConfig ℝ}
    {messages : List (TagEvMessage ℝ)} (h : Framed cfg error datum place event messages)
    {later : List (PlacedEvent × TagEvMessage ℝ)} (hlater : FramedTrace cfg error datum later) :
    FramedTrace cfg error datum (messages.map ((event, place), ·) ++ later) := by
  intro entry hentry hevent position hposition
  obtain hentry | hentry := List.mem_append.mp hentry
  · obtain ⟨message, hmessage, rfl⟩ := List.mem_map.mp hentry
    exact h hevent message hmessage position hposition
  · exact hlater entry hentry hevent position hposition

theorem Anchored.run (h : node.Anchored tags error datum) {run : List PlacedEvent}
    (haccurate : AccurateRun tags error node run) :
    FramedTrace node.cfg error datum (trace Prod.fst node run) := by
  induction run generalizing node with
  | nil => exact fun entry hentry => by cases hentry
  | cons entry rest ih =>
    obtain ⟨event, place⟩ := entry
    obtain ⟨hsighted, hrest⟩ := haccurate
    obtain ⟨hlater, hframed⟩ := h.step event hsighted
    have hih := ih hlater hrest
    rw [step_cfg] at hih
    exact hframed.trace hih

/-- From a waiting node on, one datum serves the whole run. -/
theorem Waiting.run {history : List (Point2 ℝ)} (h : Waiting tags error node history)
    {run : List PlacedEvent} (haccurate : AccurateRun tags error node run) :
    ∃ datum, FramedTrace node.cfg error datum (trace Prod.fst node run) ∧
      ((∃ entry ∈ trace Prod.fst node run, entry.1.1.isDetections = true) →
        Centred node.cfg error datum (history ++ run.map Prod.snd)) := by
  induction run generalizing node history with
  | nil =>
    refine ⟨0, (fun entry hentry => by cases hentry), ?_⟩
    rintro ⟨entry, hentry, -⟩
    cases hentry
  | cons entry rest ih =>
    obtain ⟨event, place⟩ := entry
    obtain ⟨hsighted, hrest⟩ := haccurate
    rcases h.step event hsighted with ⟨hwaiting, hsilent⟩ | ⟨datum, hanchored, hcentred, hframed⟩
    · obtain ⟨datum, hlater, hcentred⟩ := ih hwaiting hrest
      rw [step_cfg] at hlater hcentred
      have hframed : Framed node.cfg error datum place event (node.step event).2 := by
        intro hevent message hmessage
        rw [hsilent hevent] at hmessage
        cases hmessage
      refine ⟨datum, hframed.trace hlater, ?_⟩
      rintro ⟨entry, hentry, hdetections⟩
      rw [List.map_cons, List.append_cons]
      refine hcentred ⟨entry, ?_, hdetections⟩
      obtain hentry | hentry := List.mem_append.mp hentry
      · obtain ⟨message, hmessage, rfl⟩ := List.mem_map.mp hentry
        rw [hsilent hdetections] at hmessage
        cases hmessage
      · exact hentry
    · have hlater := hanchored.run hrest
      rw [step_cfg] at hlater
      refine ⟨datum, hframed.trace hlater, fun _ => ?_⟩
      obtain ⟨samples, hsub, hrows⟩ := hcentred
      exact ⟨samples, hsub.trans ((List.Sublist.refl history).append
        (List.singleton_sublist.mpr List.mem_cons_self)), hrows⟩

/-- In every run whose sightings err by no more than a distance, all positions that the
node derives from tags lie in one frame, which the bootstrap window ties to the places of
the vehicle during it. -/
theorem positions_share_frame (cfg : TagEvConfig ℝ) (camera : TagCamera ℝ)
    (tags : ℤ → Point2 ℝ) (error : ℝ) (run : List PlacedEvent)
    (haccurate : AccurateRun tags error (new cfg camera) run) :
    ∃ datum, FramedTrace cfg error datum (trace Prod.fst (new cfg camera) run) ∧
      ((∃ entry ∈ trace Prod.fst (new cfg camera) run, entry.1.1.isDetections = true) →
        Centred cfg error datum (run.map Prod.snd)) := by
  have hnew : Waiting tags error (new cfg camera) [] :=
    ⟨rfl, fun _ => ⟨[], List.Sublist.refl _, .nil⟩⟩
  exact hnew.run haccurate

/-- A window of one sample for one tag. -/
noncomputable def hoverConfig : TagEvConfig ℝ :=
  { tagIds := {6}, registrationSamples := 1, samples_pos := Nat.one_pos }

/-- The calibrated camera without its distortion, which leaves the principal point. -/
noncomputable def hoverCamera : TagCamera ℝ where
  undistortPoints p := ((p.1 - 827.70242273) / 1298.69385194, (p.2 - 617.60425847) / 1299.56328818)

/-- A vehicle that hovers 2 m over the tag. -/
noncomputable def hoverRun : List PlacedEvent :=
  [(.attitude 1000 ⟨1, 0, 0, 0⟩, (3, 4)), (.range ⟨1000, 2, 0, 10, 100⟩, (3, 4)),
    (.detections ⟨1000000, [⟨"36h11:6", (827.70242273, 617.60425847)⟩]⟩ 1100 5, (3, 4))]

/-- The node after the attitude and the range. -/
noncomputable def hovering : TagEvNode ℝ :=
  { new hoverConfig hoverCamera with
    attitudes := ⟨[(1000000, ⟨1, 0, 0, 0⟩)], 500⟩, ranges := ⟨[(1000000, 2, 100)], 500⟩ }

theorem hovering_step : (((new hoverConfig hoverCamera).step (.attitude 1000 ⟨1, 0, 0, 0⟩)).1.step
    (.range ⟨1000, 2, 0, 10, 100⟩)).1 = hovering := by
  have hnorm : sqrt (1 * 1 + 0 * 0 + 0 * 0 + 0 * 0 : ℝ) = 1 := by
    rw [sqrt_real]
    norm_num
  simp only [step, onAttitude, hnorm, onRange]
  norm_num [new, hovering, TimedHistory.add]

theorem hovering_sighting : hovering.cameraToTag (827.70242273, 617.60425847) 1000000 =
    some (6983778, (0, 0)) := by
  have hrow : truncate (617.60425847 * (968869339923 / 10 ^ 17) * 10 ^ 9 : ℝ) = 5983778 := by
    unfold truncate
    rw [if_neg (by norm_num), floor_real, Int.floor_eq_iff]
    norm_num
  have hattitude : hovering.attitudes.nearest 6983778 100000000 = some (1000000, ⟨1, 0, 0, 0⟩) := by
    simp [hovering, TimedHistory.nearest]
  have hrange : hovering.ranges.nearest 6983778 100000000 = some (1000000, 2, 100) := by
    simp [hovering, TimedHistory.nearest]
  have htime : 1000000 + truncate (617.60425847 * hovering.camera.lineDelayS * 10 ^ 9 : ℝ) =
      6983778 := by
    change 1000000 + truncate (617.60425847 * (968869339923 / 10 ^ 17) * 10 ^ 9 : ℝ) = _
    rw [hrow]
    norm_num
  rw [← htime] at hattitude hrange ⊢
  have hdepth : (0 : ℝ) < 2 := two_pos
  exact hovering.cameraToTag_exact (827.70242273, 617.60425847) (0, 0)
    (by norm_num [Quat.Unit]) hattitude hrange hdepth (by norm_num [quatRotate])
    (by norm_num [hovering, new, hoverCamera, TagCamera.mount, Vec3.scale, quatRotate, quatConj])

theorem hoverRun_accurate :
    AccurateRun (fun _ => (3, 4)) 0 (new hoverConfig hoverCamera) hoverRun := by
  have hid : tagIdOf "36h11:6" = some 6 := by decide +kernel
  have hnil (place : Point2 ℝ) : Accurate (fun _ => (3, 4)) 0 place [] := fun s hs => by cases hs
  refine ⟨hnil _, hnil _, ?_, trivial⟩
  intro s hs
  rw [hovering_step] at hs
  have hsighting : hovering.sighting 1000000 ⟨"36h11:6", (827.70242273, 617.60425847)⟩ =
      some ⟨6, 6983778, (0, 0)⟩ := by
    simp [sighting, hid, hovering_sighting, show (6 : ℤ) ∈ hovering.cfg.tagIds from by
      simp [hovering, new, hoverConfig]]
  simp only [sightingsOf, observations, List.filterMap_cons, hsighting, List.filterMap_nil,
    List.mem_singleton] at hs
  subst hs
  have hzero : ((0, 0) : Point2 ℝ) - ((3, 4) - (3, 4)) = 0 := by
    simp
  change offsetLength ((0, 0) - ((3, 4) - (3, 4))) ≤ 0
  rw [hzero, map_zero]

theorem positions_share_frame_hover :
    ∃ datum, FramedTrace hoverConfig 0 datum
        (trace Prod.fst (new hoverConfig hoverCamera) hoverRun) ∧
      ((∃ entry ∈ trace Prod.fst (new hoverConfig hoverCamera) hoverRun,
        entry.1.1.isDetections = true) → Centred hoverConfig 0 datum (hoverRun.map Prod.snd)) :=
  positions_share_frame hoverConfig hoverCamera (fun _ => (3, 4)) 0 hoverRun hoverRun_accurate

end TagEvNode

end Mission10.Engine
