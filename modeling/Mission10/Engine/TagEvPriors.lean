import Mission10.Engine.TagEvFrame
import Mission10.Library.HeldAlarm

/-!
# Priors and positions of the tag observations

The launch prior is a bootstrap: it stands only before the first position from a tag, and
in the air only for a limited time. A node that knows no tag when that time is over stays
silent until the vehicle disarms. What the variance of a position says is never below the
noise floor, and never beyond what the agreement of the tags allows.
-/
namespace Mission10.Engine

open MathOps

set_option linter.unusedSectionVars false

/-! ### Variances -/

theorem sum_sq_about (values : List ℝ) (m c : ℝ) : (values.map fun v => (v - c) ^ 2).sum =
    (values.map fun v => (v - m) ^ 2).sum + 2 * (m - c) * (values.sum - values.length * m) +
      values.length * (m - c) ^ 2 := by
  induction values with
  | nil => simp
  | cons v rest ih =>
    simp only [List.map_cons, List.sum_cons, List.length_cons, Nat.cast_add, Nat.cast_one, ih]
    ring

/-- The mean square deviation from the mean is no larger than any bound of the square
deviations from a point. -/
theorem variance_le {values : List ℝ} {c limit : ℝ}
    (h : ∀ v ∈ values, (v - c) ^ 2 ≤ limit ^ 2) : variance values ≤ limit ^ 2 := by
  rcases List.eq_nil_or_concat values with rfl | ⟨front, last, rfl⟩
  · simpa [variance] using sq_nonneg limit
  · set values := front.concat last with hvalues
    have hpos : (0 : ℝ) < values.length := by
      rw [hvalues, List.length_concat]
      positivity
    have hmean : values.sum - values.length * (values.sum / values.length) = 0 := by
      rw [mul_div_cancel₀ _ hpos.ne', sub_self]
    have habout := sum_sq_about values (values.sum / values.length) c
    rw [hmean, mul_zero, add_zero] at habout
    have hbound : (values.map fun v => (v - c) ^ 2).sum ≤ values.length * limit ^ 2 := by
      have hsum := List.sum_le_card_nsmul (values.map fun v => (v - c) ^ 2) (limit ^ 2) (by
        intro x hx
        obtain ⟨v, hv, rfl⟩ := List.mem_map.mp hx
        exact h v hv)
      rwa [List.length_map, nsmul_eq_mul] at hsum
    have hsq := mul_nonneg hpos.le (sq_nonneg (values.sum / values.length - c))
    unfold variance
    dsimp only
    rw [div_le_iff₀ hpos]
    linarith

namespace TagEvNode

/-- Candidates that agree have a variance within the square of their disagreement. -/
theorem scatterVar_le {values : List (Point2 ℝ)} {limit : ℝ} (h : disagreement values ≤ limit) :
    scatterVar values ≤ limit ^ 2 := by
  unfold scatterVar
  split_ifs with hseveral
  · rw [disagreement, if_pos hseveral] at h
    have hnear : ∀ p ∈ values, (p.1 - (medianPoint values).1) ^ 2 ≤ limit ^ 2 ∧
        (p.2 - (medianPoint values).2) ^ 2 ≤ limit ^ 2 := by
      intro p hp
      have hle := (le_scatterAbout (medianPoint values) hp).trans h
      have hnonneg := (apply_nonneg offsetLength _).trans hle
      rw [offsetLength_eq, TagAnchorMap.hypot_le_iff hnonneg] at hle
      change (p.1 - _) * (p.1 - _) + (p.2 - _) * (p.2 - _) ≤ _ at hle
      have hfst := mul_self_nonneg (p.1 - (medianPoint values).1)
      have hsnd := mul_self_nonneg (p.2 - (medianPoint values).2)
      constructor <;> nlinarith
    refine max_le (variance_le (c := (medianPoint values).1) ?_)
      (variance_le (c := (medianPoint values).2) ?_)
    · intro v hv
      obtain ⟨p, hp, rfl⟩ := List.mem_map.mp hv
      exact (hnear p hp).1
    · intro v hv
      obtain ⟨p, hp, rfl⟩ := List.mem_map.mp hv
      exact (hnear p hp).2
  · exact sq_nonneg limit

variable {node : TagEvNode ℝ}

/-! ### Known tags stay known -/

theorem collect_known (h : node.references.entries ≠ []) (tagId : ℤ) (sample : Point2 ℝ) :
    (node.collect tagId sample).references.entries ≠ [] := by
  rcases node.collect_cases tagId sample with hsame | ⟨place, hset, -, -⟩
  · rwa [hsame]
  · rw [hset]
    rcases node.references.set_split tagId place with ⟨_, _, _, -, -, hentries⟩ | ⟨-, hentries⟩ <;>
      simp [hentries]

theorem registered_known (h : node.references.entries ≠ []) (provisional : Point2 ℝ)
    (sightings : List (TagSighting ℝ)) :
    (sightings.foldl (registerTag provisional) node).references.entries ≠ [] := by
  induction sightings generalizing node with
  | nil => exact h
  | cons s rest ih =>
    rw [List.foldl_cons]
    refine ih ?_
    unfold registerTag
    split_ifs
    · exact h
    · exact collect_known h _ _

theorem bootstrap_of_known (h : node.references.entries ≠ []) (sightings : List (TagSighting ℝ))
    (monotonic : ℝ) : node.bootstrap sightings monotonic = node := by
  unfold bootstrap
  rw [if_neg fun hempty => h hempty.1]

/-- A tag that the bootstrap registers gives a position in the same message. -/
theorem candidates_of_bootstrap (hnone : node.references.entries = [])
    {sightings : List (TagSighting ℝ)} {monotonic : ℝ}
    (h : (node.bootstrap sightings monotonic).references.entries ≠ []) :
    (node.bootstrap sightings monotonic).candidates sightings ≠ [] := by
  unfold bootstrap at h ⊢
  split_ifs at h ⊢ with hallowed
  · cases hanchor : node.anchor sightings with
    | none =>
      rw [hanchor] at h
      exact absurd hnone h
    | some s =>
      rw [hanchor] at h
      dsimp only at h ⊢
      rcases node.collect_cases s.tagId s.offset with hsame | ⟨place, hset, -, -⟩
      · rw [hsame] at h
        exact absurd hnone h
      · have hmem : (place.1 - s.offset.1, place.2 - s.offset.2) ∈
            (node.collect s.tagId s.offset).candidates sightings :=
          List.mem_filterMap.mpr ⟨s, anchor_mem hanchor, by
            rw [hset, Dict.get_set_self, Option.map_some]⟩
        exact List.ne_nil_of_mem hmem
  · exact absurd hnone h

/-- A message is answered exactly when a tag is known after it. -/
theorem onDetections_known (msg : TagDetectionArray ℝ) (nowUs : ℤ) (monotonic : ℝ) :
    ((node.onDetections msg nowUs monotonic).2 ≠ [] →
      (node.onDetections msg nowUs monotonic).1.references.entries ≠ []) ∧
    (node.references.entries = [] → (node.onDetections msg nowUs monotonic).2 = [] →
      (node.onDetections msg nowUs monotonic).1.references.entries = []) := by
  rcases node.onDetections_cases msg nowUs monotonic with
    ⟨-, heq⟩ | ⟨usedNs, ⟨hfirst, heq⟩ | ⟨hfirst, heq⟩⟩
  · rw [heq]
    exact ⟨fun h => absurd rfl h, fun hnone _ => hnone⟩
  · rw [heq]
    refine ⟨fun h => absurd rfl h, fun hnone _ => ?_⟩
    by_contra hknown
    exact candidates_of_bootstrap hnone hknown hfirst
  · rw [heq]
    have hstarted : (node.bootstrap (node.observations msg) monotonic).references.entries ≠ [] :=
      fun hnone => hfirst (candidates_of_none hnone _)
    refine ⟨fun _ => registered_known hstarted _ _, fun _ hsilent => ?_⟩
    exact absurd hsilent (by
      unfold report
      dsimp only
      split_ifs <;> simp)

theorem step_known (h : node.references.entries ≠ []) (event : TagEvEvent ℝ) :
    (node.step event).1.references.entries ≠ [] := by
  cases hevent : event.isDetections with
  | false =>
    rw [(step_same hevent).1]
    exact h
  | true =>
    cases event with
    | detections msg nowUs monotonic =>
      change (node.onDetections msg nowUs monotonic).1.references.entries ≠ []
      rcases node.onDetections_cases msg nowUs monotonic with
        ⟨-, heq⟩ | ⟨usedNs, ⟨-, heq⟩ | ⟨-, heq⟩⟩ <;> rw [heq]
      · exact h
      · rwa [bootstrap_of_known h]
      · rw [bootstrap_of_known h]
        exact registered_known h _ _
    | _ => contradiction

/-! ### Runs -/

/-- The node after a run. -/
noncomputable def after (node : TagEvNode ℝ) (events : List (TagEvEvent ℝ)) : TagEvNode ℝ :=
  events.foldl (fun node event => (node.step event).1) node

theorem after_concat (node : TagEvNode ℝ) (events : List (TagEvEvent ℝ)) (event : TagEvEvent ℝ) :
    node.after (events ++ [event]) = ((node.after events).step event).1 := by
  rw [after, List.foldl_append, List.foldl_cons, List.foldl_nil, after]

theorem after_cfg (events : List (TagEvEvent ℝ)) : (node.after events).cfg = node.cfg := by
  induction events generalizing node with
  | nil => rfl
  | cons event rest ih =>
    change ((node.step event).1.after rest).cfg = node.cfg
    rw [ih, step_cfg]

theorem trace_append (node : TagEvNode ℝ) (before later : List (TagEvEvent ℝ)) :
    trace id node (before ++ later) =
      trace id node before ++ trace id (node.after before) later := by
  induction before generalizing node with
  | nil => rfl
  | cons event rest ih =>
    rw [List.cons_append, trace, trace, ih, List.append_assoc]
    rfl

/-- The arming state that an event reports, with its time. -/
def reading : TagEvEvent ℝ → Option (ℝ × Bool)
  | .status armed monotonic => some (monotonic, armed)
  | _ => none

theorem onDetections_armedSince (msg : TagDetectionArray ℝ) (nowUs : ℤ) (monotonic : ℝ) :
    (node.onDetections msg nowUs monotonic).1.armedSince = node.armedSince := by
  have hstarted (sightings : List (TagSighting ℝ)) :
      (node.bootstrap sightings monotonic).armedSince = node.armedSince := by
    unfold bootstrap
    split_ifs
    · split <;> rfl
    · rfl
  have hfound (provisional : Point2 ℝ) (sightings : List (TagSighting ℝ)) (node : TagEvNode ℝ) :
      (sightings.foldl (registerTag provisional) node).armedSince = node.armedSince := by
    induction sightings generalizing node with
    | nil => rfl
    | cons s rest ih =>
      rw [List.foldl_cons, ih]
      unfold registerTag
      split_ifs <;> rfl
  rcases node.onDetections_cases msg nowUs monotonic with
    ⟨-, heq⟩ | ⟨usedNs, ⟨-, heq⟩ | ⟨-, heq⟩⟩
  · rw [heq]
  · rw [heq, hstarted]
  · rw [heq, hfound, hstarted]

/-- Only a report of the arming state changes what the node knows of it. -/
theorem step_armedSince (event : TagEvEvent ℝ) : (node.step event).1.armedSince =
    match reading event with
    | some (monotonic, armed) => if armed then some (node.armedSince.getD monotonic) else none
    | none => node.armedSince := by
  cases event with
  | attitude timestamp q =>
    obtain ⟨attitudes, heq⟩ := node.onAttitude_eq timestamp q
    change (node.onAttitude timestamp q).armedSince = node.armedSince
    rw [heq]
  | range msg =>
    obtain ⟨ranges, heq⟩ := node.onRange_eq msg
    change (node.onRange msg).armedSince = node.armedSince
    rw [heq]
  | status armed monotonic => cases armed <;> rfl
  | priorTick nowNs nowUs monotonic => rfl
  | detections msg nowUs monotonic => exact onDetections_armedSince msg nowUs monotonic

/-- The node keeps the time since which the vehicle has been armed. -/
theorem armedSince_after (cfg : TagEvConfig ℝ) (camera : TagCamera ℝ)
    (events : List (TagEvEvent ℝ)) : ((new cfg camera).after events).armedSince =
      HeldAlarm.since (events.filterMap reading) := by
  induction events using List.reverseRecOn with
  | nil => rfl
  | append_singleton front event ih =>
    rw [after_concat, step_armedSince, List.filterMap_append, ih]
    cases hreading : reading event with
    | none => simp [hreading]
    | some status =>
      rw [List.filterMap_cons_some hreading, List.filterMap_nil, HeldAlarm.since_concat]

/-- While no tag is known, only detections that register one are answered. -/
theorem unknown_after (cfg : TagEvConfig ℝ) (camera : TagCamera ℝ)
    {events : List (TagEvEvent ℝ)}
    (hquiet : ∀ entry ∈ trace id (new cfg camera) events, entry.1.isDetections = false) :
    ((new cfg camera).after events).references.entries = [] := by
  induction events using List.reverseRecOn with
  | nil => rfl
  | append_singleton front event ih =>
    rw [trace_append] at hquiet
    have hfront := ih fun entry hentry => hquiet entry (List.mem_append_left _ hentry)
    rw [after_concat]
    cases hevent : event.isDetections with
    | false => rw [(step_same hevent).1, hfront]
    | true =>
      have hsilent : (((new cfg camera).after front).step event).2 = [] := by
        by_contra hne
        obtain ⟨message, hmessage⟩ := List.exists_mem_of_ne_nil _ hne
        have hmem : (event, message) ∈ trace id ((new cfg camera).after front) [event] := by
          rw [trace, trace, List.append_nil]
          exact List.mem_map_of_mem hmessage
        have hfalse := hquiet _ (List.mem_append_right _ hmem)
        rw [hevent] at hfalse
        contradiction
      cases event with
      | detections msg nowUs monotonic =>
        exact (onDetections_known msg nowUs monotonic).2 hfront hsilent
      | _ => contradiction

/-- Without a tag and without the permission for priors, detections change nothing. -/
theorem onDetections_denied (hnone : node.references.entries = []) {monotonic : ℝ}
    (hdenied : node.priorAllowed monotonic = false) (msg : TagDetectionArray ℝ) (nowUs : ℤ) :
    node.onDetections msg nowUs monotonic = (node, []) := by
  have hbootstrap (sightings : List (TagSighting ℝ)) :
      node.bootstrap sightings monotonic = node := by
    unfold bootstrap
    rw [if_neg fun hallowed => by simp [hdenied] at hallowed]
  rcases node.onDetections_cases msg nowUs monotonic with
    ⟨-, heq⟩ | ⟨usedNs, ⟨-, heq⟩ | ⟨hfirst, -⟩⟩
  · exact heq
  · rw [heq, hbootstrap]
  · rw [hbootstrap, candidates_of_none hnone] at hfirst
    exact absurd rfl hfirst

/-- An event of an armed vehicle past the time for priors. -/
structure Overdue (cfg : TagEvConfig ℝ) (start : ℝ) (event : TagEvEvent ℝ) : Prop where
  armed : ∀ status ∈ reading event, status.2 = true
  late : ∀ monotonic ∈ event.clock, cfg.priorTimeoutAfterArmS < monotonic - start

theorem Overdue.step {start : ℝ} {event : TagEvEvent ℝ} (hlate : Overdue node.cfg start event)
    (hnone : node.references.entries = []) (hstart : node.armedSince = some start) :
    (node.step event).1.references.entries = [] ∧
      (node.step event).1.armedSince = some start ∧ (node.step event).2 = [] := by
  have hdenied : ∀ monotonic ∈ event.clock, node.priorAllowed monotonic = false := by
    intro monotonic hclock
    have hlt := hlate.late monotonic hclock
    unfold priorAllowed
    rw [hstart]
    split_ifs
    · rfl
    · rw [Option.all_some, decide_eq_false (not_le.mpr hlt)]
  have harmed : (node.step event).1.armedSince = some start := by
    rw [step_armedSince]
    cases hreading : reading event with
    | none => exact hstart
    | some status => simp [hlate.armed status hreading, hstart]
  have hsame (hevent : event.isDetections = false) :
      (node.step event).1.references.entries = [] := by
    rw [(step_same hevent).1]
    exact hnone
  cases event with
  | detections msg nowUs monotonic =>
    have hstep : node.step (.detections msg nowUs monotonic) = (node, []) :=
      onDetections_denied hnone (hdenied monotonic rfl) msg nowUs
    rw [hstep]
    exact ⟨hnone, hstart, rfl⟩
  | priorTick nowNs nowUs monotonic =>
    have hsilent : node.priorTick nowNs nowUs monotonic = [] := by
      unfold priorTick
      rw [if_pos (hdenied monotonic rfl)]
    exact ⟨hnone, harmed, hsilent⟩
  | attitude timestamp q => exact ⟨hsame rfl, harmed, rfl⟩
  | range msg => exact ⟨hsame rfl, harmed, rfl⟩
  | status armed monotonic => exact ⟨hsame rfl, harmed, rfl⟩

/-- A node that has published no position from a tag when the time for priors is over says
nothing until the vehicle disarms. -/
theorem silent_past_timeout (cfg : TagEvConfig ℝ) (camera : TagCamera ℝ)
    (before later : List (TagEvEvent ℝ)) (start : ℝ)
    (hquiet : ∀ entry ∈ trace id (new cfg camera) before, entry.1.isDetections = false)
    (hstart : HeldAlarm.since (before.filterMap reading) = some start)
    (hlate : ∀ event ∈ later, Overdue cfg start event) :
    trace id (new cfg camera) (before ++ later) = trace id (new cfg camera) before := by
  have hsilent (node : TagEvNode ℝ) (hcfg : node.cfg = cfg)
      (hnone : node.references.entries = []) (harmed : node.armedSince = some start) :
      trace id node later = [] := by
    induction later generalizing node with
    | nil => rfl
    | cons event rest ih =>
      have hfirst := hlate event List.mem_cons_self
      rw [← hcfg] at hfirst
      obtain ⟨hreferences, hsince, hmessages⟩ := hfirst.step hnone harmed
      rw [trace, id, hmessages, List.map_nil, List.nil_append]
      exact ih (fun other hother => hlate other (List.mem_cons_of_mem _ hother)) _
        (by rw [step_cfg, hcfg]) hreferences hsince
  rw [trace_append, hsilent _ (after_cfg before) (unknown_after cfg camera hquiet)
    (by rw [armedSince_after, hstart]), List.append_nil]

theorem after_known (h : node.references.entries ≠ []) (events : List (TagEvEvent ℝ)) :
    (node.after events).references.entries ≠ [] := by
  induction events generalizing node with
  | nil => exact h
  | cons event rest ih => exact ih (step_known h event)

/-- A tag whose position has been published is known. -/
theorem known_after {events : List (TagEvEvent ℝ)} {entry : TagEvEvent ℝ × TagEvMessage ℝ}
    (hentry : entry ∈ trace id node events) (hevent : entry.1.isDetections = true) :
    (node.after events).references.entries ≠ [] := by
  induction events generalizing node with
  | nil => cases hentry
  | cons event rest ih =>
    obtain hentry | hentry := List.mem_append.mp hentry
    · obtain ⟨message, hmessage, rfl⟩ := List.mem_map.mp hentry
      have hknown : (node.step event).1.references.entries ≠ [] := by
        cases event with
        | detections msg nowUs monotonic =>
          exact (onDetections_known msg nowUs monotonic).1 (List.ne_nil_of_mem hmessage)
        | _ => contradiction
      exact after_known hknown rest
    · exact ih hentry

/-- Every entry of a trace is a message of the node at its event; those before it answer
earlier events or the same one. -/
theorem trace_split {events : List (TagEvEvent ℝ)}
    {front back : List (TagEvEvent ℝ × TagEvMessage ℝ)} {entry : TagEvEvent ℝ × TagEvMessage ℝ}
    (h : trace id node events = front ++ entry :: back) : ∃ before,
      entry.2 ∈ ((node.after before).step entry.1).2 ∧
      ∀ earlier ∈ front, earlier ∈ trace id node before ∨ earlier.1 = entry.1 := by
  induction events generalizing node front with
  | nil => simp [trace] at h
  | cons event rest ih =>
    rw [trace, id] at h
    rcases List.append_eq_append_iff.mp h with ⟨more, hfront, hrest⟩ | ⟨more, hmessages, hback⟩
    · obtain ⟨before, hentry, hearlier⟩ := ih hrest
      refine ⟨event :: before, hentry, fun earlier hmem => ?_⟩
      rw [hfront] at hmem
      rw [trace, id, List.mem_append]
      obtain hmem | hmem := List.mem_append.mp hmem
      · exact .inl (.inl hmem)
      · exact (hearlier earlier hmem).imp_left .inr
    · have hown : ∀ earlier ∈ front ++ more, earlier.1 = event ∧
          earlier.2 ∈ (node.step event).2 := by
        intro earlier hmem
        rw [← hmessages] at hmem
        obtain ⟨message, hmessage, rfl⟩ := List.mem_map.mp hmem
        exact ⟨rfl, hmessage⟩
      cases more with
      | nil =>
        obtain ⟨before, hentry, -⟩ := ih (List.nil_append _ ▸ hback.symm : _ = [] ++ entry :: back)
        refine ⟨event :: before, hentry, fun earlier hmem => .inl ?_⟩
        rw [trace, id, hmessages, List.append_nil]
        exact List.mem_append_left _ hmem
      | cons first more =>
        obtain ⟨rfl, -⟩ := (List.cons.injEq ..).mp hback
        obtain ⟨heq, hentry⟩ := hown entry (by simp)
        refine ⟨[], heq ▸ hentry, fun earlier hmem => .inr ?_⟩
        rw [heq]
        exact (hown earlier (List.mem_append_left _ hmem)).1

theorem odometry_of_report {values : List (Point2 ℝ)} {usedNs nowUs : ℤ} {msg : VisualOdometry ℝ}
    (h : .odometry msg ∈ node.report values usedNs nowUs) : node.cfg.publishEv = true ∧
      node.cfg.noiseFloorM ^ 2 ≤ msg.positionVariance.north ∧ msg.positionVariance.north ≤
        max (node.cfg.noiseFloorM ^ 2) (node.cfg.pairDisagreementM ^ 2) := by
  unfold report at h
  dsimp only at h
  split_ifs at h with hreject hpublish
  · simp [publishStatus] at h
  · obtain h | h := List.mem_append.mp h
    · obtain rfl := (TagEvMessage.odometry.injEq ..).mp (List.mem_singleton.mp h)
      exact ⟨hpublish, le_max_left _ _,
        max_le_max_left _ (scatterVar_le (not_lt.mp hreject))⟩
    · simp [publishStatus] at h
  · simp [publishStatus] at h

theorem odometry_of_tick {nowNs nowUs : ℤ} {monotonic : ℝ} {msg : VisualOdometry ℝ}
    (h : .odometry msg ∈ node.priorTick nowNs nowUs monotonic) : node.cfg.publishEv = true ∧
      msg.position = ⟨0, 0, 0⟩ ∧ msg.positionVariance.north = node.cfg.noiseFloorM ^ 2 ∧
      node.references.entries = [] := by
  unfold priorTick at h
  split_ifs at h with hdenied hknown hpublish
  · cases h
  · cases h
  · obtain h | h := List.mem_append.mp h
    · obtain rfl := (TagEvMessage.odometry.injEq ..).mp (List.mem_singleton.mp h)
      exact ⟨hpublish, rfl, rfl, not_not.mp hknown⟩
    · simp [publishStatus] at h
  · simp [publishStatus] at h

/-- Nothing is offered unless the node is told to. The launch prior is the pad with the
noise floor, and stands before every position from a tag; the variance of such a position
lies between the noise floor and the square of the admitted disagreement. -/
theorem odometry_discipline (cfg : TagEvConfig ℝ) (camera : TagCamera ℝ)
    (events : List (TagEvEvent ℝ)) (front back : List (TagEvEvent ℝ × TagEvMessage ℝ))
    (event : TagEvEvent ℝ) (msg : VisualOdometry ℝ)
    (htrace : trace id (new cfg camera) events = front ++ (event, .odometry msg) :: back) :
    cfg.publishEv = true ∧ cfg.noiseFloorM ^ 2 ≤ msg.positionVariance.north ∧
      (event.isDetections = true →
        msg.positionVariance.north ≤ max (cfg.noiseFloorM ^ 2) (cfg.pairDisagreementM ^ 2)) ∧
      (event.isDetections = false → msg.position = ⟨0, 0, 0⟩ ∧
        msg.positionVariance.north = cfg.noiseFloorM ^ 2 ∧
        ∀ earlier ∈ front, earlier.1.isDetections = false) := by
  obtain ⟨before, hmessage, hearlier⟩ := trace_split htrace
  have hcfg : ((new cfg camera).after before).cfg = cfg := after_cfg before
  cases event with
  | detections array nowUs monotonic =>
    change _ ∈ (onDetections _ array nowUs monotonic).2 at hmessage
    rcases onDetections_cases array nowUs monotonic with
      ⟨-, heq⟩ | ⟨usedNs, ⟨-, heq⟩ | ⟨-, heq⟩⟩ <;> rw [heq] at hmessage
    · cases hmessage
    · cases hmessage
    · obtain ⟨hpublish, hfloor, hcap⟩ := odometry_of_report hmessage
      rw [registered_cfg, bootstrap_cfg, hcfg] at hpublish hfloor hcap
      exact ⟨hpublish, hfloor, fun _ => hcap, fun hfalse => by contradiction⟩
  | priorTick nowNs nowUs monotonic =>
    obtain ⟨hpublish, hposition, hvariance, hnone⟩ := odometry_of_tick hmessage
    rw [hcfg] at hpublish hvariance
    refine ⟨hpublish, hvariance.ge, fun htrue => by contradiction, fun _ =>
      ⟨hposition, hvariance, fun earlier hmem => ?_⟩⟩
    rcases hearlier earlier hmem with hbefore | hsame
    · by_contra hdetections
      exact known_after hbefore (by simpa using hdetections) hnone
    · rw [hsame]
      rfl
  | _ => cases hmessage

/-- A node with the default parameters that publishes. -/
noncomputable def activeConfig : TagEvConfig ℝ := { publishEv := true, samples_pos := by decide }

theorem silent_past_timeout_armed :
    trace id (new activeConfig hoverCamera) ([.status true 1] ++ [.priorTick 12 12 12]) =
      trace id (new activeConfig hoverCamera) [.status true 1] :=
  silent_past_timeout activeConfig hoverCamera [.status true 1] [.priorTick 12 12 12] 1
    (fun entry hentry => by cases hentry) rfl (by
      intro event hevent
      rw [List.mem_singleton.mp hevent]
      refine ⟨(fun _ hstatus => by cases hstatus), fun monotonic hclock => ?_⟩
      obtain rfl := Option.some.inj hclock
      norm_num [activeConfig])

theorem odometry_discipline_prior :
    activeConfig.publishEv = true ∧ activeConfig.noiseFloorM ^ 2 ≤ activeConfig.noiseFloorM ^ 2 ∧
      (TagEvEvent.isDetections (.priorTick 0 0 0 : TagEvEvent ℝ) = true →
        activeConfig.noiseFloorM ^ 2 ≤
          max (activeConfig.noiseFloorM ^ 2) (activeConfig.pairDisagreementM ^ 2)) ∧
      (TagEvEvent.isDetections (.priorTick 0 0 0 : TagEvEvent ℝ) = false →
        (⟨0, 0, 0⟩ : Vec3 ℝ) = ⟨0, 0, 0⟩ ∧
        activeConfig.noiseFloorM ^ 2 = activeConfig.noiseFloorM ^ 2 ∧
        ∀ earlier ∈ ([] : List (TagEvEvent ℝ × TagEvMessage ℝ)),
          earlier.1.isDetections = false) :=
  odometry_discipline activeConfig hoverCamera [.priorTick 0 0 0] []
    [(.priorTick 0 0 0, (new activeConfig hoverCamera).publishStatus 0 .padPrior none none true)]
    (.priorTick 0 0 0)
    ⟨0, 0, ⟨0, 0, 0⟩, ⟨activeConfig.noiseFloorM ^ 2, activeConfig.noiseFloorM ^ 2, 1⟩, 0, 100⟩ (by
      have hstate : (new activeConfig hoverCamera).priorState = .padPrior := by
        simp [priorState, new]
      have hallowed : (new activeConfig hoverCamera).priorAllowed 0 = true := by
        unfold priorAllowed
        rw [if_neg fun hall => by simpa [new, Dict.empty, Dict.get] using hall 6 (by decide)]
        rfl
      have htick : (new activeConfig hoverCamera).priorTick 0 0 0 =
          [(new activeConfig hoverCamera).publishEv 0 0 (0, 0) (activeConfig.noiseFloorM ^ 2) 100,
            (new activeConfig hoverCamera).publishStatus 0 .padPrior none none true] := by
        unfold priorTick
        rw [hallowed, hstate]
        simp [new, Dict.empty, activeConfig]
      simp only [trace, id, step, htick]
      rfl)

end TagEvNode

end Mission10.Engine
