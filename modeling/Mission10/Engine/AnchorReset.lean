import Mission10.Engine.TagAnchor

/-!
# Frame resets of the tag anchor

A frame reset moves every stored place by one offset. Means, medians, spreads
and fitted rotations only look at differences of places, so a call on the moved
map with a moved fix answers as before, moved. Two runs that differ by a reset
therefore stay apart by it.
-/
namespace Mission10.Engine

set_option linter.unusedSectionVars false

open MathOps

variable {K : Type*} [Field K] [LinearOrder K] [IsStrictOrderedRing K] [MathOps K]
variable (d : Point2 K)

@[simp] theorem shiftPoint_fst (p : Point2 K) : (shiftPoint d p).1 = p.1 + d.1 := rfl

@[simp] theorem shiftPoint_snd (p : Point2 K) : (shiftPoint d p).2 = p.2 + d.2 := rfl

/-! ### Means and medians -/

theorem sum_map_add_const {α : Type*} (items : List α) (f : α → K) (c : K) :
    (items.map fun a => f a + c).sum = (items.map f).sum + items.length * c := by
  induction items with
  | nil => simp
  | cons a items ih =>
    simp only [List.map_cons, List.sum_cons, ih, List.length_cons, Nat.cast_add, Nat.cast_one]
    ring

theorem meanPoint_shift {points : List (Point2 K)} (h : points ≠ []) :
    meanPoint (points.map (shiftPoint d)) = shiftPoint d (meanPoint points) := by
  have hlen : (points.length : K) ≠ 0 := by
    rw [Nat.cast_ne_zero]
    exact fun hzero => h (List.length_eq_zero_iff.mp hzero)
  have hfst := sum_map_add_const points Prod.fst d.1
  have hsnd := sum_map_add_const points Prod.snd d.2
  have hmap : points.map (shiftPoint d) ≠ [] := fun hnil => h (List.map_eq_nil_iff.mp hnil)
  unfold meanPoint
  rw [if_neg hmap, if_neg h, List.map_map, List.map_map, List.length_map]
  change ((points.map fun p => p.1 + d.1).sum / _, (points.map fun p => p.2 + d.2).sum / _) = _
  rw [hfst, hsnd, shiftPoint, add_div, add_div, mul_div_cancel_left₀ _ hlen,
    mul_div_cancel_left₀ _ hlen]

theorem median_shift {values : List K} (h : values ≠ []) (c : K) :
    median (values.map (· + c)) = median values + c := by
  have hsort : (values.map (· + c)).mergeSort (fun a b => decide (a ≤ b)) =
      (values.mergeSort fun a b => decide (a ≤ b)).map (· + c) := by
    rw [List.map_mergeSort (s := fun a b : K => decide (a ≤ b))]
    intro a _ b _
    simp
  have hlen : (values.mergeSort fun a b => decide (a ≤ b)).length = values.length :=
    List.length_mergeSort values
  have hpos := List.length_pos_iff.mpr h
  have hget : ∀ i < values.length, (List.map (· + c)
      (values.mergeSort fun a b => decide (a ≤ b))).getD i 0 =
        (values.mergeSort fun a b => decide (a ≤ b)).getD i 0 + c := by
    intro i hi
    rw [← hlen] at hi
    simp [List.getD_eq_getElem?_getD, List.getElem?_eq_getElem hi]
  unfold median
  dsimp only
  rw [hsort, List.length_map, hlen]
  split_ifs
  · exact hget _ (by omega)
  · rw [hget _ (by omega), hget _ (by omega)]
    ring

/-! ### References -/

theorem places_shift (window : List (Sighting K)) :
    (window.map (Sighting.shift d)).map Sighting.place =
      (window.map Sighting.place).map (shiftPoint d) := by
  rw [List.map_map, List.map_map]
  rfl

namespace Reference

theorem window_shift (cfg : AnchorConfig K) (ref : Reference K) (t : K) (fix : Point2 K) :
    (ref.shift d).window cfg t (shiftPoint d fix) =
      (ref.window cfg t fix).map (Sighting.shift d) := by
  unfold window
  rw [List.map_append, Reference.shift, List.filter_map]
  rfl

theorem window_ne_nil (cfg : AnchorConfig K) (ref : Reference K) (t : K) (fix : Point2 K) :
    ref.window cfg t fix ≠ [] := by
  simp [window]

theorem spread_shift {window : List (Sighting K)} (h : window ≠ []) :
    spread (window.map (Sighting.shift d)) = spread window := by
  have hplaces : window.map Sighting.place ≠ [] := fun hnil => h (List.map_eq_nil_iff.mp hnil)
  unfold spread
  dsimp only
  rw [places_shift, meanPoint_shift d hplaces, List.map_map]
  congr 2
  apply List.map_congr_left
  intro s _
  simp only [Function.comp_apply, Sighting.shift, shiftPoint_fst, shiftPoint_snd,
    add_sub_add_right_eq_sub]

theorem accumulate_shift (cfg : AnchorConfig K) (ref : Reference K) (t : K) (fix : Point2 K) :
    (ref.shift d).accumulate cfg t (shiftPoint d fix) = (ref.accumulate cfg t fix).shift d := by
  have hwindow := window_ne_nil cfg ref t fix
  have hplaces : (ref.window cfg t fix).map Sighting.place ≠ [] :=
    fun hnil => hwindow (List.map_eq_nil_iff.mp hnil)
  unfold accumulate
  rw [window_shift]
  dsimp only
  rw [List.length_map, spread_shift d hwindow, places_shift, meanPoint_shift d hplaces]
  split_ifs
  · rfl
  · rfl
  · rw [← List.map_drop]
    rfl

/-- A sighting leaves a datum or sightings forming one. -/
def Measured (ref : Reference K) : Prop := ref.origin.isSome ∨ ref.pending ≠ []

theorem accumulate_measured (cfg : AnchorConfig K) (ref : Reference K) (t : K) (fix : Point2 K) :
    (ref.accumulate cfg t fix).Measured := by
  have hwindow := window_ne_nil cfg ref t fix
  have hpos := List.length_pos_iff.mpr hwindow
  unfold accumulate Measured
  dsimp only
  split_ifs
  · exact .inr hwindow
  · exact .inl rfl
  · right
    rw [Ne, List.drop_eq_nil_iff]
    omega

theorem measuredFrom_shift {ref : Reference K} (h : ref.Measured) :
    (ref.shift d).measuredFrom = shiftPoint d ref.measuredFrom := by
  unfold measuredFrom Reference.shift
  cases horigin : ref.origin with
  | some origin => rfl
  | none =>
    have hpending : ref.pending ≠ [] := by
      rcases h with hsome | hne
      · rw [horigin] at hsome
        cases hsome
      · exact hne
    have hplaces : ref.pending.map Sighting.place ≠ [] :=
      fun hnil => hpending (List.map_eq_nil_iff.mp hnil)
    simp only [Option.map_none, Option.getD_none, places_shift, meanPoint_shift d hplaces]

theorem settled_shift (ref : Reference K) : (ref.shift d).settled = ref.settled := by
  simp [settled, Reference.shift]

theorem sight_shift (cfg : AnchorConfig K) (ref : Reference K) (t : K) (fix : Point2 K) :
    (ref.shift d).sight cfg t (shiftPoint d fix) = (ref.sight cfg t fix).shift d := by
  let counted : Reference K := { ref with nObs := ref.nObs + 1, lastSeen := t }
  have hcounted := accumulate_shift d cfg counted t fix
  have hsettled := settled_shift d counted
  change (if (counted.shift d).settled = true then counted.shift d
      else (counted.shift d).accumulate cfg t (shiftPoint d fix)) = _
  rw [hsettled, hcounted]
  change _ = (if counted.settled = true then counted else counted.accumulate cfg t fix).shift d
  split_ifs <;> rfl

theorem sight_measured (cfg : AnchorConfig K) (ref : Reference K) (t : K) (fix : Point2 K) :
    (ref.sight cfg t fix).Measured := by
  unfold sight
  dsimp only
  split_ifs with hsettled
  · exact .inl hsettled
  · exact accumulate_measured cfg _ t fix

end Reference

/-! ### The map -/

namespace TagAnchorMap

variable (m : TagAnchorMap K)

/-- The map after a reset by the offset. -/
def moved : TagAnchorMap K := m.applyFrameReset d.1 d.2

theorem lookup_moved (tagId : String) :
    (m.moved d).lookup tagId = (m.lookup tagId).map (Reference.shift d) := by
  unfold lookup moved applyFrameReset
  rw [List.find?_map]
  rfl

theorem store_shift (refs : List (Reference K)) (ref : Reference K) :
    store (refs.map (Reference.shift d)) (ref.shift d) =
      (store refs ref).map (Reference.shift d) := by
  have hany : (refs.map (Reference.shift d)).any (fun r => r.tagId = (ref.shift d).tagId) =
      refs.any fun r => r.tagId = ref.tagId := by
    rw [List.any_map]
    rfl
  unfold store
  rw [hany]
  split_ifs
  · rw [List.map_map, List.map_map]
    apply List.map_congr_left
    intro r _
    by_cases htag : r.tagId = ref.tagId
    · simp [Reference.shift, htag]
    · simp [Reference.shift, htag]
  · rw [List.map_append]
    rfl

/-- A moved sighting at the moved map is accepted as before. -/
theorem observe_moved (t : K) (tagId : String) (fix nadir : Point2 K) (aglM : K) :
    (m.moved d).observe t tagId (shiftPoint d fix) (shiftPoint d nadir) aglM =
      ((m.observe t tagId fix nadir aglM).1.moved d,
        (m.observe t tagId fix nadir aglM).2.map (AnchorFix.shift d)) := by
  let fresh : Reference K := { tagId, firstSeen := t, lastSeen := 0 }
  let known := (m.lookup tagId).getD fresh
  have hknown : ((m.moved d).lookup tagId).getD fresh = known.shift d := by
    simp only [known, lookup_moved]
    cases m.lookup tagId <;> rfl
  have hsight := known.sight_shift d m.cfg t fix
  have hmeasured := (known.sight m.cfg t fix).measuredFrom_shift d
    (known.sight_measured m.cfg t fix)
  have hcfg : (m.moved d).cfg = m.cfg := rfl
  unfold observe
  simp only [shiftPoint_fst, shiftPoint_snd, add_sub_add_right_eq_sub, hcfg]
  split_ifs
  · rfl
  · simp only [fresh] at hknown
    rw [hknown, hsight, hmeasured, known.settled_shift d]
    simp only [shiftPoint_fst, shiftPoint_snd, add_sub_add_right_eq_sub, known, fresh]
    refine Prod.ext ?_ rfl
    change TagAnchorMap.mk _ _ _ _ _ = TagAnchorMap.mk _ _ _ _ _
    congr 1
    · exact store_shift d m.refs _
    · rw [List.map_append]
      rfl
  · rfl

/-! ### Drift -/

theorem fresh_moved (t maxAge : K) :
    (m.moved d).fresh t maxAge = (m.fresh t maxAge).map (AnchorFix.shift d) := by
  unfold fresh moved applyFrameReset
  rw [List.filter_map]
  rfl

/-- A correspondence with both ends moved. -/
def shiftPair (pair : Correspondence K) : Correspondence K :=
  (shiftPoint d pair.1, shiftPoint d pair.2)

theorem correspondence_moved {fresh : List (AnchorFix K)} {tagId : String}
    (h : ∃ fx ∈ fresh, fx.tagId = tagId) :
    (m.moved d).correspondence (fresh.map (AnchorFix.shift d)) tagId =
      (m.correspondence fresh tagId).map (shiftPair d) := by
  have hgroup : (fresh.map (AnchorFix.shift d)).filter (fun fx => fx.tagId = tagId) =
      (fresh.filter fun fx => fx.tagId = tagId).map (AnchorFix.shift d) := by
    rw [List.filter_map]
    rfl
  have hne : (fresh.filter fun fx => fx.tagId = tagId) ≠ [] := by
    obtain ⟨fx, hfx, htag⟩ := h
    apply List.ne_nil_of_mem (a := fx)
    simp [hfx, htag]
  have hmedian : ∀ (coordinate : Point2 K → K) (c : K),
      (∀ p, coordinate (shiftPoint d p) = coordinate p + c) →
      median (((fresh.filter fun fx => fx.tagId = tagId).map (AnchorFix.shift d)).map
        fun fx => coordinate fx.fix) =
        median ((fresh.filter fun fx => fx.tagId = tagId).map fun fx => coordinate fx.fix) + c := by
    intro coordinate c hc
    rw [← median_shift (fun hnil => hne (List.map_eq_nil_iff.mp hnil)), List.map_map, List.map_map]
    congr 1
    apply List.map_congr_left
    intro fx _
    exact hc fx.fix
  unfold correspondence
  dsimp only
  rw [lookup_moved, hgroup, hmedian Prod.fst d.1 fun _ => rfl, hmedian Prod.snd d.2 fun _ => rfl]
  cases m.lookup tagId with
  | none => rfl
  | some ref =>
    cases horigin : ref.origin with
    | none => simp [Reference.shift, horigin]
    | some origin => simp [Reference.shift, horigin, shiftPair, shiftPoint]

theorem correspondences_moved (t : K) (maxAgeS : Option K) :
    (m.moved d).correspondences t maxAgeS = (m.correspondences t maxAgeS).map (shiftPair d) := by
  have hcfg : (m.moved d).cfg = m.cfg := rfl
  unfold correspondences
  dsimp only
  rw [hcfg, fresh_moved, List.map_map, List.map_filterMap]
  apply List.filterMap_congr
  intro tagId htag
  have hmem := (List.mergeSort_perm _ _).subset htag
  obtain ⟨fx, hfx, rfl⟩ := List.mem_map.mp (List.mem_dedup.mp hmem)
  exact correspondence_moved d m ⟨fx, hfx, rfl⟩

end TagAnchorMap

theorem separationError_shift (a b : Correspondence K) :
    separationError (TagAnchorMap.shiftPair d a) (TagAnchorMap.shiftPair d b) =
      separationError a b := by
  simp only [separationError, TagAnchorMap.shiftPair, shiftPoint_fst, shiftPoint_snd,
    add_sub_add_right_eq_sub]

theorem pairGeometryError_shift (pairs : List (Correspondence K)) (worst : K) :
    pairGeometryError (pairs.map (TagAnchorMap.shiftPair d)) worst =
      pairGeometryError pairs worst := by
  induction pairs generalizing worst with
  | nil => rfl
  | cons a rest ih =>
    rw [List.map_cons, pairGeometryError, pairGeometryError, List.foldl_map, ih]
    simp only [separationError_shift]

/-! ### Motions of the frame -/

/-- The same motion of the frame, told at moved places. -/
structure AnchorTransform.Moved (a b : AnchorTransform K) : Prop where
  dyaw : b.dyaw = a.dyaw
  nTags : b.nTags = a.nTags
  points : b.points = a.points.map (shiftPoint d)
  vector : ∀ p, b.displacementVectorAt (shiftPoint d p) = a.displacementVectorAt p

theorem AnchorTransform.Moved.maxDisplacement {a b : AnchorTransform K} (h : a.Moved d b) :
    b.maxDisplacement = a.maxDisplacement := by
  unfold AnchorTransform.maxDisplacement
  rw [h.points, List.map_map]
  congr 2
  apply List.map_congr_left
  intro p _
  simp only [Function.comp_apply, AnchorTransform.displacementAt, h.vector]

/-- The fit looks at the places from their mean. -/
theorem rigidFit_moved {pairs : List (Correspondence K)} (h : pairs ≠ []) :
    (rigidFit pairs).Moved d (rigidFit (pairs.map (TagAnchorMap.shiftPair d))) := by
  have hfst : (pairs.map (TagAnchorMap.shiftPair d)).map Prod.fst =
      (pairs.map Prod.fst).map (shiftPoint d) := by
    rw [List.map_map, List.map_map]
    rfl
  have hsnd : (pairs.map (TagAnchorMap.shiftPair d)).map Prod.snd =
      (pairs.map Prod.snd).map (shiftPoint d) := by
    rw [List.map_map, List.map_map]
    rfl
  have hp : meanPoint ((pairs.map Prod.fst).map (shiftPoint d)) =
      shiftPoint d (meanPoint (pairs.map Prod.fst)) := meanPoint_shift d (by simpa using h)
  have hq : meanPoint ((pairs.map Prod.snd).map (shiftPoint d)) =
      shiftPoint d (meanPoint (pairs.map Prod.snd)) := meanPoint_shift d (by simpa using h)
  have hfit : rigidFit (pairs.map (TagAnchorMap.shiftPair d)) =
      { dn := (rigidFit pairs).dn + (d.1 - (cos (rigidFit pairs).dyaw * d.1 -
          sin (rigidFit pairs).dyaw * d.2))
        de := (rigidFit pairs).de + (d.2 - (sin (rigidFit pairs).dyaw * d.1 +
          cos (rigidFit pairs).dyaw * d.2))
        dyaw := (rigidFit pairs).dyaw
        nTags := (rigidFit pairs).nTags
        points := (rigidFit pairs).points.map (shiftPoint d) } := by
    unfold rigidFit
    dsimp only
    rw [hfst, hsnd, hp, hq]
    simp only [List.map_map, Function.comp_def, TagAnchorMap.shiftPair, shiftPoint_fst,
      shiftPoint_snd, add_sub_add_right_eq_sub, List.length_map]
    congr 1
    · ring
    · ring
  rw [hfit]
  refine ⟨rfl, rfl, rfl, ?_⟩
  intro p
  simp only [AnchorTransform.displacementVectorAt, shiftPoint_fst, shiftPoint_snd]
  apply Prod.ext
  · dsimp only
    ring
  · dsimp only
    ring

/-! ### Runs -/

/-- A call of the engine on the anchor. -/
inductive AnchorCall (K : Type*) where
  | observe (t : K) (tagId : String) (fix nadir : Point2 K) (aglM : K)
  | drift (t : K) (query : DriftQuery K)
  | disagreement (t : K)

/-- The call after a reset. -/
def AnchorCall.shift (d : Point2 K) : AnchorCall K → AnchorCall K
  | .observe t tagId fix nadir aglM =>
    .observe t tagId (shiftPoint d fix) (shiftPoint d nadir) aglM
  | .drift t query => .drift t query
  | .disagreement t => .disagreement t

inductive AnchorAnswer (K : Type*) where
  | sighting (fix : Option (AnchorFix K))
  | drift (transform : Option (AnchorTransform K))
  | disagreement (reason : Option String)

/-- The answer after a reset: the same sighting moved, the same motion, a report
where there was one. -/
inductive AnchorAnswer.Moved (d : Point2 K) : AnchorAnswer K → AnchorAnswer K → Prop
  | sighting (fix : Option (AnchorFix K)) :
    Moved d (.sighting fix) (.sighting (fix.map (AnchorFix.shift d)))
  | drift {a b : Option (AnchorTransform K)} (h : Option.Rel (AnchorTransform.Moved d) a b) :
    Moved d (.drift a) (.drift b)
  | disagreement {a b : Option String} (h : a.isSome = b.isSome) :
    Moved d (.disagreement a) (.disagreement b)

namespace TagAnchorMap

def call (m : TagAnchorMap K) : AnchorCall K → TagAnchorMap K × AnchorAnswer K
  | .observe t tagId fix nadir aglM =>
    ((m.observe t tagId fix nadir aglM).1, .sighting (m.observe t tagId fix nadir aglM).2)
  | .drift t query => (m, .drift (m.drift t query))
  | .disagreement t => ((m.disagreement t).1, .disagreement (m.disagreement t).2)

/-- The map after a list of calls, and the answers to them. -/
def calls (m : TagAnchorMap K) : List (AnchorCall K) → TagAnchorMap K × List (AnchorAnswer K)
  | [] => (m, [])
  | c :: cs => (((m.call c).1.calls cs).1, (m.call c).2 :: ((m.call c).1.calls cs).2)

end TagAnchorMap

/-! ### Runs over the reals -/

namespace TagAnchorMap

/-- One correspondence, or none, leaves the rotation unobserved. -/
theorem shift_moved (d : Point2 ℝ) (dn de : ℝ) (nTags : ℕ) (points : List (Point2 ℝ)) :
    AnchorTransform.Moved d { dn, de, dyaw := 0, nTags, points }
      { dn, de, dyaw := 0, nTags, points := points.map (shiftPoint d) } := by
  have hcos : cos (0 : ℝ) = 1 := Real.cos_zero
  have hsin : sin (0 : ℝ) = 0 := Real.sin_zero
  refine ⟨rfl, rfl, rfl, ?_⟩
  intro p
  simp only [AnchorTransform.displacementVectorAt, hcos, hsin, shiftPoint_fst, shiftPoint_snd]
  apply Prod.ext
  · dsimp only
    ring
  · dsimp only
    ring

theorem rigidFit_nil : rigidFit ([] : List (Correspondence ℝ)) =
    { dn := 0, de := 0, dyaw := 0, nTags := 0, points := [] } := by
  simp [rigidFit, meanPoint]

theorem drift_moved (d : Point2 ℝ) (m : TagAnchorMap ℝ) (t : ℝ) (query : DriftQuery ℝ) :
    Option.Rel (AnchorTransform.Moved d) (m.drift t query) ((m.moved d).drift t query) := by
  unfold drift
  rw [correspondences_moved]
  dsimp only
  rw [List.length_map]
  simp only [pairGeometryError_shift]
  split_ifs
  · exact .none
  · generalize m.correspondences t query.maxAgeS = pairs
    match pairs with
    | [] =>
      rw [List.map_nil, rigidFit_nil]
      exact .some (shift_moved d 0 0 0 [])
    | [(origin, fix)] =>
      apply Option.Rel.some
      simp only [shiftPoint_fst, shiftPoint_snd, add_sub_add_right_eq_sub]
      exact shift_moved d _ _ 1 [origin]
    | a :: b :: rest => exact .some (rigidFit_moved d (List.cons_ne_nil a (b :: rest)))

/-- The reports come at the same calls and leave the same breach. -/
theorem disagreement_moved (d : Point2 ℝ) (m : TagAnchorMap ℝ) (t : ℝ) :
    ((m.moved d).disagreement t).1 = (m.disagreement t).1.moved d ∧
      ((m.moved d).disagreement t).2.isSome = (m.disagreement t).2.isSome := by
  have hdrift := drift_moved d m t {}
  have hcfg : (m.moved d).cfg = m.cfg := rfl
  have hbreach : (m.moved d).breachT0 = m.breachT0 := rfl
  unfold disagreement
  rw [hcfg, hbreach]
  cases hold : m.drift t {} with
  | none =>
    rw [hold] at hdrift
    cases hnew : (m.moved d).drift t {} with
    | none => exact ⟨rfl, rfl⟩
    | some b =>
      rw [hnew] at hdrift
      cases hdrift
  | some a =>
    rw [hold] at hdrift
    cases hnew : (m.moved d).drift t {} with
    | none =>
      rw [hnew] at hdrift
      cases hdrift
    | some b =>
      rw [hnew] at hdrift
      cases hdrift with
      | some hmoved =>
        dsimp only
        rw [hmoved.maxDisplacement]
        split_ifs
        · exact ⟨rfl, rfl⟩
        · cases m.breachT0 with
          | none => exact ⟨rfl, rfl⟩
          | some t0 =>
            dsimp only
            split_ifs <;> exact ⟨rfl, rfl⟩

theorem call_moved (d : Point2 ℝ) (m : TagAnchorMap ℝ) (c : AnchorCall ℝ) :
    ((m.moved d).call (c.shift d)).1 = (m.call c).1.moved d ∧
      AnchorAnswer.Moved d (m.call c).2 ((m.moved d).call (c.shift d)).2 := by
  cases c with
  | observe t tagId fix nadir aglM =>
    have hobserve := observe_moved d m t tagId fix nadir aglM
    unfold call AnchorCall.shift
    dsimp only
    rw [hobserve]
    exact ⟨rfl, .sighting _⟩
  | drift t query => exact ⟨rfl, .drift (drift_moved d m t query)⟩
  | disagreement t =>
    obtain ⟨hstate, hreport⟩ := disagreement_moved d m t
    exact ⟨hstate, .disagreement hreport.symm⟩

theorem calls_moved (d : Point2 ℝ) (m : TagAnchorMap ℝ) (cs : List (AnchorCall ℝ)) :
    ((m.moved d).calls (cs.map (AnchorCall.shift d))).1 = (m.calls cs).1.moved d ∧
      List.Forall₂ (AnchorAnswer.Moved d) (m.calls cs).2
        ((m.moved d).calls (cs.map (AnchorCall.shift d))).2 := by
  induction cs generalizing m with
  | nil => exact ⟨rfl, .nil⟩
  | cons c cs ih =>
    obtain ⟨hstate, hanswer⟩ := call_moved d m c
    obtain ⟨hrest, hanswers⟩ := ih (m.call c).1
    simp only [List.map_cons, calls, hstate]
    exact ⟨hrest, .cons hanswer hanswers⟩

/-- For every run of the anchor and every point of it: a frame reset there, with
all later sightings moved by it, moves the sightings and the data and changes no
other answer. -/
theorem anchor_reset_equivariant (cfg : AnchorConfig ℝ) (d : Point2 ℝ)
    (before after : List (AnchorCall ℝ)) :
    let m := ((TagAnchorMap.new cfg).calls before).1
    ((m.applyFrameReset d.1 d.2).calls (after.map (AnchorCall.shift d))).1 =
        (m.calls after).1.applyFrameReset d.1 d.2 ∧
      List.Forall₂ (AnchorAnswer.Moved d) (m.calls after).2
        ((m.applyFrameReset d.1 d.2).calls (after.map (AnchorCall.shift d))).2 :=
  calls_moved d _ after

end TagAnchorMap

end Mission10.Engine
