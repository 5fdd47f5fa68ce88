import Mission10.Engine.AnchorReset

/-!
# The datum of a tag

The sightings of a tag form its datum until a window of them is tight; from then on the
datum stays, and only the sightings after it are measured against it. Which sightings the
window holds depends on all that came before, but it is always a part of the accepted
sightings, and the new one is in it.
-/
namespace Mission10.Engine

set_option linter.unusedSectionVars false

open MathOps

variable {K : Type*} [Field K] [LinearOrder K] [IsStrictOrderedRing K] [MathOps K]

/-- The time of a sighting. -/
def AnchorCall.observed : AnchorCall K → Option K
  | .observe t _ _ _ _ => some t
  | .drift _ _ => none
  | .disagreement _ => none

/-- A fix as a sighting that forms a datum. -/
def AnchorFix.sighting (fx : AnchorFix K) : Sighting K := ⟨fx.t, fx.fix⟩

namespace TagAnchorMap

/-- The accepted sightings of a tag. -/
def fixesOf (m : TagAnchorMap K) (tagId : String) : List (AnchorFix K) :=
  m.fixes.filter fun fx => fx.tagId = tagId

def originOf (m : TagAnchorMap K) (tagId : String) : Option (Point2 K) :=
  (m.lookup tagId).bind Reference.origin

end TagAnchorMap

/-- A datum was formed by these sightings. -/
structure FormedBy (cfg : AnchorConfig K) (origin : Point2 K) (window : List (AnchorFix K)) :
    Prop where
  enough : cfg.settleObs ≤ window.length
  mean : origin = meanPoint (window.map AnchorFix.fix)
  recent : ∃ last ∈ window, ∀ fx ∈ window, fx.t ≤ last.t ∧ last.t - fx.t ≤ cfg.settleWindowS
  tight : ∀ fx ∈ window, hypot (fx.fix.1 - origin.1) (fx.fix.2 - origin.2) ≤ cfg.settleSpreadM

/-- What a reference is after the accepted sightings of its tag. -/
inductive Reference.Of (cfg : AnchorConfig K) (ref : Reference K) (seen : List (AnchorFix K)) :
    Prop
  | forming (group : List (AnchorFix K)) (origin : ref.origin = none)
      (pending : ref.pending = group.map AnchorFix.sighting) (some : group ≠ [])
      (part : group.Sublist seen) (unsettled : ∀ fx ∈ seen, fx.settled = false)
  | settled (forming window after : List (AnchorFix K)) (datum : Point2 K)
      (origin : ref.origin = some datum) (formed : FormedBy cfg datum window)
      (split : seen = forming ++ after) (part : window.Sublist forming)
      (unsettled : ∀ fx ∈ forming, fx.settled = false) (measured : ∀ fx ∈ after, fx.settled = true)

/-- A datum takes two sightings at least. -/
theorem AnchorConfig.two_le_settleObs (cfg : AnchorConfig K) : 2 ≤ cfg.settleObs := by
  have haccepted := cfg.accepted
  unfold AnchorSettings.postInit at haccepted
  split_ifs at haccepted with _ hfew
  exact not_lt.mp hfew

namespace Reference

variable {cfg : AnchorConfig K} {ref : Reference K} {seen : List (AnchorFix K)}

/-- The spread bounds the distance of every sighting from the mean. -/
theorem le_spread {window : List (Sighting K)} {s : Sighting K} (h : s ∈ window) :
    hypot (s.place.1 - (meanPoint (window.map Sighting.place)).1)
      (s.place.2 - (meanPoint (window.map Sighting.place)).2) ≤ spread window := by
  have hmem : hypot (s.place.1 - (meanPoint (window.map Sighting.place)).1)
      (s.place.2 - (meanPoint (window.map Sighting.place)).2) ∈ window.map fun s =>
        hypot (s.place.1 - (meanPoint (window.map Sighting.place)).1)
          (s.place.2 - (meanPoint (window.map Sighting.place)).2) :=
    List.mem_map_of_mem h
  unfold spread
  dsimp only
  cases hmax : (window.map fun s => hypot (s.place.1 - (meanPoint (window.map Sighting.place)).1)
      (s.place.2 - (meanPoint (window.map Sighting.place)).2)).max? with
  | none =>
    rw [List.max?_eq_none_iff.mp hmax] at hmem
    contradiction
  | some largest => exact (List.max?_eq_some_iff.mp hmax).2 _ hmem

/-- One more sighting of a tag without a datum. -/
theorem accumulate_of {group : List (AnchorFix K)} {out : AnchorFix K}
    (horigin : ref.origin = none) (hpending : ref.pending = group.map AnchorFix.sighting)
    (hpart : group.Sublist seen) (hunsettled : ∀ fx ∈ seen, fx.settled = false)
    (hlate : ∀ fx ∈ seen, fx.t ≤ out.t) (hout : out.settled = false) :
    (ref.accumulate cfg out.t out.fix).Of cfg (seen ++ [out]) := by
  have hall : ∀ fx ∈ seen ++ [out], fx.settled = false := by
    intro fx hfx
    obtain hfx | hfx := List.mem_append.mp hfx
    · exact hunsettled fx hfx
    · rw [List.mem_singleton.mp hfx]
      exact hout
  set kept := (group.filter fun fx => out.t - fx.t ≤ cfg.settleWindowS) ++ [out] with hkept
  have hwindow : ref.window cfg out.t out.fix = kept.map AnchorFix.sighting := by
    unfold window
    rw [hpending, List.filter_map, hkept, List.map_append]
    rfl
  have hlength : (ref.window cfg out.t out.fix).length = kept.length := by
    rw [hwindow, List.length_map]
  have hsub : kept.Sublist (seen ++ [out]) :=
    (List.filter_sublist.trans hpart).append (List.Sublist.refl _)
  have hmem : out ∈ kept := by simp [hkept]
  have hnonneg (henough : ¬kept.length < cfg.settleObs) : 0 ≤ cfg.settleWindowS := by
    have htwo := cfg.two_le_settleObs
    have hpos : 0 < (group.filter fun fx => out.t - fx.t ≤ cfg.settleWindowS).length := by
      rw [hkept, List.length_append, List.length_singleton] at henough
      omega
    obtain ⟨fx, hfx⟩ := List.exists_mem_of_length_pos hpos
    obtain ⟨hfx, hrecent⟩ := List.mem_filter.mp hfx
    exact (sub_nonneg.mpr (hlate fx (hpart.subset hfx))).trans (of_decide_eq_true hrecent)
  have hplaces : (kept.map AnchorFix.sighting).map Sighting.place = kept.map AnchorFix.fix := by
    rw [List.map_map]
    rfl
  unfold accumulate
  dsimp only
  split_ifs with hfew htight
  · exact .forming kept horigin hwindow (List.ne_nil_of_mem hmem) hsub hall
  · rw [hwindow] at htight ⊢
    refine .settled (seen ++ [out]) kept [] _ rfl ⟨?_, ?_, ?_, ?_⟩ (by simp) hsub hall (by simp)
    · omega
    · rw [hplaces]
    · refine ⟨out, hmem, fun fx hfx => ?_⟩
      obtain hfx | hfx := List.mem_append.mp hfx
      · obtain ⟨hfx, hrecent⟩ := List.mem_filter.mp hfx
        exact ⟨hlate fx (hpart.subset hfx), of_decide_eq_true hrecent⟩
      · rw [List.mem_singleton.mp hfx, sub_self]
        exact ⟨le_rfl, hnonneg (by omega)⟩
    · intro fx hfx
      exact (le_spread (List.mem_map_of_mem hfx)).trans htight
  · have hpos : 0 < kept.length := List.length_pos_of_mem hmem
    refine .forming (kept.drop (kept.length / 2)) horigin ?_ ?_
      ((List.drop_sublist _ _).trans hsub) hall
    · rw [hwindow, List.length_map, List.map_drop]
    · rw [Ne, List.drop_eq_nil_iff]
      omega

/-- One more accepted sighting of a tag. -/
theorem Of.sight (h : ref.Of cfg seen) {out : AnchorFix K} (hlate : ∀ fx ∈ seen, fx.t ≤ out.t)
    (hout : out.settled = ref.settled) : (ref.sight cfg out.t out.fix).Of cfg (seen ++ [out]) := by
  cases h with
  | forming group origin pending some part unsettled =>
    have hsettled : ref.settled = false := by
      rw [Reference.settled, origin, Option.isSome_none]
    have hsight : ref.sight cfg out.t out.fix =
        accumulate cfg { ref with nObs := ref.nObs + 1, lastSeen := out.t } out.t out.fix :=
      if_neg (Bool.eq_false_iff.mp hsettled)
    rw [hsight]
    exact accumulate_of origin pending part unsettled hlate (hout.trans hsettled)
  | settled forming window after datum origin formed split part unsettled measured =>
    have hsettled : ref.settled = true := by rw [Reference.settled, origin, Option.isSome_some]
    have hsight : ref.sight cfg out.t out.fix =
        { ref with nObs := ref.nObs + 1, lastSeen := out.t } := if_pos hsettled
    rw [hsight]
    refine .settled forming window (after ++ [out]) datum origin formed ?_ part unsettled ?_
    · rw [split, List.append_assoc]
    · intro fx hfx
      obtain hfx | hfx := List.mem_append.mp hfx
      · exact measured fx hfx
      · rw [List.mem_singleton.mp hfx, hout, hsettled]

/-- A sighting leaves the datum. -/
theorem sight_origin {datum : Point2 K} (h : ref.origin = some datum) (t : K) (fix : Point2 K) :
    (ref.sight cfg t fix).origin = some datum := by
  have hsettled : ref.settled = true := by rw [settled, h, Option.isSome_some]
  have hsight : ref.sight cfg t fix = { ref with nObs := ref.nObs + 1, lastSeen := t } :=
    if_pos hsettled
  rw [hsight]
  exact h

theorem sight_tagId (cfg : AnchorConfig K) (ref : Reference K) (t : K) (fix : Point2 K) :
    (ref.sight cfg t fix).tagId = ref.tagId := by
  unfold sight accumulate
  dsimp only
  split_ifs <;> rfl

end Reference

namespace TagAnchorMap

theorem find_store (refs : List (Reference K)) (ref : Reference K) (tagId : String) :
    (store refs ref).find? (fun r => r.tagId = tagId) =
      if ref.tagId = tagId then some ref else refs.find? fun r => r.tagId = tagId := by
  have hmap : (refs.map fun r => if r.tagId = ref.tagId then ref else r).find?
      (fun r => r.tagId = tagId) =
        if ref.tagId = tagId then (refs.find? fun r => r.tagId = tagId).map fun _ => ref
        else refs.find? fun r => r.tagId = tagId := by
    induction refs with
    | nil => simp
    | cons r refs ih =>
      rw [List.map_cons, List.find?_cons, List.find?_cons, ih]
      by_cases hsame : r.tagId = ref.tagId
      · rw [if_pos hsame, hsame]
        by_cases htag : ref.tagId = tagId <;> simp [htag]
      · rw [if_neg hsame]
        by_cases htag : r.tagId = tagId
        · have hother : ref.tagId ≠ tagId := fun h => hsame (htag.trans h.symm)
          simp [htag, hother]
        · simp [htag]
  unfold store
  split_ifs with hany htag htag
  · rw [hmap, if_pos htag]
    obtain ⟨r, hr, hsame⟩ := List.any_eq_true.mp hany
    cases hfind : refs.find? fun r => r.tagId = tagId with
    | none =>
      have hnone := List.find?_eq_none.mp hfind r hr
      rw [← htag] at hnone
      exact absurd hsame hnone
    | some found => rfl
  · rw [hmap, if_neg htag]
  · rw [List.find?_append]
    cases hfind : refs.find? fun r => r.tagId = tagId with
    | none => simp [htag]
    | some found =>
      refine absurd (List.any_eq_true.mpr ⟨found, List.mem_of_find?_eq_some hfind, ?_⟩) hany
      have hfound := List.find?_some hfind
      rwa [← htag] at hfound
  · rw [List.find?_append]
    simp [htag]

/-- What is known of a map: every reference agrees with the accepted sightings of its tag. -/
structure Kept (cfg : AnchorConfig K) (m : TagAnchorMap K) : Prop where
  cfg_eq : m.cfg = cfg
  unseen : ∀ tagId, m.lookup tagId = none → m.fixesOf tagId = []
  seen : ∀ tagId ref, m.lookup tagId = some ref → ref.Of cfg (m.fixesOf tagId)

/-- The reference that a sighting of a tag finds. -/
def known (m : TagAnchorMap K) (t : K) (tagId : String) : Reference K :=
  (m.lookup tagId).getD { tagId, firstSeen := t, lastSeen := 0 }

/-- A sighting is rejected, or it is added to the fixes and to the reference of its tag. -/
theorem observe_cases (m : TagAnchorMap K) (t : K) (tagId : String) (fix nadir : Point2 K)
    (aglM : K) :
    (m.observe t tagId fix nadir aglM).1 = m.reject ∨ ∃ out : AnchorFix K,
      (m.observe t tagId fix nadir aglM).1 =
        { m with
          refs := store m.refs ((m.known t tagId).sight m.cfg t fix)
          fixes := m.fixes ++ [out] } ∧
      out.t = t ∧ out.tagId = tagId ∧ out.fix = fix ∧
        out.settled = (m.known t tagId).settled := by
  unfold observe
  dsimp only
  split_ifs
  · exact Or.inl rfl
  · exact Or.inr ⟨_, rfl, rfl, rfl, rfl, rfl⟩
  · exact Or.inl rfl

variable {cfg : AnchorConfig K} {m : TagAnchorMap K}

theorem known_tagId (m : TagAnchorMap K) (t : K) (tagId : String) :
    (m.known t tagId).tagId = tagId := by
  unfold known
  cases hlookup : m.lookup tagId with
  | none => rfl
  | some ref => simpa using List.find?_some hlookup

/-- The lookup after an accepted sighting. -/
theorem lookup_stored {m m' : TagAnchorMap K} {t : K} {tagId : String} {fix : Point2 K}
    (hrefs : m'.refs = store m.refs ((m.known t tagId).sight m.cfg t fix)) (other : String) :
    m'.lookup other =
      if tagId = other then some ((m.known t tagId).sight m.cfg t fix) else m.lookup other := by
  unfold lookup
  rw [hrefs, find_store, Reference.sight_tagId, known_tagId]

theorem Kept.observe (h : m.Kept cfg) {t : K} (hlate : ∀ fx ∈ m.fixes, fx.t ≤ t)
    (tagId : String) (fix nadir : Point2 K) (aglM : K) :
    ((m.observe t tagId fix nadir aglM).1).Kept cfg := by
  obtain hreject | ⟨out, hout, ht, htag, hfix, hsettled⟩ := m.observe_cases t tagId fix nadir aglM
  · rw [hreject]
    exact ⟨h.cfg_eq, h.unseen, h.seen⟩
  · have hlookup := lookup_stored (congrArg TagAnchorMap.refs hout)
    have hfixes (other : String) : (m.observe t tagId fix nadir aglM).1.fixesOf other =
        m.fixesOf other ++ if tagId = other then [out] else [] := by
      unfold fixesOf
      rw [congrArg TagAnchorMap.fixes hout, List.filter_append, ← htag]
      split_ifs with hsame <;> simp [hsame]
    have hstep : ((m.known t tagId).sight m.cfg t fix).Of cfg (m.fixesOf tagId ++ [out]) := by
      have hearlier : ∀ fx ∈ m.fixesOf tagId, fx.t ≤ out.t := by
        intro fx hfx
        rw [ht]
        exact hlate fx (List.mem_of_mem_filter hfx)
      rw [h.cfg_eq, ← ht, ← hfix]
      rw [← ht] at hsettled
      cases hknown : m.lookup tagId with
      | none =>
        have hnew : m.known out.t tagId = { tagId, firstSeen := out.t, lastSeen := 0 } := by
          rw [known, hknown, Option.getD_none]
        rw [hnew] at hsettled ⊢
        rw [h.unseen tagId hknown]
        have hempty : ([] : List (Sighting K)) = List.map AnchorFix.sighting [] := rfl
        exact Reference.accumulate_of rfl hempty (List.Sublist.refl _) (by simp) (by simp) hsettled
      | some ref =>
        have hold : m.known out.t tagId = ref := by rw [known, hknown, Option.getD_some]
        rw [hold] at hsettled ⊢
        exact (h.seen tagId ref hknown).sight hearlier hsettled
    refine ⟨?_, fun other hnone => ?_, fun other ref hsome => ?_⟩
    · rw [congrArg TagAnchorMap.cfg hout]
      exact h.cfg_eq
    · rw [hlookup] at hnone
      rw [hfixes]
      split_ifs at hnone ⊢ with hsame
      rw [h.unseen other hnone, List.append_nil]
    · rw [hlookup] at hsome
      rw [hfixes]
      split_ifs at hsome ⊢ with hsame
      · rw [← Option.some.inj hsome, ← hsame]
        exact hstep
      · rw [List.append_nil]
        exact h.seen other ref hsome

theorem call_eq_observe (m : TagAnchorMap K) (t : K) (tagId : String) (fix nadir : Point2 K)
    (aglM : K) : (m.call (.observe t tagId fix nadir aglM)).1 =
      (m.observe t tagId fix nadir aglM).1 := rfl

/-- A disagreement changes neither the references nor the fixes. -/
theorem disagreement_frame (m : TagAnchorMap K) (t : K) :
    ∃ breachT0, (m.disagreement t).1 = { m with breachT0 := breachT0 } := by
  unfold disagreement
  cases m.drift t {} with
  | none => exact ⟨none, rfl⟩
  | some d =>
    dsimp only
    split_ifs
    · exact ⟨none, rfl⟩
    · cases hbreach : m.breachT0 with
      | none => exact ⟨some t, rfl⟩
      | some t0 =>
        dsimp only
        split_ifs
        · exact ⟨m.breachT0, rfl⟩
        · exact ⟨m.breachT0, rfl⟩

/-- The sightings of a run keep the references in agreement with the fixes. -/
theorem Kept.calls (h : m.Kept cfg) (cs : List (AnchorCall K))
    (hordered : (cs.filterMap AnchorCall.observed).Pairwise (· ≤ ·))
    (hlate : ∀ fx ∈ m.fixes, ∀ t ∈ cs.filterMap AnchorCall.observed, fx.t ≤ t) :
    ((m.calls cs).1).Kept cfg := by
  induction cs generalizing m with
  | nil => exact h
  | cons c cs ih =>
    cases c with
    | observe t tagId fix nadir aglM =>
      have htimes : (AnchorCall.observe t tagId fix nadir aglM :: cs).filterMap
          AnchorCall.observed = t :: cs.filterMap AnchorCall.observed := rfl
      rw [htimes, List.pairwise_cons] at hordered
      rw [htimes] at hlate
      have hnow : ∀ fx ∈ m.fixes, fx.t ≤ t := fun fx hfx => hlate fx hfx t List.mem_cons_self
      refine ih (h.observe hnow tagId fix nadir aglM) hordered.2 fun fx hfx later hlater => ?_
      rw [call_eq_observe] at hfx
      obtain hreject | ⟨out, hout, ht, -⟩ := m.observe_cases t tagId fix nadir aglM
      · rw [hreject] at hfx
        exact hlate fx hfx later (List.mem_cons_of_mem t hlater)
      · rw [hout] at hfx
        obtain hfx | hfx := List.mem_append.mp hfx
        · exact hlate fx hfx later (List.mem_cons_of_mem t hlater)
        · rw [List.mem_singleton.mp hfx, ht]
          exact hordered.1 later hlater
    | drift t query => exact ih h hordered hlate
    | disagreement t =>
      obtain ⟨breachT0, hframe⟩ := m.disagreement_frame t
      have hstate : (m.call (.disagreement t)).1 = { m with breachT0 := breachT0 } := hframe
      have hkept : ((m.call (.disagreement t)).1).Kept cfg := by
        rw [hstate]
        exact ⟨h.cfg_eq, h.unseen, h.seen⟩
      refine ih hkept hordered ?_
      rw [hstate]
      exact hlate

/-- No call changes a datum. -/
theorem originOf_call {datum : Point2 K} {tagId : String} (h : m.originOf tagId = some datum)
    (c : AnchorCall K) : ((m.call c).1).originOf tagId = some datum := by
  cases c with
  | observe t other fix nadir aglM =>
    rw [call_eq_observe]
    obtain hreject | ⟨out, hout, -⟩ := m.observe_cases t other fix nadir aglM
    · rw [hreject]
      exact h
    · unfold originOf at h ⊢
      rw [lookup_stored (congrArg TagAnchorMap.refs hout)]
      split_ifs with hsame
      · obtain ⟨ref, hlookup, horigin⟩ := Option.bind_eq_some_iff.mp h
        rw [known, hsame, hlookup, Option.getD_some, Option.bind_some]
        exact Reference.sight_origin horigin t fix
      · exact h
  | drift t query => exact h
  | disagreement t =>
    obtain ⟨breachT0, hframe⟩ := m.disagreement_frame t
    have hstate : (m.call (.disagreement t)).1 = { m with breachT0 := breachT0 } := hframe
    rw [hstate]
    exact h

theorem originOf_calls {datum : Point2 K} {tagId : String} (h : m.originOf tagId = some datum)
    (cs : List (AnchorCall K)) : ((m.calls cs).1).originOf tagId = some datum := by
  induction cs generalizing m with
  | nil => exact h
  | cons c cs ih => exact ih (originOf_call h c)

/-- After every run of sightings in time order, with any queries between them: a datum stays
as it is in every continuation; a tag without one has sightings to take the mean of; and a
datum is the mean of enough accepted sightings of its tag, recent and close together, none of
which is among the fixes that a drift takes. -/
theorem datum_kept (cfg : AnchorConfig K) (before : List (AnchorCall K))
    (hordered : (before.filterMap AnchorCall.observed).Pairwise (· ≤ ·)) :
    let m := ((new cfg).calls before).1
    (∀ tagId datum, m.originOf tagId = some datum →
        ∀ after, ((m.calls after).1).originOf tagId = some datum) ∧
      ∀ tagId ref, m.lookup tagId = some ref →
        (ref.origin = none → ref.pending ≠ []) ∧
          ∀ datum, ref.origin = some datum → ∃ forming window after,
            m.fixesOf tagId = forming ++ after ∧ window.Sublist forming ∧
              FormedBy cfg datum window ∧
              ∀ t maxAge, ((m.fresh t maxAge).filter fun fx => fx.tagId = tagId).Sublist after := by
  intro m
  have hnew : (new cfg).Kept cfg := ⟨rfl, fun _ _ => rfl, by simp [new, lookup]⟩
  have hkept : m.Kept cfg := hnew.calls before hordered (by simp [new])
  refine ⟨fun tagId datum h after => originOf_calls h after, fun tagId ref hlookup => ?_⟩
  cases hkept.seen tagId ref hlookup with
  | forming group origin pending some part unsettled =>
    refine ⟨fun _ hnil => some ?_, fun datum hdatum => ?_⟩
    · rw [pending] at hnil
      exact List.map_eq_nil_iff.mp hnil
    · rw [origin] at hdatum
      contradiction
  | settled forming window after datum origin formed split part unsettled measured =>
    refine ⟨fun hnone => ?_, fun datum' hdatum => ?_⟩
    · rw [origin] at hnone
      contradiction
    · rw [origin] at hdatum
      rw [← Option.some.inj hdatum]
      refine ⟨forming, window, after, split, part, formed, fun t maxAge => ?_⟩
      have hswap : (m.fresh t maxAge).filter (fun fx => fx.tagId = tagId) =
          (m.fixesOf tagId).filter fun fx => fx.settled && decide (t - fx.t ≤ maxAge) := by
        unfold fresh fixesOf
        rw [List.filter_filter, List.filter_filter]
        exact List.filter_congr fun fx _ => Bool.and_comm _ _
      have hforming : forming.filter
          (fun fx => fx.settled && decide (t - fx.t ≤ maxAge)) = [] := by
        rw [List.filter_eq_nil_iff]
        intro fx hfx
        simp [unsettled fx hfx]
      rw [hswap, split, List.filter_append, hforming, List.nil_append]
      exact List.filter_sublist

def defaultAnchor : AnchorConfig ℚ :=
  { ({} : AnchorSettings ℚ) with accepted := by decide +kernel }

/-- A tag seen four times at one place. -/
def fourSightings : List (AnchorCall ℚ) :=
  [.observe 0 "a" (1, 1) (1, 1) 2, .observe 1 "a" (1, 1) (1, 1) 2,
    .observe 2 "a" (1, 1) (1, 1) 2, .observe 3 "a" (1, 1) (1, 1) 2]

theorem datum_kept_four :
    let m := ((new defaultAnchor).calls fourSightings).1
    m.originOf "a" = some (1, 1) ∧
      (∀ tagId datum, m.originOf tagId = some datum →
        ∀ after, ((m.calls after).1).originOf tagId = some datum) ∧
      ∀ tagId ref, m.lookup tagId = some ref →
        (ref.origin = none → ref.pending ≠ []) ∧
          ∀ datum, ref.origin = some datum → ∃ forming window after,
            m.fixesOf tagId = forming ++ after ∧ window.Sublist forming ∧
              FormedBy defaultAnchor datum window ∧
              ∀ t maxAge, ((m.fresh t maxAge).filter fun fx => fx.tagId = tagId).Sublist after :=
  ⟨by decide +kernel, datum_kept defaultAnchor fourSightings (by decide +kernel)⟩

end TagAnchorMap

end Mission10.Engine
