import Mission10.Engine.FieldSurvey
import Mission10.Library.Outcome

/-!
# Coverage of the survey lanes

The engine records the stretches that it has flown and reports them with the gaps that
are left. The records are always the lanes before the current one, each as one stretch,
and the part of the current lane behind the furthest sample.
-/
namespace Mission10.Engine

open MathOps Runs

set_option linter.unusedSectionVars false

/-! ## The report -/

section Report
variable {K : Type*} [Field K] [LinearOrder K] [MathOps K]

/-- The keys that a pattern leaves out of its report are `none`. -/
structure CoverageReport (K : Type*) where
  pattern : Option MissionPattern := none
  petals : Option (List (List (Point2 K))) := none
  completedPetals : Option ℕ := none
  lanes : List (Point2 K × Point2 K)
  gaps : List (Point2 K × Point2 K)

def Lane.segment (lane : Lane K) (stretch : K × K) : Point2 K × Point2 K :=
  (lane.pointAt stretch.1, lane.pointAt stretch.2)

/-- The way out to the end of a petal and back. -/
def petalPath (center : Point2 K) (radius headingDeg : K) : List (Point2 K) :=
  [center, (center.1 + radius * cos (radians headingDeg),
    center.2 + radius * sin (radians headingDeg)), center]

/-- The scan over the stretches of a lane from the cursor on. -/
def gapScan (length : K) : K → List (CoveredInterval K) → List (K × K)
  | cursor, [] => if cursor < length - 1 / 10 ^ 6 then [(cursor, length)] else []
  | cursor, iv :: ivs =>
    (if iv.s0 > cursor + 1 / 10 ^ 6 then [(cursor, iv.s0)] else []) ++
      gapScan length (max cursor iv.s1) ivs

namespace MissionEngine

/-- The stretches recorded on a lane. -/
def coveredOn (e : MissionEngine K) (lane : Lane K) : List (CoveredInterval K) :=
  e.covered.filter fun iv => iv.lane = lane.index

/-- The gaps of a lane, from its stretches in the order of their starts. -/
def gapsOn (e : MissionEngine K) (lane : Lane K) : List (K × K) :=
  gapScan lane.length 0 ((e.coveredOn lane).insertionSort fun a b => a.s0 ≤ b.s0)

def coverageReport (e : MissionEngine K) : Except Fault (CoverageReport K) := do
  if e.cfg.pattern = .centerReturnRosette then
    let center := e.homeNe.getD e.cfg.egressNe
    return {
      pattern := some e.cfg.pattern
      petals := some (rosetteHeadingsDeg.map (petalPath center e.cfg.rosetteRadiusM))
      completedPetals := some e.petalI
      lanes := []
      gaps := [] }
  let lanes ← e.covered.mapM fun iv =>
    match e.lanes[iv.lane]? with
    | some lane => .ok (lane.segment (iv.s0, iv.s1))
    | none => .error .indexError
  return { lanes, gaps := e.lanes.flatMap fun lane => (e.gapsOn lane).map lane.segment }

end MissionEngine

end Report

/-! ## Records of a survey -/

/-- The stretches follow each other from the first place to the last one. -/
def Consecutive {K : Type*} [LT K] : K → List (K × K) → K → Prop
  | s, [], t => s = t
  | s, (s0, s1) :: stretches, t => s0 = s ∧ s < s1 ∧ Consecutive s1 stretches t

/-- The lanes are numbered in their order and none is empty. -/
def Numbered {K : Type*} [Field K] [LinearOrder K] (lanes : List (Lane K)) : Prop :=
  ∀ (i : ℕ) (lane : Lane K), lanes[i]? = some lane → lane.index = i ∧ 0 < lane.length

section Records
variable {K : Type*} [Field K] [LinearOrder K] [IsStrictOrderedRing K] [MathOps K]

theorem serpentine_numbered {origin : Point2 K} {length spacing heading : K} {nLanes : ℤ}
    {lanes : List (Lane K)} (h : serpentine origin length nLanes spacing heading = .ok lanes) :
    Numbered lanes := by
  unfold serpentine at h
  split_ifs at h with hcount hsize
  obtain rfl := Except.ok.inj h
  push Not at hsize
  intro i lane hlane
  rw [List.getElem?_map, Option.map_eq_some_iff] at hlane
  obtain ⟨j, hj, rfl⟩ := hlane
  obtain ⟨_, hget⟩ := List.getElem?_eq_some_iff.mp hj
  rw [List.getElem_range] at hget
  unfold serpentineLane
  dsimp only
  split_ifs <;> exact ⟨hget.symm, hsize.1⟩

theorem polygonSerpentine_numbered {polygon : List (Point2 K)} {spacing : K}
    {lanes : List (Lane K)} (h : polygonSerpentine polygon spacing = .ok lanes) :
    Numbered lanes := by
  rw [← HitTolerances.polygonSerpentine_deployed] at h
  obtain ⟨-, -, rfl⟩ := HitTolerances.polygonSerpentine_ok _ h
  intro i lane hlane
  rw [List.getElem?_mapIdx, Option.map_eq_some_iff] at hlane
  obtain ⟨offset, hoffset, rfl⟩ := hlane
  have hspans := (List.mem_filter.mp (List.mem_of_getElem? hoffset)).2
  have hspans := of_decide_eq_true hspans
  unfold HitTolerances.Spans at hspans
  push Not at hspans
  have hpos : (0 : K) < 1 / 10 ^ 6 := by positivity
  unfold HitTolerances.laneOver laneBetween
  dsimp only
  split_ifs
  · exact ⟨rfl, abs_pos.mpr (hpos.trans hspans.2).ne'⟩
  · refine ⟨rfl, abs_pos.mpr ?_⟩
    rw [← neg_sub]
    exact neg_ne_zero.mpr (hpos.trans hspans.2).ne'

/-- The stretch of a lane up to a place, once there is one. -/
def stretch (i : ℕ) (s : K) : List (CoveredInterval K) := if 0 < s then [⟨i, 0, s⟩] else []

def Lane.whole (lane : Lane K) : CoveredInterval K := ⟨lane.index, 0, lane.length⟩

namespace MissionEngine

/-- A record from the end of the last one only moves that end. -/
theorem recordCoverage_stretch {front : List (CoveredInterval K)} {i : ℕ}
    (hfront : ∀ iv ∈ front, iv.lane ≠ i) {s0 s1 : K} (h0 : 0 ≤ s0) (h : s0 ≤ s1) :
    recordCoverage (front ++ stretch i s0) i s0 s1 = front ++ stretch i s1 := by
  rcases h.eq_or_lt with rfl | hlt
  · rw [recordCoverage, if_pos le_rfl]
  · rw [recordCoverage, if_neg hlt.not_ge, stretch, stretch, if_pos (h0.trans_lt hlt)]
    rcases h0.eq_or_lt with rfl | hpos
    · rw [if_neg (lt_irrefl 0), List.append_nil]
      cases hlast : front.getLast? with
      | none =>
        rw [List.getLast?_eq_none_iff.mp hlast]
        rfl
      | some last =>
        have hlane := hfront last (List.mem_of_getLast? hlast)
        exact if_neg fun hmerge => hlane hmerge.1
    · rw [if_pos hpos, List.getLast?_concat]
      dsimp only
      have hmerge : |s0 - s0| < 1 / 10 ^ 9 := by
        rw [sub_self, abs_zero]
        positivity
      rw [if_pos ⟨rfl, hmerge⟩, List.dropLast_concat]

/-- The survey is on one of its lanes and has recorded the way there. -/
structure Surveying (e : MissionEngine K) : Prop where
  lane : e.laneI < e.lanes.length
  on : e.OnLane
  covered : e.covered = (e.lanes.take e.laneI).map Lane.whole ++ stretch e.laneI e.laneS

/-- The survey is over and all lanes are recorded. -/
structure Complete (e : MissionEngine K) : Prop where
  covered : e.covered = e.lanes.map Lane.whole
  homeward : e.phase.homeward

/-- What the engine has recorded: a survey under way, or a finished one. -/
def Accounted (e : MissionEngine K) : Prop :=
  e.Surveying ∧ e.phase ≠ .egress ∨ e.Complete

variable {e e' : MissionEngine K}

theorem whole_lane_ne (h : Numbered e.lanes) {iv : CoveredInterval K} {i : ℕ}
    (hiv : iv ∈ (e.lanes.take i).map Lane.whole) : iv.lane ≠ i := by
  obtain ⟨lane, hlane, rfl⟩ := List.mem_map.mp hiv
  obtain ⟨j, hj, hget⟩ := List.mem_take_iff_getElem.mp hlane
  have hindex : lane.index = j := (h j lane (List.getElem?_eq_some_iff.mpr ⟨by omega, hget⟩)).1
  change lane.index ≠ i
  omega

theorem Surveying.advance (h : e.Surveying) (hnumbered : Numbered e.lanes) {lane : Lane K}
    (hlane : e.lanes[e.laneI]? = some lane) (pos : Vec3 K) :
    (e.advance lane (measuredS lane pos)).Surveying := by
  obtain ⟨hindex, hlength⟩ := hnumbered e.laneI lane hlane
  have hon := advance_onLane h.on hlane hlength.le pos
  unfold MissionEngine.advance at hon ⊢
  split_ifs at hon ⊢ with hfurther
  · refine ⟨h.lane, hon, ?_⟩
    change recordCoverage e.covered lane.index e.laneS _ = _
    rw [h.covered, hindex]
    exact recordCoverage_stretch (fun iv => whole_lane_ne hnumbered) h.on.1 hfurther.le
  · exact h

theorem Surveying.finishLane (h : e.Surveying) (hphase : e.phase ≠ .egress)
    (hnumbered : Numbered e.lanes) {lane : Lane K} (hlane : e.lanes[e.laneI]? = some lane) :
    (e.finishLane lane).1.Accounted := by
  obtain ⟨hindex, hlength⟩ := hnumbered e.laneI lane hlane
  have hcovered : recordCoverage e.covered lane.index e.laneS lane.length =
      (e.lanes.take (e.laneI + 1)).map Lane.whole := by
    rw [h.covered, hindex, recordCoverage_stretch (fun iv => whole_lane_ne hnumbered) h.on.1
      (h.on.2 lane hlane), List.take_add_one, hlane, List.map_append, stretch, if_pos hlength,
      Option.toList_some, List.map_singleton, Lane.whole, hindex]
  unfold MissionEngine.finishLane
  dsimp only
  split
  · rename_i next hnext
    refine Or.inl ⟨⟨(List.getElem?_eq_some_iff.mp hnext).1, ⟨le_rfl, fun lane' hlane' => ?_⟩, ?_⟩,
      hphase⟩
    · exact (hnumbered _ lane' hlane').2.le
    · change recordCoverage _ _ _ _ = (e.lanes.take (e.laneI + 1)).map Lane.whole ++ stretch _ 0
      rw [hcovered, stretch, if_neg (lt_irrefl 0), List.append_nil]
  · rename_i hnext
    refine Or.inr ⟨?_, rfl⟩
    change recordCoverage _ _ _ _ = e.lanes.map Lane.whole
    rw [hcovered, List.take_of_length_le (List.getElem?_eq_none_iff.mp hnext)]

theorem Surveying.tickLane (h : e.Surveying) (hphase : e.phase ≠ .egress)
    (hnumbered : Numbered e.lanes) {s : Sample K} {sp : Option (Setpoint K)}
    (hout : e.tickLane s = .ok (e', sp)) : e'.Accounted := by
  unfold MissionEngine.tickLane at hout
  split at hout
  · cases hout
  · rename_i lane hlane
    dsimp only at hout
    split_ifs at hout
    · exact fst_of_ok hout ▸ Or.inl ⟨h, hphase⟩
    · rw [← fst_of_ok hout]
      have hentered : Surveying { e with laneEntered := true } := ⟨h.lane, h.on, h.covered⟩
      unfold surveyLane
      split
      · exact Or.inl ⟨⟨h.lane, h.on, h.covered⟩, Phase.noConfusion⟩
      · unfold followLane
        dsimp only
        have hadvance := hentered.advance hnumbered hlane s.pos
        have hlanes := congrArg SurveyPlan.lanes
          (advance_plan { e with laneEntered := true } lane (measuredS lane s.pos))
        have hkept := congrArg Control.phase
          (advance_control { e with laneEntered := true } lane (measuredS lane s.pos))
        have hlaneI := advance_lane { e with laneEntered := true } lane (measuredS lane s.pos)
        generalize MissionEngine.advance { e with laneEntered := true } lane _ = e1 at *
        have hphase1 : e1.phase ≠ .egress := fun h => hphase (hkept.symm.trans h)
        split
        · refine hadvance.finishLane hphase1 ?_ ?_
          · change e1.lanes = e.lanes at hlanes
            rwa [hlanes]
          · change e1.lanes = e.lanes at hlanes
            rw [hlanes, hlaneI]
            exact hlane
        · exact Or.inl ⟨hadvance, hphase1⟩

/-! ### A finished survey -/

theorem Complete.guarded (h : e.Complete) (hframe : GuardFrame e e')
    (hphase : e'.phase = e.phase ∨ e'.phase = .abort) : e'.Complete := by
  obtain ⟨phase, reason, engaged, rfl⟩ := hframe
  refine ⟨h.covered, ?_⟩
  rcases hphase with hsame | habort
  · rw [hsame]
    exact h.homeward
  · rw [habort]
    rfl

theorem Complete.tickPhase (h : e.Complete)
    (hnext : e.phase = .settle → e.settleNextPhase = .land) {s : Sample K}
    {sp : Option (Setpoint K)} (hout : e.tickPhase s = .ok (e', sp)) : e'.Complete := by
  have hstep := tickPhase_homeward h.homeward hnext hout
  have hhome := hstep.homeward h.homeward
  obtain ⟨phase, t0, next, requires, rfl⟩ := hstep.frame
  exact ⟨h.covered, hhome⟩

theorem Complete.input (h : e.Complete) {x : EngineInput K} (hx : ∀ s, x ≠ .tick s)
    (hstep : e.step x = some e') : e'.Complete := by
  obtain ⟨phase, _, _, _, _, _, _, _, _, rfl, hphase⟩ := step_input hx hstep
  refine ⟨h.covered, ?_⟩
  change phase.homeward
  rcases hphase with rfl | rfl | ⟨hpreflight, -⟩
  · exact h.homeward
  · rfl
  · have hhome := h.homeward
    rw [hpreflight] at hhome
    exact absurd hhome (by decide)

/-- No later phase takes the survey up again. -/
theorem Complete.step (h : e.Complete) (hnext : e.phase = .settle → e.settleNextPhase = .land)
    {x : EngineInput K} (hstep : e.step x = some e') : e'.Complete :=
  step_preserves (fun h => h.guarded) (fun h hnext hout => h.tickPhase hnext hout)
    (fun h hx hstep => h.input hx hstep) hnext h hstep

/-! ### Any state of a survey -/

theorem Accounted.guarded (h : e.Accounted) (hframe : GuardFrame e e')
    (hphase : e'.phase = e.phase ∨ e'.phase = .abort) : e'.Accounted := by
  rcases h with ⟨h, hne⟩ | h
  · obtain ⟨phase, reason, engaged, rfl⟩ := hframe
    refine Or.inl ⟨⟨h.lane, h.on, h.covered⟩, ?_⟩
    rcases hphase with hsame | habort
    · rw [hsame]
      exact hne
    · rw [habort]
      decide
  · exact Or.inr (h.guarded hframe hphase)

theorem Surveying.homeward (h : e.Surveying) (hne : e.phase ≠ .egress) (hstep : Homeward e e') :
    e'.Surveying ∧ e'.phase ≠ .egress := by
  have hne' := hstep.ne_egress hne
  obtain ⟨phase, t0, next, requires, rfl⟩ := hstep.frame
  exact ⟨⟨h.lane, h.on, h.covered⟩, hne'⟩

theorem Surveying.tickPhase (hpattern : e.cfg.pattern = .serpentine) (hnumbered : Numbered e.lanes)
    (hne : e.phase ≠ .egress) (hnext : e.phase = .settle → e.settleNextPhase = .land)
    (h : e.Surveying) {s : Sample K} {sp : Option (Setpoint K)}
    (hout : e.tickPhase s = .ok (e', sp)) : e'.Accounted := by
  by_cases hhome : e.phase.homeward
  · exact Or.inl (h.homeward hne (tickPhase_homeward hhome hnext hout))
  · unfold MissionEngine.tickPhase at hout
    split at hout
    case h_1 => exact fst_of_ok hout ▸ Or.inl ⟨h, hne⟩
    case h_2 =>
      obtain ⟨t0, home, phase, takeoff, rfl, hphase, -⟩ := tickSync_frame hout
      refine Or.inl ⟨⟨h.lane, h.on, h.covered⟩, ?_⟩
      rcases hphase with rfl | rfl
      · exact hne
      · exact Phase.noConfusion
    case h_3 =>
      unfold tickTakeoff at hout
      simp only [bind, Except.bind] at hout
      split at hout
      · cases hout
      · split_ifs at hout
        · have hlane : Surveying { e with phase := .lane } := ⟨h.lane, h.on, h.covered⟩
          unfold tickSurvey at hout
          rw [hpattern] at hout
          exact hlane.tickLane Phase.noConfusion hnumbered hout
        · exact fst_of_ok hout ▸ Or.inl ⟨h, hne⟩
    case h_4 =>
      unfold tickSurvey at hout
      rw [hpattern] at hout
      exact h.tickLane hne hnumbered hout
    case h_5 =>
      obtain ⟨log, dips, target, t0, entered, phase, rfl, hphase⟩ := tickDip_frame hout
      refine Or.inl ⟨⟨h.lane, h.on, h.covered⟩, ?_⟩
      rcases hphase with rfl | rfl
      · exact hne
      · exact Phase.noConfusion
    all_goals
      rename_i hphase
      rw [hphase] at hhome
      exact absurd rfl hhome

theorem Accounted.input (h : e.Accounted) {x : EngineInput K} (hx : ∀ s, x ≠ .tick s)
    (hstep : e.step x = some e') : e'.Accounted := by
  rcases h with ⟨h, hne⟩ | h
  · obtain ⟨phase, _, _, _, _, _, _, _, _, rfl, hphase⟩ := step_input hx hstep
    refine Or.inl ⟨⟨h.lane, h.on, h.covered⟩, ?_⟩
    rcases hphase with rfl | rfl | ⟨-, rfl⟩
    · exact hne
    · exact Phase.noConfusion
    · exact Phase.noConfusion
  · exact Or.inr (h.input hx hstep)

/-! ## Runs -/

theorem new_numbered {cfg : MissionConfig K} {yaw : K} (h : new cfg yaw = .ok e) :
    e.lanes ≠ [] ∧ Numbered e.lanes := by
  obtain ⟨fence, lanes, -, hlanes, rfl⟩ := new_ok h
  unfold surveyLanes at hlanes
  split_ifs at hlanes
  · exact ⟨polygonSerpentine_ne_nil hlanes, polygonSerpentine_numbered hlanes⟩
  · exact ⟨serpentine_ne_nil hlanes, serpentine_numbered hlanes⟩

theorem new_accounted {cfg : MissionConfig K} {yaw : K} (h : new cfg yaw = .ok e) :
    e.Accounted := by
  obtain ⟨hlanes, hnumbered⟩ := new_numbered h
  obtain ⟨fence, lanes, -, -, rfl⟩ := new_ok h
  refine Or.inl ⟨⟨List.length_pos_iff.mpr hlanes, ⟨le_rfl, fun lane hlane => ?_⟩, ?_⟩,
    Phase.noConfusion⟩
  · exact (hnumbered _ lane hlane).2.le
  · change [] = [] ++ stretch 0 0
    rw [stretch, if_neg (lt_irrefl 0), List.append_nil]

/-- The records of a survey with its plan. -/
structure Records (plan : SurveyPlan K) (e : MissionEngine K) : Prop where
  plan_eq : e.plan = plan
  accounted : e.Accounted

theorem Records.step {plan : SurveyPlan K} (hpattern : plan.cfg.pattern = .serpentine)
    (hnumbered : Numbered plan.lanes) (hnext : e.phase = .settle → e.settleNextPhase = .land)
    (h : Records plan e) {x : EngineInput K} (hstep : e.step x = some e') : Records plan e' := by
  refine step_preserves ?_ ?_ ?_ hnext h hstep
  · rintro e e' ⟨hplan, h⟩ hframe hphase
    have hguarded := h.guarded hframe hphase
    obtain ⟨phase, reason, engaged, rfl⟩ := hframe
    exact ⟨hplan, hguarded⟩
  · rintro e e' s sp ⟨hplan, h⟩ hnext hout
    refine ⟨(tickPhase_plan hout).trans hplan, ?_⟩
    have hcfg : e.cfg = plan.cfg := congrArg SurveyPlan.cfg hplan
    have hlanes : e.lanes = plan.lanes := congrArg SurveyPlan.lanes hplan
    rcases h with ⟨h, hne⟩ | h
    · exact h.tickPhase (hcfg ▸ hpattern) (hlanes ▸ hnumbered) hne hnext hout
    · exact Or.inr (h.tickPhase hnext hout)
  · rintro e e' x ⟨hplan, h⟩ hx hstep
    exact ⟨(step_plan hstep).trans hplan, h.input hx hstep⟩

theorem run_records {plan : SurveyPlan K} (hpattern : plan.cfg.pattern = .serpentine)
    (hnumbered : Numbered plan.lanes) (hordered : Ordered e.control) (h : Records plan e)
    {xs : List (EngineInput K)} (hrun : run step e xs = some e') : Records plan e' := by
  refine (run_invariant step (fun m => Ordered m.control ∧ Records plan m) ?_ ⟨hordered, h⟩ hrun).2
  rintro m x m' ⟨hordered, h⟩ hstep
  exact ⟨step_ordered hordered hstep, h.step hpattern hnumbered hordered.settleNext hstep⟩

theorem run_complete (hordered : Ordered e.control) (h : e.Complete) {xs : List (EngineInput K)}
    (hrun : run step e xs = some e') : e'.Complete := by
  refine (run_invariant step (fun m => Ordered m.control ∧ m.Complete) ?_ ⟨hordered, h⟩ hrun).2
  rintro m x m' ⟨hordered, h⟩ hstep
  exact ⟨step_ordered hordered hstep, h.step hordered.settleNext hstep⟩

/-! ## The account of a lane -/

/-- The lanes carry the numbers of their places. -/
theorem filter_take {lanes : List (Lane K)} (hnumbered : Numbered lanes) {i : ℕ} {lane : Lane K}
    (hlane : lanes[i]? = some lane) (k : ℕ) :
    (lanes.take k).filter (fun l => l.index = i) = if i < k then [lane] else [] := by
  induction k with
  | zero => rfl
  | succ k ih =>
    rw [List.take_add_one, List.filter_append, ih]
    cases hk : lanes[k]? with
    | none =>
      have hle := List.getElem?_eq_none_iff.mp hk
      have hlt := (List.getElem?_eq_some_iff.mp hlane).1
      rw [if_pos (by omega), if_pos (by omega)]
      rfl
    | some other =>
      have hindex := (hnumbered k other hk).1
      rcases lt_trichotomy i k with hlt | rfl | hgt
      · rw [if_pos hlt, if_pos (by omega), Option.toList_some, List.filter_singleton]
        have hne : ¬ other.index = i := by omega
        simp [hne]
      · obtain rfl : other = lane := Option.some.inj (hk.symm.trans hlane)
        rw [if_neg (lt_irrefl i), if_pos (by omega), Option.toList_some, List.filter_singleton]
        simp [hindex]
      · rw [if_neg (by omega), if_neg (by omega), Option.toList_some, List.filter_singleton]
        have hne : ¬ other.index = i := by omega
        simp [hne]

theorem filter_whole {lanes : List (Lane K)} (hnumbered : Numbered lanes) {i : ℕ} {lane : Lane K}
    (hlane : lanes[i]? = some lane) (k : ℕ) :
    ((lanes.take k).map Lane.whole).filter (fun iv => iv.lane = i) =
      if i < k then stretch i lane.length else [] := by
  obtain ⟨hindex, hlength⟩ := hnumbered i lane hlane
  have hfilter := filter_take hnumbered hlane k
  rw [List.filter_map]
  change ((lanes.take k).filter fun l => l.index = i).map Lane.whole = _
  rw [hfilter, stretch, if_pos hlength]
  split_ifs
  · rw [List.map_singleton, Lane.whole, hindex]
  · rfl

theorem filter_stretch (i j : ℕ) (s : K) :
    (stretch j s).filter (fun iv => iv.lane = i) = if j = i then stretch j s else [] := by
  unfold stretch
  split_ifs with hpos hlane hlane
  · exact List.filter_cons_of_pos (by simpa using hlane)
  · exact List.filter_cons_of_neg (by simpa using hlane)
  · rfl
  · rfl

/-- How far a lane is recorded. -/
structure CoveredTo (e : MissionEngine K) (i : ℕ) (lane : Lane K) (s : K) : Prop where
  nonneg : 0 ≤ s
  le : s ≤ lane.length
  eq : e.coveredOn lane = stretch i s

theorem Surveying.coveredTo (h : e.Surveying) (hnumbered : Numbered e.lanes) {i : ℕ}
    {lane : Lane K} (hlane : e.lanes[i]? = some lane) :
    CoveredTo e i lane (if i < e.laneI then lane.length else if e.laneI = i then e.laneS else 0) := by
  obtain ⟨hindex, hlength⟩ := hnumbered i lane hlane
  have heq : e.coveredOn lane = (if i < e.laneI then stretch i lane.length else []) ++
      if e.laneI = i then stretch e.laneI e.laneS else [] := by
    rw [coveredOn, h.covered, hindex, List.filter_append, filter_whole hnumbered hlane,
      filter_stretch]
  have hempty : ([] : List (CoveredInterval K)) = stretch i 0 := by
    rw [stretch, if_neg (lt_irrefl 0)]
  rcases lt_trichotomy i e.laneI with hlt | rfl | hgt
  · rw [if_pos hlt, if_neg (by omega), List.append_nil] at heq
    rw [if_pos hlt]
    exact ⟨hlength.le, le_rfl, heq⟩
  · rw [if_neg (lt_irrefl _), if_pos rfl, List.nil_append] at heq
    rw [if_neg (lt_irrefl _), if_pos rfl]
    exact ⟨h.on.1, h.on.2 lane hlane, heq⟩
  · rw [if_neg (by omega), if_neg (by omega), List.append_nil, hempty] at heq
    rw [if_neg (by omega), if_neg (by omega)]
    exact ⟨le_rfl, hlength.le, heq⟩

theorem Complete.coveredTo (h : e.Complete) (hnumbered : Numbered e.lanes) {i : ℕ}
    {lane : Lane K} (hlane : e.lanes[i]? = some lane) : CoveredTo e i lane lane.length := by
  obtain ⟨hindex, hlength⟩ := hnumbered i lane hlane
  refine ⟨hlength.le, le_rfl, ?_⟩
  have hlt := (List.getElem?_eq_some_iff.mp hlane).1
  have hwhole := filter_whole hnumbered hlane e.lanes.length
  rw [List.take_length, if_pos hlt] at hwhole
  rw [coveredOn, h.covered, hindex]
  exact hwhole

theorem Accounted.coveredTo (h : e.Accounted) (hnumbered : Numbered e.lanes) {i : ℕ}
    {lane : Lane K} (hlane : e.lanes[i]? = some lane) : ∃ s, CoveredTo e i lane s := by
  rcases h with ⟨h, -⟩ | h
  · exact ⟨_, h.coveredTo hnumbered hlane⟩
  · exact ⟨_, h.coveredTo hnumbered hlane⟩

/-- The recorded stretches as places on the lane. -/
def stretchesOn (e : MissionEngine K) (lane : Lane K) : List (K × K) :=
  (e.coveredOn lane).map fun iv => (iv.s0, iv.s1)

theorem CoveredTo.stretches {i : ℕ} {lane : Lane K} {s : K} (h : CoveredTo e i lane s) :
    e.stretchesOn lane = if 0 < s then [(0, s)] else [] := by
  rw [stretchesOn, h.eq, stretch]
  split_ifs <;> rfl

theorem CoveredTo.gaps {i : ℕ} {lane : Lane K} {s : K} (h : CoveredTo e i lane s) :
    e.gapsOn lane = if s < lane.length - 1 / 10 ^ 6 then [(s, lane.length)] else [] := by
  have htol : (0 : K) < 1 / 10 ^ 6 := by positivity
  rw [gapsOn, h.eq, stretch]
  rcases h.nonneg.eq_or_lt with rfl | hpos
  · rw [if_neg (lt_irrefl 0)]
    rfl
  · rw [if_pos hpos]
    change gapScan lane.length 0 [⟨i, 0, s⟩] = _
    rw [gapScan, gapScan, max_eq_right hpos.le]
    dsimp only
    rw [if_neg (by rw [zero_add]; exact htol.not_gt), List.nil_append]

/-- The recorded stretches of a lane follow each other from its start. -/
theorem CoveredTo.consecutive {i : ℕ} {lane : Lane K} {s : K} (h : CoveredTo e i lane s) :
    Consecutive 0 (e.stretchesOn lane) s := by
  rw [h.stretches]
  split_ifs with hpos
  · exact ⟨rfl, hpos, rfl⟩
  · exact (h.nonneg.antisymm (not_lt.mp hpos))

/-- With the gaps they go on to its end, up to the tolerance of the report. -/
theorem CoveredTo.partition {i : ℕ} {lane : Lane K} {s : K} (h : CoveredTo e i lane s) :
    ∃ t, |t - lane.length| ≤ 1 / 10 ^ 6 ∧
      Consecutive 0 (e.stretchesOn lane ++ e.gapsOn lane) t := by
  have htol : (0 : K) < 1 / 10 ^ 6 := by positivity
  rw [h.gaps]
  split_ifs with hgap
  · refine ⟨lane.length, ?_, ?_⟩
    · rw [sub_self, abs_zero]
      exact htol.le
    · have hlt : s < lane.length := hgap.trans (sub_lt_self _ htol)
      rw [h.stretches]
      split_ifs with hpos
      · exact ⟨rfl, hpos, rfl, hlt, rfl⟩
      · have hzero : s = 0 := (not_lt.mp hpos).antisymm h.nonneg
        rw [hzero] at hlt ⊢
        exact ⟨rfl, hlt, rfl⟩
  · refine ⟨s, ?_, ?_⟩
    · rw [abs_le]
      have hle := h.le
      constructor <;> linarith
    · rw [List.append_nil]
      exact h.consecutive

/-! ## The report of a run -/

theorem Complete.covered_eq (h : e.Complete) (hnumbered : Numbered e.lanes) :
    e.covered = e.lanes.flatMap e.coveredOn := by
  rw [h.covered, List.map_eq_flatMap]
  apply List.flatMap_congr
  intro lane hlane
  obtain ⟨i, hi⟩ := List.getElem?_of_mem hlane
  obtain ⟨hindex, hlength⟩ := hnumbered i lane hi
  rw [(h.coveredTo hnumbered hi).eq, stretch, if_pos hlength, Lane.whole, hindex]

theorem Surveying.covered_eq (h : e.Surveying) (hnumbered : Numbered e.lanes) :
    e.covered = e.lanes.flatMap e.coveredOn := by
  have hcurrent := h.lane
  have hsplit := List.take_append_drop e.laneI e.lanes
  rw [List.drop_eq_getElem_cons hcurrent] at hsplit
  have hbefore : (e.lanes.take e.laneI).flatMap e.coveredOn =
      (e.lanes.take e.laneI).map Lane.whole := by
    rw [List.map_eq_flatMap]
    apply List.flatMap_congr
    intro lane hlane
    obtain ⟨i, hi, hget⟩ := List.mem_take_iff_getElem.mp hlane
    have hget : e.lanes[i]? = some lane := List.getElem?_eq_some_iff.mpr ⟨by omega, hget⟩
    obtain ⟨hindex, hlength⟩ := hnumbered i lane hget
    have hlt : i < e.laneI := by omega
    rw [(h.coveredTo hnumbered hget).eq, if_pos hlt, stretch, if_pos hlength, Lane.whole, hindex]
  have hstretch : e.coveredOn e.lanes[e.laneI] = stretch e.laneI e.laneS := by
    have hget := List.getElem?_eq_getElem h.lane
    rw [(h.coveredTo hnumbered hget).eq, if_neg (lt_irrefl _), if_pos rfl]
  have hafter : (e.lanes.drop (e.laneI + 1)).flatMap e.coveredOn = [] := by
    rw [List.flatMap_eq_nil_iff]
    intro lane hlane
    obtain ⟨j, hj⟩ := List.getElem?_of_mem hlane
    rw [List.getElem?_drop] at hj
    rw [(h.coveredTo hnumbered hj).eq, if_neg (by omega), if_neg (by omega), stretch,
      if_neg (lt_irrefl 0)]
  rw [h.covered]
  nth_rewrite 2 [← hsplit]
  rw [List.flatMap_append, List.flatMap_cons, hbefore, hstretch, hafter, List.append_nil]

theorem Accounted.covered_eq (h : e.Accounted) (hnumbered : Numbered e.lanes) :
    e.covered = e.lanes.flatMap e.coveredOn := by
  rcases h with ⟨h, -⟩ | h
  · exact h.covered_eq hnumbered
  · exact h.covered_eq hnumbered

/-- The report lists the stretches and the gaps, lane by lane. -/
theorem Accounted.report (h : e.Accounted) (hpattern : e.cfg.pattern = .serpentine)
    (hnumbered : Numbered e.lanes) : e.coverageReport = .ok {
      lanes := e.lanes.flatMap fun lane => (e.stretchesOn lane).map lane.segment
      gaps := e.lanes.flatMap fun lane => (e.gapsOn lane).map lane.segment } := by
  have hlanes : (e.covered.mapM fun iv => match e.lanes[iv.lane]? with
      | some lane => (.ok (lane.segment (iv.s0, iv.s1)) : Except Fault (Point2 K × Point2 K))
      | none => .error .indexError) = .ok (e.lanes.flatMap fun lane =>
        (e.coveredOn lane).map fun iv => lane.segment (iv.s0, iv.s1)) := by
    rw [h.covered_eq hnumbered]
    apply Outcome.mapM_flatMap
    intro lane hlane iv hiv
    obtain ⟨i, hi⟩ := List.getElem?_of_mem hlane
    have hindex := of_decide_eq_true (List.mem_filter.mp hiv).2
    rw [(hnumbered i lane hi).1] at hindex
    rw [hindex, hi]
  unfold coverageReport
  rw [if_neg (by rw [hpattern]; decide)]
  simp only [bind, Except.bind, pure, Except.pure, hlanes]
  simp only [stretchesOn, List.map_map, Function.comp_def]

theorem Complete.gaps (h : e.Complete) (hnumbered : Numbered e.lanes) :
    (e.lanes.flatMap fun lane => (e.gapsOn lane).map lane.segment) = [] := by
  rw [List.flatMap_eq_nil_iff]
  intro lane hlane
  obtain ⟨i, hi⟩ := List.getElem?_of_mem hlane
  have htol : (0 : K) < 1 / 10 ^ 6 := by positivity
  rw [(h.coveredTo hnumbered hi).gaps, if_neg (sub_lt_self _ htol).not_gt, List.map_nil]

/-- In every run of a serpentine survey the recorded stretches of a lane follow each other
from its start and stay on it, and go on with the reported gaps to its end. After a run
that has come to the egress no gap is reported. -/
theorem coverage_accounted {cfg : MissionConfig K} {yaw : K} {xs : List (EngineInput K)}
    (hnew : new cfg yaw = .ok e) (hpattern : cfg.pattern = .serpentine)
    (hrun : run step e xs = some e') :
    (∀ lane ∈ e'.lanes,
      (∃ s, s ≤ lane.length ∧ Consecutive 0 (e'.stretchesOn lane) s) ∧
      ∃ t, |t - lane.length| ≤ 1 / 10 ^ 6 ∧
        Consecutive 0 (e'.stretchesOn lane ++ e'.gapsOn lane) t) ∧
    ∃ report, e'.coverageReport = .ok report ∧
      (report.lanes = e'.lanes.flatMap fun lane => (e'.stretchesOn lane).map lane.segment) ∧
      (report.gaps = e'.lanes.flatMap fun lane => (e'.gapsOn lane).map lane.segment) ∧
      ∀ front back m, xs = front ++ back → run step e front = some m → m.phase = .egress →
        report.gaps = [] := by
  obtain ⟨-, hcfg⟩ := new_control hnew
  rw [← hcfg] at hpattern
  obtain ⟨-, hnumbered⟩ := new_numbered hnew
  have hrecords {xs : List (EngineInput K)} {m : MissionEngine K} (hrun : run step e xs = some m) :
      Records e.plan m :=
    run_records hpattern hnumbered (new_ordered hnew) ⟨rfl, new_accounted hnew⟩ hrun
  have hlanes {m : MissionEngine K} (h : Records e.plan m) : m.lanes = e.lanes :=
    congrArg SurveyPlan.lanes h.plan_eq
  have hfinal := hrecords hrun
  have hnumbered' : Numbered e'.lanes := hlanes hfinal ▸ hnumbered
  have hpattern' : e'.cfg.pattern = .serpentine := by
    have hsame : e'.cfg = e.cfg := congrArg SurveyPlan.cfg hfinal.plan_eq
    rw [hsame, hpattern]
  refine ⟨fun lane hlane => ?_, _, hfinal.accounted.report hpattern' hnumbered', rfl, rfl, ?_⟩
  · obtain ⟨i, hi⟩ := List.getElem?_of_mem hlane
    obtain ⟨s, hs⟩ := hfinal.accounted.coveredTo hnumbered' hi
    exact ⟨⟨s, hs.le, hs.consecutive⟩, hs.partition⟩
  · rintro front back m rfl hfront hegress
    obtain ⟨m', hm', hback⟩ := run_append_some step hrun
    obtain rfl := Option.some.inj (hm'.symm.trans hfront)
    have hcomplete : m'.Complete := by
      rcases (hrecords hfront).accounted with ⟨-, hne⟩ | h
      · exact absurd hegress hne
      · exact h
    have hordered := run_ordered (new_ordered hnew) hfront
    exact (run_complete hordered hcomplete hback).gaps hnumbered'

end MissionEngine

end Records

namespace MissionEngine

/-- One lane, flown in two steps. -/
def surveyToEgress : List (EngineInput ℚ) :=
  let still : Vec3 ℚ := ⟨0, 0, 0⟩
  [.start, .tick ⟨0, still, still, true, true⟩, .tick ⟨2, still, still, true, true⟩,
    .tick ⟨4, ⟨0, 0, -6⟩, still, true, true⟩, .tick ⟨9, ⟨10, 0, -6⟩, still, true, true⟩,
    .tick ⟨14, ⟨20, 0, -6⟩, still, true, true⟩]

theorem coverage_accounted_aborted : ∃ e' report,
    run step oneLaneEngine (surveyToEgress ++ [.operatorAbort]) = some e' ∧
      e'.coverageReport = .ok report ∧ report.gaps = [] := by
  have hegress : (run step oneLaneEngine surveyToEgress).map (·.phase) = some .egress := by
    decide +kernel
  have hsome : (run step oneLaneEngine (surveyToEgress ++ [.operatorAbort])).isSome := by
    decide +kernel
  obtain ⟨m, hfront, hphase⟩ := Option.map_eq_some_iff.mp hegress
  obtain ⟨e', hrun⟩ := Option.isSome_iff_exists.mp hsome
  obtain ⟨-, report, hreport, -, -, hgaps⟩ := coverage_accounted oneLaneEngine_new rfl hrun
  exact ⟨e', report, hrun, hreport, hgaps surveyToEgress [.operatorAbort] m rfl hfront hphase⟩

end MissionEngine

end Mission10.Engine
