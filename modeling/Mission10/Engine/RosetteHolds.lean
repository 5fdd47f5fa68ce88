import Mission10.Engine.MissionRuns

/-!
# Holds of a rosette

A petal is flown from a hold at the center to a hold at its outer end and back. One
timer serves both holds, so a survey tick is described by where in the history the
running hold began and what came before it.
-/
namespace Mission10.Engine

open MathOps Runs

set_option linter.unusedSectionVars false

variable {K : Type*} [Field K] [LinearOrder K] [MathOps K]

/-! ## Holds -/

/-- A timer that started with the first tick of the window, all of whose ticks are stable. -/
def Holding (stable : Sample K → Prop) (t0 : K) (window : List (EngineInput K)) : Prop :=
  ∃ first block, window = .tick first :: block ∧ first.t = t0 ∧ stable first ∧
    ∀ s, .tick s ∈ block → stable s

/-- A hold: from the first tick to the last one all ticks are stable, and as much time
passes as it takes. -/
def Holds (stable : Sample K → Prop) (holdS : K) (window : List (EngineInput K)) : Prop :=
  ∃ first block last, window = .tick first :: block ++ [.tick last] ∧ stable first ∧
    (∀ s, .tick s ∈ block → stable s) ∧ stable last ∧ holdS ≤ last.t - first.t

/-- The hold that a timer stands for began after a history of the given kind. -/
def Timed (stable : Sample K → Prop) (Before : List (EngineInput K) → Prop)
    (hist : List (EngineInput K)) (timer : Option K) : Prop :=
  ∀ t0, timer = some t0 → ∃ before window, hist = before ++ window ∧ Before before ∧
    Holding stable t0 window

/-- The history ends with a hold. -/
def Held (stable : Sample K → Prop) (holdS : K) (Before : List (EngineInput K) → Prop)
    (hist : List (EngineInput K)) : Prop :=
  ∃ before window, hist = before ++ window ∧ Before before ∧ Holds stable holdS window

section Holds
variable {stable : Sample K → Prop} {Before : List (EngineInput K) → Prop}
  {hist : List (EngineInput K)} {timer : Option K} {holdS : K}

theorem timed_none : Timed stable Before hist none := fun t0 h => absurd h (by simp)

theorem Timed.extend (h : Timed stable Before hist timer) {x : EngineInput K}
    (hx : ∀ s, x = .tick s → stable s) : Timed stable Before (hist ++ [x]) timer := by
  intro t0 ht0
  obtain ⟨before, window, rfl, hbefore, first, block, rfl, hfirst, hstable, hblock⟩ := h t0 ht0
  refine ⟨before, .tick first :: block ++ [x], by simp, hbefore, first, block ++ [x], by simp,
    hfirst, hstable, ?_⟩
  intro s hs
  rcases List.mem_append.mp hs with hs | hs
  · exact hblock s hs
  · exact hx s (List.mem_singleton.mp hs).symm

theorem timed_start (hbefore : Before hist) {s : Sample K} (hs : stable s) :
    Timed stable Before (hist ++ [.tick s]) (some s.t) := by
  intro t0 ht0
  exact ⟨hist, [.tick s], rfl, hbefore, s, [], rfl, Option.some.inj ht0, hs, by simp⟩

theorem Timed.ends {t0 : K} (h : Timed stable Before hist (some t0)) {s : Sample K}
    (hs : stable s) (hspan : holdS ≤ s.t - t0) :
    Held stable holdS Before (hist ++ [.tick s]) := by
  obtain ⟨before, window, rfl, hbefore, first, block, rfl, rfl, hstable, hblock⟩ := h t0 rfl
  exact ⟨before, .tick first :: block ++ [.tick s], by simp, hbefore, first, block, s, rfl,
    hstable, hblock, hs, hspan⟩

namespace MissionEngine

/-- What a stable or an unstable sample does to a hold. -/
structure HoldTick (stable : Sample K → Prop) (holdS : K) (Before : List (EngineInput K) → Prop)
    (hist : List (EngineInput K)) (e : MissionEngine K) (out : MissionEngine K × Bool) : Prop where
  frame : ∃ timer, out.1 = { e with petalHoldT0 := timer }
  timed : Timed stable Before hist out.1.petalHoldT0
  ended : out.2 = true → out.1.petalHoldT0 = none ∧ Held stable holdS Before hist

theorem petalHold_tick {e : MissionEngine K} (h : Timed stable Before hist e.petalHoldT0)
    (hbefore : Before hist) (s : Sample K) (holdS : K) {now : Bool}
    (hstable : now = true → stable s) :
    HoldTick stable holdS Before (hist ++ [.tick s]) e (e.petalHold s.t holdS now) := by
  unfold petalHold
  split_ifs with hnow
  · have hs := hstable hnow
    cases htimer : e.petalHoldT0 with
    | none =>
      refine ⟨⟨_, rfl⟩, timed_start hbefore hs, ?_⟩
      intro hended
      cases hended
    | some t0 =>
      rw [htimer] at h
      dsimp only
      split_ifs with hspan
      · exact ⟨⟨_, rfl⟩, timed_none, fun _ => ⟨rfl, h.ends hs hspan⟩⟩
      · refine ⟨⟨e.petalHoldT0, rfl⟩, ?_, ?_⟩
        · change Timed stable Before _ e.petalHoldT0
          rw [htimer]
          exact h.extend fun s' hs' => (EngineInput.tick.inj hs') ▸ hs
        · intro hended
          cases hended
  · refine ⟨⟨_, rfl⟩, timed_none, ?_⟩
    intro hended
    cases hended

end MissionEngine

end Holds

/-! ## The site of a rosette -/

/-- What the samples of a rosette are measured against. -/
structure RosetteSite (K : Type*) [Field K] [LinearOrder K] where
  cfg : MissionConfig K
  home : Point2 K

namespace RosetteSite

variable (site : RosetteSite K)

def center : Vec3 K := ⟨site.home.1, site.home.2, -site.cfg.surveyAltM⟩

/-- The outer end of a petal. -/
def outer (headingDeg : K) : Vec3 K where
  north := site.home.1 + site.cfg.rosetteRadiusM * cos (radians headingDeg)
  east := site.home.2 + site.cfg.rosetteRadiusM * sin (radians headingDeg)
  down := -site.cfg.surveyAltM

def Near (pos target : Vec3 K) : Prop :=
  hypot (target.north - pos.north) (target.east - pos.east) ≤ site.cfg.reachTolM ∧
    |target.down - pos.down| ≤ site.cfg.reachTolM

def Slow (vel : Vec3 K) : Prop := hypot vel.north vel.east ≤ site.cfg.landSpeedTolMps

def AtCenter (s : Sample K) : Prop := site.Near s.pos site.center

/-- Stable over the center, with a valid position and ready to survey. -/
def CenterStable (s : Sample K) : Prop :=
  s.horizontalValid ∧ s.surveyReady ∧ site.AtCenter s ∧ site.Slow s.vel

/-- At the outer end of petal `n`. -/
def AtOuter (n : ℕ) (s : Sample K) : Prop :=
  ∃ headingDeg, rosetteHeadingsDeg[n]? = some headingDeg ∧ site.Near s.pos (site.outer headingDeg)

def OuterStable (n : ℕ) (s : Sample K) : Prop := site.AtOuter n s ∧ site.Slow s.vel

end RosetteSite

namespace MissionEngine

theorem reached_iff {e : MissionEngine K} {site : RosetteSite K} (h : e.cfg = site.cfg)
    (pos target : Vec3 K) : e.reached pos target = true ↔ site.Near pos target := by
  unfold reached RosetteSite.Near
  rw [decide_eq_true_iff, h]

theorem stopped_iff {e : MissionEngine K} {site : RosetteSite K} (h : e.cfg = site.cfg)
    (vel : Vec3 K) : e.stopped vel = true ↔ site.Slow vel := by
  unfold stopped RosetteSite.Slow
  rw [decide_eq_true_iff, h]

/-! ## Histories of a petal -/

/-- The run ends in a stage of petal `n`. -/
def InStage (e0 : MissionEngine K) (n : ℕ) (stage : PetalStage) (hist : List (EngineInput K)) :
    Prop :=
  ∃ m, run step e0 hist = some m ∧ m.petalI = n ∧ m.petalStage = stage

/-- The history ends with the hold at the center, begun after `n` petals. -/
def CenterHeld (e0 : MissionEngine K) (site : RosetteSite K) (n : ℕ)
    (hist : List (EngineInput K)) : Prop :=
  Held site.CenterStable site.cfg.rosetteCenterHoldS (InStage e0 n .center) hist

/-- A center hold and the leg since. -/
def Departed (e0 : MissionEngine K) (site : RosetteSite K) (n : ℕ)
    (hist : List (EngineInput K)) : Prop :=
  ∃ before leg, hist = before ++ leg ∧ CenterHeld e0 site n before

/-- After the departure a sample was at the outer end. -/
def Arrived (e0 : MissionEngine K) (site : RosetteSite K) (n : ℕ)
    (hist : List (EngineInput K)) : Prop :=
  ∃ before arrival hover, hist = before ++ .tick arrival :: hover ∧ Departed e0 site n before ∧
    site.AtOuter n arrival

/-- After the arrival the outer hold, and the leg since. -/
def Returning (e0 : MissionEngine K) (site : RosetteSite K) (n : ℕ)
    (hist : List (EngineInput K)) : Prop :=
  ∃ before leg, hist = before ++ leg ∧
    Held (site.OuterStable n) site.cfg.rosetteOuterHoldS (Arrived e0 site n) before

/-- The whole petal: departure, arrival, outer hold and, last, a sample at the center. -/
def PetalFlown (e0 : MissionEngine K) (site : RosetteSite K) (n : ℕ)
    (hist : List (EngineInput K)) : Prop :=
  ∃ before last, hist = before ++ [.tick last] ∧ Returning e0 site n before ∧ site.AtCenter last

section Histories
variable {e0 : MissionEngine K} {site : RosetteSite K} {n : ℕ} {hist : List (EngineInput K)}

theorem Departed.extend (h : Departed e0 site n hist) (x : EngineInput K) :
    Departed e0 site n (hist ++ [x]) := by
  obtain ⟨before, leg, rfl, hheld⟩ := h
  exact ⟨before, leg ++ [x], by simp, hheld⟩

theorem Arrived.extend (h : Arrived e0 site n hist) (x : EngineInput K) :
    Arrived e0 site n (hist ++ [x]) := by
  obtain ⟨before, arrival, hover, rfl, hdeparted, hat⟩ := h
  exact ⟨before, arrival, hover ++ [x], by simp, hdeparted, hat⟩

theorem Returning.extend (h : Returning e0 site n hist) (x : EngineInput K) :
    Returning e0 site n (hist ++ [x]) := by
  obtain ⟨before, leg, rfl, hheld⟩ := h
  exact ⟨before, leg ++ [x], by simp, hheld⟩

/-- What the stage and the timer of an engine say about the history. -/
def Disciplined (e0 : MissionEngine K) (site : RosetteSite K) (hist : List (EngineInput K))
    (e : MissionEngine K) : Prop :=
  match e.petalStage with
  | .center => Timed site.CenterStable (InStage e0 e.petalI .center) hist e.petalHoldT0
  | .outbound => Departed e0 site e.petalI hist
  | .outerHold => Arrived e0 site e.petalI hist ∧
      Timed (site.OuterStable e.petalI) (Arrived e0 site e.petalI) hist e.petalHoldT0
  | .inbound => Returning e0 site e.petalI hist

/-- What a step may do to the petals, given the history with the step. -/
structure PetalStep (e0 : MissionEngine K) (site : RosetteSite K) (hist : List (EngineInput K))
    (e e' : MissionEngine K) : Prop where
  rise : e'.petalI ≠ e.petalI → e'.petalI = e.petalI + 1 ∧ PetalFlown e0 site e.petalI hist
  depart : e.petalStage ≠ .outbound → e'.petalStage = .outbound →
    e.petalStage = .center ∧ CenterHeld e0 site e.petalI hist
  dump : e.phase ≠ .dump → e'.phase = .dump →
    e'.petalI = e.petalI ∧ e.petalStage = .center ∧ e.cfg.rosettePetals ≤ e.petalI ∧
      CenterHeld e0 site e.petalI hist

/-- A survey tick with what it leaves behind. -/
structure RosetteTick (e0 : MissionEngine K) (site : RosetteSite K) (hist : List (EngineInput K))
    (e e' : MissionEngine K) : Prop extends PetalStep e0 site hist e e' where
  frame : ∃ i stage timer phase, e' =
    { e with petalI := i, petalStage := stage, petalHoldT0 := timer, phase := phase } ∧
      (phase = e.phase ∨ phase = .dump)
  bounded : (e.petalI : ℤ) ≤ e.cfg.rosettePetals →
    (e.petalStage ≠ .center → (e.petalI : ℤ) < e.cfg.rosettePetals) →
      (e'.petalI : ℤ) ≤ e.cfg.rosettePetals ∧
        (e'.petalStage ≠ .center → (e'.petalI : ℤ) < e.cfg.rosettePetals)
  disciplined : Disciplined e0 site hist e'

theorem petalCenter_rosetteTick {e : MissionEngine K} (hcfg : e.cfg = site.cfg)
    (hstage : e.petalStage = .center) (hin : InStage e0 e.petalI .center hist)
    (h : Disciplined e0 site hist e) {center : Vec3 K}
    (hcenter : center = site.center) (s : Sample K) :
    RosetteTick e0 site (hist ++ [.tick s]) e (e.petalCenter center s).1 := by
  unfold Disciplined at h
  rw [hstage] at h
  have hstable : (s.horizontalValid && s.surveyReady && e.reached s.pos center &&
      e.stopped s.vel) = true → site.CenterStable s := by
    intro hnow
    simp only [Bool.and_eq_true] at hnow
    obtain ⟨⟨⟨hvalid, hready⟩, hreached⟩, hstopped⟩ := hnow
    rw [hcenter, reached_iff hcfg] at hreached
    exact ⟨hvalid, hready, hreached, (stopped_iff hcfg _).mp hstopped⟩
  have hheld := petalHold_tick h hin s e.cfg.rosetteCenterHoldS hstable
  unfold petalCenter
  dsimp only
  generalize e.petalHold s.t e.cfg.rosetteCenterHoldS _ = out at hheld ⊢
  obtain ⟨held, ended⟩ := out
  obtain ⟨⟨timer, hframe⟩, htimed, hended⟩ := hheld
  obtain rfl : held = { e with petalHoldT0 := timer } := hframe
  cases ended with
  | false =>
    refine ⟨⟨?_, ?_, ?_⟩, ⟨_, _, _, _, rfl, Or.inl rfl⟩, fun hcount hleg => ⟨hcount, hleg⟩, ?_⟩
    · exact fun hne => absurd rfl hne
    · intro _ hout
      rw [hstage] at hout
      cases hout
    · intro hne hdump
      exact absurd hdump hne
    · unfold Disciplined
      rw [hstage]
      exact htimed
  | true =>
    obtain ⟨-, hheld⟩ := hended rfl
    rw [hcfg] at hheld
    dsimp only
    split_ifs with hpetals
    · refine ⟨⟨?_, ?_, ?_⟩, ⟨_, _, _, _, rfl, Or.inr rfl⟩, fun hcount hleg => ⟨hcount, hleg⟩, ?_⟩
      · exact fun hne => absurd rfl hne
      · intro _ hout
        rw [hstage] at hout
        cases hout
      · intro _ _
        exact ⟨rfl, hstage, hpetals, hheld⟩
      · unfold Disciplined
        rw [hstage]
        exact htimed
    · refine ⟨⟨?_, ?_, ?_⟩, ⟨_, _, _, _, rfl, Or.inl rfl⟩,
        fun hcount _ => ⟨hcount, fun _ => lt_of_not_ge hpetals⟩, ?_⟩
      · exact fun hne => absurd rfl hne
      · intro _ _
        exact ⟨hstage, hheld⟩
      · intro hne hdump
        exact absurd hdump hne
      · have hdeparted : Departed e0 site e.petalI (hist ++ [.tick s]) :=
          ⟨_, [], (List.append_nil _).symm, hheld⟩
        exact hdeparted

/-- A tick that changes neither the petal nor the phase. -/
theorem PetalStep.of_same {e e' : MissionEngine K} (hpetal : e'.petalI = e.petalI)
    (hstage : e'.petalStage ≠ .outbound ∨ e'.petalStage = e.petalStage)
    (hphase : e'.phase = .dump → e.phase = .dump) : PetalStep e0 site hist e e' := by
  refine ⟨fun hne => absurd hpetal hne, ?_, fun hne hdump => absurd (hphase hdump) hne⟩
  intro hne hout
  rcases hstage with hstage | hstage
  · exact absurd hout hstage
  · exact absurd (hstage ▸ hout) hne

theorem petalLeg_rosetteTick {e : MissionEngine K} (hcfg : e.cfg = site.cfg)
    (hstage : e.petalStage ≠ .center) (h : Disciplined e0 site hist e) {headingDeg : K}
    (hheading : rosetteHeadingsDeg[e.petalI]? = some headingDeg) {center outer : Vec3 K}
    (hcenter : center = site.center) (houter : outer = site.outer headingDeg) (s : Sample K) :
    RosetteTick e0 site (hist ++ [.tick s]) e (e.petalLeg center outer s).1 := by
  have hat : e.reached s.pos outer = true → site.AtOuter e.petalI s := by
    intro hreached
    rw [houter, reached_iff hcfg] at hreached
    exact ⟨headingDeg, hheading, hreached⟩
  unfold Disciplined at h
  unfold petalLeg
  cases he : e.petalStage with
  | center => exact absurd he hstage
  | outbound =>
    rw [he] at h
    dsimp only at h ⊢
    split_ifs with hreached
    · refine ⟨PetalStep.of_same rfl (Or.inl PetalStage.noConfusion) id,
        ⟨_, _, _, _, rfl, Or.inl rfl⟩, fun hcount hleg => ⟨hcount, fun _ => hleg hstage⟩, ?_, ?_⟩
      · exact ⟨hist, s, [], rfl, h, hat hreached⟩
      · exact timed_none
    · refine ⟨PetalStep.of_same rfl (Or.inr rfl) id, ⟨_, _, _, _, rfl, Or.inl rfl⟩,
        fun hcount hleg => ⟨hcount, hleg⟩, ?_⟩
      unfold Disciplined
      rw [he]
      exact h.extend _
  | outerHold =>
    rw [he] at h
    obtain ⟨harrived, htimed⟩ := h
    have hstable : (e.reached s.pos outer && e.stopped s.vel) = true →
        site.OuterStable e.petalI s := by
      intro hnow
      rw [Bool.and_eq_true] at hnow
      exact ⟨hat hnow.1, (stopped_iff hcfg _).mp hnow.2⟩
    have hheld := petalHold_tick htimed harrived s e.cfg.rosetteOuterHoldS hstable
    dsimp only
    generalize e.petalHold s.t e.cfg.rosetteOuterHoldS _ = out at hheld ⊢
    obtain ⟨held, ended⟩ := out
    obtain ⟨⟨timer, hframe⟩, htimed, hended⟩ := hheld
    obtain rfl : held = { e with petalHoldT0 := timer } := hframe
    cases ended with
    | false =>
      refine ⟨PetalStep.of_same rfl (Or.inr rfl) id, ⟨_, _, _, _, rfl, Or.inl rfl⟩,
        fun hcount hleg => ⟨hcount, hleg⟩, ?_⟩
      unfold Disciplined
      rw [he]
      exact ⟨harrived.extend _, htimed⟩
    | true =>
      obtain ⟨-, hheld⟩ := hended rfl
      rw [hcfg] at hheld
      refine ⟨PetalStep.of_same rfl (Or.inl PetalStage.noConfusion) id,
        ⟨_, _, _, _, rfl, Or.inl rfl⟩, fun hcount hleg => ⟨hcount, fun _ => hleg hstage⟩, ?_⟩
      exact ⟨hist ++ [.tick s], [], by simp, hheld⟩
  | inbound =>
    rw [he] at h
    dsimp only at h ⊢
    split_ifs with hreached
    · rw [hcenter, reached_iff hcfg] at hreached
      refine ⟨⟨?_, ?_, ?_⟩, ⟨_, _, _, _, rfl, Or.inl rfl⟩, ?_, timed_none⟩
      · exact fun _ => ⟨rfl, hist, s, rfl, h, hreached⟩
      · intro _ hout
        cases hout
      · exact fun hne hdump => absurd hdump hne
      · intro _ hleg
        have hlt := hleg hstage
        refine ⟨?_, fun hne => absurd rfl hne⟩
        push_cast
        omega
    · refine ⟨PetalStep.of_same rfl (Or.inr rfl) id, ⟨_, _, _, _, rfl, Or.inl rfl⟩,
        fun hcount hleg => ⟨hcount, hleg⟩, ?_⟩
      unfold Disciplined
      rw [he]
      exact h.extend _

theorem tickRosette_rosetteTick {e e' : MissionEngine K} (hcfg : e.cfg = site.cfg)
    (hhome : e.homeNe = some site.home) (hin : InStage e0 e.petalI e.petalStage hist)
    (h : Disciplined e0 site hist e) {s : Sample K} {sp : Option (Setpoint K)}
    (hout : e.tickRosette s = .ok (e', sp)) :
    RosetteTick e0 site (hist ++ [.tick s]) e e' := by
  unfold tickRosette at hout
  have hhomed : e.home = .ok site.home := by
    unfold home
    rw [hhome]
  have hcenter : e.atSurveyAltitude site.home = site.center := by
    unfold atSurveyAltitude altTarget RosetteSite.center
    rw [hcfg]
  simp only [hhomed, bind, Except.bind] at hout
  split_ifs at hout with hstage
  · rw [hstage] at hin
    exact fst_of_ok hout ▸ petalCenter_rosetteTick hcfg hstage hin h hcenter s
  · split at hout
    · cases hout
    · rename_i headingDeg hheading
      have houter : e.petalOuter (e.atSurveyAltitude site.home) headingDeg =
          site.outer headingDeg := by
        unfold petalOuter RosetteSite.outer
        rw [hcenter, hcfg]
        rfl
      exact fst_of_ok hout ▸ petalLeg_rosetteTick hcfg hstage h hheading hcenter houter s

end Histories

end MissionEngine

end Mission10.Engine
