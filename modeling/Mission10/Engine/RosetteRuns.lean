import Mission10.Engine.RosetteHolds

/-!
# Runs of a rosette

The invariant of a rosette carries the phase, the count of petals and what the stage
says about the history. One lemma for each kind of step keeps it, and the order of the
stages, the holds and the way into the dump are read off it.
-/
namespace Mission10.Engine

open MathOps Runs

set_option linter.unusedSectionVars false

variable {K : Type*} [Field K] [LinearOrder K] [MathOps K]

namespace MissionEngine

/-! ## States of a rosette -/

/-- The phases before the survey. -/
def early (e : MissionEngine K) : Prop :=
  e.phase = .preflight ∨ e.phase = .offboardSync ∨ e.phase = .takeoff

/-- What holds of every state of a rosette, whatever led to it. -/
structure Rosette (cfg : MissionConfig K) (e : MissionEngine K) : Prop where
  cfg_eq : e.cfg = cfg
  phase : e.phase ≠ .verifyDip ∧ e.phase ≠ .egress
  synced : e.syncT0 ≠ none → e.homeNe ≠ none
  home : e.phase = .takeoff ∨ e.phase = .lane → e.homeNe ≠ none
  fresh : e.early → e.petalI = 0 ∧ e.petalStage = .center ∧ e.petalHoldT0 = none
  count : (e.petalI : ℤ) ≤ cfg.rosettePetals
  leg : e.petalStage ≠ .center → (e.petalI : ℤ) < cfg.rosettePetals

variable {cfg : MissionConfig K}

theorem Rosette.guarded {e e' : MissionEngine K} (h : Rosette cfg e) (hframe : GuardFrame e e')
    (hphase : e'.phase = e.phase ∨ e'.phase = .abort) : Rosette cfg e' := by
  obtain ⟨phase, reason, engaged, rfl⟩ := hframe
  change phase = e.phase ∨ phase = .abort at hphase
  rcases hphase with rfl | rfl
  · exact ⟨h.cfg_eq, h.phase, h.synced, h.home, h.fresh, h.count, h.leg⟩
  · refine ⟨h.cfg_eq, ⟨Phase.noConfusion, Phase.noConfusion⟩, h.synced, ?_, ?_, h.count, h.leg⟩
    · rintro (hp | hp) <;> cases hp
    · rintro (hp | hp | hp) <;> cases hp

theorem Rosette.homeward {e e' : MissionEngine K} (h : Rosette cfg e) (hhome : e.phase.homeward)
    (hstep : Homeward e e') : Rosette cfg e' := by
  have hhome' := hstep.homeward hhome
  have hfree := hstep.ne_egress h.phase.2
  have hnot (p : Phase) (hp : p.homeward = false) : e'.phase ≠ p := by
    intro heq
    rw [heq, hp] at hhome'
    cases hhome'
  obtain ⟨phase, t0, next, requires, rfl⟩ := hstep.frame
  refine ⟨h.cfg_eq, ⟨hnot .verifyDip rfl, hfree⟩, h.synced, ?_, ?_, h.count, h.leg⟩
  · rintro (hp | hp)
    · exact absurd hp (hnot .takeoff rfl)
    · exact absurd hp (hnot .lane rfl)
  · rintro (hp | hp | hp)
    · exact absurd hp (hnot .preflight rfl)
    · exact absurd hp (hnot .offboardSync rfl)
    · exact absurd hp (hnot .takeoff rfl)

theorem Rosette.rosetteTick {e0 e e' : MissionEngine K} {site : RosetteSite K}
    {hist : List (EngineInput K)} (h : Rosette cfg e) (hphase : e.phase = .lane)
    (htick : RosetteTick e0 site hist e e') : Rosette cfg e' := by
  have hbounded := htick.bounded
  rw [h.cfg_eq] at hbounded
  obtain ⟨hcount, hleg⟩ := hbounded h.count h.leg
  obtain ⟨i, stage, timer, phase, rfl, hmoved⟩ := htick.frame
  have hlate : phase = .lane ∨ phase = .dump := hphase ▸ hmoved
  refine ⟨h.cfg_eq, ?_, h.synced, fun _ => h.home (Or.inr hphase), ?_, hcount, hleg⟩
  · rcases hlate with rfl | rfl <;> exact ⟨Phase.noConfusion, Phase.noConfusion⟩
  · rintro (hp | hp | hp) <;> rcases hlate with rfl | rfl <;> cases hp

/-! ## Steps of a rosette -/

/-- The petals and the way into the dump are left alone. -/
def PetalsKept (e e' : MissionEngine K) : Prop :=
  e'.petalI = e.petalI ∧ e'.petalStage = e.petalStage ∧ (e'.phase = .dump → e.phase = .dump)

/-- What a step leaves behind, given the history with it. -/
structure RosettePass (cfg : MissionConfig K) (e0 : MissionEngine K) (hist : List (EngineInput K))
    (e e' : MissionEngine K) : Prop where
  state : Rosette cfg e'
  moves : PetalsKept e e' ∨
    ∃ home, e'.homeNe = some home ∧ PetalStep e0 ⟨cfg, home⟩ hist e e'
  disciplined : e'.phase = .lane → ∀ home, e'.homeNe = some home →
    Disciplined e0 ⟨cfg, home⟩ hist e'

/-- The invariant of a run. -/
structure RosetteRun (cfg : MissionConfig K) (e0 : MissionEngine K) (hist : List (EngineInput K))
    (e : MissionEngine K) : Prop where
  reached : run step e0 hist = some e
  state : Rosette cfg e
  disciplined : e.phase = .lane → ∀ home, e.homeNe = some home →
    Disciplined e0 ⟨cfg, home⟩ hist e

section Steps
variable {e0 e e' : MissionEngine K} {hist : List (EngineInput K)}

theorem Disciplined.extend {site : RosetteSite K} (h : Disciplined e0 site hist e)
    {x : EngineInput K} (hx : ∀ s, x ≠ .tick s) : Disciplined e0 site (hist ++ [x]) e := by
  unfold Disciplined at h ⊢
  cases hstage : e.petalStage with
  | center =>
    rw [hstage] at h
    exact h.extend fun s hs => absurd hs (hx s)
  | outbound =>
    rw [hstage] at h
    exact h.extend x
  | outerHold =>
    rw [hstage] at h
    exact ⟨h.1.extend x, h.2.extend fun s hs => absurd hs (hx s)⟩
  | inbound =>
    rw [hstage] at h
    exact h.extend x

theorem RosetteRun.input (h : RosetteRun cfg e0 hist e) {x : EngineInput K}
    (hx : ∀ s, x ≠ .tick s) (hstep : e.step x = some e') :
    RosettePass cfg e0 (hist ++ [x]) e e' := by
  obtain ⟨phase, _, _, _, _, _, _, _, _, rfl, hphase⟩ := step_input hx hstep
  obtain ⟨-, hstate, hdisciplined⟩ := h
  rcases hphase with rfl | rfl | ⟨hpreflight, rfl⟩
  · refine ⟨⟨hstate.cfg_eq, hstate.phase, hstate.synced, hstate.home, hstate.fresh, hstate.count,
      hstate.leg⟩, Or.inl ⟨rfl, rfl, id⟩, ?_⟩
    intro hlane home hhome
    have hold := hdisciplined hlane home hhome
    exact hold.extend hx
  · refine ⟨⟨hstate.cfg_eq, ⟨Phase.noConfusion, Phase.noConfusion⟩, hstate.synced, ?_, ?_,
      hstate.count, hstate.leg⟩, Or.inl ⟨rfl, rfl, Phase.noConfusion⟩, Phase.noConfusion⟩
    · rintro (hp | hp) <;> cases hp
    · rintro (hp | hp | hp) <;> cases hp
  · refine ⟨⟨hstate.cfg_eq, ⟨Phase.noConfusion, Phase.noConfusion⟩, hstate.synced, ?_,
      fun _ => hstate.fresh (Or.inl hpreflight), hstate.count, hstate.leg⟩,
      Or.inl ⟨rfl, rfl, Phase.noConfusion⟩, Phase.noConfusion⟩
    rintro (hp | hp) <;> cases hp

theorem survey_pass {g : MissionEngine K} (hg : Rosette cfg g) (hphase : g.phase = .lane)
    (hpattern : cfg.pattern = .centerReturnRosette) {home : Point2 K} (hhome : g.homeNe = some home)
    (hin : InStage e0 g.petalI g.petalStage hist) (h : Disciplined e0 ⟨cfg, home⟩ hist g)
    {s : Sample K} {sp : Option (Setpoint K)} (hout : g.tickSurvey s = .ok (e', sp)) :
    RosettePass cfg e0 (hist ++ [.tick s]) g e' := by
  unfold tickSurvey at hout
  rw [hg.cfg_eq, hpattern] at hout
  have htick : RosetteTick e0 ⟨cfg, home⟩ (hist ++ [.tick s]) g e' :=
    tickRosette_rosetteTick hg.cfg_eq hhome hin h hout
  refine ⟨hg.rosetteTick hphase htick, Or.inr ⟨home, ?_, htick.toPetalStep⟩, ?_⟩
  · obtain ⟨i, stage, timer, phase, rfl, -⟩ := htick.frame
    exact hhome
  · intro _ home' hhome'
    have hsame : home' = home := by
      obtain ⟨i, stage, timer, phase, rfl, -⟩ := htick.frame
      exact Option.some.inj (hhome'.symm.trans hhome)
    rw [hsame]
    exact htick.disciplined

theorem tickPhase_pass {g : MissionEngine K} (hg : Rosette cfg g)
    (hpattern : cfg.pattern = .centerReturnRosette)
    (hnext : g.phase = .settle → g.settleNextPhase = .land)
    (hin : InStage e0 g.petalI g.petalStage hist)
    (h : g.phase = .lane → ∀ home, g.homeNe = some home → Disciplined e0 ⟨cfg, home⟩ hist g)
    {s : Sample K} {sp : Option (Setpoint K)} (hout : g.tickPhase s = .ok (e', sp)) :
    RosettePass cfg e0 (hist ++ [.tick s]) g e' := by
  by_cases hhome : g.phase.homeward
  · have hstep := tickPhase_homeward hhome hnext hout
    have hstate := hg.homeward hhome hstep
    have hlate := hstep.homeward hhome
    have hdump : e'.phase = .dump → g.phase = .dump := by
      intro hdump
      rcases hstep.phase with hsame | ⟨hegress, -⟩ | hsettle | hland | hdone
      · exact hsame ▸ hdump
      · exact absurd hegress hg.phase.2
      · simp [hsettle] at hdump
      · simp [hland] at hdump
      · simp [hdone] at hdump
    refine ⟨hstate, Or.inl ?_, ?_⟩
    · obtain ⟨phase, t0, next, requires, rfl⟩ := hstep.frame
      exact ⟨rfl, rfl, hdump⟩
    · intro hlane
      rw [hlane] at hlate
      cases hlate
  · unfold tickPhase at hout
    split at hout
    case h_1 hphase =>
      rw [← fst_of_ok hout]
      refine ⟨hg, Or.inl ⟨rfl, rfl, id⟩, fun hlane => ?_⟩
      rw [hphase] at hlane
      cases hlane
    case h_2 hphase =>
      obtain ⟨t0, home, phase, takeoff, rfl, hmoved, hhomed⟩ := tickSync_frame hout
      have hfresh := hg.fresh (Or.inr (Or.inl hphase))
      have hearly : phase = .offboardSync ∨ phase = .takeoff := hphase ▸ hmoved
      refine ⟨⟨hg.cfg_eq, ?_, fun _ => hhomed, fun _ => hhomed, fun _ => hfresh, hg.count, hg.leg⟩,
        Or.inl ⟨rfl, rfl, ?_⟩, ?_⟩
      · rcases hearly with rfl | rfl <;> exact ⟨Phase.noConfusion, Phase.noConfusion⟩
      · rcases hearly with rfl | rfl <;> exact Phase.noConfusion
      · rcases hearly with rfl | rfl <;> exact Phase.noConfusion
    case h_3 hphase =>
      have hfresh := hg.fresh (Or.inr (Or.inr hphase))
      obtain ⟨home, hhomed⟩ := Option.ne_none_iff_exists'.mp (hg.home (Or.inl hphase))
      unfold tickTakeoff at hout
      simp only [bind, Except.bind] at hout
      split at hout
      · cases hout
      · split_ifs at hout
        · have hlane : Rosette cfg { g with phase := .lane } := by
            refine ⟨hg.cfg_eq, ⟨Phase.noConfusion, Phase.noConfusion⟩, hg.synced,
              fun _ => hg.home (Or.inl hphase), fun _ => hfresh, hg.count, hg.leg⟩
          have hbegun : Disciplined e0 ⟨cfg, home⟩ hist { g with phase := .lane } := by
            unfold Disciplined
            dsimp only
            rw [hfresh.2.1, hfresh.2.2]
            exact timed_none
          have hpass := survey_pass hlane rfl hpattern hhomed hin hbegun hout
          refine ⟨hpass.state, ?_, hpass.disciplined⟩
          rcases hpass.moves with ⟨hi, hs, hdump⟩ | ⟨home', hhome', hstep⟩
          · exact Or.inl ⟨hi, hs, fun hd => absurd (hdump hd) Phase.noConfusion⟩
          · exact Or.inr ⟨home', hhome', hstep.rise, hstep.depart,
              fun _ => hstep.dump Phase.noConfusion⟩
        · rw [← fst_of_ok hout]
          refine ⟨hg, Or.inl ⟨rfl, rfl, id⟩, fun hlane => ?_⟩
          rw [hphase] at hlane
          cases hlane
    case h_4 hphase =>
      obtain ⟨home, hhomed⟩ := Option.ne_none_iff_exists'.mp (hg.home (Or.inr hphase))
      exact survey_pass hg hphase hpattern hhomed hin (h hphase home hhomed) hout
    case h_5 hphase => exact absurd hphase hg.phase.1
    all_goals
      rename_i hphase
      rw [hphase] at hhome
      exact absurd rfl hhome

theorem RosetteRun.tickOnce (h : RosetteRun cfg e0 hist e)
    (hpattern : cfg.pattern = .centerReturnRosette)
    (hnext : e.phase = .settle → e.settleNextPhase = .land) {s : Sample K}
    {sp : Option (Setpoint K)} (hout : e.tickOnce s = .ok (e', sp)) :
    RosettePass cfg e0 (hist ++ [.tick s]) e e' := by
  have hphase := checkAborts_phase e s.t s.pos
  have hguarded := h.state.guarded (checkAborts_frame e s.t s.pos) hphase
  have hframe := checkAborts_frame e s.t s.pos
  unfold MissionEngine.tickOnce at hout
  generalize e.checkAborts s.t s.pos = g at *
  have hpass : RosettePass cfg e0 (hist ++ [.tick s]) g e' := by
    refine tickPhase_pass hguarded hpattern ?_ ?_ ?_ hout
    · intro hsettle
      rcases hphase with hsame | habort
      · have hland := hnext (hsame.symm.trans hsettle)
        obtain ⟨phase, reason, engaged, rfl⟩ := hframe
        exact hland
      · simp [habort] at hsettle
    · obtain ⟨phase, reason, engaged, rfl⟩ := hframe
      exact ⟨e, h.reached, rfl, rfl⟩
    · intro hlane home hhome
      rcases hphase with hsame | habort
      · have hold := h.disciplined (hsame.symm.trans hlane) home
        obtain ⟨phase, reason, engaged, rfl⟩ := hframe
        exact hold hhome
      · simp [habort] at hlane
  have hdump : g.phase = .dump → e.phase = .dump := by
    intro hdump
    rcases hphase with hsame | habort
    · exact hsame ▸ hdump
    · simp [habort] at hdump
  refine ⟨hpass.state, ?_, hpass.disciplined⟩
  have hmoves := hpass.moves
  obtain ⟨phase, reason, engaged, rfl⟩ := hframe
  rcases hmoves with ⟨hi, hs, hkept⟩ | ⟨home, hhome, hstep⟩
  · exact Or.inl ⟨hi, hs, fun hd => hdump (hkept hd)⟩
  · refine Or.inr ⟨home, hhome, hstep.rise, hstep.depart, fun hne => hstep.dump ?_⟩
    exact fun hd => hne (hdump hd)

/-- The second pass of a tick that aborts leaves the petals alone. -/
theorem RosettePass.aborted {e1 : MissionEngine K} (h : RosettePass cfg e0 hist e e1)
    (habort : e1.phase = .abort) {s : Sample K} {sp : Option (Setpoint K)}
    (hout : e1.tickOnce s = .ok (e', sp)) : RosettePass cfg e0 hist e e' := by
  have hexempt : e1.checkAborts s.t s.pos = e1 :=
    checkAborts_exempt e1 s.t s.pos (by rw [habort]; rfl)
  unfold MissionEngine.tickOnce at hout
  rw [hexempt] at hout
  have hhome : e1.phase.homeward := by
    rw [habort]
    rfl
  have hsettle : e1.phase = .settle → e1.settleNextPhase = .land := by
    intro hsettle
    simp [habort] at hsettle
  have hstep := tickPhase_homeward hhome hsettle hout
  have hlate := hstep.homeward hhome
  have hdump : e'.phase ≠ .dump := by
    rcases hstep.phase with hsame | ⟨hegress, -⟩ | hsettle | hland | hdone
    · simp [hsame, habort]
    · simp [habort] at hegress
    · simp [hsettle]
    · simp [hland]
    · simp [hdone]
  refine ⟨h.state.homeward hhome hstep, ?_, ?_⟩
  · have hmoves := h.moves
    obtain ⟨phase, t0, next, requires, rfl⟩ := hstep.frame
    rcases hmoves with ⟨hi, hs, -⟩ | ⟨home, hhomed, hpetal⟩
    · exact Or.inl ⟨hi, hs, fun hd => absurd hd hdump⟩
    · exact Or.inr ⟨home, hhomed, hpetal.rise, hpetal.depart, fun _ hd => absurd hd hdump⟩
  · intro hlane
    rw [hlane] at hlate
    cases hlate

theorem RosettePass.guarded {e1 : MissionEngine K} (h : RosettePass cfg e0 hist e e1)
    (hframe : GuardFrame e1 e') (habort : e'.phase = .abort) :
    RosettePass cfg e0 hist e e' := by
  have hdump : e'.phase ≠ .dump := by simp [habort]
  refine ⟨h.state.guarded hframe (Or.inr habort), ?_, ?_⟩
  · have hmoves := h.moves
    obtain ⟨phase, reason, engaged, rfl⟩ := hframe
    rcases hmoves with ⟨hi, hs, -⟩ | ⟨home, hhomed, hpetal⟩
    · exact Or.inl ⟨hi, hs, fun hd => absurd hd hdump⟩
    · exact Or.inr ⟨home, hhomed, hpetal.rise, hpetal.depart, fun _ hd => absurd hd hdump⟩
  · intro hlane
    simp [habort] at hlane

theorem RosetteRun.pass (h : RosetteRun cfg e0 hist e)
    (hpattern : cfg.pattern = .centerReturnRosette)
    (hnext : e.phase = .settle → e.settleNextPhase = .land) {x : EngineInput K}
    (hstep : e.step x = some e') : RosettePass cfg e0 (hist ++ [x]) e e' := by
  by_cases htick : ∃ s, x = .tick s
  · obtain ⟨s, rfl⟩ := htick
    obtain ⟨sp, hout⟩ := step_tick hstep
    rcases tick_passes hout with honce | ⟨e1, sp1, violation, honce, hflying, hagain⟩
    · exact h.tickOnce hpattern hnext honce
    · have hnot : ¬ (e1.phase = .abort ∨ e1.phase = .done) := by
        rintro (hp | hp) <;> simp [hp] at hflying
      have habort : (e1.abortWith (.command violation)).phase = .abort :=
        congrArg Control.phase (abortWith_control e1 _ hnot)
      have hfirst := h.tickOnce hpattern hnext honce
      exact (hfirst.guarded (abortWith_frame e1 _) habort).aborted habort hagain
  · exact h.input (fun s hs => htick ⟨s, hs⟩) hstep

theorem RosetteRun.step (h : RosetteRun cfg e0 hist e)
    (hpattern : cfg.pattern = .centerReturnRosette)
    (hnext : e.phase = .settle → e.settleNextPhase = .land) {x : EngineInput K}
    (hstep : e.step x = some e') : RosetteRun cfg e0 (hist ++ [x]) e' := by
  have hpass := h.pass hpattern hnext hstep
  refine ⟨?_, hpass.state, hpass.disciplined⟩
  rw [run_append, h.reached]
  change (e.step x).bind _ = _
  rw [hstep]
  rfl

end Steps

/-! ## Runs of a rosette -/

theorem heading_mem (cfg : MissionConfig K) {n : ℕ} (h : (n : ℤ) < cfg.rosettePetals) :
    n < (rosetteHeadingsDeg (K := K)).length := by
  have hpetals := cfg.rosettePetals_mem.2
  have hlength : (rosetteHeadingsDeg (K := K)).length = 8 := rfl
  omega

theorem tickSurvey_total {e : MissionEngine K} (h : Rosette cfg e)
    (hpattern : cfg.pattern = .centerReturnRosette) (hhome : e.homeNe ≠ none) (s : Sample K) :
    ∃ out, e.tickSurvey s = .ok out := by
  obtain ⟨place, hplace⟩ := Option.ne_none_iff_exists'.mp hhome
  have hhomed : e.home = .ok place := by
    unfold home
    rw [hplace]
  unfold tickSurvey tickRosette
  rw [h.cfg_eq, hpattern]
  simp only [hhomed, bind, Except.bind, pure, Except.pure]
  split_ifs with hstage
  · exact ⟨_, rfl⟩
  · have hlt := heading_mem cfg (h.leg hstage)
    rw [List.getElem?_eq_getElem hlt]
    exact ⟨_, rfl⟩

theorem tickPhase_total {e : MissionEngine K} (h : Rosette cfg e)
    (hpattern : cfg.pattern = .centerReturnRosette) (s : Sample K) :
    ∃ out, e.tickPhase s = .ok out := by
  unfold tickPhase
  split
  case h_2 =>
    have hhome : ((e.freezeHome s).finishSync s.t).homeNe ≠ none := by
      have hfrozen : (e.freezeHome s).homeNe ≠ none := by
        unfold freezeHome
        split
        · exact Option.some_ne_none _
        · rename_i t0 ht0
          exact h.synced (by simp [ht0])
      unfold finishSync
      split_ifs <;> exact hfrozen
    obtain ⟨place, hplace⟩ := Option.ne_none_iff_exists'.mp hhome
    have hhomed : ((e.freezeHome s).finishSync s.t).home = .ok place := by
      unfold home
      rw [hplace]
    unfold tickSync
    simp only [hhomed, bind, Except.bind, pure, Except.pure]
    exact ⟨_, rfl⟩
  case h_3 hphase =>
    have hhome := h.home (Or.inl hphase)
    have hfresh := h.fresh (Or.inr (Or.inr hphase))
    obtain ⟨place, hplace⟩ := Option.ne_none_iff_exists'.mp hhome
    have hhomed : e.home = .ok place := by
      unfold home
      rw [hplace]
    unfold tickTakeoff
    simp only [hhomed, bind, Except.bind, pure, Except.pure]
    split_ifs
    · have hlane : Rosette cfg { e with phase := .lane } := ⟨h.cfg_eq,
        ⟨Phase.noConfusion, Phase.noConfusion⟩, h.synced, fun _ => hhome, fun _ => hfresh,
        h.count, h.leg⟩
      exact tickSurvey_total hlane hpattern hhome s
    · exact ⟨_, rfl⟩
  case h_4 hphase => exact tickSurvey_total h hpattern (h.home (Or.inr hphase)) s
  case h_5 hphase => exact absurd hphase h.phase.1
  all_goals exact ⟨_, rfl⟩

/-- A rosette raises at no tick. -/
theorem RosetteRun.tick_total {e0 e : MissionEngine K} {hist : List (EngineInput K)}
    (h : RosetteRun cfg e0 hist e) (hpattern : cfg.pattern = .centerReturnRosette)
    (hnext : e.phase = .settle → e.settleNextPhase = .land) (s : Sample K) :
    ∃ out, e.tick s = .ok out := by
  have honce {e : MissionEngine K} (h : Rosette cfg e) : ∃ out, e.tickOnce s = .ok out :=
    tickPhase_total (h.guarded (checkAborts_frame e s.t s.pos) (checkAborts_phase e s.t s.pos))
      hpattern s
  obtain ⟨⟨e1, sp1⟩, hfirst⟩ := honce h.state
  have hpass := h.tickOnce hpattern hnext hfirst
  unfold tick
  simp only [hfirst, bind, Except.bind]
  split
  · rename_i violation hviolation
    have hflying := commandFence_phase hviolation
    have hnot : ¬ (e1.phase = .abort ∨ e1.phase = .done) := by
      rintro (hp | hp) <;> simp [hp] at hflying
    have habort : (e1.abortWith (.command violation)).phase = .abort :=
      congrArg Control.phase (abortWith_control e1 _ hnot)
    exact honce (hpass.state.guarded (abortWith_frame e1 _) (Or.inr habort))
  · exact ⟨_, rfl⟩

theorem new_rosetteRun {yaw : K} {e : MissionEngine K} (h : new cfg yaw = .ok e) :
    RosetteRun cfg e [] e := by
  obtain ⟨fence, lanes, -, -, rfl⟩ := new_ok h
  have hpetals := cfg.rosettePetals_mem.1
  refine ⟨rfl, ⟨rfl, ⟨Phase.noConfusion, Phase.noConfusion⟩, ?_, ?_, fun _ => ⟨rfl, rfl, rfl⟩, ?_,
    fun hne => absurd rfl hne⟩, fun hlane => by cases hlane⟩
  · exact fun hne => absurd rfl hne
  · rintro (hp | hp) <;> cases hp
  · change ((0 : ℕ) : ℤ) ≤ cfg.rosettePetals
    omega

theorem run_rosette {e0 e : MissionEngine K} {yaw : K} {hist : List (EngineInput K)}
    (hnew : new cfg yaw = .ok e0) (hpattern : cfg.pattern = .centerReturnRosette)
    (hrun : run step e0 hist = some e) : RosetteRun cfg e0 hist e := by
  refine (run_history step (fun hist e => RosetteRun cfg e0 hist e ∧ Ordered e.control) ?_
    ⟨new_rosetteRun hnew, new_ordered hnew⟩ hrun).1
  rintro hist e x e' ⟨h, hordered⟩ hstep
  exact ⟨h.step hpattern hordered.settleNext hstep, step_ordered hordered hstep⟩

/-- In every run of a rosette no tick raises and the heading in use is one of the table.
The count of petals rises by one, and only with the return that ends a whole petal; every
departure ends a center hold; the dump is entered, never after an abort, with a center hold
after as many petals as the parameters ask for. -/
theorem rosette_discipline {e0 e : MissionEngine K} {yaw : K} {hist : List (EngineInput K)}
    (hnew : new cfg yaw = .ok e0) (hpattern : cfg.pattern = .centerReturnRosette)
    (hrun : run step e0 hist = some e) :
    e0.petalI = 0 ∧ (∀ s, ∃ out, e.tick s = .ok out) ∧
    (e.petalStage ≠ .center → e.petalI < (rosetteHeadingsDeg (K := K)).length) ∧
    ∀ x e', e.step x = some e' →
      (e'.petalI ≠ e.petalI → e'.petalI = e.petalI + 1 ∧ ∃ home, e'.homeNe = some home ∧
        PetalFlown e0 ⟨cfg, home⟩ e.petalI (hist ++ [x])) ∧
      (e.petalStage ≠ .outbound → e'.petalStage = .outbound → ∃ home, e'.homeNe = some home ∧
        CenterHeld e0 ⟨cfg, home⟩ e.petalI (hist ++ [x])) ∧
      (e.phase ≠ .dump → e'.phase = .dump → e'.abortReason = none ∧
        (e'.petalI : ℤ) = cfg.rosettePetals ∧ ∃ home, e'.homeNe = some home ∧
          CenterHeld e0 ⟨cfg, home⟩ e'.petalI (hist ++ [x])) := by
  have hinv := run_rosette hnew hpattern hrun
  have hordered := run_ordered (new_ordered hnew) hrun
  refine ⟨?_, hinv.tick_total hpattern hordered.settleNext,
    fun hleg => heading_mem cfg (hinv.state.leg hleg), ?_⟩
  · obtain ⟨fence, lanes, -, -, rfl⟩ := new_ok hnew
    rfl
  · intro x e' hstep
    have hpass := hinv.pass hpattern hordered.settleNext hstep
    have hordered' := step_ordered hordered hstep
    rcases hpass.moves with ⟨hi, hs, hdump⟩ | ⟨home, hhome, hpetal⟩
    · refine ⟨fun hne => absurd hi hne, ?_, fun hne hd => absurd (hdump hd) hne⟩
      exact fun hne hout => absurd (hs ▸ hout) hne
    · refine ⟨?_, ?_, ?_⟩
      · intro hne
        obtain ⟨hrise, hflown⟩ := hpetal.rise hne
        exact ⟨hrise, home, hhome, hflown⟩
      · intro hne hout
        exact ⟨home, hhome, (hpetal.depart hne hout).2⟩
      · intro hne hdump
        obtain ⟨hsame, -, hpetals, hheld⟩ := hpetal.dump hne hdump
        rw [hinv.state.cfg_eq] at hpetals
        refine ⟨?_, ?_, home, hhome, hsame ▸ hheld⟩
        · by_contra habort
          have hin := hordered'.inbound habort
          change ¬ e'.phase.outbound at hin
          rw [hdump] at hin
          exact hin rfl
        · have hcount := hinv.state.count
          rw [hsame]
          omega

/-- The default parameters with a rosette of one petal. -/
def onePetalConfig : MissionConfig ℚ where
  pattern := .centerReturnRosette
  rosettePetals := 1
  accepted := by decide +kernel

theorem onePetalConfig_flies : (new onePetalConfig 0).toOption.isSome := by decide +kernel

def onePetalEngine : MissionEngine ℚ := (new onePetalConfig 0).toOption.get onePetalConfig_flies

theorem onePetalEngine_new : new onePetalConfig 0 = .ok onePetalEngine := by
  have hsome : (new onePetalConfig 0).toOption = some onePetalEngine := (Option.some_get _).symm
  cases hnew : new onePetalConfig 0 with
  | error err => simp [hnew, Except.toOption] at hsome
  | ok e =>
    rw [hnew] at hsome
    rw [Option.some.inj hsome]

/-- The petal with its holds, up to the last hold at the center. -/
def onePetalRun : List (EngineInput ℚ) :=
  let still : Vec3 ℚ := ⟨0, 0, 0⟩
  let center : Vec3 ℚ := ⟨0, 0, -6⟩
  let outer : Vec3 ℚ := ⟨3 / 2, 0, -6⟩
  [.start, .tick ⟨0, still, still, true, true⟩, .tick ⟨2, still, still, true, true⟩,
    .tick ⟨4, center, still, true, true⟩, .tick ⟨5, center, still, true, true⟩,
    .tick ⟨6, outer, still, true, true⟩, .tick ⟨7, outer, still, true, true⟩,
    .tick ⟨8, outer, still, true, true⟩, .tick ⟨9, center, still, true, true⟩,
    .tick ⟨10, center, still, true, true⟩]

theorem rosette_discipline_dumped : ∃ (e' : MissionEngine ℚ) (home : Point2 ℚ),
    e'.homeNe = some home ∧
    CenterHeld onePetalEngine ⟨onePetalConfig, home⟩ e'.petalI
      (onePetalRun ++ [.tick ⟨11, ⟨0, 0, -6⟩, ⟨0, 0, 0⟩, true, true⟩]) := by
  let last : EngineInput ℚ := .tick ⟨11, ⟨0, 0, -6⟩, ⟨0, 0, 0⟩, true, true⟩
  have hdump : (run step onePetalEngine (onePetalRun ++ [last])).map (·.phase) = some .dump := by
    decide +kernel
  have hlane : (run step onePetalEngine onePetalRun).map (·.phase) = some .lane := by
    decide +kernel
  obtain ⟨e', hrun', hp'⟩ := Option.map_eq_some_iff.mp hdump
  obtain ⟨e, hrun, hstep⟩ := run_snoc_some step hrun'
  rw [hrun] at hlane
  have hp : e.phase ≠ .dump := by simp [Option.some.inj hlane]
  obtain ⟨-, -, -, hsteps⟩ := rosette_discipline onePetalEngine_new rfl hrun
  obtain ⟨-, -, home, hhome, hheld⟩ := (hsteps last e' hstep).2.2 hp hp'
  exact ⟨e', home, hhome, hheld⟩

end MissionEngine

end Mission10.Engine
