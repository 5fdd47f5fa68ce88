import Mission10.Engine.MissionRuns

/-!
# The status ladder of the mine log

Two writers raise the status of a cluster: the log itself, with every sighting,
and the sequencer, when a verify dip ends. The log only ever raises it. The
sequencer writes its own rung without a look at the one the cluster stands on,
so a tag read during the dip is forgotten by the end of the dip.
-/
namespace Mission10.Engine

set_option linter.unusedSectionVars false

open Runs

variable {K : Type*} [Field K] [LinearOrder K] [MathOps K]

/-- The rungs, from below. -/
def Status.rank : Status → ℕ
  | .candidate => 0
  | .confirmed => 1
  | .dipped => 2
  | .verified => 3

theorem Status.rank_le_verified (status : Status) : status.rank ≤ Status.verified.rank := by
  cases status <;> decide

/-- Every cluster of the first log is in the second, on no lower rung. -/
def MineLog.Climbs (log log' : MineLog K) : Prop :=
  ∀ (i : ℕ) (c : Cluster K), log.clusters[i]? = some c →
    ∃ c', log'.clusters[i]? = some c' ∧ c.status.rank ≤ c'.status.rank

namespace MineLog

theorem Climbs.refl (log : MineLog K) : log.Climbs log :=
  fun _ c hc => ⟨c, hc, le_rfl⟩

theorem Climbs.trans {a b c : MineLog K} (hab : a.Climbs b) (hbc : b.Climbs c) : a.Climbs c := by
  intro i cluster hcluster
  obtain ⟨cluster', hcluster', hle⟩ := hab i cluster hcluster
  obtain ⟨cluster'', hcluster'', hle'⟩ := hbc i cluster' hcluster'
  exact ⟨cluster'', hcluster'', hle.trans hle'⟩

/-- One cluster changes. -/
theorem modify_climbs {log log' : MineLog K} {i : ℕ} {f : Cluster K → Cluster K}
    (h : log'.clusters = log.clusters.modify i f) :
    log.Climbs log' ↔
      ∀ c, log.clusters[i]? = some c → c.status.rank ≤ (f c).status.rank := by
  constructor
  · intro hclimbs c hc
    obtain ⟨c', hc', hle⟩ := hclimbs i c hc
    rw [h, List.getElem?_modify, hc] at hc'
    obtain rfl : f c = c' := by simpa using hc'
    exact hle
  · intro hf j c hc
    rw [h, List.getElem?_modify, hc]
    by_cases heq : i = j
    · subst heq
      exact ⟨f c, by simp, hf c hc⟩
    · exact ⟨c, by simp [heq], le_rfl⟩

end MineLog

namespace Cluster

variable (log : MineLog K) (obs : DetectionObs K)

theorem climb_rank (tagId : Option String) (c : Cluster K) :
    c.status.rank ≤ (c.climb log tagId).status.rank := by
  unfold climb
  split
  · exact c.status.rank_le_verified
  · split
    · rename_i hcandidate
      rw [hcandidate.1]
      exact Nat.zero_le _
    · exact le_rfl

theorem absorb_rank (c : Cluster K) : c.status.rank ≤ (c.absorb log obs).status.rank := by
  unfold absorb
  dsimp only
  refine le_trans ?_ (climb_rank log obs.tagId _)
  split <;> exact le_rfl

theorem nextPass_status (passGapS t : K) (c : Cluster K) :
    (c.nextPass passGapS t).status = c.status := by
  unfold nextPass
  split <;> rfl

end Cluster

namespace MineLog

theorem ingest_climbs (log : MineLog K) (obs : DetectionObs K) : log.Climbs (log.ingest obs) := by
  have hfounded : ∀ log' : MineLog K, log'.clusters =
      log.clusters ++ [(Cluster.found log.clusters.length obs).absorb log obs] →
        log.Climbs log' := by
    intro log' h i c hc
    refine ⟨c, ?_, le_rfl⟩
    rw [h, List.getElem?_append_left (List.getElem?_eq_some_iff.mp hc).1]
    exact hc
  unfold ingest
  dsimp only
  split
  · exact hfounded _ rfl
  · split_ifs
    · exact hfounded _ rfl
    · refine (modify_climbs rfl).mpr fun c _ => ?_
      have habsorb := Cluster.absorb_rank log obs (c.nextPass log.passGapS obs.t)
      rw [Cluster.nextPass_status] at habsorb
      exact habsorb

theorem finalize_climbs (log : MineLog K) : log.Climbs log.finalize := by
  intro i c hc
  refine ⟨c.closePass, ?_, le_rfl⟩
  rw [finalize, List.getElem?_map, hc]
  rfl

/-- A mark does no harm unless the cluster is verified. -/
theorem markDipped_climbs (log : MineLog K) (i : ℕ) :
    log.Climbs (log.markDipped i) ↔
      ∀ c, log.clusters[i]? = some c → c.status ≠ .verified := by
  rw [modify_climbs rfl]
  refine forall_congr' fun c => imp_congr_right fun _ => ?_
  cases c.status <;> simp [Status.rank]

end MineLog

namespace MissionEngine

/-! ### What a tick writes into the log -/

theorem abortWith_log (e : MissionEngine K) (reason : AbortReason K) :
    (e.abortWith reason).log = e.log := by
  unfold abortWith
  split <;> rfl

theorem checkAborts_log (e : MissionEngine K) (t : K) (pos : Vec3 K) :
    (e.checkAborts t pos).log = e.log := by
  have hdetector : (e.checkDetector t).log = e.log := by
    unfold checkDetector
    split
    · rfl
    · split
      · exact abortWith_log _ _
      · rfl
  have hresets : ∀ e : MissionEngine K, e.checkResets.log = e.log := by
    intro e
    unfold checkResets
    split
    · exact abortWith_log _ _
    · rfl
  have htimeout : ∀ e : MissionEngine K, (e.checkTimeout t).log = e.log := by
    intro e
    unfold checkTimeout
    split
    · rfl
    · split
      · exact abortWith_log _ _
      · rfl
  have hfence : ∀ e : MissionEngine K, (e.checkEstimateFence pos.horizontal).log = e.log := by
    intro e
    have hengaged : (e.estimateFenceViolation pos.horizontal).1.log = e.log := by
      unfold estimateFenceViolation
      split_ifs <;> rfl
    unfold checkEstimateFence
    split
    · rename_i e' violation heq
      rw [abortWith_log, ← hengaged, heq]
    · rename_i e' heq
      rw [← hengaged, heq]
  unfold checkAborts
  split
  · rfl
  · rw [hfence, htimeout, hresets, hdetector]

theorem petalHold_log (e : MissionEngine K) (t holdS : K) (stable : Bool) :
    (e.petalHold t holdS stable).1.log = e.log := by
  unfold petalHold
  split
  · split
    · rfl
    · split <;> rfl
  · rfl

theorem petalCenter_log (e : MissionEngine K) (center : Vec3 K) (s : Sample K) :
    (e.petalCenter center s).1.log = e.log := by
  unfold petalCenter
  dsimp only
  have hheld := petalHold_log e s.t e.cfg.rosetteCenterHoldS
    (s.horizontalValid && s.surveyReady && e.reached s.pos center && e.stopped s.vel)
  split
  · rename_i held heq
    rw [heq] at hheld
    split <;> exact hheld
  · rename_i held heq
    rw [heq] at hheld
    exact hheld

theorem petalLeg_log (e : MissionEngine K) (center outer : Vec3 K) (s : Sample K) :
    (e.petalLeg center outer s).1.log = e.log := by
  unfold petalLeg
  split
  · split <;> rfl
  · dsimp only
    have hheld := petalHold_log e s.t e.cfg.rosetteOuterHoldS
      (e.reached s.pos outer && e.stopped s.vel)
    split
    · rename_i held heq
      rw [heq] at hheld
      exact hheld
    · rename_i held heq
      rw [heq] at hheld
      exact hheld
  · split <;> rfl

theorem tickRosette_log {e e' : MissionEngine K} {s : Sample K} {sp : Option (Setpoint K)}
    (h : e.tickRosette s = .ok (e', sp)) : e'.log = e.log := by
  unfold tickRosette at h
  cases hhome : e.home with
  | error fault => simp [hhome, bind, Except.bind] at h
  | ok home =>
    simp only [hhome, bind, Except.bind] at h
    split_ifs at h
    · exact fst_of_ok h ▸ petalCenter_log e _ s
    · split at h
      · cases h
      · exact fst_of_ok h ▸ petalLeg_log e _ _ s

theorem followLane_log (e : MissionEngine K) (lane : Lane K) (s : Sample K) :
    (e.followLane lane s).1.log = e.log := by
  have hadvance : (e.advance lane (measuredS lane s.pos)).log = e.log := by
    unfold advance
    split <;> rfl
  unfold followLane
  dsimp only
  split
  · unfold finishLane
    dsimp only
    split <;> exact hadvance
  · exact hadvance

theorem tickLane_log {e e' : MissionEngine K} {s : Sample K} {sp : Option (Setpoint K)}
    (h : e.tickLane s = .ok (e', sp)) : e'.log = e.log := by
  unfold tickLane at h
  split at h
  · cases h
  · rename_i lane hlane
    dsimp only at h
    split_ifs at h
    · exact fst_of_ok h ▸ rfl
    · rw [← fst_of_ok h]
      unfold surveyLane
      split
      · rfl
      · exact followLane_log _ lane s

theorem tickSurvey_log {e e' : MissionEngine K} {s : Sample K} {sp : Option (Setpoint K)}
    (h : e.tickSurvey s = .ok (e', sp)) : e'.log = e.log := by
  unfold tickSurvey at h
  split at h
  · exact tickRosette_log h
  · exact tickLane_log h

theorem tickSync_log {e e' : MissionEngine K} {s : Sample K} {sp : Option (Setpoint K)}
    (h : e.tickSync s = .ok (e', sp)) : e'.log = e.log := by
  have hsync : ((e.freezeHome s).finishSync s.t).log = e.log := by
    unfold finishSync freezeHome
    split <;> split <;> rfl
  unfold tickSync at h
  simp only [bind, Except.bind] at h
  split at h
  · cases h
  · exact fst_of_ok h ▸ hsync

theorem tickTakeoff_log {e e' : MissionEngine K} {s : Sample K} {sp : Option (Setpoint K)}
    (h : e.tickTakeoff s = .ok (e', sp)) : e'.log = e.log := by
  unfold tickTakeoff at h
  simp only [bind, Except.bind] at h
  split at h
  · cases h
  · split_ifs at h
    · have hsurvey := tickSurvey_log h
      exact hsurvey
    · obtain ⟨rfl, -⟩ := Prod.mk.inj (Except.ok.inj h)
      rfl

/-- The cluster whose dip ends with a sample, in the state the guards leave. -/
def dipEnding (e : MissionEngine K) (s : Sample K) : Option ℕ :=
  if e.phase = .verifyDip then
    (e.dipTarget.bind fun i => (e.log.clusters[i]?).map fun c => (i, c)).bind fun target =>
      if e.reached s.pos (e.atSurveyAltitude target.2.centroid) ∧
          s.t - e.dipT0.getD s.t ≥ e.cfg.dipHoverS then
        some target.1
      else none
  else none

/-- The dip that a tick ends. -/
def dipEnd (e : MissionEngine K) (s : Sample K) : Option ℕ :=
  (e.checkAborts s.t s.pos).dipEnding s

/-- The log after a dip that ends, or none. -/
def marked (e : MissionEngine K) : Option ℕ → MineLog K
  | none => e.log
  | some i => e.log.markDipped i

theorem tickDip_log {e e' : MissionEngine K} {s : Sample K} {sp : Option (Setpoint K)}
    (hphase : e.phase = .verifyDip) (h : e.tickDip s = .ok (e', sp)) :
    e'.log = e.marked (e.dipEnding s) ∧ (e.dipEnding s ≠ none → e'.phase = .lane) := by
  unfold tickDip at h
  unfold dipEnding
  rw [if_pos hphase]
  split at h
  · cases h
  · rename_i i c htarget
    dsimp only at h
    rw [htarget, Option.bind_some, ← fst_of_ok h]
    dsimp only
    by_cases hreached : e.reached s.pos (e.atSurveyAltitude c.centroid) = true
    · rw [if_pos hreached]
      unfold hoverDip
      dsimp only
      by_cases hover : s.t - e.dipT0.getD s.t ≥ e.cfg.dipHoverS
      · rw [if_pos hover, if_pos ⟨hreached, hover⟩]
        exact ⟨rfl, fun _ => rfl⟩
      · rw [if_neg hover, if_neg fun hboth => hover hboth.2]
        exact ⟨rfl, fun hne => absurd rfl hne⟩
    · rw [if_neg hreached, if_neg fun hboth => hreached hboth.1]
      exact ⟨rfl, fun hne => absurd rfl hne⟩

theorem dipEnding_of_ne {e : MissionEngine K} {s : Sample K} (h : e.phase ≠ .verifyDip) :
    e.dipEnding s = none := if_neg h

theorem tickPhase_log {e e' : MissionEngine K} {s : Sample K} {sp : Option (Setpoint K)}
    (h : e.tickPhase s = .ok (e', sp)) :
    e'.log = e.marked (e.dipEnding s) ∧ (e.dipEnding s ≠ none → e'.phase = .lane) := by
  by_cases hdip : e.phase = .verifyDip
  · unfold tickPhase at h
    rw [hdip] at h
    exact tickDip_log hdip h
  · rw [dipEnding_of_ne hdip]
    refine ⟨?_, fun hne => absurd rfl hne⟩
    unfold tickPhase at h
    split at h
    case h_2 => exact tickSync_log h
    case h_3 => exact tickTakeoff_log h
    case h_4 => exact tickSurvey_log h
    case h_5 hphase => exact absurd hphase hdip
    case h_6 | h_7 =>
      rw [← fst_of_ok h]
      unfold tickEgress
      dsimp only
      split_ifs <;> rfl
    case h_8 =>
      rw [← fst_of_ok h]
      unfold tickSettle
      dsimp only
      split
      · split
        · rfl
        · split <;> rfl
      · rfl
    case h_9 =>
      rw [← fst_of_ok h]
      unfold tickDump
      dsimp only
      split <;> rfl
    case h_10 =>
      rw [← fst_of_ok h]
      unfold tickLand
      dsimp only
      split <;> rfl
    case h_1 | h_11 =>
      rw [← fst_of_ok h]
      rfl

theorem tickOnce_log {e e' : MissionEngine K} {s : Sample K} {sp : Option (Setpoint K)}
    (h : e.tickOnce s = .ok (e', sp)) :
    e'.log = e.marked (e.dipEnd s) ∧ (e.dipEnd s ≠ none → e'.phase = .lane) := by
  obtain ⟨hlog, hphase⟩ := tickPhase_log h
  refine ⟨?_, hphase⟩
  rw [hlog]
  unfold dipEnd
  cases (e.checkAborts s.t s.pos).dipEnding s with
  | none => exact checkAborts_log e s.t s.pos
  | some i => exact congrArg (MineLog.markDipped · i) (checkAborts_log e s.t s.pos)

/-- The only cluster a tick writes to is the one whose dip it ends. -/
theorem tick_log {e e' : MissionEngine K} {s : Sample K} {sp : Option (Setpoint K)}
    (h : e.tick s = .ok (e', sp)) : e'.log = e.marked (e.dipEnd s) := by
  unfold tick at h
  cases honce : e.tickOnce s with
  | error fault => simp [honce, bind, Except.bind] at h
  | ok out =>
    obtain ⟨e1, sp1⟩ := out
    simp only [honce, bind, Except.bind] at h
    obtain ⟨hlog, -⟩ := tickOnce_log honce
    split at h
    · rename_i violation hviolation
      obtain ⟨hsecond, -⟩ := tickOnce_log h
      have habort : (e1.abortWith (.command violation)).phase = .abort := by
        have hphase := commandFence_phase hviolation
        have hfree : ¬ (e1.phase = .abort ∨ e1.phase = .done) := by
          rcases hphase with hphase | hphase | hphase <;> simp [hphase]
        exact congrArg Control.phase (abortWith_control e1 (.command violation) hfree)
      rw [dipEnd, checkAborts_exempt _ s.t s.pos (by rw [habort]; rfl),
        dipEnding_of_ne (by rw [habort]; decide)] at hsecond
      exact hsecond.trans ((abortWith_log _ _).trans hlog)
    · exact fst_of_ok h ▸ hlog

/-- A tick that ends a dip does not raise. -/
theorem tick_of_dipEnd {e : MissionEngine K} {s : Sample K} {i : ℕ} (h : e.dipEnd s = some i) :
    ∃ e', e.step (.tick s) = some e' := by
  have hphase : (e.checkAborts s.t s.pos).phase = .verifyDip := by
    by_contra hne
    rw [dipEnd, dipEnding_of_ne hne] at h
    contradiction
  have honce : ∃ e1 sp, e.tickOnce s = .ok (e1, sp) := by
    unfold dipEnd dipEnding at h
    rw [if_pos hphase, Option.bind_eq_some_iff] at h
    obtain ⟨target, htarget, -⟩ := h
    unfold tickOnce tickPhase
    rw [hphase]
    dsimp only
    unfold tickDip
    rw [htarget]
    exact ⟨_, _, rfl⟩
  obtain ⟨e1, sp, honce⟩ := honce
  have hlane : e1.phase = .lane := (tickOnce_log honce).2 (by simp [h])
  have htick : ∃ out, e.tick s = .ok out := by
    unfold tick
    simp only [honce, bind, Except.bind]
    split
    · rename_i violation hviolation
      have habort : (e1.abortWith (.command violation)).phase = .abort := by
        unfold abortWith
        rw [if_neg (by simp [hlane])]
      unfold tickOnce tickPhase
      rw [checkAborts_exempt _ s.t s.pos (by rw [habort]; rfl), habort]
      exact ⟨_, rfl⟩
    · exact ⟨_, rfl⟩
  obtain ⟨out, hout⟩ := htick
  exact ⟨out.1, by simp [step, hout, Except.toOption]⟩

end MissionEngine

/-- No dip ends over a cluster that a tag has verified. -/
def KeepsVerified (e : MissionEngine K) : EngineInput K → Prop
  | .tick s => ∀ i ∈ e.dipEnd s, ∀ c ∈ e.log.clusters[i]?, c.status ≠ .verified
  | _ => True

namespace MissionEngine

theorem notifyDumpResult_log (e : MissionEngine K) (ok : Bool) :
    (e.notifyDumpResult ok).log = e.log := by
  unfold notifyDumpResult
  split
  · rfl
  · split
    · rfl
    · dsimp only
      split
      · exact abortWith_log _ _
      · rfl

/-- A step lowers no status exactly if it ends no dip over a verified cluster. -/
theorem step_climbs_iff (e : MissionEngine K) (x : EngineInput K) :
    (∀ e', e.step x = some e' → e.log.Climbs e'.log) ↔ KeepsVerified e x := by
  have hkept : ∀ log : MineLog K, log = e.log → e.log.Climbs log := by
    rintro log rfl
    exact .refl _
  cases x with
  | tick s =>
    have hlog : ∀ e', e.step (.tick s) = some e' → e'.log = e.marked (e.dipEnd s) := by
      intro e' h
      obtain ⟨out, hout, rfl⟩ := Option.map_eq_some_iff.mp h
      have htick : e.tick s = .ok (out.1, out.2) := by
        cases htick : e.tick s with
        | error fault => simp [htick, Except.toOption] at hout
        | ok out' =>
          rw [htick] at hout
          rw [Option.some.inj hout]
      exact tick_log htick
    simp only [KeepsVerified]
    cases hend : e.dipEnd s with
    | none =>
      refine iff_of_true (fun e' h => hkept _ ?_) (by simp)
      rw [hlog e' h, hend]
      rfl
    | some i =>
      have hmark : e.log.Climbs (e.log.markDipped i) ↔
          ∀ j ∈ some i, ∀ c ∈ e.log.clusters[j]?, c.status ≠ .verified := by
        rw [MineLog.markDipped_climbs]
        simp
      rw [← hmark]
      constructor
      · intro hclimbs
        obtain ⟨e', he'⟩ := tick_of_dipEnd hend
        have hcl := hclimbs e' he'
        rw [hlog e' he', hend] at hcl
        exact hcl
      · intro hclimbs e' he'
        rw [hlog e' he', hend]
        exact hclimbs
  | ingest obs =>
    refine iff_of_true (fun e' h => ?_) trivial
    rw [← Option.some.inj h]
    exact e.log.ingest_climbs obs
  | finalizeLog =>
    refine iff_of_true (fun e' h => ?_) trivial
    rw [← Option.some.inj h]
    exact e.log.finalize_climbs
  | start =>
    refine iff_of_true (fun e' h => hkept _ ?_) trivial
    rw [← Option.some.inj h, start]
    split <;> rfl
  | notifyDumpResult ok =>
    refine iff_of_true (fun e' h => hkept _ ?_) trivial
    rw [← Option.some.inj h]
    exact notifyDumpResult_log e ok
  | operatorAbort | requestAbort =>
    refine iff_of_true (fun e' h => hkept _ ?_) trivial
    rw [← Option.some.inj h]
    exact abortWith_log e _
  | noteDetectorAlive | noteResetCounter | applyHeadingReset =>
    refine iff_of_true (fun e' h => hkept _ ?_) trivial
    rw [← Option.some.inj h]
    rfl

end MissionEngine

open MissionEngine

/-- Over a run the statuses only climb, between any two of its states, exactly
if no dip of it ends over a verified cluster. -/
theorem statuses_climb_iff (e : MissionEngine K) (xs : List (EngineInput K)) :
    (∀ front mid back m m', xs = front ++ mid ++ back → run step e front = some m →
      run step m mid = some m' → m.log.Climbs m'.log) ↔ Along step KeepsVerified e xs := by
  constructor
  · intro hclimbs
    rw [along_iff_forall]
    intro front x back m hxs hm
    refine (step_climbs_iff m x).mp fun m' hm' => ?_
    refine hclimbs front [x] back m m' (by simp [hxs]) hm ?_
    simp [run_cons, hm']
  · intro halong front mid back m m' hxs hm hm'
    have hmid : Along step KeepsVerified m mid := by
      rw [hxs, List.append_assoc, along_append step hm] at halong
      exact ((along_append step hm').mp halong.2).1
    exact run_relates_along step (fun _ => True) KeepsVerified (fun a b => a.log.Climbs b.log)
      (fun a => .refl a.log) (fun _ _ _ => .trans)
      (fun a x b _ hx hb => ⟨trivial, (step_climbs_iff a x).mpr hx b hb⟩) trivial hmid hm'

/-- Five sightings of one place in two passes. -/
def sightings : List (EngineInput ℚ) :=
  [0, 0, 0, 0, 6].map fun t => .ingest { t, groundLocal := (0, 0), conf := 1, classId := "mine" }

/-- A tick over the home point of the mission. -/
def tickAt (t down : ℚ) : EngineInput ℚ :=
  .tick { t, pos := ⟨0, 0, down⟩, vel := ⟨0, 0, 0⟩, horizontalValid := true, surveyReady := true }

/-- A mine is confirmed, a dip over it begins, its tag is read, the dip ends. -/
def taggedDuringDip : List (EngineInput ℚ) :=
  sightings ++ [.start, tickAt 0 0, tickAt 2 0, tickAt 3 (-6), tickAt 4 (-6), .ingest
    { t := 5, groundLocal := (0, 0), conf := 1, classId := "tag", tagId := some "tag36h11:9" }]

/-- The tag verified the mine; the end of the dip sets it back to dipped. -/
theorem dip_end_lowers_verified :
    ¬ ∀ (cfg : MissionConfig ℚ) (yaw : ℚ) (e : MissionEngine ℚ), new cfg yaw = .ok e →
      ∀ (xs ys : List (EngineInput ℚ)) (m m' : MissionEngine ℚ), run step e xs = some m →
        run step m ys = some m' → m.log.Climbs m'.log := by
  intro hall
  have hrun : ((run step oneLaneEngine taggedDuringDip).any fun m =>
      decide ((m.log.clusters[0]?.map Cluster.status) = some .verified) &&
        (run step m [tickAt 6 (-6)]).any fun m' =>
          (m'.log.clusters[0]?.map Cluster.status) = some .dipped) = true := by
    decide +kernel
  simp only [Option.any_eq_true, Bool.and_eq_true, decide_eq_true_eq] at hrun
  obtain ⟨m, hm, hverified, m', hm', hdipped⟩ := hrun
  obtain ⟨c, hc, hstatus⟩ := Option.map_eq_some_iff.mp hverified
  obtain ⟨c', hc', hle⟩ := hall _ 0 _ oneLaneEngine_new _ _ m m' hm hm' 0 c hc
  rw [hc', Option.map_some, Option.some.injEq] at hdipped
  rw [hstatus, hdipped] at hle
  revert hle
  decide

end Mission10.Engine
