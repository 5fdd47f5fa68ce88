import Mission10.Engine.DumpDelivery

/-!
# The pose buffer after a clock step

A pose that is older than the last one is refused, and the buffer drops only what is
beyond the horizon of an accepted pose. After a backward step the old timeline therefore
stays until the clock has run past its end, and past the horizon as well. The second
pose of the new timeline leaves no old one exactly when it comes that late, or when a
frame reset has emptied the buffer.
-/
namespace Mission10.Engine

set_option linter.unusedSectionVars false

open Runs

variable {K : Type*} [Field K] [LinearOrder K] [IsStrictOrderedRing K] [MathOps K]

namespace PoseHistory

/-- Add a snapshot, or refuse it. -/
def push (h : PoseHistory K) (snap : PoseSnapshot K) : PoseHistory K :=
  match h.append snap with
  | .ok h' => h'
  | .error _ => h

/-- The times do not decrease. -/
def Chronological (snaps : List (PoseSnapshot K)) : Prop := snaps.Pairwise fun a b => a.t ≤ b.t

theorem push_refused {h : PoseHistory K} {snap last : PoseSnapshot K}
    (hlast : h.snaps.getLast? = some last) (hlt : snap.t < last.t) : h.push snap = h := by
  unfold push append
  rw [hlast]
  dsimp only
  rw [if_pos hlt]

/-- Dropping as many as the leading ones that satisfy a test. -/
theorem drop_takeWhile {α : Type*} (p : α → Bool) (xs : List α) :
    xs.drop (xs.takeWhile p).length = xs.dropWhile p := by
  induction xs with
  | nil => rfl
  | cons x xs ih =>
    by_cases hp : p x
    · simp [hp, ih]
    · simp [hp]

/-- An accepted snapshot comes last, after those within the horizon. -/
theorem push_accepted {h : PoseHistory K} (hhorizon : 0 ≤ h.horizonS) {snap : PoseSnapshot K}
    (hle : ∀ last, h.snaps.getLast? = some last → last.t ≤ snap.t) :
    h.push snap = { h with
      snaps := (h.snaps.dropWhile fun s => s.t < snap.t - h.horizonS) ++ [snap] } := by
  have hkeeps : decide (snap.t < snap.t - h.horizonS) = false := by
    rw [decide_eq_false_iff_not, not_lt]
    linarith
  have hdrop : (h.snaps ++ [snap]).drop (bisectLeft (h.snaps ++ [snap]) (snap.t - h.horizonS)) =
      (h.snaps.dropWhile fun s => s.t < snap.t - h.horizonS) ++ [snap] := by
    unfold bisectLeft
    rw [drop_takeWhile, List.dropWhile_append]
    split_ifs with hempty
    · rw [List.isEmpty_iff.mp hempty, List.dropWhile_cons, hkeeps]
      rfl
    · rfl
  unfold push append
  dsimp only
  rw [hdrop]
  cases hlast : h.snaps.getLast? with
  | none => rfl
  | some last =>
    dsimp only
    rw [if_neg (hle last hlast).not_gt]

theorem push_horizonS (h : PoseHistory K) (snap : PoseSnapshot K) :
    (h.push snap).horizonS = h.horizonS := by
  unfold push append
  cases h.snaps.getLast? with
  | none => rfl
  | some last =>
    dsimp only
    split_ifs <;> rfl

/-- No snapshot is later than the last one. -/
theorem Chronological.le_last {snaps : List (PoseSnapshot K)} (h : Chronological snaps)
    {last : PoseSnapshot K} (hlast : snaps.getLast? = some last) {snap : PoseSnapshot K}
    (hsnap : snap ∈ snaps) : snap.t ≤ last.t := by
  obtain ⟨front, rfl⟩ := List.getLast?_eq_some_iff.mp hlast
  obtain hfront | hsame := List.mem_append.mp hsnap
  · exact (List.pairwise_append.mp h).2.2 snap hfront last (by simp)
  · rw [List.mem_singleton.mp hsame]

theorem push_chronological {h : PoseHistory K} (hhorizon : 0 ≤ h.horizonS)
    (hc : Chronological h.snaps) (snap : PoseSnapshot K) : Chronological (h.push snap).snaps := by
  by_cases hlate : ∀ last, h.snaps.getLast? = some last → last.t ≤ snap.t
  · rw [push_accepted hhorizon hlate]
    refine List.pairwise_append.mpr ⟨hc.sublist (List.dropWhile_sublist _), by simp, ?_⟩
    intro old hold new hnew
    obtain rfl := List.mem_singleton.mp hnew
    have hmem : old ∈ h.snaps := (List.dropWhile_sublist _).subset hold
    cases hlast : h.snaps.getLast? with
    | none => exact absurd (List.getLast?_eq_none_iff.mp hlast) (List.ne_nil_of_mem hmem)
    | some last => exact (hc.le_last hlast hmem).trans (hlate last hlast)
  · push Not at hlate
    obtain ⟨last, hlast, hlt⟩ := hlate
    rw [push_refused hlast hlt]
    exact hc

/-- What the lookup returns is in the buffer. -/
theorem nearest_mem {h : PoseHistory K} {t : K} {snap : PoseSnapshot K}
    (hnearest : h.nearest t = some snap) : snap ∈ h.snaps := by
  unfold nearest at hnearest
  dsimp only at hnearest
  split at hnearest
  · exact List.mem_of_getElem? hnearest
  · exact List.mem_of_getElem? hnearest
  · rename_i i after _ hafter
    obtain ⟨before, hbefore, hchoice⟩ := Option.map_eq_some_iff.mp hnearest
    split_ifs at hchoice
    · exact hchoice ▸ List.mem_of_getElem? hbefore
    · exact hchoice ▸ List.mem_of_getElem? hafter

/-! ### Samples -/

/-- A sample of the position: whether a frame reset came with it, and its snapshot. -/
abbrev PoseSample (K : Type*) := Bool × PoseSnapshot K

/-- The buffer after a sample; a reset empties it before. -/
def take (h : PoseHistory K) (sample : PoseSample K) : PoseHistory K :=
  (if sample.1 then h.clear else h).push sample.2

/-- What the buffer has to hold: samples without a break in time. -/
structure Sound (h : PoseHistory K) : Prop where
  horizon : h.horizonS = 5
  chronological : Chronological h.snaps

theorem Sound.take {h : PoseHistory K} (hs : h.Sound) (sample : PoseSample K) :
    (h.take sample).Sound := by
  unfold PoseHistory.take
  have hfrom : (if sample.1 then h.clear else h).Sound := by
    split_ifs
    · exact ⟨hs.horizon, List.Pairwise.nil⟩
    · exact hs
  refine ⟨(push_horizonS _ _).trans hfrom.horizon, push_chronological ?_ hfrom.chronological _⟩
  rw [hfrom.horizon]
  norm_num

/-- The buffer holds the latest of the given samples, and nothing else. -/
def OnlyNew (h : PoseHistory K) (samples : List (PoseSample K)) : Prop :=
  h.snaps <:+ samples.map Prod.snd

theorem OnlyNew.nearest {h : PoseHistory K} {samples : List (PoseSample K)}
    (hnew : h.OnlyNew samples) {t : K} {snap : PoseSnapshot K}
    (hnearest : h.nearest t = some snap) : snap ∈ samples.map Prod.snd :=
  hnew.subset (nearest_mem hnearest)

/-- The clock runs forward over the samples. -/
def ClockForward (samples : List (PoseSample K)) : Prop := samples.Pairwise fun a b => a.2.t ≤ b.2.t

theorem onlyNew_take {h : PoseHistory K} (hs : h.Sound) {samples : List (PoseSample K)}
    (hnew : h.OnlyNew samples) {sample : PoseSample K}
    (hforward : ∀ old ∈ samples, old.2.t ≤ sample.2.t) :
    (h.take sample).OnlyNew (samples ++ [sample]) := by
  have hgrow : ∀ {start : PoseHistory K}, start.Sound → start.OnlyNew samples →
      (start.push sample.2).OnlyNew (samples ++ [sample]) := by
    intro start hsound honly
    have hlate : ∀ last, start.snaps.getLast? = some last → last.t ≤ sample.2.t := by
      intro last hlast
      obtain ⟨old, hold, rfl⟩ := List.mem_map.mp (honly.subset (List.mem_of_getLast? hlast))
      exact hforward old hold
    have hhorizon : 0 ≤ start.horizonS := by
      rw [hsound.horizon]
      norm_num
    unfold OnlyNew
    rw [push_accepted hhorizon hlate, List.map_append]
    obtain ⟨front, hfront⟩ := (List.dropWhile_suffix _).trans honly
    exact ⟨front, by rw [← List.append_assoc, hfront]; rfl⟩
  unfold take
  split_ifs
  · exact hgrow ⟨hs.horizon, List.Pairwise.nil⟩ (List.nil_suffix)
  · exact hgrow hs hnew

theorem onlyNew_takes {h : PoseHistory K} (hs : h.Sound) {samples : List (PoseSample K)}
    (hnew : h.OnlyNew samples) (rest : List (PoseSample K))
    (hforward : ClockForward (samples ++ rest)) :
    (rest.foldl take h).OnlyNew (samples ++ rest) := by
  induction rest generalizing h samples with
  | nil => simpa using hnew
  | cons sample rest ih =>
    have hsplit : samples ++ sample :: rest = samples ++ [sample] ++ rest := by simp
    rw [hsplit] at hforward ⊢
    refine ih (hs.take sample) (onlyNew_take hs hnew fun old hold => ?_) hforward
    have hfirst := (List.pairwise_append.mp (List.pairwise_append.mp hforward).1).2.2
    exact hfirst old hold sample (by simp)

/-- After a reset only the sample that brought it is left. -/
theorem onlyNew_reset {h : PoseHistory K} (hs : h.Sound) {sample : PoseSample K}
    (hreset : sample.1) (samples : List (PoseSample K)) :
    (h.take sample).OnlyNew (samples ++ [sample]) := by
  have hempty : h.take sample = h.clear.take sample := by
    unfold take
    rw [if_pos hreset, if_pos hreset]
    rfl
  have hsound : h.clear.Sound := ⟨hs.horizon, List.Pairwise.nil⟩
  have hnone : h.clear.OnlyNew [] := List.nil_suffix
  have hone : (h.clear.take sample).OnlyNew [sample] := onlyNew_take hsound hnone (by simp)
  rw [hempty]
  refine hone.trans ?_
  rw [List.map_append]
  exact List.suffix_append _ _

/-- A suffix ends as the list does. -/
theorem getLast_of_suffix {α : Type*} {xs ys : List α} {x y : α} (h : xs <:+ ys ++ [y])
    (hx : xs.getLast? = some x) : x = y := by
  obtain ⟨front, heq⟩ := h
  have hlast := congrArg List.getLast? heq
  rw [List.getLast?_append, hx, List.getLast?_concat] at hlast
  exact Option.some.inj hlast

/-- What the horizon leaves of a buffer ends with the last snapshot, if that is within
the horizon. -/
theorem dropWhile_kept {snaps : List (PoseSnapshot K)} {last : PoseSnapshot K} {cutoff : K}
    (hlast : snaps.getLast? = some last) (hkept : cutoff ≤ last.t) :
    (snaps.dropWhile fun s => s.t < cutoff).getLast? = some last := by
  obtain ⟨front, rfl⟩ := List.getLast?_eq_some_iff.mp hlast
  have hstays : decide (last.t < cutoff) = false := by
    rw [decide_eq_false_iff_not, not_lt]
    exact hkept
  rw [List.dropWhile_append]
  split_ifs
  · simp [hstays]
  · simp

theorem dropWhile_dropped {snaps : List (PoseSnapshot K)} (hc : Chronological snaps)
    {last : PoseSnapshot K} {cutoff : K} (hlast : snaps.getLast? = some last)
    (hold : last.t < cutoff) : (snaps.dropWhile fun s => s.t < cutoff) = [] := by
  rw [List.dropWhile_eq_nil_iff]
  intro snap hsnap
  exact decide_eq_true ((hc.le_last hlast hsnap).trans_lt hold)

/-- The second sample of a new timeline leaves no old one exactly when a reset came with
one of the two, or when it is beyond the horizon of the old timeline. -/
theorem onlyNew_two {h : PoseHistory K} (hs : h.Sound) {last : PoseSnapshot K}
    (hlast : h.snaps.getLast? = some last) {first second : PoseSample K}
    (hjump : first.2.t < last.t) (hforward : first.2.t ≤ second.2.t) :
    ((h.take first).take second).OnlyNew [first, second] ↔
      first.1 ∨ second.1 ∨ last.t + 5 < second.2.t := by
  by_cases hfirst : first.1
  · have hone : (h.take first).OnlyNew [first] := onlyNew_reset hs hfirst []
    exact iff_of_true (onlyNew_take (hs.take first) hone (by simpa using hforward)) (Or.inl hfirst)
  by_cases hsecond : second.1
  · exact iff_of_true (onlyNew_reset (hs.take first) hsecond [first]) (Or.inr (Or.inl hsecond))
  have hrefused : h.take first = h := by
    unfold take
    rw [if_neg hfirst, push_refused hlast hjump]
  have htake : h.take second = h.push second.2 := by
    unfold take
    rw [if_neg hsecond]
  have hhorizon : 0 ≤ h.horizonS := by
    rw [hs.horizon]
    norm_num
  rw [hrefused, htake]
  simp only [hfirst, hsecond, Bool.false_eq_true, false_or]
  by_cases hbefore : second.2.t < last.t
  · rw [push_refused hlast hbefore]
    refine iff_of_false (fun hnew => ?_) (by linarith)
    have hsuffix : h.snaps <:+ [first.2] ++ [second.2] := hnew
    have hsame : last = second.2 := getLast_of_suffix hsuffix hlast
    rw [hsame] at hbefore
    exact lt_irrefl _ hbefore
  · have hlate : ∀ old, h.snaps.getLast? = some old → old.t ≤ second.2.t := by
      intro old hold
      obtain rfl := Option.some.inj (hlast.symm.trans hold)
      exact not_lt.mp hbefore
    unfold OnlyNew
    rw [push_accepted hhorizon hlate, hs.horizon]
    by_cases hfar : last.t + 5 < second.2.t
    · refine iff_of_true ?_ hfar
      rw [dropWhile_dropped hs.chronological hlast (by linarith)]
      exact ⟨[first.2], rfl⟩
    · refine iff_of_false (fun hnew => ?_) hfar
      have hkept : (h.snaps.dropWhile fun s => s.t < second.2.t - 5).getLast? = some last :=
        dropWhile_kept hlast (by linarith)
      obtain ⟨front, heq⟩ := hnew
      rw [← List.append_assoc] at heq
      have hends : front ++ (h.snaps.dropWhile fun s => s.t < second.2.t - 5) ++ [second.2] =
          [first.2] ++ [second.2] := heq
      have hsuffix : (h.snaps.dropWhile fun s => s.t < second.2.t - 5) <:+ [] ++ [first.2] :=
        ⟨front, (List.append_inj' hends rfl).1⟩
      have hsame : last = first.2 := getLast_of_suffix hsuffix hkept
      rw [hsame] at hjump
      exact lt_irrefl _ hjump

end PoseHistory

namespace EngineNode

open PoseHistory

/-! ### The samples of a run -/

/-- The message changes a reset counter. -/
def announcesReset (n : EngineNode K) (msg : LocalPosition K) : Bool :=
  n.counters.any fun old => decide (msg.counters ≠ old)

/-- The node before it adds the pose of a message. -/
def beforePose (n : EngineNode K) (nowUs : ℤ) (msg : LocalPosition K) : EngineNode K :=
  (((n.handleLocalFrameReset msg).trackPosition msg).noteDistBottom (seconds nowUs) msg).mapEngine
    fun e => e.noteResetCounter msg.counters.xy

/-- The samples of an event: a position message brings one. -/
def samplesOf (n : EngineNode K) : NodeEvent K → List (PoseSample K)
  | .position nowUs msg =>
    [(n.announcesReset msg, (n.beforePose nowUs msg).snapshot (seconds nowUs))]
  | _ => []

/-- The samples of a list of events. -/
def samples : EngineNode K → List (NodeEvent K) → List (PoseSample K)
  | _, [] => []
  | n, ev :: evs => n.samplesOf ev ++ ((n.step ev).elim [] fun n' => n'.samples evs)

theorem handleLocalFrameReset_poses (n : EngineNode K) (msg : LocalPosition K) :
    (n.handleLocalFrameReset msg).poses =
      if n.announcesReset msg then n.poses.clear else n.poses := by
  unfold handleLocalFrameReset announcesReset
  cases hcounters : n.counters with
  | none => rfl
  | some old =>
    by_cases hsame : msg.counters = old
    · simp [hsame]
    · simp only [hsame, if_false, Option.any_some, ne_eq, not_false_eq_true, decide_true, if_true]
      unfold onLocalFrameReset
      dsimp only
      split <;> rfl

theorem pushPose_poses (n : EngineNode K) (now : K) :
    (n.pushPose now).poses = n.poses.push (n.snapshot now) := by
  unfold pushPose push
  cases n.poses.append (n.snapshot now) <;> rfl

theorem posCb_poses (n : EngineNode K) (nowUs : ℤ) (msg : LocalPosition K) :
    (n.posCb nowUs msg).poses = n.poses.take
      (n.announcesReset msg, (n.beforePose nowUs msg).snapshot (seconds nowUs)) := by
  have hbefore : (n.beforePose nowUs msg).poses =
      if n.announcesReset msg then n.poses.clear else n.poses := by
    rw [← handleLocalFrameReset_poses]
    unfold beforePose noteDistBottom
    split_ifs <;> rfl
  change ((n.beforePose nowUs msg).pushPose (seconds nowUs)).poses = _
  rw [pushPose_poses, hbefore]
  rfl

theorem anchorGuard_poses (n : EngineNode K) (reason : String) :
    (n.anchorGuard reason).poses = n.poses := by
  unfold anchorGuard
  split
  · rfl
  · split_ifs <;> rfl

theorem detect_poses (snap : PoseSnapshot K) (tImg : K) (n : EngineNode K) (det : Detection K) :
    (detect snap tImg n det).poses = n.poses := by
  unfold detect
  split
  · rfl
  · dsimp only
    split
    · rfl
    · split
      · rfl
      · split_ifs
        · unfold observeAnchor
          dsimp only
          split
          · rfl
          · rw [anchorGuard_poses]
            rfl
        · rfl

theorem detectionsCb_poses (n : EngineNode K) (nowUs : ℤ) (tImg : K)
    (detections : List (Detection K)) : (n.detectionsCb nowUs tImg detections).poses = n.poses := by
  have hfold : ∀ (m : EngineNode K) (snap : PoseSnapshot K),
      (detections.foldl (detect snap tImg) m).poses = m.poses := by
    intro m snap
    induction detections generalizing m with
    | nil => rfl
    | cons det detections ih => exact (ih _).trans (detect_poses snap tImg m det)
  unfold detectionsCb
  split
  · rfl
  · exact hfold _ _

theorem distCb_poses (n : EngineNode K) (nowUs : ℤ) (msg : DistanceSensor K) :
    (n.distCb nowUs msg).1.poses = n.poses := by
  have hwatch : (n.watchGround nowUs msg).1.poses = n.poses := by
    unfold watchGround
    dsimp only
    split_ifs <;> first | rfl | (split <;> rfl)
  unfold distCb
  dsimp only
  split_ifs <;> exact hwatch

theorem startCb_poses (n : EngineNode K) (nowUs : ℤ) (data : Bool) :
    (n.startCb nowUs data).poses = n.poses := by
  unfold startCb
  split_ifs
  · split <;> rfl
  · rfl
  · rfl

theorem onPhase_poses (n : EngineNode K) (phase : Phase) (link : LinkOutcome) :
    (n.onPhase phase link).1.poses = n.poses := by
  have hhand : ∀ m : EngineNode K, m.handOffLanding.poses = m.poses := by
    intro m
    unfold handOffLanding
    split_ifs <;> rfl
  unfold onPhase
  split_ifs <;> simp only [hhand] <;> rfl

theorem computeSetpoint_poses {n : EngineNode K} {nowUs : ℤ} {link : LinkOutcome}
    {out : EngineNode K × NodeReply K} (h : n.computeSetpoint nowUs link = .ok out) :
    out.1.poses = n.poses := by
  unfold computeSetpoint at h
  split at h
  · rw [← Except.ok.inj h]
  · simp only [bind, Except.bind, pure, Except.pure] at h
    split at h
    · cases h
    · rw [← Except.ok.inj h]
      exact onPhase_poses _ _ _

/-- The buffer after an event. -/
theorem step_poses {n n' : EngineNode K} {ev : NodeEvent K} (h : n.step ev = some n') :
    n'.poses = (n.samplesOf ev).foldl take n.poses := by
  unfold EngineNode.step at h
  obtain ⟨out, hout, rfl⟩ := Option.map_eq_some_iff.mp h
  cases ev with
  | position nowUs msg =>
    rw [← Option.some.inj hout]
    exact posCb_poses n nowUs msg
  | attitude q =>
    rw [← Option.some.inj hout]
    change (n.attCb q).poses = n.poses
    unfold attCb
    split_ifs <;> rfl
  | distance nowUs msg =>
    rw [← Option.some.inj hout]
    exact distCb_poses n nowUs msg
  | gps nowUs msg =>
    rw [← Option.some.inj hout]
    rfl
  | detections nowUs tImg detections =>
    rw [← Option.some.inj hout]
    exact detectionsCb_poses n nowUs tImg detections
  | startGate nowUs data =>
    rw [← Option.some.inj hout]
    exact startCb_poses n nowUs data
  | beginGate data =>
    rw [← Option.some.inj hout]
    change (n.beginCb data).poses = n.poses
    unfold beginCb
    split_ifs
    · rfl
    · split <;> rfl
  | endGate data =>
    rw [← Option.some.inj hout]
    change (n.endCb data).poses = n.poses
    unfold endCb
    split_ifs <;> rfl
  | abortGate data =>
    rw [← Option.some.inj hout]
    change (n.abortCb data).poses = n.poses
    unfold abortCb
    split_ifs <;> rfl
  | controllerActive active =>
    rw [← Option.some.inj hout]
    rfl
  | vehicleArmed armed =>
    rw [← Option.some.inj hout]
    rfl
  | latchLaunch =>
    rw [← Option.some.inj hout]
    change n.latchLaunchReference.poses = n.poses
    unfold latchLaunchReference
    split_ifs <;> rfl
  | activeTick nowUs link =>
    unfold react at hout
    dsimp only at hout
    split_ifs at hout
    · cases hcompute : n.computeSetpoint nowUs link with
      | error err =>
        rw [hcompute] at hout
        cases hout
      | ok reply =>
        rw [hcompute] at hout
        rw [← Option.some.inj hout]
        exact computeSetpoint_poses hcompute

/-- The buffer after a run is the buffer after its samples. -/
theorem run_poses {n n' : EngineNode K} {evs : List (NodeEvent K)} (h : run step n evs = some n') :
    n'.poses = (n.samples evs).foldl take n.poses := by
  induction evs generalizing n with
  | nil =>
    rw [run_nil, Option.some.injEq] at h
    rw [← h]
    rfl
  | cons ev evs ih =>
    obtain ⟨m, hm, hrest⟩ := run_cons_some step h
    have hsamples : n.samples (ev :: evs) = n.samplesOf ev ++ m.samples evs := by
      rw [samples, hm]
      rfl
    rw [hsamples, List.foldl_append, ← step_poses hm]
    exact ih hrest

theorem samples_append {n m : EngineNode K} {evs : List (NodeEvent K)}
    (h : run step n evs = some m) (more : List (NodeEvent K)) :
    n.samples (evs ++ more) = n.samples evs ++ m.samples more := by
  induction evs generalizing n with
  | nil =>
    rw [run_nil, Option.some.injEq] at h
    rw [h]
    rfl
  | cons ev evs ih =>
    obtain ⟨n', hn', hrest⟩ := run_cons_some step h
    rw [List.cons_append, samples, samples, hn']
    simp only [Option.elim_some]
    rw [ih hrest, List.append_assoc]

theorem run_sound {params : NodeParams K} {n n' : EngineNode K} {evs : List (NodeEvent K)}
    (hnew : new params = .ok n) (h : run step n evs = some n') : n'.poses.Sound := by
  have hstart : n.poses.Sound := by
    obtain ⟨cam, anchorCfg, correctionCfg, rfl⟩ := new_ok hnew
    exact ⟨rfl, List.Pairwise.nil⟩
  rw [run_poses h]
  generalize n.poses = poses at hstart
  induction n.samples evs generalizing poses with
  | nil => exact hstart
  | cons sample rest ih => exact ih _ (hstart.take sample)

/-- In every run of the node whose clock steps back and then runs forward: the buffer
holds only samples of the new timeline from its second sample on, and no lookup returns
an older one, exactly when a frame reset came with one of the first two samples or the
second comes more than the horizon after the old timeline. -/
theorem new_timeline_only_iff {params : NodeParams K} {n₀ n : EngineNode K}
    {before evs : List (NodeEvent K)} (hnew : new params = .ok n₀)
    (hrun : run step n₀ before = some n) {last : PoseSnapshot K}
    (hlast : n.poses.snaps.getLast? = some last) {m : EngineNode K}
    (hevs : run step n evs = some m) {first second : PoseSample K}
    (hsamples : n.samples evs = [first, second]) (hjump : first.2.t < last.t)
    (hforward : first.2.t ≤ second.2.t) :
    (∀ more n', run step n (evs ++ more) = some n' → ClockForward (n.samples (evs ++ more)) →
      n'.poses.OnlyNew (n.samples (evs ++ more)) ∧
        ∀ t snap, n'.poses.nearest t = some snap →
          snap ∈ (n.samples (evs ++ more)).map Prod.snd) ↔
      first.1 ∨ second.1 ∨ last.t + 5 < second.2.t := by
  have hsound : n.poses.Sound := run_sound hnew hrun
  have hm : m.poses = (n.poses.take first).take second := by
    rw [run_poses hevs, hsamples]
    rfl
  rw [← onlyNew_two hsound hlast hjump hforward, ← hm]
  constructor
  · intro hall
    have hclock : ClockForward (n.samples (evs ++ [])) := by
      simpa [hsamples, ClockForward] using hforward
    have hnil := (hall [] m (by simpa using hevs) hclock).1
    simpa [hsamples] using hnil
  · intro htwo more n' hmore hclock
    obtain ⟨m', hm', hrest⟩ := run_append_some step hmore
    obtain rfl := Option.some.inj (hevs.symm.trans hm')
    have hsplit : n.samples (evs ++ more) = [first, second] ++ m.samples more := by
      rw [samples_append hevs, hsamples]
    have honly : n'.poses.OnlyNew (n.samples (evs ++ more)) := by
      rw [hsplit] at hclock ⊢
      rw [run_poses hrest]
      refine onlyNew_takes ?_ htwo (m.samples more) hclock
      rw [hm]
      exact (hsound.take first).take second
    exact ⟨honly, fun t snap hnearest => honly.nearest hnearest⟩

/-- The node after a pose at ten seconds. -/
def posedNode : EngineNode ℚ := oneLaneNode.posCb 10000000 (atRest 0 0)

theorem posedNode_runs : run step oneLaneNode [.position 10000000 (atRest 0 0)] = some posedNode :=
  rfl

theorem posedNode_last : posedNode.poses.snaps.getLast?.map PoseSnapshot.t = some 10 := by
  decide +kernel

/-- Two poses after the clock has stepped back to five seconds. -/
def steppedBack (secondUs : ℤ) : List (NodeEvent ℚ) :=
  [.position 5000000 (atRest 0 0), .position secondUs (atRest 0 0)]

theorem steppedBack_runs (secondUs : ℤ) : ∃ m, run step posedNode (steppedBack secondUs) = some m :=
  ⟨_, rfl⟩

theorem steppedBack_samples (secondUs : ℤ) : ∃ first second : PoseSample ℚ,
    posedNode.samples (steppedBack secondUs) = [first, second] ∧
      first.2.t = seconds 5000000 ∧ second.2.t = seconds secondUs :=
  ⟨_, _, rfl, rfl, rfl⟩

/-- The second pose comes six seconds after the old timeline. -/
theorem new_timeline_only_late : ∃ n', run step posedNode (steppedBack 16000000) = some n' ∧
    n'.poses.OnlyNew (posedNode.samples (steppedBack 16000000)) := by
  obtain ⟨last, hlast, htime⟩ := Option.map_eq_some_iff.mp posedNode_last
  obtain ⟨m, hm⟩ := steppedBack_runs 16000000
  obtain ⟨first, second, hsamples, hfirst, hsecond⟩ := steppedBack_samples 16000000
  have hforward : first.2.t ≤ second.2.t := by
    rw [hfirst, hsecond]
    norm_num [seconds]
  have hall := (new_timeline_only_iff oneLaneNode_new posedNode_runs hlast hm hsamples
    (by rw [hfirst, htime]; norm_num [seconds]) hforward).mpr
    (Or.inr (Or.inr (by rw [htime, hsecond]; norm_num [seconds])))
  have hclock : ClockForward (posedNode.samples (steppedBack 16000000 ++ [])) := by
    simpa [hsamples, ClockForward] using hforward
  have honly := (hall [] m (by simpa using hm) hclock).1
  rw [List.append_nil] at honly
  exact ⟨m, hm, honly⟩

/-- After a step back of five seconds the old pose is still there, and is what the lookup
returns. -/
theorem old_pose_kept : ¬ ∀ (params : NodeParams ℚ) (n₀ n m : EngineNode ℚ)
    (before evs : List (NodeEvent ℚ)) (last : PoseSnapshot ℚ) (first second : PoseSample ℚ),
    new params = .ok n₀ → run step n₀ before = some n → n.poses.snaps.getLast? = some last →
      run step n evs = some m → n.samples evs = [first, second] → first.2.t < last.t →
        first.2.t ≤ second.2.t → m.poses.OnlyNew [first, second] := by
  intro hall
  obtain ⟨last, hlast, htime⟩ := Option.map_eq_some_iff.mp posedNode_last
  obtain ⟨m, hm⟩ := steppedBack_runs 5100000
  obtain ⟨first, second, hsamples, hfirst, hsecond⟩ := steppedBack_samples 5100000
  have honly := hall oneLaneParams oneLaneNode posedNode m _ _ last first second oneLaneNode_new
    posedNode_runs hlast hm hsamples (by rw [hfirst, htime]; norm_num [seconds])
    (by rw [hfirst, hsecond]; norm_num [seconds])
  have hkept : m.poses.snaps.map PoseSnapshot.t = [10] := by
    obtain rfl := Option.some.inj (hm.symm.trans rfl : some _ = some _)
    decide +kernel
  have htimes := honly.map PoseSnapshot.t
  rw [hkept] at htimes
  simp only [List.map_cons, List.map_nil, hfirst, hsecond] at htimes
  revert htimes
  decide +kernel

end EngineNode

end Mission10.Engine
