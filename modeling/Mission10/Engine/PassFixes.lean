import Mission10.Engine.ClusterMembers
import Mission10.Library.Grouping

/-!
# One fix per pass

The observations of a cluster fall apart into passes where the cluster was not seen for
longer than the gap. The next sighting after a gap records the mean fix of the pass before,
and the dump records that of every pass that still runs. A pass that runs on after the dump
and brings another fix is recorded again: the dump closes the books of the pass, but does
not begin a new one.
-/
namespace Mission10.Engine

set_option linter.unusedSectionVars false

variable {K : Type*} [Field K] [LinearOrder K] [IsStrictOrderedRing K] [MathOps K]

/-- The maximal runs of observations with no pause longer than the gap. -/
def passes (passGapS : K) (os : List (DetectionObs K)) : List (List (DetectionObs K)) :=
  os.splitBy fun a b => decide (b.t - a.t ≤ passGapS)

/-- The fixes of a pass. -/
def fixes (pass : List (DetectionObs K)) : List (Point2 K) := pass.filterMap DetectionObs.ll

/-- The mean fix of a pass that has one. -/
def passMean (pass : List (DetectionObs K)) : Option (Point2 K) :=
  if (fixes pass).length > 0 then
    some ((fixes pass).sum.1 / (fixes pass).length, (fixes pass).sum.2 / (fixes pass).length)
  else none

/-- The entries for a list of passes. -/
def banked (ps : List (List (DetectionObs K))) : List (Point2 K) := ps.filterMap passMean

/-- The pass that runs. -/
def runningPass (passGapS : K) (os : List (DetectionObs K)) : List (DetectionObs K) :=
  (passes passGapS os).getLast?.getD []

/-- The observation brings a fix to a running pass whose fixes were all recorded. -/
def MineLog.Reopens (log : MineLog K) (js : List (ℕ × DetectionObs K)) (obs : DetectionObs K) :
    Prop :=
  ∃ c, log.clusters[log.joined obs]? = some c ∧ obs.t - c.lastSeen ≤ log.passGapS ∧
    obs.ll ≠ none ∧ c.passLlN = 0 ∧
      fixes (runningPass log.passGapS (members (log.joined obs) js)) ≠ []

/-- The entries of a cluster are the mean fixes of some of its passes, each once. -/
def Cluster.OneFixPerPass (passGapS : K) (c : Cluster K) (os : List (DetectionObs K)) : Prop :=
  ∃ recorded : List (List (DetectionObs K)), recorded.Sublist (passes passGapS os) ∧
    (∀ pass ∈ recorded, fixes pass ≠ []) ∧
    c.llPerPass.map some = recorded.map passMean ∧
      c.nPasses = (passes passGapS os).length ∧ c.llPerPass.length ≤ c.nPasses

/-! ### The books of a cluster -/

section Books

variable (running : List (DetectionObs K)) (obs : DetectionObs K)

@[simp] theorem fixes_concat : fixes (running ++ [obs]) = fixes running ++ obs.ll.toList := by
  unfold fixes
  rw [List.filterMap_append]
  cases h : obs.ll <;> simp [h]

theorem passMean_concat_of_none (h : obs.ll = none) :
    passMean (running ++ [obs]) = passMean running := by
  unfold passMean
  rw [fixes_concat, h, Option.toList_none, List.append_nil]

theorem banked_concat (ps : List (List (DetectionObs K))) :
    banked (ps ++ [running]) = banked ps ++ (passMean running).toList := by
  unfold banked
  rw [List.filterMap_append]
  cases h : passMean running <;> simp [h]

end Books

/-- The fixes of the running pass are added up, or they were recorded. -/
inductive Cluster.Running (c : Cluster K) (closed : List (List (DetectionObs K)))
    (running : List (DetectionObs K)) : Prop
  | added (sum : c.passLlSum = (fixes running).sum) (n : c.passLlN = (fixes running).length)
      (entries : c.llPerPass = banked closed)
  | recorded (fixed : fixes running ≠ []) (sum : c.passLlSum = 0) (n : c.passLlN = 0)
      (entries : c.llPerPass = banked (closed ++ [running]))

/-- The books of a cluster agree with the passes of its observations. -/
structure Cluster.Books (passGapS : K) (c : Cluster K) (os : List (DetectionObs K)) : Prop where
  seen : os.getLast?.map DetectionObs.t = some c.lastSeen
  split : ∃ closed running, passes passGapS os = closed ++ [running] ∧
    c.nPasses = closed.length + 1 ∧ c.Running closed running

namespace Cluster

variable {log : MineLog K} {obs : DetectionObs K} {passGapS : K}

/-- What an observation does to the books of a cluster. -/
theorem absorb_books (log : MineLog K) (obs : DetectionObs K) (c : Cluster K) :
    (c.absorb log obs).passLlSum = c.passLlSum + obs.ll.toList.sum ∧
      (c.absorb log obs).passLlN = c.passLlN + obs.ll.toList.length ∧
        (c.absorb log obs).llPerPass = c.llPerPass ∧ (c.absorb log obs).nPasses = c.nPasses ∧
          (c.absorb log obs).lastSeen = obs.t := by
  have hclimb : ∀ (tagId : Option String) (d : Cluster K),
      (d.climb log tagId).passLlSum = d.passLlSum ∧ (d.climb log tagId).passLlN = d.passLlN ∧
        (d.climb log tagId).llPerPass = d.llPerPass ∧ (d.climb log tagId).nPasses = d.nPasses ∧
          (d.climb log tagId).lastSeen = d.lastSeen := by
    intro tagId d
    unfold climb
    cases tagId with
    | some tag => exact ⟨rfl, rfl, rfl, rfl, rfl⟩
    | none =>
      dsimp only
      split_ifs <;> exact ⟨rfl, rfl, rfl, rfl, rfl⟩
  unfold absorb
  dsimp only
  cases obs.ll with
  | none =>
    obtain ⟨hsum, hn, hentries, hpasses, hseen⟩ := hclimb obs.tagId _
    rw [hsum, hn, hentries, hpasses, hseen]
    simp
  | some ll =>
    obtain ⟨hsum, hn, hentries, hpasses, hseen⟩ := hclimb obs.tagId _
    rw [hsum, hn, hentries, hpasses, hseen]
    simp [Prod.ext_iff]

/-- Closing the running pass records its fixes, if this was not done before. -/
theorem Running.close {c : Cluster K} {closed : List (List (DetectionObs K))}
    {running : List (DetectionObs K)} (h : c.Running closed running) :
    c.closePass.llPerPass = banked (closed ++ [running]) ∧
      c.closePass.passLlSum = 0 ∧ c.closePass.passLlN = 0 := by
  refine ⟨?_, rfl, rfl⟩
  cases h with
  | added sum n entries =>
    unfold closePass
    dsimp only
    rw [banked_concat, sum, n, entries]
    unfold passMean
    split_ifs <;> simp
  | recorded fixed sum n entries =>
    unfold closePass
    dsimp only
    rw [if_neg (by omega), entries]

theorem Running.finalized {c : Cluster K} {closed : List (List (DetectionObs K))}
    {running : List (DetectionObs K)} (h : c.Running closed running) :
    c.closePass.Running closed running := by
  obtain ⟨hentries, hsum, hn⟩ := h.close
  by_cases hfixes : fixes running = []
  · refine .added ?_ ?_ ?_
    · rw [hsum, hfixes, List.sum_nil]
    · rw [hn, hfixes, List.length_nil]
    · rw [hentries, banked_concat, passMean, hfixes]
      simp
  · exact .recorded hfixes hsum hn hentries

theorem Books.close {c : Cluster K} {os : List (DetectionObs K)} (h : c.Books passGapS os) :
    c.closePass.Books passGapS os := by
  obtain ⟨closed, running, hsplit, hpasses, hrunning⟩ := h.split
  exact ⟨h.seen, closed, running, hsplit, hpasses, hrunning.finalized⟩

theorem books_found (id : ℕ) : ((Cluster.found id obs).absorb log obs).Books passGapS [obs] := by
  obtain ⟨hsum, hn, hentries, hpasses, hseen⟩ := (Cluster.found id obs).absorb_books log obs
  refine ⟨?_, [], [obs], rfl, hpasses, .added ?_ ?_ hentries⟩
  · rw [hseen]
    rfl
  · rw [hsum, ← List.nil_append [obs], fixes_concat]
    exact zero_add _
  · rw [hn, ← List.nil_append [obs], fixes_concat]
    exact Nat.zero_add _

/-- The sighting of a cluster after a gap. -/
theorem Books.begin {c : Cluster K} {os : List (DetectionObs K)} (h : c.Books passGapS os)
    (hgap : obs.t - c.lastSeen > passGapS) :
    ((c.nextPass passGapS obs.t).absorb log obs).Books passGapS (os ++ [obs]) := by
  obtain ⟨closed, running, hsplit, hpasses, hrunning⟩ := h.split
  obtain ⟨hentries, hsum, hn, hnext⟩ : (c.nextPass passGapS obs.t).llPerPass =
      banked (closed ++ [running]) ∧ (c.nextPass passGapS obs.t).passLlSum = 0 ∧
        (c.nextPass passGapS obs.t).passLlN = 0 ∧
          (c.nextPass passGapS obs.t).nPasses = c.nPasses + 1 := by
    unfold nextPass
    rw [if_pos hgap]
    exact ⟨hrunning.close.1, rfl, rfl, rfl⟩
  obtain ⟨hsum', hn', hentries', hpasses', hseen'⟩ :=
    (c.nextPass passGapS obs.t).absorb_books log obs
  refine ⟨?_, closed ++ [running], [obs], ?_, ?_, .added ?_ ?_ ?_⟩
  · rw [List.getLast?_concat, hseen']
    rfl
  · unfold passes
    rw [Grouping.splitBy_begin]
    · exact congrArg (· ++ [[obs]]) hsplit
    · intro last hlast
      have hseen := h.seen
      rw [hlast, Option.map_some, Option.some.injEq] at hseen
      rw [hseen, decide_eq_false_iff_not]
      exact hgap.not_ge
  · rw [hpasses', hnext, List.length_append, List.length_singleton, hpasses]
  · rw [hsum', hsum, ← List.nil_append [obs], fixes_concat]
    exact zero_add _
  · rw [hn', hn, ← List.nil_append [obs], fixes_concat]
    exact Nat.zero_add _
  · exact hentries'.trans hentries

/-- A sighting of a cluster with no gap, that brings a recorded pass no fix. -/
theorem Books.continue {c : Cluster K} {os : List (DetectionObs K)} (h : c.Books passGapS os)
    (hgap : obs.t - c.lastSeen ≤ passGapS)
    (hkept : obs.ll ≠ none → c.passLlN = 0 → fixes (runningPass passGapS os) = []) :
    ((c.nextPass passGapS obs.t).absorb log obs).Books passGapS (os ++ [obs]) := by
  obtain ⟨closed, running, hsplit, hpasses, hrunning⟩ := h.split
  obtain ⟨hsum', hn', hentries', hpasses', hseen'⟩ :=
    (c.nextPass passGapS obs.t).absorb_books log obs
  have hnext : c.nextPass passGapS obs.t = c := if_neg hgap.not_gt
  have hlast : runningPass passGapS os = running := by
    unfold runningPass
    rw [hsplit, List.getLast?_concat]
    rfl
  rw [hlast] at hkept
  rw [hnext] at hsum' hn' hentries' hpasses' hseen' ⊢
  have hjoin : passes passGapS (os ++ [obs]) = closed ++ [running ++ [obs]] := by
    refine Grouping.splitBy_join hsplit fun y hy => ?_
    have hne : os ≠ [] := by
      intro hnil
      have hseen := h.seen
      simp [hnil] at hseen
    obtain ⟨groups, last, hgroups, hend⟩ := Grouping.exists_last_group
      (fun a b : DetectionObs K => decide (b.t - a.t ≤ passGapS)) hne
    have hsame : running = last := by
      have heq : closed ++ [running] = groups ++ [last] := hsplit.symm.trans hgroups
      exact (List.append_inj' heq rfl).2 |> List.singleton_inj.mp
    have hseen := h.seen
    rw [← hend, ← hsame, hy, Option.map_some, Option.some.injEq] at hseen
    rw [hseen, decide_eq_true_eq]
    exact hgap
  refine ⟨?_, closed, running ++ [obs], hjoin, hpasses'.trans hpasses, ?_⟩
  · rw [List.getLast?_concat, hseen']
    rfl
  · cases hrunning with
    | added sum n entries =>
      refine .added ?_ ?_ (hentries'.trans entries)
      · rw [hsum', sum, fixes_concat, List.sum_append]
      · rw [hn', n, fixes_concat, List.length_append]
    | recorded fixed sum n entries =>
      have hnone : obs.ll = none := by
        by_contra hsome
        exact fixed (hkept hsome n)
      refine .recorded ?_ ?_ ?_ ?_
      · rw [fixes_concat, hnone, Option.toList_none, List.append_nil]
        exact fixed
      · rw [hsum', sum, hnone]
        exact add_zero _
      · rw [hn', n, hnone]
        rfl
      · rw [hentries', entries, banked_concat, banked_concat, passMean_concat_of_none _ _ hnone]

/-- A pass with a fix has a mean. -/
theorem banked_map (ps : List (List (DetectionObs K))) :
    (banked ps).map some = (ps.filter fun pass => fixes pass ≠ []).map passMean := by
  induction ps with
  | nil => rfl
  | cons pass ps ih =>
    unfold banked at ih ⊢
    by_cases hfixes : fixes pass = []
    · have hnone : passMean pass = none := by
        unfold passMean
        rw [hfixes]
        rfl
      rw [List.filterMap_cons_none hnone, List.filter_cons_of_neg (by simpa using hfixes), ih]
    · have hsome : passMean pass = some ((fixes pass).sum.1 / (fixes pass).length,
          (fixes pass).sum.2 / (fixes pass).length) :=
        if_pos (List.length_pos_iff.mpr hfixes)
      rw [List.filterMap_cons_some hsome, List.filter_cons_of_pos (by simpa using hfixes),
        List.map_cons, List.map_cons, ih, hsome]

theorem Books.oneFixPerPass {c : Cluster K} {os : List (DetectionObs K)}
    (h : c.Books passGapS os) : c.OneFixPerPass passGapS os := by
  obtain ⟨closed, running, hsplit, hpasses, hrunning⟩ := h.split
  have hentries : ∃ ps, ps.Sublist (passes passGapS os) ∧ c.llPerPass = banked ps := by
    cases hrunning with
    | added sum n entries =>
      refine ⟨closed, ?_, entries⟩
      rw [hsplit]
      exact List.sublist_append_left _ _
    | recorded fixed sum n entries =>
      refine ⟨closed ++ [running], ?_, entries⟩
      rw [hsplit]
  obtain ⟨ps, hsub, hbanked⟩ := hentries
  have hcount : c.nPasses = (passes passGapS os).length := by
    rw [hsplit, List.length_append, List.length_singleton, hpasses]
  refine ⟨ps.filter fun pass => fixes pass ≠ [], List.filter_sublist.trans hsub, ?_, ?_, hcount, ?_⟩
  · intro pass hpass
    simpa using (List.mem_filter.mp hpass).2
  · rw [hbanked, banked_map]
  · rw [hcount, hbanked]
    exact (List.length_filterMap_le _ _).trans hsub.length_le

end Cluster

namespace MineLog

/-- What is known of the log and of the passes after calls with these joins. -/
structure Booked (passGapS : K) (log : MineLog K) (js : List (ℕ × DetectionObs K)) : Prop where
  gap : log.passGapS = passGapS
  inside : ∀ j ∈ js, j.1 < log.clusters.length
  held : ∀ i c, log.clusters[i]? = some c → Cluster.Books passGapS c (members i js)

variable {passGapS : K} {log : MineLog K} {js : List (ℕ × DetectionObs K)}

theorem Booked.ingest (h : log.Booked passGapS js) {obs : DetectionObs K}
    (hkept : ¬log.Reopens js obs) :
    (log.ingest obs).Booked passGapS (js ++ [(log.joined obs, obs)]) := by
  obtain rfl := h.gap
  refine ⟨rfl, inside_ingest h.inside obs, ?_⟩
  refine ingest_held h.inside h.held obs (Cluster.books_found _) fun c hc => ?_
  by_cases hgap : obs.t - c.lastSeen > log.passGapS
  · exact (h.held _ c hc).begin hgap
  · refine (h.held _ c hc).continue (not_lt.mp hgap) fun hfix hn => ?_
    by_contra hrecorded
    exact hkept ⟨c, hc, not_lt.mp hgap, hfix, hn, hrecorded⟩

theorem Booked.finalize (h : log.Booked passGapS js) : log.finalize.Booked passGapS js := by
  refine ⟨h.gap, ?_, finalize_held h.held fun _ _ hc => hc.close⟩
  have hmap : log.finalize.clusters = log.clusters.map Cluster.closePass := rfl
  rw [hmap, List.length_map]
  exact h.inside

theorem joins_concat (log : MineLog K) (cs : List (LogCall K)) (c : LogCall K) :
    log.joins (cs ++ [c]) = log.joins cs ++ (log.calls cs).joins [c] := by
  induction cs generalizing log with
  | nil => rfl
  | cons b cs ih =>
    cases b with
    | ingest obs => exact congrArg ((log.joined obs, obs) :: ·) (ih (log.ingest obs))
    | finalize => exact ih log.finalize

theorem calls_concat (log : MineLog K) (cs : List (LogCall K)) (c : LogCall K) :
    log.calls (cs ++ [c]) = (log.calls cs).call c := by
  unfold calls
  rw [List.foldl_append]
  rfl

/-- The books are kept by every run of which no step reopens a recorded pass. -/
theorem Booked.calls (h : log.Booked passGapS []) (cs : List (LogCall K))
    (hkept : ∀ done obs rest, cs = done ++ LogCall.ingest obs :: rest →
      ¬(log.calls done).Reopens (log.joins done) obs) :
    (log.calls cs).Booked passGapS (log.joins cs) := by
  induction cs using List.reverseRecOn with
  | nil => exact h
  | append_singleton cs c ih =>
    have hbefore : (log.calls cs).Booked passGapS (log.joins cs) := by
      refine ih fun done obs rest hcs => hkept done obs (rest ++ [c]) ?_
      rw [hcs]
      simp
    rw [calls_concat, joins_concat]
    cases c with
    | ingest obs => exact hbefore.ingest (hkept cs obs [] rfl)
    | finalize =>
      rw [joins, joins, List.append_nil]
      exact hbefore.finalize

/-- In a run of which no step reopens a recorded pass, every cluster has at all times at
most one entry for a pass, each entry the mean fix of one whole pass; and closing the
passes twice is closing them once. -/
theorem one_fix_per_pass (gateM passGapS : K) (confirmObs confirmPasses : ℕ)
    (cs : List (LogCall K))
    (hkept : ∀ done obs rest, cs = done ++ LogCall.ingest obs :: rest →
      ¬((init gateM passGapS confirmObs confirmPasses).calls done).Reopens
        ((init gateM passGapS confirmObs confirmPasses).joins done) obs) :
    ∀ done rest, cs = done ++ rest →
      let start := init gateM passGapS confirmObs confirmPasses
      let log := start.calls done
      (∀ i c, log.clusters[i]? = some c →
        Cluster.OneFixPerPass passGapS c (members i (start.joins done))) ∧
      log.finalize.finalize = log.finalize := by
  intro done rest hcs start log
  have hempty : start.Booked passGapS [] := ⟨rfl, by simp, by simp [start, init]⟩
  have hdone : log.Booked passGapS (start.joins done) := by
    refine hempty.calls done fun before obs after hdone => hkept before obs (after ++ rest) ?_
    rw [hcs, hdone]
    simp
  refine ⟨fun i c hc => (hdone.held i c hc).oneFixPerPass, ?_⟩
  unfold finalize
  rw [List.map_map]
  rfl

/-- A fix at the origin. -/
def sighting (t : ℚ) (ll : Point2 ℚ) : DetectionObs ℚ where
  t
  groundLocal := (0, 0)
  conf := 1
  classId := "mine"
  ll := some ll

/-- Two passes, with the dump after the second. -/
def twoPasses : List (LogCall ℚ) :=
  [.ingest (sighting 0 (1, 1)), .ingest (sighting 9 (3, 1)), .finalize]

theorem one_fix_per_pass_two :
    let start : MineLog ℚ := init 1 5 5 2
    let log := start.calls twoPasses
    (∀ i c, log.clusters[i]? = some c →
      Cluster.OneFixPerPass 5 c (members i (start.joins twoPasses))) ∧
    log.finalize.finalize = log.finalize := by
  refine one_fix_per_pass 1 5 5 2 twoPasses (fun done obs rest hcs => ?_) twoPasses [] rfl
  have hfirst : ∀ c ∈ ((init 1 5 5 2).calls [.ingest (sighting 0 (1, 1))]).clusters,
      ¬(sighting 9 (3, 1)).t - c.lastSeen ≤ 5 := by
    decide +kernel
  rintro ⟨c, hc, hgap, -⟩
  cases done with
  | nil => simp [init, calls] at hc
  | cons first done =>
    cases done with
    | nil =>
      simp only [twoPasses, List.cons_append, List.nil_append, List.cons.injEq,
        LogCall.ingest.injEq] at hcs
      obtain ⟨rfl, rfl, -⟩ := hcs
      exact hfirst c (List.mem_of_getElem? hc) hgap
    | cons second done =>
      cases done with
      | nil => simp [twoPasses] at hcs
      | cons third done => simp [twoPasses] at hcs

/-- The dump after the first of two sightings of one pass. -/
theorem reopened_pass_twice : ¬∀ (cs : List (LogCall ℚ)) (i : ℕ) (c : Cluster ℚ),
    ((init 1 5 5 2).calls cs).clusters[i]? = some c →
      c.OneFixPerPass 5 (members i ((init 1 5 5 2).joins cs)) := by
  intro h
  have hentries : (((init 1 5 5 2).calls [.ingest (sighting 0 (1, 1)), .finalize,
      .ingest (sighting 1 (3, 1)), .finalize]).clusters[0]?.map fun c =>
        decide (c.llPerPass.length ≤ c.nPasses)) = some false := by
    decide +kernel
  obtain ⟨c, hc, hlong⟩ := Option.map_eq_some_iff.mp hentries
  obtain ⟨_, _, _, _, _, hle⟩ := h _ 0 c hc
  exact of_decide_eq_false hlong hle

end MineLog

end Mission10.Engine
