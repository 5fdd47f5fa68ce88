import Mission10.Engine.MineLog
import Mission10.Library.Numerals
import Mission10.Library.Plane

/-!
# The observations of a cluster

Every observation is taken in by one cluster, the nearest one at that time or a new one.
The membership depends on centroids that move with every observation, but the running
count, centroid and spread of a cluster are at all times those of the observations that it
has taken in.
-/
namespace Mission10.Engine

set_option linter.unusedSectionVars false

open WeightedMean MathOps

variable {K : Type*} [Field K] [LinearOrder K] [IsStrictOrderedRing K] [MathOps K]

/-- The root of the mean squared deviation of a cluster. -/
def Cluster.spreadM (c : Cluster K) : K :=
  if c.weight ≤ 0 then 0 else sqrt (c.sqDevSum / c.weight)

/-- A call on the log by the detections or by the dump. -/
inductive LogCall (K : Type*)
  | ingest (obs : DetectionObs K)
  | finalize

/-- The observation that a call brings. -/
def LogCall.obs? : LogCall K → Option (DetectionObs K)
  | .ingest obs => some obs
  | .finalize => none

namespace MineLog

/-- The log as the constructor makes it. -/
def init (gateM passGapS : K) (confirmObs confirmPasses : ℕ) : MineLog K where
  gateM
  passGapS
  confirmObs
  confirmPasses
  clusters := []
  nIngested := 0

variable (log : MineLog K)

def call : LogCall K → MineLog K
  | .ingest obs => log.ingest obs
  | .finalize => log.finalize

def calls (cs : List (LogCall K)) : MineLog K := cs.foldl call log

/-- The index of the cluster that an observation joins. -/
def joined (obs : DetectionObs K) : ℕ :=
  match log.nearest obs.groundLocal with
  | none => log.clusters.length
  | some (i, d) => if d > log.gateM then log.clusters.length else i

/-- The observations of a list of calls, each with the cluster it joins. -/
def joins : MineLog K → List (LogCall K) → List (ℕ × DetectionObs K)
  | _, [] => []
  | log, .ingest obs :: cs => (log.joined obs, obs) :: (log.ingest obs).joins cs
  | log, .finalize :: cs => log.finalize.joins cs

end MineLog

/-- The observations that a cluster has taken in, in their order. -/
def members (i : ℕ) (js : List (ℕ × DetectionObs K)) : List (DetectionObs K) :=
  (js.filter fun j => j.1 = i).map Prod.snd

theorem members_concat (i : ℕ) (js : List (ℕ × DetectionObs K)) (j : ℕ × DetectionObs K) :
    members i (js ++ [j]) = members i js ++ if j.1 = i then [j.2] else [] := by
  unfold members
  rw [List.filter_append, List.map_append]
  split_ifs with h <;> simp [h]

theorem members_eq_nil {i : ℕ} {js : List (ℕ × DetectionObs K)} (h : ∀ j ∈ js, j.1 < i) :
    members i js = [] := by
  unfold members
  rw [List.map_eq_nil_iff, List.filter_eq_nil_iff]
  intro j hj
  have hlt := h j hj
  simp only [decide_eq_true_eq]
  omega

namespace MineLog

variable {log : MineLog K}

/-- The nearest cluster is one of the log. -/
theorem nearest_lt {p : Point2 K} {i : ℕ} {d : K} (h : log.nearest p = some (i, d)) :
    i < log.clusters.length := by
  have hfold : ∀ (entries : List (Cluster K × ℕ)) (best : Option (ℕ × K)),
      (∀ e ∈ entries, e.2 < log.clusters.length) →
        (∀ b, best = some b → b.1 < log.clusters.length) →
          ∀ b, entries.foldl (nearer p) best = some b → b.1 < log.clusters.length := by
    intro entries
    induction entries with
    | nil => exact fun best _ hbest b hb => hbest b hb
    | cons entry entries ih =>
      intro best hentries hbest
      obtain ⟨hentry, hrest⟩ := List.forall_mem_cons.mp hentries
      refine ih _ hrest fun b hb => ?_
      unfold nearer at hb
      dsimp only at hb
      split at hb
      · rw [← Option.some.inj hb]
        exact hentry
      · split_ifs at hb
        · rw [← Option.some.inj hb]
          exact hentry
        · rw [← Option.some.inj hb]
          exact hbest _ rfl
  have hentries : ∀ e ∈ log.clusters.zipIdx, e.2 < log.clusters.length := by
    intro e he
    have hlt := List.snd_lt_of_mem_zipIdx he
    simpa using hlt
  exact hfold _ none hentries (by simp) _ h

/-- What an observation does to the clusters. -/
theorem ingest_clusters (log : MineLog K) (obs : DetectionObs K) :
    (log.joined obs = log.clusters.length ∧ (log.ingest obs).clusters =
        log.clusters ++ [(Cluster.found log.clusters.length obs).absorb log obs]) ∨
      (log.joined obs < log.clusters.length ∧ (log.ingest obs).clusters =
        log.clusters.modify (log.joined obs) fun c =>
          (c.nextPass log.passGapS obs.t).absorb log obs) := by
  unfold joined ingest
  dsimp only
  cases hnearest : log.nearest obs.groundLocal with
  | none => exact Or.inl ⟨rfl, rfl⟩
  | some best =>
    obtain ⟨i, d⟩ := best
    dsimp only
    split_ifs with hfar
    · exact Or.inl ⟨rfl, rfl⟩
    · exact Or.inr ⟨nearest_lt hnearest, rfl⟩

/-- Every observation that was taken in is in a cluster of the log. -/
theorem inside_ingest {js : List (ℕ × DetectionObs K)}
    (hinside : ∀ j ∈ js, j.1 < log.clusters.length) (obs : DetectionObs K) :
    ∀ j ∈ js ++ [(log.joined obs, obs)], j.1 < (log.ingest obs).clusters.length := by
  have hlength : log.clusters.length ≤ (log.ingest obs).clusters.length ∧
      log.joined obs < (log.ingest obs).clusters.length := by
    obtain ⟨hnew, hclusters⟩ | ⟨hlt, hclusters⟩ := log.ingest_clusters obs
    · rw [hclusters, List.length_append, List.length_singleton]
      omega
    · rw [hclusters, List.length_modify]
      omega
  intro j hj
  obtain hj | hj := List.mem_append.mp hj
  · exact (hinside j hj).trans_le hlength.1
  · rw [List.mem_singleton.mp hj]
    exact hlength.2

/-- A property of every cluster with its observations is kept by an observation, if the
cluster that it joins keeps it. -/
theorem ingest_held {P : Cluster K → List (DetectionObs K) → Prop}
    {js : List (ℕ × DetectionObs K)} (hinside : ∀ j ∈ js, j.1 < log.clusters.length)
    (hheld : ∀ i c, log.clusters[i]? = some c → P c (members i js)) (obs : DetectionObs K)
    (hfound : P ((Cluster.found log.clusters.length obs).absorb log obs) [obs])
    (hjoin : ∀ c, log.clusters[log.joined obs]? = some c →
      P ((c.nextPass log.passGapS obs.t).absorb log obs)
        (members (log.joined obs) js ++ [obs])) :
    ∀ i c, (log.ingest obs).clusters[i]? = some c →
      P c (members i (js ++ [(log.joined obs, obs)])) := by
  intro i c hc
  rw [members_concat]
  obtain ⟨hnew, hclusters⟩ | ⟨hlt, hclusters⟩ := log.ingest_clusters obs
  · rw [hclusters, List.getElem?_append] at hc
    split_ifs at hc with hold
    · rw [if_neg (by dsimp only; omega), List.append_nil]
      exact hheld i c hc
    · rw [List.getElem?_singleton] at hc
      split_ifs at hc with hlast
      have hsame : i = log.clusters.length := by omega
      rw [if_pos (by dsimp only; omega), hsame, members_eq_nil hinside, ← Option.some.inj hc]
      exact hfound
  · rw [hclusters, List.getElem?_modify] at hc
    obtain ⟨old, hold, rfl⟩ := Option.map_eq_some_iff.mp hc
    by_cases hsame : log.joined obs = i
    · rw [if_pos hsame, if_pos hsame, ← hsame]
      rw [← hsame] at hold
      exact hjoin old hold
    · rw [if_neg hsame, if_neg hsame, List.append_nil]
      exact hheld i old hold

theorem finalize_held {P Q : Cluster K → List (DetectionObs K) → Prop}
    {js : List (ℕ × DetectionObs K)}
    (hheld : ∀ i c, log.clusters[i]? = some c → P c (members i js))
    (hclose : ∀ c os, P c os → Q c.closePass os) :
    ∀ i c, log.finalize.clusters[i]? = some c → Q c (members i js) := by
  intro i c hc
  have hmap : log.finalize.clusters = log.clusters.map Cluster.closePass := rfl
  rw [hmap, List.getElem?_map] at hc
  obtain ⟨old, hold, rfl⟩ := Option.map_eq_some_iff.mp hc
  exact hclose old _ (hheld i old hold)

/-! ### Counts and centroids -/

end MineLog

/-- An observation with its weight. -/
def weighted (obs : DetectionObs K) : K × Point2 K := (max obs.conf (1 / 10 ^ 6), obs.groundLocal)

/-- The running moments of a cluster. -/
def Cluster.moments (c : Cluster K) : Moments K := ⟨c.weight, c.centroid, c.sqDevSum⟩

/-- The running values of a cluster are those of its observations. -/
structure Cluster.Holds (c : Cluster K) (os : List (DetectionObs K)) : Prop where
  nObs : c.nObs = os.length
  moments : c.moments.Of (os.map weighted)
  weight_pos : 0 < c.weight

theorem clamp_pos (x : K) : 0 < max x (1 / 10 ^ 6) :=
  lt_max_of_lt_right (by positivity)

namespace Cluster

variable (log : MineLog K) (obs : DetectionObs K)

theorem climb_moments (tagId : Option String) (c : Cluster K) :
    (c.climb log tagId).moments = c.moments ∧ (c.climb log tagId).nObs = c.nObs := by
  unfold climb
  split
  · exact ⟨rfl, rfl⟩
  · split_ifs <;> exact ⟨rfl, rfl⟩

theorem absorb_moments (c : Cluster K) :
    (c.absorb log obs).moments = c.moments.absorb (weighted obs).1 (weighted obs).2 ∧
      (c.absorb log obs).nObs = c.nObs + 1 := by
  have hmean : (⟨c.weight + (weighted obs).1,
      (c.centroid.1 + (obs.groundLocal.1 - c.centroid.1) * (weighted obs).1 /
          (c.weight + (weighted obs).1),
        c.centroid.2 + (obs.groundLocal.2 - c.centroid.2) * (weighted obs).1 /
          (c.weight + (weighted obs).1)),
      c.sqDevSum + (weighted obs).1 * ((obs.groundLocal.1 - c.centroid.1) *
        (obs.groundLocal.1 - c.centroid.1) + (obs.groundLocal.2 - c.centroid.2) *
          (obs.groundLocal.2 - c.centroid.2)) * (c.weight / (c.weight + (weighted obs).1))⟩ :
      Moments K) = c.moments.absorb (weighted obs).1 (weighted obs).2 := by
    unfold Moments.absorb moments
    congr 1
    apply Prod.ext
    · simp only [weighted, Prod.fst_add, Prod.smul_fst, Prod.fst_sub, smul_eq_mul]
      ring
    · simp only [weighted, Prod.snd_add, Prod.smul_snd, Prod.snd_sub, smul_eq_mul]
      ring
  unfold absorb
  dsimp only
  rw [(climb_moments log obs.tagId _).1, (climb_moments log obs.tagId _).2, ← hmean]
  cases obs.ll with
  | none => exact ⟨rfl, rfl⟩
  | some ll => exact ⟨rfl, rfl⟩

theorem nextPass_moments (passGapS t : K) (c : Cluster K) :
    (c.nextPass passGapS t).moments = c.moments ∧ (c.nextPass passGapS t).nObs = c.nObs := by
  unfold nextPass
  split_ifs <;> exact ⟨rfl, rfl⟩

variable {log obs}

/-- A cluster of no weight yet, or one that holds observations, takes in one more. -/
theorem holds_absorb {c : Cluster K} {os : List (DetectionObs K)} (hcount : c.nObs = os.length)
    (hmoments : c.moments.Of (os.map weighted)) (hweight : 0 ≤ c.weight) :
    (c.absorb log obs).Holds (os ++ [obs]) := by
  obtain ⟨habsorb, hobs⟩ := c.absorb_moments log obs
  have hsum : 0 < c.weight + (weighted obs).1 := add_pos_of_nonneg_of_pos hweight (clamp_pos _)
  refine ⟨?_, ?_, ?_⟩
  · rw [hobs, hcount, List.length_append, List.length_singleton]
  · rw [habsorb, List.map_append]
    exact hmoments.absorb hsum.ne' _
  · have hnew : (c.absorb log obs).weight = c.weight + (weighted obs).1 :=
      congrArg Moments.weight habsorb
    rw [hnew]
    exact hsum

theorem Holds.join {c : Cluster K} {os : List (DetectionObs K)} (h : c.Holds os) (passGapS : K) :
    ((c.nextPass passGapS obs.t).absorb log obs).Holds (os ++ [obs]) := by
  obtain ⟨hmoments, hobs⟩ := nextPass_moments passGapS obs.t c
  have hweight : (c.nextPass passGapS obs.t).weight = c.weight := congrArg Moments.weight hmoments
  refine holds_absorb (hobs.trans h.nObs) ?_ (hweight.ge.trans' h.weight_pos.le)
  rw [hmoments]
  exact h.moments

theorem holds_found (id : ℕ) : ((Cluster.found id obs).absorb log obs).Holds [obs] := by
  have hempty : (Cluster.found id obs).moments.Of (([] : List (DetectionObs K)).map weighted) :=
    Moments.of_nil _
  exact holds_absorb rfl hempty le_rfl

theorem Holds.close {c : Cluster K} {os : List (DetectionObs K)} (h : c.Holds os) :
    c.closePass.Holds os := ⟨h.nObs, h.moments, h.weight_pos⟩

/-- The centroid and the spread are the batch values. -/
theorem Holds.batch {c : Cluster K} {os : List (DetectionObs K)} (h : c.Holds os) :
    c.centroid = (total (os.map weighted))⁻¹ • weightedSum (os.map weighted) ∧
      c.sqDevSum = deviation c.centroid (os.map weighted) ∧
      c.spreadM = sqrt (deviation c.centroid (os.map weighted) / total (os.map weighted)) := by
  refine ⟨h.moments.mean_eq h.weight_pos.ne', h.moments.deviation, ?_⟩
  unfold spreadM
  rw [if_neg h.weight_pos.not_ge, ← h.moments.weight]
  exact congrArg (fun x => sqrt (x / c.weight)) h.moments.deviation

end Cluster

namespace MineLog

/-- What is known of the log after calls with these joins. -/
structure Accumulated (log : MineLog K) (js : List (ℕ × DetectionObs K)) : Prop where
  inside : ∀ j ∈ js, j.1 < log.clusters.length
  ingested : log.nIngested = js.length
  counted : (log.clusters.map Cluster.nObs).sum = js.length
  held : ∀ i c, log.clusters[i]? = some c → Cluster.Holds c (members i js)

/-- One term of a sum grows by one. -/
theorem sum_modify {α : Type*} {f : α → α} {g : α → ℕ} (hf : ∀ a, g (f a) = g a + 1) :
    ∀ (xs : List α) (i : ℕ), i < xs.length → ((xs.modify i f).map g).sum = (xs.map g).sum + 1 := by
  intro xs
  induction xs with
  | nil => simp
  | cons x xs ih =>
    intro i hi
    cases i with
    | zero =>
      simp only [List.modify_zero_cons, List.map_cons, List.sum_cons, hf]
      omega
    | succ i =>
      simp only [List.modify_succ_cons, List.map_cons, List.sum_cons]
      rw [ih i (by simpa using hi)]
      omega

theorem Accumulated.ingest {log : MineLog K} {js : List (ℕ × DetectionObs K)}
    (h : log.Accumulated js) (obs : DetectionObs K) :
    (log.ingest obs).Accumulated (js ++ [(log.joined obs, obs)]) := by
  have hgrows : ∀ c : Cluster K, ((c.nextPass log.passGapS obs.t).absorb log obs).nObs =
      c.nObs + 1 := by
    intro c
    rw [(Cluster.absorb_moments log obs _).2, (Cluster.nextPass_moments _ _ c).2]
  refine ⟨inside_ingest h.inside obs, ?_, ?_, ?_⟩
  · rw [List.length_append, List.length_singleton, ← h.ingested]
    rfl
  · rw [List.length_append, List.length_singleton, ← h.counted]
    obtain ⟨-, hclusters⟩ | ⟨hlt, hclusters⟩ := log.ingest_clusters obs
    · rw [hclusters, List.map_append, List.sum_append]
      have hone : ((Cluster.found log.clusters.length obs).absorb log obs).nObs = 1 :=
        (Cluster.holds_found log.clusters.length).nObs
      simpa using hone
    · rw [hclusters]
      exact sum_modify hgrows _ _ hlt
  · exact ingest_held h.inside h.held obs (Cluster.holds_found _) fun c hc =>
      (h.held _ c hc).join log.passGapS

theorem Accumulated.finalize {log : MineLog K} {js : List (ℕ × DetectionObs K)}
    (h : log.Accumulated js) : log.finalize.Accumulated js := by
  have hmap : log.finalize.clusters = log.clusters.map Cluster.closePass := rfl
  refine ⟨?_, h.ingested, ?_, finalize_held h.held fun _ _ hc => hc.close⟩
  · rw [hmap, List.length_map]
    exact h.inside
  · rw [← h.counted, hmap, List.map_map]
    rfl

theorem Accumulated.calls {log : MineLog K} {js : List (ℕ × DetectionObs K)}
    (h : log.Accumulated js) (cs : List (LogCall K)) :
    (log.calls cs).Accumulated (js ++ log.joins cs) := by
  induction cs generalizing log js with
  | nil =>
    change log.Accumulated (js ++ [])
    rwa [List.append_nil]
  | cons c cs ih =>
    cases c with
    | ingest obs =>
      have hrest := ih (h.ingest obs)
      rwa [List.append_assoc, List.singleton_append] at hrest
    | finalize => exact ih h.finalize

/-- The observations of the calls, each once. -/
theorem joins_obs (log : MineLog K) (cs : List (LogCall K)) :
    (log.joins cs).map Prod.snd = cs.filterMap LogCall.obs? := by
  induction cs generalizing log with
  | nil => rfl
  | cons c cs ih =>
    cases c with
    | ingest obs => simp [joins, LogCall.obs?, ih]
    | finalize => exact ih log.finalize

/-- After every sequence of calls: every observation was taken in by one cluster of the
log, the counts of the clusters add up to the number ingested, and the count, centroid and
spread of a cluster are those of its observations, weighted by their clamped confidence. -/
theorem clusters_accumulate (gateM passGapS : K) (confirmObs confirmPasses : ℕ)
    (cs : List (LogCall K)) :
    let start := init gateM passGapS confirmObs confirmPasses
    let log := start.calls cs
    let js := start.joins cs
    js.map Prod.snd = cs.filterMap LogCall.obs? ∧
      (∀ j ∈ js, j.1 < log.clusters.length) ∧
      (log.clusters.map Cluster.nObs).sum = log.nIngested ∧ log.nIngested = js.length ∧
      ∀ i c, log.clusters[i]? = some c →
        let points := (members i js).map weighted
        c.nObs = (members i js).length ∧
          c.centroid = (total points)⁻¹ • weightedSum points ∧
          c.sqDevSum = deviation c.centroid points ∧
          c.spreadM = sqrt (deviation c.centroid points / total points) := by
  intro start log js
  have hempty : start.Accumulated [] := ⟨by simp, rfl, rfl, by simp [start, init]⟩
  have hall : log.Accumulated js := hempty.calls cs
  refine ⟨start.joins_obs cs, hall.inside, hall.counted.trans hall.ingested.symm, hall.ingested, ?_⟩
  intro i c hc
  exact ⟨(hall.held i c hc).nObs, (hall.held i c hc).batch⟩

/-- A hit of weight one. -/
def hitAt (t : ℚ) (p : Point2 ℚ) : DetectionObs ℚ where
  t
  groundLocal := p
  conf := 1
  classId := "mine"

/-- Two hits within the gate, and one far off. -/
theorem clusters_accumulate_three :
    let start : MineLog ℚ := init 1 5 5 2
    let log := start.calls [.ingest (hitAt 0 (0, 0)), .ingest (hitAt 1 (1 / 2, 0)), .finalize,
      .ingest (hitAt 2 (9, 9))]
    (log.clusters.map Cluster.nObs).sum = log.nIngested ∧ log.nIngested = 3 := by
  obtain ⟨-, -, hsum, hcount, -⟩ := clusters_accumulate (1 : ℚ) 5 5 2
    [.ingest (hitAt 0 (0, 0)), .ingest (hitAt 1 (1 / 2, 0)), .finalize, .ingest (hitAt 2 (9, 9))]
  exact ⟨hsum, hcount.trans rfl⟩

end MineLog

end Mission10.Engine
