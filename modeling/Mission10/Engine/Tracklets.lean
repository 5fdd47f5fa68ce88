import Mission10.Engine.Associate
import Mission10.Engine.MineLog
import Mission10.Library.Dict
import Mission10.Library.Outcome

/-!
# Forming the tracklets of a pass

The detections of a pass are clustered by class, in the order of their times, each with the
row of the nearest mean. A row becomes a tracklet: the points beyond the cut around the
median are dropped, and the center is the weighted mean of the rest. The cut is at least
one of the radii, so a point is always kept, and nothing is divided by zero.
-/
namespace Mission10.Engine.Associate

open MathOps Outcome

set_option linter.unusedSectionVars false

variable {K : Type*} [Field K] [LinearOrder K] [MathOps K]

/-- What the interpreter raises. -/
inductive Failure
  | indexError
  | zeroDivisionError
deriving DecidableEq, Repr

/-- `a / b`. -/
def quotient (a b : K) : Except Failure K :=
  if b = 0 then .error .zeroDivisionError else .ok (a / b)

/-- `xs[i]`. -/
def item {α : Type*} (xs : List α) (i : ℕ) : Except Failure α := getOr xs[i]? .indexError

/-- `sorted`. -/
def sorted (xs : List K) : List K := xs.mergeSort fun a b => decide (a ≤ b)

/-- The members of one cluster. -/
abbrev Row (K : Type*) := List (DetectionObs K)

/-- The clamped confidence. -/
def confidence (m : DetectionObs K) : K := max m.conf (1 / 10 ^ 6)

/-- The mean place of the members of a row. -/
def rowCenter (members : Row K) : Except Failure (Point2 K) := do
  let cn ← quotient (members.map fun m => m.groundLocal.1).sum members.length
  let ce ← quotient (members.map fun m => m.groundLocal.2).sum members.length
  return (cn, ce)

/-- The distance of an observation from a point. -/
def radius (p : Point2 K) (m : DetectionObs K) : K :=
  hypot (m.groundLocal.1 - p.1) (m.groundLocal.2 - p.2)

/-- The nearer one of the best row so far and the next. -/
def pickRow (best : Option (ℕ × K)) (i : ℕ) (d : K) : Option (ℕ × K) :=
  match best with
  | none => some (i, d)
  | some (j, bestD) => if d < bestD then some (i, d) else some (j, bestD)

/-- The nearest row and its distance. -/
def nearestRow (rows : List (Row K)) (obs : DetectionObs K) : Except Failure (Option (ℕ × K)) :=
  rows.zipIdx.foldlM (fun best entry => do
    let center ← rowCenter entry.1
    return pickRow best entry.2 (radius center obs)) none

/-- The rows of a class with one more observation. -/
def joinRow (gateM : K) (rows : List (Row K)) (obs : DetectionObs K) :
    Except Failure (List (Row K)) := do
  let best ← nearestRow rows obs
  return match best with
    | none => rows ++ [[obs]]
    | some (i, d) => if d > gateM then rows ++ [[obs]] else rows.modify i (· ++ [obs])

/-- The rows of all classes with one more observation. -/
def cluster (gateM : K) (clusters : Dict String (List (Row K))) (obs : DetectionObs K) :
    Except Failure (Dict String (List (Row K))) := do
  let rows ← joinRow gateM ((clusters.get obs.classId).getD []) obs
  return clusters.set obs.classId rows

/-- The members of a row within the cut around the median. -/
def trim (trimFloorM : K) (members : Row K) : Except Failure (Row K) := do
  let xs := sorted (members.map fun m => m.groundLocal.1)
  let ys := sorted (members.map fun m => m.groundLocal.2)
  let mn ← item xs (xs.length / 2)
  let me ← item ys (ys.length / 2)
  let radii := members.map (radius (mn, me))
  let p90 ← item (sorted radii) (max 0 (ceil (9 / 10 * (radii.length : K)) - 1)).toNat
  let cut := max trimFloorM p90
  return members.filter fun m => radius (mn, me) m ≤ cut

/-- The tags of the members, each once. -/
def tagsOf (members : Row K) : List String :=
  members.foldl (fun tags m =>
    match m.tagId with
    | some tag => if tag ∈ tags then tags else tags ++ [tag]
    | none => tags) []

/-- The tracklet of a row. -/
def summarize (trimFloorM : K) (classId : String) (members : Row K) :
    Except Failure (Tracklet K) := do
  let kept ← trim trimFloorM members
  let w := (kept.map confidence).sum
  let cn ← quotient (kept.map fun m => m.groundLocal.1 * confidence m).sum w
  let ce ← quotient (kept.map fun m => m.groundLocal.2 * confidence m).sum w
  let variance ← quotient (kept.map fun m =>
    confidence m * ((m.groundLocal.1 - cn) ^ 2 + (m.groundLocal.2 - ce) ^ 2)).sum w
  let first ← item members 0
  let last ← item members (members.length - 1)
  return {
    center := (cn, ce)
    t0 := first.t
    t1 := last.t
    nObs := members.length
    weight := w
    spreadM := sqrt variance
    classId
    tagIds := tagsOf members }

/-- Cluster one pass's detections into tracklets. -/
def formTracklets (observations : List (DetectionObs K)) (gateM trimFloorM : K) :
    Except Failure (List (Tracklet K)) := do
  let ordered := observations.mergeSort fun a b => decide (a.t ≤ b.t)
  let clusters ← ordered.foldlM (cluster gateM) Dict.empty
  let out ← clusters.entries.mapM fun entry => entry.2.mapM (summarize trimFloorM entry.1)
  return out.flatten

/-! ### The rows -/

theorem quotient_ok (a : K) {b : K} (hb : b ≠ 0) : quotient a b = .ok (a / b) := if_neg hb

theorem item_ok {α : Type*} (xs : List α) {i : ℕ} (hi : i < xs.length) :
    ∃ x ∈ xs, item xs i = .ok x := by
  refine ⟨xs[i], List.getElem_mem hi, ?_⟩
  unfold item
  rw [List.getElem?_eq_getElem hi]
  rfl

section Rows

variable [IsStrictOrderedRing K]

theorem rowCenter_ok {members : Row K} (hne : members ≠ []) :
    ∃ center, rowCenter members = .ok center := by
  have hlength : (members.length : K) ≠ 0 :=
    Nat.cast_ne_zero.mpr (List.length_pos_iff.mpr hne).ne'
  unfold rowCenter
  rw [quotient_ok _ hlength, quotient_ok _ hlength]
  exact ⟨_, rfl⟩

theorem pickRow_eq_some {best : Option (ℕ × K)} {i j : ℕ} {d e : K}
    (h : pickRow best i d = some (j, e)) : j = i ∨ ∃ bestD, best = some (j, bestD) := by
  unfold pickRow at h
  cases best with
  | none =>
    obtain ⟨rfl, -⟩ := Prod.mk.inj (Option.some.inj h)
    exact Or.inl rfl
  | some found =>
    obtain ⟨k, bestD⟩ := found
    dsimp only at h
    split_ifs at h
    · obtain ⟨rfl, -⟩ := Prod.mk.inj (Option.some.inj h)
      exact Or.inl rfl
    · obtain ⟨rfl, -⟩ := Prod.mk.inj (Option.some.inj h)
      exact Or.inr ⟨bestD, rfl⟩

/-- The nearest row is one of the rows. -/
theorem nearestRow_ok {rows : List (Row K)} (hrows : ∀ row ∈ rows, row ≠ [])
    (obs : DetectionObs K) :
    ∃ best, nearestRow rows obs = .ok best ∧ ∀ i d, best = some (i, d) → i < rows.length := by
  refine foldlM_invariant (fun _ best => ∀ i d, best = some (i, d) → i < rows.length)
    (by simp) fun _ entry hentry best hbest => ?_
  obtain ⟨center, hcenter⟩ := rowCenter_ok (hrows entry.1 (List.fst_mem_of_mem_zipIdx hentry))
  refine ⟨pickRow best entry.2 (radius center obs), ?_, fun i d hpick => ?_⟩
  · rw [hcenter]
    rfl
  · obtain rfl | ⟨bestD, hsome⟩ := pickRow_eq_some hpick
    · simpa using List.snd_lt_of_mem_zipIdx hentry
    · exact hbest i bestD hsome

/-- An observation begins a row or joins one. -/
theorem joinRow_ok {rows : List (Row K)} (hrows : ∀ row ∈ rows, row ≠ []) (gateM : K)
    (obs : DetectionObs K) :
    ∃ rows', joinRow gateM rows obs = .ok rows' ∧ (rows' = rows ++ [[obs]] ∨
      ∃ front row back, rows = front ++ row :: back ∧
        rows' = front ++ (row ++ [obs]) :: back) := by
  obtain ⟨best, hbest, hlt⟩ := nearestRow_ok hrows obs
  unfold joinRow
  rw [hbest]
  cases best with
  | none => exact ⟨_, rfl, Or.inl rfl⟩
  | some found =>
    obtain ⟨i, d⟩ := found
    by_cases hfar : d > gateM
    · exact ⟨_, congrArg Except.ok (if_pos hfar), Or.inl rfl⟩
    · refine ⟨_, congrArg Except.ok (if_neg hfar), Or.inr ?_⟩
      have hi := hlt i d rfl
      refine ⟨rows.take i, rows[i], rows.drop (i + 1), ?_, ?_⟩
      · rw [List.getElem_cons_drop, List.take_append_drop]
      · rw [List.modify_eq_take_cons_drop hi]

/-- What is known of the clusters of the observations taken so far. -/
structure Clustered (clusters : Dict String (List (Row K))) (done : List (DetectionObs K)) :
    Prop where
  split : clusters.values.flatten.flatten.Perm done
  row : ∀ e ∈ clusters.entries, ∀ members ∈ e.2,
    members ≠ [] ∧ members.Sublist done ∧ ∀ m ∈ members, m.classId = e.1

/-- A row is one also when there are more observations. -/
theorem row_later {members done : List (DetectionObs K)} {classId : String}
    (obs : DetectionObs K)
    (h : members ≠ [] ∧ members.Sublist done ∧ ∀ m ∈ members, m.classId = classId) :
    members ≠ [] ∧ members.Sublist (done ++ [obs]) ∧ ∀ m ∈ members, m.classId = classId :=
  ⟨h.1, h.2.1.trans (List.sublist_append_left _ _), h.2.2⟩

/-- The rows of a class when an observation has become a row or joined one. -/
theorem joined_rows {rows rows' : List (Row K)} {done : List (DetectionObs K)}
    {obs : DetectionObs K}
    (hold : ∀ members ∈ rows, members ≠ [] ∧ members.Sublist done ∧
      ∀ m ∈ members, m.classId = obs.classId)
    (hcases : rows' = rows ++ [[obs]] ∨ ∃ front row back, rows = front ++ row :: back ∧
      rows' = front ++ (row ++ [obs]) :: back) :
    ∀ members ∈ rows', members ≠ [] ∧ members.Sublist (done ++ [obs]) ∧
      ∀ m ∈ members, m.classId = obs.classId := by
  intro members hmembers
  obtain rfl | ⟨front, row, back, rfl, rfl⟩ := hcases
  · obtain hmembers | hmembers := List.mem_append.mp hmembers
    · exact row_later obs (hold members hmembers)
    · rw [List.mem_singleton.mp hmembers]
      exact ⟨by simp, List.sublist_append_right _ _, by simp⟩
  · rw [List.mem_append, List.mem_cons] at hmembers
    obtain hmembers | rfl | hmembers := hmembers
    · exact row_later obs (hold members (by simp [hmembers]))
    · obtain ⟨-, hsub, hclass⟩ := hold row (by simp)
      refine ⟨by simp, hsub.append (List.Sublist.refl _), fun m hm => ?_⟩
      obtain hm | hm := List.mem_append.mp hm
      · exact hclass m hm
      · rw [List.mem_singleton.mp hm]
    · exact row_later obs (hold members (by simp [hmembers]))

theorem Clustered.step {clusters : Dict String (List (Row K))} {done : List (DetectionObs K)}
    (h : Clustered clusters done) (gateM : K) (obs : DetectionObs K) :
    ∃ clusters', cluster gateM clusters obs = .ok clusters' ∧
      Clustered clusters' (done ++ [obs]) := by
  classical
  set rows := (clusters.get obs.classId).getD [] with hrows
  have hold : ∀ members ∈ rows, members ≠ [] ∧ members.Sublist done ∧
      ∀ m ∈ members, m.classId = obs.classId := by
    intro members hmembers
    cases hget : clusters.get obs.classId with
    | none =>
      rw [hrows, hget] at hmembers
      simp at hmembers
    | some old =>
      rw [hrows, hget] at hmembers
      exact h.row _ ((clusters.get_eq_some_iff).mp hget) members hmembers
  obtain ⟨rows', hjoin, hcases⟩ := joinRow_ok (fun row hrow => (hold row hrow).1) gateM obs
  have hcount : ∀ m, rows'.flatten.count m = rows.flatten.count m + [obs].count m := by
    intro m
    obtain rfl | ⟨front, row, back, hsplit, rfl⟩ := hcases
    · simp only [List.flatten_append, List.count_append, List.flatten_singleton]
    · rw [hsplit]
      simp only [List.flatten_append, List.flatten_cons, List.count_append]
      omega
  have hnew := joined_rows hold hcases
  have hothers : ∀ e ∈ clusters.entries, ∀ members ∈ e.2, members ≠ [] ∧
      members.Sublist (done ++ [obs]) ∧ ∀ m ∈ members, m.classId = e.1 :=
    fun e he members hmembers => row_later obs (h.row e he members hmembers)
  refine ⟨clusters.set obs.classId rows', ?_, ?_, ?_⟩
  · unfold cluster
    rw [← hrows, hjoin]
    rfl
  · rw [List.perm_iff_count]
    intro m
    have hdone := List.perm_iff_count.mp h.split m
    have hrow := hcount m
    unfold Dict.values at hdone ⊢
    rw [List.count_append, ← hdone]
    obtain ⟨front, back, old, hentries, hget, hset⟩ | ⟨hget, hset⟩ :=
      clusters.set_split obs.classId rows'
    · have hsame : rows = old := by rw [hrows, hget, Option.getD_some]
      rw [hset, hentries]
      rw [hsame] at hrow
      simp only [List.map_append, List.map_cons, List.flatten_append, List.flatten_cons,
        List.count_append]
      omega
    · have hnil : rows = [] := by rw [hrows, hget, Option.getD_none]
      rw [hset]
      rw [hnil] at hrow
      simp only [List.map_append, List.map_cons, List.map_nil, List.flatten_append,
        List.flatten_cons, List.flatten_nil, List.count_append, List.append_nil, List.count_nil]
        at hrow ⊢
      omega
  · intro e he
    obtain ⟨front, back, old, hentries, hget, hset⟩ | ⟨hget, hset⟩ :=
      clusters.set_split obs.classId rows'
    · rw [hset, List.mem_append, List.mem_cons] at he
      obtain he | rfl | he := he
      · exact hothers e (by simp [hentries, he])
      · exact hnew
      · exact hothers e (by simp [hentries, he])
    · rw [hset] at he
      obtain he | he := List.mem_append.mp he
      · exact hothers e he
      · rw [List.mem_singleton.mp he]
        exact hnew

end Rows

/-! ### A row becomes a tracklet -/

/-- The tracklet of a row of one class: it counts all members, its times are in order, and
its center is a mix of the members that the trimming keeps, at least one. -/
structure Forms (trimFloorM : ℝ) (members : Row ℝ) (tk : Tracklet ℝ) : Prop where
  nObs : tk.nObs = members.length
  oneClass : ∀ m ∈ members, m.classId = tk.classId
  ordered : tk.t0 ≤ tk.t1
  mixed : ∃ kept, trim trimFloorM members = .ok kept ∧ kept ≠ [] ∧ kept.Sublist members ∧
    ∃ share : DetectionObs ℝ → ℝ, (∀ m ∈ kept, 0 < share m) ∧ (kept.map share).sum = 1 ∧
      tk.center = (kept.map fun m => share m • m.groundLocal).sum

/-- The rank of the cut is one of the radii. -/
theorem rank_lt {n : ℕ} (hn : 0 < n) :
    (max 0 (ceil (9 / 10 * (n : ℝ)) - 1)).toNat < n := by
  have hceil : ⌈9 / 10 * (n : ℝ)⌉ ≤ n := by
    rw [Int.ceil_le, Int.cast_natCast]
    have hpos : (0 : ℝ) ≤ n := Nat.cast_nonneg n
    linarith
  change (max 0 (⌈9 / 10 * (n : ℝ)⌉ - 1)).toNat < n
  omega

/-- The trimming keeps a member. -/
theorem trim_ok (trimFloorM : ℝ) {members : Row ℝ} (hne : members ≠ []) :
    ∃ kept, trim trimFloorM members = .ok kept ∧ kept ≠ [] ∧ kept.Sublist members := by
  have hpos : 0 < members.length := List.length_pos_iff.mpr hne
  have hmiddle : ∀ f : DetectionObs ℝ → ℝ,
      ∃ x, item (sorted (members.map f)) ((sorted (members.map f)).length / 2) = .ok x := by
    intro f
    have hlength : (sorted (members.map f)).length = members.length := by
      rw [sorted, List.length_mergeSort, List.length_map]
    have hhalf : (sorted (members.map f)).length / 2 < (sorted (members.map f)).length := by
      omega
    obtain ⟨x, -, hx⟩ := item_ok _ hhalf
    exact ⟨x, hx⟩
  obtain ⟨mn, hmn⟩ := hmiddle fun m => m.groundLocal.1
  obtain ⟨me, hme⟩ := hmiddle fun m => m.groundLocal.2
  have hrank : (max 0 (ceil (9 / 10 * ((members.map (radius (mn, me))).length : ℝ)) - 1)).toNat <
      (sorted (members.map (radius (mn, me)))).length := by
    rw [sorted, List.length_mergeSort, List.length_map]
    exact rank_lt hpos
  obtain ⟨p90, hmem, hp90⟩ := item_ok _ hrank
  refine ⟨members.filter fun m => radius (mn, me) m ≤ max trimFloorM p90, ?_, ?_,
    List.filter_sublist⟩
  · unfold trim
    dsimp only
    rw [hmn, hme]
    dsimp only [bind, Except.bind]
    rw [hp90]
    rfl
  · rw [sorted, List.mem_mergeSort] at hmem
    obtain ⟨m, hm, hradius⟩ := List.mem_map.mp hmem
    refine List.ne_nil_of_mem (List.mem_filter.mpr ⟨hm, ?_⟩)
    rw [hradius, decide_eq_true_eq]
    exact le_max_right _ _

theorem confidence_pos (m : DetectionObs ℝ) : 0 < confidence m :=
  lt_max_of_lt_right (by positivity)

/-- Dividing by the total weight gives the shares of a mix. -/
theorem sum_shares (kept : Row ℝ) (w : ℝ) :
    (kept.map fun m => confidence m / w).sum = (kept.map confidence).sum / w ∧
      (kept.map fun m => (confidence m / w) • m.groundLocal).sum =
        ((kept.map fun m => m.groundLocal.1 * confidence m).sum / w,
          (kept.map fun m => m.groundLocal.2 * confidence m).sum / w) := by
  induction kept with
  | nil => simp [Prod.ext_iff]
  | cons m kept ih =>
    simp only [List.map_cons, List.sum_cons]
    rw [ih.1, ih.2]
    refine ⟨by ring, Prod.ext ?_ ?_⟩
    · simp only [Prod.fst_add, Prod.smul_fst, smul_eq_mul]
      ring
    · simp only [Prod.snd_add, Prod.smul_snd, smul_eq_mul]
      ring

theorem summarize_ok (trimFloorM : ℝ) {classId : String} {members : Row ℝ} (hne : members ≠ [])
    (hclass : ∀ m ∈ members, m.classId = classId)
    (hordered : members.Pairwise fun a b => a.t ≤ b.t) :
    ∃ tk, summarize trimFloorM classId members = .ok tk ∧ Forms trimFloorM members tk := by
  obtain ⟨kept, htrim, hkept, hsub⟩ := trim_ok trimFloorM hne
  have hw : 0 < (kept.map confidence).sum := by
    refine List.sum_pos _ (fun c hc => ?_) (by simpa using hkept)
    obtain ⟨m, -, rfl⟩ := List.mem_map.mp hc
    exact confidence_pos m
  cases members with
  | nil => contradiction
  | cons first rest =>
    have hend : (first :: rest).length - 1 < (first :: rest).length := by simp
    obtain ⟨last, hlast, hitem⟩ := item_ok _ hend
    obtain ⟨hshares, hcenter⟩ := sum_shares kept (kept.map confidence).sum
    unfold summarize
    simp only [htrim, quotient_ok _ hw.ne', hitem, bind, Except.bind]
    refine ⟨_, rfl, rfl, hclass, ?_, kept, htrim, hkept, hsub,
      fun m => confidence m / (kept.map confidence).sum, ?_, ?_, hcenter.symm⟩
    · obtain rfl | hlater := List.mem_cons.mp hlast
      · exact le_rfl
      · exact (List.pairwise_cons.mp hordered).1 last hlater
    · exact fun m _ => div_pos (confidence_pos m) hw
    · rw [hshares]
      exact div_self hw.ne'

theorem map_nObs {trimFloorM : ℝ} {rows : List (Row ℝ)} {tracklets : List (Tracklet ℝ)}
    (h : List.Forall₂ (Forms trimFloorM) rows tracklets) :
    tracklets.map Tracklet.nObs = rows.map List.length := by
  induction h with
  | nil => rfl
  | cons hhead _ ih => rw [List.map_cons, List.map_cons, hhead.nObs, ih]

/-- The detections of a pass, in whatever order and of whatever confidence, fall apart into
rows of one class, each of which becomes a tracklet without a division by zero or an index
out of range. -/
theorem formTracklets_partition (observations : List (DetectionObs ℝ)) (gateM trimFloorM : ℝ) :
    ∃ tracklets rows, formTracklets observations gateM trimFloorM = .ok tracklets ∧
      rows.flatten.Perm observations ∧ List.Forall₂ (Forms trimFloorM) rows tracklets ∧
        (tracklets.map Tracklet.nObs).sum = observations.length := by
  set ordered := observations.mergeSort fun a b => decide (a.t ≤ b.t) with hordered
  have hsorted : ordered.Pairwise fun a b => a.t ≤ b.t := by
    have hpairs : ordered.Pairwise fun a b => decide (a.t ≤ b.t) = true := by
      apply List.pairwise_mergeSort
      · intro a b c hab hbc
        exact decide_eq_true ((of_decide_eq_true hab).trans (of_decide_eq_true hbc))
      · intro a b
        simpa using le_total a.t b.t
    exact hpairs.imp fun hab => of_decide_eq_true hab
  have hstart : Clustered (Dict.empty : Dict String (List (Row ℝ))) [] :=
    ⟨List.Perm.refl [], by simp [Dict.empty]⟩
  obtain ⟨clusters, hclusters, hclustered⟩ : ∃ clusters,
      ordered.foldlM (cluster gateM) Dict.empty = .ok clusters ∧ Clustered clusters ordered :=
    foldlM_invariant (fun done clusters => Clustered clusters done) hstart
      fun done obs _ clusters h => h.step gateM obs
  obtain ⟨out, hout, hforms⟩ : ∃ out,
      clusters.entries.mapM (fun entry => entry.2.mapM (summarize trimFloorM entry.1)) = .ok out ∧
        List.Forall₂ (fun entry tks => List.Forall₂ (Forms trimFloorM) entry.2 tks)
          clusters.entries out := by
    refine mapM_total fun entry hentry => mapM_total fun members hmembers => ?_
    obtain ⟨hne, hsub, hclass⟩ := hclustered.row entry hentry members hmembers
    exact summarize_ok trimFloorM hne hclass (hsorted.sublist hsub)
  have hrows : List.Forall₂ (Forms trimFloorM) clusters.values.flatten out.flatten := by
    refine List.rel_flatten ?_
    unfold Dict.values
    rwa [List.forall₂_map_left_iff]
  have hperm : clusters.values.flatten.flatten.Perm observations :=
    hclustered.split.trans (List.mergeSort_perm _ _)
  refine ⟨out.flatten, clusters.values.flatten, ?_, hperm, hrows, ?_⟩
  · unfold formTracklets
    dsimp only
    rw [← hordered, hclusters]
    dsimp only [bind, Except.bind]
    rw [hout]
    rfl
  · rw [map_nObs hrows, ← List.length_flatten, hperm.length_eq]

end Mission10.Engine.Associate
