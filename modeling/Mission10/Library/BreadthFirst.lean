import Mathlib.Data.Finset.Card
import Mathlib.Data.List.AList
import Mathlib.Data.List.Chain

/-!
# Breadth-first search with a queue

The search takes vertices from a queue, marks the neighbours it has not seen and
enqueues them, until it takes a goal or the queue is empty. A mark records the
vertex a neighbour was found from, its distance, or any function of the two. The
first goal taken is nearest to the sources, and an empty queue means that every
vertex reachable from them is marked.
-/
namespace BreadthFirst

variable {α β : Type*} [DecidableEq α]

/-- The marks set so far, a dictionary from vertices. -/
abbrev Marks (α β : Type*) := AList fun _ : α => β

structure Frontier (α β : Type*) where
  marks : Marks α β
  queue : List α

/-- A vertex that is not marked yet is marked and enqueued. -/
def discover (value : β) (front : Frontier α β) (vertex : α) : Frontier α β :=
  if vertex ∈ front.marks then front
  else ⟨front.marks.insert vertex value, front.queue ++ [vertex]⟩

def discoverAll (value : β) (vertices : List α) (front : Frontier α β) : Frontier α β :=
  vertices.foldl (discover value) front

/-- The sources, marked and enqueued. -/
def start (value : β) (sources : List α) : Frontier α β :=
  ⟨sources.foldl (fun marks source => marks.insert source value) ∅, sources⟩

/-- The search, with the goal it ends at. -/
def search (next : α → List α) (value : α → Marks α β → β) (goal : α → Bool) :
    ℕ → Frontier α β → Option (Option α × Marks α β)
  | 0, _ => none
  | _ + 1, ⟨marks, []⟩ => some (none, marks)
  | fuel + 1, ⟨marks, current :: queue⟩ =>
    if goal current then some (some current, marks)
    else search next value goal fuel
      (discoverAll (value current marks) (next current) ⟨marks, queue⟩)

/-- The vertices from the given one back to a source. -/
def trace (cameFrom : Marks α (Option α)) : ℕ → Option α → Option (List α)
  | _, none => some []
  | 0, some _ => none
  | fuel + 1, some vertex =>
    (trace cameFrom fuel (cameFrom.lookup vertex).join).map (vertex :: ·)

/-- A vertex reached from a source in a number of steps. -/
inductive Reach (sources : List α) (next : α → List α) : ℕ → α → Prop where
  | source {vertex : α} (h : vertex ∈ sources) : Reach sources next 0 vertex
  | step {n : ℕ} {vertex neighbor : α} (h : Reach sources next n vertex)
      (hnext : neighbor ∈ next vertex) : Reach sources next (n + 1) neighbor

theorem mem_iff_lookup {marks : Marks α β} {vertex : α} :
    vertex ∈ marks ↔ ∃ value, marks.lookup vertex = some value := by
  rw [← AList.lookup_isSome, Option.isSome_iff_exists]

theorem lookup_start (value : β) (sources : List α) (vertex : α) :
    (start value sources).marks.lookup vertex = if vertex ∈ sources then some value else none := by
  have hfold : ∀ marks : Marks α β,
      (sources.foldl (fun marks source => marks.insert source value) marks).lookup vertex =
        if vertex ∈ sources then some value else marks.lookup vertex := by
    induction sources with
    | nil => simp
    | cons source sources ih =>
      intro marks
      rw [List.foldl_cons, ih]
      by_cases hmem : vertex ∈ sources
      · simp [hmem]
      · by_cases heq : vertex = source
        · subst heq
          simp [hmem]
        · simp [hmem, heq, AList.lookup_insert_ne]
  rw [start, hfold, AList.lookup_empty]

/-- The vertices that are new are enqueued once each, all with one mark. -/
theorem discoverAll_spec (value : β) (vertices : List α) (front : Frontier α β) : ∃ fresh,
    (discoverAll value vertices front).queue = front.queue ++ fresh ∧
    (∀ vertex, vertex ∈ fresh ↔ vertex ∈ vertices ∧ vertex ∉ front.marks) ∧
    (∀ vertex, (discoverAll value vertices front).marks.lookup vertex =
      if vertex ∈ fresh then some value else front.marks.lookup vertex) ∧
    (discoverAll value vertices front).marks.entries.length =
      front.marks.entries.length + fresh.length := by
  induction vertices generalizing front with
  | nil => exact ⟨[], by simp [discoverAll]⟩
  | cons head vertices ih =>
    by_cases hmarked : head ∈ front.marks
    · obtain ⟨fresh, hqueue, hmem, hlookup, hcount⟩ := ih front
      have hskip : discoverAll value (head :: vertices) front =
          discoverAll value vertices front := by
        rw [discoverAll, List.foldl_cons, discover, if_pos hmarked]
        rfl
      refine ⟨fresh, by rw [hskip, hqueue], fun vertex => ?_, by rw [hskip]; exact hlookup,
        by rw [hskip, hcount]⟩
      rw [hmem, List.mem_cons]
      constructor
      · exact fun h => ⟨Or.inr h.1, h.2⟩
      · rintro ⟨rfl | h, hnot⟩
        · exact absurd hmarked hnot
        · exact ⟨h, hnot⟩
    · obtain ⟨fresh, hqueue, hmem, hlookup, hcount⟩ :=
        ih ⟨front.marks.insert head value, front.queue ++ [head]⟩
      have htake : discoverAll value (head :: vertices) front =
          discoverAll value vertices ⟨front.marks.insert head value, front.queue ++ [head]⟩ := by
        rw [discoverAll, List.foldl_cons, discover, if_neg hmarked]
        rfl
      have hhead : head ∉ fresh := by simp [hmem]
      refine ⟨head :: fresh, by simp [htake, hqueue], fun vertex => ?_, fun vertex => ?_, ?_⟩
      · rw [List.mem_cons, List.mem_cons, hmem, AList.mem_insert]
        constructor
        · rintro (rfl | ⟨h, hnot⟩)
          · exact ⟨Or.inl rfl, hmarked⟩
          · exact ⟨Or.inr h, fun hm => hnot (Or.inr hm)⟩
        · rintro ⟨rfl | h, hnot⟩
          · exact Or.inl rfl
          · by_cases heq : vertex = head
            · exact Or.inl heq
            · exact Or.inr ⟨h, by rintro (h' | h') <;> contradiction⟩
      · rw [htake, hlookup]
        by_cases heq : vertex = head
        · subst heq
          simp [hhead]
        · simp [heq, AList.lookup_insert_ne]
      · have hsize : (front.marks.insert head value).entries.length =
            front.marks.entries.length + 1 := by
          rw [AList.entries_insert_of_notMem hmarked, List.length_cons]
        rw [htake, hcount, List.length_cons]
        dsimp only
        omega

section Search

variable {sources : List α} {next : α → List α} {value : α → Marks α β → β} {goal : α → Bool}
  {label : Option α → ℕ → β}

/-- The marks form a forest over the sources: each vertex has the vertex it was
found from, which is no goal, and its depth. -/
structure Tree (sources : List α) (next : α → List α) (goal : α → Bool)
    (label : Option α → ℕ → β) (marks : Marks α β) (pred : α → Option α) (depth : α → ℕ) :
    Prop where
  lookup : ∀ v ∈ marks, marks.lookup v = some (label (pred v) (depth v))
  source : ∀ s ∈ sources, s ∈ marks ∧ depth s = 0
  root : ∀ v ∈ marks, pred v = none → v ∈ sources
  child : ∀ v ∈ marks, ∀ u, pred v = some u →
    u ∈ marks ∧ goal u = false ∧ v ∈ next u ∧ depth v = depth u + 1

/-- The state of the search: the queue is in the order of the depths, which
differ by one at most, and what has left it has its neighbours marked. -/
structure Layered (sources : List α) (next : α → List α) (goal : α → Bool)
    (label : Option α → ℕ → β) (front : Frontier α β) (pred : α → Option α) (depth : α → ℕ) :
    Prop extends Tree sources next goal label front.marks pred depth where
  queued : ∀ v ∈ front.queue, v ∈ front.marks
  sorted : front.queue.Pairwise fun a b => depth a ≤ depth b
  spread : ∀ q ∈ front.queue, ∀ v ∈ front.marks, depth v ≤ depth q + 1
  closed : ∀ v ∈ front.marks, v ∉ front.queue →
    goal v = false ∧ ∀ w ∈ next v, w ∈ front.marks ∧ depth w ≤ depth v + 1

variable {marks : Marks α β} {pred : α → Option α} {depth : α → ℕ}

/-- A marked vertex is a source or a neighbour. -/
theorem Tree.source_or_next (h : Tree sources next goal label marks pred depth) {v : α}
    (hv : v ∈ marks) : v ∈ sources ∨ ∃ u, v ∈ next u := by
  cases hpred : pred v with
  | none => exact Or.inl (h.root v hv hpred)
  | some u => exact Or.inr ⟨u, (h.child v hv u hpred).2.2.1⟩

theorem Tree.reach (h : Tree sources next goal label marks pred depth) :
    ∀ n v, depth v = n → v ∈ marks → Reach sources next n v := by
  intro n
  induction n with
  | zero =>
    intro v hdepth hv
    cases hpred : pred v with
    | none => exact .source (h.root v hv hpred)
    | some u =>
      obtain ⟨-, -, -, hu⟩ := h.child v hv u hpred
      omega
  | succ n ih =>
    intro v hdepth hv
    cases hpred : pred v with
    | none =>
      have hsource := (h.source v (h.root v hv hpred)).2
      omega
    | some u =>
      obtain ⟨hu, -, hnext, hdepth'⟩ := h.child v hv u hpred
      exact .step (ih u (by omega) hu) hnext

/-- There are as many vertices as depths. -/
theorem Tree.depth_lt {field : Finset α} (h : Tree sources next goal label marks pred depth)
    (hfield : ∀ v ∈ marks, v ∈ field) {v : α} (hv : v ∈ marks) : depth v < field.card := by
  have hdepths : ∀ n u, u ∈ marks → depth u = n → ∀ k ≤ n, ∃ w ∈ field, depth w = k := by
    intro n
    induction n with
    | zero =>
      intro u hu hdepth k hk
      exact ⟨u, hfield u hu, by omega⟩
    | succ n ih =>
      intro u hu hdepth k hk
      rcases Nat.lt_or_eq_of_le hk with hlt | rfl
      · cases hpred : pred u with
        | none =>
          have hsource := (h.source u (h.root u hu hpred)).2
          omega
        | some w =>
          obtain ⟨hw, -, -, hdepth'⟩ := h.child u hu w hpred
          exact ih w hw (by omega) k (by omega)
      · exact ⟨u, hfield u hu, hdepth⟩
  have hrange : Finset.range (depth v + 1) ⊆ field.image depth := by
    intro k hk
    rw [Finset.mem_range] at hk
    obtain ⟨w, hw, hdepth⟩ := hdepths (depth v) v hv rfl k (by omega)
    exact Finset.mem_image.mpr ⟨w, hw, hdepth⟩
  have hcard := (Finset.card_le_card hrange).trans Finset.card_image_le
  rw [Finset.card_range] at hcard
  omega

/-- Up to the depth of the queue every reachable vertex is marked, at its least
distance. -/
theorem Layered.reached {front : Frontier α β} {n bound : ℕ} {v : α}
    (h : Layered sources next goal label front pred depth)
    (hbound : ∀ q ∈ front.queue, bound ≤ depth q) (hreach : Reach sources next n v)
    (hn : n ≤ bound) : v ∈ front.marks ∧ depth v ≤ n := by
  induction hreach with
  | source hsource =>
    obtain ⟨hmem, hdepth⟩ := h.source _ hsource
    exact ⟨hmem, hdepth.le⟩
  | step hreach hnext ih =>
    rename_i vertex neighbor
    obtain ⟨hmem, hdepth⟩ := ih (by omega)
    have hleft : vertex ∉ front.queue := by
      intro hq
      have hq' := hbound vertex hq
      omega
    obtain ⟨hmem', hdepth'⟩ := (h.closed vertex hmem hleft).2 neighbor hnext
    exact ⟨hmem', by omega⟩

theorem layered_start : Layered sources next goal label (start (label none 0) sources)
    (fun _ => none) (fun _ => 0) := by
  have hmem : ∀ v, v ∈ (start (label none 0) sources).marks ↔ v ∈ sources := by
    intro v
    rw [mem_iff_lookup, lookup_start]
    by_cases h : v ∈ sources <;> simp [h]
  exact {
    lookup := fun v hv => by rw [lookup_start, if_pos ((hmem v).mp hv)]
    source := fun s hs => ⟨(hmem s).mpr hs, rfl⟩
    root := fun v hv _ => (hmem v).mp hv
    child := by simp
    queued := fun v hv => (hmem v).mpr hv
    sorted := List.pairwise_of_forall fun _ _ => le_rfl
    spread := by simp
    closed := fun v hv hq => absurd ((hmem v).mp hv) hq }

/-- One round of the search. -/
theorem layered_round {current : α} {queue : List α}
    (hvalue : ∀ (marks : Marks α β) v p n, marks.lookup v = some (label p n) →
      value v marks = label (some v) (n + 1))
    (h : Layered sources next goal label ⟨marks, current :: queue⟩ pred depth)
    (hgoal : goal current = false) : ∃ pred' depth', Layered sources next goal label
      (discoverAll (value current marks) (next current) ⟨marks, queue⟩) pred' depth' := by
  obtain ⟨fresh, hqueue, hfresh, hlookup, -⟩ :=
    discoverAll_spec (value current marks) (next current) ⟨marks, queue⟩
  have hcurrent : current ∈ marks := h.queued current List.mem_cons_self
  have hmark := hvalue marks current _ _ (h.lookup current hcurrent)
  have hold : ∀ {v}, v ∈ marks → v ∉ fresh := fun hv hf => ((hfresh _).mp hf).2 hv
  have hmem : ∀ v, v ∈ (discoverAll (value current marks) (next current) ⟨marks, queue⟩).marks ↔
      v ∈ fresh ∨ v ∈ marks := by
    intro v
    rw [mem_iff_lookup, hlookup, mem_iff_lookup]
    by_cases hv : v ∈ fresh <;> simp [hv]
  have hleast : ∀ q ∈ queue, depth current ≤ depth q := (List.pairwise_cons.mp h.sorted).1
  have hmost : ∀ v ∈ marks, depth v ≤ depth current + 1 := h.spread current List.mem_cons_self
  refine ⟨fun v => if v ∈ fresh then some current else pred v,
    fun v => if v ∈ fresh then depth current + 1 else depth v, ?_⟩
  have hqueued : ∀ q ∈ queue, q ∉ fresh := fun q hq =>
    hold (h.queued q (List.mem_cons_of_mem _ hq))
  constructor
  case toTree =>
    constructor
    case lookup =>
      intro v hv
      rw [hlookup]
      by_cases hf : v ∈ fresh
      · simp [hf, hmark]
      · simp only [hf, if_false]
        exact h.lookup v (((hmem v).mp hv).resolve_left hf)
    case source =>
      intro s hs
      obtain ⟨hs', hdepth⟩ := h.source s hs
      exact ⟨(hmem s).mpr (Or.inr hs'), by simp [hold hs', hdepth]⟩
    case root =>
      intro v hv hpred
      by_cases hf : v ∈ fresh
      · simp [hf] at hpred
      · exact h.root v (((hmem v).mp hv).resolve_left hf) (by simpa [hf] using hpred)
    case child =>
      intro v hv u hpred
      by_cases hf : v ∈ fresh
      · obtain rfl : current = u := by simpa [hf] using hpred
        exact ⟨(hmem _).mpr (Or.inr hcurrent), hgoal, ((hfresh v).mp hf).1, by
          simp [hf, hold hcurrent]⟩
      · have hv' := ((hmem v).mp hv).resolve_left hf
        obtain ⟨hu, hugoal, hnext, hdepth⟩ := h.child v hv' u (by simpa [hf] using hpred)
        exact ⟨(hmem u).mpr (Or.inr hu), hugoal, hnext, by simp [hf, hold hu, hdepth]⟩
  case queued =>
    intro v hv
    rw [hqueue, List.mem_append] at hv
    rw [hmem]
    rcases hv with hv | hv
    · exact Or.inr (h.queued v (List.mem_cons_of_mem _ hv))
    · exact Or.inl hv
  case sorted =>
    rw [hqueue, List.pairwise_append]
    refine ⟨?_, List.Pairwise.imp_of_mem ?_ (List.pairwise_of_forall fun _ _ => trivial), ?_⟩
    · refine List.Pairwise.imp_of_mem ?_ (List.pairwise_cons.mp h.sorted).2
      intro a b ha hb hle
      simpa [hqueued a ha, hqueued b hb] using hle
    · intro a b ha hb _
      simp [ha, hb]
    · intro a ha b hb
      simp only [hqueued a ha, hb, if_true, if_false]
      exact hmost a (h.queued a (List.mem_cons_of_mem _ ha))
  case spread =>
    intro q hq v hv
    rw [hqueue, List.mem_append] at hq
    have hlow : depth current ≤ if q ∈ fresh then depth current + 1 else depth q := by
      by_cases hf : q ∈ fresh
      · simp [hf]
      · simpa [hf] using hleast q (hq.resolve_right hf)
    have hhigh : (if v ∈ fresh then depth current + 1 else depth v) ≤ depth current + 1 := by
      by_cases hf : v ∈ fresh
      · simp [hf]
      · simpa [hf] using hmost v (((hmem v).mp hv).resolve_left hf)
    omega
  case closed =>
    intro v hv hnot
    rw [hqueue, List.mem_append, not_or] at hnot
    have hv' : v ∈ marks := ((hmem v).mp hv).resolve_left hnot.2
    by_cases hcur : v = current
    · subst hcur
      refine ⟨hgoal, fun w hw => ?_⟩
      by_cases hwmarked : w ∈ marks
      · refine ⟨(hmem w).mpr (Or.inr hwmarked), ?_⟩
        simpa [hold hwmarked, hnot.2] using hmost w hwmarked
      · have hf : w ∈ fresh := (hfresh w).mpr ⟨hw, hwmarked⟩
        exact ⟨(hmem w).mpr (Or.inl hf), by simp [hf, hnot.2]⟩
    · have hleft : v ∉ current :: queue := by simp [hcur, hnot.1]
      obtain ⟨hvgoal, hclosed⟩ := h.closed v hv' hleft
      refine ⟨hvgoal, fun w hw => ?_⟩
      obtain ⟨hw', hdepth⟩ := hclosed w hw
      exact ⟨(hmem w).mpr (Or.inr hw'), by simpa [hold hw', hnot.2] using hdepth⟩

omit [DecidableEq α] in
theorem Reach.mem_field {field : Finset α} {n : ℕ} {v : α} (hsources : ∀ s ∈ sources, s ∈ field)
    (hnext : ∀ v ∈ field, ∀ w ∈ next v, w ∈ field) (h : Reach sources next n v) : v ∈ field := by
  induction h with
  | source hs => exact hsources _ hs
  | step _ hw ih => exact hnext _ ih _ hw

theorem entries_length_le {field : Finset α} {marks : Marks α β}
    (h : ∀ v ∈ marks, v ∈ field) : marks.entries.length ≤ field.card := by
  have hkeys : marks.keys.toFinset ⊆ field := by
    intro v hv
    exact h v (AList.mem_keys.mpr (List.mem_toFinset.mp hv))
  have hcard := Finset.card_le_card hkeys
  rw [List.toFinset_card_of_nodup marks.keys_nodup, AList.keys, List.keys, List.length_map] at hcard
  exact hcard

/-- What the search ends with: a goal nearest to the sources, or all reachable
vertices marked and no goal among them. -/
def Ends (sources : List α) (next : α → List α) (goal : α → Bool) (marks : Marks α β)
    (depth : α → ℕ) : Option α → Prop
  | none => ∀ n v, Reach sources next n v → goal v = false ∧ v ∈ marks ∧ depth v ≤ n
  | some g => goal g = true ∧ g ∈ marks ∧
      ∀ n v, Reach sources next n v → goal v = true → depth g ≤ n

theorem Layered.ends_empty (h : Layered sources next goal label ⟨marks, []⟩ pred depth) :
    Ends sources next goal marks depth none := by
  intro n v hreach
  obtain ⟨hmem, hdepth⟩ := h.reached (by simp) hreach le_rfl
  exact ⟨(h.closed v hmem (by simp)).1, hmem, hdepth⟩

theorem Layered.ends_goal {current : α} {queue : List α}
    (h : Layered sources next goal label ⟨marks, current :: queue⟩ pred depth)
    (hgoal : goal current = true) : Ends sources next goal marks depth (some current) := by
  refine ⟨hgoal, h.queued current List.mem_cons_self, fun n v hreach hv => ?_⟩
  by_contra hless
  have hbound : ∀ q ∈ current :: queue, depth current ≤ depth q := by
    intro q hq
    rcases List.mem_cons.mp hq with rfl | hq
    · exact le_rfl
    · exact (List.pairwise_cons.mp h.sorted).1 q hq
  obtain ⟨hmem, hdepth⟩ := h.reached hbound hreach (by omega)
  have hleft : v ∉ current :: queue := by
    intro hq
    have hq' := hbound v hq
    omega
  rw [(h.closed v hmem hleft).1] at hv
  contradiction

/-- The search in a finite field ends. -/
theorem search_total {field : Finset α} (hsources : ∀ s ∈ sources, s ∈ field)
    (hnext : ∀ v ∈ field, ∀ w ∈ next v, w ∈ field)
    (hvalue : ∀ (marks : Marks α β) v p n, marks.lookup v = some (label p n) →
      value v marks = label (some v) (n + 1))
    {fuel : ℕ} (hfuel : sources.length + field.card < fuel) : ∃ found marks pred depth,
    search next value goal fuel (start (label none 0) sources) = some (found, marks) ∧
    Tree sources next goal label marks pred depth ∧
    Ends sources next goal marks depth found := by
  have hloop : ∀ fuel (front : Frontier α β) pred depth,
      Layered sources next goal label front pred depth →
      front.queue.length + (field.card - front.marks.entries.length) < fuel →
      ∃ found marks pred depth, search next value goal fuel front = some (found, marks) ∧
        Tree sources next goal label marks pred depth ∧
        Ends sources next goal marks depth found := by
    intro fuel
    induction fuel with
    | zero =>
      intro _ _ _ _ hlt
      omega
    | succ fuel ih =>
      rintro ⟨marks, queue⟩ pred depth h hlt
      cases queue with
      | nil => exact ⟨none, marks, pred, depth, rfl, h.toTree, h.ends_empty⟩
      | cons current queue =>
        cases hgoal : goal current with
        | true =>
          exact ⟨some current, marks, pred, depth, by simp [search, hgoal], h.toTree,
            h.ends_goal hgoal⟩
        | false =>
          obtain ⟨pred', depth', h'⟩ := layered_round hvalue h hgoal
          obtain ⟨fresh, hqueue, -, -, hcount⟩ :=
            discoverAll_spec (value current marks) (next current) ⟨marks, queue⟩
          have hroom := entries_length_le fun v hv =>
            (h'.reach _ v rfl hv).mem_field hsources hnext
          have hsmaller : (discoverAll (value current marks) (next current)
                ⟨marks, queue⟩).queue.length + (field.card - (discoverAll (value current marks)
                (next current) ⟨marks, queue⟩).marks.entries.length) < fuel := by
            rw [hqueue, hcount, List.length_append]
            rw [hcount] at hroom
            simp only [List.length_cons] at hlt hroom ⊢
            omega
          obtain ⟨found, marks', pred'', depth'', hsearch, hresult⟩ := ih _ _ _ h' hsmaller
          exact ⟨found, marks', pred'', depth'', by simpa [search, hgoal] using hsearch, hresult⟩
  refine hloop fuel _ _ _ layered_start ?_
  have hqueue : (start (label none 0) sources).queue = sources := rfl
  rw [hqueue]
  omega

end Search

/-- The trace from a marked vertex is a shortest walk, in reverse. -/
theorem trace_spec {sources : List α} {next : α → List α} {goal : α → Bool}
    {cameFrom : Marks α (Option α)} {pred : α → Option α} {depth : α → ℕ}
    (h : Tree sources next goal (fun p _ => p) cameFrom pred depth) {fuel : ℕ} {v : α}
    (hv : v ∈ cameFrom) (hfuel : depth v < fuel) : ∃ path,
    trace cameFrom fuel (some v) = some path ∧ path.length = depth v + 1 ∧
    path.head? = some v ∧ (∃ s ∈ sources, path.getLast? = some s) ∧
    (∀ u ∈ path, u ∈ cameFrom) ∧
    path.IsChain fun b a => b ∈ next a ∧ goal a = false ∧ depth b = depth a + 1 := by
  induction fuel generalizing v with
  | zero => omega
  | succ fuel ih =>
    have hlookup : (cameFrom.lookup v).join = pred v := by rw [h.lookup v hv]; rfl
    cases hpred : pred v with
    | none =>
      have hsource := h.root v hv hpred
      have hdepth := (h.source v hsource).2
      have hend : trace cameFrom fuel none = some [] := by cases fuel <;> rfl
      exact ⟨[v], by simp [trace, hlookup, hpred, hend], by simp [hdepth], rfl,
        ⟨v, hsource, rfl⟩, by simpa using hv, List.isChain_singleton v⟩
    | some u =>
      obtain ⟨hu, hgoal, hnext, hdepth⟩ := h.child v hv u hpred
      obtain ⟨path, htrace, hlength, hhead, ⟨s, hs, hlast⟩, hmarked, hchain⟩ := ih hu (by omega)
      cases path with
      | nil => simp at hhead
      | cons first path =>
        obtain rfl : first = u := by simpa using hhead
        refine ⟨v :: first :: path, by simp [trace, hlookup, hpred, htrace], ?_, rfl,
          ⟨s, hs, by simpa using hlast⟩, List.forall_mem_cons.mpr ⟨hv, hmarked⟩,
          List.IsChain.cons_cons ⟨hnext, hgoal, hdepth⟩ hchain⟩
        rw [List.length_cons, hlength, hdepth]

end BreadthFirst
