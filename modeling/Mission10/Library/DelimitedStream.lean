import Mathlib.Algebra.Group.Nat.Even
import Mathlib.Data.List.Induction

/-!
# Bounded receivers of delimited streams

A receiver collects items up to a delimiter in a buffer of fixed capacity. The
one modelled here tests for a full buffer before it looks at the item, so an
item that finds the buffer full starts discarding even when it is the
delimiter. The effect of a whole segment is computed once; what a prefix leaves
behind then depends only on how many segments at its end filled the buffer
exactly.
-/
namespace DelimitedStream

variable {α : Type*}

inductive Receiver (α : Type*) where
  | discarding
  | collecting (buffer : List α)
  deriving DecidableEq

variable {delim : α} {capacity : ℕ}

/-- The stream made of some segments. -/
def join (delim : α) (bodies : List (List α)) : List α :=
  (bodies.map fun body => body ++ [delim]).flatten

@[simp] theorem join_nil : join delim [] = [] := rfl

@[simp] theorem join_cons (body : List α) (bodies : List (List α)) :
    join delim (body :: bodies) = body ++ [delim] ++ join delim bodies := by
  simp [join]

theorem join_append (xs ys : List (List α)) :
    join delim (xs ++ ys) = join delim xs ++ join delim ys := by
  simp [join]

/-- How many consecutive segments at the end fill the buffer exactly. -/
def trailingFull (capacity : ℕ) (bodies : List (List α)) : ℕ :=
  (bodies.reverse.takeWhile fun body => body.length = capacity).length

theorem trailingFull_concat (bodies : List (List α)) (body : List α) :
    trailingFull capacity (bodies ++ [body]) =
      if body.length = capacity then trailingFull capacity bodies + 1 else 0 := by
  unfold trailingFull
  by_cases h : body.length = capacity <;> simp [h]

section Receiving
variable [DecidableEq α]

/-- One item: the next state and the frame it completes, if any. -/
def step (delim : α) (capacity : ℕ) : Receiver α → α → Receiver α × Option (List α)
  | .discarding, item => (if item = delim then .collecting [] else .discarding, none)
  | .collecting buffer, item =>
    if buffer.length = capacity then (.discarding, none)
    else if item = delim then (.collecting [], some (buffer ++ [item]))
    else (.collecting (buffer ++ [item]), none)

def feed (delim : α) (capacity : ℕ) : Receiver α → List α → Receiver α × List (List α)
  | receiver, [] => (receiver, [])
  | receiver, item :: items =>
    let out := step delim capacity receiver item
    let rest := feed delim capacity out.1 items
    (rest.1, out.2.toList ++ rest.2)

@[simp] theorem feed_nil (receiver : Receiver α) :
    feed delim capacity receiver [] = (receiver, []) := rfl

theorem feed_cons (receiver : Receiver α) (item : α) (items : List α) :
    feed delim capacity receiver (item :: items) =
      ((feed delim capacity (step delim capacity receiver item).1 items).1,
        (step delim capacity receiver item).2.toList ++
          (feed delim capacity (step delim capacity receiver item).1 items).2) := rfl

/-- Where a stream is cut does not matter. -/
theorem feed_append (receiver : Receiver α) (xs ys : List α) :
    feed delim capacity receiver (xs ++ ys) =
      ((feed delim capacity (feed delim capacity receiver xs).1 ys).1,
        (feed delim capacity receiver xs).2 ++
          (feed delim capacity (feed delim capacity receiver xs).1 ys).2) := by
  induction xs generalizing receiver with
  | nil => simp
  | cons x xs ih => simp [feed_cons, ih]

/-- Discarding ends with the next delimiter and yields nothing. -/
theorem feed_discarding {body : List α} (h : delim ∉ body) :
    feed delim capacity .discarding (body ++ [delim]) = (.collecting [], []) := by
  induction body with
  | nil => simp [feed_cons, step]
  | cons x body ih =>
    have hx : x ≠ delim := fun he => h (he ▸ List.mem_cons_self)
    have hbody : delim ∉ body := fun hm => h (List.mem_cons_of_mem x hm)
    simp [feed_cons, step, hx, ih hbody]

/-- A segment is yielded when it and its delimiter fit; one that fills the
buffer leaves the receiver discarding; a longer one is dropped. -/
theorem feed_segment {buffer body : List α} (h : delim ∉ body)
    (hbuffer : buffer.length ≤ capacity) :
    feed delim capacity (.collecting buffer) (body ++ [delim]) =
      if buffer.length + body.length < capacity then
        (.collecting [], [buffer ++ body ++ [delim]])
      else if buffer.length + body.length = capacity then (.discarding, [])
      else (.collecting [], []) := by
  induction body generalizing buffer with
  | nil =>
    by_cases hfull : buffer.length = capacity
    · simp [feed_cons, step, hfull]
    · have hlt : buffer.length < capacity := by omega
      simp [feed_cons, step, hfull, hlt]
  | cons x body ih =>
    have hx : x ≠ delim := fun he => h (he ▸ List.mem_cons_self)
    have hbody : delim ∉ body := fun hm => h (List.mem_cons_of_mem x hm)
    by_cases hfull : buffer.length = capacity
    · have hstep : step delim capacity (.collecting buffer) x = (.discarding, none) := by
        simp [step, hfull]
      rw [List.cons_append, feed_cons, hstep, feed_discarding hbody]
      simp [hfull]
    · have hstep : step delim capacity (.collecting buffer) x =
          (.collecting (buffer ++ [x]), none) := by simp [step, hfull, hx]
      have hlen : (buffer ++ [x]).length ≤ capacity := by
        rw [List.length_append, List.length_singleton]
        omega
      have harith : (buffer ++ [x]).length + body.length = buffer.length + (x :: body).length := by
        simp only [List.length_append, List.length_cons, List.length_nil]
        omega
      rw [List.cons_append, feed_cons, hstep, ih hbody hlen, harith]
      simp

/-- The complete segments of a stream, without their delimiters. -/
def segments (delim : α) (items : List α) : List (List α) := (items.splitOn delim).dropLast

theorem splitOn_join {bodies : List (List α)} (h : ∀ body ∈ bodies, delim ∉ body) :
    (join delim bodies).splitOn delim = bodies ++ [[]] := by
  induction bodies with
  | nil => simp
  | cons body bodies ih =>
    have hbody := h body List.mem_cons_self
    have hrest := ih fun b hb => h b (List.mem_cons_of_mem body hb)
    rw [join_cons, List.append_assoc, List.singleton_append,
      List.splitOn_append_cons_self_of_not_mem hbody, hrest, List.cons_append]

/-- A stream that ends with the delimiter is its segments. -/
theorem segments_spec {items : List α} (h : items = [] ∨ items.getLast? = some delim) :
    join delim (segments delim items) = items ∧ ∀ body ∈ segments delim items, delim ∉ body := by
  have hexists : ∀ n, ∀ xs : List α, xs.length ≤ n → (xs = [] ∨ xs.getLast? = some delim) →
      ∃ bodies, join delim bodies = xs ∧ ∀ body ∈ bodies, delim ∉ body := by
    intro n
    induction n with
    | zero =>
      intro xs hlen _
      exact ⟨[], by simpa using (List.length_eq_zero_iff.mp (by omega)).symm, by simp⟩
    | succ n ih =>
      intro xs hlen hlast
      rcases hlast with rfl | hlast
      · exact ⟨[], rfl, by simp⟩
      · have hmem : delim ∈ xs := List.mem_of_getLast? hlast
        obtain ⟨body, rest, rfl, hbody⟩ := List.eq_append_cons_of_mem hmem
        have hrest : rest = [] ∨ rest.getLast? = some delim := by
          cases rest with
          | nil => exact .inl rfl
          | cons y ys =>
            refine .inr ?_
            simpa [List.getLast?_append, List.getLast?_cons] using hlast
        simp only [List.length_append, List.length_cons] at hlen
        obtain ⟨bodies, hjoin, hfree⟩ := ih rest (by omega) hrest
        refine ⟨body :: bodies, by simp [hjoin], ?_⟩
        intro b hb
        rcases List.mem_cons.mp hb with rfl | hb
        · exact hbody
        · exact hfree b hb
  obtain ⟨bodies, hjoin, hfree⟩ := hexists items.length items (Nat.le_refl _) h
  have hsegments : segments delim items = bodies := by
    rw [segments, ← hjoin, splitOn_join hfree, List.dropLast_concat]
  exact ⟨hsegments ▸ hjoin, hsegments ▸ hfree⟩

/-- Every exactly full segment at the end swallows the one after it. -/
theorem feed_join_state {bodies : List (List α)} (h : ∀ body ∈ bodies, delim ∉ body) :
    (feed delim capacity (.collecting []) (join delim bodies)).1 =
      if Even (trailingFull capacity bodies) then .collecting [] else .discarding := by
  induction bodies using List.reverseRecOn with
  | nil => simp [trailingFull]
  | append_singleton bodies body ih =>
    have hbodies := ih fun b hb => h b (List.mem_append_left _ hb)
    have hbody : delim ∉ body := h body (by simp)
    rw [join_append, feed_append, hbodies, trailingFull_concat, join_cons, join_nil,
      List.append_nil]
    by_cases heven : Even (trailingFull capacity bodies)
    · rw [if_pos heven, feed_segment hbody (Nat.zero_le _)]
      by_cases hfull : body.length = capacity
      · simp [hfull, Nat.even_add_one, heven]
      · by_cases hlt : body.length < capacity <;> simp [hfull, hlt]
    · rw [if_neg heven, feed_discarding hbody]
      by_cases hfull : body.length = capacity <;> simp [hfull, Nat.even_add_one, heven]

/-- A frame the receiver can hold: nonempty, and a delimiter at its end only. -/
structure Valid (delim : α) (capacity : ℕ) (frame : List α) : Prop where
  framed : ∃ body, body ≠ [] ∧ delim ∉ body ∧ frame = body ++ [delim]
  fits : frame.length ≤ capacity

theorem feed_valid {frames : List (List α)} (h : ∀ frame ∈ frames, Valid delim capacity frame) :
    feed delim capacity (.collecting []) frames.flatten = (.collecting [], frames) := by
  induction frames with
  | nil => rfl
  | cons frame frames ih =>
    obtain ⟨body, -, hbody, rfl⟩ := (h frame List.mem_cons_self).framed
    have hfits := (h _ List.mem_cons_self).fits
    rw [List.length_append, List.length_singleton] at hfits
    have hrest := ih fun f hf => h f (List.mem_cons_of_mem _ hf)
    rw [List.flatten_cons, feed_append, feed_segment hbody (Nat.zero_le _)]
    simp [show body.length < capacity by omega, hrest]

/-- A receiver that is discarding loses exactly the first frame. -/
theorem feed_valid_discarding {frames : List (List α)}
    (h : ∀ frame ∈ frames, Valid delim capacity frame) :
    (feed delim capacity .discarding frames.flatten).2 = frames.tail := by
  cases frames with
  | nil => rfl
  | cons frame frames =>
    obtain ⟨body, -, hbody, rfl⟩ := (h frame List.mem_cons_self).framed
    have hrest := feed_valid fun f hf => h f (List.mem_cons_of_mem _ hf)
    rw [List.flatten_cons, feed_append, feed_discarding hbody]
    simp [hrest]

/-- What a stream of valid frames yields after some segments. -/
theorem feed_after_segments {bodies frames : List (List α)}
    (hbodies : ∀ body ∈ bodies, delim ∉ body)
    (hframes : ∀ frame ∈ frames, Valid delim capacity frame) :
    (feed delim capacity (.collecting []) (join delim bodies ++ frames.flatten)).2 =
      (feed delim capacity (.collecting []) (join delim bodies)).2 ++
        if Even (trailingFull capacity bodies) then frames else frames.tail := by
  rw [feed_append, feed_join_state hbodies]
  by_cases heven : Even (trailingFull capacity bodies)
  · simp [heven, feed_valid hframes]
  · simp [heven, feed_valid_discarding hframes]

theorem feed_discarding_append {body : List α} (h : delim ∉ body) (rest : List α) :
    feed delim capacity .discarding (body ++ [delim] ++ rest) =
      feed delim capacity (.collecting []) rest := by
  rw [feed_append, feed_discarding h]
  simp

/-- A receiver that starts by discarding loses the first segment, whatever it is. -/
theorem feed_discarding_segments {body : List α} {bodies frames : List (List α)}
    (hbody : delim ∉ body) (hbodies : ∀ body ∈ bodies, delim ∉ body)
    (hframes : ∀ frame ∈ frames, Valid delim capacity frame) :
    (feed delim capacity .discarding (join delim (body :: bodies) ++ frames.flatten)).2 =
      (feed delim capacity .discarding (join delim (body :: bodies))).2 ++
        if Even (trailingFull capacity bodies) then frames else frames.tail := by
  rw [join_cons, List.append_assoc, feed_discarding_append hbody, feed_discarding_append hbody,
    feed_after_segments hbodies hframes]

end Receiving

theorem append_kept_iff {yielded frames : List (List α)} {p : Prop} [Decidable p] :
    (yielded ++ if p then frames else frames.tail) = yielded ++ frames ↔ frames = [] ∨ p := by
  rw [List.append_cancel_left_eq]
  by_cases hp : p
  · simp [hp]
  · cases frames with
    | nil => simp
    | cons frame frames =>
      simp only [hp, if_false, List.tail_cons, or_false, reduceCtorEq, iff_false]
      intro heq
      have := congrArg List.length heq
      simp at this

end DelimitedStream
