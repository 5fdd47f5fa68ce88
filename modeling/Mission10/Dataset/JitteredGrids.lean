import Mission10.Dataset.TrainingTiles

/-!
# Jittered grids

Every origin of an axis is shifted by one offset and held back at the edge. An origin
that comes too near to the one before takes its place, so that the gap to the one
before that only grows. What is kept is spaced by half of the smallest unshifted gap,
and its last origin is the last of the grid, shifted.
-/
namespace Mission10.Dataset.Datagen

open Outcome Sensing

/-! ### Sets in order -/

/-- A set is sorted to its elements in increasing order. -/
theorem sortedSet_eq {values target : List ℤ} (hmem : ∀ x, x ∈ values ↔ x ∈ target)
    (htarget : target.Pairwise (· < ·)) : sortedSet values = target := by
  have hperm : (sortedSet values).Perm target := by
    refine (List.perm_insertionSort _ _).trans ?_
    rw [List.perm_ext_iff_of_nodup (List.nodup_dedup _) htarget.nodup]
    intro x
    rw [List.mem_dedup, hmem]
  have hsorted : (sortedSet values).Pairwise (· ≤ ·) := List.pairwise_insertionSort _ _
  exact hperm.eq_of_pairwise' hsorted (htarget.imp fun h => h.le)

theorem pairwise_sortedSet (values : List ℤ) : (sortedSet values).Pairwise (· < ·) := by
  have hsorted : (sortedSet values).Pairwise (· ≤ ·) := List.pairwise_insertionSort _ _
  have hnodup : (sortedSet values).Nodup :=
    (List.perm_insertionSort _ _).nodup_iff.mpr (List.nodup_dedup _)
  exact hsorted.imp₂ (fun _ _ hle hne => lt_of_le_of_ne hle hne) hnodup

/-! ### One axis -/

/-- What is kept after some origins of an axis: the last one is shifted to the end, and the
gaps are wide enough. -/
structure Coalesced (spacing offset limit : ℤ) (done shifted : List ℤ) : Prop where
  last : shifted.getLast? = done.getLast?.map fun value => min (value + offset) limit
  spaced : shifted.IsChain fun a b => a < b ∧ spacing ≤ 2 * (b - a)
  moved : ∀ x ∈ shifted, ∃ value ∈ done, x = min (value + offset) limit
  fewer : shifted.length ≤ done.length

variable {spacing offset limit : ℤ}

theorem coalesced_nil : Coalesced spacing offset limit [] [] :=
  ⟨rfl, List.isChain_nil, fun _ hx => absurd hx List.not_mem_nil, le_rfl⟩

/-- An origin behind the others is appended, or it takes the place of the last one. -/
theorem Coalesced.step {done shifted : List ℤ} {value : ℤ}
    (h : Coalesced spacing offset limit done shifted) (hvalue : ∀ earlier ∈ done, earlier < value) :
    Coalesced spacing offset limit (done ++ [value])
      (shiftOrigin spacing offset limit shifted value) := by
  have hdone (front : List ℤ)
      (hfront : ∀ x ∈ front, ∃ value ∈ done, x = min (value + offset) limit) :
      ∀ x ∈ front ++ [min (value + offset) limit], ∃ other ∈ done ++ [value],
        x = min (other + offset) limit := by
    intro x hx
    rcases List.mem_append.mp hx with hx | hx
    · obtain ⟨other, hother, heq⟩ := hfront x hx
      exact ⟨other, List.mem_append_left _ hother, heq⟩
    · exact ⟨value, by simp, List.mem_singleton.mp hx⟩
  rcases shifted.eq_nil_or_concat with rfl | ⟨front, last, rfl⟩
  · refine ⟨by simp [shiftOrigin], by simp [shiftOrigin], ?_, by simp [shiftOrigin]⟩
    exact hdone [] fun x hx => absurd hx List.not_mem_nil
  · have hlast := h.last
    rw [List.concat_eq_append] at h hlast ⊢
    rw [List.getLast?_concat, eq_comm, Option.map_eq_some_iff] at hlast
    obtain ⟨before, hbefore, hmoved⟩ := hlast
    have hle : last ≤ min (value + offset) limit := by
      have hlt := hvalue before (List.mem_of_getLast? hbefore)
      omega
    obtain ⟨hfront, -, hgap⟩ := List.isChain_append.mp h.spaced
    have hend (kept : List ℤ) : (kept ++ [min (value + offset) limit]).getLast? =
        (done ++ [value]).getLast?.map fun value => min (value + offset) limit := by
      rw [List.getLast?_concat, List.getLast?_concat, Option.map_some]
    have hfewer := h.fewer
    rw [List.length_append, List.length_singleton] at hfewer
    unfold shiftOrigin
    dsimp only
    rw [List.getLast?_concat]
    dsimp only
    split_ifs with hnear hnew
    · rw [List.dropLast_concat]
      refine ⟨hend front, ?_, hdone front fun x hx => h.moved x (by simp [hx]), ?_⟩
      · refine List.isChain_append.mpr ⟨hfront, List.isChain_singleton _, ?_⟩
        intro a ha b hb
        obtain rfl : min (value + offset) limit = b := by simpa using hb
        obtain ⟨hlt, hwide⟩ := hgap a ha last (by simp)
        omega
      · simp only [List.length_append, List.length_singleton]
        omega
    · refine ⟨hend _, ?_, hdone _ h.moved, ?_⟩
      · refine List.isChain_append.mpr ⟨h.spaced, List.isChain_singleton _, ?_⟩
        intro a ha b hb
        obtain rfl : min (value + offset) limit = b := by simpa using hb
        obtain rfl : last = a := by simpa using ha
        omega
      · simp only [List.length_append, List.length_singleton]
        omega
    · obtain rfl := not_not.mp hnew
      refine ⟨hend front, h.spaced, hdone front fun x hx => h.moved x (by simp [hx]), ?_⟩
      simp only [List.length_append, List.length_singleton]
      omega

theorem coalesced_foldl {values : List ℤ} (h : values.Pairwise (· < ·)) :
    Coalesced spacing offset limit values
      (values.foldl (shiftOrigin spacing offset limit) []) := by
  induction values using List.reverseRecOn with
  | nil => exact coalesced_nil
  | append_singleton values value ih =>
    obtain ⟨hvalues, -, hvalue⟩ := List.pairwise_append.mp h
    rw [List.foldl_concat]
    refine (ih hvalues).step ?_
    intro earlier hearlier
    exact hvalue earlier hearlier value (List.mem_singleton_self value)

/-- What is kept of an axis, whatever the offset and the edge. -/
theorem coalesced_jitterAxis {values : List ℤ} (h : values.Pairwise (· < ·)) :
    Coalesced (minSpacing values) offset limit values (jitterAxis values offset limit) := by
  unfold jitterAxis
  split_ifs with hshort
  · match values, hshort with
    | [], _ => exact coalesced_nil
    | [value], _ => exact ⟨rfl, List.isChain_singleton _, by simp, le_rfl⟩
  · exact coalesced_foldl h

theorem pairwise_jitterAxis {values : List ℤ} (h : values.Pairwise (· < ·)) :
    (jitterAxis values offset limit).Pairwise (· < ·) :=
  List.isChain_iff_pairwise.mp ((coalesced_jitterAxis h).spaced.imp fun _ _ hgap => hgap.1)

/-! ### Both axes of a grid -/

/-- The origins that are kept of an axis, against those of the grid. -/
structure KeptAxis (tile extent : ℤ) (unshifted kept : List ℤ) : Prop where
  inside : ∀ x ∈ kept, 0 ≤ x ∧ x ≤ extent - tile
  increasing : kept.IsChain (· < ·)
  spaced : kept.IsChain fun a b => minSpacing unshifted ≤ 2 * (b - a)
  fewer : kept.length ≤ unshifted.length
  atEdge : tile < extent → kept.getLast? = some (extent - tile)

/-- The smallest gap is that of two neighbours, and no gap is smaller. -/
theorem minSpacing_eq {values : List ℤ} (h : 2 ≤ values.length) :
    minSpacing values ∈ List.zipWith (fun a b => b - a) values values.tail ∧
      ∀ gap ∈ List.zipWith (fun a b => b - a) values values.tail, minSpacing values ≤ gap := by
  have hne : List.zipWith (fun a b => b - a) values values.tail ≠ [] := by
    intro hnil
    have hlength := congrArg List.length hnil
    rw [List.length_zipWith, List.length_tail, List.length_nil] at hlength
    omega
  obtain ⟨gap, hgap⟩ := Option.isSome_iff_exists.mp (List.isSome_min?_of_ne_nil hne)
  rw [minSpacing, hgap, Option.getD_some]
  exact List.min?_eq_some_iff.mp hgap

section Grid

variable {tile overlap extent : ℤ}

theorem pairwise_axis (hnonneg : 0 ≤ overlap) (hoverlap : overlap < tile) :
    (Tiles.axis tile overlap extent).Pairwise (· < ·) := by
  by_cases hshort : extent ≤ tile
  · rw [Tiles.axis, if_pos hshort]
    exact List.pairwise_singleton _ _
  · have hcover := evenCover_axis hnonneg hoverlap (not_le.mp hshort)
    exact List.isChain_iff_pairwise.mp hcover.increasing

theorem axis_ne_nil (hnonneg : 0 ≤ overlap) (hoverlap : overlap < tile) (extent : ℤ) :
    Tiles.axis tile overlap extent ≠ [] := by
  by_cases hshort : extent ≤ tile
  · rw [Tiles.axis, if_pos hshort]
    exact List.cons_ne_nil _ _
  · intro hnil
    have hfirst := (evenCover_axis hnonneg hoverlap (not_le.mp hshort)).first
    rw [hnil] at hfirst
    cases hfirst

theorem keptAxis_jitterAxis (hnonneg : 0 ≤ overlap) (hoverlap : overlap < tile)
    (hextent : tile ≤ extent) {offset : ℤ} (hoffset : 0 ≤ offset) :
    KeptAxis tile extent (Tiles.axis tile overlap extent)
      (jitterAxis (Tiles.axis tile overlap extent) offset (extent - tile)) := by
  have hkept : Coalesced (minSpacing (Tiles.axis tile overlap extent)) offset (extent - tile)
      (Tiles.axis tile overlap extent)
      (jitterAxis (Tiles.axis tile overlap extent) offset (extent - tile)) :=
    coalesced_jitterAxis (pairwise_axis hnonneg hoverlap)
  constructor
  case inside =>
    intro x hx
    obtain ⟨value, hvalue, rfl⟩ := hkept.moved x hx
    have hvalue' : 0 ≤ value := by
      by_cases hshort : extent ≤ tile
      · rw [Tiles.axis, if_pos hshort, List.mem_singleton] at hvalue
        exact hvalue.ge
      · exact ((evenCover_axis hnonneg hoverlap (not_le.mp hshort)).inside value hvalue).1
    omega
  case increasing => exact hkept.spaced.imp fun _ _ hgap => hgap.1
  case spaced => exact hkept.spaced.imp fun _ _ hgap => hgap.2
  case fewer => exact hkept.fewer
  case atEdge =>
    intro hlong
    rw [hkept.last, (evenCover_axis hnonneg hoverlap hlong).last, Option.map_some]
    congr 1
    omega

variable {K : Type} {random : TileRandom K} {w h : ℤ}

/-- Whatever is drawn, the origins that are kept of each axis lie inside the frame in order,
spaced by half of the smallest gap of the grid, are no more than those of the grid, and end at
the far edge of an axis that is longer than a tile. -/
theorem jittered_keeps (htile : 2 ≤ tile) (hoverlap : 0 ≤ overlap ∧ overlap < tile)
    (hw : tile ≤ w) (hh : tile ≤ h) (state : random.State) :
    ∃ grid xs ys next, Tiles.tileGrid w h tile overlap = .ok grid ∧
      jittered random grid w h tile state =
        .ok (ys.flatMap fun y => xs.map fun x => (x, y), next) ∧
      KeptAxis tile w (Tiles.axis tile overlap w) xs ∧
      KeptAxis tile h (Tiles.axis tile overlap h) ys := by
  have hgrid : Tiles.tileGrid w h tile overlap =
      .ok ((Tiles.axis tile overlap h).flatMap fun y =>
        (Tiles.axis tile overlap w).map fun x => (x, y)) := by
    rw [Tiles.tileGrid, if_neg (not_not.mpr hoverlap), if_neg (by omega)]
  have hxs : sortedSet (((Tiles.axis tile overlap h).flatMap fun y =>
      (Tiles.axis tile overlap w).map fun x => (x, y)).map Prod.fst) =
        Tiles.axis tile overlap w := by
    refine sortedSet_eq ?_ (pairwise_axis hoverlap.1 hoverlap.2)
    intro x
    obtain ⟨y, hy⟩ := List.exists_mem_of_ne_nil _ (axis_ne_nil hoverlap.1 hoverlap.2 h)
    simp only [List.mem_map, List.mem_flatMap, Prod.exists, Prod.mk.injEq]
    grind
  have hys : sortedSet (((Tiles.axis tile overlap h).flatMap fun y =>
      (Tiles.axis tile overlap w).map fun x => (x, y)).map Prod.snd) =
        Tiles.axis tile overlap h := by
    refine sortedSet_eq ?_ (pairwise_axis hoverlap.1 hoverlap.2)
    intro y
    obtain ⟨x, hx⟩ := List.exists_mem_of_ne_nil _ (axis_ne_nil hoverlap.1 hoverlap.2 w)
    simp only [List.mem_map, List.mem_flatMap, Prod.exists, Prod.mk.injEq]
    grind
  have hstop : 0 < (tile / 2).toNat := by omega
  obtain ⟨⟨jx, afterX⟩, hx⟩ : ∃ draw, random.randrange state (tile / 2).toNat hstop = draw :=
    ⟨_, rfl⟩
  obtain ⟨⟨jy, afterY⟩, hy⟩ : ∃ draw, random.randrange afterX (tile / 2).toNat hstop = draw :=
    ⟨_, rfl⟩
  refine ⟨_, jitterAxis (Tiles.axis tile overlap w) (jx : ℕ) (w - tile),
    jitterAxis (Tiles.axis tile overlap h) (jy : ℕ) (h - tile), afterY, hgrid, ?_, ?_, ?_⟩
  · rw [jittered, dif_pos hstop]
    simp only [hx, hy, hxs, hys]
  · exact keptAxis_jitterAxis hoverlap.1 hoverlap.2 hw (Int.natCast_nonneg _)
  · exact keptAxis_jitterAxis hoverlap.1 hoverlap.2 hh (Int.natCast_nonneg _)

end Grid

/-- A generator that draws the last number of every range, and the half. -/
def lastRandom : TileRandom ℚ where
  State := Unit
  seeded _ := ()
  randrange _ stop hstop := (⟨stop - 1, Nat.sub_one_lt_of_lt hstop⟩, ())
  random _ := (1 / 2, ())

/-- On the camera's frame, shifted by nearly half a tile. -/
theorem jittered_keeps_camera : ∃ grid xs ys next,
    Tiles.tileGrid 1640 1232 640 192 = .ok grid ∧
      jittered lastRandom grid 1640 1232 640 () =
        .ok (ys.flatMap fun y => xs.map fun x => (x, y), next) ∧
      KeptAxis 640 1640 (Tiles.axis 640 192 1640) xs ∧
      KeptAxis 640 1232 (Tiles.axis 640 192 1232) ys :=
  jittered_keeps (by decide) (by decide) (by decide) (by decide) ()

/-- The last two origins of the shorter axis come together at its edge. -/
example : jitterAxis [0, 333, 667, 1000] 319 1000 = [319, 652, 1000] ∧
    jitterAxis [0, 296, 592] 295 592 = [295, 592] := by decide

end Mission10.Dataset.Datagen
