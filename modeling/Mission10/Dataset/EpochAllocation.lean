import Mission10.Dataset.CompositionIdentity
import Mission10.Library.Dict
import Mission10.Library.ExactShares
import Mission10.Library.Numerals

/-!
# Allocation of an epoch

The epoch of a composition is the smallest whole number of tiles that the fractions
divide exactly and that holds every training set. The records of a component are
then linked in turns, each of them at least once, and every link has a name of its
own: the component and the ordinal are read back from it.
-/
namespace Mission10.Dataset

open Outcome ExactShares Dealing

section Counts

variable {ν : Type} [DecidableEq ν] {fractions : List (ν × ℚ)} (sizes : List (ν × ℕ))

def sizeIn (sizes : List (ν × ℕ)) (name : ν) : ℕ := (sizes.lookup name).getD 0

/-- The tiles of all components. -/
def epochSize (counts : List (ν × ℕ)) : ℕ := (counts.map Prod.snd).sum

/-- Counts that are exact shares of their epoch, which is the smallest with such shares. -/
structure AllocationOf (fractions : List (ν × ℚ)) (sizes counts : List (ν × ℕ)) : Prop where
  names : counts.map Prod.fst = fractions.map Prod.fst
  shares : List.Forall₂ (fun fraction count =>
    Share (epochSize counts) fraction.2 (sizeIn sizes fraction.1) count.2) fractions counts
  least : ∀ epoch, Divides fractions (sizeIn sizes) epoch → epochSize counts ≤ epoch

/-- The counts of the smallest epoch. -/
def leastCounts (fractions : List (ν × ℚ)) (sizes : List (ν × ℕ)) : List (ν × ℕ) :=
  fractions.map fun fraction =>
    (fraction.1, leastWhole fractions (sizeIn sizes) * fraction.2.num.toNat / fraction.2.den)

/-- A count is the share of its component. -/
theorem share_leastCounts (hpos : ∀ fraction ∈ fractions, 0 < fraction.2) {fraction : ν × ℚ}
    (h : fraction ∈ fractions) :
    Share (leastWhole fractions (sizeIn sizes)) fraction.2 (sizeIn sizes fraction.1)
      (leastWhole fractions (sizeIn sizes) * fraction.2.num.toNat / fraction.2.den) := by
  obtain ⟨share, hshare, hsize⟩ := divides_leastWhole (sizeIn sizes) hpos fraction h
  have hcount : leastWhole fractions (sizeIn sizes) * fraction.2.num.toNat / fraction.2.den =
      share := by
    rw [← (share_eq_iff (hpos fraction h)).mp hshare, Nat.mul_div_cancel _ fraction.2.den_pos]
  rw [hcount]
  exact ⟨hshare, hsize⟩

/-- The shares add up to the epoch. -/
theorem epochSize_leastCounts (hpos : ∀ fraction ∈ fractions, 0 < fraction.2)
    (hsum : (fractions.map Prod.snd).sum = 1) :
    epochSize (leastCounts fractions sizes) = leastWhole fractions (sizeIn sizes) := by
  have hcast : ((epochSize (leastCounts fractions sizes) : ℕ) : ℚ) =
      (fractions.map fun fraction =>
        (leastWhole fractions (sizeIn sizes) : ℚ) * fraction.2).sum := by
    rw [epochSize, leastCounts, List.map_map, Nat.cast_list_sum, List.map_map]
    apply congrArg List.sum
    apply List.map_congr_left
    intro fraction hfraction
    exact (share_leastCounts sizes hpos hfraction).1
  rw [List.sum_map_mul_left, hsum, mul_one] at hcast
  exact_mod_cast hcast

theorem leastCounts_allocationOf (hpos : ∀ fraction ∈ fractions, 0 < fraction.2)
    (hsum : (fractions.map Prod.snd).sum = 1) :
    AllocationOf fractions sizes (leastCounts fractions sizes) := by
  have hsize := epochSize_leastCounts sizes hpos hsum
  refine ⟨?_, ?_, fun epoch h => ?_⟩
  · rw [leastCounts, List.map_map]
    rfl
  · rw [hsize, leastCounts, List.forall₂_map_right_iff, List.forall₂_same]
    exact fun fraction hfraction => share_leastCounts sizes hpos hfraction
  · rw [hsize]
    exact leastWhole_le hpos h

/-- Positive fractions of one are always allocated. -/
theorem epochCounts_eq (hpos : ∀ fraction ∈ fractions, 0 < fraction.2)
    (hsum : (fractions.map Prod.snd).sum = 1) :
    epochCounts fractions sizes = .ok (leastCounts fractions sizes) := by
  have hexact := epochSize_leastCounts sizes hpos hsum
  have hlarge : ((leastCounts fractions sizes).any fun count =>
      decide (count.2 < sizeIn sizes count.1)) = false := by
    rw [List.any_eq_false]
    intro count hcount
    obtain ⟨fraction, hfraction, rfl⟩ := List.mem_map.mp hcount
    have hsize := (share_leastCounts sizes hpos hfraction).2
    simpa using hsize
  change (refuseIf _ _ >>= fun _ => pure (leastCounts fractions sizes)) = _
  rw [refuseIf, if_neg]
  · rfl
  · rintro (hne | hsmall)
    · exact hne hexact
    · exact Bool.false_ne_true (hlarge.symm.trans hsmall)

end Counts

/-! ### The links -/

variable {records : List Record} {count : ℕ}

theorem copies_eq (size count : ℕ) :
    copies size count = (List.range size).map (dealt size count) := rfl

theorem mem_roundRobin {link : ℕ × Record} : link ∈ roundRobin records count ↔
    link.1 < count ∧ records[link.1 % records.length]? = some link.2 := by
  simp only [roundRobin, List.mem_filterMap, List.mem_range, Option.map_eq_some_iff]
  constructor
  · rintro ⟨ordinal, hordinal, record, hrecord, rfl⟩
    exact ⟨hordinal, hrecord⟩
  · rintro ⟨hordinal, hrecord⟩
    exact ⟨link.1, hordinal, link.2, hrecord, rfl⟩

/-- Every record is linked when there are as many links as records. -/
theorem mem_roundRobin_of_le (hcount : records.length ≤ count) {record : Record}
    (h : record ∈ records) : record ∈ (roundRobin records count).map Prod.snd := by
  obtain ⟨index, hindex, rfl⟩ := List.mem_iff_getElem.mp h
  rw [List.mem_map]
  refine ⟨(index, records[index]), mem_roundRobin.mpr ⟨by omega, ?_⟩, rfl⟩
  rw [Nat.mod_eq_of_lt hindex, List.getElem?_eq_getElem hindex]

/-- The ordinals of the links are distinct. -/
theorem pairwise_roundRobin (records : List Record) (count : ℕ) :
    (roundRobin records count).Pairwise fun a b => a.1 ≠ b.1 := by
  rw [roundRobin, List.pairwise_filterMap]
  apply List.nodup_range.imp
  intro i j hij a ha b hb
  obtain ⟨-, -, rfl⟩ := Option.map_eq_some_iff.mp ha
  obtain ⟨-, -, rfl⟩ := Option.map_eq_some_iff.mp hb
  exact hij

theorem head_name_injective {a b : ComponentName}
    (h : a.name.toList.head? = b.name.toList.head?) : a = b := by
  cases a <;> cases b <;> first | rfl | exact absurd h (by decide)

theorem toList_linkStem (name : ComponentName) (link : ℕ × Record) :
    (linkStem name link).toList = name.name.toList ++ ('_' :: '_' ::
      (PaddedDigits.padded 8 link.1 ++ '_' :: '_' :: link.2.tile.toList)) := by
  change (name.name ++ "__" ++ String.ofList (PaddedDigits.padded 8 link.1) ++ "__" ++
    link.2.tile).toList = _
  simp [String.toList_append]

/-- The component and the ordinal are read back from the name of a link. -/
theorem linkStem_inj {a b : ComponentName} {link link' : ℕ × Record} {suffix suffix' : String}
    (h : linkStem a link ++ suffix = linkStem b link' ++ suffix') : a = b ∧ link.1 = link'.1 := by
  have hlist := congrArg String.toList h
  rw [String.toList_append, String.toList_append, toList_linkStem, toList_linkStem,
    List.append_assoc, List.append_assoc] at hlist
  have hname : a = b := by
    apply head_name_injective
    have hhead := congrArg List.head? hlist
    cases a <;> cases b <;> exact hhead
  subst hname
  rw [List.append_cancel_left_eq] at hlist
  simp only [List.cons_append, List.cons.injEq, true_and, List.append_assoc] at hlist
  exact ⟨rfl, (PaddedDigits.padded_append_inj (by decide) hlist).1⟩

/-- The names of the links of some parts are distinct when their components are. -/
theorem nodup_links {parts : List (ComponentName × List Record × ℕ)}
    (hparts : (parts.map Prod.fst).Nodup) (suffix : ℕ × Record → String) :
    (parts.flatMap fun part => (roundRobin part.2.1 part.2.2).map fun link =>
      linkStem part.1 link ++ suffix link).Nodup := by
  rw [List.nodup_flatMap]
  constructor
  · intro part _
    rw [List.nodup_iff_pairwise_ne, List.pairwise_map]
    apply (pairwise_roundRobin part.2.1 part.2.2).imp
    intro link link' hne hsame
    exact hne (linkStem_inj hsame).2
  · apply (List.pairwise_map.mp hparts).imp
    intro part part' hne name hname hname'
    obtain ⟨link, -, rfl⟩ := List.mem_map.mp hname
    obtain ⟨link', -, hsame⟩ := List.mem_map.mp hname'
    exact hne (linkStem_inj hsame).1.symm

/-! ### The composition -/

section Compose

variable {digests : Digests} {canonicalSha256 : Identity → String} {call : Call}
  {reading : Reading} {composed : Composed}

/-- The sizes of the training sets that were read. -/
def trainSizes (reading : Reading) : List (ComponentName × ℕ) :=
  reading.sources.map fun source => (source.1, (source.2.split .train).length)

/-- What a composition does with its components: the counts are the allocation of the preset,
every training record is linked, and as often as the others of its component or once more or
less, and no two links of a split have one name. -/
structure LinkedOf (reading : Reading) (composed : Composed) : Prop where
  allocated : AllocationOf reading.preset.fractions (trainSizes reading) reading.trainCounts
  used : ∀ part ∈ reading.parts .train, ∀ record ∈ part.2.1,
    record ∈ (roundRobin part.2.1 part.2.2).map Prod.snd
  copied : ∀ part ∈ reading.parts .train, ∀ n ∈ copies part.2.1.length part.2.2, 1 ≤ n
  even : ∀ part ∈ reading.parts .train, ∀ m ∈ copies part.2.1.length part.2.2,
    ∀ n ∈ copies part.2.1.length part.2.2, m ≤ n + 1
  images : ∀ split ∈ composed.images, (split.2.map Prod.fst).Nodup
  labels : ∀ split ∈ composed.labels, (split.2.map Prod.fst).Nodup

theorem Preset.fractions_valid (preset : Preset) :
    (∀ fraction ∈ preset.fractions, 0 < fraction.2) ∧
      (preset.fractions.map Prod.snd).sum = 1 ∧ preset.components.Nodup := by
  cases preset <;> decide +kernel

theorem ReadingOf.names (h : ReadingOf digests call reading) :
    reading.sources.map Prod.fst = reading.preset.components := by
  have hsources := h.sources
  generalize reading.preset.components = names at hsources
  generalize reading.sources = sources at hsources
  induction hsources with
  | nil => rfl
  | cons hfirst _ ih => rw [List.map_cons, ih, hfirst.1]

theorem ReadingOf.allocation (h : ReadingOf digests call reading) :
    reading.trainCounts = leastCounts reading.preset.fractions (trainSizes reading) := by
  obtain ⟨hpos, hsum, -⟩ := reading.preset.fractions_valid
  have hcounts := h.trainCounts
  rw [epochCounts_eq _ hpos hsum] at hcounts
  exact (Except.ok.inj hcounts).symm

/-- The components of a split have different names. -/
theorem ReadingOf.nodup_parts (h : ReadingOf digests call reading) (split : Split) :
    ((reading.parts split).map Prod.fst).Nodup := by
  rw [Reading.parts]
  split
  · rw [List.map_map]
    have hnames := reading.preset.fractions_valid.2.2
    rwa [← h.names] at hnames
  · split
    · exact List.nodup_nil
    · exact List.nodup_singleton _

/-- A component has at least as many links as records, of which there is one. -/
theorem ReadingOf.length_le (h : ReadingOf digests call reading)
    {part : ComponentName × List Record × ℕ} (hpart : part ∈ reading.parts .train) :
    part.2.1.length ≤ part.2.2 := by
  obtain ⟨hpos, hsum, hnodup⟩ := reading.preset.fractions_valid
  rw [Reading.parts, if_pos rfl] at hpart
  obtain ⟨source, hsource, rfl⟩ := List.mem_map.mp hpart
  have hname : source.1 ∈ reading.preset.fractions.map Prod.fst := by
    have hmem : source.1 ∈ reading.preset.components := h.names ▸ List.mem_map_of_mem hsource
    rwa [Preset.fractions, List.map_map]
  obtain ⟨fraction, hfraction, hfirst⟩ := List.mem_map.mp hname
  have hsizes : (trainSizes reading).lookup source.1 =
      some (source.2.split .train).length := by
    have hkeys : ((trainSizes reading).map Prod.fst).Nodup := by
      rw [trainSizes, List.map_map]
      rwa [← h.names] at hnodup
    exact Dict.lookup_of_mem hkeys (List.mem_map_of_mem (f := fun source : ComponentName × Component =>
      (source.1, (source.2.split .train).length)) hsource)
  have hkeys : ((leastCounts reading.preset.fractions (trainSizes reading)).map
      Prod.fst).Nodup := by
    rw [(leastCounts_allocationOf (trainSizes reading) hpos hsum).names, Preset.fractions, List.map_map]
    exact hnodup
  have hcount := Dict.lookup_of_mem hkeys (List.mem_map_of_mem (f := fun fraction : ComponentName × ℚ =>
    (fraction.1, leastWhole reading.preset.fractions (sizeIn (trainSizes reading)) *
      fraction.2.num.toNat / fraction.2.den)) hfraction)
  have hsize := (share_leastCounts (trainSizes reading) hpos hfraction).2
  dsimp only at hcount ⊢
  rw [hfirst] at hcount hsize
  rw [h.allocation, hcount, Option.getD_some]
  rwa [sizeIn, hsizes, Option.getD_some] at hsize

theorem compose_linkedOf (h : compose digests canonicalSha256 call = .ok composed) :
    ∃ reading, call.read digests = .ok reading ∧ LinkedOf reading composed := by
  obtain ⟨reading, hread, h⟩ := bind_ok h
  obtain ⟨-, h⟩ := refuseIf_bind_eq_ok.mp h
  obtain rfl := pure_ok h
  have hreading := readingOf hread
  obtain ⟨hpos, hsum, -⟩ := reading.preset.fractions_valid
  refine ⟨reading, hread, ?_, ?_, ?_, ?_, ?_, ?_⟩
  · rw [hreading.allocation]
    exact leastCounts_allocationOf (trainSizes reading) hpos hsum
  · intro part hpart record hrecord
    exact mem_roundRobin_of_le (hreading.length_le hpart) hrecord
  · intro part hpart n hn
    rw [copies_eq] at hn
    obtain ⟨index, hindex, rfl⟩ := List.mem_map.mp hn
    exact dealt_pos (List.mem_range.mp hindex) (hreading.length_le hpart)
  · intro part hpart m hm n hn
    rw [copies_eq] at hm hn
    obtain ⟨index, hindex, rfl⟩ := List.mem_map.mp hm
    obtain ⟨other, hother, rfl⟩ := List.mem_map.mp hn
    exact dealt_le_succ (List.mem_range.mp hindex) (List.mem_range.mp hother)
  · intro split hsplit
    obtain ⟨name, -, rfl⟩ := List.mem_map.mp hsplit
    have hlinks := nodup_links (hreading.nodup_parts name) fun link =>
      (PathName.suffix link.2.image.1).toLower
    simpa only [linkedImages, List.map_flatMap, List.map_map, Function.comp_def] using hlinks
  · intro split hsplit
    obtain ⟨name, -, rfl⟩ := List.mem_map.mp hsplit
    have hlinks := nodup_links (hreading.nodup_parts name) fun _ => ".txt"
    simpa only [linkedLabels, List.map_flatMap, List.map_map, Function.comp_def] using hlinks

end Compose

end Mission10.Dataset
