import Mission10.Dataset.ComponentAgreement

/-!
# The leak filter and the leak check

The filter of the hard negatives drops a record whose provenance names a held-out
photo at its top; the check of a composition finds the photo at any depth. Both
agree on a component exactly when no provenance hides a held-out photo below its
top and the filter can read every provenance: it has a mapping, or nothing, with a
value that can be looked up under the hash.
-/
namespace Mission10.Dataset

open Outcome

/-- What the check of a composition reports: a held-out photo at any depth. -/
def leaks (excluded : List String) (provenance : Json) : Bool :=
  (provenanceSourceHashes provenance).any excluded.contains

/-- A value that counts as nothing. -/
def isFalsy : Json → Bool
  | .null => true
  | .bool value => !value
  | .int value => decide (value = 0)
  | .float value => decide (value = 0)
  | .str value => decide (value = "")
  | .arr items => items.isEmpty
  | .obj fields => fields.isEmpty

def isObject : Json → Bool
  | .obj _ => true
  | _ => false

/-- A value that can be looked up in a set. -/
def isHashable : Json → Bool
  | .arr _ => false
  | .obj _ => false
  | _ => true

/-- A provenance that the filter can read. -/
def Readable (provenance : Json) : Prop :=
  (isFalsy provenance = true ∨ isObject provenance = true) ∧
    ∀ value, provenance.get "source_sha256" = some value → isHashable value = true

/-- A provenance that the filter can read and that names a held-out photo only if it names one
at its top. -/
structure Shallow (excluded : List String) (provenance : Json) : Prop where
  readable : Readable provenance
  top : leaks excluded provenance = true → isHeldOut excluded provenance = true

/-- The records that a composition does not report. -/
def cleanRecords (excluded : List String) (source : Component) : List Record :=
  (source.split .train).filter fun record => !leaks excluded record.provenance

/-- The message of a filter that leaves nothing. -/
def nothingLeft : String := "fold filtering removed every hard-negative tile"

/-- What is written of the records that are not reported: they and no others, and a
composition that reads them again reports none. -/
structure KeepsClean (digests : Digests) (excluded : List String) (source : Component)
    (written : WrittenComponent) : Prop where
  entries : written.lock.entries = [("train", sortEntries
    (((cleanRecords excluded source).map Record.written).map recordEntry))]
  passes : ∃ again, loadComponent digests.sha256 .hardneg written.directory = .ok again ∧
    ∀ sources : List (ComponentName × Component), sources.lookup .hardneg = some again →
      refuseLeaked sources excluded .hardneg = .ok ()

/-- The filter removes what the check reports. Where nothing else is left it says so. -/
def Agrees (digests : Digests) (excluded : List String) (source : Component)
    (filtered : Except String WrittenComponent) : Prop :=
  if cleanRecords excluded source = [] then filtered = .error nothingLeft
  else ∃ written, filtered = .ok written ∧ KeepsClean digests excluded source written

/-! ### One provenance -/

variable {excluded : List String} {provenance : Json}

theorem provenanceFields_falsy (h : isFalsy provenance = true) :
    provenanceFields provenance = .ok [] := by
  cases provenance with
  | null => rfl
  | bool value =>
    cases value with
    | false => rfl
    | true => cases h
  | int value =>
    obtain rfl : value = 0 := of_decide_eq_true h
    rfl
  | float value =>
    obtain rfl : value = 0 := of_decide_eq_true h
    rfl
  | str value =>
    obtain rfl : value = "" := of_decide_eq_true h
    rfl
  | arr items =>
    obtain rfl : items = [] := by simpa [isFalsy] using h
    rfl
  | obj fields =>
    obtain rfl : fields = [] := by simpa [isFalsy] using h
    rfl

theorem provenanceFields_error (hfalsy : isFalsy provenance = false)
    (hobject : isObject provenance = false) :
    provenanceFields provenance = .error "the provenance has no attribute 'get'" := by
  unfold provenanceFields
  split
  case h_4 x =>
    rw [if_neg]
    · rfl
    · intro hzero
      simp [isFalsy, hzero] at hfalsy
  case h_7 fields => cases hobject
  case h_8 => rfl
  all_goals cases hfalsy

theorem get_falsy (h : isFalsy provenance = true) (key : String) : provenance.get key = none := by
  cases provenance with
  | obj fields =>
    obtain rfl : fields = [] := by simpa [isFalsy] using h
    rfl
  | _ => rfl

theorem isExcluded_total (excluded : List String) (value : Option Json) :
    (∃ out, isExcluded excluded value = .ok out) ↔ ∀ v, value = some v → isHashable v = true := by
  cases value with
  | none => simp [isExcluded, pure_eq_ok]
  | some v =>
    cases v with
    | arr items => simp [isExcluded, isHashable, error_ne_ok]
    | obj fields => simp [isExcluded, isHashable, error_ne_ok]
    | _ => simp [isExcluded, isHashable, pure_eq_ok]

/-- The filter reads a provenance just when it is readable. -/
theorem readable_iff (excluded : List String) : Readable provenance ↔
    ∃ fields, provenanceFields provenance = .ok fields ∧
      ∃ out, isExcluded excluded ((Json.obj fields).get "source_sha256") = .ok out := by
  simp only [isExcluded_total]
  cases hfalsy : isFalsy provenance with
  | true =>
    have hnone := get_falsy hfalsy "source_sha256"
    rw [provenanceFields_falsy hfalsy]
    refine iff_of_true ⟨Or.inl hfalsy, ?_⟩ ⟨[], rfl, ?_⟩
    · intro value hvalue
      rw [hnone] at hvalue
      cases hvalue
    · intro value hvalue
      cases hvalue
  | false =>
    cases hobject : isObject provenance with
    | false =>
      rw [provenanceFields_error hfalsy hobject]
      refine iff_of_false ?_ ?_
      · rintro ⟨hkind | hkind, -⟩
        · rw [hfalsy] at hkind
          cases hkind
        · rw [hobject] at hkind
          cases hkind
      · rintro ⟨fields, hfields, -⟩
        cases hfields
    | true =>
      cases provenance with
      | obj fields =>
        constructor
        · rintro ⟨-, hvalues⟩
          exact ⟨fields, rfl, hvalues⟩
        · rintro ⟨fields', hfields, hvalues⟩
          obtain rfl := pure_ok hfields
          exact ⟨Or.inr rfl, hvalues⟩
      | _ => cases hobject

theorem leaks_of_isHeldOut (h : isHeldOut excluded provenance = true) :
    leaks excluded provenance = true := by
  unfold isHeldOut at h
  split at h
  · rename_i hash hget
    exact List.any_eq_true.mpr ⟨hash, Json.mem_stringsUnder_of_get hget, h⟩
  · cases h

/-- What is written of a readable provenance names the same photos. -/
theorem written_hashes {record : Record} (h : Readable record.provenance) :
    provenanceSourceHashes record.written.provenance =
      provenanceSourceHashes record.provenance := by
  obtain ⟨hkind, -⟩ := h
  rw [Record.written]
  cases hprovenance : record.provenance with
  | arr items =>
    rw [hprovenance] at hkind
    have hempty : items = [] := by simpa [isFalsy, isObject] using hkind
    rw [hempty]
    rfl
  | _ => rfl

/-! ### All records -/

variable {records : List Record}

/-- The filter reads all records just when their provenances are readable. -/
theorem keepRecords_total : (∃ kept, keepRecords excluded records = .ok kept) ↔
    ∀ record ∈ records, Readable record.provenance := by
  induction records with
  | nil => exact iff_of_true ⟨_, rfl⟩ (by simp)
  | cons record records ih =>
    rw [List.forall_mem_cons, ← ih, readable_iff excluded]
    constructor
    · rintro ⟨kept, hkept⟩
      obtain ⟨fields, hfields, hkept⟩ := bind_ok hkept
      obtain ⟨out, hout, hkept⟩ := bind_ok hkept
      obtain ⟨rest, hrest, -⟩ := bind_ok hkept
      exact ⟨⟨fields, hfields, out, hout⟩, rest, hrest⟩
    · rintro ⟨⟨fields, hfields, out, hout⟩, rest, hrest⟩
      refine bind_total hfields (bind_total hout (bind_total hrest ?_))
      cases out <;> exact ⟨_, rfl⟩

/-- The messages of the filter about one provenance. -/
theorem provenance_error {err : String} (h : provenanceFields provenance = .error err) :
    err ≠ nothingLeft := by
  cases hfalsy : isFalsy provenance with
  | true =>
    rw [provenanceFields_falsy hfalsy] at h
    cases h
  | false =>
    cases hobject : isObject provenance with
    | true =>
      cases provenance with
      | obj fields => cases h
      | _ => cases hobject
    | false =>
      rw [provenanceFields_error hfalsy hobject] at h
      obtain rfl := Except.error.inj h
      decide

theorem isExcluded_error {value : Option Json} {err : String}
    (h : isExcluded excluded value = .error err) : err ≠ nothingLeft := by
  cases value with
  | none => cases h
  | some v =>
    cases v with
    | arr items =>
      obtain rfl := Except.error.inj h
      decide
    | obj fields =>
      obtain rfl := Except.error.inj h
      decide
    | _ => cases h

theorem keepRecords_error {err : String} (h : keepRecords excluded records = .error err) :
    err ≠ nothingLeft := by
  induction records with
  | nil => cases h
  | cons record records ih =>
    rcases bind_error h with h | ⟨fields, -, h⟩
    · exact provenance_error h
    rcases bind_error h with h | ⟨out, -, h⟩
    · exact isExcluded_error h
    rcases bind_error h with h | ⟨rest, -, h⟩
    · exact ih h
    · cases out <;> cases h

/-- The records that are not reported are those that are kept when a photo is found at the top
wherever it is found. -/
theorem filter_eq_iff (excluded : List String) (records : List Record) :
    ((records.filter fun record => !isHeldOut excluded record.provenance).length =
        (records.filter fun record => !leaks excluded record.provenance).length ↔
      ∀ record ∈ records, leaks excluded record.provenance = true →
        isHeldOut excluded record.provenance = true) := by
  have hsub : (records.filter fun record => !leaks excluded record.provenance).Sublist
      (records.filter fun record => !isHeldOut excluded record.provenance) := by
    apply List.monotone_filter_right
    intro record hclean
    by_contra hheld
    have hleaks : leaks excluded record.provenance = true :=
      leaks_of_isHeldOut (by simpa using hheld)
    simp [hleaks] at hclean
  constructor
  · intro hlength record hrecord hleaks
    have heq := hsub.eq_of_length hlength.symm
    by_contra hnot
    have hmem : record ∈ records.filter fun record => !isHeldOut excluded record.provenance := by
      rw [List.mem_filter]
      exact ⟨hrecord, by simpa using hnot⟩
    rw [← heq, List.mem_filter, hleaks] at hmem
    cases hmem.2
  · intro h
    apply congrArg List.length
    apply List.filter_congr
    intro record hrecord
    cases hheld : isHeldOut excluded record.provenance with
    | true => rw [leaks_of_isHeldOut hheld]
    | false =>
      cases hleaks : leaks excluded record.provenance with
      | false => rfl
      | true =>
        rw [h record hrecord hleaks] at hheld
        cases hheld

/-! ### The filter -/

section Filter

variable {digests : Digests} {dumps : ComponentLock → List UInt8} {sourceComponent : Directory}
  {out : Out} {foldLockPath : String} {foldLock : JsonFile FoldDocument} {heldOutFold : ℤ}
  {source : Component}

/-- What a filter is given: a component that is read, a fold lock, and an empty directory. -/
structure FilterInputs (digests : Digests) (sourceComponent : Directory) (out : Out)
    (foldLock : JsonFile FoldDocument) (heldOutFold : ℤ) (source : Component)
    (excluded : List String) : Prop where
  source : loadComponent digests.sha256 .hardneg sourceComponent = .ok source
  fold : ∃ fold, loadFoldDocument digests foldLock = .ok fold ∧
    sourceHashes digests fold heldOutFold true = .ok excluded
  empty : out.empty = true

theorem FilterInputs.excluded_eq
    (h : FilterInputs digests sourceComponent out foldLock heldOutFold source excluded) :
    excluded = sideHashes foldLock.document heldOutFold true := by
  obtain ⟨fold, hfold, hexcluded⟩ := h.fold
  rw [(validateFoldDocument_nodup hfold).1] at hexcluded
  exact (sourceHashes_ok hexcluded).1

/-- The filter is the choice of the records and what is made of it. -/
theorem FilterInputs.filter_cases
    (h : FilterInputs digests sourceComponent out foldLock heldOutFold source excluded)
    (dumps : ComponentLock → List UInt8) (foldLockPath : String) :
    (∃ err, keepRecords excluded (source.split .train) = .error err ∧
      filterHardNegatives digests dumps sourceComponent out foldLockPath foldLock heldOutFold =
        .error err) ∨
    ∃ kept, keepRecords excluded (source.split .train) = .ok kept ∧
      (kept.1 = [] → filterHardNegatives digests dumps sourceComponent out foldLockPath foldLock
        heldOutFold = .error nothingLeft) ∧
      (kept.1 ≠ [] → ∃ written, filterHardNegatives digests dumps sourceComponent out foldLockPath
        foldLock heldOutFold = .ok written) := by
  obtain ⟨fold, hfold, hexcluded⟩ := h.fold
  simp only [filterHardNegatives, h.source, hfold, hexcluded, ok_bind]
  rw [refuseIf_neg (not_not.mpr h.empty), ok_bind]
  cases hkept : keepRecords excluded (source.split .train) with
  | error err => exact Or.inl ⟨err, rfl, rfl⟩
  | ok kept =>
    refine Or.inr ⟨kept, rfl, fun hnone => ?_, fun hsome => ?_⟩
    · rw [ok_bind, refuseIf_pos hnone, error_bind]
      rfl
    · rw [ok_bind, refuseIf_neg hsome, ok_bind]
      exact ⟨_, rfl⟩

/-- What the filter writes, of the component that was read. -/
theorem FilterInputs.filteredOf
    (h : FilterInputs digests sourceComponent out foldLock heldOutFold source excluded)
    {written : WrittenComponent}
    (hwritten : filterHardNegatives digests dumps sourceComponent out foldLockPath foldLock
      heldOutFold = .ok written) :
    ∃ kept, FilteredOf digests sourceComponent excluded source kept written := by
  obtain ⟨-, other, kept, hfiltered⟩ := filterHardNegatives_ok hwritten
  have hread := hfiltered.read
  rw [h.source] at hread
  obtain rfl := Except.ok.inj hread
  rw [← h.excluded_eq] at hfiltered
  exact ⟨kept, hfiltered⟩

/-- What a filter of readable and shallow provenances leaves is clean, and passes the check. -/
theorem FilterInputs.keepsClean
    (h : FilterInputs digests sourceComponent out foldLock heldOutFold source excluded)
    (hshallow : ∀ record ∈ source.split .train, Shallow excluded record.provenance)
    {written : WrittenComponent}
    (hwritten : filterHardNegatives digests dumps sourceComponent out foldLockPath foldLock
      heldOutFold = .ok written) : KeepsClean digests excluded source written := by
  obtain ⟨again, hagain, -⟩ := filterHardNegatives_readsBack hwritten
  obtain ⟨kept, hfiltered⟩ := h.filteredOf hwritten
  have hclean : ((source.split .train).filter fun record =>
      !isHeldOut excluded record.provenance) = cleanRecords excluded source := by
    apply List.filter_congr
    intro record hrecord
    have hiff : isHeldOut excluded record.provenance = true ↔
        leaks excluded record.provenance = true :=
      ⟨leaks_of_isHeldOut, (hshallow record hrecord).top⟩
    rw [Bool.eq_iff_iff.mpr hiff]
  have hkept := hfiltered.filtered
  rw [hclean] at hkept
  refine ⟨by rw [hfiltered.entries, hkept], again, hagain, fun sources hsources => ?_⟩
  obtain ⟨records, hrecords, hsplit⟩ := hfiltered.read_back hagain
  have hnone : ∀ record ∈ again.split .train, leaks excluded record.provenance = false := by
    intro record hrecord
    rw [hsplit] at hrecord
    obtain ⟨entry, hentry, hof⟩ :=
      exists_left_of_forall₂ hrecords (mem_sortRecords.mp hrecord)
    obtain ⟨original, horiginal, rfl⟩ := List.mem_map.mp (mem_sortEntries.mp hentry)
    rw [hkept] at horiginal
    obtain ⟨first, hfirst, rfl⟩ := List.mem_map.mp horiginal
    obtain ⟨hmem, hnot⟩ := List.mem_filter.mp hfirst
    have hprovenance : record.provenance = first.written.provenance := hof.provenance
    rw [leaks, hprovenance, written_hashes (hshallow first hmem).readable]
    simpa [leaks] using hnot
  have hleaked : (((again.split .train).flatMap fun record =>
      (provenanceSourceHashes record.provenance).filter (· ∈ excluded)).dedup) = [] := by
    rw [List.dedup_eq_nil, List.flatMap_eq_nil_iff]
    intro record hrecord
    rw [List.filter_eq_nil_iff]
    intro hash hhash hmem
    have hfalse := hnone record hrecord
    rw [leaks, List.any_eq_false] at hfalse
    exact hfalse hash hhash (by simpa using hmem)
  have hget : getOr (sources.lookup .hardneg) ComponentName.hardneg.name = .ok again :=
    getOr_eq_ok.mpr hsources
  rw [refuseLeaked, hget, ok_bind, refuseIf_eq_ok]
  exact not_not.mpr hleaked

/-- Clean entries are as many as the records that are kept. -/
theorem FilterInputs.length_eq
    (h : FilterInputs digests sourceComponent out foldLock heldOutFold source excluded)
    {written : WrittenComponent}
    (hwritten : filterHardNegatives digests dumps sourceComponent out foldLockPath foldLock
      heldOutFold = .ok written) (hkeeps : KeepsClean digests excluded source written) :
    ((source.split .train).filter fun record =>
      !isHeldOut excluded record.provenance).length = (cleanRecords excluded source).length := by
  obtain ⟨kept, hfiltered⟩ := h.filteredOf hwritten
  have hentries := hkeeps.entries
  rw [hfiltered.entries, hfiltered.filtered] at hentries
  have hsorted := (Prod.mk.inj (List.cons.inj hentries).1).2
  have hlength := congrArg List.length hsorted
  simpa [sortEntries] using hlength

/-- The filter and the check agree on a component exactly when every provenance is readable and
hides no held-out photo below its top. -/
theorem filter_agrees_iff (dumps : ComponentLock → List UInt8) (foldLockPath : String)
    (h : FilterInputs digests sourceComponent out foldLock heldOutFold source excluded) :
    Agrees digests excluded source
        (filterHardNegatives digests dumps sourceComponent out foldLockPath foldLock
          heldOutFold) ↔
      ∀ record ∈ source.split .train, Shallow excluded record.provenance := by
  have hlength {kept : List Record × ℕ}
      (hkept : keepRecords excluded (source.split .train) = .ok kept) : kept.1.length =
        ((source.split .train).filter fun record =>
          !isHeldOut excluded record.provenance).length := by
    rw [keepRecords_ok hkept, List.length_map]
  constructor
  · intro hagrees
    rcases h.filter_cases dumps foldLockPath with
      ⟨err, hkept, hfilter⟩ | ⟨kept, hkept, hnone, hsome⟩
    · exfalso
      rw [Agrees, hfilter] at hagrees
      split at hagrees
      · exact keepRecords_error hkept (Except.error.inj hagrees)
      · obtain ⟨written, hwritten, -⟩ := hagrees
        cases hwritten
    · have hreadable := keepRecords_total.mp ⟨kept, hkept⟩
      have hsame : ((source.split .train).filter fun record =>
          !isHeldOut excluded record.provenance).length =
            (cleanRecords excluded source).length := by
        rw [Agrees] at hagrees
        split at hagrees
        · rename_i hclean
          rw [← hlength hkept, hclean]
          by_contra hne
          obtain ⟨written, hwritten⟩ := hsome fun hnil => hne (by rw [hnil])
          rw [hwritten] at hagrees
          cases hagrees
        · obtain ⟨written, hwritten, hkeeps⟩ := hagrees
          exact h.length_eq hwritten hkeeps
      intro record hrecord
      exact ⟨hreadable record hrecord, (filter_eq_iff _ _).mp hsame record hrecord⟩
  · intro hshallow
    have hsame := (filter_eq_iff excluded (source.split .train)).mpr fun record hrecord =>
      (hshallow record hrecord).top
    rcases h.filter_cases dumps foldLockPath with
      ⟨err, hkept, -⟩ | ⟨kept, hkept, hnone, hsome⟩
    · exfalso
      obtain ⟨kept, hok⟩ := keepRecords_total.mpr fun record hrecord =>
        (hshallow record hrecord).readable
      rw [hkept] at hok
      cases hok
    · rw [← hlength hkept] at hsame
      rw [Agrees]
      split
      · rename_i hclean
        apply hnone
        rw [← List.length_eq_zero_iff, hsame]
        exact List.length_eq_zero_iff.mpr hclean
      · rename_i hclean
        obtain ⟨written, hwritten⟩ := hsome fun hnil => by
          rw [hnil, List.length_nil] at hsame
          exact hclean (List.length_eq_zero_iff.mp hsame.symm)
        exact ⟨written, hwritten, h.keepsClean hshallow hwritten⟩

end Filter

section Sample

/-- Hard negatives with the provenances given. -/
def sampleOf (provenances : List (String × Json)) : Directory where
  path := "/hardneg"
  splitLock := none
  componentLock := some
    { document :=
        { schema := "mission10-yolo-training-component/1"
          datasetSha256 := ""
          entries := [("train", provenances.map fun tile =>
            { tile := tile.1
              boxes := 0
              imageSha256 := sampleDigests.sha256 []
              labelSha256 := sampleDigests.sha256 []
              provenance := tile.2 })]
          metadata := [] }
      bytes := [0x7B, 0x7D] }
  hasDatasetYaml := false
  images := fun _ => some (provenances.map fun tile => (tile.1 ++ ".png", []))
  labels := fun _ => some (provenances.map fun tile => (tile.1 ++ ".txt", ""))

def sampleHeldOut : String := samplePhotoHashes.1

/-- A tile of a held-out photo, and one without a provenance. -/
def sampleTop : Directory :=
  sampleOf [("hn_0", .obj [("source_sha256", .str sampleHeldOut)]), ("hn_1", .null)]

/-- A tile that names a held-out photo in a list. -/
def sampleNested : Directory :=
  sampleOf [("hn_0", .obj [("sources", .arr [.obj [("source_sha256", .str sampleHeldOut)]])])]

theorem sample_filterInputs {provenances : List (String × Json)} {source : Component}
    (hsource : loadComponent sampleDigests.sha256 .hardneg (sampleOf provenances) = .ok source) :
    FilterInputs sampleDigests (sampleOf provenances) ⟨"/filtered", true⟩
      (sampleFold sampleHeldOut).foldLock 1 source [sampleHeldOut] := by
  have hfold : (loadFoldDocument sampleDigests (sampleFold sampleHeldOut).foldLock).toOption =
      some (sampleFold sampleHeldOut).foldLock.document := by decide +kernel
  have hhashes : (sourceHashes sampleDigests (sampleFold sampleHeldOut).foldLock.document 1
      true).toOption = some [sampleHeldOut] := by decide +kernel
  exact ⟨hsource, ⟨_, ok_of_toOption hfold, ok_of_toOption hhashes⟩, rfl⟩

/-- The record of a sample has one of the provenances given. -/
theorem sample_provenance {provenances : List (String × Json)} {source : Component}
    (hsource : loadComponent sampleDigests.sha256 .hardneg (sampleOf provenances) = .ok source)
    {record : Record} (hrecord : record ∈ source.split .train) :
    ∃ tile ∈ provenances, record.provenance = tile.2 := by
  obtain ⟨lockFile, hfile⟩ := loadComponent_eq_ok.mp hsource
  obtain ⟨entry, hentry, heq⟩ := hfile.train.provenance hrecord
  obtain rfl := Option.some.inj hfile.hasLock
  obtain ⟨tile, htile, rfl⟩ := List.mem_map.mp hentry
  exact ⟨tile, htile, heq⟩

theorem filter_agrees_iff_sample : ∃ source,
    loadComponent sampleDigests.sha256 .hardneg sampleTop = .ok source ∧
      Agrees sampleDigests [sampleHeldOut] source
        (filterHardNegatives sampleDigests (fun _ => []) sampleTop ⟨"/filtered", true⟩
          "/folds.json" (sampleFold sampleHeldOut).foldLock 1) := by
  have hread : (loadComponent sampleDigests.sha256 .hardneg sampleTop).isOk = true := by
    decide +kernel
  obtain ⟨source, hsource⟩ := ok_of_isOk hread
  refine ⟨source, hsource, (filter_agrees_iff _ _ (sample_filterInputs hsource)).mpr ?_⟩
  intro record hrecord
  obtain ⟨tile, htile, heq⟩ := sample_provenance hsource hrecord
  rw [heq]
  rcases List.mem_pair.mp htile with rfl | rfl
  · have htop : isHeldOut [sampleHeldOut] (.obj [("source_sha256", .str sampleHeldOut)]) =
        true := by decide +kernel
    refine ⟨⟨Or.inr rfl, fun value hvalue => ?_⟩, fun _ => htop⟩
    obtain rfl := Option.some.inj hvalue
    rfl
  · refine ⟨⟨Or.inl rfl, fun value hvalue => by cases hvalue⟩, fun hleaks => ?_⟩
    have hnone : leaks [sampleHeldOut] .null = false := by decide +kernel
    rw [hnone] at hleaks
    cases hleaks

/-- A photo that is named in a list stays, and the check finds it in what was written. -/
theorem nested_photo_not_filtered : ∃ source written again,
    loadComponent sampleDigests.sha256 .hardneg sampleNested = .ok source ∧
      filterHardNegatives sampleDigests (fun _ => []) sampleNested ⟨"/filtered", true⟩
        "/folds.json" (sampleFold sampleHeldOut).foldLock 1 = .ok written ∧
      loadComponent sampleDigests.sha256 .hardneg written.directory = .ok again ∧
      (refuseLeaked [(.hardneg, again)] [sampleHeldOut] .hardneg).isOk = false ∧
      ¬ Agrees sampleDigests [sampleHeldOut] source (.ok written) := by
  have hread : (loadComponent sampleDigests.sha256 .hardneg sampleNested).isOk = true := by
    decide +kernel
  have hfilter : (filterHardNegatives sampleDigests (fun _ => []) sampleNested
      ⟨"/filtered", true⟩ "/folds.json" (sampleFold sampleHeldOut).foldLock 1).isOk = true := by
    decide +kernel
  have hrefused : ((filterHardNegatives sampleDigests (fun _ => []) sampleNested
      ⟨"/filtered", true⟩ "/folds.json" (sampleFold sampleHeldOut).foldLock 1 >>= fun written =>
        loadComponent sampleDigests.sha256 .hardneg written.directory).bind fun again =>
        refuseLeaked [(.hardneg, again)] [sampleHeldOut] .hardneg).isOk = false := by
    decide +kernel
  obtain ⟨source, hsource⟩ := ok_of_isOk hread
  obtain ⟨written, hwritten⟩ := ok_of_isOk hfilter
  obtain ⟨again, hagain, -⟩ := filterHardNegatives_readsBack hwritten
  rw [hwritten, ok_bind, hagain] at hrefused
  refine ⟨source, written, again, hsource, hwritten, hagain, hrefused, fun hagrees => ?_⟩
  rw [Agrees] at hagrees
  split at hagrees
  · cases hagrees
  · obtain ⟨same, hsame, hkeeps⟩ := hagrees
    obtain rfl := Except.ok.inj hsame
    obtain ⟨other, hother, hpasses⟩ := hkeeps.passes
    rw [hagain] at hother
    obtain rfl := Except.ok.inj hother
    have hok := hpasses [(.hardneg, again)] rfl
    have hnot : (refuseLeaked [(.hardneg, again)] [sampleHeldOut] .hardneg).isOk = false :=
      hrefused
    rw [hok] at hnot
    cases hnot

end Sample

end Mission10.Dataset
