import Mission10.Dataset.HardNegativeReview
import Mission10.Dataset.HeldOut

/-!
# Materialized hard negatives

The loop over the entries of a review keeps its books: every entry is written, is
the copy of one that is written, or was rejected, and no two images that are
written are the same. With what holds of the proposal, every tile that is written
is a clear tile of a certified training photo.
-/
namespace Mission10.Dataset.HardNegatives

open Outcome

/-- The names of the rejected entries. -/
def rejectedIds (entries : List ReviewEntry) : List String :=
  (entries.filter fun entry => entry.confirmation = .rejected).map ReviewEntry.id

section Loop

variable {digests : TileDigests} {pillow : Pillow} {sources : Sources} {document : Labels}
  {certificationBacked : Bool} {done entries : List ReviewEntry} {progress next : Progress}
  {entry : ReviewEntry}

/-- A tile that is written of an entry. -/
def WrittenOf (digests : TileDigests) (pillow : Pillow) (sources : Sources) (document : Labels)
    (certificationBacked : Bool) (entry : ReviewEntry) (tile : NegativeTile) : Prop :=
  ∃ basis image, selectionBasis certificationBacked entry.confirmation = some basis ∧
    tileImage digests pillow sources document entry = .ok image ∧
      tile = negativeTile digests entry basis image

/-- The books of the loop after some entries. -/
structure Books (digests : TileDigests) (pillow : Pillow) (sources : Sources) (document : Labels)
    (certificationBacked : Bool) (done : List ReviewEntry) (progress : Progress) : Prop where
  account : (progress.tiles.map NegativeTile.reviewEntryId ++
    progress.duplicates.map Duplicate.entryId ++ rejectedIds done).Perm (done.map ReviewEntry.id)
  rejected : progress.humanRejected = (rejectedIds done).length
  written : ∀ tile ∈ progress.tiles, ∃ entry ∈ done,
    WrittenOf digests pillow sources document certificationBacked entry tile
  unique : (progress.tiles.map NegativeTile.imageSha256).Nodup
  owned : ∀ duplicate ∈ progress.duplicates,
    ∃ tile ∈ progress.tiles, tile.reviewEntryId = duplicate.duplicateOf

theorem rejectedIds_append (first second : List ReviewEntry) :
    rejectedIds (first ++ second) = rejectedIds first ++ rejectedIds second := by
  rw [rejectedIds, List.filter_append, List.map_append]
  rfl

theorem rejectedIds_singleton (h : entry.confirmation = .rejected) :
    rejectedIds [entry] = [entry.id] := by
  simp [rejectedIds, h]

theorem rejectedIds_singleton_of_ne (h : entry.confirmation ≠ .rejected) :
    rejectedIds [entry] = [] := by
  simp [rejectedIds, h]

theorem Books.start : Books digests pillow sources document certificationBacked []
    Progress.start where
  account := List.Perm.refl _
  rejected := rfl
  written := by
    intro tile htile
    cases htile
  unique := List.nodup_nil
  owned := by
    intro duplicate hduplicate
    cases hduplicate

theorem selectionBasis_eq_none (hdecided : certificationBacked = true ∨ entry.confirmation ≠ .pending) :
    selectionBasis certificationBacked entry.confirmation = none ↔
      entry.confirmation = .rejected := by
  cases hconfirmation : entry.confirmation with
  | pending =>
    rw [hconfirmation] at hdecided
    obtain hbacked : certificationBacked = true := by simpa using hdecided
    simp [selectionBasis, hbacked]
  | confirmed => simp [selectionBasis]
  | rejected => simp [selectionBasis]

theorem Books.reject (h : Books digests pillow sources document certificationBacked done progress)
    (hrejected : entry.confirmation = .rejected) :
    Books digests pillow sources document certificationBacked (done ++ [entry])
      { progress with humanRejected := progress.humanRejected + 1 } where
  account := by
    rw [rejectedIds_append, rejectedIds_singleton hrejected, List.map_append, ← List.append_assoc]
    exact h.account.append_right _
  rejected := by
    rw [rejectedIds_append, rejectedIds_singleton hrejected, List.length_append, h.rejected]
    rfl
  written tile htile := by
    obtain ⟨other, hother, hof⟩ := h.written tile htile
    exact ⟨other, List.mem_append_left _ hother, hof⟩
  unique := h.unique
  owned := h.owned

theorem Books.copy (h : Books digests pillow sources document certificationBacked done progress)
    (hkept : entry.confirmation ≠ .rejected) {imageSha256 owner : String}
    (howner : progress.owner imageSha256 = some owner) :
    Books digests pillow sources document certificationBacked (done ++ [entry])
      { progress with duplicates := progress.duplicates ++ [⟨entry.id, owner⟩] } where
  account := by
    rw [rejectedIds_append, rejectedIds_singleton_of_ne hkept, List.append_nil, List.map_append,
      List.map_append]
    have hmove : (progress.tiles.map NegativeTile.reviewEntryId ++
        (progress.duplicates.map Duplicate.entryId ++ [entry.id]) ++ rejectedIds done).Perm
        (progress.tiles.map NegativeTile.reviewEntryId ++
          progress.duplicates.map Duplicate.entryId ++ rejectedIds done ++ [entry.id]) := by
      rw [List.perm_iff_count]
      intro id
      simp only [List.count_append]
      omega
    exact hmove.trans (h.account.append_right _)
  rejected := by
    rw [rejectedIds_append, rejectedIds_singleton_of_ne hkept, List.append_nil]
    exact h.rejected
  written tile htile := by
    obtain ⟨other, hother, hof⟩ := h.written tile htile
    exact ⟨other, List.mem_append_left _ hother, hof⟩
  unique := h.unique
  owned := by
    intro duplicate hduplicate
    rcases List.mem_append.mp hduplicate with hduplicate | hduplicate
    · exact h.owned duplicate hduplicate
    · rw [List.mem_singleton.mp hduplicate]
      obtain ⟨tile, hfound, hid⟩ := Option.map_eq_some_iff.mp howner
      exact ⟨tile, List.mem_of_find?_eq_some hfound, hid⟩

theorem write_tiles (progress : Progress) (tile : NegativeTile) :
    (progress.write tile).tiles = progress.tiles ++ [tile] := by
  unfold Progress.write
  cases tile.selectionBasis <;> rfl

theorem write_duplicates (progress : Progress) (tile : NegativeTile) :
    (progress.write tile).duplicates = progress.duplicates := by
  unfold Progress.write
  cases tile.selectionBasis <;> rfl

theorem write_humanRejected (progress : Progress) (tile : NegativeTile) :
    (progress.write tile).humanRejected = progress.humanRejected := by
  unfold Progress.write
  cases tile.selectionBasis <;> rfl

theorem Books.write (h : Books digests pillow sources document certificationBacked done progress)
    (hkept : entry.confirmation ≠ .rejected) {tile : NegativeTile}
    (htile : WrittenOf digests pillow sources document certificationBacked entry tile)
    (hnew : progress.owner tile.imageSha256 = none) :
    Books digests pillow sources document certificationBacked (done ++ [entry])
      (progress.write tile) where
  account := by
    have hid : tile.reviewEntryId = entry.id := by
      obtain ⟨_, _, -, -, rfl⟩ := htile
      rfl
    rw [write_tiles, write_duplicates, rejectedIds_append, rejectedIds_singleton_of_ne hkept,
      List.append_nil, List.map_append, List.map_append, List.map_singleton, hid]
    have hmove : (progress.tiles.map NegativeTile.reviewEntryId ++ [entry.id] ++
        progress.duplicates.map Duplicate.entryId ++ rejectedIds done).Perm
        (progress.tiles.map NegativeTile.reviewEntryId ++
          progress.duplicates.map Duplicate.entryId ++ rejectedIds done ++ [entry.id]) := by
      rw [List.perm_iff_count]
      intro id
      simp only [List.count_append]
      omega
    exact hmove.trans (h.account.append_right _)
  rejected := by
    rw [write_humanRejected, rejectedIds_append, rejectedIds_singleton_of_ne hkept,
      List.append_nil]
    exact h.rejected
  written := by
    intro other hother
    rw [write_tiles] at hother
    rcases List.mem_append.mp hother with hother | hother
    · obtain ⟨first, hfirst, hof⟩ := h.written other hother
      exact ⟨first, List.mem_append_left _ hfirst, hof⟩
    · rw [List.mem_singleton.mp hother]
      exact ⟨entry, List.mem_append_right _ (List.mem_singleton_self _), htile⟩
  unique := by
    rw [write_tiles, List.map_append, List.map_singleton, List.nodup_append]
    refine ⟨h.unique, List.nodup_singleton _, fun first hfirst second hsecond => ?_⟩
    obtain ⟨other, hother, rfl⟩ := List.mem_map.mp hfirst
    rw [List.mem_singleton.mp hsecond]
    intro hsame
    have hnone := List.find?_eq_none.mp (Option.map_eq_none_iff.mp hnew) other hother
    exact hnone (decide_eq_true hsame)
  owned := by
    intro duplicate hduplicate
    rw [write_duplicates] at hduplicate
    obtain ⟨other, hother, hid⟩ := h.owned duplicate hduplicate
    rw [write_tiles]
    exact ⟨other, List.mem_append_left _ hother, hid⟩

/-- One pass of the loop keeps the books. -/
theorem Books.step (h : Books digests pillow sources document certificationBacked done progress)
    (hdecided : certificationBacked = true ∨ entry.confirmation ≠ .pending)
    (hnext : materializeEntry digests pillow sources document certificationBacked progress entry =
      .ok next) :
    Books digests pillow sources document certificationBacked (done ++ [entry]) next := by
  unfold materializeEntry at hnext
  cases hbasis : selectionBasis certificationBacked entry.confirmation with
  | none =>
    have hrejected := (selectionBasis_eq_none hdecided).mp hbasis
    simp only [hbasis, if_pos hrejected] at hnext
    rw [pure_ok hnext]
    exact h.reject hrejected
  | some basis =>
    have hkept : entry.confirmation ≠ .rejected := by
      intro hrejected
      rw [(selectionBasis_eq_none hdecided).mpr hrejected] at hbasis
      cases hbasis
    simp only [hbasis] at hnext
    obtain ⟨image, himage, hnext⟩ := bind_ok hnext
    cases howner : progress.owner (digests.sha256 image) with
    | some owner =>
      simp only [howner] at hnext
      rw [pure_ok hnext]
      exact h.copy hkept howner
    | none =>
      simp only [howner] at hnext
      rw [pure_ok hnext]
      exact h.write hkept ⟨basis, image, hbasis, himage, rfl⟩ howner

/-- So does the loop. -/
theorem Books.run (h : Books digests pillow sources document certificationBacked done progress)
    (hdecided : ∀ entry ∈ entries, certificationBacked = true ∨ entry.confirmation ≠ .pending)
    (hnext : entries.foldlM
      (materializeEntry digests pillow sources document certificationBacked) progress = .ok next) :
    Books digests pillow sources document certificationBacked (done ++ entries) next := by
  induction entries generalizing done progress with
  | nil =>
    rw [pure_ok hnext, List.append_nil]
    exact h
  | cons entry entries ih =>
    rw [List.foldlM_cons] at hnext
    obtain ⟨passed, hpassed, hnext⟩ := bind_ok hnext
    obtain ⟨hfirst, hrest⟩ := List.forall_mem_cons.mp hdecided
    have hbooks := ih (h.step hfirst hpassed) hrest hnext
    rwa [List.append_assoc] at hbooks

end Loop

/-! ### The component -/

section Component

variable {digests : TileDigests} {pillow : Pillow} {sources : Sources} {labels : FileAt Labels}
  {baseline : FileAt Audit} {proposal : Review} {certificationBacked : Bool} {out : Out}
  {component : HardNegativeComponent}

/-- A tile that was proposed and not rejected, clear of the annotations of a certified
training photo that it was cut from. -/
structure CleanTile (digests : TileDigests) (pillow : Pillow) (labels : Labels)
    (proposal review : Review) (certificationBacked : Bool) (tile : NegativeTile) : Prop where
  proposed : ∃ entry ∈ proposal.entries, entry.id = tile.reviewEntryId ∧
    entry.tileXyxy = tile.tileXyxy ∧ entry.sourceSha256 = tile.sourceSha256
  kept : ∀ entry ∈ review.entries, entry.id = tile.reviewEntryId →
    entry.confirmation ≠ .rejected ∧ (certificationBacked = false → entry.confirmation = .confirmed)
  photo : ∃ record ∈ labels.images, record.sourceSha256 = tile.sourceSha256 ∧
    record.role ∈ trainingRoles ∧ record.reviewState = .certified ∧ ClearTile record tile.tileXyxy
  image : ∃ bytes image cropped, digests.sha256 bytes = tile.sourceSha256 ∧
    pillow.openRgb bytes = some image ∧ cropTile pillow image tile.tileXyxy = .ok cropped ∧
      tile.image = pillow.png cropped

/-- A component of clean tiles, no two of them with one image, in which every entry of the
review is accounted for. -/
structure CleanComponent (digests : TileDigests) (pillow : Pillow) (labels : Labels)
    (proposal review : Review) (certificationBacked : Bool) (component : HardNegativeComponent) :
    Prop where
  clean : ∀ tile ∈ component.tiles,
    CleanTile digests pillow labels proposal review certificationBacked tile
  files : component.images.Perm (component.tiles.map fun tile => (tile.tile ++ ".png", tile.image))
  names : (component.images.map Prod.fst).Nodup
  unique : (component.images.map Prod.snd).Nodup
  account : (component.tiles.map NegativeTile.reviewEntryId ++
    component.duplicates.map Duplicate.entryId ++ rejectedIds review.entries).Perm
      (review.entries.map ReviewEntry.id)
  rejected : component.humanRejected = (rejectedIds review.entries).length
  owned : ∀ duplicate ∈ component.duplicates,
    ∃ tile ∈ component.tiles, tile.reviewEntryId = duplicate.duplicateOf

/-- What the photo's file and the entry say of the image of a tile. -/
theorem tileImage_ok {document : Labels} {entry : ReviewEntry} {png : List UInt8}
    (h : tileImage digests pillow sources document entry = .ok png) :
    ∃ bytes image cropped, digests.sha256 bytes = entry.sourceSha256 ∧
      pillow.openRgb bytes = some image ∧ cropTile pillow image entry.tileXyxy = .ok cropped ∧
        png = pillow.png cropped := by
  obtain ⟨record, hrecord, h⟩ := bind_ok h
  obtain ⟨bytes, -, h⟩ := bind_ok h
  obtain ⟨hsource, h⟩ := refuseIf_bind_eq_ok.mp h
  obtain ⟨image, himage, h⟩ := bind_ok h
  obtain ⟨-, h⟩ := refuseIf_bind_eq_ok.mp h
  obtain ⟨cropped, hcropped, h⟩ := bind_ok h
  have hhash : record.sourceSha256 = entry.sourceSha256 := by
    simpa using List.find?_some (getOr_eq_ok.mp hrecord)
  exact ⟨bytes, image, cropped, (not_not.mp hsource).trans hhash, getOr_eq_ok.mp himage, hcropped,
    pure_ok h⟩

/-- What is written of a review with the provenance of the proposal is clean. -/
theorem cleanTile_of_written {review : Review} (hproposal : ProposalOf digests labels baseline proposal)
    (hsame : review.provenance = proposal.provenance)
    (hnodup : (review.entries.map ReviewEntry.id).Nodup)
    (hdecided : ∀ entry ∈ review.entries,
      certificationBacked = true ∨ entry.confirmation ≠ .pending)
    {entry : ReviewEntry} (hentry : entry ∈ review.entries) {tile : NegativeTile}
    (htile : WrittenOf digests pillow sources labels.document certificationBacked entry tile) :
    CleanTile digests pillow labels.document proposal review certificationBacked tile := by
  obtain ⟨basis, png, hbasis, hpng, rfl⟩ := htile
  have hmem := hproposal.mem_of_provenance hsame hentry
  obtain ⟨record, hrecord, heligible, kind, confidence, origin, heq, hclear⟩ :=
    hproposal.proposed _ hmem
  obtain ⟨hrole, hstate⟩ := Bool.and_eq_true_iff.mp heligible
  have hsha256 : entry.sourceSha256 = record.sourceSha256 := congrArg ReviewEntry.sourceSha256 heq
  have hcorners : entry.tileXyxy = [origin.1, origin.2, origin.1 + proposal.tilePx,
      origin.2 + proposal.tilePx] := congrArg ReviewEntry.tileXyxy heq
  refine ⟨⟨_, hmem, rfl, rfl, rfl⟩, ?_, ?_, tileImage_ok hpng⟩
  · intro other hother hid
    obtain rfl := List.inj_on_of_nodup_map hnodup hother hentry hid
    have hkept : other.confirmation ≠ .rejected := by
      intro hrejected
      rw [hrejected] at hbasis
      cases hbasis
    refine ⟨hkept, fun hbacked => ?_⟩
    cases hconfirmation : other.confirmation with
    | confirmed => rfl
    | rejected => exact absurd hconfirmation hkept
    | pending =>
      rcases hdecided other hother with hother | hother
      · rw [hbacked] at hother
        cases hother
      · exact absurd hconfirmation hother
  · refine ⟨record, hrecord, hsha256.symm, of_decide_eq_true hrole, of_decide_eq_true hstate, ?_⟩
    have hcleared := clearTile_of_isClear hclear
    rw [← hcorners] at hcleared
    exact hcleared

theorem tileName_injective : Function.Injective fun id => "hn_" ++ id ++ ".png" := by
  intro first second h
  have hlist := congrArg String.toList h
  simp only [String.toList_append, List.append_assoc, List.append_cancel_left_eq] at hlist
  exact String.toList_injective (List.append_cancel_right hlist)

theorem materialize_clean (hpropose : propose digests labels baseline = .ok proposal)
    {review : JsonFile Review}
    (h : materialize digests pillow sources review labels baseline out certificationBacked =
      .ok component) :
    CleanComponent digests pillow labels.document proposal review.document certificationBacked
      component := by
  obtain ⟨checked, hvalid, h⟩ := bind_ok h
  obtain ⟨rfl, hnodup, hrequired⟩ := validateReview_ok hvalid
  obtain ⟨document, hrevalidated, h⟩ := bind_ok h
  obtain ⟨rfl, -, hsame⟩ := (revalidateReview_eq_ok hpropose).mp hrevalidated
  obtain ⟨-, h⟩ := refuseIf_bind_eq_ok.mp h
  obtain ⟨progress, hprogress, h⟩ := bind_ok h
  obtain ⟨-, h⟩ := refuseIf_bind_eq_ok.mp h
  obtain rfl := pure_ok h
  have hproposal := propose_ok hpropose
  have hdecided : ∀ entry ∈ review.document.entries,
      certificationBacked = true ∨ entry.confirmation ≠ .pending := by
    intro entry hentry
    cases certificationBacked with
    | true => exact Or.inl rfl
    | false => exact Or.inr (hrequired entry hentry rfl)
  have hbooks := Books.start.run hdecided hprogress
  rw [List.nil_append] at hbooks
  have hsort := List.perm_insertionSort (fun first second : NegativeTile =>
    first.tile ≤ second.tile) progress.tiles
  have hids : (progress.tiles.map NegativeTile.reviewEntryId).Nodup := by
    have hall := hbooks.account.nodup_iff.mpr hnodup
    exact (List.nodup_append.mp (List.nodup_append.mp hall).1).1
  refine ⟨?_, ?_, ?_, ?_, ?_, hbooks.rejected, ?_⟩
  · intro tile htile
    obtain ⟨entry, hentry, hwritten⟩ := hbooks.written tile (hsort.mem_iff.mp htile)
    exact cleanTile_of_written hproposal hsame hnodup hdecided hentry hwritten
  · exact (hsort.map _).symm
  · have hnames : (progress.tiles.map fun tile => (tile.tile ++ ".png", tile.image)).map Prod.fst =
        (progress.tiles.map NegativeTile.reviewEntryId).map fun id => "hn_" ++ id ++ ".png" := by
      rw [List.map_map, List.map_map]
      apply List.map_congr_left
      intro tile htile
      obtain ⟨_, -, _, _, -, -, rfl⟩ := hbooks.written tile htile
      rfl
    rw [hnames]
    exact hids.map tileName_injective
  · apply List.Nodup.of_map digests.sha256
    have himages : ((progress.tiles.map fun tile => (tile.tile ++ ".png", tile.image)).map
        Prod.snd).map digests.sha256 = progress.tiles.map NegativeTile.imageSha256 := by
      rw [List.map_map, List.map_map]
      apply List.map_congr_left
      intro tile htile
      obtain ⟨_, -, _, _, -, -, rfl⟩ := hbooks.written tile htile
      rfl
    rw [himages]
    exact hbooks.unique
  · exact (((hsort.map _).append_right _).append_right _).trans hbooks.account
  · intro duplicate hduplicate
    obtain ⟨tile, htile, hid⟩ := hbooks.owned duplicate hduplicate
    exact ⟨tile, hsort.mem_iff.mpr htile, hid⟩

/-- A photo has eight proposals of the baseline and two of the grid at most; what a reviewer
makes of a proposal is accepted, and a review that differs in anything but confirmations is
refused; and what is materialized is clean. -/
theorem hard_negatives_clean (pillow : Pillow) (sources : Sources)
    (hpropose : propose digests labels baseline = .ok proposal) :
    (∀ sourceSha256,
      proposal.entries.countP (fun entry => decide (entry.sourceSha256 = sourceSha256) &&
          decide (entry.kind = .baselineCandidate)) ≤ 8 ∧
        proposal.entries.countP (fun entry => decide (entry.sourceSha256 = sourceSha256) &&
          decide (entry.kind = .deterministicClean)) ≤ 2) ∧
    (∀ (updates : List Update) (review : Review),
      updates.foldlM (updateConfirmation digests) proposal = .ok review →
        revalidateReview digests review labels baseline = .ok labels.document) ∧
    (∀ review : JsonFile Review, review.document.provenance ≠ proposal.provenance →
      (∃ err, revalidateReview digests review.document labels baseline = .error err) ∧
        ∀ out certificationBacked, ∃ err, materialize digests pillow sources review labels
          baseline out certificationBacked = .error err) ∧
    ∀ review out certificationBacked component,
      materialize digests pillow sources review labels baseline out certificationBacked =
          .ok component →
        CleanComponent digests pillow labels.document proposal review.document
          certificationBacked component := by
  have hproposal := propose_ok hpropose
  refine ⟨fun sourceSha256 => ⟨hproposal.baseline sourceSha256, hproposal.clean sourceSha256⟩,
    fun _ _ hupdates => revalidateReview_updates hpropose hupdates, ?_,
    fun _ _ _ _ hmaterialize => materialize_clean hpropose hmaterialize⟩
  intro review hdiffers
  have hrefused : ∃ err, revalidateReview digests review.document labels baseline = .error err := by
    cases hrevalidated : revalidateReview digests review.document labels baseline with
    | error err => exact ⟨err, rfl⟩
    | ok document =>
      exact absurd ((revalidateReview_eq_ok hpropose).mp hrevalidated).2.2 hdiffers
  refine ⟨hrefused, fun out certificationBacked => ?_⟩
  obtain ⟨err, hrefused⟩ := hrefused
  cases hvalid : validateReview digests review.document !certificationBacked with
  | error other =>
    exact ⟨other, by rw [materialize, hvalid, error_bind]⟩
  | ok checked =>
    obtain ⟨rfl, -⟩ := validateReview_ok hvalid
    exact ⟨err, by rw [materialize, hvalid, ok_bind, hrefused, error_bind]⟩

end Component

section Sample

/-- The digests of two tiles of an empty file's photo, and of their origins. -/
def sampleGrid : List ((ℤ × ℤ) × String × String) :=
  [((0, 0), "154b0dae066804ffda0be5011f2d17c6d501c385940e7736cf06807ebf8a1da7",
      "e80e99a9362fbce9dac00b07d4b9da95efd887f7f472bf0c815be72fa6528b35"),
    ((320, 0), "2eff39c8057c1a2c1bfe7ffc63ad7185ffdcc7f865eec3dd30e03832383f5668",
      "b32de00f5ae64a8b3311f2983e1a1d8010cc2fc88a4acd4df8e85a020ea0968e")]

def sampleTileDigests : TileDigests where
  toDigests := sampleDigests
  tile _ corners :=
    ((sampleGrid.find? fun cell => [cell.1.1, cell.1.2] = corners.take 2).map fun cell =>
      cell.2.1).getD ""
  origin _ origin :=
    ((sampleGrid.find? fun cell => cell.1 = origin).map fun cell => cell.2.2).getD ""

/-- A photo with no mine. -/
def sampleLabels : FileAt Labels where
  document :=
    { schema := "mission10-yolo-real-labels/1"
      images := [{ samplePhoto "a.png" (sampleDigests.sha256 []) .clear with
        height := 320
        objects := [] }]
      roleFreeze := some ⟨"frozen", "reviewer", ""⟩
      certification := some ⟨"reviewer", "today", ""⟩ }
  bytes := [0x7B, 0x7D]
  path := "/labels.json"

def sampleBaseline : FileAt Audit where
  document :=
    { schema := "mission10-yolo-irl-audit/1"
      tilePx := 320
      overlapPx := 0
      candidateFloor := some (1 / 1000)
      images := [⟨sampleDigests.sha256 [], 640, 320, some [⟨some (1 / 2), 320, 0⟩]⟩] }
  bytes := [0x7B, 0x7D]
  path := "/baseline.json"

def sampleSources : Sources := ⟨fun source => "/" ++ source, fun _ => some []⟩

def sampleImages : Pillow := { samplePillow with openRgb := fun _ => some (640, 320) }

/-- The tile of the candidate is confirmed. -/
def sampleUpdates : List Update := [⟨"2eff39c8057c1a2c1bfe7ffc", .confirmed, []⟩]

theorem hard_negatives_clean_sample : ∃ proposal review component,
    propose sampleTileDigests sampleLabels sampleBaseline = .ok proposal ∧
      sampleUpdates.foldlM (updateConfirmation sampleTileDigests) proposal = .ok review ∧
      materialize sampleTileDigests sampleImages sampleSources ⟨review, []⟩ sampleLabels
        sampleBaseline ⟨"/out", true⟩ true = .ok component ∧
      CleanComponent sampleTileDigests sampleImages sampleLabels.document proposal review true
        component := by
  have hall : (propose sampleTileDigests sampleLabels sampleBaseline >>= fun proposal =>
      sampleUpdates.foldlM (updateConfirmation sampleTileDigests) proposal >>= fun review =>
        materialize sampleTileDigests sampleImages sampleSources ⟨review, []⟩ sampleLabels
          sampleBaseline ⟨"/out", true⟩ true).isOk = true := by decide +kernel
  obtain ⟨component, hcomponent⟩ := ok_of_isOk hall
  obtain ⟨proposal, hproposal, hcomponent⟩ := bind_ok hcomponent
  obtain ⟨review, hreview, hcomponent⟩ := bind_ok hcomponent
  obtain ⟨-, -, -, hclean⟩ := hard_negatives_clean sampleImages sampleSources hproposal
  exact ⟨proposal, review, component, hproposal, hreview, hcomponent,
    hclean _ _ _ _ hcomponent⟩

end Sample

end Mission10.Dataset.HardNegatives
