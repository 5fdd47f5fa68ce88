import Mathlib.Data.Finset.Card
import Mathlib.Data.Finset.Image
import Mathlib.Data.List.Basic
import Mathlib.Data.Set.Basic

/-!
# Greedy selection

Items come in order, strongest first, and one is kept when it conflicts with no
item kept before it. What is kept is the only set of items that holds exactly
the items with no conflicting stronger one in the set. Fewer conflicts keep the
same items exactly when what they keep is free of the further ones.
-/
namespace GreedySelection

variable {α β : Type*}

section Selection
variable (conflict : α → α → Prop) [DecidableRel conflict]

/-- The items kept after those of the first list. -/
def selectFrom (kept : List α) : List α → List α
  | [] => kept
  | item :: items =>
    if ∀ earlier ∈ kept, ¬ conflict item earlier then selectFrom (kept ++ [item]) items
    else selectFrom kept items

def select (items : List α) : List α := selectFrom conflict [] items

variable {conflict} in
@[simp]
theorem selectFrom_nil (kept : List α) : selectFrom conflict kept [] = kept := rfl

variable {conflict} in
theorem selectFrom_cons (kept items : List α) (item : α) :
    selectFrom conflict kept (item :: items) =
      if ∀ earlier ∈ kept, ¬ conflict item earlier then selectFrom conflict (kept ++ [item]) items
      else selectFrom conflict kept items := rfl

theorem selectFrom_map {conflict : β → β → Prop} [DecidableRel conflict] (f : α → β)
    (kept items : List α) :
    selectFrom conflict (kept.map f) (items.map f) =
      (selectFrom (fun a b => conflict (f a) (f b)) kept items).map f := by
  induction items generalizing kept with
  | nil => rfl
  | cons item items ih =>
    have hkept := ih (kept ++ [item])
    rw [List.map_append, List.map_singleton] at hkept
    rw [List.map_cons, selectFrom_cons, selectFrom_cons, hkept, ih]
    simp only [List.forall_mem_map]
    split_ifs <;> rfl

theorem selectFrom_congr {conflict' : α → α → Prop} [DecidableRel conflict']
    {kept items : List α}
    (h : ∀ a ∈ kept ++ items, ∀ b ∈ kept ++ items, conflict a b ↔ conflict' a b) :
    selectFrom conflict kept items = selectFrom conflict' kept items := by
  induction items generalizing kept with
  | nil => rfl
  | cons item items ih =>
    have hitem : (∀ earlier ∈ kept, ¬ conflict item earlier) ↔
        ∀ earlier ∈ kept, ¬ conflict' item earlier := by
      apply forall₂_congr
      intro earlier hearlier
      rw [h item (by simp) earlier (List.mem_append_left _ hearlier)]
    rw [selectFrom_cons, selectFrom_cons, ih (by simpa using h)]
    rw [ih fun a ha b hb => h a (by simp at ha ⊢; tauto) b (by simp at hb ⊢; tauto)]
    simp only [hitem]

theorem selectFrom_sublist (kept items : List α) :
    (selectFrom conflict kept items).Sublist (kept ++ items) := by
  induction items generalizing kept with
  | nil => simp
  | cons item items ih =>
    rw [selectFrom_cons]
    split_ifs
    · have hkept := ih (kept ++ [item])
      rwa [List.append_assoc, List.singleton_append] at hkept
    · exact (ih kept).trans ((List.sublist_cons_self item items).append_left kept)

theorem mem_of_mem_select {items : List α} {a : α} (h : a ∈ select conflict items) :
    a ∈ items :=
  (selectFrom_sublist conflict [] items).subset h

/-- Nothing kept conflicts with what was kept before it. -/
theorem selectFrom_pairwise {kept : List α} (items : List α)
    (h : kept.Pairwise fun earlier later => ¬ conflict later earlier) :
    (selectFrom conflict kept items).Pairwise fun earlier later => ¬ conflict later earlier := by
  induction items generalizing kept with
  | nil => exact h
  | cons item items ih =>
    rw [selectFrom_cons]
    split_ifs with hitem
    · apply ih
      rw [List.pairwise_append]
      refine ⟨h, List.pairwise_singleton _ _, ?_⟩
      intro earlier hearlier later hlater
      rw [List.mem_singleton.mp hlater]
      exact hitem earlier hearlier
    · exact ih h

theorem select_pairwise (items : List α) :
    (select conflict items).Pairwise fun earlier later => ¬ conflict later earlier :=
  selectFrom_pairwise conflict items List.Pairwise.nil

end Selection

section Compare
variable {few many : α → α → Prop} [DecidableRel few] [DecidableRel many]

variable (few) in
theorem prefix_selectFrom (kept items : List α) : kept <+: selectFrom few kept items := by
  induction items generalizing kept with
  | nil => exact List.prefix_rfl
  | cons item items ih =>
    rw [selectFrom_cons]
    split_ifs
    · exact (List.prefix_append kept [item]).trans (ih _)
    · exact ih kept

variable (few) in
/-- A copy of an item that was left out conflicts with a stronger item that is kept. -/
theorem exists_conflict_of_count [DecidableEq α] {stronger : α → α → Prop}
    {kept items : List α} (hkept : ∀ a ∈ kept, ∀ b ∈ items, stronger a b)
    (hitems : items.Pairwise stronger) {a : α}
    (hcount : (selectFrom few kept items).count a < kept.count a + items.count a) :
    ∃ b ∈ selectFrom few kept items, stronger b a ∧ few a b := by
  induction items generalizing kept with
  | nil =>
    rw [selectFrom_nil, List.count_nil] at hcount
    omega
  | cons item items ih =>
    obtain ⟨hitem, hrest⟩ := List.pairwise_cons.mp hitems
    rw [selectFrom_cons] at hcount ⊢
    by_cases hfree : ∀ earlier ∈ kept, ¬ few item earlier
    · rw [if_pos hfree] at hcount ⊢
      have hkept' : ∀ b ∈ kept ++ [item], ∀ c ∈ items, stronger b c := by
        intro b hb c hc
        rcases List.mem_append.mp hb with hb | hb
        · exact hkept b hb c (List.mem_cons_of_mem _ hc)
        · rw [List.mem_singleton.mp hb]
          exact hitem c hc
      apply ih hkept' hrest
      rw [List.count_append, List.count_singleton]
      rw [List.count_cons] at hcount
      omega
    · rw [if_neg hfree] at hcount ⊢
      by_cases hsame : item = a
      · push Not at hfree
        obtain ⟨earlier, hearlier, hconflict⟩ := hfree
        subst hsame
        exact ⟨earlier, (prefix_selectFrom few kept items).subset hearlier,
          hkept earlier hearlier item List.mem_cons_self, hconflict⟩
      · apply ih (fun b hb c hc => hkept b hb c (List.mem_cons_of_mem _ hc)) hrest
        rwa [List.count_cons_of_ne hsame] at hcount

/-- A selection free of the further conflicts is also made under them. -/
theorem selectFrom_eq {kept items : List α}
    (hsub : ∀ a ∈ kept ++ items, ∀ b ∈ kept ++ items, few a b → many a b)
    (h : (selectFrom few kept items).Pairwise fun earlier later => ¬ many later earlier) :
    selectFrom many kept items = selectFrom few kept items := by
  induction items generalizing kept with
  | nil => rfl
  | cons item items ih =>
    rw [selectFrom_cons] at h ⊢
    rw [selectFrom_cons]
    by_cases hfew : ∀ earlier ∈ kept, ¬ few item earlier
    · rw [if_pos hfew] at h ⊢
      have hmany : ∀ earlier ∈ kept, ¬ many item earlier := by
        obtain ⟨rest, hrest⟩ := prefix_selectFrom few (kept ++ [item]) items
        rw [← hrest, List.pairwise_append, List.pairwise_append] at h
        intro earlier hearlier
        exact h.1.2.2 earlier hearlier item (List.mem_singleton_self item)
      rw [if_pos hmany]
      exact ih (by simpa using hsub) h
    · rw [if_neg hfew] at h ⊢
      push Not at hfew
      obtain ⟨earlier, hearlier, hconflict⟩ := hfew
      have hmany : ¬ ∀ earlier ∈ kept, ¬ many item earlier := by
        intro hall
        exact hall earlier hearlier
          (hsub item (by simp) earlier (List.mem_append_left _ hearlier) hconflict)
      rw [if_neg hmany]
      exact ih (fun a ha b hb => hsub a (by simp at ha ⊢; tauto) b (by simp at hb ⊢; tauto)) h

/-- Fewer conflicts select the same exactly when what they select is free of the
further ones. -/
theorem select_eq_iff {items : List α}
    (hsub : ∀ a ∈ items, ∀ b ∈ items, few a b → many a b) :
    select many items = select few items ↔
      (select few items).Pairwise fun earlier later => ¬ many later earlier := by
  constructor
  · intro h
    rw [← h]
    exact select_pairwise many items
  · exact selectFrom_eq hsub

end Compare

section Kernel
variable (conflict : α → α → Prop) [DecidableRel conflict] (stronger : α → α → Prop)

/-- The set holds exactly the items with no conflicting stronger one in it. -/
def IsKernel (items : List α) (kernel : Set α) : Prop :=
  ∀ a, a ∈ kernel ↔ a ∈ items ∧ ∀ b ∈ kernel, stronger b a → ¬ conflict a b

variable {conflict stronger}

theorem mem_selectFrom_iff (hasymm : ∀ a b, stronger a b → ¬ stronger b a)
    {kept items : List α} (hkept : ∀ a ∈ kept, ∀ b ∈ items, stronger a b)
    (hitems : items.Pairwise stronger) (a : α) :
    a ∈ selectFrom conflict kept items ↔
      a ∈ kept ∨ a ∈ items ∧
        ∀ b ∈ selectFrom conflict kept items, stronger b a → ¬ conflict a b := by
  induction items generalizing kept with
  | nil => simp
  | cons item items ih =>
    obtain ⟨hitem, hrest⟩ := List.pairwise_cons.mp hitems
    rw [selectFrom_cons]
    split_ifs with hfree
    · have hkept' : ∀ a ∈ kept ++ [item], ∀ b ∈ items, stronger a b := by
        intro a ha b hb
        rcases List.mem_append.mp ha with ha | ha
        · exact hkept a ha b (List.mem_cons_of_mem _ hb)
        · rw [List.mem_singleton.mp ha]
          exact hitem b hb
      have hout := selectFrom_sublist conflict (kept ++ [item]) items
      have hclear : ∀ b ∈ selectFrom conflict (kept ++ [item]) items,
          stronger b item → ¬ conflict item b := by
        intro b hb hstrong
        rcases List.mem_append.mp (hout.subset hb) with hb | hb
        · rcases List.mem_append.mp hb with hb | hb
          · exact hfree b hb
          · rw [List.mem_singleton.mp hb] at hstrong
            exact absurd hstrong (hasymm _ _ hstrong)
        · exact absurd hstrong (hasymm _ _ (hitem b hb))
      rw [ih hkept' hrest, List.mem_append, List.mem_singleton, List.mem_cons]
      constructor
      · rintro ((ha | rfl) | ha)
        · exact .inl ha
        · exact .inr ⟨.inl rfl, hclear⟩
        · exact .inr ⟨.inr ha.1, ha.2⟩
      · rintro (ha | ⟨rfl | ha, hall⟩)
        · exact .inl (.inl ha)
        · exact .inl (.inr rfl)
        · exact .inr ⟨ha, hall⟩
    · push Not at hfree
      obtain ⟨earlier, hearlier, hconflict⟩ := hfree
      rw [ih (fun a ha b hb => hkept a ha b (List.mem_cons_of_mem _ hb)) hrest, List.mem_cons]
      apply or_congr_right
      constructor
      · rintro ⟨ha, hall⟩
        exact ⟨.inr ha, hall⟩
      · rintro ⟨rfl | ha, hall⟩
        · have hin := (prefix_selectFrom conflict kept items).subset hearlier
          exact absurd hconflict (hall earlier hin (hkept earlier hearlier a List.mem_cons_self))
        · exact ⟨ha, hall⟩

/-- What is selected is a kernel. -/
theorem select_isKernel (hasymm : ∀ a b, stronger a b → ¬ stronger b a) {items : List α}
    (hitems : items.Pairwise stronger) :
    IsKernel conflict stronger items {a | a ∈ select conflict items} := by
  intro a
  have hnone : ∀ a ∈ ([] : List α), ∀ b ∈ items, stronger a b := by
    intro a ha
    exact absurd ha List.not_mem_nil
  have h : a ∈ selectFrom conflict [] items ↔ a ∈ [] ∨ a ∈ items ∧
      ∀ b ∈ selectFrom conflict [] items, stronger b a → ¬ conflict a b :=
    mem_selectFrom_iff hasymm hnone hitems a
  simpa [select] using h

omit [DecidableRel conflict] in
theorem kernel_unique_from (hasymm : ∀ a b, stronger a b → ¬ stronger b a)
    {front items : List α} (hitems : (front ++ items).Pairwise stronger) {s t : Set α}
    (hs : IsKernel conflict stronger (front ++ items) s)
    (ht : IsKernel conflict stronger (front ++ items) t)
    (hfront : ∀ a ∈ front, a ∈ s ↔ a ∈ t) : ∀ a ∈ items, a ∈ s ↔ a ∈ t := by
  induction items generalizing front with
  | nil => simp
  | cons item items ih =>
    -- what is stronger than the item stands before it
    have hbefore : ∀ b ∈ front ++ item :: items, stronger b item → b ∈ front := by
      intro b hb hstrong
      have htail := (List.pairwise_append.mp hitems).2.1
      rcases List.mem_append.mp hb with hb | hb
      · exact hb
      · rcases List.mem_cons.mp hb with rfl | hb
        · exact absurd hstrong (hasymm _ _ hstrong)
        · exact absurd hstrong (hasymm _ _ ((List.pairwise_cons.mp htail).1 b hb))
    have hitem : item ∈ s ↔ item ∈ t := by
      rw [hs item, ht item]
      apply and_congr_right
      intro _
      constructor
      · intro h b hb hstrong
        exact h b ((hfront b (hbefore b ((ht b).mp hb).1 hstrong)).mpr hb) hstrong
      · intro h b hb hstrong
        exact h b ((hfront b (hbefore b ((hs b).mp hb).1 hstrong)).mp hb) hstrong
    have hassoc : front ++ [item] ++ items = front ++ item :: items := by simp
    have hrest := ih (hassoc ▸ hitems) (hassoc ▸ hs) (hassoc ▸ ht) (by
        intro a ha
        rcases List.mem_append.mp ha with ha | ha
        · exact hfront a ha
        · rw [List.mem_singleton.mp ha]
          exact hitem)
    intro a ha
    rcases List.mem_cons.mp ha with rfl | ha
    · exact hitem
    · exact hrest a ha

/-- A kernel holds what is selected and nothing else. -/
theorem IsKernel.mem_iff (hasymm : ∀ a b, stronger a b → ¬ stronger b a) {items : List α}
    (hitems : items.Pairwise stronger) {s : Set α} (hs : IsKernel conflict stronger items s)
    (a : α) : a ∈ s ↔ a ∈ select conflict items := by
  have ht : IsKernel conflict stronger items {a | a ∈ select conflict items} :=
    select_isKernel hasymm hitems
  have hnone : ∀ a ∈ ([] : List α), a ∈ s ↔ a ∈ {a | a ∈ select conflict items} := by
    intro a ha
    exact absurd ha List.not_mem_nil
  have hagree : ∀ a ∈ items, a ∈ s ↔ a ∈ {a | a ∈ select conflict items} := by
    apply kernel_unique_from hasymm _ hs ht hnone
    exact hitems
  constructor
  · intro ha
    exact (hagree a ((hs a).mp ha).1).mp ha
  · intro ha
    exact (hagree a (mem_of_mem_select conflict ha)).mpr ha

end Kernel

end GreedySelection

/-!
## Greedy matching

Items come in order, and each takes one of the targets that are left, or is
rejected when none of them is good enough for it. Whatever rule picks the target,
the targets taken are distinct and good for the items that took them, every item
is matched or rejected, and no rejected item is good for a target that is left.
-/
namespace GreedyMatching

variable {α ι : Type*} [DecidableEq ι]

structure Matching (α ι : Type*) where
  unmatched : Finset ι
  matched : Finset ι
  rejected : List α

/-- No target is taken yet. -/
def start (targets : Finset ι) : Matching α ι := ⟨targets, ∅, []⟩

variable (pick : Finset ι → α → Option ι)

/-- One item takes the target that the rule picks for it. -/
def step (m : Matching α ι) (item : α) : Matching α ι :=
  match pick m.unmatched item with
  | some target =>
    { m with unmatched := m.unmatched.erase target, matched := insert target m.matched }
  | none => { m with rejected := m.rejected ++ [item] }

def matchAll (targets : Finset ι) (items : List α) : Matching α ι :=
  items.foldl (step pick) (start targets)

/-- The rule picks a good target that is left, if there is one. -/
structure PicksGood (good : α → ι → Prop) : Prop where
  some : ∀ {unmatched item target}, pick unmatched item = some target →
    target ∈ unmatched ∧ good item target
  none : ∀ {unmatched item}, pick unmatched item = none →
    ∀ target ∈ unmatched, ¬ good item target

/-- What holds of a matching of the items seen so far: the pairs it made, and what is left. -/
structure MatchingOf (good : α → ι → Prop) (targets : Finset ι) (seen : List α)
    (m : Matching α ι) (pairs : List (α × ι)) : Prop where
  sound : ∀ pair ∈ pairs, good pair.1 pair.2
  distinct : (pairs.map Prod.snd).Nodup
  matched : m.matched = (pairs.map Prod.snd).toFinset
  covers : m.matched ∪ m.unmatched = targets
  disjoint : Disjoint m.matched m.unmatched
  items : (pairs.map Prod.fst ++ m.rejected).Perm seen
  maximal : ∀ item ∈ m.rejected, ∀ target ∈ m.unmatched, ¬ good item target

variable {pick} {good : α → ι → Prop} {targets : Finset ι} {seen : List α} {m : Matching α ι}
  {pairs : List (α × ι)}

theorem matchingOf_start (good : α → ι → Prop) (targets : Finset ι) :
    MatchingOf good targets [] (start targets : Matching α ι) [] where
  sound := by simp
  distinct := List.nodup_nil
  matched := rfl
  covers := by simp [start]
  disjoint := by simp [start]
  items := by simp [start]
  maximal := by simp [start]

theorem MatchingOf.step (hpick : PicksGood pick good) (h : MatchingOf good targets seen m pairs)
    (item : α) : ∃ pairs', MatchingOf good targets (seen ++ [item]) (step pick m item) pairs' := by
  rw [GreedyMatching.step]
  cases hpicked : pick m.unmatched item with
  | some target =>
    obtain ⟨hleft, hgood⟩ := hpick.some hpicked
    have hnew : target ∉ m.matched := Finset.disjoint_right.mp h.disjoint hleft
    refine ⟨pairs ++ [(item, target)], ?_, ?_, ?_, ?_, ?_, ?_, ?_⟩
    · intro pair hpair
      rcases List.mem_append.mp hpair with hpair | hpair
      · exact h.sound pair hpair
      · rw [List.mem_singleton.mp hpair]
        exact hgood
    · rw [List.map_append, List.map_singleton, List.nodup_append]
      refine ⟨h.distinct, List.nodup_singleton _, ?_⟩
      intro a ha b hb hab
      rw [h.matched, List.mem_toFinset] at hnew
      rw [hab, List.mem_singleton.mp hb] at ha
      exact hnew ha
    · ext index
      simp [h.matched]
    · rw [← h.covers]
      ext index
      simp only [Finset.mem_union, Finset.mem_insert, Finset.mem_erase]
      by_cases heq : index = target
      · simp [heq, hleft]
      · simp [heq]
    · rw [Finset.disjoint_left]
      intro index hindex hunmatched
      obtain ⟨hne, hunmatched⟩ := Finset.mem_erase.mp hunmatched
      rcases Finset.mem_insert.mp hindex with hindex | hindex
      · exact hne hindex
      · exact Finset.disjoint_left.mp h.disjoint hindex hunmatched
    · have hitems := h.items.append_right [item]
      refine List.Perm.trans ?_ hitems
      rw [List.map_append, List.append_assoc, List.append_assoc]
      exact List.perm_append_comm.append_left _
    · intro rejected hrejected index hindex
      exact h.maximal rejected hrejected index (Finset.mem_of_mem_erase hindex)
  | none =>
    refine ⟨pairs, h.sound, h.distinct, h.matched, h.covers, h.disjoint, ?_, ?_⟩
    · rw [← List.append_assoc]
      exact h.items.append_right [item]
    · intro rejected hrejected index hindex
      rcases List.mem_append.mp hrejected with hrejected | hrejected
      · exact h.maximal rejected hrejected index hindex
      · rw [List.mem_singleton.mp hrejected]
        exact hpick.none hpicked index hindex

theorem MatchingOf.foldl (hpick : PicksGood pick good) (h : MatchingOf good targets seen m pairs)
    (items : List α) :
    ∃ pairs', MatchingOf good targets (seen ++ items) (items.foldl (GreedyMatching.step pick) m)
      pairs' := by
  induction items generalizing seen m pairs with
  | nil => exact ⟨pairs, by rwa [List.append_nil]⟩
  | cons item items ih =>
    obtain ⟨pairs', h'⟩ := h.step hpick item
    obtain ⟨pairs'', h''⟩ := ih h'
    rw [List.append_assoc, List.singleton_append] at h''
    exact ⟨pairs'', h''⟩

/-- The matching of a list of items. -/
theorem matchAll_matchingOf (hpick : PicksGood pick good) (targets : Finset ι) (items : List α) :
    ∃ pairs, MatchingOf good targets items (matchAll pick targets items) pairs :=
  (matchingOf_start good targets).foldl hpick items

namespace MatchingOf

theorem card_matched (h : MatchingOf good targets seen m pairs) :
    m.matched.card = pairs.length := by
  rw [h.matched, List.toFinset_card_of_nodup h.distinct, List.length_map]

/-- Every target is matched or left. -/
theorem card_targets (h : MatchingOf good targets seen m pairs) :
    m.matched.card + m.unmatched.card = targets.card := by
  rw [← h.covers, Finset.card_union_of_disjoint h.disjoint]

/-- Every item is matched or rejected. -/
theorem length_items (h : MatchingOf good targets seen m pairs) :
    m.matched.card + m.rejected.length = seen.length := by
  rw [h.card_matched, ← h.items.length_eq, List.length_append, List.length_map]

end MatchingOf

end GreedyMatching
