import RetentionEngine.Common.Dict
import RetentionEngine.Common.Lists
import RetentionEngine.Common.SortKeys
import RetentionEngine.Common.Text
import RetentionEngine.Contracts.Decision
import Mathlib.Algebra.BigOperators.Group.List.Basic
import Mathlib.Algebra.Ring.Int.Defs
import Mathlib.Data.List.Sort
import Mathlib.Order.Defs.LinearOrder
import Mathlib.Data.String.Basic

/-!
# Knapsack items

`allocator.items`, `allocator.groups` and `_items` of
`allocator.selection`: a candidate of its own is one item, and the
candidates of one group and incentive are one item together.
-/

namespace RetentionEngine

namespace Allocator

variable {K : Type*}

/-- `KnapsackItem`. -/
structure KnapsackItem (K : Type*) where
  itemId : String
  choiceKey : String
  costIdr : ℤ
  value : K
  candidateIds : List String
  deriving DecidableEq, Repr

/-- The order of `key=lambda i: (i.choice_key, i.item_id)`. -/
def keyLe (i j : KnapsackItem K) : Prop :=
  i.choiceKey < j.choiceKey ∨ i.choiceKey = j.choiceKey ∧ i.itemId ≤ j.itemId

instance : DecidableRel (keyLe (K := K)) :=
  fun i j => inferInstanceAs
    (Decidable (i.choiceKey < j.choiceKey ∨ i.choiceKey = j.choiceKey ∧ i.itemId ≤ j.itemId))

instance : IsTrans (KnapsackItem K) keyLe :=
  inferInstanceAs (IsTrans _ (LexLe KnapsackItem.choiceKey KnapsackItem.itemId))

instance : Std.Total (keyLe (K := K)) :=
  inferInstanceAs (Std.Total (LexLe KnapsackItem.choiceKey KnapsackItem.itemId))

/-- How a call of the allocator fails. -/
inductive Error
  /-- `DPTooLarge`, which `allocate` handles. -/
  | dpTooLarge (text : String)
  /-- `ValueError` of `bundle_group`. -/
  | valueError (text : String)
  /-- A `ZeroDivisionError`, `IndexError` or `ValueError` of the table itself. -/
  | uncaught
  deriving DecidableEq, Repr

/-- `bundle_group`. -/
def bundleGroup [Zero K] [Add K] (groupId : String) (memberCandidates : List (RankedCandidate K)) :
    Except Error (KnapsackItem K) :=
  let members := memberCandidates.insertionSort
    fun r s => r.candidate.candidateId ≤ s.candidate.candidateId
  match members with
  | [] => .error (.valueError "a group bundle needs at least one member")
  | first :: _ => .ok
      { itemId := "bundle:" ++ groupId
        choiceKey := "group:" ++ first.candidate.groupId.getD "None"
        costIdr := (members.map fun r => r.candidate.costIdr).sum
        value := (members.map RankedCandidate.priority).sum
        candidateIds := members.map fun r => r.candidate.candidateId }

/-- The item of a candidate without a group. -/
def singleItem (r : RankedCandidate K) : KnapsackItem K where
  itemId := r.candidate.candidateId
  choiceKey := r.candidate.userPseudonym
  costIdr := r.candidate.costIdr
  value := r.priority
  candidateIds := [r.candidate.candidateId]

/-- The key a group candidate is bundled under. -/
def bundleKey (r : RankedCandidate K) : String × String :=
  (r.candidate.groupId.getD "None", r.candidate.incentiveCode)

/-- The candidates with a group, bundled. -/
def bundles (candidates : List (RankedCandidate K)) :
    Dict (String × String) (List (RankedCandidate K)) :=
  Dict.groupBy bundleKey (candidates.filter fun r => r.candidate.groupId ≠ none)

/-- `sorted(bundles.items())`: the keys are distinct, so they decide. -/
def bundleLe (p q : (String × String) × List (RankedCandidate K)) : Prop :=
  p.1.1 < q.1.1 ∨ p.1.1 = q.1.1 ∧ p.1.2 ≤ q.1.2

instance : DecidableRel (bundleLe (K := K)) :=
  fun p q => inferInstanceAs (Decidable (p.1.1 < q.1.1 ∨ p.1.1 = q.1.1 ∧ p.1.2 ≤ q.1.2))

instance : IsTrans ((String × String) × List (RankedCandidate K)) bundleLe :=
  inferInstanceAs (IsTrans ((String × String) × List (RankedCandidate K))
    (LexLe (fun p => p.1.1) fun p => p.1.2))

instance : Std.Total (bundleLe (K := K)) :=
  inferInstanceAs (Std.Total (α := (String × String) × List (RankedCandidate K))
    (LexLe (fun p => p.1.1) fun p => p.1.2))

/-- `_items`. -/
def items [Zero K] [Add K] (candidates : List (RankedCandidate K)) :
    Except Error (List (KnapsackItem K)) := do
  let singles := (candidates.filter fun r => r.candidate.groupId = none).map singleItem
  let bundled ← ((bundles candidates).entries.insertionSort bundleLe).mapM fun p =>
    bundleGroup (p.1.1 ++ ":" ++ p.1.2) p.2
  return singles ++ bundled

/-! ## Which candidates an item is made of -/

/-- The unit a candidate is allocated for: itself or its group. -/
def unitOf (c : Candidate K) : String :=
  match c.groupId with
  | none => c.userPseudonym
  | some g => "group:" ++ g

/-- The item a candidate belongs to. -/
def itemIdOf (c : Candidate K) : String :=
  match c.groupId with
  | none => c.candidateId
  | some g => "bundle:" ++ (g ++ ":" ++ c.incentiveCode)

/-- The candidates behind an item. -/
def mates (candidates : List (RankedCandidate K)) (itemId : String) : List (RankedCandidate K) :=
  candidates.filter fun r => itemIdOf r.candidate = itemId

/-- **Ids that cannot be confused**: distinct, and none looking like a
bundle's or a group's. -/
structure DistinctIds (candidates : List (RankedCandidate K)) : Prop where
  ids : (candidates.map fun r => r.candidate.candidateId).Nodup
  candidateIds : ∀ r ∈ candidates, ¬ startsWith r.candidate.candidateId "bundle:"
  groupIds : ∀ r ∈ candidates, ∀ g ∈ r.candidate.groupId, ':' ∉ g.toList
  pseudonyms : ∀ r ∈ candidates, ¬ startsWith r.candidate.userPseudonym "group:"

variable {candidates : List (RankedCandidate K)} {r r' : RankedCandidate K}

theorem itemIdOf_of_none {c : Candidate K} (h : c.groupId = none) : itemIdOf c = c.candidateId := by
  unfold itemIdOf
  rw [h]

theorem itemIdOf_of_some {c : Candidate K} {g : String} (h : c.groupId = some g) :
    itemIdOf c = "bundle:" ++ (g ++ ":" ++ c.incentiveCode) := by
  unfold itemIdOf
  rw [h]

theorem unitOf_of_none {c : Candidate K} (h : c.groupId = none) : unitOf c = c.userPseudonym := by
  unfold unitOf
  rw [h]

theorem unitOf_of_some {c : Candidate K} {g : String} (h : c.groupId = some g) :
    unitOf c = "group:" ++ g := by
  unfold unitOf
  rw [h]

theorem mem_mates {itemId : String} :
    r ∈ mates candidates itemId ↔ r ∈ candidates ∧ itemIdOf r.candidate = itemId := by
  simp [mates]

namespace DistinctIds

/-- **Two candidates of one item** are one candidate, or of one group and
incentive. -/
theorem eq_or_of_itemIdOf (h : DistinctIds candidates) (hr : r ∈ candidates)
    (hr' : r' ∈ candidates) (heq : itemIdOf r.candidate = itemIdOf r'.candidate) :
    r = r' ∧ r.candidate.groupId = none ∨
      ∃ g, r.candidate.groupId = some g ∧ r'.candidate.groupId = some g ∧
        r.candidate.incentiveCode = r'.candidate.incentiveCode := by
  cases hg : r.candidate.groupId with
  | none =>
      rw [itemIdOf_of_none hg] at heq
      cases hg' : r'.candidate.groupId with
      | none =>
          rw [itemIdOf_of_none hg'] at heq
          exact Or.inl ⟨List.inj_on_of_nodup_map h.ids hr hr' heq, rfl⟩
      | some g' =>
          rw [itemIdOf_of_some hg'] at heq
          exact absurd (heq ▸ startsWith_append _ _) (h.candidateIds r hr)
  | some g =>
      rw [itemIdOf_of_some hg] at heq
      cases hg' : r'.candidate.groupId with
      | none =>
          rw [itemIdOf_of_none hg'] at heq
          exact absurd (heq ▸ startsWith_append _ _) (h.candidateIds r' hr')
      | some g' =>
          -- neither group id holds a colon, so both ids are cut at the same place
          rw [itemIdOf_of_some hg'] at heq
          have hcut := congrArg String.toList (append_right_inj_text heq)
          simp only [String.toList_append, List.append_assoc] at hcut
          obtain ⟨hgg, hinc⟩ :=
            append_cons_inj (h.groupIds r hr g hg) (h.groupIds r' hr' g' hg') hcut
          exact Or.inr ⟨g, rfl, congrArg some (String.toList_inj.mp hgg).symm,
            String.toList_inj.mp hinc⟩

/-- A candidate without a group is alone behind its item. -/
theorem mates_single (h : DistinctIds candidates) (hr : r ∈ candidates)
    (hg : r.candidate.groupId = none) : mates candidates r.candidate.candidateId = [r] := by
  have hnodup : (mates candidates r.candidate.candidateId).Nodup := h.ids.of_map.filter _
  refine List.perm_singleton.mp ((List.perm_ext_iff_of_nodup hnodup (List.nodup_singleton r)).mpr
    ?_)
  intro r'
  rw [mem_mates, List.mem_singleton]
  constructor
  · rintro ⟨hr', heq⟩
    rcases h.eq_or_of_itemIdOf hr' hr (heq.trans (itemIdOf_of_none hg).symm) with
      ⟨rfl, -⟩ | ⟨g, -, hg', -⟩
    · rfl
    · rw [hg] at hg'
      cases hg'
  · rintro rfl
    exact ⟨hr, itemIdOf_of_none hg⟩

/-- **A bundle holds the candidates behind its item**, all of its group. -/
theorem mates_bundle (h : DistinctIds candidates) {key : String × String}
    {members : List (RankedCandidate K)} (hmem : (key, members) ∈ (bundles candidates).entries) :
    members = mates candidates ("bundle:" ++ (key.1 ++ ":" ++ key.2)) ∧ members ≠ [] ∧
      ∀ r ∈ members, r.candidate.groupId = some key.1 ∧ bundleKey r = key := by
  obtain ⟨hkey, rfl⟩ := Dict.mem_entries_groupBy.mp hmem
  -- the bundle has a first member, and its group and code are the key
  obtain ⟨r₀, hr₀, rfl⟩ := List.mem_map.mp hkey
  have hr₀' : r₀ ∈ candidates := List.mem_of_mem_filter hr₀
  obtain ⟨g, hg⟩ : ∃ g, r₀.candidate.groupId = some g :=
    Option.ne_none_iff_exists'.mp (by simpa using (List.mem_filter.mp hr₀).2)
  have hkey₀ : bundleKey r₀ = (g, r₀.candidate.incentiveCode) := by simp [bundleKey, hg]
  have hgroup : ∀ r : RankedCandidate K, r.candidate.groupId ≠ none → bundleKey r = bundleKey r₀ →
      r.candidate.groupId = some g ∧ r.candidate.incentiveCode = r₀.candidate.incentiveCode := by
    intro r hne hbk
    obtain ⟨g', hg'⟩ := Option.ne_none_iff_exists'.mp hne
    rw [hkey₀] at hbk
    simp only [bundleKey, hg', Option.getD_some, Prod.mk.injEq] at hbk
    exact ⟨by rw [hg', hbk.1], hbk.2⟩
  refine ⟨?_, List.ne_nil_of_mem (List.mem_filter.mpr ⟨hr₀, by simp⟩), ?_⟩
  · rw [List.filter_filter]
    refine List.filter_congr ?_
    intro r hr
    rw [hkey₀, ← itemIdOf_of_some hg, Bool.eq_iff_iff]
    simp only [Bool.and_eq_true, decide_eq_true_eq]
    constructor
    · rintro ⟨hbk, hne⟩
      obtain ⟨hrg, hinc⟩ := hgroup r hne (hbk.trans hkey₀.symm)
      rw [itemIdOf_of_some hrg, itemIdOf_of_some hg, hinc]
    · intro heq
      rcases h.eq_or_of_itemIdOf hr hr₀' heq with ⟨rfl, hnone⟩ | ⟨g', hrg, hg', hinc⟩
      · rw [hg] at hnone
        cases hnone
      · obtain rfl : g' = g := Option.some.inj (hg'.symm.trans hg)
        exact ⟨by simp [bundleKey, hrg, hinc], by simp [hrg]⟩
  · intro r hr
    obtain ⟨hr, hbk⟩ := List.mem_filter.mp hr
    have hbk : bundleKey r = bundleKey r₀ := by simpa using hbk
    refine ⟨?_, hbk⟩
    rw [hkey₀]
    exact (hgroup r (by simpa using (List.mem_filter.mp hr).2) hbk).1

/-- **Bundles have distinct ids.** -/
theorem nodup_bundleIds (h : DistinctIds candidates) :
    ((bundles candidates).entries.map fun p => "bundle:" ++ (p.1.1 ++ ":" ++ p.1.2)).Nodup := by
  refine List.Nodup.map_on ?_ (bundles candidates).nodup.of_map
  intro p hp q hq heq
  obtain ⟨hp₂, hne, hkey⟩ := h.mates_bundle hp
  obtain ⟨hq₂, -, hkey'⟩ := h.mates_bundle hq
  have hmem : p.2 = q.2 := by rw [hp₂, hq₂, heq]
  obtain ⟨r, hr⟩ := List.exists_mem_of_ne_nil _ hne
  exact Prod.ext ((hkey r hr).2.symm.trans (hkey' r (hmem ▸ hr)).2) hmem

end DistinctIds

/-! ## The items -/

variable [AddCommMonoid K]

/-- **What an item stands for**: the cost, value and ids of its candidates,
who are all of one unit. -/
structure Represents (candidates : List (RankedCandidate K)) (item : KnapsackItem K) : Prop where
  mates_ne_nil : mates candidates item.itemId ≠ []
  unit : ∀ r ∈ mates candidates item.itemId, unitOf r.candidate = item.choiceKey
  costIdr : item.costIdr = ((mates candidates item.itemId).map fun r => r.candidate.costIdr).sum
  value : item.value = ((mates candidates item.itemId).map RankedCandidate.priority).sum
  candidateIds : item.candidateIds.Perm
    ((mates candidates item.itemId).map fun r => r.candidate.candidateId)

/-- An item is what it stands for also when its candidates are listed in
another order. -/
theorem represents_of_perm {item : KnapsackItem K} (members : List (RankedCandidate K))
    (hm : members.Perm (mates candidates item.itemId)) (hne : members ≠ [])
    (hunit : ∀ r ∈ members, unitOf r.candidate = item.choiceKey)
    (hcost : item.costIdr = (members.map fun r => r.candidate.costIdr).sum)
    (hvalue : item.value = (members.map RankedCandidate.priority).sum)
    (hids : item.candidateIds.Perm (members.map fun r => r.candidate.candidateId)) :
    Represents candidates item where
  mates_ne_nil hnil := by
    rw [hnil] at hm
    exact hne hm.eq_nil
  unit r hr := hunit r (hm.mem_iff.mpr hr)
  costIdr := hcost.trans (hm.map _).sum_eq
  value := hvalue.trans (hm.map _).sum_eq
  candidateIds := hids.trans (hm.map _)

/-- **A bundle of a nonempty group**: its members' costs and values summed. -/
theorem bundleGroup_eq (groupId : String) {g : String} {members : List (RankedCandidate K)}
    (hne : members ≠ []) (hg : ∀ r ∈ members, r.candidate.groupId = some g) :
    ∃ item, bundleGroup groupId members = .ok item ∧ item.itemId = "bundle:" ++ groupId ∧
      item.choiceKey = "group:" ++ g ∧
      item.costIdr = (members.map fun r => r.candidate.costIdr).sum ∧
      item.value = (members.map RankedCandidate.priority).sum ∧
      item.candidateIds.Perm (members.map fun r => r.candidate.candidateId) := by
  have hperm := List.perm_insertionSort
    (fun r s : RankedCandidate K => r.candidate.candidateId ≤ s.candidate.candidateId) members
  unfold bundleGroup
  dsimp only
  split
  · rename_i hnil
    rw [hnil] at hperm
    exact absurd hperm.nil_eq.symm hne
  · rename_i first rest hcons
    have hfirst : first ∈ members := hperm.mem_iff.mp (hcons ▸ List.mem_cons_self)
    refine ⟨_, rfl, rfl, ?_, (hperm.map _).sum_eq, (hperm.map _).sum_eq, hperm.map _⟩
    rw [hg first hfirst]
    rfl

/-- **What `_items` returns**: distinct items, each standing for its
candidates, and one for every candidate. -/
theorem DistinctIds.items_spec (h : DistinctIds candidates) :
    ∃ its, items candidates = .ok its ∧ (its.map KnapsackItem.itemId).Nodup ∧
      (∀ item ∈ its, Represents candidates item) ∧
      ∀ r ∈ candidates, ∃ item ∈ its, item.itemId = itemIdOf r.candidate := by
  have hperm := List.perm_insertionSort bundleLe (bundles candidates).entries
  -- every bundle becomes an item
  obtain ⟨bundled, hbundled, hall⟩ := exists_mapM_ok
    (l := (bundles candidates).entries.insertionSort bundleLe)
    (f := fun p => bundleGroup (p.1.1 ++ ":" ++ p.1.2) p.2)
    (P := fun p item => item.itemId = "bundle:" ++ (p.1.1 ++ ":" ++ p.1.2) ∧
      Represents candidates item) fun p hp => by
    obtain ⟨hmates, hne, hg⟩ := h.mates_bundle (hperm.mem_iff.mp hp)
    obtain ⟨item, hok, hid, hkey, hcost, hvalue, hids⟩ :=
      bundleGroup_eq (p.1.1 ++ ":" ++ p.1.2) hne fun r hr => (hg r hr).1
    refine ⟨item, hok, hid, represents_of_perm _ (by rw [hid, ← hmates]) hne ?_
      hcost hvalue hids⟩
    intro r hr
    rw [unitOf_of_some (hg r hr).1, hkey]
  have hids : bundled.map KnapsackItem.itemId = ((bundles candidates).entries.insertionSort
      bundleLe).map fun p => "bundle:" ++ (p.1.1 ++ ":" ++ p.1.2) :=
    map_eq_map_of_forall₂ hall fun _ _ hp => hp.1
  have hsingle : ∀ r ∈ candidates, r.candidate.groupId = none →
      Represents candidates (singleItem r) := fun r hr hg =>
    represents_of_perm [r] (by rw [singleItem, h.mates_single hr hg]) (by simp)
      (by simp [singleItem, unitOf_of_none hg]) (by simp [singleItem]) (by simp [singleItem])
      (by simp [singleItem])
  refine ⟨_, by unfold items; rw [hbundled]; rfl, ?_, ?_, ?_⟩
  · rw [List.map_append, hids, List.map_map]
    refine List.nodup_append.mpr ⟨?_, ((hperm.map _).nodup_iff).mpr h.nodup_bundleIds, ?_⟩
    · exact (List.filter_sublist.map _).nodup h.ids
    · rintro i hi j hj rfl
      obtain ⟨r, hr, rfl⟩ := List.mem_map.mp hi
      obtain ⟨p, -, hp⟩ := List.mem_map.mp hj
      have hid : r.candidate.candidateId = "bundle:" ++ (p.1.1 ++ ":" ++ p.1.2) := hp.symm
      exact h.candidateIds r (List.mem_of_mem_filter hr) (hid ▸ startsWith_append _ _)
  · intro item hitem
    rcases List.mem_append.mp hitem with hitem | hitem
    · obtain ⟨r, hr, rfl⟩ := List.mem_map.mp hitem
      exact hsingle r (List.mem_of_mem_filter hr) (by simpa using (List.mem_filter.mp hr).2)
    · obtain ⟨p, -, -, hrep⟩ := exists_left_of_forall₂ hall hitem
      exact hrep
  · intro r hr
    cases hg : r.candidate.groupId with
    | none =>
        exact ⟨singleItem r, List.mem_append_left _ (List.mem_map_of_mem (by simp [hr, hg])),
          (itemIdOf_of_none hg).symm⟩
    | some g =>
        -- its bundle is there, and the bundle's item has its id
        have hkey : bundleKey r ∈ (bundles candidates).keys :=
          Dict.mem_keys_groupBy.mpr (List.mem_map_of_mem (by simp [hr, hg]))
        obtain ⟨members, hmem⟩ := Dict.mem_keys.mp hkey
        have hid : itemIdOf r.candidate ∈ bundled.map KnapsackItem.itemId := by
          rw [hids]
          refine List.mem_map.mpr ⟨_, hperm.mem_iff.mpr hmem, ?_⟩
          rw [itemIdOf_of_some hg]
          simp [bundleKey, hg]
        obtain ⟨item, hitem, heq⟩ := List.mem_map.mp hid
        exact ⟨item, List.mem_append_right _ hitem, heq⟩

end Allocator

end RetentionEngine
