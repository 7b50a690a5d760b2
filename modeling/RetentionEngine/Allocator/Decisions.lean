import RetentionEngine.Allocator.Selection

/-!
# The allocation table

What `allocate` says of each candidate: its rank among the chosen items,
whether its item is the runner-up of its key, and why it was not chosen.
The three come from one list, the chosen items in order of value, and
`allocate_table` reads them off it.
-/

namespace RetentionEngine

namespace Allocator

variable {K : Type} [Field K] [LinearOrder K]

/-- **The order of the table**: more value first, then the item id. -/
def Before (i j : KnapsackItem K) : Prop :=
  j.value < i.value ∨ i.value = j.value ∧ i.itemId < j.itemId

/-- **The runner-up of a picked key**: the first of its other items that are
worth something. -/
structure IsRunnerUp (its chosen : List (KnapsackItem K)) (item : KnapsackItem K) : Prop where
  picked : item.choiceKey ∈ chosen.map KnapsackItem.choiceKey
  notChosen : item ∉ chosen
  pos : 0 < item.value
  first : ∀ other ∈ its, other.choiceKey = item.choiceKey → other ∉ chosen → 0 < other.value →
    other ≠ item → Before item other

/-- **What a decision says of its item**, where the `chosen` items are
listed in order. -/
structure Describes (its chosen : List (KnapsackItem K)) (item : KnapsackItem K)
    (d : AllocationDecision K) : Prop where
  choiceKey : d.choiceKey = item.choiceKey
  priority : d.priority = item.value
  costIdr : d.costIdr = item.costIdr
  selected : d.selected = true ↔ item ∈ chosen
  rank : ∀ n, d.rank = some n ↔ ∃ k, n = k + 1 ∧ chosen[k]? = some item
  isRunnerUp : d.isRunnerUp = true ↔ IsRunnerUp its chosen item
  noReason : d.exclusionReason = none ↔ item ∈ chosen
  noExpectedGain : d.exclusionReason = some .noExpectedGain ↔ item ∉ chosen ∧ item.value ≤ 0
  runnerUp : d.exclusionReason = some .runnerUp ↔ item ∉ chosen ∧ 0 < item.value ∧
    item.choiceKey ∈ chosen.map KnapsackItem.choiceKey
  budgetExhausted : d.exclusionReason = some .budgetExhausted ↔ item ∉ chosen ∧ 0 < item.value ∧
    item.choiceKey ∉ chosen.map KnapsackItem.choiceKey

/-- **The table is right**: one decision for each candidate, the chosen
items one to a key and in order, and every decision true of the item its
candidate belongs to. -/
structure IsTable (candidates : List (RankedCandidate K)) (its chosen : List (KnapsackItem K))
    (res : AllocationResult K) : Prop where
  ids : (its.map KnapsackItem.itemId).Nodup
  represents : ∀ item ∈ its, Represents candidates item
  covers : ∀ r ∈ candidates, ∃ item ∈ its, item.itemId = itemIdOf r.candidate
  decided : (res.decisions.map AllocationDecision.candidateId).Perm
    (candidates.map fun r => r.candidate.candidateId)
  onePerKey : OnePerKey KnapsackItem.choiceKey its chosen
  ranked : chosen.Pairwise Before
  describes : ∀ item ∈ its, ∀ d ∈ res.decisions, d.candidateId ∈ item.candidateIds →
    Describes its chosen item d

variable {its sel : List (KnapsackItem K)} {ids : List String} {item : KnapsackItem K}

omit [Field K] in
theorem before_of_valueLe {i j : KnapsackItem K} (h : valueLe i j) (hne : i.itemId ≠ j.itemId) :
    Before i j :=
  h.imp_right fun ⟨heq, hle⟩ => ⟨heq, lt_of_le_of_ne hle hne⟩

omit [Field K] in
theorem Before.not_valueLe {i j : KnapsackItem K} (h : Before i j) : ¬ valueLe j i := by
  rintro (hlt | ⟨heq, hle⟩)
  · rcases h with hlt' | ⟨heq', -⟩
    · exact absurd hlt hlt'.not_gt
    · exact absurd heq' hlt.ne
  · rcases h with hlt' | ⟨-, hlt'⟩
    · exact absurd heq hlt'.ne
    · exact absurd hle hlt'.not_ge

/-! ## The chosen items in order -/

section Outcome

variable (hids : (its.map KnapsackItem.itemId).Nodup)
  (hchosen : ∀ i ∈ (outcome its ids).chosenItems, i ∈ its)
include hids hchosen

/-- **The chosen items are in order.** -/
theorem pairwise_chosenItems (hnodup : (outcome its ids).chosenItems.Nodup) :
    (outcome its ids).chosenItems.Pairwise Before := by
  have hsort : (outcome its ids).chosenItems.Pairwise valueLe := List.pairwise_insertionSort _ _
  have hne : (outcome its ids).chosenItems.Pairwise fun i j => i.itemId ≠ j.itemId :=
    hnodup.pairwise_of_forall_ne fun i hi j hj hij hid =>
      hij (List.inj_on_of_nodup_map hids (hchosen i hi) (hchosen j hj) hid)
  exact hsort.imp₂ (fun _ _ => before_of_valueLe) hne

/-- **A rank counts the chosen items from one.** -/
theorem rankOf_get?_iff (hnodup : (outcome its ids).chosenItems.Nodup) (hitem : item ∈ its)
    {n : ℕ} : (outcome its ids).rankOf.get? item.itemId = some n ↔
      ∃ k, n = k + 1 ∧ (outcome its ids).chosenItems[k]? = some item := by
  have hrank : (outcome its ids).rankOf = Dict.ofList
      (fun p : KnapsackItem K × ℕ => p.1.itemId) (fun p => p.2 + 1)
        (outcome its ids).chosenItems.zipIdx := rfl
  rw [hrank]
  constructor
  · intro hget
    obtain ⟨⟨i, k⟩, hmem, hid, rfl⟩ := Dict.exists_of_get?_ofList hget
    have hk : (outcome its ids).chosenItems[k]? = some i := List.mem_zipIdx_iff_getElem?.mp hmem
    have hi : i ∈ its := hchosen i (List.mem_of_getElem? hk)
    obtain rfl : i = item := List.inj_on_of_nodup_map hids hi hitem hid
    exact ⟨k, rfl, hk⟩
  · rintro ⟨k, rfl, hk⟩
    have hkeys : ((outcome its ids).chosenItems.zipIdx.map
        fun p : KnapsackItem K × ℕ => p.1.itemId).Nodup := by
      rw [show (fun p : KnapsackItem K × ℕ => p.1.itemId) = KnapsackItem.itemId ∘ Prod.fst from rfl,
        ← List.map_map, List.zipIdx_map_fst]
      exact hnodup.map_on fun i hi j hj =>
        List.inj_on_of_nodup_map hids (hchosen i hi) (hchosen j hj)
    exact Dict.get?_ofList hkeys
      (List.mem_zipIdx_iff_getElem?.mpr hk : (item, k) ∈ (outcome its ids).chosenItems.zipIdx)

/-- An item is selected where it is listed. -/
theorem selects_iff_mem (hitem : item ∈ its) :
    (outcome its ids).selects item = true ↔ item ∈ (outcome its ids).chosenItems := by
  rw [selects_iff (.refl _), List.mem_map]
  constructor
  · rintro ⟨i, hi, hid⟩
    obtain rfl : i = item := List.inj_on_of_nodup_map hids (hchosen i hi) hitem hid
    exact hi
  · exact fun hmem => ⟨item, hmem, rfl⟩

/-- **The flag is on the first of the other items** of a picked key, and on
no other item. -/
theorem runnerUpOf_get?_iff (hitem : item ∈ its) :
    (outcome its ids).runnerUpOf.get? item.choiceKey = some item.itemId ↔
      IsRunnerUp its (outcome its ids).chosenItems item := by
  -- the loop sets a key once, at the first item that may be its runner-up
  have hget : (outcome its ids).runnerUpOf.get? item.choiceKey =
      ((its.insertionSort valueLe).find? fun i =>
        (i.choiceKey ∈ (outcome its ids).chosenItems.map KnapsackItem.choiceKey ∧
          (outcome its ids).rankOf.get? i.itemId = none ∧ 0 < i.value) ∧
            i.choiceKey = item.choiceKey).map KnapsackItem.itemId := by
    have hfold := Dict.get?_foldl_set_absent
      (p := fun i : KnapsackItem K =>
        i.choiceKey ∈ (outcome its ids).chosenItems.map KnapsackItem.choiceKey ∧
          (outcome its ids).rankOf.get? i.itemId = none ∧ 0 < i.value)
      KnapsackItem.choiceKey KnapsackItem.itemId (its.insertionSort valueLe) .empty item.choiceKey
    rw [show (Dict.empty : Dict String String).get? item.choiceKey = none from rfl,
      Option.none_or] at hfold
    rw [← hfold]
    refine congrArg (fun d : Dict String String => d.get? item.choiceKey) ?_
    refine congrArg (fun f => List.foldl f Dict.empty (its.insertionSort valueLe)) ?_
    funext d i
    refine if_congr ?_ rfl rfl
    constructor
    · rintro ⟨hpicked, hrank, habsent, hpos⟩
      exact ⟨⟨hpicked, hrank, hpos⟩, habsent⟩
    · rintro ⟨⟨hpicked, hrank, hpos⟩, habsent⟩
      exact ⟨hpicked, hrank, habsent, hpos⟩
  have hfree : ∀ i ∈ its, (outcome its ids).rankOf.get? i.itemId = none ↔
      i ∉ (outcome its ids).chosenItems := by
    intro i hi
    rw [← selects_iff_mem hids hchosen hi, Outcome.selects, Option.isSome_iff_ne_none, not_not]
  rw [hget, Option.map_eq_some_iff]
  constructor
  · rintro ⟨i, hfind, hid⟩
    obtain ⟨hi, hp, hfirst⟩ := find?_insertionSort hfind
    obtain rfl : i = item := List.inj_on_of_nodup_map hids hi hitem hid
    obtain ⟨⟨hpicked, hrank, hpos⟩, -⟩ := of_decide_eq_true hp
    refine ⟨hpicked, (hfree i hi).mp hrank, hpos, ?_⟩
    intro other hother hkey hnot hworth hne
    have hp' : ((other.choiceKey ∈ (outcome its ids).chosenItems.map KnapsackItem.choiceKey ∧
        (outcome its ids).rankOf.get? other.itemId = none ∧ 0 < other.value) ∧
          other.choiceKey = i.choiceKey) :=
      ⟨⟨hkey ▸ hpicked, (hfree other hother).mpr hnot, hworth⟩, hkey⟩
    rcases hfirst other hother (decide_eq_true hp') with heq | hle
    · exact absurd heq hne
    · exact before_of_valueLe hle fun hid =>
        hne (List.inj_on_of_nodup_map hids hother hi hid.symm)
  · intro hrunner
    cases hfind : (its.insertionSort valueLe).find? fun i =>
        (i.choiceKey ∈ (outcome its ids).chosenItems.map KnapsackItem.choiceKey ∧
          (outcome its ids).rankOf.get? i.itemId = none ∧ 0 < i.value) ∧
            i.choiceKey = item.choiceKey with
    | none =>
        have hnone := List.find?_eq_none.mp hfind item
          ((List.perm_insertionSort valueLe its).mem_iff.mpr hitem)
        exact absurd (decide_eq_true
          ⟨⟨hrunner.picked, (hfree item hitem).mpr hrunner.notChosen, hrunner.pos⟩, rfl⟩) hnone
    | some i =>
        obtain ⟨hi, hp, hfirst⟩ := find?_insertionSort hfind
        obtain ⟨⟨-, hrank, hpos⟩, hkey⟩ := of_decide_eq_true hp
        refine ⟨i, rfl, ?_⟩
        -- the item comes before every other, so it is the one found
        by_contra hne
        have hother : i ≠ item := fun heq => hne (congrArg _ heq)
        have hbefore := hrunner.first i hi hkey ((hfree i hi).mp hrank) hpos hother
        rcases hfirst item hitem (decide_eq_true
          ⟨⟨hrunner.picked, (hfree item hitem).mpr hrunner.notChosen, hrunner.pos⟩, rfl⟩) with
          heq | hle
        · exact hother heq.symm
        · exact hbefore.not_valueLe hle

/-- **Every decision describes its item.** -/
theorem describes_decision (hnodup : (outcome its ids).chosenItems.Nodup) (hitem : item ∈ its)
    (cid : String) :
    Describes its (outcome its ids).chosenItems item ((outcome its ids).decision item cid) := by
  have hsel := selects_iff_mem hids hchosen hitem
  have hreason : ∀ reason, ((outcome its ids).decision item cid).exclusionReason = reason ↔
      (if item ∈ (outcome its ids).chosenItems then none
        else if item.value ≤ 0 then some ExclusionReason.noExpectedGain
        else if item.choiceKey ∈ (outcome its ids).chosenItems.map KnapsackItem.choiceKey then
          some .runnerUp
        else some .budgetExhausted) = reason := by
    intro reason
    refine Eq.congr_left ?_
    exact if_congr hsel rfl rfl
  refine ⟨rfl, rfl, rfl, hsel, fun _ => rankOf_get?_iff hids hchosen hnodup hitem,
    decide_eq_true_iff.trans (runnerUpOf_get?_iff hids hchosen hitem), ?_, ?_, ?_, ?_⟩
  all_goals
    rw [hreason]
    by_cases hmem : item ∈ (outcome its ids).chosenItems
    · simp [hmem]
    · by_cases hgain : item.value ≤ 0
      · simp [hmem, hgain]
      · by_cases hpicked : item.choiceKey ∈
            (outcome its ids).chosenItems.map KnapsackItem.choiceKey
        · simp only [hmem, hgain, hpicked, if_true, if_false]
          simp [not_le.mp hgain]
        · simp only [hmem, hgain, hpicked, if_false]
          simp [not_le.mp hgain]

end Outcome

/-! ## The table -/

variable {candidates : List (RankedCandidate K)} {budget : ℤ} {config : AllocatorConfig}

/-- **One item of each key makes a table.** -/
theorem DistinctIds.isTable {strategy : String} (h : DistinctIds candidates)
    (hits : items candidates = .ok its) (hperm : ids.Perm (sel.map KnapsackItem.itemId))
    (hkeys : OnePerKey KnapsackItem.choiceKey its sel) :
    IsTable candidates its (outcome its ids).chosenItems (resultOf its budget strategy ids) := by
  have a : IsAllocation candidates its sel (outcome its ids) (resultOf its budget strategy ids) :=
    h.isAllocation hits hperm hkeys
  have hchosen : OnePerKey KnapsackItem.choiceKey its (outcome its ids).chosenItems :=
    hkeys.perm (perm_chosenItems a.ids hkeys.mem hperm)
  refine ⟨a.ids, a.represents, a.covers, a.perm_candidateIds h, hchosen,
    pairwise_chosenItems a.ids hchosen.mem hchosen.nodup, ?_⟩
  intro item hitem d hd hcid
  obtain ⟨i, hi, cid, hcid', rfl⟩ := a.mem_decisions.mp hd
  -- no candidate is behind two items
  obtain ⟨r, hr, hid⟩ := List.mem_map.mp ((a.represents item hitem).candidateIds.mem_iff.mp hcid)
  obtain ⟨r', hr', hid'⟩ := List.mem_map.mp ((a.represents i hi).candidateIds.mem_iff.mp hcid')
  rw [mem_mates] at hr hr'
  obtain rfl : r = r' := List.inj_on_of_nodup_map h.ids hr.1 hr'.1 (hid.trans hid'.symm)
  obtain rfl : i = item :=
    List.inj_on_of_nodup_map a.ids hi hitem (hr'.2.symm.trans hr.2)
  exact describes_decision a.ids hchosen.mem hchosen.nodup hi cid

/-- **The allocation table is right**, whatever the budget and the
configuration, for every result `allocate` returns. It returns one under
the greedy strategy, and where there is a scale, a budget and no cost is
negative. -/
theorem allocate_table (h : DistinctIds candidates) :
    (lower config.strategy ∉ ["auto", "exact_dp"] ∨ (∀ r ∈ candidates, 0 ≤ r.candidate.costIdr) ∧
      0 ≤ budget ∧ 1 ≤ config.costScaleIdr →
        ∃ res, allocate candidates budget config = .ok res) ∧
    ∀ res, allocate candidates budget config = .ok res →
      ∃ its chosen, items candidates = .ok its ∧ IsTable candidates its chosen res := by
  constructor
  · intro hconfig
    obtain ⟨its, hits, hids, hrep, -⟩ := h.items_spec
    have hchoose : ∃ strategy ids, choose its budget config = .ok (strategy, ids) := by
      rcases hconfig with hgreedy | ⟨hcosts, hbudget, hscale⟩
      · unfold choose
        rw [if_neg hgreedy]
        exact ⟨_, _, rfl⟩
      · exact choose_ok ⟨hids, fun i hi => costIdr_nonneg (hrep i hi) hcosts, hbudget, by omega⟩
    obtain ⟨strategy, ids, hchoose⟩ := hchoose
    exact ⟨_, allocate_eq_ok hits hchoose⟩
  · intro res hok
    obtain ⟨its, strategy, ids, hits, hchoose, rfl⟩ := exists_of_allocate_eq_ok hok
    obtain ⟨sel, hperm, hkeys, -⟩ := choose_spec hchoose
    exact ⟨its, _, hits, h.isTable hits hperm hkeys⟩

/-- Two offers to one user, and one to a circle. -/
def sampleTable : List (RankedCandidate ℚ) :=
  [sampleOffer "c1" "a" "X" none, sampleOffer "c2" "a" "Y" none,
    sampleOffer "c3" "b" "G" (some "k")]

theorem allocate_table_three : ∃ res, allocate sampleTable 20 ⟨"auto", 10, 100⟩ = .ok res ∧
    ∃ its chosen, items sampleTable = .ok its ∧ IsTable sampleTable its chosen res := by
  have hids : DistinctIds sampleTable := ⟨by decide, by decide, by decide, by decide⟩
  obtain ⟨hreturns, hright⟩ := @allocate_table ℚ _ _ sampleTable 20 ⟨"auto", 10, 100⟩ hids
  obtain ⟨res, hok⟩ := hreturns (Or.inr ⟨by decide, by decide, by decide⟩)
  exact ⟨res, hok, hright res hok⟩

/-- **Not under every configuration**: a scale of zero divides by zero. -/
theorem not_allocate_returns :
    ¬ ∀ config, ∃ res, allocate sampleTable 20 config = .ok res := by
  intro hall
  obtain ⟨res, hok⟩ := hall ⟨"auto", 0, 100⟩
  have hfails : allocate sampleTable 20 ⟨"auto", 0, 100⟩ = .error .uncaught := by decide +kernel
  rw [hfails] at hok
  cases hok

end Allocator

end RetentionEngine
