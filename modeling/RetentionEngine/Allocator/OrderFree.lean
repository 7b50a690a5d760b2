import RetentionEngine.Allocator.Selection
import RetentionEngine.Ranker

/-!
# Order does not matter

`build_context`, `rank` and `allocate` sort what they are given, each by a
key that decides the order where ids are distinct. `allocate_perm` follows
one permutation of the candidates through the bundles, either solver and
the decision table; `rankAndAllocate_perm` puts the three together.
-/

namespace RetentionEngine

namespace Allocator

variable {K : Type} [Field K] [LinearOrder K]

variable {candidates candidates' : List (RankedCandidate K)}
  {its its' : List (KnapsackItem K)} {ids : List String} {budget : ℤ} {config : AllocatorConfig}

/-! ## The items -/

omit [LinearOrder K] in
/-- **A bundle does not depend on the order of its members.** -/
theorem bundleGroup_perm (groupId : String) {members members' : List (RankedCandidate K)}
    (hids : (members.map fun r => r.candidate.candidateId).Nodup) (hperm : members.Perm members') :
    bundleGroup groupId members = bundleGroup groupId members' := by
  unfold bundleGroup
  rw [insertionSort_le_eq_of_perm (fun r : RankedCandidate K => r.candidate.candidateId) hperm
    fun r hr s hs heq => List.inj_on_of_nodup_map hids hr hs heq]

omit [Field K] [LinearOrder K] in
/-- Either order of the candidates has its bundles in one order. -/
theorem sortedKeys_perm (hperm : candidates.Perm candidates') :
    ((bundles candidates).entries.insertionSort bundleLe).map Prod.fst =
      ((bundles candidates').entries.insertionSort bundleLe).map Prod.fst := by
  have hsorted : ∀ l : List (RankedCandidate K),
      (((bundles l).entries.insertionSort bundleLe).map Prod.fst).Pairwise
        (LexLe Prod.fst Prod.snd) := fun l =>
    List.pairwise_map.mpr (List.pairwise_insertionSort bundleLe _)
  have hkeys : ∀ l : List (RankedCandidate K),
      (((bundles l).entries.insertionSort bundleLe).map Prod.fst).Perm (bundles l).keys := fun l =>
    (List.perm_insertionSort bundleLe _).map _
  have hgroups : (bundles candidates).keys.Perm (bundles candidates').keys :=
    Dict.perm_keys_groupBy (hperm.filter _)
  refine ((hkeys candidates).trans (hgroups.trans (hkeys candidates').symm)).eq_of_pairwise ?_
    (hsorted candidates) (hsorted candidates')
  intro k k' _ _ hle hle'
  exact Prod.ext_iff.mpr (hle.keys_eq hle')

omit [Field K] [LinearOrder K] in
/-- The bundles in order, each the candidates of its key. -/
theorem sortedBundles_eq (l : List (RankedCandidate K)) :
    (bundles l).entries.insertionSort bundleLe =
      (((bundles l).entries.insertionSort bundleLe).map Prod.fst).map fun k =>
        (k, (l.filter fun r => r.candidate.groupId ≠ none).filter fun r => bundleKey r = k) := by
  rw [List.map_map]
  refine (List.map_id _).symm.trans (List.map_congr_left ?_)
  rintro ⟨k, members⟩ hmem
  have hmem := (List.perm_insertionSort bundleLe _).mem_iff.mp hmem
  exact Prod.ext rfl (Dict.mem_entries_groupBy.mp hmem).2

omit [LinearOrder K] in
/-- **The items are the same**, in some order. -/
theorem items_perm (h : DistinctIds candidates) (hperm : candidates.Perm candidates') :
    ∃ its its', items candidates = .ok its ∧ items candidates' = .ok its' ∧
      (its.map KnapsackItem.itemId).Nodup ∧ its.Perm its' := by
  obtain ⟨its, hits, hids, -⟩ := h.items_spec
  have hbundled : (((bundles candidates).entries.insertionSort bundleLe).mapM fun p =>
      bundleGroup (p.1.1 ++ ":" ++ p.1.2) p.2) =
        ((bundles candidates').entries.insertionSort bundleLe).mapM fun p =>
          bundleGroup (p.1.1 ++ ":" ++ p.1.2) p.2 := by
    have hmembers : ∀ k : String × String, bundleGroup (k.1 ++ ":" ++ k.2)
        ((candidates.filter fun r => r.candidate.groupId ≠ none).filter fun r => bundleKey r = k) =
          bundleGroup (k.1 ++ ":" ++ k.2) ((candidates'.filter fun r =>
            r.candidate.groupId ≠ none).filter fun r => bundleKey r = k) := fun k =>
      bundleGroup_perm _ (((List.filter_sublist.trans List.filter_sublist).map _).nodup h.ids)
        ((hperm.filter _).filter _)
    rw [sortedBundles_eq candidates, sortedBundles_eq candidates', sortedKeys_perm hperm]
    simp only [List.mapM_map, Function.comp_def, hmembers]
  unfold items at hits ⊢
  obtain ⟨bundled, hok, hits⟩ := exists_of_bind_eq_ok hits
  obtain rfl := Except.ok.inj hits
  refine ⟨_, _, by rw [hok]; rfl, by rw [← hbundled, hok]; rfl, hids, ?_⟩
  exact ((hperm.filter _).map _).append_right bundled

/-! ## The solvers -/

omit [Field K] [LinearOrder K] in
theorem eq_of_itemId (hids : (its.map KnapsackItem.itemId).Nodup) {i j : KnapsackItem K}
    (hi : i ∈ its) (hj : j ∈ its) (hid : i.itemId = j.itemId) : i = j :=
  List.inj_on_of_nodup_map hids hi hj hid

omit [Field K] [LinearOrder K] in
/-- Sorted by key and id, either order is one. -/
theorem insertionSort_keyLe_perm (hids : (its.map KnapsackItem.itemId).Nodup)
    (hperm : its.Perm its') : its.insertionSort keyLe = its'.insertionSort keyLe :=
  insertionSort_eq_of_perm hperm fun _ hi _ hj hle hle' =>
    eq_of_itemId hids hi hj (LexLe.keys_eq hle hle').2

omit [Field K] in
theorem itemId_eq_of_valueLe {i j : KnapsackItem K} (h : valueLe i j) (h' : valueLe j i) :
    i.itemId = j.itemId := by
  have hkeys : LexLe (fun i : KnapsackItem K => OrderDual.toDual i.value) KnapsackItem.itemId i j :=
    h
  exact (hkeys.keys_eq h').2

theorem itemId_eq_of_densityLe {i j : KnapsackItem K} (h : Greedy.densityLe i j)
    (h' : Greedy.densityLe j i) : i.itemId = j.itemId := by
  have hkeys : LexLe (fun i : KnapsackItem K => OrderDual.toDual (Greedy.density i))
      KnapsackItem.itemId i j := h
  exact (hkeys.keys_eq h').2

omit [Field K] in
/-- So it is by value and id. -/
theorem insertionSort_valueLe_perm (hids : (its.map KnapsackItem.itemId).Nodup)
    (hperm : its.Perm its') : its.insertionSort valueLe = its'.insertionSort valueLe :=
  insertionSort_eq_of_perm hperm fun _ hi _ hj hle hle' =>
    eq_of_itemId hids hi hj (itemId_eq_of_valueLe hle hle')

/-- **The greedy loop takes the same.** -/
theorem Greedy.solve_perm (hids : (its.map KnapsackItem.itemId).Nodup) (hperm : its.Perm its') :
    Greedy.solve its budget = Greedy.solve its' budget := by
  have hsorted : (its.filter fun i => 0 < i.value).insertionSort Greedy.densityLe =
      (its'.filter fun i => 0 < i.value).insertionSort Greedy.densityLe := by
    refine insertionSort_eq_of_perm (hperm.filter _) ?_
    intro i hi j hj hle hle'
    exact eq_of_itemId hids (List.mem_of_mem_filter hi) (List.mem_of_mem_filter hj)
      (itemId_eq_of_densityLe hle hle')
  unfold Greedy.solve Greedy.run
  rw [hsorted]

/-- **The table chooses the same**, or fails in the same way. -/
theorem Knapsack.solve_perm (hids : (its.map KnapsackItem.itemId).Nodup) (hperm : its.Perm its')
    (scale maxDpCells : ℤ) :
    Knapsack.solve its budget scale maxDpCells = Knapsack.solve its' budget scale maxDpCells := by
  have husable : (its.filter fun i => 0 < i.value ∧ i.costIdr ≤ budget).Perm
      (its'.filter fun i => 0 < i.value ∧ i.costIdr ≤ budget) := hperm.filter _
  have hnodup : ((its.filter fun i => 0 < i.value ∧ i.costIdr ≤ budget).map
      KnapsackItem.itemId).Nodup := (List.filter_sublist.map _).nodup hids
  unfold Knapsack.solve
  dsimp only
  generalize its.filter (fun i => 0 < i.value ∧ i.costIdr ≤ budget) = usable at husable hnodup
  generalize its'.filter (fun i => 0 < i.value ∧ i.costIdr ≤ budget) = usable' at husable
  have hgroups : Knapsack.groups usable = Knapsack.groups usable' := by
    unfold Knapsack.groups
    rw [insertionSort_keyLe_perm hnodup husable]
  have hweight : Knapsack.weightOf usable scale = Knapsack.weightOf usable' scale := by
    funext i
    unfold Knapsack.weightOf
    rw [Dict.get?_ofList_perm hnodup husable]
  have hnil : usable = [] ↔ usable' = [] := by
    rw [← List.length_eq_zero_iff, husable.length_eq, List.length_eq_zero_iff]
  rw [hgroups, hweight]
  refine if_congr hnil rfl (if_congr Iff.rfl rfl (if_congr Iff.rfl rfl (if_congr ?_ rfl rfl)))
  exact or_congr Iff.rfl (exists_congr fun i => and_congr husable.mem_iff Iff.rfl)

/-- **Either strategy chooses the same.** -/
theorem choose_perm (hids : (its.map KnapsackItem.itemId).Nodup) (hperm : its.Perm its') :
    choose its budget config = choose its' budget config := by
  unfold choose
  rw [Knapsack.solve_perm hids hperm, Greedy.solve_perm hids hperm]

/-! ## The decisions -/

/-- **One choice has one outcome.** -/
theorem outcome_perm (hids : (its.map KnapsackItem.itemId).Nodup) (hperm : its.Perm its') :
    outcome its ids = outcome its' ids := by
  have hbyId : (Dict.ofList KnapsackItem.itemId id its).get? =
      (Dict.ofList KnapsackItem.itemId id its').get? := by
    funext i
    exact Dict.get?_ofList_perm hids hperm
  unfold outcome
  dsimp only
  rw [hbyId, insertionSort_valueLe_perm hids hperm]

/-- **Allocation does not depend on the order of the candidates**, under
any strategy, budget and scale. -/
theorem allocate_perm (h : DistinctIds candidates) (hperm : candidates.Perm candidates') :
    allocate candidates budget config = allocate candidates' budget config := by
  obtain ⟨its, its', hits, hits', hids, hitems⟩ := items_perm h hperm
  unfold allocate
  rw [hits, hits']
  simp only [bind, Except.bind]
  rw [choose_perm hids hitems]
  split
  · rfl
  · rename_i p hchoose
    obtain ⟨strategy, ids⟩ := p
    have houtcome : outcome its ids = outcome its' ids := outcome_perm hids hitems
    have hdecisions : (outcome its' ids).decisions its = (outcome its' ids).decisions its' := by
      unfold Outcome.decisions
      rw [insertionSort_keyLe_perm hids hitems]
    simp only [houtcome, hdecisions]

/-! ## The ranker -/

omit [LinearOrder K] in
/-- **The context does not depend on the order of the examples.** -/
theorem buildContext_perm {examples examples' : List (LabeledExample K)}
    (hids : (examples.map LabeledExample.sourceOutcomeId).Nodup) (hperm : examples.Perm examples') :
    Ranker.buildContext examples = Ranker.buildContext examples' := by
  unfold Ranker.buildContext
  rw [insertionSort_le_eq_of_perm (LabeledExample.sourceOutcomeId (K := K)) hperm
    fun e he e' he' heq => List.inj_on_of_nodup_map hids he he' heq]

/-- **Nor does the ranking on that of the candidates.** -/
theorem rank_perm (regressor : Ranker.Regressor K) (context : Ranker.RankerContext K)
    {cs cs' : List (Candidate K)} (minContextRows : ℤ)
    (hids : (cs.map Candidate.candidateId).Nodup) (hperm : cs.Perm cs') :
    Ranker.rank regressor context cs minContextRows =
      Ranker.rank regressor context cs' minContextRows := by
  unfold Ranker.rank
  rw [insertionSort_le_eq_of_perm (Candidate.candidateId (K := K)) hperm
    fun c hc c' hc' heq => List.inj_on_of_nodup_map hids hc hc' heq]

/-- `build_context`, `rank` and `allocate`, one after the other. -/
def rankAndAllocate (regressor : Ranker.Regressor K) (examples : List (LabeledExample K))
    (cs : List (Candidate K)) (minContextRows budgetIdr : ℤ) (config : AllocatorConfig) :
    Except String (List (RankedCandidate K) × Except Error (AllocationResult K)) := do
  let context ← Ranker.buildContext examples
  let ranked := Ranker.rank regressor context cs minContextRows
  return (ranked, allocate ranked budgetIdr config)

/-- **Decisions do not depend on the order of the input.** Whatever the
regression, the budget and the configuration, two orders of the candidates
and of the examples have one ranked list and one allocation; and the
allocation would be the same in any order of the ranked list, if its ids
cannot be confused. -/
theorem rankAndAllocate_perm (regressor : Ranker.Regressor K)
    {examples examples' : List (LabeledExample K)} {cs cs' : List (Candidate K)}
    (hexamples : (examples.map LabeledExample.sourceOutcomeId).Nodup)
    (hids : (cs.map Candidate.candidateId).Nodup)
    (hperm : examples.Perm examples') (hperm' : cs.Perm cs') (minContextRows budget : ℤ)
    (config : AllocatorConfig) :
    rankAndAllocate regressor examples cs minContextRows budget config =
        rankAndAllocate regressor examples' cs' minContextRows budget config ∧
      ∀ ranked result, rankAndAllocate regressor examples cs minContextRows budget config =
        .ok (ranked, result) → DistinctIds ranked →
          ∀ ranked', ranked.Perm ranked' → allocate ranked' budget config = result := by
  constructor
  · unfold rankAndAllocate
    rw [buildContext_perm hexamples hperm]
    refine congrArg (fun f => Except.bind (Ranker.buildContext examples') f) ?_
    funext context
    rw [rank_perm regressor context minContextRows hids hperm']
  · intro ranked result hok hdistinct ranked' hranked
    unfold rankAndAllocate at hok
    obtain ⟨context, -, hok⟩ := exists_of_bind_eq_ok hok
    obtain ⟨rfl, rfl⟩ := Prod.mk.inj (Except.ok.inj hok)
    exact (allocate_perm hdistinct hranked).symm

/-- A regression that predicts nothing to be gained. -/
def flatRegressor : Ranker.Regressor ℚ where
  regress _ query := (query.map fun _ => 0, .sklearnStandIn)
  length_eq _ _ := List.length_map _

/-- Two offers, either way round. -/
theorem rankAndAllocate_perm_two :
    rankAndAllocate flatRegressor []
        [(sampleOffer "c1" "a" "X" none).candidate, (sampleOffer "c2" "b" "X" none).candidate]
        1 10 ⟨"auto", 10, 100⟩ =
      rankAndAllocate flatRegressor []
        [(sampleOffer "c2" "b" "X" none).candidate, (sampleOffer "c1" "a" "X" none).candidate]
        1 10 ⟨"auto", 10, 100⟩ :=
  (rankAndAllocate_perm flatRegressor (by decide) (by decide) (.refl []) (.swap _ _ []) 1 10
    ⟨"auto", 10, 100⟩).1

end Allocator

end RetentionEngine
