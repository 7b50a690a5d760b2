import RetentionEngine.Pipeline.Money

/-!
# The stored allocation table

The rows `save_allocation` writes, one for every record of the decision
log. A row takes its cost from the decision, and a decision has the cost
of its item: of a bundle, every member's row has the cost of the whole.
`Completed.exists_allocationCandidateRows` says what the selected rows cost
together, and `allocationTable_iff` when that is what the allocation spent.
-/

namespace RetentionEngine

namespace Pipeline

open Allocator (unitOf selectedOf mem_selectedOf Selects)
open Python (roundHalfEven)

variable {K : Type}

/-- A row of `allocation_candidates`. -/
structure AllocationCandidateRow (K : Type) where
  id : Uuid
  tenantId : Uuid
  allocationRunId : Uuid
  subjectType : SubjectType
  userPseudonym : String
  circleId : Option Uuid
  incentiveCode : String
  churnRisk : K
  impactScore : K
  segment : String
  patternType : PatternType
  priorityIdr : ℤ
  costIdr : ℤ
  userRank : Option ℕ
  selected : Bool
  exclusionReason : Option String

variable [Field K] [LinearOrder K] [FloorRing K]

/-- The row of one decision on a candidate. -/
def allocationCandidateRow (cache : StoreCache) (id tenant allocationRunId : Uuid)
    (c : Candidate K) (d : AllocationDecision K) : AllocationCandidateRow K where
  id := id
  tenantId := tenant
  allocationRunId := allocationRunId
  subjectType := if truthy c.groupId then .group else .user
  userPseudonym := c.userPseudonym
  circleId := if truthy c.groupId then cache.circleIdByStr.get? (c.groupId.getD "") else none
  incentiveCode := c.incentiveCode
  churnRisk := c.churnRisk
  impactScore := c.impactScore
  segment := c.segment.value
  patternType := c.patternType
  priorityIdr := roundHalfEven d.priority
  costIdr := d.costIdr
  userRank := d.rank
  selected := d.selected
  exclusionReason := d.exclusionReason.map ExclusionReason.value

/-- The rows `save_allocation` adds; `none` is a decision on no candidate of
the run, which raises. -/
def allocationCandidateRows (tables : Tables K) (cache : StoreCache) (tenant : Uuid)
    (candidates : List (Candidate K)) (a : Allocated K) :
    Option (List (AllocationCandidateRow K)) :=
  let candidatesById := Dict.ofList Candidate.candidateId id candidates
  a.records.zipIdx.mapM fun d => (candidatesById.get? d.1.candidateId).map fun c =>
    allocationCandidateRow cache (tables.nextId + 1 + d.2) tenant tables.nextId c d.1

/-- What the selected rows cost together. -/
def selectedCost (rows : List (AllocationCandidateRow K)) : ℤ :=
  ((rows.filter AllocationCandidateRow.selected).map AllocationCandidateRow.costIdr).sum

section Condition

omit [FloorRing K]

variable (h : Hashes) (settings : PipelineSettings K) (store : StoreReads) (run : ScoredRun K)
  (regressor : Ranker.Regressor K)

instance : DecidablePred (Chosen h settings store run regressor) := fun c => inferInstanceAs
  (Decidable (∃ v ∈ policy h settings store run,
    ∃ ranked ∈ rankStage h settings store run regressor v, ∃ d ∈ arms h settings store run,
      ∃ res ∈ (Allocator.allocate (engineRanked d ranked) settings.defaultBudgetIdr
        (allocatorConfig settings)).toOption,
        (∃ r ∈ engineRanked d ranked, r.candidate = c) ∧ Selects res c))

/-- The candidates the allocator chooses. -/
def chosen : List (Candidate K) :=
  (candidates h settings store run).filter fun c => Chosen h settings store run regressor c

/-- The candidates the allocator chooses for one unit. -/
def chosenOf (key : String) : List (Candidate K) :=
  (chosen h settings store run regressor).filter fun c => unitOf c = key

/-- **What a bundle's members would cost once more**, for every chosen
candidate: its incentive's cost for each other member of its bundle. -/
def doubleCounted : ℤ := ((chosen h settings store run regressor).map fun c =>
  ((chosenOf h settings store run regressor (unitOf c)).length - 1 : ℤ) * c.costIdr).sum

/-- No two candidates are chosen for one unit, unless they are free. -/
def NoSharedCost : Prop :=
  ∀ c, Chosen h settings store run regressor c → ∀ c', Chosen h settings store run regressor c' →
    unitOf c = unitOf c' → c ≠ c' → c.costIdr = 0

end Condition

variable {h : Hashes} {settings : PipelineSettings K} {store : StoreReads} {run : ScoredRun K}
  {regressor : Ranker.Regressor K} {v : Vetted} {ranked : List (RankedCandidate K)}
  {a : Allocated K} {c : Candidate K} {r : RankedCandidate K} {tables : Tables K}
  {cache : StoreCache} {tenant : Uuid}

omit [FloorRing K] in
theorem mem_chosen : c ∈ chosen h settings store run regressor ↔
    c ∈ candidates h settings store run ∧ Chosen h settings store run regressor c := by
  unfold chosen
  rw [List.mem_filter, decide_eq_true_iff]

omit [FloorRing K] in
theorem mem_chosenOf {key : String} : c ∈ chosenOf h settings store run regressor key ↔
    c ∈ chosen h settings store run regressor ∧ unitOf c = key := by
  unfold chosenOf
  rw [List.mem_filter, decide_eq_true_iff]

omit [FloorRing K] in
/-- **A candidate is the only one chosen for its unit** when one is. -/
theorem length_chosenOf_eq_one (hu : DistinctCandidates h settings store run)
    (hc : c ∈ chosen h settings store run regressor) :
    (chosenOf h settings store run regressor (unitOf c)).length = 1 ↔
      ∀ c' ∈ chosenOf h settings store run regressor (unitOf c), c' = c := by
  have hmem := mem_chosenOf.mpr ⟨hc, rfl⟩
  constructor
  · intro hone c' hc'
    obtain ⟨m, hm⟩ := List.length_eq_one_iff.mp hone
    rw [hm, List.mem_singleton] at hmem hc'
    rw [hc', hmem]
  · intro halone
    have hone : (chosenOf h settings store run regressor (unitOf c)).Perm [c] := by
      refine (List.perm_ext_iff_of_nodup ((hu.of_map.filter _).filter _)
        (List.nodup_singleton c)).mpr ?_
      intro c'
      rw [List.mem_singleton]
      refine ⟨halone c', ?_⟩
      rintro rfl
      exact hmem
    exact hone.length_eq

namespace Completed

variable (hdone : Completed h settings store run regressor v ranked a)
  (hu : DistinctCandidates h settings store run)
include hdone hu

omit [FloorRing K] in
/-- The chosen candidates are the allocator's selected ones. -/
theorem perm_chosen : ((a.engine.filter fun r => Selects a.allocation r.candidate).map
    RankedCandidate.candidate).Perm (chosen h settings store run regressor) := by
  have hengine : (a.engine.map RankedCandidate.candidate).Nodup := by
    have hids := (hdone.distinctIds hu).ids
    refine List.Nodup.of_map Candidate.candidateId ?_
    rwa [List.map_map]
  have hchosen : (chosen h settings store run regressor).Nodup := hu.of_map.filter _
  refine (List.perm_ext_iff_of_nodup ((List.filter_sublist.map _).nodup hengine) hchosen).mpr ?_
  intro c
  rw [List.mem_map, mem_chosen, hdone.chosen_iff]
  constructor
  · rintro ⟨r, hr, rfl⟩
    obtain ⟨hr, hsel⟩ := List.mem_filter.mp hr
    exact ⟨hdone.mem_candidates_of_mem_engine hu hr, r, hr, rfl, of_decide_eq_true hsel⟩
  · rintro ⟨-, r, hr, rfl, hsel⟩
    exact ⟨r, List.mem_filter.mpr ⟨hr, decide_eq_true hsel⟩, rfl⟩

omit [FloorRing K] in
theorem perm_chosenOf (key : String) : ((selectedOf a.engine a.allocation key).map
    RankedCandidate.candidate).Perm (chosenOf h settings store run regressor key) := by
  have hperm := (hdone.perm_chosen hu).filter fun c => decide (unitOf c = key)
  rw [List.filter_map, List.filter_filter] at hperm
  refine List.Perm.trans (.of_eq ?_) hperm
  refine congrArg (List.map _) (List.filter_congr ?_)
  intro r _
  simp [Bool.and_comm]

omit [FloorRing K] in
/-- The chosen candidates of a unit cost what each of them does. -/
theorem sum_costIdr_chosenOf (hc : c ∈ chosen h settings store run regressor) :
    ((chosenOf h settings store run regressor (unitOf c)).map Candidate.costIdr).sum =
      (chosenOf h settings store run regressor (unitOf c)).length * c.costIdr := by
  obtain ⟨its, sel, o, halloc⟩ := hdone.isAllocation hu
  obtain ⟨r, hr, rfl⟩ := List.mem_map.mp ((hdone.perm_chosen hu).mem_iff.mpr hc)
  obtain ⟨hr, hsel⟩ := List.mem_filter.mp hr
  have hsel := of_decide_eq_true hsel
  rw [List.sum_eq_card_nsmul _ r.candidate.costIdr, List.length_map, nsmul_eq_mul]
  intro cost hcost
  obtain ⟨c', hc', rfl⟩ := List.mem_map.mp hcost
  obtain ⟨r', hr', rfl⟩ := List.mem_map.mp ((hdone.perm_chosenOf hu _).mem_iff.mpr hc')
  obtain ⟨-, hcode, -⟩ := uniform_selectedOf (hdone.distinctIds hu) halloc
    (mem_selectedOf.mpr ⟨hr, hsel, rfl⟩) hr'
  exact (eq_of_incentiveCode (hdone.mem_candidates_of_mem_engine hu (mem_selectedOf.mp hr').1)
    (hdone.mem_candidates_of_mem_engine hu hr) hcode).1

omit [FloorRing K] in
/-- **What the selected decisions cost**: the spend, and once more what is
counted double. -/
theorem sum_costIdr_selected :
    ((a.allocation.decisions.filter AllocationDecision.selected).map
      AllocationDecision.costIdr).sum =
        a.allocation.spentIdr + doubleCounted h settings store run regressor := by
  obtain ⟨its, sel, o, halloc⟩ := hdone.isAllocation hu
  have hspent : a.allocation.spentIdr =
      ((chosen h settings store run regressor).map Candidate.costIdr).sum := by
    rw [halloc.spentIdr_eq (hdone.distinctIds hu), ← ((hdone.perm_chosen hu).map _).sum_eq,
      List.map_map]
    rfl
  have hunits : ((a.engine.filter fun r => Selects a.allocation r.candidate).map fun r =>
      ((selectedOf a.engine a.allocation (unitOf r.candidate)).map
        fun m => m.candidate.costIdr).sum).sum =
      ((chosen h settings store run regressor).map fun c =>
        ((chosenOf h settings store run regressor (unitOf c)).map Candidate.costIdr).sum).sum := by
    rw [← ((hdone.perm_chosen hu).map _).sum_eq, List.map_map]
    refine congrArg List.sum (List.map_congr_left ?_)
    intro r _
    rw [Function.comp_apply, ← ((hdone.perm_chosenOf hu _).map _).sum_eq, List.map_map]
    rfl
  rw [halloc.sum_costIdr_selected (hdone.distinctIds hu), hunits, hspent]
  unfold doubleCounted
  rw [← List.sum_map_add]
  refine congrArg List.sum (List.map_congr_left ?_)
  intro c hc
  rw [hdone.sum_costIdr_chosenOf hu hc]
  ring

/-- **`save_allocation` finds every candidate**, and the selected rows cost
what the selected decisions cost. -/
theorem exists_allocationCandidateRows
    (hrun : decisionStages h settings store run regressor = some a) :
    ∃ rows, allocationCandidateRows tables cache tenant (candidates h settings store run) a =
      some rows ∧ selectedCost rows =
        a.allocation.spentIdr + doubleCounted h settings store run regressor := by
  -- a record names a candidate of the run
  have hfind : ∀ d ∈ a.records.zipIdx, ∃ row, ((Dict.ofList Candidate.candidateId id
      (candidates h settings store run)).get? d.1.candidateId).map (fun c =>
        allocationCandidateRow cache (tables.nextId + 1 + d.2) tenant tables.nextId c d.1) =
          some row := by
    intro d hd
    have hmem : d.1.candidateId ∈ (candidates h settings store run).map Candidate.candidateId :=
      (hdone.perm_records hu hrun).mem_iff.mp (List.mem_append_left _
        (List.mem_map_of_mem (List.fst_mem_of_mem_zipIdx hd)))
    obtain ⟨c, hc, hid⟩ := List.mem_map.mp hmem
    have hget : (Dict.ofList Candidate.candidateId id (candidates h settings store run)).get?
        c.candidateId = some c := Dict.get?_ofList hu hc
    rw [← hid, hget]
    exact ⟨_, rfl⟩
  obtain ⟨rows, hrows⟩ := exists_mapM_some hfind
  refine ⟨rows, hrows, ?_⟩
  have hcosts : rows.map (fun row => (row.selected, row.costIdr)) =
      a.records.map fun d => (d.selected, d.costIdr) := by
    rw [map_eq_map_of_forall₂ (f := fun d : AllocationDecision K × ℕ => (d.1.selected, d.1.costIdr))
      (forall₂_of_mapM hrows) ?_]
    · conv_rhs => rw [← List.zipIdx_map_fst 0 a.records, List.map_map]
      rfl
    · intro d row hrow
      obtain ⟨c, -, rfl⟩ := Option.map_eq_some_iff.mp hrow
      rfl
  have hextra : a.extra.filter AllocationDecision.selected = [] := by
    rw [List.filter_eq_nil_iff]
    intro d hd hsel
    rw [(hdone.excludes_of_mem_extra hrun hd).1] at hsel
    cases hsel
  have hsplit : selectedCost rows =
      (((rows.map fun row => (row.selected, row.costIdr)).filter Prod.fst).map Prod.snd).sum := by
    rw [List.filter_map, List.map_map]
    rfl
  have hrecords : a.records.filter AllocationDecision.selected =
      a.allocation.decisions.filter AllocationDecision.selected := by
    rw [Allocated.records, List.filter_append, hextra, List.append_nil]
  rw [hsplit, hcosts, List.filter_map, List.map_map, ← hdone.sum_costIdr_selected hu, ← hrecords]
  rfl

omit [FloorRing K] in
/-- **Nothing is counted double** exactly when no cost is shared, if no cost
is negative. -/
theorem doubleCounted_eq_zero_iff (hcosts : ∀ i ∈ store.incentives, 0 ≤ i.costIdr) :
    doubleCounted h settings store run regressor = 0 ↔
      NoSharedCost h settings store run regressor := by
  have hchosen : ∀ {c}, Chosen h settings store run regressor c →
      c ∈ chosen h settings store run regressor := fun hc =>
    mem_chosen.mpr ⟨(hdone.of_chosen hu hc).1, hc⟩
  have hcost : ∀ c ∈ chosen h settings store run regressor, 0 ≤ c.costIdr := by
    intro c hc
    obtain ⟨i, hi, heq⟩ := exists_costIdr (mem_chosen.mp hc).1
    rw [heq]
    exact hcosts i hi
  have hpos : ∀ c ∈ chosen h settings store run regressor,
      0 < (chosenOf h settings store run regressor (unitOf c)).length := fun c hc =>
    List.length_pos_of_mem (mem_chosenOf.mpr ⟨hc, rfl⟩)
  unfold doubleCounted
  constructor
  · intro hzero c hc c' hc' hunit hne
    -- two candidates, so the factor is not zero
    have htwo : (chosenOf h settings store run regressor (unitOf c)).length ≠ 1 := by
      intro hone
      have halone := (length_chosenOf_eq_one hu (hchosen hc)).mp hone
      exact hne (halone c' (mem_chosenOf.mpr ⟨hchosen hc', hunit.symm⟩)).symm
    have hnonneg : ∀ x ∈ (chosen h settings store run regressor).map (fun c =>
        ((chosenOf h settings store run regressor (unitOf c)).length - 1 : ℤ) * c.costIdr),
        0 ≤ x := by
      intro x hx
      obtain ⟨d, hd, rfl⟩ := List.mem_map.mp hx
      have hlength := hpos d hd
      exact mul_nonneg (by omega) (hcost d hd)
    have hterm := List.all_zero_of_le_zero_le_of_sum_eq_zero (fun x hx => hnonneg x hx) hzero
      (List.mem_map_of_mem (hchosen hc))
    rcases mul_eq_zero.mp hterm with hlength | hfree
    · omega
    · exact hfree
  · intro hshared
    refine List.sum_eq_zero ?_
    intro x hx
    obtain ⟨c, hc, rfl⟩ := List.mem_map.mp hx
    by_cases halone : ∀ c' ∈ chosenOf h settings store run regressor (unitOf c), c' = c
    · rw [(length_chosenOf_eq_one hu hc).mpr halone]
      simp
    · push Not at halone
      obtain ⟨c', hc', hne⟩ := halone
      obtain ⟨hmem', hunit⟩ := mem_chosenOf.mp hc'
      have hfree := hshared c (mem_chosen.mp hc).2 c' (mem_chosen.mp hmem').2 hunit.symm hne.symm
      rw [hfree, mul_zero]

end Completed

/-- **When the stored table adds up.** In every run that completes ALLOCATE
with distinct candidates, `save_allocation` writes rows, and the selected
ones cost what the allocation spent exactly when nothing is counted
double; with costs that are not negative, exactly when no two candidates
are chosen for one bundle, unless they are free. -/
theorem allocationTable_iff (tables : Tables K) (cache : StoreCache) (tenant : Uuid)
    (hu : DistinctCandidates h settings store run)
    (hrun : decisionStages h settings store run regressor = some a) :
    ∃ rows, allocationCandidateRows tables cache tenant (candidates h settings store run) a =
      some rows ∧
        (selectedCost rows = a.allocation.spentIdr ↔
          doubleCounted h settings store run regressor = 0) ∧
        ((∀ i ∈ store.incentives, 0 ≤ i.costIdr) →
          (selectedCost rows = a.allocation.spentIdr ↔
            NoSharedCost h settings store run regressor)) := by
  obtain ⟨v, ranked, hdone⟩ := exists_completed hrun
  obtain ⟨rows, hrows, hcost⟩ := hdone.exists_allocationCandidateRows hu hrun
  have hiff : selectedCost rows = a.allocation.spentIdr ↔
      doubleCounted h settings store run regressor = 0 := by
    rw [hcost]
    omega
  refine ⟨rows, hrows, hiff, ?_⟩
  intro hcosts
  rw [hiff, hdone.doubleCounted_eq_zero_iff hu hcosts]

/-- In the sample run the condition fails as the table does. -/
theorem allocationTable_iff_sample : ∃ (a : Allocated ℚ) (rows : List (AllocationCandidateRow ℚ)),
    decisionStages sampleHashes sampleSettings sampleStore sampleRun zeroRegressor = some a ∧
      allocationCandidateRows ⟨.empty, [], [], 0⟩ .fresh 1
        (candidates sampleHashes sampleSettings sampleStore sampleRun) a = some rows ∧
      (selectedCost rows = a.allocation.spentIdr ↔
        NoSharedCost sampleHashes sampleSettings sampleStore sampleRun zeroRegressor) := by
  obtain ⟨a, hrun, -⟩ := exists_sampleAllocated
  have hids := collisionFree_sampleRun.unambiguous.candidateIds
  obtain ⟨rows, hrows, -, hiff⟩ := allocationTable_iff ⟨.empty, [], [], 0⟩ .fresh 1 hids hrun
  exact ⟨a, rows, hrun, hrows, hiff (by decide)⟩

/-- **The table does not add up**: the sample run spends 25000 of its 40000,
on `user1` alone and on the three members of the circle together, and the
selected rows cost 55000. -/
theorem not_allocationTable :
    ∃ a ∈ decisionStages sampleHashes sampleSettings sampleStore sampleRun zeroRegressor,
      ∃ rows ∈ allocationCandidateRows ⟨.empty, [], [], 0⟩ .fresh 1
        (candidates sampleHashes sampleSettings sampleStore sampleRun) a,
        a.allocation.spentIdr = 25000 ∧ selectedCost rows = 55000 := by
  decide +kernel

end Pipeline

end RetentionEngine
