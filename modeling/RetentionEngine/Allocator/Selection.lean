import RetentionEngine.Allocator.Greedy
import RetentionEngine.Allocator.Knapsack
import Mathlib.Algebra.Field.Rat
import Mathlib.Algebra.Order.Ring.Unbundled.Rat

/-!
# Allocation

`allocator.selection.allocate`. Its statement is about the candidates, not
the items: which of them a decision selects, what they cost together, and
that one unit gets one item and a bundle is never split. The bridge is
`selected_iff`: a candidate is selected exactly when its item is.
-/

namespace RetentionEngine

namespace Allocator

variable {K : Type} [Field K] [LinearOrder K]

/-- `AllocatorConfig`. -/
structure AllocatorConfig where
  strategy : String
  costScaleIdr : ℤ
  maxDpCells : ℤ
  deriving DecidableEq, Repr

/-- `STRATEGY_DP`. -/
def strategyDp : String := "EXACT_DP"

/-- `STRATEGY_GREEDY`. -/
def strategyGreedy : String := "GREEDY_DENSITY"

/-- The order of `key=lambda i: (-i.value, i.item_id)`. -/
def valueLe (i j : KnapsackItem K) : Prop :=
  j.value < i.value ∨ i.value = j.value ∧ i.itemId ≤ j.itemId

instance : DecidableRel (valueLe (K := K)) := fun i j => inferInstanceAs
  (Decidable (j.value < i.value ∨ i.value = j.value ∧ i.itemId ≤ j.itemId))

instance : IsTrans (KnapsackItem K) valueLe :=
  inferInstanceAs (IsTrans _
    (LexLe (fun i : KnapsackItem K => OrderDual.toDual i.value) KnapsackItem.itemId))

instance : Std.Total (valueLe (K := K)) :=
  inferInstanceAs (Std.Total
    (LexLe (fun i : KnapsackItem K => OrderDual.toDual i.value) KnapsackItem.itemId))

/-- The choice of the solver: its name and the chosen ids. -/
def choose (items : List (KnapsackItem K)) (budgetIdr : ℤ) (config : AllocatorConfig) :
    Except Error (String × List String) :=
  if lower config.strategy ∈ ["auto", "exact_dp"] then
    match Knapsack.solve items budgetIdr config.costScaleIdr config.maxDpCells with
    | .ok chosen => .ok (strategyDp, chosen)
    | .error (.dpTooLarge _) => .ok (strategyGreedy, Greedy.solve items budgetIdr)
    | .error e => .error e
  else .ok (strategyGreedy, Greedy.solve items budgetIdr)

/-- What the decisions are made from: the chosen items in order of value,
their keys and their ranks, and each picked key's runner-up. -/
structure Outcome (K : Type) where
  chosenItems : List (KnapsackItem K)
  pickedKeys : List String
  rankOf : Dict String ℕ
  runnerUpOf : Dict String String

/-- The locals of `allocate` after the choice. -/
def outcome (items : List (KnapsackItem K)) (chosen : List String) : Outcome K :=
  let byId := Dict.ofList KnapsackItem.itemId id items
  let chosenItems := (chosen.filterMap byId.get?).insertionSort valueLe
  let pickedKeys := chosenItems.map KnapsackItem.choiceKey
  let rankOf := Dict.ofList (fun p : KnapsackItem K × ℕ => p.1.itemId) (fun p => p.2 + 1)
    chosenItems.zipIdx
  { chosenItems
    pickedKeys
    rankOf
    runnerUpOf := (items.insertionSort valueLe).foldl (fun d item =>
      if item.choiceKey ∈ pickedKeys ∧ rankOf.get? item.itemId = none ∧
          d.get? item.choiceKey = none ∧ 0 < item.value then
        d.set item.choiceKey item.itemId
      else d) .empty }

namespace Outcome

variable (o : Outcome K)

/-- `item.item_id in rank_of`. -/
def selects (item : KnapsackItem K) : Bool := (o.rankOf.get? item.itemId).isSome

/-- The exclusion reason of an item. -/
def reason (item : KnapsackItem K) : Option ExclusionReason :=
  if o.selects item then none
  else if item.value ≤ 0 then some .noExpectedGain
  else if item.choiceKey ∈ o.pickedKeys then some .runnerUp
  else some .budgetExhausted

/-- The decision on one candidate of an item. -/
def decision (item : KnapsackItem K) (candidateId : String) : AllocationDecision K where
  candidateId := candidateId
  choiceKey := item.choiceKey
  selected := o.selects item
  priority := item.value
  costIdr := item.costIdr
  rank := o.rankOf.get? item.itemId
  isRunnerUp := o.runnerUpOf.get? item.choiceKey = some item.itemId
  exclusionReason := o.reason item

/-- A reason is given exactly where nothing is selected. -/
theorem reason_eq_none {item : KnapsackItem K} :
    o.reason item = none ↔ o.selects item = true := by
  unfold reason
  by_cases hsel : o.selects item = true
  · rw [if_pos hsel]
    exact iff_of_true rfl hsel
  · rw [if_neg hsel]
    refine iff_of_false ?_ hsel
    split
    · exact nofun
    · split <;> exact nofun

/-- The decisions, items in order of key and id. -/
def decisions (items : List (KnapsackItem K)) : List (AllocationDecision K) :=
  (items.insertionSort keyLe).flatMap fun item => item.candidateIds.map (o.decision item)

end Outcome

/-- `allocate`. -/
def allocate (candidates : List (RankedCandidate K)) (budgetIdr : ℤ) (config : AllocatorConfig) :
    Except Error (AllocationResult K) := do
  let items ← items candidates
  let (strategy, chosen) ← choose items budgetIdr config
  let o := outcome items chosen
  return {
    strategy := strategy
    budgetIdr := budgetIdr
    spentIdr := (o.chosenItems.map KnapsackItem.costIdr).sum
    objectiveValueIdr := (o.chosenItems.map KnapsackItem.value).sum
    decisions := o.decisions items }

/-- A decision of the result selects the candidate. -/
def Selects (res : AllocationResult K) (c : Candidate K) : Prop :=
  ∃ d ∈ res.decisions, d.candidateId = c.candidateId ∧ d.selected = true

instance (res : AllocationResult K) (c : Candidate K) : Decidable (Selects res c) :=
  inferInstanceAs (Decidable (∃ d ∈ res.decisions, _))

/-- The selected candidates of one unit. -/
def selectedOf (candidates : List (RankedCandidate K)) (res : AllocationResult K) (key : String) :
    List (RankedCandidate K) :=
  candidates.filter fun r => Selects res r.candidate ∧ unitOf r.candidate = key

omit [Field K] [LinearOrder K] in
theorem mem_selectedOf {candidates : List (RankedCandidate K)} {res : AllocationResult K}
    {key : String} {r : RankedCandidate K} : r ∈ selectedOf candidates res key ↔
      r ∈ candidates ∧ Selects res r.candidate ∧ unitOf r.candidate = key := by
  simp [selectedOf]

/-! ## The chosen items -/

variable {its sel : List (KnapsackItem K)} {ids : List String} {budget : ℤ}
  {config : AllocatorConfig} {item : KnapsackItem K}

/-- **Either solver chooses one item per key**, within the budget if costs
are not negative. -/
theorem choose_spec {strategy : String} (hok : choose its budget config = .ok (strategy, ids)) :
    ∃ sel, ids.Perm (sel.map KnapsackItem.itemId) ∧ OnePerKey KnapsackItem.choiceKey its sel ∧
      (Knapsack.Priced its budget → (sel.map KnapsackItem.costIdr).sum ≤ budget) := by
  have hgreedy := Greedy.solve_spec its budget
  unfold choose at hok
  split at hok
  · split at hok
    · rename_i hdp
      cases hok
      exact Knapsack.solve_spec hdp
    · cases hok
      obtain ⟨sel, hperm, hkeys, hcost⟩ := hgreedy
      exact ⟨sel, hperm, hkeys, fun h => hcost h.budget⟩
    · cases hok
  · cases hok
    obtain ⟨sel, hperm, hkeys, hcost⟩ := hgreedy
    exact ⟨sel, hperm, hkeys, fun h => hcost h.budget⟩

/-- **A regular input is allocated** under either strategy. -/
theorem choose_ok (h : Knapsack.Regular its budget config.costScaleIdr) :
    ∃ strategy ids, choose its budget config = .ok (strategy, ids) := by
  unfold choose
  split
  · rcases h.solve_ok_or config.maxDpCells with ⟨text, herr⟩ | ⟨ids, hok⟩
    · rw [herr]
      exact ⟨_, _, rfl⟩
    · rw [hok]
      exact ⟨_, _, rfl⟩
  · exact ⟨_, _, rfl⟩

/-- Looking the chosen ids up gives the chosen items back. -/
theorem perm_chosenItems (hids : (its.map KnapsackItem.itemId).Nodup) (hsel : ∀ i ∈ sel, i ∈ its)
    (hperm : ids.Perm (sel.map KnapsackItem.itemId)) :
    (outcome its ids).chosenItems.Perm sel := by
  unfold outcome
  dsimp only
  refine (List.perm_insertionSort _ _).trans ((hperm.filterMap _).trans ?_)
  rw [List.filterMap_map]
  have hcongr : sel.filterMap ((Dict.ofList KnapsackItem.itemId id its).get? ∘
      KnapsackItem.itemId) = sel.filterMap some :=
    List.filterMap_congr fun i hi => Dict.get?_ofList hids (hsel i hi)
  rw [hcongr, List.filterMap_some]

/-- **An item is selected exactly when it was chosen.** -/
theorem selects_iff (hperm : (outcome its ids).chosenItems.Perm sel) :
    (outcome its ids).selects item = true ↔ item.itemId ∈ sel.map KnapsackItem.itemId := by
  have hkeys : item.itemId ∈ (outcome its ids).rankOf.keys ↔
      item.itemId ∈ (outcome its ids).chosenItems.map KnapsackItem.itemId := by
    unfold outcome
    dsimp only
    rw [Dict.mem_keys_ofList]
    generalize List.insertionSort (α := KnapsackItem K) valueLe _ = l
    rw [show (fun p : KnapsackItem K × ℕ => p.1.itemId) = KnapsackItem.itemId ∘ Prod.fst from rfl,
      ← List.map_map, List.zipIdx_map_fst]
  rw [← (hperm.map _).mem_iff, ← hkeys]
  unfold Outcome.selects
  rw [Option.isSome_iff_ne_none, ne_eq, Dict.get?_eq_none, not_not]

/-! ## The result in terms of the candidates -/

/-- **What a result is made of**: the items of the candidates, a choice of
one per key, and decisions that select the chosen. -/
structure IsAllocation (candidates : List (RankedCandidate K)) (its sel : List (KnapsackItem K))
    (o : Outcome K) (res : AllocationResult K) : Prop where
  ids : (its.map KnapsackItem.itemId).Nodup
  represents : ∀ item ∈ its, Represents candidates item
  covers : ∀ r ∈ candidates, ∃ item ∈ its, item.itemId = itemIdOf r.candidate
  onePerKey : OnePerKey KnapsackItem.choiceKey its sel
  selects : ∀ item, o.selects item = true ↔ item.itemId ∈ sel.map KnapsackItem.itemId
  decisions : res.decisions = o.decisions its
  spentIdr : res.spentIdr = (sel.map KnapsackItem.costIdr).sum

variable {candidates : List (RankedCandidate K)} {res : AllocationResult K} {o : Outcome K}
  {r r' : RankedCandidate K}

/-- The result of an allocation that chose `ids`. -/
def resultOf (its : List (KnapsackItem K)) (budget : ℤ) (strategy : String) (ids : List String) :
    AllocationResult K where
  strategy := strategy
  budgetIdr := budget
  spentIdr := ((outcome its ids).chosenItems.map KnapsackItem.costIdr).sum
  objectiveValueIdr := ((outcome its ids).chosenItems.map KnapsackItem.value).sum
  decisions := (outcome its ids).decisions its

/-- **What a call that returns has done.** -/
theorem exists_of_allocate_eq_ok (hok : allocate candidates budget config = .ok res) :
    ∃ its strategy ids, items candidates = .ok its ∧
      choose its budget config = .ok (strategy, ids) ∧ res = resultOf its budget strategy ids := by
  unfold allocate at hok
  obtain ⟨its, hits, hok⟩ := exists_of_bind_eq_ok hok
  obtain ⟨⟨strategy, ids⟩, hchoose, hok⟩ := exists_of_bind_eq_ok hok
  exact ⟨its, strategy, ids, hits, hchoose, (Except.ok.inj hok).symm⟩

/-- A choice is all that can fail. -/
theorem allocate_eq_ok {strategy : String} (hits : items candidates = .ok its)
    (hchoose : choose its budget config = .ok (strategy, ids)) :
    allocate candidates budget config = .ok (resultOf its budget strategy ids) := by
  unfold allocate
  rw [hits]
  simp only [bind, Except.bind, hchoose, pure, Except.pure]
  rfl

/-- **One item of each key makes an allocation.** -/
theorem DistinctIds.isAllocation {strategy : String} (h : DistinctIds candidates)
    (hits : items candidates = .ok its) (hperm : ids.Perm (sel.map KnapsackItem.itemId))
    (hkeys : OnePerKey KnapsackItem.choiceKey its sel) :
    IsAllocation candidates its sel (outcome its ids) (resultOf its budget strategy ids) := by
  obtain ⟨its', hits', hids, hrep, hcovers⟩ := h.items_spec
  obtain rfl : its' = its := Except.ok.inj (hits'.symm.trans hits)
  have hchosen := perm_chosenItems hids hkeys.mem hperm
  exact ⟨hids, hrep, hcovers, hkeys, fun _ => selects_iff hchosen, rfl, (hchosen.map _).sum_eq⟩

/-- **Every result of `allocate` is an allocation**, within the budget if
its items cost nothing negative. -/
theorem allocate_spec (h : DistinctIds candidates)
    (hok : allocate candidates budget config = .ok res) :
    ∃ its sel o, items candidates = .ok its ∧ IsAllocation candidates its sel o res ∧
      (Knapsack.Priced its budget → res.spentIdr ≤ budget) := by
  obtain ⟨its, strategy, ids, hits, hchoose, rfl⟩ := exists_of_allocate_eq_ok hok
  obtain ⟨sel, hperm, hkeys, hcost⟩ := choose_spec hchoose
  have halloc : IsAllocation candidates its sel (outcome its ids)
      (resultOf its budget strategy ids) := h.isAllocation hits hperm hkeys
  exact ⟨its, sel, _, hits, halloc, fun hpriced => halloc.spentIdr ▸ hcost hpriced⟩

omit [LinearOrder K] in
/-- Items of candidates that cost nothing negative cost nothing negative. -/
theorem costIdr_nonneg (hrep : Represents candidates item)
    (hcosts : ∀ r ∈ candidates, 0 ≤ r.candidate.costIdr) : 0 ≤ item.costIdr := by
  rw [hrep.costIdr]
  refine List.sum_nonneg ?_
  intro c hc
  obtain ⟨r, hr, rfl⟩ := List.mem_map.mp hc
  exact hcosts r (mem_mates.mp hr).1

/-- **No result exceeds the budget**, whatever the scale, if no candidate's
cost is negative. -/
theorem spentIdr_le (h : DistinctIds candidates) (hok : allocate candidates budget config = .ok res)
    (hcosts : ∀ r ∈ candidates, 0 ≤ r.candidate.costIdr) (hbudget : 0 ≤ budget) :
    res.spentIdr ≤ budget := by
  obtain ⟨its, sel, o, -, halloc, hspent⟩ := allocate_spec h hok
  exact hspent ⟨halloc.ids, fun i hi => costIdr_nonneg (halloc.represents i hi) hcosts, hbudget⟩

namespace IsAllocation

variable (a : IsAllocation candidates its sel o res)
include a

/-- The decisions are the items' decisions. -/
theorem mem_decisions {d : AllocationDecision K} : d ∈ res.decisions ↔
    ∃ item ∈ its, ∃ cid ∈ item.candidateIds, d = o.decision item cid := by
  rw [a.decisions]
  unfold Outcome.decisions
  simp only [List.mem_flatMap, List.mem_map, (List.perm_insertionSort keyLe its).mem_iff, eq_comm]

/-- **A candidate is selected exactly when its item is chosen.** -/
theorem selects_iff (h : DistinctIds candidates) (hr : r ∈ candidates) :
    Selects res r.candidate ↔ itemIdOf r.candidate ∈ sel.map KnapsackItem.itemId := by
  constructor
  · rintro ⟨d, hd, hid, hsel⟩
    obtain ⟨item, hitem, cid, hcid, rfl⟩ := a.mem_decisions.mp hd
    -- the decision's id is the id of a mate of the item, which is `r` itself
    obtain ⟨r', hr', hid'⟩ :=
      List.mem_map.mp ((a.represents item hitem).candidateIds.mem_iff.mp hcid)
    rw [mem_mates] at hr'
    obtain rfl : r' = r := List.inj_on_of_nodup_map h.ids hr'.1 hr (hid'.trans hid)
    rw [hr'.2]
    exact (a.selects item).mp hsel
  · intro hmem
    obtain ⟨item, hitem, hid⟩ := a.covers r hr
    have hcid : r.candidate.candidateId ∈ item.candidateIds :=
      (a.represents item hitem).candidateIds.mem_iff.mpr
        (List.mem_map.mpr ⟨r, mem_mates.mpr ⟨hr, hid.symm⟩, rfl⟩)
    exact ⟨_, a.mem_decisions.mpr ⟨item, hitem, _, hcid, rfl⟩, rfl,
      (a.selects item).mpr (hid ▸ hmem)⟩

/-- **One item per unit.** -/
theorem itemIdOf_eq_of_unitOf (h : DistinctIds candidates) (hr : r ∈ candidates)
    (hr' : r' ∈ candidates) (hs : Selects res r.candidate) (hs' : Selects res r'.candidate)
    (hunit : unitOf r.candidate = unitOf r'.candidate) :
    itemIdOf r.candidate = itemIdOf r'.candidate := by
  obtain ⟨item, hitem, hid⟩ := List.mem_map.mp ((a.selects_iff h hr).mp hs)
  obtain ⟨item', hitem', hid'⟩ := List.mem_map.mp ((a.selects_iff h hr').mp hs')
  have hkey :=
    (a.represents item (a.onePerKey.mem item hitem)).unit r (mem_mates.mpr ⟨hr, hid.symm⟩)
  have hkey' := (a.represents item' (a.onePerKey.mem item' hitem')).unit r'
    (mem_mates.mpr ⟨hr', hid'.symm⟩)
  have heq : item = item' := a.onePerKey.eq_of_key hitem hitem' (by rw [← hkey, hunit, hkey'])
  rw [← hid, ← hid', heq]

/-- **The candidates of some of the items** are those whose item is among
them: no candidate is behind two items. -/
theorem perm_flatMap_mates (h : DistinctIds candidates) {l : List (KnapsackItem K)}
    (hsub : ∀ i ∈ l, i ∈ its) (hnodup : l.Nodup) :
    (l.flatMap fun i => mates candidates i.itemId).Perm
      (candidates.filter fun r => itemIdOf r.candidate ∈ l.map KnapsackItem.itemId) := by
  have hcandidates : candidates.Nodup := h.ids.of_map
  refine (List.perm_ext_iff_of_nodup ?_ (hcandidates.filter _)).mpr ?_
  · refine List.nodup_flatMap.mpr ⟨fun _ _ => hcandidates.filter _, ?_⟩
    refine hnodup.pairwise_of_forall_ne ?_
    intro i hi j hj hne r hri hrj
    rw [mem_mates] at hri hrj
    have hid : i.itemId = j.itemId := hri.2.symm.trans hrj.2
    exact hne (List.inj_on_of_nodup_map a.ids (hsub i hi) (hsub j hj) hid)
  · intro r
    simp only [List.mem_flatMap, mem_mates, List.mem_filter, decide_eq_true_eq, List.mem_map]
    constructor
    · rintro ⟨i, hi, hr, hid⟩
      exact ⟨hr, i, hi, hid.symm⟩
    · rintro ⟨hr, i, hi, hid⟩
      exact ⟨i, hi, hr, hid.symm⟩

/-- **The spend is what the selected candidates cost.** -/
theorem spentIdr_eq (h : DistinctIds candidates) :
    res.spentIdr =
      ((candidates.filter fun r => Selects res r.candidate).map
        fun r => r.candidate.costIdr).sum := by
  -- the selected candidates are the mates of the chosen items
  have hperm : (sel.flatMap fun i => mates candidates i.itemId).Perm
      (candidates.filter fun r => Selects res r.candidate) := by
    refine (a.perm_flatMap_mates h a.onePerKey.mem a.onePerKey.nodup).trans (.of_eq ?_)
    refine List.filter_congr ?_
    intro r hr
    rw [decide_eq_decide]
    exact (a.selects_iff h hr).symm
  rw [a.spentIdr, ← (hperm.map _).sum_eq, List.map_flatMap, List.flatMap_def, List.sum_flatten,
    List.map_map]
  refine congrArg List.sum (List.map_congr_left ?_)
  intro i hi
  exact (a.represents i (a.onePerKey.mem i hi)).costIdr

/-- **Every candidate is decided on once**, with its item: what is read off
the decisions is read off the candidates. -/
theorem perm_map_decisions {β : Type} (h : DistinctIds candidates) {f : AllocationDecision K → β}
    {g : RankedCandidate K → β} (hfg : ∀ item ∈ its, ∀ r ∈ mates candidates item.itemId,
      f (o.decision item r.candidate.candidateId) = g r) :
    (res.decisions.map f).Perm (candidates.map g) := by
  have hall : candidates.filter (fun r => itemIdOf r.candidate ∈ its.map KnapsackItem.itemId) =
      candidates := by
    rw [List.filter_eq_self]
    intro r hr
    obtain ⟨item, hitem, hid⟩ := a.covers r hr
    exact decide_eq_true (hid ▸ List.mem_map_of_mem hitem)
  have hmates := a.perm_flatMap_mates h (fun _ hi => hi) a.ids.of_map
  rw [hall] at hmates
  have hitems : (its.flatMap fun item => (item.candidateIds.map (o.decision item)).map f).Perm
      (its.flatMap fun item => (mates candidates item.itemId).map g) := by
    refine List.Perm.flatMap_left _ ?_
    intro item hitem
    rw [List.map_map]
    refine ((a.represents item hitem).candidateIds.map _).trans (.of_eq ?_)
    rw [List.map_map]
    exact List.map_congr_left fun r hr => hfg item hitem r hr
  rw [a.decisions]
  unfold Outcome.decisions
  rw [List.map_flatMap]
  refine (List.Perm.flatMap_right _ (List.perm_insertionSort keyLe its)).trans (hitems.trans ?_)
  rw [← List.map_flatMap]
  exact hmates.map g

theorem perm_candidateIds (h : DistinctIds candidates) :
    (res.decisions.map AllocationDecision.candidateId).Perm
      (candidates.map fun r => r.candidate.candidateId) :=
  a.perm_map_decisions h fun _ _ _ _ => rfl

/-- **The selected decisions of one key** are those of one chosen item, in
its order. -/
theorem chosen_of_key {key : String} {d : AllocationDecision K} (hd : d ∈ res.decisions)
    (hkey : d.choiceKey = key) (hsel : d.selected = true) :
    ∃ item ∈ sel, item.choiceKey = key ∧
      res.decisions.filter (fun d => d.choiceKey = key ∧ d.selected = true) =
        item.candidateIds.map (o.decision item) := by
  obtain ⟨item, hitem, cid, -, rfl⟩ := a.mem_decisions.mp hd
  obtain ⟨item', hitem', hid⟩ := List.mem_map.mp ((a.selects item).mp hsel)
  obtain rfl : item' = item :=
    List.inj_on_of_nodup_map a.ids (a.onePerKey.mem item' hitem') hitem hid
  refine ⟨item', hitem', hkey, ?_⟩
  have hsingle : (its.insertionSort keyLe).filter
      (fun i => i.choiceKey = key ∧ o.selects i = true) = [item'] := by
    refine List.perm_singleton.mp ((List.perm_ext_iff_of_nodup ?_ (List.nodup_singleton _)).mpr ?_)
    · exact ((List.perm_insertionSort keyLe its).nodup_iff.mpr a.ids.of_map).filter _
    · intro i
      simp only [List.mem_filter, decide_eq_true_eq, List.mem_singleton,
        (List.perm_insertionSort keyLe its).mem_iff]
      constructor
      · rintro ⟨hi, hikey, hisel⟩
        obtain ⟨j, hj, hjid⟩ := List.mem_map.mp ((a.selects i).mp hisel)
        obtain rfl : j = i := List.inj_on_of_nodup_map a.ids (a.onePerKey.mem j hj) hi hjid
        exact a.onePerKey.eq_of_key hj hitem' (hikey.trans hkey.symm)
      · rintro rfl
        exact ⟨hitem, hkey, hsel⟩
  rw [a.decisions]
  unfold Outcome.decisions
  rw [List.filter_flatMap]
  -- a decision is kept or dropped with its item
  have hkeep : ∀ i : KnapsackItem K, (i.candidateIds.map (o.decision i)).filter
      (fun d => d.choiceKey = key ∧ d.selected = true) =
        if i.choiceKey = key ∧ o.selects i = true then i.candidateIds.map (o.decision i)
       else [] := by
    intro i
    split
    · rename_i hi
      rw [List.filter_eq_self]
      rintro _ hd
      obtain ⟨_, -, rfl⟩ := List.mem_map.mp hd
      exact decide_eq_true hi
    · rename_i hi
      rw [List.filter_eq_nil_iff]
      rintro _ hd
      obtain ⟨_, -, rfl⟩ := List.mem_map.mp hd
      rwa [decide_eq_true_eq]
  simp only [hkeep]
  rw [flatMap_ite, hsingle, List.flatMap_singleton]

/-- The selected candidates of a chosen item's key are those behind the
item. -/
theorem selectedOf_eq_mates (h : DistinctIds candidates) (hitem : item ∈ sel) :
    selectedOf candidates res item.choiceKey = mates candidates item.itemId := by
  refine List.filter_congr ?_
  intro r hr
  rw [decide_eq_decide, a.selects_iff h hr]
  constructor
  · rintro ⟨hmem, hunit⟩
    obtain ⟨item', hitem', hid⟩ := List.mem_map.mp hmem
    have hkey' := (a.represents item' (a.onePerKey.mem item' hitem')).unit r
      (mem_mates.mpr ⟨hr, hid.symm⟩)
    rw [← hid, a.onePerKey.eq_of_key hitem' hitem (by rw [← hkey', hunit])]
  · intro hid
    have hunit := (a.represents item (a.onePerKey.mem item hitem)).unit r
      (mem_mates.mpr ⟨hr, hid⟩)
    exact ⟨hid ▸ List.mem_map_of_mem hitem, hunit⟩

/-- **The selected candidates of a unit** are those its selected decisions
name. -/
theorem perm_selectedOf (h : DistinctIds candidates) (key : String) :
    ((res.decisions.filter fun d => d.choiceKey = key ∧ d.selected = true).map
      AllocationDecision.candidateId).Perm
        ((selectedOf candidates res key).map fun r => r.candidate.candidateId) := by
  by_cases hex : ∃ d ∈ res.decisions, d.choiceKey = key ∧ d.selected = true
  · obtain ⟨d, hd, hkey, hsel⟩ := hex
    obtain ⟨item, hitem, rfl, hchosen⟩ := a.chosen_of_key hd hkey hsel
    rw [hchosen, a.selectedOf_eq_mates h hitem, List.map_map]
    refine (List.Perm.of_eq ?_).trans
      (a.represents item (a.onePerKey.mem item hitem)).candidateIds
    exact List.map_id' _
  · -- nothing is selected under this key on either side
    have hnone : selectedOf candidates res key = [] := by
      refine List.filter_eq_nil_iff.mpr fun r hr hsel => hex ?_
      obtain ⟨hsel, hunit⟩ := of_decide_eq_true hsel
      obtain ⟨item, hitem, hid⟩ := List.mem_map.mp ((a.selects_iff h hr).mp hsel)
      have hits := a.onePerKey.mem item hitem
      have hmate := mem_mates.mpr ⟨hr, hid.symm⟩
      have hrep := a.represents item hits
      have hcand : r.candidate.candidateId ∈ item.candidateIds :=
        hrep.candidateIds.mem_iff.mpr (List.mem_map.mpr ⟨r, hmate, rfl⟩)
      have hdecision := a.mem_decisions.mpr ⟨item, hits, _, hcand, rfl⟩
      have hkey : item.choiceKey = key := (hrep.unit r hmate).symm.trans hunit
      have hchosen := (a.selects item).mpr (List.mem_map_of_mem hitem)
      exact ⟨o.decision item r.candidate.candidateId, hdecision, hkey, hchosen⟩
    rw [hnone, List.filter_eq_nil_iff.mpr fun d hd hsel => hex ⟨d, hd, of_decide_eq_true hsel⟩]
    exact .nil

/-- **What the selected decisions cost**: each the whole of its unit. -/
theorem sum_costIdr_selected (h : DistinctIds candidates) :
    ((res.decisions.filter AllocationDecision.selected).map AllocationDecision.costIdr).sum =
      ((candidates.filter fun r => Selects res r.candidate).map fun r =>
        ((selectedOf candidates res (unitOf r.candidate)).map
          fun m => m.candidate.costIdr).sum).sum := by
  have hperm := a.perm_map_decisions h
    (f := fun d => if d.selected = true then d.costIdr else 0)
    (g := fun r => if Selects res r.candidate then
      ((selectedOf candidates res (unitOf r.candidate)).map fun m => m.candidate.costIdr).sum
        else 0) ?_
  · have hsum := hperm.sum_eq
    rw [List.sum_map_ite, List.sum_map_ite] at hsum
    simpa using hsum
  · intro item hitem r hr
    obtain ⟨hmem, hid⟩ := mem_mates.mp hr
    have hsel : (o.decision item r.candidate.candidateId).selected = true ↔
        Selects res r.candidate := by
      rw [a.selects_iff h hmem, hid]
      exact a.selects item
    by_cases hs : Selects res r.candidate
    · rw [if_pos (hsel.mpr hs), if_pos hs]
      obtain ⟨item', hitem', hid'⟩ := List.mem_map.mp ((a.selects_iff h hmem).mp hs)
      obtain rfl : item' = item := List.inj_on_of_nodup_map a.ids (a.onePerKey.mem item' hitem')
        hitem (hid'.trans hid)
      have hrep := a.represents item' hitem
      rw [hrep.unit r hr, a.selectedOf_eq_mates h hitem', ← hrep.costIdr]
      rfl
    · rw [if_neg (mt hsel.mp hs), if_neg hs]

end IsAllocation

/-- A candidate of 10 rupiah. -/
def sampleOffer (id user code : String) (groupId : Option String) : RankedCandidate ℚ where
  candidate :=
    { candidateId := id, tenantId := "t1", userPseudonym := user, incentiveCode := code
      costIdr := 10, businessValueIdr := 100, encouragesBorrowing := false
      changesCreditTerms := false, groupId := groupId, churnRisk := 1 / 2, impactScore := 1 / 4
      segment := .persuadable, patternType := .stable }
  priority := 25
  rankingStrategy := .fallback

end Allocator

end RetentionEngine
