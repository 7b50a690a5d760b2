import RetentionEngine.Allocator.Decisions
import RetentionEngine.Allocator.Optimal

/-!
# Budget exhausted

What it takes for a decision to say `BUDGET_EXHAUSTED`. The reason is what
is left when no other applies, so its meaning is that of the solver. The
greedy loop leaves an item out for its cost; the table leaves it out for its
cost in whole units, against a budget in whole units, and an item too small
for its threshold as well.
-/

namespace RetentionEngine

namespace Allocator

open Knapsack (scaledCost groups usable epsilon)

variable {K : Type} [Field K] [LinearOrder K]

variable {its chosen : List (KnapsackItem K)} {ids : List String} {budget scale : ℤ}
  {config : AllocatorConfig} {item : KnapsackItem K}

/-- **No room in whole units** for one more item. -/
def NoRoom (budget scale : ℤ) (chosen : List (KnapsackItem K)) (costIdr : ℤ) : Prop :=
  budget.fdiv scale <
    (chosen.map fun i => scaledCost scale i.costIdr).sum + scaledCost scale costIdr

/-- **Too small for the table**, which may lose a threshold for each key. -/
def Negligible (its : List (KnapsackItem K)) (budget : ℤ) (value : K) : Prop :=
  value ≤ (groups (usable its budget)).length * epsilon

omit [LinearOrder K] [Field K] in
/-- **What no room in whole units means in money**: less is left than the
item costs, or than that and a unit's rounding for it and for each item
chosen. -/
theorem NoRoom.lt (h : NoRoom budget scale chosen item.costIdr) (hscale : 0 < scale) :
    budget - (chosen.map KnapsackItem.costIdr).sum <
      item.costIdr + (chosen.length + 1) * (scale - 1) := by
  have hchosen : scale * (chosen.map fun i => scaledCost scale i.costIdr).sum ≤
      (chosen.map KnapsackItem.costIdr).sum + chosen.length * (scale - 1) :=
    mul_sum_neg_fdiv_neg_le hscale
  have hitem : scale * scaledCost scale item.costIdr ≤ item.costIdr + (scale - 1) :=
    mul_neg_fdiv_neg_le item.costIdr hscale
  have hunits : scale * (budget.fdiv scale + 1) ≤
      scale * ((chosen.map fun i => scaledCost scale i.costIdr).sum +
        scaledCost scale item.costIdr) :=
    Int.mul_le_mul_of_nonneg_left h hscale.le
  have hbudget := lt_mul_fdiv_add_one budget hscale
  rw [mul_add scale (List.sum _)] at hunits
  rw [add_mul, one_mul]
  omega

omit [LinearOrder K] [Field K] in
/-- Where costs are whole units, less is left than the item costs. -/
theorem NoRoom.lt_of_dvd (h : NoRoom budget scale chosen item.costIdr) (hscale : 0 < scale)
    (hmul : ∀ i ∈ item :: chosen, scale ∣ i.costIdr) :
    budget - (chosen.map KnapsackItem.costIdr).sum < item.costIdr := by
  have hsum : ((item :: chosen).map KnapsackItem.costIdr).sum =
      scale * ((item :: chosen).map fun i => scaledCost scale i.costIdr).sum :=
    sum_eq_mul_sum_neg_fdiv_neg hscale hmul
  have hunits : budget.fdiv scale + 1 ≤
      ((item :: chosen).map fun i => scaledCost scale i.costIdr).sum := by
    unfold NoRoom at h
    rw [List.map_cons, List.sum_cons]
    omega
  have hbudget : budget < ((item :: chosen).map KnapsackItem.costIdr).sum :=
    calc budget < scale * (budget.fdiv scale + 1) := lt_mul_fdiv_add_one budget hscale
      _ ≤ scale * ((item :: chosen).map fun i => scaledCost scale i.costIdr).sum :=
          Int.mul_le_mul_of_nonneg_left hunits hscale.le
      _ = ((item :: chosen).map KnapsackItem.costIdr).sum := hsum.symm
  rw [List.map_cons, List.sum_cons] at hbudget
  omega

/-! ## What either solver leaves out -/

/-- **What it means that an item of a key without a choice is left out**,
by strategy. -/
def LeftOut (its : List (KnapsackItem K)) (budget scale : ℤ) (strategy : String)
    (chosen : List (KnapsackItem K)) (costIdr : ℤ) (value : K) : Prop :=
  strategy = strategyGreedy ∧ budget - (chosen.map KnapsackItem.costIdr).sum < costIdr ∨
    strategy = strategyDp ∧ (Negligible its budget value ∨ NoRoom budget scale chosen costIdr)

/-- The greedy loop leaves out what costs more than it leaves. -/
theorem exists_greedy_leftOut (h : Knapsack.Regular its budget scale) :
    ∃ sel, (Greedy.solve its budget).Perm (sel.map KnapsackItem.itemId) ∧
      OnePerKey KnapsackItem.choiceKey its sel ∧
      ∀ i ∈ its, 0 < i.value → i.choiceKey ∉ sel.map KnapsackItem.choiceKey →
        LeftOut its budget scale strategyGreedy sel i.costIdr i.value :=
  ⟨_, List.perm_insertionSort _ _, (Greedy.inv_run its budget).onePerKey,
    fun _ hi hpos hkey => Or.inl ⟨rfl, Greedy.left_out_run h.costs hi hpos hkey⟩⟩

/-- **What either solver leaves out.** -/
theorem exists_leftOut [IsStrictOrderedRing K] {strategy : String}
    (h : Knapsack.Regular its budget config.costScaleIdr)
    (hok : choose its budget config = .ok (strategy, ids)) :
    ∃ sel, ids.Perm (sel.map KnapsackItem.itemId) ∧ OnePerKey KnapsackItem.choiceKey its sel ∧
      ∀ i ∈ its, 0 < i.value → i.choiceKey ∉ sel.map KnapsackItem.choiceKey →
        LeftOut its budget config.costScaleIdr strategy sel i.costIdr i.value := by
  unfold choose at hok
  split at hok
  · split at hok
    · rename_i hdp
      cases hok
      obtain ⟨sel, hperm, hfeas, hopt⟩ := h.optimal_of_solve hdp
      refine ⟨sel, hperm, hfeas.toOnePerKey, ?_⟩
      intro i hi hpos hkey
      refine Or.inr ⟨rfl, ?_⟩
      by_contra hnot
      rw [not_or] at hnot
      obtain ⟨hvalue, hroom⟩ := hnot
      -- with room for the item, the choice and the item together are no better than the choice
      have hmore := hfeas.toOnePerKey.concat hi hkey
      have hcost : ((sel ++ [i]).map fun i => scaledCost config.costScaleIdr i.costIdr).sum ≤
          budget.fdiv config.costScaleIdr := by
        rw [List.map_append, List.sum_append, List.map_cons, List.map_nil, List.sum_singleton]
        exact not_lt.mp hroom
      have hbest := hopt (sel ++ [i]) ⟨hmore, hcost⟩
      rw [List.map_append, List.sum_append, List.map_cons, List.map_nil,
        List.sum_singleton] at hbest
      exact hvalue (le_of_add_le_add_left hbest)
    · cases hok
      exact exists_greedy_leftOut h
    · cases hok
  · cases hok
    exact exists_greedy_leftOut h

/-! ## The reason -/

variable {candidates : List (RankedCandidate K)}

/-- A decision says the budget is exhausted while the item could be paid. -/
def SaysExhausted (candidates : List (RankedCandidate ℚ)) (budget : ℤ) (config : AllocatorConfig) :
    Prop :=
  ∃ res, allocate candidates budget config = .ok res ∧ ∃ d ∈ res.decisions,
    d.exclusionReason = some .budgetExhausted ∧ d.costIdr ≤ budget - res.spentIdr

theorem saysExhausted_of_any {candidates : List (RankedCandidate ℚ)}
    (h : (allocate candidates budget config).toOption.any (fun res => ∃ d ∈ res.decisions,
      d.exclusionReason = some .budgetExhausted ∧ d.costIdr ≤ budget - res.spentIdr) = true) :
    SaysExhausted candidates budget config := by
  cases hok : allocate candidates budget config with
  | error e =>
      rw [hok] at h
      cases h
  | ok res =>
      rw [hok] at h
      exact ⟨res, hok, of_decide_eq_true h⟩

/-- An offer worth less than the threshold of the table. -/
def sampleMite : RankedCandidate ℚ :=
  { sampleOffer "c1" "a" "X" none with priority := 1 / 10000000000 }

end Allocator

end RetentionEngine
