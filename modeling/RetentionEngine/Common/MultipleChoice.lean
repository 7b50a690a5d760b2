import Mathlib.Algebra.BigOperators.Ring.List
import Mathlib.Algebra.Order.BigOperators.Group.List
import Mathlib.Algebra.Order.Group.Int
import Mathlib.Algebra.Order.Ring.Int
import Mathlib.Data.List.Nodup

/-!
# Multiple-choice knapsack

What a solution of a multiple-choice knapsack is, over items, keys and
costs of any kind: a choice of the items with no key twice and the sum of
the costs within the budget. The rules are the ones solvers are proved
with: a choice grows by an item of a new key, and what is feasible in
scaled costs is feasible in the real ones.
-/

namespace RetentionEngine

variable {ι κ : Type*}

/-- **A choice**: items on offer, at most one to a key. -/
structure OnePerKey (key : ι → κ) (items sel : List ι) : Prop where
  mem : ∀ i ∈ sel, i ∈ items
  keys : (sel.map key).Nodup

/-- **A feasible choice**: within the budget as well. -/
structure Feasible (key : ι → κ) (cost : ι → ℤ) (items : List ι) (budget : ℤ) (sel : List ι) :
    Prop extends OnePerKey key items sel where
  cost_le : (sel.map cost).sum ≤ budget

variable {key : ι → κ} {cost weight : ι → ℤ} {items items' sel sel' : List ι} {budget capacity : ℤ}
  {i j : ι}

namespace OnePerKey

theorem nil : OnePerKey key items [] := ⟨by simp, by simp⟩

/-- One more item, of a key not taken. -/
theorem concat (h : OnePerKey key items sel) (hi : i ∈ items) (hkey : key i ∉ sel.map key) :
    OnePerKey key items (sel ++ [i]) := by
  constructor
  · intro j hj
    rcases List.mem_append.mp hj with hj | hj
    · exact h.mem j hj
    · exact List.mem_singleton.mp hj ▸ hi
  · rw [List.map_append, List.nodup_append]
    refine ⟨h.keys, List.nodup_singleton _, ?_⟩
    rintro k₁ h₁ k₂ h₂ rfl
    exact hkey (List.mem_singleton.mp h₂ ▸ h₁)

theorem mono (h : OnePerKey key items sel) (hsub : ∀ i ∈ items, i ∈ items') :
    OnePerKey key items' sel := ⟨fun i hi => hsub i (h.mem i hi), h.keys⟩

theorem perm (h : OnePerKey key items sel) (hperm : sel'.Perm sel) : OnePerKey key items sel' :=
  ⟨fun i hi => h.mem i (hperm.mem_iff.mp hi), ((hperm.map key).nodup_iff).mpr h.keys⟩

theorem nodup (h : OnePerKey key items sel) : sel.Nodup := h.keys.of_map

/-- **At most one item of a key.** -/
theorem eq_of_key (h : OnePerKey key items sel) (hi : i ∈ sel) (hj : j ∈ sel)
    (heq : key i = key j) : i = j := List.inj_on_of_nodup_map h.keys hi hj heq

end OnePerKey

/-- **Costs that are multiples of `scale`** are worth their units. -/
theorem sum_eq_mul_sum_neg_fdiv_neg {scale : ℤ} (hscale : 0 < scale)
    (hmul : ∀ i ∈ sel, scale ∣ cost i) :
    (sel.map cost).sum = scale * (sel.map fun i => -((-cost i).fdiv scale)).sum := by
  rw [← List.sum_map_mul_left]
  refine congrArg List.sum (List.map_congr_left ?_)
  intro i hi
  obtain ⟨n, hn⟩ := hmul i hi
  rw [hn, ← mul_neg, Int.mul_fdiv_cancel_left _ hscale.ne', neg_neg]

namespace Feasible

theorem mono (h : Feasible key cost items budget sel) (hsub : ∀ i ∈ items, i ∈ items') :
    Feasible key cost items' budget sel := ⟨h.toOnePerKey.mono hsub, h.cost_le⟩

/-- **Scaling**: if every cost is at most `scale` times its weight, and the
budget at least `scale` times the capacity, then what fits by weight fits
by cost. -/
theorem of_scaled {scale : ℤ} (h : Feasible key weight items capacity sel) (hscale : 0 ≤ scale)
    (hcost : ∀ i ∈ items, cost i ≤ scale * weight i) (hbudget : scale * capacity ≤ budget) :
    Feasible key cost items budget sel := by
  refine ⟨h.toOnePerKey, ?_⟩
  calc (sel.map cost).sum ≤ (sel.map fun i => scale * weight i).sum :=
        List.sum_le_sum fun i hi => hcost i (h.mem i hi)
    _ = scale * (sel.map weight).sum := List.sum_map_mul_left ..
    _ ≤ scale * capacity := Int.mul_le_mul_of_nonneg_left h.cost_le hscale
    _ ≤ budget := hbudget

/-- **Scaling back**: where every cost is a multiple of `scale`, what fits by
cost fits by weight. -/
theorem scaled {scale : ℤ} (h : Feasible key cost items budget sel) (hscale : 0 < scale)
    (hmul : ∀ i ∈ items, scale ∣ cost i) :
    Feasible key (fun i => -((-cost i).fdiv scale)) items (budget.fdiv scale) sel := by
  refine ⟨h.toOnePerKey, ?_⟩
  have hsum := sum_eq_mul_sum_neg_fdiv_neg hscale fun i hi => hmul i (h.mem i hi)
  have hle := h.cost_le
  rw [hsum] at hle
  rw [Int.fdiv_eq_ediv_of_nonneg _ hscale.le, Int.le_ediv_iff_mul_le hscale, mul_comm]
  exact hle

end Feasible

/-- Rounding a cost up to whole units never understates it. -/
theorem le_mul_neg_fdiv_neg (cost : ℤ) {scale : ℤ} (h : 0 < scale) :
    cost ≤ scale * -((-cost).fdiv scale) := by
  rw [Int.fdiv_eq_ediv_of_nonneg _ h.le, mul_neg]
  have := Int.mul_ediv_self_le (x := -cost) h.ne'
  omega

/-- It overstates it by less than one unit. -/
theorem mul_neg_fdiv_neg_le (cost : ℤ) {scale : ℤ} (h : 0 < scale) :
    scale * -((-cost).fdiv scale) ≤ cost + (scale - 1) := by
  rw [Int.fdiv_eq_ediv_of_nonneg _ h.le, mul_neg]
  have := Int.lt_mul_ediv_self_add (x := -cost) h
  omega

/-- And the costs of a list by less than one unit each. -/
theorem mul_sum_neg_fdiv_neg_le {scale : ℤ} (h : 0 < scale) :
    scale * (sel.map fun i => -((-cost i).fdiv scale)).sum ≤
      (sel.map cost).sum + sel.length * (scale - 1) := by
  induction sel with
  | nil => simp
  | cons i sel ih =>
      have hi := mul_neg_fdiv_neg_le (cost i) h
      simp only [List.map_cons, List.sum_cons, List.length_cons]
      push_cast
      rw [mul_add, add_mul, one_mul]
      omega

/-- One more unit of a budget is more than the budget. -/
theorem lt_mul_fdiv_add_one (budget : ℤ) {scale : ℤ} (h : 0 < scale) :
    budget < scale * (budget.fdiv scale + 1) := by
  rw [Int.fdiv_eq_ediv_of_nonneg _ h.le, mul_add, mul_one]
  exact Int.lt_mul_ediv_self_add h

/-- Rounding a budget down to whole units never overstates it. -/
theorem mul_fdiv_le (budget : ℤ) {scale : ℤ} (h : 0 < scale) :
    scale * budget.fdiv scale ≤ budget := by
  rw [Int.fdiv_eq_ediv_of_nonneg _ h.le]
  exact Int.mul_ediv_self_le h.ne'

end RetentionEngine
