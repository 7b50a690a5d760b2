import RetentionEngine.Allocator.Items
import RetentionEngine.Common.MultipleChoice
import Mathlib.Algebra.Order.Field.Basic

/-!
# The greedy fallback

`allocator.greedy.solve`: one pass over the items by falling value per
rupiah.
-/

namespace RetentionEngine

namespace Allocator

variable {K : Type*}

namespace Greedy

/-- The three locals of the loop. -/
structure Taken (K : Type*) where
  remaining : ℤ
  takenKeys : List String
  selected : List (KnapsackItem K)

/-- The body of the loop. -/
def take (t : Taken K) (item : KnapsackItem K) : Taken K :=
  if item.choiceKey ∈ t.takenKeys ∨ t.remaining < item.costIdr then t
  else ⟨t.remaining - item.costIdr, t.takenKeys ++ [item.choiceKey], t.selected ++ [item]⟩

/-- **What the loop keeps**: one item per key, and the other two locals say
how far it has come. -/
structure Inv (its : List (KnapsackItem K)) (budget : ℤ) (t : Taken K) : Prop where
  onePerKey : OnePerKey KnapsackItem.choiceKey its t.selected
  remaining : t.remaining = budget - (t.selected.map KnapsackItem.costIdr).sum
  takenKeys : t.takenKeys = t.selected.map KnapsackItem.choiceKey
  nonneg : 0 ≤ budget → 0 ≤ t.remaining

variable {its : List (KnapsackItem K)} {budget : ℤ} {t : Taken K} {item : KnapsackItem K}

theorem inv_take (h : Inv its budget t) (hitem : item ∈ its) : Inv its budget (take t item) := by
  unfold take
  split
  · exact h
  · rename_i hfree
    rw [not_or, not_lt, h.takenKeys] at hfree
    obtain ⟨hkey, hcost⟩ := hfree
    have hrem := h.remaining
    refine ⟨h.onePerKey.concat hitem hkey, ?_, by simp [h.takenKeys], ?_⟩
    · simp only [List.map_append, List.map_cons, List.map_nil, List.sum_append, List.sum_singleton]
      omega
    · intro _
      dsimp only
      omega

theorem inv_foldl {l : List (KnapsackItem K)} (h : Inv its budget t) (hl : ∀ i ∈ l, i ∈ its) :
    Inv its budget (l.foldl take t) := by
  induction l generalizing t with
  | nil => exact h
  | cons i l ih =>
      exact ih (inv_take h (hl i List.mem_cons_self)) fun j hj => hl j (List.mem_cons_of_mem _ hj)

/-- The loop only spends. -/
theorem remaining_take_le (hcost : 0 ≤ item.costIdr) : (take t item).remaining ≤ t.remaining := by
  unfold take
  split
  · exact le_rfl
  · dsimp only
    omega

theorem remaining_foldl_le {l : List (KnapsackItem K)} (hcosts : ∀ i ∈ l, 0 ≤ i.costIdr) :
    (l.foldl take t).remaining ≤ t.remaining := by
  induction l generalizing t with
  | nil => exact le_rfl
  | cons i l ih =>
      have hrest := ih (t := take t i) fun j hj => hcosts j (List.mem_cons_of_mem _ hj)
      exact hrest.trans (remaining_take_le (hcosts i List.mem_cons_self))

/-- A key stays taken. -/
theorem mem_takenKeys_foldl {l : List (KnapsackItem K)} {key : String} (h : key ∈ t.takenKeys) :
    key ∈ (l.foldl take t).takenKeys := by
  induction l generalizing t with
  | nil => exact h
  | cons i l ih =>
      refine ih ?_
      unfold take
      split
      · exact h
      · exact List.mem_append_left _ h

/-- **An item of a key that is never taken is too expensive**: it was when
its turn came, and the loop only spends. -/
theorem remaining_lt_of_left_out {l : List (KnapsackItem K)} (hcosts : ∀ i ∈ l, 0 ≤ i.costIdr)
    (hitem : item ∈ l) (hkey : item.choiceKey ∉ (l.foldl take t).takenKeys) :
    (l.foldl take t).remaining < item.costIdr := by
  obtain ⟨before, after, rfl⟩ := List.append_of_mem hitem
  rw [List.foldl_append, List.foldl_cons] at hkey ⊢
  generalize before.foldl take t = t' at hkey ⊢
  have hspends : (after.foldl take (take t' item)).remaining ≤ (take t' item).remaining :=
    remaining_foldl_le fun j hj =>
      hcosts j (List.mem_append_right _ (List.mem_cons_of_mem _ hj))
  have hfree : item.choiceKey ∉ (take t' item).takenKeys := mt mem_takenKeys_foldl hkey
  unfold take at hspends hfree ⊢
  split at hfree
  · rename_i hskip
    rw [if_pos hskip] at hspends ⊢
    rcases hskip with htaken | hdear
    · exact absurd htaken hfree
    · omega
  · exact absurd (List.mem_append_right _ (List.mem_singleton_self _)) hfree

variable [Field K] [LinearOrder K]

/-- `value / max(cost_idr, 1)`. -/
def density (i : KnapsackItem K) : K := i.value / ((max i.costIdr 1 : ℤ) : K)

/-- `key=lambda i: (-(i.value / max(i.cost_idr, 1)), i.item_id)`. -/
def densityLe (i j : KnapsackItem K) : Prop :=
  density j < density i ∨ density i = density j ∧ i.itemId ≤ j.itemId

instance : DecidableRel (densityLe (K := K)) := fun i j => inferInstanceAs
  (Decidable (density j < density i ∨ density i = density j ∧ i.itemId ≤ j.itemId))

instance : IsTrans (KnapsackItem K) densityLe :=
  inferInstanceAs (IsTrans _ (LexLe (fun i => OrderDual.toDual (density i)) KnapsackItem.itemId))

instance : Std.Total (densityLe (K := K)) :=
  inferInstanceAs (Std.Total (LexLe (fun i => OrderDual.toDual (density i)) KnapsackItem.itemId))

/-- The loop over the usable items. -/
def run (items : List (KnapsackItem K)) (budgetIdr : ℤ) : Taken K :=
  ((items.filter fun i => 0 < i.value).insertionSort densityLe).foldl take ⟨budgetIdr, [], []⟩

/-- `greedy.solve`. -/
def solve (items : List (KnapsackItem K)) (budgetIdr : ℤ) : List String :=
  ((run items budgetIdr).selected.map KnapsackItem.itemId).insertionSort (· ≤ ·)

theorem inv_run (its : List (KnapsackItem K)) (budget : ℤ) : Inv its budget (run its budget) := by
  have h0 : Inv its budget ⟨budget, [], []⟩ := ⟨.nil, by simp, rfl, id⟩
  exact inv_foldl h0 fun i hi =>
    List.mem_of_mem_filter ((List.perm_insertionSort _ _).mem_iff.mp hi)

/-- **`greedy.solve` returns the ids of one item per key**, within any
budget that is not a debt. -/
theorem solve_spec (its : List (KnapsackItem K)) (budget : ℤ) :
    ∃ sel, (solve its budget).Perm (sel.map KnapsackItem.itemId) ∧
      OnePerKey KnapsackItem.choiceKey its sel ∧
      (0 ≤ budget → (sel.map KnapsackItem.costIdr).sum ≤ budget) := by
  have hinv := inv_run its budget
  refine ⟨_, List.perm_insertionSort _ _, hinv.onePerKey, ?_⟩
  intro hbudget
  have hrem := hinv.remaining
  have hnonneg := hinv.nonneg hbudget
  omega

/-- **What the loop leaves out costs more than it leaves**, of every key it
never takes. -/
theorem left_out_run (hcosts : ∀ i ∈ its, 0 ≤ i.costIdr) (hitem : item ∈ its)
    (hpos : 0 < item.value)
    (hkey : item.choiceKey ∉ (run its budget).selected.map KnapsackItem.choiceKey) :
    budget - ((run its budget).selected.map KnapsackItem.costIdr).sum < item.costIdr := by
  have hinv := inv_run its budget
  rw [← hinv.remaining]
  rw [← hinv.takenKeys] at hkey
  refine remaining_lt_of_left_out ?_ ?_ hkey
  · intro i hi
    exact hcosts i (List.mem_of_mem_filter ((List.perm_insertionSort _ _).mem_iff.mp hi))
  · rw [(List.perm_insertionSort _ _).mem_iff, List.mem_filter]
    exact ⟨hitem, decide_eq_true hpos⟩

end Greedy

end Allocator

end RetentionEngine
