import RetentionEngine.Allocator.Knapsack
import Mathlib.Algebra.BigOperators.Ring.Finset
import Mathlib.Algebra.Order.BigOperators.Group.List
import Mathlib.Algebra.Order.Field.Rat
import Mathlib.Data.Rat.Floor
import Mathlib.Tactic.Linarith
import Mathlib.Tactic.Ring

/-!
# The exact knapsack is optimal

Up to the threshold of an update: a row may fall short of the best value by
1e-9 for each key it has seen, and the traceback finds exactly the value the
row promises. Arithmetic is exact.
-/

namespace RetentionEngine

namespace Allocator

namespace Knapsack

variable {K : Type*} [Field K] [LinearOrder K] {weight : KnapsackItem K → ℕ}
  {best : List K} {group : List (KnapsackItem K)} {cells : List (Cell K)} {c : ℕ}

/-! ## One layer -/

/-- **What a cell of a layer holds**: the value of the row before, or of one
of the key's items on top of it. -/
def Explained (weight : KnapsackItem K → ℕ) (best : List K) (group : List (KnapsackItem K))
    (c : ℕ) (cell : Cell K) : Prop :=
  cell = (best.getD c 0, none) ∨ ∃ idx item, group[idx]? = some item ∧ weight item ≤ c ∧
    cell = (best.getD (c - weight item) 0 + item.value, some idx)

/-- **What a cell of a layer covers**: the row before, and the items seen,
up to the threshold. -/
structure Covers (weight : KnapsackItem K → ℕ) (best : List K) (seen : List (KnapsackItem K))
    (c : ℕ) (value : K) : Prop where
  row : best.getD c 0 ≤ value
  items : ∀ item ∈ seen, weight item ≤ c →
    best.getD (c - weight item) 0 + item.value ≤ value + epsilon

/-- The layer of the first items of a key. -/
structure Layered (weight : KnapsackItem K → ℕ) (best : List K)
    (group seen : List (KnapsackItem K)) (cells : List (Cell K)) : Prop where
  length : cells.length = best.length
  explained : ∀ c cell, cells[c]? = some cell → Explained weight best group c cell
  covers : ∀ c cell, cells[c]? = some cell → Covers weight best seen c cell.1

variable [IsStrictOrderedRing K]

theorem epsilon_pos : (0 : K) < epsilon := by
  unfold epsilon
  positivity

theorem layered_relax {seen : List (KnapsackItem K)} {idx : ℕ} {item : KnapsackItem K}
    (hitem : group[idx]? = some item) (h : Layered weight best group seen cells) :
    Layered weight best group (seen ++ [item])
      (relax best idx (weight item) item.value cells) := by
  have hpos := epsilon_pos (K := K)
  have hcell : ∀ c cell', (relax best idx (weight item) item.value cells)[c]? = some cell' →
      ∃ cell, cells[c]? = some cell ∧ cell' =
        if weight item ≤ c ∧ cell.1 + epsilon < best.getD (c - weight item) 0 + item.value then
          (best.getD (c - weight item) 0 + item.value, some idx)
        else cell := by
    intro c cell' hcell'
    unfold relax at hcell'
    rw [List.getElem?_mapIdx] at hcell'
    obtain ⟨cell, hcell, rfl⟩ := Option.map_eq_some_iff.mp hcell'
    exact ⟨cell, hcell, rfl⟩
  refine ⟨by unfold relax; rw [List.length_mapIdx, h.length], ?_, ?_⟩
  · intro c cell' hcell'
    obtain ⟨cell, hold, rfl⟩ := hcell c cell' hcell'
    split
    · rename_i htaken
      exact Or.inr ⟨idx, item, hitem, htaken.1, rfl⟩
    · exact h.explained c cell hold
  · intro c cell' hcell'
    obtain ⟨cell, hold, rfl⟩ := hcell c cell' hcell'
    obtain ⟨hrow, hitems⟩ := h.covers c cell hold
    split
    · rename_i htaken
      refine ⟨by dsimp only; linarith [htaken.2], ?_⟩
      intro item' hitem' hroom
      dsimp only
      rcases List.mem_append.mp hitem' with hseen | hnew
      · have hle := hitems item' hseen hroom
        linarith [htaken.2]
      · rw [List.mem_singleton.mp hnew]
        linarith
    · rename_i hkept
      refine ⟨hrow, ?_⟩
      intro item' hitem' hroom
      rcases List.mem_append.mp hitem' with hseen | hnew
      · exact hitems item' hseen hroom
      · rw [List.mem_singleton.mp hnew] at hroom ⊢
        exact not_lt.mp fun hlt => hkept ⟨hroom, hlt⟩

/-- **What a layer is**: every cell explained, every item covered. -/
theorem layered_layer (weight : KnapsackItem K → ℕ) (best : List K)
    (group : List (KnapsackItem K)) :
    Layered weight best group group (layer weight best group) := by
  have h0 : Layered weight best group [] (best.map fun v => ((v, none) : Cell K)) := by
    refine ⟨List.length_map _, ?_, ?_⟩
    · intro c cell hcell
      rw [List.getElem?_map] at hcell
      obtain ⟨v, hv, rfl⟩ := Option.map_eq_some_iff.mp hcell
      left
      rw [List.getD_eq_getElem?_getD, hv]
      rfl
    · intro c cell hcell
      rw [List.getElem?_map] at hcell
      obtain ⟨v, hv, rfl⟩ := Option.map_eq_some_iff.mp hcell
      refine ⟨?_, fun item hitem => absurd hitem List.not_mem_nil⟩
      rw [List.getD_eq_getElem?_getD, hv]
      exact le_rfl
  have hfold : ∀ (l : List (KnapsackItem K × ℕ)) (seen : List (KnapsackItem K)) cells,
      (∀ p ∈ l, group[p.2]? = some p.1) → Layered weight best group seen cells →
        Layered weight best group (seen ++ l.map Prod.fst)
          (l.foldl (fun cells p => relax best p.2 (weight p.1) p.1.value cells) cells) := by
    intro l
    induction l with
    | nil =>
        intro seen cells _ h
        rwa [List.map_nil, List.append_nil]
    | cons p l ih =>
        intro seen cells hall h
        have hnext := ih (seen ++ [p.1]) _ (fun q hq => hall q (List.mem_cons_of_mem _ hq))
          (layered_relax (hall p List.mem_cons_self) h)
        rwa [List.append_assoc] at hnext
  have hlayer := hfold group.zipIdx [] _ (fun p hp => List.mem_zipIdx_iff_getElem?.mp hp) h0
  rwa [List.nil_append, List.zipIdx_map_fst] at hlayer

omit [IsStrictOrderedRing K] in
/-- The cell of a layer at a place of the row. -/
theorem Layered.exists_cell {seen : List (KnapsackItem K)}
    (h : Layered weight best group seen cells) (hc : c < best.length) :
    ∃ cell, cells[c]? = some cell ∧ (cells.map Prod.fst).getD c 0 = cell.1 ∧
      (cells.map Prod.snd).getD c none = cell.2 := by
  rw [← h.length] at hc
  refine ⟨cells[c], List.getElem?_eq_getElem hc, ?_, ?_⟩
  · rw [List.getD_eq_getElem?_getD, List.getElem?_map, List.getElem?_eq_getElem hc]
    rfl
  · rw [List.getD_eq_getElem?_getD, List.getElem?_map, List.getElem?_eq_getElem hc]
    rfl

/-! ## The traceback finds the value of its cell -/

/-- The walk over `rows` finds from each cell what `best` holds there. -/
def Finds (weight : KnapsackItem K → ℕ) (rows : List (List (KnapsackItem K) × List (Option ℕ)))
    (best : List K) : Prop :=
  ∀ c < best.length, ((traceback weight rows c).map KnapsackItem.value).sum = best.getD c 0

omit [IsStrictOrderedRing K] in
theorem finds_layer {rows : List (List (KnapsackItem K) × List (Option ℕ))}
    (h : Finds weight rows best) (hlayer : Layered weight best group group cells) :
    Finds weight ((group, cells.map Prod.snd) :: rows) (cells.map Prod.fst) := by
  intro c hc
  rw [List.length_map, hlayer.length] at hc
  obtain ⟨cell, hcell, hvalue, hchoice⟩ := hlayer.exists_cell hc
  unfold traceback
  rw [hvalue, hchoice]
  rcases hlayer.explained c cell hcell with rfl | ⟨idx, item, hitem, hroom, rfl⟩
  · exact h c hc
  · dsimp only
    rw [Option.bind_some, hitem]
    dsimp only
    rw [List.map_cons, List.sum_cons, h (c - weight item) (by omega), add_comm]

/-- **The traceback finds exactly what the last row promises.** -/
theorem finds_table {rows : List (List (KnapsackItem K) × List (Option ℕ))}
    (groups : List (List (KnapsackItem K))) (h : Finds weight rows best) :
    Finds weight ((groups.zip (table weight best groups).1).reverse ++ rows)
        (table weight best groups).2 ∧
      (table weight best groups).2.length = best.length := by
  induction groups generalizing best rows with
  | nil => exact ⟨h, rfl⟩
  | cons group groups ih =>
      have hlayer := layered_layer weight best group
      obtain ⟨hfinds, hlength⟩ := ih (finds_layer h hlayer)
      unfold table
      dsimp only
      refine ⟨?_, by rw [hlength, List.length_map, hlayer.length]⟩
      rw [List.zip_cons_cons, List.reverse_cons, List.append_assoc]
      exact hfinds

/-! ## A row bounds every choice -/

/-- **A row bounds the choices** among the items of the keys seen, up to
`slack`. -/
def Bounds (weight : KnapsackItem K → ℕ) (entries : List (String × List (KnapsackItem K)))
    (best : List K) (slack : K) : Prop :=
  ∀ c < best.length, ∀ sel, OnePerKey KnapsackItem.choiceKey (entries.flatMap Prod.snd) sel →
    (sel.map weight).sum ≤ c → (sel.map KnapsackItem.value).sum ≤ best.getD c 0 + slack

/-- **One more key costs one more threshold.** -/
theorem bounds_layer {entries : List (String × List (KnapsackItem K))} {key : String} {slack : K}
    (h : Bounds weight entries best slack) (hlayer : Layered weight best group group cells)
    (hkeyed : ∀ i ∈ group, i.choiceKey = key) :
    Bounds weight (entries ++ [(key, group)]) (cells.map Prod.fst) (slack + epsilon) := by
  intro c hc sel hsel hweight
  rw [List.length_map, hlayer.length] at hc
  obtain ⟨cell, hcell, hvalue, -⟩ := hlayer.exists_cell hc
  have hcovers := hlayer.covers c cell hcell
  have hpos := epsilon_pos (K := K)
  have hmem : ∀ i ∈ sel, i ∈ entries.flatMap Prod.snd ∨ i ∈ group := by
    intro i hi
    have hall := hsel.mem i hi
    rw [List.flatMap_append, List.mem_append, List.flatMap_singleton] at hall
    exact hall
  rw [hvalue]
  by_cases hgroup : ∃ i ∈ sel, i ∈ group
  · -- the choice takes an item of this key, and the rest is of the keys before
    obtain ⟨i, hi, higroup⟩ := hgroup
    obtain ⟨before, after, rfl⟩ := List.append_of_mem hi
    have hperm : (before ++ i :: after).Perm (i :: (before ++ after)) := List.perm_middle
    have hkeys := hsel.keys.perm (hperm.map _)
    rw [List.map_cons, List.nodup_cons] at hkeys
    have hrest : OnePerKey KnapsackItem.choiceKey (entries.flatMap Prod.snd) (before ++ after) := by
      refine ⟨?_, hkeys.2⟩
      intro j hj
      have hjsel := hperm.mem_iff.mpr (List.mem_cons_of_mem i hj)
      refine (hmem j hjsel).resolve_right fun hjgroup => ?_
      have hsame : j.choiceKey = i.choiceKey :=
        (hkeyed j hjgroup).trans (hkeyed i higroup).symm
      exact hkeys.1 (hsame ▸ List.mem_map_of_mem hj)
    have hw := (hperm.map weight).sum_eq
    have hv := (hperm.map KnapsackItem.value).sum_eq
    rw [List.map_cons, List.sum_cons] at hw hv
    have hbound := h (c - weight i) (by omega) _ hrest (by omega)
    have hitem := hcovers.items i higroup (by omega)
    rw [hv]
    linarith
  · have hrest : OnePerKey KnapsackItem.choiceKey (entries.flatMap Prod.snd) sel :=
      ⟨fun i hi => (hmem i hi).resolve_right fun hin => hgroup ⟨i, hi, hin⟩, hsel.keys⟩
    have hbound := h c hc sel hrest hweight
    linarith [hcovers.row]

/-- **The last row bounds every choice**, up to a threshold for each key. -/
theorem bounds_table {entries : List (String × List (KnapsackItem K))} {slack : K}
    (rest : List (String × List (KnapsackItem K))) (hkeyed : Keyed rest)
    (h : Bounds weight entries best slack) :
    Bounds weight (entries ++ rest) (table weight best (rest.map Prod.snd)).2
      (slack + rest.length * epsilon) := by
  induction rest generalizing best entries slack with
  | nil => simpa [table] using h
  | cons p rest ih =>
      obtain ⟨key, group⟩ := p
      have hlayer := layered_layer weight best group
      have hfirst := bounds_layer h hlayer (hkeyed _ List.mem_cons_self)
      have hnext := ih (fun q hq => hkeyed q (List.mem_cons_of_mem _ hq)) hfirst
      rw [List.append_assoc] at hnext
      rw [List.length_cons, Nat.cast_add_one, add_mul, one_mul, add_comm (_ * _), ← add_assoc]
      exact hnext

omit [IsStrictOrderedRing K] in
/-- **The best cell is the best.** -/
theorem getD_le_bestCell (best : List K) {capacity : ℕ} (hc : c ≤ capacity) :
    best.getD c 0 ≤ best.getD (bestCell best capacity) 0 := by
  have hfold : ∀ (l : List ℕ) (m : ℕ), best.getD m 0 ≤ best.getD (l.foldl (fun m k =>
      if best.getD m 0 < best.getD k 0 then k else m) m) 0 ∧
        ∀ k ∈ l, best.getD k 0 ≤ best.getD (l.foldl (fun m k =>
          if best.getD m 0 < best.getD k 0 then k else m) m) 0 := by
    intro l
    induction l with
    | nil => exact fun m => ⟨le_rfl, fun k hk => absurd hk List.not_mem_nil⟩
    | cons k l ih =>
        intro m
        rw [List.foldl_cons]
        obtain ⟨hstart, hrest⟩ := ih (if best.getD m 0 < best.getD k 0 then k else m)
        have hm : best.getD m 0 ≤ best.getD (if best.getD m 0 < best.getD k 0 then k else m) 0 := by
          split
          · exact le_of_lt ‹_›
          · exact le_rfl
        have hk : best.getD k 0 ≤ best.getD (if best.getD m 0 < best.getD k 0 then k else m) 0 := by
          split
          · exact le_rfl
          · exact not_lt.mp ‹_›
        refine ⟨hm.trans hstart, ?_⟩
        intro j hj
        rcases List.mem_cons.mp hj with rfl | hj
        · exact hk.trans hstart
        · exact hrest j hj
  exact (hfold (List.range (capacity + 1)) 0).2 c (List.mem_range.mpr (by omega))

/-! ## The selection -/

variable {its other : List (KnapsackItem K)} {ids : List String} {budget scale maxDpCells : ℤ}

/-- The items the table is built of. -/
def usable (items : List (KnapsackItem K)) (budgetIdr : ℤ) : List (KnapsackItem K) :=
  items.filter fun i => 0 < i.value ∧ i.costIdr ≤ budgetIdr

omit [IsStrictOrderedRing K] in
theorem mem_usable {i : KnapsackItem K} :
    i ∈ usable its budget ↔ i ∈ its ∧ 0 < i.value ∧ i.costIdr ≤ budget := by
  unfold usable
  rw [List.mem_filter, decide_eq_true_iff]

/-- **Leaving unusable items out loses nothing**: what fits by weight costs
no more than the budget, item by item. -/
theorem Regular.usable_of_feasible (h : Regular its budget scale)
    (hother : Feasible KnapsackItem.choiceKey (fun i => scaledCost scale i.costIdr) its
      (budget.fdiv scale) other) :
    Feasible KnapsackItem.choiceKey (fun i => scaledCost scale i.costIdr) (usable its budget)
        (budget.fdiv scale) (usable other budget) ∧
      (other.map KnapsackItem.value).sum ≤ ((usable other budget).map KnapsackItem.value).sum := by
  have hnonneg : ∀ i ∈ other, 0 ≤ scaledCost scale i.costIdr := fun i hi =>
    scaledCost_nonneg (h.costs i (hother.mem i hi)) h.scale
  have hcost : ∀ i ∈ other, i.costIdr ≤ budget := by
    intro i hi
    have hsum : scaledCost scale i.costIdr ≤
        (other.map fun i => scaledCost scale i.costIdr).sum := by
      refine List.single_le_sum ?_ _ (List.mem_map_of_mem hi)
      intro w hw
      obtain ⟨j, hj, rfl⟩ := List.mem_map.mp hw
      exact hnonneg j hj
    calc i.costIdr ≤ scale * scaledCost scale i.costIdr := le_mul_neg_fdiv_neg _ h.scale
      _ ≤ scale * budget.fdiv scale :=
          Int.mul_le_mul_of_nonneg_left (hsum.trans hother.cost_le) h.scale.le
      _ ≤ budget := mul_fdiv_le budget h.scale
  have hsub : (usable other budget).Sublist other := List.filter_sublist
  refine ⟨⟨⟨?_, hother.keys.sublist (hsub.map _)⟩, ?_⟩, ?_⟩
  · intro i hi
    obtain ⟨hi, hpos, hle⟩ := mem_usable.mp hi
    exact mem_usable.mpr ⟨hother.mem i hi, hpos, hle⟩
  · refine le_trans ((hsub.map _).sum_le_sum ?_) hother.cost_le
    intro w hw
    obtain ⟨j, hj, rfl⟩ := List.mem_map.mp hw
    exact hnonneg j hj
  · -- an item left out adds nothing
    clear hsub hother hnonneg
    induction other with
    | nil => exact le_rfl
    | cons i other ih =>
        have ih := ih fun j hj => hcost j (List.mem_cons_of_mem _ hj)
        unfold usable at ih ⊢
        rw [List.filter_cons, List.map_cons, List.sum_cons]
        split
        · rw [List.map_cons, List.sum_cons]
          linarith
        · rename_i hunusable
          have hle : i.value ≤ 0 := not_lt.mp fun hpos =>
            hunusable (decide_eq_true ⟨hpos, hcost i List.mem_cons_self⟩)
          linarith

omit [Field K] [LinearOrder K] [IsStrictOrderedRing K] in
/-- Every item is in the group of its key. -/
theorem mem_flatMap_groups {i : KnapsackItem K} (hi : i ∈ its) :
    i ∈ (groups its).flatMap Prod.snd := by
  have hsorted : i ∈ its.insertionSort keyLe := (perm_insertionSort_keyLe its).mem_iff.mpr hi
  have hgrouped := (Dict.perm_flatMap_groupBy KnapsackItem.choiceKey _).mem_iff.mpr hsorted
  exact ((List.perm_insertionSort _ _).flatMap_right Prod.snd).mem_iff.mpr hgrouped

/-- **The table's traceback is optimal** by weight, up to a threshold for
each key. -/
theorem traceback_optimal {usable : List (KnapsackItem K)} {weight : KnapsackItem K → ℕ}
    {capacity : ℕ} (hother : OnePerKey KnapsackItem.choiceKey usable other)
    (hweight : (other.map weight).sum ≤ capacity) :
    let rows := table weight (List.replicate (capacity + 1) 0) ((groups usable).map Prod.snd)
    (other.map KnapsackItem.value).sum ≤
      ((traceback weight (((groups usable).map Prod.snd).zip rows.1).reverse
        (bestCell rows.2 capacity)).map KnapsackItem.value).sum +
          (groups usable).length * epsilon := by
  intro rows
  have hfinds0 : Finds weight [] (List.replicate (capacity + 1) (0 : K)) := by
    intro c hc
    rw [List.length_replicate] at hc
    rw [List.getD_eq_getElem?_getD, List.getElem?_replicate_of_lt hc]
    rfl
  have hbounds0 : Bounds weight [] (List.replicate (capacity + 1) (0 : K)) 0 := by
    intro c hc sel hsel _
    obtain rfl : sel = [] := List.eq_nil_iff_forall_not_mem.mpr fun i hi =>
      absurd (hsel.mem i hi) List.not_mem_nil
    rw [List.length_replicate] at hc
    rw [List.getD_eq_getElem?_getD, List.getElem?_replicate_of_lt hc]
    simp
  obtain ⟨hfinds, hlength⟩ := finds_table ((groups usable).map Prod.snd) hfinds0
  rw [List.append_nil, List.length_replicate] at *
  have hbounds := bounds_table (groups usable) (keyed_groups usable) hbounds0
  rw [List.nil_append, zero_add] at hbounds
  have hbest := bestCell_le rows.2 capacity
  calc (other.map KnapsackItem.value).sum
    _ ≤ rows.2.getD capacity 0 + (groups usable).length * epsilon :=
        hbounds capacity (by omega) other (hother.mono fun i hi => mem_flatMap_groups hi) hweight
    _ ≤ rows.2.getD (bestCell rows.2 capacity) 0 + (groups usable).length * epsilon := by
        have hle := getD_le_bestCell rows.2 (le_refl capacity)
        linarith
    _ = _ := by rw [hfinds _ (by omega)]

/-- **What the table returns is optimal** in whole units, up to a threshold
for each key. -/
theorem Regular.optimal_of_solve (h : Regular its budget scale)
    (hok : solve its budget scale maxDpCells = .ok ids) :
    ∃ sel, ids.Perm (sel.map KnapsackItem.itemId) ∧
      Feasible KnapsackItem.choiceKey (fun i => scaledCost scale i.costIdr) its
        (budget.fdiv scale) sel ∧
      ∀ other, Feasible KnapsackItem.choiceKey (fun i => scaledCost scale i.costIdr) its
        (budget.fdiv scale) other → (other.map KnapsackItem.value).sum ≤
          (sel.map KnapsackItem.value).sum + (groups (usable its budget)).length * epsilon := by
  have hcap : 0 ≤ budget.fdiv scale := Int.fdiv_nonneg h.budget h.scale.le
  -- it is enough to be optimal among the usable items
  suffices hsolve : ∃ sel, ids.Perm (sel.map KnapsackItem.itemId) ∧
      Feasible KnapsackItem.choiceKey (fun i => scaledCost scale i.costIdr) its
        (budget.fdiv scale) sel ∧
      ∀ other, Feasible KnapsackItem.choiceKey (fun i => scaledCost scale i.costIdr)
        (usable its budget) (budget.fdiv scale) other → (other.map KnapsackItem.value).sum ≤
          (sel.map KnapsackItem.value).sum + (groups (usable its budget)).length * epsilon by
    obtain ⟨sel, hperm, hfeas, hopt⟩ := hsolve
    refine ⟨sel, hperm, hfeas, ?_⟩
    intro other hother
    obtain ⟨husable, hle⟩ := h.usable_of_feasible hother
    exact hle.trans (hopt _ husable)
  unfold solve at hok
  dsimp only at hok
  rw [show (its.filter fun i => 0 < i.value ∧ i.costIdr ≤ budget) = usable its budget from rfl]
    at hok
  split at hok
  · rename_i hnone
    refine ⟨[], by rw [← Except.ok.inj hok]; exact .refl _, ⟨.nil, by simpa using hcap⟩, ?_⟩
    intro other hother
    obtain rfl : other = [] := List.eq_nil_iff_forall_not_mem.mpr fun i hi => by
      have hmem := hother.mem i hi
      rw [hnone] at hmem
      exact List.not_mem_nil hmem
    have hpos := epsilon_pos (K := K)
    simp only [List.map_nil, List.sum_nil, zero_add]
    positivity
  rw [if_neg h.scale.ne'] at hok
  split at hok
  · cases hok
  split at hok
  · cases hok
  have hweight : ∀ i ∈ usable its budget,
      weightOf (usable its budget) scale i = scaledCost scale i.costIdr ∧
        0 ≤ scaledCost scale i.costIdr := fun i hi => h.weightOf_usable hi
  have hnonneg : ∀ i ∈ usable its budget, 0 ≤ weightOf (usable its budget) scale i := by
    intro i hi
    rw [(hweight i hi).1]
    exact (hweight i hi).2
  have hfeas := feasible_table hnonneg hcap
  rw [← Except.ok.inj hok]
  refine ⟨_, List.perm_insertionSort _ _, ⟨?_, ?_⟩, ?_⟩
  · exact hfeas.toOnePerKey.mono fun i hi => (mem_usable.mp hi).1
  · rw [List.map_congr_left fun i hi => (hweight i (hfeas.mem i hi)).1.symm]
    exact hfeas.cost_le
  · intro other hother
    refine traceback_optimal hother.toOnePerKey ?_
    have hsum : (((other.map fun i => (weightOf (usable its budget) scale i).toNat).sum : ℕ) : ℤ) =
        (other.map fun i => scaledCost scale i.costIdr).sum := by
      rw [Nat.cast_list_sum, List.map_map]
      refine congrArg List.sum (List.map_congr_left ?_)
      intro i hi
      obtain ⟨heq, hpos⟩ := hweight i (hother.mem i hi)
      rw [Function.comp_apply, heq, Int.toNat_of_nonneg hpos]
    have hle := hother.cost_le
    omega

omit [IsStrictOrderedRing K] in
/-- A table that is not too large is built. -/
theorem Regular.solve_ok (h : Regular its budget scale)
    (hcells : (groups (usable its budget)).length * (budget.fdiv scale + 1) ≤ maxDpCells) :
    ∃ ids, solve its budget scale maxDpCells = .ok ids := by
  rcases h.solve_ok_or maxDpCells with ⟨text, herr⟩ | hok
  · unfold solve at herr
    dsimp only at herr
    rw [show (its.filter fun i => 0 < i.value ∧ i.costIdr ≤ budget) = usable its budget from rfl]
      at herr
    split at herr
    · cases herr
    rw [if_neg h.scale.ne', if_neg (not_lt.mpr hcells)] at herr
    split at herr <;> cases herr
  · exact hok

/-- **`knapsack.solve` is optimal.** On a regular input whose table is not
too large it returns one item of each key at most, within the budget in
whole units; and every other such choice is worth at most a threshold for
each key more. So is every choice within the real budget, where every cost
is a multiple of the scale. -/
theorem solve_optimal (h : Regular its budget scale)
    (hcells : (groups (usable its budget)).length * (budget.fdiv scale + 1) ≤ maxDpCells) :
    ∃ ids sel, solve its budget scale maxDpCells = .ok ids ∧
      ids.Perm (sel.map KnapsackItem.itemId) ∧
      Feasible KnapsackItem.choiceKey (fun i => scaledCost scale i.costIdr) its
        (budget.fdiv scale) sel ∧
      Feasible KnapsackItem.choiceKey KnapsackItem.costIdr its budget sel ∧
      (∀ other, Feasible KnapsackItem.choiceKey (fun i => scaledCost scale i.costIdr) its
        (budget.fdiv scale) other → (other.map KnapsackItem.value).sum ≤
          (sel.map KnapsackItem.value).sum + (groups (usable its budget)).length * epsilon) ∧
      ((∀ i ∈ its, scale ∣ i.costIdr) → ∀ other,
        Feasible KnapsackItem.choiceKey KnapsackItem.costIdr its budget other →
          (other.map KnapsackItem.value).sum ≤
            (sel.map KnapsackItem.value).sum +
              (groups (usable its budget)).length * epsilon) := by
  obtain ⟨ids, hok⟩ := h.solve_ok hcells
  obtain ⟨sel, hperm, hfeas, hopt⟩ := h.optimal_of_solve hok
  refine ⟨ids, sel, hok, hperm, hfeas, ?_, hopt, ?_⟩
  · exact hfeas.of_scaled h.scale.le (fun i _ => le_mul_neg_fdiv_neg i.costIdr h.scale)
      (mul_fdiv_le budget h.scale)
  · intro hmul other hother
    exact hopt other (hother.scaled h.scale hmul)

/-- An item of its own key. -/
def sampleItem (id : String) (costIdr : ℤ) (value : ℚ) : KnapsackItem ℚ :=
  ⟨id, id, costIdr, value, [id]⟩

/-- Four items of value 26. -/
def sampleItems : List (KnapsackItem ℚ) :=
  [sampleItem "i0" 5000 10, sampleItem "i1" 4000 7, sampleItem "i2" 3000 6, sampleItem "i3" 2000 3]

/-- With a budget of 9000, two of them make 17. -/
theorem solve_optimal_four : ∃ ids, ∃ sel : List (KnapsackItem ℚ),
    solve sampleItems 9000 1000 10000 = .ok ids ∧
    ids.Perm (sel.map KnapsackItem.itemId) ∧
    (17 : ℚ) ≤ (sel.map KnapsackItem.value).sum + 4 * epsilon := by
  have hregular : Regular sampleItems 9000 1000 := ⟨by decide, by decide, by decide, by decide⟩
  have hkeys : (groups (usable sampleItems 9000)).length = 4 := by decide +kernel
  have hcells : (groups (usable sampleItems 9000)).length * ((9000 : ℤ).fdiv 1000 + 1) ≤ 10000 := by
    rw [hkeys]
    decide
  obtain ⟨ids, sel, hok, hperm, -, -, hopt, -⟩ := solve_optimal hregular hcells
  refine ⟨ids, sel, hok, hperm, ?_⟩
  have hbest := hopt [sampleItem "i0" 5000 10, sampleItem "i1" 4000 7]
    ⟨⟨by decide +kernel, by decide⟩, by decide⟩
  have hsum : ([sampleItem "i0" 5000 10, sampleItem "i1" 4000 7].map
      KnapsackItem.value).sum = 17 := by decide +kernel
  rwa [hkeys, hsum] at hbest

end Knapsack

end Allocator

end RetentionEngine
