import RetentionEngine.Allocator.Items
import RetentionEngine.Common.MultipleChoice
import Mathlib.Algebra.Order.Field.Basic

/-!
# The exact knapsack

`allocator.knapsack.solve`. The table has one row `best` over the scaled
budgets, replaced for each choice key by the row that may also take one of
the key's items; `choices` remembers which item each cell took, and the
traceback walks the rows back from the best cell. That the selection fits
needs only what a choice says of itself: a cell that took an item had room
for its weight.
-/

namespace RetentionEngine

namespace Allocator

variable {K : Type*}

namespace Knapsack

/-! ## Keys and the traceback -/

/-- The usable items of each choice key, keys in order. -/
def groups (usable : List (KnapsackItem K)) : List (String × List (KnapsackItem K)) :=
  (Dict.groupBy KnapsackItem.choiceKey (usable.insertionSort keyLe)).entries.insertionSort
    fun p q => p.1 ≤ q.1

/-- The traceback, from the last key to the first. -/
def traceback (weight : KnapsackItem K → ℕ) :
    List (List (KnapsackItem K) × List (Option ℕ)) → ℕ → List (KnapsackItem K)
  | [], _ => []
  | (group, choice) :: rest, c =>
      match (choice.getD c none).bind fun idx => group[idx]? with
      | some item => item :: traceback weight rest (c - weight item)
      | none => traceback weight rest c

/-- **Each choice fits**: the cell `c` that took item `idx` has room for its
weight. -/
def Fits (weight : KnapsackItem K → ℕ) (group : List (KnapsackItem K)) (choice : List (Option ℕ)) :
    Prop :=
  ∀ c idx, choice.getD c none = some idx → ∃ item, group[idx]? = some item ∧ weight item ≤ c

/-- The items a traceback may choose from, by key. -/
def Keyed (entries : List (String × List (KnapsackItem K))) : Prop :=
  ∀ p ∈ entries, ∀ i ∈ p.2, i.choiceKey = p.1

variable {weight : KnapsackItem K → ℕ}

/-- **The traceback takes what fits**: at most one item of each key's, and
no more weight than the cell it starts from. -/
theorem feasible_traceback (weight : KnapsackItem K → ℕ)
    {entries : List (String × List (KnapsackItem K))}
    {choices : List (List (Option ℕ))} (hnodup : (entries.map Prod.fst).Nodup)
    (hkeyed : Keyed entries)
    (hfits : List.Forall₂ (fun p choice => Fits weight p.2 choice) entries choices) (c : ℕ) :
    Feasible KnapsackItem.choiceKey (fun i => (weight i : ℤ)) (entries.flatMap Prod.snd) c
      (traceback weight ((entries.map Prod.snd).zip choices) c) := by
  induction hfits generalizing c with
  | nil => exact ⟨.nil, by simp [traceback]⟩
  | @cons p choice entries choices hfit hrest ih =>
      obtain ⟨key, group⟩ := p
      rw [List.map_cons, List.nodup_cons] at hnodup
      have hrec := fun c => (ih hnodup.2 (fun q hq => hkeyed q (List.mem_cons_of_mem _ hq)) c)
      rw [List.map_cons, List.zip_cons_cons]
      unfold traceback
      split
      · -- an item of this key, and a traceback from the cell without its weight
        rename_i item htaken
        obtain ⟨idx, hidx, hitem⟩ := Option.bind_eq_some_iff.mp htaken
        obtain ⟨item', hitem', hroom⟩ := hfit c idx hidx
        obtain rfl : item' = item := Option.some.inj (hitem'.symm.trans hitem)
        have hmem : item' ∈ group := List.mem_of_getElem? hitem
        have hkey : item'.choiceKey = key := hkeyed _ List.mem_cons_self _ hmem
        obtain ⟨⟨hsub, hkeys⟩, hcost⟩ := hrec (c - weight item')
        refine ⟨⟨?_, ?_⟩, ?_⟩
        · intro i hi
          rcases List.mem_cons.mp hi with rfl | hi
          · exact List.mem_append_left _ hmem
          · exact List.mem_append_right _ (hsub i hi)
        · rw [List.map_cons, List.nodup_cons]
          refine ⟨?_, hkeys⟩
          intro hin
          obtain ⟨i, hi, heq⟩ := List.mem_map.mp hin
          obtain ⟨q, hq, hiq⟩ := List.mem_flatMap.mp (hsub i hi)
          have hq₁ : q.1 = key := by
            rw [← hkeyed q (List.mem_cons_of_mem _ hq) i hiq, heq, hkey]
          exact hnodup.1 (List.mem_map.mpr ⟨q, hq, hq₁⟩)
        · rw [List.map_cons, List.sum_cons]
          omega
      · exact (hrec c).mono fun i hi => List.mem_append_right _ hi

theorem perm_insertionSort_keyLe (l : List (KnapsackItem K)) : (l.insertionSort keyLe).Perm l :=
  List.perm_insertionSort _ _

/-- The groups are the usable items, sorted by key. -/
theorem mem_groups {usable : List (KnapsackItem K)} {p : String × List (KnapsackItem K)}
    (hp : p ∈ groups usable) :
    p ∈ (Dict.groupBy KnapsackItem.choiceKey (usable.insertionSort keyLe)).entries :=
  (List.perm_insertionSort _ _).mem_iff.mp hp

theorem nodup_groups (usable : List (KnapsackItem K)) : ((groups usable).map Prod.fst).Nodup :=
  (((List.perm_insertionSort _ _).map _).nodup_iff).mpr (Dict.nodup _)

theorem keyed_groups (usable : List (KnapsackItem K)) : Keyed (groups usable) := by
  intro p hp i hi
  obtain ⟨-, hgroup⟩ := Dict.mem_entries_groupBy.mp (mem_groups hp)
  rw [hgroup] at hi
  simpa using (List.mem_filter.mp hi).2

theorem mem_of_mem_groups {usable : List (KnapsackItem K)} {p : String × List (KnapsackItem K)}
    (hp : p ∈ groups usable) {i : KnapsackItem K} (hi : i ∈ p.2) : i ∈ usable := by
  obtain ⟨-, hgroup⟩ := Dict.mem_entries_groupBy.mp (mem_groups hp)
  rw [hgroup] at hi
  exact (perm_insertionSort_keyLe usable).mem_iff.mp (List.mem_of_mem_filter hi)

/-! ## The table -/

variable [Field K] [LinearOrder K]

/-- A cell of the row being built: the value, and the index of the item taken. -/
abbrev Cell (K : Type*) := K × Option ℕ

/-- The inner loop over `c` for one item of the key, against the row `best`
of the keys before. -/
def relax (best : List K) (idx w : ℕ) (value : K) (cells : List (Cell K)) : List (Cell K) :=
  cells.mapIdx fun c cell =>
    if w ≤ c ∧ cell.1 + 1 / 1000000000 < best.getD (c - w) 0 + value then
      (best.getD (c - w) 0 + value, some idx)
    else cell

/-- The threshold of an update. -/
def epsilon : K := 1 / 1000000000

/-- The body of the loop over `keys`. -/
def layer (weight : KnapsackItem K → ℕ) (best : List K) (group : List (KnapsackItem K)) :
    List (Cell K) :=
  group.zipIdx.foldl (fun cells p => relax best p.2 (weight p.1) p.1.value cells)
    (best.map fun v => (v, none))

/-- The loop over `keys`: every key's choices, and the last row. -/
def table (weight : KnapsackItem K → ℕ) :
    List K → List (List (KnapsackItem K)) → List (List (Option ℕ)) × List K
  | best, [] => ([], best)
  | best, group :: groups =>
      let cells := layer weight best group
      let rest := table weight (cells.map Prod.fst) groups
      (cells.map Prod.snd :: rest.1, rest.2)

/-- `max(range(capacity + 1), key=lambda k: (best[k], -k))`: the first of
the best cells. -/
def bestCell (best : List K) (capacity : ℕ) : ℕ :=
  (List.range (capacity + 1)).foldl
    (fun m k => if best.getD m 0 < best.getD k 0 then k else m) 0

variable {best : List K} {group : List (KnapsackItem K)} {cells : List (Cell K)}

theorem fits_relax {idx : ℕ} {item : KnapsackItem K} (hitem : group[idx]? = some item)
    (h : Fits weight group (cells.map Prod.snd)) :
    Fits weight group ((relax best idx (weight item) item.value cells).map Prod.snd) := by
  intro c i hc
  simp only [relax, List.getD_eq_getElem?_getD, List.getElem?_map, List.getElem?_mapIdx] at hc
  cases hcell : cells[c]? with
  | none => simp [hcell] at hc
  | some cell =>
      rw [hcell] at hc
      simp only [Option.map_some, Option.getD_some] at hc
      split at hc
      · rename_i hroom
        obtain rfl := Option.some.inj hc
        exact ⟨item, hitem, hroom.1⟩
      · exact h c i (by simp [List.getD_eq_getElem?_getD, hcell, hc])

/-- **Every choice of a layer fits.** -/
theorem fits_layer : Fits weight group ((layer weight best group).map Prod.snd) := by
  unfold layer
  have hall : ∀ p ∈ group.zipIdx, group[p.2]? = some p.1 := fun p hp =>
    List.mem_zipIdx_iff_getElem?.mp hp
  generalize group.zipIdx = l at hall
  have h0 : Fits weight group ((best.map fun v => ((v, none) : Cell K)).map Prod.snd) := by
    intro c i hc
    simp only [List.map_map, List.getD_eq_getElem?_getD, List.getElem?_map] at hc
    cases hb : best[c]? <;> simp [hb] at hc
  generalize (best.map fun v => ((v, none) : Cell K)) = cells at h0
  induction l generalizing cells with
  | nil => exact h0
  | cons p l ih =>
      exact ih (fun q hq => hall q (List.mem_cons_of_mem _ hq)) _
        (fits_relax (hall p List.mem_cons_self) h0)

theorem fits_table (groups : List (List (KnapsackItem K))) (best : List K) :
    List.Forall₂ (Fits weight) groups (table weight best groups).1 := by
  induction groups generalizing best with
  | nil => exact .nil
  | cons group groups ih => exact .cons fits_layer (ih _)

theorem bestCell_le (best : List K) (capacity : ℕ) : bestCell best capacity ≤ capacity := by
  unfold bestCell
  have hall : ∀ k ∈ List.range (capacity + 1), k ≤ capacity := fun k hk => by
    have := List.mem_range.mp hk
    omega
  generalize List.range (capacity + 1) = l at hall
  have h0 : 0 ≤ capacity := Nat.zero_le _
  generalize 0 = m at h0
  induction l generalizing m with
  | nil => exact h0
  | cons k l ih =>
      refine ih (fun j hj => hall j (List.mem_cons_of_mem _ hj)) _ ?_
      dsimp only
      split
      · exact hall k List.mem_cons_self
      · exact h0

/-! ## The selection -/

/-- `math.ceil(cost_idr / cost_scale_idr)`. -/
def scaledCost (costScaleIdr costIdr : ℤ) : ℤ := -((-costIdr).fdiv costScaleIdr)

/-- `weight[i.item_id]`. -/
def weightOf (usable : List (KnapsackItem K)) (costScaleIdr : ℤ) (i : KnapsackItem K) : ℤ :=
  ((Dict.ofList KnapsackItem.itemId (fun i => scaledCost costScaleIdr i.costIdr) usable).get?
    i.itemId).getD 0

/-- `knapsack.solve`. With a negative capacity or weight the loops index
outside the row, which raises. -/
def solve (items : List (KnapsackItem K)) (budgetIdr costScaleIdr maxDpCells : ℤ) :
    Except Error (List String) :=
  let usable := items.filter fun i => 0 < i.value ∧ i.costIdr ≤ budgetIdr
  if usable = [] then .ok []
  else if costScaleIdr = 0 then .error .uncaught
  else
    let capacity := budgetIdr.fdiv costScaleIdr
    let groups := groups usable
    if maxDpCells < groups.length * (capacity + 1) then
      .error (.dpTooLarge (toString groups.length ++ " x " ++ toString (capacity + 1) ++
        " cells exceeds " ++ toString maxDpCells))
    else
      let weight := weightOf usable costScaleIdr
      if capacity < 0 ∨ ∃ i ∈ usable, weight i < 0 then .error .uncaught
      else
        let natWeight := fun i => (weight i).toNat
        let rows := table natWeight (List.replicate (capacity.toNat + 1) 0) (groups.map Prod.snd)
        let c := bestCell rows.2 capacity.toNat
        .ok (((traceback natWeight ((groups.map Prod.snd).zip rows.1).reverse c).map
          KnapsackItem.itemId).insertionSort (· ≤ ·))

variable {its : List (KnapsackItem K)} {ids : List String} {budget scale maxDpCells : ℤ}

theorem scaledCost_nonneg {cost scale : ℤ} (hcost : 0 ≤ cost) (hscale : 0 < scale) :
    0 ≤ scaledCost scale cost := by
  have hle := le_mul_neg_fdiv_neg cost hscale
  unfold scaledCost
  by_contra hneg
  have := Int.mul_neg_of_pos_of_neg hscale (not_le.mp hneg)
  omega

/-- **The table's traceback is feasible in scaled costs.** -/
theorem feasible_table {usable : List (KnapsackItem K)} {weight : KnapsackItem K → ℤ}
    {capacity : ℤ} (hpos : ∀ i ∈ usable, 0 ≤ weight i) (hcap : 0 ≤ capacity) :
    let rows := table (fun i => (weight i).toNat) (List.replicate (capacity.toNat + 1) 0)
      ((groups usable).map Prod.snd)
    Feasible KnapsackItem.choiceKey weight usable capacity
      (traceback (fun i => (weight i).toNat) (((groups usable).map Prod.snd).zip rows.1).reverse
        (bestCell rows.2 capacity.toNat)) := by
  intro rows
  have hfits : List.Forall₂ (fun p choice => Fits (fun i => (weight i).toNat) p.2 choice)
      (groups usable) rows.1 := List.forall₂_map_left_iff.mp (fits_table _ _)
  -- the rows are walked from the last key to the first
  have hzip : (((groups usable).map Prod.snd).zip rows.1).reverse =
      ((groups usable).reverse.map Prod.snd).zip rows.1.reverse := by
    rw [List.map_reverse]
    exact List.reverse_zipWith (by rw [List.length_map]; exact hfits.length_eq)
  have hnodup : ((groups usable).reverse.map Prod.fst).Nodup := by
    rw [List.map_reverse, List.nodup_reverse]
    exact nodup_groups usable
  have hkeyed : Keyed (groups usable).reverse := fun p hp =>
    keyed_groups usable p (List.mem_reverse.mp hp)
  have hfeas := feasible_traceback (fun i => (weight i).toNat) hnodup hkeyed
    (List.forall₂_reverse_iff.mpr hfits) (bestCell rows.2 capacity.toNat)
  rw [hzip]
  have hsub : ∀ i ∈ (groups usable).reverse.flatMap Prod.snd, i ∈ usable := by
    intro i hi
    obtain ⟨p, hp, hip⟩ := List.mem_flatMap.mp hi
    exact mem_of_mem_groups (List.mem_reverse.mp hp) hip
  have hmem := hfeas.mono hsub
  refine ⟨hmem.toOnePerKey, ?_⟩
  calc _ = (List.map (fun i => (((weight i).toNat : ℕ) : ℤ)) _).sum := by
        refine congrArg List.sum (List.map_congr_left ?_)
        intro i hi
        rw [Int.toNat_of_nonneg (hpos i (hmem.mem i hi))]
    _ ≤ ((bestCell rows.2 capacity.toNat : ℕ) : ℤ) := hmem.cost_le
    _ ≤ capacity := by
        have := bestCell_le rows.2 capacity.toNat
        omega

omit [Field K] [LinearOrder K] in
/-- The weight of a usable item is its cost in whole units. -/
theorem weightOf_eq {usable : List (KnapsackItem K)}
    (hids : (usable.map KnapsackItem.itemId).Nodup) {i : KnapsackItem K} (hi : i ∈ usable) :
    weightOf usable scale i = scaledCost scale i.costIdr := by
  unfold weightOf
  rw [Dict.get?_ofList hids hi]
  rfl

/-- **Inputs the table is made for**: distinct ids, costs and a budget that
are not negative, and a scale. -/
structure Regular (its : List (KnapsackItem K)) (budget scale : ℤ) : Prop where
  ids : (its.map KnapsackItem.itemId).Nodup
  costs : ∀ i ∈ its, 0 ≤ i.costIdr
  budget : 0 ≤ budget
  scale : 0 < scale

/-- Inputs with distinct ids, costs and a budget that are not negative,
whatever the scale. -/
structure Priced (its : List (KnapsackItem K)) (budget : ℤ) : Prop where
  ids : (its.map KnapsackItem.itemId).Nodup
  costs : ∀ i ∈ its, 0 ≤ i.costIdr
  budget : 0 ≤ budget

omit [Field K] [LinearOrder K] in
/-- The usable items of a regular input weigh something. -/
theorem Regular.weightOf_usable (h : Regular its budget scale) {p : KnapsackItem K → Bool}
    {i : KnapsackItem K} (hi : i ∈ its.filter p) :
    weightOf (its.filter p) scale i = scaledCost scale i.costIdr ∧
      0 ≤ scaledCost scale i.costIdr :=
  ⟨weightOf_eq ((List.filter_sublist.map _).nodup h.ids) hi,
    scaledCost_nonneg (h.costs i (List.mem_of_mem_filter hi)) h.scale⟩

/-- **A regular input never raises** but to refuse the table as too large. -/
theorem Regular.solve_ok_or (h : Regular its budget scale) (maxDpCells : ℤ) :
    (∃ text, solve its budget scale maxDpCells = .error (.dpTooLarge text)) ∨
      ∃ ids, solve its budget scale maxDpCells = .ok ids := by
  have hscale := h.scale
  have hcap : 0 ≤ budget.fdiv scale := Int.fdiv_nonneg h.budget hscale.le
  unfold solve
  dsimp only
  split
  · exact Or.inr ⟨_, rfl⟩
  rw [if_neg hscale.ne']
  split
  · exact Or.inl ⟨_, rfl⟩
  · rw [if_neg]
    · exact Or.inr ⟨_, rfl⟩
    · rintro (hneg | ⟨i, hi, hneg⟩)
      · omega
      · obtain ⟨heq, hpos⟩ := h.weightOf_usable hi
        omega

/-- A budget in a negative scale has no cells, unless it is nothing. -/
theorem eq_zero_of_fdiv_nonneg (hbudget : 0 ≤ budget) (hscale : scale < 0)
    (hcap : 0 ≤ budget.fdiv scale) : budget = 0 := by
  have hmul : scale * budget.fdiv scale ≤ 0 := mul_nonpos_of_nonpos_of_nonneg hscale.le hcap
  have hmod : 0 ≤ (-budget).fmod (-scale) := Int.fmod_nonneg_of_pos _ (by omega)
  rw [Int.neg_fmod_neg] at hmod
  have hsplit : scale * budget.fdiv scale + budget.fmod scale = budget :=
    Int.mul_fdiv_add_fmod budget scale
  omega

/-- **`knapsack.solve` returns the ids of one item per key**, within the
budget if costs are not negative. -/
theorem solve_spec (hok : solve its budget scale maxDpCells = .ok ids) :
    ∃ sel, ids.Perm (sel.map KnapsackItem.itemId) ∧ OnePerKey KnapsackItem.choiceKey its sel ∧
      (Priced its budget → (sel.map KnapsackItem.costIdr).sum ≤ budget) := by
  unfold solve at hok
  dsimp only at hok
  split at hok
  · rw [← Except.ok.inj hok]
    exact ⟨[], .refl _, .nil, fun h => by simpa using h.budget⟩
  split at hok
  · cases hok
  rename_i hscale
  split at hok
  · cases hok
  split at hok
  · cases hok
  · rename_i hnonneg
    rw [not_or, not_lt] at hnonneg
    rw [← Except.ok.inj hok]
    have hfeas := feasible_table (fun i hi => not_lt.mp fun hneg => hnonneg.2 ⟨i, hi, hneg⟩)
      hnonneg.1
    refine ⟨_, List.perm_insertionSort _ _,
      hfeas.toOnePerKey.mono fun i hi => List.mem_of_mem_filter hi, ?_⟩
    intro h
    rcases lt_or_gt_of_ne hscale with hneg | hpos
    · -- with no budget, only what costs nothing is usable
      have hzero := eq_zero_of_fdiv_nonneg h.budget hneg hnonneg.1
      refine (List.sum_le_card_nsmul _ 0 ?_).trans ?_
      · intro c hc
        obtain ⟨i, hi, rfl⟩ := List.mem_map.mp hc
        have husable := (List.mem_filter.mp (hfeas.mem i hi)).2
        have hcost := (of_decide_eq_true husable).2
        omega
      · rw [nsmul_zero]
        exact h.budget
    · have hreg : Regular its budget scale := ⟨h.ids, h.costs, h.budget, hpos⟩
      refine (hfeas.of_scaled hpos.le ?_ (mul_fdiv_le budget hpos)).cost_le
      intro i hi
      rw [(hreg.weightOf_usable hi).1]
      exact le_mul_neg_fdiv_neg i.costIdr hpos

end Knapsack

end Allocator

end RetentionEngine
