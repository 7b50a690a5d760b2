import RetentionEngine.Common.Dict
import RetentionEngine.Python.Round
import Mathlib.Data.List.Dedup
import Mathlib.Data.List.Perm.Subperm
import Mathlib.Data.List.Sort
import Mathlib.Data.Rat.Floor

/-!
# The context of the churn classifier

`churn_risk.context.select_context`: a sample of the labeled rows, drawn
per label. A label's share of `max_rows` is rounded to the nearest
integer, and a share of one half or less is rounded away.
-/

namespace RetentionEngine

namespace ChurnRisk

open Python (roundHalfEven)

variable {K : Type}

/-- `LabeledExample`, as the classifier's context reads it. -/
structure ContextRow (K : Type) where
  tenantId : String
  sourceOutcomeId : String
  features : Dict String K
  retained : Bool

/-- `FEATURE_COLUMNS`. -/
def featureColumns : List String :=
  ["recency_days", "frequency_30d", "monetary_30d_idr", "tenure_days", "session_gap_days",
    "delta_stability", "circle_size", "pattern_circle_specific", "pattern_market_driven",
    "pattern_stable", "external_signal_value"]

/-- `to_row`: missing columns are zero. -/
def toRow [Zero K] (features : Dict String K) : List K :=
  featureColumns.map fun c => (features.get? c).getD 0

/-- The label of a row: 1 is churned. -/
def label (r : ContextRow K) : ℕ := if r.retained then 0 else 1

/-- What `select_context` raises. -/
inductive ContextError
  | crossTenantContext (text : String)
  | contextTooSmall (text : String)
  deriving DecidableEq, Repr

/-- `rng.sample`: some choice of `k` of the elements, in some order. -/
structure Sampler (α : Type) where
  sample : List α → ℕ → List α
  subperm : ∀ group k, k ≤ group.length → (sample group k).Subperm group
  length_eq : ∀ group k, k ≤ group.length → (sample group k).length = k

/-- `assert_single_tenant`. -/
def assertSingleTenant (rows : List (ContextRow K)) : Except ContextError Unit :=
  let tenants := (rows.map ContextRow.tenantId).dedup
  if 1 < tenants.length then
    .error (.crossTenantContext ("context rows span " ++ toString tenants.length ++ " tenants"))
  else .ok ()

/-- The rows of one label. -/
def byLabel (rows : List (ContextRow K)) (retained : Bool) : List (ContextRow K) :=
  rows.filter fun r => r.retained = retained

/-- `round(max_rows * len(group) / len(rows))`. -/
def take (maxRows size total : ℕ) : ℕ := (roundHalfEven (maxRows * size / total : ℚ)).toNat

/-- The rows by `source_outcome_id`. -/
def ordered (rows : List (ContextRow K)) : List (ContextRow K) :=
  rows.insertionSort fun r r' => r.sourceOutcomeId ≤ r'.sourceOutcomeId

/-- `picked`; `rng b` draws from the group of `b`. -/
def picked (rng : Bool → Sampler (ContextRow K)) (maxRows : ℕ) (rows : List (ContextRow K)) :
    List (ContextRow K) :=
  [true, false].flatMap fun b =>
    (rng b).sample (byLabel rows b)
      (min (take maxRows (byLabel rows b).length rows.length) (byLabel rows b).length)

/-- The rows that are selected. -/
def selectRows (rng : Bool → Sampler (ContextRow K)) (maxRows : ℕ)
    (rows : List (ContextRow K)) : List (ContextRow K) :=
  if maxRows < rows.length then (ordered (picked rng maxRows (ordered rows))).take maxRows
  else ordered rows

/-- `select_context`. -/
def selectContext [Zero K] (rng : Bool → Sampler (ContextRow K)) (labeledRows : List (ContextRow K))
    (maxRows : ℕ) (minRows : ℤ) : Except ContextError (List (List K) × List ℕ) := do
  assertSingleTenant labeledRows
  if labeledRows.length < minRows then
    throw (.contextTooSmall (toString labeledRows.length ++ " context rows, need " ++
      toString minRows))
  let rows := selectRows rng maxRows labeledRows
  return (rows.map fun r => toRow r.features, rows.map label)

/-! ## The rows are sampled -/

variable {rng : Bool → Sampler (ContextRow K)} {rows : List (ContextRow K)} {maxRows : ℕ}

theorem ordered_perm (rows : List (ContextRow K)) : (ordered rows).Perm rows :=
  List.perm_insertionSort _ _

theorem byLabel_perm (rows : List (ContextRow K)) :
    (byLabel rows true ++ byLabel rows false).Perm rows := by
  have hnot : byLabel rows false = rows.filter fun r => !decide (r.retained = true) :=
    List.filter_congr fun r _ => by cases r.retained <;> rfl
  rw [hnot]
  exact List.filter_append_perm _ _

theorem length_byLabel (rows : List (ContextRow K)) :
    (byLabel rows true).length + (byLabel rows false).length = rows.length := by
  rw [← List.length_append]
  exact (byLabel_perm rows).length_eq

theorem length_byLabel_of_perm {rows' : List (ContextRow K)} (h : rows.Perm rows') (b : Bool) :
    (byLabel rows b).length = (byLabel rows' b).length :=
  (h.filter _).length_eq

/-- What is drawn of one label. -/
def drawn (rng : Bool → Sampler (ContextRow K)) (maxRows : ℕ) (rows : List (ContextRow K))
    (b : Bool) : List (ContextRow K) :=
  (rng b).sample (byLabel rows b)
    (min (take maxRows (byLabel rows b).length rows.length) (byLabel rows b).length)

theorem picked_eq : picked rng maxRows rows =
    drawn rng maxRows rows true ++ drawn rng maxRows rows false := by
  simp [picked, drawn]

theorem drawn_subperm (b : Bool) : (drawn rng maxRows rows b).Subperm (byLabel rows b) :=
  (rng b).subperm _ _ (min_le_right _ _)

theorem length_drawn (b : Bool) : (drawn rng maxRows rows b).length =
    min (take maxRows (byLabel rows b).length rows.length) (byLabel rows b).length :=
  (rng b).length_eq _ _ (min_le_right _ _)

theorem retained_of_mem_drawn {b : Bool} {r : ContextRow K} (h : r ∈ drawn rng maxRows rows b) :
    r.retained = b := by
  have hmem := (drawn_subperm b).subset h
  exact of_decide_eq_true (List.mem_filter.mp hmem).2

theorem picked_subperm : (picked rng maxRows rows).Subperm rows := by
  rw [picked_eq]
  exact ((drawn_subperm true).append (drawn_subperm false)).trans (byLabel_perm rows).subperm

theorem selectRows_subperm : (selectRows rng maxRows rows).Subperm rows := by
  unfold selectRows
  split
  · exact (List.take_sublist _ _).subperm.trans ((ordered_perm _).subperm.trans
      (picked_subperm.trans (ordered_perm rows).subperm))
  · exact (ordered_perm rows).subperm

theorem length_selectRows_le : (selectRows rng maxRows rows).length ≤ maxRows := by
  unfold selectRows
  split
  · exact List.length_take_le _ _
  · rw [(ordered_perm rows).length_eq]
    omega

/-! ## The shares -/

variable {size size' total : ℕ}

theorem cast_take : ((take maxRows size total : ℕ) : ℚ) =
    roundHalfEven (maxRows * size / total : ℚ) := by
  have hnonneg : 0 ≤ roundHalfEven (maxRows * size / total : ℚ) :=
    Python.roundHalfEven_nonneg (Int.floor_nonneg.mpr (by positivity))
  unfold take
  exact_mod_cast Int.toNat_of_nonneg hnonneg

/-- **Which labels get a share**: those of more than half a row. -/
theorem take_pos_iff (htotal : 0 < total) :
    0 < take maxRows size total ↔ total < 2 * maxRows * size := by
  have hround : 0 < take maxRows size total ↔ ¬ roundHalfEven (maxRows * size / total : ℚ) ≤ 0 := by
    unfold take
    omega
  rw [hround, Python.roundHalfEven_nonpos_iff, not_le, lt_div_iff₀ (by exact_mod_cast htotal)]
  constructor
  · intro h
    have hcast : (total : ℚ) < (2 * maxRows * size : ℕ) := by
      push_cast
      linarith
    exact_mod_cast hcast
  · intro h
    have hcast : (total : ℚ) < (2 * maxRows * size : ℕ) := by exact_mod_cast h
    push_cast at hcast
    linarith

/-- A share is at most the label. -/
theorem take_le (hmax : maxRows < total) : take maxRows size total ≤ size := by
  have htotal : (0 : ℚ) < total := by exact_mod_cast Nat.zero_lt_of_lt hmax
  have hle := Python.roundHalfEven_le (maxRows * size / total : ℚ)
  have hshare : (maxRows * size / total : ℚ) ≤ size := by
    rw [div_le_iff₀ htotal, mul_comm]
    have hcast : (maxRows : ℚ) ≤ total := by exact_mod_cast hmax.le
    exact mul_le_mul_of_nonneg_left hcast (by positivity)
  rw [← cast_take] at hle
  have hlt : ((take maxRows size total : ℕ) : ℚ) < (size + 1 : ℕ) := by
    push_cast
    linarith
  have hnat : take maxRows size total < size + 1 := by exact_mod_cast hlt
  omega

/-- A share that is rounded up by one half is even, and not zero. -/
theorem two_le_take (h : ((take maxRows size total : ℕ) : ℚ) =
    maxRows * size / total + 1 / 2) : 2 ≤ take maxRows size total := by
  have heven := Python.even_roundHalfEven (cast_take ▸ h)
  have hpos : (0 : ℚ) < (take maxRows size total : ℕ) := by
    rw [h]
    positivity
  have hnat : 0 < take maxRows size total := by exact_mod_cast hpos
  unfold take at hnat ⊢
  obtain ⟨k, hk⟩ := heven
  omega

/-- **The shares make up `max_rows`, or one row more**, and then each is at
least two: both were rounded up by one half. -/
theorem take_add_take (maxRows : ℕ) (htotal : 0 < total) (hsizes : size + size' = total) :
    take maxRows size total + take maxRows size' total ≤ maxRows ∨
      take maxRows size total + take maxRows size' total = maxRows + 1 ∧
        2 ≤ take maxRows size total ∧ 2 ≤ take maxRows size' total := by
  have hle := Python.roundHalfEven_le (maxRows * size / total : ℚ)
  have hle' := Python.roundHalfEven_le (maxRows * size' / total : ℚ)
  have hsum : (maxRows * size / total : ℚ) + maxRows * size' / total = maxRows := by
    rw [← add_div, ← mul_add, div_eq_iff (by exact_mod_cast htotal.ne')]
    have hcast : (size : ℚ) + size' = total := by exact_mod_cast hsizes
    rw [hcast]
  rw [← cast_take] at hle hle'
  have hbound : take maxRows size total + take maxRows size' total ≤ maxRows + 1 := by
    have hcast : ((take maxRows size total + take maxRows size' total : ℕ) : ℚ) ≤
        (maxRows + 1 : ℕ) := by
      push_cast
      linarith
    exact_mod_cast hcast
  rcases Nat.lt_or_eq_of_le hbound with hlt | heq
  · exact Or.inl (Nat.le_of_lt_succ hlt)
  · right
    have hcast : ((take maxRows size total : ℕ) : ℚ) + (take maxRows size' total : ℕ) =
        maxRows + 1 := by exact_mod_cast heq
    exact ⟨heq, two_le_take (by linarith), two_le_take (by linarith)⟩

/-! ## Which labels are selected -/

theorem byLabel_drawn (b b' : Bool) :
    byLabel (drawn rng maxRows rows b) b' = if b = b' then drawn rng maxRows rows b else [] := by
  unfold byLabel
  split
  · rename_i heq
    refine List.filter_eq_self.mpr ?_
    intro r hr
    exact decide_eq_true ((retained_of_mem_drawn hr).trans heq)
  · rename_i hne
    refine List.filter_eq_nil_iff.mpr ?_
    intro r hr
    rw [retained_of_mem_drawn hr, decide_eq_true_eq]
    exact hne

/-- **What is picked of a label** is its share. -/
theorem length_byLabel_picked (hmax : maxRows < rows.length) (b : Bool) :
    (byLabel (picked rng maxRows rows) b).length =
      take maxRows (byLabel rows b).length rows.length := by
  have happend : byLabel (picked rng maxRows rows) b =
      byLabel (drawn rng maxRows rows true) b ++ byLabel (drawn rng maxRows rows false) b := by
    rw [picked_eq]
    exact List.filter_append ..
  have hlength : (drawn rng maxRows rows b).length = _ := length_drawn b
  rw [min_eq_left (take_le hmax)] at hlength
  rw [happend, byLabel_drawn, byLabel_drawn, ← hlength]
  cases b <;> simp

/-- Cutting a list loses what is cut off, at most. -/
theorem length_byLabel_take (n : ℕ) (l : List (ContextRow K)) (b : Bool) :
    (byLabel l b).length ≤ (byLabel (l.take n) b).length + (l.length - n) := by
  have hsplit : byLabel l b = byLabel (l.take n) b ++ byLabel (l.drop n) b := by
    unfold byLabel
    rw [← List.filter_append, List.take_append_drop]
  have hdrop : (byLabel (l.drop n) b).length ≤ (l.drop n).length :=
    List.length_filter_le _ _
  rw [hsplit, List.length_append]
  rw [List.length_drop] at hdrop
  omega

theorem exists_byLabel {l : List (ContextRow K)} {b : Bool} :
    0 < (byLabel l b).length ↔ ∃ r ∈ l, r.retained = b := by
  rw [List.length_pos_iff_exists_mem]
  unfold byLabel
  simp [List.mem_filter]

/-- **Both labels are selected** from a list that is too long exactly when
each has a share of more than half a row: the cut never takes the last
row of a label. -/
theorem selectRows_both_iff (hmax : maxRows < rows.length) :
    (∀ b, ∃ r ∈ selectRows rng maxRows rows, r.retained = b) ↔
      ∀ b, rows.length < 2 * maxRows * (byLabel rows b).length := by
  have hpos : 0 < rows.length := Nat.zero_lt_of_lt hmax
  have hperm := ordered_perm rows
  have hsame := length_byLabel_of_perm hperm
  have hmax' : maxRows < (ordered rows).length := by rwa [hperm.length_eq]
  -- the labels of what is picked, sorted
  have hlabel : ∀ b, (byLabel (ordered (picked rng maxRows (ordered rows))) b).length =
      take maxRows (byLabel rows b).length rows.length := by
    intro b
    rw [length_byLabel_of_perm (ordered_perm _), length_byLabel_picked hmax', hsame,
      hperm.length_eq]
  unfold selectRows
  rw [if_pos hmax]
  constructor
  · intro hboth b
    obtain ⟨r, hr, hb⟩ := hboth b
    have hin := exists_byLabel.mpr ⟨r, List.mem_of_mem_take hr, hb⟩
    rw [hlabel] at hin
    exact (take_pos_iff hpos).mp hin
  · intro hshares b
    have hone : ∀ b, 0 < take maxRows (byLabel rows b).length rows.length :=
      fun b => (take_pos_iff hpos).mpr (hshares b)
    have hcut := length_byLabel_take maxRows (ordered (picked rng maxRows (ordered rows))) b
    have htotal := length_byLabel (ordered (picked rng maxRows (ordered rows)))
    rw [hlabel, hlabel] at htotal
    rw [hlabel] at hcut
    refine exists_byLabel.mp ?_
    have ht := hone true
    have hf := hone false
    rcases take_add_take maxRows hpos (length_byLabel rows) with hle | ⟨heq, htwo, htwo'⟩
    · cases b <;> omega
    · cases b <;> omega

/-! ## The context -/

/-- **The context keeps both classes**: features and labels of at most
`max_rows` different rows, of both labels. -/
structure KeepsBoth [Zero K] (rows : List (ContextRow K)) (maxRows : ℕ) (X : List (List K))
    (y : List ℕ) : Prop where
  length_eq : X.length = y.length
  length_le : X.length ≤ maxRows
  rows : ∃ chosen : List (ContextRow K), chosen.Subperm rows ∧
    X = chosen.map (fun r => toRow r.features) ∧ y = chosen.map label
  retained : 0 ∈ y
  churned : 1 ∈ y

variable [Zero K] {minRows : ℤ}

omit [Zero K] in
theorem assertSingleTenant_ok (hone : ∀ r ∈ rows, ∀ r' ∈ rows, r.tenantId = r'.tenantId) :
    assertSingleTenant rows = .ok () := by
  have hle : (rows.map ContextRow.tenantId).dedup.length ≤ 1 := by
    cases rows with
    | nil => exact Nat.zero_le 1
    | cons r l =>
        have hsub : ((r :: l).map ContextRow.tenantId).dedup ⊆ [r.tenantId] := by
          intro t ht
          obtain ⟨r', hr', rfl⟩ := List.mem_map.mp (List.mem_dedup.mp ht)
          exact List.mem_singleton.mpr (hone r' hr' r List.mem_cons_self)
        exact (List.subperm_of_subset (List.nodup_dedup _) hsub).length_le
  exact if_neg (by omega)

/-- What a call with enough rows of one tenant returns. -/
theorem selectContext_ok (hone : ∀ r ∈ rows, ∀ r' ∈ rows, r.tenantId = r'.tenantId)
    (hmin : minRows ≤ rows.length) : selectContext rng rows maxRows minRows =
      .ok ((selectRows rng maxRows rows).map (fun r => toRow r.features),
        (selectRows rng maxRows rows).map label) := by
  unfold selectContext
  rw [assertSingleTenant_ok hone]
  simp only [bind, Except.bind]
  rw [if_neg (by omega)]
  rfl

omit [Zero K] in
theorem mem_map_label {l : List (ContextRow K)} (b : Bool) :
    (if b then 0 else 1) ∈ l.map label ↔ ∃ r ∈ l, r.retained = b := by
  rw [List.mem_map]
  refine exists_congr fun r => and_congr_right fun _ => ?_
  unfold label
  cases r.retained <;> cases b <;> decide

/-- **The context keeps both classes exactly when no class is rare**: the
rows fit, or each label has more than half a row of `max_rows`. -/
theorem selectContext_keepsBoth_iff
    (hone : ∀ r ∈ rows, ∀ r' ∈ rows, r.tenantId = r'.tenantId) (hmin : minRows ≤ rows.length)
    (hboth : ∀ b, ∃ r ∈ rows, r.retained = b) :
    (∃ X y, selectContext rng rows maxRows minRows = .ok (X, y) ∧ KeepsBoth rows maxRows X y) ↔
      rows.length ≤ maxRows ∨ ∀ b, rows.length < 2 * maxRows * (byLabel rows b).length := by
  rw [selectContext_ok hone hmin]
  have hselected : (∃ X y, Except.ok (ε := ContextError)
        ((selectRows rng maxRows rows).map (fun r => toRow r.features),
          (selectRows rng maxRows rows).map label) = .ok (X, y) ∧ KeepsBoth rows maxRows X y) ↔
      ∀ b, ∃ r ∈ selectRows rng maxRows rows, r.retained = b := by
    constructor
    · rintro ⟨X, y, heq, hkeeps⟩ b
      obtain ⟨rfl, rfl⟩ := Prod.mk.inj (Except.ok.inj heq)
      refine (mem_map_label b).mp ?_
      cases b
      · exact hkeeps.churned
      · exact hkeeps.retained
    · intro h
      refine ⟨_, _, rfl, ⟨by simp, ?_, ⟨_, selectRows_subperm, rfl, rfl⟩,
        (mem_map_label true).mpr (h true), (mem_map_label false).mpr (h false)⟩⟩
      rw [List.length_map]
      exact length_selectRows_le
  rw [hselected]
  rcases Nat.lt_or_ge maxRows rows.length with hlt | hge
  · rw [selectRows_both_iff hlt]
    exact ⟨Or.inr, fun h => h.resolve_left (by omega)⟩
  · refine iff_of_true ?_ (Or.inl hge)
    intro b
    obtain ⟨r, hr, hb⟩ := hboth b
    refine ⟨r, ?_, hb⟩
    unfold selectRows
    rw [if_neg (by omega)]
    exact (ordered_perm rows).mem_iff.mpr hr

/-- A draw of the first rows. -/
def firstRows : Sampler (ContextRow ℚ) where
  sample group k := group.take k
  subperm group k _ := (List.take_sublist k group).subperm
  length_eq _ _ hk := List.length_take_of_le hk

/-- Retained users of one tenant, and one who churned. -/
def rowsOf (ids : List String) : List (ContextRow ℚ) :=
  ⟨"t1", "out-0", .empty, false⟩ :: ids.map fun id => ⟨"t1", id, .empty, true⟩

/-- Four rows and room for three: the rare label has three quarters of a
row, and is kept. -/
theorem selectContext_keepsBoth_iff_four :
    ∃ X y, selectContext (fun _ => firstRows) (rowsOf ["out-1", "out-2", "out-3"]) 3 2 =
      .ok (X, y) ∧ KeepsBoth (rowsOf ["out-1", "out-2", "out-3"]) 3 X y := by
  refine (selectContext_keepsBoth_iff (by decide) (by decide) ?_).mpr (Or.inr ?_)
  · decide
  · decide

/-- **The context can lose a class**: of five rows one is churned, and the
share it has of two rows, two fifths, is rounded away. -/
theorem not_selectContext_keepsBoth :
    ¬ ∀ (rng : Bool → Sampler (ContextRow ℚ)) (rows : List (ContextRow ℚ)) (maxRows : ℕ)
      (minRows : ℤ), (∀ r ∈ rows, ∀ r' ∈ rows, r.tenantId = r'.tenantId) →
        minRows ≤ rows.length → (∀ b, ∃ r ∈ rows, r.retained = b) → 2 ≤ maxRows →
          ∃ X y, selectContext rng rows maxRows minRows = .ok (X, y) ∧
            KeepsBoth rows maxRows X y := by
  intro hlaw
  obtain ⟨X, y, hrun, hkeeps⟩ := hlaw (fun _ => firstRows)
    (rowsOf ["out-1", "out-2", "out-3", "out-4"]) 2 2 (by decide) (by decide) (by decide)
    (by decide)
  have hlabels : (selectContext (fun _ => firstRows)
      (rowsOf ["out-1", "out-2", "out-3", "out-4"]) 2 2).map Prod.snd = .ok [0, 0] := by
    decide +kernel
  rw [hrun] at hlabels
  obtain rfl : y = [0, 0] := Except.ok.inj hlabels
  exact absurd hkeeps.churned (by decide)

end ChurnRisk

end RetentionEngine
