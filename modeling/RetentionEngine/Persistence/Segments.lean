import Mathlib.Algebra.Order.Floor.Semifield
import Mathlib.Data.List.Sort
import Mathlib.Data.Rat.Floor
import Mathlib.Tactic.IntervalCases
import RetentionEngine.Contracts.Event

/-!
# Segments of users

`persistence.repositories.segments`: the users of a tenant in three bands
of risk and five tiers of spend. A band is cut at the values a third and
two thirds up the sorted list, both inclusive; a tier counts the value
itself. In a list without ties either comes down to the place of a value
in the sorted list (`countP_le_getElem`), and the sizes are differences of
quotients of the length: even, but where it divides.
-/

namespace RetentionEngine

namespace Persistence

/-- The names `tercile` gives. -/
inductive RiskBand
  | low
  | medium
  | high
  deriving DecidableEq, Repr

/-- From low to high. -/
def RiskBand.rank : RiskBand → ℕ
  | .low => 0
  | .medium => 1
  | .high => 2

/-- What `segment_ids` may hold. -/
inductive SegmentId
  | lowestSpenders
  | lowSpenders
  | moderateSpenders
  | bigSpenders
  | highRollers
  | frequentBuyers
  deriving DecidableEq, Repr

/-- `MONETARY_TIERS`. -/
def monetaryTiers : List SegmentId :=
  [.lowestSpenders, .lowSpenders, .moderateSpenders, .bigSpenders, .highRollers]

/-- A row of `risk_scores`, as far as it is read. -/
structure RiskScoreRow (K : Type) where
  tenantId : String
  userPseudonym : String
  churnRisk : K
  computedAt : Timestamp

/-- The tables: users and events by tenant, and risk scores. -/
structure SegmentTables (K : Type) where
  users : List (String × String)
  riskScores : List (RiskScoreRow K)
  canonicalEvents : List (String × CanonicalEvent)

/-- A row of the statement. -/
structure SegmentRow (K : Type) where
  userPseudonym : String
  churnRisk : Option K
  monetary : ℤ
  frequency : ℕ
  deriving DecidableEq, Repr

/-- An entry of the result. -/
structure UserSegment (K : Type) where
  userPseudonym : String
  churnRisk : Option K
  riskBand : RiskBand
  segmentIds : List SegmentId
  deriving DecidableEq, Repr

variable {K : Type}

/-- `latest_risk`. Of scores computed at one instant the first counts. -/
def latestRisk (t : SegmentTables K) (tenantId user : String) : Option K :=
  let ordered := (t.riskScores.filter fun r =>
    r.tenantId = tenantId ∧ r.userPseudonym = user).insertionSort
      fun r r' => r'.computedAt ≤ r.computedAt
  ordered.head?.map RiskScoreRow.churnRisk

/-- The events `volume` sums up. -/
def recentOf (t : SegmentTables K) (tenantId user : String) (since : Timestamp) :
    List CanonicalEvent :=
  (t.canonicalEvents.filter fun p =>
    p.1 = tenantId ∧ since ≤ p.2.occurredAt ∧ p.2.userPseudonym = user).map Prod.snd

/-- The statement. -/
def segmentRows (t : SegmentTables K) (tenantId : String) (since : Timestamp) :
    List (SegmentRow K) :=
  (t.users.filter fun p => p.1 = tenantId).map fun p =>
    { userPseudonym := p.2
      churnRisk := latestRisk t tenantId p.2
      monetary := ((recentOf t tenantId p.2 since).filterMap (·.amountIdr)).sum
      frequency := (recentOf t tenantId p.2 since).length }

/-- `tercile`. -/
def tercile [LinearOrder K] (value : K) (ordered : List K) : RiskBand :=
  if h : ordered = [] then .low
  else
    have hpos : 0 < ordered.length := List.length_pos_iff.mpr h
    let lo := if 3 ≤ ordered.length then ordered[ordered.length / 3] else ordered[0]
    let hi := if 3 ≤ ordered.length then ordered[2 * ordered.length / 3]
      else ordered[ordered.length - 1]
    if value ≤ lo then .low
    else if value ≤ hi then .medium
    else .high

/-- The index `quintile_tier` reads its tier at. -/
def tierIndex (value : ℤ) (ordered : List ℤ) : ℕ :=
  let rank : ℚ := (ordered.countP (· ≤ value) : ℚ) / ordered.length
  min ⌊rank * 5⌋₊ 4

/-- `quintile_tier`. -/
def quintileTier (value : ℤ) (ordered : List ℤ) : SegmentId :=
  if ordered = [] then .lowestSpenders
  else monetaryTiers.get ⟨tierIndex value ordered, Nat.lt_succ_of_le (min_le_right _ _)⟩

/-- `frequency_cutoff`. -/
def frequencyCutoff (ordered : List ℕ) : Option ℕ :=
  if 3 ≤ ordered.length then ordered[ordered.length * 2 / 3]? else none

variable [LinearOrder K]

/-- The entry of a row. -/
def userSegment (rows : List (SegmentRow K)) (row : SegmentRow K) : UserSegment K :=
  let risks := (rows.filterMap (·.churnRisk)).insertionSort (· ≤ ·)
  let monetarySorted := (rows.map (·.monetary)).insertionSort (· ≤ ·)
  let cutoff := frequencyCutoff ((rows.map (·.frequency)).insertionSort (· ≤ ·))
  { userPseudonym := row.userPseudonym
    churnRisk := row.churnRisk
    riskBand := (row.churnRisk.map fun risk => tercile risk risks).getD .low
    segmentIds := quintileTier row.monetary monetarySorted ::
      if ∃ c ∈ cutoff, c ≤ row.frequency ∧ 0 < row.frequency then [.frequentBuyers] else [] }

/-- What `get_user_segments` makes of the rows of its statement. -/
def userSegments (rows : List (SegmentRow K)) : List (UserSegment K) := rows.map (userSegment rows)

/-- `get_user_segments`, with its `window_days`. -/
def getUserSegments (clock : Clock) (t : SegmentTables K) (tenantId : String) (now : Timestamp)
    (windowDays : ℤ) : List (UserSegment K) :=
  userSegments (segmentRows t tenantId (now - windowDays * clock.day))

/-! ## Places in a sorted list -/

section Places

variable {α : Type} {l : List α}

/-- **What holds of the first `m` elements only, holds of `m`.** -/
theorem countP_eq_of_getElem {p : α → Bool} {m : ℕ} (hm : m ≤ l.length)
    (h : ∀ (i : ℕ) (hi : i < l.length), p l[i] ↔ i < m) : l.countP p = m := by
  induction l generalizing m with
  | nil =>
      rw [List.countP_nil]
      simp only [List.length_nil] at hm
      omega
  | cons a l ih =>
      have hhead := h 0 (by simp)
      rw [List.length_cons] at hm
      rw [List.countP_cons]
      cases m with
      | zero =>
          have hrest : l.countP p = 0 := ih (Nat.zero_le _) fun i hi => by
            have htail := h (i + 1) (by simpa using hi)
            simpa using htail
          simp only [List.getElem_cons_zero, lt_self_iff_false, iff_false] at hhead
          rw [hrest, if_neg hhead]
      | succ m =>
          have hrest : l.countP p = m := ih (by omega) fun i hi => by
            have htail := h (i + 1) (by simpa using hi)
            simpa using htail
          simp only [List.getElem_cons_zero, Nat.zero_lt_succ, iff_true] at hhead
          rw [hrest, if_pos hhead]

variable [LinearOrder α]

/-- In a list without ties the order is that of the places. -/
theorem getElem_le_getElem_iff (hl : l.Pairwise (· < ·)) {i j : ℕ} (hi : i < l.length)
    (hj : j < l.length) : l[i] ≤ l[j] ↔ i ≤ j := by
  have hmono : StrictMono l.get := hl.sortedLT.strictMono_get
  exact hmono.le_iff_le (a := ⟨i, hi⟩) (b := ⟨j, hj⟩)

/-- **The place of a value counts what is no greater.** -/
theorem countP_le_getElem (hl : l.Pairwise (· < ·)) {i : ℕ} (hi : i < l.length) :
    l.countP (· ≤ l[i]) = i + 1 :=
  countP_eq_of_getElem hi fun j hj => by
    rw [decide_eq_true_iff, getElem_le_getElem_iff hl hj hi]
    omega

omit [LinearOrder α] in
/-- One grade more. -/
theorem countP_lt_succ (g : α → ℕ) (l : List α) (j : ℕ) :
    l.countP (fun a => g a < j + 1) =
      l.countP (fun a => g a < j) + l.countP (fun a => g a = j) := by
  induction l with
  | nil => rfl
  | cons a l ih =>
      simp only [List.countP_cons, decide_eq_true_eq, ih]
      split_ifs <;> omega

omit [LinearOrder α] in
/-- **The size of a grade** is the distance of the cuts on its two sides. -/
theorem countP_grade {g : α → ℕ} {cut : ℕ → ℕ} (hcut : ∀ j, cut j ≤ l.length)
    (h : ∀ (i : ℕ) (hi : i < l.length) (j : ℕ), g l[i] < j ↔ i < cut j) (j : ℕ) :
    l.countP (fun a => g a = j) = cut (j + 1) - cut j := by
  have hbelow : ∀ j, l.countP (fun a => g a < j) = cut j := fun j =>
    countP_eq_of_getElem (hcut j) fun i hi => by rw [decide_eq_true_iff, h i hi j]
  have hsucc := countP_lt_succ g l j
  rw [hbelow, hbelow] at hsucc
  omega

end Places

/-! ## Bands -/

variable {l : List K}

/-- Where the bands end. -/
def bandCut (n : ℕ) : ℕ → ℕ
  | 0 => 0
  | 1 => n / 3 + 1
  | 2 => 2 * n / 3 + 1
  | _ => n

theorem bandCut_le {n : ℕ} (hn : 3 ≤ n) (j : ℕ) : bandCut n j ≤ n := by
  unfold bandCut
  split <;> omega

/-- **The band of the value at a place.** -/
theorem rank_tercile_lt_iff (hl : l.Pairwise (· < ·)) (hlen : 3 ≤ l.length) {i : ℕ}
    (hi : i < l.length) (j : ℕ) : (tercile l[i] l).rank < j ↔ i < bandCut l.length j := by
  have hne : l ≠ [] := List.ne_nil_of_length_pos (by omega)
  unfold tercile
  rw [dif_neg hne]
  simp only [if_pos hlen, getElem_le_getElem_iff hl]
  rcases j with _ | _ | _ | j <;> simp only [bandCut] <;> split_ifs <;>
    simp only [RiskBand.rank] <;> omega

/-- A greater risk is in no lower band. -/
theorem rank_tercile_mono {v w : K} (hvw : v ≤ w) : (tercile v l).rank ≤ (tercile w l).rank := by
  unfold tercile
  split
  · exact le_rfl
  · dsimp only
    generalize (if 3 ≤ l.length then _ else _ : K) = lo
    generalize (if 3 ≤ l.length then _ else _ : K) = hi
    by_cases hlo : w ≤ lo
    · rw [if_pos hlo, if_pos (hvw.trans hlo)]
    · rw [if_neg hlo]
      by_cases hhi : w ≤ hi
      · rw [if_pos hhi, if_pos (hvw.trans hhi)]
        split <;> decide
      · rw [if_neg hhi]
        split
        · decide
        · split <;> decide

/-! ## Tiers -/

theorem tierIndex_eq (value : ℤ) (ordered : List ℤ) :
    tierIndex value ordered = min (ordered.countP (· ≤ value) * 5 / ordered.length) 4 := by
  unfold tierIndex
  dsimp only
  rw [div_mul_eq_mul_div, ← Nat.cast_ofNat, ← Nat.cast_mul, Nat.floor_div_eq_div]

/-- Where the tiers end. -/
def tierCut (n : ℕ) : ℕ → ℕ
  | 0 => 0
  | 1 => (n - 1) / 5
  | 2 => (2 * n - 1) / 5
  | 3 => (3 * n - 1) / 5
  | 4 => (4 * n - 1) / 5
  | _ => n

theorem tierCut_le (n j : ℕ) : tierCut n j ≤ n := by
  unfold tierCut
  split <;> omega

/-- **The tier of the value at a place.** -/
theorem tierIndex_lt_iff {ordered : List ℤ} (hl : ordered.Pairwise (· < ·)) {i : ℕ}
    (hi : i < ordered.length) (j : ℕ) :
    tierIndex ordered[i] ordered < j ↔ i < tierCut ordered.length j := by
  have hpos : 0 < ordered.length := by omega
  rw [tierIndex_eq, countP_le_getElem hl hi, min_lt_iff, Nat.div_lt_iff_lt_mul hpos]
  rcases j with _ | _ | _ | _ | _ | j <;> simp only [tierCut] <;> omega

/-- More spend is in no lower tier. -/
theorem tierIndex_mono {v w : ℤ} (hvw : v ≤ w) (ordered : List ℤ) :
    tierIndex v ordered ≤ tierIndex w ordered := by
  rw [tierIndex_eq, tierIndex_eq]
  have hcount : ordered.countP (· ≤ v) ≤ ordered.countP (· ≤ w) :=
    List.countP_mono_left fun x _ hx =>
      decide_eq_true ((of_decide_eq_true hx).trans hvw)
  have hdiv := Nat.div_le_div_right (c := ordered.length) (Nat.mul_le_mul_right 5 hcount)
  exact min_le_min_right 4 hdiv

/-! ## Sizes -/

/-- Sizes that differ by one at most. -/
def Evenly (sizes : List ℕ) : Prop := ∀ a ∈ sizes, ∀ b ∈ sizes, a ≤ b + 1

instance : DecidablePred Evenly := fun sizes =>
  inferInstanceAs (Decidable (∀ a ∈ sizes, ∀ b ∈ sizes, a ≤ b + 1))

/-- The sizes of the bands. -/
def bandSizes (out : List (UserSegment K)) : List ℕ :=
  [RiskBand.low, .medium, .high].map fun band => out.countP fun u => u.riskBand = band

/-- The sizes of the tiers. -/
def tierSizes (out : List (UserSegment K)) : List ℕ :=
  monetaryTiers.map fun tier => out.countP fun u => tier ∈ u.segmentIds

/-- Every user has a risk, and no two have the same. -/
def DistinctRisks (rows : List (SegmentRow K)) : Prop :=
  (∀ row ∈ rows, row.churnRisk ≠ none) ∧ (rows.map (·.churnRisk)).Nodup

/-- The band is monotone in the risk. -/
def BandsFollow (rows : List (SegmentRow K)) : Prop :=
  ∀ row ∈ rows, ∀ row' ∈ rows, ∀ risk ∈ row.churnRisk, ∀ risk' ∈ row'.churnRisk, risk ≤ risk' →
    (userSegment rows row).riskBand.rank ≤ (userSegment rows row').riskBand.rank

/-- The tier is monotone in the spend. -/
def TiersFollow (rows : List (SegmentRow K)) : Prop :=
  ∀ row ∈ rows, ∀ row' ∈ rows, row.monetary ≤ row'.monetary →
    ∀ tier ∈ monetaryTiers, ∀ tier' ∈ monetaryTiers,
      tier ∈ (userSegment rows row).segmentIds → tier' ∈ (userSegment rows row').segmentIds →
      monetaryTiers.idxOf tier ≤ monetaryTiers.idxOf tier'

variable {rows : List (SegmentRow K)}

theorem bandsFollow (rows : List (SegmentRow K)) : BandsFollow rows := by
  intro row _ row' _ risk hrisk risk' hrisk' hle
  unfold userSegment
  rw [Option.mem_def.mp hrisk, Option.mem_def.mp hrisk']
  exact rank_tercile_mono hle

theorem mem_segmentIds_iff {row : SegmentRow K} {tier : SegmentId} (htier : tier ∈ monetaryTiers) :
    tier ∈ (userSegment rows row).segmentIds ↔
      quintileTier row.monetary ((rows.map (·.monetary)).insertionSort (· ≤ ·)) = tier := by
  have hne : tier ≠ .frequentBuyers := by
    rintro rfl
    revert htier
    decide
  unfold userSegment
  dsimp only
  rw [List.mem_cons]
  split
  · rw [List.mem_singleton, or_iff_left hne, eq_comm]
  · rw [or_iff_left List.not_mem_nil, eq_comm]

/-- The index of a tier. -/
theorem idxOf_quintileTier {ordered : List ℤ} (hne : ordered ≠ []) (value : ℤ) :
    monetaryTiers.idxOf (quintileTier value ordered) = tierIndex value ordered := by
  unfold quintileTier
  rw [if_neg hne]
  exact List.Nodup.idxOf_getElem (by decide) _ _

theorem quintileTier_mem (value : ℤ) (ordered : List ℤ) :
    quintileTier value ordered ∈ monetaryTiers := by
  unfold quintileTier
  split
  · exact List.mem_cons_self
  · exact List.get_mem _ _

theorem tiersFollow (rows : List (SegmentRow K)) : TiersFollow rows := by
  intro row hrow row' _ hle tier htier tier' htier' hmem hmem'
  rw [mem_segmentIds_iff htier] at hmem
  rw [mem_segmentIds_iff htier'] at hmem'
  have hne : (rows.map (·.monetary)).insertionSort (· ≤ ·) ≠ [] := by
    intro hnil
    have hin : row.monetary ∈ (rows.map (·.monetary)).insertionSort (· ≤ ·) :=
      (List.mem_insertionSort _).mpr (List.mem_map_of_mem hrow)
    rw [hnil] at hin
    cases hin
  rw [← hmem, ← hmem', idxOf_quintileTier hne, idxOf_quintileTier hne]
  exact tierIndex_mono hle _

/-- Sorted, values without ties increase strictly. -/
theorem pairwise_lt_insertionSort {α : Type} [LinearOrder α] {values : List α}
    (hnodup : values.Nodup) : (values.insertionSort (· ≤ ·)).Pairwise (· < ·) := by
  have hle := List.pairwise_insertionSort (· ≤ ·) values
  have hne : (values.insertionSort (· ≤ ·)).Nodup :=
    (List.perm_insertionSort (· ≤ ·) values).nodup_iff.mpr hnodup
  exact (hle.and hne).imp fun h => lt_of_le_of_ne h.1 h.2

omit [LinearOrder K] in
/-- The risks of users that all have one. -/
theorem map_churnRisk (h : ∀ row ∈ rows, row.churnRisk ≠ none) :
    rows.map (·.churnRisk) = (rows.filterMap (·.churnRisk)).map some := by
  induction rows with
  | nil => rfl
  | cons row rows ih =>
      obtain ⟨risk, hrisk⟩ := Option.ne_none_iff_exists'.mp (h row List.mem_cons_self)
      rw [List.map_cons, ih fun row' hrow' => h row' (List.mem_cons_of_mem _ hrow'),
        List.filterMap_cons_some hrisk, List.map_cons, hrisk]

theorem RiskBand.rank_injective : Function.Injective RiskBand.rank := by
  intro a b
  cases a <;> cases b <;> decide

/-- **The size of a band.** -/
theorem countP_riskBand (h : DistinctRisks rows) (hlen : 3 ≤ rows.length) (band : RiskBand) :
    (userSegments rows).countP (fun u => u.riskBand = band) =
      bandCut rows.length (band.rank + 1) - bandCut rows.length band.rank := by
  obtain ⟨hsome, hnodup⟩ := h
  have hmap := map_churnRisk hsome
  generalize hrisks : rows.filterMap (·.churnRisk) = risks at hmap
  have hlen' : risks.length = rows.length := by
    have hlengths := congrArg List.length hmap
    rw [List.length_map, List.length_map] at hlengths
    exact hlengths.symm
  have hdistinct : risks.Nodup := by
    rw [hmap] at hnodup
    exact hnodup.of_map some
  have hperm := List.perm_insertionSort (· ≤ ·) risks
  have hsorted := pairwise_lt_insertionSort hdistinct
  have hlength : (risks.insertionSort (· ≤ ·)).length = rows.length := by
    rw [hperm.length_eq, hlen']
  calc (userSegments rows).countP (fun u => u.riskBand = band)
      = (rows.map (·.churnRisk)).countP fun risk => (risk.map fun risk =>
          tercile risk (risks.insertionSort (· ≤ ·))).getD .low = band := by
        unfold userSegments
        rw [List.countP_map, List.countP_map]
        subst hrisks
        rfl
    _ = risks.countP fun risk => (tercile risk (risks.insertionSort (· ≤ ·))).rank = band.rank := by
        rw [hmap, List.countP_map]
        refine List.countP_congr fun risk _ => ?_
        simp [RiskBand.rank_injective.eq_iff]
    _ = (risks.insertionSort (· ≤ ·)).countP fun risk =>
          (tercile risk (risks.insertionSort (· ≤ ·))).rank = band.rank := (hperm.countP_eq _).symm
    _ = bandCut rows.length (band.rank + 1) - bandCut rows.length band.rank := by
        rw [← hlength]
        exact countP_grade (bandCut_le (hlength ▸ hlen))
          (fun i hi j => rank_tercile_lt_iff hsorted (hlength ▸ hlen) hi j) band.rank

/-- **The size of a tier.** -/
theorem countP_tier (hnodup : (rows.map (·.monetary)).Nodup) (hne : rows ≠ [])
    {tier : SegmentId} (htier : tier ∈ monetaryTiers) :
    (userSegments rows).countP (fun u => tier ∈ u.segmentIds) =
      tierCut rows.length (monetaryTiers.idxOf tier + 1) -
        tierCut rows.length (monetaryTiers.idxOf tier) := by
  generalize hspend : rows.map (·.monetary) = spend at hnodup
  have hperm := List.perm_insertionSort (· ≤ ·) spend
  have hsorted := pairwise_lt_insertionSort hnodup
  have hlength : (spend.insertionSort (· ≤ ·)).length = rows.length := by
    rw [hperm.length_eq, ← hspend, List.length_map]
  have hsome : spend.insertionSort (· ≤ ·) ≠ [] := by
    rw [← List.length_pos_iff, hlength]
    exact List.length_pos_iff.mpr hne
  calc (userSegments rows).countP (fun u => tier ∈ u.segmentIds)
      = spend.countP fun value => quintileTier value (spend.insertionSort (· ≤ ·)) = tier := by
        unfold userSegments
        rw [List.countP_map, ← hspend, List.countP_map]
        refine List.countP_congr fun row _ => ?_
        simp only [Function.comp_apply, decide_eq_true_eq]
        exact mem_segmentIds_iff htier
    _ = spend.countP fun value =>
          tierIndex value (spend.insertionSort (· ≤ ·)) = monetaryTiers.idxOf tier := by
        refine List.countP_congr fun value _ => ?_
        rw [decide_eq_true_iff, decide_eq_true_iff, ← idxOf_quintileTier hsome,
          List.idxOf_inj (quintileTier_mem value _)]
    _ = (spend.insertionSort (· ≤ ·)).countP fun value =>
          tierIndex value (spend.insertionSort (· ≤ ·)) = monetaryTiers.idxOf tier :=
        (hperm.countP_eq _).symm
    _ = tierCut rows.length (monetaryTiers.idxOf tier + 1) -
          tierCut rows.length (monetaryTiers.idxOf tier) := by
        rw [← hlength]
        exact countP_grade (tierCut_le _) (fun i hi j => tierIndex_lt_iff hsorted hi j) _

/-- What five quotients of a number come to. -/
theorem evenly_tierCut_iff {n : ℕ} (hn : 5 ≤ n) :
    Evenly ((List.range 5).map fun j => tierCut n (j + 1) - tierCut n j) ↔ ¬ 5 ∣ n := by
  simp only [List.range_succ, List.range_zero, List.nil_append, List.cons_append, List.map_cons,
    List.map_nil, tierCut]
  unfold Evenly
  simp only [List.mem_cons, List.not_mem_nil, or_false, forall_eq_or_imp, forall_eq]
  -- the remainder decides
  obtain ⟨q, r, hr, rfl⟩ : ∃ q r, r < 5 ∧ n = 5 * q + r :=
    ⟨n / 5, n % 5, Nat.mod_lt n (by omega), (Nat.div_add_mod n 5).symm⟩
  interval_cases r <;> omega

/-- **The segments are even where the number of users leaves a remainder**:
the bands by three, the tiers by five. Their order is right everywhere. -/
theorem evenSegments_iff (rows : List (SegmentRow K)) :
    (3 ≤ rows.length → DistinctRisks rows →
      (Evenly (bandSizes (userSegments rows)) ∧ BandsFollow rows ↔ ¬ 3 ∣ rows.length)) ∧
    (5 ≤ rows.length → (rows.map (·.monetary)).Nodup →
      (Evenly (tierSizes (userSegments rows)) ∧ TiersFollow rows ↔ ¬ 5 ∣ rows.length)) := by
  refine ⟨fun hlen hdistinct => ?_, fun hlen hnodup => ?_⟩
  · rw [and_iff_left (bandsFollow rows)]
    unfold bandSizes
    simp only [List.map_cons, List.map_nil, countP_riskBand hdistinct hlen, RiskBand.rank, bandCut]
    unfold Evenly
    simp only [List.mem_cons, List.not_mem_nil, or_false, forall_eq_or_imp, forall_eq]
    omega
  · have hne : rows ≠ [] := List.ne_nil_of_length_pos (by omega)
    have hsizes : tierSizes (userSegments rows) =
        (List.range 5).map fun j => tierCut rows.length (j + 1) - tierCut rows.length j :=
      List.map_congr_left fun tier htier => countP_tier hnodup hne htier
    rw [and_iff_left (tiersFollow rows), hsizes]
    exact evenly_tierCut_iff hlen

/-- Users with these spends, who have the risks `0`, `1`, and so on. -/
def usersOf (spends : List ℤ) : List (SegmentRow ℚ) :=
  spends.zipIdx.map fun p =>
    { userPseudonym := toString p.2, churnRisk := some p.2, monetary := p.1, frequency := 1 }

/-- Seven users are sorted evenly. -/
theorem evenSegments_seven :
    (Evenly (bandSizes (userSegments (usersOf [1, 2, 3, 4, 5, 6, 7]))) ∧
      BandsFollow (usersOf [1, 2, 3, 4, 5, 6, 7])) ∧
    Evenly (tierSizes (userSegments (usersOf [1, 2, 3, 4, 5, 6, 7]))) ∧
      TiersFollow (usersOf [1, 2, 3, 4, 5, 6, 7]) := by
  have heven := evenSegments_iff (usersOf [1, 2, 3, 4, 5, 6, 7])
  exact ⟨(heven.1 (by decide) ⟨by decide +kernel, by decide +kernel⟩).mpr (by decide),
    (heven.2 (by decide) (by decide +kernel)).mpr (by decide)⟩

/-- Of three users two are of low risk and none of high risk; of five none
is a lowest spender. -/
theorem not_evenSegments_three_five :
    bandSizes (userSegments (usersOf [1, 2, 3])) = [2, 1, 0] ∧
    ¬ Evenly (bandSizes (userSegments (usersOf [1, 2, 3]))) ∧
    tierSizes (userSegments (usersOf [1, 2, 3, 4, 5])) = [0, 1, 1, 1, 2] ∧
    ¬ Evenly (tierSizes (userSegments (usersOf [1, 2, 3, 4, 5]))) := by
  decide +kernel

end Persistence

end RetentionEngine
