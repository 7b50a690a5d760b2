import RetentionEngine.ChurnRisk.Offsets
import RetentionEngine.ExternalSignals.Signal

/-!
# What the trained scorer is given

The columns of the scorer's context, the checks `_prepare_candidates` of
`worker.churn_scorer` makes of them, and the ranges the features are built in.
-/

namespace RetentionEngine

namespace ChurnRisk

open ExternalSignals (InUnit ExternalSignal)

/-! ## The columns -/

/-- The kind of a column, with its categories. -/
inductive ColumnKind
  | categorical (categories : List String)
  | numerical
  deriving DecidableEq, Repr

/-- The categories of `client_profile`. -/
def clientProfiles : List String :=
  ["Everyday Wallet", "PayLater Explorer", "Growth Saver", "Premium Multi-product"]

/-- Those of `region`. -/
def regions : List String := ["North", "Central", "South", "East", "West"]

/-- Those of `external_signal_name`. -/
def externalSignalNames : List String :=
  ["stable", "positive_momentum", "support_friction", "income_pressure", "competitor_pull"]

/-- `model_features_ordered` of `context_schema.json`. -/
def modelFeaturesOrdered : List (String × ColumnKind) :=
  [("client_profile", .categorical clientProfiles), ("region", .categorical regions),
    ("txn_count_30d", .numerical), ("active_days_30d", .numerical),
    ("days_since_last_txn", .numerical), ("avg_amount_30d", .numerical),
    ("total_amount_30d", .numerical), ("amount_trend_90d", .numerical),
    ("activity_trend_90d", .numerical), ("external_sentiment", .numerical),
    ("external_signal_name", .categorical externalSignalNames), ("base_business_value", .numerical)]

/-- `numeric_features`. -/
def numericFeatures : List String :=
  (modelFeaturesOrdered.filter fun column => column.2 = .numerical).map Prod.fst

/-- `categorical_categories`. -/
def categoricalCategories : List (String × List String) :=
  modelFeaturesOrdered.filterMap fun column =>
    match column.2 with
    | .categorical categories => some (column.1, categories)
    | .numerical => none

/-! ## The checks -/

/-- A cell of the candidates. -/
inductive Cell (K : Type)
  | missing
  | text (s : String)
  | number (x : K)

/-- What pandas makes of other cells: the number of a text, if it is one, and
the text of a number. -/
structure Pandas (K : Type) where
  toNumeric : String → Option K
  astypeStr : K → String

/-- A `ValueError` of `_prepare_candidates`. -/
inductive CandidateError
  | invalidValues (column : String)
  | unknownCategories (column : String) (unknown : List String)
  | missingValues (column : String)
  deriving DecidableEq, Repr

variable {K : Type} (pandas : Pandas K)

/-- `pd.to_numeric(…, errors="coerce")`. -/
def Cell.toNumeric : Cell K → Option K
  | missing => none
  | text s => pandas.toNumeric s
  | number x => some x

/-- `dropna().astype(str)`. -/
def Cell.supplied : Cell K → Option String
  | missing => none
  | text s => some s
  | number x => some (pandas.astypeStr x)

/-- `pd.Categorical(…, categories=categories)` of a cell is not missing. -/
def Cell.IsCategory (categories : List String) : Cell K → Prop
  | text s => s ∈ categories
  | _ => False

instance (categories : List String) : DecidablePred (Cell.IsCategory (K := K) categories) := by
  intro c
  cases c <;> unfold Cell.IsCategory <;> infer_instance

/-- The check of a numeric column. -/
def checkNumeric (rows : List (String → Cell K)) (column : String) :
    Except CandidateError Unit :=
  if rows.any fun row => ((row column).toNumeric pandas).isNone then
    throw (.invalidValues column)
  else pure ()

/-- The check of a categorical column. -/
def checkCategorical (rows : List (String → Cell K)) (column : String × List String) :
    Except CandidateError Unit := do
  let supplied := (rows.filterMap fun row => (row column.1).supplied pandas).dedup
  let unknown := (supplied.filter fun s => s ∉ column.2).insertionSort (· ≤ ·)
  if unknown ≠ [] then throw (.unknownCategories column.1 unknown)
  if rows.any fun row => ¬ (row column.1).IsCategory column.2 then
    throw (.missingValues column.1)

/-- **The numeric and the category checks** of `_prepare_candidates`. -/
def checkFeatures (rows : List (String → Cell K)) : Except CandidateError Unit := do
  numericFeatures.forM (checkNumeric pandas rows)
  categoricalCategories.forM (checkCategorical pandas rows)

/-- The features as a row, by column. -/
def SnapshotFeatures.row [NatCast K] [IntCast K] (f : SnapshotFeatures K) (column : String) :
    Cell K :=
  match column with
  | "client_profile" => .text f.clientProfile
  | "region" => .text f.region
  | "txn_count_30d" => .number f.txnCount30d
  | "active_days_30d" => .number f.activeDays30d
  | "days_since_last_txn" => .number f.daysSinceLastTxn
  | "avg_amount_30d" => .number f.avgAmount30d
  | "total_amount_30d" => .number f.totalAmount30d
  | "amount_trend_90d" => .number f.amountTrend90d
  | "activity_trend_90d" => .number f.activityTrend90d
  | "external_sentiment" => .number f.externalSentiment
  | "external_signal_name" => .text f.externalSignalName
  | "base_business_value" => .number f.baseBusinessValue
  | _ => .missing

/-- **The categories of the schema.** -/
structure SnapshotFeatures.InVocabulary (f : SnapshotFeatures K) : Prop where
  clientProfile : f.clientProfile ∈ clientProfiles
  region : f.region ∈ regions
  externalSignalName : f.externalSignalName ∈ externalSignalNames

variable {pandas} {rows : List (String → Cell K)}

theorem forM_eq_ok {α : Type} {l : List α} {check : α → Except CandidateError Unit}
    (h : ∀ a ∈ l, check a = .ok ()) : l.forM check = .ok () := by
  induction l with
  | nil => rfl
  | cons a l ih =>
      have hstep : (a :: l).forM check = check a >>= fun _ => l.forM check := rfl
      rw [hstep, h a List.mem_cons_self]
      exact ih fun b hb => h b (List.mem_cons_of_mem _ hb)

theorem checkNumeric_eq_ok {column : String}
    (h : ∀ row ∈ rows, ∃ x, row column = .number x) : checkNumeric pandas rows column = .ok () := by
  unfold checkNumeric
  refine if_neg ?_
  rw [List.any_eq_true]
  rintro ⟨row, hrow, hnone⟩
  obtain ⟨x, hx⟩ := h row hrow
  rw [hx] at hnone
  cases hnone

theorem checkCategorical_eq_ok {column : String × List String}
    (h : ∀ row ∈ rows, ∃ s ∈ column.2, row column.1 = .text s) :
    checkCategorical pandas rows column = .ok () := by
  have hknown : (((rows.filterMap fun row => (row column.1).supplied pandas).dedup).filter
      fun s => s ∉ column.2) = [] := by
    rw [List.filter_eq_nil_iff]
    intro s hs
    obtain ⟨row, hrow, hsupplied⟩ := List.mem_filterMap.mp (List.mem_dedup.mp hs)
    obtain ⟨s', hs', hcell⟩ := h row hrow
    rw [hcell] at hsupplied
    obtain rfl := Option.some.inj hsupplied
    simpa using hs'
  have hpresent : ¬ (rows.any fun row => ¬ (row column.1).IsCategory column.2) = true := by
    rw [List.any_eq_true]
    rintro ⟨row, hrow, hnot⟩
    obtain ⟨s, hs, hcell⟩ := h row hrow
    rw [hcell] at hnot
    exact of_decide_eq_true hnot hs
  unfold checkCategorical
  dsimp only
  rw [hknown, List.insertionSort_nil, if_neg (fun hne => hne rfl), if_neg hpresent]
  rfl

/-- **Rows in the vocabulary are accepted**, in any number. -/
theorem checkFeatures_eq_ok [NatCast K] [IntCast K] {features : List (SnapshotFeatures K)}
    (h : ∀ f ∈ features, f.InVocabulary) :
    checkFeatures pandas (features.map SnapshotFeatures.row) = .ok () := by
  have hrows : ∀ {p : (String → Cell K) → Prop}, (∀ f ∈ features, p f.row) →
      ∀ row ∈ features.map SnapshotFeatures.row, p row := fun hp row hrow => by
    obtain ⟨f, hf, rfl⟩ := List.mem_map.mp hrow
    exact hp f hf
  have hnumeric : numericFeatures.forM
      (checkNumeric pandas (features.map SnapshotFeatures.row)) = .ok () := by
    refine forM_eq_ok fun column hcolumn => checkNumeric_eq_ok (hrows fun f _ => ?_)
    unfold numericFeatures modelFeaturesOrdered at hcolumn
    simp only [reduceCtorEq, decide_false, decide_true, Bool.false_eq_true, not_false_eq_true,
      List.filter_cons_of_neg, List.filter_cons_of_pos, List.filter_nil, List.map_cons,
      List.map_nil, List.mem_cons, List.not_mem_nil, or_false] at hcolumn
    rcases hcolumn with rfl | rfl | rfl | rfl | rfl | rfl | rfl | rfl | rfl <;> exact ⟨_, rfl⟩
  have hcategorical : categoricalCategories.forM
      (checkCategorical pandas (features.map SnapshotFeatures.row)) = .ok () := by
    refine forM_eq_ok fun column hcolumn => checkCategorical_eq_ok (hrows fun f hf => ?_)
    have hcolumns : categoricalCategories = [("client_profile", clientProfiles),
      ("region", regions), ("external_signal_name", externalSignalNames)] := rfl
    rw [hcolumns] at hcolumn
    simp only [List.mem_cons, List.not_mem_nil, or_false] at hcolumn
    rcases hcolumn with rfl | rfl | rfl
    · exact ⟨_, (h f hf).clientProfile, rfl⟩
    · exact ⟨_, (h f hf).region, rfl⟩
    · exact ⟨_, (h f hf).externalSignalName, rfl⟩
  unfold checkFeatures
  rw [hnumeric]
  exact hcategorical

theorem SnapshotFeatures.InVocabulary.accepted [NatCast K] [IntCast K] {f : SnapshotFeatures K}
    (h : f.InVocabulary) : checkFeatures pandas [f.row] = .ok () := by
  have hall : ∀ f' ∈ [f], f'.InVocabulary := by
    intro f' hf'
    rw [List.mem_singleton.mp hf']
    exact h
  exact checkFeatures_eq_ok hall

/-! ## The ranges -/

section Ranges

variable [Field K] [LinearOrder K]

/-- **A mapping onto the schema**: its scales are positive, its range is one
and its values are categories. -/
structure ScorerMapping.WellFormed (mapping : ScorerMapping K) : Prop where
  amountScale : 0 < mapping.amountScaleIdr
  businessValueScale : 0 < mapping.businessValueScaleIdr
  range : mapping.baseBusinessValueRange.1 ≤ mapping.baseBusinessValueRange.2
  profileByType : ∀ profile ∈ mapping.profileByType.values, profile ∈ clientProfiles
  defaultProfile : mapping.defaultProfile ∈ clientProfiles
  regionByCode : ∀ region ∈ mapping.regionByCode.values, region ∈ regions
  defaultRegion : mapping.defaultRegion ∈ regions

/-- **The ranges of the scorer's context**, and that the scorer accepts the
row. -/
structure SnapshotFeatures.InRange (pandas : Pandas K) (mapping : ScorerMapping K)
    (f : SnapshotFeatures K) : Prop where
  vocabulary : f.InVocabulary
  activeDays_le : f.activeDays30d ≤ min f.txnCount30d 30
  activeDays_pos : 0 < f.activeDays30d ↔ 0 < f.txnCount30d
  daysSince : 0 ≤ f.daysSinceLastTxn ∧ f.daysSinceLastTxn ≤ 60
  daysSince_lt : 0 < f.txnCount30d → f.daysSinceLastTxn < 30
  avgAmount : f.avgAmount30d * f.txnCount30d = f.totalAmount30d
  totalAmount : 0 ≤ f.totalAmount30d
  amountTrend : InUnit f.amountTrend90d
  activityTrend : InUnit f.activityTrend90d
  externalSentiment : InUnit f.externalSentiment
  baseBusinessValue : mapping.baseBusinessValueRange.1 ≤ f.baseBusinessValue ∧
    f.baseBusinessValue ≤ mapping.baseBusinessValueRange.2
  accepted : checkFeatures pandas [f.row] = .ok ()

/-- The recent transactions have at most `n` calendar dates: no more of them
have different ones. -/
def AtMostDates (n : ℕ) (now : Timestamp) (events : List OffsetEvent) : Prop :=
  ∀ l : List OffsetEvent, l ⊆ recentEvents now events → (l.map OffsetEvent.date).Nodup →
    l.length ≤ n

variable {now : Timestamp} {events : List OffsetEvent} {clock : Clock}

theorem exists_map_date {l : List OffsetEvent} {dates : List ℤ}
    (h : ∀ d ∈ dates, ∃ e ∈ l, e.date = d) : ∃ l' ⊆ l, l'.map OffsetEvent.date = dates := by
  induction dates with
  | nil => exact ⟨[], List.nil_subset l, rfl⟩
  | cons d dates ih =>
      obtain ⟨e, he, rfl⟩ := h d List.mem_cons_self
      obtain ⟨l', hl', rfl⟩ := ih fun d hd => h d (List.mem_cons_of_mem _ hd)
      exact ⟨e :: l', List.cons_subset.mpr ⟨he, hl'⟩, rfl⟩

/-- **The active days are at most as many as the dates.** -/
theorem activeDays_le_iff {n : ℕ} : activeDays now events ≤ n ↔ AtMostDates n now events := by
  constructor
  · intro h l hl hnodup
    have hsub : l.map OffsetEvent.date ⊆
        ((recentEvents now events).map OffsetEvent.date).dedup := by
      intro d hd
      obtain ⟨e, he, rfl⟩ := List.mem_map.mp hd
      exact List.mem_dedup.mpr (List.mem_map_of_mem (hl he))
    have hlength := (hnodup.subperm hsub).length_le
    rw [List.length_map] at hlength
    exact hlength.trans h
  · intro h
    have hevents : ∀ d ∈ ((recentEvents now events).map OffsetEvent.date).dedup,
        ∃ e ∈ recentEvents now events, e.date = d :=
      fun d hd => List.mem_map.mp (List.mem_dedup.mp hd)
    obtain ⟨l, hl, hdates⟩ := exists_map_date hevents
    unfold activeDays
    rw [← hdates, List.length_map]
    exact h l hl (hdates ▸ List.nodup_dedup _)

theorem activeDays_le_length : activeDays now events ≤ (recentEvents now events).length := by
  unfold activeDays
  exact (List.dedup_sublist _).length_le.trans_eq (List.length_map _)

theorem activeDays_pos_iff : 0 < activeDays now events ↔ 0 < (recentEvents now events).length := by
  unfold activeDays
  rw [List.length_pos_iff, List.length_pos_iff, ne_eq, ne_eq, List.dedup_eq_nil,
    List.map_eq_nil_iff]

theorem signalName_mem (externalSignal : Option (SignalFacts K)) (supportContacts : ℕ)
    (mapping : ScorerMapping K) :
    signalName externalSignal supportContacts mapping ∈ externalSignalNames := by
  unfold signalName externalSignalNames
  split
  · simp
  · split
    · simp
    · split
      · simp
      · split
        · split <;> simp
        · simp

theorem getD_mem {d : Dict String String} {categories : List String} {default : String}
    (hvalues : ∀ v ∈ d.values, v ∈ categories) (hdefault : default ∈ categories) (k : String) :
    (d.get? k).getD default ∈ categories := by
  cases hget : d.get? k with
  | none => exact hdefault
  | some v => exact hvalues v (List.mem_map.mpr ⟨(k, v), Dict.get?_eq_some.mp hget, rfl⟩)

variable [IsStrictOrderedRing K]

theorem inUnit_trend (recent priorA priorB : K) : InUnit (trend recent priorA priorB) := by
  have hone : (-1 : K) ≤ 1 := by linarith [zero_lt_one (α := K)]
  unfold trend
  dsimp only
  split
  · exact ⟨by linarith [zero_lt_one (α := K)], zero_le_one⟩
  · exact ⟨le_max_left _ _, max_le hone (min_le_left _ _)⟩

/-- **The last transaction** was 0 to 60 days ago, and less than 30 if there is
a recent one. -/
theorem recency_mem {txns : List CanonicalEvent} (hpast : ∀ e ∈ txns, e.occurredAt ≤ now)
    (hsorted : txns.Pairwise fun e e' => e.occurredAt ≤ e'.occurredAt) :
    let recency : K := match txns.getLast? with
      | some e => min (days clock (now - e.occurredAt)) (maxRecencyDays : K)
      | none => maxRecencyDays
    0 ≤ recency ∧ recency ≤ 60 ∧
      ((∃ e ∈ txns, now - snapshotWindowDays * clock.day < e.occurredAt) → recency < 30) := by
  have hday : (0 : K) < clock.day := Int.cast_pos.mpr clock.day_pos
  have hmax : (maxRecencyDays : K) = 60 := by norm_num [maxRecencyDays]
  dsimp only
  rw [hmax]
  cases hlast : txns.getLast? with
  | none =>
      rw [List.getLast?_eq_none_iff.mp hlast]
      refine ⟨by norm_num, le_rfl, ?_⟩
      rintro ⟨e, he, -⟩
      cases he
  | some last =>
      dsimp only
      obtain ⟨earlier, rfl⟩ := List.getLast?_eq_some_iff.mp hlast
      have hnow : last.occurredAt ≤ now := hpast last (by simp)
      refine ⟨le_min ?_ (by norm_num), min_le_right _ _, ?_⟩
      · unfold days
        exact div_nonneg (Int.cast_nonneg (sub_nonneg.mpr hnow)) hday.le
      · rintro ⟨e, he, hrecent⟩
        have hle : e.occurredAt ≤ last.occurredAt := by
          rcases List.mem_append.mp he with he | he
          · exact (List.pairwise_append.mp hsorted).2.2 e he last (by simp)
          · rw [List.mem_singleton.mp he]
        refine min_lt_of_left_lt ?_
        unfold days
        rw [div_lt_iff₀ hday]
        have hwindow : now - last.occurredAt < snapshotWindowDays * clock.day :=
          sub_lt_comm.mp (hrecent.trans_le hle)
        have hcast : ((now - last.occurredAt : ℤ) : K) <
            ((snapshotWindowDays * clock.day : ℤ) : K) := Int.cast_lt.mpr hwindow
        rw [Int.cast_mul] at hcast
        exact hcast.trans_eq (by norm_num [snapshotWindowDays])

variable [FloorRing K]

/-- What is cut off from 0 to 60 days. -/
theorem truncate_mem {x : K} (hnonneg : 0 ≤ x) (hle : x ≤ 60) :
    0 ≤ truncate x ∧ truncate x ≤ 60 ∧ (x < 30 → truncate x < 30) := by
  unfold truncate
  rw [if_pos hnonneg]
  refine ⟨Int.floor_nonneg.mpr hnonneg, ?_, fun hlt => ?_⟩
  · have hfloor := (Int.floor_le x).trans hle
    exact_mod_cast hfloor
  · exact Int.floor_lt.mpr (by exact_mod_cast hlt)

/-- **The features are in the ranges of the scorer's context exactly if the
recent transactions have at most 30 calendar dates**, for events without
negative amounts, a mapping onto the schema and a signal of the feed. -/
theorem buildOffsetFeatures_inRange_iff (pandas : Pandas K) (upper : String → String)
    (events : List OffsetEvent) (now : Timestamp) (attributes : Option (Dict String String))
    (externalSignal : Option (SignalFacts K)) (profileType : String) (businessValueIdr : K)
    (mapping : ScorerMapping K) (hmapping : mapping.WellFormed)
    (hamounts : ∀ e ∈ events, ∀ amount ∈ e.event.amountIdr, 0 ≤ amount)
    (hsignal : ∀ s ∈ externalSignal, ∃ signal : ExternalSignal K, s.value = signal.value) :
    ∃ f, buildOffsetFeatures upper events now attributes externalSignal profileType
        businessValueIdr mapping = some f ∧
      (f.InRange pandas mapping ↔ AtMostDates 30 now events) := by
  have hscale : ¬ (mapping.amountScaleIdr = 0 ∨ mapping.businessValueScaleIdr = 0) := by
    rintro (hzero | hzero)
    · exact hmapping.amountScale.ne' hzero
    · exact hmapping.businessValueScale.ne' hzero
  unfold buildOffsetFeatures buildSnapshotFeatures
  dsimp only
  rw [if_neg hscale, Option.map_some]
  refine ⟨_, rfl, ?_⟩
  rw [← activeDays_le_iff]
  have hrecent : (window microsecondsClock _ now 0).Perm _ :=
    perm_window_zero (events.map OffsetEvent.event)
  have hpast : ∀ e ∈ (((events.map OffsetEvent.event).filter fun e => e.occurredAt ≤ now).filter
      fun e => e.eventType ∈ transactionEventTypes).insertionSort fun e e' =>
        e.occurredAt ≤ e'.occurredAt, e.occurredAt ≤ now := by
    intro e he
    have hmem := List.mem_of_mem_filter ((List.perm_insertionSort _ _).mem_iff.mp he)
    exact of_decide_eq_true (List.mem_filter.mp hmem).2
  obtain ⟨hnonneg, hle, hlt⟩ := @recency_mem K _ _ now microsecondsClock _ _ hpast
    (List.pairwise_insertionSort _ _)
  obtain ⟨hzero, hsixty, hthirty⟩ := truncate_mem hnonneg hle
  generalize (((events.map OffsetEvent.event).filter fun e => e.occurredAt ≤ now).filter
    fun e => e.eventType ∈ transactionEventTypes).insertionSort (fun e e' =>
      e.occurredAt ≤ e'.occurredAt) = txns at *
  have hcount : (window microsecondsClock txns now 0).length =
      (recentEvents now events).length := by
    rw [hrecent.length_eq, ← map_event_recentEvents, List.length_map]
  have htotal : 0 ≤ amountOf mapping (window microsecondsClock txns now 0) := by
    refine div_nonneg (Int.cast_nonneg (List.sum_nonneg ?_)) hmapping.amountScale.le
    intro amount hamount
    obtain ⟨e, he, rfl⟩ := List.mem_map.mp hamount
    obtain ⟨e', he', rfl⟩ := List.mem_map.mp (List.mem_of_mem_filter (hrecent.mem_iff.mp he))
    cases hnull : e'.event.amountIdr with
    | none => exact le_rfl
    | some amount => exact hamounts e' he' amount hnull
  have hsomeRecent : 0 < (window microsecondsClock txns now 0).length → ∃ e ∈ txns,
      now - snapshotWindowDays * microsecondsClock.day < e.occurredAt := by
    intro hpos
    obtain ⟨e, he⟩ := List.exists_mem_of_length_pos hpos
    exact ⟨e, List.mem_of_mem_filter he,
      (of_decide_eq_true (List.mem_filter.mp (hrecent.mem_iff.mp he)).2).2.1⟩
  generalize hf : SnapshotFeatures.mk _ _ _ _ _ _ _ _ _ _ _ _ = f
  have hvocabulary : f.InVocabulary := by
    rw [← hf]
    refine ⟨getD_mem hmapping.profileByType hmapping.defaultProfile _, ?_, signalName_mem _ _ _⟩
    cases hcode : (attributes.getD .empty).get? "region_code" with
    | none => exact hmapping.defaultRegion
    | some code => exact getD_mem hmapping.regionByCode hmapping.defaultRegion code
  have haccepted : checkFeatures pandas [f.row] = .ok () := hvocabulary.accepted
  subst hf
  constructor
  · exact fun h => h.activeDays_le.trans (min_le_right _ _)
  · intro hdays
    refine ⟨hvocabulary, le_min (activeDays_le_length.trans_eq hcount.symm) hdays,
      activeDays_pos_iff.trans (by rw [hcount]), ⟨hzero, hsixty⟩,
      fun hpos => hthirty (hlt (hsomeRecent hpos)), ?_, htotal, inUnit_trend _ _ _,
      inUnit_trend _ _ _, ?_, ⟨le_min (le_max_right _ _) hmapping.range, min_le_right _ _⟩,
      haccepted⟩
    · by_cases hempty : (window microsecondsClock txns now 0).length = 0
      · have hnil := List.eq_nil_of_length_eq_zero hempty
        simp [hnil, amountOf]
      · dsimp only
        rw [if_pos hempty, div_mul_cancel₀ _ (Nat.cast_ne_zero.mpr hempty)]
    · cases hs : externalSignal with
      | none => exact ⟨by norm_num, zero_le_one⟩
      | some s =>
          obtain ⟨signal, hvalue⟩ := hsignal s hs
          have hunit : InUnit s.value := by
            rw [hvalue]
            exact signal.value_mem
          exact hunit

end Ranges

/-- What pandas makes of texts that are no numbers, and of whole numbers. -/
def samplePandas : Pandas ℚ where
  toNumeric _ := none
  astypeStr x := toString x.num

/-- A mapping of the sample values is one onto the schema. -/
theorem wellFormed_sampleScorerMapping : sampleScorerMapping.WellFormed :=
  ⟨by decide +kernel, by decide +kernel, by decide +kernel, by decide, by decide, by decide,
    by decide⟩

/-- A payment at noon of ten days. -/
theorem buildOffsetFeatures_inRange_iff_ten :
    ∃ f, buildOffsetFeatures id
        ((List.range 10).map fun k => paymentWithOffset (k * 86400000000 + 43200000000) 0)
        950400000000 none none "WALLET" 300000 sampleScorerMapping = some f ∧
      (f.InRange samplePandas sampleScorerMapping ↔ AtMostDates 30 950400000000
        ((List.range 10).map fun k => paymentWithOffset (k * 86400000000 + 43200000000) 0)) := by
  refine buildOffsetFeatures_inRange_iff _ _ _ _ _ _ _ _ _ wellFormed_sampleScorerMapping ?_ nofun
  intro e he amount hamount
  obtain ⟨k, -, rfl⟩ := List.mem_map.mp he
  obtain rfl := Option.some.inj hamount
  decide

/-- Payments on 31 dates in 30 days: one in the afternoon of the first, one in
the morning of the last, and one at noon of the others. -/
def dailyPayments : List OffsetEvent :=
  paymentWithOffset 46800000000 0 :: paymentWithOffset 2631600000000 0 ::
    (List.range 29).map fun k => paymentWithOffset ((k + 1) * 86400000000 + 43200000000) 0

/-- **There can be 31 active days in 30 days**, which is not in the ranges of
the scorer's context. -/
theorem not_buildOffsetFeatures_inRange :
    ¬ ∀ (events : List OffsetEvent) (now : Timestamp) (f : SnapshotFeatures ℚ),
      (∀ e ∈ events, ∀ amount ∈ e.event.amountIdr, 0 ≤ amount) →
        buildOffsetFeatures id events now none none "WALLET" 300000 sampleScorerMapping = some f →
          f.InRange samplePandas sampleScorerMapping := by
  intro hlaw
  have hamounts : ∀ e ∈ dailyPayments, ∀ amount ∈ e.event.amountIdr, 0 ≤ amount := by
    decide +kernel
  have hdays : (buildOffsetFeatures id dailyPayments 2635200000000 none none "WALLET" 300000
      sampleScorerMapping).map SnapshotFeatures.activeDays30d = some 31 := by decide +kernel
  obtain ⟨f, hf, hactive⟩ := Option.map_eq_some_iff.mp hdays
  have hle := (hlaw dailyPayments 2635200000000 f hamounts hf).activeDays_le
  rw [hactive] at hle
  exact absurd (hle.trans (min_le_right _ _)) (by decide)

end ChurnRisk

end RetentionEngine
