import RetentionEngine.ChurnRisk.Features
import RetentionEngine.Common.Dict
import RetentionEngine.GraphSignal.Snapshot
import Mathlib.Algebra.Order.Floor.Ring

/-!
# The features of the trained scorer

`churn_risk.snapshot_features`, and that nothing after the snapshot reaches
a feature: both feature builders and the graph read the events up to `now`
and no others, so that events added later in time, wherever they stand in
the list, are not there for them.
-/

namespace RetentionEngine

namespace ChurnRisk

/-- `TRANSACTION_EVENT_TYPES`. -/
def transactionEventTypes : List CanonicalEventType :=
  [.payment, .p2pTransfer, .topup, .withdrawal, .splitBillCreated, .splitBillSettled,
    .recurringPayment, .loanRepayment]

/-- `WINDOW_DAYS`. -/
def snapshotWindowDays : ℤ := 30

/-- `MAX_RECENCY_DAYS`. -/
def maxRecencyDays : ℤ := 60

/-- **`mapping`**, the vocabulary and the scales. -/
structure ScorerMapping (K : Type*) where
  supportFrictionMinContacts : ℤ
  positiveThreshold : K
  negativeThreshold : K
  amountScaleIdr : K
  businessValueScaleIdr : K
  baseBusinessValueRange : K × K
  profileByType : Dict String String
  defaultProfile : String
  regionByCode : Dict String String
  defaultRegion : String

/-- The dictionary of `build_snapshot_features`, by `SNAPSHOT_FEATURE_COLUMNS`. -/
structure SnapshotFeatures (K : Type*) where
  clientProfile : String
  region : String
  txnCount30d : ℕ
  activeDays30d : ℕ
  daysSinceLastTxn : ℤ
  avgAmount30d : K
  totalAmount30d : K
  amountTrend90d : K
  activityTrend90d : K
  externalSentiment : K
  externalSignalName : String
  baseBusinessValue : K
  deriving DecidableEq, Repr

/-- **What the language gives**: `str.upper`, and the date of an event in the
time zone it came in. -/
structure Calendar where
  upper : String → String
  dateOf : CanonicalEvent → ℤ

variable {K : Type*} [Field K] [LinearOrder K]

/-- `_trend`. -/
def trend (recent priorA priorB : K) : K :=
  let baseline := (priorA + priorB) / ((2 : ℕ) : K)
  let scale := max recent baseline
  if scale ≤ 0 then 0 else max (-1) (min 1 ((recent - baseline) / scale))

/-- `signal_name`. -/
def signalName (externalSignal : Option (SignalFacts K)) (supportContacts : ℕ)
    (mapping : ScorerMapping K) : String :=
  if mapping.supportFrictionMinContacts ≤ supportContacts then "support_friction"
  else
    match externalSignal with
    | none => "stable"
    | some s =>
        if mapping.positiveThreshold ≤ s.value then "positive_momentum"
        else if s.value ≤ -mapping.negativeThreshold then
          if s.scopeType = .cohort ∨ s.signalType = .sectorTrend then "income_pressure"
          else "competitor_pull"
        else "stable"

/-- The `k`th window of transactions, counted back from `now`. -/
def window (clock : Clock) (txns : List CanonicalEvent) (now : Timestamp) (k : ℤ) :
    List CanonicalEvent :=
  txns.filter fun e => now - snapshotWindowDays * (k + 1) * clock.day < e.occurredAt ∧
    e.occurredAt ≤ now - snapshotWindowDays * k * clock.day

/-- The amount of a window, in the scorer's unit. -/
def amountOf (mapping : ScorerMapping K) (window : List CanonicalEvent) : K :=
  ((window.map fun e => e.amountIdr.getD 0).sum : ℤ) / mapping.amountScaleIdr

variable [FloorRing K]

/-- `int(x)`. -/
def truncate (x : K) : ℤ := if 0 ≤ x then ⌊x⌋ else -⌊-x⌋

/-- `build_snapshot_features`; `none` where a scale of the mapping is zero,
and the division raises. -/
def buildSnapshotFeatures (calendar : Calendar) (clock : Clock) (events : List CanonicalEvent)
    (now : Timestamp) (attributes : Option (Dict String String))
    (externalSignal : Option (SignalFacts K)) (profileType : String) (businessValueIdr : K)
    (mapping : ScorerMapping K) : Option (SnapshotFeatures K) :=
  let attributes := attributes.getD .empty
  let past := events.filter fun e => e.occurredAt ≤ now
  let txns := (past.filter fun e => e.eventType ∈ transactionEventTypes).insertionSort
    fun e e' => e.occurredAt ≤ e'.occurredAt
  let supportContacts := (past.filter fun e => e.eventType = .supportContact ∧
    now - snapshotWindowDays * clock.day < e.occurredAt).length
  let recent := window clock txns now 0
  let priorA := window clock txns now 1
  let priorB := window clock txns now 2
  let recency : K := match txns.getLast? with
    | some e => min (days clock (now - e.occurredAt)) (maxRecencyDays : K)
    | none => maxRecencyDays
  if mapping.amountScaleIdr = 0 ∨ mapping.businessValueScaleIdr = 0 then none
  else some
    { clientProfile := (mapping.profileByType.get? (calendar.upper profileType)).getD
        mapping.defaultProfile
      region := ((attributes.get? "region_code").bind mapping.regionByCode.get?).getD
        mapping.defaultRegion
      txnCount30d := recent.length
      activeDays30d := (recent.map calendar.dateOf).dedup.length
      daysSinceLastTxn := truncate recency
      avgAmount30d := if recent.length ≠ 0 then amountOf mapping recent / recent.length else 0
      totalAmount30d := amountOf mapping recent
      amountTrend90d := trend (amountOf mapping recent) (amountOf mapping priorA)
        (amountOf mapping priorB)
      activityTrend90d := trend (recent.length : K) priorA.length priorB.length
      externalSentiment := match externalSignal with
        | some s => s.value
        | none => 0
      externalSignalName := signalName externalSignal supportContacts mapping
      baseBusinessValue := min (max (businessValueIdr / mapping.businessValueScaleIdr)
        mapping.baseBusinessValueRange.1) mapping.baseBusinessValueRange.2 }

/-! ## Nothing later is read -/

/-- **Further events after `now`**, inserted anywhere. -/
inductive LaterInserted (now : Timestamp) : List CanonicalEvent → List CanonicalEvent → Prop
  | nil : LaterInserted now [] []
  | keep {l l' : List CanonicalEvent} (e : CanonicalEvent) (h : LaterInserted now l l') :
      LaterInserted now (e :: l) (e :: l')
  | later {l l' : List CanonicalEvent} {e : CanonicalEvent} (hlater : now < e.occurredAt)
      (h : LaterInserted now l l') : LaterInserted now l (e :: l')

variable {now : Timestamp} {events events' : List CanonicalEvent}

/-- The events up to `now` stay what they are. -/
theorem LaterInserted.filter_eq (h : LaterInserted now events events') :
    events'.filter (fun e => e.occurredAt ≤ now) = events.filter fun e => e.occurredAt ≤ now := by
  induction h with
  | nil => rfl
  | keep e _ ih => rw [List.filter_cons, List.filter_cons, ih]
  | later hlater _ ih =>
      rw [List.filter_cons_of_neg, ih]
      rw [decide_eq_true_eq, not_le]
      exact hlater

omit [FloorRing K] in
theorem LaterInserted.buildFeatures_eq (h : LaterInserted now events events') (clock : Clock)
    (circle : Option (CircleSnapshot K)) (signal : Option (SignalFacts K)) :
    buildFeatures clock events' circle signal now =
      buildFeatures clock events circle signal now := by
  have hsorted : sortedUntil events' now = sortedUntil events now := by
    unfold sortedUntil
    rw [h.filter_eq]
  unfold buildFeatures
  rw [hsorted]

omit [FloorRing K] in
theorem LaterInserted.snapshotUsers_eq (h : LaterInserted now events events')
    (s : GraphSignal.SnapshotSettings K) (users : List String)
    (hwindow : 0 ≤ s.activityWindowDays) :
    GraphSignal.snapshotUsers s events' users now =
      GraphSignal.snapshotUsers s events users now := by
  have hread : ∀ e, s.Reads now e → decide (e.occurredAt ≤ now) = true := fun e he =>
    decide_eq_true (he.le hwindow)
  calc GraphSignal.snapshotUsers s events' users now
      = GraphSignal.snapshotUsers s (events'.filter _) users now :=
        (GraphSignal.snapshotUsers_filter hread).symm
    _ = GraphSignal.snapshotUsers s (events.filter _) users now := by rw [h.filter_eq]
    _ = GraphSignal.snapshotUsers s events users now := GraphSignal.snapshotUsers_filter hread

/-- **Nothing after the snapshot leaks in**, with an activity window that is
not negative: the later events change no feature, no edge and no circle. -/
theorem nothing_later (h : LaterInserted now events events') (calendar : Calendar) (clock : Clock)
    (circle : Option (CircleSnapshot K)) (signal : Option (SignalFacts K))
    (attributes : Option (Dict String String)) (profileType : String) (businessValueIdr : K)
    (mapping : ScorerMapping K) (s : GraphSignal.SnapshotSettings K) (users : List String)
    (hwindow : 0 ≤ s.activityWindowDays) :
    buildFeatures clock events' circle signal now =
        buildFeatures clock events circle signal now ∧
      buildSnapshotFeatures calendar clock events' now attributes signal profileType
          businessValueIdr mapping =
        buildSnapshotFeatures calendar clock events now attributes signal profileType
          businessValueIdr mapping ∧
      GraphSignal.snapshotUsers s events' users now =
        GraphSignal.snapshotUsers s events users now := by
  refine ⟨h.buildFeatures_eq clock circle signal, ?_, h.snapshotUsers_eq s users hwindow⟩
  unfold buildSnapshotFeatures
  rw [h.filter_eq]

/-- A payment of tomorrow. -/
theorem nothing_later_tomorrow :
    (buildFeatures secondsClock [payment 86400, payment 0] none none 0 : Features ℚ) =
        buildFeatures secondsClock [payment 0] none none 0 ∧
      buildSnapshotFeatures (K := ℚ) ⟨id, fun e => e.occurredAt / 86400⟩ secondsClock
          [payment 86400, payment 0] 0 none none "WALLET" 150000
          ⟨2, 1 / 10, 1 / 10, 1000, 25000, (10, 465), .empty, "Everyday Wallet", .empty,
            "Central"⟩ =
        buildSnapshotFeatures ⟨id, fun e => e.occurredAt / 86400⟩ secondsClock
          [payment 0] 0 none none "WALLET" 150000
          ⟨2, 1 / 10, 1 / 10, 1000, 25000, (10, 465), .empty, "Everyday Wallet", .empty,
            "Central"⟩ ∧
      GraphSignal.snapshotUsers GraphSignal.sampleSettings [payment 86400, payment 0] ["u1"] 0 =
        GraphSignal.snapshotUsers GraphSignal.sampleSettings [payment 0] ["u1"] 0 :=
  nothing_later (.later (by decide) (.keep _ .nil)) _ _ _ _ _ _ _ _ _ _ (by decide)

end ChurnRisk

end RetentionEngine
