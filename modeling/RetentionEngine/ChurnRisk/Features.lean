import RetentionEngine.Common.SortKeys
import RetentionEngine.Contracts.Event
import RetentionEngine.Contracts.Explanation
import Mathlib.Algebra.Order.Field.Basic
import Mathlib.Algebra.Order.Ring.Cast
import Mathlib.Data.List.Sort
import Mathlib.Tactic.Linarith

/-!
# Churn features

`churn_risk.features.build_features`, and what a loaded window makes of it.
A feature reads the sorted instants of the events (`times`) or the amounts
of the recent ones. Sorted, the events of a window are the end of the
events of the whole history, which keeps the last event and every recent
one; the first event it keeps only if nothing came before the window, or
if a year is over already.
-/

namespace RetentionEngine

namespace ChurnRisk

/-- `ACTIVITY_WINDOW_DAYS`. -/
def activityWindowDays : ℤ := 30

/-- `MAX_DAYS`. -/
def maxDays : ℤ := 365

/-- The dictionary of `build_features`, by `FEATURE_COLUMNS`. -/
structure Features (K : Type*) where
  recencyDays : K
  frequency30d : K
  monetary30dIdr : K
  tenureDays : K
  sessionGapDays : K
  deltaStability : K
  circleSize : K
  patternCircleSpecific : K
  patternMarketDriven : K
  patternStable : K
  externalSignalValue : K
  deriving DecidableEq, Repr

variable {K : Type*} [Field K] [LinearOrder K]

/-- `days`. -/
def days (clock : Clock) (delta : ℤ) : K := delta / clock.day

/-- `session_gap`, of the recent events. -/
def sessionGap (clock : Clock) (recent : List CanonicalEvent) : K :=
  match recent.head?, recent.getLast? with
  | some first, some last =>
      if 2 ≤ recent.length then
        days clock (last.occurredAt - first.occurredAt) / ((recent.length - 1 : ℤ) : K)
      else activityWindowDays
  | _, _ => activityWindowDays

/-- The events up to `now`, sorted. -/
def sortedUntil (events : List CanonicalEvent) (now : Timestamp) : List CanonicalEvent :=
  (events.filter fun e => e.occurredAt ≤ now).insertionSort
    fun e e' => e.occurredAt ≤ e'.occurredAt

/-- `recency`, of sorted events. -/
def recency (clock : Clock) (now : Timestamp) (events : List CanonicalEvent) : K :=
  match events.getLast? with
  | some e => days clock (now - e.occurredAt)
  | none => maxDays

/-- `tenure`, of sorted events. -/
def tenure (clock : Clock) (now : Timestamp) (events : List CanonicalEvent) : K :=
  match events.head? with
  | some e => days clock (now - e.occurredAt)
  | none => 0

/-- `build_features`. -/
def buildFeatures (clock : Clock) (events : List CanonicalEvent)
    (circleSnapshot : Option (CircleSnapshot K)) (externalSignal : Option (SignalFacts K))
    (now : Timestamp) : Features K :=
  let events := sortedUntil events now
  let windowStart := now - activityWindowDays * clock.day
  let recent := events.filter fun e => windowStart ≤ e.occurredAt
  let pattern : PatternType := match circleSnapshot with
    | some c => c.patternType
    | none => .stable
  { recencyDays := min (recency clock now events) maxDays
    frequency30d := recent.length
    monetary30dIdr := ((recent.map fun e => e.amountIdr.getD 0).sum : ℤ)
    tenureDays := min (tenure clock now events) maxDays
    sessionGapDays := sessionGap clock recent
    deltaStability := match circleSnapshot with
      | some c => c.deltaStability
      | none => 0
    circleSize := match circleSnapshot with
      | some c => c.circleSize
      | none => 0
    patternCircleSpecific := if pattern = .circleSpecific then 1 else 0
    patternMarketDriven := if pattern = .marketDriven then 1 else 0
    patternStable := if pattern = .stable then 1 else 0
    externalSignalValue := match externalSignal with
      | some s => s.value
      | none => 0 }

/-! ## A loaded window -/

/-- The events of a user that INGEST loads: those of the last `windowDays`, one
lookback and one activity window. -/
def eventsByUser (clock : Clock) (windowDays : ℤ) (history : List CanonicalEvent)
    (user : String) (now : Timestamp) : List CanonicalEvent :=
  ((history.filter fun e => now - windowDays * clock.day ≤ e.occurredAt).filter
    fun e => e.occurredAt ≤ now).filter fun e => e.userPseudonym = user

/-- The events of a user up to `now`. -/
def historyOf (history : List CanonicalEvent) (user : String) (now : Timestamp) :
    List CanonicalEvent :=
  (history.filter fun e => e.occurredAt ≤ now).filter fun e => e.userPseudonym = user

variable {clock : Clock} {windowDays : ℤ} {history : List CanonicalEvent} {user : String}
  {now : Timestamp}

instance : IsTrans CanonicalEvent fun e e' => e.occurredAt ≤ e'.occurredAt :=
  ⟨fun _ _ _ => le_trans⟩

instance : Std.Total fun e e' : CanonicalEvent => e.occurredAt ≤ e'.occurredAt :=
  ⟨fun e e' => le_total e.occurredAt e'.occurredAt⟩

/-- **Sorted, the loaded events are the end of the history.** -/
theorem sortedUntil_historyOf (clock : Clock) (windowDays : ℤ) (history : List CanonicalEvent)
    (user : String) (now : Timestamp) : sortedUntil (historyOf history user now) now =
      ((sortedUntil (historyOf history user now) now).filter fun e =>
        e.occurredAt < now - windowDays * clock.day) ++
        sortedUntil (eventsByUser clock windowDays history user now) now := by
  have hloaded : sortedUntil (eventsByUser clock windowDays history user now) now =
      (sortedUntil (historyOf history user now) now).filter fun e =>
        now - windowDays * clock.day ≤ e.occurredAt := by
    unfold sortedUntil eventsByUser historyOf
    rw [filter_insertionSort]
    simp only [List.filter_filter]
    congr 1
    refine List.filter_congr fun e _ => ?_
    grind
  rw [hloaded]
  exact (filter_lt_append_filter_le _ (List.pairwise_insertionSort _ _)).symm

theorem mem_sortedUntil {events : List CanonicalEvent} {e : CanonicalEvent} :
    e ∈ sortedUntil events now ↔ e ∈ events ∧ e.occurredAt ≤ now := by
  unfold sortedUntil
  rw [List.mem_insertionSort, List.mem_filter, decide_eq_true_eq]

theorem of_mem_eventsByUser {e : CanonicalEvent}
    (he : e ∈ eventsByUser clock windowDays history user now) :
    now - windowDays * clock.day ≤ e.occurredAt ∧ e.occurredAt ≤ now := by
  unfold eventsByUser at he
  simp only [List.mem_filter, decide_eq_true_eq] at he
  exact ⟨he.1.1.2, he.1.2⟩

theorem le_of_mem_historyOf {e : CanonicalEvent} (he : e ∈ historyOf history user now) :
    e.occurredAt ≤ now := by
  unfold historyOf at he
  simp only [List.mem_filter, decide_eq_true_eq] at he
  exact he.1.2

section Loaded

variable [IsStrictOrderedRing K]

theorem days_lt_days {a b : ℤ} : (days clock a : K) < days clock b ↔ a < b := by
  unfold days
  rw [div_lt_div_iff_of_pos_right (Int.cast_pos.mpr clock.day_pos), Int.cast_lt]

theorem maxDays_le_days {a : ℤ} : (maxDays : K) ≤ days clock a ↔ maxDays * clock.day ≤ a := by
  unfold days
  rw [le_div_iff₀ (Int.cast_pos.mpr clock.day_pos), ← Int.cast_mul, Int.cast_le]

/-- **The tenure of a history** is that of its end exactly if the end is all
of it, or is over a year old. -/
theorem tenure_append_iff {older loaded : List CanonicalEvent} {e : CanonicalEvent}
    (holder : ∀ e' ∈ older, e'.occurredAt < e.occurredAt) :
    min (tenure clock now (e :: loaded)) (maxDays : K) =
        min (tenure clock now (older ++ e :: loaded)) (maxDays : K) ↔
      older = [] ∨ maxDays * clock.day ≤ now - e.occurredAt := by
  cases older with
  | nil => simp
  | cons o older =>
      have hlt : (days clock (now - e.occurredAt) : K) < days clock (now - o.occurredAt) :=
        days_lt_days.mpr (Int.sub_lt_sub_left (holder o List.mem_cons_self) now)
      show min (days clock (now - e.occurredAt)) (maxDays : K) =
        min (days clock (now - o.occurredAt)) (maxDays : K) ↔ _
      rw [← maxDays_le_days (K := K)]
      refine ⟨fun heq => Or.inr ?_, fun h => ?_⟩
      · by_contra hcap
        rw [not_le] at hcap
        rw [min_eq_left hcap.le] at heq
        exact absurd heq (lt_min hlt hcap).ne
      · have hcap := h.resolve_left (List.cons_ne_nil _ _)
        rw [min_eq_right hcap, min_eq_right (hcap.trans hlt.le)]

omit [IsStrictOrderedRing K] in
/-- **All other columns agree**, and the tenure says whether this one does. -/
theorem buildFeatures_append_iff {events events' older loaded : List CanonicalEvent}
    (circle : Option (CircleSnapshot K)) (signal : Option (SignalFacts K))
    (hloaded : sortedUntil events now = loaded) (hne : loaded ≠ [])
    (hall : sortedUntil events' now = older ++ loaded)
    (holder : ∀ e ∈ older, e.occurredAt < now - activityWindowDays * clock.day) :
    buildFeatures clock events circle signal now = buildFeatures clock events' circle signal now ↔
      min (tenure clock now loaded) (maxDays : K) =
        min (tenure clock now (older ++ loaded)) (maxDays : K) := by
  have hlast : (recency clock now (older ++ loaded) : K) = recency clock now loaded := by
    unfold recency
    rw [List.getLast?_append_of_ne_nil _ hne]
  have hrecent : (older ++ loaded).filter
      (fun e => now - activityWindowDays * clock.day ≤ e.occurredAt) =
        loaded.filter fun e => now - activityWindowDays * clock.day ≤ e.occurredAt := by
    rw [List.filter_append, List.filter_eq_nil_iff.mpr, List.nil_append]
    intro e he
    rw [decide_eq_true_eq, not_le]
    exact holder e he
  unfold buildFeatures
  simp only [hloaded, hall, hlast, hrecent, Features.mk.injEq, true_and, and_true]

/-- **Where the features of a run are those of the history**: where the user
has no event before the loaded window, or a loaded one is a year old. -/
theorem buildFeatures_loaded_iff (clock : Clock) (windowDays : ℤ) (history : List CanonicalEvent)
    (user : String) (now : Timestamp) (circle : Option (CircleSnapshot K))
    (signal : Option (SignalFacts K)) (hwindow : activityWindowDays ≤ windowDays)
    (huser : eventsByUser clock windowDays history user now ≠ []) :
    buildFeatures clock (eventsByUser clock windowDays history user now) circle signal now =
        buildFeatures clock (historyOf history user now) circle signal now ↔
      (∀ e ∈ historyOf history user now, now - windowDays * clock.day ≤ e.occurredAt) ∨
        ∃ e ∈ eventsByUser clock windowDays history user now,
          e.occurredAt ≤ now - maxDays * clock.day := by
  have hall := sortedUntil_historyOf clock windowDays history user now
  have holder : ∀ e ∈ (sortedUntil (historyOf history user now) now).filter fun e =>
      e.occurredAt < now - windowDays * clock.day, e.occurredAt < now - windowDays * clock.day :=
    fun e he => of_decide_eq_true (List.mem_filter.mp he).2
  have hwindow' : now - windowDays * clock.day ≤ now - activityWindowDays * clock.day :=
    Int.sub_le_sub_left (mul_le_mul_of_nonneg_right hwindow clock.day_pos.le) now
  have hnone : (sortedUntil (historyOf history user now) now).filter
      (fun e => e.occurredAt < now - windowDays * clock.day) = [] ↔
        ∀ e ∈ historyOf history user now, now - windowDays * clock.day ≤ e.occurredAt := by
    rw [List.filter_eq_nil_iff]
    simp only [decide_eq_true_eq, not_lt, mem_sortedUntil]
    exact ⟨fun h e he => h e ⟨he, le_of_mem_historyOf he⟩, fun h e he => h e he.1⟩
  generalize (sortedUntil (historyOf history user now) now).filter
    (fun e => e.occurredAt < now - windowDays * clock.day) = older at hall holder hnone
  cases hloaded : sortedUntil (eventsByUser clock windowDays history user now) now with
  | nil =>
      obtain ⟨e, he⟩ := List.exists_mem_of_ne_nil _ huser
      have hmem := mem_sortedUntil.mpr ⟨he, (of_mem_eventsByUser he).2⟩
      rw [hloaded] at hmem
      simp at hmem
  | cons first rest =>
      rw [hloaded] at hall
      have hmem : ∀ e, e ∈ first :: rest ↔ e ∈ eventsByUser clock windowDays history user now := by
        intro e
        rw [← hloaded, mem_sortedUntil]
        exact ⟨fun h => h.1, fun h => ⟨h, (of_mem_eventsByUser h).2⟩⟩
      have hfirst := (hmem first).mp List.mem_cons_self
      have hbefore : ∀ e ∈ older, e.occurredAt < first.occurredAt := fun e he =>
        (holder e he).trans_le (of_mem_eventsByUser hfirst).1
      have hsorted : (first :: rest).Pairwise fun e e' => e.occurredAt ≤ e'.occurredAt :=
        hloaded ▸ List.pairwise_insertionSort _ _
      rw [buildFeatures_append_iff circle signal hloaded (List.cons_ne_nil _ _) hall
        fun e he => (holder e he).trans_le hwindow', tenure_append_iff hbefore, hnone]
      refine or_congr_right ⟨fun hyear => ⟨first, hfirst, by linarith⟩, ?_⟩
      -- the first loaded event is as old as any
      rintro ⟨e, he, hyear⟩
      rcases List.mem_cons.mp ((hmem e).mpr he) with rfl | hrest
      · linarith
      · have hle := (List.pairwise_cons.mp hsorted).1 e hrest
        linarith

end Loaded

/-! ### A user of long standing -/

/-- A payment. -/
def payment (occurredAt : Timestamp) : CanonicalEvent where
  clientEventId := "e"
  eventType := .payment
  occurredAt := occurredAt
  userPseudonym := "u1"
  amountIdr := some 50000
  counterpartyPseudonym := none
  attributes := []
theorem buildFeatures_loaded_iff_recent :
    (buildFeatures secondsClock (eventsByUser secondsClock 120 [payment (-86400)] "u1" 0) none
      none 0 : Features ℚ) =
        buildFeatures secondsClock (historyOf [payment (-86400)] "u1" 0) none none 0 :=
  (buildFeatures_loaded_iff secondsClock 120 [payment (-86400)] "u1" 0 none none (by decide)
    (by decide)).mpr (Or.inl (by decide))

/-- One payment a day ago and one 130 days ago, with the default windows: the
run's tenure is a day. -/
theorem not_buildFeatures_loaded :
    eventsByUser secondsClock 120 [payment (-86400), payment (-11232000)] "u1" 0 ≠ [] ∧
      (buildFeatures secondsClock
        (eventsByUser secondsClock 120 [payment (-86400), payment (-11232000)] "u1" 0) none none
          0 : Features ℚ).tenureDays = 1 ∧
      (buildFeatures secondsClock
        (historyOf [payment (-86400), payment (-11232000)] "u1" 0) none none
          0 : Features ℚ).tenureDays = 130 := by
  decide +kernel

end ChurnRisk

end RetentionEngine
