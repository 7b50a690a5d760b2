import RetentionEngine.ChurnRisk.SnapshotFeatures
import RetentionEngine.Common.Choices
import Mathlib

/-!
# Features and the offsets of timestamps

An `occurred_at` keeps the UTC offset its client wrote it in until Postgres
returns it in another. Comparisons and differences do not see the offset; the
calendar date of `active_days_30d` does.
-/

namespace RetentionEngine

namespace ChurnRisk

/-- Timestamps in microseconds, which offsets are given in as well. -/
def microsecondsClock : Clock := ⟨86400000000, by decide⟩

/-- **An event with the offset of its `occurred_at`**, which is less than a
day. -/
structure OffsetEvent where
  event : CanonicalEvent
  utcOffset : ℤ
  offset_lt : |utcOffset| < 86400000000

/-- `occurred_at.date()`, counted in days. -/
def OffsetEvent.date (e : OffsetEvent) : ℤ :=
  (e.event.occurredAt + e.utcOffset) / microsecondsClock.day

/-- An event is in the first of the `windows`. -/
def Recent (clock : Clock) (now : Timestamp) (e : CanonicalEvent) : Prop :=
  e.eventType ∈ transactionEventTypes ∧
    now - snapshotWindowDays * clock.day < e.occurredAt ∧ e.occurredAt ≤ now

instance (clock : Clock) (now : Timestamp) : DecidablePred (Recent clock now) := fun _ =>
  inferInstanceAs (Decidable (_ ∧ _))

/-- `recent`. -/
def recentEvents (now : Timestamp) (events : List OffsetEvent) : List OffsetEvent :=
  events.filter fun e => Recent microsecondsClock now e.event

/-- `len({e.occurred_at.date() for e in recent})`. -/
def activeDays (now : Timestamp) (events : List OffsetEvent) : ℕ :=
  ((recentEvents now events).map OffsetEvent.date).dedup.length

variable {K : Type*} [Field K] [LinearOrder K] [FloorRing K]

/-- **`build_snapshot_features` of events with offsets**: what no date is in
is that of the events. -/
def buildOffsetFeatures (upper : String → String) (events : List OffsetEvent) (now : Timestamp)
    (attributes : Option (Dict String String)) (externalSignal : Option (SignalFacts K))
    (profileType : String) (businessValueIdr : K) (mapping : ScorerMapping K) :
    Option (SnapshotFeatures K) :=
  (buildSnapshotFeatures ⟨upper, fun _ => 0⟩ microsecondsClock (events.map OffsetEvent.event) now
    attributes externalSignal profileType businessValueIdr mapping).map fun features =>
      { features with activeDays30d := activeDays now events }

/-! ## The recent transactions -/

variable {clock : Clock} {now : Timestamp} {events events' : List OffsetEvent}

omit [FloorRing K] [LinearOrder K] [Field K] in
/-- The first window has the recent transactions. -/
theorem perm_window_zero (l : List CanonicalEvent) :
    (window clock (((l.filter fun e => e.occurredAt ≤ now).filter fun e =>
      e.eventType ∈ transactionEventTypes).insertionSort fun e e' =>
        e.occurredAt ≤ e'.occurredAt) now 0).Perm (l.filter fun e => Recent clock now e) := by
  unfold window
  refine ((List.perm_insertionSort _ _).filter _).trans (List.Perm.of_eq ?_)
  rw [List.filter_filter, List.filter_filter]
  refine List.filter_congr fun e _ => ?_
  unfold Recent
  simp only [Bool.decide_and, zero_add, mul_one, mul_zero, zero_mul, sub_zero]
  grind

omit [FloorRing K] [LinearOrder K] [Field K] in
theorem map_event_recentEvents : (recentEvents now events).map OffsetEvent.event =
    (events.map OffsetEvent.event).filter fun e => Recent microsecondsClock now e := by
  unfold recentEvents
  rw [List.filter_map]
  rfl

/-- **Where the offset is a matter of the event**, the features are those of
the calendar it makes. -/
theorem buildOffsetFeatures_eq (zone : CanonicalEvent → ℤ)
    (hzone : ∀ e ∈ events, e.utcOffset = zone e.event) (upper : String → String)
    (attributes : Option (Dict String String)) (externalSignal : Option (SignalFacts K))
    (profileType : String) (businessValueIdr : K) (mapping : ScorerMapping K) :
    buildOffsetFeatures upper events now attributes externalSignal profileType businessValueIdr
        mapping =
      buildSnapshotFeatures ⟨upper, fun e => (e.occurredAt + zone e) / microsecondsClock.day⟩
        microsecondsClock (events.map OffsetEvent.event) now attributes externalSignal profileType
        businessValueIdr mapping := by
  have hdates : (recentEvents now events).map OffsetEvent.date =
      ((events.map OffsetEvent.event).filter fun e => Recent microsecondsClock now e).map
        fun e => (e.occurredAt + zone e) / microsecondsClock.day := by
    rw [← map_event_recentEvents, List.map_map]
    refine List.map_congr_left fun e he => ?_
    rw [OffsetEvent.date, hzone e (List.mem_filter.mp he).1]
    rfl
  have hwindow : (window microsecondsClock _ now 0).Perm _ :=
    perm_window_zero (events.map OffsetEvent.event)
  have hdays := (hwindow.map fun e =>
    (e.occurredAt + zone e) / microsecondsClock.day).dedup.length_eq
  unfold buildOffsetFeatures buildSnapshotFeatures activeDays
  dsimp only
  rw [hdates, ← hdays]
  split <;> rfl

/-! ## The same instants -/

/-- **The same events, with other offsets.** -/
def SameInstants (events events' : List OffsetEvent) : Prop :=
  events'.map OffsetEvent.event = events.map OffsetEvent.event

/-- Two instants can be written with one calendar date. -/
def CanShareDate (t t' : ℤ) : Prop :=
  ∃ o o' : ℤ, |o| < 86400000000 ∧ |o'| < 86400000000 ∧
    (t + o) / microsecondsClock.day = (t' + o') / microsecondsClock.day

/-- No two recent transactions can. -/
def Separated (now : Timestamp) (events : List OffsetEvent) : Prop :=
  ((events.map OffsetEvent.event).filter fun e => Recent microsecondsClock now e).Pairwise
    fun e e' => ¬ CanShareDate e.occurredAt e'.occurredAt

/-- **Only the active days can differ**, and do where no scale is zero. -/
theorem buildOffsetFeatures_eq_iff (h : SameInstants events events') (upper : String → String)
    (attributes : Option (Dict String String)) (externalSignal : Option (SignalFacts K))
    (profileType : String) (businessValueIdr : K) (mapping : ScorerMapping K) :
    buildOffsetFeatures upper events' now attributes externalSignal profileType businessValueIdr
        mapping =
      buildOffsetFeatures upper events now attributes externalSignal profileType businessValueIdr
        mapping ↔
      (mapping.amountScaleIdr = 0 ∨ mapping.businessValueScaleIdr = 0) ∨
        activeDays now events' = activeDays now events := by
  unfold buildOffsetFeatures
  rw [show events'.map OffsetEvent.event = events.map OffsetEvent.event from h]
  unfold buildSnapshotFeatures
  dsimp only
  by_cases hscale : mapping.amountScaleIdr = 0 ∨ mapping.businessValueScaleIdr = 0
  · rw [if_pos hscale]
    exact iff_of_true rfl (Or.inl hscale)
  · rw [if_neg hscale, Option.map_some, Option.map_some, Option.some.injEq,
      SnapshotFeatures.mk.injEq]
    simp [hscale]

/-- Dates that no two can share are all different. -/
theorem activeDays_of_separated (h : Separated now events) :
    activeDays now events = (recentEvents now events).length := by
  unfold activeDays
  rw [List.Nodup.dedup, List.length_map]
  unfold Separated at h
  rw [← map_event_recentEvents, List.pairwise_map] at h
  refine List.pairwise_map.mpr (h.imp ?_)
  intro e e' hshare hdate
  exact hshare ⟨e.utcOffset, e'.utcOffset, e.offset_lt, e'.offset_lt, hdate⟩

/-! ## Choosing the offsets -/

/-- The first date an instant can be written with. -/
def firstDate (t : ℤ) : ℤ := (t - 86399999999) / 86400000000

/-- The last date. -/
def lastDate (t : ℤ) : ℤ := (t + 86399999999) / 86400000000

theorem firstDate_lt_lastDate (t : ℤ) : firstDate t < lastDate t := by
  unfold firstDate lastDate
  omega

/-- **An instant can be written with any date between the two.** -/
theorem exists_offset {t d : ℤ} (hfirst : firstDate t ≤ d) (hlast : d ≤ lastDate t) :
    ∃ o : ℤ, |o| < 86400000000 ∧ (t + o) / microsecondsClock.day = d := by
  unfold firstDate at hfirst
  unfold lastDate at hlast
  have hday : microsecondsClock.day = 86400000000 := rfl
  rw [hday]
  by_cases heq : d = (t + 86399999999) / 86400000000
  · exact ⟨86399999999, by decide, heq.symm⟩
  · -- the last instant of the date
    refine ⟨(d + 1) * 86400000000 - 1 - t, abs_lt.mpr ⟨by omega, by omega⟩, by omega⟩

theorem CanShareDate.le {t t' : ℤ} (h : CanShareDate t t') :
    firstDate t ≤ lastDate t' ∧ firstDate t' ≤ lastDate t := by
  obtain ⟨o, o', ho, ho', hdate⟩ := h
  have hday : microsecondsClock.day = 86400000000 := rfl
  rw [hday] at hdate
  rw [abs_lt] at ho ho'
  unfold firstDate lastDate
  omega

/-- The recent transactions can be written anew whatever the others are. -/
theorem exists_sameInstants {recents : List OffsetEvent}
    (h : recents.map OffsetEvent.event =
      (events.map OffsetEvent.event).filter fun e => Recent microsecondsClock now e) :
    ∃ events', SameInstants events events' ∧ recentEvents now events' = recents := by
  induction events generalizing recents with
  | nil => exact ⟨[], rfl, (List.map_eq_nil_iff.mp h).symm⟩
  | cons e events ih =>
      rw [List.map_cons] at h
      by_cases he : Recent microsecondsClock now e.event
      · rw [List.filter_cons_of_pos (by exact decide_eq_true he)] at h
        obtain ⟨e', recents, rfl, hevent, hrest⟩ := List.map_eq_cons_iff.mp h
        obtain ⟨events', hsame, rfl⟩ := ih hrest
        refine ⟨e' :: events', congrArg₂ List.cons hevent hsame, ?_⟩
        exact List.filter_cons_of_pos (by rw [hevent]; exact decide_eq_true he)
      · rw [List.filter_cons_of_neg (by simpa using he)] at h
        obtain ⟨events', hsame, rfl⟩ := ih h
        exact ⟨e :: events', congrArg (List.cons _) hsame,
          List.filter_cons_of_neg (by simpa using he)⟩

/-- **The recent transactions can be written with any dates they may have.** -/
theorem exists_activeDays {l : List CanonicalEvent}
    (hl : (events.map OffsetEvent.event).filter (fun e => Recent microsecondsClock now e) = l)
    {f : Fin l.length → ℤ} (hf : IsChoice (fun k => firstDate (l.get k).occurredAt)
      (fun k => lastDate (l.get k).occurredAt) f) :
    ∃ events', SameInstants events events' ∧
      activeDays now events' = (Finset.univ.image f).card := by
  choose o ho hdate using fun k => exists_offset (hf k).1 (hf k).2
  have hevents : (List.ofFn fun k => (⟨l.get k, o k, ho k⟩ : OffsetEvent)).map OffsetEvent.event =
      (events.map OffsetEvent.event).filter fun e => Recent microsecondsClock now e := by
    rw [hl, List.map_ofFn]
    exact List.ofFn_get l
  obtain ⟨events', hsame, hrecent⟩ := exists_sameInstants hevents
  refine ⟨events', hsame, ?_⟩
  have hdates : (recentEvents now events').map OffsetEvent.date = List.ofFn f := by
    rw [hrecent, List.map_ofFn]
    exact congrArg List.ofFn (funext hdate)
  unfold activeDays
  rw [hdates, ← List.card_toFinset]
  congr 1
  ext d
  simp [List.mem_ofFn]

/-- **The features depend on instants alone exactly if** a scale is zero, and
nothing is returned, or no two transactions of the last 30 days can be written
with one calendar date. -/
theorem buildOffsetFeatures_invariant_iff (events : List OffsetEvent) (now : Timestamp)
    (upper : String → String) (attributes : Option (Dict String String))
    (externalSignal : Option (SignalFacts K)) (profileType : String) (businessValueIdr : K)
    (mapping : ScorerMapping K) :
    (∀ events', SameInstants events events' →
      buildOffsetFeatures upper events' now attributes externalSignal profileType businessValueIdr
          mapping =
        buildOffsetFeatures upper events now attributes externalSignal profileType
          businessValueIdr mapping) ↔
      (mapping.amountScaleIdr = 0 ∨ mapping.businessValueScaleIdr = 0) ∨ Separated now events := by
  constructor
  · intro hinvariant
    by_contra hnot
    obtain ⟨hscale, hshare⟩ := not_or.mp hnot
    have hsame : ∀ events', SameInstants events events' →
        activeDays now events' = activeDays now events := fun events' h =>
      ((buildOffsetFeatures_eq_iff h _ _ _ _ _ _).mp (hinvariant events' h)).resolve_left hscale
    unfold Separated at hshare
    generalize hl : (events.map OffsetEvent.event).filter (fun e =>
      Recent microsecondsClock now e) = l at hshare
    rw [List.pairwise_iff_get] at hshare
    push Not at hshare
    obtain ⟨i, j, hij, hshare⟩ := hshare
    have hmeet : Meet (fun k => firstDate (l.get k).occurredAt)
        (fun k => lastDate (l.get k).occurredAt) i j := ⟨hij.ne, hshare.le⟩
    obtain ⟨f, g, hf, hg, hne⟩ := exists_two_counts (fun k => firstDate_lt_lastDate _) hmeet
    obtain ⟨events₁, h₁, hdays₁⟩ := exists_activeDays hl hf
    obtain ⟨events₂, h₂, hdays₂⟩ := exists_activeDays hl hg
    rw [← hdays₁, ← hdays₂, hsame events₁ h₁, hsame events₂ h₂] at hne
    exact hne rfl
  · intro h events' hsame
    refine (buildOffsetFeatures_eq_iff hsame _ _ _ _ _ _).mpr (h.imp_right fun hsep => ?_)
    have hsep' : Separated now events' := by
      unfold Separated at hsep ⊢
      rwa [show events'.map OffsetEvent.event = events.map OffsetEvent.event from hsame]
    have hlength : ∀ l : List OffsetEvent, (recentEvents now l).length =
        ((l.map OffsetEvent.event).filter fun e => Recent microsecondsClock now e).length :=
      fun l => by rw [← map_event_recentEvents, List.length_map]
    rw [activeDays_of_separated hsep, activeDays_of_separated hsep', hlength, hlength,
      show events'.map OffsetEvent.event = events.map OffsetEvent.event from hsame]

/-- A payment at `occurredAt`, with its offset in hours. -/
def paymentWithOffset (occurredAt : ℤ) (hours : Fin 24) : OffsetEvent where
  event := payment occurredAt
  utcOffset := hours.val * 3600000000
  offset_lt := abs_lt.mpr ⟨by omega, by omega⟩

/-- A mapping onto the schema of the trained scorer. -/
def sampleScorerMapping : ScorerMapping ℚ where
  supportFrictionMinContacts := 2
  positiveThreshold := 1 / 10
  negativeThreshold := 1 / 10
  amountScaleIdr := 1000
  businessValueScaleIdr := 25000
  baseBusinessValueRange := (10, 465)
  profileByType := .ofList Prod.fst Prod.snd
    [("WALLET", "Everyday Wallet"), ("SAVINGS", "Growth Saver")]
  defaultProfile := "Everyday Wallet"
  regionByCode := .ofList Prod.fst Prod.snd [("ID-JK", "Central"), ("ID-JI", "East")]
  defaultRegion := "Central"

/-- **Features depend on the offsets**: two payments of 10:00 and 20:00 UTC are
of one day, and of two if the later one is written with the offset of
Jakarta. -/
theorem not_buildOffsetFeatures_invariant :
    ¬ ∀ (events events' : List OffsetEvent) (now : Timestamp) (mapping : ScorerMapping ℚ),
      SameInstants events events' →
        buildOffsetFeatures id events' now none none "WALLET" 300000 mapping =
          buildOffsetFeatures id events now none none "WALLET" 300000 mapping := by
  intro hlaw
  have hsame : SameInstants
      [paymentWithOffset 36000000000 0, paymentWithOffset 72000000000 0]
      [paymentWithOffset 36000000000 0, paymentWithOffset 72000000000 7] := rfl
  have hfeatures := hlaw _ _ 172800000000 sampleScorerMapping hsame
  rcases (buildOffsetFeatures_eq_iff hsame _ _ _ _ _ _).mp hfeatures with hscale | hdays
  · exact absurd hscale (by decide +kernel)
  · exact absurd hdays (by decide +kernel)

end ChurnRisk

end RetentionEngine
