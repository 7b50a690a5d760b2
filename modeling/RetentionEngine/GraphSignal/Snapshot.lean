import RetentionEngine.Contracts.Explanation
import RetentionEngine.GraphSignal.Edges
import Mathlib.Tactic.Linarith

/-!
# Circle snapshots

`graph_signal.snapshot` with `stability` and `pattern`: the circle of each
user now and one activity window ago, the median change of the cohort, and
the tag. Everything in it is read off two graphs and two sets of active
users, and each of the four reads the events of a window of its own
(`Reads`): what lies outside all four changes nothing.
-/

namespace RetentionEngine

namespace Python

variable {K : Type*} [Field K] [LinearOrder K]

/-- `statistics.median` of a list that is not empty. -/
def median (data : List K) : K :=
  let data := data.insertionSort (· ≤ ·)
  let i := data.length / 2
  if data.length % 2 = 1 then data.getD i 0
  else (data.getD (i - 1) 0 + data.getD i 0) / ((2 : ℕ) : K)

end Python

namespace GraphSignal

open Python (median)

/-- `active_users`, as a set. -/
def activeUsers (events : List CanonicalEvent) (start stop : Timestamp) : List String :=
  (events.filter fun e => start ≤ e.occurredAt ∧ e.occurredAt < stop).map fun e => e.userPseudonym

/-- **What `snapshot_users` is told** besides the events, the users and the
date: `cohort_of.get` and `external_value_of.get` among it. -/
structure SnapshotSettings (K : Type*) where
  clock : Clock
  lookbackDays : ℤ
  activityWindowDays : ℤ
  decay : ℤ → K
  minInteractions : ℤ
  cohortOf : String → Option String
  externalValueOf : String → Option K
  dipThreshold : K
  cohortDipThreshold : K

namespace SnapshotSettings

variable {K : Type*} (s : SnapshotSettings K)

/-- What it tells `build_edges`. -/
def edges : EdgeSettings K := ⟨s.clock, s.lookbackDays, s.decay, s.minInteractions⟩

/-- `timedelta(days=activity_window_days)`. -/
def activityWindow : ℤ := s.activityWindowDays * s.clock.day

/-- `timedelta(days=lookback_days)`. -/
def lookback : ℤ := s.lookbackDays * s.clock.day

end SnapshotSettings

/-- The figures of a user, in `raw`. -/
structure Figures (K : Type*) where
  size : ℕ
  now : K
  past : K
  delta : K
  deriving DecidableEq, Repr

variable {K : Type*} [Field K] [LinearOrder K]

/-- `neighbor_activity_ratio`. -/
def neighborActivityRatio (userPseudonym : String) (edges : List (WeightedEdge K))
    (activePseudonyms : List String) : K :=
  let nbrs := neighbors userPseudonym edges
  let total := nbrs.values.sum
  if total ≤ 0 then 0
  else ((nbrs.entries.filter fun p => p.1 ∈ activePseudonyms).map Prod.snd).sum / total

/-- `delta_stability`. -/
def deltaStability (ratioNow ratio30dAgo : K) : K := ratioNow - ratio30dAgo

/-- `tag_pattern`. -/
def tagPattern (deltaStability cohortMedianDelta : K) (externalSignalValue : Option K)
    (dipThreshold cohortDipThreshold : K) : PatternType :=
  if -dipThreshold < deltaStability then .stable
  else
    match externalSignalValue with
    | some value =>
        if cohortMedianDelta < -cohortDipThreshold ∧ value < 0 then .marketDriven
        else .circleSpecific
    | none => .circleSpecific

/-- `empty_snapshot`. -/
def emptySnapshot : CircleSnapshot K := ⟨0, 0, 0, 0, .stable⟩

/-- The first loop of `snapshot_users`, for one user. -/
def figuresOf (edgesNow edgesPast : List (WeightedEdge K)) (activeNow activePast : List String)
    (user : String) : Figures K :=
  let size := (neighbors user edgesNow).entries.length
  let rNow := neighborActivityRatio user edgesNow activeNow
  let rPast := neighborActivityRatio user edgesPast activePast
  let hasPast := (neighbors user edgesPast).entries.length ≠ 0
  { size := size
    now := rNow
    past := rPast
    delta := if size ≠ 0 ∧ hasPast then deltaStability rNow rPast else 0 }

/-- `by_cohort`: the changes of the users with a circle, by cohort. -/
def byCohort (s : SnapshotSettings K) (raw : Dict String (Figures K)) :
    Dict (Option String) (List (String × Figures K)) :=
  Dict.groupBy (fun p => s.cohortOf p.1) (raw.entries.filter fun p => p.2.size ≠ 0)

/-- The median change of a cohort; `[0.0]` where it has no user with a circle. -/
def cohortMedian (s : SnapshotSettings K) (raw : Dict String (Figures K)) (cohort : Option String) :
    K :=
  match (byCohort s raw).get? cohort with
  | some (p :: ps) => median ((p :: ps).map fun p => p.2.delta)
  | _ => median [0]

/-- The last loop, for one user. -/
def snapshotOf (s : SnapshotSettings K) (raw : Dict String (Figures K)) (user : String)
    (f : Figures K) : CircleSnapshot K :=
  if f.size = 0 then emptySnapshot
  else
    { circleSize := f.size
      neighborActivityRatioNow := f.now
      neighborActivityRatio30dAgo := f.past
      deltaStability := f.delta
      patternType := tagPattern f.delta (cohortMedian s raw (s.cohortOf user))
        (s.externalValueOf user) s.dipThreshold s.cohortDipThreshold }

/-- `raw`, the figures of every user. -/
def figures (s : SnapshotSettings K) (events : List CanonicalEvent) (users : List String)
    (now : Timestamp) : Dict String (Figures K) :=
  let past := now - s.activityWindow
  let edgesNow := buildEdges s.edges events now
  let edgesPast := buildEdges s.edges events past
  let activeNow := activeUsers events (now - s.activityWindow) now
  let activePast := activeUsers events (past - s.activityWindow) past
  Dict.ofList id (figuresOf edgesNow edgesPast activeNow activePast) users

/-- `snapshots`, of `raw`. -/
def snapshotsOf (s : SnapshotSettings K) (raw : Dict String (Figures K)) :
    Dict String (CircleSnapshot K) :=
  Dict.ofList Prod.fst (fun p => snapshotOf s raw p.1 p.2) raw.entries

/-- `snapshot_users`. -/
def snapshotUsers (s : SnapshotSettings K) (events : List CanonicalEvent) (users : List String)
    (now : Timestamp) : List (WeightedEdge K) × Dict String (CircleSnapshot K) :=
  (buildEdges s.edges events now, snapshotsOf s (figures s events users now))

/-- A circle has no negative size. -/
theorem circleSize_nonneg {s : SnapshotSettings K} {events : List CanonicalEvent}
    {users : List String} {now : Timestamp} {user : String} {c : CircleSnapshot K}
    (hc : (snapshotUsers s events users now).2.get? user = some c) : 0 ≤ c.circleSize := by
  obtain ⟨⟨user, f⟩, -, rfl, rfl⟩ := Dict.exists_of_get?_ofList hc
  unfold snapshotOf
  split
  · exact le_rfl
  · exact Int.natCast_nonneg _

/-! ## What is read -/

/-- **An event in one of the four windows**: of the graph now and the graph
then, both ends included, and of the users active now and then, where the
last instant is not. -/
def SnapshotSettings.Reads (s : SnapshotSettings K) (now : Timestamp) (e : CanonicalEvent) : Prop :=
  (now - s.lookback ≤ e.occurredAt ∧ e.occurredAt ≤ now) ∨
    (now - s.activityWindow - s.lookback ≤ e.occurredAt ∧ e.occurredAt ≤ now - s.activityWindow) ∨
    (now - s.activityWindow ≤ e.occurredAt ∧ e.occurredAt < now) ∨
    (now - s.activityWindow - s.activityWindow ≤ e.occurredAt ∧
      e.occurredAt < now - s.activityWindow)

variable {s : SnapshotSettings K} {events : List CanonicalEvent} {users : List String}
  {now start stop : Timestamp} {p : CanonicalEvent → Bool}

/-- Who was active does not depend on events at other times. -/
theorem activeUsers_filter
    (hp : ∀ e, start ≤ e.occurredAt → e.occurredAt < stop → p e = true) :
    activeUsers (events.filter p) start stop = activeUsers events start stop := by
  unfold activeUsers
  rw [List.filter_filter]
  congr 1
  refine List.filter_congr fun e _ => ?_
  by_cases hwindow : start ≤ e.occurredAt ∧ e.occurredAt < stop
  · simp [hwindow, hp e hwindow.1 hwindow.2]
  · simp [hwindow]

/-- **Events outside the four windows change nothing**, neither in the edges
nor in a snapshot. -/
theorem snapshotUsers_filter (hp : ∀ e, s.Reads now e → p e = true) :
    snapshotUsers s (events.filter p) users now = snapshotUsers s events users now := by
  unfold SnapshotSettings.Reads at hp
  have hnow : buildEdges s.edges (events.filter p) now = buildEdges s.edges events now :=
    buildEdges_filter fun e hstart hstop => hp e (Or.inl ⟨hstart, hstop⟩)
  have hpast : buildEdges s.edges (events.filter p) (now - s.activityWindow) =
      buildEdges s.edges events (now - s.activityWindow) :=
    buildEdges_filter fun e hstart hstop => hp e (Or.inr (Or.inl ⟨hstart, hstop⟩))
  have hactive : activeUsers (events.filter p) (now - s.activityWindow) now =
      activeUsers events (now - s.activityWindow) now :=
    activeUsers_filter fun e hstart hstop => hp e (Or.inr (Or.inr (Or.inl ⟨hstart, hstop⟩)))
  have hactivePast : activeUsers (events.filter p) (now - s.activityWindow - s.activityWindow)
      (now - s.activityWindow) =
        activeUsers events (now - s.activityWindow - s.activityWindow) (now - s.activityWindow) :=
    activeUsers_filter fun e hstart hstop => hp e (Or.inr (Or.inr (Or.inr ⟨hstart, hstop⟩)))
  unfold snapshotUsers figures
  simp only [hnow, hpast, hactive, hactivePast]

omit [Field K] [LinearOrder K] in
/-- **Nothing later is read** where the activity window is not negative. -/
theorem SnapshotSettings.Reads.le {e : CanonicalEvent} (h : s.Reads now e)
    (hwindow : 0 ≤ s.activityWindowDays) : e.occurredAt ≤ now := by
  have hnonneg : 0 ≤ s.activityWindow := mul_nonneg hwindow s.clock.day_pos.le
  rcases h with ⟨-, h⟩ | ⟨-, h⟩ | ⟨-, h⟩ | ⟨-, h⟩ <;> linarith

omit [Field K] [LinearOrder K] in
/-- **Nothing older than both windows is read.** -/
theorem SnapshotSettings.Reads.ge {e : CanonicalEvent} (h : s.Reads now e)
    (hwindow : 0 ≤ s.activityWindowDays) (hlookback : s.activityWindowDays ≤ s.lookbackDays) :
    now - (s.lookbackDays + s.activityWindowDays) * s.clock.day ≤ e.occurredAt := by
  have hnonneg : 0 ≤ s.activityWindow := mul_nonneg hwindow s.clock.day_pos.le
  have hle : s.activityWindow ≤ s.lookback :=
    mul_le_mul_of_nonneg_right hlookback s.clock.day_pos.le
  have hsum : (s.lookbackDays + s.activityWindowDays) * s.clock.day =
      s.lookback + s.activityWindow := add_mul _ _ _
  rcases h with ⟨h, -⟩ | ⟨h, -⟩ | ⟨h, -⟩ | ⟨h, -⟩ <;> linarith

/-- **The loaded window is enough**: a snapshot of the events of one lookback
and one activity window is the snapshot of all events up to now. -/
theorem snapshotUsers_loaded (s : SnapshotSettings K) (events : List CanonicalEvent)
    (users : List String) (now : Timestamp) (hwindow : 0 < s.activityWindowDays)
    (hlookback : s.activityWindowDays ≤ s.lookbackDays) :
    snapshotUsers s (events.filter fun e =>
        now - (s.lookbackDays + s.activityWindowDays) * s.clock.day ≤ e.occurredAt) users now =
      snapshotUsers s (events.filter fun e => e.occurredAt ≤ now) users now := by
  rw [snapshotUsers_filter fun e h => decide_eq_true (h.ge hwindow.le hlookback),
    snapshotUsers_filter fun e h => decide_eq_true (h.le hwindow.le)]

/-- A half-life of thirty days, at multiples of it. -/
def sampleSettings : SnapshotSettings ℚ where
  clock := secondsClock
  lookbackDays := 90
  activityWindowDays := 30
  decay age := 1 / ((Nat.pow 2 (age / 2592000).toNat : ℕ) : ℚ)
  minInteractions := 1
  cohortOf user := some user
  externalValueOf _ := some (-1 / 2)
  dipThreshold := 1 / 10
  cohortDipThreshold := 3 / 10

def transfer (occurredAt : Timestamp) (user counterparty : String) : CanonicalEvent where
  clientEventId := "e"
  eventType := .p2pTransfer
  occurredAt := occurredAt
  userPseudonym := user
  amountIdr := some 50000
  counterpartyPseudonym := some counterparty
  attributes := []

/-- `u2` pays `u1` sixty days ago, `u1` pays `u2` thirty days ago. -/
def sampleEvents : List CanonicalEvent :=
  [transfer (-2592000) "u1" "u2", transfer (-5184000) "u2" "u1", transfer 1 "u1" "u3"]

theorem snapshotUsers_loaded_sample :
    snapshotUsers sampleSettings (sampleEvents.filter fun e =>
        0 - (90 + 30) * 86400 ≤ e.occurredAt) ["u1", "u2"] 0 =
      snapshotUsers sampleSettings (sampleEvents.filter fun e => e.occurredAt ≤ 0)
        ["u1", "u2"] 0 :=
  snapshotUsers_loaded sampleSettings sampleEvents ["u1", "u2"] 0 (by decide) (by decide)

/-! ## Snapshots are well formed -/

section WellFormed

variable [IsStrictOrderedRing K] {user : String} {edges : List (WeightedEdge K)}
  {active : List String}

/-- **A ratio is a share.** -/
theorem neighborActivityRatio_mem (hedges : ∀ edge ∈ edges, 0 < edge.weight) :
    0 ≤ neighborActivityRatio user edges active ∧
      neighborActivityRatio user edges active ≤ 1 := by
  have hnonneg : ∀ w ∈ (neighbors user edges).values, 0 ≤ w := by
    intro w hw
    obtain ⟨p, hp, rfl⟩ := List.mem_map.mp hw
    obtain ⟨edge, hedge, hweight⟩ := exists_of_mem_neighbors (show (p.1, p.2) ∈ _ from hp)
    exact hweight ▸ (hedges edge hedge).le
  have hsub : (((neighbors user edges).entries.filter fun p => p.1 ∈ active).map Prod.snd).Sublist
      (neighbors user edges).values := List.filter_sublist.map _
  unfold neighborActivityRatio
  dsimp only
  split
  · exact ⟨le_rfl, zero_le_one⟩
  · rename_i htotal
    rw [not_le] at htotal
    exact ⟨div_nonneg (List.sum_nonneg fun w hw => hnonneg w (hsub.subset hw)) htotal.le,
      (div_le_one htotal).mpr (hsub.sum_le_sum hnonneg)⟩

/-- The changes of the users of a cohort that have a circle. -/
def cohortDeltas (s : SnapshotSettings K) (snapshots : Dict String (CircleSnapshot K))
    (cohort : Option String) : List K :=
  (snapshots.entries.filter fun p => s.cohortOf p.1 = cohort ∧ p.2.circleSize ≠ 0).map
    fun p => p.2.deltaStability

/-- **A snapshot is well formed**, given the edges now and one activity
window ago and the snapshots of all users. -/
structure WellFormed (s : SnapshotSettings K) (edgesNow edgesPast : List (WeightedEdge K))
    (snapshots : Dict String (CircleSnapshot K)) (user : String) (c : CircleSnapshot K) :
    Prop where
  now_mem : 0 ≤ c.neighborActivityRatioNow ∧ c.neighborActivityRatioNow ≤ 1
  past_mem : 0 ≤ c.neighborActivityRatio30dAgo ∧ c.neighborActivityRatio30dAgo ≤ 1
  delta_mem : -1 ≤ c.deltaStability ∧ c.deltaStability ≤ 1
  /-- The circle is the counterparties the current edges link. -/
  size_eq : c.circleSize = {v | ∃ edge ∈ edgesNow, edge.Links user v}.ncard
  delta_eq_zero : (¬ ∃ v, ∃ edge ∈ edgesNow, edge.Links user v) ∨
    (¬ ∃ v, ∃ edge ∈ edgesPast, edge.Links user v) → c.deltaStability = 0
  stable : c.circleSize = 0 ∨ c.deltaStability = 0 → c.patternType = .stable
  of_marketDriven : c.patternType = .marketDriven → c.deltaStability ≤ -s.dipThreshold ∧
    median (cohortDeltas s snapshots (s.cohortOf user)) < -s.cohortDipThreshold ∧
    ∃ value, s.externalValueOf user = some value ∧ value < 0

omit [IsStrictOrderedRing K] in
/-- **A tag says** what made it. -/
theorem tagPattern_spec {delta med : K} {value : Option K} {dip cohortDip : K} :
    (-dip < delta → tagPattern delta med value dip cohortDip = .stable) ∧
      (tagPattern delta med value dip cohortDip = .marketDriven →
        delta ≤ -dip ∧ med < -cohortDip ∧ ∃ v, value = some v ∧ v < 0) := by
  unfold tagPattern
  refine ⟨fun hlt => if_pos hlt, fun htag => ?_⟩
  split at htag
  · simp at htag
  · rename_i hdip
    cases value with
    | none => simp at htag
    | some v =>
        dsimp only at htag
        split at htag
        · rename_i hboth
          exact ⟨not_lt.mp hdip, hboth.1, v, rfl, hboth.2⟩
        · simp at htag

variable {raw : Dict String (Figures K)} {f : Figures K}

omit [IsStrictOrderedRing K] in
theorem circleSize_snapshotOf : (snapshotOf s raw user f).circleSize = f.size := by
  unfold snapshotOf emptySnapshot
  split
  · simp_all
  · rfl

omit [IsStrictOrderedRing K] in
theorem snapshotOf_of_ne (hsize : f.size ≠ 0) : snapshotOf s raw user f =
    ⟨f.size, f.now, f.past, f.delta, tagPattern f.delta (cohortMedian s raw (s.cohortOf user))
      (s.externalValueOf user) s.dipThreshold s.cohortDipThreshold⟩ := if_neg hsize

omit [IsStrictOrderedRing K] in
/-- **The median of a cohort** is that of the changes its users with a circle
are given, where there is one. -/
theorem cohortMedian_eq (hmem : (user, f) ∈ raw.entries) (hsize : f.size ≠ 0) :
    cohortMedian s raw (s.cohortOf user) =
      median (cohortDeltas s (snapshotsOf s raw) (s.cohortOf user)) := by
  have hentries : (snapshotsOf s raw).entries =
      raw.entries.map fun p => (p.1, snapshotOf s raw p.1 p.2) := Dict.entries_ofList raw.nodup
  have hgroup : (byCohort s raw).get? (s.cohortOf user) =
      some (raw.entries.filter fun p => s.cohortOf p.1 = s.cohortOf user ∧ p.2.size ≠ 0) := by
    unfold byCohort
    rw [Dict.get?_groupBy, if_pos, List.filter_filter]
    · simp only [Bool.decide_and, ne_eq]
    · exact List.mem_map_of_mem (f := fun p : String × Figures K => s.cohortOf p.1)
        (List.mem_filter.mpr ⟨hmem, decide_eq_true hsize⟩)
  have hmember : (user, f) ∈
      raw.entries.filter fun p => s.cohortOf p.1 = s.cohortOf user ∧ p.2.size ≠ 0 :=
    List.mem_filter.mpr ⟨hmem, decide_eq_true ⟨rfl, hsize⟩⟩
  have hdeltas : cohortDeltas s (snapshotsOf s raw) (s.cohortOf user) =
      (raw.entries.filter fun p => s.cohortOf p.1 = s.cohortOf user ∧ p.2.size ≠ 0).map
        fun p => p.2.delta := by
    unfold cohortDeltas
    rw [hentries, List.filter_map, List.map_map]
    simp only [Function.comp_def, circleSize_snapshotOf, ne_eq, Int.natCast_eq_zero]
    refine List.map_congr_left fun p hp => ?_
    have hp' := (of_decide_eq_true (List.mem_filter.mp hp).2).2
    rw [snapshotOf_of_ne hp']
  unfold cohortMedian
  rw [hgroup, hdeltas]
  generalize raw.entries.filter _ = group at hmember
  cases group with
  | nil => simp at hmember
  | cons p ps => rfl

/-- **The figures of a user** are in bounds. -/
theorem figuresOf_mem {edgesNow edgesPast : List (WeightedEdge K)}
    {activeNow activePast : List String}
    (hnow : ∀ edge ∈ edgesNow, 0 < edge.weight) (hpast : ∀ edge ∈ edgesPast, 0 < edge.weight) :
    let f := figuresOf edgesNow edgesPast activeNow activePast user
    (0 ≤ f.now ∧ f.now ≤ 1) ∧ (0 ≤ f.past ∧ f.past ≤ 1) ∧ -1 ≤ f.delta ∧ f.delta ≤ 1 := by
  have hn : 0 ≤ neighborActivityRatio user edgesNow activeNow ∧
      neighborActivityRatio user edgesNow activeNow ≤ 1 := neighborActivityRatio_mem hnow
  have hp : 0 ≤ neighborActivityRatio user edgesPast activePast ∧
      neighborActivityRatio user edgesPast activePast ≤ 1 := neighborActivityRatio_mem hpast
  refine ⟨hn, hp, ?_⟩
  unfold figuresOf deltaStability
  dsimp only
  split
  · exact ⟨by linarith, by linarith⟩
  · exact ⟨by linarith, by linarith⟩

/-- **Every snapshot is well formed**, with weights that are positive and a
dip threshold that is. -/
theorem snapshotUsers_wellFormed (s : SnapshotSettings K) (events : List CanonicalEvent)
    (users : List String) (now : Timestamp) (hdecay : ∀ age, 0 < s.decay age)
    (hdip : 0 < s.dipThreshold) {user : String} {c : CircleSnapshot K}
    (hc : (snapshotUsers s events users now).2.get? user = some c) :
    WellFormed s (snapshotUsers s events users now).1
      (buildEdges s.edges events (now - s.activityWindow)) (snapshotUsers s events users now).2
      user c := by
  obtain ⟨⟨user, f⟩, hmem, rfl, rfl⟩ := Dict.exists_of_get?_ofList hc
  obtain ⟨user', -, huser, hfigures⟩ :=
    Dict.exists_of_get?_ofList (Dict.get?_eq_some.mpr hmem)
  obtain rfl : user' = user := huser
  have hpositive : ∀ now', ∀ edge ∈ buildEdges s.edges events now', 0 < edge.weight :=
    fun _ _ hedge => weight_pos hdecay hedge
  have hbounds := @figuresOf_mem K _ _ _ user' _ _
    (activeUsers events (now - s.activityWindow) now)
    (activeUsers events (now - s.activityWindow - s.activityWindow) (now - s.activityWindow))
    (hpositive now) (hpositive (now - s.activityWindow))
  have hsize : f.size = {v | ∃ edge ∈ buildEdges s.edges events now, edge.Links user' v}.ncard := by
    rw [← hfigures]
    exact length_neighbors
  have hzero : (¬ ∃ v, ∃ edge ∈ buildEdges s.edges events now, edge.Links user' v) →
      f.size = 0 := by
    intro hnone
    rw [← hfigures]
    exact length_neighbors_eq_zero.mpr hnone
  have hnoPast : (¬ ∃ v, ∃ edge ∈ buildEdges s.edges events (now - s.activityWindow),
      edge.Links user' v) → f.delta = 0 := by
    intro hnone
    rw [← hfigures]
    exact if_neg fun h => h.2 (length_neighbors_eq_zero.mpr hnone)
  rw [hfigures] at hbounds
  obtain ⟨hnow, hpast, hdelta⟩ := hbounds
  unfold snapshotUsers
  dsimp only
  by_cases hf : f.size = 0
  · -- no circle: the snapshot is the empty one
    have hempty : snapshotOf s (figures s events users now) user' f = emptySnapshot := if_pos hf
    rw [hempty]
    unfold emptySnapshot
    refine ⟨⟨le_rfl, zero_le_one⟩, ⟨le_rfl, zero_le_one⟩, ⟨by simp, zero_le_one⟩, ?_,
      fun _ => rfl, fun _ => rfl, by simp⟩
    show (0 : ℤ) = _
    rw [← hsize, hf]
    rfl
  · rw [snapshotOf_of_ne hf]
    obtain ⟨hstable, hmarket⟩ := @tagPattern_spec K _ _ f.delta
      (cohortMedian s (figures s events users now) (s.cohortOf user'))
      (s.externalValueOf user') s.dipThreshold s.cohortDipThreshold
    refine ⟨hnow, hpast, hdelta, ?_, ?_, ?_, ?_⟩
    · exact congrArg _ hsize
    · rintro (hnone | hnone)
      · exact absurd (hzero hnone) hf
      · exact hnoPast hnone
    · rintro (hcircle | hcircle)
      · exact absurd (Int.natCast_eq_zero.mp hcircle) hf
      · refine hstable ?_
        rw [show f.delta = 0 from hcircle]
        exact neg_lt_zero.mpr hdip
    · intro htag
      rw [← cohortMedian_eq hmem hf]
      exact hmarket htag

theorem snapshotUsers_wellFormed_sample :
    WellFormed sampleSettings (snapshotUsers sampleSettings sampleEvents ["u1", "u2"] 0).1
      (buildEdges sampleSettings.edges sampleEvents (0 - sampleSettings.activityWindow))
      (snapshotUsers sampleSettings sampleEvents ["u1", "u2"] 0).2 "u1"
      ⟨1, 0, 1, -1, .marketDriven⟩ :=
  snapshotUsers_wellFormed sampleSettings sampleEvents ["u1", "u2"] 0
    (fun _ => one_div_pos.mpr (Nat.cast_pos.mpr (Nat.two_pow_pos _))) (by decide +kernel)
    (by decide +kernel)

end WellFormed

end GraphSignal

end RetentionEngine
