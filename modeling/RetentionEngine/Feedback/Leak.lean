import RetentionEngine.Common.Run
import RetentionEngine.Feedback.Outcomes
import Mathlib

/-!
# Labels and later data

Histories of a store: runs that ingest outcomes, record their arms and save
their snapshots, and outcomes that are posted in between, each observed at
some earlier or later time. An example copies the user's latest snapshot,
so that a snapshot saved after an outcome was observed and before the
outcome is ingested ends up in its example. `noLeak_iff` says that this is
the one way features from after the observation get in.
-/

namespace RetentionEngine

namespace Feedback

variable {K : Type}

/-- What happens next to the tables. -/
inductive Action (K : Type)
  /-- PERSIST of a run. -/
  | saveFeatureSnapshots (rows : List (SnapshotKey × SnapshotRow K)) (now : Timestamp)
  /-- An arm of ALLOCATE. -/
  | recordAssignment (key : AssignmentKey) (arm : Arm)
  /-- `POST /v1/outcomes`. -/
  | recordOutcome (id : Uuid) (row : OutcomeRow)
  /-- FEEDBACK of a run. -/
  | ingestOutcomes (tenantId : String) (settings : FeedbackSettings) (draw : ℕ → Uuid)
      (now : Timestamp)

/-- The tables of a fresh installation. -/
def Tables.empty : Tables K := ⟨.empty, .empty, .empty, []⟩

variable [Field K] [LinearOrder K] [FloorRing K]

/-- **One step**; a call that raises leaves the tables as they are. -/
def step (t : Tables K) : Action K → Tables K
  | .saveFeatureSnapshots rows now => (saveFeatureSnapshots t rows now).getD t
  | .recordAssignment key arm => recordAssignment t key arm
  | .recordOutcome id row => (recordOutcome t id row).getD t
  | .ingestOutcomes tenantId settings draw now => (ingestOutcomes t tenantId settings draw now).1

/-- The step relation. -/
def Step (t : Tables K) (a : Action K) (t' : Tables K) : Prop := step t a = t'

/-- `e` is what the outcome `o` became, and `p` the snapshot it copied. -/
def Copies (t : Tables K) (tenantId : String) (e : LabeledExample K) (o : OutcomeEvent)
    (p : SnapshotKey × SnapshotRow K) : Prop :=
  o ∈ loadOutcomes t tenantId ∧ p ∈ snapshotRows t tenantId ∧
    p.1.loaded = (o.runId, o.userPseudonym) ∧ e = labeledExample o (featureSnapshot tenantId p)

/-- **Labels do not leak in a step**: what an outcome is turned into copies
a snapshot created no later than the outcome was observed. -/
def NoLeak (t : Tables K) : Action K → Prop
  | .ingestOutcomes tenantId _ _ _ => ∀ e ∈ newExamples t tenantId, ∃ o p,
      Copies t tenantId e o p ∧ p.2.createdAt ≤ o.observedAt
  | _ => True

/-- **The outcomes are fresh** where they are ingested: an assigned user
with an outcome that is not labeled yet has no snapshot from after its
observation. -/
def Fresh (t : Tables K) : Action K → Prop
  | .ingestOutcomes tenantId _ _ _ => ∀ id row, (id, row) ∈ t.outcomeEvents.entries →
      row.tenantId = tenantId →
      ⟨row.tenantId, row.experimentId, row.userPseudonym⟩ ∈ t.experimentAssignments.keys →
      (tenantId, toString id) ∉ existing t tenantId →
      ∀ p ∈ snapshotRows t tenantId, p.1.userPseudonym = row.userPseudonym →
        p.2.createdAt ≤ row.observedAt
  | _ => True

/-- What a stored example keeps of a snapshot. -/
def copied (treated : Bool) (snap : SnapshotRow K) : StoredSnapshot K where
  features := snap.features
  churnRisk := snap.churnRisk
  impactScore := snap.impactScore
  patternType := snap.patternType
  incentiveCode := if treated then snap.incentiveCode else none
  costIdr := if treated then snap.costIdr else 0
  businessValueIdr := snap.businessValueIdr

/-- **No stored example has leaked**: an example of an outcome keeps a
snapshot of its user that is no newer than the observation. -/
def Unleaked (t : Tables K) : Prop :=
  ∀ row ∈ t.labeledExamples, ∀ id ∈ row.sourceOutcomeId, ∃ outcome key snap,
    t.outcomeEvents.get? id = some outcome ∧ t.featureSnapshots.get? key = some snap ∧
      key.tenantId = row.tenantId ∧ key.userPseudonym = row.userPseudonym ∧
      row.featureSnapshot = copied row.treated snap ∧ snap.createdAt ≤ outcome.observedAt

/-! ## One step -/

variable {t t' : Tables K} {a : Action K} {tenantId : String} {e : LabeledExample K}
  {o : OutcomeEvent} {p q : SnapshotKey × SnapshotRow K} {row : LabeledExampleRow K}

omit [LinearOrder K] [FloorRing K] in
/-- **Every new example copies a snapshot**, of an outcome that is not
labeled yet. -/
theorem exists_copies (he : e ∈ newExamples t tenantId) : ∃ o p, Copies t tenantId e o p ∧
    o.key ∉ existing t tenantId := by
  obtain ⟨o, ho, hnew, snap, hsnap, rfl⟩ := exists_of_mem_toLabeledExamples he
  obtain ⟨hget, -⟩ := snapshotOf_eq_some.mp hsnap
  obtain ⟨p, hp, hkey, rfl⟩ := Dict.exists_of_get?_ofList hget
  exact ⟨o, p, ⟨ho, hp, hkey, rfl⟩, hnew⟩

omit [Field K] [LinearOrder K] [FloorRing K] in
/-- Outcomes are loaded under distinct ids. -/
theorem eq_of_outcomeEventId {o' : OutcomeEvent} (ho : o ∈ loadOutcomes t tenantId)
    (ho' : o' ∈ loadOutcomes t tenantId) (hid : o.outcomeEventId = o'.outcomeEventId) : o = o' := by
  obtain ⟨id, row, arm, hrow, -, harm, rfl⟩ := mem_loadOutcomes.mp ho
  obtain ⟨id', row', arm', hrow', -, harm', rfl⟩ := mem_loadOutcomes.mp ho'
  obtain rfl : id = id' := toString_injective hid
  have hsame := (Dict.get?_eq_some.mpr hrow).symm.trans (Dict.get?_eq_some.mpr hrow')
  obtain rfl : row = row' := Option.some.inj hsame
  obtain rfl : arm = arm' := Option.some.inj (harm.symm.trans harm')
  rfl

omit [LinearOrder K] [FloorRing K] in
/-- **What the new examples are**: one for each outcome with a snapshot that
is not labeled yet. -/
theorem mem_newExamples : e ∈ newExamples t tenantId ↔
    ∃ o ∈ loadOutcomes t tenantId, o.key ∉ existing t tenantId ∧
      ∃ snap, snapshotOf (loadFeatureSnapshots t tenantId) o = some snap ∧
        e = labeledExample o snap := by
  constructor
  · exact exists_of_mem_toLabeledExamples
  · rintro ⟨o, ho, hnew, snap, hsnap, rfl⟩
    obtain ⟨e', he', hkey⟩ := exists_mem_toLabeledExamples ho hnew (Option.isSome_of_eq_some hsnap)
    -- an example of that key comes from no other outcome
    obtain ⟨o', ho', -, snap', hsnap', rfl⟩ := exists_of_mem_toLabeledExamples he'
    obtain rfl := eq_of_outcomeEventId ho' ho (Prod.mk.inj hkey).2
    obtain rfl := Option.some.inj (hsnap'.symm.trans hsnap)
    exact he'

omit [Field K] [LinearOrder K] [FloorRing K] in
/-- A snapshot is determined by the key it is loaded under. -/
theorem eq_of_loaded (hp : p ∈ snapshotRows t tenantId) (hq : q ∈ snapshotRows t tenantId)
    (h : p.1.loaded = q.1.loaded) : p = q :=
  List.inj_on_of_nodup_map nodup_loaded hp hq h

omit [LinearOrder K] [FloorRing K] in
/-- **A step leaks nothing exactly when its outcomes are fresh.** -/
theorem noLeak_iff_fresh : NoLeak t a ↔ Fresh t a := by
  cases a with
  | saveFeatureSnapshots rows now => exact Iff.rfl
  | recordAssignment key arm => exact Iff.rfl
  | recordOutcome id row => exact Iff.rfl
  | ingestOutcomes tenantId settings draw now =>
      constructor
      · intro hleak id row hrow htenant hassigned hnew q hq hqu
        obtain ⟨arm, harm⟩ := Dict.mem_keys.mp hassigned
        have ho : outcomeEvent t tenantId id row arm ∈ loadOutcomes t tenantId :=
          mem_loadOutcomes.mpr ⟨id, row, arm, hrow, htenant, Dict.get?_eq_some.mpr harm, rfl⟩
        -- the user's latest snapshot is what the outcome is labeled with
        obtain ⟨r, hr⟩ := exists_latestRun hq
        rw [hqu] at hr
        obtain ⟨p, hp, hpu, rfl, hlatest⟩ := exists_latest hr
        have hsnap := snapshotOf_outcomeEvent id arm hp hpu hr
        obtain ⟨e, he, hkey⟩ := exists_mem_toLabeledExamples ho hnew
          (by rw [hsnap]; rfl)
        obtain ⟨o, p', ⟨ho', hp', hload, rfl⟩, hle⟩ := hleak e he
        obtain rfl := eq_of_outcomeEventId ho' ho (Prod.mk.inj hkey).2
        have hkey' : p.1.loaded = p'.1.loaded := by
          rw [hload]
          unfold outcomeEvent SnapshotKey.loaded
          rw [hr, hpu]
          rfl
        obtain rfl := eq_of_loaded hp hp' hkey'
        exact (hlatest q hq hqu).trans hle
      · intro hfresh e he
        obtain ⟨o, p, hcopies, hnew⟩ := exists_copies he
        refine ⟨o, p, hcopies, ?_⟩
        obtain ⟨ho, hp, hload, -⟩ := hcopies
        obtain ⟨id, row, arm, hrow, htenant, harm, rfl⟩ := mem_loadOutcomes.mp ho
        exact hfresh id row hrow htenant
          (Dict.mem_keys.mpr ⟨arm, Dict.get?_eq_some.mp harm⟩) hnew p hp (Prod.mk.inj hload).2

/-! ## What the tables keep -/

omit [Field K] [LinearOrder K] [FloorRing K] in
/-- Inserting rows one by one adds none but them. -/
theorem mem_of_mem_insert {rows table : List (LabeledExampleRow K)}
    (h : row ∈ rows.foldl insertLabeledExample table) : row ∈ table ∨ row ∈ rows := by
  induction rows generalizing table with
  | nil => exact Or.inl h
  | cons r rows ih =>
      rcases ih h with hmem | hmem
      · unfold insertLabeledExample at hmem
        split at hmem
        · exact Or.inl hmem
        · rcases List.mem_append.mp hmem with hmem | hmem
          · exact Or.inl hmem
          · exact Or.inr (List.mem_singleton.mp hmem ▸ List.mem_cons_self)
      · exact Or.inr (List.mem_cons_of_mem _ hmem)

/-- What saving examples adds is rows of them. -/
theorem exists_of_mem_save {draw : ℕ → Uuid} {now : Timestamp} {examples : List (LabeledExample K)}
    (h : row ∈ (saveLabeledExamples t draw now examples).labeledExamples) :
    row ∈ t.labeledExamples ∨ ∃ e ∈ examples, ∃ id, row = labeledExampleRow now id e := by
  refine (mem_of_mem_insert h).imp_right ?_
  intro hmem
  obtain ⟨⟨e, i⟩, hp, rfl⟩ := List.mem_map.mp hmem
  have he := (Dict.perm_flatMap_groupBy _ _).mem_iff.mp (List.fst_mem_of_mem_zipIdx hp)
  exact ⟨e, he, draw i, rfl⟩

/-- **A step keeps** every outcome and every snapshot, and adds to the
examples only what FEEDBACK makes of the outcomes. -/
structure Kept (t : Tables K) (a : Action K) (t' : Tables K) : Prop where
  outcomes : ∀ id row, t.outcomeEvents.get? id = some row → t'.outcomeEvents.get? id = some row
  snapshots : ∀ key snap, t.featureSnapshots.get? key = some snap →
    t'.featureSnapshots.get? key = some snap
  examples : ∀ row ∈ t'.labeledExamples, row ∈ t.labeledExamples ∨
    ∃ tenantId settings draw now, a = .ingestOutcomes tenantId settings draw now ∧
      ∃ e ∈ newExamples t tenantId, ∃ id, row = labeledExampleRow now id e

theorem step_kept (h : Step t a t') : Kept t a t' := by
  subst h
  cases a with
  | saveFeatureSnapshots rows now =>
      unfold step saveFeatureSnapshots
      dsimp only
      split
      · rename_i hnew
        refine ⟨fun _ _ hget => hget, fun key snap hget => ?_, fun _ hrow => Or.inl hrow⟩
        have hkey : ∀ p ∈ rows, p.1 ≠ key := by
          rintro p hp rfl
          exact hnew.2 p hp (Dict.mem_keys.mpr ⟨snap, Dict.get?_eq_some.mp hget⟩)
        exact (Dict.get?_foldl_set_of_notMem rows _ hkey).trans hget
      · exact ⟨fun _ _ hget => hget, fun _ _ hget => hget, fun _ hrow => Or.inl hrow⟩
  | recordAssignment key arm =>
      exact ⟨fun _ _ hget => hget, fun _ _ hget => hget, fun _ hrow => Or.inl hrow⟩
  | recordOutcome id row =>
      unfold step recordOutcome
      dsimp only
      split
      · exact ⟨fun _ _ hget => hget, fun _ _ hget => hget, fun _ hrow => Or.inl hrow⟩
      · rename_i hnew
        refine ⟨fun id' row' hget => ?_, fun _ _ hget => hget, fun _ hrow => Or.inl hrow⟩
        have hne : ¬ id' = id := by
          rintro rfl
          exact hnew (Dict.mem_keys.mpr ⟨row', Dict.get?_eq_some.mp hget⟩)
        exact (Dict.get?_set.trans (if_neg hne)).trans hget
  | ingestOutcomes tenantId settings draw now =>
      unfold step ingestOutcomes
      dsimp only
      split
      · refine ⟨fun _ _ hget => hget, fun _ _ hget => hget, fun row hrow => ?_⟩
        refine (exists_of_mem_save hrow).imp_right ?_
        rintro ⟨e, he, id, hrow⟩
        exact ⟨tenantId, settings, draw, now, rfl, e, he, id, hrow⟩
      · exact ⟨fun _ _ hget => hget, fun _ _ hget => hget, fun _ hrow => Or.inl hrow⟩

/-- **Fresh outcomes leave no leak in the tables.** -/
theorem unleaked_step (hunleaked : Unleaked t) (hstep : Step t a t') (hfresh : Fresh t a) :
    Unleaked t' := by
  have hkept := step_kept hstep
  intro row hrow id hid
  rcases hkept.examples row hrow with hold | ⟨tenantId, settings, draw, now, rfl, e, he, id', rfl⟩
  · obtain ⟨outcome, key, snap, houtcome, hsnap, hrest⟩ := hunleaked row hold id hid
    exact ⟨outcome, key, snap, hkept.outcomes _ _ houtcome, hkept.snapshots _ _ hsnap, hrest⟩
  · obtain ⟨o, p, ⟨ho, hp, hload, rfl⟩, hle⟩ := noLeak_iff_fresh.mpr hfresh e he
    obtain ⟨id₀, outcome, arm, houtcome, -, -, rfl⟩ := mem_loadOutcomes.mp ho
    obtain ⟨hp, htenant⟩ := mem_snapshotRows.mp hp
    -- the id of an outcome is read back from its text
    have hid₀ : some id₀ = some id := (Nat.toNat?_repr id₀).symm.trans hid
    obtain rfl := Option.some.inj hid₀
    refine ⟨outcome, p.1, p.2, hkept.outcomes _ _ (Dict.get?_eq_some.mpr houtcome),
      hkept.snapshots _ _ (Dict.get?_eq_some.mpr hp), htenant, (Prod.mk.inj hload).2, ?_, hle⟩
    rfl

/-! ## Over whole histories -/

variable {init s : Tables K} {tr : List (Transition (Tables K) (Action K))}

/-- **Labels do not leak exactly when outcomes are ingested fresh.** Over
every history of runs and posted outcomes: every example copies a snapshot
created no later than its outcome was observed if and only if, whenever
outcomes are ingested, no assigned user with an unlabeled outcome has a
snapshot from after its observation. Then no leak is stored either. -/
theorem noLeak_iff (hrun : Run Step init tr s) (hinit : Unleaked init) :
    ((∀ t ∈ tr, NoLeak t.pre t.act) ↔ ∀ t ∈ tr, Fresh t.pre t.act) ∧
      ((∀ t ∈ tr, Fresh t.pre t.act) → Unleaked s) := by
  refine ⟨forall₂_congr fun _ _ => noLeak_iff_fresh, fun hfresh => ?_⟩
  exact hrun.invariant hfresh hinit fun _ _ _ => unleaked_step

/-- A snapshot of run `runId`. -/
def sampleSnapshot (runId : Uuid) (frequency : ℚ) : SnapshotKey × SnapshotRow ℚ :=
  (⟨"t", runId, "u"⟩, ⟨.ofList Prod.fst Prod.snd [("frequency_30d", frequency)], some (7 / 10),
    some (3 / 10), some .circleSpecific, some "X", 10000, 90000, 0⟩)

/-- What one run does, at `now`. -/
def sampleRun (runId : Uuid) (frequency : ℚ) (now : Timestamp) : List (Action ℚ) :=
  [.ingestOutcomes "t" ⟨true, 10⟩ id now, .recordAssignment ⟨"t", 1, "u"⟩ .engine,
    .saveFeatureSnapshots [sampleSnapshot runId frequency] now]

/-- The user has stayed, as seen at noon of the first day. -/
def sampleOutcome : Action ℚ := .recordOutcome 7 ⟨"t", 1, "u", .retained, 43200, none⟩

/-- An outcome posted before the next run. -/
theorem noLeak_iff_sample : ∃ tr s, Run Step (Tables.empty : Tables ℚ) tr s ∧
    ((∀ t ∈ tr, NoLeak t.pre t.act) ↔ ∀ t ∈ tr, Fresh t.pre t.act) ∧
      ((∀ t ∈ tr, Fresh t.pre t.act) → Unleaked s) := by
  obtain ⟨tr, hrun⟩ := Run.exists_of_foldl step (Tables.empty : Tables ℚ)
    (sampleRun 1 2 0 ++ sampleOutcome :: sampleRun 2 5 86400)
  exact ⟨tr, _, hrun, noLeak_iff hrun fun row hrow => absurd hrow List.not_mem_nil⟩

/-- The tables when the third run starts; the outcome has come in after the
second run saved its snapshot. -/
def sampleTables : Tables ℚ :=
  (sampleRun 1 2 0 ++ sampleRun 2 5 86400 ++ [sampleOutcome]).foldl step .empty

/-- **Labels leak**: the third run labels the outcome with the snapshot of
the second, which is from after the observation. -/
theorem not_noLeak : ¬ ∀ (tr : List (Transition (Tables ℚ) (Action ℚ))) (s : Tables ℚ),
    Run Step Tables.empty tr s → ∀ t ∈ tr, NoLeak t.pre t.act := by
  intro hlaw
  obtain ⟨tr, hrun⟩ := Run.exists_of_foldl step (Tables.empty : Tables ℚ)
    (sampleRun 1 2 0 ++ sampleRun 2 5 86400 ++ [sampleOutcome])
  have hstep : Run Step Tables.empty _ _ :=
    hrun.snoc (a := .ingestOutcomes "t" ⟨true, 10⟩ id 172800) rfl
  have hfresh : Fresh sampleTables (.ingestOutcomes "t" ⟨true, 10⟩ id 172800) :=
    noLeak_iff_fresh.mp (hlaw _ _ hstep _ (List.mem_append_right _ (List.mem_singleton_self _)))
  have houtcome : sampleTables.outcomeEvents.get? 7 =
      some ⟨"t", 1, "u", .retained, 43200, none⟩ := by decide +kernel
  have hassigned : ⟨"t", 1, "u"⟩ ∈ sampleTables.experimentAssignments.keys := by decide +kernel
  have hnew : ("t", toString 7) ∉ existing sampleTables "t" := by decide +kernel
  have hlater : ("u", 86400) ∈ (snapshotRows sampleTables "t").map
      fun p => (p.1.userPseudonym, p.2.createdAt) := by decide +kernel
  obtain ⟨p, hp, heq⟩ := List.mem_map.mp hlater
  obtain ⟨huser, hcreated⟩ := Prod.mk.inj heq
  have hle := hfresh 7 _ (Dict.get?_eq_some.mp houtcome) rfl hassigned hnew p hp huser
  rw [hcreated] at hle
  exact absurd hle (by decide)

end Feedback

end RetentionEngine
