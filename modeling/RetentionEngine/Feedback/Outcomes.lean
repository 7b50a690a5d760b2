import RetentionEngine.Feedback.LabeledExamples
import RetentionEngine.Pipeline.Persist
import RetentionEngine.Common.Text

/-!
# Outcomes in the store

The tables behind the feedback loop, what `PostgresPipelineStore` reads of
them and writes to them, and `ingest_outcomes`. An outcome is stored
without the run it belongs to: `load_outcomes` says it was the run of the
user's latest snapshot. The text of a UUID is that of its number.
-/

namespace RetentionEngine

namespace Feedback

variable {K : Type}

/-- The values of `outcome_type`. -/
inductive OutcomeType
  | responded
  | retained
  | churned
  deriving DecidableEq, Repr

/-- A row of `outcome_events`, its id apart. -/
structure OutcomeRow where
  tenantId : String
  experimentId : Uuid
  userPseudonym : String
  outcomeType : OutcomeType
  observedAt : Timestamp
  valueIdr : Option ℤ
  deriving DecidableEq, Repr

/-- The primary key of `experiment_assignments`. -/
structure AssignmentKey where
  tenantId : String
  experimentId : Uuid
  userPseudonym : String
  deriving DecidableEq, Repr

/-- The columns `uq_feature_snapshots_run_user` keeps unique. -/
structure SnapshotKey where
  tenantId : String
  runId : Uuid
  userPseudonym : String
  deriving DecidableEq, Repr

/-- The other columns of `feature_snapshots`. -/
structure SnapshotRow (K : Type) where
  features : Dict String K
  churnRisk : Option K
  impactScore : Option K
  patternType : Option PatternType
  incentiveCode : Option String
  costIdr : ℤ
  businessValueIdr : ℤ
  createdAt : Timestamp

/-- The column `feature_snapshot` of `labeled_examples`, where an absent
entry is its default. -/
structure StoredSnapshot (K : Type) where
  features : Dict String K
  churnRisk : Option K
  impactScore : Option K
  patternType : Option PatternType
  incentiveCode : Option String
  costIdr : ℤ
  businessValueIdr : ℤ

/-- A row of `labeled_examples`; no experiment is ever noted. -/
structure LabeledExampleRow (K : Type) where
  id : Uuid
  tenantId : String
  sourceOutcomeId : Option Uuid
  userPseudonym : String
  arm : Arm
  treated : Bool
  retained : Bool
  realizedValueIdr : Option ℤ
  featureSnapshot : StoredSnapshot K
  createdAt : Timestamp

/-- The tables of the feedback loop, of all tenants. -/
structure Tables (K : Type) where
  outcomeEvents : Dict Uuid OutcomeRow
  experimentAssignments : Dict AssignmentKey Arm
  featureSnapshots : Dict SnapshotKey (SnapshotRow K)
  labeledExamples : List (LabeledExampleRow K)

/-- The settings of `ingest_outcomes`. -/
structure FeedbackSettings where
  feedbackUseInContext : Bool
  feedbackMinRowsPerCycle : ℤ
  deriving DecidableEq, Repr

/-! ## Reading -/

/-- ORDER BY user_pseudonym, created_at DESC. -/
def LatestFirst (p q : SnapshotKey × SnapshotRow K) : Prop :=
  p.1.userPseudonym < q.1.userPseudonym ∨
    p.1.userPseudonym = q.1.userPseudonym ∧ q.2.createdAt ≤ p.2.createdAt

instance : DecidableRel (LatestFirst (K := K)) := fun _ _ => inferInstanceAs (Decidable (_ ∨ _))

variable (t : Tables K) (tenantId : String)

/-- A tenant's rows of `feature_snapshots`. -/
def snapshotRows : List (SnapshotKey × SnapshotRow K) :=
  t.featureSnapshots.entries.filter fun p => p.1.tenantId = tenantId

/-- `latest_run_by_user` of `load_outcomes`. -/
def latestRunByUser : Dict String Uuid :=
  ((snapshotRows t tenantId).insertionSort LatestFirst).foldl
    (fun d p => d.setDefault p.1.userPseudonym p.1.runId) .empty

/-- One element of `load_outcomes`. -/
def outcomeEvent (id : Uuid) (row : OutcomeRow) (arm : Arm) : OutcomeEvent where
  outcomeEventId := toString id
  tenantId := tenantId
  runId := (((latestRunByUser t tenantId).get? row.userPseudonym).map toString).getD ""
  userPseudonym := row.userPseudonym
  arm := arm
  treated := decide (arm ≠ .control)
  retained := decide (row.outcomeType = .retained)
  spendIdr := row.valueIdr.getD 0
  observedAt := row.observedAt

/-- `load_outcomes`: the tenant's outcomes of assigned users. -/
def loadOutcomes : List OutcomeEvent :=
  t.outcomeEvents.entries.filterMap fun p =>
    if p.2.tenantId = tenantId then
      (t.experimentAssignments.get? ⟨p.2.tenantId, p.2.experimentId, p.2.userPseudonym⟩).map
        fun arm => outcomeEvent t tenantId p.1 p.2 arm
    else none

/-- A stored snapshot as `load_feature_snapshots` returns it. -/
def featureSnapshot (p : SnapshotKey × SnapshotRow K) : FeatureSnapshot K where
  tenantId := tenantId
  runId := toString p.1.runId
  userPseudonym := p.1.userPseudonym
  features := p.2.features
  churnRisk := p.2.churnRisk
  impactScore := p.2.impactScore
  patternType := p.2.patternType
  incentiveCode := p.2.incentiveCode
  costIdr := p.2.costIdr
  businessValueIdr := p.2.businessValueIdr

/-- The key it is loaded under. -/
def SnapshotKey.loaded (k : SnapshotKey) : String × String := (toString k.runId, k.userPseudonym)

/-- `load_feature_snapshots`. -/
def loadFeatureSnapshots : Dict (String × String) (FeatureSnapshot K) :=
  Dict.ofList (fun p => p.1.loaded) (featureSnapshot tenantId) (snapshotRows t tenantId)

/-- One element of `load_labeled_examples`. -/
def loadedExample [IntCast K] (row : LabeledExampleRow K) : LabeledExample K where
  tenantId := tenantId
  sourceOutcomeId := toString (row.sourceOutcomeId.getD row.id)
  userPseudonym := row.userPseudonym
  features := row.featureSnapshot.features
  arm := row.arm
  treated := row.treated
  retained := row.retained
  churnRisk := row.featureSnapshot.churnRisk
  impactScore := row.featureSnapshot.impactScore
  patternType := row.featureSnapshot.patternType
  incentiveCode := row.featureSnapshot.incentiveCode
  costIdr := row.featureSnapshot.costIdr
  businessValueIdr := row.featureSnapshot.businessValueIdr
  realizedValueIdr := ((row.realizedValueIdr.getD 0 : ℤ) : K)

/-- `load_labeled_examples`, the newest first. -/
def loadLabeledExamples [IntCast K] : List (LabeledExample K) :=
  ((t.labeledExamples.filter fun row => row.tenantId = tenantId).insertionSort
    fun row row' => row'.createdAt ≤ row.createdAt).map (loadedExample tenantId)

/-- `existing` of `ingest_outcomes`. -/
def existing [IntCast K] : List (String × String) :=
  (loadLabeledExamples t tenantId).map fun e => (e.tenantId, e.sourceOutcomeId)

/-- `new` of `ingest_outcomes`. -/
def newExamples [IntCast K] : List (LabeledExample K) :=
  toLabeledExamples (loadOutcomes t tenantId) (loadFeatureSnapshots t tenantId)
    (existing t tenantId)

/-! ## Writing -/

/-- `save_feature_snapshots`, the rows of one run in one transaction; a
second snapshot of a run and user violates the constraint. -/
def saveFeatureSnapshots (rows : List (SnapshotKey × SnapshotRow K)) (now : Timestamp) :
    Option (Tables K) :=
  if (rows.map Prod.fst).Nodup ∧ ∀ p ∈ rows, p.1 ∉ t.featureSnapshots.keys then
    some { t with
      featureSnapshots := rows.foldl (fun d p => d.set p.1 { p.2 with createdAt := now })
        t.featureSnapshots }
  else none

/-- `record_assignment`: ON CONFLICT DO NOTHING. -/
def recordAssignment (key : AssignmentKey) (arm : Arm) : Tables K :=
  { t with experimentAssignments := t.experimentAssignments.setDefault key arm }

/-- `record_outcome`; `id` is the UUID the call draws, which must be new. -/
def recordOutcome (id : Uuid) (row : OutcomeRow) : Option (Tables K) :=
  if id ∈ t.outcomeEvents.keys then none
  else some { t with outcomeEvents := t.outcomeEvents.set id row }

/-- `_maybe_uuid`. -/
def maybeUuid (value : String) : Option Uuid := value.toNat?

/-- A row of `save_labeled_examples`. -/
def labeledExampleRow [Field K] [LinearOrder K] [FloorRing K] (now : Timestamp) (id : Uuid)
    (e : LabeledExample K) : LabeledExampleRow K where
  id := id
  tenantId := e.tenantId
  sourceOutcomeId := maybeUuid e.sourceOutcomeId
  userPseudonym := e.userPseudonym
  arm := e.arm
  treated := e.treated
  retained := e.retained
  realizedValueIdr := some (Python.roundHalfEven e.realizedValueIdr)
  featureSnapshot := ⟨e.features, e.churnRisk, e.impactScore, e.patternType, e.incentiveCode,
    e.costIdr, e.businessValueIdr⟩
  createdAt := now

/-- `insert_labeled_examples`, row by row: ON CONFLICT DO NOTHING, where a
missing outcome id never conflicts. -/
def insertLabeledExample (table : List (LabeledExampleRow K)) (row : LabeledExampleRow K) :
    List (LabeledExampleRow K) :=
  if row.sourceOutcomeId ≠ none ∧
      ∃ r ∈ table, r.tenantId = row.tenantId ∧ r.sourceOutcomeId = row.sourceOutcomeId then table
  else table ++ [row]

/-- `save_labeled_examples`, tenant by tenant; `draw` are the UUIDs it
draws. -/
def saveLabeledExamples [Field K] [LinearOrder K] [FloorRing K] (draw : ℕ → Uuid) (now : Timestamp)
    (examples : List (LabeledExample K)) : Tables K :=
  let byTenant := (Dict.groupBy (fun e => e.tenantId) examples).entries.flatMap Prod.snd
  { t with
    labeledExamples := (byTenant.zipIdx.map fun p => labeledExampleRow now (draw p.2) p.1).foldl
      insertLabeledExample t.labeledExamples }

/-- **`ingest_outcomes`**, its lift apart. -/
def ingestOutcomes [Field K] [LinearOrder K] [FloorRing K] (settings : FeedbackSettings)
    (draw : ℕ → Uuid) (now : Timestamp) : Tables K × Summary :=
  let new := newExamples t tenantId
  let t' := if settings.feedbackUseInContext then saveLabeledExamples t draw now new else t
  (t', summarize new (loadLabeledExamples t' tenantId).length settings.feedbackMinRowsPerCycle
    settings.feedbackUseInContext)

/-! ## The snapshot of an outcome -/

variable {t tenantId} {p q : SnapshotKey × SnapshotRow K} {u : String} {r : Uuid} {o : OutcomeEvent}

theorem mem_snapshotRows : p ∈ snapshotRows t tenantId ↔
    p ∈ t.featureSnapshots.entries ∧ p.1.tenantId = tenantId := by
  unfold snapshotRows
  rw [List.mem_filter, decide_eq_true_iff]

instance : IsTrans (SnapshotKey × SnapshotRow K) LatestFirst where
  trans p q r hpq hqr := by
    unfold LatestFirst at *
    rcases hpq with hlt | ⟨heq, hle⟩
    · rcases hqr with hlt' | ⟨heq', -⟩
      · exact Or.inl (hlt.trans hlt')
      · exact Or.inl (heq' ▸ hlt)
    · rw [heq]
      exact hqr.imp_right fun h => ⟨h.1, h.2.trans hle⟩

instance : Std.Total (LatestFirst (K := K)) where
  total p q := by
    unfold LatestFirst
    rcases lt_trichotomy p.1.userPseudonym q.1.userPseudonym with hlt | heq | hgt
    · exact Or.inl (Or.inl hlt)
    · rcases le_total q.2.createdAt p.2.createdAt with hle | hle
      · exact Or.inl (Or.inr ⟨heq, hle⟩)
      · exact Or.inr (Or.inr ⟨heq.symm, hle⟩)
    · exact Or.inr (Or.inl hgt)

theorem get?_latestRunByUser : (latestRunByUser t tenantId).get? u =
    (((snapshotRows t tenantId).insertionSort LatestFirst).find? fun p =>
      p.1.userPseudonym = u).map fun p => p.1.runId :=
  (Dict.get?_foldl_setDefault (fun p : SnapshotKey × SnapshotRow K => p.1.userPseudonym)
    (fun p => p.1.runId) _ _ _).trans (Option.none_or)

/-- **The latest run of a user** is that of a snapshot of the user's, and no
other one was created later. -/
theorem exists_latest (h : (latestRunByUser t tenantId).get? u = some r) :
    ∃ p ∈ snapshotRows t tenantId, p.1.userPseudonym = u ∧ p.1.runId = r ∧
      ∀ q ∈ snapshotRows t tenantId, q.1.userPseudonym = u → q.2.createdAt ≤ p.2.createdAt := by
  rw [get?_latestRunByUser] at h
  obtain ⟨p, hp, rfl⟩ := Option.map_eq_some_iff.mp h
  obtain ⟨hu, before, after, hsplit, hbefore⟩ := List.find?_eq_some_iff_append.mp hp
  rw [decide_eq_true_iff] at hu
  have hsorted := List.pairwise_insertionSort LatestFirst (snapshotRows t tenantId)
  have hmem : ∀ q, q ∈ snapshotRows t tenantId ↔ q ∈ before ++ p :: after := fun q => by
    rw [← hsplit]
    exact (List.perm_insertionSort _ _).mem_iff.symm
  rw [hsplit, List.pairwise_append, List.pairwise_cons] at hsorted
  refine ⟨p, (hmem p).mpr (by simp), hu, rfl, ?_⟩
  intro q hq hqu
  rcases List.mem_append.mp ((hmem q).mp hq) with hq | hq
  · have hnot := hbefore q hq
    simp [hqu] at hnot
  · rcases List.mem_cons.mp hq with rfl | hq
    · exact le_rfl
    · rcases hsorted.2.1.1 q hq with hlt | ⟨-, hle⟩
      · rw [hu, hqu] at hlt
        exact absurd hlt (lt_irrefl _)
      · exact hle

/-- A user with a snapshot has a latest run. -/
theorem exists_latestRun (hp : p ∈ snapshotRows t tenantId) :
    ∃ r, (latestRunByUser t tenantId).get? p.1.userPseudonym = some r := by
  rw [get?_latestRunByUser]
  have hfound : (((snapshotRows t tenantId).insertionSort LatestFirst).find? fun q =>
      decide (q.1.userPseudonym = p.1.userPseudonym)).isSome := by
    rw [List.find?_isSome]
    exact ⟨p, (List.perm_insertionSort _ _).mem_iff.mpr hp, by simp⟩
  obtain ⟨q, hq⟩ := Option.isSome_iff_exists.mp hfound
  exact ⟨q.1.runId, by rw [hq]; rfl⟩

/-- Snapshots of one tenant are loaded under distinct keys. -/
theorem nodup_loaded : ((snapshotRows t tenantId).map fun p => p.1.loaded).Nodup := by
  have hnodup : ((snapshotRows t tenantId).map Prod.fst).Nodup :=
    t.featureSnapshots.nodup.sublist (List.filter_sublist.map _)
  have hmap : (snapshotRows t tenantId).map (fun p => p.1.loaded) =
      ((snapshotRows t tenantId).map Prod.fst).map SnapshotKey.loaded := by
    rw [List.map_map]
    rfl
  rw [hmap]
  refine hnodup.map_on ?_
  intro k hk k' hk' hload
  obtain ⟨p, hp, rfl⟩ := List.mem_map.mp hk
  obtain ⟨q, hq, rfl⟩ := List.mem_map.mp hk'
  obtain ⟨hrun, huser⟩ := Prod.mk.inj hload
  have hrun := toString_injective hrun
  have htenant := (mem_snapshotRows.mp hp).2.trans (mem_snapshotRows.mp hq).2.symm
  generalize p.1 = k at *
  generalize q.1 = k' at *
  cases k
  cases k'
  simp_all

/-- A snapshot is loaded under its run and user. -/
theorem get?_loadFeatureSnapshots (hp : p ∈ snapshotRows t tenantId) :
    (loadFeatureSnapshots t tenantId).get? p.1.loaded = some (featureSnapshot tenantId p) :=
  Dict.get?_ofList nodup_loaded hp

/-- **What an outcome is labeled with**: the user's latest snapshot. -/
theorem snapshotOf_outcomeEvent (id : Uuid) (arm : Arm) {row : OutcomeRow}
    (hp : p ∈ snapshotRows t tenantId) (hu : p.1.userPseudonym = row.userPseudonym)
    (hrun : (latestRunByUser t tenantId).get? row.userPseudonym = some p.1.runId) :
    snapshotOf (loadFeatureSnapshots t tenantId) (outcomeEvent t tenantId id row arm) =
      some (featureSnapshot tenantId p) := by
  rw [snapshotOf_eq_some]
  refine ⟨?_, rfl⟩
  have hkey : ((outcomeEvent t tenantId id row arm).runId, row.userPseudonym) = p.1.loaded := by
    unfold outcomeEvent SnapshotKey.loaded
    rw [hrun, hu]
    rfl
  rw [← get?_loadFeatureSnapshots hp, ← hkey]
  rfl

theorem mem_loadOutcomes : o ∈ loadOutcomes t tenantId ↔
    ∃ id row arm, (id, row) ∈ t.outcomeEvents.entries ∧ row.tenantId = tenantId ∧
      t.experimentAssignments.get? ⟨row.tenantId, row.experimentId, row.userPseudonym⟩ = some arm ∧
      o = outcomeEvent t tenantId id row arm := by
  unfold loadOutcomes
  rw [List.mem_filterMap]
  constructor
  · rintro ⟨⟨id, row⟩, hmem, hsome⟩
    rw [Option.ite_none_right_eq_some] at hsome
    obtain ⟨arm, harm, rfl⟩ := Option.map_eq_some_iff.mp hsome.2
    exact ⟨id, row, arm, hmem, hsome.1, harm, rfl⟩
  · rintro ⟨id, row, arm, hmem, htenant, harm, rfl⟩
    refine ⟨(id, row), hmem, ?_⟩
    dsimp only
    rw [if_pos htenant, harm]
    rfl

end Feedback

end RetentionEngine
