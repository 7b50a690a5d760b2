import RetentionEngine.Feedback.Leak

/-!
# Treatment and picks

A snapshot of a run carries an incentive for whom the run picked. A label
is written later, from the arm on record alone: `load_outcomes` takes
every outcome outside CONTROL as treated. `labeled_byArm` says what an
example tells of both, and `not_treated_iff_incentive` that they differ.
-/

namespace RetentionEngine

namespace Pipeline

variable {K : Type}

/-- Everyone a snapshot of `picks` is of a pick for. -/
theorem get?_pickOf_ne_none {picks : List (Pick K)} {u : String} : (pickOf picks).get? u ≠ none ↔
    ∃ p ∈ picks, u ∈ if p.members = [] then [p.top.candidate.userPseudonym] else p.members := by
  rw [ne_eq, Dict.get?_eq_none, not_not]
  unfold pickOf
  rw [Dict.mem_keys_ofList, List.mem_map]
  constructor
  · rintro ⟨⟨u', p⟩, hmem, rfl⟩
    obtain ⟨q, hq, hmem⟩ := List.mem_flatMap.mp hmem
    obtain ⟨u, hu, heq⟩ := List.mem_map.mp hmem
    obtain ⟨rfl, rfl⟩ := Prod.mk.inj heq
    exact ⟨q, hq, hu⟩
  · rintro ⟨p, hp, hu⟩
    exact ⟨(u, p), List.mem_flatMap.mpr ⟨p, hp, List.mem_map_of_mem hu⟩, rfl⟩

variable [Field K] [LinearOrder K] {h : Hashes} {settings : PipelineSettings K}
  {store : StoreReads} {run : ScoredRun K} {regressor : Ranker.Regressor K} {v : Vetted}
  {ranked : List (RankedCandidate K)} {a : Allocated K} {p : Pick K}

omit [LinearOrder K] in
/-- A pick has members exactly when it has a group: its targets. -/
theorem targets_enginePick {engine : List (RankedCandidate K)} {key : String}
    {ds : List (AllocationDecision K)} (hp : enginePick h v engine key ds = some (some p)) :
    (if p.members = [] then [p.top.candidate.userPseudonym] else p.members) = p.targets := by
  unfold enginePick at hp
  dsimp only at hp
  split at hp
  · cases hp
  · obtain ⟨topMembers, -, hp⟩ := Option.bind_eq_some_iff.mp hp
    obtain ⟨runnerMembers, -, hp⟩ := Option.bind_eq_some_iff.mp hp
    obtain ⟨policy, -, hp⟩ := Option.bind_eq_some_iff.mp hp
    split at hp
    · obtain ⟨top, hrep, hp⟩ := Option.bind_eq_some_iff.mp hp
      obtain rfl := Option.some.inj (Option.some.inj hp)
      obtain ⟨first, hfirst, -⟩ := Option.map_eq_some_iff.mp hrep
      have hne : topMembers ≠ [] := List.ne_nil_of_mem (List.mem_of_mem_head? hfirst)
      simp [Pick.targets, hne]
    · obtain ⟨top, -, hp⟩ := Option.bind_eq_some_iff.mp hp
      obtain rfl := Option.some.inj (Option.some.inj hp)
      simp [Pick.targets]

theorem targets_naiveTurn {u : String} {cs : List (Candidate K)}
    {t : Option (Pick K) × List (AllocationDecision K)}
    (ht : naiveTurn settings store run u cs = some t) (hp : t.1 = some p) :
    (if p.members = [] then [p.top.candidate.userPseudonym] else p.members) = p.targets := by
  unfold naiveTurn at ht
  split at ht
  · obtain rfl := Option.some.inj ht
    cases hp
  · dsimp only at ht
    obtain ⟨excluded, -, ht⟩ := Option.bind_eq_some_iff.mp ht
    split at ht
    · obtain rfl := Option.some.inj ht
      cases hp
    · obtain rfl := Option.some.inj ht
      obtain rfl := Option.some.inj hp
      simp [Pick.targets]

theorem Completed.targets_pick (hdone : Completed h settings store run regressor v ranked a)
    (hp : p ∈ a.picks) :
    (if p.members = [] then [p.top.candidate.userPseudonym] else p.members) = p.targets := by
  rcases List.mem_append.mp hp with hp | hp
  · obtain ⟨ops, hops, heq⟩ := Option.map_eq_some_iff.mp hdone.enginePicks
    rw [← heq, List.reduceOption_mem_iff] at hp
    obtain ⟨q, -, hpick⟩ := exists_left_of_forall₂ (forall₂_of_mapM hops) hp
    exact targets_enginePick hpick
  · obtain ⟨u, cs, t, hturn, hpick⟩ := hdone.exists_naiveTurn hp
    exact targets_naiveTurn hturn hpick

/-- **A snapshot carries an incentive exactly for the target of a pick.** -/
theorem incentiveCode_featureSnapshots (hrun : decisionStages h settings store run regressor =
    some a) {snap : FeatureSnapshot K} (hsnap : snap ∈ featureSnapshots store run a.picks) :
    snap.incentiveCode ≠ none ↔ ∃ p ∈ a.picks, snap.userPseudonym ∈ p.targets := by
  obtain ⟨v, ranked, hdone⟩ := exists_completed hrun
  obtain ⟨u, -, rfl⟩ := List.mem_map.mp hsnap
  dsimp only
  rw [ne_eq, Option.map_eq_none_iff, ← ne_eq, get?_pickOf_ne_none]
  refine exists_congr fun p => and_congr_right fun hp => ?_
  rw [hdone.targets_pick hp]

end Pipeline

namespace Feedback

open Pipeline (ScoredRun PipelineSettings StoreReads Allocated decisionStages featureSnapshots)

variable {K : Type}

/-- A row `save_feature_snapshots` makes of a snapshot, with the features of
its user. -/
def snapshotEntry (features : String → Dict String K) (tenantId : String) (runId : Uuid)
    (s : Pipeline.FeatureSnapshot K) : SnapshotKey × SnapshotRow K :=
  (⟨tenantId, runId, s.userPseudonym⟩, ⟨features s.userPseudonym, some s.churnRisk, s.impactScore,
    some s.patternType, s.incentiveCode, s.costIdr, s.businessValueIdr, 0⟩)

/-- The rows of the snapshots of a run; a run id that is no UUID raises. -/
def snapshotEntries (features : String → Dict String K) (tenantId : String)
    (snapshots : List (Pipeline.FeatureSnapshot K)) : Option (List (SnapshotKey × SnapshotRow K)) :=
  snapshots.mapM fun s => (maybeUuid s.runId).map fun runId =>
    snapshotEntry features tenantId runId s

/-- **What an example tells of a treatment**: whether the arm on record is
not CONTROL, and then what the snapshot carries. -/
structure LabeledByArm (onRecord : Arm) (snap : SnapshotRow K) (e : LabeledExample K) : Prop where
  arm : e.arm = onRecord
  treated : e.treated = true ↔ onRecord ≠ .control
  incentive : e.incentiveCode = if onRecord = .control then none else snap.incentiveCode

variable [Field K] [LinearOrder K] [FloorRing K] {t t' s : Tables K}
  {tr : List (Transition (Tables K) (Action K))} {tenantId : String}
  {rows : List (SnapshotKey × SnapshotRow K)} {now : Timestamp} {key : SnapshotKey}
  {snap : SnapshotRow K}

omit [Field K] [LinearOrder K] [FloorRing K] in
/-- A saved row is in the table. -/
theorem get?_of_saveFeatureSnapshots (hsaved : saveFeatureSnapshots t rows now = some t')
    (hrow : (key, snap) ∈ rows) :
    t'.featureSnapshots.get? key = some { snap with createdAt := now } := by
  unfold saveFeatureSnapshots at hsaved
  rw [Option.ite_none_right_eq_some] at hsaved
  obtain ⟨⟨hnodup, -⟩, heq⟩ := hsaved
  obtain rfl := Option.some.inj heq
  refine Dict.get?_foldl_set rows _ ?_ hrow
  intro p hp q hq hkey
  rw [List.inj_on_of_nodup_map hnodup hp hq hkey]

/-- **A snapshot is kept** whatever happens next. -/
theorem get?_of_run (hrun : Run Step t tr s) (hget : t.featureSnapshots.get? key = some snap) :
    s.featureSnapshots.get? key = some snap :=
  hrun.invariant' hget fun _ _ _ hget hstep => (step_kept hstep).snapshots key snap hget

omit [LinearOrder K] [FloorRing K] in
/-- **An example of an outcome is made of the snapshot of the user's latest
run.** -/
theorem labeledByArm {id : Uuid} {row : OutcomeRow} {arm : Arm} {runId : Uuid}
    {e : LabeledExample K} (houtcome : (id, row) ∈ t.outcomeEvents.entries)
    (htenant : row.tenantId = tenantId)
    (harm : t.experimentAssignments.get? ⟨tenantId, row.experimentId, row.userPseudonym⟩ = some arm)
    (hlatest : (latestRunByUser t tenantId).get? row.userPseudonym = some runId)
    (hget : t.featureSnapshots.get? ⟨tenantId, runId, row.userPseudonym⟩ = some snap)
    (he : e ∈ newExamples t tenantId) (hsource : e.sourceOutcomeId = toString id) :
    LabeledByArm arm snap e := by
  obtain ⟨o, p, ⟨ho, hp, hload, rfl⟩, -⟩ := exists_copies he
  have hloaded : outcomeEvent t tenantId id row arm ∈ loadOutcomes t tenantId :=
    mem_loadOutcomes.mpr ⟨id, row, arm, houtcome, htenant, htenant ▸ harm, rfl⟩
  obtain rfl : o = outcomeEvent t tenantId id row arm :=
    eq_of_outcomeEventId ho hloaded hsource
  have hmem : (⟨tenantId, runId, row.userPseudonym⟩, snap) ∈ snapshotRows t tenantId :=
    mem_snapshotRows.mpr ⟨Dict.get?_eq_some.mp hget, rfl⟩
  obtain rfl := eq_of_loaded hp hmem (by
    rw [hload]
    unfold outcomeEvent SnapshotKey.loaded
    rw [hlatest]
    rfl)
  refine ⟨rfl, (decide_eq_true_iff : decide (arm ≠ .control) = true ↔ _), ?_⟩
  unfold labeledExample outcomeEvent
  cases arm <;> rfl

/-- **A label tells the arm on record, and a snapshot the pick.** For every
run that completes ALLOCATE and saves its snapshots, and whatever happens
to the tables after that: the snapshot of a user of the run carries an
incentive exactly when a pick of the run targets the user; and an outcome
that is not labeled yet, of an assigned user whose latest run it is, gets
an example, which is treated exactly when the arm is not CONTROL, with the
incentive of the snapshot if it is. -/
theorem labeled_byArm {h : Hashes} {settings : PipelineSettings K} {store : StoreReads}
    {run : ScoredRun K} {regressor : Ranker.Regressor K} {a : Allocated K}
    {features : String → Dict String K} {runId : Uuid}
    (hrun : decisionStages h settings store run regressor = some a)
    (hid : maybeUuid run.runId = some runId)
    (hrows : snapshotEntries features run.tenantId (featureSnapshots store run a.picks) = some rows)
    (hsaved : saveFeatureSnapshots t rows now = some t') (hlater : Run Step t' tr s)
    {u : String} (hu : u ∈ run.users) :
    ∃ snap, s.featureSnapshots.get? ⟨run.tenantId, runId, u⟩ = some snap ∧
      (snap.incentiveCode ≠ none ↔ ∃ p ∈ a.picks, u ∈ p.targets) ∧
      ∀ id row arm, (id, row) ∈ s.outcomeEvents.entries → row.tenantId = run.tenantId →
        row.userPseudonym = u → (latestRunByUser s run.tenantId).get? u = some runId →
        s.experimentAssignments.get? ⟨run.tenantId, row.experimentId, u⟩ = some arm →
        (∀ e ∈ newExamples s run.tenantId, e.sourceOutcomeId = toString id →
          LabeledByArm arm snap e) ∧
        ((run.tenantId, toString id) ∉ existing s run.tenantId →
          ∃ e ∈ newExamples s run.tenantId, e.sourceOutcomeId = toString id) := by
  -- the snapshot of the user, as it was saved
  obtain ⟨saved, hmem, huser⟩ : ∃ saved ∈ featureSnapshots store run a.picks,
      saved.userPseudonym = u := ⟨_, List.mem_map_of_mem hu, rfl⟩
  have hgiven := Pipeline.incentiveCode_featureSnapshots hrun hmem
  obtain ⟨⟨key, snap⟩, hrow, hentry⟩ := exists_right_of_forall₂ (forall₂_of_mapM hrows) hmem
  obtain ⟨runId', hid', hpair⟩ := Option.map_eq_some_iff.mp hentry
  have hsame : saved.runId = run.runId := by
    obtain ⟨_, -, rfl⟩ := List.mem_map.mp hmem
    rfl
  obtain rfl : runId' = runId := Option.some.inj (hid'.symm.trans (hsame ▸ hid))
  obtain ⟨rfl, hsnap⟩ := Prod.mk.inj hpair
  have hcode : saved.incentiveCode = snap.incentiveCode := congrArg SnapshotRow.incentiveCode hsnap
  rw [huser, hcode] at hgiven
  rw [huser] at hrow
  have hget := get?_of_run hlater (get?_of_saveFeatureSnapshots hsaved hrow)
  refine ⟨_, hget, hgiven, ?_⟩
  rintro id row arm houtcome htenant rfl hlatest harm
  refine ⟨fun e he hsource => labeledByArm houtcome htenant harm hlatest hget he hsource, ?_⟩
  intro hnew
  have hloaded : outcomeEvent s run.tenantId id row arm ∈ loadOutcomes s run.tenantId :=
    mem_loadOutcomes.mpr ⟨id, row, arm, houtcome, htenant, htenant ▸ harm, rfl⟩
  have hp := mem_snapshotRows.mpr ⟨Dict.get?_eq_some.mp hget, rfl⟩
  have hfound := snapshotOf_outcomeEvent id arm hp rfl hlatest
  obtain ⟨e, he, hkey⟩ := exists_mem_toLabeledExamples hloaded hnew (by rw [hfound]; rfl)
  exact ⟨e, he, (Prod.mk.inj hkey).2⟩

/-- The run of `user1` alone, with the number 4 for its id. -/
def numberedRun : ScoredRun ℚ := { Pipeline.loneRun with runId := toString 4 }

/-- Nothing is left to spend. -/
def spentSettings : PipelineSettings ℚ := { Pipeline.sampleSettings with defaultBudgetIdr := 0 }

/-- What that run saves if it picks nobody. -/
def numberedRows : List (SnapshotKey × SnapshotRow ℚ) :=
  (featureSnapshots Pipeline.sampleStore numberedRun []).map
    (snapshotEntry (fun _ => .empty) Pipeline.sampleTenantId 4)

/-- The outcome of `user1`, who has stayed. -/
def numberedOutcome : OutcomeRow :=
  ⟨Pipeline.sampleTenantId, 1, Pipeline.user1, .retained, 90000, none⟩

/-- What happens later: the arm is on record, and the outcome is posted. -/
def numberedActions : List (Action ℚ) :=
  [.recordAssignment ⟨Pipeline.sampleTenantId, 1, Pipeline.user1⟩ .engine,
    .recordOutcome 7 numberedOutcome]

/-- Without a budget the run picks nobody. -/
theorem exists_spentAllocated : ∃ a, decisionStages Pipeline.sampleHashes spentSettings
    Pipeline.sampleStore numberedRun Pipeline.zeroRegressor = some a ∧ a.picks = [] := by
  have hpicks : ∃ a ∈ decisionStages Pipeline.sampleHashes spentSettings Pipeline.sampleStore
      numberedRun Pipeline.zeroRegressor, a.picks.length = 0 := by decide +kernel
  obtain ⟨a, hrun, hlength⟩ := hpicks
  exact ⟨a, hrun, List.length_eq_zero_iff.mp hlength⟩

theorem snapshotEntries_numberedRun : snapshotEntries (fun _ => .empty) Pipeline.sampleTenantId
    (featureSnapshots Pipeline.sampleStore numberedRun []) = some numberedRows := by
  have hid : maybeUuid (toString 4) = some 4 := Nat.toNat?_repr 4
  have huser : (featureSnapshots Pipeline.sampleStore numberedRun []).map
      Pipeline.FeatureSnapshot.runId = [toString 4] := by decide +kernel
  obtain ⟨s, hs, hrunId⟩ := List.map_eq_singleton_iff.mp huser
  unfold snapshotEntries numberedRows
  rw [hs, List.mapM_cons, List.mapM_nil, hrunId, hid]
  rfl

/-- The outcome is labeled with the arm and with the snapshot of that run. -/
theorem exists_numberedTables : ∃ t' ∈ saveFeatureSnapshots .empty numberedRows 86400,
    (7, numberedOutcome) ∈ (numberedActions.foldl step t').outcomeEvents.entries ∧
      (latestRunByUser (numberedActions.foldl step t') Pipeline.sampleTenantId).get?
        Pipeline.user1 = some 4 ∧
      (numberedActions.foldl step t').experimentAssignments.get?
        ⟨Pipeline.sampleTenantId, 1, Pipeline.user1⟩ = some .engine ∧
      (Pipeline.sampleTenantId, toString 7) ∉
        existing (numberedActions.foldl step t') Pipeline.sampleTenantId := by
  decide +kernel

theorem labeled_byArm_numbered : ∃ (t' : Tables ℚ) (snap : SnapshotRow ℚ) (e : LabeledExample ℚ),
    saveFeatureSnapshots .empty numberedRows 86400 = some t' ∧
      e ∈ newExamples (numberedActions.foldl step t') Pipeline.sampleTenantId ∧
      LabeledByArm .engine snap e := by
  obtain ⟨a, hrun, hnone⟩ := exists_spentAllocated
  obtain ⟨t', hsaved, houtcome, hlatest, harm, hnew⟩ := exists_numberedTables
  obtain ⟨tr, hlater⟩ := Run.exists_of_foldl step t' numberedActions
  have hid : maybeUuid numberedRun.runId = some 4 := Nat.toNat?_repr 4
  have hrows : snapshotEntries (fun _ => .empty) numberedRun.tenantId
      (featureSnapshots Pipeline.sampleStore numberedRun a.picks) = some numberedRows := by
    rw [hnone]
    exact snapshotEntries_numberedRun
  have hu : Pipeline.user1 ∈ numberedRun.users := by decide +kernel
  obtain ⟨snap, -, -, hlabeled⟩ := labeled_byArm hrun hid hrows hsaved hlater hu
  obtain ⟨hall, hexists⟩ := hlabeled 7 numberedOutcome .engine houtcome rfl rfl hlatest harm
  obtain ⟨e, he, hsource⟩ := hexists hnew
  exact ⟨t', snap, e, hsaved, he, hall e he hsource⟩

/-- **Treated without an incentive**: nothing was left for `user1`, whose
snapshot carries none, and the outcome is labeled as treated. -/
theorem not_treated_iff_incentive : ∃ (a : Allocated ℚ) (t' : Tables ℚ),
    decisionStages Pipeline.sampleHashes spentSettings Pipeline.sampleStore numberedRun
      Pipeline.zeroRegressor = some a ∧ (∀ p ∈ a.picks, Pipeline.user1 ∉ p.targets) ∧
      snapshotEntries (fun _ => .empty) numberedRun.tenantId
        (featureSnapshots Pipeline.sampleStore numberedRun a.picks) = some numberedRows ∧
      saveFeatureSnapshots .empty numberedRows 86400 = some t' ∧
      (t'.featureSnapshots.get? ⟨numberedRun.tenantId, 4, Pipeline.user1⟩).map
        SnapshotRow.incentiveCode = some none ∧
      (newExamples (numberedActions.foldl step t') numberedRun.tenantId).map (fun e =>
        (e.userPseudonym, e.sourceOutcomeId, e.treated)) =
          [(Pipeline.user1, toString 7, true)] := by
  obtain ⟨a, hrun, hnone⟩ := exists_spentAllocated
  have hlabeled : ∃ t' ∈ saveFeatureSnapshots .empty numberedRows 86400,
      (t'.featureSnapshots.get? ⟨numberedRun.tenantId, 4, Pipeline.user1⟩).map
        SnapshotRow.incentiveCode = some none ∧
      (newExamples (numberedActions.foldl step t') numberedRun.tenantId).map (fun e =>
        (e.userPseudonym, e.sourceOutcomeId, e.treated)) =
          [(Pipeline.user1, toString 7, true)] := by
    decide +kernel
  obtain ⟨t', hsaved, hrest⟩ := hlabeled
  refine ⟨a, t', hrun, ?_, ?_, hsaved, hrest⟩
  · rw [hnone]
    exact fun p hp => absurd hp List.not_mem_nil
  · rw [hnone]
    exact snapshotEntries_numberedRun

end Feedback

end RetentionEngine
