import RetentionEngine.Worker.Stages

/-!
# What the stages keep

A relation between two stores that the store calls of a tenant's run keep
is kept by the run (`runPipeline_keeps`): two runs from related stores
return the same and leave related stores behind. The calls are those the
stages make, with what is known of their arguments: the rows that go by
their own tenant are the run's.
-/

namespace RetentionEngine

namespace Worker

open Prog (Keeps)
open Pipeline (RunEnv Stage)

variable {T : Parts} {K α : Type}

/-- **Every store call of the tenant's stages keeps the relation**, and its
outcomes are its own. -/
structure StageCallsKeep (R : InMemoryStore T.toRows K → InMemoryStore T.toRows K → Prop)
    (tenantId : String) : Prop where
  ownOutcomes : ∀ s s', R s s' → ∀ o ∈ (s.bucket tenantId).data.outcomes, o.tenantId = tenantId
  reads : ∀ {α : Type} (f : Data T.toRows K → α), Keeps R (Store.ofData tenantId f)
  markRawEvent : ∀ id status error, Keeps R (Store.markRawEvent tenantId id status error)
  saveCanonicalEvent : ∀ e, Keeps R (Store.saveCanonicalEvent tenantId e)
  upsertUserAttributes : ∀ user attributes,
    Keeps R (Store.upsertUserAttributes tenantId user attributes)
  saveExternalSignals : ∀ signals, Keeps R (Store.saveExternalSignals signals)
  saveCircles : ∀ snapshots circles, Keeps R (Store.saveCircles tenantId snapshots circles)
  saveRiskScores : ∀ scores, Keeps R (Store.saveRiskScores tenantId scores)
  saveImpactScores : ∀ scores, Keeps R (Store.saveImpactScores tenantId scores)
  savePolicyDecisions : ∀ decisions, Keeps R (Store.savePolicyDecisions tenantId decisions)
  getOrCreateExperiment : Keeps R (Store.getOrCreateExperiment tenantId)
  saveArmAssignment : ∀ p, Keeps R (Store.saveArmAssignment tenantId p)
  saveAllocation : ∀ result extra, Keeps R (Store.saveAllocation tenantId result extra)
  saveNarration : ∀ row, Keeps R (Store.saveNarration tenantId row)
  saveFeatureSnapshot : ∀ s, s.tenantId = tenantId → Keeps R (Store.saveFeatureSnapshot s)
  createRecommendation : ∀ r, r.tenantId = tenantId → Keeps R (Store.createRecommendation r)
  appendAudit : ∀ row, Keeps R (Store.appendAudit tenantId row)
  saveLabeledExample : ∀ e, e.tenantId = tenantId → Keeps R (Store.saveLabeledExample e)

/-- **Every store call of a run keeps it.** -/
structure CallsKeep (R : InMemoryStore T.toRows K → InMemoryStore T.toRows K → Prop)
    (tenantId : String) : Prop extends StageCallsKeep R tenantId where
  recordStage : ∀ record, record.tenantId = tenantId → Keeps R (Store.recordStage record)

/-- **Two stages in step** work on the same run, over related stores. -/
def SameRun (R : InMemoryStore T.toRows K → InMemoryStore T.toRows K → Prop)
    (x x' : Run T K × InMemoryStore T.toRows K) : Prop :=
  x.1 = x'.1 ∧ R x.2 x'.2

variable {R : InMemoryStore T.toRows K → InMemoryStore T.toRows K → Prop} {env : RunEnv}
  {P : Packages T K} {settings : Settings}

theorem call_keeps {m : Call T.toRows K α} (hm : Keeps R m) : Keeps (SameRun R) (call m) :=
  hm.zoom (fun _ _ h => h.2) fun _ _ _ _ h ht => ⟨h.1, ht⟩

theorem theRun_keeps : Keeps (SameRun R) (theRun : StageCall T K (Run T K)) :=
  .read fun _ _ h => h.1

theorem change_keeps (f : Run T K → Run T K) : Keeps (SameRun R) (change f) :=
  .modify fun _ _ h => ⟨congrArg f h.1, h.2⟩

section Stages

variable (h : StageCallsKeep R env.tenantId)

include h

/-! ## INGEST -/

theorem ingestEvent_keeps (config : T.Config) (x : Batch) (raw : RawEventRecord T.toRows) :
    Keeps R (ingestEvent P env config x raw) := by
  unfold ingestEvent
  split
  · exact (h.markRawEvent _ _ _).bind fun _ => .pure _
  · exact .raise _
  · split
    · exact (h.upsertUserAttributes _ _).bind fun _ => (h.markRawEvent _ _ _).bind fun _ => .pure _
    · exact (h.markRawEvent _ _ _).bind fun _ => .pure _

theorem ingestBatch_keeps (config : T.Config) (claimed : List (RawEventRecord T.toRows))
    (counts : ℕ × ℕ) : Keeps R (ingestBatch P env config claimed counts) :=
  (Keeps.foldlM (fun x raw _ => ingestEvent_keeps h config x raw) _).bind fun _ =>
    (Keeps.forM fun e _ => h.saveCanonicalEvent e).bind fun _ => .pure _

theorem ingestLoop_keeps (config : T.Config) (fuel : ℕ) (counts : ℕ × ℕ) :
    Keeps R (ingestLoop P settings env config fuel counts) := by
  induction fuel generalizing counts with
  | zero => exact .pure _
  | succ fuel ih =>
      refine (h.reads _).bind fun claimed => ?_
      split
      · exact .pure _
      · exact (ingestBatch_keeps h config claimed counts).bind ih

theorem ingestStage_keeps : Keeps (SameRun R) (ingestStage P settings env) := by
  refine theRun_keeps.bind fun run => .bindLift fun config _ => ?_
  have hall : Keeps R (ingestAll P settings env config) :=
    (h.reads _).bind fun n => ingestLoop_keeps h config (n + 1) (0, 0)
  refine (call_keeps hall).bind fun counts => (call_keeps (h.reads _)).bind fun loaded => ?_
  exact (call_keeps (h.reads _)).bind fun attributes => (change_keeps _).bind fun _ => .pure _

/-! ## FEEDBACK to EXPLAIN -/

omit h in
/-- An example is of the tenant of its outcome. -/
theorem exists_of_mem_toLabeledExamples [Field K] {outcomes : List Feedback.OutcomeEvent}
    {snapshots : Dict (String × String) (Feedback.FeatureSnapshot K)}
    {existing : List (String × String)} {e : Feedback.LabeledExample K}
    (he : e ∈ Feedback.toLabeledExamples outcomes snapshots existing) :
    ∃ o ∈ outcomes, e.tenantId = o.tenantId := by
  obtain ⟨o, ho, -, snap, -, rfl⟩ := Feedback.exists_of_mem_labeledFrom he
  exact ⟨o, (List.mem_insertionSort _).mp ho, rfl⟩

theorem ingestOutcomes_keeps [Field K] [LinearOrder K] :
    Keeps R (ingestOutcomes settings env : Call T.toRows K _) := by
  let own (outcomes : List Feedback.OutcomeEvent) : Prop :=
    ∀ o ∈ outcomes, o.tenantId = env.tenantId
  have hload : ∀ s s' outcomes t, R s s' →
      (Store.loadOutcomes env.tenantId : Call T.toRows K _) s = (.ok outcomes, t) →
      own outcomes := by
    intro s s' outcomes t hR hrun
    obtain rfl := Except.ok.inj (Prod.mk.inj hrun).1
    exact h.ownOutcomes s s' hR
  refine (h.reads _).bindOf hload fun outcomes hown => ?_
  refine (h.reads _).bind fun existing => (h.reads _).bind fun snapshots => ?_
  have htotal : ∀ f : Data T.toRows K → List (Feedback.LabeledExample K), Keeps R
      (Store.ofData env.tenantId f) := fun f => h.reads f
  split
  · refine Keeps.bind (.forM fun e he => h.saveLabeledExample e ?_) fun _ =>
      (htotal _).bind fun _ => .pure _
    obtain ⟨o, ho, heq⟩ := exists_of_mem_toLabeledExamples he
    exact heq.trans (hown o ho)
  · exact (htotal _).bind fun _ => .pure _

theorem feedbackStage_keeps [Field K] [LinearOrder K] :
    Keeps (SameRun R) (feedbackStage settings env : StageCall T K _) :=
  (call_keeps (ingestOutcomes_keeps h)).bind fun _ => .pure _

theorem externalStage_keeps : Keeps (SameRun R) (externalStage P env) :=
  .bindLift fun _ _ => .bindLift fun _ _ => (call_keeps (h.saveExternalSignals _)).bind fun _ =>
    theRun_keeps.bind fun _ => .bindLift fun _ _ => (change_keeps _).bind fun _ => .pure _

theorem graphStage_keeps : Keeps (SameRun R) (graphStage P env) := by
  refine theRun_keeps.bind fun run => ?_
  split
  · exact .bindLift fun _ _ => (change_keeps _).bind fun _ =>
      (call_keeps (h.saveCircles _ _)).bind fun _ => .pure _
  · exact (change_keeps _).bind fun _ => .pure _

theorem riskStage_keeps : Keeps (SameRun R) (riskStage P env) :=
  (call_keeps (h.reads _)).bind fun _ => (change_keeps _).bind fun _ => theRun_keeps.bind fun _ =>
    .bindLift fun _ _ => (change_keeps _).bind fun _ =>
      (Keeps.optionForM fun _ _ => call_keeps (h.saveRiskScores _)).bind fun _ => .pure _

theorem impactStage_keeps : Keeps (SameRun R) (impactStage P env) :=
  theRun_keeps.bind fun _ => .bindLift fun _ _ => (change_keeps _).bind fun _ =>
    (Keeps.optionForM fun _ _ => call_keeps (h.saveImpactScores _)).bind fun _ => .pure _

theorem policyStage_keeps : Keeps (SameRun R) (policyStage P env) :=
  (call_keeps (h.reads _)).bind fun _ => theRun_keeps.bind fun _ => .bindLift fun _ _ =>
    (change_keeps _).bind fun _ => (call_keeps (h.reads _)).bind fun _ =>
      theRun_keeps.bind fun _ => .bindLift fun _ _ => (change_keeps _).bind fun _ =>
        (call_keeps (h.savePolicyDecisions _)).bind fun _ => .pure _

omit h in
theorem rankStage_keeps : Keeps (SameRun R) (rankStage P env) :=
  theRun_keeps.bind fun _ => .bindLift fun _ _ => (change_keeps _).bind fun _ => .pure _

theorem allocateStage_keeps : Keeps (SameRun R) (allocateStage P env) :=
  (call_keeps h.getOrCreateExperiment).bind fun _ => theRun_keeps.bind fun _ =>
    .bindLift fun _ _ => (call_keeps (.forM fun p _ => h.saveArmAssignment p)).bind fun _ =>
      .bindLift fun _ _ => (change_keeps _).bind fun _ =>
        (call_keeps (h.saveAllocation _ _)).bind fun _ => .pure _

theorem explainStage_keeps : Keeps (SameRun R) (explainStage P env) := by
  refine theRun_keeps.bind fun run => Keeps.bind ?_ fun _ => theRun_keeps.bind fun _ => .pure _
  refine .foldlM (fun cache p _ => ?_) _
  exact theRun_keeps.bind fun _ => .bindLift fun _ _ => (change_keeps _).bind fun _ =>
    (call_keeps (h.saveNarration _)).bind fun _ => .pure _

/-! ## PERSIST -/

omit h in
/-- **What is built is of the run's tenant.** -/
theorem tenantId_of_buildRecommendations {work : Pipeline.Work K T.Rest}
    {recommendations : List (Pipeline.Recommendation K)}
    (hbuild : Pipeline.buildRecommendations env work = .ok recommendations) :
    ∀ r ∈ recommendations, r.tenantId = env.tenantId := by
  intro r hr
  obtain ⟨p, -, hp⟩ := exists_left_of_forall₂ (forall₂_of_mapM_ok hbuild) hr
  obtain ⟨-, -, hp⟩ := exists_of_bind_eq_ok hp
  obtain ⟨narration, -, hp⟩ := exists_of_bind_eq_ok hp
  obtain rfl := Except.ok.inj hp
  rfl

theorem persistStage_keeps [Sub K] : Keeps (SameRun R) (persistStage env : StageCall T K _) := by
  refine theRun_keeps.bind fun run => .bindLift fun recommendations hbuild => ?_
  have hcreate : Keeps R (Store.createRecommendations (recommendations.map unreviewed)) := by
    refine .forM fun row hrow => h.createRecommendation row ?_
    obtain ⟨r, hr, rfl⟩ := List.mem_map.mp hrow
    exact tenantId_of_buildRecommendations hbuild r hr
  refine (call_keeps hcreate).bind fun _ => (change_keeps _).bind fun _ =>
    .bindLift fun snapshots _ => ?_
  have hsave : Keeps R (Store.saveFeatureSnapshots (snapshots.map (snapshotRow env run.work))) := by
    refine .forM fun row hrow => h.saveFeatureSnapshot row ?_
    obtain ⟨s, -, rfl⟩ := List.mem_map.mp hrow
    rfl
  exact (call_keeps hsave).bind fun _ =>
    Keeps.bind (.forM fun r _ => call_keeps (h.appendAudit _)) fun _ => .pure _

/-! ## The run -/

variable [Field K] [LinearOrder K]

theorem stageFunc_keeps (stage : Stage) : Keeps (SameRun R) (stageFunc P settings env stage) := by
  cases stage with
  | ingest => exact (ingestStage_keeps h).bind fun _ => .pure _
  | feedback => exact (feedbackStage_keeps h).bind fun _ => .pure _
  | external => exact (externalStage_keeps h).bind fun _ => .pure _
  | graph => exact graphStage_keeps h
  | risk => exact (riskStage_keeps h).bind fun _ => .pure _
  | impact => exact (impactStage_keeps h).bind fun _ => .pure _
  | policy => exact (policyStage_keeps h).bind fun _ => .pure _
  | rank => exact rankStage_keeps.bind fun _ => .pure _
  | allocate => exact (allocateStage_keeps h).bind fun _ => .pure _
  | explain => exact (explainStage_keeps h).bind fun _ => .pure _
  | persist => exact (persistStage_keeps h).bind fun _ => .pure _

end Stages

section Run

variable [Field K] [LinearOrder K] (h : CallsKeep R env.tenantId)

include h

omit [Field K] [LinearOrder K] in
theorem record_keeps (stage : Stage) (status : Pipeline.StageStatus) (detail : Detail T.toRows K) :
    Keeps R (record env stage status detail) := h.recordStage _ rfl

theorem runStages_keeps (l : List Stage) :
    Keeps (SameRun R) (runStages P settings env l) := by
  induction l with
  | nil => exact .pure _
  | cons stage rest ih =>
      refine (call_keeps (record_keeps h _ _ _)).bind fun _ => ?_
      refine (stageFunc_keeps h.toStageCallsKeep stage).attempt.bind fun r => ?_
      cases r with
      | error e => exact (call_keeps (record_keeps h _ _ _)).bind fun _ => .pure _
      | ok r =>
          exact (call_keeps (record_keeps h _ _ _)).bind fun _ => ih.bind fun _ => .pure _

/-- **A run keeps what its store calls keep.** -/
theorem runPipeline_keeps : Keeps R (runPipeline P settings env) := by
  have htenant : Keeps R (Store.getTenant env.tenantId) := by
    refine (h.reads _).bind fun tenant => ?_
    cases tenant with
    | none => exact .raise _
    | some tenant => exact .pure _
  refine htenant.bind fun tenant => ?_
  refine Keeps.bind (.forM fun stage _ => record_keeps h _ _ _) fun _ => .within ?_
  exact (runStages_keeps h _).bind fun _ => theRun_keeps.bind fun _ => .pure _

end Run

end Worker

end RetentionEngine
