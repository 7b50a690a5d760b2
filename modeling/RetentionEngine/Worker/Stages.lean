import RetentionEngine.Worker.MemoryStore

/-!
# The stages over the store

`run_pipeline` of `worker.pipeline`, call by call: which store calls the
stages make, in which order, and what becomes of an exception. INGEST,
FEEDBACK, EXTERNAL and PERSIST are as the source has them. Of the stages
between, what they compute of the run without the store is a parameter;
what they load, save and in which order is not.
-/

namespace RetentionEngine

namespace Worker

open Python (Text Json)
open Prog (Keeps Both)
open Pipeline (RunEnv Stage StageStatus Narration Pick Work)

/-- The types of what only the stages use: a config, a feed item, what else
is in `_Run`, and the cache of EXPLAIN. -/
structure Parts extends Rows where
  Config : Type
  Item : Type
  Rest : Type
  Cache : Type

variable (T : Parts) (K : Type)

/-- The settings of the stages that are transcribed. -/
structure Settings where
  workerBatchSize : ℤ
  loadedSeconds : Timestamp
  feedbackUseInContext : Bool
  feedbackMinRowsPerCycle : ℤ
  measurementMinArmSize : ℤ
  deriving DecidableEq, Repr

/-- **`_Run`**; the users are those of `work`. -/
structure Run where
  tenant : TenantRecord T.toRows
  events : List IngestMapping.CanonicalEvent
  attributes : Dict String (Dict Text Json)
  signalOf : Dict String (Option T.Signal)
  labeled : List (Feedback.LabeledExample K)
  work : Work K T.Rest
  recommendationIds : List String

/-- **What the stages compute without the store.** -/
structure Packages where
  initial : T.Rest
  fromDict : T.Mapping → Except String T.Config
  normalize : String → T.Body → T.Config → Except IngestMapping.Raised IngestMapping.CanonicalEvent
  errorText : IngestMapping.Raised → String
  loadFeed : Except String (List T.Item × String)
  toSignal : T.Item → Except String (Option T.Signal)
  resolveForUser : List T.Signal → TenantRecord T.toRows → Dict Text Json → Timestamp →
    Except String (Option T.Signal)
  inGraphProfiles : String → Bool
  emptySnapshots : RunEnv → Run T K → Work K T.Rest × T.Detail
  graph : RunEnv → Run T K →
    Except String (Work K T.Rest × List T.CircleSnapshot × List T.Circle × T.Detail)
  risk : RunEnv → Run T K → Except String (Work K T.Rest × Option (List T.RiskScore) × T.Detail)
  impact : RunEnv → Run T K →
    Except String (Work K T.Rest × Option (Dict String T.ImpactScore) × T.Detail)
  candidates : RunEnv → Run T K → List T.Incentive → Except String (Work K T.Rest)
  evaluate : RunEnv → Run T K → Dict String (List Timestamp) →
    Except String (Work K T.Rest × List T.PolicyDecision × T.Detail)
  rank : RunEnv → Run T K → Except String (Work K T.Rest × T.Detail)
  assignArms : RunEnv → Run T K → String → Except String (Dict String Arm)
  allocate : RunEnv → Run T K → Dict String Arm →
    Except String (Work K T.Rest × T.AllocationResult × List T.AllocationDecision × T.Detail)
  emptyCache : T.Cache
  narrate : RunEnv → Run T K → T.Cache → ℕ → Pick K → Except String (Narration × T.Cache)
  narrated : RunEnv → Run T K → T.Detail

/-- A stage: it works on the run and calls the store. -/
abbrev StageCall (α : Type) := Prog (Run T K × InMemoryStore T.toRows K) String α

variable {T K} {α : Type}

/-- A store call of a stage. -/
def call (m : Call T.toRows K α) : StageCall T K α := .zoom Prod.snd (fun s x => (x.1, s)) m

/-- The run as it is. -/
def theRun : StageCall T K (Run T K) := .read Prod.fst

/-- A change of the run. -/
def change (f : Run T K → Run T K) : StageCall T K Unit := .modify fun x => (f x.1, x.2)

/-- `run.work` is `work` from now on. -/
def setWork (work : Work K T.Rest) : StageCall T K Unit :=
  change fun run => { run with work := work }

section Ingest

variable (P : Packages T K) (settings : Settings) (env : RunEnv)

/-- `canonical`, `processed` and `unmapped` of `_ingest`. -/
structure Batch where
  canonical : List IngestMapping.CanonicalEvent
  processed : ℕ
  unmapped : ℕ

/-- One raw event of a batch. -/
def ingestEvent (config : T.Config) (x : Batch) (raw : RawEventRecord T.toRows) :
    Call T.toRows K Batch :=
  match P.normalize env.tenantId raw.body config with
  | .error (.mappingError message) => do
      Store.markRawEvent env.tenantId raw.rawEventId .unmapped (some message)
      return { x with unmapped := x.unmapped + 1 }
  | .error e => .raise (P.errorText e)
  | .ok event => do
      if ¬ event.attributes.entries.isEmpty then
        Store.upsertUserAttributes env.tenantId event.userPseudonym event.attributes
      Store.markRawEvent env.tenantId raw.rawEventId .processed none
      return ⟨x.canonical ++ [event], x.processed + 1, x.unmapped⟩

/-- The body of the `while`. -/
def ingestBatch (config : T.Config) (claimed : List (RawEventRecord T.toRows)) (counts : ℕ × ℕ) :
    Call T.toRows K (ℕ × ℕ) := do
  let x ← claimed.foldlM (ingestEvent P env config) ⟨[], counts.1, counts.2⟩
  Store.saveCanonicalEvents env.tenantId x.canonical
  return (x.processed, x.unmapped)

/-- The `while` of `_ingest`, for at most `fuel` batches. -/
def ingestLoop (config : T.Config) : ℕ → ℕ × ℕ → Call T.toRows K (ℕ × ℕ)
  | 0, counts => return counts
  | fuel + 1, counts => do
      let claimed ← Store.claimRawEvents env.tenantId settings.workerBatchSize
      if claimed.isEmpty then return counts
      else do
        let counts ← ingestBatch P env config claimed counts
        ingestLoop config fuel counts

/-- The `while` of `_ingest`: a batch leaves less to claim. -/
def ingestAll (config : T.Config) : Call T.toRows K (ℕ × ℕ) := do
  let n ← Store.ofData env.tenantId fun d => (Store.newEvents d).length
  ingestLoop P settings env config (n + 1) (0, 0)

/-- `sorted(by_user)`. -/
def usersOf (events : List IngestMapping.CanonicalEvent) : List String :=
  (events.map IngestMapping.CanonicalEvent.userPseudonym).dedup.insertionSort (· ≤ ·)

/-- `_ingest`. -/
def ingestStage : StageCall T K (Detail T.toRows K) := do
  let run ← theRun
  let config ← .lift (P.fromDict run.tenant.mapping)
  let (processed, unmapped) ← call (ingestAll P settings env config)
  let loaded ← call (Store.loadCanonicalEvents env.tenantId (env.now - settings.loadedSeconds))
  let events := loaded.filter fun e => ExternalSignals.instant e.occurredAt ≤ env.now
  let attributes ← call (Store.loadUserAttributes env.tenantId)
  change fun run => { run with
    events := events, attributes := attributes
    work := { run.work with users := usersOf events } }
  return .ingest processed unmapped (usersOf events).length

end Ingest

section Feedback

variable [Field K] [LinearOrder K] (settings : Settings) (env : RunEnv)

/-- `ingest_outcomes`. -/
def ingestOutcomes : Call T.toRows K (Feedback.Summary × Measurement.Lift K) := do
  let outcomes ← Store.loadOutcomes env.tenantId
  let existing ← Store.loadLabeledExamples env.tenantId
  let snapshots ← Store.loadFeatureSnapshots env.tenantId
  let new := Feedback.toLabeledExamples outcomes snapshots
    (existing.map fun e => (e.tenantId, e.sourceOutcomeId))
  if settings.feedbackUseInContext then Store.saveLabeledExamples new
  let total ← Store.loadLabeledExamples env.tenantId
  return (Feedback.summarize new total.length settings.feedbackMinRowsPerCycle
    settings.feedbackUseInContext,
    Measurement.computeLift settings.measurementMinArmSize
      (outcomes.map Measurement.LiftInput.event))

/-- `_feedback`. -/
def feedbackStage : StageCall T K (Detail T.toRows K) := do
  let (feedback, lift) ← call (ingestOutcomes settings env)
  return .feedback feedback lift

end Feedback

section Compute

variable (P : Packages T K) (env : RunEnv)

/-- `signals` and `rejected` of `_external`. -/
def toSignals (items : List T.Item) : Except String (List T.Signal × ℕ) :=
  items.foldlM (fun x item => do
    match ← P.toSignal item with
    | some signal => return (x.1 ++ [signal], x.2)
    | none => return (x.1, x.2 + 1)) ([], 0)

/-- What `run.signal_of` is filled with. -/
def resolveAll (run : Run T K) (signals : List T.Signal) :
    Except String (List (String × Option T.Signal)) :=
  run.work.users.mapM fun user => do
    let attributes := (run.attributes.get? user).getD .empty
    let signal ← P.resolveForUser signals run.tenant attributes env.now
    return (user, signal)

/-- `_external`. -/
def externalStage : StageCall T K (Detail T.toRows K) := do
  let (items, source) ← .lift P.loadFeed
  let (signals, rejected) ← .lift (toSignals P items)
  call (Store.saveExternalSignals signals)
  let run ← theRun
  let resolved ← .lift (resolveAll P env run signals)
  change fun run => { run with signalOf := .ofList Prod.fst Prod.snd resolved }
  return .external source signals.length rejected (resolved.countP fun p => p.2.isSome)

/-- `_graph`, and whether it was skipped. -/
def graphStage : StageCall T K (Detail T.toRows K × Bool) := do
  let run ← theRun
  if P.inGraphProfiles run.tenant.profileType then
    let (work, snapshots, circles, detail) ← .lift (P.graph env run)
    setWork work
    call (Store.saveCircles env.tenantId snapshots circles)
    return (.computed detail, false)
  else
    setWork (P.emptySnapshots env run).1
    return (.computed (P.emptySnapshots env run).2, true)

/-- `_risk`; the trained scorer saves nothing if there are no users. -/
def riskStage : StageCall T K (Detail T.toRows K) := do
  let labeled ← call (Store.loadLabeledExamples env.tenantId)
  change fun run => { run with labeled := labeled }
  let run ← theRun
  let (work, scores, detail) ← .lift (P.risk env run)
  setWork work
  scores.forM fun scores => call (Store.saveRiskScores env.tenantId scores)
  return .computed detail

/-- `_impact`; nothing is saved where the context is too small. -/
def impactStage : StageCall T K (Detail T.toRows K) := do
  let run ← theRun
  let (work, scores, detail) ← .lift (P.impact env run)
  setWork work
  scores.forM fun scores => call (Store.saveImpactScores env.tenantId scores)
  return .computed detail

/-- `_policy`. -/
def policyStage : StageCall T K (Detail T.toRows K) := do
  let incentives ← call (Store.loadIncentives env.tenantId)
  let run ← theRun
  let work ← .lift (P.candidates env run incentives)
  setWork work
  let contacts ← call (Store.loadContactTimes env.tenantId)
  let run ← theRun
  let (work, decisions, detail) ← .lift (P.evaluate env run contacts)
  setWork work
  call (Store.savePolicyDecisions env.tenantId decisions)
  return .computed detail

/-- `_rank`. -/
def rankStage : StageCall T K (Detail T.toRows K) := do
  let run ← theRun
  let (work, detail) ← .lift (P.rank env run)
  setWork work
  return .computed detail

/-- `_allocate`. -/
def allocateStage : StageCall T K (Detail T.toRows K) := do
  let experimentId ← call (Store.getOrCreateExperiment env.tenantId)
  let run ← theRun
  let arms ← .lift (P.assignArms env run experimentId)
  call (Store.saveArmAssignments env.tenantId arms)
  let (work, result, extra, detail) ← .lift (P.allocate env run arms)
  setWork work
  call (Store.saveAllocation env.tenantId result extra)
  return .computed detail

/-- One pick of `_explain`. -/
def explainPick (cache : T.Cache) (p : Pick K × ℕ) : StageCall T K T.Cache := do
  let run ← theRun
  let (narration, cache) ← .lift (P.narrate env run cache p.2 p.1)
  setWork { run.work with narrations := run.work.narrations.set p.2 narration }
  call (Store.saveNarration env.tenantId
    ⟨env.runId, narration.factSheetHash, narration.text, narration.source⟩)
  return cache

/-- `_explain`. -/
def explainStage : StageCall T K (Detail T.toRows K) := do
  let run ← theRun
  let _ ← run.work.picks.zipIdx.foldlM (explainPick P env) P.emptyCache
  let run ← theRun
  return .computed (P.narrated env run)

end Compute

section Persist

variable [Sub K] (env : RunEnv)

/-- `Recommendation` as the worker builds it. -/
def unreviewed (r : Pipeline.Recommendation K) : RecommendationRow K := ⟨r, none, none⟩

/-- The row of a snapshot: with its tenant, and with the features. -/
def snapshotRow (work : Work K T.Rest) (s : Pipeline.FeatureSnapshot K) :
    Feedback.FeatureSnapshot K where
  tenantId := env.tenantId
  runId := s.runId
  userPseudonym := s.userPseudonym
  features := (work.features.get? s.userPseudonym).getD .empty
  churnRisk := some s.churnRisk
  impactScore := s.impactScore
  patternType := some s.patternType
  incentiveCode := s.incentiveCode
  costIdr := s.costIdr
  businessValueIdr := s.businessValueIdr

/-- What is audited of a recommendation. -/
def auditRow (r : Pipeline.Recommendation K) : AuditRow :=
  ⟨"app_worker", "RECOMMENDATION_CREATED", "recommendation", r.recommendationId, r.status, r.arm⟩

/-- `_persist`. -/
def persistStage : StageCall T K (Detail T.toRows K) := do
  let run ← theRun
  let recommendations ← .lift (Pipeline.buildRecommendations env run.work)
  call (Store.createRecommendations (recommendations.map unreviewed))
  change fun run => { run with
    recommendationIds := recommendations.map Pipeline.Recommendation.recommendationId }
  let snapshots ← .lift (run.work.users.mapM (Pipeline.buildSnapshot env run.work))
  call (Store.saveFeatureSnapshots (snapshots.map (snapshotRow env run.work)))
  recommendations.forM fun r => call (Store.appendAudit env.tenantId (auditRow r))
  return .persist recommendations.length .pendingApproval

end Persist

/-! ## INGEST ends -/

section Ends

variable {P : Packages T K} {settings : Settings} {env : RunEnv} {config : T.Config}
  {s t : InMemoryStore T.toRows K} {n : ℕ}

/-- How many events there are to claim. -/
def newCount (tenantId : String) (s : InMemoryStore T.toRows K) : ℕ :=
  (Store.newEvents (s.bucket tenantId).data).length

/-- **A mark leaves nothing new**, and takes the events of its id away. -/
theorem length_newEvents_marked {d : Data T.toRows K} {id : String} {status : RawStatus}
    {error : Option Text} (hstatus : status ≠ .new) :
    (Store.newEvents (Store.marked id status error d)).length ≤ (Store.newEvents d).length ∧
      ((∃ r ∈ Store.newEvents d, r.rawEventId = id) →
        (Store.newEvents (Store.marked id status error d)).length <
          (Store.newEvents d).length) := by
  unfold Store.newEvents Store.marked
  dsimp only
  induction d.rawEvents with
  | nil => exact ⟨le_rfl, nofun⟩
  | cons r l ih =>
      rw [List.map_cons]
      by_cases hid : r.rawEventId = id
      · rw [if_pos hid, List.filter_cons_of_neg (by simpa using hstatus)]
        by_cases hnew : r.status = .new
        · rw [List.filter_cons_of_pos (by simpa using hnew), List.length_cons]
          exact ⟨by omega, fun _ => by omega⟩
        · rw [List.filter_cons_of_neg (by simpa using hnew)]
          exact ih
      · rw [if_neg hid]
        by_cases hnew : r.status = .new
        · rw [List.filter_cons_of_pos (by simpa using hnew), List.filter_cons_of_pos
            (by simpa using hnew), List.length_cons, List.length_cons]
          refine ⟨Nat.succ_le_succ ih.1, ?_⟩
          rintro ⟨r', hr', hid'⟩
          rcases List.mem_cons.mp hr' with rfl | hr'
          · exact absurd hid' hid
          · exact Nat.succ_lt_succ (ih.2 ⟨r', hr', hid'⟩)
        · rw [List.filter_cons_of_neg (by simpa using hnew), List.filter_cons_of_neg
            (by simpa using hnew)]
          exact ih

/-- **At most so many events are left.** -/
def AtMost (tenantId : String) (n : ℕ) (s : InMemoryStore T.toRows K) : Prop :=
  newCount tenantId s ≤ n

theorem newCount_setData {tenantId : String} {d : Data T.toRows K} :
    newCount tenantId (s.setData tenantId d) = (Store.newEvents d).length := by
  rw [newCount, InMemoryStore.bucket_setData]

theorem onData_atMost {tenantId : String} {f : Data T.toRows K → Data T.toRows K}
    (hf : ∀ d, (Store.newEvents (f d)).length ≤ (Store.newEvents d).length) :
    Keeps (Both (AtMost tenantId n)) (Store.onData tenantId f) :=
  Prog.keeps_both fun _ hn => newCount_setData.trans_le ((hf _).trans hn)

theorem ingestEvent_atMost {x : Batch} {raw : RawEventRecord T.toRows} :
    Keeps (Both (AtMost env.tenantId n)) (ingestEvent P env config x raw) := by
  have hmark : ∀ {status : RawStatus} {error : Option Text}, status ≠ .new →
      Keeps (Both (AtMost env.tenantId n))
        (Store.markRawEvent env.tenantId raw.rawEventId status error : Call T.toRows K _) :=
    fun hne => onData_atMost fun _ => (length_newEvents_marked hne).1
  have hupsert : ∀ user attributes, Keeps (Both (AtMost env.tenantId n))
      (Store.upsertUserAttributes env.tenantId user attributes : Call T.toRows K _) :=
    fun _ _ => onData_atMost fun _ => le_rfl
  have hunmapped : RawStatus.unmapped ≠ .new := nofun
  have hprocessed : RawStatus.processed ≠ .new := nofun
  unfold ingestEvent
  split
  · exact (hmark hunmapped).bind fun _ => .pure _
  · exact .raise _
  · split
    · exact (hupsert _ _).bind fun _ => (hmark hprocessed).bind fun _ => .pure _
    · exact (hmark hprocessed).bind fun _ => .pure _

/-- **An event that is normalized** is claimed no more. -/
theorem newCount_ingestEvent {x x' : Batch} {raw : RawEventRecord T.toRows}
    (hraw : raw ∈ Store.newEvents (s.bucket env.tenantId).data)
    (hrun : ingestEvent P env config x raw s = (.ok x', t)) :
    newCount env.tenantId t < newCount env.tenantId s := by
  have hmark : ∀ {status : RawStatus} {error : Option Text} {d : Data T.toRows K},
      status ≠ .new → Store.newEvents d = Store.newEvents (s.bucket env.tenantId).data →
      (Store.newEvents (Store.marked raw.rawEventId status error d)).length <
        newCount env.tenantId s := by
    intro status error d hne hd
    refine ((length_newEvents_marked hne).2 ⟨raw, hd ▸ hraw, rfl⟩).trans_eq ?_
    rw [hd, newCount]
  have hunmapped : RawStatus.unmapped ≠ .new := nofun
  have hprocessed : RawStatus.processed ≠ .new := nofun
  unfold ingestEvent at hrun
  rcases hN : P.normalize env.tenantId raw.body config with e | event
  · rw [hN] at hrun
    cases e with
    | mappingError message =>
        obtain rfl := (Prod.mk.inj hrun).2
        exact newCount_setData.trans_lt (hmark hunmapped rfl)
    | _ => cases hrun
  · rw [hN] at hrun
    by_cases hempty : event.attributes.entries.isEmpty
    · simp only [hempty, not_true_eq_false, if_false] at hrun
      obtain rfl := (Prod.mk.inj hrun).2
      exact newCount_setData.trans_lt (hmark hprocessed rfl)
    · simp only [hempty] at hrun
      obtain rfl := (Prod.mk.inj hrun).2
      refine newCount_setData.trans_lt (hmark hprocessed ?_)
      rw [InMemoryStore.bucket_setData]
      rfl

/-- **A batch leaves less to claim.** -/
theorem newCount_ingestBatch {claimed : List (RawEventRecord T.toRows)} {counts counts' : ℕ × ℕ}
    (hnil : claimed ≠ []) (hclaimed : ∀ raw ∈ claimed,
      raw ∈ Store.newEvents (s.bucket env.tenantId).data)
    (hrun : ingestBatch P env config claimed counts s = (.ok counts', t)) :
    newCount env.tenantId t < newCount env.tenantId s := by
  obtain ⟨raw, rest, rfl⟩ := List.exists_cons_of_ne_nil hnil
  obtain ⟨x, u, hfold, hsave⟩ := Prog.exists_of_bind_ok hrun
  obtain ⟨x', v, hfirst, hrest⟩ := Prog.exists_of_bind_ok hfold
  have hv := newCount_ingestEvent (hclaimed raw List.mem_cons_self) hfirst
  have hfoldl : Keeps (Both (AtMost env.tenantId (newCount env.tenantId v)))
      (rest.foldlM (ingestEvent P env config) x') := .foldlM (fun _ _ _ => ingestEvent_atMost) _
  have hu := hfoldl.invariant (s := v) le_rfl
  have hsaves : Keeps (Both (AtMost env.tenantId (newCount env.tenantId u)))
      (Store.saveCanonicalEvents env.tenantId x.canonical : Call T.toRows K _) := by
    refine .forM fun e _ => ?_
    unfold Store.saveCanonicalEvent
    split
    · exact .raise _
    · exact onData_atMost fun _ => le_rfl
  obtain ⟨u', w, hsaved, hend⟩ := Prog.exists_of_bind_ok hsave
  have hw := hsaves.invariant (s := u) le_rfl
  rw [hrest] at hu
  rw [hsaved] at hw
  obtain rfl := (Prod.mk.inj hend).2
  exact (hw.trans hu).trans_lt hv

/-- **One batch more finds nothing**, if there were as many as events. -/
theorem ingestLoop_succ {fuel : ℕ} {counts : ℕ × ℕ} (hfuel : newCount env.tenantId s < fuel) :
    ingestLoop P settings env config (fuel + 1) counts s =
      ingestLoop P settings env config fuel counts s := by
  induction fuel generalizing counts s with
  | zero => exact absurd hfuel (Nat.not_lt_zero _)
  | succ fuel ih =>
      have hclaim : ∀ m, ingestLoop P settings env config (m + 1) counts s =
          (if (Store.sliceTo (Store.newEvents (s.bucket env.tenantId).data)
              settings.workerBatchSize).isEmpty then pure counts
            else do
              let counts ← ingestBatch P env config (Store.sliceTo (Store.newEvents
                (s.bucket env.tenantId).data) settings.workerBatchSize) counts
              ingestLoop P settings env config m counts) s := fun _ => rfl
      rw [hclaim, hclaim]
      split
      · rfl
      · rename_i hnil
        rcases hrun : ingestBatch P env config _ counts s with ⟨r, t⟩
        cases r with
        | error e => rw [Prog.bind_of_error hrun, Prog.bind_of_error hrun]
        | ok counts' =>
            rw [Prog.bind_of_ok hrun, Prog.bind_of_ok hrun]
            refine ih ?_
            refine Nat.lt_of_lt_of_le (newCount_ingestBatch ?_ ?_ hrun) (Nat.le_of_lt_succ hfuel)
            · simpa using hnil
            · intro raw hraw
              unfold Store.sliceTo at hraw
              split at hraw <;> exact List.mem_of_mem_take hraw

/-- **The `while` of `_ingest` ends**: more batches than are allowed for
change nothing. -/
theorem ingestAll_eq (more : ℕ) : ingestAll P settings env config s =
    ingestLoop P settings env config (newCount env.tenantId s + 1 + more) (0, 0) s := by
  induction more with
  | zero => rfl
  | succ more ih => rw [ih, ← Nat.add_assoc, ingestLoop_succ (by omega)]

end Ends

/-! ## The run -/

variable (T K) in
/-- `StageOutcome`. -/
structure StageOutcome where
  stage : Stage
  status : StageStatus
  detail : Detail T.toRows K

variable (T K) in
/-- `PipelineRunResult`. -/
structure RunResult where
  runId : String
  tenantId : String
  status : Pipeline.RunStatus
  stages : List (StageOutcome T K)
  recommendationIds : List String

section Run

variable [Field K] [LinearOrder K] (P : Packages T K) (settings : Settings) (env : RunEnv)

/-- `_STAGE_FUNCS[stage]`, and whether it was skipped. -/
def stageFunc : Stage → StageCall T K (Detail T.toRows K × Bool)
  | .ingest => do return (← ingestStage P settings env, false)
  | .feedback => do return (← feedbackStage settings env, false)
  | .external => do return (← externalStage P env, false)
  | .graph => graphStage P env
  | .risk => do return (← riskStage P env, false)
  | .impact => do return (← impactStage P env, false)
  | .policy => do return (← policyStage P env, false)
  | .rank => do return (← rankStage P env, false)
  | .allocate => do return (← allocateStage P env, false)
  | .explain => do return (← explainStage P env, false)
  | .persist => do return (← persistStage env, false)

/-- `store.record_stage(StageRecord(run_id, tenant_id, …))`. -/
def record (stage : Stage) (status : StageStatus) (detail : Detail T.toRows K) :
    Call T.toRows K Unit :=
  Store.recordStage ⟨env.runId, env.tenantId, stage, status, detail⟩

/-- The loop of `run_pipeline`. -/
def runStages : List Stage → StageCall T K (Pipeline.RunStatus × List (StageOutcome T K))
  | [] => return (.done, [])
  | stage :: rest => do
      call (record env stage .running .empty)
      match ← (stageFunc P settings env stage).attempt with
      | .error e =>
          call (record env stage .failed (.error e))
          return (.failed, ⟨stage, .failed, .error e⟩ :: rest.map fun s => ⟨s, .pending, .empty⟩)
      | .ok (detail, skipped) =>
          let status := Pipeline.ended skipped
          call (record env stage status detail)
          let (final, outcomes) ← runStages rest
          return (final, ⟨stage, status, detail⟩ :: outcomes)

/-- `_Run(tenant_id, run_id, now)`, with its tenant. -/
def Run.start (tenant : TenantRecord T.toRows) : Run T K where
  tenant := tenant
  events := []
  attributes := .empty
  signalOf := .empty
  labeled := []
  work := ⟨[], .empty, [], .empty, .empty, .empty, .empty, .empty, .empty, P.initial⟩
  recommendationIds := []

/-- **`run_pipeline`**; what `get_tenant` raises is not caught. -/
def runPipeline : Call T.toRows K (RunResult T K) := do
  let tenant ← Store.getTenant env.tenantId
  Pipeline.stages.forM fun stage => record env stage .pending .empty
  .within (Run.start P tenant) do
    let (status, outcomes) ← runStages P settings env Pipeline.stages
    let run ← theRun
    return ⟨env.runId, env.tenantId, status, outcomes, run.recommendationIds⟩

end Run

end Worker

end RetentionEngine
