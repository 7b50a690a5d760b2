import RetentionEngine.Common.Lockstep
import RetentionEngine.ExternalSignals.Signal
import RetentionEngine.Measurement.Lift
import RetentionEngine.Pipeline.RunPipeline
import RetentionEngine.Python.Dumps

/-!
# The in-memory store

`worker.memory_store`. The collections that are keyed by tenant are taken
tenant by tenant: a bucket is what they hold under one tenant, apart in what
a run of the pipeline reads again and what it only leaves behind. Some
methods are told the tenant, others go by the tenant of each row, and two
collections are shared by all tenants. Rows that the store and the pipeline
only hand on keep whatever type they have.
-/

namespace RetentionEngine

namespace Worker

open Python (Text Json)
open Pipeline (Recommendation Stage StageStatus)

/-! ## What is stored -/

/-- **The types of what is handed on**: among them what a raw body has for
a client event id (`none` has no hash) and the id of a signal. -/
structure Rows where
  Mapping : Type
  Body : Type
  ClientEventId : Type
  Incentive : Type
  Signal : Type
  CircleSnapshot : Type
  Circle : Type
  RiskScore : Type
  ImpactScore : Type
  PolicyDecision : Type
  AllocationResult : Type
  AllocationDecision : Type
  Detail : Type
  decidableEq : DecidableEq ClientEventId
  clientEventId : Body → Option ClientEventId
  signalId : Signal → String

variable (T : Rows) (K : Type)

instance : DecidableEq T.ClientEventId := T.decidableEq

/-- `TenantRecord`. -/
structure TenantRecord where
  tenantId : String
  slug : String
  profileType : String
  mapping : T.Mapping

/-- `RawEventRecord.status`. -/
inductive RawStatus
  | new
  | processed
  | unmapped
  deriving DecidableEq, Repr

/-- `RawEventRecord`. -/
structure RawEventRecord where
  rawEventId : String
  tenantId : String
  body : T.Body
  status : RawStatus
  error : Option Text

/-- `Recommendation`, with the columns a review fills in. -/
structure RecommendationRow extends Recommendation K where
  reviewedBy : Option String
  reviewedAt : Option Timestamp

/-- A row of `narrations`. -/
structure NarrationRow where
  runId : String
  factSheetHash : String
  text : String
  source : String
  deriving DecidableEq, Repr

/-- A row of `audit_log`; its detail is the status and the arm. -/
structure AuditRow where
  actor : String
  action : String
  entityType : String
  entityId : String
  status : RecommendationStatus
  arm : Arm
  deriving DecidableEq, Repr

/-- What `run_pipeline` reports of a stage. -/
inductive Detail
  | empty
  | ingest (processed unmapped usersInWindow : ℕ)
  | feedback (feedback : Feedback.Summary) (lift : Measurement.Lift K)
  | external (source : String) (signals rejected usersWithSignal : ℕ)
  | computed (detail : T.Detail)
  | persist (recommendations : ℕ) (status : RecommendationStatus)
  | error (text : String)

/-- `StageRecord`. -/
structure StageRecord where
  runId : String
  tenantId : String
  stage : Stage
  status : StageStatus
  detail : Detail T K

/-- **What is read again** of a tenant. -/
structure Data where
  tenant : Option (TenantRecord T)
  rawEvents : List (RawEventRecord T)
  canonicalEvents : Dict Text IngestMapping.CanonicalEvent
  userAttributes : Dict String (Dict Text Json)
  incentives : List T.Incentive
  labeledExamples : Dict String (Feedback.LabeledExample K)
  contacts : Dict String (List Timestamp)
  experiment : Option String
  armAssignments : Dict String Arm
  featureSnapshots : Dict (String × String) (Feedback.FeatureSnapshot K)
  outcomes : List Feedback.OutcomeEvent

/-- **What is only left behind.** -/
structure Report where
  circleSnapshots : List T.CircleSnapshot
  circles : List T.Circle
  riskScores : List T.RiskScore
  impactScores : Dict String T.ImpactScore
  policyDecisions : List T.PolicyDecision
  allocations : List (T.AllocationResult × List T.AllocationDecision)
  narrations : List NarrationRow
  recommendations : Dict String (RecommendationRow K)
  auditLog : List AuditRow

/-- **A bucket**: what the collections hold under one tenant. -/
structure Bucket where
  data : Data T K
  report : Report T K

/-- Nothing stored. -/
def Bucket.empty : Bucket T K where
  data := ⟨none, [], .empty, .empty, [], .empty, .empty, none, .empty, .empty, []⟩
  report := ⟨[], [], [], .empty, [], [], [], .empty, []⟩

/-- **`InMemoryStore`**: the buckets, and the two collections that are not
keyed by tenant. -/
structure InMemoryStore where
  bucket : String → Bucket T K
  externalSignals : Dict String T.Signal
  stages : List (StageRecord T K)

/-- A store call. -/
abbrev Call (α : Type) := Prog (InMemoryStore T K) String α

namespace InMemoryStore

/-- `InMemoryStore()`. -/
def new : InMemoryStore T K := ⟨fun _ => .empty T K, .empty, []⟩

variable {T K} (s : InMemoryStore T K) (tenantId : String)

/-- The store with other data of a tenant. -/
def setData (data : Data T K) : InMemoryStore T K :=
  { s with bucket := Function.update s.bucket tenantId ⟨data, (s.bucket tenantId).report⟩ }

/-- The store with another report of a tenant. -/
def setReport (report : Report T K) : InMemoryStore T K :=
  { s with bucket := Function.update s.bucket tenantId ⟨(s.bucket tenantId).data, report⟩ }

variable {s tenantId} {data : Data T K} {report : Report T K} {other : String}

@[simp] theorem bucket_setData :
    (s.setData tenantId data).bucket tenantId = ⟨data, (s.bucket tenantId).report⟩ :=
  Function.update_self ..

@[simp] theorem bucket_setReport :
    (s.setReport tenantId report).bucket tenantId = ⟨(s.bucket tenantId).data, report⟩ :=
  Function.update_self ..

theorem bucket_setData_of_ne (h : other ≠ tenantId) :
    (s.setData tenantId data).bucket other = s.bucket other :=
  Function.update_of_ne h ..

theorem bucket_setReport_of_ne (h : other ≠ tenantId) :
    (s.setReport tenantId report).bucket other = s.bucket other :=
  Function.update_of_ne h ..

end InMemoryStore

variable {T K} {α : Type}

/-! ## The methods -/

namespace Store

/-- What a method makes of a tenant's data. -/
def ofData (tenantId : String) (f : Data T K → α) : Call T K α :=
  .read fun s => f (s.bucket tenantId).data

/-- What a method changes in a tenant's data. -/
def onData (tenantId : String) (f : Data T K → Data T K) : Call T K Unit :=
  .modify fun s => s.setData tenantId (f (s.bucket tenantId).data)

/-- What a method adds to a tenant's report. -/
def onReport (tenantId : String) (f : Report T K → Report T K) : Call T K Unit :=
  .modify fun s => s.setReport tenantId (f (s.bucket tenantId).report)

/-! ### Seeding -/

def addTenant (tenant : TenantRecord T) : Call T K Unit :=
  onData tenant.tenantId fun d => { d with tenant := some tenant }

/-- One body of `add_raw_events`, unless its id is known. -/
def addRawEvent (tenantId : String) (known : List T.ClientEventId) (body : T.Body) :
    Call T K (List T.ClientEventId) :=
  match T.clientEventId body with
  | none => .raise "TypeError: unhashable type"
  | some id =>
      if id ∈ known then pure known
      else do
        onData tenantId fun d => { d with
          rawEvents := d.rawEvents ++
            [⟨"raw-" ++ toString (d.rawEvents.length + 1), tenantId, body, .new, none⟩] }
        return id :: known

def addRawEvents (tenantId : String) (bodies : List T.Body) : Call T K Unit := do
  let known ← ofData tenantId fun d => d.rawEvents.filterMap fun r => T.clientEventId r.body
  let _ ← bodies.foldlM (addRawEvent tenantId) known

def setIncentives (tenantId : String) (incentives : List T.Incentive) : Call T K Unit :=
  onData tenantId fun d => { d with incentives := incentives }

def addContacts (tenantId userPseudonym : String) (times : List Timestamp) : Call T K Unit :=
  onData tenantId fun d => { d with
    contacts := d.contacts.alter userPseudonym fun stored => stored.getD [] ++ times }

def addOutcome (o : Feedback.OutcomeEvent) : Call T K Unit :=
  onData o.tenantId fun d => { d with outcomes := d.outcomes ++ [o] }

def addOutcomes (outcomes : List Feedback.OutcomeEvent) : Call T K Unit := outcomes.forM addOutcome

/-! ### Tenants and events -/

def getTenant (tenantId : String) : Call T K (TenantRecord T) := do
  match ← ofData tenantId Data.tenant with
  | some tenant => return tenant
  | none => .raise ("KeyError: '" ++ tenantId ++ "'")

/-- `l[:n]`. -/
def sliceTo (l : List α) (n : ℤ) : List α :=
  if 0 ≤ n then l.take n.toNat else l.take (l.length - n.natAbs)

/-- The raw events to be normalized. -/
def newEvents (d : Data T K) : List (RawEventRecord T) :=
  d.rawEvents.filter fun r => r.status = .new

def claimRawEvents (tenantId : String) (limit : ℤ) : Call T K (List (RawEventRecord T)) :=
  ofData tenantId fun d => sliceTo (newEvents d) limit

/-- The data with one raw event marked. -/
def marked (rawEventId : String) (status : RawStatus) (error : Option Text) (d : Data T K) :
    Data T K :=
  { d with
    rawEvents := d.rawEvents.map fun r =>
      if r.rawEventId = rawEventId then { r with status := status, error := error } else r }

def markRawEvent (tenantId rawEventId : String) (status : RawStatus) (error : Option Text) :
    Call T K Unit :=
  onData tenantId (marked rawEventId status error)

/-- One event of `save_canonical_events`: the first one of a client event id
stays. -/
def saveCanonicalEvent (tenantId : String) (e : IngestMapping.CanonicalEvent) : Call T K Unit :=
  if e.tenantId ≠ tenantId then
    .raise "ValueError: canonical event written to the wrong tenant"
  else onData tenantId fun d => { d with
    canonicalEvents := d.canonicalEvents.setDefault e.clientEventId e }

def saveCanonicalEvents (tenantId : String) (events : List IngestMapping.CanonicalEvent) :
    Call T K Unit :=
  events.forM (saveCanonicalEvent tenantId)

/-- `(e.occurred_at, e.client_event_id)`, as the sort compares it. -/
def EventLe (e e' : IngestMapping.CanonicalEvent) : Prop :=
  ExternalSignals.instant e.occurredAt < ExternalSignals.instant e'.occurredAt ∨
    ExternalSignals.instant e.occurredAt = ExternalSignals.instant e'.occurredAt ∧
      Python.Json.textLe e.clientEventId e'.clientEventId = true

instance : DecidableRel EventLe := fun _ _ => inferInstanceAs (Decidable (_ ∨ _))

def loadCanonicalEvents (tenantId : String) (since : Timestamp) :
    Call T K (List IngestMapping.CanonicalEvent) :=
  ofData tenantId fun d =>
    (d.canonicalEvents.values.filter fun e =>
      since ≤ ExternalSignals.instant e.occurredAt).insertionSort EventLe

def upsertUserAttributes (tenantId userPseudonym : String) (attributes : Dict Text Json) :
    Call T K Unit :=
  onData tenantId fun d => { d with
    userAttributes := d.userAttributes.alter userPseudonym fun stored =>
      attributes.entries.foldl (fun a p => a.set p.1 p.2) (stored.getD .empty) }

def loadUserAttributes (tenantId : String) : Call T K (Dict String (Dict Text Json)) :=
  ofData tenantId Data.userAttributes

/-! ### Catalog, signals, context -/

def loadIncentives (tenantId : String) : Call T K (List T.Incentive) :=
  ofData tenantId Data.incentives

/-- `save_external_signals`, for all tenants. -/
def saveExternalSignals (signals : List T.Signal) : Call T K Unit :=
  .modify fun s => { s with
    externalSignals := signals.foldl (fun d x => d.set (T.signalId x) x) s.externalSignals }

def loadLabeledExamples (tenantId : String) : Call T K (List (Feedback.LabeledExample K)) :=
  ofData tenantId fun d => d.labeledExamples.values

def loadContactTimes (tenantId : String) : Call T K (Dict String (List Timestamp)) :=
  ofData tenantId Data.contacts

/-! ### What the stages leave -/

/-- `record_stage`, for all tenants. -/
def recordStage (record : StageRecord T K) : Call T K Unit :=
  .modify fun s => { s with stages := s.stages ++ [record] }

def saveCircles (tenantId : String) (snapshots : List T.CircleSnapshot) (circles : List T.Circle) :
    Call T K Unit :=
  onReport tenantId fun r => { r with
    circleSnapshots := r.circleSnapshots ++ snapshots, circles := r.circles ++ circles }

def saveRiskScores (tenantId : String) (scores : List T.RiskScore) : Call T K Unit :=
  onReport tenantId fun r => { r with riskScores := r.riskScores ++ scores }

def saveImpactScores (tenantId : String) (scores : Dict String T.ImpactScore) : Call T K Unit :=
  onReport tenantId fun r => { r with
    impactScores := scores.entries.foldl (fun d p => d.set p.1 p.2) r.impactScores }

def savePolicyDecisions (tenantId : String) (decisions : List T.PolicyDecision) : Call T K Unit :=
  onReport tenantId fun r => { r with policyDecisions := r.policyDecisions ++ decisions }

def getOrCreateExperiment (tenantId : String) : Call T K String := do
  onData tenantId fun d => { d with
    experiment := some (d.experiment.getD ("exp-" ++ tenantId ++ "-1")) }
  ofData tenantId fun d => d.experiment.getD ""

/-- One unit of `save_arm_assignments`: its first arm stays. -/
def saveArmAssignment (tenantId : String) (p : String × Arm) : Call T K Unit := do
  onData tenantId fun d => { d with armAssignments := d.armAssignments.setDefault p.1 p.2 }
  let existing ← ofData tenantId fun d => d.armAssignments.get? p.1
  if existing ≠ some p.2 then
    .raise "ValueError: arm assignment changed within an experiment"

def saveArmAssignments (tenantId : String) (arms : Dict String Arm) : Call T K Unit :=
  arms.entries.forM (saveArmAssignment tenantId)

def saveAllocation (tenantId : String) (result : T.AllocationResult)
    (extraDecisions : List T.AllocationDecision) : Call T K Unit :=
  onReport tenantId fun r => { r with allocations := r.allocations ++ [(result, extraDecisions)] }

def saveNarration (tenantId : String) (row : NarrationRow) : Call T K Unit :=
  onReport tenantId fun r => { r with narrations := r.narrations ++ [row] }

def saveFeatureSnapshot (snapshot : Feedback.FeatureSnapshot K) : Call T K Unit :=
  onData snapshot.tenantId fun d => { d with
    featureSnapshots := d.featureSnapshots.set (snapshot.runId, snapshot.userPseudonym) snapshot }

def saveFeatureSnapshots (snapshots : List (Feedback.FeatureSnapshot K)) : Call T K Unit :=
  snapshots.forM saveFeatureSnapshot

/-- A row that `create_recommendations` takes. -/
def Creatable (r : RecommendationRow K) : Prop :=
  r.status = .pendingApproval ∧ ¬ Pipeline.truthy r.reviewedBy ∧ r.reviewedAt = none

instance : DecidablePred (Creatable (K := K)) := fun _ => inferInstanceAs (Decidable (_ ∧ _))

def createRecommendation (r : RecommendationRow K) : Call T K Unit :=
  if Creatable r then onReport r.tenantId fun report => { report with
    recommendations := report.recommendations.set r.recommendationId r }
  else .raise "PermissionError: worker may only create PENDING_APPROVAL recommendations"

def createRecommendations (recommendations : List (RecommendationRow K)) : Call T K Unit :=
  recommendations.forM createRecommendation

def appendAudit (tenantId : String) (row : AuditRow) : Call T K Unit :=
  onReport tenantId fun r => { r with auditLog := r.auditLog ++ [row] }

/-! ### The feedback loop -/

def loadOutcomes (tenantId : String) : Call T K (List Feedback.OutcomeEvent) :=
  ofData tenantId Data.outcomes

def loadFeatureSnapshots (tenantId : String) :
    Call T K (Dict (String × String) (Feedback.FeatureSnapshot K)) :=
  ofData tenantId Data.featureSnapshots

def saveLabeledExample (e : Feedback.LabeledExample K) : Call T K Unit :=
  onData e.tenantId fun d => { d with
    labeledExamples := d.labeledExamples.setDefault e.sourceOutcomeId e }

def saveLabeledExamples (examples : List (Feedback.LabeledExample K)) : Call T K Unit :=
  examples.forM saveLabeledExample

end Store

end Worker

end RetentionEngine
