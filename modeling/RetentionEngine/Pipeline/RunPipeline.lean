import RetentionEngine.Pipeline.Persist
import Mathlib.Data.Rat.Floor

/-!
# Running the stages

`run_pipeline`, with any stage and any call of PERSIST free to raise. The
stages before PERSIST are arbitrary: none of them creates recommendations
or sets `recommendation_ids`, so they work on the rest of the run and of
the store. PERSIST is four kinds of store calls in a row, each a
transaction of its own, and what it has written stays when a later one
raises. `failed_leaves_none_iff` says when a FAILED run leaves nothing.
-/

namespace RetentionEngine

namespace Pipeline

/-- `STAGES`. -/
inductive Stage
  | ingest
  | feedback
  | external
  | graph
  | risk
  | impact
  | policy
  | rank
  | allocate
  | explain
  | persist
  deriving DecidableEq, Repr

/-- The stages before PERSIST, in order. -/
def earlyStages : List Stage :=
  [.ingest, .feedback, .external, .graph, .risk, .impact, .policy, .rank, .allocate, .explain]

/-- `STAGES`, in order. -/
def stages : List Stage := earlyStages ++ [.persist]

/-- The status of a stage. -/
inductive StageStatus
  | pending
  | running
  | done
  | failed
  | skipped
  deriving DecidableEq, Repr

/-- `StageOutcome`; of its detail, the error. -/
structure StageOutcome where
  stage : Stage
  status : StageStatus
  error : Option String
  deriving DecidableEq, Repr

/-- The status of a run that returns. -/
inductive RunStatus
  | done
  | failed
  deriving DecidableEq, Repr

/-- `PipelineRunResult`. -/
structure PipelineRunResult where
  runId : String
  tenantId : String
  status : RunStatus
  stages : List StageOutcome
  recommendationIds : List String
  deriving DecidableEq, Repr

/-- An entry of the audit log, of this actor and action. -/
structure AuditEntry where
  tenantId : String
  entityId : String
  status : RecommendationStatus
  arm : Arm
  deriving DecidableEq, Repr

variable {K σ : Type}

/-- What PERSIST reads of `_Run`, and the rest of the run and of the store. -/
structure Work (K σ : Type) where
  picks : List (Pick K)
  narrations : Dict ℕ Narration
  users : List String
  features : Dict String (Dict String K)
  churnRisk : Dict String K
  impact : Dict String (ImpactScore K)
  patternType : Dict String PatternType
  incentiveCost : Dict String ℤ
  businessValue : Dict String ℤ
  rest : σ

/-- The tables PERSIST writes, and the records of the stages. -/
structure RunStore (K : Type) where
  recommendations : List (Recommendation K)
  featureSnapshots : List (FeatureSnapshot K)
  auditLog : List AuditEntry
  stageRecords : List (String × Stage × StageStatus)

/-- How a store call ends: it returns, or it raises when it has written so
many of its rows. -/
inductive Call
  | returns
  | raises (error : String) (written : ℕ)
  deriving DecidableEq, Repr

/-- A call that adds rows to a table. -/
def Call.append {α : Type} (call : Call) (table rows : List α) : Except String Unit × List α :=
  match call with
  | .returns => (.ok (), table ++ rows)
  | .raises error written => (.error error, table ++ rows.take written)

/-- What the stages and the store do: whether `get_tenant` raises, each
stage before PERSIST (`true` if it is skipped), and the calls of PERSIST. -/
structure Behaviour (K σ : Type) where
  getTenant : Option String
  early : Stage → Work K σ → Except String Bool × Work K σ
  createRecommendations : Call
  saveFeatureSnapshots : Call
  appendAudit : ℕ → Call

/-- What a run is called with. -/
structure RunEnv where
  hashes : Hashes
  tenantId : String
  runId : String
  now : Timestamp

/-- What a run is working on. -/
structure RunState (K σ : Type) where
  work : Work K σ
  store : RunStore K
  recommendationIds : List String

/-- `run.x[key]`. -/
def lookup {κ α : Type} [DecidableEq κ] (d : Dict κ α) (k : κ) (text : String) : Except String α :=
  match d.get? k with
  | some v => .ok v
  | none => .error ("KeyError: " ++ text)

section Persist

variable (env : RunEnv) (b : Behaviour K σ) (w : Work K σ)

/-- One element of `recommendations`. -/
def recommendationOf (narration : Narration) (pick : Pick K) : Recommendation K :=
  let c := pick.top.candidate
  { recommendationId := env.hashes.idOf "rec" (env.runId :: pick.candidateIds)
    tenantId := env.tenantId
    runId := env.runId
    candidateId := c.candidateId
    arm := pick.arm
    status := .pendingApproval
    incentiveCode := c.incentiveCode
    costIdr := c.costIdr
    priority := pick.top.priority
    userPseudonym := if truthy pick.groupId then none else some c.userPseudonym
    groupId := pick.groupId
    memberPseudonyms := pick.members
    runnerUpCandidateId := pick.runnerUp.map fun r => r.candidate.candidateId
    reasonText := narration.text
    reasonSource := narration.source
    factSheetHash := narration.factSheetHash
    createdAt := env.now }

/-- It is the recommendation of the scored run. -/
theorem recommendationOf_eq (h : Hashes) (run : ScoredRun K) (narration : Narration)
    (pick : Pick K) : recommendationOf ⟨h, run.tenantId, run.runId, run.now⟩ narration pick =
      recommendation h run narration pick := rfl

/-- The first loop of `_persist`. -/
def buildRecommendations : Except String (List (Recommendation K)) :=
  w.picks.zipIdx.mapM fun p => do
    RecommendationStatus.assertTransition .draft .pendingApproval none
    let narration ← lookup w.narrations p.2 (toString p.2)
    return recommendationOf env narration p.1

/-- The snapshot of one user. -/
def buildSnapshot [Sub K] (user : String) : Except String (FeatureSnapshot K) := do
  let pick := (pickOf w.picks).get? user
  let _ ← lookup w.features user user
  let churnRisk ← lookup w.churnRisk user user
  let patternType ← lookup w.patternType user user
  let cost ← match pick with
    | some p => lookup w.incentiveCost p.top.candidate.incentiveCode p.top.candidate.incentiveCode
    | none => .ok 0
  let businessValue ← lookup w.businessValue user user
  return {
    runId := env.runId
    userPseudonym := user
    churnRisk := churnRisk
    impactScore := (w.impact.get? user).map ImpactScore.impactScore
    patternType := patternType
    incentiveCode := pick.map fun p => p.top.candidate.incentiveCode
    costIdr := cost
    businessValueIdr := businessValue }

/-- The calls of `append_audit`, from the `n`th on. -/
def appendAudits (n : ℕ) : List (Recommendation K) → List AuditEntry →
    Except String Unit × List AuditEntry
  | [], log => (.ok (), log)
  | r :: rs, log =>
      match (b.appendAudit n).append log [⟨env.tenantId, r.recommendationId, r.status, r.arm⟩] with
      | (.ok (), log') => appendAudits (n + 1) rs log'
      | (.error e, log') => (.error e, log')

/-- `_persist`, from `create_recommendations` on. -/
def persistRecommendations [Sub K] (recs : List (Recommendation K)) (x : RunState K σ) :
    Except String Unit × RunState K σ :=
  match b.createRecommendations.append x.store.recommendations recs with
  | (.error e, table) => (.error e, { x with store := { x.store with recommendations := table } })
  | (.ok (), table) =>
      let x := { x with
        store := { x.store with recommendations := table }
        recommendationIds := recs.map Recommendation.recommendationId }
      match x.work.users.mapM (buildSnapshot env x.work) with
      | .error e => (.error e, x)
      | .ok snapshots =>
          match b.saveFeatureSnapshots.append x.store.featureSnapshots snapshots with
          | (.error e, table) =>
              (.error e, { x with store := { x.store with featureSnapshots := table } })
          | (.ok (), table) =>
              let audited := appendAudits env b 0 recs x.store.auditLog
              (audited.1, { x with
                store := { x.store with featureSnapshots := table, auditLog := audited.2 } })

/-- `_persist`. -/
def persistStage [Sub K] (x : RunState K σ) : Except String Unit × RunState K σ :=
  match buildRecommendations env x.work with
  | .error e => (.error e, x)
  | .ok recs => persistRecommendations env b recs x

end Persist

section Run

variable [Sub K] (env : RunEnv) (b : Behaviour K σ)

/-- `record_stage`. -/
def RunState.record (x : RunState K σ) (stage : Stage) (status : StageStatus) : RunState K σ :=
  { x with store := { x.store with
      stageRecords := x.store.stageRecords ++ [(env.runId, stage, status)] } }

/-- `_STAGE_FUNCS[stage]`, and whether it was skipped. -/
def stageFunc (stage : Stage) (x : RunState K σ) : Except String Bool × RunState K σ :=
  if stage = .persist then
    let r := persistStage env b x
    (r.1.map fun _ => false, r.2)
  else
    let r := b.early stage x.work
    (r.1, { x with work := r.2 })

/-- The loop of `run_pipeline`: the status, the outcomes, and what is left
behind. -/
def runStages : List Stage → RunState K σ → RunStatus × List StageOutcome × RunState K σ
  | [], x => (.done, [], x)
  | stage :: rest, x =>
      match stageFunc env b stage (x.record env stage .running) with
      | (.error e, x') =>
          (.failed, ⟨stage, .failed, some e⟩ :: rest.map fun s => ⟨s, .pending, none⟩,
            x'.record env stage .failed)
      | (.ok skipped, x') =>
          let status := if skipped then StageStatus.skipped else .done
          let r := runStages rest (x'.record env stage status)
          (r.1, ⟨stage, status, none⟩ :: r.2.1, r.2.2)

/-- **`run_pipeline`**; what `get_tenant` raises is not caught. -/
def runPipeline (w : Work K σ) (store : RunStore K) :
    Except String (PipelineRunResult × RunStore K) :=
  match b.getTenant with
  | some e => .error e
  | none =>
      let x := stages.foldl (fun x stage => RunState.record env x stage .pending) ⟨w, store, []⟩
      let r := runStages env b stages x
      .ok (⟨env.runId, env.tenantId, r.1, r.2.1, r.2.2.recommendationIds⟩, r.2.2.store)

end Run

/-! ## What a failed run leaves behind -/

section Claim

variable (env : RunEnv) (b : Behaviour K σ)

/-- **A failed run leaves no recommendation**, neither in the store nor in
what it returns. -/
def LeavesNone (result : PipelineRunResult) (store : RunStore K) : Prop :=
  (∀ r ∈ store.recommendations, r.runId ≠ env.runId) ∧ result.recommendationIds = []

/-- **PERSIST did not start**: its outcome is PENDING, and it was not
recorded as RUNNING. -/
def NotStarted (result : PipelineRunResult) (store store' : RunStore K) : Prop :=
  (∀ o ∈ result.stages, o.stage = .persist → o.status = .pending) ∧
    ∃ records, store'.stageRecords = store.stageRecords ++ records ∧
      (env.runId, .persist, .running) ∉ records

/-- What the stages before PERSIST leave, if none of them raises. -/
def reach : List Stage → Work K σ → Option (Work K σ)
  | [], w => some w
  | stage :: rest, w =>
      match b.early stage w with
      | (.ok _, w') => reach rest w'
      | (.error _, _) => none

/-- **PERSIST raises nowhere**: every entry it looks up is there, and every
call it makes returns. -/
structure Persists [Sub K] (w : Work K σ) : Prop where
  recommendations : ∃ recs, buildRecommendations env w = .ok recs
  created : b.createRecommendations = .returns
  snapshots : ∃ snapshots, w.users.mapM (buildSnapshot env w) = .ok snapshots
  saved : b.saveFeatureSnapshots = .returns
  audited : ∀ n < w.picks.length, b.appendAudit n = .returns

/-- **PERSIST writes no recommendation**: there is no pick, or a narration
is missing, or the call that creates them raises before it has written. -/
def WritesNone (w : Work K σ) : Prop :=
  w.picks = [] ∨ (∃ e, buildRecommendations env w = .error e) ∨
    ∃ e, b.createRecommendations = .raises e 0

/-- **A failure is clean**: nothing raises once PERSIST is reached, or the
store has no recommendation of the run yet and PERSIST, if it is reached,
writes none. -/
def FailsClean [Sub K] (w : Work K σ) (store : RunStore K) : Prop :=
  (∃ w' ∈ reach b earlyStages w, Persists env b w') ∨
    (∀ r ∈ store.recommendations, r.runId ≠ env.runId) ∧
      ∀ w' ∈ reach b earlyStages w, WritesNone env b w'

end Claim

/-! ## PERSIST -/

variable {env : RunEnv} {b : Behaviour K σ} {w : Work K σ} {x : RunState K σ}
  {recs : List (Recommendation K)}

/-- **What is built for the picks**: as many recommendations, all of this
run. -/
theorem of_buildRecommendations (h : buildRecommendations env w = .ok recs) :
    recs.length = w.picks.length ∧ ∀ r ∈ recs, r.runId = env.runId := by
  have hall := forall₂_of_mapM_ok h
  refine ⟨by rw [← hall.length_eq, List.length_zipIdx], ?_⟩
  intro r hr
  obtain ⟨p, -, hp⟩ := exists_left_of_forall₂ hall hr
  obtain ⟨-, -, hp⟩ := exists_of_bind_eq_ok hp
  obtain ⟨narration, -, hp⟩ := exists_of_bind_eq_ok hp
  obtain rfl := Except.ok.inj hp
  rfl

theorem appendAudits_ok {n : ℕ} {log : List AuditEntry} :
    (appendAudits env b n recs log).1 = .ok () ↔
      ∀ i < recs.length, b.appendAudit (n + i) = .returns := by
  induction recs generalizing n log with
  | nil => exact iff_of_true rfl nofun
  | cons r recs ih =>
      unfold appendAudits
      cases hcall : b.appendAudit n with
      | raises e k =>
          refine iff_of_false nofun ?_
          intro hall
          have hfirst := hall 0 (Nat.succ_pos _)
          rw [Nat.add_zero, hcall] at hfirst
          cases hfirst
      | returns =>
          refine ih.trans ?_
          constructor
          · intro hall i hi
            cases i with
            | zero => exact hcall
            | succ i =>
                have hnext := hall i (Nat.lt_of_succ_lt_succ hi)
                rwa [Nat.add_assoc, Nat.add_comm 1 i] at hnext
          · intro hall i hi
            have hnext := hall (i + 1) (Nat.succ_lt_succ hi)
            rwa [Nat.add_comm i 1, ← Nat.add_assoc] at hnext

variable [Sub K]

/-- Whether PERSIST returns. -/
theorem persistStage_ok : (persistStage env b x).1 = .ok () ↔ Persists env b x.work := by
  unfold persistStage
  cases hbuild : buildRecommendations env x.work with
  | error e =>
      refine iff_of_false nofun ?_
      intro hp
      obtain ⟨recs, hrecs⟩ := hp.recommendations
      rw [hbuild] at hrecs
      cases hrecs
  | ok recs =>
      unfold persistRecommendations
      cases hcreate : b.createRecommendations with
      | raises e n => exact iff_of_false nofun fun hp => nomatch hcreate.symm.trans hp.created
      | returns =>
          dsimp only [Call.append]
          cases hsnapshots : x.work.users.mapM (buildSnapshot env x.work) with
          | error e =>
              refine iff_of_false nofun ?_
              intro hp
              obtain ⟨snapshots, hok⟩ := hp.snapshots
              rw [hsnapshots] at hok
              cases hok
          | ok snapshots =>
              dsimp only
              cases hsave : b.saveFeatureSnapshots with
              | raises e n => exact iff_of_false nofun fun hp => nomatch hsave.symm.trans hp.saved
              | returns =>
                  refine appendAudits_ok.trans ?_
                  rw [(of_buildRecommendations hbuild).1]
                  simp only [Nat.zero_add]
                  exact ⟨fun haudit => ⟨⟨recs, hbuild⟩, hcreate, ⟨snapshots, hsnapshots⟩, hsave,
                    haudit⟩, fun hp => hp.audited⟩

/-- **Recommendations that were created stay**, whatever comes next. -/
theorem persistRecommendations_returns (hcreate : b.createRecommendations = .returns) :
    (persistRecommendations env b recs x).2.store.recommendations =
      x.store.recommendations ++ recs ∧
      (persistRecommendations env b recs x).2.recommendationIds =
        recs.map Recommendation.recommendationId := by
  unfold persistRecommendations
  rw [hcreate]
  dsimp only [Call.append]
  split
  · exact ⟨rfl, rfl⟩
  · split
    · exact ⟨rfl, rfl⟩
    · exact ⟨rfl, rfl⟩

omit [Sub K] in
/-- No recommendation of the run is among old and new ones exactly when
there is none among the old, and nothing new. -/
theorem forall_append_runId {old new : List (Recommendation K)}
    (hnew : ∀ r ∈ new, r.runId = env.runId) : (∀ r ∈ old ++ new, r.runId ≠ env.runId) ↔
      (∀ r ∈ old, r.runId ≠ env.runId) ∧ new = [] := by
  rw [List.forall_mem_append]
  refine and_congr_right fun _ => ?_
  constructor
  · intro hnone
    rw [List.eq_nil_iff_forall_not_mem]
    exact fun r hr => hnone r hr (hnew r hr)
  · rintro rfl
    exact fun r hr => absurd hr List.not_mem_nil

/-- **When PERSIST leaves no recommendation of the run.** -/
theorem persistStage_leavesNone (hids : x.recommendationIds = []) :
    ((∀ r ∈ (persistStage env b x).2.store.recommendations, r.runId ≠ env.runId) ∧
      (persistStage env b x).2.recommendationIds = []) ↔
        (∀ r ∈ x.store.recommendations, r.runId ≠ env.runId) ∧ WritesNone env b x.work := by
  unfold persistStage WritesNone
  cases hbuild : buildRecommendations env x.work with
  | error e => exact and_congr_right fun _ => iff_of_true hids (Or.inr (Or.inl ⟨e, rfl⟩))
  | ok recs =>
      obtain ⟨hlength, hrunId⟩ := of_buildRecommendations hbuild
      have hnil : recs = [] ↔ x.work.picks = [] := by
        rw [← List.length_eq_zero_iff, hlength, List.length_eq_zero_iff]
      dsimp only
      cases hcreate : b.createRecommendations with
      | returns =>
          obtain ⟨hrecs, hids'⟩ :
            (persistRecommendations env b recs x).2.store.recommendations = _ ∧ _ :=
              persistRecommendations_returns hcreate
          rw [hrecs, hids', forall_append_runId hrunId, List.map_eq_nil_iff, and_assoc, and_self,
            hnil]
          simp
      | raises e n =>
          have htake : ∀ r ∈ recs.take n, r.runId = env.runId := fun r hr =>
            hrunId r (List.mem_of_mem_take hr)
          have hleft : (persistRecommendations env b recs x).2 = { x with
              store := { x.store with
                recommendations := x.store.recommendations ++ recs.take n } } := by
            unfold persistRecommendations
            rw [hcreate]
            rfl
          rw [hleft]
          dsimp only
          rw [forall_append_runId htake, hids, List.take_eq_nil_iff, hnil]
          simp [or_comm]

/-! ## The loop -/

variable {l : List Stage}

omit [Sub K] in
variable (env) in
theorem foldl_record : (l.foldl (fun x stage => RunState.record env x stage .pending) x).work =
      x.work ∧
    (l.foldl (fun x stage => RunState.record env x stage .pending) x).recommendationIds =
      x.recommendationIds ∧
    (l.foldl (fun x stage => RunState.record env x stage .pending) x).store.recommendations =
      x.store.recommendations ∧
    (l.foldl (fun x stage => RunState.record env x stage .pending) x).store.stageRecords =
      x.store.stageRecords ++ l.map fun stage => (env.runId, stage, .pending) := by
  induction l generalizing x with
  | nil => exact ⟨rfl, rfl, rfl, (List.append_nil _).symm⟩
  | cons stage l ih =>
      obtain ⟨hwork, hids, hrecs, hrecords⟩ := ih (x := x.record env stage .pending)
      refine ⟨hwork, hids, hrecs, hrecords.trans ?_⟩
      rw [List.map_cons, RunState.record, List.append_assoc]
      rfl

/-- The stages before PERSIST came through: what they leave, and what the
loop goes on with. -/
structure CameThrough (env : RunEnv) (b : Behaviour K σ) (l : List Stage) (x : RunState K σ)
    (w : Work K σ) (outcomes : List StageOutcome) (x' : RunState K σ) : Prop where
  work : x'.work = w
  recommendations : x'.store.recommendations = x.store.recommendations
  recommendationIds : x'.recommendationIds = x.recommendationIds
  succeeded : ∀ o ∈ outcomes, o.status ≠ .failed
  loop : runStages env b (l ++ [.persist]) x =
    ((runStages env b [.persist] x').1, outcomes ++ (runStages env b [.persist] x').2.1,
      (runStages env b [.persist] x').2.2)

/-- One of them raised: PERSIST is not started, and what it would have
written is as it was. -/
structure Stopped (env : RunEnv) (b : Behaviour K σ) (l : List Stage) (x : RunState K σ) :
    Prop where
  status : (runStages env b (l ++ [.persist]) x).1 = .failed
  recommendations : (runStages env b (l ++ [.persist]) x).2.2.store.recommendations =
    x.store.recommendations
  recommendationIds : (runStages env b (l ++ [.persist]) x).2.2.recommendationIds =
    x.recommendationIds
  pending : ∀ o ∈ (runStages env b (l ++ [.persist]) x).2.1, o.stage = .persist →
    o.status = .pending
  records : ∃ records, (runStages env b (l ++ [.persist]) x).2.2.store.stageRecords =
    x.store.stageRecords ++ records ∧ ∀ r ∈ records, r.2.1 ≠ .persist

/-- How a stage that returns is recorded. -/
def ended (skipped : Bool) : StageStatus := if skipped then .skipped else .done

/-- What a stage before PERSIST leaves when it returns. -/
def afterStage (env : RunEnv) (x : RunState K σ) (stage : Stage) (w : Work K σ) (skipped : Bool) :
    RunState K σ :=
  RunState.record env { x.record env stage .running with work := w } stage (ended skipped)

section Step

variable {stage : Stage} {skipped : Bool}

/-- **A stage that raises** ends the loop. -/
theorem runStages_raise {e : String} (hstage : stage ≠ .persist)
    (hearly : b.early stage x.work = (.error e, w)) : runStages env b (stage :: l) x =
      (.failed, ⟨stage, .failed, some e⟩ :: l.map fun s => ⟨s, .pending, none⟩,
        RunState.record env { x.record env stage .running with work := w } stage .failed) := by
  have hfunc : stageFunc env b stage (x.record env stage .running) =
      (.error e, { x.record env stage .running with work := w }) := by
    rw [stageFunc, if_neg hstage]
    dsimp only [RunState.record]
    rw [hearly]
  rw [runStages, hfunc]

/-- **A stage that returns**: the loop goes on. -/
theorem runStages_return (hstage : stage ≠ .persist)
    (hearly : b.early stage x.work = (.ok skipped, w)) : runStages env b (stage :: l) x =
      ((runStages env b l (afterStage env x stage w skipped)).1,
        ⟨stage, ended skipped, none⟩ :: (runStages env b l (afterStage env x stage w skipped)).2.1,
        (runStages env b l (afterStage env x stage w skipped)).2.2) := by
  have hfunc : stageFunc env b stage (x.record env stage .running) =
      (.ok skipped, { x.record env stage .running with work := w }) := by
    rw [stageFunc, if_neg hstage]
    dsimp only [RunState.record]
    rw [hearly]
  rw [runStages, hfunc]
  rfl

theorem stopped_of_raise {e : String} (hstage : stage ≠ .persist)
    (hearly : b.early stage x.work = (.error e, w)) : Stopped env b (stage :: l) x := by
  have hrun : runStages env b (stage :: l ++ [.persist]) x = _ := runStages_raise hstage hearly
  refine ⟨by rw [hrun], by rw [hrun]; rfl, by rw [hrun]; rfl, ?_, ?_⟩
  · rw [hrun]
    intro o ho hpersist
    rcases List.mem_cons.mp ho with rfl | ho
    · exact absurd hpersist hstage
    · obtain ⟨s, -, rfl⟩ := List.mem_map.mp ho
      rfl
  · refine ⟨[(env.runId, stage, .running), (env.runId, stage, .failed)], ?_, ?_⟩
    · rw [hrun]
      exact List.append_assoc _ _ _
    · simp [hstage]

theorem Stopped.cons (hstage : stage ≠ .persist)
    (hearly : b.early stage x.work = (.ok skipped, w))
    (h : Stopped env b l (afterStage env x stage w skipped)) : Stopped env b (stage :: l) x := by
  have hrun : runStages env b (stage :: l ++ [.persist]) x = _ := runStages_return hstage hearly
  refine ⟨by rw [hrun]; exact h.status, by rw [hrun]; exact h.recommendations,
    by rw [hrun]; exact h.recommendationIds, ?_, ?_⟩
  · rw [hrun]
    intro o ho hpersist
    rcases List.mem_cons.mp ho with rfl | ho
    · exact absurd hpersist hstage
    · exact h.pending o ho hpersist
  · obtain ⟨records, hrecords, hother⟩ := h.records
    refine ⟨(env.runId, stage, .running) :: (env.runId, stage, ended skipped) :: records, ?_, ?_⟩
    · rw [hrun]
      refine hrecords.trans ?_
      simp [afterStage, RunState.record]
    · exact List.forall_mem_cons.mpr ⟨hstage, List.forall_mem_cons.mpr ⟨hstage, hother⟩⟩

theorem CameThrough.cons {w' : Work K σ} {outcomes : List StageOutcome} {x' : RunState K σ}
    (hstage : stage ≠ .persist) (hearly : b.early stage x.work = (.ok skipped, w))
    (h : CameThrough env b l (afterStage env x stage w skipped) w' outcomes x') :
    CameThrough env b (stage :: l) x w' (⟨stage, ended skipped, none⟩ :: outcomes) x' := by
  have hended : ended skipped ≠ .failed := by cases skipped <;> decide
  refine ⟨h.work, h.recommendations, h.recommendationIds,
    List.forall_mem_cons.mpr ⟨hended, h.succeeded⟩, ?_⟩
  rw [List.cons_append, runStages_return hstage hearly, h.loop]
  rfl

end Step

/-- **The loop before PERSIST** comes through exactly when no stage raises. -/
theorem runStages_early (hl : .persist ∉ l) :
    (∀ w, reach b l x.work = some w → ∃ outcomes x', CameThrough env b l x w outcomes x') ∧
      (reach b l x.work = none → Stopped env b l x) := by
  induction l generalizing x with
  | nil =>
      refine ⟨?_, nofun⟩
      intro w hw
      exact ⟨[], x, Option.some.inj hw, rfl, rfl, nofun, rfl⟩
  | cons stage l ih =>
      obtain ⟨hne, hl⟩ := not_or.mp (fun hmem => hl (List.mem_cons.mpr hmem))
      have hstage : stage ≠ .persist := fun heq => hne heq.symm
      cases hearly : b.early stage x.work with
      | mk result w' =>
          unfold reach
          rw [hearly]
          cases result with
          | error e => exact ⟨nofun, fun _ => stopped_of_raise hstage hearly⟩
          | ok skipped =>
              obtain ⟨hsome, hnone⟩ := ih (x := afterStage env x stage w' skipped) hl
              refine ⟨?_, fun hstop => (hnone hstop).cons hstage hearly⟩
              intro w hw
              obtain ⟨outcomes, x', hthrough⟩ := hsome w hw
              exact ⟨_, x', hthrough.cons hstage hearly⟩

/-- PERSIST is the last stage: how it ends is how the run does. -/
theorem runStages_persist :
    runStages env b [.persist] x =
      match persistStage env b (x.record env .persist .running) with
      | (.ok _, x') => (.done, [⟨.persist, .done, none⟩], x'.record env .persist .done)
      | (.error e, x') =>
          (.failed, [⟨.persist, .failed, some e⟩], x'.record env .persist .failed) := by
  rw [runStages, stageFunc, if_pos rfl]
  dsimp only
  cases persistStage env b (x.record env .persist .running) with
  | mk result x' => cases result <;> rfl

/-- **A run that reaches PERSIST** leaves none exactly when PERSIST does. -/
theorem reached_leavesNone (hids : x.recommendationIds = []) :
    ((runStages env b [.persist] x).1 = .failed →
      (∀ r ∈ (runStages env b [.persist] x).2.2.store.recommendations, r.runId ≠ env.runId) ∧
        (runStages env b [.persist] x).2.2.recommendationIds = []) ↔
      Persists env b x.work ∨
        (∀ r ∈ x.store.recommendations, r.runId ≠ env.runId) ∧ WritesNone env b x.work := by
  have hok : (persistStage env b (x.record env .persist .running)).1 = .ok () ↔
      Persists env b x.work := persistStage_ok
  have hleaves : ((∀ r ∈ (persistStage env b
      (x.record env .persist .running)).2.store.recommendations, r.runId ≠ env.runId) ∧ _) ↔ _ :=
    persistStage_leavesNone hids
  rw [runStages_persist]
  cases hpersist : persistStage env b (x.record env .persist .running) with
  | mk result x' =>
      rw [hpersist] at hok hleaves
      cases result with
      | ok u => exact iff_of_true nofun (Or.inl (hok.mp rfl))
      | error e =>
          have hnot : ¬ Persists env b x.work := fun hp => nomatch hok.mpr hp
          rw [or_iff_right hnot]
          exact (imp_iff_right rfl).trans hleaves

theorem persist_notMem_earlyStages : Stage.persist ∉ earlyStages := by decide

/-- What the whole loop leaves when it fails. -/
theorem runStages_leavesNone (hids : x.recommendationIds = []) :
    ((runStages env b stages x).1 = .failed →
      (∀ r ∈ (runStages env b stages x).2.2.store.recommendations, r.runId ≠ env.runId) ∧
        (runStages env b stages x).2.2.recommendationIds = []) ↔
      FailsClean env b x.work x.store := by
  obtain ⟨hsome, hnone⟩ : (∀ w, reach b earlyStages x.work = some w → ∃ outcomes x',
      CameThrough env b earlyStages x w outcomes x') ∧ _ :=
    runStages_early persist_notMem_earlyStages
  unfold FailsClean stages
  cases hreach : reach b earlyStages x.work with
  | none =>
      have hstopped := hnone hreach
      rw [hstopped.recommendations, hstopped.recommendationIds, hids,
        imp_iff_right hstopped.status, and_iff_left rfl]
      simp
  | some w =>
      obtain ⟨outcomes, x', hthrough⟩ := hsome w hreach
      have hreached :
          (_ → (∀ r ∈ (runStages env b [.persist] x').2.2.store.recommendations, _) ∧ _) ↔ _ :=
        reached_leavesNone (hthrough.recommendationIds.trans hids)
      rw [hthrough.recommendations, hthrough.work] at hreached
      rw [hthrough.loop]
      simpa using hreached

/-- A stage before PERSIST fails only where the loop stops. -/
theorem stopped_of_failed {o : StageOutcome} (ho : o ∈ (runStages env b stages x).2.1)
    (hstage : o.stage ≠ .persist) (hfailed : o.status = .failed) :
    Stopped env b earlyStages x := by
  obtain ⟨hsome, hnone⟩ : (∀ w, reach b earlyStages x.work = some w → ∃ outcomes x',
      CameThrough env b earlyStages x w outcomes x') ∧ _ :=
    runStages_early persist_notMem_earlyStages
  cases hreach : reach b earlyStages x.work with
  | none => exact hnone hreach
  | some w =>
      obtain ⟨outcomes, x', hthrough⟩ := hsome w hreach
      unfold stages at ho
      rw [hthrough.loop] at ho
      rcases List.mem_append.mp ho with ho | ho
      · exact absurd hfailed (hthrough.succeeded o ho)
      · rw [runStages_persist] at ho
        split at ho
        · rw [List.mem_singleton.mp ho] at hstage
          exact absurd rfl hstage
        · rw [List.mem_singleton.mp ho] at hstage
          exact absurd rfl hstage

/-- **When a FAILED run leaves no recommendation.** For every behaviour of
the stages and the store, whatever raises: a run that returns FAILED leaves
no recommendation of its id in the store and returns none if and only if
its failures are clean. And if a stage before PERSIST failed, PERSIST did
not start. -/
theorem failed_leaves_none_iff {store store' : RunStore K} {result : PipelineRunResult}
    (hrun : runPipeline env b w store = .ok (result, store')) :
    ((result.status = .failed → LeavesNone env result store') ↔ FailsClean env b w store) ∧
      ((∃ o ∈ result.stages, o.stage ≠ .persist ∧ o.status = .failed) →
        NotStarted env result store store') := by
  unfold runPipeline at hrun
  split at hrun
  · cases hrun
  · obtain ⟨rfl, rfl⟩ := Prod.mk.inj (Except.ok.inj hrun)
    clear hrun
    obtain ⟨hwork, hids, hrecs, hrecords⟩ : _ = w ∧ _ = [] ∧ _ = store.recommendations ∧ _ :=
      foldl_record env (x := ⟨w, store, []⟩) (l := stages)
    generalize stages.foldl (fun x stage => RunState.record env x stage .pending)
      ⟨w, store, []⟩ = x at *
    dsimp only at hrecords ⊢
    constructor
    · have hleaves : _ ↔ FailsClean env b x.work x.store := runStages_leavesNone hids
      unfold FailsClean at hleaves ⊢
      rw [hwork, hrecs] at hleaves
      exact hleaves
    · rintro ⟨o, ho, hstage, hfailed⟩
      have hstopped := stopped_of_failed ho hstage hfailed
      obtain ⟨records, hnew, hother⟩ := hstopped.records
      refine ⟨hstopped.pending, (stages.map fun stage => (env.runId, stage, .pending)) ++ records,
        ?_, ?_⟩
      · rw [← List.append_assoc, ← hrecords]
        exact hnew
      · intro hmem
        rcases List.mem_append.mp hmem with hmem | hmem
        · obtain ⟨stage, -, heq⟩ := List.mem_map.mp hmem
          cases heq
        · exact hother _ hmem rfl

/-- An individual pick of `user1`. -/
def samplePick : Pick ℚ where
  arm := .engine
  top := ⟨⟨"cand-7bb2ac6f62748e25", sampleTenantId, user1, "CASHBACK_10K", 10000, 1000000, false,
    false, none, 7 / 10, 3 / 10, .persuadable, .stable⟩, 1, .fallback⟩
  runnerUp := none
  candidateIds := ["cand-7bb2ac6f62748e25"]
  rank := some 1
  policy := ⟨"cand-7bb2ac6f62748e25", user1, "ALLOW", []⟩
  groupId := none
  members := []

/-- What PERSIST finds in a run that recommends `user1`. -/
def sampleWork : Work ℚ Unit where
  picks := [samplePick]
  narrations := .ofList Prod.fst Prod.snd [(0, ⟨"", "TEMPLATE", ""⟩)]
  users := [user1]
  features := .ofList Prod.fst Prod.snd [(user1, .empty)]
  churnRisk := .ofList Prod.fst Prod.snd [(user1, 7 / 10)]
  impact := .empty
  patternType := .ofList Prod.fst Prod.snd [(user1, .stable)]
  incentiveCost := .ofList Prod.fst Prod.snd [("CASHBACK_10K", 10000)]
  businessValue := .ofList Prod.fst Prod.snd [(user1, 1000000)]
  rest := ()

/-- A run in which nothing raises but, perhaps, `append_audit`. -/
def sampleBehaviour (audit : Call) : Behaviour ℚ Unit where
  getTenant := none
  early _ w := (.ok false, w)
  createRecommendations := .returns
  saveFeatureSnapshots := .returns
  appendAudit _ := audit

def sampleEnv : RunEnv := ⟨sampleHashes, sampleTenantId, sampleRunId, 86400⟩

theorem failed_leaves_none_iff_sample : ∃ result store',
    runPipeline sampleEnv (sampleBehaviour .returns) sampleWork ⟨[], [], [], []⟩ =
      .ok (result, store') ∧
      ((result.status = .failed → LeavesNone sampleEnv result store') ↔
        FailsClean sampleEnv (sampleBehaviour .returns) sampleWork ⟨[], [], [], []⟩) := by
  obtain ⟨⟨result, store'⟩, hrun⟩ : ∃ r, runPipeline sampleEnv (sampleBehaviour .returns)
    sampleWork ⟨[], [], [], []⟩ = .ok r := ⟨_, rfl⟩
  exact ⟨result, store', hrun, (failed_leaves_none_iff hrun).1⟩

/-- **A failed run leaves a recommendation**: the audit log cannot be
written, and the recommendation it is about stays. -/
theorem not_failed_leaves_none : ∃ result store',
    runPipeline sampleEnv (sampleBehaviour (.raises "OperationalError: connection lost" 0))
      sampleWork ⟨[], [], [], []⟩ = .ok (result, store') ∧
      result.status = .failed ∧ store'.recommendations.map Recommendation.runId = [sampleRunId] ∧
      ¬ LeavesNone sampleEnv result store' := by
  refine ⟨_, _, rfl, by decide +kernel, by decide +kernel, ?_⟩
  intro hnone
  have hids := congrArg List.length hnone.2
  revert hids
  decide +kernel

end Pipeline

end RetentionEngine
