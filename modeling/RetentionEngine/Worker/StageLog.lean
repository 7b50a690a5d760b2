import RetentionEngine.Worker.Isolation

/-!
# The log of the stages

`record_stage` is called beside the outcomes that `run_pipeline` returns.
Whatever the stages do and whatever they raise, the two say the same
(`stageLog`): the records of a run are its stages as pending, and then for
each outcome past that one that it is running and one that is the outcome.
The outcomes are those of the stages in order, done or skipped up to the
first one that failed and pending after it.
-/

namespace RetentionEngine

namespace Worker

open Prog (Keeps Both)
open Pipeline (RunEnv Stage StageStatus)

variable {T : Parts} {K : Type} [Field K] [LinearOrder K] {P : Packages T K} {settings : Settings}
  {env : RunEnv} {s t : InMemoryStore T.toRows K}

/-- The record of a stage. -/
def recordOf (env : RunEnv) (stage : Stage) (status : StageStatus) (detail : Detail T.toRows K) :
    StageRecord T.toRows K :=
  ⟨env.runId, env.tenantId, stage, status, detail⟩

/-- What is recorded of an outcome. -/
def StageOutcome.log (env : RunEnv) (o : StageOutcome T K) : List (StageRecord T.toRows K) :=
  if o.status = .pending then []
  else [recordOf env o.stage .running .empty, recordOf env o.stage o.status o.detail]

/-- **How the stages of a run end**: all are done or skipped, or one failed
and those after it were not begun. -/
def Ends (status : Pipeline.RunStatus) (outcomes : List (StageOutcome T K)) : Prop :=
  (status = .done ∧ ∀ o ∈ outcomes, o.status = .done ∨ o.status = .skipped) ∨
    status = .failed ∧ ∃ before o after, outcomes = before ++ o :: after ∧
      (∀ o' ∈ before, o'.status = .done ∨ o'.status = .skipped) ∧
      o.status = .failed ∧ ∀ o' ∈ after, o'.status = .pending

/-- **The records that a run adds tell what it returns.** -/
structure Tells (env : RunEnv) (s t : InMemoryStore T.toRows K) (result : RunResult T K) :
    Prop where
  records : t.stages = s.stages ++
    ((Pipeline.stages.map fun stage => recordOf env stage .pending .empty) ++
      result.stages.flatMap (StageOutcome.log env))
  stages : result.stages.map StageOutcome.stage = Pipeline.stages
  ends : Ends result.status result.stages

/-! ## The stages record nothing -/

/-- The stages recorded so far, in a store whose outcomes are filed. -/
def Recorded (tenantId : String) (l : List (StageRecord T.toRows K))
    (s : InMemoryStore T.toRows K) : Prop :=
  (∀ o ∈ (s.bucket tenantId).data.outcomes, o.tenantId = tenantId) ∧ s.stages = l

section Calls

variable {tenantId : String} {l : List (StageRecord T.toRows K)}

omit [Field K] [LinearOrder K]

theorem ofData_recorded {α : Type} {f : Data T.toRows K → α} :
    Keeps (Both (Recorded tenantId l)) (Store.ofData tenantId f) :=
  Prog.keeps_both fun _ h => h

theorem onData_recorded {f : Data T.toRows K → Data T.toRows K}
    (hf : ∀ d, (f d).outcomes = d.outcomes) :
    Keeps (Both (Recorded tenantId l)) (Store.onData tenantId f) := by
  refine Prog.keeps_both fun s h => ⟨?_, h.2⟩
  rw [Store.onData, Prog.modify, InMemoryStore.bucket_setData, hf]
  exact h.1

theorem onReport_recorded {f : Report T.toRows K → Report T.toRows K} :
    Keeps (Both (Recorded tenantId l)) (Store.onReport tenantId f) := by
  refine Prog.keeps_both fun s h => ⟨?_, h.2⟩
  rw [Store.onReport, Prog.modify, InMemoryStore.bucket_setReport]
  exact h.1

theorem stageCallsKeep_recorded :
    StageCallsKeep (Both (Recorded (T := T) (K := K) tenantId l)) tenantId where
  ownOutcomes := by
    rintro s _ ⟨rfl, h⟩
    exact h.1
  reads _ := ofData_recorded
  markRawEvent _ _ _ := onData_recorded fun _ => rfl
  saveCanonicalEvent e := by
    unfold Store.saveCanonicalEvent
    split
    · exact .raise _
    · exact onData_recorded fun _ => rfl
  upsertUserAttributes _ _ := onData_recorded fun _ => rfl
  saveExternalSignals _ := Prog.keeps_both fun _ h => h
  saveCircles _ _ := onReport_recorded
  saveRiskScores _ := onReport_recorded
  saveImpactScores _ := onReport_recorded
  savePolicyDecisions _ := onReport_recorded
  getOrCreateExperiment := Keeps.bind (onData_recorded fun _ => rfl) fun _ => ofData_recorded
  saveArmAssignment p := by
    refine Keeps.bind (onData_recorded fun _ => rfl) fun _ => ofData_recorded.bind fun arm => ?_
    split
    · exact .raise _
    · exact .pure _
  saveAllocation _ _ := onReport_recorded
  saveNarration _ := onReport_recorded
  saveFeatureSnapshot _ hown := hown ▸ onData_recorded fun _ => rfl
  createRecommendation r hown := by
    unfold Store.createRecommendation
    split
    · exact hown ▸ onReport_recorded
    · exact .raise _
  appendAudit _ := onReport_recorded
  saveLabeledExample _ hown := hown ▸ onData_recorded fun _ => rfl

end Calls

/-! ## The loop -/

section Loop

variable {x y : Run T K × InMemoryStore T.toRows K} {l : List (StageRecord T.toRows K)}

omit [Field K] [LinearOrder K] in
/-- A record more. -/
theorem record_recorded (env : RunEnv) (stage : Stage) (status : StageStatus)
    (detail : Detail T.toRows K)
    (h : Recorded env.tenantId l x.2) :
    ∃ y : Run T K × InMemoryStore T.toRows K,
      call (record env stage status detail) x = (.ok (), y) ∧
        Recorded env.tenantId (l ++ [recordOf env stage status detail]) y.2 := by
  refine ⟨(x.1, (record env stage status detail x.2).2), rfl, h.1, ?_⟩
  rw [← h.2]
  rfl

variable (P settings env) in
/-- A stage, its exception caught, records nothing. -/
theorem attempt_recorded (stage : Stage) (h : Recorded env.tenantId l x.2) :
    ∃ result y, (stageFunc P settings env stage).attempt x = (.ok result, y) ∧
      Recorded env.tenantId l y.2 := by
  have hkeeps : Keeps (SameRun (Both (Recorded env.tenantId l))) (stageFunc P settings env stage) :=
    stageFunc_keeps stageCallsKeep_recorded stage
  exact ⟨_, _, rfl, (hkeeps x x ⟨rfl, rfl, h⟩).2.2.2⟩

omit [Field K] [LinearOrder K] in
/-- What was not begun is not recorded. -/
theorem log_pending {rest : List Stage} :
    (rest.map fun stage => (⟨stage, .pending, .empty⟩ : StageOutcome T K)).flatMap
      (StageOutcome.log env) = [] := by
  rw [List.flatMap_eq_nil_iff]
  intro o ho
  obtain ⟨stage, -, rfl⟩ := List.mem_map.mp ho
  exact if_pos rfl

omit [Field K] [LinearOrder K] in
/-- A stage that returned goes before how the others end. -/
theorem Ends.cons {status : Pipeline.RunStatus} {outcomes : List (StageOutcome T K)}
    {o : StageOutcome T K}
    (ho : o.status = .done ∨ o.status = .skipped) (h : Ends status outcomes) :
    Ends status (o :: outcomes) := by
  rcases h with ⟨rfl, hall⟩ | ⟨rfl, before, o', after, rfl, hbefore, ho', hafter⟩
  · exact Or.inl ⟨rfl, List.forall_mem_cons.mpr ⟨ho, hall⟩⟩
  · exact Or.inr ⟨rfl, o :: before, o', after, rfl, List.forall_mem_cons.mpr ⟨ho, hbefore⟩, ho',
      hafter⟩

variable (P settings env) in
/-- **The loop returns**, and what it returns is what it records. -/
theorem runStages_log (stages : List Stage) (h : Recorded env.tenantId l x.2) :
    ∃ r y, runStages P settings env stages x = (.ok r, y) ∧
      Recorded env.tenantId (l ++ r.2.flatMap (StageOutcome.log env)) y.2 ∧
      r.2.map StageOutcome.stage = stages ∧ Ends r.1 r.2 := by
  induction stages generalizing x l with
  | nil =>
      refine ⟨_, _, rfl, ?_, rfl, Or.inl ⟨rfl, fun _ ho => absurd ho List.not_mem_nil⟩⟩
      rw [List.flatMap_nil, List.append_nil]
      exact h
  | cons stage rest ih =>
      obtain ⟨x₁, hbegin, h₁⟩ := record_recorded env stage .running .empty h
      obtain ⟨result, x₂, hattempt, h₂⟩ := attempt_recorded P settings env stage h₁
      rw [runStages, Prog.bind_of_ok hbegin, Prog.bind_of_ok hattempt]
      cases result with
      | error e =>
          obtain ⟨x₃, hfailed, h₃⟩ := record_recorded env stage .failed (.error e) h₂
          refine ⟨_, _, Prog.bind_of_ok hfailed, ?_, ?_, Or.inr ⟨rfl, [], _, _, rfl,
            fun _ ho => absurd ho List.not_mem_nil, rfl, ?_⟩⟩
          · rw [List.flatMap_cons, log_pending, List.append_nil, StageOutcome.log, if_neg (by simp)]
            rw [List.append_assoc] at h₃
            exact h₃
          · rw [List.map_cons, List.map_map]
            exact congrArg _ (List.map_id' rest)
          · intro o ho
            obtain ⟨stage, -, rfl⟩ := List.mem_map.mp ho
            rfl
      | ok result =>
          obtain ⟨detail, skipped⟩ := result
          obtain ⟨x₃, hended, h₃⟩ := record_recorded env stage (Pipeline.ended skipped) detail h₂
          obtain ⟨⟨final, outcomes⟩, x₄, hloop, hlog, hstages, hends⟩ := ih h₃
          have hstatus : Pipeline.ended skipped = .done ∨ Pipeline.ended skipped = .skipped := by
            cases skipped
            · exact Or.inl rfl
            · exact Or.inr rfl
          have hpending : Pipeline.ended skipped ≠ .pending := by
            rcases hstatus with h | h <;> rw [h] <;> nofun
          refine ⟨_, _, (Prog.bind_of_ok hended).trans (Prog.bind_of_ok hloop), ?_,
            congrArg _ hstages, hends.cons hstatus⟩
          rw [List.flatMap_cons, StageOutcome.log, if_neg hpending]
          simpa only [List.append_assoc, List.cons_append, List.nil_append] using hlog

omit [Field K] [LinearOrder K] in
variable (env) in
/-- The first records of a run. -/
theorem forM_record (stages : List Stage) (h : Recorded env.tenantId l s) :
    ∃ t, stages.forM (fun stage => record env stage .pending .empty) s = (.ok (), t) ∧
      Recorded env.tenantId
        (l ++ stages.map fun stage => recordOf env stage .pending .empty) t := by
  induction stages generalizing s l with
  | nil =>
      rw [List.map_nil, List.append_nil]
      exact ⟨s, rfl, h⟩
  | cons stage rest ih =>
      have hnext : Recorded env.tenantId (l ++ [recordOf env stage .pending .empty])
          (record env stage .pending .empty s).2 := ⟨h.1, congrArg (· ++ [_]) h.2⟩
      obtain ⟨t, hrest, ht⟩ := ih hnext
      rw [List.append_assoc] at ht
      exact ⟨t, hrest, ht⟩

end Loop

/-- **The log of a run is what it returns.** If the tenant is not there, the
run raises and nothing is recorded. If it is, the run returns, whatever its
stages raise; its outcomes are those of the stages in order, and the records
it adds are the stages as pending and then those of each outcome. -/
theorem stageLog (hs : Reachable s) :
    ((s.bucket env.tenantId).data.tenant = none ∧
        runPipeline P settings env s = (.error ("KeyError: '" ++ env.tenantId ++ "'"), s)) ∨
      ∃ result, (runPipeline P settings env s).1 = .ok result ∧
        Tells env s (runPipeline P settings env s).2 result := by
  cases htenant : (s.bucket env.tenantId).data.tenant with
  | none =>
      have hread : (Store.ofData env.tenantId Data.tenant : Call T.toRows K _) s = (.ok none, s) :=
        congrArg (fun t => (Except.ok t, s)) htenant
      have hget : (Store.getTenant env.tenantId : Call T.toRows K _) s =
          (.error ("KeyError: '" ++ env.tenantId ++ "'"), s) := Prog.bind_of_ok hread
      exact Or.inl ⟨rfl, Prog.bind_of_error hget⟩
  | some tenant =>
      have hread : (Store.ofData env.tenantId Data.tenant : Call T.toRows K _) s =
          (.ok (some tenant), s) := congrArg (fun t => (Except.ok t, s)) htenant
      have hget : (Store.getTenant env.tenantId : Call T.toRows K _) s = (.ok tenant, s) :=
        Prog.bind_of_ok hread
      have hs₀ : Recorded env.tenantId s.stages s := ⟨(hs.filed.data env.tenantId).outcomes, rfl⟩
      obtain ⟨u, hpending, hu⟩ := forM_record env Pipeline.stages hs₀
      have hstart : Recorded env.tenantId _ (Run.start P tenant, u).2 := hu
      obtain ⟨⟨status, outcomes⟩, ⟨run, v⟩, hloop, ⟨-, hlog⟩, hstages, hends⟩ :=
        runStages_log P settings env Pipeline.stages hstart
      have hrun : runPipeline P settings env s =
          (.ok ⟨env.runId, env.tenantId, status, outcomes, run.recommendationIds⟩, v) := by
        refine (Prog.bind_of_ok hget).trans ((Prog.bind_of_ok hpending).trans ?_)
        unfold Prog.within
        rw [Prog.bind_of_ok hloop]
        rfl
      refine Or.inr ⟨_, by rw [hrun], ?_, hstages, hends⟩
      rw [hrun, ← List.append_assoc]
      exact hlog

theorem stageLog_wallet : ∃ result,
    (runPipeline samplePackages sampleSettings sampleEnv walletStore).1 = .ok result ∧
      Tells sampleEnv walletStore
        (runPipeline samplePackages sampleSettings sampleEnv walletStore).2 result := by
  refine (stageLog reachable_walletStore).resolve_left fun h => ?_
  have htenant : (walletStore.bucket "tenant-wallet").data.tenant =
      some ⟨"tenant-wallet", "demo-wallet", "WALLET", ()⟩ := by
    have hbucket : walletStore.bucket "tenant-wallet" = _ := InMemoryStore.bucket_setData
    rw [hbucket]
  cases htenant.symm.trans h.1

end Worker

end RetentionEngine
