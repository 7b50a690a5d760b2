import RetentionEngine.Worker.Filed

/-!
# Tenants do not influence each other

A run of one tenant reads that tenant's data and nothing else, and writes
to that tenant's bucket and to the two shared collections, which nothing
reads (`runPipeline_isolated`). What it leaves is therefore the same thing
left in any two stores that agree on the tenant's data: the same data, and
the same rows added to what was there.
-/

namespace RetentionEngine

namespace Worker

open Prog (Keeps)
open Pipeline (RunEnv)

variable (T : Rows) (K : Type)

/-! ## What a run leaves -/

/-- **One addition** to a tenant's report. -/
inductive Entry
  | circles (snapshots : List T.CircleSnapshot) (circles : List T.Circle)
  | riskScores (scores : List T.RiskScore)
  | impactScores (scores : Dict String T.ImpactScore)
  | policyDecisions (decisions : List T.PolicyDecision)
  | allocation (result : T.AllocationResult) (extraDecisions : List T.AllocationDecision)
  | narration (row : NarrationRow)
  | recommendation (r : RecommendationRow K)
  | audit (row : AuditRow)

variable {T K}

/-- The report with it. -/
def Report.add (r : Report T K) : Entry T K → Report T K
  | .circles snapshots circles => { r with
      circleSnapshots := r.circleSnapshots ++ snapshots, circles := r.circles ++ circles }
  | .riskScores scores => { r with riskScores := r.riskScores ++ scores }
  | .impactScores scores => { r with
      impactScores := scores.entries.foldl (fun d p => d.set p.1 p.2) r.impactScores }
  | .policyDecisions decisions => { r with policyDecisions := r.policyDecisions ++ decisions }
  | .allocation result extra => { r with allocations := r.allocations ++ [(result, extra)] }
  | .narration row => { r with narrations := r.narrations ++ [row] }
  | .recommendation row => { r with
      recommendations := r.recommendations.set row.recommendationId row }
  | .audit row => { r with auditLog := r.auditLog ++ [row] }

/-- The report with all of them. -/
def Report.addAll (r : Report T K) (entries : List (Entry T K)) : Report T K :=
  entries.foldl Report.add r

variable (T K) in
/-- **What a run leaves behind**: the tenant's data as they are now, and
what was added to the tenant's report, the signals and the stages. -/
structure Traces where
  data : Data T K
  entries : List (Entry T K)
  signals : List T.Signal
  stages : List (StageRecord T K)

/-- The store with it. -/
def Traces.left (w : Traces T K) (tenantId : String) (s : InMemoryStore T K) :
    InMemoryStore T K where
  bucket := Function.update s.bucket tenantId ⟨w.data, (s.bucket tenantId).report.addAll w.entries⟩
  externalSignals := w.signals.foldl (fun d x => d.set (T.signalId x) x) s.externalSignals
  stages := s.stages ++ w.stages

variable {s s' s₀ s₀' : InMemoryStore T K} {tenantId other : String} {w : Traces T K}

@[simp] theorem bucket_left : (w.left tenantId s).bucket tenantId =
    ⟨w.data, (s.bucket tenantId).report.addAll w.entries⟩ := Function.update_self ..

theorem bucket_left_of_ne (h : other ≠ tenantId) :
    (w.left tenantId s).bucket other = s.bucket other := Function.update_of_ne h ..

theorem setData_left {d : Data T K} :
    (w.left tenantId s).setData tenantId d = { w with data := d }.left tenantId s := by
  unfold InMemoryStore.setData
  rw [bucket_left]
  simp only [Traces.left, Function.update_idem]

theorem setReport_left {e : Entry T K} : (w.left tenantId s).setReport tenantId
    (((w.left tenantId s).bucket tenantId).report.add e) =
      { w with entries := w.entries ++ [e] }.left tenantId s := by
  unfold InMemoryStore.setReport
  rw [bucket_left]
  simp only [Traces.left, Function.update_idem, Report.addAll, List.foldl_append, List.foldl_cons,
    List.foldl_nil]

/-! ## Two runs -/

/-- **Two runs of a tenant in step**: they have left the same. -/
def LeftSame (tenantId : String) (s₀ s₀' s s' : InMemoryStore T K) : Prop :=
  ∃ w : Traces T K, (∀ o ∈ w.data.outcomes, o.tenantId = tenantId) ∧
    s = w.left tenantId s₀ ∧ s' = w.left tenantId s₀'

theorem ofData_leftSame {α : Type} {f : Data T K → α} :
    Keeps (LeftSame tenantId s₀ s₀') (Store.ofData tenantId f) := by
  refine .read ?_
  rintro _ _ ⟨w, -, rfl, rfl⟩
  rw [bucket_left, bucket_left]

theorem onData_leftSame {f : Data T K → Data T K}
    (hf : ∀ d : Data T K, (∀ o ∈ d.outcomes, o.tenantId = tenantId) →
      ∀ o ∈ (f d).outcomes, o.tenantId = tenantId) :
    Keeps (LeftSame tenantId s₀ s₀') (Store.onData tenantId f) := by
  refine .modify ?_
  rintro _ _ ⟨w, hown, rfl, rfl⟩
  refine ⟨{ w with data := f w.data }, hf _ hown, ?_, ?_⟩ <;> rw [bucket_left, setData_left]

theorem onReport_leftSame (e : Entry T K) :
    Keeps (LeftSame tenantId s₀ s₀') (Store.onReport tenantId fun r => r.add e) := by
  refine .modify ?_
  rintro _ _ ⟨w, hown, rfl, rfl⟩
  exact ⟨{ w with entries := w.entries ++ [e] }, hown, setReport_left, setReport_left⟩

section Run

variable {T : Parts} {s s' s₀ s₀' : InMemoryStore T.toRows K} {P : Packages T K}
  {settings : Settings} {env : RunEnv}

/-- **The calls of a run** leave the same in both. -/
theorem callsKeep_leftSame : CallsKeep (LeftSame tenantId s₀ s₀') tenantId where
  ownOutcomes := by
    rintro _ _ ⟨w, hown, rfl, rfl⟩
    rw [bucket_left]
    exact hown
  reads _ := ofData_leftSame
  markRawEvent _ _ _ := onData_leftSame fun _ hown => hown
  saveCanonicalEvent e := by
    unfold Store.saveCanonicalEvent
    split
    · exact .raise _
    · exact onData_leftSame fun _ hown => hown
  upsertUserAttributes _ _ := onData_leftSame fun _ hown => hown
  saveExternalSignals signals := by
    refine .modify ?_
    rintro _ _ ⟨w, hown, rfl, rfl⟩
    refine ⟨{ w with signals := w.signals ++ signals }, hown, ?_, ?_⟩ <;>
      simp only [Traces.left, List.foldl_append]
  recordStage record _ := by
    refine .modify ?_
    rintro _ _ ⟨w, hown, rfl, rfl⟩
    refine ⟨{ w with stages := w.stages ++ [record] }, hown, ?_, ?_⟩ <;>
      simp only [Traces.left, List.append_assoc]
  saveCircles snapshots circles := onReport_leftSame (.circles snapshots circles)
  saveRiskScores scores := onReport_leftSame (.riskScores scores)
  saveImpactScores scores := onReport_leftSame (.impactScores scores)
  savePolicyDecisions decisions := onReport_leftSame (.policyDecisions decisions)
  getOrCreateExperiment :=
    Keeps.bind (onData_leftSame fun _ hown => hown) fun _ => ofData_leftSame
  saveArmAssignment p := by
    refine Keeps.bind (onData_leftSame fun _ hown => hown) fun _ =>
      ofData_leftSame.bind fun arm => ?_
    split
    · exact .raise _
    · exact .pure _
  saveAllocation result extra := onReport_leftSame (.allocation result extra)
  saveNarration row := onReport_leftSame (.narration row)
  saveFeatureSnapshot snapshot hown := hown ▸ onData_leftSame fun _ h => h
  createRecommendation r hown := by
    unfold Store.createRecommendation
    split
    · exact hown ▸ onReport_leftSame (.recommendation r)
    · exact .raise _
  appendAudit row := onReport_leftSame (.audit row)
  saveLabeledExample e hown := hown ▸ onData_leftSame fun _ h => h

/-- A store that nothing was left in. -/
theorem left_nil : Traces.left ⟨(s.bucket tenantId).data, [], [], []⟩ tenantId s = s := by
  simp [Traces.left, Report.addAll]

section Claim

variable [Field K] [LinearOrder K] (P : Packages T K) (settings : Settings) (env : RunEnv)

/-- **Two runs of a tenant** return the same and leave the same behind. -/
theorem runPipeline_leftSame (hs : Reachable s)
    (hdata : (s.bucket env.tenantId).data = (s'.bucket env.tenantId).data) :
    (runPipeline P settings env s).1 = (runPipeline P settings env s').1 ∧
      ∃ w : Traces T.toRows K, (runPipeline P settings env s).2 = w.left env.tenantId s ∧
        (runPipeline P settings env s').2 = w.left env.tenantId s' := by
  have hstart : LeftSame env.tenantId s s' s s' := by
    refine ⟨⟨(s.bucket env.tenantId).data, [], [], []⟩, ?_, left_nil.symm, ?_⟩
    · exact (hs.filed.data env.tenantId).outcomes
    · rw [hdata]
      exact left_nil.symm
  have hkeeps : Keeps (LeftSame env.tenantId s s') (runPipeline P settings env) :=
    runPipeline_keeps callsKeep_leftSame
  obtain ⟨hresult, w, -, hleft, hleft'⟩ := hkeeps s s' hstart
  exact ⟨hresult, w, hleft, hleft'⟩

/-- **A run leaves the other tenants alone.** -/
theorem bucket_runPipeline (hs : Reachable s) (hne : other ≠ env.tenantId) :
    (runPipeline P settings env s).2.bucket other = s.bucket other := by
  obtain ⟨-, w, hleft, -⟩ := runPipeline_leftSame P settings env hs rfl
  rw [hleft, bucket_left_of_ne hne]

/-- **Tenants do not influence each other.** From any two reachable stores
that agree on the tenant's data, two runs of the tenant return the same or
raise the same, leave the same behind, and every other tenant's bucket as
it was. -/
theorem runPipeline_isolated (hs : Reachable s) (hs' : Reachable s')
    (hdata : (s.bucket env.tenantId).data = (s'.bucket env.tenantId).data) :
    (runPipeline P settings env s).1 = (runPipeline P settings env s').1 ∧
      (∃ w : Traces T.toRows K, (runPipeline P settings env s).2 = w.left env.tenantId s ∧
        (runPipeline P settings env s').2 = w.left env.tenantId s') ∧
      ∀ other ≠ env.tenantId,
        (runPipeline P settings env s).2.bucket other = s.bucket other ∧
          (runPipeline P settings env s').2.bucket other = s'.bucket other := by
  obtain ⟨hresult, hleft⟩ := runPipeline_leftSame P settings env hs hdata
  exact ⟨hresult, hleft, fun other hne => ⟨bucket_runPipeline P settings env hs hne,
    bucket_runPipeline P settings env hs' hne⟩⟩

end Claim

end Run

/-! ## A second tenant -/

/-- A wallet. -/
def walletStore : InMemoryStore sampleParts.toRows ℚ :=
  ((Operation.addTenant ⟨"tenant-wallet", "demo-wallet", "WALLET", ()⟩).call
    (InMemoryStore.new sampleParts.toRows ℚ)).2

/-- A wallet and a lender with a catalog. -/
def walletAndLenderStore : InMemoryStore sampleParts.toRows ℚ :=
  ((Operation.setIncentives "tenant-lending" [()]).call
    ((Operation.addTenant ⟨"tenant-lending", "demo-lending", "LENDING", ()⟩).call walletStore).2).2

theorem reachable_walletStore : Reachable walletStore := .call _ .new

theorem reachable_walletAndLenderStore : Reachable walletAndLenderStore :=
  .call _ (.call _ reachable_walletStore)

theorem bucket_walletAndLenderStore :
    walletAndLenderStore.bucket "tenant-wallet" = walletStore.bucket "tenant-wallet" := by
  have hne : "tenant-wallet" ≠ "tenant-lending" := by decide
  exact (InMemoryStore.bucket_setData_of_ne hne).trans (InMemoryStore.bucket_setData_of_ne hne)

theorem runPipeline_isolated_wallet :
    (runPipeline samplePackages sampleSettings sampleEnv walletStore).1 =
        (runPipeline samplePackages sampleSettings sampleEnv walletAndLenderStore).1 ∧
      (runPipeline samplePackages sampleSettings sampleEnv walletAndLenderStore).2.bucket
        "tenant-lending" = walletAndLenderStore.bucket "tenant-lending" := by
  have hdata : (walletStore.bucket sampleEnv.tenantId).data =
      (walletAndLenderStore.bucket sampleEnv.tenantId).data :=
    congrArg Bucket.data bucket_walletAndLenderStore.symm
  have hne : "tenant-lending" ≠ sampleEnv.tenantId := by decide
  have h := runPipeline_isolated samplePackages sampleSettings sampleEnv reachable_walletStore
    reachable_walletAndLenderStore hdata
  exact ⟨h.1, (h.2.2 _ hne).2⟩

end Worker

end RetentionEngine
