import RetentionEngine.Common.Run
import RetentionEngine.Pipeline.Persist
import RetentionEngine.Queue.PipelineRun
import Mathlib.Data.Rat.Floor

/-!
# Executing a run again

`execute_run` over `PostgresPipelineStore`, by any number of workers on
one `pipeline_runs` row. Every store call is a transaction of its own; an
execution may raise or die between any two of them, `finish_run` and
`requeue_or_fail` included, and what it has committed stays. The next
execution starts from the first stage with a fresh store, reads and scores
anew, and knows nothing of the rows the last one left:
`create_recommendations` appends its own. So a run recommends everyone
once as long as only one execution commits recommendations.

The calls that write tables nothing here reads (the stages, the scores,
the policy decisions, the arms, the narrations) leave no trace but the
stages of the row.
-/

namespace RetentionEngine

namespace Retry

open Pipeline PipelineRun

/-- What stays the same however often a run is executed. -/
structure Env (K : Type) where
  hashes : Hashes
  settings : PipelineSettings K
  workerSettings : WorkerSettings
  tenant : Uuid
  runId : String

/-- How far an execution has come. -/
inductive Progress (K : Type)
  /-- Before `save_circles`. -/
  | started
  /-- After `save_circles`. -/
  | graphed (i : Inputs K)
  /-- After `save_allocation`. -/
  | allocated (i : Inputs K) (a : Allocated K)
  /-- After `create_recommendations`. -/
  | recommended (i : Inputs K) (a : Allocated K)
  /-- After `save_feature_snapshots`, with so many audit rows to append. -/
  | audited (left : ℕ)
  /-- A stage, or the code around the stages, has raised. -/
  | raised (error : String)

/-- An execution: its store and its progress. -/
structure Execution (K : Type) where
  cache : StoreCache
  progress : Progress K

/-- The row, what every worker is executing, and the tables. -/
structure State (K : Type) where
  row : PipelineRun
  executions : ℕ → Option (Execution K)
  tables : Tables K

/-- What worker `w` may do next. -/
inductive Action (K : Type)
  /-- `poll_tenant`, one transaction. -/
  | poll (w : ℕ) (now : Timestamp) (chosen : Bool)
  /-- `record_stage`. -/
  | recordStage (w : ℕ) (now : Timestamp) (stage status : String)
  | saveCircles (w : ℕ) (i : Inputs K)
  | saveAllocation (w : ℕ)
  | createRecommendations (w : ℕ) (now : Timestamp)
  | saveFeatureSnapshots (w : ℕ)
  | appendAudit (w : ℕ)
  /-- Whatever comes next raises. -/
  | raise (w : ℕ) (error : String)
  /-- `finish_run`, after a run that is DONE. -/
  | finish (w : ℕ) (now : Timestamp)
  /-- `requeue_or_fail`, after one that is not. -/
  | requeue (w : ℕ) (now : Timestamp)
  /-- The worker dies, or its report raises. -/
  | crash (w : ℕ)

variable {K : Type} [Field K] [LinearOrder K] [FloorRing K]

/-- The state after a call of `w`. -/
def State.update (s : State K) (w : ℕ) (row : PipelineRun) (tables : Tables K)
    (execution : Option (Execution K)) : State K :=
  ⟨row, Function.update s.executions w execution, tables⟩

/-- The state after a call of `w` that has written `tables`, or raised. -/
def State.store (s : State K) (w : ℕ) (cache : StoreCache) (result : Except StoreError (Tables K))
    (progress : Progress K) : State K :=
  match result with
  | .ok tables => s.update w s.row tables (some ⟨cache, progress⟩)
  | .error e => s.update w s.row s.tables (some ⟨cache, .raised ("PERSIST: " ++ e.text)⟩)

/-- **One step of the workers.** The calls of an execution come in the
order of the stages; a stage that computes nothing only raises. -/
def step (env : Env K) (s : State K) : Action K → Option (State K)
  | .poll w now chosen =>
      match s.executions w with
      | none =>
          let polled := s.row.poll env.workerSettings now chosen
          some (s.update w polled.1 s.tables (if polled.2 then some ⟨.fresh, .started⟩ else none))
      | some _ => none
  | .recordStage w now stage status =>
      (s.executions w).map fun e =>
        s.update w (s.row.updateStage now stage status) s.tables (some e)
  | .saveCircles w i =>
      match s.executions w with
      | some ⟨cache, .started⟩ =>
          if i.run.runId = env.runId then
            let saved := saveCircles s.tables cache (i.run.circles env.hashes env.settings)
            some (s.update w s.row saved.1 (some ⟨saved.2, .graphed i⟩))
          else none
      | _ => none
  | .saveAllocation w =>
      match s.executions w with
      | some ⟨cache, .graphed i⟩ =>
          (decisionStages env.hashes env.settings i.store i.run i.regressor).map fun a =>
            let saved := saveAllocation s.tables cache a
            s.update w s.row saved.1 (some ⟨saved.2, .allocated i a⟩)
      | _ => none
  | .createRecommendations w now =>
      match s.executions w with
      | some ⟨cache, .allocated i a⟩ =>
          some (s.store w cache (createRecommendations s.tables cache env.tenant now
            (recommendations env.hashes i.run i.narrations a.picks)) (.recommended i a))
      | _ => none
  | .saveFeatureSnapshots w =>
      match s.executions w with
      | some ⟨cache, .recommended i a⟩ =>
          some (s.store w cache (saveFeatureSnapshots s.tables
            (featureSnapshots i.store i.run a.picks)) (.audited a.picks.length))
      | _ => none
  | .appendAudit w =>
      match s.executions w with
      | some ⟨cache, .audited (left + 1)⟩ =>
          some (s.update w s.row s.tables (some ⟨cache, .audited left⟩))
      | _ => none
  | .raise w error =>
      (s.executions w).map fun e => s.update w s.row s.tables (some ⟨e.cache, .raised error⟩)
  | .finish w now =>
      match s.executions w with
      | some ⟨_, .audited 0⟩ => some (s.update w (s.row.finishRun now true none) s.tables none)
      | _ => none
  | .requeue w now =>
      match s.executions w with
      | some ⟨_, .raised error⟩ =>
          some (s.update w (s.row.requeueOrFail env.workerSettings now (some error)) s.tables none)
      | _ => none
  | .crash w => some (s.update w s.row s.tables none)

/-- The step relation. -/
def Step (env : Env K) (s : State K) (a : Action K) (s' : State K) : Prop := step env s a = some s'

/-- A row `create_run` has just written, and nothing else. -/
def initial : State K := ⟨createRun, fun _ => none, ⟨.empty, [], [], 0⟩⟩

/-- **Recommended at most once**: no two recommendations of the run have
one subject. -/
def RecommendedOnce (s : State K) : Prop :=
  (s.tables.recommendations.map (subject s.tables.circles)).Nodup

instance (s : State K) : Decidable (RecommendedOnce s) := inferInstanceAs (Decidable (List.Nodup _))

/-- **The first commit**: an execution that has picks commits its
recommendations while the run has none. -/
def FirstCommit (s : State K) : Action K → Prop
  | .createRecommendations w _ =>
      match s.executions w with
      | some ⟨_, .allocated _ a⟩ => a.picks = [] ∨ s.tables.recommendations = []
      | _ => True
  | _ => True

instance (s : State K) (a : Action K) : Decidable (FirstCommit s a) := by
  unfold FirstCommit
  split
  · split <;> infer_instance
  · infer_instance

/-- The ids of an execution do not collide. -/
def NoCollision (env : Env K) : Action K → Prop
  | .saveCircles _ i => CollisionFree env.hashes env.settings i.store i.run
  | _ => True

instance (env : Env K) (a : Action K) : Decidable (NoCollision env a) := by
  unfold NoCollision
  split <;> infer_instance

/-! ## One subject, one recommendation -/

variable {env : Env K} {s s' : State K} {a : Action K} {w : ℕ} {row : PipelineRun}
  {tables : Tables K} {o : Option (Execution K)}

/-- What an execution may rely on: its circles are saved, and its picks are
those of its inputs. -/
def Execution.Sound (env : Env K) (tables : Tables K) (e : Execution K) : Prop :=
  match e.progress with
  | .graphed i => CollisionFree env.hashes env.settings i.store i.run ∧
      Saved (i.run.circles env.hashes env.settings) tables e.cache
  | .allocated i a => CollisionFree env.hashes env.settings i.store i.run ∧
      Saved (i.run.circles env.hashes env.settings) tables e.cache ∧
      decisionStages env.hashes env.settings i.store i.run i.regressor = some a
  | _ => True

omit [FloorRing K] in
theorem Execution.Sound.mono {e : Execution K} {tables' : Tables K} (he : e.Sound env tables)
    (hkeep : tables.KeepsCircles tables') : e.Sound env tables' := by
  obtain ⟨cache, progress⟩ := e
  cases progress with
  | graphed i => exact ⟨he.1, he.2.mono hkeep⟩
  | allocated i a => exact ⟨he.1, he.2.1.mono hkeep, he.2.2⟩
  | _ => trivial

/-- **The invariant of a run**: keys and executions are sound, and nobody
is recommended twice. -/
structure Inv (env : Env K) (s : State K) : Prop where
  tables : s.tables.Sound
  executions : ∀ w, ∀ e ∈ s.executions w, e.Sound env s.tables
  once : RecommendedOnce s

omit [FloorRing K] in
theorem Inv.update (hinv : Inv env s) (hsound : tables.Sound)
    (hkeep : s.tables.KeepsCircles tables)
    (honce : (tables.recommendations.map (subject tables.circles)).Nodup)
    (ho : ∀ e ∈ o, e.Sound env tables) : Inv env (s.update w row tables o) := by
  refine ⟨hsound, ?_, honce⟩
  intro w' e he
  change e ∈ Function.update s.executions w o w' at he
  by_cases hw : w' = w
  · subst hw
    rw [Function.update_self] at he
    exact ho e he
  · rw [Function.update_of_ne hw] at he
    exact (hinv.executions w' e he).mono hkeep

omit [FloorRing K] in
/-- An execution goes on, and the tables stay. -/
theorem Inv.stay (hinv : Inv env s) {e : Execution K} (he : e.Sound env s.tables) :
    Inv env (s.update w row s.tables (some e)) :=
  hinv.update hinv.tables (fun _ _ hid => hid) hinv.once fun _ he' => Option.some.inj he' ▸ he

omit [FloorRing K] in
/-- An execution ends. -/
theorem Inv.leave (hinv : Inv env s) : Inv env (s.update w row s.tables none) :=
  hinv.update hinv.tables (fun _ _ hid => hid) hinv.once fun _ he => (nomatch he)

omit [FloorRing K] in
/-- A call that writes neither circles nor recommendations. -/
theorem Inv.write (hinv : Inv env s) {e : Execution K} (hsound : tables.Sound)
    (hcircles : tables.circles = s.tables.circles)
    (hrecs : tables.recommendations = s.tables.recommendations) (he : e.Sound env tables) :
    Inv env (s.update w row tables (some e)) := by
  refine hinv.update hsound (fun id members hid => by rw [hcircles, hid]) ?_
    fun _ he' => Option.some.inj he' ▸ he
  rw [hrecs, hcircles]
  exact hinv.once

omit [FloorRing K] in
/-- **`save_circles` keeps the invariant.** -/
theorem Inv.saveCircles (hinv : Inv env s) {cache : StoreCache} {i : Inputs K}
    (hfree : CollisionFree env.hashes env.settings i.store i.run) :
    Inv env (s.update w row
      (saveCircles s.tables cache (i.run.circles env.hashes env.settings)).1
      (some ⟨(Pipeline.saveCircles s.tables cache (i.run.circles env.hashes env.settings)).2,
        .graphed i⟩)) := by
  obtain ⟨hsound, hkeep, hrecs, hsaved⟩ :=
    saveCircles_spec cache hinv.tables hfree.unambiguous.circleIds
  refine hinv.update hsound hkeep ?_ ?_
  · rw [hrecs, List.map_congr_left fun r hr =>
      subject_eq_of_keepsCircles hkeep (hinv.tables.references r hr)]
    exact hinv.once
  · intro e he
    obtain rfl := Option.some.inj he
    exact ⟨hfree, hsaved⟩

/-- **The first commit keeps the invariant**: its rows have the subjects
of its picks. -/
theorem Inv.createRecommendations (hinv : Inv env s) {cache : StoreCache} {i : Inputs K}
    {a : Allocated K} {now : Timestamp} {e' : Execution K}
    (he : (Execution.mk cache (.allocated i a)).Sound env s.tables)
    (hfirst : a.picks = [] ∨ s.tables.recommendations = [])
    (hcreate : createRecommendations s.tables cache env.tenant now
      (recommendations env.hashes i.run i.narrations a.picks) = .ok tables)
    (he' : e'.Sound env tables) : Inv env (s.update w row tables (some e')) := by
  obtain ⟨hfree, hsaved, hstages⟩ := he
  obtain ⟨v, ranked, hdone⟩ := exists_completed hstages
  have hu := hfree.unambiguous.candidateIds
  obtain ⟨hcircles, hnext, rows, hrecs, hrows⟩ := createRecommendations_spec hcreate
  have hkeep : s.tables.KeepsCircles tables := fun id members hid => by rw [hcircles, hid]
  obtain ⟨hsubjects, hkeys⟩ := hdone.subjects_rows hu hsaved hrows
  refine hinv.update ⟨?_, ?_⟩ hkeep ?_ ?_
  · intro id hid
    rw [hcircles] at hid
    exact (hinv.tables.below id hid).trans_le hnext
  · intro r hr id hid
    rw [hcircles]
    rw [hrecs] at hr
    rcases List.mem_append.mp hr with hold | hnew
    · exact hinv.tables.references r hold id hid
    · exact hkeys r hnew id hid
  · rw [hrecs, hcircles, List.map_append, hsubjects]
    rcases hfirst with hnil | hempty
    · rw [hnil, List.map_nil, List.append_nil]
      exact hinv.once
    · rw [hempty, List.map_nil, List.nil_append]
      exact hdone.nodup_subjects hu
  · intro e he
    obtain rfl := Option.some.inj he
    exact he'

/-- **Every step keeps the invariant**, if ids do not collide and the
commit of recommendations is the first. -/
theorem inv_step (hinv : Inv env s) (h : Step env s a s') (hfree : NoCollision env a)
    (hfirst : FirstCommit s a) : Inv env s' := by
  cases a with
  | poll w now chosen =>
      unfold Step step at h
      dsimp only at h
      split at h
      · obtain rfl := Option.some.inj h
        split
        · exact hinv.stay trivial
        · exact hinv.leave
      · cases h
  | recordStage w now stage status =>
      obtain ⟨e, he, rfl⟩ := Option.map_eq_some_iff.mp h
      exact hinv.stay (hinv.executions w e he)
  | saveCircles w i =>
      unfold Step step at h
      dsimp only at h
      split at h
      · rw [Option.ite_none_right_eq_some] at h
        obtain rfl := Option.some.inj h.2
        exact hinv.saveCircles hfree
      · cases h
  | saveAllocation w =>
      unfold Step step at h
      dsimp only at h
      split at h
      · rename_i cache i hexec
        obtain ⟨a, hstages, rfl⟩ := Option.map_eq_some_iff.mp h
        obtain ⟨hcollision, hsaved⟩ := hinv.executions w _ hexec
        obtain ⟨hsound, hcircles, hrecs, hcache⟩ := saveAllocation_spec cache a hinv.tables
        have hkeep : s.tables.KeepsCircles (Pipeline.saveAllocation s.tables cache a).1 :=
          fun id members hid => by rw [hcircles, hid]
        exact hinv.write hsound hcircles hrecs ⟨hcollision, hsaved.mono hkeep, hstages⟩
      · cases h
  | createRecommendations w now =>
      unfold Step step at h
      dsimp only at h
      split at h
      · rename_i cache i a hexec
        obtain rfl := Option.some.inj h
        have hsound := hinv.executions w _ hexec
        unfold FirstCommit at hfirst
        dsimp only at hfirst
        rw [hexec] at hfirst
        unfold State.store
        split
        · rename_i tables hcreate
          exact hinv.createRecommendations hsound hfirst hcreate trivial
        · exact hinv.stay trivial
      · cases h
  | saveFeatureSnapshots w =>
      unfold Step step at h
      dsimp only at h
      split at h
      · rename_i cache i a hexec
        obtain rfl := Option.some.inj h
        unfold State.store
        split
        · rename_i tables hsave
          obtain ⟨hsound, hcircles, hrecs⟩ := saveFeatureSnapshots_spec hinv.tables hsave
          exact hinv.write hsound hcircles hrecs trivial
        · exact hinv.stay trivial
      · cases h
  | appendAudit w =>
      unfold Step step at h
      dsimp only at h
      split at h
      · obtain rfl := Option.some.inj h
        exact hinv.stay trivial
      · cases h
  | raise w error =>
      obtain ⟨e, he, rfl⟩ := Option.map_eq_some_iff.mp h
      exact hinv.stay trivial
  | finish w now =>
      unfold Step step at h
      dsimp only at h
      split at h
      · obtain rfl := Option.some.inj h
        exact hinv.leave
      · cases h
  | requeue w now =>
      unfold Step step at h
      dsimp only at h
      split at h
      · obtain rfl := Option.some.inj h
        exact hinv.leave
      · cases h
  | crash w =>
      obtain rfl := Option.some.inj h
      exact hinv.leave

/-- **A run recommends a subject at most once** as long as recommendations
are committed once: whatever raises or dies, and however many executions
there are, if none of them commits recommendations when the run has some
already, no two rows of the run are for the same user or the same
circle. -/
theorem recommendedOnce_of_firstCommit {tr : List (Transition (State K) (Action K))}
    (h : Run (Step env) initial tr s) (hfree : ∀ t ∈ tr, NoCollision env t.act)
    (hfirst : ∀ t ∈ tr, FirstCommit t.pre t.act) : RecommendedOnce s := by
  have hinit : Inv env initial := by
    refine ⟨⟨fun id hid => (nomatch hid), fun r hr => (nomatch hr)⟩, fun w e he => (nomatch he), ?_⟩
    exact List.nodup_nil
  have hboth : ∀ t ∈ tr, NoCollision env t.act ∧ FirstCommit t.pre t.act := fun t ht =>
    ⟨hfree t ht, hfirst t ht⟩
  exact (h.invariant (G := fun s a => NoCollision env a ∧ FirstCommit s a) hboth hinit
    fun s a s' hinv hstep hG => inv_step hinv hstep hG.1 hG.2).once

/-! ## A run executed twice -/

/-- Three attempts, and a claim is stale after ten minutes. -/
def sampleEnv : Env ℚ where
  hashes := sampleHashes
  settings := sampleSettings
  workerSettings := ⟨3, 600⟩
  tenant := 1
  runId := sampleRunId

/-- An execution by worker 0, claimed at `now`, until its recommendations
are committed. -/
def loneExecution (now : Timestamp) : List (Action ℚ) :=
  [.poll 0 now true, .saveCircles 0 (sampleInputs loneRun), .saveAllocation 0,
    .createRecommendations 0 now]

/-- `save_feature_snapshots` raises, and the run is executed again. -/
def loneRetry : List (Action ℚ) :=
  let failure : List (Action ℚ) := [.raise 0 "PERSIST: OperationalError", .requeue 0 5]
  loneExecution 0 ++ failure ++ loneExecution 10

/-- Executed once, the run recommends `user1` once. -/
theorem recommendedOnce_of_firstCommit_lone :
    ∃ tr s, Run (Step sampleEnv) initial tr s ∧ s.tables.recommendations.length = 1 ∧
      RecommendedOnce s := by
  have hexec : ∃ s ∈ (loneExecution 0).foldlM (fun s a =>
      if NoCollision sampleEnv a ∧ FirstCommit s a then step sampleEnv s a else none) initial,
      s.tables.recommendations.length = 1 := by decide +kernel
  obtain ⟨s, hs, hlength⟩ := hexec
  obtain ⟨tr, hrun, hG⟩ := Run.exists_of_foldlM_guard
    (G := fun s a => NoCollision sampleEnv a ∧ FirstCommit s a) hs
  exact ⟨tr, s, hrun, hlength, recommendedOnce_of_firstCommit hrun (fun t ht => (hG t ht).1)
    fun t ht => (hG t ht).2⟩

/-- **A run may recommend a user twice**: `save_feature_snapshots` raises
after the recommendations have been committed, the run is queued again,
and its second execution commits them once more. -/
theorem not_recommendedOnce :
    ¬ ∀ (env : Env ℚ) (tr : List (Transition (State ℚ) (Action ℚ))) (s : State ℚ),
      Run (Step env) initial tr s → (∀ t ∈ tr, NoCollision env t.act) → RecommendedOnce s := by
  intro hlaw
  have hexec : ∃ s ∈ loneRetry.foldlM (fun s a =>
      if NoCollision sampleEnv a then step sampleEnv s a else none) initial,
      ¬ RecommendedOnce s := by decide +kernel
  obtain ⟨s, hs, htwice⟩ := hexec
  obtain ⟨tr, hrun, hfree⟩ := Run.exists_of_foldlM_guard
    (G := fun _ a => NoCollision sampleEnv a) hs
  exact htwice (hlaw sampleEnv tr s hrun hfree)

end Retry

end RetentionEngine
