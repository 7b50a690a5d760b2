import RetentionEngine.Schema.Columns
import Mathlib.Data.Int.Basic

/-!
# A `pipeline_runs` row

The row and the calls of `persistence.repositories.pipeline` that write
it, each as a function of the row it has read. Which row a claim takes is
a matter of the other rows of the tenant (the oldest unlocked QUEUED one),
so a poll is told by `chosen` whether it is this one. The columns no call
here reads or writes are left out.
-/

namespace RetentionEngine

/-- `ck_pipeline_runs_status`. -/
inductive RunStatus
  | queued
  | running
  | succeeded
  | failed
  deriving DecidableEq, Repr

/-- SUCCEEDED and FAILED: nobody is meant to work on the run any more. -/
def RunStatus.Terminal (s : RunStatus) : Prop := s = .succeeded ∨ s = .failed

instance : DecidablePred RunStatus.Terminal :=
  fun s => inferInstanceAs (Decidable (s = .succeeded ∨ s = .failed))

/-- The columns of a run its repository works with. -/
structure PipelineRun where
  status : RunStatus
  attempts : ℕ
  stages : List (String × String)
  error : Option String
  startedAt : Option Timestamp
  finishedAt : Option Timestamp
  deriving DecidableEq, Repr

/-- `PIPELINE_STAGES`. -/
def pipelineStages : List String :=
  ["INGEST", "FEEDBACK", "EXTERNAL", "GRAPH", "RISK", "IMPACT", "POLICY", "RANK", "ALLOCATE",
    "EXPLAIN", "PERSIST"]

/-- `WORKER_MAX_RETRIES` and `WORKER_STALE_CLAIM_SECONDS`. -/
structure WorkerSettings where
  workerMaxRetries : ℕ
  workerStaleClaimSeconds : ℤ

namespace PipelineRun

/-- `create_run`. -/
def createRun : PipelineRun where
  status := .queued
  attempts := 0
  stages := pipelineStages.map fun stage => (stage, "PENDING")
  error := none
  startedAt := none
  finishedAt := none

/-- `stages[stage] = status` on the JSONB object. -/
def setStage (stages : List (String × String)) (stage status : String) : List (String × String) :=
  if stages.any fun p => p.1 = stage then
    stages.map fun p => if p.1 = stage then (stage, status) else p
  else stages ++ [(stage, status)]

variable (row : PipelineRun)

/-- `update_stage`: the first stage written to a QUEUED row starts it. -/
def updateStage (now : Timestamp) (stage status : String) : PipelineRun :=
  let row := { row with stages := setStage row.stages stage status }
  if row.status = .queued then { row with status := .running, startedAt := some now } else row

/-- `claim_queued`, on the row it has chosen. -/
def claimQueued (now : Timestamp) : PipelineRun :=
  { row with status := .running, startedAt := some now, attempts := row.attempts + 1 }

/-- The row is RUNNING and its claim is older than the stale window; a
NULL `started_at` compares to nothing. -/
def Stale (settings : WorkerSettings) (now : Timestamp) : Prop :=
  row.status = .running ∧ ∃ t ∈ row.startedAt, t < now - settings.workerStaleClaimSeconds

instance (settings : WorkerSettings) (now : Timestamp) : Decidable (row.Stale settings now) :=
  inferInstanceAs (Decidable (_ ∧ _))

/-- `reclaim_stale`. -/
def reclaimStale (settings : WorkerSettings) (now : Timestamp) : PipelineRun :=
  if row.Stale settings now then
    if settings.workerMaxRetries ≤ row.attempts then
      { row with
        status := .failed
        error := some ("abandoned after " ++ toString row.attempts ++
          " attempt(s); no worker finished the run")
        finishedAt := some now }
    else { row with status := .queued }
  else row

/-- `requeue_or_fail`. -/
def requeueOrFail (settings : WorkerSettings) (now : Timestamp) (error : Option String) :
    PipelineRun :=
  if settings.workerMaxRetries ≤ row.attempts then
    { row with status := .failed, error := error, finishedAt := some now }
  else { row with status := .queued, error := error }

/-- `finish_run`. -/
def finishRun (now : Timestamp) (succeeded : Bool) (error : Option String) : PipelineRun :=
  { row with
    status := if succeeded then .succeeded else .failed
    error := error
    finishedAt := some now }

/-- The transaction of `poll_tenant`: `reclaim_stale`, then
`claim_queued` if this row is the one it takes. The flag says that the
row was claimed. -/
def poll (settings : WorkerSettings) (now : Timestamp) (chosen : Bool) : PipelineRun × Bool :=
  let row := row.reclaimStale settings now
  if chosen ∧ row.status = .queued then (row.claimQueued now, true) else (row, false)

/-! ## What each call does to status and attempts -/

variable {row : PipelineRun} {settings : WorkerSettings} {now : Timestamp}

@[simp] theorem updateStage_attempts {stage status : String} :
    (row.updateStage now stage status).attempts = row.attempts := by
  unfold updateStage
  dsimp only
  split <;> rfl

theorem updateStage_status (row : PipelineRun) (now : Timestamp) (stage status : String) :
    (row.updateStage now stage status).status = row.status ∨
      row.status = .queued ∧ (row.updateStage now stage status).status = .running := by
  unfold updateStage
  dsimp only
  split
  · rename_i h
    exact Or.inr ⟨h, rfl⟩
  · exact Or.inl rfl

@[simp] theorem reclaimStale_attempts :
    (row.reclaimStale settings now).attempts = row.attempts := by
  unfold reclaimStale
  split
  · split <;> rfl
  · rfl

/-- **What a reclaim does**: nothing, or it ends a RUNNING row whose
budget is spent, or it queues one whose budget is not. -/
theorem reclaimStale_cases (row : PipelineRun) (settings : WorkerSettings) (now : Timestamp) :
    row.reclaimStale settings now = row ∨
      (row.status = .running ∧ (row.reclaimStale settings now).status = .failed ∧
        settings.workerMaxRetries ≤ row.attempts) ∨
      (row.status = .running ∧ (row.reclaimStale settings now).status = .queued ∧
        row.attempts < settings.workerMaxRetries) := by
  unfold reclaimStale
  split
  · rename_i hstale
    split
    · rename_i hspent
      exact Or.inr (Or.inl ⟨hstale.1, rfl, hspent⟩)
    · rename_i hleft
      exact Or.inr (Or.inr ⟨hstale.1, rfl, by omega⟩)
  · exact Or.inl rfl

@[simp] theorem requeueOrFail_attempts {error : Option String} :
    (row.requeueOrFail settings now error).attempts = row.attempts := by
  unfold requeueOrFail
  split <;> rfl

theorem requeueOrFail_status {error : Option String} :
    (row.requeueOrFail settings now error).status =
      if settings.workerMaxRetries ≤ row.attempts then .failed else .queued := by
  unfold requeueOrFail
  split <;> rfl

@[simp] theorem finishRun_attempts {succeeded : Bool} {error : Option String} :
    (row.finishRun now succeeded error).attempts = row.attempts := rfl

/-- **What a poll does**: it leaves the reclaimed row, or claims a QUEUED
one, which costs an attempt. -/
theorem poll_cases (row : PipelineRun) (settings : WorkerSettings) (now : Timestamp)
    (chosen : Bool) :
    row.poll settings now chosen = (row.reclaimStale settings now, false) ∨
      ((row.reclaimStale settings now).status = .queued ∧
        (row.poll settings now chosen).1.status = .running ∧
        (row.poll settings now chosen).1.attempts = row.attempts + 1 ∧
        (row.poll settings now chosen).2 = true) := by
  unfold poll
  dsimp only
  split
  · rename_i h
    exact Or.inr ⟨h.2, rfl, by simp [claimQueued], rfl⟩
  · exact Or.inl rfl

end PipelineRun

theorem RunStatus.Terminal.ne_running {s : RunStatus} (h : s.Terminal) : s ≠ .running := by
  rcases h with h | h <;> rw [h] <;> decide

theorem RunStatus.Terminal.ne_queued {s : RunStatus} (h : s.Terminal) : s ≠ .queued := by
  rcases h with h | h <;> rw [h] <;> decide

namespace PipelineRun

variable {row : PipelineRun} {settings : WorkerSettings} {now : Timestamp}

theorem reclaimStale_of_terminal (h : row.status.Terminal) :
    row.reclaimStale settings now = row := by
  rcases reclaimStale_cases row settings now with
    heq | ⟨hrun, -⟩ | ⟨hrun, -⟩
  · exact heq
  · exact absurd hrun h.ne_running
  · exact absurd hrun h.ne_running

/-- A poll leaves a terminal row as it is. -/
theorem poll_of_terminal (h : row.status.Terminal) {chosen : Bool} :
    row.poll settings now chosen = (row, false) := by
  have hre : row.reclaimStale settings now = row := reclaimStale_of_terminal h
  rcases poll_cases row settings now chosen with
    heq | ⟨hq, -⟩
  · rw [heq, hre]
  · rw [hre] at hq
    exact absurd hq h.ne_queued

end PipelineRun

end RetentionEngine
