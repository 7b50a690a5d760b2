import RetentionEngine.Common.Run
import RetentionEngine.Queue.PipelineRun

/-!
# Who may close a run

Any number of workers share one `pipeline_runs` row. Each polls in one
transaction, and if it got the row executes the run, writing stages, until
it reports with `finish_run` or `requeue_or_fail` or dies. A claim does
not end when the row is reclaimed from under it: the slow worker goes on
and reports in its turn. Neither report looks at the status it replaces,
so a run that another worker has closed is opened again, or closed the
other way; `terminal_final_iff` says that these are the only steps that
undo a final status.
-/

namespace RetentionEngine

namespace Queue

open PipelineRun

/-- The row, and which workers are executing it. -/
structure State where
  row : PipelineRun
  executing : ℕ → Bool

/-- What worker `w` may do next. -/
inductive Action
  /-- `poll_tenant`, one transaction. -/
  | poll (w : ℕ) (now : Timestamp) (chosen : Bool)
  /-- `update_stage`, from `record_stage`. -/
  | updateStage (w : ℕ) (now : Timestamp) (stage status : String)
  /-- `finish_run`, after a run that is DONE. -/
  | finish (w : ℕ) (now : Timestamp)
  /-- `requeue_or_fail`, after one that is not. -/
  | requeue (w : ℕ) (now : Timestamp) (error : Option String)
  /-- The worker dies. -/
  | crash (w : ℕ)

/-- **One step of the workers.** A worker polls when it executes nothing
and reports only on the run it executes. -/
def step (settings : WorkerSettings) (s : State) : Action → Option State
  | .poll w now chosen =>
      if s.executing w then none
      else some ⟨(s.row.poll settings now chosen).1,
        Function.update s.executing w (s.row.poll settings now chosen).2⟩
  | .updateStage w now stage status =>
      if s.executing w then some { s with row := s.row.updateStage now stage status } else none
  | .finish w now =>
      if s.executing w then
        some ⟨s.row.finishRun now true none, Function.update s.executing w false⟩
      else none
  | .requeue w now error =>
      if s.executing w then
        some ⟨s.row.requeueOrFail settings now error, Function.update s.executing w false⟩
      else none
  | .crash w => some { s with executing := Function.update s.executing w false }

/-- The step relation. -/
def Step (settings : WorkerSettings) (s : State) (a : Action) (s' : State) : Prop :=
  step settings s a = some s'

/-- A row `create_run` has just written, and no worker on it. -/
def initial : State := ⟨createRun, fun _ => false⟩

variable {settings : WorkerSettings} {s s' : State} {a : Action}

/-- **The row after a step**, by the call that made it. -/
theorem step_row (h : Step settings s a s') :
    s'.row = match a with
      | .poll _ now chosen => (s.row.poll settings now chosen).1
      | .updateStage _ now stage status => s.row.updateStage now stage status
      | .finish _ now => s.row.finishRun now true none
      | .requeue _ now error => s.row.requeueOrFail settings now error
      | .crash _ => s.row := by
  cases a with
  | poll w now chosen =>
      simp only [Step, step, Option.ite_none_left_eq_some, Option.some.injEq] at h
      exact h.2 ▸ rfl
  | updateStage w now stage status =>
      simp only [Step, step, Option.ite_none_right_eq_some, Option.some.injEq] at h
      exact h.2 ▸ rfl
  | finish w now =>
      simp only [Step, step, Option.ite_none_right_eq_some, Option.some.injEq] at h
      exact h.2 ▸ rfl
  | requeue w now error =>
      simp only [Step, step, Option.ite_none_right_eq_some, Option.some.injEq] at h
      exact h.2 ▸ rfl
  | crash w =>
      simp only [Step, step, Option.some.injEq] at h
      exact h ▸ rfl

/-- A FAILED row has spent its budget. -/
def FailedSpent (settings : WorkerSettings) (s : State) : Prop :=
  s.row.status = .failed → settings.workerMaxRetries ≤ s.row.attempts

theorem failedSpent_step (hinv : FailedSpent settings s) (h : Step settings s a s') :
    FailedSpent settings s' := by
  have hrow := step_row h
  intro hfailed
  cases a with
  | poll w now chosen =>
      dsimp only at hrow
      rw [hrow] at hfailed ⊢
      rcases poll_cases s.row settings now chosen with
        heq | ⟨-, hrun, -⟩
      · rw [heq] at hfailed ⊢
        rw [reclaimStale_attempts]
        rcases reclaimStale_cases s.row settings now with
          hsame | ⟨-, -, hspent⟩ | ⟨-, hq, -⟩
        · rw [hsame] at hfailed
          exact hinv hfailed
        · exact hspent
        · rw [hq] at hfailed
          cases hfailed
      · rw [hrun] at hfailed
        cases hfailed
  | updateStage w now stage status =>
      dsimp only at hrow
      rw [hrow] at hfailed ⊢
      rw [updateStage_attempts]
      rcases updateStage_status s.row now stage status with
        hsame | ⟨-, hrun⟩
      · rw [hsame] at hfailed
        exact hinv hfailed
      · rw [hrun] at hfailed
        cases hfailed
  | finish w now =>
      dsimp only at hrow
      rw [hrow] at hfailed
      cases hfailed
  | requeue w now error =>
      dsimp only at hrow
      rw [hrow, requeueOrFail_status] at hfailed
      rw [hrow, requeueOrFail_attempts]
      by_contra hleft
      rw [if_neg hleft] at hfailed
      cases hfailed
  | crash w =>
      dsimp only at hrow
      rw [hrow] at hfailed ⊢
      exact hinv hfailed

/-- In every state of a run a FAILED row has spent its budget. -/
theorem failedSpent_of_run {tr : List (Transition State Action)}
    (h : Run (Step settings) initial tr s) : FailedSpent settings s :=
  h.invariant' (fun hf => by cases hf) fun _ _ _ hinv hstep => failedSpent_step hinv hstep

/-- **A late report**: `finish_run` on a run that another worker has
failed, or `requeue_or_fail` on one that another worker has finished. -/
def LateReport (s : State) : Action → Prop
  | .finish _ _ => s.row.status = .failed
  | .requeue _ _ _ => s.row.status = .succeeded
  | _ => False

/-- **One step changes a final status exactly when it is a late report.** -/
theorem terminal_step_iff (hinv : FailedSpent settings s) (h : Step settings s a s') :
    (s.row.status.Terminal → s'.row.status = s.row.status) ↔ ¬ LateReport s a := by
  have hrow := step_row h
  cases a with
  | poll w now chosen =>
      dsimp only at hrow
      refine iff_of_true ?_ id
      intro hterm
      rw [hrow, poll_of_terminal hterm]
  | updateStage w now stage status =>
      dsimp only at hrow
      refine iff_of_true ?_ id
      intro hterm
      rw [hrow]
      rcases updateStage_status s.row now stage status with
        hsame | ⟨hq, -⟩
      · exact hsame
      · rcases hterm with hf | hf <;> rw [hq] at hf <;> cases hf
  | finish w now =>
      dsimp only at hrow
      rw [hrow]
      change (s.row.status.Terminal → RunStatus.succeeded = s.row.status) ↔ ¬ s.row.status = .failed
      constructor
      · intro hkeep hf
        rw [hf] at hkeep
        cases hkeep (Or.inr rfl)
      · rintro hnf (hs | hf)
        · exact hs.symm
        · exact absurd hf hnf
  | requeue w now error =>
      dsimp only at hrow
      rw [hrow, requeueOrFail_status]
      change (s.row.status.Terminal → _) ↔ ¬ s.row.status = .succeeded
      constructor
      · intro hkeep hs
        have heq := hkeep (Or.inl hs)
        rw [hs] at heq
        split at heq <;> cases heq
      · rintro hns (hs | hf)
        · exact absurd hs hns
        · rw [if_pos (hinv hf), hf]
  | crash w =>
      dsimp only at hrow
      refine iff_of_true ?_ id
      intro _
      rw [hrow]

end Queue

end RetentionEngine
