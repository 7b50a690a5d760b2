import RetentionEngine.Common.Run
import RetentionEngine.Queue.PipelineRun

/-!
# The retry budget under READ COMMITTED

Here a repository call is no longer one step. It reads the row and later
commits the columns it has changed against what it read, and only a poll,
whose statements say `FOR UPDATE SKIP LOCKED`, holds the row lock in
between. The two statements of a poll still read at one moment: if
`reclaim_stale` has taken the lock nobody else writes before
`claim_queued` reads, and if it has matched nothing it leaves no trace.

`attempts` is written by the claim alone, under the lock. What a claim
relies on is that a QUEUED row has budget left, and the one writer that
can break this is a `requeue_or_fail` which decides on a row that has
been reclaimed and claimed again since (`StaleRequeue`).
-/

namespace RetentionEngine

namespace Budget

open PipelineRun

/-- What a worker is doing. -/
inductive Phase
  /-- Nothing: its next call is a poll. -/
  | idle
  /-- Inside the poll transaction, holding the lock, with `next` flushed. -/
  | polling (next : PipelineRun) (claimed : Bool)
  /-- Executing the run. -/
  | executing
  /-- Inside `update_stage`, having read `snap`. -/
  | stageRead (snap : PipelineRun)
  /-- Inside `finish_run`, having read `snap`. -/
  | finishRead (snap : PipelineRun)
  /-- Inside `requeue_or_fail`, having read `snap`. -/
  | requeueRead (snap : PipelineRun)
  deriving DecidableEq

/-- The committed row, the holder of its lock, and every worker's phase. -/
structure State where
  row : PipelineRun
  lock : Option ℕ
  phase : ℕ → Phase

/-- The reads and the commits of worker `w`. -/
inductive Action
  | pollRead (w : ℕ) (now : Timestamp) (chosen : Bool)
  | pollCommit (w : ℕ)
  | stageRead (w : ℕ)
  | stageCommit (w : ℕ) (now : Timestamp) (stage status : String)
  | finishRead (w : ℕ)
  | finishCommit (w : ℕ) (now : Timestamp)
  | requeueRead (w : ℕ)
  | requeueCommit (w : ℕ) (now : Timestamp) (error : Option String)
  | crash (w : ℕ)

/-- The UPDATE a flush emits: the columns of `new` that differ from the
`snap` it was computed from, written over whatever the row is now. -/
def writeColumns (snap new cur : PipelineRun) : PipelineRun where
  status := if new.status = snap.status then cur.status else new.status
  attempts := if new.attempts = snap.attempts then cur.attempts else new.attempts
  stages := if new.stages = snap.stages then cur.stages else new.stages
  error := if new.error = snap.error then cur.error else new.error
  startedAt := if new.startedAt = snap.startedAt then cur.startedAt else new.startedAt
  finishedAt := if new.finishedAt = snap.finishedAt then cur.finishedAt else new.finishedAt

/-- The state with `w` in phase `p`. -/
def State.goto (s : State) (w : ℕ) (p : Phase) : State :=
  { s with phase := Function.update s.phase w p }

/-- An UPDATE without a lock of its own: it waits for the lock, commits,
and leaves `w` in phase `p`. -/
def State.write (s : State) (w : ℕ) (snap new : PipelineRun) (p : Phase) : Option State :=
  if s.lock = none then some ({ s with row := writeColumns snap new s.row }.goto w p) else none

/-- **One step of the workers.** A poll skips a locked row, and touches
only a stale or a chosen QUEUED one. -/
def step (settings : WorkerSettings) (s : State) : Action → Option State
  | .pollRead w now chosen =>
      match s.phase w with
      | .idle =>
          if s.lock = none ∧ (s.row.Stale settings now ∨ chosen ∧ s.row.status = .queued) then
            some ({ s with lock := some w }.goto w
              (.polling (s.row.poll settings now chosen).1 (s.row.poll settings now chosen).2))
          else some s
      | _ => none
  | .pollCommit w =>
      match s.phase w with
      | .polling next claimed =>
          some ({ s with row := next, lock := none }.goto w (if claimed then .executing else .idle))
      | _ => none
  | .stageRead w =>
      match s.phase w with
      | .executing => some (s.goto w (.stageRead s.row))
      | _ => none
  | .stageCommit w now stage status =>
      match s.phase w with
      | .stageRead snap => s.write w snap (snap.updateStage now stage status) .executing
      | _ => none
  | .finishRead w =>
      match s.phase w with
      | .executing => some (s.goto w (.finishRead s.row))
      | _ => none
  | .finishCommit w now =>
      match s.phase w with
      | .finishRead snap => s.write w snap (snap.finishRun now true none) .idle
      | _ => none
  | .requeueRead w =>
      match s.phase w with
      | .executing => some (s.goto w (.requeueRead s.row))
      | _ => none
  | .requeueCommit w now error =>
      match s.phase w with
      | .requeueRead snap => s.write w snap (snap.requeueOrFail settings now error) .idle
      | _ => none
  | .crash w => some ({ s with lock := if s.lock = some w then none else s.lock }.goto w .idle)

/-- The step relation. -/
def Step (settings : WorkerSettings) (s : State) (a : Action) (s' : State) : Prop :=
  step settings s a = some s'

/-- A row `create_run` has just written, unlocked, and no worker on it. -/
def initial : State := ⟨createRun, none, fun _ => .idle⟩

/-- **A stale requeue**: `requeue_or_fail` is about to queue the run
because the row it read had budget left, and the row has none. -/
def StaleRequeue (settings : WorkerSettings) (s : State) : Action → Prop
  | .requeueCommit w _ _ =>
      match s.phase w with
      | .requeueRead snap => snap.status ≠ .queued ∧ snap.attempts < settings.workerMaxRetries ∧
          settings.workerMaxRetries ≤ s.row.attempts
      | _ => False
  | _ => False

instance (settings : WorkerSettings) (s : State) (a : Action) :
    Decidable (StaleRequeue settings s a) := by
  unfold StaleRequeue
  split
  · split <;> infer_instance
  · infer_instance

/-! ## What a row must satisfy -/

/-- The budget of a row is kept, and a QUEUED row has some left. -/
structure Budgeted (settings : WorkerSettings) (row : PipelineRun) : Prop where
  /-- No more claims than the settings allow. -/
  attempts_le : row.attempts ≤ settings.workerMaxRetries
  /-- Whoever claims the row may. -/
  attempts_lt : row.status = .queued → row.attempts < settings.workerMaxRetries

variable {settings : WorkerSettings} {s s' : State} {a : Action} {row snap new cur : PipelineRun}

/-- An unlocked UPDATE leaves `attempts` alone, and queues the row only if
it was computed to. -/
theorem writeColumns_attempts (h : new.attempts = snap.attempts) :
    (writeColumns snap new cur).attempts = cur.attempts := if_pos h

theorem writeColumns_queued (h : (writeColumns snap new cur).status = .queued) :
    cur.status = .queued ∨ snap.status ≠ .queued ∧ new.status = .queued := by
  unfold writeColumns at h
  dsimp only at h
  split at h
  · exact Or.inl h
  · rename_i hne
    exact Or.inr ⟨fun hsnap => hne (h.trans hsnap.symm), h⟩

/-- **A poll keeps the budget.** Both of its calls look at the row they
write. -/
theorem Budgeted.poll (h : Budgeted settings row) (now : Timestamp) (chosen : Bool) :
    Budgeted settings (row.poll settings now chosen).1 := by
  -- the reclaimed row is budgeted: it is queued only below the budget
  have hre : Budgeted settings (row.reclaimStale settings now) := by
    refine ⟨by simpa using h.attempts_le, ?_⟩
    intro hq
    rw [reclaimStale_attempts]
    rcases reclaimStale_cases row settings now with
      hsame | ⟨-, hf, -⟩ | ⟨-, -, hlt⟩
    · exact h.attempts_lt (hsame ▸ hq)
    · rw [hf] at hq
      cases hq
    · exact hlt
  rcases poll_cases row settings now chosen with
    heq | ⟨hq, hrun, hatt, -⟩
  · rw [heq]
    exact hre
  · -- the claim takes the attempt a QUEUED row is known to have left
    have hlt := hre.attempts_lt hq
    rw [reclaimStale_attempts] at hlt
    refine ⟨by omega, ?_⟩
    intro hqueued
    rw [hrun] at hqueued
    cases hqueued

/-- **An unlocked UPDATE keeps the budget** unless it queues a row that
has none left. -/
theorem Budgeted.writeColumns (h : Budgeted settings cur) (hatt : new.attempts = snap.attempts)
    (hq : snap.status ≠ .queued → new.status = .queued →
      cur.attempts < settings.workerMaxRetries) :
    Budgeted settings (writeColumns snap new cur) := by
  refine ⟨by rw [writeColumns_attempts hatt]; exact h.attempts_le, ?_⟩
  intro hqueued
  rw [writeColumns_attempts hatt]
  rcases writeColumns_queued hqueued with hcur | ⟨hsnap, hnew⟩
  · exact h.attempts_lt hcur
  · exact hq hsnap hnew

/-! ## What a step may do to the row -/

/-- The invariant: the committed row is budgeted, and so is every row a
poll is about to commit. -/
structure Inv (settings : WorkerSettings) (s : State) : Prop where
  row : Budgeted settings s.row
  polling : ∀ w next claimed, s.phase w = .polling next claimed → Budgeted settings next

theorem Inv.goto (h : Inv settings s) (w : ℕ) {p : Phase}
    (hp : ∀ next claimed, p = .polling next claimed → Budgeted settings next) :
    Inv settings (s.goto w p) := by
  refine ⟨h.row, ?_⟩
  intro v next claimed hv
  unfold State.goto at hv
  dsimp only at hv
  rcases eq_or_ne v w with rfl | hne
  · rw [Function.update_self] at hv
    exact hp next claimed hv
  · rw [Function.update_of_ne hne] at hv
    exact h.polling v next claimed hv

/-- The lock is not part of the invariant. -/
theorem Inv.lock (h : Inv settings s) (l : Option ℕ) : Inv settings { s with lock := l } :=
  ⟨h.row, h.polling⟩

theorem Inv.setRow (h : Inv settings s) (hrow : Budgeted settings row) (l : Option ℕ) :
    Inv settings { s with row := row, lock := l } := ⟨hrow, h.polling⟩

theorem Inv.write (h : Inv settings s) {w : ℕ} {p : Phase} (hs : s.write w snap new p = some s')
    (hp : ∀ next claimed, p ≠ .polling next claimed)
    (hrow : Budgeted settings (writeColumns snap new s.row)) : Inv settings s' := by
  simp only [State.write, Option.ite_none_right_eq_some, Option.some.injEq] at hs
  rw [← hs.2]
  exact (h.setRow hrow s.lock).goto w fun next claimed heq => absurd heq (hp next claimed)

/-- **Every step but a stale requeue keeps the invariant.** -/
theorem inv_step (h : Inv settings s) (hstep : Step settings s a s')
    (hgood : ¬ StaleRequeue settings s a) : Inv settings s' := by
  unfold Step step at hstep
  cases a with
  | pollRead w now chosen =>
      dsimp only at hstep
      split at hstep
      · split at hstep <;> rw [← Option.some.inj hstep]
        · refine (h.lock (some w)).goto w ?_
          intro next claimed heq
          rw [Phase.polling.injEq] at heq
          rw [← heq.1]
          exact h.row.poll now chosen
        · exact h
      · cases hstep
  | pollCommit w =>
      dsimp only at hstep
      split at hstep
      · rename_i next claimed hw
        rw [← Option.some.inj hstep]
        refine (h.setRow (h.polling w next claimed hw) none).goto w ?_
        intro next' claimed' heq
        split at heq <;> cases heq
      · cases hstep
  | stageRead w =>
      dsimp only at hstep
      split at hstep
      · rw [← Option.some.inj hstep]
        exact h.goto w fun _ _ heq => by cases heq
      · cases hstep
  | stageCommit w now stage status =>
      dsimp only at hstep
      split at hstep
      · rename_i snap hw
        refine h.write hstep (fun _ _ heq => by cases heq) (h.row.writeColumns (by simp) ?_)
        -- a stage write never queues a row that was not
        intro hsnap hnew
        rcases updateStage_status snap now stage status with hsame | ⟨hq, -⟩
        · exact absurd (hsame ▸ hnew) hsnap
        · exact absurd hq hsnap
      · cases hstep
  | finishRead w =>
      dsimp only at hstep
      split at hstep
      · rw [← Option.some.inj hstep]
        exact h.goto w fun _ _ heq => by cases heq
      · cases hstep
  | finishCommit w now =>
      dsimp only at hstep
      split at hstep
      · exact h.write hstep (fun _ _ heq => by cases heq)
          (h.row.writeColumns (by simp) fun _ hnew => by cases hnew)
      · cases hstep
  | requeueRead w =>
      dsimp only at hstep
      split at hstep
      · rw [← Option.some.inj hstep]
        exact h.goto w fun _ _ heq => by cases heq
      · cases hstep
  | requeueCommit w now error =>
      dsimp only at hstep
      split at hstep
      · rename_i snap hw
        refine h.write hstep (fun _ _ heq => by cases heq) (h.row.writeColumns (by simp) ?_)
        intro hsnap hnew
        -- it read a row with budget left, so the row still has some
        rw [requeueOrFail_status] at hnew
        by_contra hspent
        refine hgood ?_
        simp only [StaleRequeue, hw]
        refine ⟨hsnap, ?_, by omega⟩
        by_contra hmax
        rw [if_pos (by omega)] at hnew
        cases hnew
      · cases hstep
  | crash w =>
      dsimp only at hstep
      rw [← Option.some.inj hstep]
      exact (h.lock _).goto w fun _ _ heq => by cases heq

/-- **The retry budget is kept in every run without a stale requeue**: in
each of its states the row has been claimed at most `WORKER_MAX_RETRIES`
times. -/
theorem attempts_le_workerMaxRetries {tr : List (Transition State Action)}
    (hmax : 1 ≤ settings.workerMaxRetries) (h : Run (Step settings) initial tr s)
    (hgood : ∀ t ∈ tr, ¬ StaleRequeue settings t.pre t.act) :
    s.row.attempts ≤ settings.workerMaxRetries := by
  have h0 : Inv settings initial :=
    ⟨⟨Nat.zero_le _, fun _ => hmax⟩, fun _ _ _ heq => by cases heq⟩
  exact (h.invariant (G := fun s a => ¬ StaleRequeue settings s a) hgood h0
    fun _ _ _ hinv hstep hg => inv_step hinv hstep hg).row.attempts_le

/-- One worker claims the run, gives it back and claims it again. -/
theorem attempts_le_workerMaxRetries_twice :
    ∃ tr s, Run (Step ⟨2, 120⟩) initial tr s ∧ s.row.attempts = 2 ∧
      s.row.attempts ≤ (⟨2, 120⟩ : WorkerSettings).workerMaxRetries := by
  have htwice : ∃ s ∈ [Action.pollRead 0 0 true, .pollCommit 0, .requeueRead 0,
      .requeueCommit 0 5 none, .pollRead 0 6 true, .pollCommit 0].foldlM
        (fun s a => if ¬ StaleRequeue ⟨2, 120⟩ s a then step ⟨2, 120⟩ s a else none) initial,
        s.row.attempts = 2 := by decide
  obtain ⟨s, hs, h2⟩ := htwice
  obtain ⟨tr, hrun, hgood⟩ := Run.exists_of_foldlM_guard hs
  exact ⟨tr, s, hrun, h2, attempts_le_workerMaxRetries (by decide) hrun hgood⟩

/-- **The retry budget can be exceeded**: with two retries, worker 0's
`requeue_or_fail` has read its first attempt when worker 1 reclaims and
claims the run for its second; the commit queues it again and worker 2
claims it a third time. -/
theorem not_attempts_le_workerMaxRetries :
    ¬ ∀ (settings : WorkerSettings) (tr : List (Transition State Action)) (s : State),
      1 ≤ settings.workerMaxRetries → Run (Step settings) initial tr s →
        s.row.attempts ≤ settings.workerMaxRetries := by
  intro hlaw
  have hthird : ∃ s ∈ [Action.pollRead 0 0 true, .pollCommit 0, .requeueRead 0,
      .pollRead 1 200 true, .pollCommit 1, .requeueCommit 0 201 none,
      .pollRead 2 202 true, .pollCommit 2].foldlM (step ⟨2, 120⟩) initial,
        s.row.attempts = 3 := by decide
  obtain ⟨s, hs, h3⟩ := hthird
  obtain ⟨tr, hrun⟩ := Run.exists_of_foldlM hs
  have hle := hlaw ⟨2, 120⟩ tr s (by decide) hrun
  rw [h3] at hle
  exact absurd hle (by decide)

end Budget

end RetentionEngine
