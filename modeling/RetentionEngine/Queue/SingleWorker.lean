import RetentionEngine.Common.Run
import RetentionEngine.Queue.PipelineRun
import Mathlib.Data.List.Nodup

/-!
# The queue of one worker

`pipeline_runs` with all its rows, written by any number of `create_run`
calls and by one single-threaded worker. Every repository call is one
transaction. The worker may die between any two of them and be started
again, idle; a call that is rolled back is no step, and one whose commit
is not acknowledged is the step followed by the crash.

The selects of a poll say `FOR UPDATE SKIP LOCKED`, so each poll is told
which rows it does not see because a dead session still holds them.
-/

namespace RetentionEngine

namespace SingleWorker

/-- A row with the columns its selects look at. -/
structure RunRow extends PipelineRun where
  id : Uuid
  tenantId : Uuid
  createdAt : Timestamp
  deriving DecidableEq

/-- The row with the columns its repository writes replaced. -/
def RunRow.set (r : RunRow) (run : PipelineRun) : RunRow := { r with toPipelineRun := run }

@[simp] theorem RunRow.set_id (r : RunRow) (run : PipelineRun) : (r.set run).id = r.id := rfl

@[simp] theorem RunRow.set_tenantId (r : RunRow) (run : PipelineRun) :
    (r.set run).tenantId = r.tenantId := rfl

@[simp] theorem RunRow.set_toPipelineRun (r : RunRow) (run : PipelineRun) :
    (r.set run).toPipelineRun = run := rfl

@[simp] theorem RunRow.set_self (r : RunRow) : r.set r.toPipelineRun = r := rfl

/-! ## The table under the repository's calls -/

/-- A write to the row `get_run` finds. -/
def onRun (tenantId runId : Uuid) (f : PipelineRun → PipelineRun) (runs : List RunRow) :
    List RunRow :=
  runs.map fun r =>
    if r.tenantId = tenantId ∧ r.id = runId then r.set (f r.toPipelineRun) else r

/-- `reclaim_stale`. -/
def reclaimStale (settings : WorkerSettings) (tenantId : Uuid) (now : Timestamp)
    (locked : List Uuid) (runs : List RunRow) : List RunRow :=
  runs.map fun r =>
    if r.tenantId = tenantId ∧ r.id ∉ locked then
      r.set (r.toPipelineRun.reclaimStale settings now)
    else r

/-- The select of `claim_queued` sees the row. -/
def Claimable (tenantId : Uuid) (locked : List Uuid) (r : RunRow) : Prop :=
  r.tenantId = tenantId ∧ r.status = .queued ∧ r.id ∉ locked

instance (tenantId : Uuid) (locked : List Uuid) : DecidablePred (Claimable tenantId locked) :=
  fun r => inferInstanceAs (Decidable (r.tenantId = tenantId ∧ r.status = .queued ∧ r.id ∉ locked))

/-- `ORDER BY created_at LIMIT 1` may answer `claimed`. -/
def Selects (tenantId : Uuid) (locked : List Uuid) (runs : List RunRow) :
    Option Uuid → Prop
  | none => ∀ r ∈ runs, ¬ Claimable tenantId locked r
  | some id => ∃ r ∈ runs, r.id = id ∧ Claimable tenantId locked r ∧
      ∀ r' ∈ runs, Claimable tenantId locked r' → r.createdAt ≤ r'.createdAt

instance (tenantId : Uuid) (locked : List Uuid) (runs : List RunRow) :
    DecidablePred (Selects tenantId locked runs)
  | none => inferInstanceAs (Decidable (∀ r ∈ runs, ¬ Claimable tenantId locked r))
  | some id => inferInstanceAs (Decidable (∃ r ∈ runs, r.id = id ∧ Claimable tenantId locked r ∧
      ∀ r' ∈ runs, Claimable tenantId locked r' → r.createdAt ≤ r'.createdAt))

/-- `claim_queued`, when its select answers `claimed`. -/
def claimQueued (tenantId : Uuid) (now : Timestamp) (locked : List Uuid) (claimed : Option Uuid)
    (runs : List RunRow) : Option (List RunRow) :=
  if Selects tenantId locked runs claimed then
    some (match claimed with
      | none => runs
      | some id => onRun tenantId id (·.claimQueued now) runs)
  else none

/-! ## The system -/

/-- The table, and the tenant and the run the worker is executing. -/
structure State where
  runs : List RunRow
  executing : Option (Uuid × Uuid)

/-- What may happen next. -/
inductive Action
  /-- `create_run`. -/
  | createRun (tenantId id : Uuid) (now : Timestamp)
  /-- The transaction of `poll_tenant`. -/
  | poll (tenantId : Uuid) (now : Timestamp) (locked : List Uuid) (claimed : Option Uuid)
  /-- `update_stage`, from `record_stage`. -/
  | updateStage (now : Timestamp) (stage status : String)
  /-- `finish_run`, after a run that is DONE. -/
  | finish (now : Timestamp)
  /-- `requeue_or_fail`, after one that is not. -/
  | requeue (now : Timestamp) (error : Option String)
  /-- The worker dies, or gives the cycle up on an error. -/
  | crash

/-- The run an action claims. -/
def Action.claimed : Action → Option Uuid
  | .poll _ _ _ claimed => claimed
  | _ => none

/-- **One step.** The primary key refuses an id that is taken; the worker
polls when it executes nothing and reports on the run it executes. -/
def step (settings : WorkerSettings) (s : State) : Action → Option State
  | .createRun tenantId id now =>
      if id ∈ s.runs.map RunRow.id then none
      else some { s with runs := s.runs ++
        [{ PipelineRun.createRun with id := id, tenantId := tenantId, createdAt := now }] }
  | .poll tenantId now locked claimed =>
      if s.executing = none then
        (claimQueued tenantId now locked claimed
          (reclaimStale settings tenantId now locked s.runs)).map fun runs =>
            ⟨runs, claimed.map fun id => (tenantId, id)⟩
      else none
  | .updateStage now stage status =>
      s.executing.map fun run =>
        { s with runs := onRun run.1 run.2 (·.updateStage now stage status) s.runs }
  | .finish now =>
      s.executing.map fun run =>
        ⟨onRun run.1 run.2 (·.finishRun now true none) s.runs, none⟩
  | .requeue now error =>
      s.executing.map fun run =>
        ⟨onRun run.1 run.2 (·.requeueOrFail settings now error) s.runs, none⟩
  | .crash => some { s with executing := none }

/-- The step relation. -/
def Step (settings : WorkerSettings) (s : State) (a : Action) (s' : State) : Prop :=
  step settings s a = some s'

/-- An empty table, and an idle worker. -/
def initial : State := ⟨[], none⟩

/-- How often the run has been claimed. -/
def claims (tr : List (Transition State Action)) (id : Uuid) : ℕ :=
  tr.countP fun t => t.act.claimed = some id

/-! ## What a row keeps -/

/-- Status, attempts and the two timestamps fit together. -/
structure Coupled (settings : WorkerSettings) (row : PipelineRun) : Prop where
  queued : row.status = .queued → row.attempts < settings.workerMaxRetries
  running : row.status = .running →
    1 ≤ row.attempts ∧ row.attempts ≤ settings.workerMaxRetries ∧ row.startedAt.isSome
  failed : row.status = .failed →
    row.attempts = settings.workerMaxRetries ∧ row.finishedAt.isSome
  succeeded : row.status = .succeeded → row.finishedAt.isSome

variable {settings : WorkerSettings} {row : PipelineRun} {now : Timestamp}

theorem coupled_createRun (hmax : 1 ≤ settings.workerMaxRetries) :
    Coupled settings PipelineRun.createRun :=
  ⟨fun _ => hmax, nofun, nofun, nofun⟩

namespace Coupled

/-- **A RUNNING row is abandoned for the stale window at most**: once its
claim is older, it is stale. -/
theorem reclaimable (h : Coupled settings row) (hrun : row.status = .running) :
    ∃ t, row.startedAt = some t ∧
      ∀ now, t < now - settings.workerStaleClaimSeconds → row.Stale settings now := by
  obtain ⟨t, ht⟩ := Option.isSome_iff_exists.mp (h.running hrun).2.2
  exact ⟨t, ht, fun now hlt => ⟨hrun, t, ht, hlt⟩⟩

theorem claimQueued (h : Coupled settings row) (hq : row.status = .queued) :
    Coupled settings (row.claimQueued now) := by
  have hlt := h.queued hq
  refine ⟨nofun, ?_, nofun, nofun⟩
  intro _
  exact ⟨Nat.le_add_left 1 row.attempts, hlt, rfl⟩

theorem updateStage (h : Coupled settings row) (hrun : row.status = .running)
    {stage status : String} : Coupled settings (row.updateStage now stage status) := by
  unfold PipelineRun.updateStage
  dsimp only
  rw [if_neg (by rw [hrun]; exact nofun)]
  exact ⟨h.queued, h.running, h.failed, h.succeeded⟩

theorem finishRun (row : PipelineRun) : Coupled settings (row.finishRun now true none) :=
  ⟨nofun, nofun, nofun, fun _ => rfl⟩

/-- A RUNNING row is given back below the budget and failed at it. -/
theorem requeueOrFail (h : Coupled settings row) (hrun : row.status = .running)
    {error : Option String} : Coupled settings (row.requeueOrFail settings now error) := by
  have hle := (h.running hrun).2.1
  unfold PipelineRun.requeueOrFail
  split
  · rename_i hspent
    exact ⟨nofun, nofun, fun _ => ⟨Nat.le_antisymm hle hspent, rfl⟩, nofun⟩
  · rename_i hleft
    exact ⟨fun _ => Nat.lt_of_not_le hleft, nofun, nofun, nofun⟩

theorem reclaimStale (h : Coupled settings row) :
    Coupled settings (row.reclaimStale settings now) := by
  unfold PipelineRun.reclaimStale
  split
  · rename_i hstale
    have hle := (h.running hstale.1).2.1
    split
    · rename_i hspent
      exact ⟨nofun, nofun, fun _ => ⟨Nat.le_antisymm hle hspent, rfl⟩, nofun⟩
    · rename_i hleft
      exact ⟨fun _ => Nat.lt_of_not_le hleft, nofun, nofun, nofun⟩
  · exact h

end Coupled

/-! ## What the table keeps -/

/-- The table is coupled and every row counts its own claims in `n`. -/
structure TableInv (settings : WorkerSettings) (n : Uuid → ℕ) (runs : List RunRow) : Prop where
  nodup : (runs.map RunRow.id).Nodup
  coupled : ∀ r ∈ runs, Coupled settings r.toPipelineRun
  attempts : ∀ r ∈ runs, r.attempts = n r.id
  unclaimed : ∀ id, id ∉ runs.map RunRow.id → n id = 0

/-- The run in hand is a RUNNING row. -/
def Executing (runs : List RunRow) (executing : Option (Uuid × Uuid)) : Prop :=
  ∀ k ∈ executing, ∃ r ∈ runs, r.tenantId = k.1 ∧ r.id = k.2 ∧ r.status = .running

variable {n n' : Uuid → ℕ} {runs : List RunRow} {tenantId runId : Uuid} {locked : List Uuid}

/-- Rewriting rows in place. -/
theorem TableInv.map (h : TableInv settings n runs) {u : RunRow → RunRow}
    (hid : ∀ r, (u r).id = r.id)
    (hu : ∀ r ∈ runs, Coupled settings (u r).toPipelineRun ∧ (u r).attempts = n' r.id)
    (hn : ∀ id, id ∉ runs.map RunRow.id → n' id = 0) : TableInv settings n' (runs.map u) := by
  have hids : (runs.map u).map RunRow.id = runs.map RunRow.id := by
    rw [List.map_map]
    exact List.map_congr_left fun r _ => hid r
  refine ⟨hids ▸ h.nodup, ?_, ?_, fun id hid' => hn id (hids ▸ hid')⟩
  · intro r' hr'
    obtain ⟨r, hr, rfl⟩ := List.mem_map.mp hr'
    exact (hu r hr).1
  · intro r' hr'
    obtain ⟨r, hr, rfl⟩ := List.mem_map.mp hr'
    rw [hid r]
    exact (hu r hr).2

/-- The row `get_run` finds is the only one with its id. -/
theorem TableInv.eq_of_id (h : TableInv settings n runs) {r r' : RunRow} (hr : r ∈ runs)
    (hr' : r' ∈ runs) (hid : r.id = r'.id) : r = r' :=
  List.inj_on_of_nodup_map h.nodup hr hr' hid

/-- **A write to the run in hand**: `f` sees a RUNNING row and keeps its
attempts. -/
theorem TableInv.onRun (h : TableInv settings n runs)
    (hex : Executing runs (some (tenantId, runId))) {f : PipelineRun → PipelineRun}
    (hf : ∀ row, row.status = .running → Coupled settings row → Coupled settings (f row))
    (hatt : ∀ row, (f row).attempts = row.attempts) :
    TableInv settings n (onRun tenantId runId f runs) := by
  obtain ⟨r₀, hr₀, -, hid, hrun⟩ := hex _ rfl
  refine h.map (fun r => by split <;> rfl) ?_ h.unclaimed
  intro r hr
  split
  · rename_i hkey
    obtain rfl := h.eq_of_id hr hr₀ (hkey.2.trans hid.symm)
    exact ⟨hf _ hrun (h.coupled r hr), (hatt _).trans (h.attempts r hr)⟩
  · exact ⟨h.coupled r hr, h.attempts r hr⟩

theorem TableInv.reclaimStale (h : TableInv settings n runs) :
    TableInv settings n (reclaimStale settings tenantId now locked runs) := by
  refine h.map (fun r => by split <;> rfl) ?_ h.unclaimed
  intro r hr
  split
  · exact ⟨(h.coupled r hr).reclaimStale, by simpa using h.attempts r hr⟩
  · exact ⟨h.coupled r hr, h.attempts r hr⟩

/-- **A claim counts**: it takes a QUEUED row, which has attempts left,
and leaves it RUNNING in hand. -/
theorem TableInv.claimQueued (h : TableInv settings n runs) {claimed : Option Uuid}
    {runs' : List RunRow} (hc : claimQueued tenantId now locked claimed runs = some runs') :
    TableInv settings (fun id => n id + if claimed = some id then 1 else 0) runs' ∧
      Executing runs' (claimed.map fun id => (tenantId, id)) := by
  simp only [SingleWorker.claimQueued, Option.ite_none_right_eq_some, Option.some.injEq] at hc
  obtain ⟨hsel, rfl⟩ := hc
  cases claimed with
  | none => exact ⟨by simpa using h, nofun⟩
  | some id₀ =>
      obtain ⟨r₀, hr₀, hid, ⟨htenant, hq, -⟩, -⟩ := hsel
      constructor
      · refine h.map (fun r => by dsimp only; split <;> rfl) ?_ ?_
        · intro r hr
          dsimp only
          split
          · rename_i hkey
            obtain rfl := h.eq_of_id hr hr₀ (hkey.2.trans hid.symm)
            refine ⟨(h.coupled r hr).claimQueued hq, ?_⟩
            rw [if_pos (congrArg some hid.symm)]
            exact congrArg (· + 1) (h.attempts r hr)
          · rename_i hkey
            refine ⟨h.coupled r hr, ?_⟩
            rw [if_neg, Nat.add_zero]
            · exact h.attempts r hr
            · intro heq
              obtain rfl := h.eq_of_id hr hr₀ ((Option.some.inj heq).symm.trans hid.symm)
              exact hkey ⟨htenant, hid⟩
        · intro id hnot
          rw [h.unclaimed id hnot, if_neg]
          intro heq
          exact hnot (Option.some.inj heq ▸ hid ▸ List.mem_map_of_mem hr₀)
      · intro k hk
        obtain rfl := Option.some.inj hk
        refine ⟨_, List.mem_map_of_mem hr₀, ?_⟩
        rw [if_pos ⟨htenant, hid⟩]
        exact ⟨htenant, hid, rfl⟩

/-- A new row under a fresh id has not been claimed. -/
theorem TableInv.createRun (h : TableInv settings n runs) (hmax : 1 ≤ settings.workerMaxRetries)
    {id : Uuid} (hfresh : id ∉ runs.map RunRow.id) :
    TableInv settings n (runs ++
      [{ PipelineRun.createRun with id := id, tenantId := tenantId, createdAt := now }]) := by
  constructor
  · rw [List.map_append]
    refine List.nodup_append.mpr ⟨h.nodup, List.nodup_singleton _, ?_⟩
    rintro a ha b hb rfl
    obtain rfl := List.mem_singleton.mp hb
    exact hfresh ha
  · intro r hr
    rcases List.mem_append.mp hr with hr | hr
    · exact h.coupled r hr
    · obtain rfl := List.mem_singleton.mp hr
      exact coupled_createRun hmax
  · intro r hr
    rcases List.mem_append.mp hr with hr | hr
    · exact h.attempts r hr
    · obtain rfl := List.mem_singleton.mp hr
      exact (h.unclaimed id hfresh).symm
  · intro id' hnot
    refine h.unclaimed id' fun hmem => hnot ?_
    rw [List.map_append]
    exact List.mem_append_left _ hmem

/-! ## What a run keeps -/

variable {s s' : State} {a : Action}

/-- The table and the run in hand. -/
structure Inv (settings : WorkerSettings) (n : Uuid → ℕ) (s : State) : Prop where
  table : TableInv settings n s.runs
  executing : Executing s.runs s.executing

/-- **Every step keeps the invariant**, and a poll counts its claim. -/
theorem inv_step (hmax : 1 ≤ settings.workerMaxRetries) (h : Inv settings n s)
    (hstep : Step settings s a s') :
    Inv settings (fun id => n id + if a.claimed = some id then 1 else 0) s' := by
  unfold Step step at hstep
  cases a with
  | createRun tenantId id now =>
      simp only [Option.ite_none_left_eq_some, Option.some.injEq] at hstep
      obtain ⟨hfresh, rfl⟩ := hstep
      refine ⟨h.table.createRun hmax hfresh, ?_⟩
      intro k hk
      obtain ⟨r, hr, hkey⟩ := h.executing k hk
      exact ⟨r, List.mem_append_left _ hr, hkey⟩
  | poll tenantId now locked claimed =>
      simp only [Option.ite_none_right_eq_some] at hstep
      obtain ⟨runs', hc, rfl⟩ := Option.map_eq_some_iff.mp hstep.2
      obtain ⟨htable, hex⟩ := h.table.reclaimStale.claimQueued hc
      exact ⟨htable, hex⟩
  | updateStage now stage status =>
      obtain ⟨run, hk, rfl⟩ := Option.map_eq_some_iff.mp hstep
      have hex := hk ▸ h.executing
      refine ⟨h.table.onRun hex (fun _ hrun hrow => hrow.updateStage hrun) fun _ => by simp, ?_⟩
      -- the row in hand is RUNNING before and after
      intro k hk'
      obtain ⟨r, hr, htenant, hid, hrun⟩ := h.executing k hk'
      obtain rfl := Option.some.inj (hk.symm.trans hk')
      refine ⟨_, List.mem_map_of_mem hr, ?_⟩
      rw [if_pos ⟨htenant, hid⟩]
      refine ⟨htenant, hid, ?_⟩
      rcases PipelineRun.updateStage_status r.toPipelineRun now stage status with hsame | ⟨hq, -⟩
      · exact hsame.trans hrun
      · rw [hrun] at hq
        cases hq
  | finish now =>
      obtain ⟨run, hk, rfl⟩ := Option.map_eq_some_iff.mp hstep
      have hex := hk ▸ h.executing
      exact ⟨h.table.onRun hex (fun row _ _ => Coupled.finishRun row) fun _ => rfl, nofun⟩
  | requeue now error =>
      obtain ⟨run, hk, rfl⟩ := Option.map_eq_some_iff.mp hstep
      have hex := hk ▸ h.executing
      exact ⟨h.table.onRun hex (fun _ hrun hrow => hrow.requeueOrFail hrun) fun _ => by simp, nofun⟩
  | crash =>
      obtain rfl := Option.some.inj hstep
      exact ⟨h.table, nofun⟩

theorem mem_onRun (htable : TableInv settings n runs)
    (hex : Executing runs (some (tenantId, runId))) {f : PipelineRun → PipelineRun} {r : RunRow}
    (hr : r ∈ runs) (hterm : r.status.Terminal) : r ∈ onRun tenantId runId f runs := by
  obtain ⟨r₀, hr₀, -, hid, hrun⟩ := hex _ rfl
  refine List.mem_map.mpr ⟨r, hr, if_neg ?_⟩
  intro hkey
  obtain rfl := htable.eq_of_id hr hr₀ (hkey.2.trans hid.symm)
  exact hterm.ne_running hrun

theorem mem_reclaimStale {r : RunRow} (hr : r ∈ runs) (hterm : r.status.Terminal) :
    r ∈ reclaimStale settings tenantId now locked runs := by
  refine List.mem_map.mpr ⟨r, hr, ?_⟩
  rw [PipelineRun.reclaimStale_of_terminal hterm, RunRow.set_self, ite_self]

theorem mem_claimQueued (htable : TableInv settings n runs) {claimed : Option Uuid}
    {runs' : List RunRow} (hc : claimQueued tenantId now locked claimed runs = some runs')
    {r : RunRow} (hr : r ∈ runs) (hterm : r.status.Terminal) : r ∈ runs' := by
  simp only [claimQueued, Option.ite_none_right_eq_some, Option.some.injEq] at hc
  obtain ⟨hsel, rfl⟩ := hc
  cases claimed with
  | none => exact hr
  | some id₀ =>
      obtain ⟨r₀, hr₀, hid, ⟨-, hq, -⟩, -⟩ := hsel
      refine List.mem_map.mpr ⟨r, hr, if_neg ?_⟩
      intro hkey
      obtain rfl := htable.eq_of_id hr hr₀ (hkey.2.trans hid.symm)
      exact hterm.ne_queued hq

/-- **A step leaves every terminal row as it is.** -/
theorem terminal_step (h : Inv settings n s) (hstep : Step settings s a s') {r : RunRow}
    (hr : r ∈ s.runs) (hterm : r.status.Terminal) : r ∈ s'.runs := by
  unfold Step step at hstep
  cases a with
  | createRun tenantId id now =>
      simp only [Option.ite_none_left_eq_some, Option.some.injEq] at hstep
      obtain ⟨-, rfl⟩ := hstep
      exact List.mem_append_left _ hr
  | poll tenantId now locked claimed =>
      simp only [Option.ite_none_right_eq_some] at hstep
      obtain ⟨runs', hc, rfl⟩ := Option.map_eq_some_iff.mp hstep.2
      exact mem_claimQueued h.table.reclaimStale hc (mem_reclaimStale hr hterm) hterm
  | updateStage now stage status =>
      obtain ⟨run, hk, rfl⟩ := Option.map_eq_some_iff.mp hstep
      dsimp only
      exact mem_onRun h.table (hk ▸ h.executing) hr hterm
  | finish now =>
      obtain ⟨run, hk, rfl⟩ := Option.map_eq_some_iff.mp hstep
      dsimp only
      exact mem_onRun h.table (hk ▸ h.executing) hr hterm
  | requeue now error =>
      obtain ⟨run, hk, rfl⟩ := Option.map_eq_some_iff.mp hstep
      dsimp only
      exact mem_onRun h.table (hk ▸ h.executing) hr hterm
  | crash =>
      obtain rfl := Option.some.inj hstep
      exact hr

theorem inv_initial : Inv settings (fun _ => 0) initial :=
  ⟨⟨List.nodup_nil, nofun, nofun, fun _ _ => rfl⟩, nofun⟩

theorem inv_of_run {tr : List (Transition State Action)} (hmax : 1 ≤ settings.workerMaxRetries)
    (h : Run (Step settings) initial tr s) : Inv settings (claims tr) s := by
  refine h.history (G := fun _ _ => True) (P := fun tr s => Inv settings (claims tr) s)
    (fun _ _ => trivial) inv_initial ?_
  intro tr s a s' _ hinv hstep _
  have hcount : claims (tr ++ [⟨s, a, s'⟩]) =
      fun id => claims tr id + if a.claimed = some id then 1 else 0 := by
    funext id
    simp [claims, List.countP_append, List.countP_cons]
  rw [hcount]
  exact inv_step hmax hinv hstep

theorem terminal_of_run {tr : List (Transition State Action)}
    (hmax : 1 ≤ settings.workerMaxRetries) (h : Run (Step settings) initial tr s) :
    ∀ x ∈ tr, ∀ r ∈ x.pre.runs, r.status.Terminal → r ∈ s.runs := by
  refine h.history (G := fun _ _ => True)
    (P := fun tr s => ∀ x ∈ tr, ∀ r ∈ x.pre.runs, r.status.Terminal → r ∈ s.runs)
    (fun _ _ => trivial) nofun ?_
  intro tr s a s' hrun ih hstep _ x hx r hr hterm
  have hinv := inv_of_run hmax hrun
  rcases List.mem_append.mp hx with hx | hx
  · exact terminal_step hinv hstep (ih x hx r hr hterm) hterm
  · obtain rfl := List.mem_singleton.mp hx
    exact terminal_step hinv hstep hr hterm

/-- **The queue of one worker.** In every state of every run, whatever the
worker was doing when it died, each row's status, attempts and timestamps
fit together, a RUNNING row is stale once its claim is older than the
window, `attempts` is the number of claims, and a row that was terminal
is still there as it was. -/
theorem coupled_of_run {tr : List (Transition State Action)}
    (hmax : 1 ≤ settings.workerMaxRetries) (h : Run (Step settings) initial tr s) :
    (s.runs.map RunRow.id).Nodup ∧
      (∀ r ∈ s.runs, Coupled settings r.toPipelineRun ∧ r.attempts = claims tr r.id ∧
        (r.status = .running → ∃ t, r.startedAt = some t ∧
          ∀ now, t < now - settings.workerStaleClaimSeconds → r.Stale settings now)) ∧
      ∀ x ∈ tr, ∀ r ∈ x.pre.runs, r.status.Terminal → r ∈ s.runs := by
  have hinv := inv_of_run hmax h
  refine ⟨hinv.table.nodup, ?_, terminal_of_run hmax h⟩
  intro r hr
  have hrow := hinv.table.coupled r hr
  exact ⟨hrow, hinv.table.attempts r hr, hrow.reclaimable⟩

/-- A run that is claimed, abandoned, reclaimed, given back and finished
while another waits for its turn. -/
theorem coupled_of_run_twice :
    ∃ tr s, Run (Step ⟨2, 120⟩) initial tr s ∧ s.runs.map (·.status) = [.succeeded, .queued] ∧
      ∀ r ∈ s.runs, r.attempts = claims tr r.id := by
  have htwice : ∃ s ∈ [Action.createRun 0 7 0, .createRun 0 8 1, .poll 0 10 [] (some 7),
      .updateStage 11 "INGEST" "RUNNING", .crash, .poll 0 200 [8] (some 7), .finish 210].foldlM
        (step ⟨2, 120⟩) initial, s.runs.map (·.status) = [.succeeded, .queued] := by decide
  obtain ⟨s, hs, hstatus⟩ := htwice
  obtain ⟨tr, hrun⟩ := Run.exists_of_foldlM hs
  refine ⟨tr, s, hrun, hstatus, ?_⟩
  intro r hr
  exact ((coupled_of_run (by decide) hrun).2.1 r hr).2.1

end SingleWorker

end RetentionEngine
