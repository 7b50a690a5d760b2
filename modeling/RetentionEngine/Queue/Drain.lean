import RetentionEngine.Queue.SingleWorker
import Mathlib.Algebra.BigOperators.Group.List.Basic
import Mathlib.Algebra.Order.BigOperators.Group.List
import Mathlib.Algebra.Order.Ring.Nat

/-!
# The queue drains

`poll_forever` polls every tenant in turn, and carries the run that a poll
claims to its end before the next. A poll of a tenant takes its oldest
QUEUED run, and a run that is given back is as old as it was: so the polls
of a tenant are spent on the attempts that its oldest runs have left, and
no run waits for longer than that, whatever else is queued meanwhile.
-/

namespace RetentionEngine

namespace SingleWorker

/-- The tenant that is polled. -/
def Action.polled : Action → Option Uuid
  | .poll tenantId _ _ _ => some tenantId
  | _ => none

theorem Action.polled_poll (tenantId : Uuid) (now : Timestamp) (locked : List Uuid)
    (claimed : Option Uuid) : (Action.poll tenantId now locked claimed).polled = some tenantId :=
  rfl

/-- The tenants polled in a run, in order. -/
def pollsOf (tr : List (Transition State Action)) : List Uuid :=
  (tr.map Transition.act).filterMap Action.polled

/-- **Whole cycles of `poll_forever`** over the tenants that are listed. -/
def Cycles (tenantIds : List Uuid) (cycles : ℕ) (tr : List (Transition State Action)) : Prop :=
  pollsOf tr = (List.replicate cycles tenantIds).flatten

/-- The attempts a run has left. -/
def RunRow.left (settings : WorkerSettings) (r : RunRow) : ℕ :=
  if r.status.Terminal then 0 else settings.workerMaxRetries - r.attempts

/-- A run of the same tenant that is no younger. -/
def Ahead (r₀ r : RunRow) : Prop := r.tenantId = r₀.tenantId ∧ r.createdAt ≤ r₀.createdAt

instance (r₀ : RunRow) : DecidablePred (Ahead r₀) :=
  fun r => inferInstanceAs (Decidable (r.tenantId = r₀.tenantId ∧ r.createdAt ≤ r₀.createdAt))

/-- **The attempts left ahead of a run**, its own among them. -/
def attemptsAhead (settings : WorkerSettings) (r₀ : RunRow) (runs : List RunRow) : ℕ :=
  (runs.map fun r => if Ahead r₀ r then r.left settings else 0).sum

/-- **Nothing gets in the way of a run**: the worker does not die, its polls
of the tenant see every row and come when claims from before `horizon` are
stale, and what is queued for the tenant is queued later. -/
def Undisturbed (settings : WorkerSettings) (r₀ : RunRow) (horizon : Timestamp) : Action → Prop
  | .createRun tenantId _ now => tenantId = r₀.tenantId → r₀.createdAt < now
  | .poll tenantId now locked _ => tenantId = r₀.tenantId →
      locked = [] ∧ horizon ≤ now - settings.workerStaleClaimSeconds
  | .crash => False
  | .updateStage _ _ _ | .finish _ | .requeue _ _ => True

/-- The claims of the tenant that a dead worker has left are old. -/
def LeftBefore (r₀ : RunRow) (horizon : Timestamp) (s : State) : Prop :=
  ∀ r ∈ s.runs, r.tenantId = r₀.tenantId → r.status = .running →
    s.executing ≠ some (r.tenantId, r.id) → ∀ t ∈ r.startedAt, t < horizon

/-! ## How a row may change -/

/-- A row before and after a write that spends attempts or none. -/
structure Moves (r r' : RunRow) : Prop where
  id : r'.id = r.id
  tenantId : r'.tenantId = r.tenantId
  createdAt : r'.createdAt = r.createdAt
  terminal : r.status.Terminal → r'.status.Terminal
  attempts : r.attempts ≤ r'.attempts

variable {settings : WorkerSettings} {r₀ r r' : RunRow} {runs : List RunRow}
  {horizon now : Timestamp} {tenantId runId : Uuid} {locked : List Uuid} {n : Uuid → ℕ}

theorem Moves.refl (r : RunRow) : Moves r r := ⟨rfl, rfl, rfl, fun h => h, le_rfl⟩

theorem Moves.left_le (h : Moves r r') : r'.left settings ≤ r.left settings := by
  unfold RunRow.left
  split
  · exact Nat.zero_le _
  · rename_i hterm'
    rw [if_neg fun hterm => hterm' (h.terminal hterm)]
    exact Nat.sub_le_sub_left h.attempts _

theorem Moves.ahead_iff (h : Moves r r') : Ahead r₀ r' ↔ Ahead r₀ r := by
  unfold Ahead
  rw [h.tenantId, h.createdAt]

theorem moves_reclaimStale :
    Moves r (r.set (r.toPipelineRun.reclaimStale settings now)) := by
  refine ⟨rfl, rfl, rfl, ?_, ?_⟩
  · intro hterm
    rw [PipelineRun.reclaimStale_of_terminal hterm]
    exact hterm
  · exact Nat.le_of_eq PipelineRun.reclaimStale_attempts.symm

/-- **A write to the run in hand** finds it RUNNING. -/
theorem moves_onRun (htable : TableInv settings n runs)
    (hex : Executing runs (some (tenantId, runId))) {f : PipelineRun → PipelineRun}
    (hf : ∀ row, (f row).attempts = row.attempts) (hr : r ∈ runs) :
    Moves r (if r.tenantId = tenantId ∧ r.id = runId then r.set (f r.toPipelineRun) else r) := by
  split
  · rename_i hkey
    obtain ⟨r₁, hr₁, -, hid, hrun⟩ := hex _ rfl
    obtain rfl := htable.eq_of_id hr hr₁ (hkey.2.trans hid.symm)
    refine ⟨rfl, rfl, rfl, ?_, ?_⟩
    · intro hterm
      exact absurd hrun hterm.ne_running
    · exact Nat.le_of_eq (hf _).symm
  · exact Moves.refl r

theorem ite_left_le {u : RunRow → RunRow} (hu : Moves r (u r)) :
    (if Ahead r₀ (u r) then (u r).left settings else 0) ≤
      if Ahead r₀ r then r.left settings else 0 := by
  rw [if_congr hu.ahead_iff rfl rfl]
  split
  · exact hu.left_le
  · exact le_rfl

theorem attemptsAhead_map_le {u : RunRow → RunRow} (hu : ∀ r ∈ runs, Moves r (u r)) :
    attemptsAhead settings r₀ (runs.map u) ≤ attemptsAhead settings r₀ runs := by
  unfold attemptsAhead
  rw [List.map_map]
  exact List.sum_le_sum fun r hr => ite_left_le (hu r hr)

/-- **An attempt that is spent ahead of the run.** -/
theorem attemptsAhead_map_lt {u : RunRow → RunRow} (hu : ∀ r ∈ runs, Moves r (u r))
    (hr : r ∈ runs) (hahead : Ahead r₀ r) (hlt : (u r).left settings < r.left settings) :
    attemptsAhead settings r₀ (runs.map u) < attemptsAhead settings r₀ runs := by
  unfold attemptsAhead
  rw [List.map_map]
  refine List.sum_lt_sum _ _ (fun r hr => ite_left_le (hu r hr)) ⟨r, hr, ?_⟩
  show (if Ahead r₀ (u r) then (u r).left settings else 0) < _
  rw [if_congr (hu r hr).ahead_iff rfl rfl, if_pos hahead, if_pos hahead]
  exact hlt

/-- A QUEUED run has an attempt left. -/
theorem left_pos (hcoupled : Coupled settings r.toPipelineRun) (hq : r.status = .queued) :
    0 < r.left settings := by
  have hlt := hcoupled.queued hq
  unfold RunRow.left
  rw [if_neg (by rw [hq]; decide)]
  omega

theorem left_le_attemptsAhead (hr : r ∈ runs) (hahead : Ahead r₀ r) :
    r.left settings ≤ attemptsAhead settings r₀ runs := by
  have hmem : (if Ahead r₀ r then r.left settings else 0) ∈
      runs.map fun r => if Ahead r₀ r then r.left settings else 0 :=
    List.mem_map_of_mem hr
  rw [if_pos hahead] at hmem
  exact List.le_sum_of_mem hmem

/-! ## Polls that are spent -/

/-- **After `k` polls of the tenant**: the run is at its end, or the polls
were spent on attempts ahead of it; and the first one reclaimed what a dead
worker had left. -/
structure Draining (settings : WorkerSettings) (r₀ : RunRow) (horizon : Timestamp) (budget : ℕ)
    (k : ℕ) (s : State) : Prop where
  row : ∃ r ∈ s.runs, r.id = r₀.id ∧ r.tenantId = r₀.tenantId ∧ r.createdAt = r₀.createdAt ∧
    (r.status.Terminal ∨ attemptsAhead settings r₀ s.runs + k ≤ budget)
  leftBefore : ∀ r ∈ s.runs, r.tenantId = r₀.tenantId → r.status = .running →
    s.executing ≠ some (r.tenantId, r.id) → k = 0 ∧ ∀ t ∈ r.startedAt, t < horizon

variable {budget k : ℕ} {s s' : State} {a : Action}

/-- Rows that move, and no poll of the tenant. -/
theorem Draining.move (h : Draining settings r₀ horizon budget k s) {u : RunRow → RunRow}
    (hu : ∀ r ∈ s.runs, Moves r (u r)) :
    ∃ r ∈ s.runs.map u, r.id = r₀.id ∧ r.tenantId = r₀.tenantId ∧ r.createdAt = r₀.createdAt ∧
      (r.status.Terminal ∨ attemptsAhead settings r₀ (s.runs.map u) + k ≤ budget) := by
  obtain ⟨r, hr, hid, htenant, hcreated, hcase⟩ := h.row
  have hmoves := hu r hr
  refine ⟨u r, List.mem_map_of_mem hr, hmoves.id.trans hid, hmoves.tenantId.trans htenant,
    hmoves.createdAt.trans hcreated, ?_⟩
  rcases hcase with hterm | hle
  · exact Or.inl (hmoves.terminal hterm)
  · exact Or.inr ((Nat.add_le_add_right (attemptsAhead_map_le hu) k).trans hle)

theorem Draining.createRun (h : Draining settings r₀ horizon budget k s)
    (hlater : tenantId = r₀.tenantId → r₀.createdAt < now) :
    Draining settings r₀ horizon budget k { s with runs := s.runs ++
      [{ PipelineRun.createRun with id := runId, tenantId := tenantId, createdAt := now }] } := by
  constructor
  · obtain ⟨r, hr, hid, htenant, hcreated, hcase⟩ := h.row
    refine ⟨r, List.mem_append_left _ hr, hid, htenant, hcreated, ?_⟩
    refine hcase.imp_right fun hle => ?_
    unfold attemptsAhead at hle ⊢
    rw [List.map_append, List.sum_append, List.map_singleton, List.sum_singleton, if_neg]
    · exact hle
    · rintro ⟨heq, hle⟩
      exact absurd hle (not_le_of_gt (hlater heq))
  · intro r hr htenant hrun hne
    rcases List.mem_append.mp hr with hr | hr
    · exact h.leftBefore r hr htenant hrun hne
    · obtain rfl := List.mem_singleton.mp hr
      cases hrun

/-- A write to the run in hand, which stays in hand or is no longer RUNNING. -/
theorem Draining.onRun (h : Draining settings r₀ horizon budget k s)
    (htable : TableInv settings n s.runs) (hex : Executing s.runs s.executing)
    (hhand : s.executing = some (tenantId, runId)) {f : PipelineRun → PipelineRun}
    (hf : ∀ row, (f row).attempts = row.attempts) {executing : Option (Uuid × Uuid)}
    (hnext : executing = s.executing ∨ ∀ row : PipelineRun, (f row).status ≠ .running) :
    Draining settings r₀ horizon budget k ⟨onRun tenantId runId f s.runs, executing⟩ := by
  refine ⟨h.move fun r hr => moves_onRun htable (hhand ▸ hex) hf hr, ?_⟩
  intro r' hr' htenant hrun hne
  obtain ⟨r, hr, rfl⟩ := List.mem_map.mp hr'
  by_cases hkey : r.tenantId = tenantId ∧ r.id = runId
  · rw [if_pos hkey] at hrun hne
    rcases hnext with heq | hstops
    · refine absurd ?_ hne
      rw [heq, hhand, ← hkey.1, ← hkey.2]
      rfl
    · exact absurd hrun (hstops _)
  · rw [if_neg hkey] at htenant hrun ⊢
    refine h.leftBefore r hr htenant hrun ?_
    rw [hhand]
    intro heq
    obtain ⟨h1, h2⟩ := Prod.mk.inj (Option.some.inj heq)
    exact hkey ⟨h1.symm, h2.symm⟩

/-- A RUNNING row was RUNNING before it was reclaimed, and is as it was. -/
theorem eq_of_reclaimStale_running {row : PipelineRun}
    (hrun : (row.reclaimStale settings now).status = .running) :
    row.reclaimStale settings now = row ∧ ¬ row.Stale settings now := by
  unfold PipelineRun.reclaimStale at hrun ⊢
  split at hrun
  · split at hrun <;> cases hrun
  · rename_i hstale
    exact ⟨if_neg hstale, hstale⟩

theorem Draining.reclaimStale (h : Draining settings r₀ horizon budget k s)
    (hidle : s.executing = none) :
    Draining settings r₀ horizon budget k
      ⟨SingleWorker.reclaimStale settings tenantId now locked s.runs, none⟩ := by
  refine ⟨h.move fun r _ => ?_, ?_⟩
  · split
    · exact moves_reclaimStale
    · exact Moves.refl r
  · intro r' hr' htenant hrun _
    obtain ⟨r, hr, rfl⟩ := List.mem_map.mp hr'
    have hnone : s.executing ≠ some (r.tenantId, r.id) := by
      rw [hidle]
      exact nofun
    by_cases hkey : r.tenantId = tenantId ∧ r.id ∉ locked
    · rw [if_pos hkey] at htenant hrun ⊢
      obtain ⟨heq, -⟩ := eq_of_reclaimStale_running hrun
      rw [RunRow.set_toPipelineRun, heq] at hrun ⊢
      exact h.leftBefore r hr htenant hrun hnone
    · rw [if_neg hkey] at htenant hrun ⊢
      exact h.leftBefore r hr htenant hrun hnone

/-- **The first poll of the tenant leaves no RUNNING row** but what it
claims. -/
theorem Draining.not_running (h : Draining settings r₀ horizon budget k s)
    (htable : TableInv settings n s.runs) (hidle : s.executing = none)
    (hnow : horizon ≤ now - settings.workerStaleClaimSeconds)
    (hr : r ∈ SingleWorker.reclaimStale settings r₀.tenantId now [] s.runs)
    (htenant : r.tenantId = r₀.tenantId) : r.status ≠ .running := by
  obtain ⟨r₁, hr₁, rfl⟩ := List.mem_map.mp hr
  intro hrun
  have hkey : r₁.tenantId = r₀.tenantId ∧ r₁.id ∉ ([] : List Uuid) := by
    refine ⟨?_, List.not_mem_nil⟩
    split at htenant <;> exact htenant
  rw [if_pos hkey, RunRow.set_toPipelineRun] at hrun
  obtain ⟨heq, hstale⟩ := eq_of_reclaimStale_running hrun
  rw [heq] at hrun
  obtain ⟨t, ht⟩ := Option.isSome_iff_exists.mp ((htable.coupled r₁ hr₁).running hrun).2.2
  have hold := h.leftBefore r₁ hr₁ hkey.1 hrun (by rw [hidle]; exact nofun)
  exact hstale ⟨hrun, t, ht, lt_of_lt_of_le (hold.2 t ht) hnow⟩

theorem moves_claimQueued (htable : TableInv settings n runs) {r₁ : RunRow} (hr₁ : r₁ ∈ runs)
    (hclaimable : Claimable tenantId locked r₁) (hr : r ∈ runs) :
    Moves r (if r.tenantId = tenantId ∧ r.id = r₁.id then r.set (r.toPipelineRun.claimQueued now)
      else r) := by
  split
  · rename_i hkey
    obtain rfl := htable.eq_of_id hr hr₁ hkey.2
    refine ⟨rfl, rfl, rfl, fun hterm => ?_, Nat.le_succ _⟩
    exact absurd hclaimable.2.1 hterm.ne_queued
  · exact Moves.refl r

/-- A claim spends an attempt. -/
theorem left_claimQueued_lt (hcoupled : Coupled settings r.toPipelineRun)
    (hq : r.status = .queued) :
    (r.set (r.toPipelineRun.claimQueued now)).left settings < r.left settings := by
  have hlt := hcoupled.queued hq
  have hrunning : ¬ (r.set (r.toPipelineRun.claimQueued now)).status.Terminal := by
    show ¬ RunStatus.running.Terminal
    decide
  unfold RunRow.left
  rw [if_neg hrunning, if_neg (by rw [hq]; decide)]
  show settings.workerMaxRetries - (r.attempts + 1) < settings.workerMaxRetries - r.attempts
  omega

/-- A claim of another tenant. -/
theorem Draining.claimOther (h : Draining settings r₀ horizon budget k ⟨runs, none⟩)
    (htable : TableInv settings n runs) (hother : tenantId ≠ r₀.tenantId) {claimed : Option Uuid}
    {runs' : List RunRow} (hc : claimQueued tenantId now locked claimed runs = some runs') :
    Draining settings r₀ horizon budget k ⟨runs', claimed.map fun id => (tenantId, id)⟩ := by
  simp only [claimQueued, Option.ite_none_right_eq_some, Option.some.injEq] at hc
  obtain ⟨hsel, rfl⟩ := hc
  cases claimed with
  | none => exact h
  | some id₀ =>
      obtain ⟨r₁, hr₁, rfl, hclaimable, -⟩ := hsel
      refine ⟨h.move fun r hr => moves_claimQueued htable hr₁ hclaimable hr, ?_⟩
      intro r' hr' htenant hrun _
      obtain ⟨r, hr, rfl⟩ := List.mem_map.mp hr'
      by_cases hkey : r.tenantId = tenantId ∧ r.id = r₁.id
      · rw [if_pos hkey] at htenant
        exact absurd (hkey.1.symm.trans htenant) hother
      · rw [if_neg hkey] at htenant hrun ⊢
        exact h.leftBefore r hr htenant hrun (Option.some_ne_none (r.tenantId, r.id)).symm

/-- **A claim of the tenant** spends an attempt ahead of the run, unless the
run is at its end. -/
theorem Draining.claim (h : Draining settings r₀ horizon budget k ⟨runs, none⟩)
    (htable : TableInv settings n runs)
    (hnone : ∀ r ∈ runs, r.tenantId = r₀.tenantId → r.status ≠ .running) {claimed : Option Uuid}
    {runs' : List RunRow} (hc : claimQueued r₀.tenantId now [] claimed runs = some runs') :
    Draining settings r₀ horizon budget (k + 1)
      ⟨runs', claimed.map fun id => (r₀.tenantId, id)⟩ := by
  obtain ⟨r, hr, hid, htenant, hcreated, hcase⟩ := h.row
  -- a run that is neither at its end nor RUNNING waits to be claimed
  have hwaits : ¬ r.status.Terminal → Claimable r₀.tenantId [] r := by
    intro hterm
    refine ⟨htenant, ?_, List.not_mem_nil⟩
    have hrun := hnone r hr htenant
    cases hstatus : r.status with
    | queued => rfl
    | running => exact absurd hstatus hrun
    | succeeded => exact absurd (Or.inl hstatus) hterm
    | failed => exact absurd (Or.inr hstatus) hterm
  simp only [claimQueued, Option.ite_none_right_eq_some, Option.some.injEq] at hc
  obtain ⟨hsel, rfl⟩ := hc
  cases claimed with
  | none =>
      refine ⟨⟨r, hr, hid, htenant, hcreated, Or.inl ?_⟩, ?_⟩
      · by_contra hterm
        exact hsel r hr (hwaits hterm)
      · intro r' hr' htenant' hrun _
        exact absurd hrun (hnone r' hr' htenant')
  | some id₀ =>
      obtain ⟨r₁, hr₁, rfl, hclaimable, holdest⟩ := hsel
      have hmoves : ∀ r ∈ runs, Moves r (if r.tenantId = r₀.tenantId ∧ r.id = r₁.id then
          r.set (r.toPipelineRun.claimQueued now) else r) :=
        fun r hr => moves_claimQueued htable hr₁ hclaimable hr
      constructor
      · refine ⟨_, List.mem_map_of_mem hr, (hmoves r hr).id.trans hid,
          (hmoves r hr).tenantId.trans htenant, (hmoves r hr).createdAt.trans hcreated, ?_⟩
        by_cases hterm : r.status.Terminal
        · exact Or.inl ((hmoves r hr).terminal hterm)
        · right
          have hahead : Ahead r₀ r₁ :=
            ⟨hclaimable.1, hcreated ▸ holdest r hr (hwaits hterm)⟩
          have hspent : attemptsAhead settings r₀
              (SingleWorker.onRun r₀.tenantId r₁.id (·.claimQueued now) runs) <
              attemptsAhead settings r₀ runs := by
            refine attemptsAhead_map_lt hmoves hr₁ hahead ?_
            rw [if_pos ⟨hclaimable.1, rfl⟩]
            exact left_claimQueued_lt (htable.coupled r₁ hr₁) hclaimable.2.1
          have hle : attemptsAhead settings r₀ runs + k ≤ budget := hcase.resolve_left hterm
          show attemptsAhead settings r₀
            (SingleWorker.onRun r₀.tenantId r₁.id (·.claimQueued now) runs) + (k + 1) ≤ budget
          omega
      · intro r' hr' htenant' hrun hne
        obtain ⟨r₂, hr₂, rfl⟩ := List.mem_map.mp hr'
        by_cases hkey : r₂.tenantId = r₀.tenantId ∧ r₂.id = r₁.id
        · rw [if_pos hkey] at hne
          exact absurd (congrArg some (Prod.ext hkey.1.symm hkey.2.symm)) hne
        · rw [if_neg hkey] at htenant' hrun
          exact absurd hrun (hnone r₂ hr₂ htenant')

/-- **One step**: a poll of the tenant counts. -/
theorem Draining.step (h : Draining settings r₀ horizon budget k s) (hinv : Inv settings n s)
    (hstep : Step settings s a s') (ha : Undisturbed settings r₀ horizon a) :
    Draining settings r₀ horizon budget (k + if a.polled = some r₀.tenantId then 1 else 0) s' := by
  unfold Step SingleWorker.step at hstep
  cases a with
  | createRun tenantId id now =>
      simp only [Option.ite_none_left_eq_some, Option.some.injEq] at hstep
      obtain ⟨-, rfl⟩ := hstep
      exact h.createRun ha
  | poll tenantId now locked claimed =>
      simp only [Option.ite_none_right_eq_some] at hstep
      obtain ⟨hidle, hstep⟩ := hstep
      obtain ⟨runs', hc, rfl⟩ := Option.map_eq_some_iff.mp hstep
      have htable : TableInv settings n
          (SingleWorker.reclaimStale settings tenantId now locked s.runs) :=
        hinv.table.reclaimStale
      by_cases htenant : tenantId = r₀.tenantId
      · subst htenant
        obtain ⟨rfl, hnow⟩ := ha rfl
        rw [Action.polled_poll, if_pos rfl]
        refine (h.reclaimStale hidle).claim htable ?_ hc
        intro r hr
        exact h.not_running hinv.table hidle hnow hr
      · rw [Action.polled_poll, if_neg fun heq => htenant (Option.some.inj heq)]
        exact (h.reclaimStale hidle).claimOther htable htenant hc
  | updateStage now stage status =>
      obtain ⟨run, hk, rfl⟩ := Option.map_eq_some_iff.mp hstep
      exact h.onRun hinv.table hinv.executing hk (fun _ => by simp) (Or.inl rfl)
  | finish now =>
      obtain ⟨run, hk, rfl⟩ := Option.map_eq_some_iff.mp hstep
      exact h.onRun hinv.table hinv.executing hk (fun _ => by simp) (Or.inr fun _ => nofun)
  | requeue now error =>
      obtain ⟨run, hk, rfl⟩ := Option.map_eq_some_iff.mp hstep
      refine h.onRun hinv.table hinv.executing hk (fun _ => by simp) (Or.inr fun row => ?_)
      rw [PipelineRun.requeueOrFail_status]
      split <;> exact nofun
  | crash => cases ha

/-! ## The queue drains -/

variable {tr tr₀ : List (Transition State Action)}

/-- The invariant, from any state that a run has reached. -/
theorem inv_of_run_of_run (hmax : 1 ≤ settings.workerMaxRetries)
    (hrun₀ : Run (Step settings) initial tr₀ s) (hrun : Run (Step settings) s tr s') :
    ∃ n, Inv settings n s' := by
  refine hrun.invariant' (I := fun s => ∃ n, Inv settings n s) ⟨_, inv_of_run hmax hrun₀⟩ ?_
  rintro s a s' ⟨n, hinv⟩ hstep
  exact ⟨_, inv_step hmax hinv hstep⟩

/-- **A whole run**: what has been polled has been spent. -/
theorem draining_of_run (hmax : 1 ≤ settings.workerMaxRetries)
    (hrun₀ : Run (Step settings) initial tr₀ s) (hrun : Run (Step settings) s tr s')
    (hundisturbed : ∀ t ∈ tr, Undisturbed settings r₀ horizon t.act) (hr₀ : r₀ ∈ s.runs)
    (hleft : LeftBefore r₀ horizon s) :
    Draining settings r₀ horizon (attemptsAhead settings r₀ s.runs)
      ((pollsOf tr).count r₀.tenantId) s' := by
  refine hrun.history (G := fun _ a => Undisturbed settings r₀ horizon a)
    (P := fun tr s' => Draining settings r₀ horizon (attemptsAhead settings r₀ s.runs)
      ((pollsOf tr).count r₀.tenantId) s') hundisturbed ?_ ?_
  · refine ⟨⟨r₀, hr₀, rfl, rfl, rfl, Or.inr le_rfl⟩, ?_⟩
    intro r hr htenant hrunning hne
    exact ⟨rfl, hleft r hr htenant hrunning hne⟩
  · intro tr u a u' hprefix hdraining hstep ha
    obtain ⟨n, hinv⟩ := inv_of_run_of_run hmax hrun₀ hprefix
    have hcount : (pollsOf (tr ++ [⟨u, a, u'⟩])).count r₀.tenantId =
        (pollsOf tr).count r₀.tenantId + if a.polled = some r₀.tenantId then 1 else 0 := by
      unfold pollsOf
      rw [List.map_append, List.filterMap_append, List.count_append]
      cases hpolled : a.polled with
      | none => simp [hpolled]
      | some tenantId => simp [hpolled, List.count_singleton]
    rw [hcount]
    exact hdraining.step hinv hstep ha

theorem count_pollsOf {tenantIds : List Uuid} {cycles : ℕ} (h : Cycles tenantIds cycles tr)
    (hlisted : tenantId ∈ tenantIds) : cycles ≤ (pollsOf tr).count tenantId := by
  rw [h, List.count_flatten, List.map_replicate, List.sum_replicate_nat]
  exact Nat.le_mul_of_pos_right _ (List.count_pos_iff.mpr hlisted)

end SingleWorker

end RetentionEngine
