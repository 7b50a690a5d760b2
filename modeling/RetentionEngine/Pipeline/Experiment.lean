import RetentionEngine.Common.Run
import RetentionEngine.Pipeline.HardRules

/-!
# The arms of one experiment

Runs of a tenant inside one open experiment. Each run assigns its arms
anew, under the percentages in *its* settings, and records them; the
record keeps the first arm of a unit and ignores every later one. The
experiment stores the percentages it was created with, and nothing reads
them. So the arm a run acts on is the arm on record as long as the
percentages leave every unit in its place, and `armsKept_iff` says that
nothing less will do.
-/

namespace RetentionEngine

namespace Experiment

open Pipeline Measurement

/-- A row of `experiments`. -/
structure ExperimentRow where
  id : Uuid
  controlPct : ℤ
  naivePct : ℤ
  startedAt : Timestamp
  endedAt : Option Timestamp
  deriving DecidableEq, Repr

/-- The tenant's rows of `experiments` and `experiment_assignments`, the
latter by experiment and unit. -/
structure State where
  experiments : List ExperimentRow
  assignments : Dict (Uuid × String) Arm
  nextId : Uuid

/-- The tenant, the digests and the secret, without which no arm is
assigned. -/
structure Env where
  hashes : Hashes
  tenantId : String
  secret : String
  secret_ne : secret ≠ ""

/-- What a run brings to `_allocate`. -/
structure Allocation (K : Type) where
  settings : PipelineSettings K
  store : StoreReads
  run : ScoredRun K
  now : Timestamp

/-- `get_active_experiment`. -/
def getActiveExperiment (s : State) : Option ExperimentRow :=
  ((s.experiments.filter fun e => e.endedAt = none).insertionSort
    fun e f => f.startedAt ≤ e.startedAt).head?

/-- `get_or_create_experiment`. -/
def getOrCreateExperiment (s : State) (controlPct naivePct : ℤ) (now : Timestamp) : State × Uuid :=
  match getActiveExperiment s with
  | some existing => (s, existing.id)
  | none =>
      ({ s with
        experiments := s.experiments ++ [⟨s.nextId, controlPct, naivePct, now, none⟩]
        nextId := s.nextId + 1 }, s.nextId)

/-- `record_assignment`: ON CONFLICT DO NOTHING. -/
def recordAssignment (experimentId : Uuid) (assignments : Dict (Uuid × String) Arm)
    (unit : String × Arm) : Dict (Uuid × String) Arm :=
  assignments.setDefault (experimentId, unit.1) unit.2

/-- `save_arm_assignments`. -/
def saveArmAssignments (s : State) (experimentId : Uuid) (arms : Dict String Arm) : State :=
  { s with assignments := arms.entries.foldl (recordAssignment experimentId) s.assignments }

variable {K : Type} [Field K] [LinearOrder K] (env : Env)

/-- The settings of a run, with the worker's secret. -/
def settingsOf (r : Allocation K) : PipelineSettings K :=
  { r.settings with measurementHmacSecret := env.secret }

/-- What a run loads, its experiment included. -/
def storeOf (experimentId : Uuid) (r : Allocation K) : StoreReads :=
  { r.store with experimentId := toString experimentId }

/-- The run, as the tenant's. -/
def runOf (r : Allocation K) : ScoredRun K := { r.run with tenantId := env.tenantId }

/-- `run.arms` of a run in the experiment; `none` if `assign_arm` raises. -/
def armsOf (experimentId : Uuid) (r : Allocation K) : Option (Dict String Arm) :=
  arms env.hashes (settingsOf env r) (storeOf experimentId r) (runOf env r)

/-- The units of a run. -/
def unitsOf (r : Allocation K) : List String :=
  units env.hashes (settingsOf env r) r.store (runOf env r)

/-- The experiment of a run. -/
def experimentOf (s : State) (r : Allocation K) : Uuid :=
  (getOrCreateExperiment s r.settings.measurementControlPct r.settings.measurementNaivePct r.now).2

/-- **The start of `_allocate`**: the experiment, the arms and their record.
When an assignment raises, the experiment stays. -/
def allocateArms (s : State) (r : Allocation K) : State :=
  let opened := getOrCreateExperiment s r.settings.measurementControlPct
    r.settings.measurementNaivePct r.now
  match armsOf env opened.2 r with
  | some arms => saveArmAssignments opened.1 opened.2 arms
  | none => opened.1

/-- The step relation. -/
def Step (s : State) (r : Allocation K) (s' : State) : Prop := allocateArms env s r = s'

/-- Before the experiment. -/
def initial : State := ⟨[], .empty, 0⟩

/-! ## What is kept -/

/-- **The arms of a run are on record** after it. -/
def OnRecord (t : Transition State (Allocation K)) : Prop :=
  ∀ arms ∈ armsOf env (experimentOf t.pre t.act) t.act, ∀ unit arm, arms.get? unit = some arm →
    t.post.assignments.get? (experimentOf t.pre t.act, unit) = some arm

/-- **The arms are kept**: every run acts on the arms on record, and two
runs act on the same ones. -/
structure ArmsKept (tr : List (Transition State (Allocation K))) : Prop where
  onRecord : ∀ t ∈ tr, OnRecord env t
  unchanged : ∀ t ∈ tr, ∀ t' ∈ tr, ∀ arms ∈ armsOf env (experimentOf t.pre t.act) t.act,
    ∀ arms' ∈ armsOf env (experimentOf t'.pre t'.act) t'.act, ∀ unit arm arm',
      arms.get? unit = some arm → arms'.get? unit = some arm' → arm = arm'

/-- The bucket of a unit in an experiment. -/
def bucketOf (experimentId : Uuid) (unit : String) : ℕ :=
  env.hashes.hmacSha256 env.secret
    (env.tenantId ++ ":" ++ toString experimentId ++ ":" ++ unit) % 100

/-- A bucket has the same place under the percentages of two runs: on one
side of the control percentage and on one side of the sum. -/
def SamePlace (b : ℕ) (r r' : Allocation K) : Prop :=
  ((b : ℤ) < r.settings.measurementControlPct ↔ (b : ℤ) < r'.settings.measurementControlPct) ∧
    ((b : ℤ) < r.settings.measurementControlPct + r.settings.measurementNaivePct ↔
      (b : ℤ) < r'.settings.measurementControlPct + r'.settings.measurementNaivePct)

/-- **The percentages are aligned**: what two runs share keeps its place. -/
def Aligned (tr : List (Transition State (Allocation K))) : Prop :=
  ∀ t ∈ tr, ∀ t' ∈ tr, ∀ unit ∈ unitsOf env t.act, unit ∈ unitsOf env t'.act →
    SamePlace (bucketOf env (experimentOf t.pre t.act) unit) t.act t'.act

/-- The percentages of a run are valid. -/
def Valid (r : Allocation K) : Prop :=
  ValidPcts r.settings.measurementControlPct r.settings.measurementNaivePct

/-! ## The arm of a unit -/

variable {env} {s s' : State} {r r' : Allocation K} {e : Uuid} {u : String} {arm : Arm}
  {tr : List (Transition State (Allocation K))}

omit [Field K] [LinearOrder K] in
/-- Under valid percentages one place is one arm. -/
theorem bandOf_eq_iff {b : ℕ} (hvalid : Valid r) (hvalid' : Valid r') :
    bandOf b r.settings.measurementControlPct r.settings.measurementNaivePct =
      bandOf b r'.settings.measurementControlPct r'.settings.measurementNaivePct ↔
        SamePlace b r r' := by
  unfold Valid ValidPcts at hvalid hvalid'
  unfold SamePlace bandOf
  generalize r.settings.measurementControlPct = c at *
  generalize r.settings.measurementNaivePct = n at *
  generalize r'.settings.measurementControlPct = c' at *
  generalize r'.settings.measurementNaivePct = n' at *
  by_cases h₁ : (b : ℤ) < c <;> by_cases h₂ : (b : ℤ) < c + n <;>
    by_cases h₃ : (b : ℤ) < c' <;> by_cases h₄ : (b : ℤ) < c' + n' <;>
      simp [h₁, h₂, h₃, h₄] <;> omega

/-- The arm a run gives a bucket. -/
def armIn (r : Allocation K) (b : ℕ) : Arm :=
  bandOf b r.settings.measurementControlPct r.settings.measurementNaivePct

variable (env e) in
/-- **The arms of a valid run**: every unit's by its bucket. -/
theorem exists_armsOf (hvalid : Valid r) : ∃ arms, armsOf env e r = some arms ∧
    ∀ u, arms.get? u = if u ∈ unitsOf env r then some (armIn r (bucketOf env e u)) else none := by
  have harm : ∀ u, armOf env.hashes (settingsOf env r) (storeOf e r) (runOf env r) u =
      .ok (armIn r (bucketOf env e u)) := fun u =>
    assignArm_eq_ok.mpr ⟨hvalid, env.secret_ne, rfl⟩
  obtain ⟨pairs, hpairs⟩ := exists_mapM_some (l := unitsOf env r) (f := fun u =>
    (armOf env.hashes (settingsOf env r) (storeOf e r) (runOf env r) u).toOption.map fun arm =>
      (u, arm)) fun u _ => ⟨(u, armIn r (bucketOf env e u)), by rw [harm]; rfl⟩
  have harms : armsOf env e r = some (Dict.ofList Prod.fst Prod.snd pairs) := by
    unfold armsOf Pipeline.arms
    exact congrArg (Option.map (Dict.ofList Prod.fst Prod.snd)) hpairs
  refine ⟨_, harms, ?_⟩
  intro u
  split
  · rename_i hu
    rw [get?_arms harms hu, harm]
    rfl
  · rename_i hu
    rw [Dict.get?_eq_none, Dict.mem_keys_ofList]
    intro hmem
    obtain ⟨pair, hpair, rfl⟩ := List.mem_map.mp hmem
    obtain ⟨v, hv, hsome⟩ := exists_left_of_forall₂ (forall₂_of_mapM hpairs) hpair
    obtain ⟨arm, -, rfl⟩ := Option.map_eq_some_iff.mp hsome
    exact hu hv

/-- **The record keeps what it has**, and takes what is new. -/
theorem get?_saveArmAssignments {arms : Dict String Arm} :
    (saveArmAssignments s e arms).assignments.get? (e, u) =
      (s.assignments.get? (e, u)).or (arms.get? u) := by
  exact Dict.get?_foldl_setDefault_entries (fun _ _ heq => (Prod.mk.inj heq).2) arms s.assignments u

/-! ## One experiment -/

/-- At most the experiment the first run opened, and it is open. -/
def OneExperiment (s : State) : Prop :=
  s.experiments = [] ∧ s.nextId = 0 ∨
    ∃ row : ExperimentRow, s.experiments = [row] ∧ row.endedAt = none ∧ row.id = 0

/-- **Every run is in the one experiment**, and leaves it open. -/
theorem oneExperiment_getOrCreate (hone : OneExperiment s) (c n : ℤ) (now : Timestamp) :
    (getOrCreateExperiment s c n now).2 = 0 ∧ OneExperiment (getOrCreateExperiment s c n now).1 ∧
      (getOrCreateExperiment s c n now).1.assignments = s.assignments := by
  unfold getOrCreateExperiment
  rcases hone with ⟨hnone, hid⟩ | ⟨row, hrows, hopen, hid⟩
  · have hactive : getActiveExperiment s = none := by
      unfold getActiveExperiment
      rw [hnone]
      rfl
    rw [hactive]
    refine ⟨hid, Or.inr ⟨⟨s.nextId, c, n, now, none⟩, ?_, rfl, hid⟩, rfl⟩
    dsimp only
    rw [hnone]
    rfl
  · have hactive : getActiveExperiment s = some row := by
      unfold getActiveExperiment
      rw [hrows]
      simp [hopen]
    rw [hactive]
    exact ⟨hid, Or.inr ⟨row, hrows, hopen, hid⟩, rfl⟩

/-- **One run**: it is in the experiment, and its arms are recorded where
nothing is on record. -/
theorem step_spec (hone : OneExperiment s) (hvalid : Valid r) (hstep : Step env s r s') :
    experimentOf s r = 0 ∧ OneExperiment s' ∧ ∀ u, s'.assignments.get? (0, u) =
      (s.assignments.get? (0, u)).or
        (if u ∈ unitsOf env r then some (armIn r (bucketOf env 0 u)) else none) := by
  obtain ⟨hid, hone', hsame⟩ := oneExperiment_getOrCreate hone r.settings.measurementControlPct
    r.settings.measurementNaivePct r.now
  obtain ⟨arms, harms, hget⟩ := exists_armsOf env 0 hvalid
  have hpost : s' = saveArmAssignments (getOrCreateExperiment s r.settings.measurementControlPct
      r.settings.measurementNaivePct r.now).1 0 arms := by
    rw [← hstep]
    unfold allocateArms
    dsimp only
    rw [hid, harms]
  refine ⟨hid, ?_, ?_⟩
  · rw [hpost]
    exact hone'
  · intro u
    rw [hpost, get?_saveArmAssignments, hsame, hget]

/-- **The arms of a run are on record** when each unit's arm is. -/
theorem onRecord_iff (hone : OneExperiment s) (hvalid : Valid r) (hstep : Step env s r s') :
    OnRecord env ⟨s, r, s'⟩ ↔ ∀ u ∈ unitsOf env r,
      s'.assignments.get? (0, u) = some (armIn r (bucketOf env 0 u)) := by
  obtain ⟨hid, -, -⟩ := step_spec hone hvalid hstep
  obtain ⟨arms, harms, hget⟩ := exists_armsOf env 0 hvalid
  unfold OnRecord
  dsimp only
  rw [hid]
  constructor
  · intro hrecord u hu
    exact hrecord arms harms u _ ((hget u).trans (if_pos hu))
  · intro hrecord arms' harms' u arm harm
    obtain rfl : arms = arms' := Option.some.inj (harms.symm.trans harms')
    rw [hget] at harm
    split at harm
    · rename_i hu
      rw [← Option.some.inj harm]
      exact hrecord u hu
    · cases harm

/-! ## Over whole histories -/

variable (env) in
/-- Whatever the record holds, a run with that unit gave. -/
def Given (tr : List (Transition State (Allocation K))) (s : State) : Prop :=
  ∀ u arm, s.assignments.get? (0, u) = some arm →
    ∃ t ∈ tr, u ∈ unitsOf env t.act ∧ arm = armIn t.act (bucketOf env 0 u)

section Histories

variable (hvalid : ∀ t ∈ tr, Valid t.act)
include hvalid

/-- **What holds of every history** of valid runs: one experiment, a record
of arms that runs gave, and an entry for every unit a run had. -/
theorem invariants (hrun : Run (Step env) initial tr s) :
    OneExperiment s ∧ Given env tr s ∧
      ∀ t ∈ tr, ∀ u ∈ unitsOf env t.act, ∃ arm, s.assignments.get? (0, u) = some arm := by
  refine hrun.history (G := fun _ r => Valid r) (P := fun tr s => OneExperiment s ∧
    Given env tr s ∧ ∀ t ∈ tr, ∀ u ∈ unitsOf env t.act,
      ∃ arm, s.assignments.get? (0, u) = some arm) hvalid ?_ ?_
  · refine ⟨Or.inl ⟨rfl, rfl⟩, ?_, fun t ht => absurd ht List.not_mem_nil⟩
    intro u arm harm
    have hnone : initial.assignments.get? (0, u) = none := rfl
    rw [hnone] at harm
    cases harm
  · rintro tr s r s' - ⟨hone, hgiven, hall⟩ hstep hvalid
    obtain ⟨-, hone', hget⟩ := step_spec hone hvalid hstep
    refine ⟨hone', ?_, ?_⟩
    · intro u arm harm
      rw [hget] at harm
      cases hold : s.assignments.get? (0, u) with
      | some old =>
          rw [hold] at harm
          obtain rfl := Option.some.inj harm
          obtain ⟨t, ht, hu, heq⟩ := hgiven u old hold
          exact ⟨t, List.mem_append_left _ ht, hu, heq⟩
      | none =>
          rw [hold, Option.none_or] at harm
          split at harm
          · rename_i hu
            exact ⟨_, List.mem_append_right _ (List.mem_singleton_self _), hu,
              (Option.some.inj harm).symm⟩
          · cases harm
    · intro t ht u hu
      rw [hget]
      rcases List.mem_append.mp ht with ht | ht
      · obtain ⟨arm, harm⟩ := hall t ht u hu
        exact ⟨arm, by rw [harm]; rfl⟩
      · rw [List.mem_singleton] at ht
        subst ht
        rw [if_pos hu]
        cases s.assignments.get? (0, u) with
        | some old => exact ⟨old, rfl⟩
        | none => exact ⟨_, rfl⟩

/-- Every run of the history is in the one experiment. -/
theorem experimentOf_eq (hrun : Run (Step env) initial tr s) {t : Transition State (Allocation K)}
    (ht : t ∈ tr) : experimentOf t.pre t.act = 0 := by
  obtain ⟨tr₀, hpre, hrun₀, hstep⟩ := hrun.exists_prefix ht
  have hvalid₀ : ∀ t ∈ tr₀, Valid t.act := fun t ht =>
    hvalid t (hpre.subset (List.mem_append_left _ ht))
  exact (step_spec (invariants hvalid₀ hrun₀).1 (hvalid t ht) hstep).1

/-- **When all arms are on record, the record holds each run's arms**: it
never changes. -/
theorem record_of_onRecord (hrun : Run (Step env) initial tr s)
    (hkept : ∀ t ∈ tr, OnRecord env t) {t : Transition State (Allocation K)} (ht : t ∈ tr)
    (hu : u ∈ unitsOf env t.act) :
    s.assignments.get? (0, u) = some (armIn t.act (bucketOf env 0 u)) := by
  induction hrun with
  | nil => cases ht
  | @snoc tr s s' r hrun hstep ih =>
      have hvalid₀ : ∀ t ∈ tr, Valid t.act := fun t ht => hvalid t (List.mem_append_left _ ht)
      have hlast : (⟨s, r, s'⟩ : Transition State (Allocation K)) ∈ tr ++ [⟨s, r, s'⟩] :=
        List.mem_append_right _ (List.mem_singleton_self _)
      obtain ⟨hone, -, -⟩ := invariants hvalid₀ hrun
      obtain ⟨-, -, hget⟩ := step_spec hone (hvalid _ hlast) hstep
      rcases List.mem_append.mp ht with ht | ht
      · have hold := ih hvalid₀ (fun t ht => hkept t (List.mem_append_left _ ht)) ht
        rw [hget, hold]
        rfl
      · rw [List.mem_singleton] at ht
        subst ht
        exact (onRecord_iff hone (hvalid _ hlast) hstep).mp (hkept _ hlast) u hu

/-- **The arms are kept exactly when the percentages are aligned.** Over
every sequence of runs of a tenant in one open experiment, with any valid
percentages: every run acts on the arms on record, so that no unit's arm
changes, if and only if no unit that two runs share has its bucket on
different sides of their control percentages or of their sums. -/
theorem armsKept_iff (hrun : Run (Step env) initial tr s) :
    ArmsKept env tr ↔ Aligned env tr := by
  have hexperiment := fun t ht => experimentOf_eq hvalid hrun (t := t) ht
  constructor
  · intro hkept t ht t' ht' u hu hu'
    have hrecord := record_of_onRecord hvalid hrun hkept.onRecord ht hu
    have hrecord' := record_of_onRecord hvalid hrun hkept.onRecord ht' hu'
    rw [hexperiment t ht]
    exact (bandOf_eq_iff (hvalid t ht) (hvalid t' ht')).mp
      (Option.some.inj (hrecord.symm.trans hrecord'))
  · intro haligned
    have hsame : ∀ t ∈ tr, ∀ t' ∈ tr, ∀ u ∈ unitsOf env t.act, u ∈ unitsOf env t'.act →
        armIn t.act (bucketOf env 0 u) = armIn t'.act (bucketOf env 0 u) := by
      intro t ht t' ht' u hu hu'
      have hplace := haligned t ht t' ht' u hu hu'
      rw [hexperiment t ht] at hplace
      exact (bandOf_eq_iff (hvalid t ht) (hvalid t' ht')).mpr hplace
    refine ⟨?_, ?_⟩
    · intro t ht
      obtain ⟨tr₀, hpre, hrun₀, hstep⟩ := hrun.exists_prefix ht
      have hvalid₀ : ∀ t ∈ tr₀, Valid t.act := fun t ht =>
        hvalid t (hpre.subset (List.mem_append_left _ ht))
      obtain ⟨hone, hgiven, -⟩ := invariants hvalid₀ hrun₀
      obtain ⟨-, -, hget⟩ := step_spec hone (hvalid t ht) hstep
      refine (onRecord_iff hone (hvalid t ht) hstep).mpr ?_
      intro u hu
      rw [hget, if_pos hu]
      cases hold : t.pre.assignments.get? (0, u) with
      | none => rfl
      | some old =>
          -- the arm on record is the one a run before gave the unit
          obtain ⟨t₀, ht₀, hu₀, heq⟩ := hgiven u old hold
          have ht₀' : t₀ ∈ tr := hpre.subset (List.mem_append_left _ ht₀)
          rw [heq]
          exact congrArg some (hsame t₀ ht₀' t ht u hu₀ hu)
    · intro t ht t' ht' arms harms arms' harms' u arm arm' harm harm'
      obtain ⟨d, hd, hget⟩ := exists_armsOf env 0 (hvalid t ht)
      obtain ⟨d', hd', hget'⟩ := exists_armsOf env 0 (hvalid t' ht')
      rw [hexperiment t ht] at harms
      rw [hexperiment t' ht'] at harms'
      obtain rfl : d = arms := Option.some.inj (hd.symm.trans harms)
      obtain rfl : d' = arms' := Option.some.inj (hd'.symm.trans harms')
      rw [hget] at harm
      rw [hget'] at harm'
      split at harm <;> split at harm'
      · rename_i hu hu'
        rw [← Option.some.inj harm, ← Option.some.inj harm']
        exact hsame t ht t' ht' u hu hu'
      · cases harm'
      · cases harm
      · cases harm

end Histories

/-- The sample tenant. -/
def sampleEnv : Env := ⟨sampleHashes, sampleTenantId, "test-measurement-secret", by decide⟩

/-- A run of `user1` under the given percentages. -/
def sampleAllocation (controlPct naivePct : ℤ) (now : Timestamp) : Allocation ℚ where
  settings := { sampleSettings with
    measurementControlPct := controlPct, measurementNaivePct := naivePct }
  store := sampleStore
  run := loneRun
  now := now

/-- Two runs under the default percentages. -/
theorem armsKept_iff_sample : ∃ tr s, Run (Step (K := ℚ) sampleEnv) initial tr s ∧
    (ArmsKept sampleEnv tr ↔ Aligned sampleEnv tr) := by
  have hrun := ((.nil : Run (Step (K := ℚ) sampleEnv) initial [] initial).snoc
    (a := sampleAllocation 20 20 0) rfl).snoc (a := sampleAllocation 20 20 86400) rfl
  refine ⟨_, _, hrun, armsKept_iff ?_ hrun⟩
  intro t ht
  simp only [List.nil_append, List.singleton_append, List.mem_cons, List.not_mem_nil,
    or_false] at ht
  rcases ht with rfl | rfl <;> exact (by decide : ValidPcts 20 20)

/-- **The arms are not kept**: when the control group is given up between
two runs, the second acts on ENGINE where CONTROL is on record. -/
theorem not_armsKept : ¬ ∀ (env : Env) (tr : List (Transition State (Allocation ℚ))) (s : State),
    Run (Step env) initial tr s → (∀ t ∈ tr, Valid t.act) → ArmsKept env tr := by
  intro hlaw
  have hrun := ((.nil : Run (Step (K := ℚ) sampleEnv) initial [] initial).snoc
    (a := sampleAllocation 20 20 0) rfl).snoc (a := sampleAllocation 0 0 86400) rfl
  have hkept := (hlaw sampleEnv _ _ hrun ?_).onRecord _
    (List.mem_append_right _ (List.mem_singleton_self _))
  · have hacts : ∃ arms ∈ armsOf sampleEnv 0 (sampleAllocation 0 0 86400),
        arms.get? user1 = some .engine ∧ (allocateArms sampleEnv
          (allocateArms sampleEnv initial (sampleAllocation 20 20 0))
            (sampleAllocation 0 0 86400)).assignments.get? (0, user1) = some .control := by
      decide +kernel
    obtain ⟨arms, harms, hengine, hcontrol⟩ := hacts
    have hrecord := hkept arms harms user1 .engine hengine
    exact absurd (hcontrol.symm.trans hrecord) (by decide)
  · intro t ht
    simp only [List.nil_append, List.singleton_append, List.mem_cons, List.not_mem_nil,
      or_false] at ht
    rcases ht with rfl | rfl
    · exact (by decide : ValidPcts 20 20)
    · exact (by decide : ValidPcts 0 0)

end Experiment

end RetentionEngine
