import RetentionEngine.Common.Counting
import RetentionEngine.Feedback.Outcomes
import RetentionEngine.Measurement.Lift
import Mathlib.Data.Rat.Floor

/-!
# The console's lift

`GET /console/v1/measurement/{experiment_id}` counts the users of an arm
and, of them, those with a RETAINED row; the worker's `load_outcomes`
counts rows. `sameLift_iff` says when the two report the same.
-/

namespace RetentionEngine

namespace Measurement

open Feedback (OutcomeRow loadOutcomes outcomeEvent)

variable {K : Type} (t : Feedback.Tables K) (tenantId : String) (experimentId : Uuid)

/-- `list_assignments`: the user and the arm of each row. -/
def listAssignments : List (String × Arm) :=
  (t.experimentAssignments.entries.filter fun p =>
    p.1.tenantId = tenantId ∧ p.1.experimentId = experimentId).map fun p =>
      (p.1.userPseudonym, p.2)

/-- `load_outcomes` of the repository `measurement`. -/
def experimentOutcomes : List OutcomeRow :=
  (t.outcomeEvents.entries.map Prod.snd).filter fun row =>
    row.tenantId = tenantId ∧ row.experimentId = experimentId

/-- `arm_by_user`. -/
def armByUser : Dict String Arm :=
  Dict.ofList Prod.fst Prod.snd (listAssignments t tenantId experimentId)

/-- `retained_users`. -/
def retainedUsers : List String :=
  ((experimentOutcomes t tenantId experimentId).filter fun o => o.outcomeType = .retained).map
    OutcomeRow.userPseudonym

/-- `spend_by_arm`. -/
def spendByArm : Dict Arm ℤ :=
  tally Prod.fst Prod.snd ((experimentOutcomes t tenantId experimentId).filterMap fun o =>
    if o.valueIdr.getD 0 = 0 then none
    else ((armByUser t tenantId experimentId).get? o.userPseudonym).map fun arm =>
      (arm, o.valueIdr.getD 0))

/-- `n_by_arm`. -/
def nByArm : Dict Arm ℤ :=
  tally Prod.snd (fun _ => 1) (armByUser t tenantId experimentId).entries

/-- `retained_by_arm`. -/
def retainedByArm : Dict Arm ℤ :=
  tally Prod.snd (fun _ => 1) ((armByUser t tenantId experimentId).entries.filter fun p =>
    p.1 ∈ retainedUsers t tenantId experimentId)

/-- `outcomes_payload`. -/
def outcomesPayload : List LiftInput :=
  (nByArm t tenantId experimentId).entries.map fun p => .aggregated p.1 ⟨p.2,
    ((retainedByArm t tenantId experimentId).get? p.1).getD 0,
    ((spendByArm t tenantId experimentId).get? p.1).getD 0⟩

/-- The lift `get_measurement` reports. -/
def consoleLift [Field K] [LinearOrder K] (minArmSize : ℤ) : Lift K :=
  computeLift minArmSize (outcomesPayload t tenantId experimentId)

/-- The lift `ingest_outcomes` reports. -/
def workerLift [Field K] [LinearOrder K] (minArmSize : ℤ) : Lift K :=
  computeLift minArmSize ((loadOutcomes t tenantId).map LiftInput.event)

/-! ## What each path counts -/

/-- The users assigned to an arm. -/
def usersIn (arm : Arm) : List String :=
  ((listAssignments t tenantId experimentId).filter fun p => p.2 = arm).map Prod.fst

/-- The outcome rows of the users of an arm. -/
def rowsIn (arm : Arm) : List OutcomeRow :=
  (experimentOutcomes t tenantId experimentId).filter fun o =>
    o.userPseudonym ∈ usersIn t tenantId experimentId arm

/-- The RETAINED rows of a user. -/
def retainedRows (u : String) : List OutcomeRow :=
  (experimentOutcomes t tenantId experimentId).filter fun o =>
    o.userPseudonym = u ∧ o.outcomeType = .retained

/-- **The rows count as the users do**: every arm has as many outcome rows
as users, and no user of it has two RETAINED rows. -/
def RowsCountUsers : Prop :=
  ∀ arm, (rowsIn t tenantId experimentId arm).length =
      (usersIn t tenantId experimentId arm).length ∧
    ∀ u ∈ usersIn t tenantId experimentId arm,
      (retainedRows t tenantId experimentId u).length ≤ 1

/-- **One experiment**: every outcome of the tenant is of it. -/
def OneExperiment : Prop :=
  ∀ p ∈ t.outcomeEvents.entries, p.2.tenantId = tenantId → p.2.experimentId = experimentId

variable {t tenantId experimentId} {arm : Arm} {u : String}

/-- Every user has one arm. -/
theorem nodup_listAssignments : ((listAssignments t tenantId experimentId).map Prod.fst).Nodup := by
  have hkeys : ((t.experimentAssignments.entries.filter fun p =>
      p.1.tenantId = tenantId ∧ p.1.experimentId = experimentId).map Prod.fst).Nodup :=
    t.experimentAssignments.nodup.sublist (List.filter_sublist.map _)
  unfold listAssignments
  rw [List.map_map]
  rw [List.nodup_map_iff_inj_on (hkeys.of_map _)]
  rintro ⟨k, arm⟩ hp ⟨k', arm'⟩ hq huser
  obtain ⟨hp', hk⟩ := List.mem_filter.mp hp
  obtain ⟨hq', hk'⟩ := List.mem_filter.mp hq
  obtain ⟨htenant, hexp⟩ := of_decide_eq_true hk
  obtain ⟨htenant', hexp'⟩ := of_decide_eq_true hk'
  refine List.inj_on_of_nodup_map hkeys hp hq ?_
  cases k
  cases k'
  simp_all

/-- The entries of `arm_by_user` are the assignments. -/
theorem perm_armByUser : (armByUser t tenantId experimentId).entries.Perm
    (listAssignments t tenantId experimentId) := by
  have hentries : (armByUser t tenantId experimentId).entries =
      (listAssignments t tenantId experimentId).map fun p => (p.1, p.2) :=
    Dict.entries_ofList nodup_listAssignments
  rw [hentries, List.map_id']

theorem nodup_usersIn : (usersIn t tenantId experimentId arm).Nodup :=
  nodup_listAssignments.sublist (List.filter_sublist.map _)

/-- **Who is in an arm**, in the table and in the console's dictionary. -/
theorem mem_usersIn : u ∈ usersIn t tenantId experimentId arm ↔
    t.experimentAssignments.get? ⟨tenantId, experimentId, u⟩ = some arm := by
  unfold usersIn listAssignments
  rw [Dict.get?_eq_some, List.mem_map]
  constructor
  · rintro ⟨p, hp, rfl⟩
    obtain ⟨hlisted, harm⟩ := List.mem_filter.mp hp
    obtain ⟨⟨k, arm'⟩, hmem, rfl⟩ := List.mem_map.mp hlisted
    obtain ⟨hentry, hk⟩ := List.mem_filter.mp hmem
    obtain ⟨rfl, rfl⟩ := of_decide_eq_true hk
    obtain rfl := of_decide_eq_true harm
    exact hentry
  · intro hmem
    refine ⟨(u, arm), List.mem_filter.mpr ⟨List.mem_map.mpr ⟨_, List.mem_filter.mpr
      ⟨hmem, decide_eq_true ⟨rfl, rfl⟩⟩, rfl⟩, decide_eq_true rfl⟩, rfl⟩

theorem get?_armByUser : (armByUser t tenantId experimentId).get? u = some arm ↔
    u ∈ usersIn t tenantId experimentId arm := by
  rw [Dict.get?_eq_some, perm_armByUser.mem_iff]
  unfold usersIn
  rw [List.mem_map]
  constructor
  · intro hmem
    exact ⟨(u, arm), List.mem_filter.mpr ⟨hmem, decide_eq_true rfl⟩, rfl⟩
  · rintro ⟨⟨u', arm'⟩, hmem, rfl⟩
    obtain ⟨hlisted, harm⟩ := List.mem_filter.mp hmem
    obtain rfl := of_decide_eq_true harm
    exact hlisted

/-- Counting entries of `arm_by_user` counts users. -/
theorem length_filter_armByUser (q : String → Prop) [DecidablePred q] :
    ((armByUser t tenantId experimentId).entries.filter fun p => p.2 = arm ∧ q p.1).length =
      ((usersIn t tenantId experimentId arm).filter fun u => q u).length := by
  rw [(perm_armByUser.filter _).length_eq]
  unfold usersIn
  rw [List.filter_map, List.length_map, List.filter_filter]
  congr 1
  refine List.filter_congr ?_
  intro p _
  simp [Bool.and_comm]

/-- A counter's total is the one it holds. -/
theorem aggregate_payload {counts : Dict Arm ℤ} {f : Arm → ℤ → ArmTotals} :
    aggregate (counts.entries.map fun p => .aggregated p.1 (f p.1 p.2)) arm =
      ((counts.get? arm).map (f arm)).getD ⟨0, 0, 0⟩ := by
  rw [aggregate_apply, List.filter_map]
  have hentries : counts.entries.filter ((fun i : LiftInput => decide (i.arm = arm)) ∘
      fun p => .aggregated p.1 (f p.1 p.2)) = (counts.get? arm).toList.map fun v => (arm, v) :=
    counts.filter_entries
  rw [hentries]
  cases counts.get? arm with
  | none => rfl
  | some v => simp [LiftInput.totals]

/-- The spend the console adds up is that of the arm's rows. -/
theorem getD_spendByArm : ((spendByArm t tenantId experimentId).get? arm).getD 0 =
    ((rowsIn t tenantId experimentId arm).map fun o => o.valueIdr.getD 0).sum := by
  unfold spendByArm rowsIn
  rw [getD_tally]
  induction experimentOutcomes t tenantId experimentId with
  | nil => rfl
  | cons o os ih =>
      rw [List.filterMap_cons, List.filter_cons]
      by_cases hzero : o.valueIdr.getD 0 = 0
      · rw [if_pos hzero, ih]
        by_cases hu : o.userPseudonym ∈ usersIn t tenantId experimentId arm <;> simp [hu, hzero]
      · rw [if_neg hzero]
        cases hget : (armByUser t tenantId experimentId).get? o.userPseudonym with
        | none =>
            have hu : o.userPseudonym ∉ usersIn t tenantId experimentId arm := fun hu => by
              rw [get?_armByUser.mpr hu] at hget
              cases hget
            simpa [hu] using ih
        | some arm' =>
            have hu : o.userPseudonym ∈ usersIn t tenantId experimentId arm ↔ arm' = arm := by
              rw [← get?_armByUser, hget, Option.some_inj]
            by_cases harm : arm' = arm <;> simp [hu, harm, ih]

/-- **What the console counts in an arm**: its users, those retained, and
what its rows spent. -/
theorem aggregate_outcomesPayload : aggregate (outcomesPayload t tenantId experimentId) arm =
    ⟨(usersIn t tenantId experimentId arm).length, ((usersIn t tenantId experimentId arm).filter
        fun u => u ∈ retainedUsers t tenantId experimentId).length,
      ((rowsIn t tenantId experimentId arm).map fun o => o.valueIdr.getD 0).sum⟩ := by
  have hn : ((nByArm t tenantId experimentId).get? arm).getD 0 =
      (usersIn t tenantId experimentId arm).length := by
    have hlength : ((armByUser t tenantId experimentId).entries.filter fun p =>
        p.2 = arm ∧ True).length =
          ((usersIn t tenantId experimentId arm).filter fun _ => True).length :=
      length_filter_armByUser fun _ => True
    unfold nByArm
    rw [getD_tally]
    simpa using hlength
  have hretained : ((retainedByArm t tenantId experimentId).get? arm).getD 0 =
      ((usersIn t tenantId experimentId arm).filter
        fun u => u ∈ retainedUsers t tenantId experimentId).length := by
    rw [← length_filter_armByUser]
    unfold retainedByArm
    rw [getD_tally, List.filter_filter]
    simp
  unfold outcomesPayload
  rw [aggregate_payload (f := fun arm n => ⟨n,
    ((retainedByArm t tenantId experimentId).get? arm).getD 0,
    ((spendByArm t tenantId experimentId).get? arm).getD 0⟩), ← hn, ← hretained, ← getD_spendByArm]
  cases hget : (nByArm t tenantId experimentId).get? arm with
  | some n => rfl
  | none =>
      -- an arm nobody is in
      have hempty : usersIn t tenantId experimentId arm = [] := by
        rw [hget, Option.getD_none] at hn
        exact List.length_eq_zero_iff.mp (by omega)
      have hrows : rowsIn t tenantId experimentId arm = [] := by
        unfold rowsIn
        rw [hempty]
        simp
      rw [hretained, getD_spendByArm, hempty, hrows]
      rfl

/-- **What the worker counts in an arm**: rows, RETAINED rows, and what they
spent. -/
theorem aggregate_loadOutcomes (hone : OneExperiment t tenantId experimentId) :
    aggregate ((loadOutcomes t tenantId).map LiftInput.event) arm =
      ⟨(rowsIn t tenantId experimentId arm).length, ((rowsIn t tenantId experimentId arm).filter
          fun o => o.outcomeType = .retained).length,
        ((rowsIn t tenantId experimentId arm).map fun o => o.valueIdr.getD 0).sum⟩ := by
  have hevents : (((loadOutcomes t tenantId).map LiftInput.event).filter fun i =>
      i.arm = arm).map LiftInput.totals = (rowsIn t tenantId experimentId arm).map fun o =>
        ⟨1, if o.outcomeType = .retained then 1 else 0, o.valueIdr.getD 0⟩ := by
    unfold loadOutcomes rowsIn experimentOutcomes
    unfold OneExperiment at hone
    generalize t.outcomeEvents.entries = entries at hone ⊢
    induction entries with
    | nil => rfl
    | cons p ps ih =>
        obtain ⟨hp, hps⟩ := List.forall_mem_cons.mp hone
        have ih := ih hps
        rw [List.filterMap_cons, List.map_cons, List.filter_cons]
        by_cases htenant : p.2.tenantId = tenantId
        · have hexp := hp htenant
          have hu : p.2.userPseudonym ∈ usersIn t tenantId experimentId arm ↔
              t.experimentAssignments.get? ⟨p.2.tenantId, p.2.experimentId, p.2.userPseudonym⟩ =
                some arm := by
            rw [htenant, hexp, mem_usersIn]
          cases hget : t.experimentAssignments.get? ⟨p.2.tenantId, p.2.experimentId,
              p.2.userPseudonym⟩ with
          | none =>
              rw [hget] at hu
              simpa [htenant, hexp, hu] using ih
          | some arm' =>
              rw [hget, Option.some_inj] at hu
              by_cases harm : arm' = arm
              · simpa [htenant, hexp, hu, hget, harm, LiftInput.totals, LiftInput.arm, outcomeEvent]
                  using ih
              · simpa [htenant, hexp, hu, hget, harm, LiftInput.arm, outcomeEvent] using ih
        · simpa [htenant] using ih
  have hsum : ∀ g : ArmTotals → ℤ, (((loadOutcomes t tenantId).map LiftInput.event).filter fun i =>
      i.arm = arm).map (fun i => g i.totals) = (rowsIn t tenantId experimentId arm).map fun o =>
        g ⟨1, if o.outcomeType = .retained then 1 else 0, o.valueIdr.getD 0⟩ := by
    intro g
    have hmap := congrArg (List.map g) hevents
    rwa [List.map_map, List.map_map] at hmap
  rw [aggregate_apply, hsum ArmTotals.n, hsum ArmTotals.retained, hsum ArmTotals.spendIdr]
  dsimp only
  rw [sum_map_ite]
  simp

/-- The RETAINED rows of an arm are those of its users. -/
theorem length_retainedRows : ((rowsIn t tenantId experimentId arm).filter
    fun o => o.outcomeType = .retained).length =
      ((usersIn t tenantId experimentId arm).map fun u =>
        (retainedRows t tenantId experimentId u).length).sum := by
  have hnodup : (usersIn t tenantId experimentId arm).Nodup := nodup_usersIn
  have hcount := length_filter_mem OutcomeRow.userPseudonym hnodup
    ((experimentOutcomes t tenantId experimentId).filter fun o => o.outcomeType = .retained)
  unfold rowsIn retainedRows
  rw [List.filter_filter] at hcount ⊢
  have hrows : ∀ u, ((experimentOutcomes t tenantId experimentId).filter fun o =>
      o.userPseudonym = u ∧ o.outcomeType = .retained) =
        ((experimentOutcomes t tenantId experimentId).filter fun o =>
          o.outcomeType = .retained).filter fun o => o.userPseudonym = u := by
    intro u
    rw [List.filter_filter]
    exact List.filter_congr fun o _ => by simp
  simp only [hrows]
  rw [← hcount]
  congr 1
  exact List.filter_congr fun o _ => by rw [Bool.and_comm]

/-- The retained users of an arm are those with a RETAINED row. -/
theorem filter_retainedUsers : ((usersIn t tenantId experimentId arm).filter
    fun u => u ∈ retainedUsers t tenantId experimentId) =
      (usersIn t tenantId experimentId arm).filter
        fun u => 0 < (retainedRows t tenantId experimentId u).length := by
  refine List.filter_congr ?_
  intro u _
  rw [decide_eq_decide, List.length_pos_iff_exists_mem]
  unfold retainedUsers retainedRows
  simp only [List.mem_map, List.mem_filter, decide_eq_true_iff]
  constructor
  · rintro ⟨o, ⟨ho, hretained⟩, hu⟩
    exact ⟨o, ho, hu, hretained⟩
  · rintro ⟨o, ho, hu, hretained⟩
    exact ⟨o, ⟨ho, hretained⟩, hu⟩

/-- **When worker and console report the same lift.** For every assignments
and outcomes of a tenant with one experiment, and every size arms must
have: the two lifts are the same if and only if every arm has as many
outcome rows as users, and no user of it has two RETAINED rows. -/
theorem sameLift_iff [Field K] [LinearOrder K] (hone : OneExperiment t tenantId experimentId)
    (minArmSize : ℤ) : workerLift t tenantId minArmSize = consoleLift t tenantId experimentId
      minArmSize ↔ RowsCountUsers t tenantId experimentId := by
  unfold workerLift consoleLift
  rw [computeLift_eq_iff, funext_iff]
  refine forall_congr' fun arm => ?_
  rw [aggregate_loadOutcomes hone, aggregate_outcomesPayload, length_retainedRows,
    filter_retainedUsers, ArmTotals.mk.injEq, Nat.cast_inj, Nat.cast_inj]
  refine and_congr_right fun _ => ?_
  rw [and_iff_left rfl, ← length_filter_pos_eq_sum_iff, eq_comm]

/-- The tables with these outcomes of `u`, who is in the ENGINE arm. -/
def sampleTables (outcomes : List (Uuid × OutcomeRow)) : Feedback.Tables ℚ where
  outcomeEvents := .ofList Prod.fst Prod.snd outcomes
  experimentAssignments := .ofList Prod.fst Prod.snd [(⟨"t", 1, "u"⟩, .engine)]
  featureSnapshots := .empty
  labeledExamples := []

/-- One row for the one user. -/
theorem sameLift_iff_sample :
    OneExperiment (sampleTables [(7, ⟨"t", 1, "u", .retained, 0, none⟩)]) "t" 1 ∧
      (workerLift (sampleTables [(7, ⟨"t", 1, "u", .retained, 0, none⟩)]) "t" 1 =
        consoleLift (sampleTables [(7, ⟨"t", 1, "u", .retained, 0, none⟩)]) "t" 1 1 ↔
          RowsCountUsers (sampleTables [(7, ⟨"t", 1, "u", .retained, 0, none⟩)]) "t" 1) := by
  have hone : OneExperiment (sampleTables [(7, ⟨"t", 1, "u", .retained, 0, none⟩)]) "t" 1 := by
    unfold OneExperiment
    decide +kernel
  exact ⟨hone, sameLift_iff hone 1⟩

/-- **Two rows of one user**: he responded and has stayed, which the worker
counts as two, and the console as one. -/
theorem not_sameLift : ∃ t : Feedback.Tables ℚ, OneExperiment t "t" 1 ∧
    ((workerLift t "t" 1).arms .engine).n = 2 ∧ ((consoleLift t "t" 1 1).arms .engine).n = 1 ∧
    workerLift t "t" 1 ≠ consoleLift t "t" 1 1 := by
  refine ⟨sampleTables [(6, ⟨"t", 1, "u", .responded, 0, none⟩),
    (7, ⟨"t", 1, "u", .retained, 0, none⟩)], ?_, ?_, ?_, ?_⟩
  · unfold OneExperiment
    decide +kernel
  · decide +kernel
  · decide +kernel
  · intro heq
    have hn := congrArg (fun l : Lift ℚ => (l.arms .engine).n) heq
    revert hn
    decide +kernel

end Measurement

end RetentionEngine
