import RetentionEngine.Feedback.LabeledExamples
import Mathlib.Data.Rat.Floor

/-!
# Lift

`measurement.lift`: retention per arm and its differences, of outcomes or
of totals that were aggregated before. What is reported depends on the
totals alone (`computeLift_eq_iff`), and the totals on nothing but sums
(`aggregate_apply`).
-/

namespace RetentionEngine

namespace Measurement

/-- One arm's entry of `totals`. -/
structure ArmTotals where
  n : ℤ
  retained : ℤ
  spendIdr : ℤ
  deriving DecidableEq, Repr

/-- An element of `outcomes`: an event, or a dictionary of one arm's totals. -/
inductive LiftInput
  | event (o : Feedback.OutcomeEvent)
  | aggregated (arm : Arm) (totals : ArmTotals)

namespace LiftInput

/-- The arm an element counts for. -/
def arm : LiftInput → Arm
  | event o => o.arm
  | aggregated arm _ => arm

/-- What it adds. -/
def totals : LiftInput → ArmTotals
  | event o => ⟨1, if o.retained then 1 else 0, o.spendIdr⟩
  | aggregated _ totals => totals

end LiftInput

/-- The body of the loop of `_aggregate`. -/
def addInput (totals : Arm → ArmTotals) (i : LiftInput) : Arm → ArmTotals :=
  Function.update totals i.arm ⟨(totals i.arm).n + i.totals.n,
    (totals i.arm).retained + i.totals.retained, (totals i.arm).spendIdr + i.totals.spendIdr⟩

/-- `_aggregate`. -/
def aggregate (outcomes : List LiftInput) : Arm → ArmTotals :=
  outcomes.foldl addInput fun _ => ⟨0, 0, 0⟩

variable (K : Type) [Field K] [LinearOrder K]

/-- What is reported of one arm. -/
structure ArmReport where
  n : ℤ
  retained : ℤ
  retentionRate : Option K
  spendIdr : ℤ

/-- `lift_block`. -/
structure LiftBlock where
  absolute : K
  relative : Option K

/-- What `compute_lift` returns. -/
structure Lift where
  arms : Arm → ArmReport K
  liftVsControl : Option K
  liftVsNaive : Option K
  naiveLiftVsControl : Option K
  incrementalRetainedUsersPerIdr : Option K
  engineVsControl : Option (LiftBlock K)
  engineVsNaive : Option (LiftBlock K)
  naiveIncrementalValuePerIdr : Option K
  engineIncrementalValuePerIdr : Option K
  minArmSize : ℤ
  syntheticData : Bool

variable {K}

/-- `arms[key]`, from the totals. -/
def armReport (minArmSize : ℤ) (row : ArmTotals) : ArmReport K where
  n := row.n
  retained := row.retained
  retentionRate := if minArmSize ≤ row.n ∧ 0 < row.n then some ((row.retained : K) / (row.n : K))
    else none
  spendIdr := row.spendIdr

section Lift

variable (arms : Arm → ArmReport K) (a b : Arm)

/-- `diff`. -/
def diff : Option K := do
  let ra ← (arms a).retentionRate
  let rb ← (arms b).retentionRate
  return ra - rb

/-- `lift_block`. -/
def liftBlock : Option (LiftBlock K) := do
  let absolute ← diff arms a b
  let rb ← (arms b).retentionRate
  return ⟨absolute, if 0 < rb then some (absolute / rb) else none⟩

/-- `incremental_per_idr`. -/
def incrementalPerIdr : Option K := do
  let lift ← diff arms a .control
  if (arms a).spendIdr ≤ 0 then none
  else return lift * ((arms a).n : K) / ((arms a).spendIdr : K)

end Lift

/-- What is computed from the totals. -/
def liftOf (minArmSize : ℤ) (totals : Arm → ArmTotals) : Lift K :=
  let arms : Arm → ArmReport K := fun arm => armReport minArmSize (totals arm)
  { arms := arms
    liftVsControl := diff arms .engine .control
    liftVsNaive := diff arms .engine .naive
    naiveLiftVsControl := diff arms .naive .control
    incrementalRetainedUsersPerIdr := incrementalPerIdr arms .engine
    engineVsControl := liftBlock arms .engine .control
    engineVsNaive := liftBlock arms .engine .naive
    naiveIncrementalValuePerIdr := incrementalPerIdr arms .naive
    engineIncrementalValuePerIdr := incrementalPerIdr arms .engine
    minArmSize := minArmSize
    syntheticData := true }

/-- `compute_lift`. -/
def computeLift (minArmSize : ℤ) (outcomes : List LiftInput) : Lift K :=
  liftOf minArmSize (aggregate outcomes)

/-- **The totals of an arm are the sums** of what its elements add. -/
theorem aggregate_apply (outcomes : List LiftInput) (arm : Arm) : aggregate outcomes arm =
    ⟨((outcomes.filter fun i => i.arm = arm).map fun i => i.totals.n).sum,
      ((outcomes.filter fun i => i.arm = arm).map fun i => i.totals.retained).sum,
      ((outcomes.filter fun i => i.arm = arm).map fun i => i.totals.spendIdr).sum⟩ := by
  unfold aggregate
  induction outcomes using List.reverseRecOn with
  | nil => rfl
  | append_singleton outcomes i ih =>
      rw [List.foldl_append, List.foldl_cons, List.foldl_nil, addInput]
      by_cases harm : i.arm = arm
      · subst harm
        rw [Function.update_self, ih]
        simp
      · rw [Function.update_of_ne (Ne.symm harm), ih]
        simp [harm]

/-- **Two lifts are the same exactly when their totals are.** -/
theorem computeLift_eq_iff {minArmSize : ℤ} {outcomes outcomes' : List LiftInput} :
    (computeLift minArmSize outcomes : Lift K) = computeLift minArmSize outcomes' ↔
      aggregate outcomes = aggregate outcomes' := by
  unfold computeLift
  constructor
  · intro hlift
    funext arm
    have harm := congrFun (congrArg Lift.arms hlift) arm
    have hn : (aggregate outcomes arm).n = (aggregate outcomes' arm).n :=
      congrArg ArmReport.n harm
    have hretained : (aggregate outcomes arm).retained = (aggregate outcomes' arm).retained :=
      congrArg ArmReport.retained harm
    have hspend : (aggregate outcomes arm).spendIdr = (aggregate outcomes' arm).spendIdr :=
      congrArg ArmReport.spendIdr harm
    cases htotals : aggregate outcomes arm
    cases htotals' : aggregate outcomes' arm
    rw [htotals, htotals'] at hn hretained hspend
    rw [ArmTotals.mk.injEq]
    exact ⟨hn, hretained, hspend⟩
  · intro htotals
    rw [htotals]

end Measurement

end RetentionEngine
