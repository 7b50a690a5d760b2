import Mathlib.Algebra.BigOperators.Group.List.Basic
import Mathlib.Algebra.Order.Field.Basic
import Mathlib.Tactic.Linarith
import RetentionEngine.Measurement.Lift

/-!
# Lift of chunks

`compute_lift` takes rows and totals of rows alike. Totals add up, so an arm
of the result is a sum over the elements (`aggregate_eq_sum`) and rows may be
replaced by the totals of their chunk in any grouping and order
(`aggregate_parts`). Every division of the result is guarded:
`checkedLift`, in which a zero divisor raises, never does.
-/

namespace RetentionEngine

namespace Measurement

open Feedback (OutcomeEvent)

/-! ## Totals add up -/

namespace ArmTotals

instance : Zero ArmTotals := ⟨⟨0, 0, 0⟩⟩

instance : Add ArmTotals :=
  ⟨fun a b => ⟨a.n + b.n, a.retained + b.retained, a.spendIdr + b.spendIdr⟩⟩

theorem add_def (a b : ArmTotals) :
    a + b = ⟨a.n + b.n, a.retained + b.retained, a.spendIdr + b.spendIdr⟩ := rfl

theorem zero_def : (0 : ArmTotals) = ⟨0, 0, 0⟩ := rfl

instance : AddCommMonoid ArmTotals where
  add_assoc a b c := by simp only [add_def, add_assoc]
  zero_add a := by simp only [add_def, zero_def, zero_add]
  add_zero a := by simp only [add_def, zero_def, add_zero]
  add_comm a b := by simp only [add_def, add_comm]
  nsmul := nsmulRec

end ArmTotals

/-- What an element adds to an arm. -/
def LiftInput.totalsOf (arm : Arm) (i : LiftInput) : ArmTotals :=
  if i.arm = arm then i.totals else 0

variable {given : List LiftInput} {arm : Arm}

/-- **The totals of an arm are one sum over the elements.** -/
theorem aggregate_eq_sum (given : List LiftInput) (arm : Arm) :
    aggregate given arm = (given.map (LiftInput.totalsOf arm)).sum := by
  unfold aggregate
  induction given using List.reverseRecOn with
  | nil => rfl
  | append_singleton given i ih =>
      rw [List.foldl_append, List.foldl_cons, List.foldl_nil, addInput, List.map_append,
        List.sum_append, ← ih, List.map_singleton, List.sum_singleton, LiftInput.totalsOf]
      by_cases harm : i.arm = arm
      · rw [if_pos harm, ← harm, Function.update_self]
        rfl
      · rw [if_neg harm, Function.update_of_ne (Ne.symm harm), add_zero]

/-! ## Rows and chunks of rows -/

/-- **Some rows with the arms their totals are given for**: each arm once,
and every arm that occurs. -/
structure Chunk where
  rows : List OutcomeEvent
  arms : List Arm
  nodup : arms.Nodup
  covers : ∀ o ∈ rows, o.arm ∈ arms

/-- The dictionaries of a chunk, one for each arm. -/
def Chunk.inputs (c : Chunk) : List LiftInput :=
  c.arms.map fun arm => .aggregated arm (aggregate (c.rows.map .event) arm)

/-- A part of the outcomes: a row that stays, or a chunk that is replaced. -/
inductive Part
  | row (o : OutcomeEvent)
  | chunk (c : Chunk)

namespace Part

/-- The rows of a part. -/
def rows : Part → List OutcomeEvent
  | row o => [o]
  | chunk c => c.rows

/-- What stands in their place. -/
def inputs : Part → List LiftInput
  | row o => [.event o]
  | chunk c => c.inputs

end Part

/-- An arm without rows has no totals. -/
theorem aggregate_of_notMem {rows : List OutcomeEvent} (h : ∀ o ∈ rows, o.arm ≠ arm) :
    aggregate (rows.map .event) arm = 0 := by
  rw [aggregate_eq_sum]
  refine List.sum_eq_zero fun x hx => ?_
  obtain ⟨i, hi, rfl⟩ := List.mem_map.mp hx
  obtain ⟨o, ho, rfl⟩ := List.mem_map.mp hi
  exact if_neg (h o ho)

/-- **A chunk adds to an arm what its rows do.** -/
theorem aggregate_chunk (c : Chunk) (arm : Arm) :
    aggregate c.inputs arm = aggregate (c.rows.map .event) arm := by
  have hsum : ∀ arms : List Arm, arms.Nodup →
      ((arms.map fun a => LiftInput.aggregated a (aggregate (c.rows.map .event) a)).map
        (LiftInput.totalsOf arm)).sum =
          if arm ∈ arms then aggregate (c.rows.map .event) arm else 0 := by
    intro arms hnodup
    induction arms with
    | nil => rfl
    | cons a arms ih =>
        rw [List.nodup_cons] at hnodup
        rw [List.map_cons, List.map_cons, List.sum_cons, ih hnodup.2]
        show (if a = arm then aggregate (c.rows.map .event) a else 0) + _ = _
        by_cases ha : a = arm
        · subst ha
          rw [if_pos rfl, if_neg hnodup.1, add_zero, if_pos List.mem_cons_self]
        · have hmem : arm ∈ a :: arms ↔ arm ∈ arms := by simp [Ne.symm ha]
          simp only [if_neg ha, zero_add, hmem]
  rw [aggregate_eq_sum]
  refine (hsum c.arms c.nodup).trans ?_
  split
  · rfl
  · rename_i hout
    have hnone : ∀ o ∈ c.rows, o.arm ≠ arm := fun o ho heq => hout (heq ▸ c.covers o ho)
    exact (aggregate_of_notMem hnone).symm

/-- **The totals do not show the grouping.** -/
theorem aggregate_parts {parts : List Part} {rows : List OutcomeEvent}
    (hrows : (parts.flatMap Part.rows).Perm rows)
    (hgiven : (parts.flatMap Part.inputs).Perm given) :
    aggregate given = aggregate (rows.map .event) := by
  funext arm
  rw [aggregate_eq_sum, aggregate_eq_sum, ← (hgiven.map _).sum_eq, ← ((hrows.map _).map _).sum_eq]
  clear hrows hgiven
  induction parts with
  | nil => rfl
  | cons p parts ih =>
      rw [List.flatMap_cons, List.flatMap_cons, List.map_append, List.map_append, List.map_append,
        List.sum_append, List.sum_append, ih]
      congr 1
      cases p with
      | row o => rfl
      | chunk c =>
          rw [← aggregate_eq_sum, ← aggregate_eq_sum]
          exact aggregate_chunk c arm

/-! ## Divisions -/

variable {K : Type} [Field K] [LinearOrder K]

/-- `x / y`; `none` is `ZeroDivisionError`. -/
def divide (x y : K) : Option K := if y = 0 then none else some (x / y)

/-- `arms[key]`, with the division checked. -/
def checkedReport (minArmSize : ℤ) (row : ArmTotals) : Option (ArmReport K) := do
  let rate ← if minArmSize ≤ row.n ∧ 0 < row.n then
      (divide (row.retained : K) (row.n : K)).map some
    else some none
  return { n := row.n, retained := row.retained, retentionRate := rate, spendIdr := row.spendIdr }

/-- `lift_block`, with the division checked. -/
def checkedBlock (arms : Arm → ArmReport K) (a b : Arm) : Option (Option (LiftBlock K)) :=
  match diff arms a b, (arms b).retentionRate with
  | some absolute, some rb => do
      let relative ← if 0 < rb then (divide absolute rb).map some else some none
      return some ⟨absolute, relative⟩
  | _, _ => some none

/-- `incremental_per_idr`, with the division checked. -/
def checkedPerIdr (arms : Arm → ArmReport K) (a : Arm) : Option (Option K) :=
  match diff arms a .control with
  | none => some none
  | some lift =>
      if (arms a).spendIdr ≤ 0 then some none
      else (divide (lift * ((arms a).n : K)) ((arms a).spendIdr : K)).map some

/-- `compute_lift`, with every division checked. -/
def checkedLift (minArmSize : ℤ) (outcomes : List LiftInput) : Option (Lift K) := do
  let totals := aggregate outcomes
  let control ← checkedReport minArmSize (totals .control)
  let naive ← checkedReport minArmSize (totals .naive)
  let engine ← checkedReport minArmSize (totals .engine)
  let arms : Arm → ArmReport K
    | .control => control
    | .naive => naive
    | .engine => engine
  let perIdr ← checkedPerIdr arms .engine
  let engineVsControl ← checkedBlock arms .engine .control
  let engineVsNaive ← checkedBlock arms .engine .naive
  let naivePerIdr ← checkedPerIdr arms .naive
  let enginePerIdr ← checkedPerIdr arms .engine
  return {
    arms := arms
    liftVsControl := diff arms .engine .control
    liftVsNaive := diff arms .engine .naive
    naiveLiftVsControl := diff arms .naive .control
    incrementalRetainedUsersPerIdr := perIdr
    engineVsControl := engineVsControl
    engineVsNaive := engineVsNaive
    naiveIncrementalValuePerIdr := naivePerIdr
    engineIncrementalValuePerIdr := enginePerIdr
    minArmSize := minArmSize
    syntheticData := true }

variable [IsStrictOrderedRing K] {minArmSize : ℤ} {row : ArmTotals} {arms : Arm → ArmReport K}
variable {a b : Arm}

omit [IsStrictOrderedRing K] in
theorem divide_of_ne {x y : K} (hy : y ≠ 0) : divide x y = some (x / y) :=
  if_neg hy

theorem checkedReport_eq :
    checkedReport minArmSize row = some (armReport (K := K) minArmSize row) := by
  unfold checkedReport armReport
  split
  · rename_i hsize
    have hn : (row.n : K) ≠ 0 := by exact_mod_cast hsize.2.ne'
    rw [divide_of_ne hn]
    rfl
  · rfl

omit [IsStrictOrderedRing K] in
theorem checkedBlock_eq : checkedBlock arms a b = some (liftBlock arms a b) := by
  unfold checkedBlock liftBlock
  cases diff arms a b with
  | none => rfl
  | some absolute =>
      cases (arms b).retentionRate with
      | none => rfl
      | some rb =>
          simp only [Option.bind_eq_bind, Option.bind_some, Option.pure_def]
          split
          · rename_i hpos
            rw [divide_of_ne hpos.ne']
            rfl
          · rfl

theorem checkedPerIdr_eq : checkedPerIdr arms a = some (incrementalPerIdr arms a) := by
  unfold checkedPerIdr incrementalPerIdr
  cases diff arms a .control with
  | none => rfl
  | some lift =>
      simp only [Option.bind_eq_bind, Option.bind_some, Option.pure_def]
      split
      · rfl
      · rename_i hspend
        have hne : ((arms a).spendIdr : K) ≠ 0 := by exact_mod_cast (not_le.mp hspend).ne'
        rw [divide_of_ne hne]
        rfl

/-- **No division of `compute_lift` is by zero**, whatever it is given. -/
theorem checkedLift_eq (minArmSize : ℤ) (given : List LiftInput) :
    checkedLift minArmSize given = some (computeLift (K := K) minArmSize given) := by
  unfold checkedLift computeLift liftOf
  simp only [checkedReport_eq, checkedBlock_eq, checkedPerIdr_eq, Option.bind_eq_bind,
    Option.bind_some, Option.pure_def]
  have harms : (fun arm => armReport (K := K) minArmSize (aggregate given arm)) = fun arm =>
      match arm with
      | .control => armReport minArmSize (aggregate given .control)
      | .naive => armReport minArmSize (aggregate given .naive)
      | .engine => armReport minArmSize (aggregate given .engine) := by
    funext arm
    cases arm <;> rfl
  rw [harms]

/-! ## Ranges -/

/-- Totals of rows: no more are retained than there are. -/
def ArmTotals.Sound (t : ArmTotals) : Prop := 0 ≤ t.retained ∧ t.retained ≤ t.n

/-- **Sums of sound totals are sound.** -/
theorem sound_aggregate (h : ∀ i ∈ given, i.totals.Sound) (arm : Arm) :
    (aggregate given arm).Sound := by
  rw [aggregate_eq_sum]
  induction given with
  | nil => exact ⟨le_rfl, le_rfl⟩
  | cons i given ih =>
      have hrest := ih fun j hj => h j (List.mem_cons_of_mem _ hj)
      have hi : (i.totalsOf arm).Sound := by
        unfold LiftInput.totalsOf
        split
        · exact h i List.mem_cons_self
        · exact ⟨le_rfl, le_rfl⟩
      rw [List.map_cons, List.sum_cons, ArmTotals.add_def]
      unfold ArmTotals.Sound at hi hrest ⊢
      dsimp only
      omega

/-- The rate of an arm in the result. -/
def Lift.rate (l : Lift K) (arm : Arm) : Option K := (l.arms arm).retentionRate

omit [IsStrictOrderedRing K] in
/-- **A rate is missing** where there is nobody, or too few. -/
theorem rate_eq_none_iff : (computeLift minArmSize given : Lift K).rate arm = none ↔
    (aggregate given arm).n ≤ 0 ∨ (aggregate given arm).n < minArmSize := by
  show (if minArmSize ≤ (aggregate given arm).n ∧ 0 < (aggregate given arm).n then
    some (((aggregate given arm).retained : K) / ((aggregate given arm).n : K))
    else none) = none ↔ _
  rw [ite_eq_right_iff]
  simp only [reduceCtorEq, imp_false]
  omega

/-- **A rate is a proportion.** -/
theorem rate_mem (h : ∀ i ∈ given, i.totals.Sound) {rate : K}
    (hrate : (computeLift minArmSize given : Lift K).rate arm = some rate) :
    0 ≤ rate ∧ rate ≤ 1 := by
  obtain ⟨hzero, hle⟩ := sound_aggregate h arm
  have hif : (if minArmSize ≤ (aggregate given arm).n ∧ 0 < (aggregate given arm).n then
      some (((aggregate given arm).retained : K) / ((aggregate given arm).n : K)) else none) =
        some rate := hrate
  rw [Option.ite_none_right_eq_some] at hif
  obtain ⟨⟨-, hpos⟩, hvalue⟩ := hif
  obtain rfl := Option.some.inj hvalue
  have hn : (0 : K) < (aggregate given arm).n := by exact_mod_cast hpos
  refine ⟨div_nonneg (by exact_mod_cast hzero) hn.le, ?_⟩
  rw [div_le_one hn]
  exact_mod_cast hle

/-- **The absolute lifts of a result**, each with the arms it compares. -/
def Lift.absolutes (l : Lift K) : List (Option K × Arm × Arm) :=
  [(l.liftVsControl, .engine, .control), (l.liftVsNaive, .engine, .naive),
    (l.naiveLiftVsControl, .naive, .control),
    (l.engineVsControl.map LiftBlock.absolute, .engine, .control),
    (l.engineVsNaive.map LiftBlock.absolute, .engine, .naive)]

omit [IsStrictOrderedRing K] in
theorem absolute_liftBlock : (liftBlock arms a b).map LiftBlock.absolute = diff arms a b := by
  unfold liftBlock diff
  cases (arms a).retentionRate with
  | none => rfl
  | some ra =>
      cases (arms b).retentionRate with
      | none => rfl
      | some rb => rfl

omit [IsStrictOrderedRing K] in
/-- **Each is the difference of two rates.** -/
theorem absolute_eq {p : Option K × Arm × Arm}
    (hp : p ∈ (computeLift minArmSize given : Lift K).absolutes) :
    p.1 = diff (computeLift minArmSize given : Lift K).arms p.2.1 p.2.2 := by
  unfold Lift.absolutes at hp
  simp only [List.mem_cons, List.not_mem_nil, or_false] at hp
  rcases hp with rfl | rfl | rfl | rfl | rfl
  · rfl
  · rfl
  · rfl
  · exact absolute_liftBlock
  · exact absolute_liftBlock

omit [LinearOrder K] [IsStrictOrderedRing K] in
theorem diff_eq_none_iff : diff arms a b = none ↔
    (arms a).retentionRate = none ∨ (arms b).retentionRate = none := by
  unfold diff
  cases (arms a).retentionRate <;> cases (arms b).retentionRate <;> simp

omit [LinearOrder K] [IsStrictOrderedRing K] in
theorem diff_eq_some_iff {x : K} : diff arms a b = some x ↔
    ∃ ra rb, (arms a).retentionRate = some ra ∧ (arms b).retentionRate = some rb ∧ ra - rb = x := by
  unfold diff
  cases (arms a).retentionRate <;> cases (arms b).retentionRate <;> simp

omit [LinearOrder K] [IsStrictOrderedRing K] in
/-- Differences to one arm differ by the difference. -/
theorem diff_sub {c : Arm} {x y z : K} (hx : diff arms a b = some x) (hy : diff arms a c = some y)
    (hz : diff arms b c = some z) : x = y - z := by
  obtain ⟨ra, rb, hra, hrb, rfl⟩ := diff_eq_some_iff.mp hx
  obtain ⟨ra', rc, hra', hrc, rfl⟩ := diff_eq_some_iff.mp hy
  obtain ⟨rb', rc', hrb', hrc', rfl⟩ := diff_eq_some_iff.mp hz
  obtain rfl := Option.some.inj (hra.symm.trans hra')
  obtain rfl := Option.some.inj (hrb.symm.trans hrb')
  obtain rfl := Option.some.inj (hrc.symm.trans hrc')
  exact (sub_sub_sub_cancel_right ra rb rc).symm

/-- **Lift is well defined and a homomorphism over the outcomes.** Parts of
the rows may be replaced by their totals; no division is by zero; of sound
totals rates and lifts are in range, and a rate is missing exactly where
there is nobody or too few; a lift is missing exactly where one of its rates
is, and the lifts are differences of one another. -/
theorem computeLift_homomorphism (minArmSize : ℤ) (given : List LiftInput) :
    let l : Lift K := computeLift minArmSize given
    (∀ (parts : List Part) (rows : List OutcomeEvent), (parts.flatMap Part.rows).Perm rows →
      (parts.flatMap Part.inputs).Perm given → l = computeLift minArmSize (rows.map .event)) ∧
    checkedLift minArmSize given = some l ∧
    ((∀ i ∈ given, i.totals.Sound) →
      (∀ arm, ∀ rate ∈ l.rate arm, 0 ≤ rate ∧ rate ≤ 1) ∧
      (∀ p ∈ l.absolutes, ∀ x ∈ p.1, -1 ≤ x ∧ x ≤ 1) ∧
      ∀ arm, l.rate arm = none ↔ (l.arms arm).n = 0 ∨ (l.arms arm).n < minArmSize) ∧
    (∀ p ∈ l.absolutes, p.1 = none ↔ l.rate p.2.1 = none ∨ l.rate p.2.2 = none) ∧
    (∀ x ∈ l.liftVsNaive, ∀ y ∈ l.liftVsControl, ∀ z ∈ l.naiveLiftVsControl, x = y - z) ∧
    ∀ x ∈ l.engineVsNaive, ∀ y ∈ l.engineVsControl, ∀ z ∈ l.naiveLiftVsControl,
      x.absolute = y.absolute - z := by
  intro l
  have hchain : ∀ x ∈ l.liftVsNaive, ∀ y ∈ l.liftVsControl, ∀ z ∈ l.naiveLiftVsControl,
      x = y - z := by
    intro x hx y hy z hz
    have hengine : diff l.arms .engine .naive = some x := hx
    exact diff_sub hengine hy hz
  refine ⟨fun parts rows hrows hgiven => ?_, checkedLift_eq minArmSize given,
    fun hsound => ⟨?_, ?_, ?_⟩, fun p hp => ?_, hchain, fun x hx y hy z hz => ?_⟩
  · exact computeLift_eq_iff.mpr (aggregate_parts hrows hgiven)
  · exact fun arm rate hrate => rate_mem hsound hrate
  · intro p hp x hx
    rw [absolute_eq hp] at hx
    obtain ⟨ra, rb, hra, hrb, rfl⟩ := diff_eq_some_iff.mp hx
    have ha := rate_mem hsound hra
    have hb := rate_mem hsound hrb
    constructor <;> linarith
  · intro arm
    have hpos := sound_aggregate hsound arm
    refine rate_eq_none_iff.trans ?_
    show _ ↔ (aggregate given arm).n = 0 ∨ (aggregate given arm).n < minArmSize
    unfold ArmTotals.Sound at hpos
    omega
  · rw [absolute_eq hp]
    exact diff_eq_none_iff
  · have hx' : l.liftVsNaive = some x.absolute := by
      rw [← show l.engineVsNaive.map LiftBlock.absolute = l.liftVsNaive from absolute_liftBlock,
        Option.mem_def.mp hx, Option.map_some]
    have hy' : l.liftVsControl = some y.absolute := by
      rw [← show l.engineVsControl.map LiftBlock.absolute = l.liftVsControl from absolute_liftBlock,
        Option.mem_def.mp hy, Option.map_some]
    exact hchain _ hx' _ hy' z hz

/-- Totals of four users an arm: half of them are retained more. -/
theorem computeLift_homomorphism_four :
    let given : List LiftInput := [.aggregated .engine ⟨4, 3, 100⟩, .aggregated .control ⟨4, 1, 0⟩]
    (checkedLift 2 given : Option (Lift ℚ)) = some (computeLift 2 given) ∧
    (∀ arm, ∀ rate ∈ (computeLift 2 given : Lift ℚ).rate arm, 0 ≤ rate ∧ rate ≤ 1) ∧
    (computeLift 2 given : Lift ℚ).liftVsControl = some (1 / 2) := by
  intro given
  have hlift := computeLift_homomorphism (K := ℚ) 2 given
  have hsound : ∀ i ∈ given, i.totals.Sound := by
    unfold ArmTotals.Sound
    decide
  exact ⟨hlift.2.1, (hlift.2.2.1 hsound).1, by decide +kernel⟩

end Measurement

end RetentionEngine
