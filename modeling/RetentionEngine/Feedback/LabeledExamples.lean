import RetentionEngine.Common.Dict
import RetentionEngine.Contracts.Decision
import Mathlib.Data.List.Sort
import Mathlib.Data.String.Basic

/-!
# Labeled examples

The package `feedback`: an outcome and the feature snapshot of its run and
user become one labeled example, at most one for each outcome id.
-/

namespace RetentionEngine

namespace Feedback

variable {K : Type}

/-- `FeatureSnapshot`. -/
structure FeatureSnapshot (K : Type) where
  tenantId : String
  runId : String
  userPseudonym : String
  features : Dict String K
  churnRisk : Option K
  impactScore : Option K
  patternType : Option PatternType
  incentiveCode : Option String
  costIdr : ℤ
  businessValueIdr : ℤ

/-- `OutcomeEvent`. -/
structure OutcomeEvent where
  outcomeEventId : String
  tenantId : String
  runId : String
  userPseudonym : String
  arm : Arm
  treated : Bool
  retained : Bool
  spendIdr : ℤ
  observedAt : Timestamp
  deriving DecidableEq, Repr

/-- `LabeledExample`, with what the ranker does not read. -/
structure LabeledExample (K : Type) extends RetentionEngine.LabeledExample K where
  userPseudonym : String
  features : Dict String K
  arm : Arm
  retained : Bool
  incentiveCode : Option String

/-- What `to_labeled_examples` builds of an outcome and its snapshot. -/
def labeledExample [IntCast K] (o : OutcomeEvent) (snap : FeatureSnapshot K) : LabeledExample K :=
  let kept := if o.retained then snap.businessValueIdr else 0
  { tenantId := o.tenantId
    sourceOutcomeId := o.outcomeEventId
    userPseudonym := o.userPseudonym
    features := snap.features
    arm := o.arm
    treated := o.treated
    retained := o.retained
    churnRisk := snap.churnRisk
    impactScore := snap.impactScore
    patternType := snap.patternType
    incentiveCode := if o.treated then snap.incentiveCode else none
    costIdr := if o.treated then snap.costIdr else 0
    businessValueIdr := snap.businessValueIdr
    realizedValueIdr := ((kept - if o.treated then o.spendIdr else 0 : ℤ) : K) }

/-- The key examples are deduplicated by. -/
def OutcomeEvent.key (o : OutcomeEvent) : String × String := (o.tenantId, o.outcomeEventId)

/-- The snapshot of an outcome: that of its run and user, if it is of the
same tenant. -/
def snapshotOf (snapshots : Dict (String × String) (FeatureSnapshot K)) (o : OutcomeEvent) :
    Option (FeatureSnapshot K) :=
  (snapshots.get? (o.runId, o.userPseudonym)).filter fun snap => snap.tenantId = o.tenantId

/-- The loop of `to_labeled_examples`. -/
def labeledFrom [IntCast K] (snapshots : Dict (String × String) (FeatureSnapshot K)) :
    List (String × String) → List OutcomeEvent → List (LabeledExample K)
  | _, [] => []
  | seen, o :: outcomes =>
      if o.key ∈ seen then labeledFrom snapshots seen outcomes
      else match snapshotOf snapshots o with
        | none => labeledFrom snapshots seen outcomes
        | some snap => labeledExample o snap :: labeledFrom snapshots (o.key :: seen) outcomes

/-- `to_labeled_examples`. -/
def toLabeledExamples [IntCast K] (outcomes : List OutcomeEvent)
    (snapshots : Dict (String × String) (FeatureSnapshot K))
    (existingOutcomeIds : List (String × String)) : List (LabeledExample K) :=
  labeledFrom snapshots existingOutcomeIds
    (outcomes.insertionSort fun o o' => o.outcomeEventId ≤ o'.outcomeEventId)

/-- What `summarize` returns. -/
structure Summary where
  newLabeledExamples : ℕ
  totalLabeledExamples : ℕ
  meetsMinRowsPerCycle : Bool
  usedInNextContext : Bool
  syntheticData : Bool
  deriving DecidableEq, Repr

/-- `summarize`. -/
def summarize (newExamples : List (LabeledExample K)) (totalExamples : ℕ) (minRowsPerCycle : ℤ)
    (useInContext : Bool) : Summary where
  newLabeledExamples := newExamples.length
  totalLabeledExamples := totalExamples
  meetsMinRowsPerCycle := decide (minRowsPerCycle ≤ newExamples.length)
  usedInNextContext := useInContext && decide (minRowsPerCycle ≤ newExamples.length)
  syntheticData := true

/-! ## What becomes an example -/

variable [IntCast K] {snapshots : Dict (String × String) (FeatureSnapshot K)}
  {seen : List (String × String)} {outcomes : List OutcomeEvent} {o : OutcomeEvent}
  {snap : FeatureSnapshot K} {e : LabeledExample K}

omit [IntCast K] in
theorem snapshotOf_eq_some : snapshotOf snapshots o = some snap ↔
    snapshots.get? (o.runId, o.userPseudonym) = some snap ∧ snap.tenantId = o.tenantId := by
  unfold snapshotOf
  rw [Option.filter_eq_some_iff, decide_eq_true_iff]

/-- **Every example is a new outcome with its snapshot.** -/
theorem exists_of_mem_labeledFrom (he : e ∈ labeledFrom snapshots seen outcomes) :
    ∃ o ∈ outcomes, o.key ∉ seen ∧ ∃ snap, snapshotOf snapshots o = some snap ∧
      e = labeledExample o snap := by
  induction outcomes generalizing seen with
  | nil => cases he
  | cons o outcomes ih =>
      unfold labeledFrom at he
      split at he
      · obtain ⟨o', ho', hrest⟩ := ih he
        exact ⟨o', List.mem_cons_of_mem _ ho', hrest⟩
      · rename_i hseen
        split at he
        · obtain ⟨o', ho', hrest⟩ := ih he
          exact ⟨o', List.mem_cons_of_mem _ ho', hrest⟩
        · rename_i snap hsnap
          rcases List.mem_cons.mp he with rfl | he
          · exact ⟨o, List.mem_cons_self, hseen, snap, hsnap, rfl⟩
          · obtain ⟨o', ho', hnew, hrest⟩ := ih he
            exact ⟨o', List.mem_cons_of_mem _ ho', fun h => hnew (List.mem_cons_of_mem _ h), hrest⟩

/-- **Every new outcome with a snapshot becomes an example**, or another of
the same key does. -/
theorem exists_mem_labeledFrom (ho : o ∈ outcomes) (hnew : o.key ∉ seen)
    (hsnap : (snapshotOf snapshots o).isSome) :
    ∃ e ∈ labeledFrom snapshots seen outcomes, (e.tenantId, e.sourceOutcomeId) = o.key := by
  induction outcomes generalizing seen with
  | nil => cases ho
  | cons o' outcomes ih =>
      unfold labeledFrom
      by_cases hkey : o'.key = o.key
      · rw [hkey, if_neg hnew]
        cases hsnap' : snapshotOf snapshots o' with
        | some snap' => exact ⟨_, List.mem_cons_self, hkey⟩
        | none =>
            -- it is not the outcome itself, which has a snapshot
            rcases List.mem_cons.mp ho with rfl | ho
            · rw [hsnap'] at hsnap
              cases hsnap
            · exact ih ho hnew
      · have ho : o ∈ outcomes := by
          rcases List.mem_cons.mp ho with rfl | ho
          · exact absurd rfl hkey
          · exact ho
        split
        · exact ih ho hnew
        · split
          · exact ih ho hnew
          · have hnew' : o.key ∉ o'.key :: seen := by
              rw [List.mem_cons]
              rintro (heq | hmem)
              · exact hkey heq.symm
              · exact hnew hmem
            obtain ⟨e, he, hkey⟩ := ih ho hnew'
            exact ⟨e, List.mem_cons_of_mem _ he, hkey⟩

theorem exists_of_mem_toLabeledExamples (he : e ∈ toLabeledExamples outcomes snapshots seen) :
    ∃ o ∈ outcomes, o.key ∉ seen ∧ ∃ snap, snapshotOf snapshots o = some snap ∧
      e = labeledExample o snap := by
  obtain ⟨o, ho, hrest⟩ := exists_of_mem_labeledFrom he
  exact ⟨o, (List.perm_insertionSort _ _).mem_iff.mp ho, hrest⟩

theorem exists_mem_toLabeledExamples (ho : o ∈ outcomes) (hnew : o.key ∉ seen)
    (hsnap : (snapshotOf snapshots o).isSome) :
    ∃ e ∈ toLabeledExamples outcomes snapshots seen, (e.tenantId, e.sourceOutcomeId) = o.key :=
  exists_mem_labeledFrom ((List.perm_insertionSort _ _).mem_iff.mpr ho) hnew hsnap

end Feedback

end RetentionEngine
