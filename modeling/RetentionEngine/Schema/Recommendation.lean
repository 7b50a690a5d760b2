import RetentionEngine.Contracts.Recommendation
import RetentionEngine.Schema.Columns
import Mathlib.Logic.Function.Basic

/-!
# The `recommendations` table

Migration 0004's columns and CHECK constraints, and the BEFORE UPDATE
trigger of migration 0006. A column that a CHECK limits to fixed texts
(`status`, `subject_type`) has the type of those texts, so
`ck_recommendations_status` and `ck_recommendations_subject_type` hold of
every value of the row type; the other four constraints are `Checks`.
A JSONB column is its text.
-/

namespace RetentionEngine

/-- `subject_type IN ('USER','GROUP')`. -/
inductive SubjectType
  | user
  | group
  deriving DecidableEq, Repr

/-- A row of `recommendations`. -/
structure RecommendationRow where
  id : Uuid
  tenantId : Uuid
  allocationRunId : Uuid
  allocationCandidateId : Option Uuid
  subjectType : SubjectType
  userPseudonym : Option String
  circleId : Option Uuid
  incentiveCode : String
  costIdr : ℤ
  priorityIdr : ℤ
  userRank : ℤ
  isRunnerUp : Bool
  status : RecommendationStatus
  reasonText : Option String
  reasonFactors : String
  reasonSource : Option String
  factSheetHash : Option String
  createdAt : Timestamp
  submittedAt : Option Timestamp
  reviewedBy : Option String
  reviewedAt : Option Timestamp
  reviewNote : Option String
  deliveredAt : Option Timestamp
  deliveryRef : Option String
  deriving DecidableEq, Repr

namespace RecommendationRow

variable (r : RecommendationRow)

/-- `ck_recommendations_subject_exclusive`. -/
def SubjectExclusive : Prop :=
  (r.subjectType = .user ∧ r.userPseudonym ≠ none ∧ r.circleId = none) ∨
    (r.subjectType = .group ∧ r.circleId ≠ none ∧ r.userPseudonym = none)

/-- `ck_recommendations_approved_needs_reviewer`. -/
def ApprovedNeedsReviewer : Prop :=
  r.status ≠ .approved ∨ (r.reviewedBy ≠ none ∧ r.reviewedAt ≠ none)

/-- `ck_recommendations_rejected_needs_reviewer`. -/
def RejectedNeedsReviewer : Prop :=
  r.status ≠ .rejected ∨ (r.reviewedBy ≠ none ∧ r.reviewedAt ≠ none)

/-- `ck_recommendations_delivered_needs_review_and_delivery`. -/
def DeliveredNeedsReviewAndDelivery : Prop :=
  r.status ≠ .delivered ∨ (r.reviewedBy ≠ none ∧ r.deliveredAt ≠ none)

/-- **The CHECK constraints of the table**, on one row. -/
def Checks : Prop :=
  r.SubjectExclusive ∧ r.ApprovedNeedsReviewer ∧ r.RejectedNeedsReviewer ∧
    r.DeliveredNeedsReviewAndDelivery

instance : Decidable r.Checks := by
  unfold Checks SubjectExclusive ApprovedNeedsReviewer RejectedNeedsReviewer
    DeliveredNeedsReviewAndDelivery
  infer_instance

end RecommendationRow

/-- `check_recommendation_transition`, the body of the BEFORE UPDATE
trigger: an unchanged status passes, any other change must be one of the
five the function lists. -/
def checkRecommendationTransition (old new : RecommendationStatus) : Bool :=
  new = old ||
    ((old = .draft && new = .pendingApproval) ||
      (old = .pendingApproval && (new = .approved || new = .rejected || new = .expired)) ||
      (old = .approved && new = .delivered))

/-- **The trigger mirrors the frozen table** of the core contracts, as
its docstring promises: a status may stay or take an allowed
transition. -/
theorem checkRecommendationTransition_iff (old new : RecommendationStatus) :
    checkRecommendationTransition old new = true ↔ new = old ∨ new ∈ old.allowedTransitions := by
  cases old <;> cases new <;> decide

/-- The table, by primary key. -/
abbrev RecommendationTable := Uuid → Option RecommendationRow

/-- The table the migrations leave behind. -/
def RecommendationTable.empty : RecommendationTable := fun _ => none

end RetentionEngine
