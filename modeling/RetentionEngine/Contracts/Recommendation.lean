import RetentionEngine.Common.Text
import Mathlib.Data.List.Basic

/-!
# The recommendation state machine

`core_contracts.recommendation`: the statuses, the frozen transition
table and `assert_transition`, which the repository calls before every
write of a status.
-/

namespace RetentionEngine

/-- `RecommendationStatus`. -/
inductive RecommendationStatus
  | draft
  | pendingApproval
  | approved
  | rejected
  | expired
  | delivered
  deriving DecidableEq, Repr

namespace RecommendationStatus

/-- The text a status is stored as. -/
def value : RecommendationStatus → String
  | draft => "DRAFT"
  | pendingApproval => "PENDING_APPROVAL"
  | approved => "APPROVED"
  | rejected => "REJECTED"
  | expired => "EXPIRED"
  | delivered => "DELIVERED"

/-- `ALLOWED_TRANSITIONS`. -/
def allowedTransitions : RecommendationStatus → List RecommendationStatus
  | draft => [pendingApproval]
  | pendingApproval => [approved, rejected, expired]
  | approved => [delivered]
  | rejected => []
  | expired => []
  | delivered => []

/-- `REVIEWER_REQUIRED`: the statuses only a human may write. -/
def reviewerRequired : List RecommendationStatus := [approved, rejected, delivered]

/-- `assert_transition`; the error is the text of its `IllegalTransition`. -/
def assertTransition (src dst : RecommendationStatus) (reviewerId : Option String) :
    Except String Unit :=
  if dst ∉ src.allowedTransitions then
    .error (src.value ++ " -> " ++ dst.value ++ " is not allowed")
  else if dst ∈ reviewerRequired ∧ ¬ ∃ r ∈ reviewerId, nonBlank r then
    .error (src.value ++ " -> " ++ dst.value ++ " requires a human reviewer id")
  else .ok ()

/-- **What `assert_transition` lets pass**: an allowed transition, with a
reviewer where one is required. -/
theorem assertTransition_eq_ok {src dst : RecommendationStatus} {reviewerId : Option String} :
    assertTransition src dst reviewerId = .ok () ↔ dst ∈ src.allowedTransitions ∧
      (dst ∈ reviewerRequired → ∃ r ∈ reviewerId, nonBlank r) := by
  unfold assertTransition
  by_cases hallowed : dst ∈ src.allowedTransitions
  · by_cases hreviewed : dst ∈ reviewerRequired ∧ ¬ ∃ r ∈ reviewerId, nonBlank r
    · rw [if_neg (not_not.mpr hallowed), if_pos hreviewed]
      exact ⟨fun h => (nomatch h), fun h => absurd (h.2 hreviewed.1) hreviewed.2⟩
    · rw [if_neg (not_not.mpr hallowed), if_neg hreviewed]
      exact ⟨fun _ => ⟨hallowed, fun hreq => not_not.mp fun hno => hreviewed ⟨hreq, hno⟩⟩,
        fun _ => rfl⟩
  · rw [if_pos hallowed]
    exact ⟨fun h => (nomatch h), fun h => absurd h.1 hallowed⟩

theorem eq_pending_of_approved {src : RecommendationStatus}
    (h : approved ∈ src.allowedTransitions) :
    src = pendingApproval := by
  revert h
  cases src <;> decide

theorem eq_pending_of_rejected {src : RecommendationStatus}
    (h : rejected ∈ src.allowedTransitions) :
    src = pendingApproval := by
  revert h
  cases src <;> decide

theorem eq_approved_of_delivered {src : RecommendationStatus}
    (h : delivered ∈ src.allowedTransitions) :
    src = approved := by
  revert h
  cases src <;> decide

/-- `_LIVE_STATUSES` of the repository: the offer stands. -/
def Live (s : RecommendationStatus) : Prop := s = approved ∨ s = delivered

instance : DecidablePred Live := fun s => inferInstanceAs (Decidable (s = approved ∨ s = delivered))

@[simp] theorem live_approved : Live approved := Or.inl rfl

@[simp] theorem live_delivered : Live delivered := Or.inr rfl

@[simp] theorem not_live_pendingApproval : ¬ Live pendingApproval := by decide

@[simp] theorem not_live_draft : ¬ Live draft := by decide

/-- **Only a pending recommendation can become live**, and it does by
being approved. -/
theorem eq_pending_of_live {src dst : RecommendationStatus}
    (h : dst ∈ allowedTransitions src) (hsrc : ¬ src.Live) (hdst : dst.Live) :
    src = pendingApproval ∧ dst = approved := by
  revert h hsrc hdst
  cases src <;> cases dst <;> decide

/-- **A live recommendation stays live.** -/
theorem live_of_live {src dst : RecommendationStatus}
    (h : dst ∈ allowedTransitions src) (hsrc : src.Live) : dst.Live := by
  revert h hsrc
  cases src <;> cases dst <;> decide

end RecommendationStatus

end RetentionEngine
