import RetentionEngine.Contracts.Decision
import Mathlib.Data.Int.Basic

/-!
# The policy guard

`policy_guard.rules` and `policy_guard.guard`: the four hard rules with the
texts of their results, and `evaluate`, which runs them all. A `timedelta`
of days is that many times 86400 seconds.
-/

namespace RetentionEngine

namespace PolicyGuard

variable {K : Type*}

/-- `EXCLUDED_SEGMENTS`. -/
def excludedSegments : List ImpactSegment := [.sureThing, .lostCause, .sleepingDog]

/-- `_ok`. -/
def ok (code : RuleCode) : RuleResult := ⟨code, true, "passed"⟩

/-- The times of `times` within the `days` before `now`, both ends included. -/
def countSince (now : Timestamp) (days : ℤ) (times : List Timestamp) : ℕ :=
  (times.filter fun t => now - 86400 * days ≤ t ∧ t ≤ now).length

/-- `responsible_lending`. -/
def responsibleLending (c : Candidate K) (facts : UserFacts) (lookbackDays minLateEvents : ℤ) :
    RuleResult :=
  if !c.encouragesBorrowing then ok .responsibleLending
  else
    let late := countSince facts.now lookbackDays facts.lateRepaymentAt
    if minLateEvents ≤ late then
      ⟨.responsibleLending, false, "borrowing incentive denied: " ++ toString late ++
        " late repayment(s) in " ++ toString lookbackDays ++ " days"⟩
    else ok .responsibleLending

/-- `frequency_cap`, which fails closed when the cap is not configured. -/
def frequencyCap (facts : UserFacts) (maxContacts windowDays : Option ℤ) : RuleResult :=
  match maxContacts, windowDays with
  | some maxContacts, some windowDays =>
      let contacts := countSince facts.now windowDays facts.contactedAt
      if maxContacts ≤ contacts then
        ⟨.frequencyCap, false, toString contacts ++ " contact(s) in " ++ toString windowDays ++
          " days reaches cap " ++ toString maxContacts⟩
      else ok .frequencyCap
  | _, _ =>
      ⟨.frequencyCap, false, "frequency cap not configured (open decision); failing closed"⟩

/-- `no_credit_decision`. -/
def noCreditDecision (c : Candidate K) : RuleResult :=
  if c.changesCreditTerms then
    ⟨.noCreditDecision, false,
      "incentive changes credit limit or pricing; not an engagement action"⟩
  else ok .noCreditDecision

/-- `segment_excluded`. -/
def segmentExcluded (c : Candidate K) : RuleResult :=
  if c.segment ∈ excludedSegments then
    ⟨.segmentExcluded, false, "segment " ++ c.segment.value ++ " is not worth an incentive"⟩
  else ok .segmentExcluded

/-- `PolicyConfig`. -/
structure PolicyConfig where
  responsibleLendingLookbackDays : ℤ
  responsibleLendingMinLateEvents : ℤ
  frequencyCapMaxContacts : Option ℤ
  frequencyCapWindowDays : Option ℤ
  applySegmentRule : Bool
  deriving DecidableEq, Repr

variable (c : Candidate K) (facts : UserFacts) (config : PolicyConfig)

/-- The results `evaluate` collects. -/
def results : List RuleResult :=
  [responsibleLending c facts config.responsibleLendingLookbackDays
      config.responsibleLendingMinLateEvents,
    frequencyCap facts config.frequencyCapMaxContacts config.frequencyCapWindowDays,
    noCreditDecision c] ++ if config.applySegmentRule then [segmentExcluded c] else []

/-- `evaluate`. -/
def evaluate : PolicyDecision where
  candidateId := c.candidateId
  userPseudonym := c.userPseudonym
  outcome := if (results c facts config).all RuleResult.allowed then "ALLOW" else "DENY"
  results := results c facts config

/-! ## What the guard allows -/

variable {c facts config}

/-- **ALLOW means that no rule denies.** -/
theorem allowed_evaluate_iff :
    (evaluate c facts config).allowed = true ↔
      ∀ r ∈ results c facts config, r.allowed = true := by
  unfold PolicyDecision.allowed evaluate
  rw [decide_eq_true_eq, ← List.all_eq_true]
  constructor
  · intro h
    by_contra hnot
    rw [if_neg hnot] at h
    exact absurd (show "DENY" = "ALLOW" from h) (by decide)
  · intro h
    exact if_pos h

/-- **With the segment rule only PERSUADABLE users are allowed.** -/
theorem persuadable_of_allowed (happly : config.applySegmentRule = true)
    (h : (evaluate c facts config).allowed) : c.segment = .persuadable := by
  have hseg := allowed_evaluate_iff.mp h (segmentExcluded c) (by simp [results, happly])
  unfold segmentExcluded at hseg
  split at hseg
  · cases hseg
  · rename_i hnot
    revert hnot
    cases c.segment <;> decide

/-- **The frequency cap, configured, counts the contacts in its window.** -/
theorem frequencyCap_allowed_iff {m w : ℤ} :
    (frequencyCap facts (some m) (some w)).allowed = true ↔
      (countSince facts.now w facts.contactedAt : ℤ) < m := by
  unfold frequencyCap
  dsimp only
  split
  · rename_i hreached
    simpa using hreached
  · rename_i hbelow
    simpa [ok] using hbelow

/-- **The lending rule counts the late repayments in its window**, for an
incentive that encourages borrowing. -/
theorem responsibleLending_allowed_iff {lookbackDays minLateEvents : ℤ} :
    (responsibleLending c facts lookbackDays minLateEvents).allowed = true ↔
      (c.encouragesBorrowing = true →
        (countSince facts.now lookbackDays facts.lateRepaymentAt : ℤ) < minLateEvents) := by
  unfold responsibleLending
  cases hborrow : c.encouragesBorrowing with
  | false => simp [ok]
  | true =>
      dsimp only
      split
      · rename_i hnot
        cases hnot
      · split
        · rename_i hreached
          simpa using hreached
        · rename_i hbelow
          simpa [ok] using hbelow

/-- The lending rule is one of the results. -/
theorem responsibleLending_of_allowed (h : (evaluate c facts config).allowed) :
    (responsibleLending c facts config.responsibleLendingLookbackDays
      config.responsibleLendingMinLateEvents).allowed :=
  allowed_evaluate_iff.mp h _ (by simp [results])

/-- The cap rule is one of the results. -/
theorem frequencyCap_of_allowed (h : (evaluate c facts config).allowed) :
    (frequencyCap facts config.frequencyCapMaxContacts config.frequencyCapWindowDays).allowed :=
  allowed_evaluate_iff.mp h _ (by simp [results])

end PolicyGuard

end RetentionEngine
