import RetentionEngine.Schema.Columns
import Mathlib.Algebra.Field.Defs
import Mathlib.Data.List.Basic

/-!
# Decision engine types

`core_contracts.decision`, `scores`, `incentives`, `graph` and
`measurement`, as the stages POLICY, RANK and ALLOCATE use them. A float
of the source (a score, a priority) is a value of `K`, which the modules
that compute with it take to be a linearly ordered field; an amount of
rupiah is an integer.
-/

namespace RetentionEngine

/-- `PatternType`. -/
inductive PatternType
  | circleSpecific
  | marketDriven
  | stable
  deriving DecidableEq, Repr

/-- `ImpactSegment`. -/
inductive ImpactSegment
  | persuadable
  | sureThing
  | lostCause
  | sleepingDog
  deriving DecidableEq, Repr

/-- The text of a segment. -/
def ImpactSegment.value : ImpactSegment → String
  | persuadable => "PERSUADABLE"
  | sureThing => "SURE_THING"
  | lostCause => "LOST_CAUSE"
  | sleepingDog => "SLEEPING_DOG"

/-- `Arm`. -/
inductive Arm
  | control
  | naive
  | engine
  deriving DecidableEq, Repr

/-- `Incentive`, its display name and activity left out: only active
incentives are loaded. -/
structure Incentive where
  code : String
  costIdr : ℤ
  encouragesBorrowing : Bool
  changesCreditTerms : Bool
  isGroup : Bool
  applicableProfileTypes : List String
  deriving DecidableEq, Repr

/-- `ImpactScore`. -/
structure ImpactScore (K : Type*) where
  pIncentivized : K
  pNotIncentivized : K
  deriving DecidableEq, Repr

/-- The computed field `impact_score`. -/
def ImpactScore.impactScore {K : Type*} [Sub K] (s : ImpactScore K) : K :=
  s.pIncentivized - s.pNotIncentivized

/-- `Candidate`: one (user, incentive) pair. -/
structure Candidate (K : Type*) where
  candidateId : String
  tenantId : String
  userPseudonym : String
  incentiveCode : String
  costIdr : ℤ
  businessValueIdr : ℤ
  encouragesBorrowing : Bool
  changesCreditTerms : Bool
  groupId : Option String
  churnRisk : K
  impactScore : K
  segment : ImpactSegment
  patternType : PatternType
  deriving DecidableEq, Repr

/-- `UserFacts`. -/
structure UserFacts where
  userPseudonym : String
  now : Timestamp
  lateRepaymentAt : List Timestamp
  contactedAt : List Timestamp
  deriving DecidableEq, Repr

/-- `RuleCode`. -/
inductive RuleCode
  | responsibleLending
  | frequencyCap
  | noCreditDecision
  | segmentExcluded
  deriving DecidableEq, Repr

/-- The text of a rule code. -/
def RuleCode.value : RuleCode → String
  | responsibleLending => "RESPONSIBLE_LENDING"
  | frequencyCap => "FREQUENCY_CAP"
  | noCreditDecision => "NO_CREDIT_DECISION"
  | segmentExcluded => "SEGMENT_EXCLUDED"

/-- `RuleResult`. -/
structure RuleResult where
  ruleCode : RuleCode
  allowed : Bool
  reason : String
  deriving DecidableEq, Repr

/-- `PolicyDecision`. -/
structure PolicyDecision where
  candidateId : String
  userPseudonym : String
  outcome : String
  results : List RuleResult
  deriving DecidableEq, Repr

/-- The property `allowed`. -/
def PolicyDecision.allowed (d : PolicyDecision) : Bool := d.outcome = "ALLOW"

/-- The property `denials`. -/
def PolicyDecision.denials (d : PolicyDecision) : List RuleResult :=
  d.results.filter fun r => !r.allowed

/-- `RankingStrategy`. -/
inductive RankingStrategy
  | tabpfn
  | sklearnStandIn
  | fallback
  | naiveRiskOnly
  deriving DecidableEq, Repr

/-- `RankedCandidate`. -/
structure RankedCandidate (K : Type*) where
  candidate : Candidate K
  priority : K
  rankingStrategy : RankingStrategy
  deriving DecidableEq, Repr

/-- `ExclusionReason`. -/
inductive ExclusionReason
  | budgetExhausted
  | runnerUp
  | noExpectedGain
  | policyDenied
  | policyResponsibleLending
  | policyFrequencyCap
  | policyNoCreditDecision
  | segmentSureThing
  | segmentLostCause
  | segmentSleepingDog
  | groupMemberDenied
  | controlHoldout
  | impactUnavailable
  | naiveBelowThreshold
  | naiveNotChosen
  deriving DecidableEq, Repr

/-- The text of an exclusion reason. -/
def ExclusionReason.value : ExclusionReason → String
  | budgetExhausted => "BUDGET_EXHAUSTED"
  | runnerUp => "RUNNER_UP"
  | noExpectedGain => "NO_EXPECTED_GAIN"
  | policyDenied => "POLICY_DENIED"
  | policyResponsibleLending => "POLICY_RESPONSIBLE_LENDING"
  | policyFrequencyCap => "POLICY_FREQUENCY_CAP"
  | policyNoCreditDecision => "POLICY_NO_CREDIT_DECISION"
  | segmentSureThing => "SEGMENT_SURE_THING"
  | segmentLostCause => "SEGMENT_LOST_CAUSE"
  | segmentSleepingDog => "SEGMENT_SLEEPING_DOG"
  | groupMemberDenied => "GROUP_MEMBER_DENIED"
  | controlHoldout => "CONTROL_HOLDOUT"
  | impactUnavailable => "IMPACT_UNAVAILABLE"
  | naiveBelowThreshold => "NAIVE_BELOW_THRESHOLD"
  | naiveNotChosen => "NAIVE_NOT_CHOSEN"

/-- `ExclusionReason(text)`; `none` stands for its `ValueError`. -/
def ExclusionReason.ofValue (text : String) : Option ExclusionReason :=
  [budgetExhausted, runnerUp, noExpectedGain, policyDenied, policyResponsibleLending,
    policyFrequencyCap, policyNoCreditDecision, segmentSureThing, segmentLostCause,
    segmentSleepingDog, groupMemberDenied, controlHoldout, impactUnavailable,
    naiveBelowThreshold, naiveNotChosen].find? fun r => r.value = text

/-- `AllocationDecision`. -/
structure AllocationDecision (K : Type*) where
  candidateId : String
  choiceKey : String
  selected : Bool
  priority : K
  costIdr : ℤ
  rank : Option ℕ
  isRunnerUp : Bool
  exclusionReason : Option ExclusionReason
  deriving DecidableEq, Repr

/-- `AllocationResult`. -/
structure AllocationResult (K : Type*) where
  strategy : String
  budgetIdr : ℤ
  spentIdr : ℤ
  objectiveValueIdr : K
  decisions : List (AllocationDecision K)
  deriving DecidableEq, Repr

/-- `Edge`: the endpoints, which is what circles are made of. -/
structure Edge where
  userPseudonym : String
  counterpartyPseudonym : String
  deriving DecidableEq, Repr

/-- `Circle`. -/
structure Circle where
  circleId : String
  members : List String
  deriving DecidableEq, Repr

/-- `LabeledExample`, as the ranker's context reads it. -/
structure LabeledExample (K : Type*) where
  tenantId : String
  sourceOutcomeId : String
  treated : Bool
  churnRisk : Option K
  impactScore : Option K
  patternType : Option PatternType
  costIdr : ℤ
  businessValueIdr : ℤ
  realizedValueIdr : K
  deriving DecidableEq, Repr

end RetentionEngine
