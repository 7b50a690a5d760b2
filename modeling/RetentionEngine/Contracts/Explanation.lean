import RetentionEngine.Contracts.Decision
import RetentionEngine.Schema.Recommendation

/-!
# Explanation types

`core_contracts.external`, the scores and figures EXPLAIN reads, and the
fact sheet it makes of them. The dictionaries of a fact sheet have fixed
keys and are structures here.
-/

namespace RetentionEngine

/-- `ScopeType`. -/
inductive ScopeType
  | client
  | region
  | cohort
  deriving DecidableEq, Repr

/-- The text of a scope. -/
def ScopeType.value : ScopeType → String
  | client => "CLIENT"
  | region => "REGION"
  | cohort => "COHORT"

/-- `SignalType`. -/
inductive SignalType
  | newsSentiment
  | socialSentiment
  | sectorTrend
  deriving DecidableEq, Repr

/-- The text of a signal type. -/
def SignalType.value : SignalType → String
  | newsSentiment => "NEWS_SENTIMENT"
  | socialSentiment => "SOCIAL_SENTIMENT"
  | sectorTrend => "SECTOR_TREND"

/-- The text of a pattern type. -/
def PatternType.value : PatternType → String
  | circleSpecific => "CIRCLE_SPECIFIC"
  | marketDriven => "MARKET_DRIVEN"
  | stable => "STABLE"

/-- The text of a ranking strategy. -/
def RankingStrategy.value : RankingStrategy → String
  | tabpfn => "TABPFN"
  | sklearnStandIn => "SKLEARN_STAND_IN"
  | fallback => "FALLBACK"
  | naiveRiskOnly => "NAIVE_RISK_ONLY"

/-- `RiskScore`, as EXPLAIN reads it. -/
structure RiskScore (K : Type*) where
  churnRisk : K
  model : String
  externalSignalContribution : K
  deriving DecidableEq, Repr

/-- `CircleSnapshot` of a user. -/
structure CircleSnapshot (K : Type*) where
  circleSize : ℤ
  neighborActivityRatioNow : K
  neighborActivityRatio30dAgo : K
  deltaStability : K
  patternType : PatternType
  deriving DecidableEq, Repr

/-- The scope, type and value of an `ExternalSignal`. -/
structure SignalFacts (K : Type*) where
  scopeType : ScopeType
  scopeKey : String
  signalType : SignalType
  value : K
  deriving DecidableEq, Repr

/-- `ReasonFactor`; its evidence is a pattern type or nothing. -/
structure ReasonFactor (K : Type*) where
  code : String
  direction : String
  weight : K
  evidence : List (String × String)
  deriving DecidableEq, Repr

/-- `top_pick` and `runner_up` of a fact sheet. -/
structure PickFacts (K : Type*) where
  candidateId : String
  incentiveCode : String
  displayName : String
  costIdr : ℤ
  priority : K
  rankingStrategy : String
  deriving DecidableEq, Repr

/-- `circle`. -/
structure CircleFacts (K : Type*) where
  circleSize : ℤ
  neighborActivityRatioNow : K
  neighborActivityRatio30dAgo : K
  deltaStability : K
  activityWindowDays : ℤ
  patternType : String
  deriving DecidableEq, Repr

/-- `impact`. -/
structure ImpactFacts (K : Type*) where
  pIncentivized : K
  pNotIncentivized : K
  impactScore : K
  segment : String
  model : String
  deriving DecidableEq, Repr

/-- `allocation`, of an ENGINE or of a NAIVE pick. -/
inductive AllocationFacts (K : Type*)
  | engine (strategy : String) (budgetIdr spentIdr : ℤ) (selectedCount : ℕ) (rank : Option ℕ)
  | naive (strategy : String) (riskThreshold : K)
  deriving DecidableEq, Repr

/-- `FactSheet`; `synthetic_data`, always true, is left out. -/
structure FactSheet (K : Type*) where
  subjectType : SubjectType
  subjectRef : String
  memberCount : ℕ
  arm : Arm
  topPick : PickFacts K
  runnerUp : Option (PickFacts K)
  risk : RiskScore K
  circle : Option (CircleFacts K)
  impact : Option (ImpactFacts K)
  externalSignal : Option (SignalFacts K)
  policyOutcome : String
  rulesChecked : List String
  allocation : AllocationFacts K
  reasonFactors : List (ReasonFactor K)
  deriving DecidableEq, Repr

end RetentionEngine
