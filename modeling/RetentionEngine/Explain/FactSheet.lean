import RetentionEngine.Contracts.Explanation
import RetentionEngine.Python.Round
import Mathlib.Data.List.Sort

/-!
# Fact sheets

`explain.fact_sheet.build_fact_sheet`: what the narrator may say of a
pick, every float rounded once. A fact sheet holds the ids of its
candidates, and these are hashed of the run they belong to.
-/

namespace RetentionEngine

namespace Explain

open Python (roundTo)

variable {K : Type} [Field K] [LinearOrder K] [FloorRing K]

/-- `_r(value)`, to `PROB_DECIMALS`. -/
def r (value : K) : K := roundTo 4 value

/-- `_pick`; a priority is rounded to `VALUE_DECIMALS`. -/
def pick (ranked : RankedCandidate K) (displayName : String) : PickFacts K where
  candidateId := ranked.candidate.candidateId
  incentiveCode := ranked.candidate.incentiveCode
  displayName := displayName
  costIdr := ranked.candidate.costIdr
  priority := roundTo 2 ranked.priority
  rankingStrategy := ranked.rankingStrategy.value

/-- `circle_facts`; a user without neighbours has none. -/
def circleFacts (activityWindowDays : ℤ) (circle : CircleSnapshot K) : Option (CircleFacts K) :=
  if 0 < circle.circleSize then
    some
      { circleSize := circle.circleSize
        neighborActivityRatioNow := r circle.neighborActivityRatioNow
        neighborActivityRatio30dAgo := r circle.neighborActivityRatio30dAgo
        deltaStability := r circle.deltaStability
        activityWindowDays := activityWindowDays
        patternType := circle.patternType.value }
  else none

/-- `impact_facts`; the second component is the model of the score. -/
def impactFacts (segment : ImpactSegment) (impact : ImpactScore K × String) : ImpactFacts K where
  pIncentivized := r impact.1.pIncentivized
  pNotIncentivized := r impact.1.pNotIncentivized
  impactScore := r impact.1.impactScore
  segment := segment.value
  model := impact.2

/-- The name of an incentive that is shown. -/
def displayNameOf (displayNames : String → Option String) (c : Candidate K) : String :=
  (displayNames c.incentiveCode).getD c.incentiveCode

/-- `build_fact_sheet`. -/
def buildFactSheet (candidate : RankedCandidate K) (risk : RiskScore K)
    (impact : Option (ImpactScore K × String)) (circle : Option (CircleSnapshot K))
    (policy : PolicyDecision) (allocation : AllocationFacts K)
    (runnerUp : Option (RankedCandidate K)) (displayNames : String → Option String)
    (externalSignal : Option (SignalFacts K)) (arm : Arm) (subjectType : SubjectType)
    (subjectRef : Option String) (memberCount : ℕ) (activityWindowDays : ℤ)
    (reasonFactors : List (ReasonFactor K)) : FactSheet K where
  subjectType := subjectType
  subjectRef := (subjectRef.filter fun ref => ref ≠ "").getD candidate.candidate.userPseudonym
  memberCount := memberCount
  arm := arm
  topPick := pick candidate (displayNameOf displayNames candidate.candidate)
  runnerUp := runnerUp.map fun ranked => pick ranked (displayNameOf displayNames ranked.candidate)
  risk := { risk with
    churnRisk := r risk.churnRisk
    externalSignalContribution := r risk.externalSignalContribution }
  circle := circle.bind (circleFacts activityWindowDays)
  impact := impact.map (impactFacts candidate.candidate.segment)
  externalSignal := externalSignal.map fun signal => { signal with value := r signal.value }
  policyOutcome := policy.outcome
  rulesChecked := (policy.results.map fun result => result.ruleCode.value).insertionSort (· ≤ ·)
  allocation := allocation
  reasonFactors := reasonFactors

end Explain

end RetentionEngine
