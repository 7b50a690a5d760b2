import RetentionEngine.Contracts.Event
import RetentionEngine.Contracts.Hashes
import RetentionEngine.GraphSignal.Circles
import RetentionEngine.PolicyGuard
import RetentionEngine.Ranker
import Mathlib.Data.List.Dedup

/-!
# A scored run

What a pipeline run holds when the stage POLICY starts: the events of the
window, the edges of the graph, and the scores of RISK and IMPACT. The
scores are arbitrary; what the stages derive from them and from the events
(the users, the circles, who has an impact score, the segments) is
computed as they do.
-/

namespace RetentionEngine

namespace Pipeline

variable {K : Type}

/-- The settings POLICY, RANK and ALLOCATE read, and the two thresholds of
the segments. -/
structure PipelineSettings (K : Type) where
  pipelineCircleMinSize : ℤ
  impactThreshold : K
  impactSureThingPNotIncentivized : K
  rankerMinContextRows : ℤ
  allocatorStrategy : String
  allocatorCostScaleIdr : ℤ
  allocatorMaxDpCells : ℤ
  defaultBudgetIdr : ℤ
  frequencyCapMaxContacts : Option ℤ
  frequencyCapWindowDays : Option ℤ
  responsibleLendingLookbackDays : ℤ
  responsibleLendingMinLateEvents : ℤ
  measurementControlPct : ℤ
  measurementNaivePct : ℤ
  measurementNaiveRiskThreshold : K
  measurementHmacSecret : String

/-- What the stages load from the store: the active incentives, whose codes
the table keeps distinct, the times a user was contacted, and the tenant's
experiment. -/
structure StoreReads where
  incentives : List Incentive
  contactTimes : String → List Timestamp
  experimentId : String
  nodup_codes : (incentives.map Incentive.code).Nodup

/-- **A scored run.** `impactScores` are the scores of the users in order,
or none at all; pseudonyms are digests. -/
structure ScoredRun (K : Type) where
  tenantId : String
  runId : String
  profileType : String
  now : Timestamp
  events : List CanonicalEvent
  edges : List Edge
  patternTypeOf : String → PatternType
  churnRiskOf : String → K
  impactScores : List (ImpactScore K)
  businessValueOf : String → ℤ
  labeled : List (LabeledExample K)
  hex_events : ∀ e ∈ events, IsHex e.userPseudonym
  hex_edges : ∀ e ∈ edges, IsHex e.userPseudonym ∧ IsHex e.counterpartyPseudonym

namespace ScoredRun

variable (run : ScoredRun K)

/-- `run.users`. -/
def users : List String :=
  (run.events.map CanonicalEvent.userPseudonym).dedup.insertionSort (· ≤ ·)

/-- `run.impact`. -/
def impact : Dict String (ImpactScore K) :=
  Dict.ofList Prod.fst Prod.snd (run.users.zip run.impactScores)

/-- `run.circles`. -/
def circles (h : Hashes) (settings : PipelineSettings K) : List Circle :=
  GraphSignal.findCircles h run.edges settings.pipelineCircleMinSize

/-- `scored_users` of `_policy`. -/
def scoredUsers : List String := run.users.filter fun u => (run.impact.get? u).isSome

variable {run} {u : String}

theorem nodup_users : run.users.Nodup :=
  (List.perm_insertionSort _ _).nodup_iff.mpr (List.nodup_dedup _)

theorem hex_of_mem_users (h : u ∈ run.users) : IsHex u := by
  unfold users at h
  rw [(List.perm_insertionSort _ _).mem_iff, List.mem_dedup] at h
  obtain ⟨e, he, rfl⟩ := List.mem_map.mp h
  exact run.hex_events e he

/-- **Who has an impact score is a user.** -/
theorem mem_users_of_impact (h : (run.impact.get? u).isSome) : u ∈ run.users := by
  obtain ⟨score, hscore⟩ := Option.isSome_iff_exists.mp h
  obtain ⟨p, hp, rfl, -⟩ := Dict.exists_of_get?_ofList hscore
  exact (List.of_mem_zip hp).1

theorem mem_scoredUsers : u ∈ run.scoredUsers ↔ (run.impact.get? u).isSome := by
  unfold scoredUsers
  rw [List.mem_filter]
  exact ⟨And.right, fun h => ⟨mem_users_of_impact h, h⟩⟩

end ScoredRun

/-- `impact.segment`. -/
def segment [Ring K] [LinearOrder K] (settings : PipelineSettings K) (score : ImpactScore K) :
    ImpactSegment :=
  if settings.impactThreshold < score.impactScore then .persuadable
  else if score.impactScore < -settings.impactThreshold then .sleepingDog
  else if settings.impactSureThingPNotIncentivized ≤ score.pNotIncentivized then .sureThing
  else .lostCause

/-- Python's truth of an optional text. -/
def truthy (text : Option String) : Prop := text ≠ none ∧ text ≠ some ""

instance : DecidablePred truthy := fun _ => inferInstanceAs (Decidable (_ ∧ _))

/-- `_unit`. -/
def unit (c : Candidate K) : String :=
  if truthy c.groupId then "group:" ++ c.groupId.getD "" else c.userPseudonym

end Pipeline

end RetentionEngine
