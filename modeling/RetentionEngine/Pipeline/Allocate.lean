import RetentionEngine.Allocator.Selection
import RetentionEngine.Measurement.Assignment
import RetentionEngine.Pipeline.Policy

/-!
# ALLOCATE

`_allocate` and `_naive_arm` of `worker.pipeline`: every unit (a user or a
group) gets an arm; the ranked candidates of ENGINE units go to the
allocator and its selection becomes picks; every at-risk NAIVE user gets
the cheapest incentive the hard rules allow. A stage that raises is
`none`.
-/

namespace RetentionEngine

namespace Pipeline

variable {K : Type}

/-- `Pick`. -/
structure Pick (K : Type) where
  arm : Arm
  top : RankedCandidate K
  runnerUp : Option (RankedCandidate K)
  candidateIds : List String
  rank : Option ℕ
  policy : PolicyDecision
  groupId : Option String
  members : List String

/-- **Whom a pick targets**: its subject, or the members of its group. -/
def Pick.targets (p : Pick K) : List String :=
  if p.groupId = none then [p.top.candidate.userPseudonym] else p.members

variable [Field K] [LinearOrder K]

section Stages

variable (h : Hashes) (settings : PipelineSettings K) (store : StoreReads) (run : ScoredRun K)

/-- `set(run.users) | {_unit(c) for c in run.candidates}`, sorted. -/
def units : List String :=
  (run.users ++ (candidates h settings store run).map unit).dedup.insertionSort (· ≤ ·)

/-- `assign_arm` on a unit of the run. -/
def armOf (unit : String) : Except String Arm :=
  Measurement.assignArm h run.tenantId store.experimentId unit settings.measurementHmacSecret
    settings.measurementControlPct settings.measurementNaivePct

/-- `run.arms`. -/
def arms : Option (Dict String Arm) :=
  ((units h settings store run).mapM fun u =>
    (armOf h settings store run u).toOption.map fun arm => (u, arm)).map
      (Dict.ofList Prod.fst Prod.snd)

/-- The decision `exclude` appends to `extra`. -/
def excludeDecision (c : Candidate K) (reason : ExclusionReason) (priority : K) :
    AllocationDecision K where
  candidateId := c.candidateId
  choiceKey := unit c
  selected := false
  priority := priority
  costIdr := c.costIdr
  rank := none
  isRunnerUp := false
  exclusionReason := some reason

/-- `fmean`. -/
def fmean (xs : List K) : K := xs.sum / (xs.length : K)

/-- `_bundle_rep`; without members there is no first one to copy. -/
def bundleRep (members : List (RankedCandidate K)) (priority : K) : Option (RankedCandidate K) :=
  members.head?.map fun first =>
    { candidate := { first.candidate with
        candidateId := h.idOf "bundle"
          ((members.map fun m => m.candidate.candidateId).insertionSort (· ≤ ·))
        costIdr := (members.map fun m => m.candidate.costIdr).sum
        businessValueIdr := (members.map fun m => m.candidate.businessValueIdr).sum
        churnRisk := fmean (members.map fun m => m.candidate.churnRisk)
        impactScore := fmean (members.map fun m => m.candidate.impactScore) }
      priority := priority
      rankingStrategy := first.rankingStrategy }

/-- The ranked candidates of ENGINE units. -/
def engineRanked (arms : Dict String Arm) (ranked : List (RankedCandidate K)) :
    List (RankedCandidate K) :=
  ranked.filter fun r => arms.get? (unit r.candidate) = some .engine

/-- The pick of one choice key, if one of its decisions is selected. The
outer `none` is a lookup that raises. -/
def enginePick (v : Vetted) (engine : List (RankedCandidate K)) (key : String)
    (decisions : List (AllocationDecision K)) : Option (Option (Pick K)) :=
  let rankedById := Dict.ofList (fun r : RankedCandidate K => r.candidate.candidateId) id engine
  let chosen := decisions.filter AllocationDecision.selected
  match chosen with
  | [] => some none
  | first :: _ => do
      let runner := decisions.filter AllocationDecision.isRunnerUp
      let topMembers ← chosen.mapM fun d => rankedById.get? d.candidateId
      let runnerMembers ← runner.mapM fun d => rankedById.get? d.candidateId
      let policy ← v.decisions.get? first.candidateId
      if startsWith key "group:" then
        let top ← bundleRep h topMembers first.priority
        let runnerRep := runner.head?.bind fun d => bundleRep h runnerMembers d.priority
        return some {
          arm := .engine, top := top, runnerUp := runnerRep
          candidateIds := chosen.map AllocationDecision.candidateId
          rank := first.rank, policy := policy
          groupId := some (removePrefix key "group:")
          members := topMembers.map fun m => m.candidate.userPseudonym }
      else
        let top ← topMembers.head?
        return some {
          arm := .engine, top := top, runnerUp := runnerMembers.head?
          candidateIds := [first.candidateId]
          rank := first.rank, policy := policy, groupId := none, members := [] }

/-- The picks of the ENGINE arm, keys in order. -/
def enginePicks (v : Vetted) (engine : List (RankedCandidate K))
    (allocation : AllocationResult K) : Option (List (Pick K)) :=
  let byKey := Dict.groupBy AllocationDecision.choiceKey allocation.decisions
  ((byKey.entries.insertionSort fun p q => p.1 ≤ q.1).mapM fun p =>
    enginePick h v engine p.1 p.2).map List.reduceOption

/-- The individual candidates of NAIVE units, by user. -/
def naiveByUser (arms : Dict String Arm) : Dict String (List (Candidate K)) :=
  Dict.groupBy Candidate.userPseudonym ((candidates h settings store run).filter fun c =>
    arms.get? (unit c) = some .naive ∧ ¬ truthy c.groupId)

/-- `sorted(candidates, key=lambda c: (c.cost_idr, c.incentive_code))`. -/
def costLe (c d : Candidate K) : Prop :=
  c.costIdr < d.costIdr ∨ c.costIdr = d.costIdr ∧ c.incentiveCode ≤ d.incentiveCode

instance : DecidableRel (costLe (K := K)) := fun c d => inferInstanceAs
  (Decidable (c.costIdr < d.costIdr ∨ c.costIdr = d.costIdr ∧ c.incentiveCode ≤ d.incentiveCode))

/-- `RankedCandidate(candidate=c, priority=c.churn_risk, ...)`. -/
def naiveRanked (c : Candidate K) : RankedCandidate K := ⟨c, c.churnRisk, .naiveRiskOnly⟩

/-- The turn of one user in `_naive_arm`: his pick, if he gets one, and his
exclusions. -/
def naiveTurn (user : String) (userCandidates : List (Candidate K)) :
    Option (Option (Pick K) × List (AllocationDecision K)) :=
  if run.churnRiskOf user < settings.measurementNaiveRiskThreshold then
    some (none, userCandidates.map fun c => excludeDecision c .naiveBelowThreshold 0)
  else do
    let sorted := userCandidates.insertionSort costLe
    let allowed := sorted.filter fun c => (evaluateFor settings store run false c).allowed
    let denied := sorted.filter fun c => !(evaluateFor settings store run false c).allowed
    let excluded ← denied.mapM fun c =>
      (exclusionFor (evaluateFor settings store run false c) c.segment).map
        fun reason => excludeDecision c reason 0
    match allowed with
    | [] => return (none, excluded)
    | first :: rest =>
        return (some {
          arm := .naive, top := naiveRanked first, runnerUp := rest.head?.map naiveRanked
          candidateIds := [first.candidateId], rank := none
          policy := evaluateFor settings store run false first, groupId := none, members := [] },
          excluded ++ rest.map fun c => excludeDecision c .naiveNotChosen c.churnRisk)

/-- `_naive_arm`: the picks and what it excludes. -/
def naiveArm (arms : Dict String Arm) : Option (List (Pick K) × List (AllocationDecision K)) := do
  let grouped := ((candidates h settings store run).filter fun c =>
    arms.get? (unit c) = some .naive ∧ truthy c.groupId).map fun c =>
      excludeDecision c .naiveNotChosen 0
  let turns ← ((naiveByUser h settings store run arms).entries.insertionSort
    fun p q => p.1 ≤ q.1).mapM fun p => naiveTurn settings store run p.1 p.2
  return ((turns.map Prod.fst).reduceOption, grouped ++ turns.flatMap Prod.snd)

/-- The exclusions `_allocate` records itself: what POLICY excluded, NAIVE
units apart, and the held-out. -/
def allocateExclusions (v : Vetted) (arms : Dict String Arm) (ranked : List (RankedCandidate K)) :
    List (AllocationDecision K) :=
  ((candidates h settings store run).filterMap fun c =>
      if arms.get? (unit c) = some .naive then none
      else (v.exclusions.get? c.candidateId).map fun reason => excludeDecision c reason 0) ++
    (ranked.filter fun r => arms.get? (unit r.candidate) = some .control).map fun r =>
      excludeDecision r.candidate .controlHoldout r.priority

/-- What ALLOCATE leaves behind. -/
structure Allocated (K : Type) where
  arms : Dict String Arm
  engine : List (RankedCandidate K)
  allocation : AllocationResult K
  enginePicks : List (Pick K)
  naivePicks : List (Pick K)
  extra : List (AllocationDecision K)

/-- `run.picks`. -/
def Allocated.picks (a : Allocated K) : List (Pick K) := a.enginePicks ++ a.naivePicks

/-- `settings` as the allocator's config. -/
def allocatorConfig : Allocator.AllocatorConfig where
  strategy := settings.allocatorStrategy
  costScaleIdr := settings.allocatorCostScaleIdr
  maxDpCells := settings.allocatorMaxDpCells

/-- `_allocate`. -/
def allocate (v : Vetted) (ranked : List (RankedCandidate K)) : Option (Allocated K) := do
  let arms ← arms h settings store run
  let engine := engineRanked arms ranked
  let allocation ← (Allocator.allocate engine settings.defaultBudgetIdr
    (allocatorConfig settings)).toOption
  let enginePicks ← enginePicks h v engine allocation
  let (naivePicks, naiveExtra) ← naiveArm h settings store run arms
  return {
    arms := arms, engine := engine, allocation := allocation
    enginePicks := enginePicks, naivePicks := naivePicks
    extra := allocateExclusions h settings store run v arms ranked ++ naiveExtra }

/-- **The stages POLICY, RANK and ALLOCATE** of a run. -/
def decisionStages (regressor : Ranker.Regressor K) : Option (Allocated K) := do
  let v ← policy h settings store run
  let ranked ← rankStage h settings store run regressor v
  allocate h settings store run v ranked

end Stages

end Pipeline

end RetentionEngine
