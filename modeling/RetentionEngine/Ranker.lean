import RetentionEngine.Contracts.Decision
import Mathlib.Data.List.Sort
import Mathlib.Data.String.Basic

/-!
# The ranker

`ranker.context` and `ranker.ranker`. The in-context regression is a
parameter: whatever model is fitted, it predicts one number for every
query row.
-/

namespace RetentionEngine

namespace Ranker

variable {K : Type}

/-- `RankerContext`. -/
structure RankerContext (K : Type) where
  X : List (List K)
  y : List K

/-- `_regress`: the predictions for the query rows and the strategy they
came by. -/
structure Regressor (K : Type) where
  regress : RankerContext K → List (List K) → List K × RankingStrategy
  length_eq : ∀ context query, (regress context query).1.length = query.length

variable [Ring K]

/-- `row`; the columns are `RANKER_COLUMNS`. -/
def row (impactScore churnRisk : K) (patternType : Option PatternType)
    (costIdr businessValueIdr : ℤ) : List K :=
  let pattern := patternType.getD .stable
  [impactScore, churnRisk, if pattern = .circleSpecific then 1 else 0,
    if pattern = .marketDriven then 1 else 0, if pattern = .stable then 1 else 0,
    (costIdr : K), (businessValueIdr : K)]

/-- `build_context`; the error is the text of its `CrossTenantContext`. -/
def buildContext (labeledExamples : List (LabeledExample K)) : Except String (RankerContext K) :=
  let examples := labeledExamples.insertionSort fun e f => e.sourceOutcomeId ≤ f.sourceOutcomeId
  let tenants := (examples.map LabeledExample.tenantId).dedup
  if 1 < tenants.length then
    .error ("ranker context spans " ++ toString tenants.length ++ " tenants")
  else
    let usable := examples.filterMap fun e =>
      match e.treated, e.impactScore, e.churnRisk with
      | true, some impactScore, some churnRisk =>
          some (row impactScore churnRisk e.patternType e.costIdr e.businessValueIdr,
            e.realizedValueIdr)
      | _, _, _ => none
    .ok ⟨usable.map Prod.fst, usable.map Prod.snd⟩

/-- `_candidate_row`. -/
def candidateRow (c : Candidate K) : List K :=
  row c.impactScore c.churnRisk (some c.patternType) c.costIdr c.businessValueIdr

variable (regressor : Regressor K)

/-- The priorities of the sorted candidates and their strategy. -/
def priorities (context : RankerContext K) (candidates : List (Candidate K))
    (minContextRows : ℤ) : List K × RankingStrategy :=
  if (context.X.length : ℤ) < minContextRows then
    (candidates.map fun c => c.impactScore * (c.businessValueIdr : K), .fallback)
  else regressor.regress context (candidates.map candidateRow)

variable {regressor} {context : RankerContext K} {candidates : List (Candidate K)}
  {minContextRows : ℤ}

theorem length_priorities (regressor : Regressor K) (context : RankerContext K)
    (candidates : List (Candidate K)) (minContextRows : ℤ) :
    (priorities regressor context candidates minContextRows).1.length = candidates.length := by
  unfold priorities
  split
  · simp
  · simp [regressor.length_eq]

variable [LinearOrder K]

/-- The order of `key=lambda r: (-r.priority, r.candidate.candidate_id)`. -/
def rankLe (r s : RankedCandidate K) : Prop :=
  s.priority < r.priority ∨
    r.priority = s.priority ∧ r.candidate.candidateId ≤ s.candidate.candidateId

instance : DecidableRel (rankLe (K := K)) := fun r s => inferInstanceAs
  (Decidable (s.priority < r.priority ∨
    r.priority = s.priority ∧ r.candidate.candidateId ≤ s.candidate.candidateId))

/-- `rank`. -/
def rank (regressor : Regressor K) (context : RankerContext K) (candidates : List (Candidate K))
    (minContextRows : ℤ) : List (RankedCandidate K) :=
  let candidates := candidates.insertionSort fun c d => c.candidateId ≤ d.candidateId
  let scored := priorities regressor context candidates minContextRows
  ((candidates.zip scored.1).map fun p => ⟨p.1, p.2, scored.2⟩).insertionSort rankLe

/-- **Ranking loses and adds no candidate.** -/
theorem perm_map_candidate_rank :
    ((rank regressor context candidates minContextRows).map RankedCandidate.candidate).Perm
      candidates := by
  unfold rank
  dsimp only
  have hperm := List.perm_insertionSort (fun c d : Candidate K => c.candidateId ≤ d.candidateId)
    candidates
  generalize candidates.insertionSort (fun c d => c.candidateId ≤ d.candidateId) = sorted at hperm
  have hlen := length_priorities regressor context sorted minContextRows
  generalize priorities regressor context sorted minContextRows = scored at hlen
  refine ((List.perm_insertionSort _ _).map _).trans (.trans (.of_eq ?_) hperm)
  rw [List.map_map]
  exact List.map_fst_zip hlen.ge

end Ranker

end RetentionEngine
