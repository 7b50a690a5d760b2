import RetentionEngine.Pipeline.HardRules
import RetentionEngine.Python.Round
import RetentionEngine.Store.Recommendations
import Mathlib.Algebra.Order.Floor.Defs

/-!
# PERSIST

`_persist` of `worker.pipeline`, and what `PostgresPipelineStore` does in
the calls that lead up to it: `save_circles`, `save_allocation`,
`create_recommendations` and `save_feature_snapshots`, each one committed
transaction. The texts of EXPLAIN are arbitrary. A UUID that a call mints
is the next number; columns nothing here reads are left out.
-/

namespace RetentionEngine

namespace Pipeline

open Python (roundHalfEven)

variable {K : Type}

/-- An entry of `run.narrations`. -/
structure Narration where
  text : String
  source : String
  factSheetHash : String

/-- What one execution reads and computes: the events and scores, what is
loaded from the store, and the texts of EXPLAIN. -/
structure Inputs (K : Type) where
  store : StoreReads
  run : ScoredRun K
  regressor : Ranker.Regressor K
  narrations : ℕ → Narration

/-- `core_contracts.Recommendation`, as the worker builds it: nobody has
reviewed it. -/
structure Recommendation (K : Type) where
  recommendationId : String
  tenantId : String
  runId : String
  candidateId : String
  arm : Arm
  status : RecommendationStatus
  incentiveCode : String
  costIdr : ℤ
  priority : K
  userPseudonym : Option String
  groupId : Option String
  memberPseudonyms : List String
  runnerUpCandidateId : Option String
  reasonText : String
  reasonSource : String
  factSheetHash : String
  createdAt : Timestamp

/-- `core_contracts.FeatureSnapshot`, the features apart. -/
structure FeatureSnapshot (K : Type) where
  runId : String
  userPseudonym : String
  churnRisk : K
  impactScore : Option K
  patternType : PatternType
  incentiveCode : Option String
  costIdr : ℤ
  businessValueIdr : ℤ

/-- The recommendation of a pick. -/
def recommendation (h : Hashes) (run : ScoredRun K) (narration : Narration) (pick : Pick K) :
    Recommendation K :=
  let c := pick.top.candidate
  { recommendationId := h.idOf "rec" (run.runId :: pick.candidateIds)
    tenantId := run.tenantId
    runId := run.runId
    candidateId := c.candidateId
    arm := pick.arm
    status := .pendingApproval
    incentiveCode := c.incentiveCode
    costIdr := c.costIdr
    priority := pick.top.priority
    userPseudonym := if truthy pick.groupId then none else some c.userPseudonym
    groupId := pick.groupId
    memberPseudonyms := pick.members
    runnerUpCandidateId := pick.runnerUp.map fun r => r.candidate.candidateId
    reasonText := narration.text
    reasonSource := narration.source
    factSheetHash := narration.factSheetHash
    createdAt := run.now }

/-- `recommendations` of `_persist`, pick by pick. -/
def recommendations (h : Hashes) (run : ScoredRun K) (narrations : ℕ → Narration)
    (picks : List (Pick K)) : List (Recommendation K) :=
  picks.zipIdx.map fun p => recommendation h run (narrations p.2) p.1

/-- `pick_of`: a user's last pick. -/
def pickOf (picks : List (Pick K)) : Dict String (Pick K) :=
  Dict.ofList Prod.fst Prod.snd (picks.flatMap fun p =>
    (if p.members = [] then [p.top.candidate.userPseudonym] else p.members).map fun u => (u, p))

/-- `snapshots` of `_persist`; a pick's incentive is one that was loaded. -/
def featureSnapshots [Ring K] (store : StoreReads) (run : ScoredRun K) (picks : List (Pick K)) :
    List (FeatureSnapshot K) :=
  run.users.map fun user =>
    let code := ((pickOf picks).get? user).map fun p => p.top.candidate.incentiveCode
    { runId := run.runId
      userPseudonym := user
      churnRisk := run.churnRiskOf user
      impactScore := (run.impact.get? user).map ImpactScore.impactScore
      patternType := run.patternTypeOf user
      incentiveCode := code
      costIdr := ((store.incentives.find? fun i => some i.code = code).map Incentive.costIdr).getD 0
      businessValueIdr := run.businessValueOf user }

/-! ## The store -/

/-- The tables the calls write, for one run: `circle_members` by circle,
`recommendations`, `feature_snapshots`, and the next UUID. -/
structure Tables (K : Type) where
  circles : Dict Uuid (List String)
  recommendations : List RecommendationRow
  featureSnapshots : List (FeatureSnapshot K)
  nextId : Uuid

/-- The caches of a `PostgresPipelineStore`, built fresh for an execution. -/
structure StoreCache where
  circleIdByStr : Dict String Uuid
  allocationRunId : Option Uuid
  allocCandidateRowIdByCandidateId : Dict String Uuid

/-- The caches of a new store. -/
def StoreCache.fresh : StoreCache := ⟨.empty, none, .empty⟩

/-- How a store call fails. -/
inductive StoreError
  | runtimeError (text : String)
  | lookupError (text : String)
  | integrityError (constraint : String)
  deriving DecidableEq, Repr

/-- `{type(exc).__name__}: {exc}`, of the constraint its name only. -/
def StoreError.text : StoreError → String
  | runtimeError text => "RuntimeError: " ++ text
  | lookupError text => "LookupError: " ++ text
  | integrityError constraint => "IntegrityError: " ++ constraint

variable (tables : Tables K) (cache : StoreCache)

/-- The body of the loop of `save_circles`. -/
def saveCircle (s : Tables K × StoreCache) (circle : Circle) : Tables K × StoreCache :=
  ({ s.1 with
      circles := s.1.circles.set s.1.nextId circle.members
      nextId := s.1.nextId + 1 },
    { s.2 with circleIdByStr := s.2.circleIdByStr.set circle.circleId s.1.nextId })

/-- `save_circles`. -/
def saveCircles (circles : List Circle) : Tables K × StoreCache :=
  circles.foldl saveCircle (tables, cache)

/-- `save_allocation`: a row for the allocation run and one for every
decision, each of a candidate of the run. -/
def saveAllocation (a : Allocated K) : Tables K × StoreCache :=
  let decisions := a.allocation.decisions ++ a.extra
  ({ tables with nextId := tables.nextId + 1 + decisions.length },
    { cache with
      allocationRunId := some tables.nextId
      allocCandidateRowIdByCandidateId := decisions.zipIdx.foldl
        (fun ids d => ids.set d.1.candidateId (tables.nextId + 1 + d.2))
        cache.allocCandidateRowIdByCandidateId })

/-- What `create_recommendations` passes to `create_pending`. -/
def pendingFields [Field K] [LinearOrder K] [FloorRing K] (allocationRunId : Uuid)
    (circleId : Option Uuid) (rec : Recommendation K) : Store.PendingFields where
  allocationRunId := allocationRunId
  allocationCandidateId := cache.allocCandidateRowIdByCandidateId.get? rec.candidateId
  subjectType := if truthy rec.groupId then .group else .user
  userPseudonym := if truthy rec.groupId then none else rec.userPseudonym
  circleId := circleId
  incentiveCode := rec.incentiveCode
  costIdr := rec.costIdr
  priorityIdr := roundHalfEven rec.priority
  userRank := 1
  isRunnerUp := false
  reasonText := some rec.reasonText
  reasonFactors := "[]"
  reasonSource := some rec.reasonSource
  factSheetHash := some rec.factSheetHash

/-- The row a recommendation has for its circle, if it has one. -/
def circleIdOf (rec : Recommendation K) : Except StoreError (Option Uuid) :=
  if truthy rec.groupId then
    match cache.circleIdByStr.get? (rec.groupId.getD "") with
    | some id => .ok (some id)
    | none => .error (.lookupError ("no persisted circle for group_id '" ++
        rec.groupId.getD "" ++ "'"))
  else .ok none

/-- The body of the loop of `create_recommendations`. -/
def createRecommendation [Field K] [LinearOrder K] [FloorRing K] (tenant : Uuid)
    (now : Timestamp) (allocationRunId : Uuid) (tables : Tables K) (rec : Recommendation K) :
    Except StoreError (Tables K) := do
  let circleId ← circleIdOf cache rec
  return { tables with
    recommendations := tables.recommendations ++ [Store.createPending tables.nextId tenant now
      (pendingFields cache allocationRunId circleId rec)]
    nextId := tables.nextId + 1 }

/-- `create_recommendations`. A call that raises commits nothing. -/
def createRecommendations [Field K] [LinearOrder K] [FloorRing K] (tenant : Uuid)
    (now : Timestamp) (recs : List (Recommendation K)) : Except StoreError (Tables K) :=
  if recs = [] then .ok tables
  else match cache.allocationRunId with
    | none => .error (.runtimeError
        "create_recommendations called before save_allocation in this run")
    | some allocationRunId =>
        recs.foldlM (createRecommendation cache tenant now allocationRunId) tables

/-- `save_feature_snapshots`, under `uq_feature_snapshots_run_user`. -/
def saveFeatureSnapshots (snapshots : List (FeatureSnapshot K)) : Except StoreError (Tables K) :=
  if ((tables.featureSnapshots ++ snapshots).map fun s => (s.runId, s.userPseudonym)).Nodup then
    .ok { tables with featureSnapshots := tables.featureSnapshots ++ snapshots }
  else .error (.integrityError "uq_feature_snapshots_run_user")

/-! ## What the calls leave as it was -/

section Calls

variable {tables tables' : Tables K} {cache : StoreCache} {circles : List Circle}

/-- **The keys of the tables**: an id in use is below the next one, and a
recommendation's circle exists. -/
structure Tables.Sound (tables : Tables K) : Prop where
  below : ∀ id ∈ tables.circles.keys, id < tables.nextId
  references : ∀ row ∈ tables.recommendations, ∀ id ∈ row.circleId, id ∈ tables.circles.keys

/-- No circle is lost. -/
def Tables.KeepsCircles (tables tables' : Tables K) : Prop :=
  ∀ id members, tables.circles.get? id = some members → tables'.circles.get? id = some members

/-- **The circles are saved**: each under the id the cache has for it. -/
def Saved (circles : List Circle) (tables : Tables K) (cache : StoreCache) : Prop :=
  ∀ c ∈ circles, ∃ id, cache.circleIdByStr.get? c.circleId = some id ∧
    tables.circles.get? id = some c.members

theorem Saved.mono (hsaved : Saved circles tables cache) (hkeep : tables.KeepsCircles tables') :
    Saved circles tables' cache := fun c hc =>
  (hsaved c hc).imp fun id hid => ⟨hid.1, hkeep id c.members hid.2⟩

theorem Tables.KeepsCircles.mem_keys (hkeep : tables.KeepsCircles tables') {id : Uuid}
    (hid : id ∈ tables.circles.keys) : id ∈ tables'.circles.keys := by
  obtain ⟨members, hmem⟩ := Dict.mem_keys.mp hid
  exact Dict.mem_keys.mpr ⟨members, Dict.get?_eq_some.mp (hkeep id members
    (Dict.get?_eq_some.mpr hmem))⟩

/-- **`save_circles` saves the circles**, writes no recommendation and
loses no circle. -/
theorem saveCircles_spec (cache : StoreCache) (hsound : tables.Sound)
    (hnodup : (circles.map Circle.circleId).Nodup) :
    (saveCircles tables cache circles).1.Sound ∧
      tables.KeepsCircles (saveCircles tables cache circles).1 ∧
      (saveCircles tables cache circles).1.recommendations = tables.recommendations ∧
      Saved circles (saveCircles tables cache circles).1 (saveCircles tables cache circles).2 := by
  unfold saveCircles
  induction circles using List.reverseRecOn with
  | nil => exact ⟨hsound, fun _ _ hid => hid, rfl, fun c hc => nomatch hc⟩
  | append_singleton l c ih =>
      rw [List.map_append, List.nodup_append] at hnodup
      obtain ⟨hnodup, -, hnew⟩ := hnodup
      obtain ⟨hs, hkeep, hrecs, hsaved⟩ := ih hnodup
      rw [List.foldl_append, List.foldl_cons, List.foldl_nil]
      generalize l.foldl saveCircle (tables, cache) = r at hs hkeep hrecs hsaved ⊢
      have hkeep' : r.1.KeepsCircles (saveCircle r c).1 := by
        intro id members hid
        have hlt := hs.below id (Dict.mem_keys.mpr ⟨members, Dict.get?_eq_some.mp hid⟩)
        rw [saveCircle, Dict.get?_set, if_neg (Nat.ne_of_lt hlt), hid]
      refine ⟨⟨?_, ?_⟩,
        fun id members hid => hkeep' id members (hkeep id members hid), hrecs, ?_⟩
      · intro id hid
        rcases Dict.mem_keys_alter.mp hid with rfl | hmem
        · exact Nat.lt_succ_self _
        · exact Nat.lt_succ_of_lt (hs.below id hmem)
      · intro row hrow id hid
        exact hkeep'.mem_keys (hs.references row hrow id hid)
      · intro c' hc'
        rcases List.mem_append.mp hc' with hmem | hlast
        · obtain ⟨id, hcache, htable⟩ := hsaved c' hmem
          have hne : c'.circleId ≠ c.circleId :=
            hnew _ (List.mem_map_of_mem hmem) _ (by simp)
          refine ⟨id, ?_, hkeep' id _ htable⟩
          rw [saveCircle, Dict.get?_set, if_neg hne, hcache]
        · rw [List.mem_singleton] at hlast
          subst hlast
          refine ⟨r.1.nextId, ?_, ?_⟩
          · rw [saveCircle, Dict.get?_set, if_pos rfl]
          · rw [saveCircle, Dict.get?_set, if_pos rfl]

/-- `save_allocation` writes neither circles nor recommendations. -/
theorem saveAllocation_spec (cache : StoreCache) (a : Allocated K) (hsound : tables.Sound) :
    (saveAllocation tables cache a).1.Sound ∧
      (saveAllocation tables cache a).1.circles = tables.circles ∧
      (saveAllocation tables cache a).1.recommendations = tables.recommendations ∧
      (saveAllocation tables cache a).2.circleIdByStr = cache.circleIdByStr := by
  refine ⟨⟨?_, hsound.references⟩, rfl, rfl, rfl⟩
  intro id hid
  exact Nat.lt_add_right _ (Nat.lt_succ_of_lt (hsound.below id hid))

/-- `save_feature_snapshots` writes snapshots only. -/
theorem saveFeatureSnapshots_spec {snapshots : List (FeatureSnapshot K)} (hsound : tables.Sound)
    (h : saveFeatureSnapshots tables snapshots = .ok tables') :
    tables'.Sound ∧ tables'.circles = tables.circles ∧
      tables'.recommendations = tables.recommendations := by
  unfold saveFeatureSnapshots at h
  split at h
  · obtain rfl := Except.ok.inj h
    exact ⟨⟨hsound.below, hsound.references⟩, rfl, rfl⟩
  · cases h

/-- The row a recommendation becomes, as far as its subject goes. -/
def IsRowOf (cache : StoreCache) (rec : Recommendation K) (row : RecommendationRow) : Prop :=
  circleIdOf cache rec = .ok row.circleId ∧
    row.userPseudonym = if truthy rec.groupId then none else rec.userPseudonym

variable [Field K] [LinearOrder K] [FloorRing K] {tenant : Uuid} {now : Timestamp}
  {recs : List (Recommendation K)}

/-- The row `create_pending` makes of a recommendation. -/
def IsPendingOf (cache : StoreCache) (tenant : Uuid) (now : Timestamp) (allocationRunId : Uuid)
    (rec : Recommendation K) (row : RecommendationRow) : Prop :=
  ∃ id circleId, circleIdOf cache rec = .ok circleId ∧
    row = Store.createPending id tenant now (pendingFields cache allocationRunId circleId rec)

theorem IsPendingOf.isRowOf {allocationRunId : Uuid} {rec : Recommendation K}
    {row : RecommendationRow} (hrow : IsPendingOf cache tenant now allocationRunId rec row) :
    IsRowOf cache rec row := by
  obtain ⟨id, circleId, hid, rfl⟩ := hrow
  exact ⟨hid, rfl⟩

/-- The loop of `create_recommendations` appends a row for each. -/
theorem foldlM_createRecommendation {allocationRunId : Uuid}
    (h : recs.foldlM (createRecommendation cache tenant now allocationRunId) tables =
      .ok tables') :
    tables'.circles = tables.circles ∧ tables.nextId ≤ tables'.nextId ∧
      ∃ rows, tables'.recommendations = tables.recommendations ++ rows ∧
        List.Forall₂ (IsPendingOf cache tenant now allocationRunId) recs rows := by
  induction recs generalizing tables with
  | nil =>
      obtain rfl := Except.ok.inj h
      exact ⟨rfl, le_rfl, [], (List.append_nil _).symm, .nil⟩
  | cons rec recs ih =>
      rw [List.foldlM_cons] at h
      obtain ⟨tables₁, hfirst, h⟩ := exists_of_bind_eq_ok h
      obtain ⟨circleId, hid, hfirst⟩ := exists_of_bind_eq_ok hfirst
      obtain rfl := Except.ok.inj hfirst
      obtain ⟨hcircles, hnext, rows, hrecs, hrows⟩ := ih h
      refine ⟨hcircles, (Nat.le_succ _).trans hnext, Store.createPending tables.nextId tenant now
        (pendingFields cache allocationRunId circleId rec) :: rows, ?_,
        .cons ⟨_, circleId, hid, rfl⟩ hrows⟩
      rw [hrecs, List.append_assoc]
      rfl

/-- **What `create_recommendations` does**: nothing without
recommendations; otherwise it appends the pending row of each. -/
theorem createRecommendations_rows
    (h : createRecommendations tables cache tenant now recs = .ok tables') :
    tables'.circles = tables.circles ∧ tables.nextId ≤ tables'.nextId ∧
      ∃ allocationRunId rows, tables'.recommendations = tables.recommendations ++ rows ∧
        List.Forall₂ (IsPendingOf cache tenant now allocationRunId) recs rows := by
  unfold createRecommendations at h
  split at h
  · rename_i hnil
    obtain rfl := Except.ok.inj h
    exact ⟨rfl, le_rfl, 0, [], (List.append_nil _).symm, hnil ▸ .nil⟩
  · split at h
    · cases h
    · obtain ⟨hcircles, hnext, rows, hrows⟩ := foldlM_createRecommendation h
      exact ⟨hcircles, hnext, _, rows, hrows⟩

/-- The rows have the subjects of the recommendations. -/
theorem createRecommendations_spec
    (h : createRecommendations tables cache tenant now recs = .ok tables') :
    tables'.circles = tables.circles ∧ tables.nextId ≤ tables'.nextId ∧
      ∃ rows, tables'.recommendations = tables.recommendations ++ rows ∧
        List.Forall₂ (IsRowOf cache) recs rows := by
  obtain ⟨hcircles, hnext, allocationRunId, rows, hrecs, hrows⟩ := createRecommendations_rows h
  exact ⟨hcircles, hnext, rows, hrecs, hrows.imp fun _ _ hrow => hrow.isRowOf⟩

/-- A recommendation for a user needs no circle. -/
theorem createRecommendations_user {rec : Recommendation K} {allocationRunId : Uuid}
    (hgroup : rec.groupId = none) (hcache : cache.allocationRunId = some allocationRunId) :
    createRecommendations tables cache tenant now [rec] = .ok { tables with
      recommendations := tables.recommendations ++ [Store.createPending tables.nextId tenant now
        (pendingFields cache allocationRunId none rec)]
      nextId := tables.nextId + 1 } := by
  have hnot : ¬ truthy rec.groupId := fun htruthy => htruthy.1 hgroup
  unfold createRecommendations
  rw [if_neg (List.cons_ne_nil _ _), hcache]
  dsimp only
  rw [List.foldlM_cons]
  unfold createRecommendation circleIdOf
  rw [if_neg hnot]
  rfl

end Calls

/-! ## Whom the rows are for -/

/-- **Whom a recommendation targets**: a user, or the members of a circle. -/
inductive Subject
  | user (pseudonym : String)
  | circle (members : List String)
  deriving DecidableEq, Repr

/-- The users among it. -/
def Subject.targets : Subject → List String
  | user pseudonym => [pseudonym]
  | circle members => members

/-- The subject of a row. -/
def subject (circles : Dict Uuid (List String)) (row : RecommendationRow) : Subject :=
  match row.circleId with
  | some id => .circle ((circles.get? id).getD [])
  | none => .user (row.userPseudonym.getD "")

/-- The subject of a row whose circle exists. -/
theorem subject_eq_of_keepsCircles {tables tables' : Tables K} {r : RecommendationRow}
    (hkeep : tables.KeepsCircles tables') (href : ∀ id ∈ r.circleId, id ∈ tables.circles.keys) :
    subject tables'.circles r = subject tables.circles r := by
  unfold subject
  cases hid : r.circleId with
  | none => rfl
  | some id =>
      obtain ⟨members, hmem⟩ := Dict.mem_keys.mp (href id hid)
      have hget := Dict.get?_eq_some.mpr hmem
      dsimp only
      rw [hget, hkeep id members hget]

/-- The subject of a pick. -/
def Pick.subject (h : Hashes) (settings : PipelineSettings K) (run : ScoredRun K) (p : Pick K) :
    Subject :=
  match p.groupId with
  | some g => .circle ((((run.circles h settings).find? fun c => c.circleId = g).map
      Circle.members).getD [])
  | none => .user p.top.candidate.userPseudonym

theorem Pick.subject_of_none {h : Hashes} {settings : PipelineSettings K} {run : ScoredRun K}
    {p : Pick K} (hg : p.groupId = none) :
    p.subject h settings run = .user p.top.candidate.userPseudonym := by
  unfold Pick.subject
  rw [hg]

/-- The row of a circle the cache knows. -/
theorem circleIdOf_group {h : Hashes} {settings : PipelineSettings K}
    {run : ScoredRun K} {cache : StoreCache} {rec : Recommendation K} {circle : Circle} {id : Uuid}
    (hc : circle ∈ run.circles h settings) (hg : rec.groupId = some circle.circleId)
    (hcache : cache.circleIdByStr.get? circle.circleId = some id) :
    circleIdOf cache rec = .ok (some id) := by
  unfold circleIdOf
  rw [hg, if_pos (truthy_circleId hc), Option.getD_some, hcache]

namespace Completed

open Allocator (unitOf mem_selectedOf)

variable [Field K] [LinearOrder K] {h : Hashes} {settings : PipelineSettings K}
  {store : StoreReads} {run : ScoredRun K} {regressor : Ranker.Regressor K} {v : Vetted}
  {ranked : List (RankedCandidate K)} {a : Allocated K} {p q : Pick K} {g : String}
  (hdone : Completed h settings store run regressor v ranked a)
  (hu : DistinctCandidates h settings store run)
include hdone hu

/-- The unit of an ENGINE pick is in that arm. -/
theorem armOf_enginePick (hp : p ∈ a.enginePicks) :
    armOf h settings store run (unitOf p.top.candidate) = .ok .engine := by
  obtain ⟨r, hr⟩ := List.exists_mem_of_ne_nil _ (hdone.isEnginePick hu hp).ne_nil
  obtain ⟨hmem, -, hunit⟩ := mem_selectedOf.mp hr
  obtain ⟨-, -, -, harm⟩ := (hdone.mem_engine_iff hu).mp ⟨r, hmem, rfl⟩
  rwa [hunit] at harm

/-- **Two picks are of different units.** -/
theorem pairwise_picks :
    a.picks.Pairwise fun p q => unitOf p.top.candidate ≠ unitOf q.top.candidate := by
  refine List.pairwise_append.mpr ⟨hdone.pairwise_enginePicks hu, ?_, ?_⟩
  · refine hdone.pairwise_naivePicks.imp_of_mem fun {p q} hp hq hne => ?_
    rw [Allocator.unitOf_of_none (hdone.isNaivePick hp).individual,
      Allocator.unitOf_of_none (hdone.isNaivePick hq).individual]
    exact hne
  · intro p hp q hq heq
    -- one arm for a unit
    have hnaive := hdone.isNaivePick hq
    have harm := hdone.armOf_enginePick hu hp
    rw [heq, Allocator.unitOf_of_none hnaive.individual, hnaive.userArm] at harm
    cases harm

/-- The subject of a pick is that of its candidate. -/
theorem groupId_pick (hp : p ∈ a.picks) : p.top.candidate.groupId = p.groupId := by
  rcases List.mem_append.mp hp with hp | hp
  · exact (hdone.isEnginePick hu hp).groupId
  · rw [(hdone.isNaivePick hp).groupId, (hdone.isNaivePick hp).individual]

/-- The group of a pick is a circle of the run. -/
theorem exists_circle_pick (hp : p ∈ a.picks) (hg : p.groupId = some g) :
    ∃ c ∈ run.circles h settings, c.circleId = g := by
  rcases List.mem_append.mp hp with hp | hp
  · have hpick := hdone.isEnginePick hu hp
    obtain ⟨r, hr⟩ := List.exists_mem_of_ne_nil _ hpick.ne_nil
    exact exists_circle_of_groupId (hdone.mem_candidates_of_mem_engine hu (mem_selectedOf.mp hr).1)
      ((hpick.uniform r hr).1.trans hg)
  · rw [(hdone.isNaivePick hp).groupId] at hg
    cases hg

/-- The circle a pick's group names. -/
theorem subject_of_groupId (hp : p ∈ a.picks) (hg : p.groupId = some g) :
    ∃ c ∈ run.circles h settings, c.circleId = g ∧
      p.subject h settings run = .circle c.members := by
  obtain ⟨c₀, hc₀, hid₀⟩ := hdone.exists_circle_pick hu hp hg
  unfold Pick.subject
  rw [hg]
  dsimp only
  cases hfind : (run.circles h settings).find? fun c => c.circleId = g with
  | none => simpa [hid₀] using List.find?_eq_none.mp hfind c₀ hc₀
  | some c =>
      exact ⟨c, List.mem_of_find?_eq_some hfind, by simpa using List.find?_some hfind, rfl⟩

/-- **Picks of one subject are of one unit.** -/
theorem unitOf_eq_of_subject (hp : p ∈ a.picks) (hq : q ∈ a.picks)
    (heq : p.subject h settings run = q.subject h settings run) :
    unitOf p.top.candidate = unitOf q.top.candidate := by
  have hpg := hdone.groupId_pick hu hp
  have hqg := hdone.groupId_pick hu hq
  cases hg : p.groupId with
  | none =>
      cases hg' : q.groupId with
      | none =>
          rw [Pick.subject_of_none hg, Pick.subject_of_none hg', Subject.user.injEq] at heq
          rw [Allocator.unitOf_of_none (hpg.trans hg), Allocator.unitOf_of_none (hqg.trans hg'),
            heq]
      | some g' =>
          obtain ⟨c', -, -, hc'⟩ := hdone.subject_of_groupId hu hq hg'
          rw [Pick.subject_of_none hg, hc'] at heq
          cases heq
  | some g =>
      obtain ⟨c, hc, rfl, hsub⟩ := hdone.subject_of_groupId hu hp hg
      cases hg' : q.groupId with
      | none =>
          rw [hsub, Pick.subject_of_none hg'] at heq
          cases heq
      | some g' =>
          obtain ⟨c', hc', rfl, hsub'⟩ := hdone.subject_of_groupId hu hq hg'
          rw [hsub, hsub', Subject.circle.injEq] at heq
          -- circles with the same members share one, so they are one circle
          obtain ⟨m, hm⟩ := List.exists_mem_of_ne_nil _ (GraphSignal.members_ne_nil hc)
          obtain rfl := GraphSignal.eq_of_mem_members hc hc' hm (heq ▸ hm)
          rw [Allocator.unitOf_of_some (hpg.trans hg), Allocator.unitOf_of_some (hqg.trans hg')]

/-- **The picks of an execution have different subjects.** -/
theorem nodup_subjects : (a.picks.map (Pick.subject h settings run)).Nodup :=
  List.pairwise_map.mpr ((hdone.pairwise_picks hu).imp_of_mem fun hp hq hne heq =>
    hne (hdone.unitOf_eq_of_subject hu hp hq heq))

/-- **A row has the subject of the pick it was made for.** -/
theorem subject_row {tables : Tables K} {cache : StoreCache} {narration : Narration}
    {row : RecommendationRow} (hp : p ∈ a.picks)
    (hsaved : Saved (run.circles h settings) tables cache)
    (hrow : IsRowOf cache (recommendation h run narration p) row) :
    subject tables.circles row = p.subject h settings run ∧
      ∀ id ∈ row.circleId, id ∈ tables.circles.keys := by
  obtain ⟨hid, huser⟩ := hrow
  have hgroup : (recommendation h run narration p).groupId = p.groupId := rfl
  rw [hgroup] at huser
  cases hg : p.groupId with
  | none =>
      have hnot : ¬ truthy (none : Option String) := fun ht => ht.1 rfl
      unfold circleIdOf at hid
      rw [hgroup, hg, if_neg hnot] at hid
      rw [hg, if_neg hnot] at huser
      have hnone : none = row.circleId := Except.ok.inj hid
      rw [Pick.subject_of_none hg]
      unfold subject
      rw [← hnone, huser]
      refine ⟨?_, fun id hid => nomatch hid⟩
      simp [recommendation, hg, hnot]
  | some g =>
      obtain ⟨c, hc, rfl, hsub⟩ := hdone.subject_of_groupId hu hp hg
      obtain ⟨id, hcache, htable⟩ := hsaved c hc
      rw [circleIdOf_group hc (hgroup.trans hg) hcache] at hid
      have hsome : some id = row.circleId := Except.ok.inj hid
      rw [hsub]
      unfold subject
      rw [← hsome]
      dsimp only
      rw [htable]
      refine ⟨rfl, ?_⟩
      intro id' hid'
      obtain rfl := Option.some.inj hid'
      exact Dict.mem_keys.mpr ⟨c.members, Dict.get?_eq_some.mp htable⟩

/-- **The rows of an execution have the subjects of its picks**, in order. -/
theorem subjects_rows {tables : Tables K} {cache : StoreCache} {narrations : ℕ → Narration}
    {rows : List RecommendationRow} (hsaved : Saved (run.circles h settings) tables cache)
    (hrows : List.Forall₂ (IsRowOf cache) (recommendations h run narrations a.picks) rows) :
    rows.map (subject tables.circles) = a.picks.map (Pick.subject h settings run) ∧
      ∀ row ∈ rows, ∀ id ∈ row.circleId, id ∈ tables.circles.keys := by
  have hmem : ∀ p ∈ a.picks.zipIdx, p.1 ∈ a.picks := fun p hp => List.fst_mem_of_mem_zipIdx hp
  have hall := ((List.forall₂_and_left _ _).mpr ⟨hmem, List.forall₂_map_left_iff.mp hrows⟩).imp
    fun p row hrow => hdone.subject_row hu hrow.1 hsaved hrow.2
  constructor
  · have heq := map_eq_map_of_forall₂ (f := Pick.subject h settings run ∘ Prod.fst)
      (g := subject tables.circles) hall fun p row hrow => hrow.1
    rw [heq, ← List.map_map, List.zipIdx_map_fst]
  · intro row hrow
    obtain ⟨p, -, -, hkeys⟩ := exists_left_of_forall₂ hall hrow
    exact hkeys

end Completed

/-- The inputs of a run of the sample tenant. -/
def sampleInputs (run : ScoredRun ℚ) : Inputs ℚ where
  store := sampleStore
  run := run
  regressor := zeroRegressor
  narrations _ := ⟨"CASHBACK_10K for a persuadable user", "TEMPLATE", "5f1c"⟩

end Pipeline

end RetentionEngine
