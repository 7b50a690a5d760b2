import RetentionEngine.Pipeline.Scored

/-!
# Candidates

The first half of `_policy`: a candidate for every scored user and
individual incentive, and for every scored member of a large enough circle
and group incentive. Their ids are hashed of run, user, incentive and
group; the texts hashed are different, so ids are distinct unless the
digest collides.
-/

namespace RetentionEngine

namespace Pipeline

variable {K : Type} [Ring K] [LinearOrder K]

section Stages

variable (h : Hashes) (settings : PipelineSettings K) (store : StoreReads) (run : ScoredRun K)

/-- The incentives for the tenant's profile type. -/
def incentives : List Incentive :=
  store.incentives.filter fun i => i.applicableProfileTypes = [] ∨
    upper run.profileType ∈ i.applicableProfileTypes.map upper

/-- `_candidate`. Its lookups are of users with an impact score. -/
def candidate (user : String) (incentive : Incentive) (groupId : Option String) : Candidate K :=
  let score := (run.impact.get? user).getD ⟨0, 0⟩
  { candidateId := h.idOf "cand" [run.runId, user, incentive.code, groupId.getD ""]
    tenantId := run.tenantId
    userPseudonym := user
    incentiveCode := incentive.code
    costIdr := incentive.costIdr
    businessValueIdr := run.businessValueOf user
    encouragesBorrowing := incentive.encouragesBorrowing
    changesCreditTerms := incentive.changesCreditTerms
    groupId := groupId
    churnRisk := run.churnRiskOf user
    impactScore := score.impactScore
    segment := segment settings score
    patternType := run.patternTypeOf user }

/-- The members of a circle that are scored. -/
def scoredMembers (circle : Circle) : List String :=
  circle.members.filter fun m => (run.impact.get? m).isSome

/-- The individual candidates. -/
def individualCandidates : List (Candidate K) :=
  run.scoredUsers.flatMap fun user =>
    ((incentives store run).filter fun i => !i.isGroup).map fun i =>
      candidate h settings run user i none

/-- The candidates of a circle. -/
def circleCandidates (circle : Circle) : List (Candidate K) :=
  let members := scoredMembers run circle
  if (members.length : ℤ) < settings.pipelineCircleMinSize then []
  else ((incentives store run).filter Incentive.isGroup).flatMap fun i =>
    members.map fun m => candidate h settings run m i (some circle.circleId)

/-- `run.candidates`. -/
def candidates : List (Candidate K) :=
  individualCandidates h settings store run ++
    (run.circles h settings).flatMap (circleCandidates h settings store run)

end Stages

variable {h : Hashes} {settings : PipelineSettings K} {store : StoreReads} {run : ScoredRun K}
  {c : Candidate K}

/-! ## Who the candidates are -/

theorem mem_individualCandidates : c ∈ individualCandidates h settings store run ↔
    ∃ u ∈ run.scoredUsers, ∃ i ∈ incentives store run, i.isGroup = false ∧
      c = candidate h settings run u i none := by
  simp only [individualCandidates, List.mem_flatMap, List.mem_map, List.mem_filter,
    Bool.not_eq_true', eq_comm (a := c), and_assoc]

theorem mem_circleCandidates {circle : Circle} :
    c ∈ circleCandidates h settings store run circle ↔
      settings.pipelineCircleMinSize ≤ (scoredMembers run circle).length ∧
        ∃ i ∈ incentives store run, i.isGroup = true ∧ ∃ m ∈ scoredMembers run circle,
          c = candidate h settings run m i (some circle.circleId) := by
  unfold circleCandidates
  dsimp only
  split
  · rename_i hsmall
    simp [hsmall]
  · rename_i hlarge
    simp only [List.mem_flatMap, List.mem_map, List.mem_filter, eq_comm (a := c), and_assoc,
      not_lt.mp hlarge, true_and]

theorem mem_candidates : c ∈ candidates h settings store run ↔
    c ∈ individualCandidates h settings store run ∨
      ∃ circle ∈ run.circles h settings, c ∈ circleCandidates h settings store run circle := by
  simp only [candidates, List.mem_append, List.mem_flatMap]

/-- **A candidate without a group** is a scored user's, for an individual
incentive. -/
theorem exists_of_groupId_none (hc : c ∈ candidates h settings store run)
    (hg : c.groupId = none) : ∃ u ∈ run.scoredUsers, ∃ i ∈ incentives store run,
      i.isGroup = false ∧ c = candidate h settings run u i none := by
  rcases mem_candidates.mp hc with hind | ⟨circle, -, hcirc⟩
  · exact mem_individualCandidates.mp hind
  · obtain ⟨-, i, -, -, m, -, rfl⟩ := mem_circleCandidates.mp hcirc
    cases hg

/-- **A candidate of a group** is a scored member's of a circle, for a
group incentive. -/
theorem exists_of_groupId_some {g : String} (hc : c ∈ candidates h settings store run)
    (hg : c.groupId = some g) : ∃ circle ∈ run.circles h settings, circle.circleId = g ∧
      settings.pipelineCircleMinSize ≤ (scoredMembers run circle).length ∧
      ∃ i ∈ incentives store run, i.isGroup = true ∧ ∃ m ∈ scoredMembers run circle,
        c = candidate h settings run m i (some g) := by
  rcases mem_candidates.mp hc with hind | ⟨circle, hcircle, hcirc⟩
  · obtain ⟨u, -, i, -, -, rfl⟩ := mem_individualCandidates.mp hind
    cases hg
  · obtain ⟨hsize, i, hi, higroup, m, hm, rfl⟩ := mem_circleCandidates.mp hcirc
    obtain rfl := Option.some.inj hg
    exact ⟨circle, hcircle, rfl, hsize, i, hi, higroup, m, hm, rfl⟩

/-- Every candidate is of a user. -/
theorem mem_users_of_mem_candidates (hc : c ∈ candidates h settings store run) :
    c.userPseudonym ∈ run.users := by
  cases hg : c.groupId with
  | none =>
      obtain ⟨u, hu, i, -, -, rfl⟩ := exists_of_groupId_none hc hg
      exact ScoredRun.mem_users_of_impact (ScoredRun.mem_scoredUsers.mp hu)
  | some g =>
      obtain ⟨circle, -, -, -, i, -, -, m, hm, rfl⟩ := exists_of_groupId_some hc hg
      exact ScoredRun.mem_users_of_impact (List.mem_filter.mp hm).2

/-- The id of a candidate's group is a circle's. -/
theorem exists_circle_of_groupId {g : String} (hc : c ∈ candidates h settings store run)
    (hg : c.groupId = some g) : ∃ circle ∈ run.circles h settings, circle.circleId = g := by
  obtain ⟨circle, hcircle, hid, -⟩ := exists_of_groupId_some hc hg
  exact ⟨circle, hcircle, hid⟩

/-- A candidate has the code, the cost and the flag of an applicable
incentive. -/
theorem exists_incentive (hc : c ∈ candidates h settings store run) :
    ∃ i ∈ incentives store run, c.incentiveCode = i.code ∧ c.costIdr = i.costIdr ∧
      c.encouragesBorrowing = i.encouragesBorrowing := by
  cases hg : c.groupId with
  | none =>
      obtain ⟨u, -, i, hi, -, rfl⟩ := exists_of_groupId_none hc hg
      exact ⟨i, hi, rfl, rfl, rfl⟩
  | some g =>
      obtain ⟨circle, -, -, -, i, hi, -, m, -, rfl⟩ := exists_of_groupId_some hc hg
      exact ⟨i, hi, rfl, rfl, rfl⟩

/-- A candidate costs what one of the active incentives does. -/
theorem exists_costIdr (hc : c ∈ candidates h settings store run) :
    ∃ i ∈ store.incentives, c.costIdr = i.costIdr := by
  obtain ⟨i, hi, -, hcost, -⟩ := exists_incentive hc
  exact ⟨i, List.mem_of_mem_filter hi, hcost⟩

omit [Ring K] [LinearOrder K] in
theorem truthy_circleId {circle : Circle} (hcircle : circle ∈ run.circles h settings) :
    truthy (some circle.circleId) := by
  rw [GraphSignal.circleId_eq hcircle]
  exact ⟨by simp, fun heq => h.circleId_ne_empty _ (Option.some.inj heq)⟩

theorem truthy_of_groupId {g : String} (hc : c ∈ candidates h settings store run)
    (hg : c.groupId = some g) : truthy c.groupId := by
  obtain ⟨circle, hcircle, rfl⟩ := exists_circle_of_groupId hc hg
  rw [hg]
  exact truthy_circleId hcircle

/-! ## No two candidates have one id -/

/-- No two candidates of the run have one id. -/
def DistinctCandidates (h : Hashes) (settings : PipelineSettings K) (store : StoreReads)
    (run : ScoredRun K) : Prop :=
  ((candidates h settings store run).map Candidate.candidateId).Nodup

/-- **No confusion among the ids of a run.** -/
structure Unambiguous (h : Hashes) (settings : PipelineSettings K) (store : StoreReads)
    (run : ScoredRun K) : Prop where
  candidateIds : ((candidates h settings store run).map Candidate.candidateId).Nodup
  circleIds : ((run.circles h settings).map Circle.circleId).Nodup

/-- The text a candidate's id is hashed of. -/
def candidateText (run : ScoredRun K) (c : Candidate K) : String :=
  Hashes.idText [run.runId, c.userPseudonym, c.incentiveCode, c.groupId.getD ""]

/-- **No collision in the run**: the digest has no two ids equal that are
hashed of different texts. -/
structure CollisionFree (h : Hashes) (settings : PipelineSettings K) (store : StoreReads)
    (run : ScoredRun K) : Prop where
  candidates : ∀ c ∈ candidates h settings store run, ∀ c' ∈ candidates h settings store run,
    c.candidateId = c'.candidateId → candidateText run c = candidateText run c'
  circles : ∀ c ∈ run.circles h settings, ∀ c' ∈ run.circles h settings,
    c.circleId = c'.circleId → Hashes.idText c.members = Hashes.idText c'.members

instance : Decidable (CollisionFree h settings store run) :=
  decidable_of_iff (_ ∧ _) ⟨fun hfree => ⟨hfree.1, hfree.2⟩,
    fun hfree => ⟨hfree.candidates, hfree.circles⟩⟩

theorem bar_not_mem_groupId (hc : c ∈ candidates h settings store run) :
    '|' ∉ (c.groupId.getD "").toList := by
  cases hg : c.groupId with
  | none => simp
  | some g =>
      obtain ⟨circle, hcircle, rfl⟩ := exists_circle_of_groupId hc hg
      rw [GraphSignal.circleId_eq hcircle]
      exact h.not_mem_circleId (by decide) (by decide) _

omit [Ring K] [LinearOrder K] in
/-- Applicable incentives of one code are one incentive. -/
theorem eq_of_code {i i' : Incentive} (hi : i ∈ incentives store run)
    (hi' : i' ∈ incentives store run) (heq : i.code = i'.code) : i = i' :=
  List.inj_on_of_nodup_map store.nodup_codes (List.mem_of_mem_filter hi)
    (List.mem_of_mem_filter hi') heq

/-- **A candidate is read back from the text its id is hashed of.** -/
theorem eq_of_candidateText (hc : c ∈ candidates h settings store run) {c' : Candidate K}
    (hc' : c' ∈ candidates h settings store run)
    (heq : candidateText run c = candidateText run c') :
    c = c' := by
  obtain ⟨huser, hcode, hgroup⟩ := Hashes.eq_of_idText_four
    (ScoredRun.hex_of_mem_users (mem_users_of_mem_candidates hc)).bar_not_mem
    (ScoredRun.hex_of_mem_users (mem_users_of_mem_candidates hc')).bar_not_mem
    (bar_not_mem_groupId hc) (bar_not_mem_groupId hc') heq
  cases hg : c.groupId with
  | none =>
      cases hg' : c'.groupId with
      | none =>
          obtain ⟨u, -, i, hi, -, rfl⟩ := exists_of_groupId_none hc hg
          obtain ⟨u', -, i', hi', -, rfl⟩ := exists_of_groupId_none hc' hg'
          obtain rfl : u = u' := huser
          obtain rfl := eq_of_code hi hi' hcode
          rfl
      | some g' =>
          rw [hg, hg'] at hgroup
          exact absurd (congrArg some hgroup.symm) (hg' ▸ (truthy_of_groupId hc' hg').2)
  | some g =>
      cases hg' : c'.groupId with
      | none =>
          rw [hg, hg'] at hgroup
          exact absurd (congrArg some hgroup) (hg ▸ (truthy_of_groupId hc hg).2)
      | some g' =>
          rw [hg, hg'] at hgroup
          obtain rfl : g = g' := hgroup
          obtain ⟨-, -, -, -, i, hi, -, u, -, rfl⟩ := exists_of_groupId_some hc hg
          obtain ⟨-, -, -, -, i', hi', -, u', -, rfl⟩ := exists_of_groupId_some hc' hg'
          obtain rfl : u = u' := huser
          obtain rfl := eq_of_code hi hi' hcode
          rfl

/-- **Candidates of one incentive** cost the same and encourage borrowing
as one. -/
theorem eq_of_incentiveCode {c' : Candidate K} (hc : c ∈ candidates h settings store run)
    (hc' : c' ∈ candidates h settings store run) (heq : c.incentiveCode = c'.incentiveCode) :
    c.costIdr = c'.costIdr ∧ c.encouragesBorrowing = c'.encouragesBorrowing := by
  obtain ⟨i, hi, hcode, hcost, hborrow⟩ := exists_incentive hc
  obtain ⟨i', hi', hcode', hcost', hborrow'⟩ := exists_incentive hc'
  obtain rfl : i = i' := eq_of_code hi hi' (hcode.symm.trans (heq.trans hcode'))
  exact ⟨hcost.trans hcost'.symm, hborrow.trans hborrow'.symm⟩

omit [Ring K] [LinearOrder K] in
theorem nodup_incentives : (incentives store run).Nodup :=
  store.nodup_codes.of_map.filter _

omit [Ring K] [LinearOrder K] in
theorem nodup_scoredMembers {circle : Circle} (hcircle : circle ∈ run.circles h settings) :
    (scoredMembers run circle).Nodup := (GraphSignal.nodup_members hcircle).filter _

/-- Candidates of different users, incentives or groups are different. -/
theorem candidate_inj {u u' : String} {i i' : Incentive} {g g' : Option String}
    (heq : candidate h settings run u i g = candidate h settings run u' i' g') :
    u = u' ∧ i.code = i'.code ∧ g = g' :=
  ⟨congrArg Candidate.userPseudonym heq, congrArg Candidate.incentiveCode heq,
    congrArg Candidate.groupId heq⟩

/-- A circle's candidates are distinct. -/
theorem nodup_circleCandidates {circle : Circle} (hcircle : circle ∈ run.circles h settings) :
    (circleCandidates h settings store run circle).Nodup := by
  unfold circleCandidates
  dsimp only
  split
  · exact List.nodup_nil
  · refine List.nodup_flatMap.mpr ⟨?_, ?_⟩
    · intro i _
      exact (nodup_scoredMembers hcircle).map fun _ _ heq => (candidate_inj heq).1
    · refine (nodup_incentives.filter _).pairwise_of_forall_ne ?_
      intro i hi i' hi' hne c hc hc'
      obtain ⟨m, -, rfl⟩ := List.mem_map.mp hc
      obtain ⟨m', -, heq⟩ := List.mem_map.mp hc'
      exact hne (eq_of_code (List.mem_of_mem_filter hi) (List.mem_of_mem_filter hi')
        (candidate_inj heq).2.1.symm)

/-- With distinct circles, the candidates are distinct. -/
theorem nodup_candidates (hcircles : ((run.circles h settings).map Circle.circleId).Nodup) :
    (candidates h settings store run).Nodup := by
  unfold candidates
  refine List.nodup_append.mpr ⟨?_, ?_, ?_⟩
  · refine List.nodup_flatMap.mpr ⟨?_, ?_⟩
    · intro u _
      refine List.Nodup.map_on ?_ (nodup_incentives.filter _)
      intro i hi i' hi' heq
      have hcode := (candidate_inj heq).2.1
      exact eq_of_code (List.mem_of_mem_filter hi) (List.mem_of_mem_filter hi') hcode
    · refine (ScoredRun.nodup_users.filter _).pairwise_of_forall_ne ?_
      intro u _ u' _ hne c hc hc'
      obtain ⟨i, -, rfl⟩ := List.mem_map.mp hc
      obtain ⟨i', -, heq⟩ := List.mem_map.mp hc'
      exact hne (candidate_inj heq).1.symm
  · refine List.nodup_flatMap.mpr ⟨fun circle hcircle => nodup_circleCandidates hcircle, ?_⟩
    refine hcircles.of_map.pairwise_of_forall_ne ?_
    intro k hk k' hk' hne c hc hc'
    obtain ⟨-, i, -, -, m, -, rfl⟩ := mem_circleCandidates.mp hc
    obtain ⟨-, i', -, -, m', -, heq⟩ := mem_circleCandidates.mp hc'
    exact hne (List.inj_on_of_nodup_map hcircles hk hk'
      (Option.some.inj (candidate_inj heq).2.2))
  · rintro c hc c' hc' rfl
    obtain ⟨u, -, i, -, -, rfl⟩ := mem_individualCandidates.mp hc
    obtain ⟨k, -, hk⟩ := List.mem_flatMap.mp hc'
    obtain ⟨-, i', -, -, m, -, heq⟩ := mem_circleCandidates.mp hk
    cases (candidate_inj heq).2.2

/-- **Without a collision no two candidates and no two circles share an
id.** -/
theorem CollisionFree.unambiguous (hfree : CollisionFree h settings store run) :
    Unambiguous h settings store run := by
  have hcircles : ((run.circles h settings).map Circle.circleId).Nodup := by
    refine List.pairwise_map.mpr ((GraphSignal.pairwise_disjoint_findCircles h run.edges
      settings.pipelineCircleMinSize).imp_of_mem fun {k k'} hk hk' hdisj heq => ?_)
    have hhex : ∀ {k}, k ∈ run.circles h settings → ∀ u ∈ k.members, IsHex u := fun hk u hu =>
      GraphSignal.of_mem_members hk hu run.hex_edges
    have hmembers := Hashes.eq_of_idText (GraphSignal.members_ne_nil hk)
      (GraphSignal.members_ne_nil hk') (hhex hk) (hhex hk') (hfree.circles k hk k' hk' heq)
    obtain ⟨u, hu⟩ := List.exists_mem_of_ne_nil _ (GraphSignal.members_ne_nil hk)
    exact hdisj hu (hmembers ▸ hu)
  exact ⟨List.Nodup.map_on (fun c hc c' hc' heq =>
    eq_of_candidateText hc hc' (hfree.candidates c hc c' hc' heq)) (nodup_candidates hcircles),
    hcircles⟩

end Pipeline

end RetentionEngine
