import RetentionEngine.Pipeline.Picks

/-!
# The hard rules

No pick breaks a hard rule. An ENGINE pick is made of ranked candidates,
which POLICY has not excluded; that a group pick has *all* scored members
of its circle rests on POLICY denying a bundle as a whole, on one arm for
the group, and on the allocator never splitting a bundle. A NAIVE pick is
evaluated a second time, without the segment rule.
-/

namespace RetentionEngine

namespace Pipeline

open Allocator (IsAllocation KnapsackItem unitOf selectedOf mem_selectedOf)

variable {K : Type} [Field K] [LinearOrder K]

/-- **The guarantees of a pick** of either arm. -/
structure KeepsHardRules (h : Hashes) (settings : PipelineSettings K) (store : StoreReads)
    (run : ScoredRun K) (p : Pick K) : Prop where
  /-- No pick is of the CONTROL arm. -/
  arm : p.arm ≠ .control
  /-- Every target of an ENGINE pick is allowed the incentive by all four
  rules, and is persuadable. -/
  engine : p.arm = .engine → ∀ u ∈ p.targets, ∃ c ∈ candidates h settings store run,
    c.userPseudonym = u ∧ c.incentiveCode = p.top.candidate.incentiveCode ∧
      c.groupId = p.groupId ∧ (evaluateFor settings store run true c).allowed = true ∧
      c.segment = .persuadable
  /-- The members of a group pick are the scored members of its circle. -/
  group : ∀ g ∈ p.groupId, ∃ circle ∈ run.circles h settings, circle.circleId = g ∧
    p.members.Perm (scoredMembers run circle)
  /-- A NAIVE pick is an individual candidate of its one target, who is at
  risk. -/
  naive : p.arm = .naive → ∃ u ∈ run.scoredUsers, p.targets = [u] ∧
    settings.measurementNaiveRiskThreshold ≤ run.churnRiskOf u ∧
    ∃ i ∈ incentives store run, i.isGroup = false ∧
      p.top.candidate = candidate h settings run u i none ∧
      (evaluateFor settings store run false (candidate h settings run u i none)).allowed = true ∧
      ∀ i' ∈ incentives store run, i'.isGroup = false →
        (evaluateFor settings store run false (candidate h settings run u i' none)).allowed = true →
        i.costIdr ≤ i'.costIdr

variable {h : Hashes} {settings : PipelineSettings K} {store : StoreReads} {run : ScoredRun K}
  {regressor : Ranker.Regressor K} {v : Vetted} {ranked : List (RankedCandidate K)}
  {a : Allocated K} {c : Candidate K} {r : RankedCandidate K} {p : Pick K} {g : String}

/-- A ranked candidate of a selected unit is allowed. -/
theorem Completed.allowed_of_mem_engine
    (hdone : Completed h settings store run regressor v ranked a)
    (hu : DistinctCandidates h settings store run) (hr : r ∈ a.engine) :
    (evaluateFor settings store run true r.candidate).allowed = true := by
  obtain ⟨-, hnot, -⟩ := (hdone.mem_engine_iff hu).mp ⟨r, hr, rfl⟩
  exact not_not.mp hnot

/-- **The selected candidates of a group are of all its scored members.** -/
theorem Completed.perm_scoredMembers (hdone : Completed h settings store run regressor v ranked a)
    (hu : Unambiguous h settings store run)
    (hr : r ∈ selectedOf a.engine a.allocation ("group:" ++ g))
    (hg : r.candidate.groupId = some g) :
    ∃ circle ∈ run.circles h settings, circle.circleId = g ∧
      ((selectedOf a.engine a.allocation ("group:" ++ g)).map
        fun r => r.candidate.userPseudonym).Perm (scoredMembers run circle) := by
  obtain ⟨its, sel, o, halloc⟩ := hdone.isAllocation hu.candidateIds
  have hids := hdone.distinctIds hu.candidateIds
  obtain ⟨hmem, hsel, -⟩ := mem_selectedOf.mp hr
  obtain ⟨hc, hnot, hmates, harm⟩ := (hdone.mem_engine_iff hu.candidateIds).mp ⟨r, hmem, rfl⟩
  obtain ⟨circle, hcircle, rfl, hsize, i, hi, higroup, m, hm, hcm⟩ := exists_of_groupId_some hc hg
  -- a selected candidate of the group is a scored member's
  have hscored : ∀ r' ∈ selectedOf a.engine a.allocation ("group:" ++ circle.circleId),
      r'.candidate.userPseudonym ∈ scoredMembers run circle := by
    intro r' hr'
    obtain ⟨hrg, -, -⟩ := uniform_selectedOf hids halloc hr hr'
    have hc' := hdone.mem_candidates_of_mem_engine hu.candidateIds (mem_selectedOf.mp hr').1
    obtain ⟨circle', hcircle', hid, -, i', -, -, m', hm', hcm'⟩ :=
      exists_of_groupId_some hc' (hrg.trans hg)
    obtain rfl := List.inj_on_of_nodup_map hu.circleIds hcircle' hcircle hid
    rw [hcm']
    exact hm'
  have hnodup := hdone.nodup_users_selectedOf hu.candidateIds ("group:" ++ circle.circleId)
  refine ⟨circle, hcircle, rfl, (List.perm_ext_iff_of_nodup hnodup
    (nodup_scoredMembers hcircle)).mpr ?_⟩
  intro u
  constructor
  · intro hu'
    obtain ⟨r', hr', rfl⟩ := List.mem_map.mp hu'
    exact hscored r' hr'
  · intro hu'
    -- the member's candidate is bundled with `r`, so it is ranked and selected like `r`
    have hsame : SameBundle r.candidate (candidate h settings run u i (some circle.circleId)) :=
      ⟨truthy_of_groupId hc hg, hg.symm, by rw [hcm]; rfl⟩
    have hmem' : candidate h settings run u i (some circle.circleId) ∈
        circleCandidates h settings store run circle :=
      mem_circleCandidates.mpr ⟨hsize, i, hi, higroup, u, hu', rfl⟩
    have hcu : candidate h settings run u i (some circle.circleId) ∈
        candidates h settings store run := mem_candidates.mpr (Or.inr ⟨circle, hcircle, hmem'⟩)
    have hunit : unitOf (candidate h settings run u i (some circle.circleId)) =
        unitOf r.candidate := by
      rw [Allocator.unitOf_of_some hg, Allocator.unitOf_of_some rfl]
    obtain ⟨r', hr', hcr'⟩ := (hdone.mem_engine_iff hu.candidateIds).mpr ⟨hcu, hmates _ hcu hsame,
      fun m' hm' hsame' => hmates m' hm' (hsame.trans hsame'), by rw [hunit]; exact harm⟩
    have hsel' : Allocator.Selects a.allocation r'.candidate := by
      rw [halloc.selects_iff hids hr', hcr', Allocator.itemIdOf_of_some rfl]
      rw [halloc.selects_iff hids hmem, Allocator.itemIdOf_of_some hg, ← hsame.2.2] at hsel
      exact hsel
    refine List.mem_map.mpr ⟨r', mem_selectedOf.mpr ⟨hr', hsel', ?_⟩, by rw [hcr']; rfl⟩
    rw [hcr', hunit, Allocator.unitOf_of_some hg]

/-- **No pick breaks a hard rule.** In every run that completes ALLOCATE
without a collision among its ids, whatever its events, circles, scores,
incentives and arms: an ENGINE pick is allowed for every target by all
four rules, so every target is persuadable, and a group pick has exactly
the scored members of the circle; a NAIVE pick is allowed by the three
hard rules, for a user at or over the risk threshold, and no cheaper
individual incentive is allowed for that user. -/
theorem picks_keepHardRules (hfree : CollisionFree h settings store run)
    (hrun : decisionStages h settings store run regressor = some a) (hp : p ∈ a.picks) :
    KeepsHardRules h settings store run p := by
  have hu := hfree.unambiguous
  obtain ⟨v, ranked, hdone⟩ := exists_completed hrun
  rcases List.mem_append.mp hp with hp | hp
  · have hpick := hdone.isEnginePick hu.candidateIds hp
    refine ⟨by rw [hpick.arm]; decide, ?_, ?_, ?_⟩
    · intro _ u hu'
      obtain ⟨r, hr, rfl⟩ := List.mem_map.mp (hpick.targets.mem_iff.mp hu')
      have hmem := (mem_selectedOf.mp hr).1
      have hcand := hdone.mem_candidates_of_mem_engine hu.candidateIds hmem
      have hallowed := hdone.allowed_of_mem_engine hu.candidateIds hmem
      have hpersuadable := PolicyGuard.persuadable_of_allowed rfl hallowed
      obtain ⟨hgroup, hcode⟩ := hpick.uniform r hr
      exact ⟨r.candidate, hcand, rfl, hcode, hgroup, hallowed, hpersuadable⟩
    · intro g hg
      have hg : p.groupId = some g := hg
      obtain ⟨r, hr⟩ := List.exists_mem_of_ne_nil _ hpick.ne_nil
      have htargets := hpick.targets
      have hrg := (hpick.uniform r hr).1.trans hg
      rw [Allocator.unitOf_of_some (hpick.groupId.trans hg)] at hr htargets
      obtain ⟨circle, hcircle, hid, hperm⟩ := hdone.perm_scoredMembers hu hr hrg
      refine ⟨circle, hcircle, hid, ?_⟩
      rw [Pick.targets, if_neg (by simp [hg])] at htargets
      exact htargets.trans hperm
    · intro harm
      rw [hpick.arm] at harm
      cases harm
  · have hpick := hdone.isNaivePick hp
    refine ⟨by rw [hpick.arm]; decide, ?_, ?_, ?_⟩
    · intro harm
      rw [hpick.arm] at harm
      cases harm
    · intro g hg
      rw [hpick.groupId] at hg
      cases hg
    · intro _
      obtain ⟨u, hscored, i, hi, hindividual, hc⟩ :=
        exists_of_groupId_none hpick.mem hpick.individual
      have huser : p.top.candidate.userPseudonym = u := congrArg Candidate.userPseudonym hc
      have hallowed := hpick.allowed
      have hcheapest := hpick.cheapest
      rw [huser, hc] at hcheapest
      rw [hc] at hallowed
      refine ⟨u, hscored, huser ▸ hpick.targets, huser ▸ hpick.risk, i, hi, hindividual, hc,
        hallowed, ?_⟩
      intro i' hi' hindividual' hallowed'
      have hmem : candidate h settings run u i' none ∈ individualCandidates h settings store run :=
        mem_individualCandidates.mpr ⟨u, hscored, i', hi', hindividual', rfl⟩
      exact hcheapest _ (mem_candidates.mpr (Or.inl hmem)) rfl rfl hallowed'

/-! ## A sample run -/

def sampleTenantId : String := "11111111-1111-1111-1111-111111111111"

def sampleExperimentId : String := "33333333-3333-3333-3333-333333333333"

def sampleRunId : String := "44444444-4444-4444-4444-444444444444"

/-- A run after the sample run. -/
def laterRunId : String := "55555555-5555-5555-5555-555555555555"

/-- The pseudonym of `user-1`. -/
def user1 : String := "96432f0a0c81315209d74b31c0ced5cbd1d3fa24c53430ed701a2beff3d659c2"

/-- The pseudonym of `user-3`. -/
def user3 : String := "92863c78e913b80c1329240730ed3071dea9c7c0535c6fc9ae488672260cce9d"

/-- The pseudonym of `user-5`. -/
def user5 : String := "cdbb3c9a083f62202c6bfc8af630186ba9a47ff9597017dc44d837a3b4429860"

/-- The circle of the three users. -/
def sampleCircle : Circle := ⟨"circle-d1bb1988788d", [user3, user1, user5]⟩

/-- The digests the sample run asks for. -/
def sampleDigests : List (String × String) :=
  [(Hashes.idText sampleCircle.members,
      "d1bb1988788dbdbbbd8bb814c8b736d5688ddabf16c2537829883301d21462aa"),
    (Hashes.idText [sampleRunId, user1, "CASHBACK_10K", ""],
      "7bb2ac6f62748e258b55d371ac9d6696e13f0a1c760197a89d6da58c73fadd64"),
    (Hashes.idText [sampleRunId, user1, "SPLIT_BILL_GROUP_REWARD", sampleCircle.circleId],
      "fe25aa1db936b2fd7f8b8898f203d4173b2dc81a987d0a5b80b95de9be0a1808"),
    (Hashes.idText [sampleRunId, user3, "CASHBACK_10K", ""],
      "782c42c592ffd842b303951f570f1cadfe319f34bd166085bcf8453dcb184f01"),
    (Hashes.idText [sampleRunId, user3, "SPLIT_BILL_GROUP_REWARD", sampleCircle.circleId],
      "f2afb131ecb241ea4d459dcfb5d9503f15f66690a0b0f1b988a4ea498efa9f3f"),
    (Hashes.idText [sampleRunId, user5, "CASHBACK_10K", ""],
      "d432fde6af6af4ccbdfde7c5d4cb29ef76feddf39ea03f61c8efccda86ebc25d"),
    (Hashes.idText [sampleRunId, user5, "SPLIT_BILL_GROUP_REWARD", sampleCircle.circleId],
      "4d72b454b754fb31032a138adf8d5185d8df06a2f5607a1c8192c7cfed4e46da"),
    (Hashes.idText [laterRunId, user1, "CASHBACK_10K", ""],
      "4e986f6bd13c81e3dbffc0b1e8c9d9484a5ebc6d403aaa4ec15d538debd9790b"),
    (Hashes.idText ["cand-4d72b454b754fb31", "cand-f2afb131ecb241ea", "cand-fe25aa1db936b2fd"],
      "22713814596de9c9a535c85bad7754cc926a3a586ca534751a39d26066320743")]

/-- The HMAC values the sample run asks for. -/
def sampleHmacs : List (String × ℕ) :=
  [(user1,
      79563301820765382705871480576938182495448502426255749284634651034265887967187),
    (user3,
      57554916094310611551759376083595019149869577205838400806857677342959404067925),
    (user5,
      40824873196068464559747774757090381854775793962168943029431544957198797175412),
    ("group:" ++ sampleCircle.circleId,
      48523540423001883495451928161378991679157770709785483295745207904669827786066)]

/-- SHA-256 and HMAC-SHA-256 where the sample run asks for them. -/
def sampleHashes : Hashes where
  sha256 s := ((sampleDigests.find? fun p => p.1 = s).map Prod.snd).getD ""
  hmacSha256 _ message := ((sampleHmacs.find? fun p =>
    sampleTenantId ++ ":" ++ sampleExperimentId ++ ":" ++ p.1 = message).map Prod.snd).getD 0
  sha256_hex s := by
    cases hfind : sampleDigests.find? fun p => p.1 = s with
    | none => decide
    | some p =>
        have hmem := List.mem_of_find?_eq_some hfind
        clear hfind
        revert hmem p
        decide +kernel

/-- The worker's defaults, with a smaller budget and a frequency cap. -/
def sampleSettings : PipelineSettings ℚ where
  pipelineCircleMinSize := 3
  impactThreshold := 1 / 20
  impactSureThingPNotIncentivized := 4 / 5
  rankerMinContextRows := 100
  allocatorStrategy := "auto"
  allocatorCostScaleIdr := 1000
  allocatorMaxDpCells := 20000000
  defaultBudgetIdr := 40000
  frequencyCapMaxContacts := some 3
  frequencyCapWindowDays := some 14
  responsibleLendingLookbackDays := 60
  responsibleLendingMinLateEvents := 1
  measurementControlPct := 20
  measurementNaivePct := 20
  measurementNaiveRiskThreshold := 3 / 5
  measurementHmacSecret := "test-measurement-secret"

def sampleStore : StoreReads where
  incentives := [⟨"CASHBACK_10K", 10000, false, false, false, ["WALLET", "LENDING"]⟩,
    ⟨"SPLIT_BILL_GROUP_REWARD", 5000, false, false, true, ["WALLET"]⟩]
  contactTimes _ := []
  experimentId := sampleExperimentId
  nodup_codes := by decide

/-- A transfer between two users. -/
def sampleEvent (id user counterparty : String) : CanonicalEvent where
  clientEventId := id
  eventType := .p2pTransfer
  occurredAt := 0
  userPseudonym := user
  amountIdr := some 50000
  counterpartyPseudonym := some counterparty
  attributes := []

/-- Three persuadable users at risk, all in one circle. -/
def sampleRun : ScoredRun ℚ where
  tenantId := sampleTenantId
  runId := sampleRunId
  profileType := "WALLET"
  now := 86400
  events := [sampleEvent "e1" user1 user3, sampleEvent "e2" user3 user5,
    sampleEvent "e3" user5 user1]
  edges := [⟨user3, user1⟩, ⟨user3, user5⟩]
  patternTypeOf _ := .stable
  churnRiskOf _ := 7 / 10
  impactScores := [⟨4 / 5, 1 / 2⟩, ⟨4 / 5, 1 / 2⟩, ⟨4 / 5, 1 / 2⟩]
  businessValueOf _ := 1000000
  labeled := []
  hex_events := by decide +kernel
  hex_edges := by decide +kernel

/-- One of them, with no circle. -/
def loneRun : ScoredRun ℚ :=
  { sampleRun with
    events := [sampleEvent "e1" user1 user3]
    edges := []
    impactScores := [⟨4 / 5, 1 / 2⟩]
    hex_events := by decide +kernel
    hex_edges := nofun }

/-- A regression that is never asked: there are no labeled rows. -/
def zeroRegressor : Ranker.Regressor ℚ where
  regress _ query := (query.map fun _ => 0, .fallback)
  length_eq := by simp

theorem collisionFree_sampleRun :
    CollisionFree sampleHashes sampleSettings sampleStore sampleRun :=
  ⟨by decide +kernel, by decide +kernel⟩

theorem collisionFree_loneRun :
    CollisionFree sampleHashes sampleSettings sampleStore loneRun :=
  ⟨by decide +kernel, by decide +kernel⟩

/-- The sample run: the group and `user1` draw ENGINE, `user3` NAIVE and
`user5` CONTROL. -/
theorem exists_sampleAllocated :
    ∃ a ∈ decisionStages sampleHashes sampleSettings sampleStore sampleRun zeroRegressor,
      a.picks.map (fun p => (p.arm, p.targets)) = [(.engine, [user1]),
        (.engine, [user5, user3, user1]), (.naive, [user3])] ∧
      a.arms.get? user5 = some .control := by
  decide +kernel

/-- The run of `user1` alone recommends `user1`. -/
theorem exists_loneAllocated :
    ∃ a ∈ decisionStages sampleHashes sampleSettings sampleStore loneRun zeroRegressor,
      a.picks.map (fun p => (p.groupId, p.top.candidate.userPseudonym)) = [(none, user1)] := by
  decide +kernel

theorem picks_keepHardRules_sample :
    ∃ a, decisionStages sampleHashes sampleSettings sampleStore sampleRun zeroRegressor = some a ∧
      a.picks.length = 3 ∧
      ∀ p ∈ a.picks, KeepsHardRules sampleHashes sampleSettings sampleStore sampleRun p := by
  obtain ⟨a, hrun, hpicks, -⟩ := exists_sampleAllocated
  exact ⟨a, hrun, by simpa using congrArg List.length hpicks,
    fun p hp => picks_keepHardRules collisionFree_sampleRun hrun hp⟩

end Pipeline

end RetentionEngine
