import RetentionEngine.Pipeline.Persist
import Mathlib.Data.Rat.Floor

/-!
# The members of a persisted group

A group recommendation names its circle by the row GRAPH stored, with
every member of the component. The candidates, the policy and the cost are
of the scored members only. `membersKept_iff` says when the two are the
same people.
-/

namespace RetentionEngine

namespace Pipeline

open Allocator (unitOf mem_selectedOf)

variable {K : Type} [Field K] [LinearOrder K] [FloorRing K]

/-- What the store calls of one run write, from GRAPH to the commit of the
recommendations. -/
def persist (h : Hashes) (settings : PipelineSettings K) (tables : Tables K) (tenant : Uuid)
    (now : Timestamp) (run : ScoredRun K) (narrations : ℕ → Narration) (a : Allocated K) :
    Except StoreError (Tables K) :=
  let graphed := saveCircles tables .fresh (run.circles h settings)
  let allocated := saveAllocation graphed.1 graphed.2 a
  createRecommendations allocated.1 allocated.2 tenant now
    (recommendations h run narrations a.picks)

/-- **Everyone behind a group row was vetted**: the members stored for its
circle are the members of its pick. -/
def MembersKept (circles : Dict Uuid (List String)) (picks : List (Pick K))
    (rows : List RecommendationRow) : Prop :=
  List.Forall₂ (fun p row => row.subjectType = .group →
    ∃ id ∈ row.circleId, ∃ members ∈ circles.get? id, members.Perm p.members) picks rows

/-- Every member of a circle a chosen bundle is for has an impact score. -/
def ChosenScored (h : Hashes) (settings : PipelineSettings K) (store : StoreReads)
    (run : ScoredRun K) (regressor : Ranker.Regressor K) : Prop :=
  ∀ c, Chosen h settings store run regressor c → ∀ circle ∈ run.circles h settings,
    c.groupId = some circle.circleId → ∀ m ∈ circle.members, (run.impact.get? m).isSome

variable {h : Hashes} {settings : PipelineSettings K} {store : StoreReads} {run : ScoredRun K}
  {regressor : Ranker.Regressor K} {v : Vetted} {ranked : List (RankedCandidate K)}
  {a : Allocated K} {p : Pick K} {g : String} {tables tables' : Tables K} {tenant : Uuid}
  {now : Timestamp} {narrations : ℕ → Narration}

/-- The row of a pick: its subject's kind, and for a group the circle whose
members are stored. -/
structure IsStoredFor (h : Hashes) (settings : PipelineSettings K) (run : ScoredRun K)
    (circles : Dict Uuid (List String)) (p : Pick K) (row : RecommendationRow) : Prop where
  user : p.groupId = none → row.subjectType = .user
  group : ∀ g ∈ p.groupId, row.subjectType = .group ∧ ∃ circle ∈ run.circles h settings,
    circle.circleId = g ∧ ∃ id ∈ row.circleId, circles.get? id = some circle.members

omit [Field K] [LinearOrder K] [FloorRing K] in
/-- The members listed are all scored if they are the scored ones. -/
theorem perm_scoredMembers_iff {circle : Circle} :
    circle.members.Perm (scoredMembers run circle) ↔
      ∀ m ∈ circle.members, (run.impact.get? m).isSome := by
  unfold scoredMembers
  constructor
  · intro hperm m hm
    exact (List.mem_filter.mp (hperm.mem_iff.mp hm)).2
  · intro hscored
    rw [List.filter_eq_self.mpr hscored]

namespace Completed

variable (hdone : Completed h settings store run regressor v ranked a)
include hdone

/-- **The row of a pick** names the stored circle of its group. -/
theorem isStoredFor (hu : DistinctCandidates h settings store run) {cache : StoreCache}
    {allocationRunId : Uuid} {narration : Narration} {row : RecommendationRow} (hp : p ∈ a.picks)
    (hsaved : Saved (run.circles h settings) tables cache)
    (hrow : IsPendingOf cache tenant now allocationRunId (recommendation h run narration p) row) :
    IsStoredFor h settings run tables.circles p row := by
  obtain ⟨id, circleId, hid, rfl⟩ := hrow
  constructor
  · intro hg
    exact if_neg fun htruthy => htruthy.1 hg
  · intro g hg
    obtain ⟨circle, hc, rfl⟩ := hdone.exists_circle_pick hu hp hg
    obtain ⟨stored, hcache, htable⟩ := hsaved circle hc
    rw [circleIdOf_group hc hg hcache] at hid
    have hkind : truthy (recommendation h run narration p).groupId := by
      rw [show (recommendation h run narration p).groupId = some circle.circleId from hg]
      exact truthy_circleId hc
    exact ⟨if_pos hkind, circle, hc, rfl, stored, (Except.ok.inj hid).symm, htable⟩

/-- **The rows a run persists**, each for its pick. -/
theorem exists_rows (hu : Unambiguous h settings store run) (hsound : tables.Sound)
    (hpersist : persist h settings tables tenant now run narrations a = .ok tables') :
    ∃ rows, tables'.recommendations = tables.recommendations ++ rows ∧
      List.Forall₂ (fun p row => p ∈ a.picks ∧ IsStoredFor h settings run tables'.circles p row)
        a.picks rows := by
  obtain ⟨hgraphed, -, hrecs, hsaved⟩ := saveCircles_spec .fresh hsound hu.circleIds
  obtain ⟨-, hcircles, hrecs', hcache⟩ :=
    saveAllocation_spec (saveCircles tables .fresh (run.circles h settings)).2 a hgraphed
  unfold persist at hpersist
  dsimp only at hpersist
  obtain ⟨hcircles', -, allocationRunId, rows, hrows, hall⟩ := createRecommendations_rows hpersist
  rw [hrecs', hrecs] at hrows
  refine ⟨rows, hrows, ?_⟩
  have hsaved' : Saved (run.circles h settings) tables'
      (saveAllocation (saveCircles tables .fresh (run.circles h settings)).1
        (saveCircles tables .fresh (run.circles h settings)).2 a).2 := by
    intro circle hc
    rw [hcircles', hcircles, hcache]
    exact hsaved circle hc
  have hmem : ∀ q ∈ a.picks.zipIdx, q.1 ∈ a.picks := fun q hq => List.fst_mem_of_mem_zipIdx hq
  have hzip : List.Forall₂ (fun q row => q.1 ∈ a.picks ∧
      IsStoredFor h settings run tables'.circles q.1 row) a.picks.zipIdx rows :=
    ((List.forall₂_and_left _ _).mpr ⟨hmem, List.forall₂_map_left_iff.mp hall⟩).imp
      fun q row hq => ⟨hq.1, hdone.isStoredFor hu.candidateIds hq.1 hsaved' hq.2⟩
  have hpicks : List.Forall₂ (fun p row => p ∈ a.picks ∧
      IsStoredFor h settings run tables'.circles p row) (a.picks.zipIdx.map Prod.fst) rows :=
    List.forall₂_map_left_iff.mpr hzip
  rwa [List.zipIdx_map_fst] at hpicks

omit [FloorRing K] in
/-- The pick of a chosen bundle is of its circle. -/
theorem exists_pick_of_chosen (hu : DistinctCandidates h settings store run) {c : Candidate K}
    (hc : Chosen h settings store run regressor c) (hg : c.groupId = some g) :
    ∃ p ∈ a.picks, p.groupId = some g := by
  obtain ⟨p, hp, hunit, -⟩ := hdone.exists_enginePick_of_chosen hu hc
  have hpick := hdone.isEnginePick hu hp
  obtain ⟨r, hr⟩ := List.exists_mem_of_ne_nil _ hpick.ne_nil
  obtain ⟨hengine, -, hr'⟩ := mem_selectedOf.mp hr
  have hgroup := groupId_eq_of_unitOf (hdone.mem_candidates_of_mem_engine hu hengine)
    (hdone.of_chosen hu hc).1 (hr'.trans hunit)
  exact ⟨p, List.mem_append_left _ hp, by rw [← (hpick.uniform r hr).1, hgroup, hg]⟩

omit [FloorRing K] in
/-- A pick of a group has a chosen bundle. -/
theorem exists_chosen_of_pick (hu : DistinctCandidates h settings store run) (hp : p ∈ a.picks)
    (hg : p.groupId = some g) :
    ∃ c, Chosen h settings store run regressor c ∧ c.groupId = some g := by
  rcases List.mem_append.mp hp with hp | hp
  · have hpick := hdone.isEnginePick hu hp
    obtain ⟨r, hr⟩ := List.exists_mem_of_ne_nil _ hpick.ne_nil
    obtain ⟨hengine, hsel, -⟩ := mem_selectedOf.mp hr
    exact ⟨r.candidate, hdone.chosen_iff.mpr ⟨r, hengine, rfl, hsel⟩,
      (hpick.uniform r hr).1.trans hg⟩
  · rw [(hdone.isNaivePick hp).groupId] at hg
    cases hg

end Completed

/-- **When a persisted group is who was vetted.** In every run that
completes PERSIST without a collision among its ids, the members stored
for the circle of every group row are the members of its pick exactly when
every member of a circle chosen for a bundle is scored. -/
theorem membersKept_iff (hfree : CollisionFree h settings store run) (hsound : tables.Sound)
    (hrun : decisionStages h settings store run regressor = some a)
    (hpersist : persist h settings tables tenant now run narrations a = .ok tables') :
    ∃ rows, tables'.recommendations = tables.recommendations ++ rows ∧
      (MembersKept tables'.circles a.picks rows ↔
        ChosenScored h settings store run regressor) := by
  have hu := hfree.unambiguous
  obtain ⟨v, ranked, hdone⟩ := exists_completed hrun
  obtain ⟨rows, hrows, hstored⟩ := hdone.exists_rows hu hsound hpersist
  -- the members of a group pick are the scored members of its circle
  have hmembers : ∀ p ∈ a.picks, ∀ circle ∈ run.circles h settings,
      p.groupId = some circle.circleId → p.members.Perm (scoredMembers run circle) := by
    intro p hp circle hcircle hg
    obtain ⟨circle', hcircle', hid, hperm⟩ := (picks_keepHardRules hfree hrun hp).group _ hg
    obtain rfl := List.inj_on_of_nodup_map hu.circleIds hcircle' hcircle hid
    exact hperm
  refine ⟨rows, hrows, ?_⟩
  constructor
  · intro hkept c hc circle hcircle hg
    obtain ⟨p, hp, hpg⟩ := hdone.exists_pick_of_chosen hu.candidateIds hc hg
    have hboth := List.Forall₂.mp (fun _ _ hkept hstored => And.intro hkept hstored) hkept hstored
    obtain ⟨row, -, hrow, -, hstored⟩ := exists_right_of_forall₂ hboth hp
    obtain ⟨hgroup, circle', hmem, hid, stored, hsid, hget⟩ := hstored.group _ hpg
    obtain rfl := List.inj_on_of_nodup_map hu.circleIds hmem hcircle hid
    obtain ⟨id, hrid, members, hmembers', hperm⟩ := hrow hgroup
    obtain rfl : stored = id := Option.some.inj (hsid.symm.trans hrid)
    obtain rfl : circle'.members = members := Option.some.inj (hget.symm.trans hmembers')
    exact perm_scoredMembers_iff.mp (hperm.trans (hmembers p hp circle' hcircle hpg))
  · intro hscored
    refine hstored.imp ?_
    rintro p row ⟨hp, huser, hgroup⟩ hrow
    cases hg : p.groupId with
    | none =>
        rw [huser hg] at hrow
        cases hrow
    | some g =>
        obtain ⟨-, circle, hcircle, rfl, id, hid, hget⟩ := hgroup g hg
        obtain ⟨c, hc, hcg⟩ := hdone.exists_chosen_of_pick hu.candidateIds hp hg
        refine ⟨id, hid, circle.members, hget, ?_⟩
        have hall := perm_scoredMembers_iff.mpr (hscored c hc circle hcircle hcg)
        exact hall.trans (hmembers p hp circle hcircle hg).symm

/-! ## A circle with an outsider -/

/-- The digests when `user5` is only a counterparty: the bundle has two
members. -/
def pairHashes : Hashes where
  sha256 s :=
    if s = Hashes.idText ["cand-f2afb131ecb241ea", "cand-fe25aa1db936b2fd"] then
      "8ea61db776b77900927afdfa3eb1eef81c2e602155f9521540dbad40b453506f"
    else sampleHashes.sha256 s
  hmacSha256 := sampleHashes.hmacSha256
  sha256_hex s := by
    split
    · decide +kernel
    · exact sampleHashes.sha256_hex s

/-- Circles of two are large enough. -/
def pairSettings : PipelineSettings ℚ := { sampleSettings with pipelineCircleMinSize := 2 }

/-- `user5` has no events, so no score. -/
def pairRun : ScoredRun ℚ :=
  { sampleRun with
    events := [sampleEvent "e1" user1 user3, sampleEvent "e2" user3 user5]
    impactScores := [⟨4 / 5, 1 / 2⟩, ⟨4 / 5, 1 / 2⟩]
    hex_events := by decide +kernel }

theorem collisionFree_pairRun : CollisionFree pairHashes pairSettings sampleStore pairRun :=
  ⟨by decide +kernel, by decide +kernel⟩

/-- The run recommends its circle of three, for the two who are scored. -/
theorem exists_pairPersisted :
    ∃ a ∈ decisionStages pairHashes pairSettings sampleStore pairRun zeroRegressor,
      ∃ tables ∈ (persist pairHashes pairSettings ⟨.empty, [], [], 0⟩ 1 86400 pairRun
        (sampleInputs pairRun).narrations a).toOption,
        (a.picks.zip tables.recommendations).any (fun q => q.2.subjectType = .group ∧
          q.1.members = [user3, user1] ∧ q.2.circleId = some 0) ∧
        tables.circles.get? 0 = some [user3, user1, user5] := by
  decide +kernel

theorem membersKept_iff_pair : ∃ (a : Allocated ℚ) (tables : Tables ℚ)
    (rows : List RecommendationRow),
    decisionStages pairHashes pairSettings sampleStore pairRun zeroRegressor = some a ∧
      persist pairHashes pairSettings ⟨.empty, [], [], 0⟩ 1 86400 pairRun
        (sampleInputs pairRun).narrations a = .ok tables ∧
      (MembersKept tables.circles a.picks rows ↔
        ChosenScored pairHashes pairSettings sampleStore pairRun zeroRegressor) := by
  obtain ⟨a, hrun, tables, htables, -⟩ := exists_pairPersisted
  have hpersist := toOption_eq_some.mp htables
  have hsound : (⟨.empty, [], [], 0⟩ : Tables ℚ).Sound :=
    ⟨fun _ hid => absurd hid List.not_mem_nil, fun _ hrow => absurd hrow List.not_mem_nil⟩
  obtain ⟨rows, -, hiff⟩ := membersKept_iff collisionFree_pairRun hsound hrun hpersist
  exact ⟨a, tables, rows, hrun, hpersist, hiff⟩

/-- **A group row may name someone who was not vetted**: the circle of the
row has `user5`, and the pick `user3` and `user1` only. -/
theorem not_membersKept : ∃ (a : Allocated ℚ) (tables : Tables ℚ),
    decisionStages pairHashes pairSettings sampleStore pairRun zeroRegressor = some a ∧
      persist pairHashes pairSettings ⟨.empty, [], [], 0⟩ 1 86400 pairRun
        (sampleInputs pairRun).narrations a = .ok tables ∧
      ¬ MembersKept tables.circles a.picks tables.recommendations := by
  obtain ⟨a, hrun, tables, htables, hany, hstored⟩ := exists_pairPersisted
  refine ⟨a, tables, hrun, toOption_eq_some.mp htables, ?_⟩
  intro hkept
  obtain ⟨⟨p, row⟩, hmem, hpair⟩ := List.any_eq_true.mp hany
  obtain ⟨hgroup, hmembers, hcircle⟩ := of_decide_eq_true hpair
  have hrow := List.forall₂_zip hkept hmem
  obtain ⟨id, hid, members, hget, hperm⟩ := hrow hgroup
  dsimp only at hmembers hcircle
  obtain rfl : 0 = id := Option.some.inj (hcircle.symm.trans hid)
  obtain rfl := Option.some.inj (hstored.symm.trans hget)
  rw [hmembers] at hperm
  have hlength := hperm.length_eq
  simp at hlength

end Pipeline

end RetentionEngine
