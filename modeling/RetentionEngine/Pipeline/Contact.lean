import RetentionEngine.Pipeline.HardRules

/-!
# One contact in a run

Whether a run targets a user more than once. The allocator gives a unit
one item, the NAIVE arm a user one pick, and two circles share no member;
but a user stands behind the unit of their circle as well as behind their
own. `contacted_once_iff` says that this is all that can go wrong.
-/

namespace RetentionEngine

namespace Pipeline

open Allocator (unitOf)

variable {K : Type} [Field K] [LinearOrder K]

/-- **Contacted at most once**: no user occurs twice among the targets of
the picks. -/
def ContactedOnce (a : Allocated K) : Prop := (a.picks.flatMap Pick.targets).Nodup

variable {h : Hashes} {settings : PipelineSettings K} {store : StoreReads} {run : ScoredRun K}
  {regressor : Ranker.Regressor K} {v : Vetted} {ranked : List (RankedCandidate K)}
  {a : Allocated K} {c c' : Candidate K} {p q : Pick K} {u : String}

/-- Candidates of one user in two groups are in one group. -/
theorem groupId_eq_of_userPseudonym (hc : c ∈ candidates h settings store run)
    (hc' : c' ∈ candidates h settings store run) {g g' : String} (hg : c.groupId = some g)
    (hg' : c'.groupId = some g') (huser : c.userPseudonym = c'.userPseudonym) : g = g' := by
  obtain ⟨k, hk, rfl, -, i, -, -, m, hm, rfl⟩ := exists_of_groupId_some hc hg
  obtain ⟨k', hk', rfl, -, i', -, -, m', hm', rfl⟩ := exists_of_groupId_some hc' hg'
  obtain rfl : m = m' := huser
  have hmem : m ∈ k.members := List.mem_of_mem_filter hm
  have hmem' : m ∈ k'.members := List.mem_of_mem_filter hm'
  rw [GraphSignal.eq_of_mem_members hk hk' hmem hmem']

namespace Completed

variable (hdone : Completed h settings store run regressor v ranked a)
  (hu : DistinctCandidates h settings store run)
include hdone hu

/-- **A pick targets nobody twice.** -/
theorem nodup_targets (hp : p ∈ a.picks) : p.targets.Nodup := by
  rcases List.mem_append.mp hp with hp | hp
  · exact (hdone.isEnginePick hu hp).targets.nodup_iff.mpr (hdone.nodup_users_selectedOf hu _)
  · rw [(hdone.isNaivePick hp).targets]
    exact List.nodup_singleton _

/-- Chosen candidates of one user, both with a group or both without, are of
one unit. -/
theorem unitOf_eq_of_chosen (hc : Chosen h settings store run regressor c)
    (hc' : Chosen h settings store run regressor c') (huser : c.userPseudonym = c'.userPseudonym)
    (hsame : c.groupId = none ↔ c'.groupId = none) : unitOf c = unitOf c' := by
  by_cases hnone : c.groupId = none
  · rw [Allocator.unitOf_of_none hnone, Allocator.unitOf_of_none (hsame.mp hnone), huser]
  · obtain ⟨g, hg⟩ := Option.ne_none_iff_exists'.mp hnone
    obtain ⟨g', hg'⟩ := Option.ne_none_iff_exists'.mp (mt hsame.mpr hnone)
    have hcand := (hdone.of_chosen hu hc).1
    have hcand' := (hdone.of_chosen hu hc').1
    have hgg : g = g' := groupId_eq_of_userPseudonym hcand hcand' hg hg' huser
    rw [Allocator.unitOf_of_some hg, Allocator.unitOf_of_some hg', hgg]

end Completed

/-- **Nobody is behind two picks**: no member of a chosen bundle is chosen
individually as well, nor gets a NAIVE pick. -/
def NoOverlap (h : Hashes) (settings : PipelineSettings K) (store : StoreReads) (run : ScoredRun K)
    (regressor : Ranker.Regressor K) : Prop :=
  ∀ c, Chosen h settings store run regressor c → c.groupId ≠ none →
    ¬ NaiveTarget h settings store run c.userPseudonym ∧
      ∀ c', Chosen h settings store run regressor c' → c'.userPseudonym = c.userPseudonym →
        c'.groupId ≠ none

/-- **A run contacts everyone at most once exactly when nobody is behind
two picks.** -/
theorem contacted_once_iff (hfree : CollisionFree h settings store run)
    (hrun : decisionStages h settings store run regressor = some a) :
    ContactedOnce a ↔ NoOverlap h settings store run regressor := by
  have hu := hfree.unambiguous.candidateIds
  obtain ⟨v, ranked, hdone⟩ := exists_completed hrun
  unfold ContactedOnce
  rw [List.nodup_flatMap, Allocated.picks, List.pairwise_append]
  constructor
  · rintro ⟨-, hengine, -, hcross⟩ c hc hgroup
    obtain ⟨p, hp, hpunit, htarget⟩ := hdone.exists_enginePick_of_chosen hu hc
    constructor
    · intro hnaive
      obtain ⟨q, hq, huser⟩ := hdone.exists_naivePick hnaive
      have htarget' : c.userPseudonym ∈ q.targets := by
        rw [(hdone.isNaivePick hq).targets, huser]
        exact List.mem_singleton_self _
      exact hcross p hp q hq htarget htarget'
    · intro c' hc' huser hnone
      obtain ⟨q, hq, hqunit, htarget'⟩ := hdone.exists_enginePick_of_chosen hu hc'
      have hne : p ≠ q := by
        rintro rfl
        have hcand := (hdone.of_chosen hu hc').1
        exact unitOf_ne hgroup hcand hnone (hpunit.symm.trans hqunit)
      have : Std.Symm fun p q : Pick K => p.targets.Disjoint q.targets :=
        ⟨fun _ _ hd => List.disjoint_symm hd⟩
      exact hengine.forall hp hq hne htarget (huser ▸ htarget')
  · intro hno
    refine ⟨fun p hp => hdone.nodup_targets hu hp, ?_, ?_, ?_⟩
    · refine (hdone.pairwise_enginePicks hu).imp_of_mem fun {p q} hp hq hne u hpu hqu => hne ?_
      obtain ⟨c, hc, rfl, hcunit⟩ := (hdone.mem_targets_engine hu hp).mp hpu
      obtain ⟨c', hc', huser, hcunit'⟩ := (hdone.mem_targets_engine hu hq).mp hqu
      rw [← hcunit, ← hcunit']
      refine hdone.unitOf_eq_of_chosen hu hc hc' huser.symm ⟨?_, ?_⟩
      · intro hnone
        by_contra hgroup
        exact (hno c' hc' hgroup).2 c hc huser.symm hnone
      · intro hnone
        by_contra hgroup
        exact (hno c hc hgroup).2 c' hc' huser hnone
    · refine hdone.pairwise_naivePicks.imp_of_mem fun {p q} hp hq hne u hpu hqu => hne ?_
      rw [(hdone.isNaivePick hp).targets, List.mem_singleton] at hpu
      rw [(hdone.isNaivePick hq).targets, List.mem_singleton] at hqu
      exact hpu.symm.trans hqu
    · intro p hp q hq u hpu hqu
      have hpick := hdone.isNaivePick hq
      obtain ⟨c, hc, rfl, -⟩ := (hdone.mem_targets_engine hu hp).mp hpu
      rw [hpick.targets, List.mem_singleton] at hqu
      by_cases hnone : c.groupId = none
      · -- the user's own arm cannot be both
        have harm := (hdone.of_chosen hu hc).2
        rw [Allocator.unitOf_of_none hnone, hqu, hpick.userArm] at harm
        cases harm
      · exact (hno c hc hnone).1 (hqu ▸ hpick.naiveTarget)

theorem contacted_once_iff_sample :
    ∃ a, decisionStages sampleHashes sampleSettings sampleStore sampleRun zeroRegressor = some a ∧
      (ContactedOnce a ↔
        NoOverlap sampleHashes sampleSettings sampleStore sampleRun zeroRegressor) := by
  obtain ⟨a, hrun, -⟩ := exists_sampleAllocated
  exact ⟨a, hrun, contacted_once_iff collisionFree_sampleRun hrun⟩

/-- **A run may contact a user twice**: in the sample run `user1` is picked
alone and `user3` by the NAIVE arm, and both with their circle. -/
theorem not_contactedOnce :
    ∃ a ∈ decisionStages sampleHashes sampleSettings sampleStore sampleRun zeroRegressor,
      ¬ ContactedOnce a := by
  obtain ⟨a, hrun, hpicks, -⟩ := exists_sampleAllocated
  refine ⟨a, hrun, ?_⟩
  intro honce
  have htargets : a.picks.flatMap Pick.targets = [user1, user5, user3, user1, user3] := by
    have := congrArg (List.flatMap Prod.snd) hpicks
    rwa [List.flatMap_map] at this
  rw [ContactedOnce, htargets] at honce
  simp at honce

end Pipeline

end RetentionEngine
