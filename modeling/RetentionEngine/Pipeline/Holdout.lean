import RetentionEngine.Pipeline.HardRules

/-!
# The held-out control

Whether everyone a pick targets is in the arm of the pick. An individual
pick is of a unit, so its subject is; the members of a group pick are in
the arm of the *group*, and each of them has drawn an arm of their own as
well. `holdout_iff` says exactly when the two agree.
-/

namespace RetentionEngine

namespace Pipeline

variable {K : Type} [Field K] [LinearOrder K]

/-- **One holdout**: every target of a pick is, as a unit of their own, in
the arm of the pick. -/
def HoldoutKept (a : Allocated K) : Prop :=
  ∀ p ∈ a.picks, ∀ u ∈ p.targets, a.arms.get? u = some p.arm

variable {h : Hashes} {settings : PipelineSettings K} {store : StoreReads} {run : ScoredRun K}
  {regressor : Ranker.Regressor K} {v : Vetted} {ranked : List (RankedCandidate K)}
  {a : Allocated K} {u : String} {arm : Arm}

/-- The arm of a user. -/
theorem Completed.get?_arms_user (hdone : Completed h settings store run regressor v ranked a)
    (hu : u ∈ run.users) :
    a.arms.get? u = some arm ↔ armOf h settings store run u = .ok arm := by
  rw [get?_arms hdone.arms (mem_units_of_mem_users hu), toOption_eq_some]

/-- **The holdout is kept exactly when no chosen bundle crosses it**: every
member of a group incentive the allocator chooses has drawn ENGINE too. -/
theorem holdout_iff (hfree : CollisionFree h settings store run)
    (hrun : decisionStages h settings store run regressor = some a) :
    HoldoutKept a ↔ ∀ c, Chosen h settings store run regressor c → c.groupId ≠ none →
      armOf h settings store run c.userPseudonym = .ok .engine := by
  have hu := hfree.unambiguous.candidateIds
  obtain ⟨v, ranked, hdone⟩ := exists_completed hrun
  constructor
  · intro hkept c hc _
    obtain ⟨p, hp, -, htarget⟩ := hdone.exists_enginePick_of_chosen hu hc
    have harm := hkept p (List.mem_append_left _ hp) _ htarget
    rw [(hdone.isEnginePick hu hp).arm] at harm
    exact (hdone.get?_arms_user (mem_users_of_mem_candidates (hdone.of_chosen hu hc).1)).mp harm
  · intro haligned p hp u htarget
    rcases List.mem_append.mp hp with hp | hp
    · obtain ⟨c, hc, rfl, -⟩ := (hdone.mem_targets_engine hu hp).mp htarget
      obtain ⟨hcand, hunit⟩ := hdone.of_chosen hu hc
      rw [(hdone.isEnginePick hu hp).arm,
        hdone.get?_arms_user (mem_users_of_mem_candidates hcand)]
      by_cases hgroup : c.groupId = none
      · rwa [Allocator.unitOf_of_none hgroup] at hunit
      · exact haligned c hc hgroup
    · have hpick := hdone.isNaivePick hp
      rw [hpick.targets, List.mem_singleton] at htarget
      rw [htarget, hpick.arm, hdone.get?_arms_user (mem_users_of_mem_candidates hpick.mem)]
      exact hpick.userArm

/-- In the sample run the condition fails as the holdout does. -/
theorem holdout_iff_sample :
    ∃ a, decisionStages sampleHashes sampleSettings sampleStore sampleRun zeroRegressor = some a ∧
      (HoldoutKept a ↔
        ∀ c, Chosen sampleHashes sampleSettings sampleStore sampleRun zeroRegressor c →
          c.groupId ≠ none →
            armOf sampleHashes sampleSettings sampleStore sampleRun c.userPseudonym =
              .ok .engine) := by
  obtain ⟨a, hrun, -⟩ := exists_sampleAllocated
  exact ⟨a, hrun, holdout_iff collisionFree_sampleRun hrun⟩

/-- **The holdout is not kept**: in the sample run a user who drew CONTROL
is a member of a group pick. -/
theorem not_holdoutKept :
    ∃ a ∈ decisionStages sampleHashes sampleSettings sampleStore sampleRun zeroRegressor,
      a.arms.get? user5 = some .control ∧ (∃ p ∈ a.picks, user5 ∈ p.targets) ∧
        ¬ HoldoutKept a := by
  obtain ⟨a, hrun, hpicks, hcontrol⟩ := exists_sampleAllocated
  have hmem : (Arm.engine, [user5, user3, user1]) ∈ a.picks.map fun p => (p.arm, p.targets) := by
    rw [hpicks]
    simp
  obtain ⟨p, hp, hpair⟩ := List.mem_map.mp hmem
  obtain ⟨harm, htargets⟩ := Prod.mk.inj hpair
  have htarget : user5 ∈ p.targets := by
    rw [htargets]
    exact List.mem_cons_self
  refine ⟨a, hrun, hcontrol, ⟨p, hp, htarget⟩, ?_⟩
  intro hkept
  have hown := hkept p hp user5 htarget
  rw [hcontrol, harm] at hown
  cases hown

end Pipeline

end RetentionEngine
