import RetentionEngine.Pipeline.Candidates

/-!
# POLICY and RANK

`_candidate`, `_policy` and `_rank` of `worker.pipeline`. A stage that
raises is `none`.
-/

namespace RetentionEngine

namespace Pipeline

open PolicyGuard

variable {K : Type}

section Deciding

variable (h : Hashes) (settings : PipelineSettings K) (store : StoreReads) (run : ScoredRun K)

/-- `run.user_facts[user]`. -/
def userFacts (user : String) : UserFacts where
  userPseudonym := user
  now := run.now
  lateRepaymentAt := (run.events.filter fun e =>
    e.eventType = .loanRepaymentLate ∧ e.userPseudonym = user).map CanonicalEvent.occurredAt
  contactedAt := store.contactTimes user

/-- `_policy_config`. -/
def policyConfig (applySegmentRule : Bool) : PolicyConfig where
  responsibleLendingLookbackDays := settings.responsibleLendingLookbackDays
  responsibleLendingMinLateEvents := settings.responsibleLendingMinLateEvents
  frequencyCapMaxContacts := settings.frequencyCapMaxContacts
  frequencyCapWindowDays := settings.frequencyCapWindowDays
  applySegmentRule := applySegmentRule

/-- `evaluate` on the run's facts of the candidate's user. -/
def evaluateFor (applySegmentRule : Bool) (c : Candidate K) : PolicyDecision :=
  evaluate c (userFacts store run c.userPseudonym) (policyConfig settings applySegmentRule)

/-- `_exclusion_for`. -/
def exclusionFor (decision : PolicyDecision) (segment : ImpactSegment) : Option ExclusionReason :=
  match decision.denials.filter fun d => d.ruleCode ≠ .segmentExcluded with
  | d :: _ => ExclusionReason.ofValue ("POLICY_" ++ d.ruleCode.value)
  | [] => ExclusionReason.ofValue ("SEGMENT_" ++ segment.value)

/-- What POLICY leaves behind: `run.decisions` and `run.exclusions`. -/
structure Vetted where
  decisions : Dict String PolicyDecision
  exclusions : Dict String ExclusionReason

/-- The body of the loop over the candidates. -/
def vet (v : Vetted) (c : Candidate K) : Option Vetted :=
  let decision := evaluateFor settings store run true c
  let decisions := v.decisions.set c.candidateId decision
  if decision.allowed then some { v with decisions := decisions }
  else (exclusionFor decision c.segment).map fun reason =>
    ⟨decisions, v.exclusions.set c.candidateId reason⟩

/-- The group candidates, bundled by group and incentive. -/
def bundles (candidates : List (Candidate K)) : Dict (String × String) (List (Candidate K)) :=
  Dict.groupBy (fun c => (c.groupId.getD "", c.incentiveCode))
    (candidates.filter fun c => truthy c.groupId)

/-- The body of the loop over the bundles: one denied member denies all. -/
def denyBundle (exclusions : Dict String ExclusionReason) (members : List (Candidate K)) :
    Dict String ExclusionReason :=
  if ∃ m ∈ members, m.candidateId ∈ exclusions.keys then
    members.foldl (fun ex m => ex.setDefault m.candidateId .groupMemberDenied) exclusions
  else exclusions

end Deciding

/-! ## What POLICY excludes -/

variable {settings : PipelineSettings K} {store : StoreReads} {run : ScoredRun K}
  {v : Vetted} {c : Candidate K} {ex : Dict String ExclusionReason} {k : String}

/-- The candidate breaks a hard rule. -/
def Denied (settings : PipelineSettings K) (store : StoreReads) (run : ScoredRun K)
    (c : Candidate K) : Prop := ¬ (evaluateFor settings store run true c).allowed = true

/-- **The first loop** stores every decision and excludes the denied. -/
theorem foldlM_vet {l : List (Candidate K)}
    (hv : l.foldlM (vet settings store run) ⟨.empty, .empty⟩ = some v) :
    v.decisions = Dict.ofList Candidate.candidateId (evaluateFor settings store run true) l ∧
      ∀ k, k ∈ v.exclusions.keys ↔ ∃ c ∈ l, c.candidateId = k ∧ Denied settings store run c := by
  induction l using List.reverseRecOn generalizing v with
  | nil =>
      obtain rfl : (⟨.empty, .empty⟩ : Vetted) = v := by simpa using hv
      exact ⟨rfl, by simp⟩
  | append_singleton l c ih =>
      rw [List.foldlM_append] at hv
      obtain ⟨v₀, hv₀, hlast⟩ := Option.bind_eq_some_iff.mp hv
      obtain ⟨hdec, hex⟩ := ih hv₀
      simp only [List.foldlM_cons, List.foldlM_nil, Option.bind_eq_bind, Option.pure_def,
        Option.bind_fun_some] at hlast
      have hset : v₀.decisions.set c.candidateId (evaluateFor settings store run true c) =
          Dict.ofList Candidate.candidateId (evaluateFor settings store run true) (l ++ [c]) := by
        rw [hdec]
        simp [Dict.ofList]
      unfold vet at hlast
      dsimp only at hlast
      split at hlast
      · rename_i hallowed
        obtain rfl := Option.some.inj hlast
        refine ⟨hset, ?_⟩
        intro k
        dsimp only
        rw [hex]
        constructor
        · rintro ⟨d, hd, hk⟩
          exact ⟨d, List.mem_append_left _ hd, hk⟩
        · rintro ⟨d, hd, hk, hdenied⟩
          rcases List.mem_append.mp hd with hd | hd
          · exact ⟨d, hd, hk, hdenied⟩
          · rw [List.mem_singleton.mp hd] at hdenied
            exact absurd hallowed hdenied
      · rename_i hdenied
        obtain ⟨reason, -, rfl⟩ := Option.map_eq_some_iff.mp hlast
        refine ⟨hset, ?_⟩
        intro k
        dsimp only
        rw [Dict.set, Dict.mem_keys_alter, hex]
        constructor
        · rintro (rfl | ⟨d, hd, hk⟩)
          · exact ⟨c, by simp, rfl, hdenied⟩
          · exact ⟨d, List.mem_append_left _ hd, hk⟩
        · rintro ⟨d, hd, hk, hdenied'⟩
          rcases List.mem_append.mp hd with hd | hd
          · exact Or.inr ⟨d, hd, hk, hdenied'⟩
          · exact Or.inl (by rw [← hk, List.mem_singleton.mp hd])

theorem mem_keys_foldl_setDefault {ms : List (Candidate K)} {reason : ExclusionReason} :
    k ∈ (ms.foldl (fun ex m => ex.setDefault m.candidateId reason) ex).keys ↔
      k ∈ ex.keys ∨ ∃ m ∈ ms, m.candidateId = k := by
  induction ms generalizing ex with
  | nil => simp
  | cons m ms ih =>
      rw [List.foldl_cons, ih, Dict.mem_keys_setDefault]
      simp only [List.mem_cons, exists_eq_or_imp, eq_comm (a := k)]
      tauto

/-- **One bundle**: if a member is excluded, all are. -/
theorem mem_keys_denyBundle {ms : List (Candidate K)} :
    k ∈ (denyBundle ex ms).keys ↔
      k ∈ ex.keys ∨ (∃ m ∈ ms, m.candidateId ∈ ex.keys) ∧ ∃ m ∈ ms, m.candidateId = k := by
  unfold denyBundle
  split
  · rename_i hhit
    rw [mem_keys_foldl_setDefault]
    exact or_congr_right ⟨fun hk => ⟨hhit, hk⟩, And.right⟩
  · rename_i hmiss
    exact ⟨Or.inl, fun hk => hk.resolve_right fun hhit => hmiss hhit.1⟩

/-- **All bundles**, when no id is in two of them: each is hit by what was
excluded before. -/
theorem mem_keys_foldl_denyBundle {l : List (List (Candidate K))}
    (hdisj : l.Pairwise fun ms ms' => ∀ m ∈ ms, ∀ m' ∈ ms', m.candidateId ≠ m'.candidateId) :
    k ∈ (l.foldl denyBundle ex).keys ↔ k ∈ ex.keys ∨
      ∃ ms ∈ l, (∃ m ∈ ms, m.candidateId ∈ ex.keys) ∧ ∃ m ∈ ms, m.candidateId = k := by
  induction l generalizing ex with
  | nil => simp
  | cons ms l ih =>
      rw [List.pairwise_cons] at hdisj
      rw [List.foldl_cons, ih hdisj.2, mem_keys_denyBundle]
      -- a later bundle shares no id with `ms`, so `ms` does not hit it
      have hlater : ∀ ms' ∈ l, (∃ m ∈ ms', m.candidateId ∈ (denyBundle ex ms).keys) ↔
          ∃ m ∈ ms', m.candidateId ∈ ex.keys := by
        intro ms' hms'
        refine exists_congr fun m => and_congr_right ?_
        intro hm
        rw [mem_keys_denyBundle, or_iff_left]
        rintro ⟨-, m₀, hm₀, heq⟩
        exact hdisj.1 ms' hms' m₀ hm₀ m hm heq
      simp only [List.mem_cons, exists_eq_or_imp]
      constructor
      · rintro ((hk | hk) | ⟨ms', hms', hhit, hk⟩)
        · exact Or.inl hk
        · exact Or.inr (Or.inl hk)
        · exact Or.inr (Or.inr ⟨ms', hms', (hlater ms' hms').mp hhit, hk⟩)
      · rintro (hk | hk | ⟨ms', hms', hhit, hk⟩)
        · exact Or.inl (Or.inl hk)
        · exact Or.inl (Or.inr hk)
        · exact Or.inr ⟨ms', hms', (hlater ms' hms').mpr hhit, hk⟩

/-- The candidates bundled with `c`. -/
def SameBundle (c m : Candidate K) : Prop :=
  truthy c.groupId ∧ m.groupId = c.groupId ∧ m.incentiveCode = c.incentiveCode

/-- Candidates bundled with one another are bundled with the same ones. -/
theorem SameBundle.trans {m m' : Candidate K} (hsame : SameBundle c m) (hsame' : SameBundle m m') :
    SameBundle c m' :=
  ⟨hsame.1, hsame'.2.1.trans hsame.2.1, hsame'.2.2.trans hsame.2.2⟩

/-- Candidates of one bundle have its key. -/
theorem sameBundle_iff {c m : Candidate K} (hc : truthy c.groupId) (hm : truthy m.groupId) :
    SameBundle c m ↔
      (m.groupId.getD "", m.incentiveCode) = (c.groupId.getD "", c.incentiveCode) := by
  obtain ⟨g, hg⟩ := Option.ne_none_iff_exists'.mp hc.1
  obtain ⟨g', hg'⟩ := Option.ne_none_iff_exists'.mp hm.1
  rw [hg] at hc
  simp [SameBundle, hc, hg, hg']

/-- **A candidate's bundle**: the candidates bundled with it. -/
theorem exists_bundle {cs : List (Candidate K)} {c m : Candidate K} (hc : c ∈ cs) (hm : m ∈ cs) :
    (∃ ms ∈ (bundles cs).values, c ∈ ms ∧ m ∈ ms) ↔ SameBundle c m := by
  unfold Dict.values
  constructor
  · rintro ⟨ms, hms, hcm, hmm⟩
    obtain ⟨⟨key, ms⟩, hentry, rfl⟩ := List.mem_map.mp hms
    obtain ⟨-, hfilter⟩ := Dict.mem_entries_groupBy.mp hentry
    rw [hfilter, List.mem_filter, List.mem_filter, decide_eq_true_eq, decide_eq_true_eq] at hcm hmm
    exact (sameBundle_iff hcm.1.2 hmm.1.2).mpr (hmm.2.trans hcm.2.symm)
  · intro hsame
    have hmt : truthy m.groupId := hsame.2.1 ▸ hsame.1
    have hkey := (sameBundle_iff hsame.1 hmt).mp hsame
    have hin : ∀ {d : Candidate K}, d ∈ cs → truthy d.groupId →
        d ∈ cs.filter fun c => truthy c.groupId := fun hd ht =>
      List.mem_filter.mpr ⟨hd, decide_eq_true ht⟩
    obtain ⟨ms, hms⟩ := Dict.mem_keys.mp (Dict.mem_keys_groupBy.mpr
      (List.mem_map_of_mem (f := fun c : Candidate K => (c.groupId.getD "", c.incentiveCode))
        (hin hc hsame.1)))
    obtain ⟨-, rfl⟩ := Dict.mem_entries_groupBy.mp hms
    exact ⟨_, List.mem_map_of_mem hms, List.mem_filter.mpr ⟨hin hc hsame.1, by simp⟩,
      List.mem_filter.mpr ⟨hin hm hmt, by simpa using hkey⟩⟩

/-- With distinct ids no id is in two bundles. -/
theorem pairwise_bundles {cs : List (Candidate K)} (hids : (cs.map Candidate.candidateId).Nodup) :
    (bundles cs).values.Pairwise fun ms ms' =>
      ∀ m ∈ ms, ∀ m' ∈ ms', m.candidateId ≠ m'.candidateId := by
  unfold Dict.values
  refine List.pairwise_map.mpr ((List.pairwise_map.mp (bundles cs).nodup).imp_of_mem
    fun {p q} hp hq hne m hm m' hm' heq => ?_)
  obtain ⟨-, hp'⟩ := Dict.mem_entries_groupBy.mp (show (p.1, p.2) ∈ _ from hp)
  obtain ⟨-, hq'⟩ := Dict.mem_entries_groupBy.mp (show (q.1, q.2) ∈ _ from hq)
  rw [hp', List.mem_filter, List.mem_filter] at hm
  rw [hq', List.mem_filter, List.mem_filter] at hm'
  obtain rfl : m = m' := List.inj_on_of_nodup_map hids hm.1.1 hm'.1.1 heq
  exact hne ((of_decide_eq_true hm.2).symm.trans (of_decide_eq_true hm'.2))

/-! ## The stages -/

variable [Ring K] [LinearOrder K]

section Stages

variable (h : Hashes) (settings : PipelineSettings K) (store : StoreReads) (run : ScoredRun K)

/-- `_policy`. -/
def policy : Option Vetted :=
  let candidates := candidates h settings store run
  (candidates.foldlM (vet settings store run) ⟨.empty, .empty⟩).map fun v =>
    { v with exclusions := (bundles candidates).values.foldl denyBundle v.exclusions }

/-- `_rank`: the candidates POLICY has not excluded, ranked. -/
def rankStage (regressor : Ranker.Regressor K) (v : Vetted) : Option (List (RankedCandidate K)) :=
  let allowed := (candidates h settings store run).filter fun c =>
    c.candidateId ∉ v.exclusions.keys
  match Ranker.buildContext run.labeled with
  | .ok context => some (Ranker.rank regressor context allowed settings.rankerMinContextRows)
  | .error _ => none

end Stages

variable {h : Hashes}

/-- **What POLICY decides and excludes**, when no two candidates have one
id: a candidate is excluded if it is denied, or bundled with one that is. -/
theorem policy_spec (hids : ((candidates h settings store run).map Candidate.candidateId).Nodup)
    (hv : policy h settings store run = some v) (hc : c ∈ candidates h settings store run) :
    v.decisions.get? c.candidateId = some (evaluateFor settings store run true c) ∧
      (c.candidateId ∈ v.exclusions.keys ↔ Denied settings store run c ∨
        ∃ m ∈ candidates h settings store run, SameBundle c m ∧ Denied settings store run m) := by
  unfold policy at hv
  obtain ⟨v₀, hv₀, rfl⟩ := Option.map_eq_some_iff.mp hv
  obtain ⟨hdec, hex⟩ := foldlM_vet hv₀
  refine ⟨by rw [hdec]; exact Dict.get?_ofList hids hc, ?_⟩
  dsimp only
  generalize candidates h settings store run = cs at hids hc hex
  have hinj : ∀ {a b : Candidate K}, a ∈ cs → b ∈ cs → a.candidateId = b.candidateId → a = b :=
    fun ha hb => List.inj_on_of_nodup_map hids ha hb
  have hdenied : ∀ {d : Candidate K}, d ∈ cs →
      (d.candidateId ∈ v₀.exclusions.keys ↔ Denied settings store run d) := by
    intro d hd
    rw [hex]
    constructor
    · rintro ⟨d', hd', heq, hden⟩
      exact hinj hd' hd heq ▸ hden
    · exact fun hden => ⟨d, hd, rfl, hden⟩
  have hmem : ∀ {ms : List (Candidate K)}, ms ∈ (bundles cs).values → ∀ m ∈ ms, m ∈ cs := by
    intro ms hms m hm
    obtain ⟨⟨key, ms⟩, hentry, rfl⟩ := List.mem_map.mp hms
    obtain ⟨-, hfilter⟩ := Dict.mem_entries_groupBy.mp hentry
    rw [hfilter] at hm
    exact List.mem_of_mem_filter (List.mem_of_mem_filter hm)
  rw [mem_keys_foldl_denyBundle (pairwise_bundles hids), hdenied hc]
  refine or_congr_right ⟨?_, ?_⟩
  · rintro ⟨ms, hms, ⟨m, hm, hmex⟩, m', hm', heq⟩
    obtain rfl : m' = c := hinj (hmem hms m' hm') hc heq
    exact ⟨m, hmem hms m hm, (exists_bundle hc (hmem hms m hm)).mp ⟨ms, hms, hm', hm⟩,
      (hdenied (hmem hms m hm)).mp hmex⟩
  · rintro ⟨m, hm, hsame, hden⟩
    obtain ⟨ms, hms, hcm, hmm⟩ := (exists_bundle hc hm).mpr hsame
    exact ⟨ms, hms, ⟨m, hmm, (hdenied hm).mpr hden⟩, c, hcm, rfl⟩

/-! ## What RANK passes on -/

variable {regressor : Ranker.Regressor K} {ranked : List (RankedCandidate K)}

/-- **RANK passes on what POLICY has not excluded**, each candidate once. -/
theorem perm_rankStage (hr : rankStage h settings store run regressor v = some ranked) :
    (ranked.map RankedCandidate.candidate).Perm ((candidates h settings store run).filter fun c =>
      c.candidateId ∉ v.exclusions.keys) := by
  unfold rankStage at hr
  dsimp only at hr
  split at hr
  · rw [← Option.some.inj hr]
    exact Ranker.perm_map_candidate_rank
  · cases hr

/-- **Which candidates are ranked**: those that are not denied and not
bundled with one that is. -/
theorem mem_ranked_iff (hu : DistinctCandidates h settings store run)
    (hv : policy h settings store run = some v)
    (hr : rankStage h settings store run regressor v = some ranked) :
    (∃ r ∈ ranked, r.candidate = c) ↔ c ∈ candidates h settings store run ∧
      ¬ Denied settings store run c ∧
        ∀ m ∈ candidates h settings store run, SameBundle c m → ¬ Denied settings store run m := by
  rw [← List.mem_map, (perm_rankStage hr).mem_iff, List.mem_filter, decide_eq_true_eq]
  refine and_congr_right ?_
  intro hc
  rw [(policy_spec hu hv hc).2, not_or]
  refine and_congr_right ?_
  intro _
  push Not
  rfl

/-- The ids of the ranked candidates are distinct. -/
theorem nodup_ranked (hu : DistinctCandidates h settings store run)
    (hr : rankStage h settings store run regressor v = some ranked) :
    (ranked.map fun r => r.candidate.candidateId).Nodup := by
  have hperm := (perm_rankStage hr).map Candidate.candidateId
  rw [List.map_map] at hperm
  exact hperm.nodup_iff.mpr ((List.filter_sublist.map _).nodup hu)

end Pipeline

end RetentionEngine
