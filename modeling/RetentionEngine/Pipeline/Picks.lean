import RetentionEngine.Pipeline.Allocate

/-!
# Picks

What the picks of a run that completes ALLOCATE are made of, in terms of
the candidates: an ENGINE pick of the selected candidates of one unit, a
NAIVE pick of the cheapest allowed candidate of one at-risk user. Every
law about picks is derived from the two specifications here
(`Completed.isEnginePick`, `Completed.isNaivePick`) and from the converse,
that whoever qualifies gets his pick.
-/

namespace RetentionEngine

namespace Pipeline

open Allocator (Selects DistinctIds IsAllocation KnapsackItem unitOf selectedOf
  mem_selectedOf)

variable {K : Type} [Field K] [LinearOrder K]

/-- **A run that completes ALLOCATE**, and what each stage left behind. -/
structure Completed (h : Hashes) (settings : PipelineSettings K) (store : StoreReads)
    (run : ScoredRun K) (regressor : Ranker.Regressor K) (v : Vetted)
    (ranked : List (RankedCandidate K)) (a : Allocated K) : Prop where
  policy : policy h settings store run = some v
  rank : rankStage h settings store run regressor v = some ranked
  arms : arms h settings store run = some a.arms
  engine : a.engine = engineRanked a.arms ranked
  allocation : Allocator.allocate a.engine settings.defaultBudgetIdr (allocatorConfig settings) =
    .ok a.allocation
  enginePicks : enginePicks h v a.engine a.allocation = some a.enginePicks
  naivePicks : ∃ extra, naiveArm h settings store run a.arms = some (a.naivePicks, extra)

variable {h : Hashes} {settings : PipelineSettings K} {store : StoreReads} {run : ScoredRun K}
  {regressor : Ranker.Regressor K} {v : Vetted} {ranked : List (RankedCandidate K)}
  {a : Allocated K} {c : Candidate K} {r r' : RankedCandidate K} {p : Pick K} {u : String}

/-- What the stages return is what they left behind on the way. -/
theorem exists_completed (hrun : decisionStages h settings store run regressor = some a) :
    ∃ v ranked, Completed h settings store run regressor v ranked a := by
  unfold decisionStages at hrun
  obtain ⟨v, hv, hrun⟩ := Option.bind_eq_some_iff.mp hrun
  obtain ⟨ranked, hr, hrun⟩ := Option.bind_eq_some_iff.mp hrun
  unfold allocate at hrun
  obtain ⟨arms, harms, hrun⟩ := Option.bind_eq_some_iff.mp hrun
  dsimp only at hrun
  obtain ⟨allocation, halloc, hrun⟩ := Option.bind_eq_some_iff.mp hrun
  obtain ⟨enginePicks, hengine, hrun⟩ := Option.bind_eq_some_iff.mp hrun
  obtain ⟨⟨naivePicks, extra⟩, hnaive, hrun⟩ := Option.bind_eq_some_iff.mp hrun
  obtain rfl := Option.some.inj hrun
  refine ⟨v, ranked, hv, hr, harms, rfl, ?_, hengine, extra, hnaive⟩
  dsimp only
  cases hok : Allocator.allocate (engineRanked arms ranked) settings.defaultBudgetIdr
      (allocatorConfig settings) with
  | error e =>
      rw [hok] at halloc
      cases halloc
  | ok res =>
      rw [hok] at halloc
      rw [Option.some.inj halloc]

/-- When each stage goes through, so does the run. -/
theorem exists_decisionStages {d : Dict String Arm} {res : AllocationResult K}
    {picks : List (Pick K)} {naive : List (Pick K) × List (AllocationDecision K)}
    (hv : policy h settings store run = some v)
    (hr : rankStage h settings store run regressor v = some ranked)
    (harms : arms h settings store run = some d)
    (halloc : Allocator.allocate (engineRanked d ranked) settings.defaultBudgetIdr
      (allocatorConfig settings) = .ok res)
    (hpicks : enginePicks h v (engineRanked d ranked) res = some picks)
    (hnaive : naiveArm h settings store run d = some naive) :
    ∃ a, decisionStages h settings store run regressor = some a := by
  unfold decisionStages allocate
  rw [hv, Option.bind_eq_bind, Option.bind_some, hr, Option.bind_eq_bind, Option.bind_some, harms,
    Option.bind_eq_bind, Option.bind_some]
  dsimp only
  rw [halloc]
  dsimp only [Except.toOption]
  rw [Option.bind_eq_bind, Option.bind_some, hpicks, Option.bind_eq_bind, Option.bind_some, hnaive]
  exact ⟨_, rfl⟩

/-! ## Units and ids -/

/-- The pipeline's units are the allocator's. -/
theorem unit_eq_unitOf (hc : c ∈ candidates h settings store run) : unit c = unitOf c := by
  unfold unit
  cases hg : c.groupId with
  | none =>
      rw [Allocator.unitOf_of_none hg]
      exact if_neg fun ht => ht.1 rfl
  | some g =>
      rw [Allocator.unitOf_of_some hg, if_pos (hg ▸ truthy_of_groupId hc hg)]
      rfl

/-- The units of a group and of a user are different. -/
theorem unitOf_ne {c' : Candidate K} (hgroup : c.groupId ≠ none)
    (hc' : c' ∈ candidates h settings store run) (hnone : c'.groupId = none) :
    unitOf c ≠ unitOf c' := by
  obtain ⟨g, hg⟩ := Option.ne_none_iff_exists'.mp hgroup
  rw [Allocator.unitOf_of_some hg, Allocator.unitOf_of_none hnone]
  intro heq
  have hhex := ScoredRun.hex_of_mem_users (mem_users_of_mem_candidates hc')
  exact hhex.not_startsWith_group (heq ▸ startsWith_append _ _)

/-- Candidates of one unit are of one group, or of none. -/
theorem groupId_eq_of_unitOf {c' : Candidate K} (hc : c ∈ candidates h settings store run)
    (hc' : c' ∈ candidates h settings store run) (heq : unitOf c = unitOf c') :
    c.groupId = c'.groupId := by
  cases hg : c.groupId with
  | none =>
      by_contra hgroup
      exact unitOf_ne (Ne.symm hgroup) hc hg heq.symm
  | some g =>
      cases hg' : c'.groupId with
      | none => exact absurd heq (unitOf_ne (by simp [hg]) hc' hg')
      | some g' =>
          rw [Allocator.unitOf_of_some hg, Allocator.unitOf_of_some hg'] at heq
          rw [append_right_inj_text heq]

/-- A candidate's id is cut from a digest. -/
theorem exists_candidateId (hc : c ∈ candidates h settings store run) :
    ∃ parts, c.candidateId = h.idOf "cand" parts := by
  cases hg : c.groupId with
  | none =>
      obtain ⟨u, -, i, -, -, rfl⟩ := exists_of_groupId_none hc hg
      exact ⟨_, rfl⟩
  | some g =>
      obtain ⟨-, -, -, -, i, -, -, u, -, rfl⟩ := exists_of_groupId_some hc hg
      exact ⟨_, rfl⟩

/-- **The arm of a unit is the one its digest assigns.** -/
theorem get?_arms {d : Dict String Arm} (harms : arms h settings store run = some d)
    (hunit : u ∈ units h settings store run) :
    d.get? u = (armOf h settings store run u).toOption := by
  obtain ⟨pairs, hpairs, rfl⟩ := Option.map_eq_some_iff.mp harms
  have hall := forall₂_of_mapM hpairs
  have hfst : pairs.map Prod.fst = units h settings store run := by
    have hmap := map_eq_map_of_forall₂ (f := id) (g := Prod.fst) hall fun u pair hpair => by
      obtain ⟨arm, -, rfl⟩ := Option.map_eq_some_iff.mp hpair
      rfl
    rwa [List.map_id] at hmap
  have hnodup : (units h settings store run).Nodup :=
    (List.perm_insertionSort _ _).nodup_iff.mpr (List.nodup_dedup _)
  obtain ⟨pair, hmem, hpair⟩ := exists_right_of_forall₂ hall hunit
  obtain ⟨arm, harm, rfl⟩ := Option.map_eq_some_iff.mp hpair
  rw [harm]
  exact Dict.get?_ofList (hfst ▸ hnodup) hmem

/-- Every unit has an arm. -/
theorem exists_get?_arms {d : Dict String Arm} (harms : arms h settings store run = some d)
    (hunit : u ∈ units h settings store run) : ∃ arm, d.get? u = some arm := by
  rw [get?_arms harms hunit]
  obtain ⟨pairs, hpairs, -⟩ := Option.map_eq_some_iff.mp harms
  obtain ⟨pair, -, hpair⟩ := exists_right_of_forall₂ (forall₂_of_mapM hpairs) hunit
  obtain ⟨arm, harm, -⟩ := Option.map_eq_some_iff.mp hpair
  exact ⟨arm, harm⟩

theorem mem_units_of_mem_users (hmem : u ∈ run.users) : u ∈ units h settings store run :=
  (List.perm_insertionSort _ _).mem_iff.mpr (List.mem_dedup.mpr (List.mem_append_left _ hmem))

theorem unitOf_mem_units (hc : c ∈ candidates h settings store run) :
    unitOf c ∈ units h settings store run := by
  have hmap : unitOf c ∈ (candidates h settings store run).map unit :=
    List.mem_map.mpr ⟨c, hc, unit_eq_unitOf hc⟩
  have hdedup := List.mem_dedup.mpr (List.mem_append_right run.users hmap)
  exact (List.perm_insertionSort _ _).mem_iff.mpr hdedup

namespace Completed

variable (hdone : Completed h settings store run regressor v ranked a)
include hdone

/-- The arm of a candidate's unit. -/
theorem get?_arms_unit (hc : c ∈ candidates h settings store run) {arm : Arm} :
    a.arms.get? (unit c) = some arm ↔ armOf h settings store run (unitOf c) = .ok arm := by
  rw [unit_eq_unitOf hc, get?_arms hdone.arms (unitOf_mem_units hc), toOption_eq_some]

/-- **The candidates of the ENGINE arm**: neither denied nor bundled with a
denied one, and of a unit in that arm. -/
theorem mem_engine_iff (hu : DistinctCandidates h settings store run) :
    (∃ r ∈ a.engine, r.candidate = c) ↔ c ∈ candidates h settings store run ∧
      ¬ Denied settings store run c ∧
      (∀ m ∈ candidates h settings store run, SameBundle c m → ¬ Denied settings store run m) ∧
      armOf h settings store run (unitOf c) = .ok .engine := by
  have hranked := mem_ranked_iff (c := c) hu hdone.policy hdone.rank
  rw [hdone.engine]
  unfold engineRanked
  constructor
  · rintro ⟨r, hr, rfl⟩
    obtain ⟨hr, harm⟩ := List.mem_filter.mp hr
    obtain ⟨hc, hnot, hmates⟩ := hranked.mp ⟨r, hr, rfl⟩
    exact ⟨hc, hnot, hmates, (hdone.get?_arms_unit hc).mp (of_decide_eq_true harm)⟩
  · rintro ⟨hc, hnot, hmates, harm⟩
    obtain ⟨r, hr, rfl⟩ := hranked.mpr ⟨hc, hnot, hmates⟩
    have hkeep := (hdone.get?_arms_unit hc).mpr harm
    exact ⟨r, List.mem_filter.mpr ⟨hr, decide_eq_true hkeep⟩, rfl⟩

theorem mem_candidates_of_mem_engine (hu : DistinctCandidates h settings store run)
    (hr : r ∈ a.engine) :
    r.candidate ∈ candidates h settings store run :=
  ((hdone.mem_engine_iff hu).mp ⟨r, hr, rfl⟩).1

/-- **The ids the allocator sees are distinct** and look like no bundle. -/
theorem distinctIds (hu : DistinctCandidates h settings store run) : DistinctIds a.engine where
  ids := by
    rw [hdone.engine]
    exact (List.filter_sublist.map _).nodup (nodup_ranked hu hdone.rank)
  candidateIds r hr := by
    obtain ⟨parts, hid⟩ := exists_candidateId (hdone.mem_candidates_of_mem_engine hu hr)
    rw [hid]
    exact h.not_startsWith_idOf parts
  groupIds r hr g hg := by
    obtain ⟨circle, hcircle, rfl⟩ :=
      exists_circle_of_groupId (hdone.mem_candidates_of_mem_engine hu hr) hg
    rw [GraphSignal.circleId_eq hcircle]
    exact h.not_mem_circleId (by decide) (by decide) _
  pseudonyms r hr := by
    have hmem := mem_users_of_mem_candidates (hdone.mem_candidates_of_mem_engine hu hr)
    exact (ScoredRun.hex_of_mem_users hmem).not_startsWith_group

end Completed

/-! ## ENGINE picks -/

/-- **What an ENGINE pick is made of**: the selected candidates of its
unit, all of one group and one incentive. -/
structure IsEnginePick (engine : List (RankedCandidate K)) (res : AllocationResult K)
    (p : Pick K) : Prop where
  arm : p.arm = .engine
  groupId : p.top.candidate.groupId = p.groupId
  ne_nil : selectedOf engine res (unitOf p.top.candidate) ≠ []
  targets : p.targets.Perm ((selectedOf engine res (unitOf p.top.candidate)).map
    fun r => r.candidate.userPseudonym)
  uniform : ∀ r ∈ selectedOf engine res (unitOf p.top.candidate),
    r.candidate.groupId = p.groupId ∧ r.candidate.incentiveCode = p.top.candidate.incentiveCode

section EnginePick

variable {engine : List (RankedCandidate K)} {res : AllocationResult K} {key : String}
  {its sel : List (KnapsackItem K)} {o : Allocator.Outcome K}

/-- The selected candidates of a unit are of one group and incentive, and
one candidate if they have no group. -/
theorem uniform_selectedOf (hids : DistinctIds engine)
    (halloc : IsAllocation engine its sel o res) (hr : r ∈ selectedOf engine res key)
    (hr' : r' ∈ selectedOf engine res key) : r'.candidate.groupId = r.candidate.groupId ∧
      r'.candidate.incentiveCode = r.candidate.incentiveCode ∧
        (r.candidate.groupId = none → r' = r) := by
  obtain ⟨hmem, hsel, hunit⟩ := mem_selectedOf.mp hr
  obtain ⟨hmem', hsel', hunit'⟩ := mem_selectedOf.mp hr'
  have hitem := halloc.itemIdOf_eq_of_unitOf hids hmem hmem' hsel hsel' (hunit.trans hunit'.symm)
  rcases hids.eq_or_of_itemIdOf hmem hmem' hitem with ⟨rfl, -⟩ | ⟨g, hg, hg', hinc⟩
  · exact ⟨rfl, rfl, fun _ => rfl⟩
  · exact ⟨hg'.trans hg.symm, hinc.symm, fun hnone => by rw [hg] at hnone; cases hnone⟩

/-- Looking the selected decisions of a unit up gives its selected
candidates. -/
theorem perm_topMembers (hids : DistinctIds engine) (halloc : IsAllocation engine its sel o res)
    {members : List (RankedCandidate K)}
    (hlookup : (res.decisions.filter fun d => d.choiceKey = key ∧ d.selected = true).mapM
      (fun d => (Dict.ofList (fun r : RankedCandidate K => r.candidate.candidateId) id engine).get?
        d.candidateId) = some members) : members.Perm (selectedOf engine res key) := by
  have hall := forall₂_of_mapM hlookup
  have hmem : ∀ r ∈ members, r ∈ engine := by
    intro r hr
    obtain ⟨d, -, hget⟩ := exists_left_of_forall₂ hall hr
    obtain ⟨r', hr', -, rfl⟩ := Dict.exists_of_get?_ofList hget
    exact hr'
  refine perm_of_perm_map hids.ids hmem List.filter_sublist ?_
  refine (List.Perm.of_eq ?_).trans (halloc.perm_selectedOf hids key)
  refine map_eq_map_of_forall₂ hall ?_
  intro d r hget
  obtain ⟨r', -, hid, rfl⟩ := Dict.exists_of_get?_ofList hget
  exact hid

/-- A pick of a group: its members are the selected candidates of the group. -/
theorem isEnginePick_group (hids : DistinctIds engine) (halloc : IsAllocation engine its sel o res)
    {members : List (RankedCandidate K)} (hperm : members.Perm (selectedOf engine res key))
    (hgroup : startsWith key "group:") {priority : K} {top : RankedCandidate K}
    (htop : bundleRep h members priority = some top) (harm : p.arm = .engine) (hp : p.top = top)
    (hpg : p.groupId = some (removePrefix key "group:"))
    (hpm : p.members = members.map fun m => m.candidate.userPseudonym) :
    unitOf p.top.candidate = key ∧ IsEnginePick engine res p := by
  obtain ⟨first, hhead, rfl⟩ := Option.map_eq_some_iff.mp htop
  have hfirst : first ∈ selectedOf engine res key :=
    hperm.mem_iff.mp (List.mem_of_mem_head? hhead)
  obtain ⟨hmem, -, hunit⟩ := mem_selectedOf.mp hfirst
  -- the key is a group's, and the group the candidates'
  obtain ⟨g, hg⟩ : ∃ g, first.candidate.groupId = some g := by
    refine Option.ne_none_iff_exists'.mp ?_
    intro hnone
    rw [Allocator.unitOf_of_none hnone] at hunit
    exact hids.pseudonyms first hmem (hunit ▸ hgroup)
  rw [Allocator.unitOf_of_some hg] at hunit
  rw [← hunit, removePrefix_append] at hpg
  have htopGroup : p.top.candidate.groupId = some g := by rw [hp]; exact hg
  have hkey : unitOf p.top.candidate = key := by
    rw [Allocator.unitOf_of_some htopGroup, hunit]
  refine ⟨hkey, harm, by rw [htopGroup, hpg], ?_, ?_, ?_⟩
  · rw [hkey]
    exact List.ne_nil_of_mem hfirst
  · rw [hkey]
    unfold Pick.targets
    rw [if_neg (by simp [hpg]), hpm]
    exact hperm.map _
  · intro r hr
    rw [hkey] at hr
    obtain ⟨hrg, hrc, -⟩ := uniform_selectedOf hids halloc hfirst hr
    exact ⟨by rw [hrg, hg, hpg], by rw [hrc, hp]⟩

/-- A pick of a user: its subject is the one selected candidate. -/
theorem isEnginePick_single (hids : DistinctIds engine) (halloc : IsAllocation engine its sel o res)
    {members : List (RankedCandidate K)} (hperm : members.Perm (selectedOf engine res key))
    (hsingle : ¬ startsWith key "group:") (htop : members.head? = some p.top)
    (harm : p.arm = .engine) (hpg : p.groupId = none) :
    unitOf p.top.candidate = key ∧ IsEnginePick engine res p := by
  have hfirst : p.top ∈ selectedOf engine res key :=
    hperm.mem_iff.mp (List.mem_of_mem_head? htop)
  obtain ⟨hmem, -, hunit⟩ := mem_selectedOf.mp hfirst
  have hnone : p.top.candidate.groupId = none := by
    refine Option.eq_none_iff_forall_ne_some.mpr fun g hg => hsingle ?_
    rw [← hunit, Allocator.unitOf_of_some hg]
    exact startsWith_append _ _
  have hone : selectedOf engine res key = [p.top] := by
    refine List.perm_singleton.mp ((List.perm_ext_iff_of_nodup (hids.ids.of_map.filter _)
      (List.nodup_singleton _)).mpr ?_)
    intro r
    rw [List.mem_singleton]
    exact ⟨fun hr => (uniform_selectedOf hids halloc hfirst hr).2.2 hnone, fun heq => heq ▸ hfirst⟩
  refine ⟨hunit, harm, by rw [hnone, hpg], ?_, ?_, ?_⟩
  · rw [hunit, hone]
    simp
  · rw [hunit, hone]
    unfold Pick.targets
    rw [if_pos hpg]
    exact .refl _
  · intro r hr
    rw [hunit, hone] at hr
    rw [List.mem_singleton.mp hr]
    exact ⟨by rw [hnone, hpg], rfl⟩

omit [Field K] [LinearOrder K] in
/-- The selected decisions of a key. -/
theorem filter_selected : (res.decisions.filter fun d => d.choiceKey = key).filter
    AllocationDecision.selected =
      res.decisions.filter fun d => d.choiceKey = key ∧ d.selected = true := by
  rw [List.filter_filter]
  exact List.filter_congr fun d _ => by simp [Bool.and_comm]

/-- **The pick of a key**, if there is one, is made of the selected
candidates of that key; there is one if any is selected. -/
theorem enginePick_spec (hids : DistinctIds engine) (halloc : IsAllocation engine its sel o res)
    {ds : List (AllocationDecision K)} (hds : ds = res.decisions.filter fun d => d.choiceKey = key)
    {op : Option (Pick K)} (hop : enginePick h v engine key ds = some op) :
    (∀ p, op = some p → unitOf p.top.candidate = key ∧ IsEnginePick engine res p) ∧
      (selectedOf engine res key ≠ [] → op ≠ none) := by
  have hchosen : ds.filter AllocationDecision.selected =
      res.decisions.filter fun d => d.choiceKey = key ∧ d.selected = true := by
    rw [hds, filter_selected]
  unfold enginePick at hop
  dsimp only at hop
  rw [hchosen] at hop
  split at hop
  · rename_i hnil
    obtain rfl := Option.some.inj hop
    refine ⟨fun p hp => (by cases hp), fun hne => absurd ?_ hne⟩
    have hperm := halloc.perm_selectedOf hids key
    rw [hnil] at hperm
    exact List.map_eq_nil_iff.mp hperm.symm.eq_nil
  · rename_i d rest hcons
    obtain ⟨topMembers, htop, hop⟩ := Option.bind_eq_some_iff.mp hop
    obtain ⟨runnerMembers, -, hop⟩ := Option.bind_eq_some_iff.mp hop
    obtain ⟨policy, -, hop⟩ := Option.bind_eq_some_iff.mp hop
    have hperm := perm_topMembers hids halloc htop
    split at hop
    · rename_i hgroup
      obtain ⟨top, hrep, hop⟩ := Option.bind_eq_some_iff.mp hop
      obtain rfl := Option.some.inj hop
      refine ⟨?_, fun _ => by simp⟩
      intro p hp
      obtain rfl := Option.some.inj hp
      exact isEnginePick_group hids halloc hperm hgroup hrep rfl rfl rfl rfl
    · rename_i hsingle
      obtain ⟨top, hhead, hop⟩ := Option.bind_eq_some_iff.mp hop
      obtain rfl := Option.some.inj hop
      refine ⟨?_, fun _ => by simp⟩
      intro p hp
      obtain rfl := Option.some.inj hp
      exact isEnginePick_single hids halloc hperm hsingle hhead rfl rfl

end EnginePick

namespace Completed

variable (hdone : Completed h settings store run regressor v ranked a)
  (hu : DistinctCandidates h settings store run)
include hdone hu

/-- The allocation the picks are made from. -/
theorem isAllocation : ∃ its sel o, IsAllocation a.engine its sel o a.allocation := by
  obtain ⟨its, sel, o, -, halloc, -⟩ :=
    Allocator.allocate_spec (hdone.distinctIds hu) hdone.allocation
  exact ⟨its, sel, o, halloc⟩

/-- **The selected candidates of a unit are of different users**: they agree
in incentive and group, so their ids would be hashed of one text. -/
theorem nodup_users_selectedOf (key : String) : ((selectedOf a.engine a.allocation key).map
    fun r => r.candidate.userPseudonym).Nodup := by
  obtain ⟨its, sel, o, halloc⟩ := hdone.isAllocation hu
  have hids := hdone.distinctIds hu
  refine List.Nodup.map_on ?_ (hids.ids.of_map.filter _)
  intro r hr r' hr' huser
  obtain ⟨hg, hi, -⟩ := uniform_selectedOf hids halloc hr hr'
  have hmem := (mem_selectedOf.mp hr).1
  have hmem' := (mem_selectedOf.mp hr').1
  have hcand := hdone.mem_candidates_of_mem_engine hu hmem
  have hcand' := hdone.mem_candidates_of_mem_engine hu hmem'
  have htext : candidateText run r.candidate = candidateText run r'.candidate := by
    rw [candidateText, candidateText, hg, hi, huser]
  have heq := eq_of_candidateText hcand hcand' htext
  exact List.inj_on_of_nodup_map hids.ids hmem hmem' (congrArg Candidate.candidateId heq)

/-- The ENGINE picks correspond to the keys of the decisions, in order. -/
theorem forall₂_enginePicks : ∃ keys : List String, ∃ ops : List (Option (Pick K)),
    keys.Nodup ∧ (∀ key, key ∈ keys ↔ key ∈ a.allocation.decisions.map
      AllocationDecision.choiceKey) ∧ a.enginePicks = ops.reduceOption ∧
    List.Forall₂ (fun key op =>
      (∀ p, op = some p → unitOf p.top.candidate = key ∧ IsEnginePick a.engine a.allocation p) ∧
        (selectedOf a.engine a.allocation key ≠ [] → op ≠ none)) keys ops := by
  obtain ⟨its, sel, o, halloc⟩ := hdone.isAllocation hu
  obtain ⟨ops, hops, heq⟩ := Option.map_eq_some_iff.mp hdone.enginePicks
  have hperm := List.perm_insertionSort
    (fun p q : String × List (AllocationDecision K) => p.1 ≤ q.1)
    (Dict.groupBy AllocationDecision.choiceKey a.allocation.decisions).entries
  refine ⟨_, ops, (hperm.map Prod.fst).nodup_iff.mpr (Dict.nodup _), ?_, heq.symm,
    List.forall₂_map_left_iff.mpr ?_⟩
  · intro key
    rw [(hperm.map Prod.fst).mem_iff]
    exact Dict.mem_keys_groupBy
  · have hgroup : ∀ q ∈ (Dict.groupBy AllocationDecision.choiceKey
        a.allocation.decisions).entries.insertionSort fun p q => p.1 ≤ q.1,
        q.2 = a.allocation.decisions.filter fun d => d.choiceKey = q.1 := fun q hq =>
      (Dict.mem_entries_groupBy.mp (show (q.1, q.2) ∈ _ from hperm.mem_iff.mp hq)).2
    exact ((List.forall₂_and_left _ _).mpr ⟨hgroup, forall₂_of_mapM hops⟩).imp
      fun q op hq => enginePick_spec (hdone.distinctIds hu) halloc hq.1 hq.2

/-- **Every ENGINE pick is made of the selected candidates of its unit.** -/
theorem isEnginePick (hp : p ∈ a.enginePicks) : IsEnginePick a.engine a.allocation p := by
  obtain ⟨keys, ops, -, -, heq, hall⟩ := hdone.forall₂_enginePicks hu
  rw [heq, List.reduceOption_mem_iff] at hp
  obtain ⟨key, -, hspec, -⟩ := exists_left_of_forall₂ hall hp
  exact (hspec p rfl).2

/-- The pick of a unit is computed from the unit's decisions. -/
theorem enginePick_eq (hp : p ∈ a.enginePicks) :
    enginePick h v a.engine (unitOf p.top.candidate) (a.allocation.decisions.filter
      fun d => d.choiceKey = unitOf p.top.candidate) = some (some p) := by
  obtain ⟨its, sel, o, halloc⟩ := hdone.isAllocation hu
  obtain ⟨ops, hops, heq⟩ := Option.map_eq_some_iff.mp hdone.enginePicks
  rw [← heq, List.reduceOption_mem_iff] at hp
  obtain ⟨⟨key, ds⟩, hmem, hpick⟩ := exists_left_of_forall₂ (forall₂_of_mapM hops) hp
  have hds := (Dict.mem_entries_groupBy.mp ((List.perm_insertionSort _ _).mem_iff.mp hmem)).2
  have hkey := ((enginePick_spec (hdone.distinctIds hu) halloc hds hpick).1 p rfl).1
  rw [hkey, ← hds]
  exact hpick

/-- **What an ENGINE pick is built from**: the selected candidates of its
unit, whose ids it carries. Its top is the one there is, or their bundle. -/
theorem exists_members_enginePick (hp : p ∈ a.enginePicks) :
    ∃ members : List (RankedCandidate K),
      members.Perm (selectedOf a.engine a.allocation (unitOf p.top.candidate)) ∧
      p.candidateIds = (a.allocation.decisions.filter fun d =>
        d.choiceKey = unitOf p.top.candidate ∧ d.selected = true).map
          AllocationDecision.candidateId ∧
      (members = [p.top] ∨ ∃ priority, bundleRep h members priority = some p.top) := by
  obtain ⟨its, sel, o, halloc⟩ := hdone.isAllocation hu
  have hids := hdone.distinctIds hu
  have hdecisions := halloc.perm_selectedOf hids (unitOf p.top.candidate)
  have htargets := (hdone.isEnginePick hu hp).targets
  have hpick := hdone.enginePick_eq hu hp
  generalize unitOf p.top.candidate = key at hdecisions htargets hpick ⊢
  unfold enginePick at hpick
  dsimp only at hpick
  rw [filter_selected] at hpick
  split at hpick
  · cases hpick
  · rename_i first rest hchosen
    obtain ⟨topMembers, htop, hpick⟩ := Option.bind_eq_some_iff.mp hpick
    obtain ⟨runnerMembers, -, hpick⟩ := Option.bind_eq_some_iff.mp hpick
    obtain ⟨policy, -, hpick⟩ := Option.bind_eq_some_iff.mp hpick
    have hperm := perm_topMembers hids halloc htop
    refine ⟨topMembers, hperm, ?_⟩
    split at hpick
    · obtain ⟨top, hrep, hpick⟩ := Option.bind_eq_some_iff.mp hpick
      obtain rfl := Option.some.inj (Option.some.inj hpick)
      exact ⟨rfl, Or.inr ⟨_, hrep⟩⟩
    · obtain ⟨top, hhead, hpick⟩ := Option.bind_eq_some_iff.mp hpick
      obtain rfl := Option.some.inj (Option.some.inj hpick)
      -- a pick without a group has one target, and as many candidates
      have hone := htargets.length_eq
      have hlength := hperm.length_eq
      have hselected := hdecisions.length_eq
      rw [hchosen] at hselected ⊢
      simp only [Pick.targets, if_pos, List.length_map, List.length_cons, List.length_nil]
        at hone hselected
      have hrest : rest = [] := List.length_eq_zero_iff.mp (by omega)
      have hmembers : topMembers.length = 1 := by omega
      obtain ⟨m, rfl⟩ := List.length_eq_one_iff.mp hmembers
      obtain rfl : m = top := Option.some.inj hhead
      exact ⟨by rw [hrest]; rfl, Or.inl rfl⟩

/-- **Two ENGINE picks are of different units.** -/
theorem pairwise_enginePicks :
    a.enginePicks.Pairwise fun p q => unitOf p.top.candidate ≠ unitOf q.top.candidate := by
  obtain ⟨keys, ops, hnodup, -, heq, hall⟩ := hdone.forall₂_enginePicks hu
  rw [heq]
  refine pairwise_reduceOption_of_forall₂ hall hnodup ?_
  intro key key' p q hne hp hq
  rw [(hp.1 p rfl).1, (hq.1 q rfl).1]
  exact hne

/-- **A selected candidate has its unit's pick.** -/
theorem exists_enginePick (hr : r ∈ a.engine) (hsel : Selects a.allocation r.candidate) :
    ∃ p ∈ a.enginePicks, unitOf p.top.candidate = unitOf r.candidate := by
  obtain ⟨keys, ops, -, hkeys, heq, hall⟩ := hdone.forall₂_enginePicks hu
  have hmem : r ∈ selectedOf a.engine a.allocation (unitOf r.candidate) :=
    mem_selectedOf.mpr ⟨hr, hsel, rfl⟩
  -- a decision selects `r`, so its unit is a key
  obtain ⟨its, sel, o, halloc⟩ := hdone.isAllocation hu
  have hids := halloc.perm_selectedOf (hdone.distinctIds hu) (unitOf r.candidate)
  obtain ⟨d, hd, -⟩ := List.mem_map.mp (hids.mem_iff.mpr (List.mem_map_of_mem hmem))
  obtain ⟨hd, hkey⟩ := List.mem_filter.mp hd
  obtain ⟨hchoice, -⟩ := of_decide_eq_true hkey
  have hin : unitOf r.candidate ∈ keys := (hkeys _).mpr (List.mem_map.mpr ⟨d, hd, hchoice⟩)
  obtain ⟨op, hop, hspec, hsome⟩ := exists_right_of_forall₂ hall hin
  obtain ⟨p, rfl⟩ := Option.ne_none_iff_exists'.mp (hsome (List.ne_nil_of_mem hmem))
  exact ⟨p, heq ▸ List.reduceOption_mem_iff.mpr hop, (hspec p rfl).1⟩

end Completed

/-- **The allocator chooses a candidate**: asked about the run's ranked
candidates of ENGINE units, at the run's budget, it selects it. -/
def Chosen (h : Hashes) (settings : PipelineSettings K) (store : StoreReads) (run : ScoredRun K)
    (regressor : Ranker.Regressor K) (c : Candidate K) : Prop :=
  ∃ v ∈ policy h settings store run, ∃ ranked ∈ rankStage h settings store run regressor v,
    ∃ d ∈ arms h settings store run,
      ∃ res ∈ (Allocator.allocate (engineRanked d ranked) settings.defaultBudgetIdr
        (allocatorConfig settings)).toOption,
        (∃ r ∈ engineRanked d ranked, r.candidate = c) ∧ Selects res c

namespace Completed

variable (hdone : Completed h settings store run regressor v ranked a)
include hdone

theorem chosen_iff : Chosen h settings store run regressor c ↔
    ∃ r ∈ a.engine, r.candidate = c ∧ Selects a.allocation r.candidate := by
  constructor
  · rintro ⟨v', hv, ranked', hr, d, harms, res, hres, ⟨r, hmem, rfl⟩, hsel⟩
    obtain rfl : v = v' := Option.some.inj (hdone.policy.symm.trans hv)
    obtain rfl : ranked = ranked' := Option.some.inj (hdone.rank.symm.trans hr)
    obtain rfl : a.arms = d := Option.some.inj (hdone.arms.symm.trans harms)
    rw [← hdone.engine] at hmem hres
    obtain rfl : a.allocation = res :=
      Except.ok.inj (hdone.allocation.symm.trans (toOption_eq_some.mp hres))
    exact ⟨r, hmem, rfl, hsel⟩
  · rintro ⟨r, hmem, rfl, hsel⟩
    refine ⟨v, hdone.policy, ranked, hdone.rank, a.arms, hdone.arms, a.allocation, ?_, ?_, hsel⟩
    · rw [← hdone.engine]
      exact toOption_eq_some.mpr hdone.allocation
    · exact ⟨r, hdone.engine ▸ hmem, rfl⟩

variable (hu : DistinctCandidates h settings store run)
include hu

/-- **Whom the ENGINE picks target**: the users of the chosen candidates. -/
theorem mem_targets_engine (hp : p ∈ a.enginePicks) : u ∈ p.targets ↔
    ∃ c, Chosen h settings store run regressor c ∧ c.userPseudonym = u ∧
      unitOf c = unitOf p.top.candidate := by
  rw [(hdone.isEnginePick hu hp).targets.mem_iff, List.mem_map]
  simp only [mem_selectedOf, hdone.chosen_iff]
  constructor
  · rintro ⟨r, ⟨hr, hsel, hunit⟩, rfl⟩
    exact ⟨r.candidate, ⟨r, hr, rfl, hsel⟩, rfl, hunit⟩
  · rintro ⟨-, ⟨r, hr, rfl, hsel⟩, rfl, hunit⟩
    exact ⟨r, ⟨hr, hsel, hunit⟩, rfl⟩

theorem exists_enginePick_of_chosen (hc : Chosen h settings store run regressor c) :
    ∃ p ∈ a.enginePicks, unitOf p.top.candidate = unitOf c ∧ c.userPseudonym ∈ p.targets := by
  obtain ⟨r, hr, rfl, hsel⟩ := hdone.chosen_iff.mp hc
  obtain ⟨p, hp, hunit⟩ := hdone.exists_enginePick hu hr hsel
  exact ⟨p, hp, hunit, (hdone.mem_targets_engine hu hp).mpr ⟨_, hc, rfl, hunit.symm⟩⟩

/-- What is chosen is a candidate of an ENGINE unit. -/
theorem of_chosen (hc : Chosen h settings store run regressor c) :
    c ∈ candidates h settings store run ∧
      armOf h settings store run (unitOf c) = .ok .engine := by
  obtain ⟨r, hr, rfl, -⟩ := hdone.chosen_iff.mp hc
  obtain ⟨hcand, -, -, harm⟩ := (hdone.mem_engine_iff hu).mp ⟨r, hr, rfl⟩
  exact ⟨hcand, harm⟩

end Completed

/-! ## NAIVE picks -/

instance : Std.Total (costLe (K := K)) where
  total c d := by
    unfold costLe
    rcases lt_trichotomy c.costIdr d.costIdr with hlt | heq | hlt
    · exact Or.inl (Or.inl hlt)
    · exact (le_total c.incentiveCode d.incentiveCode).imp (fun hle => Or.inr ⟨heq, hle⟩)
        fun hle => Or.inr ⟨heq.symm, hle⟩
    · exact Or.inr (Or.inl hlt)

instance : IsTrans (Candidate K) costLe where
  trans c d e hcd hde := by
    unfold costLe at *
    rcases hcd with hlt | ⟨heq, hle⟩ <;> rcases hde with hlt' | ⟨heq', hle'⟩
    · exact Or.inl (hlt.trans hlt')
    · exact Or.inl (heq' ▸ hlt)
    · exact Or.inl (heq ▸ hlt')
    · exact Or.inr ⟨heq.trans heq', hle.trans hle'⟩

/-- **What a NAIVE pick is**: the cheapest of the user's individual
candidates the hard rules allow, for a user at risk in that arm. -/
structure IsNaivePick (h : Hashes) (settings : PipelineSettings K) (store : StoreReads)
    (run : ScoredRun K) (p : Pick K) : Prop where
  arm : p.arm = .naive
  groupId : p.groupId = none
  mem : p.top.candidate ∈ candidates h settings store run
  individual : p.top.candidate.groupId = none
  userArm : armOf h settings store run p.top.candidate.userPseudonym = .ok .naive
  risk : settings.measurementNaiveRiskThreshold ≤ run.churnRiskOf p.top.candidate.userPseudonym
  allowed : (evaluateFor settings store run false p.top.candidate).allowed
  cheapest : ∀ c ∈ candidates h settings store run, c.groupId = none →
    c.userPseudonym = p.top.candidate.userPseudonym →
    (evaluateFor settings store run false c).allowed → p.top.candidate.costIdr ≤ c.costIdr

/-- **Who gets a NAIVE pick**: a user of that arm, at risk, with an
individual candidate the hard rules allow. -/
def NaiveTarget (h : Hashes) (settings : PipelineSettings K) (store : StoreReads)
    (run : ScoredRun K) (u : String) : Prop :=
  armOf h settings store run u = .ok .naive ∧
    settings.measurementNaiveRiskThreshold ≤ run.churnRiskOf u ∧
    ∃ c ∈ candidates h settings store run, c.groupId = none ∧ c.userPseudonym = u ∧
      (evaluateFor settings store run false c).allowed

/-- **The turn of one user**: the cheapest allowed candidate, if the user is
at risk and has one. -/
theorem naiveTurn_spec {cs : List (Candidate K)} {t : Option (Pick K) × List (AllocationDecision K)}
    (ht : naiveTurn settings store run u cs = some t) :
    (∀ p, t.1 = some p → p.arm = .naive ∧ p.groupId = none ∧ p.top.candidate ∈ cs ∧
      settings.measurementNaiveRiskThreshold ≤ run.churnRiskOf u ∧
      (evaluateFor settings store run false p.top.candidate).allowed ∧
      ∀ c ∈ cs, (evaluateFor settings store run false c).allowed →
        p.top.candidate.costIdr ≤ c.costIdr) ∧
      (settings.measurementNaiveRiskThreshold ≤ run.churnRiskOf u →
        (∃ c ∈ cs, (evaluateFor settings store run false c).allowed) → t.1 ≠ none) := by
  unfold naiveTurn at ht
  split at ht
  · rename_i hbelow
    obtain rfl := Option.some.inj ht
    exact ⟨fun p hp => (by cases hp), fun hrisk => absurd hbelow (not_lt.mpr hrisk)⟩
  · rename_i hrisk
    dsimp only at ht
    obtain ⟨excluded, -, ht⟩ := Option.bind_eq_some_iff.mp ht
    have hmem : ∀ c, c ∈ (cs.insertionSort costLe).filter
        (fun c => (evaluateFor settings store run false c).allowed) ↔
        c ∈ cs ∧ (evaluateFor settings store run false c).allowed := fun c => by
      rw [List.mem_filter, (List.perm_insertionSort costLe cs).mem_iff]
    have hsorted : ((cs.insertionSort costLe).filter
        fun c => (evaluateFor settings store run false c).allowed).Pairwise costLe :=
      (List.pairwise_insertionSort costLe cs).filter _
    split at ht
    · rename_i hnil
      obtain rfl := Option.some.inj ht
      refine ⟨fun p hp => (by cases hp), ?_⟩
      rintro _ ⟨c, hc, hallowed⟩
      have := (hmem c).mpr ⟨hc, hallowed⟩
      rw [hnil] at this
      cases this
    · rename_i first rest hcons
      obtain rfl := Option.some.inj ht
      refine ⟨?_, fun _ _ => by simp⟩
      intro p hp
      obtain rfl := Option.some.inj hp
      rw [hcons] at hmem hsorted
      obtain ⟨hfirst, hallowed⟩ := (hmem first).mp List.mem_cons_self
      refine ⟨rfl, rfl, hfirst, not_lt.mp hrisk, hallowed, ?_⟩
      intro c hc hca
      rcases List.mem_cons.mp ((hmem c).mpr ⟨hc, hca⟩) with rfl | hrest
      · exact le_rfl
      · exact ((List.pairwise_cons.mp hsorted).1 c hrest).elim le_of_lt fun heq => heq.1.le

/-- A candidate without a group has none in Python's sense either. -/
theorem not_truthy_groupId (hc : c ∈ candidates h settings store run) :
    ¬ truthy c.groupId ↔ c.groupId = none := by
  constructor
  · intro hfalse
    by_contra hsome
    obtain ⟨g, hg⟩ := Option.ne_none_iff_exists'.mp hsome
    exact hfalse (truthy_of_groupId hc hg)
  · intro hnone htrue
    exact htrue.1 hnone

namespace Completed

variable (hdone : Completed h settings store run regressor v ranked a)
include hdone

/-- The candidates the NAIVE arm looks at. -/
theorem naive_iff (hc : c ∈ candidates h settings store run) :
    (a.arms.get? (unit c) = some .naive ∧ ¬ truthy c.groupId) ↔
      armOf h settings store run c.userPseudonym = .ok .naive ∧ c.groupId = none := by
  rw [hdone.get?_arms_unit hc, not_truthy_groupId hc]
  exact and_congr_left fun hnone => by rw [Allocator.unitOf_of_none hnone]

/-- The individual candidates of a NAIVE user. -/
theorem mem_naiveByUser {cs : List (Candidate K)}
    (hmem : (u, cs) ∈ (naiveByUser h settings store run a.arms).entries) :
    armOf h settings store run u = .ok .naive ∧ ∀ c, c ∈ cs ↔
      c ∈ candidates h settings store run ∧ c.groupId = none ∧ c.userPseudonym = u := by
  obtain ⟨hkey, rfl⟩ := Dict.mem_entries_groupBy.mp hmem
  have harm : armOf h settings store run u = .ok .naive := by
    obtain ⟨c, hc, rfl⟩ := List.mem_map.mp hkey
    obtain ⟨hc, hnaive⟩ := List.mem_filter.mp hc
    exact ((hdone.naive_iff hc).mp (of_decide_eq_true hnaive)).1
  refine ⟨harm, ?_⟩
  intro c
  rw [List.mem_filter, List.mem_filter, decide_eq_true_eq, decide_eq_true_eq]
  constructor
  · rintro ⟨⟨hc, hnaive⟩, huser⟩
    exact ⟨hc, ((hdone.naive_iff hc).mp hnaive).2, huser⟩
  · rintro ⟨hc, hnone, huser⟩
    exact ⟨⟨hc, (hdone.naive_iff hc).mpr ⟨huser ▸ harm, hnone⟩⟩, huser⟩

/-- A NAIVE pick is that of some user's turn. -/
theorem exists_naiveTurn (hp : p ∈ a.naivePicks) :
    ∃ u cs t, naiveTurn settings store run u cs = some t ∧ t.1 = some p := by
  obtain ⟨extra, hnaive⟩ := hdone.naivePicks
  unfold naiveArm at hnaive
  dsimp only at hnaive
  obtain ⟨turns, hturns, hnaive⟩ := Option.bind_eq_some_iff.mp hnaive
  obtain ⟨heq, -⟩ := Prod.mk.inj (Option.some.inj hnaive)
  rw [← heq, List.reduceOption_mem_iff] at hp
  obtain ⟨t, ht, hpick⟩ := List.mem_map.mp hp
  obtain ⟨q, -, hturn⟩ := exists_left_of_forall₂ (forall₂_of_mapM hturns) ht
  exact ⟨q.1, q.2, t, hturn, hpick⟩

/-- The NAIVE picks correspond to the turns of the users, in order. -/
theorem forall₂_naivePicks : ∃ users : List String, ∃ ops : List (Option (Pick K)),
    users.Nodup ∧ (∀ u, NaiveTarget h settings store run u → u ∈ users) ∧
    a.naivePicks = ops.reduceOption ∧
    List.Forall₂ (fun u op => (∀ p, op = some p →
      p.top.candidate.userPseudonym = u ∧ IsNaivePick h settings store run p) ∧
        (NaiveTarget h settings store run u → op ≠ none)) users ops := by
  obtain ⟨extra, hnaive⟩ := hdone.naivePicks
  unfold naiveArm at hnaive
  dsimp only at hnaive
  obtain ⟨turns, hturns, hnaive⟩ := Option.bind_eq_some_iff.mp hnaive
  obtain ⟨heq, -⟩ := Prod.mk.inj (Option.some.inj hnaive)
  have hperm := List.perm_insertionSort (fun p q : String × List (Candidate K) => p.1 ≤ q.1)
    (naiveByUser h settings store run a.arms).entries
  refine ⟨_, _, (hperm.map Prod.fst).nodup_iff.mpr (Dict.nodup _), ?_, heq.symm,
    List.forall₂_map_left_iff.mpr (List.forall₂_map_right_iff.mpr ?_)⟩
  · intro u hu
    obtain ⟨harm, -, c, hc, hnone, rfl, -⟩ := hu
    have hnaive := (hdone.naive_iff hc).mpr ⟨harm, hnone⟩
    have hkey : c.userPseudonym ∈ (naiveByUser h settings store run a.arms).keys :=
      Dict.mem_keys_groupBy.mpr
        (List.mem_map_of_mem (List.mem_filter.mpr ⟨hc, decide_eq_true hnaive⟩))
    exact (hperm.map Prod.fst).mem_iff.mpr hkey
  · have huser : ∀ q ∈ (naiveByUser h settings store run a.arms).entries.insertionSort
        fun p q => p.1 ≤ q.1, armOf h settings store run q.1 = .ok .naive ∧ ∀ c, c ∈ q.2 ↔
          c ∈ candidates h settings store run ∧ c.groupId = none ∧ c.userPseudonym = q.1 :=
      fun q hq => hdone.mem_naiveByUser (show (q.1, q.2) ∈ _ from hperm.mem_iff.mp hq)
    refine ((List.forall₂_and_left _ _).mpr ⟨huser, forall₂_of_mapM hturns⟩).imp ?_
    rintro ⟨u, cs⟩ t ⟨⟨harm, hcs⟩, ht⟩
    obtain ⟨hpick, hsome⟩ := naiveTurn_spec ht
    refine ⟨?_, fun ⟨_, hrisk, c, hc, hnone, huser, hallowed⟩ =>
      hsome hrisk ⟨c, (hcs c).mpr ⟨hc, hnone, huser⟩, hallowed⟩⟩
    intro p hp
    obtain ⟨hparm, hgroup, hmem, hrisk, hallowed, hcheapest⟩ := hpick p hp
    obtain ⟨hc, hnone, rfl⟩ := (hcs _).mp hmem
    refine ⟨rfl, hparm, hgroup, hc, hnone, harm, hrisk, hallowed, ?_⟩
    intro c' hc' hnone' huser'
    exact hcheapest c' ((hcs c').mpr ⟨hc', hnone', huser'⟩)

/-- **Every NAIVE pick is the cheapest allowed one of a user at risk.** -/
theorem isNaivePick (hp : p ∈ a.naivePicks) : IsNaivePick h settings store run p := by
  obtain ⟨users, ops, -, -, heq, hall⟩ := hdone.forall₂_naivePicks
  rw [heq, List.reduceOption_mem_iff] at hp
  obtain ⟨u, -, hspec, -⟩ := exists_left_of_forall₂ hall hp
  exact (hspec p rfl).2

/-- **Two NAIVE picks are of different users.** -/
theorem pairwise_naivePicks : a.naivePicks.Pairwise fun p q =>
    p.top.candidate.userPseudonym ≠ q.top.candidate.userPseudonym := by
  obtain ⟨users, ops, hnodup, -, heq, hall⟩ := hdone.forall₂_naivePicks
  rw [heq]
  refine pairwise_reduceOption_of_forall₂ hall hnodup ?_
  intro u u' p q hne hp hq
  rw [(hp.1 p rfl).1, (hq.1 q rfl).1]
  exact hne

/-- **Who qualifies gets a NAIVE pick.** -/
theorem exists_naivePick (hu : NaiveTarget h settings store run u) :
    ∃ p ∈ a.naivePicks, p.top.candidate.userPseudonym = u := by
  obtain ⟨users, ops, -, husers, heq, hall⟩ := hdone.forall₂_naivePicks
  obtain ⟨op, hop, hspec, hsome⟩ := exists_right_of_forall₂ hall (husers u hu)
  obtain ⟨p, rfl⟩ := Option.ne_none_iff_exists'.mp (hsome hu)
  exact ⟨p, heq ▸ List.reduceOption_mem_iff.mpr hop, (hspec p rfl).1⟩

end Completed

/-- A NAIVE pick targets its subject. -/
theorem IsNaivePick.targets (hp : IsNaivePick h settings store run p) :
    p.targets = [p.top.candidate.userPseudonym] := if_pos hp.groupId

/-- The subject of a NAIVE pick qualifies for it. -/
theorem IsNaivePick.naiveTarget (hp : IsNaivePick h settings store run p) :
    NaiveTarget h settings store run p.top.candidate.userPseudonym :=
  ⟨hp.userArm, hp.risk, p.top.candidate, hp.mem, hp.individual, rfl, hp.allowed⟩

end Pipeline

end RetentionEngine
