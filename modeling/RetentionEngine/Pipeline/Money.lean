import RetentionEngine.Pipeline.DecisionLog
import RetentionEngine.Pipeline.Persist
import Mathlib.Data.Rat.Floor

/-!
# The money of a run

The cost of a selection is written four times: as the allocator's spend,
in the representative of each ENGINE pick, in the recommendations and in
their rows. All are sums over the selected candidates, sorted in
different ways: by item, by unit, and pick by pick.
-/

namespace RetentionEngine

namespace Pipeline

open Allocator (unitOf selectedOf mem_selectedOf)

variable {K : Type}

/-- The choice key of a recommendation's subject. -/
def Recommendation.choiceKey (rec : Recommendation K) : String :=
  match rec.groupId with
  | some g => "group:" ++ g
  | none => rec.userPseudonym.getD ""

/-- The recommendations of the ENGINE arm. -/
def engineRecommendations (recs : List (Recommendation K)) : List (Recommendation K) :=
  recs.filter fun rec => rec.arm = .engine

/-- The choice keys with a selected decision. -/
def selectedKeys (res : AllocationResult K) : List String :=
  ((res.decisions.filter AllocationDecision.selected).map AllocationDecision.choiceKey).dedup

/-- **The money agrees**: the ENGINE recommendations cost what the
allocation spent, which is within the budget, and there is one for each
choice key with a selected decision, and no other. -/
structure MoneyAgrees (settings : PipelineSettings K) (res : AllocationResult K)
    (recs : List (Recommendation K)) : Prop where
  spent : ((engineRecommendations recs).map Recommendation.costIdr).sum = res.spentIdr
  within : res.spentIdr ≤ settings.defaultBudgetIdr
  onePerKey : ((engineRecommendations recs).map Recommendation.choiceKey).Perm (selectedKeys res)

/-- What is read off the ENGINE recommendations is read off the ENGINE
picks. -/
theorem map_engineRecommendations {α : Type} {h : Hashes} {run : ScoredRun K}
    {narrations : ℕ → Narration} {picks : List (Pick K)} {f : Pick K → α}
    {g : Recommendation K → α} (hfg : ∀ p ∈ picks, ∀ n, g (recommendation h run n p) = f p) :
    (engineRecommendations (recommendations h run narrations picks)).map g =
      (picks.filter fun p => p.arm = .engine).map f := by
  unfold engineRecommendations recommendations
  rw [List.filter_map, List.map_map]
  have hpicks : picks.filter (fun p => p.arm = .engine) =
      (picks.zipIdx.filter fun q => q.1.arm = .engine).map Prod.fst := by
    rw [← List.zipIdx_map_fst 0 picks, List.filter_map, List.zipIdx_map_fst]
    rfl
  rw [hpicks, List.map_map]
  refine List.map_congr_left ?_
  intro q hq
  exact hfg q.1 (List.fst_mem_of_mem_zipIdx (List.mem_of_mem_filter hq)) _

variable [Field K] [LinearOrder K] {h : Hashes} {settings : PipelineSettings K}
  {store : StoreReads} {run : ScoredRun K} {regressor : Ranker.Regressor K} {v : Vetted}
  {ranked : List (RankedCandidate K)} {a : Allocated K} {p : Pick K}

namespace Completed

variable (hdone : Completed h settings store run regressor v ranked a)
  (hu : DistinctCandidates h settings store run)
include hdone hu

/-- **An ENGINE pick costs what the selected candidates of its unit cost.** -/
theorem costIdr_enginePick (hp : p ∈ a.enginePicks) : p.top.candidate.costIdr =
    ((selectedOf a.engine a.allocation (unitOf p.top.candidate)).map
      fun r => r.candidate.costIdr).sum := by
  obtain ⟨members, hperm, -, hone | ⟨priority, hrep⟩⟩ := hdone.exists_members_enginePick hu hp
  · rw [← (hperm.map _).sum_eq, hone]
    simp
  · obtain ⟨first, -, htop⟩ := Option.map_eq_some_iff.mp hrep
    rw [← (hperm.map _).sum_eq, ← htop]

/-- The selected candidates are those of the ENGINE picks. -/
theorem perm_flatMap_selectedOf :
    (a.enginePicks.flatMap fun p =>
      selectedOf a.engine a.allocation (unitOf p.top.candidate)).Perm
        (a.engine.filter fun r => Allocator.Selects a.allocation r.candidate) := by
  have hengine : a.engine.Nodup := (hdone.distinctIds hu).ids.of_map
  refine (List.perm_ext_iff_of_nodup ?_ (hengine.filter _)).mpr ?_
  · refine List.nodup_flatMap.mpr ⟨fun _ _ => hengine.filter _, ?_⟩
    refine (hdone.pairwise_enginePicks hu).imp ?_
    intro p q hne r hrp hrq
    exact hne ((mem_selectedOf.mp hrp).2.2.symm.trans (mem_selectedOf.mp hrq).2.2)
  · intro r
    simp only [List.mem_flatMap, mem_selectedOf, List.mem_filter, decide_eq_true_eq]
    constructor
    · rintro ⟨p, -, hr, hsel, -⟩
      exact ⟨hr, hsel⟩
    · rintro ⟨hr, hsel⟩
      obtain ⟨p, hp, hunit⟩ := hdone.exists_enginePick hu hr hsel
      exact ⟨p, hp, hr, hsel, hunit.symm⟩

/-- **The ENGINE picks cost what the allocation spent.** -/
theorem sum_costIdr_enginePicks :
    (a.enginePicks.map fun p => p.top.candidate.costIdr).sum = a.allocation.spentIdr := by
  obtain ⟨its, sel, o, halloc⟩ := hdone.isAllocation hu
  have hpicks : (a.enginePicks.map fun p => p.top.candidate.costIdr) = a.enginePicks.map
      fun p => ((selectedOf a.engine a.allocation (unitOf p.top.candidate)).map
        fun r => r.candidate.costIdr).sum :=
    List.map_congr_left fun p hp => hdone.costIdr_enginePick hu hp
  rw [hpicks, halloc.spentIdr_eq (hdone.distinctIds hu),
    ← ((hdone.perm_flatMap_selectedOf hu).map _).sum_eq, List.map_flatMap, List.flatMap_def,
    List.sum_flatten, List.map_map]
  rfl

/-- **The ENGINE picks are of the units with a selected decision.** -/
theorem perm_selectedKeys :
    (a.enginePicks.map fun p => unitOf p.top.candidate).Perm (selectedKeys a.allocation) := by
  obtain ⟨its, sel, o, halloc⟩ := hdone.isAllocation hu
  refine (List.perm_ext_iff_of_nodup (hdone.nodup_units_enginePicks hu)
    (List.nodup_dedup _)).mpr ?_
  intro key
  rw [List.mem_map, List.mem_dedup, List.mem_map]
  constructor
  · rintro ⟨p, hp, rfl⟩
    -- a pick has a selected candidate, whose decision has the key
    have hids := halloc.perm_selectedOf (hdone.distinctIds hu) (unitOf p.top.candidate)
    obtain ⟨r, hr⟩ := List.exists_mem_of_ne_nil _ (hdone.isEnginePick hu hp).ne_nil
    obtain ⟨d, hd, -⟩ := List.mem_map.mp (hids.mem_iff.mpr (List.mem_map_of_mem hr))
    obtain ⟨hmem, hkey⟩ := List.mem_filter.mp hd
    obtain ⟨hkey, hsel⟩ := of_decide_eq_true hkey
    exact ⟨d, List.mem_filter.mpr ⟨hmem, hsel⟩, hkey⟩
  · rintro ⟨d, hd, rfl⟩
    obtain ⟨hmem, hsel⟩ := List.mem_filter.mp hd
    obtain ⟨p, hp, hunit, -⟩ := hdone.exists_pick_of_selected hu hmem hsel
    exact ⟨p, hp, hunit⟩

/-- The picks of the ENGINE arm are the ENGINE picks. -/
theorem filter_engine_picks : a.picks.filter (fun p => p.arm = .engine) = a.enginePicks := by
  have hengine : a.enginePicks.filter (fun p => p.arm = .engine) = a.enginePicks := by
    rw [List.filter_eq_self]
    intro p hp
    exact decide_eq_true (hdone.isEnginePick hu hp).arm
  have hnaive : a.naivePicks.filter (fun p => p.arm = .engine) = [] := by
    rw [List.filter_eq_nil_iff]
    intro p hp
    rw [(hdone.isNaivePick hp).arm]
    decide
  rw [Allocated.picks, List.filter_append, hengine, hnaive, List.append_nil]

/-- The choice key of a pick's recommendation is the pick's unit. -/
theorem choiceKey_recommendation (hp : p ∈ a.picks) (narration : Narration) :
    (recommendation h run narration p).choiceKey = unitOf p.top.candidate := by
  have hgroup := hdone.groupId_pick hu hp
  unfold Recommendation.choiceKey recommendation
  dsimp only
  cases hg : p.groupId with
  | none =>
      rw [Allocator.unitOf_of_none (hgroup.trans hg)]
      exact congrArg (fun o : Option String => o.getD "") (if_neg fun ht => ht.1 rfl)
  | some g => exact (Allocator.unitOf_of_some (hgroup.trans hg)).symm

end Completed

end Pipeline

end RetentionEngine
