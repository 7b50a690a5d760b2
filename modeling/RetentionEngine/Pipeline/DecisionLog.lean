import RetentionEngine.Pipeline.HardRules
import Mathlib.Data.List.Perm.Basic

/-!
# The decision log

The records of one ALLOCATE: the allocator's decisions and what the
pipeline excludes itself. They come from five places, and the law is one
of accounting (`Completed.perm_records`): every candidate of the run is in
exactly one record or is what a NAIVE pick gives. That no id occurs twice
and that no pick contradicts a record are read off it.
-/

namespace RetentionEngine

namespace Pipeline

open Allocator (unitOf selectedOf)

variable {K : Type}

/-- The decisions `save_allocation` is called with. -/
def Allocated.records (a : Allocated K) : List (AllocationDecision K) :=
  a.allocation.decisions ++ a.extra

/-- **A log that does not contradict itself**: no candidate in two records,
no pick of an excluded candidate, a reason exactly where nothing is
selected, and one ENGINE pick for whatever is selected. -/
structure ConsistentLog (a : Allocated K) : Prop where
  distinct : (a.records.map AllocationDecision.candidateId).Nodup
  picked : ∀ p ∈ a.picks, ∀ d ∈ a.records, d.candidateId ∈ p.candidateIds →
    d.exclusionReason = none
  selected : ∀ d ∈ a.records, d.selected = true ↔ d.exclusionReason = none
  onePick : ∀ d ∈ a.records, d.selected = true →
    (a.picks.filter fun p => p.arm = .engine ∧ d.candidateId ∈ p.candidateIds).length = 1

/-- A record that excludes its candidate. -/
def Excludes (d : AllocationDecision K) : Prop := d.selected = false ∧ d.exclusionReason ≠ none

@[simp] theorem candidateId_excludeDecision (c : Candidate K) (reason : ExclusionReason)
    (priority : K) : (excludeDecision c reason priority).candidateId = c.candidateId := rfl

theorem excludes_excludeDecision (c : Candidate K) (reason : ExclusionReason) (priority : K) :
    Excludes (excludeDecision c reason priority) := ⟨rfl, nofun⟩

variable [Field K] [LinearOrder K] {h : Hashes} {settings : PipelineSettings K}
  {store : StoreReads} {run : ScoredRun K} {regressor : Ranker.Regressor K} {v : Vetted}
  {ranked : List (RankedCandidate K)} {a : Allocated K} {p : Pick K} {d : AllocationDecision K}
  {arms : Dict String Arm}

/-! ## What the NAIVE arm accounts for -/

/-- **One turn**: every candidate of the user is excluded, but the one that
is picked. -/
theorem perm_naiveTurn {u : String} {cs : List (Candidate K)}
    {t : Option (Pick K) × List (AllocationDecision K)}
    (ht : naiveTurn settings store run u cs = some t) :
    (t.1.toList.flatMap Pick.candidateIds ++ t.2.map AllocationDecision.candidateId).Perm
      (cs.map Candidate.candidateId) ∧ ∀ d ∈ t.2, Excludes d := by
  unfold naiveTurn at ht
  split at ht
  · obtain rfl := Option.some.inj ht
    refine ⟨.of_eq ?_, ?_⟩
    · rw [List.map_map]
      rfl
    · intro d hd
      obtain ⟨c, -, rfl⟩ := List.mem_map.mp hd
      exact excludes_excludeDecision c _ _
  · dsimp only at ht
    obtain ⟨excluded, hexcluded, ht⟩ := Option.bind_eq_some_iff.mp ht
    have hall := forall₂_of_mapM hexcluded
    have hsplit := (List.filter_append_perm
      (fun c => (evaluateFor settings store run false c).allowed) (cs.insertionSort costLe)).trans
        (List.perm_insertionSort costLe cs)
    -- a denied candidate is excluded
    have hids := map_eq_map_of_forall₂ (f := Candidate.candidateId)
      (g := AllocationDecision.candidateId) hall fun c d hd => by
        obtain ⟨reason, -, rfl⟩ := Option.map_eq_some_iff.mp hd
        rfl
    have hreasons : ∀ d ∈ excluded, Excludes d := by
      intro d hd
      obtain ⟨c, -, hc⟩ := exists_left_of_forall₂ hall hd
      obtain ⟨reason, -, rfl⟩ := Option.map_eq_some_iff.mp hc
      exact excludes_excludeDecision c reason 0
    split at ht
    · rename_i hnil
      obtain rfl := Option.some.inj ht
      rw [hnil, List.nil_append] at hsplit
      refine ⟨?_, hreasons⟩
      dsimp only [Option.toList_none, List.flatMap_nil, List.nil_append]
      rw [hids]
      exact hsplit.map _
    · rename_i first rest hcons
      obtain rfl := Option.some.inj ht
      rw [hcons] at hsplit
      constructor
      · have hperm := hsplit.map Candidate.candidateId
        simp only [List.map_append, List.map_cons, List.cons_append] at hperm
        simp only [Option.toList_some, List.flatMap_cons, List.flatMap_nil, List.append_nil,
          List.map_append, List.map_map, List.singleton_append, hids]
        exact (List.perm_append_comm.cons _).trans hperm
      · intro d hd
        rcases List.mem_append.mp hd with hd | hd
        · exact hreasons d hd
        · obtain ⟨c, -, rfl⟩ := List.mem_map.mp hd
          exact excludes_excludeDecision c _ _

omit [Field K] [LinearOrder K] in
theorem perm_turns {users : List (String × List (Candidate K))}
    {turns : List (Option (Pick K) × List (AllocationDecision K))}
    (hall : List.Forall₂ (fun q t =>
      (t.1.toList.flatMap Pick.candidateIds ++ t.2.map AllocationDecision.candidateId).Perm
        (q.2.map Candidate.candidateId) ∧ ∀ d ∈ t.2, Excludes d) users turns) :
    ((turns.map Prod.fst).reduceOption.flatMap Pick.candidateIds ++
      (turns.flatMap Prod.snd).map AllocationDecision.candidateId).Perm
        ((users.flatMap Prod.snd).map Candidate.candidateId) ∧
      ∀ d ∈ turns.flatMap Prod.snd, Excludes d := by
  induction hall with
  | nil => exact ⟨.refl _, nofun⟩
  | @cons q t users turns hturn _ ih =>
      obtain ⟨hids, hexcludes⟩ := ih
      have hpicks : ((t :: turns).map Prod.fst).reduceOption =
          t.1.toList ++ (turns.map Prod.fst).reduceOption := by
        rw [List.map_cons]
        cases t.1 with
        | none => exact List.reduceOption_cons_of_none _
        | some p => exact List.reduceOption_cons_of_some _ _
      constructor
      · rw [List.perm_iff_count]
        intro id
        have hfirst := hturn.1.count_eq id
        have hrest := hids.count_eq id
        rw [hpicks]
        simp only [List.flatMap_append, List.flatMap_cons, List.map_append,
          List.count_append] at hfirst hrest ⊢
        omega
      · intro d hd
        rw [List.flatMap_cons] at hd
        rcases List.mem_append.mp hd with hd | hd
        · exact hturn.2 d hd
        · exact hexcludes d hd

/-- **All turns**: likewise for the candidates of all NAIVE units. -/
theorem perm_naiveArm {picks : List (Pick K)} {extra : List (AllocationDecision K)}
    (hnaive : naiveArm h settings store run arms = some (picks, extra)) :
    (picks.flatMap Pick.candidateIds ++ extra.map AllocationDecision.candidateId).Perm
      (((candidates h settings store run).filter fun c =>
        arms.get? (unit c) = some .naive).map Candidate.candidateId) ∧ ∀ d ∈ extra, Excludes d := by
  unfold naiveArm at hnaive
  dsimp only at hnaive
  obtain ⟨turns, hturns, hnaive⟩ := Option.bind_eq_some_iff.mp hnaive
  obtain ⟨rfl, rfl⟩ := Prod.mk.inj (Option.some.inj hnaive)
  have hall := (forall₂_of_mapM hturns).imp fun _ _ => perm_naiveTurn
  generalize hcs : candidates h settings store run = cs
  -- the users' candidates are the individual candidates of NAIVE units
  have husers : (((naiveByUser h settings store run arms).entries.insertionSort
      fun p q => p.1 ≤ q.1).flatMap Prod.snd).Perm
        (cs.filter fun c => arms.get? (unit c) = some .naive ∧ ¬ truthy c.groupId) := by
    refine (List.Perm.flatMap_right _ (List.perm_insertionSort _ _)).trans ?_
    rw [← hcs]
    exact Dict.perm_flatMap_groupBy _ _
  generalize (naiveByUser h settings store run arms).entries.insertionSort
    (fun p q => p.1 ≤ q.1) = users at hall husers
  obtain ⟨hids, hexcludes⟩ := perm_turns hall
  constructor
  · have hsplit := filter_and_perm (fun c : Candidate K => arms.get? (unit c) = some .naive)
      (fun c => truthy c.groupId) cs
    have hexcluded : ((cs.filter fun c => arms.get? (unit c) = some .naive ∧
        truthy c.groupId).map fun c => excludeDecision c .naiveNotChosen (0 : K)).map
          AllocationDecision.candidateId = (cs.filter fun c =>
            arms.get? (unit c) = some .naive ∧ truthy c.groupId).map Candidate.candidateId := by
      rw [List.map_map]
      rfl
    rw [List.perm_iff_count]
    intro id
    have hcount := (hsplit.map Candidate.candidateId).count_eq id
    have hgroups := (husers.map Candidate.candidateId).count_eq id
    have hturns := hids.count_eq id
    rw [List.map_append, hexcluded]
    simp only [List.map_append, List.count_append] at hcount hturns ⊢
    omega
  · intro d hd
    rcases List.mem_append.mp hd with hd | hd
    · obtain ⟨c, -, rfl⟩ := List.mem_map.mp hd
      exact excludes_excludeDecision c _ _
    · exact hexcludes d hd

/-! ## What the pipeline excludes itself -/

omit [LinearOrder K] in
/-- The candidates POLICY excluded, NAIVE units apart. -/
theorem map_candidateId_policyExclusions (cs : List (Candidate K)) :
    (cs.filterMap fun c => if arms.get? (unit c) = some .naive then none
      else (v.exclusions.get? c.candidateId).map fun reason =>
        excludeDecision c reason (0 : K)).map AllocationDecision.candidateId =
      (cs.filter fun c => arms.get? (unit c) ≠ some .naive ∧
        c.candidateId ∈ v.exclusions.keys).map Candidate.candidateId := by
  induction cs with
  | nil => rfl
  | cons c cs ih =>
      by_cases hnaive : arms.get? (unit c) = some .naive
      · simp [hnaive, ih]
      · cases hreason : v.exclusions.get? c.candidateId with
        | none =>
            have hkey : c.candidateId ∉ v.exclusions.keys := Dict.get?_eq_none.mp hreason
            simp [hnaive, hreason, hkey, ih]
        | some reason =>
            have hkey : c.candidateId ∈ v.exclusions.keys := by
              by_contra hmiss
              rw [Dict.get?_eq_none.mpr hmiss] at hreason
              cases hreason
            simp [hnaive, hreason, hkey, ih]

/-- What ALLOCATE excludes: what POLICY did, and the held-out. -/
theorem map_candidateId_allocateExclusions :
    (allocateExclusions h settings store run v arms ranked).map AllocationDecision.candidateId =
      (((candidates h settings store run).filter fun c => arms.get? (unit c) ≠ some .naive ∧
        c.candidateId ∈ v.exclusions.keys).map Candidate.candidateId) ++
      (((ranked.filter fun r => arms.get? (unit r.candidate) = some .control).map
        RankedCandidate.candidate).map Candidate.candidateId) := by
  unfold allocateExclusions
  rw [List.map_append, map_candidateId_policyExclusions, List.map_map, List.map_map]
  rfl

theorem excludes_of_mem_allocateExclusions
    (hd : d ∈ allocateExclusions h settings store run v arms ranked) : Excludes d := by
  rcases List.mem_append.mp hd with hd | hd
  · obtain ⟨c, -, hc⟩ := List.mem_filterMap.mp hd
    split at hc
    · cases hc
    · obtain ⟨reason, -, rfl⟩ := Option.map_eq_some_iff.mp hc
      exact excludes_excludeDecision c reason 0
  · obtain ⟨r, -, rfl⟩ := List.mem_map.mp hd
    exact excludes_excludeDecision r.candidate _ _

namespace Completed

variable (hdone : Completed h settings store run regressor v ranked a)
include hdone

/-- What the stages exclude besides the allocator. -/
theorem exists_extra (hrun : decisionStages h settings store run regressor = some a) :
    ∃ naiveExtra, naiveArm h settings store run a.arms = some (a.naivePicks, naiveExtra) ∧
      a.extra = allocateExclusions h settings store run v a.arms ranked ++ naiveExtra := by
  have hallocate : allocate h settings store run v ranked = some a := by
    unfold decisionStages at hrun
    rw [hdone.policy, Option.bind_eq_bind, Option.bind_some, hdone.rank] at hrun
    exact hrun
  unfold allocate at hallocate
  obtain ⟨arms, harms, hallocate⟩ := Option.bind_eq_some_iff.mp hallocate
  dsimp only at hallocate
  obtain ⟨allocation, -, hallocate⟩ := Option.bind_eq_some_iff.mp hallocate
  obtain ⟨enginePicks, -, hallocate⟩ := Option.bind_eq_some_iff.mp hallocate
  obtain ⟨⟨naivePicks, naiveExtra⟩, hnaive, hallocate⟩ := Option.bind_eq_some_iff.mp hallocate
  obtain rfl := Option.some.inj hallocate
  exact ⟨naiveExtra, hnaive, rfl⟩

theorem excludes_of_mem_extra (hrun : decisionStages h settings store run regressor = some a)
    (hd : d ∈ a.extra) : Excludes d := by
  obtain ⟨naiveExtra, hnaive, hextra⟩ := hdone.exists_extra hrun
  rw [hextra] at hd
  rcases List.mem_append.mp hd with hd | hd
  · exact excludes_of_mem_allocateExclusions hd
  · exact (perm_naiveArm hnaive).2 d hd

/-- The ranked candidates outside the NAIVE arm are in one of the other
two. -/
theorem perm_ranked_arms :
    (((ranked.filter fun r => a.arms.get? (unit r.candidate) = some .control) ++ a.engine).map
      RankedCandidate.candidate).Perm
        ((candidates h settings store run).filter fun c => a.arms.get? (unit c) ≠ some .naive ∧
          c.candidateId ∉ v.exclusions.keys) := by
  have hrank := perm_rankStage hdone.rank
  -- outside the NAIVE arm, what is not in CONTROL is in ENGINE
  have hengine : (ranked.filter fun r => a.arms.get? (unit r.candidate) ≠ some .naive ∧
      ¬ a.arms.get? (unit r.candidate) = some .control) = a.engine := by
    rw [hdone.engine]
    refine List.filter_congr ?_
    intro r hr
    have hc : r.candidate ∈ candidates h settings store run :=
      List.mem_of_mem_filter (hrank.mem_iff.mp (List.mem_map_of_mem hr))
    obtain ⟨arm, harm⟩ := exists_get?_arms hdone.arms
      (unit_eq_unitOf hc ▸ unitOf_mem_units hc : unit r.candidate ∈ _)
    rw [harm]
    cases arm <;> decide
  have hcontrol : (ranked.filter fun r => a.arms.get? (unit r.candidate) ≠ some .naive ∧
      a.arms.get? (unit r.candidate) = some .control) =
        ranked.filter fun r => a.arms.get? (unit r.candidate) = some .control := by
    refine List.filter_congr ?_
    intro r _
    by_cases hc : a.arms.get? (unit r.candidate) = some .control <;> simp [hc]
  have hsplit := filter_and_perm
    (fun r : RankedCandidate K => a.arms.get? (unit r.candidate) ≠ some .naive)
    (fun r => a.arms.get? (unit r.candidate) = some .control) ranked
  rw [hengine, hcontrol] at hsplit
  have hfilter := hrank.filter fun c => decide (a.arms.get? (unit c) ≠ some .naive)
  rw [List.filter_map, List.filter_filter] at hfilter
  refine (hsplit.map _).trans (hfilter.trans (.of_eq ?_))
  exact List.filter_congr fun c _ => by simp

/-- **Every candidate is accounted for once**: it is in one record, or it is
what a NAIVE pick gives. -/
theorem perm_records (hu : DistinctCandidates h settings store run)
    (hrun : decisionStages h settings store run regressor = some a) :
    (a.records.map AllocationDecision.candidateId ++ a.naivePicks.flatMap Pick.candidateIds).Perm
      ((candidates h settings store run).map Candidate.candidateId) := by
  obtain ⟨its, sel, o, halloc⟩ := hdone.isAllocation hu
  obtain ⟨naiveExtra, hnaive, hextra⟩ := hdone.exists_extra hrun
  have hallocator : (a.allocation.decisions.map AllocationDecision.candidateId).Perm
      (a.engine.map (Candidate.candidateId ∘ RankedCandidate.candidate)) :=
    halloc.perm_candidateIds (hdone.distinctIds hu)
  have hranked := hdone.perm_ranked_arms.map Candidate.candidateId
  have hnaive := (perm_naiveArm hnaive).1
  have hexcluded : (allocateExclusions h settings store run v a.arms ranked).map
      AllocationDecision.candidateId = _ := map_candidateId_allocateExclusions
  have hsplit := (filter_append_filter_perm (fun c => a.arms.get? (unit c) = some .naive)
    (fun c => c.candidateId ∈ v.exclusions.keys) (candidates h settings store run)).map
      Candidate.candidateId
  -- the parts of the log count every id as often as the candidates do
  rw [List.perm_iff_count]
  intro id
  have hallocated := hallocator.count_eq id
  have hfree := hranked.count_eq id
  have hpicked := hnaive.count_eq id
  have hcount := congrArg (List.count id) hexcluded
  have htotal := hsplit.count_eq id
  unfold Allocated.records
  rw [hextra]
  simp only [List.map_append, List.count_append, List.map_map, ne_eq]
    at hallocated hfree hpicked hcount htotal ⊢
  omega

/-! ## What a pick takes -/

variable (hu : DistinctCandidates h settings store run)
include hu

/-- **An ENGINE pick takes the selected candidates of its unit.** -/
theorem candidateIds_enginePick (hp : p ∈ a.enginePicks) : p.candidateIds =
    (a.allocation.decisions.filter fun d => d.choiceKey = unitOf p.top.candidate ∧
      d.selected = true).map AllocationDecision.candidateId := by
  obtain ⟨members, -, hids, -⟩ := hdone.exists_members_enginePick hu hp
  exact hids

/-- A record is selected exactly when it has no reason. -/
theorem selected_iff (hrun : decisionStages h settings store run regressor = some a)
    (hd : d ∈ a.records) : d.selected = true ↔ d.exclusionReason = none := by
  obtain ⟨its, sel, o, halloc⟩ := hdone.isAllocation hu
  rcases List.mem_append.mp hd with hd | hd
  · obtain ⟨item, -, cid, -, rfl⟩ := halloc.mem_decisions.mp hd
    exact (o.reason_eq_none).symm
  · have hexcludes := hdone.excludes_of_mem_extra hrun hd
    rw [hexcludes.1]
    exact iff_of_false nofun hexcludes.2

/-- No candidate is in two records. -/
theorem nodup_records (hrun : decisionStages h settings store run regressor = some a) :
    (a.records.map AllocationDecision.candidateId).Nodup ∧
      ∀ p ∈ a.naivePicks, ∀ d ∈ a.records, d.candidateId ∉ p.candidateIds := by
  have hnodup := (hdone.perm_records hu hrun).nodup_iff.mpr hu
  obtain ⟨hrecords, -, hapart⟩ := List.nodup_append.mp hnodup
  refine ⟨hrecords, ?_⟩
  intro p hp d hd hid
  have hmem : d.candidateId ∈ a.naivePicks.flatMap Pick.candidateIds :=
    List.mem_flatMap.mpr ⟨p, hp, hid⟩
  exact absurd rfl (hapart _ (List.mem_map_of_mem hd) _ hmem)

/-- A record of an ENGINE pick's candidate is a selected decision of its
unit. -/
theorem choiceKey_of_mem_candidateIds
    (hrun : decisionStages h settings store run regressor = some a) (hp : p ∈ a.enginePicks)
    (hd : d ∈ a.records) (hid : d.candidateId ∈ p.candidateIds) :
    d.choiceKey = unitOf p.top.candidate ∧ d.selected = true := by
  rw [hdone.candidateIds_enginePick hu hp] at hid
  obtain ⟨d', hd', heq⟩ := List.mem_map.mp hid
  obtain ⟨hmem, hkey⟩ := List.mem_filter.mp hd'
  obtain rfl : d' = d := List.inj_on_of_nodup_map (hdone.nodup_records hu hrun).1
    (List.mem_append_left _ hmem) hd heq
  exact of_decide_eq_true hkey

/-- A selected decision's candidate is taken by its unit's pick. -/
theorem exists_pick_of_selected (hd : d ∈ a.allocation.decisions) (hsel : d.selected = true) :
    ∃ p ∈ a.enginePicks, unitOf p.top.candidate = d.choiceKey ∧
      d.candidateId ∈ p.candidateIds := by
  obtain ⟨its, sel, o, halloc⟩ := hdone.isAllocation hu
  have hmem : d ∈ a.allocation.decisions.filter
      fun d' => d'.choiceKey = d.choiceKey ∧ d'.selected = true :=
    List.mem_filter.mpr ⟨hd, decide_eq_true ⟨rfl, hsel⟩⟩
  obtain ⟨r, hr, -⟩ := List.mem_map.mp ((halloc.perm_selectedOf (hdone.distinctIds hu)
    d.choiceKey).mem_iff.mp (List.mem_map_of_mem hmem))
  obtain ⟨hengine, hselects, hunit⟩ := Allocator.mem_selectedOf.mp hr
  obtain ⟨p, hp, hpunit⟩ := hdone.exists_enginePick hu hengine hselects
  have hkey : unitOf p.top.candidate = d.choiceKey := hpunit.trans hunit
  refine ⟨p, hp, hkey, ?_⟩
  rw [hdone.candidateIds_enginePick hu hp, hkey]
  exact List.mem_map_of_mem hmem

theorem nodup_units_enginePicks : (a.enginePicks.map fun p => unitOf p.top.candidate).Nodup :=
  List.pairwise_map.mpr (hdone.pairwise_enginePicks hu)

end Completed

/-- **The decision log never contradicts itself.** In every run that
completes ALLOCATE with distinct candidates: no candidate is in two
records, no record excludes a candidate a pick takes, a record has a
reason exactly when it is not selected, and what is selected is in one
ENGINE pick. -/
theorem consistentLog (hu : DistinctCandidates h settings store run)
    (hrun : decisionStages h settings store run regressor = some a) : ConsistentLog a := by
  obtain ⟨v, ranked, hdone⟩ := exists_completed hrun
  obtain ⟨hrecords, hapart⟩ := hdone.nodup_records hu hrun
  have hselected : ∀ d ∈ a.records, d.selected = true ↔ d.exclusionReason = none :=
    fun d hd => hdone.selected_iff hu hrun hd
  refine ⟨hrecords, ?_, hselected, ?_⟩
  · intro p hp d hd hid
    rcases List.mem_append.mp hp with hp | hp
    · exact (hselected d hd).mp (hdone.choiceKey_of_mem_candidateIds hu hrun hp hd hid).2
    · exact absurd hid (hapart p hp d hd)
  · intro d hd hsel
    have hdecision : d ∈ a.allocation.decisions := by
      refine (List.mem_append.mp hd).resolve_right ?_
      intro hextra
      rw [(hdone.excludes_of_mem_extra hrun hextra).1] at hsel
      cases hsel
    obtain ⟨p, hp, hunit, htaken⟩ := hdone.exists_pick_of_selected hu hdecision hsel
    have hnaive : a.naivePicks.filter
        (fun p => p.arm = .engine ∧ d.candidateId ∈ p.candidateIds) = [] := by
      rw [List.filter_eq_nil_iff]
      intro q hq hin
      exact hapart q hq d hd (of_decide_eq_true hin).2
    -- another pick of the candidate would be of the same unit
    have hunits := hdone.nodup_units_enginePicks hu
    have hone : (a.enginePicks.filter
        fun p => p.arm = .engine ∧ d.candidateId ∈ p.candidateIds).Perm [p] := by
      refine (List.perm_ext_iff_of_nodup (hunits.of_map.filter _) (List.nodup_singleton p)).mpr ?_
      intro q
      rw [List.mem_filter, List.mem_singleton, decide_eq_true_eq]
      constructor
      · rintro ⟨hq, -, hid⟩
        have hkey := (hdone.choiceKey_of_mem_candidateIds hu hrun hq hd hid).1
        exact List.inj_on_of_nodup_map hunits hq hp (hkey.symm.trans hunit.symm)
      · rintro rfl
        exact ⟨hp, (hdone.isEnginePick hu hp).arm, htaken⟩
    rw [Allocated.picks, List.filter_append, hnaive, List.append_nil]
    exact hone.length_eq

theorem consistentLog_sample :
    ∃ a, decisionStages sampleHashes sampleSettings sampleStore sampleRun zeroRegressor = some a ∧
      ConsistentLog a := by
  obtain ⟨a, hrun, -⟩ := exists_sampleAllocated
  exact ⟨a, hrun, consistentLog collisionFree_sampleRun.unambiguous.candidateIds hrun⟩

end Pipeline

end RetentionEngine
