import RetentionEngine.Pipeline.AllocationTable

/-!
# The full candidate list

`add_candidates` persists every candidate of a run, the excluded ones and
the winners. The rows are those of the decision log, and the log leaves
out what a NAIVE pick gives: `_naive_arm` records every candidate but the
one it chooses. `fullyRecorded_iff` says when nothing is missing.
-/

namespace RetentionEngine

namespace Pipeline

open Allocator (unitOf)

variable {K : Type}

/-- The rows of a candidate: those of the records of its id. -/
def rowsOf (a : Allocated K) (rows : List (AllocationCandidateRow K)) (c : Candidate K) :
    List (AllocationCandidateRow K) :=
  ((a.records.zip rows).filter fun q => q.1.candidateId = c.candidateId).map Prod.snd

/-- The row of a candidate: of its subject and incentive, and selected
exactly when a pick of the run takes the candidate. -/
structure IsCandidateRow (a : Allocated K) (c : Candidate K) (row : AllocationCandidateRow K) :
    Prop where
  user : row.userPseudonym = c.userPseudonym
  incentive : row.incentiveCode = c.incentiveCode
  selected : row.selected = true ↔ ∃ p ∈ a.picks, c.candidateId ∈ p.candidateIds

/-- **The full list is recorded**: as many rows as candidates, and one of
them for each. -/
structure FullyRecorded (cs : List (Candidate K)) (a : Allocated K)
    (rows : List (AllocationCandidateRow K)) : Prop where
  length : rows.length = cs.length
  row : ∀ c ∈ cs, ∃ row, rowsOf a rows c = [row] ∧ IsCandidateRow a c row

variable [Field K] [LinearOrder K] [FloorRing K] {h : Hashes} {settings : PipelineSettings K}
  {store : StoreReads} {run : ScoredRun K} {regressor : Ranker.Regressor K} {v : Vetted}
  {ranked : List (RankedCandidate K)} {a : Allocated K} {p : Pick K} {c : Candidate K}
  {tables : Tables K} {cache : StoreCache} {tenant : Uuid} {rows : List (AllocationCandidateRow K)}

omit [FloorRing K] in
/-- The pick of a turn takes its candidate. -/
theorem candidateIds_naiveTurn {u : String} {cs : List (Candidate K)}
    {t : Option (Pick K) × List (AllocationDecision K)}
    (ht : naiveTurn settings store run u cs = some t) (hp : t.1 = some p) :
    p.candidateIds = [p.top.candidate.candidateId] := by
  unfold naiveTurn at ht
  split at ht
  · obtain rfl := Option.some.inj ht
    cases hp
  · dsimp only at ht
    obtain ⟨excluded, -, ht⟩ := Option.bind_eq_some_iff.mp ht
    split at ht
    · obtain rfl := Option.some.inj ht
      cases hp
    · obtain rfl := Option.some.inj ht
      obtain rfl := Option.some.inj hp
      rfl

/-- **A row for every record**, made from the candidate it names. -/
theorem forall₂_allocationCandidateRows {cs : List (Candidate K)} (hids : (cs.map
    Candidate.candidateId).Nodup)
    (hrows : allocationCandidateRows tables cache tenant cs a = some rows) :
    List.Forall₂ (fun d row => row.selected = d.selected ∧ ∀ c ∈ cs,
      c.candidateId = d.candidateId →
        row.userPseudonym = c.userPseudonym ∧ row.incentiveCode = c.incentiveCode)
      a.records rows := by
  have hall := forall₂_of_mapM hrows
  rw [← List.zipIdx_map_fst 0 a.records, List.forall₂_map_left_iff]
  refine hall.imp ?_
  rintro ⟨d, n⟩ row hrow
  obtain ⟨c, hget, rfl⟩ := Option.map_eq_some_iff.mp hrow
  refine ⟨rfl, ?_⟩
  intro c' hc' hid
  obtain ⟨c'', hc'', hid'', rfl⟩ := Dict.exists_of_get?_ofList hget
  obtain rfl : c' = c'' := List.inj_on_of_nodup_map hids hc' hc'' (hid.trans hid''.symm)
  exact ⟨rfl, rfl⟩

namespace Completed

variable (hdone : Completed h settings store run regressor v ranked a)
include hdone

omit [FloorRing K] in
theorem candidateIds_naivePick (hp : p ∈ a.naivePicks) :
    p.candidateIds = [p.top.candidate.candidateId] := by
  obtain ⟨u, cs, t, hturn, hpick⟩ := hdone.exists_naiveTurn hp
  exact candidateIds_naiveTurn hturn hpick

variable (hu : DistinctCandidates h settings store run)
  (hrun : decisionStages h settings store run regressor = some a)
include hu hrun

/-- What a NAIVE pick gives is missing from the table. -/
theorem length_rows (hrows : allocationCandidateRows tables cache tenant
    (candidates h settings store run) a = some rows) :
    rows.length + (a.naivePicks.flatMap Pick.candidateIds).length =
      (candidates h settings store run).length := by
  have hcount := (hdone.perm_records hu hrun).length_eq
  rw [List.length_append, List.length_map, List.length_map] at hcount
  rw [← (forall₂_allocationCandidateRows hu hrows).length_eq]
  exact hcount

/-- **Any other candidate has one row**, selected as it is picked. -/
theorem exists_rowsOf (hrows : allocationCandidateRows tables cache tenant
    (candidates h settings store run) a = some rows) (hc : c ∈ candidates h settings store run)
    (hother : ∀ p ∈ a.naivePicks, c.candidateId ∉ p.candidateIds) :
    ∃ row, rowsOf a rows c = [row] ∧ IsCandidateRow a c row := by
  have hmem : c.candidateId ∈ a.records.map AllocationDecision.candidateId := by
    have hid := (hdone.perm_records hu hrun).mem_iff.mpr (List.mem_map_of_mem hc)
    refine (List.mem_append.mp hid).resolve_right ?_
    intro hnaive
    obtain ⟨p, hp, hin⟩ := List.mem_flatMap.mp hnaive
    exact hother p hp hin
  obtain ⟨d, hd, hid⟩ := List.mem_map.mp hmem
  obtain ⟨row, ⟨hsel, hrow⟩, hone⟩ := exists_filter_zip
    (forall₂_allocationCandidateRows hu hrows) (hdone.nodup_records hu hrun).1 hd
  obtain ⟨huser, hincentive⟩ := hrow c hc hid.symm
  refine ⟨row, ?_, huser, hincentive, ?_⟩
  · unfold rowsOf
    rw [← hid]
    exact hone
  · rw [hsel]
    constructor
    · intro hselected
      -- what is selected is a decision of the allocator
      have hdecision : d ∈ a.allocation.decisions := by
        refine (List.mem_append.mp hd).resolve_right ?_
        intro hextra
        rw [(hdone.excludes_of_mem_extra hrun hextra).1] at hselected
        cases hselected
      obtain ⟨p, hp, -, hin⟩ := hdone.exists_pick_of_selected hu hdecision hselected
      exact ⟨p, List.mem_append_left _ hp, hid ▸ hin⟩
    · rintro ⟨p, hp, hin⟩
      rcases List.mem_append.mp hp with hp | hp
      · exact (hdone.choiceKey_of_mem_candidateIds hu hrun hp hd (hid ▸ hin)).2
      · exact absurd hin (hother p hp)

/-- **A NAIVE pick breaks the record**: the table is too short. -/
theorem not_fullyRecorded {u : String} (htarget : NaiveTarget h settings store run u)
    (hrows : allocationCandidateRows tables cache tenant (candidates h settings store run) a =
      some rows) : ¬ FullyRecorded (candidates h settings store run) a rows := by
  intro hfull
  obtain ⟨p, hp, -⟩ := hdone.exists_naivePick htarget
  have hin : p.top.candidate.candidateId ∈ a.naivePicks.flatMap Pick.candidateIds := by
    refine List.mem_flatMap.mpr ⟨p, hp, ?_⟩
    rw [hdone.candidateIds_naivePick hp]
    exact List.mem_cons_self
  have hmissing := List.length_pos_of_mem hin
  have hlength := hdone.length_rows hu hrun hrows
  have hequal := hfull.length
  omega

/-- Without one nothing is missing. -/
theorem fullyRecorded (hnone : ∀ u, ¬ NaiveTarget h settings store run u)
    (hrows : allocationCandidateRows tables cache tenant (candidates h settings store run) a =
      some rows) : FullyRecorded (candidates h settings store run) a rows := by
  have hnaive : a.naivePicks = [] := by
    rw [List.eq_nil_iff_forall_not_mem]
    intro p hp
    exact hnone _ (hdone.isNaivePick hp).naiveTarget
  constructor
  · have hlength := hdone.length_rows hu hrun hrows
    rw [hnaive] at hlength
    exact hlength
  · intro c hc
    refine hdone.exists_rowsOf hu hrun hrows hc ?_
    intro p hp
    rw [hnaive] at hp
    cases hp

end Completed

/-- **When the full candidate list is recorded.** In every run that
completes ALLOCATE with distinct candidates, `save_allocation` writes rows,
and they are one for each candidate, selected exactly when a pick takes it,
if and only if nobody qualifies for a NAIVE pick. -/
theorem fullyRecorded_iff (tables : Tables K) (cache : StoreCache) (tenant : Uuid)
    (hu : DistinctCandidates h settings store run)
    (hrun : decisionStages h settings store run regressor = some a) :
    ∃ rows, allocationCandidateRows tables cache tenant (candidates h settings store run) a =
      some rows ∧ (FullyRecorded (candidates h settings store run) a rows ↔
        ∀ u, ¬ NaiveTarget h settings store run u) := by
  obtain ⟨v, ranked, hdone⟩ := exists_completed hrun
  obtain ⟨rows, hrows, -⟩ := hdone.exists_allocationCandidateRows hu hrun
  refine ⟨rows, hrows, ?_, fun hnone => hdone.fullyRecorded hu hrun hnone hrows⟩
  intro hfull u htarget
  exact hdone.not_fullyRecorded hu hrun htarget hrows hfull

/-- In the run of `user1` alone nobody is in the NAIVE arm. -/
theorem fullyRecorded_iff_lone : ∃ (a : Allocated ℚ) (rows : List (AllocationCandidateRow ℚ)),
    decisionStages sampleHashes sampleSettings sampleStore loneRun zeroRegressor = some a ∧
      allocationCandidateRows ⟨.empty, [], [], 0⟩ .fresh 1
        (candidates sampleHashes sampleSettings sampleStore loneRun) a = some rows ∧
      FullyRecorded (candidates sampleHashes sampleSettings sampleStore loneRun) a rows := by
  obtain ⟨a, hrun, -⟩ := exists_loneAllocated
  obtain ⟨rows, hrows, hiff⟩ := fullyRecorded_iff ⟨.empty, [], [], 0⟩ .fresh 1
    collisionFree_loneRun.unambiguous.candidateIds hrun
  refine ⟨a, rows, hrun, hrows, hiff.mpr ?_⟩
  have harms : ∀ c ∈ candidates sampleHashes sampleSettings sampleStore loneRun,
      armOf sampleHashes sampleSettings sampleStore loneRun c.userPseudonym ≠ .ok .naive := by
    decide +kernel
  rintro u ⟨harm, -, c, hc, -, rfl, -⟩
  exact harms c hc harm

/-- **The list is not complete**: what `user3` of the sample run is given,
in the NAIVE arm, is in no row. -/
theorem not_fullyRecorded_sample : ∃ (a : Allocated ℚ) (rows : List (AllocationCandidateRow ℚ)),
    decisionStages sampleHashes sampleSettings sampleStore sampleRun zeroRegressor = some a ∧
      allocationCandidateRows ⟨.empty, [], [], 0⟩ .fresh 1
        (candidates sampleHashes sampleSettings sampleStore sampleRun) a = some rows ∧
      ¬ FullyRecorded (candidates sampleHashes sampleSettings sampleStore sampleRun) a rows := by
  obtain ⟨a, hrun, -⟩ := exists_sampleAllocated
  have hids := collisionFree_sampleRun.unambiguous.candidateIds
  obtain ⟨v, ranked, hdone⟩ := exists_completed hrun
  obtain ⟨rows, hrows, -⟩ : ∃ rows, allocationCandidateRows ⟨.empty, [], [], 0⟩ .fresh 1
      (candidates sampleHashes sampleSettings sampleStore sampleRun) a = some rows ∧ _ :=
    hdone.exists_allocationCandidateRows hids hrun
  have htarget : NaiveTarget sampleHashes sampleSettings sampleStore sampleRun user3 := by
    refine ⟨by decide +kernel, by decide +kernel, ?_⟩
    decide +kernel
  exact ⟨a, rows, hrun, hrows, hdone.not_fullyRecorded hids hrun htarget hrows⟩

end Pipeline

end RetentionEngine
