import RetentionEngine.Pipeline.HardRules

/-!
# Responsible lending over the stored history

The guard denies a borrowing incentive to a user with enough late
repayments, but it counts them among `run.events`, and INGEST loads those
for a window that is sized for the graph. A lookback that reaches further
back than this window counts what has not been loaded:
`lendingKept_iff` says exactly for which histories the rule is kept.
-/

namespace RetentionEngine

namespace Pipeline

open PolicyGuard
open Allocator (unitOf selectedOf mem_selectedOf)

variable {K : Type}

/-- The settings that size the window of `_ingest`. -/
structure WindowSettings where
  pipelineGraphLookbackDays : ℤ
  pipelineActivityWindowDays : ℤ

/-- `since` of `_ingest`. -/
def WindowSettings.since (w : WindowSettings) (now : Timestamp) : Timestamp :=
  now - 86400 * (w.pipelineGraphLookbackDays + w.pipelineActivityWindowDays)

/-- `load_canonical_events`. -/
def loadCanonicalEvents (history : List CanonicalEvent) (since : Timestamp) : List CanonicalEvent :=
  history.filter fun e => since ≤ e.occurredAt

/-- `run.events`, as `_ingest` sets it. -/
def windowEvents (w : WindowSettings) (now : Timestamp) (history : List CanonicalEvent) :
    List CanonicalEvent :=
  (loadCanonicalEvents history (w.since now)).filter fun e => e.occurredAt ≤ now

/-- When the user repaid late. -/
def lateRepayments (user : String) (events : List CanonicalEvent) : List Timestamp :=
  (events.filter fun e => e.eventType = .loanRepaymentLate ∧ e.userPseudonym = user).map
    CanonicalEvent.occurredAt

/-- **The rule is kept for a user**, whose stored events are `mine`: in
every run over a history with these events of the user, if `m` of the late
repayments are in the lookback, then no pick gives the user an incentive
that encourages borrowing. -/
def LendingKept (w : WindowSettings) (now : Timestamp) (lookbackDays m : ℤ) (user : String)
    (mine : List CanonicalEvent) : Prop :=
  ∀ (K : Type) [Field K] [LinearOrder K] (h : Hashes) (settings : PipelineSettings K)
    (store : StoreReads) (run : ScoredRun K) (regressor : Ranker.Regressor K)
    (history : List CanonicalEvent),
    settings.responsibleLendingLookbackDays = lookbackDays →
    settings.responsibleLendingMinLateEvents = m → run.now = now →
    run.events = windowEvents w now history →
    (history.filter fun e => e.userPseudonym = user) = mine →
    DistinctCandidates h settings store run →
    m ≤ countSince now lookbackDays (lateRepayments user history) →
    ∀ a ∈ decisionStages h settings store run regressor, ∀ p ∈ a.picks, user ∈ p.targets →
      p.top.candidate.encouragesBorrowing = false

/-- **The window shows enough**: the user has no event in it, or `m` late
repayments of the lookback. -/
def WindowShows (w : WindowSettings) (now : Timestamp) (lookbackDays m : ℤ) (user : String)
    (mine : List CanonicalEvent) : Prop :=
  windowEvents w now mine = [] ∨
    m ≤ countSince now lookbackDays (lateRepayments user (windowEvents w now mine))

/-! ## What a window keeps of one user -/

section Window

variable {w : WindowSettings} {now : Timestamp} {history : List CanonicalEvent} {e : CanonicalEvent}
  {user : String}

theorem mem_windowEvents : e ∈ windowEvents w now history ↔
    e ∈ history ∧ w.since now ≤ e.occurredAt ∧ e.occurredAt ≤ now := by
  unfold windowEvents loadCanonicalEvents
  simp only [List.mem_filter, decide_eq_true_eq, and_assoc]

/-- The window of a user's events is the user's part of the window. -/
theorem filter_windowEvents :
    ((windowEvents w now history).filter fun e => e.userPseudonym = user) =
      windowEvents w now (history.filter fun e => e.userPseudonym = user) := by
  unfold windowEvents loadCanonicalEvents
  simp only [List.filter_filter]
  refine List.filter_congr ?_
  intro e _
  ac_rfl

theorem lateRepayments_filter :
    lateRepayments user (history.filter fun e => e.userPseudonym = user) =
      lateRepayments user history := by
  unfold lateRepayments
  rw [List.filter_filter]
  refine congrArg _ (List.filter_congr ?_)
  intro e _
  by_cases huser : e.userPseudonym = user <;> simp [huser]

/-- **A lookback inside the window counts everything.** -/
theorem countSince_windowEvents {lookbackDays : ℤ}
    (hle : lookbackDays ≤ w.pipelineGraphLookbackDays + w.pipelineActivityWindowDays) :
    countSince now lookbackDays (lateRepayments user (windowEvents w now history)) =
      countSince now lookbackDays (lateRepayments user history) := by
  unfold countSince lateRepayments windowEvents loadCanonicalEvents
  rw [List.filter_map, List.filter_map, List.length_map, List.length_map]
  simp only [List.filter_filter]
  refine congrArg List.length (List.filter_congr ?_)
  intro e _
  rw [Bool.eq_iff_iff]
  have hsince : now - 86400 * lookbackDays ≤ e.occurredAt → w.since now ≤ e.occurredAt := by
    intro hin
    have hmul := mul_le_mul_of_nonneg_left hle (show (0 : ℤ) ≤ 86400 by decide)
    exact (Int.sub_le_sub_left hmul now).trans hin
  simp only [Function.comp_apply, Bool.and_eq_true, decide_eq_true_eq]
  tauto

end Window

/-! ## The guard counts what the window shows -/

section Kept

variable [Field K] [LinearOrder K] {h : Hashes} {settings : PipelineSettings K}
  {store : StoreReads} {run : ScoredRun K} {regressor : Ranker.Regressor K} {v : Vetted}
  {ranked : List (RankedCandidate K)} {a : Allocated K} {p : Pick K} {u : String}

omit [Field K] [LinearOrder K] in
/-- A borrowing incentive is allowed only to who has too few late
repayments among the run's events. -/
theorem countSince_lt_of_allowed {b : Bool} {c : Candidate K}
    (hallowed : (evaluateFor settings store run b c).allowed = true)
    (hborrow : c.encouragesBorrowing = true) :
    (countSince run.now settings.responsibleLendingLookbackDays
      (lateRepayments c.userPseudonym run.events) : ℤ) <
        settings.responsibleLendingMinLateEvents := by
  have hrule := responsibleLending_of_allowed hallowed
  have hbelow := responsibleLending_allowed_iff.mp hrule hborrow
  exact hbelow

/-- The selected candidates of a unit encourage borrowing as one. -/
theorem Completed.encouragesBorrowing_of_selected
    (hdone : Completed h settings store run regressor v ranked a)
    (hu : DistinctCandidates h settings store run) (hp : p ∈ a.enginePicks)
    {r : RankedCandidate K}
    (hr : r ∈ selectedOf a.engine a.allocation (unitOf p.top.candidate)) :
    r.candidate.encouragesBorrowing = p.top.candidate.encouragesBorrowing := by
  obtain ⟨members, hperm, -, hbuilt⟩ := hdone.exists_members_enginePick hu hp
  -- the member whose flags the top has
  have hfirst : ∃ m ∈ members,
      m.candidate.encouragesBorrowing = p.top.candidate.encouragesBorrowing := by
    rcases hbuilt with hone | ⟨priority, hrep⟩
    · exact ⟨p.top, by rw [hone]; exact List.mem_singleton_self _, rfl⟩
    · obtain ⟨first, hhead, htop⟩ := Option.map_eq_some_iff.mp hrep
      exact ⟨first, List.mem_of_mem_head? hhead, by rw [← htop]⟩
  obtain ⟨m, hm, hflag⟩ := hfirst
  rw [← hflag]
  obtain ⟨-, hcode⟩ := (hdone.isEnginePick hu hp).uniform r hr
  obtain ⟨-, hcode'⟩ := (hdone.isEnginePick hu hp).uniform m (hperm.mem_iff.mp hm)
  have hcand := hdone.mem_candidates_of_mem_engine hu (mem_selectedOf.mp hr).1
  have hcand' := hdone.mem_candidates_of_mem_engine hu (mem_selectedOf.mp (hperm.mem_iff.mp hm)).1
  exact (eq_of_incentiveCode hcand hcand' (hcode.trans hcode'.symm)).2

/-- **Whoever is picked for borrowing** has too few late repayments among
the run's events. -/
theorem countSince_lt_of_picked (hu : DistinctCandidates h settings store run)
    (hrun : decisionStages h settings store run regressor = some a) (hp : p ∈ a.picks)
    (htarget : u ∈ p.targets) (hborrow : p.top.candidate.encouragesBorrowing = true) :
    u ∈ run.users ∧ (countSince run.now settings.responsibleLendingLookbackDays
      (lateRepayments u run.events) : ℤ) < settings.responsibleLendingMinLateEvents := by
  obtain ⟨v, ranked, hdone⟩ := exists_completed hrun
  rcases List.mem_append.mp hp with hp | hp
  · obtain ⟨r, hr, rfl⟩ := List.mem_map.mp ((hdone.isEnginePick hu hp).targets.mem_iff.mp htarget)
    have hmem := (mem_selectedOf.mp hr).1
    have hcand := hdone.mem_candidates_of_mem_engine hu hmem
    have hflag := hdone.encouragesBorrowing_of_selected hu hp hr
    exact ⟨mem_users_of_mem_candidates hcand,
      countSince_lt_of_allowed (hdone.allowed_of_mem_engine hu hmem) (hflag.trans hborrow)⟩
  · have hpick := hdone.isNaivePick hp
    rw [hpick.targets, List.mem_singleton] at htarget
    rw [htarget]
    exact ⟨mem_users_of_mem_candidates hpick.mem, countSince_lt_of_allowed hpick.allowed hborrow⟩

end Kept

/-! ## A run that lends -/

section Lent

variable {user : String} {now : Timestamp} {events : List CanonicalEvent} {lookbackDays m : ℤ}

/-- An incentive that encourages borrowing. -/
def paylaterDiscount : Incentive := ⟨"PAYLATER_DISCOUNT", 15000, true, false, false, []⟩

/-- The sample store with this incentive alone. -/
def lendingStore : StoreReads :=
  { sampleStore with
    incentives := [paylaterDiscount]
    nodup_codes := by decide }

/-- The sample settings with every unit in the NAIVE arm. -/
def lendingSettings (lookbackDays m : ℤ) : PipelineSettings ℚ :=
  { sampleSettings with
    responsibleLendingLookbackDays := lookbackDays
    responsibleLendingMinLateEvents := m
    measurementControlPct := 0
    measurementNaivePct := 100 }

/-- A run over one user's events. -/
def lendingRun (now : Timestamp) (events : List CanonicalEvent)
    (hex_events : ∀ e ∈ events, IsHex e.userPseudonym) : ScoredRun ℚ :=
  { loneRun with
    now := now
    events := events
    hex_events := hex_events }

/-- The one candidate of such a run. -/
def lendingCandidate (lookbackDays m : ℤ) (run : ScoredRun ℚ) (user : String) : Candidate ℚ :=
  candidate sampleHashes (lendingSettings lookbackDays m) run user paylaterDiscount none

variable (hex_events : ∀ e ∈ events, IsHex e.userPseudonym)

theorem users_lendingRun (hne : events ≠ []) (hall : ∀ e ∈ events, e.userPseudonym = user) :
    (lendingRun now events hex_events).users = [user] := by
  have hmap : events.map CanonicalEvent.userPseudonym = List.replicate events.length user := by
    refine List.eq_replicate_iff.mpr ⟨List.length_map _, ?_⟩
    intro u hu
    obtain ⟨e, he, rfl⟩ := List.mem_map.mp hu
    exact hall e he
  unfold ScoredRun.users lendingRun
  dsimp only
  rw [hmap, List.replicate_dedup (by simpa using hne)]
  rfl

variable (lookbackDays m now) in
theorem candidates_lendingRun (hne : events ≠ []) (hall : ∀ e ∈ events, e.userPseudonym = user) :
    candidates sampleHashes (lendingSettings lookbackDays m) lendingStore
      (lendingRun now events hex_events) =
        [lendingCandidate lookbackDays m (lendingRun now events hex_events) user] := by
  have husers : (lendingRun now events hex_events).users = [user] :=
    users_lendingRun hex_events hne hall
  have himpact : (lendingRun now events hex_events).impact =
      Dict.ofList Prod.fst Prod.snd [(user, ⟨4 / 5, 1 / 2⟩)] := by
    unfold ScoredRun.impact
    rw [husers]
    rfl
  have hscored : (lendingRun now events hex_events).scoredUsers = [user] := by
    unfold ScoredRun.scoredUsers
    rw [husers, himpact]
    simp [Dict.ofList, Dict.get?_set]
  unfold candidates individualCandidates
  rw [hscored]
  rfl

/-- The guard allows it with and without the segment rule. -/
theorem allowed_lendingCandidate (hne : events ≠ []) (hall : ∀ e ∈ events, e.userPseudonym = user)
    (hbelow : (countSince now lookbackDays (lateRepayments user events) : ℤ) < m) (b : Bool) :
    (evaluateFor (lendingSettings lookbackDays m) lendingStore (lendingRun now events hex_events) b
      (lendingCandidate lookbackDays m (lendingRun now events hex_events) user)).allowed =
        true := by
  have hsegment : (lendingCandidate lookbackDays m (lendingRun now events hex_events)
      user).segment = .persuadable := by
    have himpact : (lendingRun now events hex_events).impact.get? user = some ⟨4 / 5, 1 / 2⟩ := by
      unfold ScoredRun.impact
      rw [users_lendingRun hex_events hne hall]
      exact (Dict.get?_set).trans (if_pos rfl)
    unfold lendingCandidate candidate
    dsimp only
    rw [himpact]
    change segment sampleSettings ⟨4 / 5, 1 / 2⟩ = .persuadable
    decide +kernel
  refine allowed_evaluate_iff.mpr ?_
  intro r hr
  unfold results at hr
  rcases List.mem_append.mp hr with hr | hr
  · simp only [List.mem_cons, List.not_mem_nil, or_false] at hr
    rcases hr with rfl | rfl | rfl
    · exact responsibleLending_allowed_iff.mpr fun _ => hbelow
    · exact frequencyCap_allowed_iff.mpr (show ((0 : ℕ) : ℤ) < 3 by decide)
    · rfl
  · cases b with
    | false => cases hr
    | true =>
        obtain rfl := List.mem_singleton.mp hr
        unfold segmentExcluded
        rw [hsegment]
        rfl

/-- POLICY excludes nothing. -/
theorem policy_lendingRun (hne : events ≠ []) (hall : ∀ e ∈ events, e.userPseudonym = user)
    (hbelow : (countSince now lookbackDays (lateRepayments user events) : ℤ) < m) :
    ∃ v, policy sampleHashes (lendingSettings lookbackDays m) lendingStore
      (lendingRun now events hex_events) = some v := by
  have hallowed := allowed_lendingCandidate hex_events hne hall hbelow true
  unfold policy
  rw [candidates_lendingRun now lookbackDays m hex_events hne hall]
  simp only [List.foldlM_cons, List.foldlM_nil, vet, hallowed, if_true, Option.bind_eq_bind,
    Option.bind_some, Option.pure_def, Option.map_some]
  exact ⟨_, rfl⟩

/-- Every user is in the NAIVE arm. -/
theorem armOf_lendingRun : armOf sampleHashes (lendingSettings lookbackDays m) lendingStore
    (lendingRun now events hex_events) user = .ok .naive := by
  refine Measurement.assignArm_eq_ok.mpr ⟨?_, ?_, ?_⟩
  · exact (by decide : Measurement.ValidPcts 0 100)
  · exact (by decide : "test-measurement-secret" ≠ "")
  · generalize sampleHashes.hmacSha256 _ _ = digest
    have hlt : digest % 100 < 100 := Nat.mod_lt _ (by decide)
    have hnotControl : ¬ ((digest % 100 : ℕ) : ℤ) < 0 := by omega
    have hnaive : ((digest % 100 : ℕ) : ℤ) < 0 + 100 := by omega
    exact ((if_neg hnotControl).trans (if_pos hnaive)).symm

/-- Who may have everything is no obstacle to the NAIVE arm. -/
theorem exists_naiveTurn {K : Type} [Field K] [LinearOrder K] {settings : PipelineSettings K}
    {store : StoreReads} {run : ScoredRun K} {u : String} {cs : List (Candidate K)}
    (hallowed : ∀ c ∈ cs, (evaluateFor settings store run false c).allowed = true) :
    ∃ t, naiveTurn settings store run u cs = some t := by
  have hdenied : ((cs.insertionSort costLe).filter fun c =>
      !(evaluateFor settings store run false c).allowed) = [] := by
    refine List.filter_eq_nil_iff.mpr ?_
    intro c hc
    simp [hallowed c ((List.perm_insertionSort costLe cs).mem_iff.mp hc)]
  unfold naiveTurn
  dsimp only
  rw [hdenied]
  split
  · exact ⟨_, rfl⟩
  · simp only [List.mapM_nil, Option.pure_def, Option.bind_eq_bind, Option.bind_some]
    split
    · exact ⟨_, rfl⟩
    · exact ⟨_, rfl⟩

/-- Its user is its one unit. -/
theorem units_lendingRun (hne : events ≠ []) (hall : ∀ e ∈ events, e.userPseudonym = user) :
    units sampleHashes (lendingSettings lookbackDays m) lendingStore
      (lendingRun now events hex_events) = [user] := by
  have hunit : unit (lendingCandidate lookbackDays m (lendingRun now events hex_events) user) =
      user := if_neg fun htruthy => htruthy.1 rfl
  unfold units
  rw [candidates_lendingRun now lookbackDays m hex_events hne hall,
    users_lendingRun hex_events hne hall, List.map_singleton, hunit]
  simp

/-- Nothing is left for the allocator. -/
theorem engineRanked_lendingRun {arms : Dict String Arm} {v : Vetted}
    {ranked : List (RankedCandidate ℚ)}
    (harms : Pipeline.arms sampleHashes (lendingSettings lookbackDays m) lendingStore
      (lendingRun now events hex_events) = some arms)
    (hranked : rankStage sampleHashes (lendingSettings lookbackDays m) lendingStore
      (lendingRun now events hex_events) zeroRegressor v = some ranked) :
    engineRanked arms ranked = [] := by
  refine List.filter_eq_nil_iff.mpr ?_
  intro r hr harm
  have hmem := (perm_rankStage hranked).mem_iff.mp (List.mem_map_of_mem hr)
  have hunit := unit_eq_unitOf (List.mem_of_mem_filter hmem)
  have hin := unitOf_mem_units (List.mem_of_mem_filter hmem)
  have hget := of_decide_eq_true harm
  rw [hunit, get?_arms harms hin, armOf_lendingRun] at hget
  cases hget

/-- Each turn of the NAIVE arm comes to an end. -/
theorem exists_naiveArm_lendingRun (hne : events ≠ [])
    (hall : ∀ e ∈ events, e.userPseudonym = user)
    (hbelow : (countSince now lookbackDays (lateRepayments user events) : ℤ) < m)
    (arms : Dict String Arm) :
    ∃ t, naiveArm sampleHashes (lendingSettings lookbackDays m) lendingStore
      (lendingRun now events hex_events) arms = some t := by
  have hturns := exists_mapM_some (f := fun q : String × List (Candidate ℚ) =>
    naiveTurn (lendingSettings lookbackDays m) lendingStore (lendingRun now events hex_events)
      q.1 q.2) (l := (naiveByUser sampleHashes (lendingSettings lookbackDays m) lendingStore
        (lendingRun now events hex_events) arms).entries.insertionSort fun p q => p.1 ≤ q.1) ?_
  · obtain ⟨turns, hturns⟩ := hturns
    unfold naiveArm
    dsimp only
    rw [hturns]
    exact ⟨_, rfl⟩
  · rintro ⟨u, cs⟩ hq
    refine exists_naiveTurn ?_
    intro c hc
    obtain ⟨-, hcs⟩ := Dict.mem_entries_groupBy.mp ((List.perm_insertionSort _ _).mem_iff.mp hq)
    rw [hcs] at hc
    have hmem := List.mem_of_mem_filter (List.mem_of_mem_filter hc)
    rw [candidates_lendingRun now lookbackDays m hex_events hne hall] at hmem
    rw [List.mem_singleton.mp hmem]
    exact allowed_lendingCandidate hex_events hne hall hbelow false

/-- Of no candidates the allocator makes no picks. -/
theorem exists_allocate_nil (lookbackDays m : ℤ) (v : Vetted) :
    ∃ res, Allocator.allocate ([] : List (RankedCandidate ℚ)) 40000
      (allocatorConfig (lendingSettings lookbackDays m)) = .ok res ∧
        enginePicks sampleHashes v [] res = some [] := by
  have hnothing : ∃ res ∈ (Allocator.allocate ([] : List (RankedCandidate ℚ)) 40000
      (allocatorConfig sampleSettings)).toOption, res.decisions = [] := by decide +kernel
  obtain ⟨res, hres, hdecisions⟩ := hnothing
  refine ⟨res, toOption_eq_some.mp hres, ?_⟩
  unfold enginePicks
  rw [hdecisions]
  rfl

/-- **Each stage goes through.** -/
theorem exists_lendingAllocated (hne : events ≠ []) (hall : ∀ e ∈ events, e.userPseudonym = user)
    (hbelow : (countSince now lookbackDays (lateRepayments user events) : ℤ) < m) :
    ∃ a, decisionStages sampleHashes (lendingSettings lookbackDays m) lendingStore
      (lendingRun now events hex_events) zeroRegressor = some a := by
  obtain ⟨v, hv⟩ := policy_lendingRun hex_events hne hall hbelow
  obtain ⟨ranked, hranked⟩ : ∃ ranked, rankStage sampleHashes (lendingSettings lookbackDays m)
      lendingStore (lendingRun now events hex_events) zeroRegressor v = some ranked := ⟨_, rfl⟩
  obtain ⟨arms, harms⟩ : ∃ d, arms sampleHashes (lendingSettings lookbackDays m) lendingStore
      (lendingRun now events hex_events) = some d := by
    unfold Pipeline.arms
    rw [units_lendingRun hex_events hne hall, List.mapM_cons, armOf_lendingRun]
    exact ⟨_, rfl⟩
  obtain ⟨⟨naivePicks, extra⟩, hnaive⟩ := exists_naiveArm_lendingRun hex_events hne hall hbelow arms
  obtain ⟨res, halloc, hpicks⟩ := exists_allocate_nil lookbackDays m v
  rw [← engineRanked_lendingRun hex_events harms hranked] at halloc hpicks
  exact exists_decisionStages hv hranked harms halloc hpicks hnaive

/-- **The run lends** to the user, whose late repayments in the window are
below the bound. -/
theorem exists_lendingPick (hne : events ≠ []) (hall : ∀ e ∈ events, e.userPseudonym = user)
    (hbelow : (countSince now lookbackDays (lateRepayments user events) : ℤ) < m) :
    DistinctCandidates sampleHashes (lendingSettings lookbackDays m) lendingStore
      (lendingRun now events hex_events) ∧
    ∃ a ∈ decisionStages sampleHashes (lendingSettings lookbackDays m) lendingStore
        (lendingRun now events hex_events) zeroRegressor,
      ∃ p ∈ a.picks, user ∈ p.targets ∧ p.top.candidate.encouragesBorrowing = true := by
  have hcands := candidates_lendingRun now lookbackDays m hex_events hne hall
  have hu : DistinctCandidates sampleHashes (lendingSettings lookbackDays m) lendingStore
      (lendingRun now events hex_events) := by
    unfold DistinctCandidates
    rw [hcands]
    exact List.nodup_singleton _
  have hmem : lendingCandidate lookbackDays m (lendingRun now events hex_events) user ∈
      candidates sampleHashes (lendingSettings lookbackDays m) lendingStore
        (lendingRun now events hex_events) := by
    rw [hcands]
    exact List.mem_singleton_self _
  obtain ⟨a, ha⟩ := exists_lendingAllocated hex_events hne hall hbelow
  obtain ⟨v, ranked, hdone⟩ := exists_completed ha
  -- the user is at risk, so the NAIVE arm picks the one candidate
  have hrisk : (3 / 5 : ℚ) ≤ 7 / 10 := by decide +kernel
  obtain ⟨p, hp, huser⟩ := hdone.exists_naivePick (u := user)
    ⟨armOf_lendingRun hex_events, hrisk, _, hmem, rfl, rfl,
      allowed_lendingCandidate hex_events hne hall hbelow false⟩
  have hpick := hdone.isNaivePick hp
  refine ⟨hu, a, ha, p, List.mem_append_right _ hp, ?_, ?_⟩
  · rw [hpick.targets, huser]
    exact List.mem_singleton_self _
  · have htop := hpick.mem
    rw [hcands, List.mem_singleton] at htop
    rw [htop]
    rfl

end Lent

/-! ## When the rule is kept -/

section Exact

variable {w : WindowSettings} {now : Timestamp} {lookbackDays m : ℤ} {user : String}
  {mine : List CanonicalEvent}

/-- A window that shows enough keeps the rule. -/
theorem lendingKept_of_windowShows (hshows : m ≤ countSince now lookbackDays
    (lateRepayments user mine) → WindowShows w now lookbackDays m user mine) :
    LendingKept w now lookbackDays m user mine := by
  intro K _ _ h settings store run regressor history hlookback hm hnow hevents hmine hu hlate a ha
    p hp htarget
  by_contra hborrow
  rw [Bool.not_eq_false] at hborrow
  obtain ⟨huser, hbelow⟩ := countSince_lt_of_picked hu ha hp htarget hborrow
  have hwindow : (run.events.filter fun e => e.userPseudonym = user) = windowEvents w now mine := by
    rw [hevents, filter_windowEvents, hmine]
  have hcount : countSince now lookbackDays (lateRepayments user run.events) =
      countSince now lookbackDays (lateRepayments user (windowEvents w now mine)) := by
    rw [← hwindow, lateRepayments_filter]
  rw [hnow, hlookback, hm, hcount] at hbelow
  rw [← lateRepayments_filter, hmine] at hlate
  rcases hshows hlate with hempty | henough
  · -- the user has an event in the window
    unfold ScoredRun.users at huser
    rw [(List.perm_insertionSort _ _).mem_iff, List.mem_dedup] at huser
    obtain ⟨e, he, heq⟩ := List.mem_map.mp huser
    have hin : e ∈ run.events.filter fun e => e.userPseudonym = user :=
      List.mem_filter.mpr ⟨he, decide_eq_true heq⟩
    rw [hwindow, hempty] at hin
    cases hin
  · omega

/-- **A lookback inside the window keeps the rule** for every history. -/
theorem lendingKept_of_le
    (hle : lookbackDays ≤ w.pipelineGraphLookbackDays + w.pipelineActivityWindowDays) :
    LendingKept w now lookbackDays m user mine := by
  refine lendingKept_of_windowShows ?_
  intro hlate
  refine Or.inr ?_
  rw [countSince_windowEvents hle]
  exact hlate

/-- A window that shows too little has a run that breaks the rule. -/
theorem not_lendingKept_of_not_windowShows (hex : IsHex user)
    (hmine : ∀ e ∈ mine, e.userPseudonym = user)
    (hlate : m ≤ countSince now lookbackDays (lateRepayments user mine))
    (hnot : ¬ WindowShows w now lookbackDays m user mine) :
    ¬ LendingKept w now lookbackDays m user mine := by
  obtain ⟨hne, hbelow⟩ := not_or.mp hnot
  have hall : ∀ e ∈ windowEvents w now mine, e.userPseudonym = user := fun e he =>
    hmine e (mem_windowEvents.mp he).1
  have hhex : ∀ e ∈ windowEvents w now mine, IsHex e.userPseudonym := by
    intro e he
    rw [hall e he]
    exact hex
  intro hkept
  obtain ⟨hu, a, ha, p, hp, htarget, hborrow⟩ :=
    exists_lendingPick hhex hne hall (not_le.mp hbelow)
  have hself : (mine.filter fun e => e.userPseudonym = user) = mine :=
    List.filter_eq_self.mpr fun e he => decide_eq_true (hmine e he)
  have hdenied := hkept ℚ sampleHashes (lendingSettings lookbackDays m) lendingStore
    (lendingRun now (windowEvents w now mine) hhex) zeroRegressor mine rfl rfl rfl rfl hself hu
    hlate a ha p hp htarget
  rw [hborrow] at hdenied
  cases hdenied

/-- **The rule is kept exactly when the window shows enough**: for every
window, lookback, bound and stored events of a user, no run over a history
with these events gives the user, with `m` late repayments in the lookback,
an incentive that encourages borrowing, if and only if the user has no
event in the window or `m` of the late repayments are in it. -/
theorem lendingKept_iff (hex : IsHex user) (hmine : ∀ e ∈ mine, e.userPseudonym = user) :
    LendingKept w now lookbackDays m user mine ↔
      (m ≤ countSince now lookbackDays (lateRepayments user mine) →
        WindowShows w now lookbackDays m user mine) := by
  constructor
  · intro hkept hlate
    by_contra hnot
    exact not_lendingKept_of_not_windowShows hex hmine hlate hnot hkept
  · exact lendingKept_of_windowShows

end Exact

/-- A late repayment and, 150 days later, a transfer. -/
def lateHistory : List CanonicalEvent :=
  [{ sampleEvent "e1" user1 user3 with eventType := .loanRepaymentLate },
    { sampleEvent "e2" user1 user3 with occurredAt := 150 * 86400 }]

/-- With a lookback of 180 days in a window of 200 the rule is kept. -/
theorem lendingKept_lateHistory :
    LendingKept ⟨170, 30⟩ (151 * 86400) 180 1 user1 lateHistory :=
  (lendingKept_iff (by decide) (by decide)).mpr fun _ => Or.inr (by decide)

/-- **The rule is not kept**: with a lookback of 180 days in the default
window of 120, the late repayment is not loaded. -/
theorem not_lendingKept :
    ¬ ∀ (w : WindowSettings) (now : Timestamp) (lookbackDays m : ℤ) (user : String)
      (mine : List CanonicalEvent), 1 ≤ m → IsHex user →
        (∀ e ∈ mine, e.userPseudonym = user) → LendingKept w now lookbackDays m user mine := by
  intro hlaw
  have hkept := hlaw ⟨90, 30⟩ (151 * 86400) 180 1 user1 lateHistory le_rfl (by decide) (by decide)
  refine not_lendingKept_of_not_windowShows (by decide) (by decide) (by decide) ?_ hkept
  rintro (hempty | henough)
  · exact absurd hempty (by decide)
  · exact absurd henough (by decide)

end Pipeline

end RetentionEngine
