import RetentionEngine.Common.Run
import RetentionEngine.Pipeline.Persist
import Mathlib.Data.Rat.Floor

/-!
# The frequency cap over a history

A tenant's history: executions of its runs, each up to the commit of its
recommendations, and between them the approvals, rejections and delivery
acks of the two surfaces. The guard counts the entries of `contact_log`,
and no step writes one (`contactLog_eq_nil`): a delivery is recorded in
its recommendation only. So the cap the runs keep is one on an empty log,
and what has really been delivered never counts.
-/

namespace RetentionEngine

namespace FrequencyCap

open Pipeline PolicyGuard

/-- The tenant and its settings. -/
structure Env (K : Type) where
  hashes : Hashes
  settings : PipelineSettings K
  tenant : Uuid

/-- The tenant's tables: `contact_log` by pseudonym and time. -/
structure State (K : Type) where
  tables : Tables K
  contactLog : List (String × Timestamp)

/-- What may happen next. -/
inductive Action (K : Type)
  /-- A run is executed until its recommendations are committed. -/
  | execute (i : Inputs K) (now : Timestamp)
  | approve (id : Uuid) (reviewerId : String) (note : Option String) (now : Timestamp)
  | reject (id : Uuid) (reviewerId : String) (note : Option String) (now : Timestamp)
  /-- `delivery_ack` of the client surface. -/
  | deliveryAck (id : Uuid) (deliveryRef : Option String) (now : Timestamp)
  /-- `console_delivery_ack` of the console. -/
  | consoleDeliveryAck (id : Uuid) (deliveryRef : Option String) (now : Timestamp)

variable {K : Type} [Field K] [LinearOrder K] [FloorRing K]

/-- `load_contact_times`. -/
def contactTimes (log : List (String × Timestamp)) (user : String) : List Timestamp :=
  (log.filter fun c => c.1 = user).map Prod.snd

/-- What a run loads from the store. -/
def storeReads (s : State K) (i : Inputs K) : StoreReads :=
  { i.store with contactTimes := contactTimes s.contactLog }

/-- What a run executed now decides. -/
def decision (env : Env K) (s : State K) (i : Inputs K) : Option (Allocated K) :=
  decisionStages env.hashes env.settings (storeReads s i) i.run i.regressor

/-- The tables after a run. -/
def execute (env : Env K) (s : State K) (i : Inputs K) (now : Timestamp) : Option (Tables K) := do
  let a ← decision env s i
  let graphed := saveCircles s.tables .fresh (i.run.circles env.hashes env.settings)
  let allocated := saveAllocation graphed.1 graphed.2 a
  (createRecommendations allocated.1 allocated.2 env.tenant now
    (recommendations env.hashes i.run i.narrations a.picks)).toOption

/-- The state with the recommendations a call returns; a call that raises
is no step. -/
def State.withRows (s : State K)
    (result : Except Store.RepositoryError (List RecommendationRow)) : Option (State K) :=
  result.toOption.map fun rows => { s with tables := { s.tables with recommendations := rows } }

/-- **One step of a history.** -/
def step (env : Env K) (s : State K) : Action K → Option (State K)
  | .execute i now => (execute env s i now).map fun tables => { s with tables := tables }
  | .approve id reviewerId note now =>
      s.withRows (Store.approve env.tenant s.tables.recommendations id reviewerId note now)
  | .reject id reviewerId note now =>
      s.withRows (Store.reject env.tenant s.tables.recommendations id reviewerId note now)
  | .deliveryAck id deliveryRef now | .consoleDeliveryAck id deliveryRef now =>
      s.withRows (Store.markDelivered env.tenant s.tables.recommendations id deliveryRef now)

/-- The step relation. -/
def Step (env : Env K) (s : State K) (a : Action K) (s' : State K) : Prop := step env s a = some s'

/-- Nothing yet. -/
def initial : State K := ⟨⟨.empty, [], [], 0⟩, []⟩

/-- **When recommendations were delivered to a user**, alone or with the
circle. -/
def deliveredTo (s : State K) (user : String) : List Timestamp :=
  s.tables.recommendations.filterMap fun r =>
    if r.status = .delivered ∧ user ∈ (subject s.tables.circles r).targets then r.deliveredAt
    else none

/-- **The cap holds for what is delivered**: in every history, whoever a run
picks has had fewer than `m` deliveries in the `w` days before. -/
def CapKept (env : Env K) (m w : ℤ) : Prop :=
  ∀ (tr : List (Transition (State K) (Action K))) (s : State K), Run (Step env) initial tr s →
    ∀ (i : Inputs K), CollisionFree env.hashes env.settings (storeReads s i) i.run →
      ∀ a ∈ decision env s i, ∀ p ∈ a.picks, ∀ u ∈ p.targets,
        (countSince i.run.now w (deliveredTo s u) : ℤ) < m

/-! ## The cap counts an empty log -/

variable {env : Env K} {s s' : State K} {a : Action K} {tr : List (Transition (State K) (Action K))}

/-- **No step writes the contact log.** -/
theorem step_contactLog (h : Step env s a s') : s'.contactLog = s.contactLog := by
  cases a with
  | execute i now =>
      obtain ⟨tables, -, rfl⟩ := Option.map_eq_some_iff.mp h
      rfl
  | approve id reviewerId note now =>
      obtain ⟨rows, -, rfl⟩ := Option.map_eq_some_iff.mp h
      rfl
  | reject id reviewerId note now =>
      obtain ⟨rows, -, rfl⟩ := Option.map_eq_some_iff.mp h
      rfl
  | deliveryAck id deliveryRef now =>
      obtain ⟨rows, -, rfl⟩ := Option.map_eq_some_iff.mp h
      rfl
  | consoleDeliveryAck id deliveryRef now =>
      obtain ⟨rows, -, rfl⟩ := Option.map_eq_some_iff.mp h
      rfl

theorem contactLog_eq_nil (h : Run (Step env) initial tr s) : s.contactLog = [] :=
  h.invariant' (I := fun s => s.contactLog = []) rfl fun _ _ _ hlog hstep =>
    (step_contactLog hstep).trans hlog

omit [FloorRing K] in
/-- **Whoever is picked is allowed something**, the cap included. -/
theorem exists_allowed_of_target {h : Hashes} {settings : PipelineSettings K} {store : StoreReads}
    {run : ScoredRun K} {regressor : Ranker.Regressor K} {a : Allocated K} {p : Pick K} {u : String}
    (hfree : CollisionFree h settings store run)
    (hrun : decisionStages h settings store run regressor = some a) (hp : p ∈ a.picks)
    (hu : u ∈ p.targets) : ∃ b c, c.userPseudonym = u ∧
      (evaluateFor settings store run b c).allowed = true := by
  have hunamb := hfree.unambiguous.candidateIds
  obtain ⟨v, ranked, hdone⟩ := exists_completed hrun
  rcases List.mem_append.mp hp with hp | hp
  · obtain ⟨r, hr, rfl⟩ := List.mem_map.mp ((hdone.isEnginePick hunamb hp).targets.mem_iff.mp hu)
    exact ⟨true, r.candidate, rfl,
      hdone.allowed_of_mem_engine hunamb (Allocator.mem_selectedOf.mp hr).1⟩
  · have hpick := hdone.isNaivePick hp
    rw [hpick.targets, List.mem_singleton] at hu
    exact ⟨false, p.top.candidate, hu.symm, hpick.allowed⟩

omit [FloorRing K] in
/-- **What the runs do keep**: the cap on what the log holds. -/
theorem countSince_contactTimes_lt {i : Inputs K} {a : Allocated K} {p : Pick K} {u : String}
    {m w : ℤ} (hm : env.settings.frequencyCapMaxContacts = some m)
    (hw : env.settings.frequencyCapWindowDays = some w)
    (hfree : CollisionFree env.hashes env.settings (storeReads s i) i.run)
    (ha : decision env s i = some a) (hp : p ∈ a.picks) (hu : u ∈ p.targets) :
    (countSince i.run.now w (contactTimes s.contactLog u) : ℤ) < m := by
  obtain ⟨b, c, rfl, hallowed⟩ := exists_allowed_of_target hfree ha hp hu
  have hcap := frequencyCap_of_allowed hallowed
  change (frequencyCap (userFacts (storeReads s i) i.run c.userPseudonym)
    env.settings.frequencyCapMaxContacts env.settings.frequencyCapWindowDays).allowed = true at hcap
  rw [hm, hw] at hcap
  have hbelow := frequencyCap_allowed_iff.mp hcap
  exact hbelow

/-- A window that ends before it starts is empty. -/
theorem countSince_of_neg {now : Timestamp} {w : ℤ} (hw : w < 0) (times : List Timestamp) :
    countSince now w times = 0 := by
  unfold countSince
  rw [List.length_eq_zero_iff, List.filter_eq_nil_iff]
  intro t ht hin
  have hin := of_decide_eq_true hin
  linarith

/-- **A cap of nothing and an empty window are kept.** -/
theorem capKept_of {m w : ℤ} (hm : env.settings.frequencyCapMaxContacts = some m)
    (hw : env.settings.frequencyCapWindowDays = some w) (h : m ≤ 0 ∨ w < 0) :
    CapKept env m w := by
  intro tr s hrun i hfree a ha p hp u hu
  have hlog := countSince_contactTimes_lt hm hw hfree ha hp hu
  rw [contactLog_eq_nil hrun] at hlog
  have hzero : countSince i.run.now w (contactTimes [] u) = 0 := rfl
  rw [hzero] at hlog
  rcases h with hnone | hempty
  · omega
  · rw [countSince_of_neg hempty]
    exact hlog

/-! ## Any number of deliveries -/

section WithCap

variable {h : Hashes} {settings : PipelineSettings K} {store : StoreReads} {run : ScoredRun K}
  {regressor : Ranker.Regressor K} {m m' w w' : ℤ}

omit [Field K] [LinearOrder K] [FloorRing K]

/-- The settings with a cap of `m` contacts in `w` days. -/
def withCap (settings : PipelineSettings K) (m w : ℤ) : PipelineSettings K :=
  { settings with frequencyCapMaxContacts := some m, frequencyCapWindowDays := some w }

/-- Whoever has no contacts is below a cap. -/
theorem frequencyCap_of_nil {facts : UserFacts} (hm : 0 < m) (hnone : facts.contactedAt = []) :
    frequencyCap facts (some m) (some w) = ok .frequencyCap := by
  unfold frequencyCap
  dsimp only
  rw [hnone]
  exact if_neg (not_le.mpr hm)

/-- **On an empty log one cap is like another.** -/
theorem evaluateFor_withCap (hnone : ∀ u, store.contactTimes u = []) (hm : 0 < m) (hm' : 0 < m') :
    evaluateFor (withCap settings m w) store run =
      evaluateFor (withCap settings m' w') store run := by
  funext b c
  have hcap : ∀ {m w : ℤ}, 0 < m → frequencyCap (userFacts store run c.userPseudonym)
      (policyConfig (withCap settings m w) b).frequencyCapMaxContacts
      (policyConfig (withCap settings m w) b).frequencyCapWindowDays = ok .frequencyCap :=
    fun hm => frequencyCap_of_nil hm (hnone _)
  unfold evaluateFor evaluate results
  rw [hcap hm, hcap hm']
  rfl

theorem decisionStages_withCap [Field K] [LinearOrder K] (hnone : ∀ u, store.contactTimes u = [])
    (hm : 0 < m) (hm' : 0 < m') :
    decisionStages h (withCap settings m w) store run regressor =
      decisionStages h (withCap settings m' w') store run regressor := by
  have heval : evaluateFor (withCap settings m w) store run =
      evaluateFor (withCap settings m' w') store run := evaluateFor_withCap hnone hm hm'
  have hvet : vet (withCap settings m w) store run = vet (withCap settings m' w') store run := by
    unfold vet
    rw [heval]
  have hturn : naiveTurn (withCap settings m w) store run =
      naiveTurn (withCap settings m' w') store run := by
    unfold naiveTurn
    rw [heval]
    rfl
  unfold decisionStages policy allocate naiveArm
  rw [hvet, hturn]
  rfl

end WithCap

/-- The sample tenant under a cap. -/
def cappedEnv (m w : ℤ) : Env ℚ := ⟨sampleHashes, withCap sampleSettings m w, 1⟩

section Deliveries

variable {m w : ℤ} {s : State ℚ}

theorem storeReads_sample (hlog : s.contactLog = []) (run : ScoredRun ℚ) :
    storeReads s (sampleInputs run) = sampleStore := by
  unfold storeReads
  rw [hlog]
  rfl

/-- While the log is empty, the run picks `user1`. -/
theorem exists_decision (hm : 0 < m) (hlog : s.contactLog = []) :
    ∃ a p, decision (cappedEnv m w) s (sampleInputs loneRun) = some a ∧ a.picks = [p] ∧
      p.groupId = none ∧ p.top.candidate.userPseudonym = user1 := by
  obtain ⟨a, ha, hpicks⟩ := exists_loneAllocated
  obtain ⟨p, hp, heq⟩ := List.map_eq_singleton_iff.mp hpicks
  obtain ⟨hgroup, huser⟩ := Prod.mk.inj heq
  refine ⟨a, p, ?_, hp, hgroup, huser⟩
  have hdecision : decision (cappedEnv m w) s (sampleInputs loneRun) =
      decisionStages sampleHashes (withCap sampleSettings m w) sampleStore loneRun
        zeroRegressor := by
    unfold decision
    rw [storeReads_sample hlog]
    rfl
  rw [hdecision, decisionStages_withCap (fun _ => rfl) hm (show (0 : ℤ) < 3 by decide)]
  exact ha

/-- Ids in use are below the next one. -/
def Fresh (s : State ℚ) : Prop := ∀ r ∈ s.tables.recommendations,
  r.id < s.tables.nextId ∧ r.allocationRunId < s.tables.nextId

/-- The state with one more row. -/
def State.append (s : State ℚ) (row : RecommendationRow) (n : Uuid) : State ℚ :=
  { s with tables := { s.tables with
      recommendations := s.tables.recommendations ++ [row], nextId := n } }

/-- A run appends the row of `user1`. -/
theorem exists_execute (hm : 0 < m) (hlog : s.contactLog = []) (now : Timestamp) :
    ∃ row n, Step (cappedEnv m w) s (.execute (sampleInputs loneRun) now) (s.append row n) ∧
      s.tables.nextId ≤ row.id ∧ row.id < n ∧ s.tables.nextId ≤ row.allocationRunId ∧
      row.allocationRunId < n ∧ row.status = .pendingApproval ∧ row.circleId = none ∧
      row.userPseudonym = some user1 := by
  obtain ⟨a, p, ha, hp, hgroup, huser⟩ := exists_decision (w := w) hm hlog
  have hrecs : recommendations (cappedEnv m w).hashes loneRun (sampleInputs loneRun).narrations
      a.picks = [recommendation (cappedEnv m w).hashes loneRun
        ((sampleInputs loneRun).narrations 0) p] := by
    rw [hp]
    rfl
  generalize hrec : recommendation (cappedEnv m w).hashes loneRun
    ((sampleInputs loneRun).narrations 0) p = rec at hrecs
  have hrecGroup : rec.groupId = none := by rw [← hrec]; exact hgroup
  have hrecUser : rec.userPseudonym = some user1 := by
    rw [← hrec]
    unfold recommendation
    dsimp only
    rw [hgroup, if_neg (fun ht => ht.1 rfl), huser]
  have hnot : ¬ truthy rec.groupId := fun htruthy => htruthy.1 hrecGroup
  -- the tables and caches after ALLOCATE
  let saved := saveAllocation s.tables .fresh a
  have hcreate : createRecommendations saved.1 saved.2 1 now [rec] = .ok { saved.1 with
      recommendations := saved.1.recommendations ++ [Store.createPending saved.1.nextId 1 now
        (pendingFields saved.2 s.tables.nextId none rec)]
      nextId := saved.1.nextId + 1 } := createRecommendations_user hrecGroup rfl
  refine ⟨Store.createPending saved.1.nextId 1 now
    (pendingFields saved.2 s.tables.nextId none rec), saved.1.nextId + 1, ?_, ?_,
    Nat.lt_succ_self _, le_rfl, ?_, rfl, rfl, ?_⟩
  · rw [← hrecs] at hcreate
    unfold Step step execute
    dsimp only
    rw [ha]
    exact congrArg (fun result => result.toOption.map fun tables => { s with tables := tables })
      hcreate
  · exact (Nat.le_succ _).trans (Nat.le_add_right _ _)
  · exact Nat.lt_succ_of_lt (Nat.lt_add_right _ (Nat.lt_succ_self _))
  · unfold Store.createPending pendingFields
    dsimp only
    rw [if_neg hnot, hrecUser]

theorem deliveredTo_append {row : RecommendationRow} {n : Uuid} {t : Timestamp} {u : String}
    (hstatus : row.status = .delivered) (hcircle : row.circleId = none)
    (huser : row.userPseudonym = some u) (hat : row.deliveredAt = some t) :
    deliveredTo (s.append row n) u = deliveredTo s u ++ [t] := by
  have hsubject : subject s.tables.circles row = .user u := by
    unfold subject
    rw [hcircle, huser]
    rfl
  unfold deliveredTo State.append
  dsimp only
  rw [List.filterMap_append, List.filterMap_cons, List.filterMap_nil, hsubject,
    if_pos ⟨hstatus, List.mem_singleton_self u⟩, hat]

/-- **One more delivery**: the run recommends `user1`, a reviewer approves,
the client acknowledges. -/
theorem exists_round (hm : 0 < m) (hfresh : Fresh s) (hlog : s.contactLog = []) (t : Timestamp) :
    ∃ s₁ a₁ s₂ a₂ s₃ a₃, Step (cappedEnv m w) s a₁ s₁ ∧ Step (cappedEnv m w) s₁ a₂ s₂ ∧
      Step (cappedEnv m w) s₂ a₃ s₃ ∧ Fresh s₃ ∧
      deliveredTo s₃ user1 = deliveredTo s user1 ++ [t] := by
  obtain ⟨row, n, hexec, hid, hidn, hrun, hrunn, hpending, hcircle, huser⟩ :=
    exists_execute (w := w) hm hlog t
  have hnew : ∀ r ∈ s.tables.recommendations, r.id ≠ row.id := fun r hr =>
    ((hfresh r hr).1.trans_le hid).ne
  have hnewRun : ∀ r ∈ s.tables.recommendations, r.allocationRunId ≠ row.allocationRunId :=
    fun r hr => ((hfresh r hr).2.trans_le hrun).ne
  let approved : RecommendationRow := { row with
    status := .approved, reviewedBy := some "reviewer-1", reviewedAt := some t, reviewNote := none }
  let delivered : RecommendationRow := { approved with
    status := .delivered, deliveredAt := some t, deliveryRef := none }
  have happrove : Step (cappedEnv m w) (s.append row n) (.approve row.id "reviewer-1" none t)
      (s.append approved n) := by
    have hreviewer : nonBlank "reviewer-1" := by decide
    have hok : Store.approve 1 (s.tables.recommendations ++ [row]) row.id "reviewer-1" none t =
        .ok (s.tables.recommendations ++ [approved]) :=
      Store.approve_append hnew hnewRun hpending hreviewer
    exact congrArg (State.withRows (s.append row n)) hok
  have hdeliver : Step (cappedEnv m w) (s.append approved n) (.deliveryAck row.id none t)
      (s.append delivered n) := by
    have hok : Store.markDelivered 1 (s.tables.recommendations ++ [approved]) approved.id none t =
        .ok (s.tables.recommendations ++ [delivered]) :=
      Store.markDelivered_append hnew rfl ⟨"reviewer-1", rfl, by decide⟩
    exact congrArg (State.withRows (s.append approved n)) hok
  refine ⟨_, _, _, _, _, _, hexec, happrove, hdeliver, ?_,
    deliveredTo_append rfl hcircle huser rfl⟩
  intro r hr
  rcases List.mem_append.mp hr with hmem | hlast
  · obtain ⟨hlt, hlt'⟩ := hfresh r hmem
    exact ⟨hlt.trans (hid.trans_lt hidn), hlt'.trans (hid.trans_lt hidn)⟩
  · rw [List.mem_singleton] at hlast
    subst hlast
    exact ⟨hidn, hrunn⟩

/-- **Any number of deliveries is reachable.** -/
theorem exists_deliveries (hm : 0 < m) (t : Timestamp) (k : ℕ) :
    ∃ tr s, Run (Step (cappedEnv m w)) initial tr s ∧ Fresh s ∧
      deliveredTo s user1 = List.replicate k t := by
  induction k with
  | zero => exact ⟨[], initial, .nil, fun r hr => (nomatch hr), rfl⟩
  | succ k ih =>
      obtain ⟨tr, s, hrun, hfresh, hdelivered⟩ := ih
      obtain ⟨s₁, a₁, s₂, a₂, s₃, a₃, h₁, h₂, h₃, hfresh₃, hdelivered₃⟩ :=
        exists_round hm hfresh (contactLog_eq_nil hrun) t
      refine ⟨_, s₃, ((hrun.snoc h₁).snoc h₂).snoc h₃, hfresh₃, ?_⟩
      rw [hdelivered₃, hdelivered, List.replicate_succ']

/-- All of them are in the window that ends with the last. -/
theorem countSince_replicate {t : Timestamp} {k : ℕ} (hw : 0 ≤ w) :
    countSince t w (List.replicate k t) = k := by
  have hin : t - 86400 * w ≤ t ∧ t ≤ t := ⟨by linarith, le_rfl⟩
  unfold countSince
  rw [List.filter_replicate_of_pos (by simpa using hw), List.length_replicate]

end Deliveries

/-- **The cap is kept exactly when it allows nothing or its window is
empty.** With `m` contacts in `w` days configured, every history of runs,
reviews and deliveries keeps the cap for what is delivered if and only if
`m ≤ 0` or `w < 0`. -/
theorem capKept_iff (m w : ℤ) :
    (∀ (K : Type) [Field K] [LinearOrder K] [FloorRing K] (env : Env K),
      env.settings.frequencyCapMaxContacts = some m →
      env.settings.frequencyCapWindowDays = some w → CapKept env m w) ↔ m ≤ 0 ∨ w < 0 := by
  constructor
  · intro hkept
    by_contra hnot
    rw [not_or, not_le, not_lt] at hnot
    obtain ⟨hm, hw⟩ := hnot
    -- `m` deliveries, and the run picks `user1` once more
    obtain ⟨tr, s, hrun, -, hdelivered⟩ := exists_deliveries (w := w) hm loneRun.now m.toNat
    obtain ⟨a, p, ha, hp, hgroup, huser⟩ := exists_decision (w := w) hm (contactLog_eq_nil hrun)
    have hfree : CollisionFree sampleHashes (withCap sampleSettings m w)
        (storeReads s (sampleInputs loneRun)) loneRun :=
      ⟨collisionFree_loneRun.candidates, collisionFree_loneRun.circles⟩
    have htarget : user1 ∈ p.targets := by
      rw [Pick.targets, if_pos hgroup, huser]
      exact List.mem_singleton_self _
    have hlt := hkept ℚ (cappedEnv m w) rfl rfl tr s hrun (sampleInputs loneRun) hfree a ha p
      (by rw [hp]; exact List.mem_singleton_self _) user1 htarget
    have hcount : countSince loneRun.now w (deliveredTo s user1) = m.toNat := by
      rw [hdelivered, countSince_replicate hw]
    have hrunNow : (sampleInputs loneRun).run.now = loneRun.now := rfl
    rw [hrunNow, hcount] at hlt
    omega
  · intro h K _ _ _ env hm hw
    exact capKept_of hm hw h

/-- The run of the next day. -/
def laterRun : ScoredRun ℚ := { loneRun with runId := laterRunId, now := 172800 }

/-- **The cap is not kept**: with one contact in 14 days, `user1` is picked
again the day after a recommendation was delivered. -/
theorem not_capKept :
    ¬ ∀ (env : Env ℚ) (m w : ℤ), env.settings.frequencyCapMaxContacts = some m →
      env.settings.frequencyCapWindowDays = some w → CapKept env m w := by
  intro hlaw
  have hhistory : ∃ s ∈ [Action.execute (sampleInputs loneRun) 86400,
      .approve 2 "reviewer-1" none 86500, .deliveryAck 2 none 86600].foldlM
        (step (cappedEnv 1 14)) initial,
      CollisionFree sampleHashes (cappedEnv 1 14).settings (storeReads s (sampleInputs laterRun))
        laterRun ∧
      ∃ a ∈ decision (cappedEnv 1 14) s (sampleInputs laterRun), ∃ p ∈ a.picks, ∃ u ∈ p.targets,
        1 ≤ countSince laterRun.now 14 (deliveredTo s u) := by decide +kernel
  obtain ⟨s, hs, hfree, a, ha, p, hp, u, hu, hreached⟩ := hhistory
  obtain ⟨tr, hrun⟩ := Run.exists_of_foldlM hs
  have hbelow := hlaw (cappedEnv 1 14) 1 14 rfl rfl tr s hrun (sampleInputs laterRun) hfree a ha p
    hp u hu
  have hnow : (sampleInputs laterRun).run.now = laterRun.now := rfl
  rw [hnow] at hbelow
  omega

end FrequencyCap

end RetentionEngine
