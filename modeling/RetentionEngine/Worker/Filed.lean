import RetentionEngine.Worker.StagesKeep

/-!
# Every row in its place

Any sequence of store operations, and any run in between, leaves a store in
which every row is in the bucket of its own tenant and under its own key
(`runPipeline_filed`): the raw events are numbered in the order they came
and no two of them share a client event id, and every recommendation waits
for a review. A run adds no state of its own: what it does to the store,
operations do (`Reachable.runPipeline`).
-/

namespace RetentionEngine

namespace Worker

open Python (Text Json)
open Prog (Keeps Both)
open Pipeline (RunEnv)

/-! ## Operations -/

/-- **A method that changes the store**, with what it is called with. -/
inductive Operation (T : Rows) (K : Type)
  | addTenant (tenant : TenantRecord T)
  | addRawEvents (tenantId : String) (bodies : List T.Body)
  | setIncentives (tenantId : String) (incentives : List T.Incentive)
  | addContacts (tenantId userPseudonym : String) (times : List Timestamp)
  | addOutcomes (outcomes : List Feedback.OutcomeEvent)
  | markRawEvent (tenantId rawEventId : String) (status : RawStatus) (error : Option Text)
  | saveCanonicalEvents (tenantId : String) (events : List IngestMapping.CanonicalEvent)
  | upsertUserAttributes (tenantId userPseudonym : String) (attributes : Dict Text Json)
  | saveExternalSignals (signals : List T.Signal)
  | recordStage (record : StageRecord T K)
  | saveCircles (tenantId : String) (snapshots : List T.CircleSnapshot) (circles : List T.Circle)
  | saveRiskScores (tenantId : String) (scores : List T.RiskScore)
  | saveImpactScores (tenantId : String) (scores : Dict String T.ImpactScore)
  | savePolicyDecisions (tenantId : String) (decisions : List T.PolicyDecision)
  | getOrCreateExperiment (tenantId : String)
  | saveArmAssignments (tenantId : String) (arms : List (String × Arm))
  | saveAllocation (tenantId : String) (result : T.AllocationResult)
      (extraDecisions : List T.AllocationDecision)
  | saveNarration (tenantId : String) (row : NarrationRow)
  | saveFeatureSnapshots (snapshots : List (Feedback.FeatureSnapshot K))
  | createRecommendations (recommendations : List (RecommendationRow K))
  | appendAudit (tenantId : String) (row : AuditRow)
  | saveLabeledExamples (examples : List (Feedback.LabeledExample K))

variable {T : Rows} {K : Type}

/-- The call of an operation. -/
def Operation.call : Operation T K → Call T K Unit
  | addTenant tenant => Store.addTenant tenant
  | addRawEvents tenantId bodies => Store.addRawEvents tenantId bodies
  | setIncentives tenantId incentives => Store.setIncentives tenantId incentives
  | addContacts tenantId user times => Store.addContacts tenantId user times
  | addOutcomes outcomes => Store.addOutcomes outcomes
  | markRawEvent tenantId id status error => Store.markRawEvent tenantId id status error
  | saveCanonicalEvents tenantId events => Store.saveCanonicalEvents tenantId events
  | upsertUserAttributes tenantId user attributes =>
      Store.upsertUserAttributes tenantId user attributes
  | saveExternalSignals signals => Store.saveExternalSignals signals
  | recordStage record => Store.recordStage record
  | saveCircles tenantId snapshots circles => Store.saveCircles tenantId snapshots circles
  | saveRiskScores tenantId scores => Store.saveRiskScores tenantId scores
  | saveImpactScores tenantId scores => Store.saveImpactScores tenantId scores
  | savePolicyDecisions tenantId decisions => Store.savePolicyDecisions tenantId decisions
  | getOrCreateExperiment tenantId => do let _ ← Store.getOrCreateExperiment tenantId
  | saveArmAssignments tenantId arms => arms.forM (Store.saveArmAssignment tenantId)
  | saveAllocation tenantId result extra => Store.saveAllocation tenantId result extra
  | saveNarration tenantId row => Store.saveNarration tenantId row
  | saveFeatureSnapshots snapshots => Store.saveFeatureSnapshots snapshots
  | createRecommendations recommendations => Store.createRecommendations recommendations
  | appendAudit tenantId row => Store.appendAudit tenantId row
  | saveLabeledExamples examples => Store.saveLabeledExamples examples

/-- **The states the operations reach**; one that raises leaves what it has
done. -/
inductive Reachable : InMemoryStore T K → Prop
  | new : Reachable (InMemoryStore.new T K)
  | call {s : InMemoryStore T K} (op : Operation T K) : Reachable s → Reachable (op.call s).2

/-! ## Where rows are -/

/-- The rows of a tenant's data are its own, and under their keys. -/
structure FiledData (tenantId : String) (d : Data T K) : Prop where
  tenant : ∀ t ∈ d.tenant, t.tenantId = tenantId
  rawEvents : ∀ r ∈ d.rawEvents, r.tenantId = tenantId
  rawEventIds : d.rawEvents.map RawEventRecord.rawEventId =
    (List.range d.rawEvents.length).map fun i => "raw-" ++ toString (i + 1)
  hashed : ∀ r ∈ d.rawEvents, T.clientEventId r.body ≠ none
  clientEventIds : (d.rawEvents.map fun r => T.clientEventId r.body).Nodup
  canonicalEvents : ∀ p ∈ d.canonicalEvents.entries,
    p.2.tenantId = tenantId ∧ p.2.clientEventId = p.1
  labeledExamples : ∀ p ∈ d.labeledExamples.entries,
    p.2.tenantId = tenantId ∧ p.2.sourceOutcomeId = p.1
  experiment : ∀ e ∈ d.experiment, e = "exp-" ++ tenantId ++ "-1"
  featureSnapshots : ∀ p ∈ d.featureSnapshots.entries,
    p.2.tenantId = tenantId ∧ (p.2.runId, p.2.userPseudonym) = p.1
  outcomes : ∀ o ∈ d.outcomes, o.tenantId = tenantId

/-- So are its recommendations, and they wait for a review. -/
def FiledReport (tenantId : String) (r : Report T K) : Prop :=
  ∀ p ∈ r.recommendations.entries,
    p.2.tenantId = tenantId ∧ p.2.recommendationId = p.1 ∧ Store.Creatable p.2

/-- **Every row is in its place.** -/
structure Filed (s : InMemoryStore T K) : Prop where
  data : ∀ tenantId, FiledData tenantId (s.bucket tenantId).data
  report : ∀ tenantId, FiledReport tenantId (s.bucket tenantId).report
  signals : ∀ p ∈ s.externalSignals.entries, T.signalId p.2 = p.1

variable {s : InMemoryStore T K} {tenantId : String} {d : Data T K}

theorem filedData_empty : FiledData tenantId (Bucket.empty T K).data where
  tenant _ h := nomatch h
  rawEvents _ h := absurd h List.not_mem_nil
  rawEventIds := rfl
  hashed _ h := absurd h List.not_mem_nil
  clientEventIds := List.nodup_nil
  canonicalEvents _ h := absurd h List.not_mem_nil
  labeledExamples _ h := absurd h List.not_mem_nil
  experiment _ h := nomatch h
  featureSnapshots _ h := absurd h List.not_mem_nil
  outcomes _ h := absurd h List.not_mem_nil

theorem filed_new : Filed (InMemoryStore.new T K) := 
  ⟨fun _ => filedData_empty, fun _ _ h => absurd h List.not_mem_nil,
    fun _ h => absurd h List.not_mem_nil⟩

/-! ## What the methods keep -/

theorem filed_setData (hs : Filed s) (hd : FiledData tenantId d) :
    Filed (s.setData tenantId d) := by
  refine ⟨fun other => ?_, fun other => ?_, hs.signals⟩ <;> by_cases hne : other = tenantId
  · subst hne
    rw [InMemoryStore.bucket_setData]
    exact hd
  · rw [InMemoryStore.bucket_setData_of_ne hne]
    exact hs.data other
  · subst hne
    rw [InMemoryStore.bucket_setData]
    exact hs.report _
  · rw [InMemoryStore.bucket_setData_of_ne hne]
    exact hs.report other

theorem filed_setReport {r : Report T K} (hs : Filed s) (hr : FiledReport tenantId r) :
    Filed (s.setReport tenantId r) := by
  refine ⟨fun other => ?_, fun other => ?_, hs.signals⟩ <;> by_cases hne : other = tenantId
  · subst hne
    rw [InMemoryStore.bucket_setReport]
    exact hs.data _
  · rw [InMemoryStore.bucket_setReport_of_ne hne]
    exact hs.data other
  · subst hne
    rw [InMemoryStore.bucket_setReport]
    exact hr
  · rw [InMemoryStore.bucket_setReport_of_ne hne]
    exact hs.report other

theorem onData_filed {f : Data T K → Data T K}
    (hf : ∀ d, FiledData tenantId d → FiledData tenantId (f d)) :
    Keeps (Both Filed) (Store.onData tenantId f) :=
  Prog.keeps_both fun _ hs => filed_setData hs (hf _ (hs.data _))

theorem onReport_filed {f : Report T K → Report T K}
    (hf : ∀ r, FiledReport tenantId r → FiledReport tenantId (f r)) :
    Keeps (Both Filed) (Store.onReport tenantId f) :=
  Prog.keeps_both fun _ hs => filed_setReport hs (hf _ (hs.report _))

theorem ofData_filed {α : Type} {f : Data T K → α} : Keeps (Both Filed) (Store.ofData tenantId f) :=
  Prog.keeps_both fun _ hs => hs

theorem raise_filed {α : Type} {e : String} : Keeps (Both Filed) (.raise e : Call T K α) :=
  .raise e

/-- The ids that are known are those of the bucket. -/
def Known (tenantId : String) (known : List T.ClientEventId) (s : InMemoryStore T K) : Prop :=
  ∀ r ∈ (s.bucket tenantId).data.rawEvents, ∃ id ∈ known, T.clientEventId r.body = some id

/-- **A new raw event** gets the next number. -/
theorem filed_rawEvent {body : T.Body} {id : T.ClientEventId} (h : FiledData tenantId d)
    (hid : T.clientEventId body = some id)
    (hnew : ∀ r ∈ d.rawEvents, T.clientEventId r.body ≠ some id) :
    FiledData tenantId { d with
      rawEvents := d.rawEvents ++
        [⟨"raw-" ++ toString (d.rawEvents.length + 1), tenantId, body, .new, none⟩] } where
  tenant := h.tenant
  rawEvents := by
    intro r hr
    rcases List.mem_append.mp hr with hr | hr
    · exact h.rawEvents r hr
    · rw [List.mem_singleton.mp hr]
  rawEventIds := by
    dsimp only
    rw [List.map_append, h.rawEventIds, List.length_append, List.length_singleton,
      List.range_succ, List.map_append]
    rfl
  hashed := by
    intro r hr
    rcases List.mem_append.mp hr with hr | hr
    · exact h.hashed r hr
    · rw [List.mem_singleton.mp hr, hid]
      nofun
  clientEventIds := by
    dsimp only
    rw [List.map_append, List.map_singleton, List.nodup_append]
    refine ⟨h.clientEventIds, List.nodup_singleton _, ?_⟩
    intro a ha b hb heq
    obtain ⟨r, hr, rfl⟩ := List.mem_map.mp ha
    rw [List.mem_singleton.mp hb, hid] at heq
    exact hnew r hr heq
  canonicalEvents := h.canonicalEvents
  labeledExamples := h.labeledExamples
  experiment := h.experiment
  featureSnapshots := h.featureSnapshots
  outcomes := h.outcomes

/-- **A body that is added** is known from then on. -/
theorem addRawEvent_filed {known : List T.ClientEventId} (body : T.Body) (hs : Filed s)
    (hknown : Known tenantId known s) :
    Filed (Store.addRawEvent tenantId known body s).2 ∧
      ∀ known' t, Store.addRawEvent tenantId known body s = (.ok known', t) →
        Known tenantId known' t := by
  unfold Store.addRawEvent
  cases hid : T.clientEventId body with
  | none => exact ⟨hs, fun _ _ hrun => nomatch (Prod.mk.inj hrun).1⟩
  | some id =>
      dsimp only
      split
      · refine ⟨hs, fun known' t hrun => ?_⟩
        obtain ⟨hok, rfl⟩ := Prod.mk.inj hrun
        obtain rfl := Except.ok.inj hok
        exact hknown
      · rename_i hmem
        have hnew : ∀ r ∈ (s.bucket tenantId).data.rawEvents, T.clientEventId r.body ≠ some id := by
          intro r hr heq
          obtain ⟨id', hid', hr'⟩ := hknown r hr
          rw [heq] at hr'
          exact hmem (Option.some.inj hr' ▸ hid')
        refine ⟨filed_setData hs (filed_rawEvent (hs.data tenantId) hid hnew), ?_⟩
        intro known' t hrun
        obtain ⟨hok, rfl⟩ := Prod.mk.inj hrun
        obtain rfl := Except.ok.inj hok
        intro r hr
        rw [InMemoryStore.bucket_setData] at hr
        rcases List.mem_append.mp hr with hr | hr
        · obtain ⟨id', hid', hr'⟩ := hknown r hr
          exact ⟨id', List.mem_cons_of_mem _ hid', hr'⟩
        · rw [List.mem_singleton.mp hr]
          exact ⟨id, List.mem_cons_self, hid⟩

theorem foldlM_addRawEvent_filed {known : List T.ClientEventId} (bodies : List T.Body)
    (hs : Filed s) (hknown : Known tenantId known s) :
    Filed (bodies.foldlM (Store.addRawEvent tenantId) known s).2 := by
  induction bodies generalizing known s with
  | nil => exact hs
  | cons body bodies ih =>
      rw [List.foldlM_cons]
      obtain ⟨hfiled, hmore⟩ := addRawEvent_filed body hs hknown
      rcases hrun : Store.addRawEvent tenantId known body s with ⟨r, t⟩
      rw [hrun] at hfiled
      cases r with
      | error e =>
          rw [Prog.bind_of_error hrun]
          exact hfiled
      | ok known' =>
          rw [Prog.bind_of_ok hrun]
          exact ih hfiled (hmore known' t hrun)

theorem saveCanonicalEvent_filed (e : IngestMapping.CanonicalEvent) :
    Keeps (Both Filed) (Store.saveCanonicalEvent tenantId e : Call T K Unit) := by
  unfold Store.saveCanonicalEvent
  split
  · exact raise_filed
  · rename_i hown
    exact onData_filed fun d hd => { hd with
      canonicalEvents := Dict.forall_entries_setDefault hd.canonicalEvents
        ⟨not_not.mp hown, rfl⟩ }

theorem getOrCreateExperiment_filed :
    Keeps (Both Filed) (Store.getOrCreateExperiment tenantId : Call T K String) := by
  have hset : Keeps (Both Filed) (Store.onData tenantId fun d : Data T K => { d with
      experiment := some (d.experiment.getD ("exp-" ++ tenantId ++ "-1")) }) := by
    refine onData_filed fun d hd => { hd with experiment := ?_ }
    intro e he
    obtain rfl := Option.mem_some_iff.mp he
    cases hd' : d.experiment with
    | none => rfl
    | some e' => exact hd.experiment e' hd'
  exact hset.bind fun _ => ofData_filed

theorem saveArmAssignment_filed (p : String × Arm) :
    Keeps (Both Filed) (Store.saveArmAssignment tenantId p : Call T K Unit) := by
  have hset : Keeps (Both Filed) (Store.onData tenantId fun d : Data T K => { d with
      armAssignments := d.armAssignments.setDefault p.1 p.2 }) :=
    onData_filed fun _ hd => { hd with }
  refine hset.bind fun _ => ofData_filed.bind fun arm => ?_
  split
  · exact raise_filed
  · exact .pure _

theorem saveFeatureSnapshot_filed (snapshot : Feedback.FeatureSnapshot K) :
    Keeps (Both Filed) (Store.saveFeatureSnapshot snapshot : Call T K Unit) :=
  onData_filed fun _ hd => { hd with
    featureSnapshots := Dict.forall_entries_alter hd.featureSnapshots ⟨rfl, rfl⟩ }

theorem createRecommendation_filed (r : RecommendationRow K) :
    Keeps (Both Filed) (Store.createRecommendation r : Call T K Unit) := by
  unfold Store.createRecommendation
  split
  · rename_i hcreatable
    exact onReport_filed fun _ hr => Dict.forall_entries_alter hr ⟨rfl, rfl, hcreatable⟩
  · exact raise_filed

theorem saveLabeledExample_filed (e : Feedback.LabeledExample K) :
    Keeps (Both Filed) (Store.saveLabeledExample e : Call T K Unit) :=
  onData_filed fun _ hd => { hd with
    labeledExamples := Dict.forall_entries_setDefault hd.labeledExamples ⟨rfl, rfl⟩ }

theorem addOutcome_filed (o : Feedback.OutcomeEvent) :
    Keeps (Both Filed) (Store.addOutcome o : Call T K Unit) := by
  refine onData_filed fun d hd => { hd with outcomes := ?_ }
  intro o' ho'
  rcases List.mem_append.mp ho' with ho' | ho'
  · exact hd.outcomes o' ho'
  · rw [List.mem_singleton.mp ho']

/-- A mark changes neither ids nor bodies. -/
theorem markRawEvent_filed (id : String) (status : RawStatus) (error : Option Text) :
    Keeps (Both Filed) (Store.markRawEvent tenantId id status error : Call T K Unit) := by
  refine onData_filed fun d hd => ?_
  have hsame : ∀ {β : Type} (g : RawEventRecord T → β),
      (∀ r, g { r with status := status, error := error } = g r) →
      (Store.marked id status error d).rawEvents.map g = d.rawEvents.map g := by
    intro β g hg
    unfold Store.marked
    rw [List.map_map]
    refine List.map_congr_left fun r _ => ?_
    dsimp only [Function.comp_apply]
    split
    · exact hg r
    · rfl
  have hlength : (Store.marked id status error d).rawEvents.length = d.rawEvents.length :=
    List.length_map _
  refine { hd with rawEvents := ?_, rawEventIds := ?_, hashed := ?_, clientEventIds := ?_ }
  · intro r hr
    obtain ⟨r', hr', rfl⟩ := List.mem_map.mp hr
    split <;> exact hd.rawEvents r' hr'
  · rw [hsame _ fun _ => rfl, hlength]
    exact hd.rawEventIds
  · intro r hr
    obtain ⟨r', hr', rfl⟩ := List.mem_map.mp hr
    split <;> exact hd.hashed r' hr'
  · rw [hsame _ fun _ => rfl]
    exact hd.clientEventIds

theorem saveExternalSignals_filed (signals : List T.Signal) :
    Keeps (Both Filed) (Store.saveExternalSignals signals : Call T K Unit) := by
  refine Prog.keeps_both fun s hs => ⟨hs.data, hs.report, ?_⟩
  have hall : ∀ (l : List T.Signal) (d : Dict String T.Signal),
      (∀ p ∈ d.entries, T.signalId p.2 = p.1) →
      ∀ p ∈ (l.foldl (fun d x => d.set (T.signalId x) x) d).entries, T.signalId p.2 = p.1 := by
    intro l
    induction l with
    | nil => exact fun _ hd => hd
    | cons x l ih => exact fun d hd => ih _ (Dict.forall_entries_alter hd rfl)
  exact hall signals _ hs.signals

theorem recordStage_filed (record : StageRecord T K) :
    Keeps (Both Filed) (Store.recordStage record) :=
  Prog.keeps_both fun _ hs => ⟨hs.data, hs.report, hs.signals⟩

theorem addRawEvents_filed (bodies : List T.Body) :
    Keeps (Both Filed) (Store.addRawEvents tenantId bodies : Call T K Unit) := by
  refine Prog.keeps_both fun s hs => ?_
  let known := (s.bucket tenantId).data.rawEvents.filterMap fun r => T.clientEventId r.body
  have hknown : Known tenantId known s := by
    intro r hr
    obtain ⟨id, hid⟩ := Option.ne_none_iff_exists'.mp ((hs.data tenantId).hashed r hr)
    exact ⟨id, List.mem_filterMap.mpr ⟨r, hr, hid⟩, hid⟩
  have hfold := foldlM_addRawEvent_filed bodies hs hknown
  show Filed ((bodies.foldlM (Store.addRawEvent tenantId) known >>= fun _ => pure ()) s).2
  rcases hrun : bodies.foldlM (Store.addRawEvent tenantId) known s with ⟨r, t⟩
  rw [hrun] at hfold
  cases r with
  | error e =>
      rw [Prog.bind_of_error hrun]
      exact hfold
  | ok known' =>
      rw [Prog.bind_of_ok hrun]
      exact hfold

/-- **What an operation keeps.** -/
theorem operation_filed (op : Operation T K) : Keeps (Both Filed) op.call := by
  cases op with
  | addTenant tenant =>
      exact onData_filed fun _ hd => { hd with
        tenant := fun t ht => by rw [← Option.mem_some_iff.mp ht] }
  | addRawEvents tenantId bodies => exact addRawEvents_filed bodies
  | setIncentives tenantId incentives => exact onData_filed fun _ hd => { hd with }
  | addContacts tenantId user times => exact onData_filed fun _ hd => { hd with }
  | addOutcomes outcomes => exact .forM fun o _ => addOutcome_filed o
  | markRawEvent tenantId id status error => exact markRawEvent_filed id status error
  | saveCanonicalEvents tenantId events => exact .forM fun e _ => saveCanonicalEvent_filed e
  | upsertUserAttributes tenantId user attributes => exact onData_filed fun _ hd => { hd with }
  | saveExternalSignals signals => exact saveExternalSignals_filed signals
  | recordStage record => exact recordStage_filed record
  | saveCircles tenantId snapshots circles => exact onReport_filed fun _ hr => hr
  | saveRiskScores tenantId scores => exact onReport_filed fun _ hr => hr
  | saveImpactScores tenantId scores => exact onReport_filed fun _ hr => hr
  | savePolicyDecisions tenantId decisions => exact onReport_filed fun _ hr => hr
  | getOrCreateExperiment tenantId => exact getOrCreateExperiment_filed.bind fun _ => .pure _
  | saveArmAssignments tenantId arms => exact .forM fun p _ => saveArmAssignment_filed p
  | saveAllocation tenantId result extra => exact onReport_filed fun _ hr => hr
  | saveNarration tenantId row => exact onReport_filed fun _ hr => hr
  | saveFeatureSnapshots snapshots => exact .forM fun s _ => saveFeatureSnapshot_filed s
  | createRecommendations recommendations =>
      exact .forM fun r _ => createRecommendation_filed r
  | appendAudit tenantId row => exact onReport_filed fun _ hr => hr
  | saveLabeledExamples examples => exact .forM fun e _ => saveLabeledExample_filed e

/-- **Every reachable store is in order.** -/
theorem Reachable.filed (h : Reachable s) : Filed s := by
  induction h with
  | new => exact filed_new
  | call op _ ih => exact (operation_filed op).invariant ih

/-! ## Runs -/

section Runs

variable {T : Parts} {s : InMemoryStore T.toRows K} {P : Packages T K} {settings : Settings}
  {env : RunEnv}

/-- **The calls of a run are operations.** -/
theorem callsKeep_reachable :
    CallsKeep (Both fun s : InMemoryStore T.toRows K => Reachable s) tenantId := by
  have hop : ∀ op : Operation T.toRows K, Keeps (Both Reachable) op.call :=
    fun op => Prog.keeps_both fun _ hs => hs.call op
  have hone : ∀ {α : Type} (f : α → Call T.toRows K Unit) (a : α),
      Keeps (Both Reachable) ([a].forM f) → Keeps (Both Reachable) (f a) := by
    intro α f a hkeeps
    refine Prog.keeps_both fun s hs => ?_
    have hforM : ([a].forM f s).2 = (f a s).2 := Prog.snd_bind_pure
    exact hforM ▸ hkeeps.invariant hs
  exact {
    ownOutcomes := by
      rintro s _ ⟨rfl, hs⟩
      exact (hs.filed.data tenantId).outcomes
    reads := fun _ => Prog.keeps_both fun _ hs => hs
    markRawEvent := fun id status error => hop (.markRawEvent tenantId id status error)
    saveCanonicalEvent := fun e => hone _ e (hop (.saveCanonicalEvents tenantId [e]))
    upsertUserAttributes := fun user attributes =>
      hop (.upsertUserAttributes tenantId user attributes)
    saveExternalSignals := fun signals => hop (.saveExternalSignals signals)
    recordStage := fun record _ => hop (.recordStage record)
    saveCircles := fun snapshots circles => hop (.saveCircles tenantId snapshots circles)
    saveRiskScores := fun scores => hop (.saveRiskScores tenantId scores)
    saveImpactScores := fun scores => hop (.saveImpactScores tenantId scores)
    savePolicyDecisions := fun decisions => hop (.savePolicyDecisions tenantId decisions)
    getOrCreateExperiment := by
      refine Prog.keeps_both fun s hs => ?_
      have hstate : ((Operation.getOrCreateExperiment tenantId).call s).2 =
          (Store.getOrCreateExperiment tenantId s).2 := Prog.snd_bind_pure
      exact hstate ▸ hs.call (.getOrCreateExperiment tenantId)
    saveArmAssignment := fun p => hone _ p (hop (.saveArmAssignments tenantId [p]))
    saveAllocation := fun result extra => hop (.saveAllocation tenantId result extra)
    saveNarration := fun row => hop (.saveNarration tenantId row)
    saveFeatureSnapshot := fun s _ => hone _ s (hop (.saveFeatureSnapshots [s]))
    createRecommendation := fun r _ => hone _ r (hop (.createRecommendations [r]))
    appendAudit := fun row => hop (.appendAudit tenantId row)
    saveLabeledExample := fun e _ => hone _ e (hop (.saveLabeledExamples [e])) }

variable [Field K] [LinearOrder K]

/-- **A run reaches no new states**, however it ends. -/
theorem Reachable.runPipeline (hs : Reachable s) :
    Reachable (Worker.runPipeline P settings env s).2 :=
  (runPipeline_keeps callsKeep_reachable).invariant hs

end Runs

/-! ## A sample -/

/-- Bodies that are their client event ids, signals that are theirs, and
nothing else to hand on. -/
def sampleParts : Parts where
  Mapping := Unit
  Body := String
  ClientEventId := String
  Incentive := Unit
  Signal := String
  CircleSnapshot := Unit
  Circle := Unit
  RiskScore := Unit
  ImpactScore := Unit
  PolicyDecision := Unit
  AllocationResult := Unit
  AllocationDecision := Unit
  Detail := Unit
  decidableEq := inferInstance
  clientEventId body := some body
  signalId signal := signal
  Config := Unit
  Item := String
  Rest := Unit
  Cache := Unit

/-- A tenant without mappings: no event can be normalized, and there is
nobody to score. -/
def samplePackages : Packages sampleParts ℚ where
  initial := ()
  fromDict _ := .ok ()
  normalize _ _ _ := .error (.mappingError (Python.text "no mapping for client_event_type"))
  errorText _ := "ValueError"
  loadFeed := .ok ([], "canned")
  toSignal item := .ok (some item)
  resolveForUser _ _ _ _ := .ok none
  inGraphProfiles profileType := profileType = "WALLET"
  emptySnapshots _ run := (run.work, ())
  graph _ run := .ok (run.work, [], [], ())
  risk _ run := .ok (run.work, some [], ())
  impact _ run := .ok (run.work, none, ())
  candidates _ run _ := .ok run.work
  evaluate _ run _ := .ok (run.work, [], ())
  rank _ run := .ok (run.work, ())
  assignArms _ _ _ := .ok .empty
  allocate _ run _ := .ok (run.work, (), [], ())
  emptyCache := ()
  narrate _ _ _ _ _ := .ok (⟨"", "TEMPLATE", ""⟩, ())
  narrated _ _ := ()

def sampleSettings : Settings := ⟨500, 120 * 86400, true, 0, 30⟩

def sampleEnv : RunEnv := ⟨Pipeline.sampleHashes, "tenant-wallet", "run-1", 0⟩

end Worker

end RetentionEngine
