import RetentionEngine.Common.SortKeys
import RetentionEngine.Feedback.Outcomes
import RetentionEngine.Measurement.Lift

/-!
# The feedback loop of the in-memory store

`ingest_outcomes` over `worker.memory_store`. However the outcomes arrive
and however often they are ingested in between, the examples end up as if
all had arrived before one call (`ingestOutcomes_incremental`): the example
of an outcome id is that of the first outcome with the id and a snapshot.
What one more call would hold for an id (`settledExample`) is what a call
leaves alone and what new outcomes can only fill in.
-/

namespace RetentionEngine

namespace InMemory

open Feedback Measurement

variable {K : Type}

/-- **The collections of the feedback loop**, by tenant: `add_outcomes` and
`save_labeled_examples` file a row under its own tenant and id. -/
structure FeedbackBuckets (K : Type) where
  outcomes : String → List OutcomeEvent
  featureSnapshots : String → Dict (String × String) (FeatureSnapshot K)
  labeledExamples : String → Dict String (Feedback.LabeledExample K)
  ownOutcomes : ∀ tenantId, ∀ o ∈ outcomes tenantId, o.tenantId = tenantId
  ownExamples : ∀ tenantId, ∀ p ∈ (labeledExamples tenantId).entries,
    p.2.tenantId = tenantId ∧ p.2.sourceOutcomeId = p.1

/-- The settings of `ingest_outcomes`. -/
structure OutcomeSettings extends FeedbackSettings where
  measurementMinArmSize : ℤ
  deriving DecidableEq, Repr

namespace FeedbackBuckets

variable (s : FeedbackBuckets K) (tenantId : String)

/-- One outcome of `add_outcomes`. -/
def addOutcome (o : OutcomeEvent) : FeedbackBuckets K :=
  { s with
    outcomes := Function.update s.outcomes o.tenantId (s.outcomes o.tenantId ++ [o])
    ownOutcomes := by
      intro t o' ho'
      by_cases ht : t = o.tenantId
      · subst ht
        rw [Function.update_self] at ho'
        rcases List.mem_append.mp ho' with hold | hnew
        · exact s.ownOutcomes _ o' hold
        · rw [List.mem_singleton.mp hnew]
      · rw [Function.update_of_ne ht] at ho'
        exact s.ownOutcomes t o' ho' }

/-- `add_outcomes`. -/
def addOutcomes (outcomes : List OutcomeEvent) : FeedbackBuckets K := outcomes.foldl addOutcome s

/-- `load_outcomes`. -/
def loadOutcomes : List OutcomeEvent := s.outcomes tenantId

/-- `load_feature_snapshots`. -/
def loadFeatureSnapshots : Dict (String × String) (FeatureSnapshot K) := s.featureSnapshots tenantId

/-- `load_labeled_examples`. -/
def loadLabeledExamples : List (Feedback.LabeledExample K) := (s.labeledExamples tenantId).values

/-- One example of `save_labeled_examples`: the first one of an outcome id
stays. -/
def saveLabeledExample (e : Feedback.LabeledExample K) : FeedbackBuckets K :=
  { s with
    labeledExamples := Function.update s.labeledExamples e.tenantId
      ((s.labeledExamples e.tenantId).setDefault e.sourceOutcomeId e)
    ownExamples := by
      intro t p hp
      by_cases ht : t = e.tenantId
      · subst ht
        rw [Function.update_self, ← Dict.get?_eq_some, Dict.get?_setDefault] at hp
        split at hp
        · rename_i hid
          cases hget : (s.labeledExamples e.tenantId).get? e.sourceOutcomeId with
          | none =>
              rw [hget] at hp
              obtain rfl := Option.some.inj hp
              exact ⟨rfl, hid.symm⟩
          | some e' =>
              rw [hget] at hp
              obtain rfl := Option.some.inj hp
              rw [← hid] at hget
              exact s.ownExamples _ p (Dict.get?_eq_some.mp hget)
        · exact s.ownExamples _ p (Dict.get?_eq_some.mp hp)
      · rw [Function.update_of_ne ht] at hp
        exact s.ownExamples t p hp }

/-- `save_labeled_examples`. -/
def saveLabeledExamples (examples : List (Feedback.LabeledExample K)) : FeedbackBuckets K :=
  examples.foldl saveLabeledExample s

end FeedbackBuckets

/-- What `ingest_outcomes` returns. -/
structure Ingestion (K : Type) where
  feedback : Summary
  lift : Lift K

section Ingest

variable [Field K] (s : FeedbackBuckets K) (tenantId : String)

/-- `existing` of `ingest_outcomes`. -/
def existingOutcomeIds : List (String × String) :=
  (s.loadLabeledExamples tenantId).map fun e => (e.tenantId, e.sourceOutcomeId)

/-- `new` of `ingest_outcomes`. -/
def newLabeledExamples : List (Feedback.LabeledExample K) :=
  toLabeledExamples (s.loadOutcomes tenantId) (s.loadFeatureSnapshots tenantId)
    (existingOutcomeIds s tenantId)

variable [LinearOrder K] (settings : OutcomeSettings)

/-- **`ingest_outcomes`**. -/
def ingestOutcomes : FeedbackBuckets K × Ingestion K :=
  let new := newLabeledExamples s tenantId
  let s' := if settings.feedbackUseInContext then s.saveLabeledExamples new else s
  (s', {
    feedback := summarize new (s'.loadLabeledExamples tenantId).length
      settings.feedbackMinRowsPerCycle settings.feedbackUseInContext
    lift := computeLift settings.measurementMinArmSize
      ((s.loadOutcomes tenantId).map LiftInput.event) })

/-- What happens to the store. -/
inductive FeedbackAction
  | addOutcomes (outcomes : List OutcomeEvent)
  | ingestOutcomes

/-- **One action**, with what `ingest_outcomes` has returned so far. -/
def perform (p : FeedbackBuckets K × List (Ingestion K)) :
    FeedbackAction → FeedbackBuckets K × List (Ingestion K)
  | .addOutcomes outcomes => (p.1.addOutcomes outcomes, p.2)
  | .ingestOutcomes =>
      ((ingestOutcomes p.1 tenantId settings).1, p.2 ++ [(ingestOutcomes p.1 tenantId settings).2])

/-- One action after the other. -/
def performAll (actions : List FeedbackAction) : FeedbackBuckets K × List (Ingestion K) :=
  actions.foldl (perform tenantId settings) (s, [])

end Ingest

/-- The outcomes an action adds. -/
def FeedbackAction.added : FeedbackAction → List OutcomeEvent
  | addOutcomes outcomes => outcomes
  | ingestOutcomes => []

/-- **The whole list**: the chunks one after the other. -/
def added (actions : List FeedbackAction) : List OutcomeEvent :=
  actions.flatMap FeedbackAction.added

/-! ## What is stored -/

variable {s : FeedbackBuckets K} {tenantId id : String} {outcomes : List OutcomeEvent}
  {examples : List (Feedback.LabeledExample K)}

/-- Outcomes arrive in order. -/
theorem outcomes_addOutcomes : (s.addOutcomes outcomes).outcomes tenantId =
    s.outcomes tenantId ++ outcomes.filter fun o => o.tenantId = tenantId := by
  unfold FeedbackBuckets.addOutcomes
  induction outcomes using List.reverseRecOn with
  | nil => simp
  | append_singleton outcomes o ih =>
      rw [List.foldl_append, List.foldl_cons, List.foldl_nil, List.filter_append]
      show Function.update _ o.tenantId _ tenantId = _
      by_cases ht : tenantId = o.tenantId
      · rw [← ht, Function.update_self, ih]
        simp [ht]
      · rw [Function.update_of_ne ht, ih]
        simp [Ne.symm ht]

@[simp] theorem featureSnapshots_addOutcomes :
    (s.addOutcomes outcomes).featureSnapshots = s.featureSnapshots := by
  unfold FeedbackBuckets.addOutcomes
  induction outcomes using List.reverseRecOn with
  | nil => rfl
  | append_singleton outcomes o ih => rw [List.foldl_append]; exact ih

@[simp] theorem labeledExamples_addOutcomes :
    (s.addOutcomes outcomes).labeledExamples = s.labeledExamples := by
  unfold FeedbackBuckets.addOutcomes
  induction outcomes using List.reverseRecOn with
  | nil => rfl
  | append_singleton outcomes o ih => rw [List.foldl_append]; exact ih

@[simp] theorem outcomes_saveLabeledExamples :
    (s.saveLabeledExamples examples).outcomes = s.outcomes := by
  unfold FeedbackBuckets.saveLabeledExamples
  induction examples using List.reverseRecOn with
  | nil => rfl
  | append_singleton examples e ih => rw [List.foldl_append]; exact ih

@[simp] theorem featureSnapshots_saveLabeledExamples :
    (s.saveLabeledExamples examples).featureSnapshots = s.featureSnapshots := by
  unfold FeedbackBuckets.saveLabeledExamples
  induction examples using List.reverseRecOn with
  | nil => rfl
  | append_singleton examples e ih => rw [List.foldl_append]; exact ih

/-- **The first example of an id stays.** -/
theorem labeledExamples_saveLabeledExamples (hown : ∀ e ∈ examples, e.tenantId = tenantId) :
    (s.saveLabeledExamples examples).labeledExamples tenantId =
      examples.foldl (fun d e => d.setDefault e.sourceOutcomeId e)
        (s.labeledExamples tenantId) := by
  unfold FeedbackBuckets.saveLabeledExamples
  induction examples using List.reverseRecOn with
  | nil => rfl
  | append_singleton examples e ih =>
      rw [List.foldl_append, List.foldl_append, List.foldl_cons, List.foldl_nil, List.foldl_cons,
        List.foldl_nil]
      have ht : e.tenantId = tenantId := hown e (by simp)
      show Function.update _ e.tenantId _ tenantId = _
      rw [ht, Function.update_self, ih fun e he => hown e (by simp [he])]

/-- The outcome ids of the examples are their keys. -/
theorem map_sourceOutcomeId : (s.loadLabeledExamples tenantId).map (fun e => e.sourceOutcomeId) =
    (s.labeledExamples tenantId).keys := by
  unfold FeedbackBuckets.loadLabeledExamples Dict.values Dict.keys
  rw [List.map_map]
  exact List.map_congr_left fun p hp => (s.ownExamples tenantId p hp).2

theorem exists_mem_loadLabeledExamples :
    (∃ e ∈ s.loadLabeledExamples tenantId, e.sourceOutcomeId = id) ↔
      (s.labeledExamples tenantId).get? id ≠ none := by
  rw [Ne, Dict.get?_eq_none, not_not, ← map_sourceOutcomeId, List.mem_map]

/-! ## What a call adds -/

section New

variable [Field K] {snapshots : Dict (String × String) (FeatureSnapshot K)}
  {seen : List (String × String)}

/-- **The example of an id**: that of the first outcome with the id and a
snapshot. -/
def firstExample (snapshots : Dict (String × String) (FeatureSnapshot K))
    (outcomes : List OutcomeEvent) (id : String) : Option (Feedback.LabeledExample K) :=
  (outcomes.filter fun o => o.outcomeEventId = id).findSome? fun o =>
    (snapshotOf snapshots o).map (labeledExample o)

theorem firstExample_append (outcomes' : List OutcomeEvent) :
    firstExample snapshots (outcomes ++ outcomes') id =
      (firstExample snapshots outcomes id).or (firstExample snapshots outcomes' id) := by
  unfold firstExample
  rw [List.filter_append, List.findSome?_append]

theorem firstExample_eq_none : firstExample snapshots outcomes id = none ↔
    ∀ o ∈ outcomes, o.outcomeEventId = id → snapshotOf snapshots o = none := by
  unfold firstExample
  simp [List.findSome?_eq_none_iff]

/-- Sorting by id keeps the outcomes of one id in their order. -/
theorem firstExample_insertionSort : firstExample snapshots
    (outcomes.insertionSort fun o o' => o.outcomeEventId ≤ o'.outcomeEventId) id =
      firstExample snapshots outcomes id := by
  unfold firstExample
  have : IsTrans OutcomeEvent fun o o' => o.outcomeEventId ≤ o'.outcomeEventId :=
    ⟨fun _ _ _ => le_trans⟩
  have : Std.Total fun o o' : OutcomeEvent => o.outcomeEventId ≤ o'.outcomeEventId :=
    ⟨fun _ _ => le_total _ _⟩
  have hsame : (outcomes.filter fun o => o.outcomeEventId = id).Pairwise
      fun o o' => o.outcomeEventId ≤ o'.outcomeEventId := by
    refine List.pairwise_of_forall_mem_list fun o ho o' ho' => ?_
    rw [List.mem_filter, decide_eq_true_iff] at ho ho'
    rw [ho.2, ho'.2]
  rw [filter_insertionSort, hsame.insertionSort_eq]

/-- **The loop labels the first outcome of an id that is not seen yet.** -/
theorem find?_labeledFrom (hown : ∀ o ∈ outcomes, o.tenantId = tenantId) :
    ((labeledFrom snapshots seen outcomes).find? fun e => e.sourceOutcomeId = id) =
      if (tenantId, id) ∈ seen then none else firstExample snapshots outcomes id := by
  induction outcomes generalizing seen with
  | nil => simp [labeledFrom, firstExample]
  | cons o outcomes ih =>
      have ih := fun seen => @ih seen fun o ho => hown o (List.mem_cons_of_mem _ ho)
      have hkey : o.key = (tenantId, o.outcomeEventId) := by
        unfold OutcomeEvent.key
        rw [hown o List.mem_cons_self]
      unfold labeledFrom firstExample
      rw [hkey]
      by_cases hid : o.outcomeEventId = id
      · subst hid
        rw [List.filter_cons_of_pos (by simp), List.findSome?_cons]
        split
        · rename_i hseen
          rw [ih, if_pos hseen]
        · rename_i hseen
          cases hsnap : snapshotOf snapshots o with
          | none =>
              rw [ih, if_neg hseen]
              rfl
          | some snap =>
              rw [List.find?_cons_of_pos (by simp [labeledExample])]
              rfl
      · rw [List.filter_cons_of_neg (by simpa using hid)]
        split
        · exact ih _
        · cases hsnap : snapshotOf snapshots o with
          | none => exact ih _
          | some snap =>
              rw [List.find?_cons_of_neg (by simpa [labeledExample] using hid), ih]
              simp [Ne.symm hid, firstExample]

/-- At most one example is made of an id. -/
theorem nodup_labeledFrom : ((labeledFrom snapshots seen outcomes).map fun e =>
    (e.tenantId, e.sourceOutcomeId)).Nodup := by
  induction outcomes generalizing seen with
  | nil => exact List.nodup_nil
  | cons o outcomes ih =>
      unfold labeledFrom
      split
      · exact ih
      · split
        · exact ih
        · rw [List.map_cons, List.nodup_cons]
          refine ⟨?_, ih⟩
          intro hmem
          obtain ⟨e, he, hkey⟩ := List.mem_map.mp hmem
          obtain ⟨o', -, hnew, snap', -, rfl⟩ := exists_of_mem_labeledFrom he
          exact hnew (List.mem_cons.mpr (Or.inl hkey))

omit [Field K] in
/-- What is labeled already. -/
theorem mem_existingOutcomeIds : (tenantId, id) ∈ existingOutcomeIds s tenantId ↔
    (s.labeledExamples tenantId).get? id ≠ none := by
  unfold existingOutcomeIds FeedbackBuckets.loadLabeledExamples Dict.values
  rw [List.map_map, Ne, Dict.get?_eq_none, not_not, List.mem_map]
  constructor
  · rintro ⟨p, hp, hkey⟩
    obtain ⟨-, hid⟩ := Prod.mk.inj hkey
    rw [(s.ownExamples tenantId p hp).2] at hid
    exact hid ▸ List.mem_map_of_mem hp
  · intro hid
    obtain ⟨p, hp, rfl⟩ := List.mem_map.mp hid
    refine ⟨p, hp, ?_⟩
    obtain ⟨ht, hid⟩ := s.ownExamples tenantId p hp
    exact Prod.ext ht hid

/-- **What is new of an id.** -/
theorem find?_newLabeledExamples :
    ((newLabeledExamples s tenantId).find? fun e => e.sourceOutcomeId = id) =
      if (s.labeledExamples tenantId).get? id = none then
        firstExample (s.featureSnapshots tenantId) (s.outcomes tenantId) id
      else none := by
  unfold newLabeledExamples toLabeledExamples
  have hown : ∀ o ∈ (s.loadOutcomes tenantId).insertionSort
      (fun o o' => o.outcomeEventId ≤ o'.outcomeEventId), o.tenantId = tenantId := fun o ho =>
    s.ownOutcomes tenantId o ((List.perm_insertionSort _ _).mem_iff.mp ho)
  rw [find?_labeledFrom hown, firstExample_insertionSort]
  simp only [mem_existingOutcomeIds, ne_eq, ite_not]
  rfl

theorem tenantId_of_mem_new {e : Feedback.LabeledExample K}
    (he : e ∈ newLabeledExamples s tenantId) : e.tenantId = tenantId := by
  obtain ⟨o, ho, -, snap, -, rfl⟩ := exists_of_mem_toLabeledExamples he
  exact s.ownOutcomes tenantId o ho

/-- The ids of the new examples are new. -/
theorem nodup_newLabeledExamples :
    ((newLabeledExamples s tenantId).map fun e => e.sourceOutcomeId).Nodup := by
  have hkeys : (newLabeledExamples s tenantId).map (fun e => (e.tenantId, e.sourceOutcomeId)) =
      ((newLabeledExamples s tenantId).map fun e => e.sourceOutcomeId).map fun id =>
        (tenantId, id) := by
    rw [List.map_map]
    refine List.map_congr_left fun e he => ?_
    rw [tenantId_of_mem_new he]
    rfl
  have hnodup : ((newLabeledExamples s tenantId).map fun e =>
      (e.tenantId, e.sourceOutcomeId)).Nodup := nodup_labeledFrom
  rw [hkeys] at hnodup
  exact hnodup.of_map

/-- **What one more call holds for an id.** -/
def settledExample (s : FeedbackBuckets K) (tenantId id : String) :
    Option (Feedback.LabeledExample K) :=
  ((s.labeledExamples tenantId).get? id).or
    (firstExample (s.featureSnapshots tenantId) (s.outcomes tenantId) id)

/-- New outcomes only fill in. -/
theorem settledExample_addOutcomes : settledExample (s.addOutcomes outcomes) tenantId id =
    (settledExample s tenantId id).or (firstExample (s.featureSnapshots tenantId)
      (outcomes.filter fun o => o.tenantId = tenantId) id) := by
  unfold settledExample
  rw [labeledExamples_addOutcomes, featureSnapshots_addOutcomes, outcomes_addOutcomes,
    firstExample_append, Option.or_assoc]

/-- Where everything settled is held, nothing is new. -/
theorem newLabeledExamples_eq_nil
    (h : ∀ id, (s.labeledExamples tenantId).get? id = settledExample s tenantId id) :
    newLabeledExamples s tenantId = [] := by
  refine List.eq_nil_iff_forall_not_mem.mpr fun e he => ?_
  have hfound : ((newLabeledExamples s tenantId).find? fun e' =>
      e'.sourceOutcomeId = e.sourceOutcomeId) ≠ none := by
    rw [Ne, List.find?_eq_none]
    exact fun hno => hno e he (by simp)
  rw [find?_newLabeledExamples] at hfound
  split at hfound
  · rename_i hget
    have hsettled := h e.sourceOutcomeId
    unfold settledExample at hsettled
    rw [hget, Option.none_or] at hsettled
    exact hfound hsettled.symm
  · exact hfound rfl

end New

/-! ## Any order of arrivals and calls -/

section Loop

variable [Field K] [LinearOrder K] {settings : OutcomeSettings} {actions : List FeedbackAction}

@[simp] theorem featureSnapshots_ingestOutcomes :
    (ingestOutcomes s tenantId settings).1.featureSnapshots = s.featureSnapshots := by
  unfold ingestOutcomes
  dsimp only
  split <;> simp

@[simp] theorem outcomes_ingestOutcomes :
    (ingestOutcomes s tenantId settings).1.outcomes = s.outcomes := by
  unfold ingestOutcomes
  dsimp only
  split <;> simp

theorem labeledExamples_ingestOutcomes (hon : settings.feedbackUseInContext = true) :
    (ingestOutcomes s tenantId settings).1.labeledExamples tenantId =
      (newLabeledExamples s tenantId).foldl (fun d e => d.setDefault e.sourceOutcomeId e)
        (s.labeledExamples tenantId) := by
  unfold ingestOutcomes
  dsimp only
  rw [if_pos hon]
  exact labeledExamples_saveLabeledExamples fun e he => tenantId_of_mem_new he

/-- **A call holds what is settled.** -/
theorem get?_ingestOutcomes (hon : settings.feedbackUseInContext = true) :
    ((ingestOutcomes s tenantId settings).1.labeledExamples tenantId).get? id =
      settledExample s tenantId id := by
  rw [labeledExamples_ingestOutcomes hon,
    Dict.get?_foldl_setDefault (fun e : Feedback.LabeledExample K => e.sourceOutcomeId) fun e => e,
    find?_newLabeledExamples]
  unfold settledExample
  cases (s.labeledExamples tenantId).get? id <;> simp

/-- A call settles nothing else. -/
theorem settledExample_ingestOutcomes (hon : settings.feedbackUseInContext = true) :
    settledExample (ingestOutcomes s tenantId settings).1 tenantId id =
      settledExample s tenantId id := by
  have hget : ((ingestOutcomes s tenantId settings).1.labeledExamples tenantId).get? id =
      settledExample s tenantId id := get?_ingestOutcomes hon
  unfold settledExample at hget ⊢
  rw [hget, featureSnapshots_ingestOutcomes, outcomes_ingestOutcomes, Option.or_assoc,
    Option.or_self]

/-- **A call adds as many examples as it says.** -/
theorem length_ingestOutcomes (hon : settings.feedbackUseInContext = true) :
    ((ingestOutcomes s tenantId settings).1.loadLabeledExamples tenantId).length =
      (s.loadLabeledExamples tenantId).length +
        (ingestOutcomes s tenantId settings).2.feedback.newLabeledExamples := by
  have hnew : ∀ e ∈ newLabeledExamples s tenantId,
      e.sourceOutcomeId ∉ (s.labeledExamples tenantId).keys := by
    intro e he hkey
    obtain ⟨o, ho, hseen, snap, -, rfl⟩ := exists_of_mem_toLabeledExamples he
    have hown : o.key = (tenantId, o.outcomeEventId) := by
      unfold OutcomeEvent.key
      rw [s.ownOutcomes tenantId o ho]
    rw [hown, mem_existingOutcomeIds, Ne, Dict.get?_eq_none] at hseen
    exact hseen fun hnot => hnot hkey
  show ((ingestOutcomes s tenantId settings).1.labeledExamples tenantId).values.length =
    (s.labeledExamples tenantId).values.length + (newLabeledExamples s tenantId).length
  rw [labeledExamples_ingestOutcomes hon, ← Dict.length_keys, ← Dict.length_keys,
    Dict.keys_foldl_setDefault nodup_newLabeledExamples hnew, List.length_append, List.length_map]

/-! ### Over a list of actions -/

theorem performAll_append (actions' : List FeedbackAction) :
    performAll s tenantId settings (actions ++ actions') =
      actions'.foldl (perform tenantId settings) (performAll s tenantId settings actions) :=
  List.foldl_append

theorem added_append (actions' : List FeedbackAction) :
    added (actions ++ actions') = added actions ++ added actions' := List.flatMap_append

theorem featureSnapshots_performAll :
    (performAll s tenantId settings actions).1.featureSnapshots = s.featureSnapshots := by
  induction actions using List.reverseRecOn with
  | nil => rfl
  | append_singleton actions a ih =>
      rw [performAll_append, ← ih]
      cases a with
      | addOutcomes outcomes => exact featureSnapshots_addOutcomes
      | ingestOutcomes => exact featureSnapshots_ingestOutcomes

/-- What has arrived. -/
theorem outcomes_performAll : (performAll s tenantId settings actions).1.outcomes tenantId =
    s.outcomes tenantId ++ (added actions).filter fun o => o.tenantId = tenantId := by
  induction actions using List.reverseRecOn with
  | nil => simp [performAll, added]
  | append_singleton actions a ih =>
      rw [performAll_append, added_append, List.filter_append, ← List.append_assoc, ← ih]
      cases a with
      | addOutcomes outcomes =>
          simp only [added, FeedbackAction.added, List.flatMap_cons, List.flatMap_nil,
            List.append_nil]
          exact outcomes_addOutcomes
      | ingestOutcomes =>
          simp only [added, FeedbackAction.added, List.flatMap_cons, List.flatMap_nil,
            List.append_nil, List.filter_nil]
          exact congrFun outcomes_ingestOutcomes tenantId

/-- **What is settled depends on what has arrived**, and on no call in
between. -/
theorem settledExample_performAll (hon : settings.feedbackUseInContext = true) :
    settledExample (performAll s tenantId settings actions).1 tenantId id =
      (settledExample s tenantId id).or (firstExample (s.featureSnapshots tenantId)
        ((added actions).filter fun o => o.tenantId = tenantId) id) := by
  induction actions using List.reverseRecOn with
  | nil => simp [performAll, added, firstExample]
  | append_singleton actions a ih =>
      rw [performAll_append, added_append, List.filter_append, firstExample_append,
        ← Option.or_assoc, ← ih]
      cases a with
      | addOutcomes outcomes =>
          simp only [added, FeedbackAction.added, List.flatMap_cons, List.flatMap_nil,
            List.append_nil]
          have hsnapshots : (performAll s tenantId settings actions).1.featureSnapshots =
              s.featureSnapshots := featureSnapshots_performAll
          rw [← hsnapshots]
          exact settledExample_addOutcomes
      | ingestOutcomes =>
          simp only [added, FeedbackAction.added, List.flatMap_cons, List.flatMap_nil,
            List.append_nil, List.filter_nil, firstExample, List.findSome?_nil, Option.or_none]
          exact settledExample_ingestOutcomes hon

/-- **The counts add up.** -/
theorem length_performAll (hon : settings.feedbackUseInContext = true) :
    ((performAll s tenantId settings actions).1.loadLabeledExamples tenantId).length =
      (s.loadLabeledExamples tenantId).length + ((performAll s tenantId settings actions).2.map
        fun i => i.feedback.newLabeledExamples).sum := by
  induction actions using List.reverseRecOn with
  | nil => simp [performAll]
  | append_singleton actions a ih =>
      rw [performAll_append]
      cases a with
      | addOutcomes outcomes =>
          show (Dict.values (((performAll s tenantId settings actions).1.addOutcomes
            outcomes).labeledExamples tenantId)).length = _
          rw [labeledExamples_addOutcomes]
          exact ih
      | ingestOutcomes =>
          show ((ingestOutcomes _ tenantId settings).1.loadLabeledExamples tenantId).length =
            _ + ((_ ++ [(ingestOutcomes _ tenantId settings).2]).map _).sum
          rw [length_ingestOutcomes hon, ih, List.map_append, List.sum_append]
          simp only [List.map_cons, List.map_nil, List.sum_cons, List.sum_nil]
          omega

/-- **The feedback loop is incremental**: the outcomes in any chunks, with
any calls in between, and all of them with one call. Both times every id
has the same example; an id has one if it had one or an outcome with a
snapshot arrived, and no id has two; the counts add up; and one more call
adds none. -/
theorem ingestOutcomes_incremental (s : FeedbackBuckets K) (tenantId : String)
    (settings : OutcomeSettings) (hon : settings.feedbackUseInContext = true)
    (actions : List FeedbackAction) :
    let last := performAll s tenantId settings (actions ++ [.ingestOutcomes])
    let once := performAll s tenantId settings [.addOutcomes (added actions), .ingestOutcomes]
    (∀ id, (last.1.labeledExamples tenantId).get? id = (once.1.labeledExamples tenantId).get? id) ∧
    ((last.1.loadLabeledExamples tenantId).map fun e => e.sourceOutcomeId).Nodup ∧
    (∀ id, (∃ e ∈ last.1.loadLabeledExamples tenantId, e.sourceOutcomeId = id) ↔
      (∃ e ∈ s.loadLabeledExamples tenantId, e.sourceOutcomeId = id) ∨
      ∃ o ∈ s.outcomes tenantId ++ (added actions).filter (fun o => o.tenantId = tenantId),
        o.outcomeEventId = id ∧ snapshotOf (s.featureSnapshots tenantId) o ≠ none) ∧
    (last.1.loadLabeledExamples tenantId).length = (s.loadLabeledExamples tenantId).length +
      (last.2.map fun i => i.feedback.newLabeledExamples).sum ∧
    (ingestOutcomes last.1 tenantId settings).1.labeledExamples tenantId =
      last.1.labeledExamples tenantId ∧
    (ingestOutcomes last.1 tenantId settings).2.feedback.newLabeledExamples = 0 := by
  intro last once
  have hlast : ∀ id, (last.1.labeledExamples tenantId).get? id =
      (settledExample s tenantId id).or (firstExample (s.featureSnapshots tenantId)
        ((added actions).filter fun o => o.tenantId = tenantId) id) := by
    intro id
    show ((performAll s tenantId settings (actions ++ [.ingestOutcomes])).1.labeledExamples
      tenantId).get? id = _
    rw [performAll_append, ← settledExample_performAll hon]
    exact get?_ingestOutcomes hon
  have honce : ∀ id, (once.1.labeledExamples tenantId).get? id =
      (settledExample s tenantId id).or (firstExample (s.featureSnapshots tenantId)
        ((added actions).filter fun o => o.tenantId = tenantId) id) := by
    intro id
    rw [← settledExample_addOutcomes]
    exact get?_ingestOutcomes hon
  have hnone : newLabeledExamples last.1 tenantId = [] := by
    refine newLabeledExamples_eq_nil fun id => ?_
    show ((performAll s tenantId settings (actions ++ [.ingestOutcomes])).1.labeledExamples
      tenantId).get? id = settledExample (performAll s tenantId settings
        (actions ++ [.ingestOutcomes])).1 tenantId id
    rw [performAll_append]
    exact (get?_ingestOutcomes hon).trans (settledExample_ingestOutcomes hon).symm
  refine ⟨fun id => (hlast id).trans (honce id).symm, ?_, ?_, length_performAll hon, ?_, ?_⟩
  · rw [map_sourceOutcomeId]
    exact (last.1.labeledExamples tenantId).nodup
  · intro id
    rw [exists_mem_loadLabeledExamples, exists_mem_loadLabeledExamples, hlast, settledExample,
      Option.or_assoc, ← firstExample_append, Ne, Option.or_eq_none_iff, firstExample_eq_none]
    simp only [not_and_or, not_forall, ← ne_eq]
    simp only [exists_prop]
  · rw [labeledExamples_ingestOutcomes hon, hnone]
    rfl
  · show (newLabeledExamples last.1 tenantId).length = 0
    rw [hnone]
    rfl

/-- An outcome of `u` in a run. -/
def sampleOutcome (outcomeEventId runId : String) : OutcomeEvent where
  outcomeEventId := outcomeEventId
  tenantId := "t"
  runId := runId
  userPseudonym := "u"
  arm := .engine
  treated := true
  retained := true
  spendIdr := 10000
  observedAt := 0

/-- A snapshot of `u` in the run `r`, and nothing else. -/
def sampleFeedbackBuckets : FeedbackBuckets ℚ where
  outcomes _ := []
  featureSnapshots _ := ⟨[(("r", "u"), ⟨"t", "r", "u", .empty, none, none, none, none, 10000,
    500000⟩)], by decide⟩
  labeledExamples _ := .empty
  ownOutcomes _ _ ho := absurd ho List.not_mem_nil
  ownExamples _ _ hp := absurd hp List.not_mem_nil

/-- `a` arrives without a snapshot, then twice with one. -/
def sampleActions : List FeedbackAction :=
  [.addOutcomes [sampleOutcome "a" "x"], .ingestOutcomes,
    .addOutcomes [sampleOutcome "b" "r", sampleOutcome "a" "r"], .ingestOutcomes, .ingestOutcomes,
    .addOutcomes [sampleOutcome "a" "r"]]

theorem ingestOutcomes_incremental_sample :
    let settings : OutcomeSettings := ⟨⟨true, 1⟩, 1⟩
    let last := performAll sampleFeedbackBuckets "t" settings (sampleActions ++ [.ingestOutcomes])
    let once := performAll sampleFeedbackBuckets "t" settings
      [.addOutcomes (added sampleActions), .ingestOutcomes]
    (last.1.labeledExamples "t").get? "a" = (once.1.labeledExamples "t").get? "a" ∧
      last.2.map (fun i => i.feedback.newLabeledExamples) = [0, 2, 0, 0] ∧
      once.2.map (fun i => i.feedback.newLabeledExamples) = [2] := by
  intro settings
  obtain ⟨hsame, -⟩ := ingestOutcomes_incremental sampleFeedbackBuckets "t" settings rfl
    sampleActions
  exact ⟨hsame "a", by decide +kernel, by decide +kernel⟩

end Loop

end InMemory

end RetentionEngine
