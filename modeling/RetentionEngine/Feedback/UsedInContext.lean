import Mathlib.Data.List.Dedup
import RetentionEngine.Feedback.Incremental

/-!
# What the feedback report says of the next context

`used_in_next_context` asks for `feedback_use_in_context` and for enough
new examples; whether they are saved, and so loaded by the next RISK stage,
asks for the first alone. `usedInNextContext_iff` says when the two agree,
whatever arrives and is ingested in between.
-/

namespace RetentionEngine

namespace InMemory

open Feedback Measurement

variable {K : Type} [Field K] [LinearOrder K]

/-- **What happens between two RISK stages**: outcomes arrive, and
`ingest_outcomes` is called, under the settings of the call. -/
inductive CycleAction
  | arrive (outcomes : List OutcomeEvent)
  | ingest (tenantId : String) (settings : OutcomeSettings)

/-- The store after an action. -/
def CycleAction.perform (s : FeedbackBuckets K) : CycleAction → FeedbackBuckets K
  | arrive outcomes => s.addOutcomes outcomes
  | ingest tenantId settings => (ingestOutcomes s tenantId settings).1

/-- The store after some actions. -/
def afterActions (s : FeedbackBuckets K) (actions : List CycleAction) : FeedbackBuckets K :=
  actions.foldl CycleAction.perform s

/-- `run.labeled` of the RISK stage. -/
def riskLabeled (s : FeedbackBuckets K) (tenantId : String) : List (Feedback.LabeledExample K) :=
  s.loadLabeledExamples tenantId

/-- A call for a tenant that saves what it finds. -/
def CycleAction.Saves (tenantId : String) : CycleAction → Prop
  | arrive _ => False
  | ingest t settings => t = tenantId ∧ settings.feedbackUseInContext = true

instance (tenantId : String) : DecidablePred (CycleAction.Saves tenantId)
  | .arrive _ => inferInstanceAs (Decidable False)
  | .ingest _ _ => inferInstanceAs (Decidable (_ ∧ _))

/-- **The outcomes that wait for an example**: the ids of those with a
snapshot of their tenant and no example yet. -/
def pendingIds (s : FeedbackBuckets K) (tenantId : String) : List String :=
  (((s.outcomes tenantId).filter fun o => (snapshotOf (s.featureSnapshots tenantId) o).isSome ∧
    ((s.labeledExamples tenantId).get? o.outcomeEventId).isNone).map
      OutcomeEvent.outcomeEventId).dedup

variable {s : FeedbackBuckets K} {tenantId id : String} {settings : OutcomeSettings}
variable {actions : List CycleAction} {a : CycleAction} {e : Feedback.LabeledExample K}

/-! ## New examples -/

omit [LinearOrder K] in
/-- **A new example is what its id settles on**, and there is none yet. -/
theorem of_mem_newLabeledExamples (he : e ∈ newLabeledExamples s tenantId) :
    (s.labeledExamples tenantId).get? e.sourceOutcomeId = none ∧
      settledExample s tenantId e.sourceOutcomeId = some e := by
  have hfind : ((newLabeledExamples s tenantId).find? fun e' =>
      e'.sourceOutcomeId = e.sourceOutcomeId) = some e := by
    cases hfound : (newLabeledExamples s tenantId).find? fun e' =>
        e'.sourceOutcomeId = e.sourceOutcomeId with
    | none =>
        have hne := List.find?_eq_none.mp hfound e he
        simp at hne
    | some e' =>
        have hid : e'.sourceOutcomeId = e.sourceOutcomeId := by simpa using List.find?_some hfound
        rw [List.inj_on_of_nodup_map nodup_newLabeledExamples (List.mem_of_find?_eq_some hfound) he
          hid]
  rw [find?_newLabeledExamples] at hfind
  split at hfind
  · rename_i hget
    unfold settledExample
    rw [hget, Option.none_or]
    exact ⟨rfl, hfind⟩
  · cases hfind

omit [LinearOrder K] in
/-- An id waits where one more call would give it an example. -/
theorem mem_pendingIds : id ∈ pendingIds s tenantId ↔
    (s.labeledExamples tenantId).get? id = none ∧
      firstExample (s.featureSnapshots tenantId) (s.outcomes tenantId) id ≠ none := by
  unfold pendingIds
  rw [List.mem_dedup, ne_eq, firstExample_eq_none]
  simp only [List.mem_map, List.mem_filter, decide_eq_true_eq, Option.isNone_iff_eq_none,
    Option.isSome_iff_ne_none, ne_eq, not_forall, exists_prop]
  constructor
  · rintro ⟨o, ⟨ho, hsnap, hget⟩, rfl⟩
    exact ⟨hget, o, ho, rfl, hsnap⟩
  · rintro ⟨hget, o, ho, rfl, hsnap⟩
    exact ⟨o, ⟨ho, hsnap, hget⟩, rfl⟩

omit [LinearOrder K] in
/-- **As many examples are new as outcomes wait.** -/
theorem length_newLabeledExamples :
    (newLabeledExamples s tenantId).length = (pendingIds s tenantId).length := by
  have hperm : ((newLabeledExamples s tenantId).map fun e => e.sourceOutcomeId).Perm
      (pendingIds s tenantId) := by
    refine (List.perm_ext_iff_of_nodup nodup_newLabeledExamples (List.nodup_dedup _)).mpr
      fun id => ?_
    have hfound : id ∈ (newLabeledExamples s tenantId).map (fun e => e.sourceOutcomeId) ↔
        ((newLabeledExamples s tenantId).find? fun e => e.sourceOutcomeId = id) ≠ none := by
      rw [ne_eq, List.find?_eq_none]
      simp
    refine hfound.trans (Iff.trans ?_ mem_pendingIds.symm)
    rw [find?_newLabeledExamples]
    split
    · rename_i hget
      simp [hget]
    · rename_i hget
      simp [hget]
  rw [← hperm.length_eq, List.length_map]

/-! ## What the actions in between do -/

omit [Field K] [LinearOrder K] in
/-- Saved examples of a tenant are filed under it. -/
theorem labeledExamples_save_of_ne {t : String} {examples : List (Feedback.LabeledExample K)}
    (hown : ∀ e ∈ examples, e.tenantId = t) (ht : t ≠ tenantId) :
    (s.saveLabeledExamples examples).labeledExamples tenantId = s.labeledExamples tenantId := by
  unfold FeedbackBuckets.saveLabeledExamples
  induction examples using List.reverseRecOn with
  | nil => rfl
  | append_singleton examples e ih =>
      rw [List.foldl_append, List.foldl_cons, List.foldl_nil]
      have hne : tenantId ≠ e.tenantId := by
        rw [hown e (by simp)]
        exact ht.symm
      show Function.update _ e.tenantId _ tenantId = _
      rw [Function.update_of_ne hne]
      exact ih fun e he => hown e (by simp [he])

/-- **An action that does not save leaves the examples alone.** -/
theorem labeledExamples_perform (h : ¬ a.Saves tenantId) :
    (a.perform s).labeledExamples tenantId = s.labeledExamples tenantId := by
  cases a with
  | arrive outcomes => exact congrFun labeledExamples_addOutcomes tenantId
  | ingest t settings =>
      show ((ingestOutcomes s t settings).1.labeledExamples) tenantId = _
      unfold ingestOutcomes
      dsimp only
      split
      · rename_i hon
        have ht : t ≠ tenantId := fun heq => h ⟨heq, hon⟩
        exact labeledExamples_save_of_ne (fun e he => tenantId_of_mem_new he) ht
      · rfl

/-- **What an id has settled on stays.** -/
theorem settledExample_perform (h : settledExample s tenantId id = some e) :
    settledExample (a.perform s) tenantId id = some e := by
  cases a with
  | arrive outcomes =>
      show settledExample (s.addOutcomes outcomes) tenantId id = some e
      rw [settledExample_addOutcomes, h, Option.some_or]
  | ingest t settings =>
      show settledExample (ingestOutcomes s t settings).1 tenantId id = some e
      by_cases hsaves : t = tenantId ∧ settings.feedbackUseInContext = true
      · obtain ⟨rfl, hon⟩ := hsaves
        rw [settledExample_ingestOutcomes hon, h]
      · have hsame : (ingestOutcomes s t settings).1.labeledExamples tenantId =
            s.labeledExamples tenantId := labeledExamples_perform (a := .ingest t settings) hsaves
        unfold settledExample at h ⊢
        rw [hsame, featureSnapshots_ingestOutcomes, outcomes_ingestOutcomes, h]

/-- **What is saved stays.** -/
theorem get?_perform (h : (s.labeledExamples tenantId).get? id = some e) :
    ((a.perform s).labeledExamples tenantId).get? id = some e := by
  by_cases hsaves : a.Saves tenantId
  · cases a with
    | arrive outcomes => exact hsaves.elim
    | ingest t settings =>
        obtain ⟨rfl, hon⟩ := hsaves
        show ((ingestOutcomes s t settings).1.labeledExamples t).get? id = some e
        rw [get?_ingestOutcomes hon]
        unfold settledExample
        rw [h, Option.some_or]
  · rw [labeledExamples_perform hsaves, h]

theorem get?_afterActions (h : (s.labeledExamples tenantId).get? id = some e) :
    ((afterActions s actions).labeledExamples tenantId).get? id = some e := by
  induction actions generalizing s with
  | nil => exact h
  | cons a actions ih => exact ih (get?_perform h)

/-- **Examples are saved as soon as a call saves.** -/
theorem get?_afterActions_of_saves (h : settledExample s tenantId id = some e)
    (hsaves : ∃ a ∈ actions, a.Saves tenantId) :
    ((afterActions s actions).labeledExamples tenantId).get? id = some e := by
  induction actions generalizing s with
  | nil =>
      obtain ⟨a, ha, -⟩ := hsaves
      cases ha
  | cons a actions ih =>
      by_cases hnow : a.Saves tenantId
      · refine get?_afterActions (s := a.perform s) ?_
        cases a with
        | arrive outcomes => exact hnow.elim
        | ingest t settings =>
            obtain ⟨rfl, hon⟩ := hnow
            exact (get?_ingestOutcomes hon).trans h
      · refine ih (settledExample_perform h) ?_
        obtain ⟨a', ha', hlater⟩ := hsaves
        rcases List.mem_cons.mp ha' with rfl | hmem
        · exact absurd hlater hnow
        · exact ⟨a', hmem, hlater⟩

/-- **Until then they are not.** -/
theorem labeledExamples_afterActions (h : ∀ a ∈ actions, ¬ a.Saves tenantId) :
    (afterActions s actions).labeledExamples tenantId = s.labeledExamples tenantId := by
  induction actions generalizing s with
  | nil => rfl
  | cons a actions ih =>
      have hrest := ih (s := a.perform s) fun a' ha' => h a' (List.mem_cons_of_mem _ ha')
      exact hrest.trans (labeledExamples_perform (h a List.mem_cons_self))

omit [LinearOrder K] in
/-- A new example is loaded where its id holds it. -/
theorem mem_riskLabeled_iff {s' : FeedbackBuckets K} (he : e ∈ newLabeledExamples s tenantId) :
    e ∈ riskLabeled s' tenantId ↔
      (s'.labeledExamples tenantId).get? e.sourceOutcomeId = some e := by
  unfold riskLabeled FeedbackBuckets.loadLabeledExamples Dict.values
  rw [Dict.get?_eq_some, List.mem_map]
  constructor
  · rintro ⟨p, hp, rfl⟩
    rwa [(s'.ownExamples tenantId p hp).2]
  · exact fun hp => ⟨_, hp, rfl⟩

/-! ## The report -/

/-- **The report matches what scoring uses** exactly where the call saves and
has enough new examples, or neither it nor a call before the next RISK stage
saves. -/
theorem usedInNextContext_iff (s : FeedbackBuckets K) (tenantId : String)
    (before between : List CycleAction) (settings : OutcomeSettings) :
    let now := afterActions s before
    let risk := afterActions s (before ++ .ingest tenantId settings :: between)
    0 < (newLabeledExamples now tenantId).length →
    (((ingestOutcomes now tenantId settings).2.feedback.usedInNextContext = true ↔
        ∀ e ∈ newLabeledExamples now tenantId, e ∈ riskLabeled risk tenantId) ↔
      if settings.feedbackUseInContext then
        settings.feedbackMinRowsPerCycle ≤ (pendingIds now tenantId).length
      else ∀ a ∈ between, ¬ a.Saves tenantId) := by
  intro now risk hnew
  have hrisk : risk = afterActions (ingestOutcomes now tenantId settings).1 between := by
    show List.foldl _ s _ = _
    rw [List.foldl_append, List.foldl_cons]
    rfl
  have hflag : (ingestOutcomes now tenantId settings).2.feedback.usedInNextContext =
      (settings.feedbackUseInContext &&
        decide (settings.feedbackMinRowsPerCycle ≤ (pendingIds now tenantId).length)) := by
    rw [← length_newLabeledExamples]
    rfl
  rw [hflag, hrisk]
  split
  · -- the call saves, whatever their number
    rename_i hon
    have hloaded : ∀ e ∈ newLabeledExamples now tenantId,
        e ∈ riskLabeled (afterActions (ingestOutcomes now tenantId settings).1 between)
          tenantId := by
      intro e he
      rw [mem_riskLabeled_iff he]
      refine get?_afterActions ?_
      rw [get?_ingestOutcomes hon]
      exact (of_mem_newLabeledExamples he).2
    rw [iff_true_right hloaded, hon, Bool.true_and, decide_eq_true_iff]
  · rename_i hoff
    have hsame : (ingestOutcomes now tenantId settings).1 = now := by
      unfold ingestOutcomes
      dsimp only
      rw [if_neg hoff]
    rw [Bool.not_eq_true] at hoff
    rw [hoff, Bool.false_and, hsame, iff_false_left Bool.false_ne_true]
    obtain ⟨e, he⟩ := List.exists_mem_of_length_pos hnew
    by_cases hsaves : ∃ a ∈ between, a.Saves tenantId
    · refine iff_of_false (not_not.mpr fun e' he' => ?_) fun hnone => ?_
      · rw [mem_riskLabeled_iff he']
        exact get?_afterActions_of_saves (of_mem_newLabeledExamples he').2 hsaves
      · obtain ⟨a, ha, hlater⟩ := hsaves
        exact hnone a ha hlater
    · have hnone : ∀ a ∈ between, ¬ a.Saves tenantId := fun a ha h => hsaves ⟨a, ha, h⟩
      refine iff_of_true (fun hall => ?_) hnone
      have hloaded := (mem_riskLabeled_iff he).mp (hall e he)
      rw [labeledExamples_afterActions hnone, (of_mem_newLabeledExamples he).1] at hloaded
      cases hloaded

/-- One outcome with a snapshot, and one new example is enough. -/
theorem usedInNextContext_iff_one :
    let settings : OutcomeSettings := ⟨⟨true, 1⟩, 1⟩
    let before : List CycleAction := [.arrive [sampleOutcome "a" "r"]]
    let now := afterActions sampleFeedbackBuckets before
    let risk := afterActions sampleFeedbackBuckets (before ++ [.ingest "t" settings])
    (ingestOutcomes now "t" settings).2.feedback.usedInNextContext = true ↔
      ∀ e ∈ newLabeledExamples now "t", e ∈ riskLabeled risk "t" := by
  intro settings before now risk
  exact (usedInNextContext_iff sampleFeedbackBuckets "t" before [] settings (by decide +kernel)).mpr
    (by decide +kernel)

/-- **Too few new examples** are reported as unused, and loaded all the same. -/
theorem not_usedInNextContext_too_few :
    let settings : OutcomeSettings := ⟨⟨true, 10⟩, 1⟩
    let now := afterActions sampleFeedbackBuckets [.arrive [sampleOutcome "a" "r"]]
    (newLabeledExamples now "t").length = 1 ∧
      (ingestOutcomes now "t" settings).2.feedback.usedInNextContext = false ∧
      ∀ e ∈ newLabeledExamples now "t",
        e ∈ riskLabeled (ingestOutcomes now "t" settings).1 "t" := by
  intro settings now
  refine ⟨by decide +kernel, by decide +kernel, fun e he => ?_⟩
  rw [mem_riskLabeled_iff he, get?_ingestOutcomes rfl]
  exact (of_mem_newLabeledExamples he).2

end InMemory

end RetentionEngine
