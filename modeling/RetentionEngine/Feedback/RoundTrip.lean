import RetentionEngine.Feedback.Incremental
import Mathlib

/-!
# Labeled examples in the database

`save_labeled_examples` splits an example over columns and a JSON document,
and `load_labeled_examples` puts it together again. What is read back is what
was written, and its outcome id is the one the next cycle is compared by.
-/

namespace RetentionEngine

namespace Feedback

variable {K : Type} [Field K] [LinearOrder K] [FloorRing K]
  {t : Tables K} {tenantId : String} {draw : ℕ → Uuid} {now : Timestamp}
  {examples : List (LabeledExample K)} {e : LabeledExample K}
  {rows table : List (LabeledExampleRow K)}

/-! ## One example -/

/-- What the columns can hold of an example: its outcome id is a UUID and its
realised value a whole amount. -/
structure Storable (e : LabeledExample K) : Prop where
  outcome : ∃ id : Uuid, e.sourceOutcomeId = toString id
  amount : ∃ n : ℤ, e.realizedValueIdr = n

/-- A UUID is read back from its text. -/
theorem maybeUuid_toString (id : Uuid) : maybeUuid (toString id) = some id := Nat.toNat?_repr id

omit [LinearOrder K] [FloorRing K] in
/-- **What a stored outcome becomes can be stored.** -/
theorem storable_labeledExample {snapshots : Dict (String × String) (FeatureSnapshot K)}
    {seen : List (String × String)}
    (he : e ∈ toLabeledExamples (loadOutcomes t tenantId) snapshots seen) :
    e.tenantId = tenantId ∧ Storable e := by
  obtain ⟨o, ho, -, snap, -, rfl⟩ := exists_of_mem_toLabeledExamples he
  obtain ⟨id, row, arm, -, -, -, rfl⟩ := mem_loadOutcomes.mp ho
  exact ⟨rfl, ⟨id, rfl⟩, ⟨_, rfl⟩⟩

/-- **An example is read back from its row**, in every field. -/
theorem loadedExample_labeledExampleRow [IsStrictOrderedRing K] (he : Storable e) (id : Uuid) :
    loadedExample e.tenantId (labeledExampleRow now id e) = e := by
  obtain ⟨outcome, houtcome⟩ := he.outcome
  obtain ⟨n, hn⟩ := he.amount
  have hid : toString ((maybeUuid e.sourceOutcomeId).getD id) = e.sourceOutcomeId := by
    rw [houtcome, maybeUuid_toString]
    rfl
  have hamount : (((some (Python.roundHalfEven e.realizedValueIdr)).getD 0 : ℤ) : K) =
      e.realizedValueIdr := by
    rw [hn, Option.getD_some, Python.roundHalfEven_intCast]
  unfold loadedExample labeledExampleRow
  dsimp only
  rw [hid, hamount]

/-! ## Many -/

/-- The columns the constraint keeps unique. -/
def LabeledExampleRow.key (row : LabeledExampleRow K) : String × Option Uuid :=
  (row.tenantId, row.sourceOutcomeId)

omit [Field K] [LinearOrder K] [FloorRing K] in
/-- **Rows of new outcomes are all inserted.** -/
theorem foldl_insertLabeledExample
    (hnodup : (rows.map LabeledExampleRow.key).Nodup)
    (hnew : ∀ row ∈ rows, ∀ r ∈ table, r.key ≠ row.key) :
    rows.foldl insertLabeledExample table = table ++ rows := by
  induction rows generalizing table with
  | nil => exact (List.append_nil table).symm
  | cons row rows ih =>
      rw [List.map_cons, List.nodup_cons] at hnodup
      have hinsert : insertLabeledExample table row = table ++ [row] := by
        unfold insertLabeledExample
        refine if_neg ?_
        rintro ⟨-, r, hr, htenant, houtcome⟩
        exact hnew row List.mem_cons_self r hr (Prod.ext htenant houtcome)
      rw [List.foldl_cons, hinsert, ih hnodup.2, List.append_assoc, List.singleton_append]
      intro row' hrow' r hr
      rcases List.mem_append.mp hr with hr | hr
      · exact hnew row' (List.mem_cons_of_mem _ hrow') r hr
      · obtain rfl := List.mem_singleton.mp hr
        intro hkey
        exact hnodup.1 (hkey ▸ List.mem_map_of_mem hrow')

/-- The table has no row of a tenant with the outcome of one of the
examples. -/
def WithoutOutcomes (t : Tables K) (tenantId : String) (examples : List (LabeledExample K)) :
    Prop :=
  ∀ row ∈ t.labeledExamples, row.tenantId = tenantId → ∀ e ∈ examples,
    row.sourceOutcomeId ≠ maybeUuid e.sourceOutcomeId

/-- What is to be written: examples of one tenant that the columns can hold,
of different outcomes that are not in the table. -/
structure Writable (t : Tables K) (tenantId : String) (examples : List (LabeledExample K)) :
    Prop where
  storable : ∀ e ∈ examples, e.tenantId = tenantId ∧ Storable e
  nodup : (examples.map fun e => (e.tenantId, e.sourceOutcomeId)).Nodup
  new : WithoutOutcomes t tenantId examples

omit [LinearOrder K] [FloorRing K] in
/-- Different outcome ids are different UUIDs. -/
theorem Writable.nodup_uuid (h : Writable t tenantId examples) :
    (examples.map fun e => (e.tenantId, maybeUuid e.sourceOutcomeId)).Nodup := by
  have hexamples := h.nodup.of_map
  rw [List.nodup_map_iff_inj_on hexamples]
  intro e he e' he' hsame
  obtain ⟨htenant, huuid⟩ := Prod.mk.inj hsame
  obtain ⟨id, hid⟩ := (h.storable e he).2.outcome
  obtain ⟨id', hid'⟩ := (h.storable e' he').2.outcome
  rw [hid, hid', maybeUuid_toString, maybeUuid_toString] at huuid
  refine List.inj_on_of_nodup_map h.nodup he he' (Prod.ext htenant ?_)
  rw [hid, hid', Option.some.inj huuid]

/-- **What is saved is loaded**, beside what was there. -/
theorem perm_loadLabeledExamples_save [IsStrictOrderedRing K] (h : Writable t tenantId examples) :
    (loadLabeledExamples (saveLabeledExamples t draw now examples) tenantId).Perm
      (loadLabeledExamples t tenantId ++ examples) := by
  have hgroups := Dict.perm_flatMap_groupBy (fun e : LabeledExample K => e.tenantId) examples
  unfold saveLabeledExamples
  dsimp only
  generalize (Dict.groupBy (fun e : LabeledExample K => e.tenantId) examples).entries.flatMap
    Prod.snd = saved at hgroups ⊢
  have hmem : ∀ p ∈ saved.zipIdx, p.1 ∈ examples := fun p hp =>
    hgroups.mem_iff.mp (List.fst_mem_of_mem_zipIdx hp)
  have hkeys : (saved.zipIdx.map fun p => labeledExampleRow now (draw p.2) p.1).map
      LabeledExampleRow.key = saved.map fun e => (e.tenantId, maybeUuid e.sourceOutcomeId) := by
    rw [List.map_map]
    conv_rhs => rw [← List.zipIdx_map_fst 0 saved, List.map_map]
    rfl
  rw [foldl_insertLabeledExample]
  · -- the rows of the tenant are the old ones and all of the new ones
    have hloaded : ((saved.zipIdx.map fun p => labeledExampleRow now (draw p.2) p.1).filter
        fun row => row.tenantId = tenantId).map (loadedExample tenantId) = saved := by
      rw [List.filter_eq_self.mpr, List.map_map]
      · conv_rhs => rw [← List.zipIdx_map_fst 0 saved]
        refine List.map_congr_left fun p hp => ?_
        obtain ⟨htenant, hstorable⟩ := h.storable p.1 (hmem p hp)
        exact htenant ▸ loadedExample_labeledExampleRow hstorable _
      · intro row hrow
        obtain ⟨p, hp, rfl⟩ := List.mem_map.mp hrow
        exact decide_eq_true (h.storable p.1 (hmem p hp)).1
    unfold loadLabeledExamples
    dsimp only
    rw [List.filter_append]
    refine ((List.perm_insertionSort _ _).map _).trans ?_
    rw [List.map_append, hloaded]
    exact (((List.perm_insertionSort _ _).map _).symm.append_right _).trans
      (hgroups.append_left _)
  · rw [hkeys]
    exact ((hgroups.map _).nodup_iff).mpr h.nodup_uuid
  · intro row hrow r hr hkey
    obtain ⟨p, hp, rfl⟩ := List.mem_map.mp hrow
    obtain ⟨htenant, houtcome⟩ := Prod.mk.inj hkey
    exact h.new r hr (htenant.trans (h.storable p.1 (hmem p hp)).1) p.1 (hmem p hp) houtcome

/-! ## The next cycle -/

omit [LinearOrder K] [FloorRing K] in
/-- An example that is loaded is known to the next cycle. -/
theorem mem_existing (he : e ∈ loadLabeledExamples t tenantId) :
    (e.tenantId, e.sourceOutcomeId) ∈ existing t tenantId := List.mem_map_of_mem he

omit [LinearOrder K] [FloorRing K] in
/-- **The examples a cycle adds are of outcomes the table does not have**,
whatever ids the rows without an outcome are known by. -/
theorem withoutOutcomes_newExamples :
    WithoutOutcomes t tenantId (newExamples t tenantId) := by
  intro row hrow htenant e he houtcome
  obtain ⟨o, ho, hnew, snap, -, rfl⟩ := exists_of_mem_toLabeledExamples he
  obtain ⟨id, outcome, arm, -, -, -, rfl⟩ := mem_loadOutcomes.mp ho
  refine hnew ?_
  have hloaded : loadedExample tenantId row ∈ loadLabeledExamples t tenantId := by
    unfold loadLabeledExamples
    refine List.mem_map_of_mem ((List.perm_insertionSort _ _).mem_iff.mpr ?_)
    exact List.mem_filter.mpr ⟨hrow, decide_eq_true htenant⟩
  have hid : (loadedExample tenantId row).sourceOutcomeId = toString id := by
    unfold loadedExample
    rw [houtcome]
    dsimp only [labeledExample, outcomeEvent]
    rw [maybeUuid_toString, Option.getD_some]
  have hknown := mem_existing hloaded
  rw [hid] at hknown
  exact hknown

omit [LinearOrder K] [FloorRing K] in
/-- What is built of a tenant's outcomes can be written where the table does
not have them. -/
theorem writable_toLabeledExamples {snapshots : Dict (String × String) (FeatureSnapshot K)}
    {seen : List (String × String)}
    (h : WithoutOutcomes t tenantId (toLabeledExamples (loadOutcomes t tenantId) snapshots seen)) :
    Writable t tenantId (toLabeledExamples (loadOutcomes t tenantId) snapshots seen) :=
  ⟨fun _ => storable_labeledExample, InMemory.nodup_labeledFrom, h⟩

/-- **After a save nothing is new**: an outcome with a snapshot was known
before, or its example is loaded. -/
theorem newExamples_save [IsStrictOrderedRing K] {seen : List (String × String)}
    (hseen : ∀ k ∈ seen, k ∈ existing t tenantId)
    (h : WithoutOutcomes t tenantId
      (toLabeledExamples (loadOutcomes t tenantId) (loadFeatureSnapshots t tenantId) seen)) :
    newExamples (saveLabeledExamples t draw now (toLabeledExamples (loadOutcomes t tenantId)
      (loadFeatureSnapshots t tenantId) seen)) tenantId = [] := by
  have hperm : (loadLabeledExamples (saveLabeledExamples t draw now _) tenantId).Perm _ :=
    perm_loadLabeledExamples_save (writable_toLabeledExamples h)
  refine List.eq_nil_iff_forall_not_mem.mpr fun e he => ?_
  obtain ⟨o, ho, hnew, snap, hsnap, -⟩ := exists_of_mem_toLabeledExamples he
  refine hnew ?_
  by_cases hknown : o.key ∈ seen
  · obtain ⟨e, he, hkey⟩ := List.mem_map.mp (hseen _ hknown)
    rw [← hkey]
    exact mem_existing (hperm.mem_iff.mpr (List.mem_append_left _ he))
  · obtain ⟨e, he, hkey⟩ := exists_mem_toLabeledExamples ho hknown (Option.isSome_of_mem hsnap)
    rw [← hkey]
    exact mem_existing (hperm.mem_iff.mpr (List.mem_append_right _ he))

/-- A cycle without new examples leaves the tables as they are. -/
theorem ingestOutcomes_of_newExamples_eq_nil {settings : FeedbackSettings}
    (h : newExamples t tenantId = []) : (ingestOutcomes t tenantId settings draw now).1 = t := by
  unfold ingestOutcomes
  rw [h]
  split <;> rfl

/-- **Labeled examples survive the database.** Those built of a tenant's
outcomes and snapshots, saved into a table without their outcomes, are loaded
unchanged beside what was there, and a cycle adds none of them again. Nor does
a second cycle on any tables, whatever rows without an outcome they have. -/
theorem labeledExamples_roundTrip [IsStrictOrderedRing K] (t : Tables K) (tenantId : String)
    (settings : FeedbackSettings) (draw draw' : ℕ → Uuid) (now now' : Timestamp) :
    let built := toLabeledExamples (loadOutcomes t tenantId) (loadFeatureSnapshots t tenantId) []
    let saved := saveLabeledExamples t draw now built
    let once := (ingestOutcomes t tenantId settings draw now).1
    (WithoutOutcomes t tenantId built →
      (loadLabeledExamples saved tenantId).Perm (loadLabeledExamples t tenantId ++ built) ∧
        newExamples saved tenantId = [] ∧
          (ingestOutcomes saved tenantId settings draw' now').1 = saved) ∧
      (settings.feedbackUseInContext = true → newExamples once tenantId = []) ∧
        (ingestOutcomes once tenantId settings draw' now').1 = once := by
  dsimp only
  have honce : settings.feedbackUseInContext = true →
      newExamples (ingestOutcomes t tenantId settings draw now).1 tenantId = [] := by
    intro hon
    unfold ingestOutcomes
    dsimp only
    rw [if_pos hon]
    exact newExamples_save (fun _ => id) withoutOutcomes_newExamples
  refine ⟨fun h => ?_, honce, ?_⟩
  · have hnone : newExamples (saveLabeledExamples t draw now _) tenantId = [] :=
      newExamples_save (fun _ hk => absurd hk List.not_mem_nil) h
    exact ⟨perm_loadLabeledExamples_save (writable_toLabeledExamples h), hnone,
      ingestOutcomes_of_newExamples_eq_nil hnone⟩
  · by_cases hon : settings.feedbackUseInContext = true
    · exact ingestOutcomes_of_newExamples_eq_nil (honce hon)
    · -- nothing is ever saved
      unfold ingestOutcomes
      dsimp only
      rw [if_neg hon, if_neg hon]

/-- A stored outcome of the user's second run, and a row without one. -/
def seededTables : Tables ℚ where
  outcomeEvents := .ofList Prod.fst Prod.snd [(7, ⟨"t", 1, "u", .retained, 43200, some 10000⟩)]
  experimentAssignments := .ofList Prod.fst Prod.snd [(⟨"t", 1, "u"⟩, .engine)]
  featureSnapshots := .ofList Prod.fst Prod.snd
    [(⟨"t", 2, "u"⟩, ⟨.ofList Prod.fst Prod.snd [("frequency_30d", 5)], some (7 / 10),
      some (3 / 10), some .circleSpecific, some "CASHBACK_10K", 10000, 90000, 0⟩)]
  labeledExamples := [⟨3, "t", none, "v", .control, false, true, some 90000,
    ⟨.empty, none, none, none, none, 0, 90000⟩, 0⟩]

/-- The outcome's example is saved beside the row. -/
theorem labeledExamples_roundTrip_seeded :
    let built := toLabeledExamples (loadOutcomes seededTables "t")
      (loadFeatureSnapshots seededTables "t") []
    let saved := saveLabeledExamples seededTables (fun n => 100 + n) 86400 built
    built.length = 1 ∧
      (loadLabeledExamples saved "t").Perm (loadLabeledExamples seededTables "t" ++ built) ∧
        newExamples saved "t" = [] := by
  have hnew : WithoutOutcomes seededTables "t" (toLabeledExamples (loadOutcomes seededTables "t")
      (loadFeatureSnapshots seededTables "t") []) := by
    intro row hrow _ e he houtcome
    obtain rfl := List.mem_singleton.mp hrow
    obtain ⟨id, hid⟩ := (storable_labeledExample he).2.outcome
    rw [hid, maybeUuid_toString] at houtcome
    cases houtcome
  obtain ⟨hperm, hnone, -⟩ := (labeledExamples_roundTrip seededTables "t" ⟨true, 0⟩
    (fun n => 100 + n) id 86400 172800).1 hnew
  exact ⟨by decide +kernel, hperm, hnone⟩

end Feedback

end RetentionEngine
