import RetentionEngine.Feedback.Leak
import RetentionEngine.IngestMapping.Normalize
import RetentionEngine.Measurement.Console

/-!
# Posting outcomes

`POST /v1/outcomes` of `api.routers.ingest`, past the API key and the rate
limiter. A request names its outcome by a `client_outcome_id`, which
nothing reads: every accepted request is a row of its own, under an id the
call draws. So a request sent again is counted again, unless its user has
no arm on record, and `countedOnce_iff` says that this is the one case
that repetitions do not show in.
-/

namespace RetentionEngine

namespace Api

open Feedback Measurement
open IngestMapping (DateTime)

/-- `OutcomeIn`. -/
structure OutcomeIn where
  clientOutcomeId : String
  userRef : String
  experimentId : String
  outcomeType : OutcomeType
  observedAt : String
  valueIdr : Option ℤ
  deriving DecidableEq, Repr

/-- **What the endpoint is given**: `uuid.UUID` and `datetime.fromisoformat`
(`none` is `ValueError`), the rows of `experiments` by tenant and id, and
whether the INSERT of a row fails. -/
structure OutcomeEnv where
  uuid : String → Option Uuid
  fromisoformat : String → Option DateTime
  experiments : List (String × Uuid)
  insertFails : OutcomeRow → Bool

/-- What leaves `post_outcome` as an exception. -/
inductive OutcomeError
  | validationFailed (message : String)
  | notFound (message : String)
  | internal
  deriving DecidableEq, Repr

/-- The instant of `observed_at`, which is in UTC where it names no zone. -/
def observedInstant (d : DateTime) : Timestamp := d.clock - d.utcOffset.getD 0

variable {K : Type} (env : OutcomeEnv) (tenantId : String)

/-- The row `record_outcome` is called with. -/
def outcomeRow (experimentId : Uuid) (observedAt : DateTime) (body : OutcomeIn) : OutcomeRow where
  tenantId := tenantId
  experimentId := experimentId
  userPseudonym := body.userRef
  outcomeType := body.outcomeType
  observedAt := observedInstant observedAt
  valueIdr := body.valueIdr

/-- **`post_outcome`**; `id` is the UUID the call draws. -/
def postOutcome (t : Tables K) (id : Uuid) (body : OutcomeIn) : Except OutcomeError (Tables K) :=
  match env.fromisoformat body.observedAt with
  | none => .error (.validationFailed "Request body or parameters failed validation")
  | some observedAt =>
      match env.uuid body.experimentId with
      | none => .error (.validationFailed "experiment_id is not a valid id")
      | some experimentId =>
          if (tenantId, experimentId) ∈ env.experiments then
            let row := outcomeRow tenantId experimentId observedAt body
            if env.insertFails row then .error .internal
            else match recordOutcome t id row with
              | none => .error .internal
              | some t' => .ok t'
          else .error (.notFound ("experiment " ++ body.experimentId ++ " not found"))

/-- Requests one after the other, each under the id it draws. -/
def postOutcomes (t : Tables K) (history : List (Uuid × OutcomeIn)) :
    Except OutcomeError (Tables K) :=
  history.foldlM (fun t p => postOutcome env tenantId t p.1 p.2) t

/-- **`history` is `requests` with repetitions**: `again` is what it sends
a second time, or more often, each after its first time. -/
inductive Repeats : List OutcomeIn → List OutcomeIn → List OutcomeIn → Prop
  /-- Nothing is sent. -/
  | nil : Repeats [] [] []
  /-- A request of its own. -/
  | post {requests history again : List OutcomeIn} (body : OutcomeIn) :
      Repeats requests history again → Repeats (requests ++ [body]) (history ++ [body]) again
  /-- One that was sent before. -/
  | again {requests history again : List OutcomeIn} {body : OutcomeIn} :
      Repeats requests history again → body ∈ requests →
        Repeats requests (history ++ [body]) (again ++ [body])

/-- The ids of a history are drawn anew: no example is labeled under one. -/
def NewIds [IntCast K] (t : Tables K) (history : List (Uuid × OutcomeIn)) : Prop :=
  ∀ p ∈ history, (tenantId, toString p.1) ∉ existing t tenantId

/-- What an example says of its user. -/
def label (e : Feedback.LabeledExample K) : String × Arm × Bool × K :=
  (e.userPseudonym, e.arm, e.retained, e.realizedValueIdr)

/-- **Counted once**: the lift, and the labels of the new examples, are the
same of both tables. -/
def CountedOnce [Field K] [LinearOrder K] (t t' : Tables K) (minArmSize : ℤ) : Prop :=
  workerLift t' tenantId minArmSize = workerLift t tenantId minArmSize ∧
    ∀ x, (∃ e ∈ newExamples t' tenantId, label e = x) ↔ ∃ e ∈ newExamples t tenantId, label e = x

/-- The arm on record of the user a request names, in its experiment. -/
def armOnRecord (t : Tables K) (body : OutcomeIn) : Option Arm := do
  let experimentId ← env.uuid body.experimentId
  t.experimentAssignments.get? ⟨tenantId, experimentId, body.userRef⟩

variable {env tenantId} {t t' : Tables K} {id : Uuid} {body : OutcomeIn}
  {history : List (Uuid × OutcomeIn)}

/-! ## What a history adds -/

/-- The row of a request, if it has one. -/
def rowOf (env : OutcomeEnv) (tenantId : String) (body : OutcomeIn) : Option OutcomeRow := do
  let observedAt ← env.fromisoformat body.observedAt
  let experimentId ← env.uuid body.experimentId
  some (outcomeRow tenantId experimentId observedAt body)

/-- **An accepted request is a new row**, whatever its `client_outcome_id`. -/
theorem exists_of_postOutcome (h : postOutcome env tenantId t id body = .ok t') :
    ∃ row, rowOf env tenantId body = some row ∧ id ∉ t.outcomeEvents.keys ∧
      t' = { t with outcomeEvents := t.outcomeEvents.set id row } := by
  unfold postOutcome at h
  split at h
  · cases h
  · rename_i observedAt hobserved
    split at h
    · cases h
    · rename_i experimentId hexperiment
      have hrow : rowOf env tenantId body =
          some (outcomeRow tenantId experimentId observedAt body) := by
        unfold rowOf
        rw [hobserved, hexperiment]
        rfl
      refine ⟨_, hrow, ?_⟩
      dsimp only at h
      split at h
      · split at h
        · cases h
        · unfold recordOutcome at h
          by_cases hid : id ∈ t.outcomeEvents.keys
          · rw [if_pos hid] at h
            cases h
          · rw [if_neg hid] at h
            exact ⟨hid, (Except.ok.inj h).symm⟩
      · cases h

/-- **What a history leaves**: its rows after those of before, in the tables
as they were. -/
structure Posted (env : OutcomeEnv) (tenantId : String) (t : Tables K)
    (history : List (Uuid × OutcomeIn)) (t' : Tables K) : Prop where
  rows : ∀ p ∈ history, (rowOf env tenantId p.2).isSome
  entries : t'.outcomeEvents.entries = t.outcomeEvents.entries ++
    history.filterMap fun p => (rowOf env tenantId p.2).map fun row => (p.1, row)
  assignments : t'.experimentAssignments = t.experimentAssignments
  snapshots : t'.featureSnapshots = t.featureSnapshots
  examples : t'.labeledExamples = t.labeledExamples

theorem posted_of_postOutcomes (h : postOutcomes env tenantId t history = .ok t') :
    Posted env tenantId t history t' := by
  unfold postOutcomes at h
  induction history using List.reverseRecOn generalizing t' with
  | nil =>
      obtain rfl := Except.ok.inj h
      exact ⟨fun p hp => absurd hp List.not_mem_nil, by simp, rfl, rfl, rfl⟩
  | append_singleton history p ih =>
      rw [List.foldlM_append] at h
      obtain ⟨t₀, hfirst, hlast⟩ := exists_of_bind_eq_ok h
      have hposted := ih hfirst
      rw [List.foldlM_cons] at hlast
      obtain ⟨t₁, hpost, hpure⟩ := exists_of_bind_eq_ok hlast
      obtain rfl := Except.ok.inj hpure
      obtain ⟨row, hrow, hid, rfl⟩ := exists_of_postOutcome hpost
      refine ⟨?_, ?_, hposted.assignments, hposted.snapshots, hposted.examples⟩
      · intro q hq
        rcases List.mem_append.mp hq with hq | hq
        · exact hposted.rows q hq
        · rw [List.mem_singleton.mp hq, hrow]
          rfl
      · have hentries := Dict.entries_set_of_notMem (v := row) hid
        rw [hentries, hposted.entries, List.filterMap_append, List.filterMap_cons,
          List.filterMap_nil, hrow, List.append_assoc]
        rfl

/-- The event an accepted request is loaded as. -/
def eventOf (env : OutcomeEnv) (tenantId : String) (t : Tables K) (p : Uuid × OutcomeIn) :
    Option OutcomeEvent := do
  let row ← rowOf env tenantId p.2
  let arm ← armOnRecord env tenantId t p.2
  some (outcomeEvent t tenantId p.1 row arm)

/-- What the row of a request says. -/
theorem of_rowOf {row : OutcomeRow} (h : rowOf env tenantId body = some row) :
    row.tenantId = tenantId ∧ row.userPseudonym = body.userRef ∧
      row.outcomeType = body.outcomeType ∧ row.valueIdr = body.valueIdr ∧
      armOnRecord env tenantId t body =
        t.experimentAssignments.get? ⟨tenantId, row.experimentId, row.userPseudonym⟩ := by
  unfold rowOf at h
  obtain ⟨observedAt, -, h⟩ := Option.bind_eq_some_iff.mp h
  obtain ⟨experimentId, hexperiment, h⟩ := Option.bind_eq_some_iff.mp h
  obtain rfl := Option.some.inj h
  refine ⟨rfl, rfl, rfl, rfl, ?_⟩
  unfold armOnRecord
  rw [hexperiment]
  rfl

/-- **What is loaded after a history**: the events of before, and one for
each request whose user has an arm. -/
theorem Posted.loadOutcomes_eq (h : Posted env tenantId t history t') : loadOutcomes t' tenantId =
    loadOutcomes t tenantId ++ history.filterMap (eventOf env tenantId t) := by
  have hlatest : latestRunByUser t' tenantId = latestRunByUser t tenantId := by
    unfold latestRunByUser snapshotRows
    rw [h.snapshots]
  have hevent : ∀ id row arm,
      outcomeEvent t' tenantId id row arm = outcomeEvent t tenantId id row arm := by
    intro id row arm
    unfold outcomeEvent
    rw [hlatest]
  unfold loadOutcomes
  simp only [hevent, h.assignments]
  rw [h.entries, List.filterMap_append, List.filterMap_filterMap]
  congr 1
  refine List.filterMap_congr ?_
  intro p _
  unfold eventOf
  cases hrow : rowOf env tenantId p.2 with
  | none => rfl
  | some row =>
      obtain ⟨htenant, -, -, -, harm⟩ := of_rowOf (t := t) hrow
      show (if row.tenantId = tenantId then _ else none) = _
      rw [if_pos htenant, htenant, Option.bind_eq_bind, Option.bind_some, harm]
      cases t.experimentAssignments.get? ⟨tenantId, row.experimentId, row.userPseudonym⟩ with
      | none => rfl
      | some arm => rfl

/-! ## The lift -/

/-- What a request adds to one of an arm's totals. -/
def adds (env : OutcomeEnv) (tenantId : String) (t : Tables K) (arm : Arm) (total : ArmTotals → ℤ)
    (body : OutcomeIn) : ℤ :=
  if armOnRecord env tenantId t body = some arm then
    total ⟨1, if body.outcomeType = .retained then 1 else 0, body.valueIdr.getD 0⟩
  else 0

/-- The sum of one of an arm's totals over what is loaded. -/
def loadedTotal (t : Tables K) (tenantId : String) (arm : Arm) (total : ArmTotals → ℤ) : ℤ :=
  ((((loadOutcomes t tenantId).map LiftInput.event).filter fun i => i.arm = arm).map
    fun i => total i.totals).sum

theorem aggregate_eq_loadedTotal (arm : Arm) :
    aggregate ((loadOutcomes t tenantId).map LiftInput.event) arm =
      ⟨loadedTotal t tenantId arm ArmTotals.n, loadedTotal t tenantId arm ArmTotals.retained,
        loadedTotal t tenantId arm ArmTotals.spendIdr⟩ := aggregate_apply _ _

/-- **A history adds what its requests add.** -/
theorem Posted.loadedTotal_eq (h : Posted env tenantId t history t') (arm : Arm)
    (total : ArmTotals → ℤ) : loadedTotal t' tenantId arm total =
      loadedTotal t tenantId arm total +
        ((history.map Prod.snd).map (adds env tenantId t arm total)).sum := by
  have hhistory : ((((history.filterMap (eventOf env tenantId t)).map LiftInput.event).filter
      fun i => i.arm = arm).map fun i => total i.totals).sum =
        ((history.map Prod.snd).map (adds env tenantId t arm total)).sum := by
    have hrows := h.rows
    clear h
    induction history with
    | nil => rfl
    | cons p history ih =>
        obtain ⟨hp, hrows⟩ := List.forall_mem_cons.mp hrows
        obtain ⟨row, hrow⟩ := Option.isSome_iff_exists.mp hp
        obtain ⟨-, -, htype, hvalue, -⟩ := of_rowOf (t := t) hrow
        rw [List.filterMap_cons, List.map_cons, List.map_cons, List.sum_cons, ← ih hrows]
        unfold eventOf adds
        rw [hrow, ← htype, ← hvalue]
        cases armOnRecord env tenantId t p.2 with
        | none => simp
        | some arm' =>
            by_cases harm : arm' = arm
            · simp [harm, outcomeEvent, LiftInput.arm, LiftInput.totals]
            · simp [harm, outcomeEvent, LiftInput.arm]
  unfold loadedTotal
  rw [h.loadOutcomes_eq, List.map_append, List.filter_append, List.map_append, List.sum_append,
    hhistory]

/-- A history is its requests and what is sent again. -/
theorem Repeats.perm {requests all again : List OutcomeIn} (h : Repeats requests all again) :
    all.Perm (requests ++ again) := by
  induction h with
  | nil => exact .nil
  | @post requests history again body _ ih =>
      have hpost : (history ++ [body]).Perm (requests ++ again ++ [body]) := ih.append_right _
      rw [List.append_assoc] at hpost ⊢
      exact hpost.trans (List.perm_append_comm.append_left _)
  | @again requests history again body _ _ ih =>
      rw [← List.append_assoc]
      exact ih.append_right _

/-- What is sent again was sent. -/
theorem Repeats.mem_of_mem {requests all again : List OutcomeIn} (h : Repeats requests all again) :
    body ∈ again → body ∈ requests := by
  induction h with
  | nil => exact id
  | post body' _ ih => exact fun hbody => List.mem_append_left _ (ih hbody)
  | again _ hsent ih =>
      intro hbody
      rcases List.mem_append.mp hbody with hbody | hbody
      · exact ih hbody
      · rw [List.mem_singleton.mp hbody]
        exact hsent

/-- **When requests sent again leave the lift as it is**: just when none of
them is of a user with an arm. -/
theorem workerLift_eq_iff [Field K] [LinearOrder K] {history' : List (Uuid × OutcomeIn)}
    {again : List OutcomeIn} {t₁ t₂ : Tables K} {minArmSize : ℤ}
    (hrepeats : Repeats (history.map Prod.snd) (history'.map Prod.snd) again)
    (h₁ : Posted env tenantId t history t₁) (h₂ : Posted env tenantId t history' t₂) :
    workerLift t₂ tenantId minArmSize = workerLift t₁ tenantId minArmSize ↔
      ∀ body ∈ again, armOnRecord env tenantId t body = none := by
  have htotal : ∀ arm total, loadedTotal t₂ tenantId arm total =
      loadedTotal t₁ tenantId arm total + (again.map (adds env tenantId t arm total)).sum := by
    intro arm total
    have hperm := (hrepeats.perm.map (adds env tenantId t arm total)).sum_eq
    rw [List.map_append, List.sum_append] at hperm
    rw [h₁.loadedTotal_eq, h₂.loadedTotal_eq, hperm]
    omega
  unfold workerLift
  rw [computeLift_eq_iff]
  constructor
  · intro htotals body hbody
    rw [Option.eq_none_iff_forall_ne_some]
    intro arm harm
    have hn : loadedTotal t₂ tenantId arm ArmTotals.n =
        loadedTotal t₁ tenantId arm ArmTotals.n := by
      have happly := congrArg ArmTotals.n (congrFun htotals arm)
      rwa [aggregate_eq_loadedTotal, aggregate_eq_loadedTotal] at happly
    -- the request is one more row of its arm
    have hcount : (again.map (adds env tenantId t arm ArmTotals.n)).sum =
        (again.filter fun body => armOnRecord env tenantId t body = some arm).length := sum_map_ite
    have hmem : body ∈ again.filter fun body => armOnRecord env tenantId t body = some arm :=
      List.mem_filter.mpr ⟨hbody, decide_eq_true harm⟩
    have hpos := List.length_pos_of_mem hmem
    have hsum := htotal arm ArmTotals.n
    omega
  · intro hnone
    have hzero : ∀ arm total, (again.map (adds env tenantId t arm total)).sum = 0 := by
      intro arm total
      refine List.sum_eq_zero ?_
      intro x hx
      obtain ⟨body, hbody, rfl⟩ := List.mem_map.mp hx
      unfold adds
      rw [hnone body hbody, if_neg (by simp)]
    funext arm
    rw [aggregate_eq_loadedTotal, aggregate_eq_loadedTotal]
    simp only [htotal, hzero, add_zero]

/-! ## The labels -/

/-- **What is labeled of a history depends on its requests alone**: not on
their ids, nor on how often each is sent. -/
theorem exists_label_mono [Field K] [LinearOrder K] [FloorRing K]
    {history' : List (Uuid × OutcomeIn)} {t₁ t₂ : Tables K} {x : String × Arm × Bool × K}
    (h₁ : Posted env tenantId t history t₁) (h₂ : Posted env tenantId t history' t₂)
    (hnew : NewIds tenantId t history')
    (hsub : ∀ body ∈ history.map Prod.snd, body ∈ history'.map Prod.snd)
    (hx : ∃ e ∈ newExamples t₁ tenantId, label e = x) :
    ∃ e ∈ newExamples t₂ tenantId, label e = x := by
  have hexisting : ∀ {history t'}, Posted env tenantId t history t' →
      existing t' tenantId = existing t tenantId := by
    intro history t' h
    unfold existing loadLabeledExamples
    rw [h.examples]
  have hsnapshots : ∀ {history t'}, Posted env tenantId t history t' →
      loadFeatureSnapshots t' tenantId = loadFeatureSnapshots t tenantId := by
    intro history t' h
    unfold loadFeatureSnapshots snapshotRows
    rw [h.snapshots]
  obtain ⟨e, he, rfl⟩ := hx
  obtain ⟨o, ho, hunlabeled, snap, hsnap, rfl⟩ := mem_newExamples.mp he
  rw [hexisting h₁] at hunlabeled
  rw [hsnapshots h₁] at hsnap
  rw [h₁.loadOutcomes_eq] at ho
  rcases List.mem_append.mp ho with ho | ho
  · refine ⟨_, mem_newExamples.mpr ⟨o, ?_, ?_, snap, ?_, rfl⟩, rfl⟩
    · rw [h₂.loadOutcomes_eq]
      exact List.mem_append_left _ ho
    · rwa [hexisting h₂]
    · rwa [hsnapshots h₂]
  · -- the other history has the request too, under some id
    obtain ⟨p, hp, hevent⟩ := List.mem_filterMap.mp ho
    obtain ⟨q, hq, hbody⟩ := List.mem_map.mp (hsub p.2 (List.mem_map_of_mem hp))
    unfold eventOf at hevent
    obtain ⟨row, hrow, hevent⟩ := Option.bind_eq_some_iff.mp hevent
    obtain ⟨arm, harm, hevent⟩ := Option.bind_eq_some_iff.mp hevent
    obtain rfl := Option.some.inj hevent
    refine ⟨labeledExample (outcomeEvent t tenantId q.1 row arm) snap,
      mem_newExamples.mpr ⟨_, ?_, ?_, snap, ?_, rfl⟩, rfl⟩
    · rw [h₂.loadOutcomes_eq]
      refine List.mem_append_right _ (List.mem_filterMap.mpr ⟨q, hq, ?_⟩)
      unfold eventOf
      rw [hbody, hrow, harm]
      rfl
    · rw [hexisting h₂]
      exact hnew q hq
    · rw [hsnapshots h₂]
      exact hsnap

/-- **A request sent again is counted again**, unless its user has no arm.
For every tables, every history of accepted requests of a tenant and every
history that repeats some of them, under whatever ids the calls draw: lift
and labels are the same of both if and only if no request that is sent
again names a user with an arm on record in its experiment. -/
theorem countedOnce_iff [Field K] [LinearOrder K] [FloorRing K]
    {history' : List (Uuid × OutcomeIn)} {again : List OutcomeIn} {t₁ t₂ : Tables K}
    {minArmSize : ℤ}
    (hrepeats : Repeats (history.map Prod.snd) (history'.map Prod.snd) again)
    (h₁ : postOutcomes env tenantId t history = .ok t₁)
    (h₂ : postOutcomes env tenantId t history' = .ok t₂)
    (hnew : NewIds tenantId t history) (hnew' : NewIds tenantId t history') :
    CountedOnce tenantId t₁ t₂ minArmSize ↔
      ∀ body ∈ again, armOnRecord env tenantId t body = none := by
  have hposted₁ := posted_of_postOutcomes h₁
  have hposted₂ := posted_of_postOutcomes h₂
  have hlabels : ∀ x, (∃ e ∈ newExamples t₂ tenantId, label e = x) ↔
      ∃ e ∈ newExamples t₁ tenantId, label e = x := by
    intro x
    constructor
    · refine exists_label_mono hposted₂ hposted₁ hnew ?_
      intro body hbody
      rcases List.mem_append.mp (hrepeats.perm.mem_iff.mp hbody) with hmem | hmem
      · exact hmem
      · exact hrepeats.mem_of_mem hmem
    · refine exists_label_mono hposted₁ hposted₂ hnew' ?_
      intro body hbody
      exact hrepeats.perm.mem_iff.mpr (List.mem_append_left _ hbody)
  unfold CountedOnce
  rw [workerLift_eq_iff hrepeats hposted₁ hposted₂]
  exact and_iff_left hlabels

/-- One experiment, under its number. -/
def demoOutcomeEnv : OutcomeEnv where
  uuid s := if s = "1" then some 1 else none
  fromisoformat _ := some ⟨43200000000, some 25200000000⟩
  experiments := [("t", 1)]
  insertFails _ := false

/-- The user has stayed. -/
def demoOutcome : OutcomeIn := ⟨"o-1", "u", "1", .retained, "1970-01-01T12:00:00+07:00", none⟩

/-- Someone the experiment does not know has stayed. -/
def strangersOutcome : OutcomeIn := { demoOutcome with clientOutcomeId := "o-2", userRef := "v" }

/-- The tables before any outcome; `u` is in the ENGINE arm. -/
def demoOutcomeTables : Tables ℚ := Measurement.sampleTables []

/-- A stranger's outcome, sent twice. -/
theorem countedOnce_iff_stranger : ∃ t₁ t₂ : Tables ℚ,
    postOutcomes demoOutcomeEnv "t" demoOutcomeTables
      [(1, demoOutcome), (2, strangersOutcome)] = .ok t₁ ∧
    postOutcomes demoOutcomeEnv "t" demoOutcomeTables
      [(1, demoOutcome), (2, strangersOutcome), (3, strangersOutcome)] = .ok t₂ ∧
    CountedOnce "t" t₁ t₂ 1 := by
  have hrepeats : Repeats
      (([(1, demoOutcome), (2, strangersOutcome)] : List (Uuid × OutcomeIn)).map Prod.snd)
      (([(1, demoOutcome), (2, strangersOutcome), (3, strangersOutcome)] :
        List (Uuid × OutcomeIn)).map Prod.snd) [strangersOutcome] :=
    .again (.post strangersOutcome (.post demoOutcome .nil)) (List.mem_append_right _
      (List.mem_singleton_self _))
  have hnone : ∀ body ∈ [strangersOutcome],
      armOnRecord demoOutcomeEnv "t" demoOutcomeTables body = none := by
    intro body hbody
    rw [List.mem_singleton.mp hbody]
    rfl
  refine ⟨_, _, rfl, rfl, (countedOnce_iff hrepeats rfl rfl ?_ ?_).mpr hnone⟩
  · exact fun _ _ => List.not_mem_nil
  · exact fun _ _ => List.not_mem_nil

/-- **A request sent twice is counted twice.** -/
theorem not_countedOnce : ∃ t₁ t₂ : Tables ℚ,
    postOutcomes demoOutcomeEnv "t" demoOutcomeTables [(1, demoOutcome)] = .ok t₁ ∧
    postOutcomes demoOutcomeEnv "t" demoOutcomeTables [(1, demoOutcome), (2, demoOutcome)] =
      .ok t₂ ∧
    Repeats [demoOutcome] [demoOutcome, demoOutcome] [demoOutcome] ∧
    ¬ CountedOnce "t" t₁ t₂ 1 := by
  refine ⟨_, _, rfl, rfl, .again (.post _ .nil) (List.mem_singleton_self _), ?_⟩
  rintro ⟨hlift, -⟩
  have hn := congrArg (fun l : Lift ℚ => (l.arms .engine).n) hlift
  revert hn
  decide +kernel

end Api

end RetentionEngine
