import RetentionEngine.Common.RowSecurity

/-!
# Tenants in one database

The tables as migrations 0001 to 0012 build them, with their keys, the
policy `tenant_isolation` and what the three roles are granted, and the
transactions `tenant_session` opens on them. A row is its columns and their
values, the type of which is a parameter, as are the CHECK constraints and
the trigger. The database draws no ids: `uuid4` does, and which tenant it
drew an id for is `mint`.

`current_setting('app.tenant_id')` stands behind every statement, so what a
transaction leaves out of its `WHERE` clauses does not matter
(`tenants_apart`).
-/

namespace RetentionEngine

namespace TenantSession

open RowSecurity (Database Privileges Script Session Statement SqlError sameKey)

/-- The tables. -/
inductive Table
  | tenants | apiKeys | eventTypeMappings | incentives
  | rawEvents | canonicalEvents | externalSignals
  | users | counterpartyNodes | relationshipEdges | transactionCircles | circleMembers
  | riskScores | impactScores
  | pipelineRuns | policyDecisions | allocationRuns | allocationCandidates | recommendations
  | narrations | contactLog
  | experiments | experimentAssignments | outcomeEvents | labeledExamples | auditLog
  | featureSnapshots
  deriving DecidableEq, Repr

/-- `RLS_TABLES` of migration 0006, and what 0008 adds. -/
def rlsTables : List Table :=
  [.allocationCandidates, .allocationRuns, .auditLog, .canonicalEvents, .circleMembers,
    .contactLog, .counterpartyNodes, .eventTypeMappings, .experimentAssignments, .experiments,
    .externalSignals, .impactScores, .incentives, .labeledExamples, .narrations, .outcomeEvents,
    .pipelineRuns, .policyDecisions, .rawEvents, .recommendations, .relationshipEdges,
    .riskScores, .transactionCircles, .users, .featureSnapshots]

/-- The columns of each PRIMARY KEY and UNIQUE constraint. -/
def Table.keys : Table → List (List String)
  | .tenants => [["id"], ["slug"]]
  | .apiKeys => [["id"], ["key_hash"]]
  | .eventTypeMappings => [["id"], ["tenant_id", "client_event_type"]]
  | .incentives => [["id"], ["tenant_id", "code"]]
  | .rawEvents => [["id"], ["tenant_id", "client_event_id"]]
  | .users => [["tenant_id", "user_pseudonym"]]
  | .counterpartyNodes => [["tenant_id", "counterparty_pseudonym"]]
  | .relationshipEdges =>
      [["id"], ["tenant_id", "user_pseudonym", "counterparty_pseudonym", "edge_type"]]
  | .circleMembers => [["circle_id", "tenant_id", "user_pseudonym"]]
  | .narrations => [["fact_sheet_hash", "tenant_id"]]
  | .experimentAssignments => [["tenant_id", "experiment_id", "user_pseudonym"]]
  | .labeledExamples => [["id"], ["tenant_id", "source_outcome_id"]]
  | .featureSnapshots => [["id"], ["tenant_id", "run_id", "user_pseudonym"]]
  | .canonicalEvents | .externalSignals | .transactionCircles | .riskScores | .impactScores
  | .pipelineRuns | .policyDecisions | .allocationRuns | .allocationCandidates
  | .recommendations | .contactLog | .experiments | .outcomeEvents | .auditLog => [["id"]]

/-! ## Grants -/

/-- `_ROLES`. -/
inductive Role
  | appWorker
  | appConsole
  | appReadonly
  deriving DecidableEq, Repr

/-- `GRANT SELECT, INSERT ON … TO app_worker`, of migrations 0006, 0008 and
0011. -/
def workerInserts : List Table :=
  [.rawEvents, .canonicalEvents, .externalSignals, .users, .counterpartyNodes,
    .relationshipEdges, .transactionCircles, .circleMembers, .riskScores, .impactScores,
    .pipelineRuns, .policyDecisions, .allocationRuns, .allocationCandidates, .narrations,
    .contactLog, .experimentAssignments, .outcomeEvents, .labeledExamples, .featureSnapshots,
    .experiments, .auditLog]

/-- The UPDATE grants of `app_worker`: whole tables of 0006, columns of 0006
and 0010. -/
def workerUpdates : Table → String → Bool
  | .rawEvents, _ | .pipelineRuns, _ => true
  | .recommendations, column => ["status", "delivered_at", "delivery_ref"].contains column
  | .users, column => ["last_event_at", "region_code", "cohort_key"].contains column
  | _, _ => false

/-- The UPDATE grants of `app_console`. -/
def consoleUpdates : Table → String → Bool
  | .eventTypeMappings, _ | .incentives, _ => true
  | .recommendations, column =>
      ["status", "reviewed_by", "reviewed_at", "review_note"].contains column
  | _, _ => false

/-- **What the roles may do**; nobody may DELETE. -/
def Role.privileges : Role → Privileges Table String
  | .appWorker =>
      { select := fun table => workerInserts.contains table ||
          [.recommendations, .tenants, .eventTypeMappings, .incentives].contains table
        insert := fun table => workerInserts.contains table || table = .recommendations
        update := workerUpdates
        delete := fun _ => false }
  | .appConsole =>
      { select := fun _ => true
        insert := fun table =>
          [.eventTypeMappings, .incentives, .experiments, .pipelineRuns, .auditLog].contains table
        update := consoleUpdates
        delete := fun _ => false }
  | .appReadonly =>
      { select := fun _ => true
        insert := fun _ => false
        update := fun _ _ => false
        delete := fun _ => false }

/-! ## Rows and sessions -/

variable {V ε α : Type}

/-- A row; `none` is NULL. -/
abbrev Row (V : Type) := String → Option V

/-- The values of the columns of a key, unless one is NULL. -/
def keyOf (columns : List String) (r : Row V) : Option (List V) := columns.mapM r

/-- **The schema**, under any constraints. -/
def schema (accepts : Table → Row V → Bool) (mayBecome : Table → Row V → Row V → Bool) :
    RowSecurity.Schema Table (Row V) V (List V) where
  secured table := rlsTables.contains table
  tenantOf r := r "tenant_id"
  keys table := table.keys.map keyOf
  accepts := accepts
  mayBecome := mayBecome

/-- **`tenant_session`** of an engine that connects as the role. -/
def tenantSession (role : Role) (tenantId : V) : Session Table V String :=
  ⟨role.privileges, some tenantId⟩

/-- An id that was drawn for the tenant. -/
def OwnId (mint : V → V) (tenantId : V) (r : Row V) : Prop := ∀ id ∈ r "id", mint id = tenantId

/-- A transaction on the database: whose, as which role, and what it runs. -/
structure Transaction (V ε α : Type) where
  role : Role
  tenantId : V
  script : Script Table (Row V) (List V) String ε α

/-- Its session and its script. -/
def Transaction.opened (x : Transaction V ε α) :
    Session Table V String × Script Table (Row V) (List V) String ε α :=
  (tenantSession x.role x.tenantId, x.script)

variable [DecidableEq V] {accepts : Table → Row V → Bool}
  {mayBecome : Table → Row V → Row V → Bool} {mint : V → V}

/-- **A run of transactions**, one after the other. -/
def playAll (accepts : Table → Row V → Bool) (mayBecome : Table → Row V → Row V → Bool)
    (history : List (Transaction V ε α)) (db : Database Table (Row V)) :
    List (Option V × Except ε α) × Database Table (Row V) :=
  RowSecurity.play (schema accepts mayBecome) (history.map Transaction.opened) db

/-! ## Tenants apart -/

omit [DecidableEq V] in
/-- Rows with the same key have its columns in common. -/
theorem eq_of_keyOf {columns : List String} {r r' : Row V} {values : List V}
    (h : keyOf columns r = some values) (h' : keyOf columns r' = some values) :
    ∀ c ∈ columns, ∃ v, r c = some v ∧ r' c = some v := by
  induction columns generalizing values with
  | nil => exact fun c hc => absurd hc List.not_mem_nil
  | cons a columns ih =>
      unfold keyOf at h h'
      rw [List.mapM_cons] at h h'
      obtain ⟨v, hv, h⟩ := Option.bind_eq_some_iff.mp h
      obtain ⟨vs, hvs, h⟩ := Option.bind_eq_some_iff.mp h
      obtain ⟨v', hv', h'⟩ := Option.bind_eq_some_iff.mp h'
      obtain ⟨vs', hvs', h'⟩ := Option.bind_eq_some_iff.mp h'
      obtain ⟨rfl, rfl⟩ := List.cons.inj (Option.some.inj (h.trans h'.symm))
      intro c hc
      rcases List.mem_cons.mp hc with rfl | hc
      · exact ⟨v, hv, hv'⟩
      · exact ih hvs hvs' c hc

/-- Every key of a secured table is an id, or the tenant is in it. -/
theorem tenant_mem_keys (table : Table) (hsecured : rlsTables.contains table) :
    ∀ columns ∈ table.keys, "tenant_id" ∈ columns ∨ columns = ["id"] := by
  revert hsecured
  cases table <;> decide

/-- **No two tenants have a key in common**, for no id is drawn for both. -/
theorem apart : RowSecurity.Apart (schema accepts mayBecome) (OwnId mint) := by
  intro table hsecured key hkey t t' r r' ht ht' hown hown' hsame
  obtain ⟨columns, hcolumns, rfl⟩ := List.mem_map.mp hkey
  obtain ⟨hsome, heq⟩ := Bool.and_eq_true_iff.mp hsame
  obtain ⟨values, hvalues⟩ := Option.isSome_iff_exists.mp hsome
  have hboth := eq_of_keyOf hvalues ((of_decide_eq_true heq).trans hvalues)
  rcases tenant_mem_keys table hsecured columns hcolumns with hmem | rfl
  · obtain ⟨v, hv, hv'⟩ := hboth _ hmem
    exact Option.some.inj (ht.symm.trans (hv.trans (hv'.symm.trans ht')))
  · obtain ⟨v, hv, hv'⟩ := hboth "id" List.mem_cons_self
    exact (hown v hv).symm.trans (hown' v hv')

omit [DecidableEq V] in
/-- **No role writes to `tenants` or `api_keys`.** -/
theorem writesSecured (role : Role) (tenantId : V) :
    (tenantSession role tenantId).WritesSecured (schema accepts mayBecome) := by
  intro table htable
  have hopen : table = .tenants ∨ table = .apiKeys := by
    revert htable
    show rlsTables.contains table = false → _
    cases table <;> decide
  rcases hopen with rfl | rfl <;> cases role <;> exact ⟨rfl, fun _ => rfl, rfl⟩

/-- **What the repositories write**: rows with ids drawn for the tenant, and
ids are left alone; conflicts are looked for on a key of the table. -/
def Draws (mint : V → V) (tenantId : V) : Statement Table (Row V) (List V) String → Prop
  | .select _ _ | .delete _ _ => True
  | .insert table rows onConflict => (∀ r ∈ rows, OwnId mint tenantId r) ∧
      match onConflict with
      | .fail => True
      | .doNothing key => ∃ columns ∈ table.keys, key = keyOf columns
      | .doUpdate key _ set =>
          (∃ columns ∈ table.keys, key = keyOf columns) ∧ ∀ r r', set r' r "id" = r' "id"
  | .update _ _ _ set => ∀ r, set r "id" = r "id"

/-- A row of the tenant's whose id was drawn for it. -/
theorem ownRow_of_visible {table : Table} {tenantId : V} {r : Row V}
    (hvisible : RowSecurity.visible (schema accepts mayBecome) (some tenantId) table r)
    (hown : OwnId mint tenantId r) :
    RowSecurity.OwnRow (schema accepts mayBecome) (OwnId mint) table r := by
  intro hsecured
  unfold RowSecurity.visible at hvisible
  rw [hsecured] at hvisible
  exact ⟨tenantId, by simpa using hvisible, hown⟩

/-- A row that is changed and stays the tenant's keeps its id. -/
theorem ownRow_of_id_eq {table : Table} {tenantId : V} {r r' : Row V} (hid : r' "id" = r "id")
    (hr : RowSecurity.OwnRow (schema accepts mayBecome) (OwnId mint) table r)
    (hvisible : RowSecurity.visible (schema accepts mayBecome) (some tenantId) table r)
    (hvisible' : RowSecurity.visible (schema accepts mayBecome) (some tenantId) table r') :
    RowSecurity.OwnRow (schema accepts mayBecome) (OwnId mint) table r' := by
  intro hsecured
  obtain ⟨t, ht, hown⟩ := hr hsecured
  unfold RowSecurity.visible at hvisible hvisible'
  rw [hsecured] at hvisible hvisible'
  have hvisible : (schema accepts mayBecome).tenantOf r = some tenantId := by simpa using hvisible
  obtain rfl := Option.some.inj (ht.symm.trans hvisible)
  refine ⟨t, by simpa using hvisible', fun id hmem => hown id ?_⟩
  rw [← hid]
  exact hmem

theorem proper_of_draws {tenantId : V} {statement : Statement Table (Row V) (List V) String}
    (h : Draws mint tenantId statement) :
    statement.Proper (schema accepts mayBecome) (some tenantId) (OwnId mint) := by
  have hkey : ∀ {table : Table} {key : Row V → Option (List V)},
      (∃ columns ∈ table.keys, key = keyOf columns) →
        key ∈ (schema accepts mayBecome).keys table := by
    rintro table key ⟨columns, hcolumns, rfl⟩
    exact List.mem_map_of_mem hcolumns
  cases statement with
  | select table condition => exact trivial
  | delete table condition => exact trivial
  | update table columns condition set =>
      exact fun r hr hvisible hvisible' => ownRow_of_id_eq (h r) hr hvisible hvisible'
  | insert table rows onConflict =>
      refine ⟨?_, fun r hr hvisible => ownRow_of_visible hvisible (h.1 r hr)⟩
      cases onConflict with
      | fail => exact trivial
      | doNothing key => exact hkey h.2
      | doUpdate key columns set =>
          exact ⟨hkey h.2.1, fun r r' _ hr' hvisible hvisible' =>
            ownRow_of_id_eq (h.2.2 r r') hr' hvisible hvisible'⟩

/-- The database before: rows of tenants have ids drawn for them. -/
def Drawn (mint : V → V) (db : Database Table (Row V)) : Prop :=
  ∀ table, rlsTables.contains table → ∀ r ∈ db table,
    ∃ t, r "tenant_id" = some t ∧ OwnId mint t r

/-- **Tenants are apart.** Whatever the transactions of the roles run, with
or without a `WHERE tenant_id`, a tenant's come to the same and leave it the
same rows as if there were no others, and `tenants` and `api_keys` stay as
they are. -/
theorem tenants_apart (history : List (Transaction V ε α)) (db : Database Table (Row V))
    (hdb : Drawn mint db)
    (hdraws : ∀ x ∈ history, x.script.All (Draws mint x.tenantId)) (t : V) :
    let all := playAll accepts mayBecome history db
    let alone := playAll accepts mayBecome (history.filter fun x => x.tenantId = t) db
    all.1.filter (fun x => x.1 = some t) = alone.1 ∧
      (∀ table, rlsTables.contains table →
        (all.2 table).filter (fun r => r "tenant_id" = some t) =
          (alone.2 table).filter fun r => r "tenant_id" = some t) ∧
      ∀ table, rlsTables.contains table = false → all.2 table = db table := by
  have hopened : (history.map Transaction.opened).filter (fun x => x.1.tenant = some t) =
      (history.filter fun x => x.tenantId = t).map Transaction.opened := by
    rw [List.filter_map]
    refine congrArg _ (List.filter_congr fun x _ => ?_)
    exact decide_eq_decide.mpr Option.some_inj
  have hwrites : ∀ x ∈ history.map Transaction.opened,
      x.1.WritesSecured (schema accepts mayBecome) := by
    intro x hx
    obtain ⟨y, -, rfl⟩ := List.mem_map.mp hx
    exact writesSecured y.role y.tenantId
  have hproper : ∀ x ∈ history.map Transaction.opened,
      x.2.All (Statement.Proper (schema accepts mayBecome) x.1.tenant (OwnId mint)) := by
    intro x hx
    obtain ⟨y, hy, rfl⟩ := List.mem_map.mp hx
    exact (hdraws y hy).imp fun _ => proper_of_draws
  have hview : RowSecurity.View (schema accepts mayBecome) (OwnId mint) t db db :=
    ⟨fun table r hr hsecured => hdb table hsecured r hr,
      fun table r hr hsecured => hdb table hsecured r hr, fun _ => rfl⟩
  obtain ⟨hresults, hafter⟩ := RowSecurity.play_view apart hwrites hproper hview
  rw [hopened] at hresults hafter
  refine ⟨hresults, ?_, fun table htable => RowSecurity.play_of_unsecured hwrites htable⟩
  intro table hsecured
  have hvisible : RowSecurity.visible (schema accepts mayBecome) (some t) table =
      fun r => decide (r "tenant_id" = some t) := by
    funext r
    unfold RowSecurity.visible
    rw [show (schema accepts mayBecome).secured table = true from hsecured]
    rfl
  rw [← hvisible]
  exact hafter.seen table

/-- A row of `raw_events` with its id and its tenant. -/
def sampleRow (id tenantId : ℕ) : Row ℕ := fun column =>
  if column = "id" then some id else if column = "tenant_id" then some tenantId else none

/-- One row is inserted. -/
def insertOne (id tenantId : ℕ) : Script Table (Row ℕ) (List ℕ) String Unit (List (Option ℕ)) :=
  .exec (.insert .rawEvents [sampleRow id tenantId] .fail) fun
    | .ok rows => .done (rows.map fun r => r "id")
    | .error _ => .fail ()

/-- `SELECT id FROM raw_events`, and no `WHERE`. -/
def selectIds : Script Table (Row ℕ) (List ℕ) String Unit (List (Option ℕ)) :=
  .exec (.select .rawEvents fun _ => true) fun
    | .ok rows => .done (rows.map fun r => r "id")
    | .error _ => .fail ()

theorem draws_insertOne {mint : ℕ → ℕ} {id tenantId : ℕ} (hid : mint id = tenantId) :
    (insertOne id tenantId).All (Draws mint tenantId) := by
  refine ⟨⟨?_, trivial⟩, fun rows => by cases rows <;> exact trivial⟩
  intro r hr v hv
  obtain rfl := List.mem_singleton.mp hr
  obtain rfl := Option.some.inj hv
  exact hid

theorem draws_selectIds {mint : ℕ → ℕ} {tenantId : ℕ} : selectIds.All (Draws mint tenantId) :=
  ⟨trivial, fun rows => by cases rows <;> exact trivial⟩

/-- The worker of two tenants inserts a row each, the console may not, and
a reader that asks for every row gets its tenant's. -/
theorem tenants_apart_two :
    (playAll (fun _ _ => true) (fun _ _ _ => true)
        [⟨.appWorker, 0, insertOne 2 0⟩, ⟨.appWorker, 1, insertOne 3 1⟩,
          ⟨.appConsole, 0, insertOne 4 0⟩, ⟨.appReadonly, 0, selectIds⟩]
        fun _ => []).1.filter (fun x => x.1 = some 0) =
      [(some 0, .ok [some 2]), (some 0, .error ()), (some 0, .ok [some 2])] := by
  have hdb : Drawn (fun id => id % 2) (fun _ : Table => ([] : List (Row ℕ))) :=
    fun _ _ r hr => absurd hr List.not_mem_nil
  refine (tenants_apart _ _ hdb ?_ 0).1.trans rfl
  intro x hx
  simp only [List.mem_cons, List.not_mem_nil, or_false] at hx
  rcases hx with rfl | rfl | rfl | rfl
  · exact draws_insertOne rfl
  · exact draws_insertOne rfl
  · exact draws_insertOne rfl
  · exact draws_selectIds

end TenantSession

end RetentionEngine
