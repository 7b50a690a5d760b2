import Mathlib
import RetentionEngine.Common.Keyed
import RetentionEngine.Common.Lists
import RetentionEngine.Common.Run
import RetentionEngine.IngestMapping.Normalize

/-!
# Onboarding by configuration

The mappings the console posts, the table they are kept in, and the config
that the worker makes of a tenant's rows when a run starts. Requests come past
the console's gate and are served one at a time. The table is unique in the
tenant and the client event type; that alone makes it a map, and `lookup`
reads the map (`lookup_onboarded`).
-/

namespace RetentionEngine

open Python

namespace CanonicalEventType

/-- The value of a member. -/
def value : CanonicalEventType → Text
  | .payment => text "PAYMENT"
  | .p2pTransfer => text "P2P_TRANSFER"
  | .topup => text "TOPUP"
  | .withdrawal => text "WITHDRAWAL"
  | .splitBillCreated => text "SPLIT_BILL_CREATED"
  | .splitBillSettled => text "SPLIT_BILL_SETTLED"
  | .recurringPayment => text "RECURRING_PAYMENT"
  | .loanDisbursed => text "LOAN_DISBURSED"
  | .loanRepayment => text "LOAN_REPAYMENT"
  | .loanRepaymentLate => text "LOAN_REPAYMENT_LATE"
  | .sessionOpen => text "SESSION_OPEN"
  | .featureUsed => text "FEATURE_USED"
  | .supportContact => text "SUPPORT_CONTACT"

/-- The members in order. -/
def members : List CanonicalEventType :=
  [.payment, .p2pTransfer, .topup, .withdrawal, .splitBillCreated, .splitBillSettled,
    .recurringPayment, .loanDisbursed, .loanRepayment, .loanRepaymentLate, .sessionOpen,
    .featureUsed, .supportContact]

/-- `CanonicalEventType(value)`; `none` is a `ValueError`. -/
def ofValue (value : Text) : Option CanonicalEventType := members.find? fun c => c.value = value

theorem ofValue_value (c : CanonicalEventType) : ofValue c.value = some c := by
  cases c <;> decide +kernel

end CanonicalEventType

namespace IngestMapping

/-- A row of `event_type_mappings`, less its `id` and `created_at`. -/
structure MappingRow where
  tenantId : Uuid
  clientEventType : Text
  canonicalEventType : Text
  amountFieldPath : Text
  counterpartyFieldPath : Option Text
  occurredAtFieldPath : Text
  active : Bool

/-- What `uq_event_type_mappings` is on. -/
def MappingRow.key (row : MappingRow) : Uuid × Text := (row.tenantId, row.clientEventType)

/-- **The table.** -/
structure MappingTable where
  rows : List MappingRow
  unique : (rows.map MappingRow.key).Nodup

/-- A tenant, as far as the worker reads it. -/
structure Tenant where
  id : Uuid
  slug : Text
  profileType : Text
  slug_encodable : Encodable slug
  profileType_encodable : Encodable profileType

/-- **The database**: the tenants, and the order its collation puts rows in. -/
structure Database where
  tenants : List Tenant
  orderByClientEventType : List MappingRow → List MappingRow
  perm : ∀ rows, (orderByClientEventType rows).Perm rows

/-- `MappingIn`. -/
structure MappingIn where
  clientEventType : Text
  canonicalEventType : Text
  amountFieldPath : Text
  counterpartyFieldPath : Option Text
  occurredAtFieldPath : Text

variable (lib : Library) (db : Database)

/-- **`EventTypeMapping(...)`**; `none` is a `ValidationError`. -/
def eventTypeMapping (clientEventType canonicalEventType : Text)
    (amountFieldPath counterpartyFieldPath : Option Text) (occurredAtFieldPath : Text)
    (active : Bool) : Option EventTypeMapping :=
  if lib.acceptsStr clientEventType ∧ amountFieldPath.all lib.acceptsStr ∧
      counterpartyFieldPath.all lib.acceptsStr ∧ lib.acceptsStr occurredAtFieldPath then
    (CanonicalEventType.ofValue canonicalEventType).map fun canonical =>
      ⟨clientEventType, canonical, amountFieldPath, counterpartyFieldPath, occurredAtFieldPath,
        active⟩
  else none

/-! ## The console -/

/-- What a handler raises. -/
inductive PostError
  | validationFailed
  /-- An error of the database or the repository, which no handler catches. -/
  | internal

/-- `list_mappings` of the repository. -/
def listMappings (tenantId : Uuid) (activeOnly : Bool) (t : MappingTable) : List MappingRow :=
  db.orderByClientEventType
    (t.rows.filter fun row => row.tenantId = tenantId ∧ (activeOnly → row.active))

/-- The row of a mapping; a `None` amount path is not stored. -/
def rowOf (tenantId : Uuid) (validated : EventTypeMapping) : Option MappingRow :=
  validated.amountFieldPath.map fun amountFieldPath =>
    { tenantId := tenantId
      clientEventType := validated.clientEventType
      canonicalEventType := validated.canonicalEventType.value
      amountFieldPath := amountFieldPath
      counterpartyFieldPath := validated.counterpartyFieldPath
      occurredAtFieldPath := validated.occurredAtFieldPath
      active := true }

/-- The flush: the database holds on to `uq_event_type_mappings`. -/
def flush (rows : List MappingRow) : Option MappingTable :=
  if h : (rows.map MappingRow.key).Nodup then some ⟨rows, h⟩ else none

/-- **`upsert_mapping`**; `none` is an exception. -/
def upsertMapping (tenantId : Uuid) (validated : EventTypeMapping) (t : MappingTable) :
    Option (MappingRow × MappingTable) := do
  let row ← rowOf tenantId validated
  let rows ← match t.rows.filter fun r => r.key = row.key with
    | [] => some (t.rows ++ [row])
    | [_] => some (t.rows.map fun r => if r.key = row.key then row else r)
    | _ => none
  let t' ← flush rows
  return (row, t')

/-- What `create_mapping` makes of a body. -/
def validated (body : MappingIn) : Option EventTypeMapping :=
  eventTypeMapping lib body.clientEventType body.canonicalEventType (some body.amountFieldPath)
    body.counterpartyFieldPath body.occurredAtFieldPath true

/-- **`create_mapping`**, in the session of a tenant; `commits` is whether
the database goes along. -/
def createMapping (tenantId : Uuid) (body : MappingIn) (commits : Bool) (t : MappingTable) :
    Except PostError MappingRow × MappingTable :=
  match validated lib body with
  | none => (.error .validationFailed, t)
  | some validated =>
      match upsertMapping tenantId validated t with
      | none => (.error .internal, t)
      | some (row, t') => if commits then (.ok row, t') else (.error .internal, t)

/-- A request behind the console's gate. -/
inductive MappingRequest
  | createMapping (tenantId : Uuid) (body : MappingIn) (commits : Bool)
  | listMappings (tenantId : Uuid)

/-- What is answered. -/
inductive MappingResponse
  | created (row : MappingRow)
  | listed (rows : List MappingRow)

/-- **One request is served.** -/
def serveMappings (t : MappingTable) :
    MappingRequest → Except PostError MappingResponse × MappingTable
  | .createMapping tenantId body commits =>
      let (response, t') := createMapping lib tenantId body commits t
      (response.map .created, t')
  | .listMappings tenantId => (.ok (.listed (listMappings db tenantId false t)), t)

/-- The step relation. -/
def ServesMappings (t : MappingTable) (rq : MappingRequest) (t' : MappingTable) : Prop :=
  (serveMappings lib db t rq).2 = t'

/-! ## The worker -/

/-- `TenantRecord`. -/
structure TenantRecord where
  tenantId : Uuid
  slug : Text
  profileType : Text
  mapping : List MappingRow

/-- **`get_tenant`**; `none` is a `LookupError`. -/
def getTenant (tenantId : Uuid) (t : MappingTable) : Option TenantRecord :=
  (db.tenants.find? fun tenant => tenant.id = tenantId).map fun tenant =>
    ⟨tenant.id, tenant.slug, tenant.profileType, listMappings db tenantId true t⟩

/-- `EventTypeMapping(**row)`. -/
def MappingRow.toMapping (row : MappingRow) : Option EventTypeMapping :=
  eventTypeMapping lib row.clientEventType row.canonicalEventType (some row.amountFieldPath)
    row.counterpartyFieldPath row.occurredAtFieldPath row.active

/-- **`TenantMappingConfig.from_dict`**; `none` is a `ValidationError`, of a
field or of `_no_duplicates`. -/
def fromDict (data : TenantRecord) : Option TenantMappingConfig :=
  if lib.acceptsStr data.slug ∧ lib.acceptsStr data.profileType then do
    let mappings ← data.mapping.mapM (MappingRow.toMapping lib)
    if h : (mappings.map EventTypeMapping.clientEventType).Nodup then
      return ⟨mappings, [text "region_code", text "cohort_key"], h⟩
    else none
  else none

/-- The config a run starts with. -/
def configOf (tenantId : Uuid) (t : MappingTable) : Option TenantMappingConfig :=
  (getTenant db tenantId t).bind (fromDict lib)

/-! ## What it all means -/

/-- What a tenant's client event type is mapped to. -/
abbrev Meaning := Uuid → Text → Option EventTypeMapping

/-- **The meaning of a table**: that of its active rows. -/
def MappingTable.meaning (t : MappingTable) : Meaning := fun tenantId clientEventType =>
  (t.rows.find? fun row => row.key = (tenantId, clientEventType) ∧ row.active).bind
    (MappingRow.toMapping lib)

/-- **What a request does to a meaning**: a post that goes through replaces
what the type was mapped to. -/
def MappingRequest.apply (rq : MappingRequest) (M : Meaning) : Meaning :=
  match rq with
  | .createMapping tenantId body true =>
      match validated lib body with
      | some m => fun tenantId' clientEventType =>
          if (tenantId', clientEventType) = (tenantId, m.clientEventType) then some m
          else M tenantId' clientEventType
      | none => M
  | _ => M

/-- Every active row can be read. -/
def MappingTable.Loads (t : MappingTable) : Prop :=
  ∀ row ∈ t.rows, row.active → ∃ m, row.toMapping lib = some m

variable {lib db} {t t' t₀ : MappingTable} {row : MappingRow} {rows : List MappingRow}
  {m : EventTypeMapping} {tenantId : Uuid} {clientEventType : Text} {rq : MappingRequest}
  {tr : List (Transition MappingTable MappingRequest)} {M : Meaning}

/-! ## Rows and mappings -/

theorem of_eventTypeMapping {client canonical occurredAt : Text} {amount counterparty : Option Text}
    {active : Bool}
    (h : eventTypeMapping lib client canonical amount counterparty occurredAt active = some m) :
    m.clientEventType = client ∧ m.amountFieldPath = amount ∧ m.active = active ∧
      eventTypeMapping lib client m.canonicalEventType.value amount counterparty occurredAt
        active = some m ∧ m.counterpartyFieldPath = counterparty ∧
      m.occurredAtFieldPath = occurredAt := by
  unfold eventTypeMapping at h
  split at h
  · rename_i haccepts
    obtain ⟨c, -, rfl⟩ := Option.map_eq_some_iff.mp h
    refine ⟨rfl, rfl, rfl, ?_, rfl, rfl⟩
    unfold eventTypeMapping
    rw [if_pos haccepts, CanonicalEventType.ofValue_value]
    rfl
  · cases h

theorem of_toMapping (h : row.toMapping lib = some m) :
    m.clientEventType = row.clientEventType ∧ m.active = row.active := by
  obtain ⟨hclient, -, hactive, -⟩ := of_eventTypeMapping h
  exact ⟨hclient, hactive⟩

/-- **What is written is read back.** -/
theorem toMapping_rowOf {body : MappingIn} (h : validated lib body = some m) :
    ∃ row, rowOf tenantId m = some row ∧ row.key = (tenantId, m.clientEventType) ∧
      row.active = true ∧ row.toMapping lib = some m := by
  obtain ⟨hclient, hamount, hactive, hback, hcounterparty, hoccurredAt⟩ := of_eventTypeMapping h
  refine ⟨⟨tenantId, m.clientEventType, m.canonicalEventType.value, body.amountFieldPath,
    m.counterpartyFieldPath, m.occurredAtFieldPath, true⟩, ?_, rfl, rfl, ?_⟩
  · unfold rowOf
    rw [hamount]
    rfl
  · unfold MappingRow.toMapping
    rw [hclient, hcounterparty, hoccurredAt]
    exact hback

/-- **The meaning, by rows.** -/
theorem meaning_eq_some :
    t.meaning lib tenantId clientEventType = some m ↔ ∃ row ∈ t.rows,
      row.key = (tenantId, clientEventType) ∧ row.active = true ∧ row.toMapping lib = some m := by
  unfold MappingTable.meaning
  rw [Option.bind_eq_some_iff]
  refine exists_congr fun row => ?_
  rw [find?_eq_some_iff_of_nodup t.unique fun _ h => h.1]
  exact and_assoc.trans (and_congr_right fun _ => and_assoc)

/-! ## Upserts -/

theorem flush_eq (h : (rows.map MappingRow.key).Nodup) : flush rows = some ⟨rows, h⟩ := dif_pos h

/-- **What an upsert leaves**: its row, and the rows with another key. -/
theorem upsertMapping_rows (hrow : rowOf tenantId m = some row) :
    ∃ t', upsertMapping tenantId m t = some (row, t') ∧
      ∀ r, r ∈ t'.rows ↔ r = row ∨ r ∈ t.rows ∧ r.key ≠ row.key := by
  unfold upsertMapping
  rw [hrow, Option.bind_eq_bind, Option.bind_some]
  cases hfound : t.rows.filter fun r => decide (r.key = row.key) with
  | nil =>
      -- no row has the key: the new one is added
      have hother : ∀ r ∈ t.rows, r.key ≠ row.key := fun r hr heq =>
        List.filter_eq_nil_iff.mp hfound r hr (decide_eq_true heq)
      have hnodup := nodup_map_append t.unique hother
      refine ⟨⟨t.rows ++ [row], hnodup⟩, ?_, fun r => ?_⟩
      · show (flush (t.rows ++ [row])).bind _ = _
        rw [flush_eq hnodup]
        rfl
      · rw [List.mem_append, List.mem_singleton, or_comm]
        exact or_congr_right ⟨fun hr => ⟨hr, hother r hr⟩, And.left⟩
  | cons existing rest =>
      -- one row has it, and no second: it is replaced
      obtain ⟨rfl, hexisting, hkey⟩ := of_filter_key_eq_cons t.unique hfound
      have hnodup : ((t.rows.map fun r => if r.key = row.key then row else r).map
          MappingRow.key).Nodup := by
        rw [map_replace]
        exact t.unique
      refine ⟨⟨_, hnodup⟩, ?_, fun r => mem_replace hexisting hkey⟩
      show (flush _).bind _ = _
      rw [flush_eq hnodup]
      rfl

theorem apply_createMapping {body : MappingIn} (h : validated lib body = some m) :
    (MappingRequest.createMapping tenantId body true).apply lib M = fun tenantId' type =>
      if (tenantId', type) = (tenantId, m.clientEventType) then some m else M tenantId' type := by
  unfold MappingRequest.apply
  dsimp only
  rw [h]

/-- **A post that goes through.** -/
theorem createMapping_commits {body : MappingIn} (h : validated lib body = some m)
    (hloads : t.Loads lib) :
    (createMapping lib tenantId body true t).2.Loads lib ∧
      (createMapping lib tenantId body true t).2.meaning lib =
        (MappingRequest.createMapping tenantId body true).apply lib (t.meaning lib) := by
  obtain ⟨row, hrow, hkey, hactive, hread⟩ : ∃ row, rowOf tenantId m = some row ∧
      row.key = (tenantId, m.clientEventType) ∧ row.active = true ∧
      row.toMapping lib = some m := toMapping_rowOf h
  obtain ⟨t', ht', hrows⟩ := upsertMapping_rows (t := t) hrow
  have htable : (createMapping lib tenantId body true t).2 = t' := by
    unfold createMapping
    rw [h]
    dsimp only
    rw [ht']
    rfl
  rw [htable]
  constructor
  · intro r hr hr_active
    rcases (hrows r).mp hr with rfl | ⟨hr, -⟩
    · exact ⟨m, hread⟩
    · exact hloads r hr hr_active
  · rw [apply_createMapping h]
    funext tenantId' type
    refine Option.ext fun m' => ?_
    rw [meaning_eq_some]
    split
    · -- at the key that was posted, only the new row counts
      rename_i heq
      rw [heq, ← hkey]
      constructor
      · rintro ⟨r, hr, hr_key, -, hr_read⟩
        rcases (hrows r).mp hr with rfl | ⟨-, hne⟩
        · exact hread.symm.trans hr_read
        · exact absurd hr_key hne
      · intro hm
        exact ⟨row, (hrows row).mpr (Or.inl rfl), rfl, hactive, hread.trans hm⟩
    · -- at any other key, the rows are those of before
      rename_i hne
      rw [meaning_eq_some]
      refine exists_congr fun r => and_congr_left fun hr_rest => ?_
      rw [hrows]
      have hr_key : r.key ≠ row.key := fun heq => hne (hr_rest.1.symm.trans (heq.trans hkey))
      have hr_row : r ≠ row := fun heq => hr_key (heq ▸ rfl)
      simp [hr_key, hr_row]

/-- **One request**: the table keeps up with the meaning. -/
theorem serve_meaning (hloads : t.Loads lib) (h : ServesMappings lib db t rq t') :
    t'.Loads lib ∧ t'.meaning lib = rq.apply lib (t.meaning lib) := by
  obtain rfl := h
  cases rq with
  | listMappings tenantId => exact ⟨hloads, rfl⟩
  | createMapping tenantId body commits =>
      have htable : (serveMappings lib db t (.createMapping tenantId body commits)).2 =
          (createMapping lib tenantId body commits t).2 := rfl
      rw [htable]
      cases hvalid : validated lib body with
      | none =>
          have hsame : (createMapping lib tenantId body commits t).2 = t := by
            unfold createMapping
            rw [hvalid]
          rw [hsame]
          refine ⟨hloads, ?_⟩
          unfold MappingRequest.apply
          cases commits with
          | false => rfl
          | true =>
              dsimp only
              rw [hvalid]
      | some m =>
          cases commits with
          | true => exact createMapping_commits hvalid hloads
          | false =>
              have hsame : (createMapping lib tenantId body false t).2 = t := by
                unfold createMapping
                rw [hvalid]
                dsimp only
                split
                · rfl
                · rfl
              rw [hsame]
              exact ⟨hloads, rfl⟩

/-! ## The config -/

/-- The mappings of rows that can be read. -/
theorem exists_mapM_toMapping (h : ∀ row ∈ rows, ∃ m, row.toMapping lib = some m) :
    ∃ l, rows.mapM (MappingRow.toMapping lib) = some l ∧
      (∀ m, m ∈ l ↔ ∃ row ∈ rows, row.toMapping lib = some m) ∧
      l.map EventTypeMapping.clientEventType = rows.map MappingRow.clientEventType := by
  obtain ⟨l, hl⟩ := exists_mapM_some h
  have hall := forall₂_of_mapM hl
  refine ⟨l, hl, fun m => ⟨fun hm => exists_left_of_forall₂ hall hm, ?_⟩, ?_⟩
  · rintro ⟨row, hrow, hread⟩
    obtain ⟨m', hm', hread'⟩ := exists_right_of_forall₂ hall hrow
    rw [hread] at hread'
    exact Option.some.inj hread' ▸ hm'
  · exact map_eq_map_of_forall₂ hall fun _ _ h => (of_toMapping h).1

/-- The rows the worker is given. -/
theorem mem_listMappings :
    row ∈ listMappings db tenantId true t ↔
      row ∈ t.rows ∧ row.tenantId = tenantId ∧ row.active = true := by
  unfold listMappings
  rw [(db.perm _).mem_iff, List.mem_filter, decide_eq_true_eq]
  simp

theorem nodup_listMappings :
    ((listMappings db tenantId true t).map MappingRow.clientEventType).Nodup := by
  have hperm := db.perm (t.rows.filter fun row => row.tenantId = tenantId ∧ (true → row.active))
  refine ((hperm.map MappingRow.clientEventType).nodup_iff).mpr ?_
  refine List.Nodup.map_on ?_ ((t.unique.of_map _).filter _)
  intro r hr r' hr' heq
  obtain ⟨hr, hof⟩ := List.mem_filter.mp hr
  obtain ⟨hr', hof'⟩ := List.mem_filter.mp hr'
  have htenant := (of_decide_eq_true hof).1.trans (of_decide_eq_true hof').1.symm
  exact List.inj_on_of_nodup_map t.unique hr hr' (Prod.ext htenant heq)

/-- What `lookup` says of a meaning. -/
def found (lib : Library) (clientEventType : Text) : Option EventTypeMapping →
    Except Raised EventTypeMapping
  | some m => .ok m
  | none =>
      .error (.mappingError (text "unknown event type " ++ reprText lib.unicode clientEventType))

/-- **The config reads the meaning.** -/
theorem configOf_eq (hloads : t.Loads lib) (htenant : ∃ tenant ∈ db.tenants, tenant.id = tenantId) :
    ∃ config, configOf lib db tenantId t = some config ∧ ∀ clientEventType,
      config.lookup lib clientEventType =
        found lib clientEventType (t.meaning lib tenantId clientEventType) := by
  have hreads : ∀ row ∈ listMappings db tenantId true t, ∃ m, row.toMapping lib = some m :=
    fun row hrow => by
      obtain ⟨hmem, -, hactive⟩ := mem_listMappings.mp hrow
      exact hloads row hmem hactive
  obtain ⟨mappings, hmappings, hmem, hkeys⟩ := exists_mapM_toMapping hreads
  have hnodup : (mappings.map EventTypeMapping.clientEventType).Nodup :=
    hkeys ▸ nodup_listMappings
  have hfind : (db.tenants.find? fun tenant => tenant.id = tenantId).isSome := by
    rw [List.find?_isSome]
    obtain ⟨tenant, hin, hid⟩ := htenant
    exact ⟨tenant, hin, decide_eq_true hid⟩
  obtain ⟨tenant, hfound⟩ := Option.isSome_iff_exists.mp hfind
  refine ⟨⟨mappings, [text "region_code", text "cohort_key"], hnodup⟩, ?_, fun type => ?_⟩
  · unfold configOf getTenant
    rw [hfound]
    have haccepts : lib.acceptsStr tenant.slug ∧ lib.acceptsStr tenant.profileType :=
      ⟨lib.acceptsStr_of_encodable _ tenant.slug_encodable,
        lib.acceptsStr_of_encodable _ tenant.profileType_encodable⟩
    show fromDict lib
      ⟨tenant.id, tenant.slug, tenant.profileType, listMappings db tenantId true t⟩ = _
    unfold fromDict
    rw [if_pos haccepts, hmappings]
    exact dif_pos hnodup
  · have hmeaning : (mappings.find? fun m => m.clientEventType = type) =
        t.meaning lib tenantId type := by
      -- the collation may order the rows as it likes: a type is had once
      refine Option.ext fun m => ?_
      rw [find?_eq_some_iff_of_nodup hnodup fun _ h => h, hmem, meaning_eq_some]
      constructor
      · rintro ⟨⟨row, hrow, hread⟩, hkey⟩
        obtain ⟨hin, htenant, hactive⟩ := mem_listMappings.mp hrow
        exact ⟨row, hin, Prod.ext htenant ((of_toMapping hread).1.symm.trans hkey), hactive, hread⟩
      · rintro ⟨row, hin, hkey, hactive, hread⟩
        obtain ⟨htenant, htype⟩ := Prod.ext_iff.mp hkey
        exact ⟨⟨row, mem_listMappings.mpr ⟨hin, htenant, hactive⟩, hread⟩,
          (of_toMapping hread).1.trans htype⟩
    unfold TenantMappingConfig.lookup
    dsimp only
    rw [hmeaning]
    cases hm : t.meaning lib tenantId type with
    | none => rfl
    | some m =>
        obtain ⟨row, -, -, hactive, hread⟩ := meaning_eq_some.mp hm
        exact if_pos ((of_toMapping hread).2.trans hactive)

/-! ## Whole runs -/

/-- **Onboarding is inserting rows**: after any requests of any tenants, in
any order, the worker's config loads for every tenant, and `lookup` finds for
a client event type what the last post for it that went through says; what
the table was seeded with, if none did; and else the type is unknown. -/
theorem lookup_onboarded (hrun : Run (ServesMappings lib db) t₀ tr t) (hseed : t₀.Loads lib)
    (htenant : ∃ tenant ∈ db.tenants, tenant.id = tenantId) :
    ∃ config, configOf lib db tenantId t = some config ∧ ∀ clientEventType,
      config.lookup lib clientEventType = found lib clientEventType
        ((tr.foldl (fun M t => t.act.apply lib M) (t₀.meaning lib)) tenantId clientEventType) := by
  have hinv : t.Loads lib ∧
      t.meaning lib = tr.foldl (fun M t => t.act.apply lib M) (t₀.meaning lib) := by
    refine hrun.history (G := fun _ _ => True) (P := fun tr t => t.Loads lib ∧
      t.meaning lib = tr.foldl (fun M t => t.act.apply lib M) (t₀.meaning lib))
      (fun _ _ => trivial) ⟨hseed, rfl⟩ fun tr s rq s' _ hs hstep _ => ?_
    obtain ⟨hloads, hmeaning⟩ := serve_meaning hs.1 hstep
    refine ⟨hloads, ?_⟩
    rw [List.foldl_append, hmeaning, hs.2]
    rfl
  obtain ⟨config, hconfig, hlookup⟩ := configOf_eq hinv.1 htenant
  refine ⟨config, hconfig, fun type => ?_⟩
  rw [hlookup, hinv.2]

section Examples

/-- An interpreter of ASCII, without dates. -/
def asciiLibrary : Library where
  unicode := ⟨fun _ => false, fun _ => none, fun _ _ => rfl⟩
  maxDigits := 4300
  fromisoformat _ := none
  hmacSha256 _ _ := ""
  acceptsStr := fun s => decide (Encodable s)
  acceptsStr_of_encodable _ h := decide_eq_true h

/-- A tenant. -/
def testWallet : Tenant :=
  ⟨1, text "onboarded-wallet", text "EWALLET", by decide +kernel, by decide +kernel⟩

/-- A database that keeps its rows in order. -/
def testDatabase : Database := ⟨[testWallet], id, fun _ => .refl _⟩

/-- A transfer, mapped to an event type. -/
def testMapping (canonicalEventType : Text) : MappingIn where
  clientEventType := text "wallet.transfer.sent"
  canonicalEventType := canonicalEventType
  amountFieldPath := text "payload.amount"
  counterpartyFieldPath := some (text "payload.recipient_ref")
  occurredAtFieldPath := text "occurred_at"

/-- Posted twice, the second time by another tenant as well; a post of an
unknown type is refused. -/
def testPosts : List MappingRequest :=
  [.createMapping 1 (testMapping (text "PAYMENT")) true,
    .createMapping 2 (testMapping (text "TOPUP")) true,
    .createMapping 1 (testMapping (text "P2P_TRANSFER")) true,
    .createMapping 1 (testMapping (text "TRANSFER")) true]

theorem lookup_onboarded_transfer : ∃ t config,
    configOf asciiLibrary testDatabase 1 t = some config ∧
      config.lookup asciiLibrary (text "wallet.transfer.sent") =
        .ok ⟨text "wallet.transfer.sent", .p2pTransfer, some (text "payload.amount"),
          some (text "payload.recipient_ref"), text "occurred_at", true⟩ := by
  have hrun : ∃ tr t, Run (ServesMappings asciiLibrary testDatabase) ⟨[], List.nodup_nil⟩ tr t ∧
      tr.map Transition.act = testPosts :=
    ⟨_, _, (((Run.nil.snoc rfl).snoc rfl).snoc rfl).snoc rfl, rfl⟩
  obtain ⟨tr, t, hrun, hacts⟩ := hrun
  have hseed : MappingTable.Loads asciiLibrary ⟨[], List.nodup_nil⟩ := fun row hrow => by
    cases hrow
  obtain ⟨config, hconfig, hlookup⟩ := lookup_onboarded hrun hseed
    ⟨testWallet, List.mem_singleton_self _, rfl⟩
  refine ⟨t, config, hconfig, ?_⟩
  rw [hlookup, ← List.foldl_map (f := Transition.act) (g := fun M rq =>
    MappingRequest.apply asciiLibrary rq M), hacts]
  decide +kernel

end Examples

end IngestMapping

end RetentionEngine
