import RetentionEngine.IngestMapping.Normalize
import RetentionEngine.Schema.Events

/-!
# Posting events

`POST /v1/events` and `POST /v1/events:batch` of `api.routers.ingest`, past
the API key and the rate limiter, on the tables of the tenant. A `str`
field of pydantic takes a text and nothing else; each INSERT draws a new
id, and fails or not as a function of its row.
-/

namespace RetentionEngine

namespace Api

open Python
open IngestMapping (Body)

/-! ## Validation -/

/-- The first error of a `ValidationError`. -/
structure FieldError where
  loc : List Text
  msg : Text
  deriving DecidableEq, Repr

/-- `_first_error`. -/
def firstError (e : FieldError) : Text :=
  let location := (text ".").intercalate e.loc
  (if location = [] then text "body" else location) ++ text ": " ++ e.msg

/-- `RawEventIn`. -/
structure RawEventIn where
  clientEventId : Text
  eventType : Text
  occurredAt : Text
  userRef : Text
  userAttributes : Option (List (Text × Text))
  payload : Body

/-- A `str` field. -/
def strField (raw : Body) (name : String) : Except FieldError Text :=
  match Json.get? raw (text name) with
  | some (.str s) => .ok s
  | some _ => .error ⟨[text name], text "Input should be a valid string"⟩
  | none => .error ⟨[text name], text "Field required"⟩

/-- One entry of `user_attributes`. -/
def attributeEntry : Text × Json → Except FieldError (Text × Text)
  | (k, .str s) => .ok (k, s)
  | (k, _) => .error ⟨[text "user_attributes", k], text "Input should be a valid string"⟩

/-- `user_attributes`, `None` by default. -/
def userAttributesField (raw : Body) : Except FieldError (Option (List (Text × Text))) :=
  match Json.get? raw (text "user_attributes") with
  | none | some .null => .ok none
  | some (.dict d) => (d.mapM attributeEntry).map some
  | some _ => .error ⟨[text "user_attributes"], text "Input should be a valid dictionary"⟩

/-- `payload`, empty by default. -/
def payloadField (raw : Body) : Except FieldError Body :=
  match Json.get? raw (text "payload") with
  | none => .ok []
  | some (.dict d) => .ok d
  | some _ => .error ⟨[text "payload"], text "Input should be a valid dictionary"⟩

/-- **What the endpoints are given**: whether `datetime.fromisoformat`
takes a text, whether the INSERT of a row fails, and the size limit. -/
structure Env where
  fromisoformat : Text → Bool
  insertFails : Text → Body → Bool
  ingestMaxBatchSize : ℤ

variable (env : Env)

/-- `occurred_at` with its validator. -/
def occurredAtField (raw : Body) : Except FieldError Text := do
  let v ← strField raw "occurred_at"
  if env.fromisoformat v then .ok v
  else .error ⟨[text "occurred_at"],
    text "Value error, occurred_at is not a valid RFC 3339 timestamp"⟩

/-- `RawEventIn.model_validate`: the fields in their order. -/
def modelValidate (raw : Body) : Except FieldError RawEventIn := do
  let clientEventId ← strField raw "client_event_id"
  let eventType ← strField raw "event_type"
  let occurredAt ← occurredAtField env raw
  let userRef ← strField raw "user_ref"
  let userAttributes ← userAttributesField raw
  let payload ← payloadField raw
  .ok ⟨clientEventId, eventType, occurredAt, userRef, userAttributes, payload⟩

/-- `model_dump(mode="json")`. -/
def modelDump (event : RawEventIn) : Body :=
  [(text "client_event_id", .str event.clientEventId), (text "event_type", .str event.eventType),
    (text "occurred_at", .str event.occurredAt), (text "user_ref", .str event.userRef),
    (text "user_attributes", match event.userAttributes with
      | none => .null
      | some l => .dict (l.map fun e => (e.1, .str e.2))),
    (text "payload", .dict event.payload)]

/-! ## The insert -/

/-- A text as the database has it. -/
def stored (s : Text) : String := String.ofList (s.map fun c => Char.ofNat c.val)

/-- The INSERT of the event goes through: its id can be encoded, and the
database takes the row. -/
def Storable (event : RawEventIn) : Prop :=
  Encodable event.clientEventId ∧ env.insertFails event.clientEventId (modelDump event) = false

instance : DecidablePred (Storable env) := fun _ => inferInstanceAs (Decidable (_ ∧ _))

/-- `insert_raw_event`: the id of the row, whether it was there before, and
the tables; `none` is an INSERT that fails. -/
def insertRawEvent (t : EventTables Body) (newRowId : Uuid) (event : RawEventIn) :
    Option ((Uuid × Bool) × EventTables Body) :=
  if Storable env event then
    let existing := t.getRawEventIdByClientId (stored event.clientEventId)
    some ((existing.getD newRowId, existing.isSome),
      t.insertRawEvent newRowId (stored event.clientEventId) (modelDump event))
  else none

/-! ## The endpoints -/

/-- What leaves an endpoint as an exception. -/
inductive ApiError
  | validationFailed (message : Text)
  | internal
  | payloadTooLarge
  /-- The `ValidationError` of a `RejectedEvent`. -/
  | rejectedEvent
  deriving DecidableEq, Repr

/-- `EventAccepted`. -/
structure EventAccepted where
  rawEventId : Uuid
  duplicate : Bool
  deriving DecidableEq, Repr

/-- **`post_event`**, with the body validated as the framework does. -/
def postEvent (t : EventTables Body) (newRowId : Uuid) (raw : Body) :
    Except ApiError EventAccepted × EventTables Body :=
  match modelValidate env raw with
  | .error e => (.error (.validationFailed (firstError e)), t)
  | .ok event =>
      match insertRawEvent env t newRowId event with
      | none => (.error .internal, t)
      | some ((rawEventId, duplicate), t) => (.ok ⟨rawEventId, duplicate⟩, t)

/-- `RejectedEvent`. -/
structure RejectedEvent where
  index : ℕ
  clientEventId : Option Text
  code : String
  message : Text
  deriving DecidableEq, Repr

/-- The constructor of `RejectedEvent`, with `client_event_id: str | None`;
`none` is a `ValidationError`. -/
def rejectedEvent (index : ℕ) (clientEventId : Json) (code : String) (message : Text) :
    Option RejectedEvent :=
  match clientEventId with
  | .null => some ⟨index, none, code, message⟩
  | .str s => some ⟨index, some s, code, message⟩
  | _ => none

/-- The transaction of a batch, and its counts. -/
structure Batch where
  tables : EventTables Body
  accepted : ℕ
  duplicates : ℕ
  rejected : List RejectedEvent

/-- One round of the loop, over `raw` at its index; `draw` gives the id
each round draws. -/
def postRow (draw : ℕ → Uuid) (b : Batch) (row : Body × ℕ) : Option Batch :=
  let clientEventId := (Json.get? row.1 (text "client_event_id")).getD .null
  match modelValidate env row.1 with
  | .error e =>
      (rejectedEvent row.2 clientEventId "VALIDATION_FAILED" (firstError e)).map fun r =>
        { b with rejected := b.rejected ++ [r] }
  | .ok event =>
      match insertRawEvent env b.tables (draw row.2) event with
      | none =>
          (rejectedEvent row.2 (.str event.clientEventId) "INTERNAL"
            (text "event could not be stored")).map fun r =>
              { b with rejected := b.rejected ++ [r] }
      | some ((_, true), tables) =>
          some { b with tables := tables, duplicates := b.duplicates + 1 }
      | some ((_, false), tables) =>
          some { b with tables := tables, accepted := b.accepted + 1 }

/-- `BatchAccepted`. -/
structure BatchAccepted where
  acceptedCount : ℕ
  duplicateCount : ℕ
  rejected : List RejectedEvent
  deriving DecidableEq, Repr

/-- **`post_events_batch`**: one transaction, which an exception undoes. -/
def postEventsBatch (t : EventTables Body) (draw : ℕ → Uuid) (events : List Body) :
    Except ApiError BatchAccepted × EventTables Body :=
  if env.ingestMaxBatchSize < events.length then (.error .payloadTooLarge, t)
  else
    match events.zipIdx.foldlM (postRow env draw) ⟨t, 0, 0, []⟩ with
    | none => (.error .rejectedEvent, t)
    | some b => (.ok ⟨b.accepted, b.duplicates, b.rejected⟩, b.tables)

/-- The valid events posted alone, one after the other. -/
def postOneByOne (t : EventTables Body) (draw : ℕ → Uuid) (events : List Body) :
    EventTables Body :=
  (events.zipIdx.filter fun row => (modelValidate env row.1).isOk).foldl
    (fun t row => (postEvent env t (draw row.2) row.1).2) t

/-- The event fails validation, or its INSERT fails. -/
def Rejects (raw : Body) : Prop :=
  match modelValidate env raw with
  | .error _ => True
  | .ok event => ¬ Storable env event

instance : DecidablePred (Rejects env) := fun raw => by
  unfold Rejects
  split <;> infer_instance

/-- **A batch behaves like its rows posted one by one**, and a second post
of it finds them all. -/
def LikeRows (t : EventTables Body) (draw : ℕ → Uuid) (events : List Body) : Prop :=
  ∃ r t', postEventsBatch env t draw events = (.ok r, t') ∧
    r.acceptedCount + r.duplicateCount + r.rejected.length = events.length ∧
    t' = postOneByOne env t draw events ∧
    r.rejected.map RejectedEvent.index =
      (events.zipIdx.filter fun row => Rejects env row.1).map Prod.snd ∧
    ∀ draw', ∃ r', postEventsBatch env t' draw' events = (.ok r', t') ∧ r'.acceptedCount = 0 ∧
      r'.rejected.map RejectedEvent.index = r.rejected.map RejectedEvent.index

/-- The id of the event is missing, null or a text. -/
def IdFits (raw : Body) : Prop :=
  match Json.get? raw (text "client_event_id") with
  | none | some .null | some (.str _) => True
  | _ => False

variable {env} {t : EventTables Body} {draw : ℕ → Uuid} {b b' : Batch} {raw : Body}
  {row : Body × ℕ} {event : RawEventIn} {id : Uuid} {key : String}

/-! ## One row -/

/-- The key is in the table. -/
def Holds (t : EventTables Body) (key : String) : Prop :=
  ∃ r ∈ t.rawEvents, r.clientEventId = key

theorem holds_iff : Holds t key ↔ (t.getRawEventIdByClientId key).isSome = true := by
  unfold Holds EventTables.getRawEventIdByClientId
  rw [Option.isSome_map, List.find?_isSome]
  simp only [decide_eq_true_eq]

/-- The key of an insert is in the table afterwards. -/
theorem holds_insertRawEvent (payload : Body) : Holds (t.insertRawEvent id key payload) key := by
  by_cases hold : Holds t key
  · obtain ⟨r, hr, hkey⟩ := hold
    exact ⟨r, EventTables.mem_rawEvents_insertRawEvent hr, hkey⟩
  · have hnew : ¬ ∃ r ∈ t.rawEvents, r.clientEventId = key := hold
    unfold EventTables.insertRawEvent
    rw [if_neg hnew]
    exact ⟨_, List.mem_append_right _ (List.mem_singleton_self _), rfl⟩

theorem insertRawEvent_of_holds (h : Holds t key) (payload : Body) :
    t.insertRawEvent id key payload = t := if_pos h

theorem rejects_of_error {e : FieldError} (h : modelValidate env raw = .error e) :
    Rejects env raw := by
  unfold Rejects
  rw [h]
  trivial

theorem rejects_iff_of_ok (h : modelValidate env raw = .ok event) :
    Rejects env raw ↔ ¬ Storable env event := by
  unfold Rejects
  rw [h]

theorem rejects_or_storable (env : Env) (raw : Body) :
    Rejects env raw ∨ ∃ event, modelValidate env raw = .ok event ∧ Storable env event := by
  unfold Rejects
  cases modelValidate env raw with
  | error e => exact .inl trivial
  | ok event =>
      by_cases hstorable : Storable env event
      · exact .inr ⟨event, rfl, hstorable⟩
      · exact .inl hstorable

/-- A rejected event posted alone leaves the tables as they are. -/
theorem postEvent_of_rejects (h : Rejects env raw) : (postEvent env t id raw).2 = t := by
  unfold postEvent
  cases hvalid : modelValidate env raw with
  | error e => rfl
  | ok event =>
      unfold insertRawEvent
      dsimp only
      rw [if_neg ((rejects_iff_of_ok hvalid).mp h)]

/-- Any other event posted alone is inserted. -/
theorem postEvent_of_storable (hvalid : modelValidate env raw = .ok event)
    (h : Storable env event) : (postEvent env t id raw).2 =
      t.insertRawEvent id (stored event.clientEventId) (modelDump event) := by
  unfold postEvent insertRawEvent
  rw [hvalid]
  dsimp only
  rw [if_pos h]

/-- An event that is not rejected has its key in the tables. -/
def Known (env : Env) (t : EventTables Body) (raw : Body) : Prop :=
  ∀ event, modelValidate env raw = .ok event → Storable env event →
    Holds t (stored event.clientEventId)

/-- A post keeps every key. -/
theorem Holds.postEvent (h : Holds t key) (id : Uuid) (raw : Body) :
    Holds (postEvent env t id raw).2 key := by
  rcases rejects_or_storable env raw with hrejects | ⟨event, hvalid, hstorable⟩
  · rw [postEvent_of_rejects hrejects]
    exact h
  · rw [postEvent_of_storable hvalid hstorable]
    obtain ⟨r, hr, hkey⟩ := h
    exact ⟨r, EventTables.mem_rawEvents_insertRawEvent hr, hkey⟩

theorem Known.postEvent (h : Known env t raw) (id : Uuid) (raw' : Body) :
    Known env (postEvent env t id raw').2 raw := fun event hvalid hstorable =>
  (h event hvalid hstorable).postEvent id raw'

/-- A posted event is known afterwards. -/
theorem known_postEvent : Known env (postEvent env t id raw).2 raw := by
  intro event hvalid hstorable
  rw [postEvent_of_storable hvalid hstorable]
  exact holds_insertRawEvent _

/-- A known event changes nothing. -/
theorem postEvent_of_known (h : Known env t raw) : (postEvent env t id raw).2 = t := by
  rcases rejects_or_storable env raw with hrejects | ⟨event, hvalid, hstorable⟩
  · exact postEvent_of_rejects hrejects
  · rw [postEvent_of_storable hvalid hstorable]
    exact insertRawEvent_of_holds (h event hvalid hstorable) _

/-- **What a round does to the batch**: it posts the event, and counts it
as accepted or duplicate, or rejects it at its index. -/
structure Posts (env : Env) (draw : ℕ → Uuid) (row : Body × ℕ) (b b' : Batch) : Prop where
  tables : b'.tables = (postEvent env b.tables (draw row.2) row.1).2
  rejected : b'.rejected.map RejectedEvent.index = b.rejected.map RejectedEvent.index ++
    if Rejects env row.1 then [row.2] else []
  counted : b'.accepted + b'.duplicates + b'.rejected.length =
    b.accepted + b.duplicates + b.rejected.length + 1
  known : Known env b.tables row.1 → b'.accepted = b.accepted

theorem Posts.of_rejects {r : RejectedEvent} (h : Rejects env row.1) (hindex : r.index = row.2) :
    Posts env draw row b { b with rejected := b.rejected ++ [r] } where
  tables := (postEvent_of_rejects h).symm
  rejected := by
    rw [if_pos h, List.map_append, ← hindex]
    rfl
  counted := by
    dsimp only
    rw [List.length_append, List.length_singleton]
    omega
  known := fun _ => rfl

/-- A text is always a fitting id. -/
theorem idFits_of_ok (h : modelValidate env raw = .ok event) : IdFits raw := by
  unfold modelValidate strField at h
  unfold IdFits
  cases hid : Json.get? raw (text "client_event_id") with
  | none => trivial
  | some v =>
      rw [hid] at h
      cases v with
      | null | str _ => trivial
      | bool _ | int _ | float _ | list _ | dict _ => cases h

/-- A rejection whose id fits is recorded. -/
theorem exists_rejectedEvent (h : IdFits raw) (index : ℕ) (code : String) (message : Text) :
    ∃ r, rejectedEvent index ((Json.get? raw (text "client_event_id")).getD .null) code message =
      some r ∧ r.index = index := by
  unfold IdFits at h
  cases hid : Json.get? raw (text "client_event_id") with
  | none => exact ⟨_, rfl, rfl⟩
  | some v =>
      rw [hid] at h
      cases v with
      | null | str _ => exact ⟨_, rfl, rfl⟩
      | bool _ | int _ | float _ | list _ | dict _ => exact absurd h id

/-- **A row whose id fits is posted.** -/
theorem exists_postRow (h : IdFits row.1) (b : Batch) :
    ∃ b', postRow env draw b row = some b' ∧ Posts env draw row b b' := by
  unfold postRow
  cases hvalid : modelValidate env row.1 with
  | error e =>
      obtain ⟨r, hr, hindex⟩ := exists_rejectedEvent h row.2 "VALIDATION_FAILED" (firstError e)
      dsimp only
      rw [hr]
      exact ⟨_, rfl, .of_rejects (rejects_of_error hvalid) hindex⟩
  | ok event =>
      unfold insertRawEvent
      dsimp only
      by_cases hstorable : Storable env event
      · have hrejects : ¬ Rejects env row.1 :=
          fun hrejects => (rejects_iff_of_ok hvalid).mp hrejects hstorable
        rw [if_pos hstorable]
        cases hdup : (b.tables.getRawEventIdByClientId (stored event.clientEventId)).isSome with
        | true =>
            refine ⟨_, rfl, (postEvent_of_storable hvalid hstorable).symm, ?_, ?_, fun _ => rfl⟩
            · rw [if_neg hrejects, List.append_nil]
            · dsimp only
              omega
        | false =>
            refine ⟨_, rfl, (postEvent_of_storable hvalid hstorable).symm, ?_, ?_, fun hknown => ?_⟩
            · rw [if_neg hrejects, List.append_nil]
            · dsimp only
              omega
            · -- a known event would have been found
              have hheld := holds_iff.mp (hknown event hvalid hstorable)
              exact absurd (hdup.symm.trans hheld) Bool.false_ne_true
      · rw [if_neg hstorable]
        exact ⟨_, rfl, .of_rejects ((rejects_iff_of_ok hvalid).mpr hstorable) rfl⟩

/-- A row whose id does not fit ends the batch. -/
theorem postRow_of_not_idFits (h : ¬ IdFits row.1) (b : Batch) : postRow env draw b row = none := by
  unfold postRow
  cases hvalid : modelValidate env row.1 with
  | ok event => exact absurd (idFits_of_ok hvalid) h
  | error e =>
      dsimp only
      unfold IdFits at h
      cases hid : Json.get? row.1 (text "client_event_id") with
      | none => rw [hid] at h; exact absurd trivial h
      | some v =>
          rw [hid] at h
          cases v with
          | null | str _ => exact absurd trivial h
          | bool _ | int _ | float _ | list _ | dict _ => rfl

/-! ## All rows -/

/-- The tables after the rows are posted one by one. -/
def postAll (env : Env) (draw : ℕ → Uuid) (t : EventTables Body) (rows : List (Body × ℕ)) :
    EventTables Body :=
  rows.foldl (fun t row => (postEvent env t (draw row.2) row.1).2) t

variable {rows : List (Body × ℕ)} {events : List Body}

/-- **What the loop does to the batch**, over the rows it goes through. -/
structure PostsAll (env : Env) (draw : ℕ → Uuid) (rows : List (Body × ℕ)) (b b' : Batch) :
    Prop where
  tables : b'.tables = postAll env draw b.tables rows
  rejected : b'.rejected.map RejectedEvent.index = b.rejected.map RejectedEvent.index ++
    (rows.filter fun row => Rejects env row.1).map Prod.snd
  counted : b'.accepted + b'.duplicates + b'.rejected.length =
    b.accepted + b.duplicates + b.rejected.length + rows.length
  known : (∀ row ∈ rows, Known env b.tables row.1) → b'.accepted = b.accepted

theorem PostsAll.nil (b : Batch) : PostsAll env draw [] b b :=
  ⟨rfl, (List.append_nil _).symm, rfl, fun _ => rfl⟩

theorem PostsAll.cons {b₁ : Batch} (hrow : Posts env draw row b b₁)
    (hrows : PostsAll env draw rows b₁ b') : PostsAll env draw (row :: rows) b b' where
  tables := by
    rw [hrows.tables, hrow.tables]
    rfl
  rejected := by
    rw [hrows.rejected, hrow.rejected, List.append_assoc, List.filter_cons]
    by_cases hrejects : Rejects env row.1
    · rw [if_pos hrejects, if_pos (decide_eq_true hrejects)]
      rfl
    · rw [if_neg hrejects, if_neg fun h => hrejects (of_decide_eq_true h)]
      rfl
  counted := by
    have hfirst := hrow.counted
    have hrest := hrows.counted
    rw [List.length_cons]
    omega
  known := by
    intro h
    have hknown : ∀ row' ∈ rows, Known env b₁.tables row'.1 := by
      intro row' hrow'
      rw [hrow.tables]
      exact (h row' (List.mem_cons_of_mem _ hrow')).postEvent _ _
    exact (hrows.known hknown).trans (hrow.known (h row List.mem_cons_self))

/-- **The loop goes through** when every id fits. -/
theorem exists_foldlM_postRow (h : ∀ row ∈ rows, IdFits row.1) (b : Batch) :
    ∃ b', rows.foldlM (postRow env draw) b = some b' ∧ PostsAll env draw rows b b' := by
  induction rows generalizing b with
  | nil => exact ⟨b, rfl, .nil b⟩
  | cons row rows ih =>
      obtain ⟨b₁, hrow, hposts⟩ := exists_postRow (h row List.mem_cons_self) b
      obtain ⟨b', hrows, hall⟩ := ih (fun row' hrow' => h row' (List.mem_cons_of_mem _ hrow')) b₁
      refine ⟨b', ?_, .cons hposts hall⟩
      rw [List.foldlM_cons, hrow]
      exact hrows

/-- Once the loop went through, every id fits. -/
theorem idFits_of_foldlM (h : rows.foldlM (postRow env draw) b = some b') :
    ∀ row ∈ rows, IdFits row.1 := by
  induction rows generalizing b with
  | nil => exact fun _ hrow => absurd hrow List.not_mem_nil
  | cons row rows ih =>
      rw [List.foldlM_cons] at h
      obtain ⟨b₁, hrow, hrows⟩ := Option.bind_eq_some_iff.mp h
      intro row' hrow'
      rcases List.mem_cons.mp hrow' with rfl | hrow'
      · by_contra hfits
        rw [postRow_of_not_idFits hfits] at hrow
        cases hrow
      · exact ih hrows row' hrow'

/-- Every event that was posted is known at the end. -/
theorem known_postAll : ∀ row ∈ rows, Known env (postAll env draw t rows) row.1 := by
  have hkept : ∀ (rows : List (Body × ℕ)) {t : EventTables Body} {raw : Body},
      Known env t raw → Known env (postAll env draw t rows) raw := by
    intro rows
    induction rows with
    | nil => exact fun h => h
    | cons row rows ih => exact fun h => ih (h.postEvent _ _)
  induction rows generalizing t with
  | nil => exact fun _ hrow => absurd hrow List.not_mem_nil
  | cons row rows ih =>
      intro row' hrow'
      rcases List.mem_cons.mp hrow' with rfl | hrow'
      · exact hkept rows known_postEvent
      · exact ih row' hrow'

/-- Known events change nothing. -/
theorem postAll_of_known (h : ∀ row ∈ rows, Known env t row.1) : postAll env draw t rows = t := by
  induction rows with
  | nil => rfl
  | cons row rows ih =>
      unfold postAll
      rw [List.foldl_cons, postEvent_of_known (h row List.mem_cons_self)]
      exact ih fun row' hrow' => h row' (List.mem_cons_of_mem _ hrow')

/-- Skipping the invalid events changes nothing. -/
theorem postOneByOne_eq : postOneByOne env t draw events = postAll env draw t events.zipIdx := by
  unfold postOneByOne postAll
  rw [List.foldl_filter]
  congr 1
  funext t row
  split
  · rfl
  · rename_i hinvalid
    cases hvalid : modelValidate env row.1 with
    | error e => exact (postEvent_of_rejects (rejects_of_error hvalid)).symm
    | ok event => rw [hvalid] at hinvalid; exact absurd rfl hinvalid

theorem forall_zipIdx : (∀ row ∈ events.zipIdx, IdFits row.1) ↔ ∀ raw ∈ events, IdFits raw := by
  conv_rhs => rw [← List.zipIdx_map_fst 0 events]
  exact List.forall_mem_map.symm

/-- A batch within the limit whose ids fit is answered. -/
theorem exists_postEventsBatch (hsize : (events.length : ℤ) ≤ env.ingestMaxBatchSize)
    (hfits : ∀ row ∈ events.zipIdx, IdFits row.1) (t : EventTables Body) (draw : ℕ → Uuid) :
    ∃ b, postEventsBatch env t draw events =
        (.ok ⟨b.accepted, b.duplicates, b.rejected⟩, b.tables) ∧
      PostsAll env draw events.zipIdx ⟨t, 0, 0, []⟩ b := by
  obtain ⟨b, hloop, hposts⟩ := exists_foldlM_postRow hfits ⟨t, 0, 0, []⟩
  refine ⟨b, ?_, hposts⟩
  unfold postEventsBatch
  rw [if_neg (Int.not_lt.mpr hsize), hloop]

/-- **A batch within the size limit behaves like its rows posted one by
one** just when no event has an id that is neither missing nor null nor a
text; such an event costs the batch all the others. -/
theorem likeRows_iff (hsize : (events.length : ℤ) ≤ env.ingestMaxBatchSize) :
    LikeRows env t draw events ↔ ∀ raw ∈ events, IdFits raw := by
  rw [← forall_zipIdx]
  constructor
  · rintro ⟨r, t', hpost, -⟩
    unfold postEventsBatch at hpost
    rw [if_neg (Int.not_lt.mpr hsize)] at hpost
    cases hloop : events.zipIdx.foldlM (postRow env draw) ⟨t, 0, 0, []⟩ with
    | none => rw [hloop] at hpost; cases (Prod.mk.inj hpost).1
    | some b => exact idFits_of_foldlM hloop
  · intro hfits
    obtain ⟨b, hpost, hposts⟩ := exists_postEventsBatch hsize hfits t draw
    refine ⟨_, _, hpost, ?_, ?_, hposts.rejected, fun draw' => ?_⟩
    · rw [hposts.counted, List.length_zipIdx]
      exact Nat.zero_add _
    · rw [hposts.tables, postOneByOne_eq]
    · -- the second post finds every event known
      have hknown : ∀ row ∈ events.zipIdx, Known env b.tables row.1 := by
        rw [hposts.tables]
        exact known_postAll
      obtain ⟨b', hpost', hposts'⟩ := exists_postEventsBatch hsize hfits b.tables draw'
      have htables : b'.tables = b.tables := by rw [hposts'.tables, postAll_of_known hknown]
      refine ⟨⟨b'.accepted, b'.duplicates, b'.rejected⟩, ?_, hposts'.known hknown, ?_⟩
      · rw [hpost', htables]
      · rw [hposts'.rejected, hposts.rejected]

/-- The limit of the settings, and a database that takes every row. -/
def demoEnv : Env := ⟨fun _ => true, fun _ _ => false, 500⟩

/-- An event, under an id of any type. -/
def demoEvent (clientEventId : Json) : Body :=
  [(text "client_event_id", clientEventId), (text "event_type", .str (text "topup")),
    (text "occurred_at", .str (text "2026-09-17T00:00:00+07:00")),
    (text "user_ref", .str (text "user-1"))]

/-- A good event, a malformed one, and the first again. -/
theorem likeRows_three : LikeRows demoEnv .empty (fun n => n)
    [demoEvent (.str (text "e-1")), demoEvent .null, demoEvent (.str (text "e-1"))] :=
  (likeRows_iff (by decide)).mpr (by
    intro raw hraw
    simp only [List.mem_cons, List.not_mem_nil, or_false] at hraw
    rcases hraw with rfl | rfl | rfl
    · exact trivial
    · exact trivial
    · exact trivial)

/-- **An id of the wrong type costs the others**: the batch raises, and the
good event is not stored. -/
theorem not_likeRows :
    ¬ LikeRows demoEnv .empty (fun n => n) [demoEvent (.str (text "e-1")), demoEvent (.int 7)] := by
  rintro ⟨r, t', hpost, -⟩
  cases (Prod.mk.inj hpost).1

end Api

end RetentionEngine
