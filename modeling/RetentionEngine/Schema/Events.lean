import RetentionEngine.Common.Lists
import RetentionEngine.Contracts.Event
import Mathlib.Data.List.Nodup
import Mathlib.Logic.Function.Basic

/-!
# The event tables

`raw_events`, `canonical_events` and `users` of one tenant (migration
0002) with the calls of `persistence.repositories.events` and `users` the
API and INGEST make, as `PostgresPipelineStore` makes them. The rows of
`raw_events` stand in the order of `received_at`, the order they are
claimed in.
-/

namespace RetentionEngine

/-- A row of `raw_events`; the body is of any type. -/
structure RawEvent (β : Type*) where
  id : Uuid
  clientEventId : String
  payload : β
  processedAt : Option Timestamp
  processError : Option String
  deriving DecidableEq

/-- Marked PROCESSED, which in the table is a processing time and no error. -/
def RawEvent.Processed {β : Type*} (r : RawEvent β) : Prop :=
  r.processedAt ≠ none ∧ r.processError = none

instance {β : Type*} : DecidablePred (RawEvent.Processed (β := β)) :=
  fun _ => inferInstanceAs (Decidable (_ ∧ _))

/-- A row of `canonical_events`, its own id left out. -/
structure CanonicalEventRow where
  rawEventId : Uuid
  userPseudonym : String
  canonicalType : CanonicalEventType
  occurredAt : Timestamp
  amountIdr : ℤ
  counterpartyPseudonym : Option String
  attributes : Attributes
  deriving DecidableEq, Repr

/-- The stored attributes of a row of `users`. -/
structure UserRow where
  regionCode : Option String
  cohortKey : Option String
  deriving DecidableEq, Repr

/-- What the store hands a worker of a claimed event. -/
structure RawEventRecord (β : Type*) where
  rawEventId : Uuid
  body : β
  deriving DecidableEq

/-- The three tables. -/
structure EventTables (β : Type*) where
  rawEvents : List (RawEvent β)
  canonicalEvents : List CanonicalEventRow
  users : String → Option UserRow

namespace EventTables

variable {β : Type*}

/-- Nothing posted yet. -/
def empty : EventTables β := ⟨[], [], fun _ => none⟩

variable (t : EventTables β)

/-- `insert_raw_event` under a fresh id: a replay of a stored
`client_event_id` writes nothing. -/
def insertRawEvent (id : Uuid) (clientEventId : String) (payload : β) : EventTables β :=
  if ∃ r ∈ t.rawEvents, r.clientEventId = clientEventId then t
  else { t with rawEvents := t.rawEvents ++ [⟨id, clientEventId, payload, none, none⟩] }

/-- `claim_unprocessed`, with the rows another transaction holds skipped.
Nothing is written: the claim ends with the transaction. -/
def claimUnprocessed (batchSize : ℕ) (locked : List Uuid) : List (RawEventRecord β) :=
  ((t.rawEvents.filter fun r => r.processedAt = none ∧ r.id ∉ locked).take batchSize).map
    fun r => ⟨r.id, r.payload⟩

/-- `mark_processed` (`none`) and `mark_unmapped` (`some` error), which
differ in `process_error` only. -/
def mark (now : Timestamp) (rawEventId : Uuid) (error : Option String) : EventTables β :=
  { t with rawEvents := t.rawEvents.map fun r =>
      if r.id = rawEventId then { r with processedAt := some now, processError := error } else r }

/-- `mark_processed`. -/
def markProcessed (now : Timestamp) (rawEventId : Uuid) : EventTables β :=
  t.mark now rawEventId none

/-- `mark_unmapped`. -/
def markUnmapped (now : Timestamp) (rawEventId : Uuid) (error : String) : EventTables β :=
  t.mark now rawEventId (some error)

/-- `get_raw_event_id_by_client_id`. -/
def getRawEventIdByClientId (clientEventId : String) : Option Uuid :=
  (t.rawEvents.find? fun r => r.clientEventId = clientEventId).map RawEvent.id

/-- The row `save_canonical_events` builds of an event, if it finds the raw
event; otherwise the call raises. -/
def canonicalRow (e : CanonicalEvent) : Option CanonicalEventRow :=
  (t.getRawEventIdByClientId e.clientEventId).map fun rawId =>
    { rawEventId := rawId
      userPseudonym := e.userPseudonym
      canonicalType := e.eventType
      occurredAt := e.occurredAt
      amountIdr := e.amountIdr.getD 0
      counterpartyPseudonym := e.counterpartyPseudonym
      attributes := e.attributes }

/-- `save_canonical_events`: all rows in one insert, or none. -/
def saveCanonicalEvents (events : List CanonicalEvent) : Option (EventTables β) :=
  (events.mapM t.canonicalRow).map fun rows =>
    { t with canonicalEvents := t.canonicalEvents ++ rows }

/-- `upsert_attributes`: a missing value never replaces a stored one. -/
def upsertAttributes (userPseudonym : String) (attributes : Attributes) : EventTables β :=
  let stored := (t.users userPseudonym).getD ⟨none, none⟩
  { t with users := Function.update t.users userPseudonym (some
      { regionCode := (attributes.lookup "region_code").or stored.regionCode
        cohortKey := (attributes.lookup "cohort_key").or stored.cohortKey }) }

/-! ## Ids -/

/-- What the primary key and `uq_raw_events_idempotency` say of `raw_events`. -/
structure Keyed : Prop where
  ids : (t.rawEvents.map RawEvent.id).Nodup
  clientEventIds : (t.rawEvents.map RawEvent.clientEventId).Nodup

variable {t}

theorem keyed_empty : Keyed (empty : EventTables β) := ⟨List.nodup_nil, List.nodup_nil⟩

theorem Keyed.insertRawEvent (h : t.Keyed) {id : Uuid} (hid : id ∉ t.rawEvents.map RawEvent.id)
    (clientEventId : String) (payload : β) :
    (t.insertRawEvent id clientEventId payload).Keyed := by
  unfold EventTables.insertRawEvent
  split
  · exact h
  · rename_i hnew
    constructor
    · simpa [List.nodup_append, h.ids] using hid
    · simpa [List.nodup_append, h.clientEventIds] using hnew

/-- A row after an insert: one of before, or the new one. -/
theorem mem_insertRawEvent {id : Uuid} {clientEventId : String} {payload : β} {r : RawEvent β}
    (hr : r ∈ (t.insertRawEvent id clientEventId payload).rawEvents) :
    r ∈ t.rawEvents ∨ r = ⟨id, clientEventId, payload, none, none⟩ := by
  unfold EventTables.insertRawEvent at hr
  split at hr
  · exact Or.inl hr
  · simpa using hr

theorem mem_rawEvents_insertRawEvent {id : Uuid} {clientEventId : String} {payload : β}
    {r : RawEvent β} (hr : r ∈ t.rawEvents) :
    r ∈ (t.insertRawEvent id clientEventId payload).rawEvents := by
  unfold EventTables.insertRawEvent
  split
  · exact hr
  · exact List.mem_append_left _ hr

theorem canonicalEvents_insertRawEvent {id : Uuid} {clientEventId : String} {payload : β} :
    (t.insertRawEvent id clientEventId payload).canonicalEvents = t.canonicalEvents := by
  unfold EventTables.insertRawEvent
  split <;> rfl

theorem map_id_mark {now : Timestamp} {i : Uuid} {error : Option String} :
    (t.mark now i error).rawEvents.map RawEvent.id = t.rawEvents.map RawEvent.id := by
  simp only [mark, List.map_map]
  refine List.map_congr_left ?_
  intro r _
  dsimp only [Function.comp_apply]
  split <;> rfl

theorem map_clientEventId_mark {now : Timestamp} {i : Uuid} {error : Option String} :
    (t.mark now i error).rawEvents.map RawEvent.clientEventId =
      t.rawEvents.map RawEvent.clientEventId := by
  simp only [mark, List.map_map]
  refine List.map_congr_left ?_
  intro r _
  dsimp only [Function.comp_apply]
  split <;> rfl

theorem Keyed.mark (h : t.Keyed) (now : Timestamp) (i : Uuid) (error : Option String) :
    (t.mark now i error).Keyed :=
  ⟨by rw [map_id_mark]; exact h.ids, by rw [map_clientEventId_mark]; exact h.clientEventIds⟩

/-- A row after a mark: one of before, marked if it has the id. -/
theorem mem_mark {now : Timestamp} {i : Uuid} {error : Option String} {r : RawEvent β} :
    r ∈ (t.mark now i error).rawEvents ↔ ∃ r₀ ∈ t.rawEvents,
      r = if r₀.id = i then { r₀ with processedAt := some now, processError := error } else r₀ := by
  simp only [EventTables.mark, List.mem_map, eq_comm]

/-- Two rows of a keyed table under one client id are one row. -/
theorem Keyed.eq_of_clientEventId (h : t.Keyed) {r r' : RawEvent β} (hr : r ∈ t.rawEvents)
    (hr' : r' ∈ t.rawEvents) (heq : r.clientEventId = r'.clientEventId) : r = r' :=
  List.inj_on_of_nodup_map h.clientEventIds hr hr' heq

theorem Keyed.eq_of_id (h : t.Keyed) {r r' : RawEvent β} (hr : r ∈ t.rawEvents)
    (hr' : r' ∈ t.rawEvents) (heq : r.id = r'.id) : r = r' :=
  List.inj_on_of_nodup_map h.ids hr hr' heq

/-- **The lookup by client id finds the row.** -/
theorem Keyed.getRawEventIdByClientId (h : t.Keyed) {r : RawEvent β} (hr : r ∈ t.rawEvents) :
    t.getRawEventIdByClientId r.clientEventId = some r.id := by
  unfold EventTables.getRawEventIdByClientId
  obtain ⟨r', hfind⟩ : ∃ r', t.rawEvents.find?
      (fun r' => r'.clientEventId = r.clientEventId) = some r' :=
    Option.isSome_iff_exists.mp (List.find?_isSome.mpr ⟨r, hr, by simp⟩)
  have heq : r' = r := h.eq_of_clientEventId (List.mem_of_find?_eq_some hfind) hr
    (by simpa using List.find?_some hfind)
  rw [hfind, heq]
  rfl

/-- The event of a raw event is in `canonical_events`. -/
def Stored (t : EventTables β) (r : RawEvent β) : Prop :=
  ∃ row ∈ t.canonicalEvents, row.rawEventId = r.id

instance (t : EventTables β) (r : RawEvent β) : Decidable (t.Stored r) :=
  inferInstanceAs (Decidable (∃ row ∈ t.canonicalEvents, row.rawEventId = r.id))

/-- **A save stores the event of every row it covers**, and loses none. -/
theorem Keyed.stored_of_save (h : t.Keyed) {events : List CanonicalEvent} {t' : EventTables β}
    (hsave : t.saveCanonicalEvents events = some t') {r : RawEvent β} (hr : r ∈ t.rawEvents)
    (hr' : t.Stored r ∨ ∃ e ∈ events, e.clientEventId = r.clientEventId) : t'.Stored r := by
  obtain ⟨rows, hrows, rfl⟩ := Option.map_eq_some_iff.mp hsave
  rcases hr' with ⟨row, hrow, hid⟩ | ⟨e, he, hclient⟩
  · exact ⟨row, List.mem_append_left _ hrow, hid⟩
  · obtain ⟨row, hrow, heq⟩ := exists_right_of_forall₂ (forall₂_of_mapM hrows) he
    unfold canonicalRow at heq
    rw [hclient, h.getRawEventIdByClientId hr] at heq
    refine ⟨row, List.mem_append_right _ hrow, ?_⟩
    rw [← Option.some.inj heq]

/-- A save touches no raw event. -/
theorem rawEvents_of_save {events : List CanonicalEvent} {t' : EventTables β}
    (hsave : t.saveCanonicalEvents events = some t') : t'.rawEvents = t.rawEvents := by
  obtain ⟨rows, -, rfl⟩ := Option.map_eq_some_iff.mp hsave
  rfl

end EventTables

end RetentionEngine
