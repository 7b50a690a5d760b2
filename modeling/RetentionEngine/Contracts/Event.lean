import RetentionEngine.Schema.Columns
import Mathlib.Data.List.Basic

/-!
# Canonical events

`core_contracts.events`: the one shape every client's events are mapped
into, and `ingest_mapping.normalize` as far as INGEST depends on it. What
`normalize` makes of a body (mapping lookup, dotted paths, decimals,
dates, the HMAC pseudonyms) is a parameter here; all INGEST relies on is
that the event keeps the `client_event_id` the API stored the body under.
-/

namespace RetentionEngine

/-- `CanonicalEventType`. -/
inductive CanonicalEventType
  | payment
  | p2pTransfer
  | topup
  | withdrawal
  | splitBillCreated
  | splitBillSettled
  | recurringPayment
  | loanDisbursed
  | loanRepayment
  | loanRepaymentLate
  | sessionOpen
  | featureUsed
  | supportContact
  deriving DecidableEq, Repr

/-- `COUNTERPARTY_EVENT_TYPES`. -/
def counterpartyEventTypes : List CanonicalEventType :=
  [.p2pTransfer, .splitBillCreated, .splitBillSettled, .recurringPayment]

/-- **How long a day is**, in the unit timestamps are counted in. -/
structure Clock where
  day : ℤ
  day_pos : 0 < day
  deriving DecidableEq, Repr

/-- Timestamps in seconds. -/
def secondsClock : Clock := ⟨86400, by decide⟩

/-- User attributes as a client sends them: the API takes text values only. -/
abbrev Attributes := List (String × String)

/-- `CanonicalEvent`. -/
structure CanonicalEvent where
  clientEventId : String
  eventType : CanonicalEventType
  occurredAt : Timestamp
  userPseudonym : String
  amountIdr : Option ℤ
  counterpartyPseudonym : Option String
  attributes : Attributes
  deriving DecidableEq, Repr

/-- How a call of `normalize` ends. -/
inductive Normalized
  /-- It returns an event. -/
  | event (e : CanonicalEvent)
  /-- It raises `MappingError` with this text. -/
  | mappingError (text : String)
  /-- It raises something else. -/
  | raised
  deriving DecidableEq, Repr

/-- **`normalize` under one mapping config and secret**, on bodies of type
`β`: the event of a body carries the body's `client_event_id`. -/
structure Normalizer (β : Type*) where
  /-- `body["client_event_id"]`, the column the API stores the body under. -/
  clientEventId : β → String
  normalize : β → Normalized
  clientEventId_eq : ∀ {b e}, normalize b = .event e → e.clientEventId = clientEventId b

end RetentionEngine
