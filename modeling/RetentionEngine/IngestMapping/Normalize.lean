import RetentionEngine.Common.Dict
import RetentionEngine.Contracts.Event
import RetentionEngine.Python.Decimal
import RetentionEngine.Python.Json

/-!
# Normalizing a body

The package `ingest_mapping`: a tenant's mapping config, the pseudonyms,
and `normalize`, which makes a canonical event of any JSON object or
raises. What it takes from elsewhere is a parameter: dates are read by
some `fromisoformat`, digests come from some HMAC, and what else pydantic
minds about a text is its own affair.
-/

namespace RetentionEngine

namespace IngestMapping

open Python

/-- A `datetime`: the time on its clock in microseconds, and the offset of
its zone, if it has one. -/
structure DateTime where
  clock : ℤ
  utcOffset : Option ℤ
  deriving DecidableEq, Repr

/-- **What `normalize` is given**: the Unicode database, the digits an
integer has room for, `datetime.fromisoformat` (`none` is `ValueError`),
HMAC-SHA-256 in hexadecimal, and whether pydantic takes a text for a
`str`, which it does if the text can be encoded. -/
structure Library where
  unicode : Unicode
  maxDigits : ℕ
  fromisoformat : Text → Option DateTime
  hmacSha256 : List UInt8 → Text → String
  acceptsStr : Text → Bool
  acceptsStr_of_encodable : ∀ s, Python.Encodable s → acceptsStr s = true

/-- What a call raises; the text is that of the exception the source raises
itself. -/
inductive Raised
  | mappingError (message : Text)
  | valueError (message : Text)
  | unicodeEncodeError
  | overflowError
  | memoryError
  | typeError
  deriving DecidableEq, Repr

/-- `EventTypeMapping`. -/
structure EventTypeMapping where
  clientEventType : Text
  canonicalEventType : CanonicalEventType
  amountFieldPath : Option Text
  counterpartyFieldPath : Option Text
  occurredAtFieldPath : Text
  active : Bool
  deriving DecidableEq, Repr

/-- **`TenantMappingConfig`**, the slug and profile apart: no client event
type is mapped twice. -/
structure TenantMappingConfig where
  mappings : List EventTypeMapping
  attributeWhitelist : List Text
  nodup : (mappings.map EventTypeMapping.clientEventType).Nodup

/-- `CanonicalEvent`. -/
structure CanonicalEvent where
  tenantId : String
  clientEventId : Text
  eventType : CanonicalEventType
  occurredAt : DateTime
  userPseudonym : String
  amountIdr : Option ℤ
  counterpartyPseudonym : Option String
  attributes : Dict Text Json

/-- The entries of a JSON object. -/
abbrev Body := List (Text × Json)

variable (lib : Library)

/-- `TenantMappingConfig.lookup`. -/
def TenantMappingConfig.lookup (config : TenantMappingConfig) (clientEventType : Text) :
    Except Raised EventTypeMapping :=
  match config.mappings.find? fun m => m.clientEventType = clientEventType with
  | some m =>
      if m.active then .ok m
      else .error (.mappingError
        (text "event type " ++ reprText lib.unicode clientEventType ++ text " is inactive"))
  | none =>
      .error (.mappingError (text "unknown event type " ++ reprText lib.unicode clientEventType))

/-- `pseudonymize`. -/
def pseudonymize (tenantId : String) (rawRef : Text) (secret : List UInt8) : Except Raised String :=
  if secret = [] then .error (.valueError (text "pseudonymization secret must not be empty"))
  else if Python.Encodable (text tenantId ++ text ":" ++ rawRef) then
    .ok (lib.hmacSha256 secret (text tenantId ++ text ":" ++ rawRef))
  else .error .unicodeEncodeError

/-- `resolve_path`; `none` is `_MISSING`. -/
def resolvePath (data : Body) (path : Text) : Option Json :=
  (path.splitOn (point '.')).foldlM (fun current part => match current with
    | .dict entries => Json.get? entries part
    | _ => none) (Json.dict data)

/-- `_to_idr`. -/
def toIdr (value : Json) : Except Raised ℤ :=
  match value with
  | .bool _ => .error (.mappingError (text "amount must be numeric"))
  | _ =>
      match Decimal.intOfText lib.unicode lib.maxDigits (value.toText lib.unicode) with
      | .ok n => .ok n
      | .error .overflowError => .error .overflowError
      | .error .memoryError => .error .memoryError
      | .error .invalidOperation => .error (.mappingError (text "amount is not numeric"))
      | .error .valueError => .error (.mappingError (text "amount is not numeric"))

/-- `_to_datetime`. -/
def toDatetime : Option Json → Except Raised DateTime
  | some (.str s) =>
      match lib.fromisoformat s with
      | some parsed =>
          if parsed.utcOffset = none then
            .error (.mappingError (text "occurred_at must carry a timezone offset"))
          else .ok parsed
      | none => .error (.mappingError (text "occurred_at is not RFC 3339"))
  | _ => .error (.mappingError (text "occurred_at missing"))

/-- A top-level field that has to be there and true. -/
def required (body : Body) (name : String) : Except Raised Json :=
  match Json.get? body (text name) with
  | some v =>
      if v.truthy then .ok v
      else .error (.mappingError (text name ++ text " missing"))
  | none => .error (.mappingError (text name ++ text " missing"))

/-- A configured path, unless it is empty. -/
def truthyPath (path : Option Text) : Option Text := path.filter fun p => p ≠ []

/-- `amount_idr` of `normalize`. -/
def amountOf (body : Body) (mapping : EventTypeMapping) : Except Raised (Option ℤ) :=
  match truthyPath mapping.amountFieldPath with
  | none => .ok none
  | some path =>
      match resolvePath body path with
      | none => .error (.mappingError
          (text "amount field " ++ reprText lib.unicode path ++ text " missing"))
      | some rawAmount => (toIdr lib rawAmount).map some

/-- `counterparty` of `normalize`. -/
def counterpartyOf (tenantId : String) (body : Body) (mapping : EventTypeMapping)
    (secret : List UInt8) : Except Raised (Option String) :=
  match truthyPath mapping.counterpartyFieldPath with
  | none => .ok none
  | some path =>
      match (resolvePath body path).filter Json.truthy with
      | none => .error (.mappingError
          (text "counterparty field " ++ reprText lib.unicode path ++ text " missing"))
      | some rawCp => (pseudonymize lib tenantId (rawCp.toText lib.unicode) secret).map some

/-- `isinstance(v, (str, int, float))`. -/
def isScalar : Json → Bool
  | .str _ | .int _ | .float _ | .bool _ => true
  | .null | .list _ | .dict _ => false

/-- One round of the comprehension over the whitelist: what `k` adds. -/
def attributeOf (userAttributes : Json) (k : Text) : Except Raised (List (Text × Json)) :=
  match userAttributes with
  | .dict entries =>
      match Json.get? entries k with
      | some v => .ok (if isScalar v then [(k, v)] else [])
      | none => .ok []
  | .list elements =>
      if elements.any (Json.isText k) then .error .typeError else .ok []
  | .str s => if k <:+: s then .error .typeError else .ok []
  | _ => .error .typeError

/-- `raw_event.get("user_attributes") or {}`. -/
def userAttributesOf (body : Body) : Json :=
  ((Json.get? body (text "user_attributes")).filter Json.truthy).getD (.dict [])

/-- `attributes` of `normalize`. -/
def attributesOf (config : TenantMappingConfig) (body : Body) : Except Raised (Dict Text Json) :=
  (config.attributeWhitelist.mapM (attributeOf (userAttributesOf body))).map fun l =>
    Dict.ofList Prod.fst Prod.snd l.flatten

/-- `ALLOWED_ATTRIBUTE_KEYS`. -/
def allowedAttributeKeys : List Text := [text "channel", text "region_code", text "cohort_key"]

/-- The validation of `CanonicalEvent`; its `ValidationError` is caught. -/
def validate (e : CanonicalEvent) : Except Raised CanonicalEvent :=
  if lib.acceptsStr (text e.tenantId) ∧ lib.acceptsStr e.clientEventId ∧
      e.occurredAt.utcOffset ≠ none ∧ ∀ k ∈ e.attributes.keys, k ∈ allowedAttributeKeys then .ok e
  else .error (.mappingError (text "event failed canonical validation"))

/-- **`normalize`.** -/
def normalize (tenantId : String) (rawEvent : Body) (config : TenantMappingConfig)
    (secret : List UInt8) : Except Raised CanonicalEvent := do
  let eventType := (Json.get? rawEvent (text "event_type")).getD .null
  let mapping ← config.lookup lib (eventType.toText lib.unicode)
  let userRef ← required rawEvent "user_ref"
  let clientEventId ← required rawEvent "client_event_id"
  let occurredAt ← toDatetime lib (resolvePath rawEvent mapping.occurredAtFieldPath)
  let amountIdr ← amountOf lib rawEvent mapping
  let counterparty ← counterpartyOf lib tenantId rawEvent mapping secret
  let attributes ← attributesOf config rawEvent
  let userPseudonym ← pseudonymize lib tenantId (userRef.toText lib.unicode) secret
  validate lib
    { tenantId := tenantId
      clientEventId := clientEventId.toText lib.unicode
      eventType := mapping.canonicalEventType
      occurredAt := occurredAt
      userPseudonym := userPseudonym
      amountIdr := amountIdr
      counterpartyPseudonym := counterparty
      attributes := attributes }

end IngestMapping

end RetentionEngine
