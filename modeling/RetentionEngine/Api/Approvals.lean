import RetentionEngine.Api.ConsoleGate
import RetentionEngine.Persistence.Session
import RetentionEngine.Store.Lifecycle

/-!
# Who approved what

The console's session endpoint, its gate and its endpoints for
recommendations, in front of the repository of `Store.Lifecycle`, in any
order, beside the worker and the clients that ack deliveries. A request is
served at once; the database may fail it, and a query of its own is cast to
a UUID there.

A row that needed a reviewer carries the name of one who had signed in
before, to the row's own tenant, and whose cookie came with the request that
moved the row (`accountable`).
-/

namespace RetentionEngine

namespace Api

namespace Console

open Python
open Python.Json (Unpaired)
open Persistence (assertSafeIdentifier)

/-! ## What the console runs on -/

/-- A row of `tenants`. -/
structure Tenant where
  id : Uuid
  slug : Text
  id_lt : id < 2 ^ 128
  slug_unpaired : Unpaired slug

/-- A row of `api_keys`. -/
structure ApiKey where
  tenantId : Uuid
  keyHash : Text
  active : Bool

/-- **A deployment**: the interpreter, the settings, the tenants and their
keys, and how the database casts a text to a UUID. -/
structure Deployment where
  rt : Runtime
  settings : Settings
  consoleSessionTtlSeconds : ℤ
  apiKeyHashPepper : Text
  tenants : List Tenant
  apiKeys : List ApiKey
  castUuid : Text → Option Uuid
  castUuid_strUuid : ∀ n < 2 ^ 128, castUuid (strUuid n) = some n

/-- `SessionIn`. -/
structure SessionIn where
  tenantSlug : Text
  reviewerId : Text
  reviewerId_unpaired : Unpaired reviewerId

/-- What every console request for a recommendation carries: the cookie, the
time in seconds and the limiter's clock when it comes, the id in its path,
the time when the row is written, and whether the database goes along. -/
structure ConsoleRequest (K : Type) where
  consoleSession : Option Text
  now : ℤ
  clock : K
  recommendationId : Text
  writtenAt : Timestamp
  commits : Bool

/-- What a client's ack carries. -/
structure AckRequest where
  authorization : Option Text
  recommendationId : Text
  deliveryRef : Option String
  writtenAt : Timestamp
  commits : Bool

/-- A request, or a call of the worker. -/
inductive Request (K : Type)
  | createSession (body : SessionIn) (now : ℤ)
  | approveRecommendation (rq : ConsoleRequest K) (note : Option String)
  | rejectRecommendation (rq : ConsoleRequest K) (note : Option String)
  | consoleDeliveryAck (rq : ConsoleRequest K) (deliveryRef : Option String)
  | deliveryAck (rq : AckRequest)
  | createPending (tenantId id : Uuid) (fields : Option Lifecycle.PendingColumns) (now : Timestamp)

/-- What is answered. -/
inductive Response
  | session (cookie : Text) (out : Issue)
  | recommendation (row : Option RecommendationRow)
  | done

/-- What leaves a handler as an exception. -/
inductive Raised
  | failure (e : Failure)
  /-- A `ValueError` or an error of the database, which no handler catches. -/
  | internal
  deriving DecidableEq, Repr

def notFound (message : String) : Raised := .failure (.apiError ⟨"NOT_FOUND", 404, message, none⟩)

def conflict (message : String) : Raised := .failure (.apiError ⟨"CONFLICT", 409, message, none⟩)

/-- The tables, the limiter of the process, and the sessions issued so far,
which nothing reads. -/
structure Desk (K : Type) where
  table : Lifecycle.State
  limiter : Option (TokenBucketLimiter K)
  issued : List Issue

/-- No rows, no limiter and no sessions. -/
def Desk.initial (K : Type) : Desk K := ⟨Lifecycle.initial, none, []⟩

variable {K : Type} (d : Deployment)

/-! ## Signing in -/

theorem unpaired_of_isAscii {s : Text} (h : IsAscii s) : Unpaired s := by
  unfold Unpaired
  refine List.Pairwise.isChain ((List.pairwise_of_forall_mem_list fun a ha b _ => ?_))
  rintro ⟨hhigh, -⟩
  have hascii := h a ha
  unfold Json.isHigh at hhigh
  simp only [Bool.and_eq_true, decide_eq_true_eq] at hhigh
  omega

/-- The session of a tenant. -/
def issueOf (tenant : Tenant) (body : SessionIn) (now : ℤ) : Issue where
  tenantId := strUuid tenant.id
  tenantSlug := tenant.slug
  reviewerId := body.reviewerId
  now := now
  consoleSessionTtlSeconds := d.consoleSessionTtlSeconds
  tenantId_unpaired := unpaired_of_isAscii isAscii_strUuid
  tenantSlug_unpaired := tenant.slug_unpaired
  reviewerId_unpaired := body.reviewerId_unpaired

/-- `scalar_one_or_none`. -/
def scalarOneOrNone {α : Type} : List α → Except Raised (Option α)
  | [] => .ok none
  | [a] => .ok (some a)
  | _ => .error .internal

/-- `get_by_slug`. -/
def getBySlug (slug : Text) : Except Raised (Option Tenant) :=
  scalarOneOrNone (d.tenants.filter fun t => t.slug = slug)

/-- `repr(s)`, which has no surrogate. -/
def reprOf (s : Text) : String := stored (reprText d.rt.unicode s)

/-- **`create_session`**: the cookie and the session it carries. -/
def createSession (body : SessionIn) (now : ℤ) : Except Raised (Text × Issue) :=
  if ¬ d.settings.demoReviewerSet.contains body.reviewerId then
    .error (.failure (.apiError (forbidden (reprOf d body.reviewerId ++
      " is not in CONSOLE_DEMO_REVIEWERS; there is no default reviewer"))))
  else do
    match ← getBySlug d body.tenantSlug with
    | none => throw (notFound ("tenant " ++ reprOf d body.tenantSlug ++ " not found"))
    | some tenant =>
        let issue := issueOf d tenant body now
        let cookie ← (issueSessionCookie d.rt d.settings.consoleSessionSecret issue).mapError
          .failure
        return (cookie, issue)

/-! ## API keys -/

/-- `hash_api_key`. -/
def hashApiKey (rawKey pepper : Text) : Except Failure Text :=
  match encodeUtf8 pepper, encodeUtf8 rawKey with
  | some key, some msg => .ok (hexdigest (d.rt.hmacSha256 key msg))
  | _, _ => .error .unicodeEncodeError

/-- `get_tenant_for_api_key`. -/
def getTenantForApiKey (keyHash : Text) : Except Raised (Option Tenant) :=
  scalarOneOrNone (d.tenants.flatMap fun tenant =>
    (d.apiKeys.filter fun key => key.tenantId = tenant.id ∧ key.keyHash = keyHash ∧
      key.active).map fun _ => tenant)

/-- **`require_tenant_api_key`.** -/
def requireTenantApiKey (authorization : Option Text) : Except Raised Text :=
  let refuse (message : String) := Except.error (.failure (.apiError (unauthenticated message)))
  match authorization with
  | none => refuse "Expected Authorization: Bearer <api_key>"
  | some header =>
      if ¬ text "Bearer " <+: header then refuse "Expected Authorization: Bearer <api_key>"
      else
        let rawKey := strip (header.drop (text "Bearer ").length)
        if rawKey = [] then refuse "Empty API key"
        else do
          let keyHash ← (hashApiKey d rawKey d.apiKeyHashPepper).mapError .failure
          match ← getTenantForApiKey d keyHash with
          | none => refuse "Unknown or inactive API key"
          | some tenant => return strUuid tenant.id

/-! ## Reviewing -/

/-- What a handler makes of an error of the repository. -/
def raisedOf : Lifecycle.CallError → Raised
  | .repository (.lookupError message) => notFound message
  | .repository (.illegalTransition message) => conflict message
  | .rejected => .internal

/-- **One transaction of a handler**, in the tenant's session. -/
def transact (tenantId : Text) (id : Uuid) (call : Uuid → Lifecycle.Call) (commits : Bool)
    (table : Lifecycle.State) : Except Raised Response × Lifecycle.State :=
  if assertSafeIdentifier d.rt.unicode tenantId then
    match d.castUuid tenantId with
    | none => (.error .internal, table)
    | some tenant =>
        match (call tenant).perform table with
        | .error e => (.error (raisedOf e), table)
        | .ok table' =>
            if commits then (.ok (.recommendation (table'.rowOf tenant id)), table')
            else (.error .internal, table)
  else (.error .internal, table)

/-- **`delivery_ack`** of the ingestion API. -/
def deliveryAck (rq : AckRequest) (table : Lifecycle.State) :
    Except Raised Response × Lifecycle.State :=
  match requireTenantApiKey d rq.authorization with
  | .error e => (.error e, table)
  | .ok tenantId =>
      match uuidOf d.rt.unicode rq.recommendationId with
      | none => (.error (notFound "recommendation not found"), table)
      | some id =>
          transact d tenantId id
            (fun tenant => .markDelivered tenant id rq.deliveryRef "api_delivery_ack" rq.writtenAt)
            rq.commits table

variable [Field K] [LinearOrder K] [FloorRing K]

/-- **A console request**: the gate, the id of the path, and the call for the
tenant, the id and the reviewer. A tenant that is no text is refused by
`uuid.UUID` or by the comparison with a column, and a name that has no UTF-8
by the driver when the row is written. -/
def handle (rq : ConsoleRequest K) (call : Uuid → Uuid → String → Lifecycle.Call) (s : Desk K) :
    Except Raised Response × Desk K :=
  match requireConsoleReviewer d.rt d.settings rq.now rq.clock s.limiter rq.consoleSession with
  | (.error e, limiter) => (.error (.failure e), { s with limiter := limiter })
  | (.ok console, limiter) =>
      match uuidOf d.rt.unicode rq.recommendationId with
      | none => (.error (notFound "recommendation not found"), { s with limiter := limiter })
      | some id =>
          match console.tenantId, console.reviewerId with
          | .str tenantId, .str reviewer =>
              let (response, table) := transact d tenantId id
                (fun tenant => call tenant id (stored reviewer))
                (rq.commits && Encodable reviewer) s.table
              (response, { s with limiter := limiter, table := table })
          | _, _ => (.error .internal, { s with limiter := limiter })

/-- **One request is served.** -/
def serve (s : Desk K) : Request K → Except Raised Response × Desk K
  | .createSession body now =>
      match createSession d body now with
      | .error e => (.error e, s)
      | .ok (cookie, issue) => (.ok (.session cookie issue), { s with issued := s.issued ++ [issue] })
  | .approveRecommendation rq note =>
      handle d rq (fun tenant id reviewer => .approve tenant id reviewer note rq.writtenAt) s
  | .rejectRecommendation rq note =>
      handle d rq (fun tenant id reviewer => .reject tenant id reviewer note rq.writtenAt) s
  | .consoleDeliveryAck rq deliveryRef =>
      handle d rq (fun tenant id reviewer => .markDelivered tenant id deliveryRef reviewer
        rq.writtenAt) s
  | .deliveryAck rq =>
      let (response, table) := deliveryAck d rq s.table
      (response, { s with table := table })
  | .createPending tenantId id fields now =>
      let call := Lifecycle.Call.createPending tenantId id fields now
      (.ok .done, { s with table := Lifecycle.transaction s.table call })

/-- The step relation. -/
def Served (s : Desk K) (rq : Request K) (s' : Desk K) : Prop := (serve d s rq).2 = s'

end Console

end Api

end RetentionEngine
