import RetentionEngine.Api.IngestBatch
import RetentionEngine.Api.RateLimit
import RetentionEngine.Python.Base64
import RetentionEngine.Python.LoadsDumps

/-!
# The console session

The signed cookie of `api.auth`, and the gate in front of the console. A
cookie passes through `rsplit`, two encodings, `compare_digest`, Base64 and
JSON, and each of them raises exceptions of its own. Of these the gate
catches the `ValueError`s of the last two.
-/

namespace RetentionEngine

namespace Api

namespace Console

open Python
open Python.Json (Unpaired Every IsPart DigitsFit Same nesting written sorted dumps loads)

/-! ## Errors -/

/-- `errors.ApiError`. -/
structure ApiError where
  code : String
  httpStatus : ℕ
  message : String
  retryAfterSeconds : Option ℤ
  deriving DecidableEq, Repr

def unauthenticated (message : String) : ApiError := ⟨"UNAUTHENTICATED", 401, message, none⟩

def forbidden (message : String) : ApiError := ⟨"FORBIDDEN", 403, message, none⟩

def rateLimited (retryAfterSeconds : ℤ) : ApiError :=
  ⟨"RATE_LIMITED", 429, "Too many requests", some retryAfterSeconds⟩

/-- What is raised. -/
inductive Failure
  | apiError (e : ApiError)
  | unicodeEncodeError
  | typeError
  | attributeError
  | keyError
  | recursionError
  | zeroDivisionError
  /-- A `ValueError` or a `RecursionError` of `json.dumps`. -/
  | dumpsError
  deriving DecidableEq, Repr

/-- **What the API runs on**: the interpreter, and HMAC with SHA-256 of a key
and a message. -/
structure Runtime extends Interpreter where
  hmacSha256 : List UInt8 → List UInt8 → List UInt8

/-! ## The token -/

variable (rt : Runtime)

/-- `hmac.new(secret.encode("utf-8"), body.encode("ascii"), sha256).hexdigest()`. -/
def signature (secret body : Text) : Except Failure Text :=
  match encodeUtf8 secret, encodeAscii body with
  | some key, some msg => .ok (hexdigest (rt.hmacSha256 key msg))
  | _, _ => .error .unicodeEncodeError

/-- The body of a token. -/
def bodyOf (payload : List (Text × Json)) : Except Failure Text :=
  match dumps rt.toInterpreter (.dict payload) with
  | none => .error .dumpsError
  | some s =>
      match encodeUtf8 s with
      | none => .error .unicodeEncodeError
      | some l => .ok (decodeAscii (Base64.urlsafeB64encode l))

/-- `_sign`. -/
def sign (payload : List (Text × Json)) (secret : Text) : Except Failure Text := do
  let body ← bodyOf rt payload
  let sig ← signature rt secret body
  return body ++ point '.' :: sig

/-- `token.rsplit(".", 1)`, unless it has no two parts. -/
def rsplit : Text → Option (Text × Text)
  | [] => none
  | c :: t =>
      match rsplit t with
      | some (body, sig) => some (c :: body, sig)
      | none => if c = point '.' then some ([], t) else none

/-- `hmac.compare_digest` of texts. -/
def compareDigest (a b : Text) : Except Failure Bool :=
  if IsAscii a ∧ IsAscii b then .ok (a = b) else .error .typeError

/-- `_verify`, with `null` for `None`. -/
def verify (token secret : Text) : Except Failure Json :=
  match rsplit token with
  | none => .ok .null
  | some (body, sig) => do
      let expected ← signature rt secret body
      let same ← compareDigest sig expected
      if same then
        match encodeAscii body with
        | none => .error .unicodeEncodeError
        | some l =>
            match Base64.urlsafeB64decode l with
            | none => .ok .null
            | some l =>
                match loads rt.toInterpreter l with
                | .ok v => .ok v
                | .error .valueError => .ok .null
                | .error .recursionError => .error .recursionError
      else return .null

/-! ## The cookie -/

/-- **A session that is issued**: the arguments of `issue_session_cookie`, the
clock and the setting it reads. A tenant is one of the database and a
reviewer one of a request, neither of which has a pair spelt as two
characters. -/
structure Issue where
  tenantId : Text
  tenantSlug : Text
  reviewerId : Text
  now : ℤ
  consoleSessionTtlSeconds : ℤ
  tenantId_unpaired : Unpaired tenantId
  tenantSlug_unpaired : Unpaired tenantSlug
  reviewerId_unpaired : Unpaired reviewerId

namespace Issue

/-- `exp`. -/
def exp (i : Issue) : ℤ := i.now + i.consoleSessionTtlSeconds

/-- The payload. -/
def payload (i : Issue) : List (Text × Json) :=
  [(text "tenant_id", .str i.tenantId), (text "tenant_slug", .str i.tenantSlug),
    (text "reviewer_id", .str i.reviewerId), (text "exp", .int i.exp)]

end Issue

/-- `issue_session_cookie`. -/
def issueSessionCookie (secret : Text) (i : Issue) : Except Failure Text := sign rt i.payload secret

/-! ## The gate -/

/-- `Settings`, as far as the gate asks for them. -/
structure Settings where
  consoleSessionSecret : Text
  consoleDemoReviewers : Text
  consoleRateLimitPerMin : ℤ

/-- `s.strip()`. -/
def strip (s : Text) : Text := (s.rdropWhile (Python.isSpace ·)).dropWhile (Python.isSpace ·)

/-- `demo_reviewer_set`. -/
def Settings.demoReviewerSet (settings : Settings) : List Text :=
  ((settings.consoleDemoReviewers.splitOn (point ',')).map strip).filter (· ≠ [])

/-- `v in texts`: a list and an object have no hash. -/
def inTexts (texts : List Text) : Json → Except Failure Bool
  | .str s => .ok (texts.contains s)
  | .list _ | .dict _ => .error .typeError
  | _ => .ok false

/-- An `int`, which a `bool` is too. -/
def asInt : Json → Option ℤ
  | .int n => some n
  | .bool b => some (if b then 1 else 0)
  | _ => none

/-- `ConsoleSession`. -/
structure ConsoleSession where
  tenantId : Json
  tenantSlug : Json
  reviewerId : Json

/-- The reviewer of a payload, past its expiry and the allow-list. -/
def approved (settings : Settings) (now : ℤ) (payload : List (Text × Json)) :
    Except Failure Json :=
  let expiresAt := (Json.get? payload (text "exp")).bind asInt
  let reviewerId := (Json.get? payload (text "reviewer_id")).getD .null
  let refusal := forbidden "reviewer_id is not on the approved reviewer list"
  if ∀ n ∈ expiresAt, n ≤ now then
    .error (.apiError (unauthenticated "Console session expired; sign in again"))
  else if ¬ reviewerId.truthy then .error (.apiError refusal)
  else do
    let allowed ← inTexts settings.demoReviewerSet reviewerId
    if allowed then return reviewerId else throw (.apiError refusal)

/-- The payload of a cookie and its reviewer, past all checks but the rate. -/
def claimed (settings : Settings) (now : ℤ) (consoleSession : Option Text) :
    Except Failure (List (Text × Json) × Json) :=
  match consoleSession with
  | none | some [] => .error (.apiError (unauthenticated "No console session"))
  | some token => do
      let payload ← verify rt token settings.consoleSessionSecret
      match payload with
      | .null => throw (.apiError (unauthenticated "Invalid or tampered console session"))
      | .dict payload =>
          let reviewerId ← approved settings now payload
          return (payload, reviewerId)
      | _ => throw .attributeError

/-- The key of a bucket. Keys are only compared, so that a text stands in for
itself by its `repr`, which has no surrogate. -/
def bucketKey (s : Text) : String := stored (reprText rt.unicode s)

/-- `f"{tenant_id}:{reviewer_id}"`. -/
def rateKey (tenantId reviewerId : Json) : Text :=
  Json.toText rt.unicode tenantId ++ point ':' :: Json.toText rt.unicode reviewerId

variable {K : Type} [Field K]

/-- `get_console_limiter`. -/
def getConsoleLimiter (limiter : Option (TokenBucketLimiter K)) (refillPerMinute : ℤ) :
    TokenBucketLimiter K :=
  limiter.getD (.new refillPerMinute refillPerMinute)

variable [LinearOrder K] [FloorRing K]

/-- **`require_console_reviewer`**, and the limiter it leaves: `now` is
`int(time.time())`, and `clock` is what the limiter reads. -/
def requireConsoleReviewer (settings : Settings) (now : ℤ) (clock : K)
    (limiter : Option (TokenBucketLimiter K)) (consoleSession : Option Text) :
    Except Failure ConsoleSession × Option (TokenBucketLimiter K) :=
  match claimed rt settings now consoleSession with
  | .error e => (.error e, limiter)
  | .ok (payload, reviewerId) =>
      let l := getConsoleLimiter limiter settings.consoleRateLimitPerMin
      match Json.get? payload (text "tenant_id") with
      | none => (.error .keyError, some l)
      | some tenantId =>
          match l.check (bucketKey rt (rateKey rt tenantId reviewerId)) clock with
          | (l, .zeroDivision) => (.error .zeroDivisionError, some l)
          | (l, .rateLimited n) => (.error (.apiError (rateLimited n)), some l)
          | (l, .accepted) =>
              match Json.get? payload (text "tenant_slug") with
              | none => (.error .keyError, some l)
              | some tenantSlug => (.ok ⟨tenantId, tenantSlug, reviewerId⟩, some l)

end Console

end Api

end RetentionEngine
