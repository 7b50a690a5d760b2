import RetentionEngine.Api.ConsoleSession

/-!
# What the gate comes to

A token that was signed is verified, up to the order of keys, as far as JSON
and the interpreter go (`roundTrips_iff`). The gate lets through sessions of
issued cookies only. What it raises is an `ApiError`, but for two slips: a
cookie that is not ASCII is encoded outside the `try`, and a limiter that is
never refilled divides by zero (`gated_iff`).
-/

namespace RetentionEngine

namespace Api

namespace Console

open Python
open Python.Json (Unpaired Every IsPart DigitsFit Same nesting written sorted dumps loads LoadsError
  every_dict plain_written loads_written nesting_of_loads same_sorted)

variable {rt : Runtime} {t body sig secret token : Text} {payload : List (Text × Json)}

/-! ## Tokens -/

theorem rsplit_of_notMem (h : point '.' ∉ t) : rsplit t = none := by
  induction t with
  | nil => rfl
  | cons c t ih =>
      rw [List.mem_cons, not_or] at h
      unfold rsplit
      rw [ih h.2]
      exact if_neg (Ne.symm h.1)

/-- **A token is split at its last dot.** -/
theorem rsplit_append (h : point '.' ∉ sig) :
    rsplit (body ++ point '.' :: sig) = some (body, sig) := by
  induction body with
  | nil =>
      unfold rsplit
      rw [List.nil_append]
      dsimp only
      rw [rsplit_of_notMem h]
      exact if_pos rfl
  | cons c body ih =>
      unfold rsplit
      rw [List.cons_append]
      dsimp only
      rw [ih]

theorem notMem_of_rsplit (h : rsplit t = none) : point '.' ∉ t := by
  induction t with
  | nil => exact List.not_mem_nil
  | cons c t ih =>
      unfold rsplit at h
      split at h
      · cases h
      · rename_i hrest
        split at h
        · cases h
        · rw [List.mem_cons, not_or]
          exact ⟨Ne.symm ‹_›, ih hrest⟩

theorem of_rsplit (h : rsplit t = some (body, sig)) : t = body ++ point '.' :: sig := by
  induction t generalizing body with
  | nil => cases h
  | cons c t ih =>
      unfold rsplit at h
      split at h
      · rename_i body' sig' hrest
        cases h
        rw [ih hrest]
        rfl
      · split at h
        · rename_i hc
          cases h
          rw [hc]
          rfl
        · cases h

/-- The digest of a body. -/
def digest (rt : Runtime) (secret body : Text) : Text :=
  hexdigest (rt.hmacSha256 (secret.flatMap utf8) (asciiBytes body))

theorem isAscii_digest : IsAscii (digest rt secret body) := fun _ hc => (of_mem_hexdigest hc).1

theorem dot_notMem_digest : point '.' ∉ digest rt secret body := fun hc =>
  (of_mem_hexdigest hc).2 rfl

/-- **What is signed** has to be encoded first. -/
theorem signature_eq : signature rt secret body =
    if Encodable secret ∧ IsAscii body then .ok (digest rt secret body)
    else .error .unicodeEncodeError := by
  unfold signature encodeUtf8 encodeAscii
  by_cases hsecret : Encodable secret
  · by_cases hbody : IsAscii body
    · rw [if_pos hsecret, if_pos hbody, if_pos ⟨hsecret, hbody⟩]
      rfl
    · have hnot : ¬ (Encodable secret ∧ IsAscii body) := fun h => hbody h.2
      rw [if_pos hsecret, if_neg hbody, if_neg hnot]
  · have hnot : ¬ (Encodable secret ∧ IsAscii body) := fun h => hsecret h.1
    rw [if_neg hsecret, if_neg hnot]

/-- The body of a payload that has a text. -/
def tokenBody (payload : List (Text × Json)) : Text :=
  decodeAscii (Base64.urlsafeB64encode (asciiBytes (written (.dict payload))))

theorem isAscii_tokenBody : IsAscii (tokenBody payload) :=
  isAscii_decodeAscii fun _ hb => (Base64.of_mem_urlsafeB64encode hb).1

/-- A payload that `json.dumps` writes. -/
def Dumpable (rt : Runtime) (payload : List (Text × Json)) : Prop :=
  Every DigitsFit (.dict payload) ∧ nesting (.dict payload) ≤ rt.encodeDepth

instance : Decidable (Dumpable rt payload) := inferInstanceAs (Decidable (_ ∧ _))

/-- **The body of a token**, or what `json.dumps` raises. -/
theorem bodyOf_eq (hpart : Every (IsPart rt.toInterpreter) (.dict payload)) :
    bodyOf rt payload = if Dumpable rt payload then .ok (tokenBody payload)
      else .error .dumpsError := by
  unfold bodyOf dumps
  by_cases hdump : Dumpable rt payload
  · rw [if_pos hdump, if_pos (show _ ∧ _ from hdump)]
    dsimp only
    rw [encodeUtf8_of_isAscii (plain_written hpart).isAscii]
    rfl
  · rw [if_neg hdump, if_neg (show ¬ (_ ∧ _) from hdump)]

/-- `json.loads` under the `try` of `_verify`. -/
def caught : Except LoadsError Json → Except Failure Json
  | .ok v => .ok v
  | .error .valueError => .ok .null
  | .error .recursionError => .error .recursionError

/-- **A signed token is read.** -/
theorem verify_token (hsecret : Encodable secret) :
    verify rt (tokenBody payload ++ point '.' :: digest rt secret (tokenBody payload)) secret =
      caught (loads rt.toInterpreter (asciiBytes (written (.dict payload)))) := by
  have hbody : IsAscii (tokenBody payload) := isAscii_tokenBody
  have hback : Base64.urlsafeB64decode (asciiBytes (tokenBody payload)) =
      some (asciiBytes (written (.dict payload))) := by
    unfold tokenBody
    rw [asciiBytes_decodeAscii, Base64.urlsafeB64decode_urlsafeB64encode]
  unfold verify
  rw [rsplit_append dot_notMem_digest]
  dsimp only
  rw [signature_eq, if_pos ⟨hsecret, hbody⟩]
  unfold compareDigest
  simp only [bind, Except.bind, isAscii_digest, and_self, if_true, decide_true,
    encodeAscii_of_isAscii hbody, hback]
  cases loads rt.toInterpreter (asciiBytes (written (.dict payload))) with
  | ok v => rfl
  | error e => cases e <;> rfl

/-! ## The round trip -/

/-- **A JSON object**: what a JSON text can spell, with distinct keys. -/
structure Payload (py : Interpreter) where
  entries : List (Text × Json)
  isPart : Every (IsPart py) (.dict entries)

/-- `_verify(_sign(p, s), s)`. -/
def signVerify (rt : Runtime) (payload : List (Text × Json)) (secret : Text) :
    Except Failure Json := do
  let token ← sign rt payload secret
  verify rt token secret

/-- `_verify(_sign(p, s), s) == p`. -/
def RoundTrips (rt : Runtime) (payload : List (Text × Json)) (secret : Text) : Prop :=
  ∃ v, signVerify rt payload secret = .ok v ∧ Same v (.dict payload)

theorem sign_eq (hpart : Every (IsPart rt.toInterpreter) (.dict payload))
    (hdump : Dumpable rt payload) (hsecret : Encodable secret) :
    sign rt payload secret =
      .ok (tokenBody payload ++ point '.' :: digest rt secret (tokenBody payload)) := by
  unfold sign
  rw [bodyOf_eq hpart, if_pos hdump]
  simp only [bind, Except.bind, signature_eq, hsecret, isAscii_tokenBody, and_self, if_true]
  rfl

/-- What is signed was dumped, and the secret encoded. -/
theorem of_sign (hpart : Every (IsPart rt.toInterpreter) (.dict payload))
    (h : sign rt payload secret = .ok token) : Dumpable rt payload ∧ Encodable secret := by
  unfold sign at h
  rw [bodyOf_eq hpart] at h
  by_cases hdump : Dumpable rt payload
  · refine ⟨hdump, ?_⟩
    by_contra hsecret
    have hnot : ¬ (Encodable secret ∧ IsAscii (tokenBody payload)) := fun h => hsecret h.1
    rw [if_pos hdump] at h
    simp only [bind, Except.bind, signature_eq, if_neg hnot] at h
    cases h
  · rw [if_neg hdump] at h
    cases h

/-- **What comes back is what was signed**, exactly if the secret can be
encoded and JSON and the interpreter have room for the object. -/
theorem roundTrips_iff (hpart : Every (IsPart rt.toInterpreter) (.dict payload)) :
    RoundTrips rt payload secret ↔
      Encodable secret ∧ Dumpable rt payload ∧ nesting (.dict payload) ≤ rt.decodeDepth := by
  unfold RoundTrips signVerify
  constructor
  · rintro ⟨v, hv, hsame⟩
    obtain ⟨token, hsign, hverify⟩ := Json.of_bind_ok hv
    obtain ⟨hdump, hsecret⟩ := of_sign hpart hsign
    rw [sign_eq hpart hdump hsecret] at hsign
    cases hsign
    refine ⟨hsecret, hdump, ?_⟩
    rw [verify_token hsecret] at hverify
    cases hloads : loads rt.toInterpreter (asciiBytes (written (.dict payload))) with
    | ok w =>
        rw [hloads] at hverify
        cases hverify
        exact hsame.nesting ▸ nesting_of_loads hpart hloads
    | error e =>
        -- an error is caught as `None`, which is no object
        rw [hloads] at hverify
        cases e with
        | valueError =>
            cases hverify
            exact absurd hsame.nesting (Nat.succ_ne_zero _).symm
        | recursionError => cases hverify
  · rintro ⟨hsecret, hdump, hdepth⟩
    refine ⟨sorted (.dict payload), ?_, same_sorted _⟩
    rw [sign_eq hpart hdump hsecret]
    show verify rt _ secret = _
    rw [verify_token hsecret, loads_written hpart hdump.1 hdepth]
    rfl

/-! ## An issued cookie -/

variable {i : Issue} {issued : List Issue} {settings : Settings} {now : ℤ}
  {consoleSession : Option Text}

namespace Issue

theorem isPart (i : Issue) (py : Interpreter) : Every (IsPart py) (.dict i.payload) := by
  refine every_dict.mpr ⟨⟨?_, ?_⟩, ?_⟩
  · show (List.map Prod.fst i.payload).Nodup
    unfold payload
    simp only [List.map_cons, List.map_nil]
    decide
  · unfold payload
    simp only [List.forall_mem_cons]
    refine ⟨?_, ?_, ?_, ?_, fun _ h => absurd h List.not_mem_nil⟩
    all_goals exact Json.joined_eq_self_iff.mp (by decide)
  · unfold payload
    simp only [List.forall_mem_cons]
    exact ⟨i.tenantId_unpaired, i.tenantSlug_unpaired, i.reviewerId_unpaired, trivial,
      fun _ h => absurd h List.not_mem_nil⟩

/-- The payload as it is read. -/
def read (i : Issue) : List (Text × Json) :=
  [(text "exp", .int i.exp), (text "reviewer_id", .str i.reviewerId),
    (text "tenant_id", .str i.tenantId), (text "tenant_slug", .str i.tenantSlug)]

theorem sorted_payload (i : Issue) : sorted (.dict i.payload) = .dict i.read := rfl

theorem nesting_payload (i : Issue) : nesting (.dict i.payload) = 1 := rfl

end Issue

/-- **The token is a cookie that was issued.** -/
def Genuine (rt : Runtime) (secret : Text) (i : Issue) (token : Text) : Prop :=
  issueSessionCookie rt secret i = .ok token

theorem Genuine.encodable (h : Genuine rt secret i token) : Encodable secret :=
  (of_sign (i.isPart rt.toInterpreter) h).2

theorem Genuine.token_eq (h : Genuine rt secret i token) :
    token = tokenBody i.payload ++ point '.' :: digest rt secret (tokenBody i.payload) := by
  obtain ⟨hdump, hsecret⟩ := of_sign (i.isPart rt.toInterpreter) h
  have hsign := sign_eq (i.isPart rt.toInterpreter) hdump hsecret
  exact Except.ok.inj (h.symm.trans hsign)

/-- **An issued cookie is read.** -/
theorem Genuine.verify (h : Genuine rt secret i token) :
    verify rt token secret = .ok (.dict i.read) := by
  obtain ⟨hdump, hsecret⟩ := of_sign (i.isPart rt.toInterpreter) h
  have hdepth : nesting (.dict i.payload) ≤ rt.decodeDepth := by
    rw [i.nesting_payload]
    exact rt.decodeDepth_pos
  rw [h.token_eq, verify_token hsecret, loads_written (i.isPart rt.toInterpreter) hdump.1 hdepth,
    i.sorted_payload]
  rfl

theorem nil_notMem_demoReviewerSet : [] ∉ settings.demoReviewerSet := by
  unfold Settings.demoReviewerSet
  rw [List.mem_filter]
  exact fun h => absurd h.2 (by decide)

/-- The expiry of an issued cookie, and the allow-list. -/
theorem approved_read (i : Issue) : approved settings now i.read =
    if i.exp ≤ now then
      .error (.apiError (unauthenticated "Console session expired; sign in again"))
    else if i.reviewerId ∈ settings.demoReviewerSet then .ok (.str i.reviewerId)
    else .error (.apiError (forbidden "reviewer_id is not on the approved reviewer list")) := by
  have hexp : (Json.get? i.read (text "exp")).bind asInt = some i.exp := rfl
  have hreviewer : (Json.get? i.read (text "reviewer_id")).getD .null = .str i.reviewerId := rfl
  unfold approved
  rw [hexp, hreviewer]
  dsimp only
  by_cases hold : i.exp ≤ now
  · rw [if_pos hold, if_pos fun n hn => Option.some.inj hn ▸ hold]
  · have hnew : ¬ ∀ n ∈ some i.exp, n ≤ now := fun h => hold (h i.exp rfl)
    rw [if_neg hold, if_neg hnew]
    by_cases hempty : i.reviewerId = []
    · have hnot : i.reviewerId ∉ settings.demoReviewerSet := hempty ▸ nil_notMem_demoReviewerSet
      rw [if_neg hnot, hempty]
      rfl
    · have htruthy : Json.truthy (.str i.reviewerId) = true := decide_eq_true hempty
      rw [htruthy, if_neg (not_not.mpr rfl)]
      by_cases hin : i.reviewerId ∈ settings.demoReviewerSet
      · rw [if_pos hin]
        simp [inTexts, hin, bind, Except.bind, pure, Except.pure]
      · rw [if_neg hin]
        simp [inTexts, hin, bind, Except.bind, throw, throwThe, MonadExceptOf.throw]

/-! ## Tokens that are not issued -/

theorem isAscii_token : IsAscii (body ++ point '.' :: sig) ↔ IsAscii body ∧ IsAscii sig := by
  have hdot : IsAscii (point '.' :: sig) ↔ IsAscii sig := by
    unfold IsAscii
    rw [List.forall_mem_cons]
    exact and_iff_right (by decide)
  rw [isAscii_append, hdot]

/-- **A token that is not ASCII raises**, and so does a secret that has no
UTF-8. -/
theorem verify_of_not_legible (h : rsplit token = some (body, sig))
    (hnot : ¬ (IsAscii token ∧ Encodable secret)) :
    verify rt token secret = .error .unicodeEncodeError ∨
      verify rt token secret = .error .typeError := by
  unfold verify
  rw [h]
  dsimp only
  rw [signature_eq]
  by_cases hbody : Encodable secret ∧ IsAscii body
  · have hsig : ¬ (IsAscii sig ∧ IsAscii (digest rt secret body)) := by
      intro hsig
      rw [of_rsplit h, isAscii_token] at hnot
      exact hnot ⟨⟨hbody.2, hsig.1⟩, hbody.1⟩
    right
    rw [if_pos hbody]
    simp only [bind, Except.bind, compareDigest, if_neg hsig]
  · left
    rw [if_neg hbody]
    rfl

/-- A wrong signature is refused. -/
theorem verify_of_ne (h : rsplit token = some (body, sig)) (hascii : IsAscii token)
    (hsecret : Encodable secret) (hne : sig ≠ digest rt secret body) :
    verify rt token secret = .ok .null := by
  rw [of_rsplit h, isAscii_token] at hascii
  unfold verify
  rw [h]
  dsimp only
  rw [signature_eq, if_pos ⟨hsecret, hascii.1⟩]
  simp only [bind, Except.bind, compareDigest, hascii.2, isAscii_digest, and_self, if_true,
    decide_eq_false hne]
  rfl

/-! ## The gate -/

variable {K : Type} [Field K] [LinearOrder K] {clock : K} {limiter : Option (TokenBucketLimiter K)}
  {l : TokenBucketLimiter K} {k : String}

/-- **The limiter cannot say how long to wait**: there is no token, and none
will come. -/
def Stuck (l : TokenBucketLimiter K) (key : String) (clock : K) : Prop :=
  l.refilled key clock < 1 ∧ l.refillPerSecond = 0

/-- The bucket of a session. -/
def Issue.key (rt : Runtime) (i : Issue) : String :=
  bucketKey rt (rateKey rt (.str i.tenantId) (.str i.reviewerId))

/-- **The cookie was issued**, has not expired, and its reviewer is on the
allow-list. -/
def Admits (rt : Runtime) (settings : Settings) (now : ℤ) (consoleSession : Option Text)
    (i : Issue) : Prop :=
  (∃ token ∈ consoleSession, Genuine rt settings.consoleSessionSecret i token) ∧ now < i.exp ∧
    i.reviewerId ∈ settings.demoReviewerSet

/-- **What the gate promises**: an `ApiError`, or the session of an admitted
cookie. -/
def Gated (rt : Runtime) (settings : Settings) (issued : List Issue) (now : ℤ)
    (consoleSession : Option Text) (result : Except Failure ConsoleSession) : Prop :=
  (∃ e, result = .error (.apiError e)) ∨ ∃ i ∈ issued, Admits rt settings now consoleSession i ∧
    result = .ok ⟨.str i.tenantId, .str i.tenantSlug, .str i.reviewerId⟩

/-- **A signature verifies only for a body that was issued.** -/
def SignedOnly (rt : Runtime) (secret : Text) (issued : List Issue)
    (consoleSession : Option Text) : Prop :=
  ∀ token ∈ consoleSession, ∀ body sig, rsplit token = some (body, sig) →
    signature rt secret body = .ok sig → ∃ i ∈ issued, bodyOf rt i.payload = .ok body

/-- A cookie with two parts is ASCII, and the secret has an encoding. -/
def Legible (settings : Settings) (consoleSession : Option Text) : Prop :=
  ∀ token ∈ consoleSession, point '.' ∈ token →
    IsAscii token ∧ Encodable settings.consoleSessionSecret

variable [FloorRing K]

theorem check_zeroDivision_iff : (l.check k clock).2 = .zeroDivision ↔ Stuck l k clock := by
  unfold TokenBucketLimiter.check Stuck
  dsimp only
  by_cases hlow : l.refilled k clock < 1
  · rw [if_pos hlow]
    by_cases hrate : l.refillPerSecond = 0
    · simp [hrate, hlow]
    · simp [hrate]
  · rw [if_neg hlow]
    simp [hlow]

/-- What the limiter makes of an admitted cookie. -/
def outcome (i : Issue) : CheckResult → Except Failure ConsoleSession
  | .accepted => .ok ⟨.str i.tenantId, .str i.tenantSlug, .str i.reviewerId⟩
  | .rateLimited n => .error (.apiError (rateLimited n))
  | .zeroDivision => .error .zeroDivisionError

theorem claimed_of_verify {v : Json} (hne : token ≠ [])
    (h : verify rt token settings.consoleSessionSecret = .ok v) :
    claimed rt settings now (some token) = match v with
      | .null => .error (.apiError (unauthenticated "Invalid or tampered console session"))
      | .dict payload => (approved settings now payload).map fun r => (payload, r)
      | _ => .error .attributeError := by
  obtain ⟨c, t, rfl⟩ := List.exists_cons_of_ne_nil hne
  unfold claimed
  simp only [h, bind, Except.bind]
  cases v with
  | dict payload =>
      dsimp only
      cases approved settings now payload <;> rfl
  | null | bool _ | int _ | float _ | str _ | list _ => rfl

theorem claimed_of_error {e : Failure} (hne : token ≠ [])
    (h : verify rt token settings.consoleSessionSecret = .error e) :
    claimed rt settings now (some token) = .error e := by
  obtain ⟨c, t, rfl⟩ := List.exists_cons_of_ne_nil hne
  unfold claimed
  simp only [h, bind, Except.bind]

theorem require_of_error {e : Failure} (h : claimed rt settings now consoleSession = .error e) :
    (requireConsoleReviewer rt settings now clock limiter consoleSession).1 = .error e := by
  unfold requireConsoleReviewer
  rw [h]

theorem Genuine.ne_nil (h : Genuine rt secret i token) : token ≠ [] := by
  rw [h.token_eq]
  exact List.append_ne_nil_of_right_ne_nil _ (List.cons_ne_nil _ _)

/-- **An admitted cookie** comes to what the limiter makes of it. -/
theorem require_of_admits (h : Admits rt settings now consoleSession i) :
    (requireConsoleReviewer rt settings now clock limiter consoleSession).1 =
      outcome i ((getConsoleLimiter limiter settings.consoleRateLimitPerMin).check
        (i.key rt) clock).2 := by
  obtain ⟨⟨token, htoken, hgenuine⟩, hnew, hin⟩ := h
  obtain rfl := Option.mem_def.mp htoken
  have hclaimed : claimed rt settings now (some token) = .ok (i.read, .str i.reviewerId) := by
    rw [claimed_of_verify hgenuine.ne_nil hgenuine.verify]
    dsimp only
    rw [approved_read, if_neg (not_le.mpr hnew), if_pos hin]
    rfl
  have htenant : Json.get? i.read (text "tenant_id") = some (.str i.tenantId) := rfl
  have hslug : Json.get? i.read (text "tenant_slug") = some (.str i.tenantSlug) := rfl
  unfold requireConsoleReviewer
  rw [hclaimed]
  dsimp only
  rw [htenant]
  dsimp only
  rw [show bucketKey rt (rateKey rt (.str i.tenantId) (.str i.reviewerId)) = i.key rt from rfl]
  rcases (getConsoleLimiter limiter settings.consoleRateLimitPerMin).check (i.key rt) clock with
    ⟨l', _ | _ | _⟩
  · dsimp only
    rw [hslug]
    rfl
  · rfl
  · rfl

/-- An issued cookie that is not admitted is refused. -/
theorem require_of_not_admits (h : Genuine rt settings.consoleSessionSecret i token)
    (hnot : ¬ Admits rt settings now (some token) i) :
    ∃ e, (requireConsoleReviewer rt settings now clock limiter (some token)).1 =
      .error (.apiError e) := by
  have hclaimed : claimed rt settings now (some token) =
      (approved settings now i.read).map fun r => (i.read, r) :=
    claimed_of_verify h.ne_nil h.verify
  rw [approved_read] at hclaimed
  by_cases hold : i.exp ≤ now
  · rw [if_pos hold] at hclaimed
    exact ⟨_, require_of_error hclaimed⟩
  · have hout : i.reviewerId ∉ settings.demoReviewerSet := fun hin =>
      hnot ⟨⟨token, rfl, h⟩, not_le.mp hold, hin⟩
    rw [if_neg hold, if_neg hout] at hclaimed
    exact ⟨_, require_of_error hclaimed⟩

/-- **A cookie that cannot be encoded raises something else.** -/
theorem not_gated_of_not_legible (h : ¬ Legible settings consoleSession) :
    ¬ Gated rt settings issued now consoleSession
      (requireConsoleReviewer rt settings now clock limiter consoleSession).1 := by
  unfold Legible at h
  push Not at h
  obtain ⟨token, htoken, hdot, hnot⟩ := h
  obtain rfl := Option.mem_def.mp htoken
  have hne : token ≠ [] := List.ne_nil_of_mem hdot
  have hraises : ∃ e, (∀ a, e ≠ .apiError a) ∧
      (requireConsoleReviewer rt settings now clock limiter (some token)).1 = .error e := by
    cases hsplit : rsplit token with
    | none => exact absurd hdot (notMem_of_rsplit hsplit)
    | some r =>
        have hnot' : ¬ (IsAscii token ∧ Encodable settings.consoleSessionSecret) := fun h =>
          hnot h.1 h.2
        rcases verify_of_not_legible hsplit hnot' with hverify | hverify
        · exact ⟨.unicodeEncodeError, nofun, require_of_error (claimed_of_error hne hverify)⟩
        · exact ⟨.typeError, nofun, require_of_error (claimed_of_error hne hverify)⟩
  obtain ⟨e, he, hresult⟩ := hraises
  rw [hresult]
  rintro (⟨a, ha⟩ | ⟨i, -, -, hi⟩)
  · exact he a (Except.error.inj ha)
  · cases hi

/-- **What is not admitted is refused.** -/
theorem refused (hsigned : SignedOnly rt settings.consoleSessionSecret issued consoleSession)
    (hlegible : Legible settings consoleSession)
    (hnone : ∀ i ∈ issued, ¬ Admits rt settings now consoleSession i) :
    ∃ e, (requireConsoleReviewer rt settings now clock limiter consoleSession).1 =
      .error (.apiError e) := by
  cases consoleSession with
  | none => exact ⟨_, rfl⟩
  | some token =>
      by_cases hne : token = []
      · subst hne
        exact ⟨_, rfl⟩
      · have htampered : verify rt token settings.consoleSessionSecret = .ok .null →
            ∃ e, (requireConsoleReviewer rt settings now clock limiter (some token)).1 =
              .error (.apiError e) := fun h =>
          ⟨_, require_of_error (claimed_of_verify hne h)⟩
        cases hsplit : rsplit token with
        | none =>
            refine htampered ?_
            unfold verify
            rw [hsplit]
        | some r =>
            obtain ⟨body, sig⟩ := r
            have htoken := of_rsplit hsplit
            have hdot : point '.' ∈ token := by
              rw [htoken]
              exact List.mem_append_right _ List.mem_cons_self
            obtain ⟨hascii, hsecret⟩ := hlegible token rfl hdot
            by_cases hsig : sig = digest rt settings.consoleSessionSecret body
            · have hbody : IsAscii body := (isAscii_token.mp (htoken ▸ hascii)).1
              have hverifies : signature rt settings.consoleSessionSecret body = .ok sig := by
                rw [signature_eq, if_pos ⟨hsecret, hbody⟩, hsig]
              obtain ⟨i, hi, hissued⟩ := hsigned token rfl body sig hsplit hverifies
              have hgenuine : Genuine rt settings.consoleSessionSecret i token := by
                unfold Genuine issueSessionCookie sign
                rw [hissued, htoken]
                simp only [bind, Except.bind, hverifies]
                rfl
              exact require_of_not_admits hgenuine (hnone i hi)
            · exact htampered (verify_of_ne hsplit hascii hsecret hsig)

/-- **When the gate keeps its promise**: the cookie and the secret can be
encoded, and the limiter is not stuck at the session of an admitted cookie. -/
def Passable (rt : Runtime) (settings : Settings) (issued : List Issue) (now : ℤ) (clock : K)
    (limiter : Option (TokenBucketLimiter K)) (consoleSession : Option Text) : Prop :=
  Legible settings consoleSession ∧
    ∀ i ∈ issued, Admits rt settings now consoleSession i →
      ¬ Stuck (getConsoleLimiter limiter settings.consoleRateLimitPerMin) (i.key rt) clock

/-- **The gate keeps its promise exactly then.** -/
theorem gated_iff (hsigned : SignedOnly rt settings.consoleSessionSecret issued consoleSession) :
    Gated rt settings issued now consoleSession
        (requireConsoleReviewer rt settings now clock limiter consoleSession).1 ↔
      Passable rt settings issued now clock limiter consoleSession := by
  constructor
  · intro h
    refine ⟨not_imp_not.mp not_gated_of_not_legible h, fun i _ hadmits hstuck => ?_⟩
    rw [require_of_admits hadmits, check_zeroDivision_iff.mpr hstuck] at h
    rcases h with ⟨e, he⟩ | ⟨j, -, -, hj⟩
    · cases he
    · cases hj
  · rintro ⟨hlegible, hfree⟩
    by_cases hadmits : ∃ i ∈ issued, Admits rt settings now consoleSession i
    · obtain ⟨i, hi, hadmits⟩ := hadmits
      have hdivides := mt check_zeroDivision_iff.mp (hfree i hi hadmits)
      rw [require_of_admits hadmits]
      cases hresult : ((getConsoleLimiter limiter settings.consoleRateLimitPerMin).check
          (i.key rt) clock).2 with
      | accepted => exact Or.inr ⟨i, hi, hadmits, rfl⟩
      | rateLimited n => exact Or.inl ⟨rateLimited n, rfl⟩
      | zeroDivision => exact absurd hresult hdivides
    · exact Or.inl (refused hsigned hlegible fun i hi h => hadmits ⟨i, hi, h⟩)

/-- An issued cookie verifies for its own body. -/
theorem signedOnly_of_genuine (hi : i ∈ issued) (h : Genuine rt secret i token) :
    SignedOnly rt secret issued (some token) := by
  intro token' htoken' body sig hsplit _
  obtain rfl := Option.some.inj htoken'
  rw [h.token_eq, rsplit_append dot_notMem_digest] at hsplit
  cases hsplit
  obtain ⟨hdump, -⟩ := of_sign (i.isPart rt.toInterpreter) h
  exact ⟨i, hi, by rw [bodyOf_eq (i.isPart rt.toInterpreter), if_pos hdump]⟩

/-! ## The two promises -/

/-- **The console gate and the round trip of its tokens.** -/
theorem console_session_iff
    (hsigned : SignedOnly rt settings.consoleSessionSecret issued consoleSession)
    (p : Payload rt.toInterpreter) (s : Text) :
    (Gated rt settings issued now consoleSession
        (requireConsoleReviewer rt settings now clock limiter consoleSession).1 ↔
      Passable rt settings issued now clock limiter consoleSession) ∧
    (RoundTrips rt p.entries s ↔ Encodable s ∧ Dumpable rt p.entries ∧
      nesting (.dict p.entries) ≤ rt.decodeDepth) :=
  ⟨gated_iff hsigned, roundTrips_iff p.isPart⟩

section Examples

/-- A runtime that has seen one digest. -/
def oneDigest : Runtime where
  unicode := ⟨fun _ => false, fun _ => none, fun _ _ => rfl⟩
  reprFloat _ := "0.0"
  encodeDepth := 900
  decodeDepth := 900
  decodeOther _ := none
  decodeDepth_pos := by decide
  hmacSha256 _ _ := [143, 33, 219, 143, 199, 169, 173, 200, 230, 155, 90, 233, 192, 29, 186, 49,
    122, 74, 89, 137, 174, 75, 18, 6, 176, 183, 91, 17, 79, 23, 112, 126]

/-- The settings of the tests. -/
def testSettings : Settings := ⟨text "test-console-secret", text "ops_reviewer_1", 300⟩

/-- The session of the tests. -/
def testIssue : Issue where
  tenantId := text "t1"
  tenantSlug := text "demo-wallet"
  reviewerId := text "ops_reviewer_1"
  now := 1700000000
  consoleSessionTtlSeconds := 43200
  tenantId_unpaired := Json.joined_eq_self_iff.mp (by decide)
  tenantSlug_unpaired := Json.joined_eq_self_iff.mp (by decide)
  reviewerId_unpaired := Json.joined_eq_self_iff.mp (by decide)

/-- Its cookie. -/
def testCookie : Text :=
  text "eyJleHAiOiAxNzAwMDQzMjAwLCAicmV2aWV3ZXJfaWQiOiAib3BzX3Jldmlld2VyXzEiLCAi" ++
    (text "dGVuYW50X2lkIjogInQxIiwgInRlbmFudF9zbHVnIjogImRlbW8td2FsbGV0In0=." ++
      text "8f21db8fc7a9adc8e69b5ae9c01dba317a4a5989ae4b1206b0b75b114f17707e")

theorem genuine_testCookie :
    Genuine oneDigest testSettings.consoleSessionSecret testIssue testCookie := by
  unfold Genuine
  decide +kernel

/-- The gate lets the session of the tests through, or slows it down, and its
payload makes the round trip. -/
theorem console_session_testCookie :
    Gated oneDigest testSettings [testIssue] 1700000001 (some testCookie)
      (requireConsoleReviewer oneDigest testSettings 1700000001 (0 : ℚ) none
        (some testCookie)).1 ∧
      RoundTrips oneDigest testIssue.payload testSettings.consoleSessionSecret := by
  have hsigned : SignedOnly oneDigest testSettings.consoleSessionSecret [testIssue]
      (some testCookie) := signedOnly_of_genuine List.mem_cons_self genuine_testCookie
  have h : (Gated oneDigest testSettings [testIssue] 1700000001 (some testCookie)
      (requireConsoleReviewer oneDigest testSettings 1700000001 (0 : ℚ) none
        (some testCookie)).1 ↔ _) ∧
      (RoundTrips oneDigest testIssue.payload testSettings.consoleSessionSecret ↔ _) :=
    console_session_iff hsigned ⟨testIssue.payload, testIssue.isPart oneDigest.toInterpreter⟩ _
  obtain ⟨hgate, htrip⟩ := h
  refine ⟨hgate.mpr ⟨?_, ?_⟩, htrip.mpr (by decide +kernel)⟩
  · intro token htoken _
    obtain rfl := Option.some.inj htoken
    decide +kernel
  · intro i hi _ hstuck
    obtain rfl := List.mem_singleton.mp hi
    have hrate : (getConsoleLimiter (none : Option (TokenBucketLimiter ℚ))
        testSettings.consoleRateLimitPerMin).refillPerSecond ≠ 0 := by decide +kernel
    exact hrate hstuck.2

/-- **A cookie with an accent** raises a `UnicodeEncodeError`, though no body
was issued. -/
theorem console_session_accent :
    SignedOnly oneDigest testSettings.consoleSessionSecret [] (some (text "é.0")) ∧
      (requireConsoleReviewer oneDigest testSettings 0 (0 : ℚ) none (some (text "é.0"))).1 =
        .error .unicodeEncodeError ∧
      ¬ Gated oneDigest testSettings [] 0 (some (text "é.0"))
        (requireConsoleReviewer oneDigest testSettings 0 (0 : ℚ) none (some (text "é.0"))).1 := by
  have hverify : verify oneDigest (text "é.0") testSettings.consoleSessionSecret =
      .error .unicodeEncodeError := rfl
  have hresult : (requireConsoleReviewer oneDigest testSettings 0 (0 : ℚ) none
      (some (text "é.0"))).1 = .error .unicodeEncodeError :=
    require_of_error (claimed_of_error (by decide) hverify)
  refine ⟨?_, hresult, ?_⟩
  · intro token htoken body sig hsplit hverifies
    obtain rfl := Option.some.inj htoken
    have hparts : rsplit (text "é.0") = some (text "é", text "0") := by decide
    rw [hparts] at hsplit
    cases hsplit
    have hfails : signature oneDigest testSettings.consoleSessionSecret (text "é") =
        .error .unicodeEncodeError := rfl
    rw [hfails] at hverifies
    cases hverifies
  · rw [hresult]
    rintro (⟨e, he⟩ | ⟨i, hi, -⟩)
    · cases he
    · cases hi

end Examples

end Console

end Api

end RetentionEngine
