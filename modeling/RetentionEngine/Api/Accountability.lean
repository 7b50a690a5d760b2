import RetentionEngine.Api.Approvals

/-!
# Everything that was done was done by someone

What the gate lets through was issued (`of_require`); so the call a request
comes to is made on behalf of a reviewer who has signed in, or of a client
with a key of the tenant (`serve_table`). A call says in the audit log who
made it, and the rows say nothing that the log does not (`accountable`).
-/

namespace RetentionEngine

namespace Lifecycle

/-- What a call that returns adds to the audit log. -/
def Call.entries : Call → List AuditEntry
  | .createPending .. => []
  | .approve tenantId id reviewerId note _ =>
      [⟨tenantId, reviewerId, "RECOMMENDATION_APPROVED", "recommendation", id, .approved, note⟩]
  | .reject tenantId id reviewerId note _ =>
      [⟨tenantId, reviewerId, "RECOMMENDATION_REJECTED", "recommendation", id, .rejected, note⟩]
  | .markDelivered tenantId id deliveryRef actor _ =>
      [⟨tenantId, actor, "RECOMMENDATION_DELIVERED", "recommendation", id, .delivered, deliveryRef⟩]

variable {s s' : State} {c : Call} {tenantId id : Uuid} {e : AuditEntry} {reviewer : String}

/-- **The log of a call.** -/
theorem auditLog_perform (h : c.perform s = .ok s') : s'.auditLog = s.auditLog ++ c.entries := by
  cases c with
  | createPending t k fields now =>
      cases fields with
      | none => cases h
      | some f =>
          unfold Call.perform at h
          dsimp only at h
          split at h
          · cases h
          · obtain ⟨rfl, -⟩ := of_flush h
            exact (List.append_nil _).symm
  | approve t k reviewer note now | reject t k reviewer note now
  | markDelivered t k deliveryRef actor now =>
      obtain ⟨rows, -, h⟩ := exists_of_bind_eq_ok h
      obtain ⟨flushed, hflush, h⟩ := exists_of_bind_eq_ok h
      obtain rfl := Except.ok.inj h
      obtain ⟨rfl, -⟩ := of_flush hflush
      rfl

/-- A new entry of a row's trail is the call's. -/
theorem mem_entries (h : c.perform s = .ok s')
    (htrail : s'.trailOf tenantId id = s.trailOf tenantId id ++ [e]) :
    e ∈ c.entries ∧ e.tenantId = tenantId ∧ e.entityId = id := by
  unfold State.trailOf at htrail
  rw [auditLog_perform h, List.filter_append] at htrail
  have hnew := List.append_cancel_left htrail
  have hmem : e ∈ c.entries.filter fun e => e.tenantId = tenantId ∧ e.entityId = id :=
    hnew ▸ List.mem_singleton_self e
  obtain ⟨he, hkey⟩ := List.mem_filter.mp hmem
  exact ⟨he, of_decide_eq_true hkey⟩

/-- A review is logged under the reviewer's name. -/
theorem Call.Reviews.actor (h : c.Reviews tenantId id reviewer) (he : e ∈ c.entries) :
    e.actor = reviewer := by
  rcases h with ⟨note, now, rfl⟩ | ⟨note, now, rfl⟩
  · rw [List.mem_singleton.mp he]
  · rw [List.mem_singleton.mp he]

/-- **The row says nothing the log does not**: its reviewer is who reviewed
it there, and its delivery stands there. -/
structure OnRecord (s : State) (tenantId id : Uuid) (row : RecommendationRow) : Prop where
  reviewed : row.status ∈ RecommendationStatus.reviewerRequired →
    ∃ e ∈ s.trailOf tenantId id, (e.status = .approved ∨ e.status = .rejected) ∧
      row.reviewedBy = some e.actor
  delivered : row.status = .delivered → ∃ e ∈ s.trailOf tenantId id, e.status = .delivered

/-- **One call keeps every row on record.** -/
theorem onRecord_perform (hkeys : s.KeysUsed)
    (hrecord : ∀ row ∈ s.rowOf tenantId id, OnRecord s tenantId id row)
    (h : c.perform s = .ok s') : ∀ row ∈ s'.rowOf tenantId id, OnRecord s' tenantId id row := by
  have hrow : ∃ new, RowStep tenantId id c (s.rowOf tenantId id) (s'.rowOf tenantId id) new ∧
      s'.trailOf tenantId id = s.trailOf tenantId id ++ new := perform_row hkeys h
  obtain ⟨new, hstep, htrail⟩ := hrow
  generalize hbefore : s.rowOf tenantId id = before at hstep hrecord
  generalize hafter : s'.rowOf tenantId id = after at hstep
  cases hstep with
  | same =>
      rw [List.append_nil] at htrail
      intro row hrow
      obtain ⟨hreviewed, hdelivered⟩ := hrecord row hrow
      exact ⟨htrail ▸ hreviewed, htrail ▸ hdelivered⟩
  | created hpending _ =>
      intro row hrow
      obtain rfl := Option.some.inj hrow
      refine ⟨fun hstatus => ?_, fun hstatus => ?_⟩
      · rw [hpending] at hstatus
        exact absurd hstatus (by decide)
      · rw [hpending] at hstatus
        cases hstatus
  | @reviewed _ row' reviewer entry hcall _ _ hstatus hreviewer hentry =>
      intro row hrow
      obtain rfl := Option.some.inj hrow
      -- the new entry is the review's own, so its actor is the row's reviewer
      obtain ⟨hmem, -, -⟩ := mem_entries h htrail
      have hlast : entry ∈ s'.trailOf tenantId id := by
        rw [htrail]
        exact List.mem_append_right _ (List.mem_singleton_self _)
      refine ⟨fun _ => ⟨entry, hlast, hentry ▸ hstatus, ?_⟩, fun hdelivered => ?_⟩
      · rw [hreviewer, hcall.actor hmem]
      · rcases hstatus with heq | heq
        · rw [heq] at hdelivered
          cases hdelivered
        · rw [heq] at hdelivered
          cases hdelivered
  | @delivered row row' entry happroved _ hreviewer _ hentry =>
      intro row'' hrow
      obtain rfl := Option.some.inj hrow
      have hlast : entry ∈ s'.trailOf tenantId id := by
        rw [htrail]
        exact List.mem_append_right _ (List.mem_singleton_self _)
      refine ⟨fun _ => ?_, fun _ => ⟨entry, hlast, hentry⟩⟩
      -- the review is on record since the row was approved
      obtain ⟨e, he, hstatus, hby⟩ := (hrecord row rfl).reviewed (by rw [happroved]; decide)
      refine ⟨e, ?_, hstatus, hreviewer.trans hby⟩
      rw [htrail]
      exact List.mem_append_left _ he

end Lifecycle

namespace Api

namespace Console

open Python
open Lifecycle (AuditEntry OnRecord auditLog_perform onRecord_perform)

variable {K : Type} {d : Deployment} {tr : List (Transition (Desk K) (Request K))}

/-! ## The gate -/

section Gate

variable {rt : Runtime} {settings : Settings} {issued : List Issue} {now : ℤ}
  {consoleSession : Option Text} {console : ConsoleSession} [Field K] [LinearOrder K] [FloorRing K]
  {clock : K} {limiter limiter' : Option (TokenBucketLimiter K)}

/-- A cookie that cannot be encoded raises. -/
theorem raises_of_not_legible (h : ¬ Legible settings consoleSession) :
    ∃ e, (requireConsoleReviewer rt settings now clock limiter consoleSession).1 = .error e := by
  unfold Legible at h
  push Not at h
  obtain ⟨token, htoken, hdot, hnot⟩ := h
  obtain rfl := Option.mem_def.mp htoken
  have hne : token ≠ [] := List.ne_nil_of_mem hdot
  cases hsplit : rsplit token with
  | none => exact absurd hdot (notMem_of_rsplit hsplit)
  | some r =>
      have hnot' : ¬ (IsAscii token ∧ Encodable settings.consoleSessionSecret) := fun h =>
        hnot h.1 h.2
      rcases verify_of_not_legible hsplit hnot' with hverify | hverify
      · exact ⟨_, require_of_error (claimed_of_error hne hverify)⟩
      · exact ⟨_, require_of_error (claimed_of_error hne hverify)⟩

/-- **What the gate lets through was issued.** -/
theorem of_require (hsigned : SignedOnly rt settings.consoleSessionSecret issued consoleSession)
    (h : requireConsoleReviewer rt settings now clock limiter consoleSession =
      (.ok console, limiter')) :
    ∃ i ∈ issued, Admits rt settings now consoleSession i ∧
      console = ⟨.str i.tenantId, .str i.tenantSlug, .str i.reviewerId⟩ := by
  have hok := congrArg Prod.fst h
  dsimp only at hok
  by_cases hadmits : ∃ i ∈ issued, Admits rt settings now consoleSession i
  · obtain ⟨i, hi, hadmits⟩ := hadmits
    refine ⟨i, hi, hadmits, ?_⟩
    rw [require_of_admits hadmits] at hok
    cases hresult : ((getConsoleLimiter limiter settings.consoleRateLimitPerMin).check
        (i.key rt) clock).2 with
    | accepted =>
        rw [hresult] at hok
        exact (Except.ok.inj hok).symm
    | rateLimited n =>
        rw [hresult] at hok
        cases hok
    | zeroDivision =>
        rw [hresult] at hok
        cases hok
  · -- no session admits the cookie: the gate refuses it, or fails to read it
    have hraises : ∃ e,
        (requireConsoleReviewer rt settings now clock limiter consoleSession).1 = .error e := by
      by_cases hlegible : Legible settings consoleSession
      · obtain ⟨e, he⟩ : ∃ e, (requireConsoleReviewer rt settings now clock limiter
            consoleSession).1 = .error (.apiError e) :=
          refused hsigned hlegible fun i hi h => hadmits ⟨i, hi, h⟩
        exact ⟨_, he⟩
      · exact raises_of_not_legible hlegible
    obtain ⟨e, he⟩ := hraises
    rw [he] at hok
    cases hok

end Gate

/-! ## On whose behalf -/

/-- **The session was opened in the run**: by a sign-in to the tenant. -/
def SignedIn (d : Deployment) (tr : List (Transition (Desk K) (Request K))) (tenantId : Uuid)
    (i : Issue) : Prop :=
  ∃ t ∈ tr, ∃ body now, t.act = .createSession body now ∧
    body.reviewerId ∈ d.settings.demoReviewerSet ∧
    ∃ tenant ∈ d.tenants, tenant.id = tenantId ∧ tenant.slug = body.tenantSlug ∧
      i = issueOf d tenant body now

/-- **The request is the reviewer's**: it names the row, and comes with the
cookie of a session the reviewer has opened to the tenant, before it
expires. -/
structure OnBehalf (d : Deployment) (tr : List (Transition (Desk K) (Request K)))
    (rq : ConsoleRequest K) (tenantId id : Uuid) (reviewer : String) : Prop where
  session : ∃ i, SignedIn d tr tenantId i ∧
    Admits d.rt d.settings rq.now rq.consoleSession i ∧ stored i.reviewerId = reviewer
  named : uuidOf d.rt.unicode rq.recommendationId = some id

/-- **The call a request may come to**, after a run. -/
inductive Calls (d : Deployment) (tr : List (Transition (Desk K) (Request K))) :
    Request K → Lifecycle.Call → Prop
  /-- A review in the reviewer's own name. -/
  | approve {rq : ConsoleRequest K} {tenantId id : Uuid} {reviewer : String}
      (note : Option String) : OnBehalf d tr rq tenantId id reviewer →
      Calls d tr (.approveRecommendation rq note)
        (.approve tenantId id reviewer note rq.writtenAt)
  | reject {rq : ConsoleRequest K} {tenantId id : Uuid} {reviewer : String}
      (note : Option String) : OnBehalf d tr rq tenantId id reviewer →
      Calls d tr (.rejectRecommendation rq note) (.reject tenantId id reviewer note rq.writtenAt)
  /-- An ack in the reviewer's name. -/
  | consoleDeliveryAck {rq : ConsoleRequest K} {tenantId id : Uuid} {reviewer : String}
      (deliveryRef : Option String) : OnBehalf d tr rq tenantId id reviewer →
      Calls d tr (.consoleDeliveryAck rq deliveryRef)
        (.markDelivered tenantId id deliveryRef reviewer rq.writtenAt)
  /-- An ack with a key of the tenant. -/
  | deliveryAck {rq : AckRequest} {tenantId id : Uuid} :
      requireTenantApiKey d rq.authorization = .ok (strUuid tenantId) →
      uuidOf d.rt.unicode rq.recommendationId = some id →
      Calls d tr (.deliveryAck rq)
        (.markDelivered tenantId id rq.deliveryRef "api_delivery_ack" rq.writtenAt)
  /-- The worker's new rows. -/
  | createPending (tenantId id : Uuid) (fields : Option Lifecycle.PendingColumns)
      (now : Timestamp) :
      Calls d tr (.createPending tenantId id fields now) (.createPending tenantId id fields now)

/-- **Someone accounts for an entry of the audit log**: it was written by the
call of a request in the run. -/
def Accounted (d : Deployment) (tr : List (Transition (Desk K) (Request K))) (e : AuditEntry) :
    Prop :=
  ∃ tr₁ t tr₂, tr = tr₁ ++ t :: tr₂ ∧ ∃ c, Calls d tr₁ t.act c ∧ e ∈ c.entries

/-- **No cookie was forged.** -/
def Request.Signed (d : Deployment) (issued : List Issue) : Request K → Prop
  | .approveRecommendation rq _ | .rejectRecommendation rq _ | .consoleDeliveryAck rq _ =>
      SignedOnly d.rt d.settings.consoleSessionSecret issued rq.consoleSession
  | .createSession .. | .deliveryAck _ | .createPending .. => True

variable {s s' : Desk K} {rq : Request K} {c : Lifecycle.Call} {i : Issue} {tenantId id : Uuid}
  {body : SessionIn} {now : ℤ} {cookie : Text} {e : AuditEntry} {t : Transition (Desk K) (Request K)}

theorem SignedIn.snoc (h : SignedIn d tr tenantId i) : SignedIn d (tr ++ [t]) tenantId i := by
  obtain ⟨t', ht', h⟩ := h
  exact ⟨t', List.mem_append_left _ ht', h⟩

theorem Accounted.snoc (h : Accounted d tr e) : Accounted d (tr ++ [t]) e := by
  obtain ⟨tr₁, t', tr₂, rfl, h⟩ := h
  exact ⟨tr₁, t', tr₂ ++ [t], by simp, h⟩

theorem mem_of_scalarOneOrNone {α : Type} {l : List α} {a : α}
    (h : scalarOneOrNone l = .ok (some a)) : a ∈ l := by
  unfold scalarOneOrNone at h
  split at h
  · cases h
  · cases h
    exact List.mem_singleton_self _
  · cases h

/-- **A session is opened to a tenant.** -/
theorem of_createSession (h : createSession d body now = .ok (cookie, i)) :
    body.reviewerId ∈ d.settings.demoReviewerSet ∧ ∃ tenant ∈ d.tenants,
      tenant.slug = body.tenantSlug ∧ i = issueOf d tenant body now := by
  unfold createSession at h
  split at h
  · cases h
  · rename_i hreviewer
    obtain ⟨found, hfound, h⟩ := exists_of_bind_eq_ok h
    cases found with
    | none => cases h
    | some tenant =>
        obtain ⟨token, -, h⟩ := exists_of_bind_eq_ok h
        have hmem := List.mem_filter.mp (mem_of_scalarOneOrNone hfound)
        refine ⟨List.contains_iff_mem.mp (not_not.mp hreviewer), tenant, hmem.1, of_decide_eq_true hmem.2, ?_⟩
        exact (Prod.ext_iff.mp (Except.ok.inj h)).2.symm

/-- **A key is a tenant's.** -/
theorem of_requireTenantApiKey {authorization : Option Text} {tenantText : Text}
    (h : requireTenantApiKey d authorization = .ok tenantText) :
    ∃ tenant ∈ d.tenants, strUuid tenant.id = tenantText := by
  unfold requireTenantApiKey at h
  cases authorization with
  | none => cases h
  | some header =>
      dsimp only at h
      split at h
      · cases h
      · split at h
        · cases h
        · obtain ⟨keyHash, -, h⟩ := exists_of_bind_eq_ok h
          obtain ⟨found, hfound, h⟩ := exists_of_bind_eq_ok h
          cases found with
          | none => cases h
          | some tenant =>
              obtain ⟨tenant', htenant, hmem⟩ :=
                List.mem_flatMap.mp (mem_of_scalarOneOrNone hfound)
              obtain ⟨-, -, rfl⟩ := List.mem_map.mp hmem
              exact ⟨tenant', htenant, Except.ok.inj h⟩

/-- **A transaction is its call's**, for the tenant of the text. -/
theorem of_transact (tenant : Tenant) (call : Uuid → Lifecycle.Call) (commits : Bool)
    (table : Lifecycle.State) :
    (transact d (strUuid tenant.id) id call commits table).2 = table ∨
      (call tenant.id).perform table =
        .ok (transact d (strUuid tenant.id) id call commits table).2 := by
  unfold transact
  split
  · rw [d.castUuid_strUuid _ tenant.id_lt]
    dsimp only
    cases hperform : (call tenant.id).perform table with
    | error e => exact Or.inl rfl
    | ok table' =>
        cases commits with
        | true => exact Or.inr rfl
        | false => exact Or.inl rfl
  · exact Or.inl rfl

/-- **What a client's ack does to the tables**: nothing, or what its call
does for the key's tenant. -/
theorem of_deliveryAck (rq : AckRequest) (table : Lifecycle.State) :
    (deliveryAck d rq table).2 = table ∨ ∃ tenantId id,
      requireTenantApiKey d rq.authorization = .ok (strUuid tenantId) ∧
        uuidOf d.rt.unicode rq.recommendationId = some id ∧
        (Lifecycle.Call.markDelivered tenantId id rq.deliveryRef "api_delivery_ack"
          rq.writtenAt).perform table = .ok (deliveryAck d rq table).2 := by
  cases hkey : requireTenantApiKey d rq.authorization with
  | error e =>
      left
      unfold deliveryAck
      rw [hkey]
  | ok tenantText =>
      obtain ⟨tenant, -, rfl⟩ := of_requireTenantApiKey hkey
      cases hid : uuidOf d.rt.unicode rq.recommendationId with
      | none =>
          left
          unfold deliveryAck
          rw [hkey]
          dsimp only
          rw [hid]
      | some id =>
          have heq : (deliveryAck d rq table).2 = (transact d (strUuid tenant.id) id
              (fun tenant => .markDelivered tenant id rq.deliveryRef "api_delivery_ack"
                rq.writtenAt) rq.commits table).2 := by
            unfold deliveryAck
            rw [hkey]
            dsimp only
            rw [hid]
          rw [heq]
          rcases of_transact tenant (fun tenant => .markDelivered tenant id rq.deliveryRef
            "api_delivery_ack" rq.writtenAt) rq.commits table with h | h
          · exact Or.inl h
          · exact Or.inr ⟨tenant.id, id, rfl, rfl, h⟩

variable [Field K] [LinearOrder K] [FloorRing K]

theorem table_handle {rq : ConsoleRequest K} (call : Uuid → Uuid → String → Lifecycle.Call)
    {limiter : Option (TokenBucketLimiter K)} {tenantText slug reviewer : Text}
    (hgate : requireConsoleReviewer d.rt d.settings rq.now rq.clock s.limiter rq.consoleSession =
      (.ok ⟨.str tenantText, .str slug, .str reviewer⟩, limiter))
    (hid : uuidOf d.rt.unicode rq.recommendationId = some id) :
    (handle d rq call s).2.table = (transact d tenantText id
      (fun tenant => call tenant id (stored reviewer)) (rq.commits && Encodable reviewer)
      s.table).2 := by
  unfold handle
  rw [hgate]
  dsimp only
  rw [hid]

/-- **What a console request does to the tables**: nothing, or what its call
does for the reviewer it came from. -/
theorem of_handle {rq : ConsoleRequest K} (call : Uuid → Uuid → String → Lifecycle.Call)
    (hissued : ∀ i ∈ s.issued, ∃ tenantId, SignedIn d tr tenantId i)
    (hsigned : SignedOnly d.rt d.settings.consoleSessionSecret s.issued rq.consoleSession) :
    (handle d rq call s).2.table = s.table ∨ ∃ tenantId id reviewer,
      OnBehalf d tr rq tenantId id reviewer ∧
        (call tenantId id reviewer).perform s.table = .ok (handle d rq call s).2.table := by
  cases hgate : requireConsoleReviewer d.rt d.settings rq.now rq.clock s.limiter
      rq.consoleSession with
  | mk result limiter =>
      cases result with
      | error e =>
          left
          unfold handle
          rw [hgate]
      | ok console =>
          obtain ⟨i, hi, hadmits, rfl⟩ := of_require hsigned hgate
          cases hid : uuidOf d.rt.unicode rq.recommendationId with
          | none =>
              left
              unfold handle
              rw [hgate]
              dsimp only
              rw [hid]
          | some id =>
              rw [table_handle call hgate hid]
              -- the tenant in the cookie is the one the session was opened to
              obtain ⟨tenantId, hopened⟩ := hissued i hi
              have hsession := hopened
              obtain ⟨-, -, body, now, -, -, tenant, -, rfl, -, rfl⟩ := hopened
              rcases of_transact tenant (fun tenant => call tenant id (stored body.reviewerId))
                (rq.commits && Encodable body.reviewerId) s.table with h | h
              · exact Or.inl h
              · exact Or.inr ⟨tenant.id, id, stored body.reviewerId,
                  ⟨⟨_, hsession, hadmits, rfl⟩, hid⟩, h⟩

theorem issued_handle {rq : ConsoleRequest K} (call : Uuid → Uuid → String → Lifecycle.Call) :
    (handle d rq call s).2.issued = s.issued := by
  unfold handle
  cases requireConsoleReviewer d.rt d.settings rq.now rq.clock s.limiter rq.consoleSession with
  | mk result limiter =>
      cases result with
      | error e => rfl
      | ok console =>
          cases uuidOf d.rt.unicode rq.recommendationId with
          | none => rfl
          | some id =>
              dsimp only
              split
              · rfl
              · rfl

theorem serve_approve (rq : ConsoleRequest K) (note : Option String) :
    serve d s (.approveRecommendation rq note) = handle d rq
      (fun tenant id reviewer => .approve tenant id reviewer note rq.writtenAt) s := rfl

theorem serve_reject (rq : ConsoleRequest K) (note : Option String) :
    serve d s (.rejectRecommendation rq note) = handle d rq
      (fun tenant id reviewer => .reject tenant id reviewer note rq.writtenAt) s := rfl

theorem serve_consoleDeliveryAck (rq : ConsoleRequest K) (deliveryRef : Option String) :
    serve d s (.consoleDeliveryAck rq deliveryRef) = handle d rq
      (fun tenant id reviewer => .markDelivered tenant id deliveryRef reviewer rq.writtenAt) s :=
  rfl

/-- **What a request does to the tables**: nothing, or what its call does. -/
theorem serve_table (hissued : ∀ i ∈ s.issued, ∃ tenantId, SignedIn d tr tenantId i)
    (hsigned : rq.Signed d s.issued) (h : Served d s rq s') :
    s'.table = s.table ∨ ∃ c, Calls d tr rq c ∧ c.perform s.table = .ok s'.table := by
  obtain rfl := h
  cases rq with
  | createSession body now =>
      unfold serve
      dsimp only
      cases createSession d body now with
      | error e => exact Or.inl rfl
      | ok r => exact Or.inl rfl
  | approveRecommendation rq note =>
      rw [serve_approve]
      rcases of_handle (fun tenant id reviewer => .approve tenant id reviewer note rq.writtenAt)
        hissued hsigned with h | ⟨tenantId, id, reviewer, hbehalf, h⟩
      · exact Or.inl h
      · exact Or.inr ⟨_, .approve note hbehalf, h⟩
  | rejectRecommendation rq note =>
      rw [serve_reject]
      rcases of_handle (fun tenant id reviewer => .reject tenant id reviewer note rq.writtenAt)
        hissued hsigned with h | ⟨tenantId, id, reviewer, hbehalf, h⟩
      · exact Or.inl h
      · exact Or.inr ⟨_, .reject note hbehalf, h⟩
  | consoleDeliveryAck rq deliveryRef =>
      rw [serve_consoleDeliveryAck]
      rcases of_handle (fun tenant id reviewer => .markDelivered tenant id deliveryRef reviewer
        rq.writtenAt) hissued hsigned with h | ⟨tenantId, id, reviewer, hbehalf, h⟩
      · exact Or.inl h
      · exact Or.inr ⟨_, .consoleDeliveryAck deliveryRef hbehalf, h⟩
  | deliveryAck rq =>
      rcases of_deliveryAck rq s.table with h | ⟨tenantId, id, hkey, hid, h⟩
      · exact Or.inl h
      · exact Or.inr ⟨_, .deliveryAck hkey hid, h⟩
  | createPending tenantId id fields now =>
      unfold serve Lifecycle.transaction
      dsimp only
      cases hperform : (Lifecycle.Call.createPending tenantId id fields now).perform s.table with
      | error e => exact Or.inl rfl
      | ok table' => exact Or.inr ⟨_, .createPending tenantId id fields now, hperform⟩

/-- **The sessions after a request.** -/
theorem serve_issued (h : Served d s rq s') :
    s'.issued = s.issued ∨ ∃ body now cookie i, rq = .createSession body now ∧
      createSession d body now = .ok (cookie, i) ∧ s'.issued = s.issued ++ [i] := by
  obtain rfl := h
  cases rq with
  | createSession body now =>
      unfold serve
      dsimp only
      cases hopened : createSession d body now with
      | error e => exact Or.inl rfl
      | ok r => exact Or.inr ⟨body, now, r.1, r.2, rfl, hopened, rfl⟩
  | approveRecommendation rq note =>
      rw [serve_approve]
      exact Or.inl (issued_handle _)
  | rejectRecommendation rq note =>
      rw [serve_reject]
      exact Or.inl (issued_handle _)
  | consoleDeliveryAck rq deliveryRef =>
      rw [serve_consoleDeliveryAck]
      exact Or.inl (issued_handle _)
  | deliveryAck rq | createPending tenantId id fields now => exact Or.inl rfl

/-! ## Whole runs -/

/-- **What holds after a run.** -/
structure Inv (d : Deployment) (tr : List (Transition (Desk K) (Request K))) (s : Desk K) :
    Prop where
  keys : s.table.KeysUsed
  /-- Every session was opened by a sign-in. -/
  opened : ∀ i ∈ s.issued, ∃ tenantId, SignedIn d tr tenantId i
  /-- Every entry of the log is accounted for. -/
  accounted : ∀ e ∈ s.table.auditLog, Accounted d tr e
  /-- Every row is on record. -/
  onRecord : ∀ tenantId id, ∀ row ∈ s.table.rowOf tenantId id, OnRecord s.table tenantId id row

omit [Field K] [LinearOrder K] [FloorRing K] in
theorem inv_initial : Inv d [] (Desk.initial K) := by
  refine ⟨Lifecycle.keysUsed_initial, ?_, ?_, ?_⟩
  · intro i hi
    cases hi
  · intro e he
    cases he
  · intro tenantId id row hrow
    cases hrow

/-- The sessions stay accounted for. -/
theorem Inv.opened_serve (h : Inv d tr s) (hserved : Served d s rq s') :
    ∀ i ∈ s'.issued, ∃ tenantId, SignedIn d (tr ++ [⟨s, rq, s'⟩]) tenantId i := by
  have hbefore : ∀ i ∈ s.issued, ∃ tenantId, SignedIn d (tr ++ [⟨s, rq, s'⟩]) tenantId i := by
    intro i hi
    obtain ⟨tenantId, hopened⟩ := h.opened i hi
    exact ⟨tenantId, hopened.snoc⟩
  rcases serve_issued hserved with heq | ⟨body, now, cookie, i, hrq, hcreated, heq⟩
  · rw [heq]
    exact hbefore
  · rw [heq]
    intro j hj
    rcases List.mem_append.mp hj with hj | hj
    · exact hbefore j hj
    · obtain rfl := List.mem_singleton.mp hj
      obtain ⟨hreviewer, tenant, htenant, hslug, hissue⟩ := of_createSession hcreated
      exact ⟨tenant.id, ⟨s, rq, s'⟩, List.mem_append_right _ (List.mem_singleton_self _), body, now,
        hrq, hreviewer, tenant, htenant, rfl, hslug, hissue⟩

/-- **One request keeps it.** -/
theorem Inv.serve (h : Inv d tr s) (hserved : Served d s rq s') (hsigned : rq.Signed d s.issued) :
    Inv d (tr ++ [⟨s, rq, s'⟩]) s' := by
  have hopened := h.opened_serve hserved
  have hbefore : ∀ e ∈ s.table.auditLog, Accounted d (tr ++ [⟨s, rq, s'⟩]) e := fun e he =>
    (h.accounted e he).snoc
  rcases serve_table h.opened hsigned hserved with htable | ⟨c, hcall, hperform⟩
  · exact ⟨htable ▸ h.keys, hopened, htable ▸ hbefore, htable ▸ h.onRecord⟩
  · refine ⟨Lifecycle.keysUsed_perform h.keys hperform, hopened, ?_, fun tenantId id =>
      onRecord_perform h.keys (h.onRecord tenantId id) hperform⟩
    intro e he
    rw [auditLog_perform hperform] at he
    rcases List.mem_append.mp he with he | he
    · exact hbefore e he
    · exact ⟨tr, ⟨s, rq, s'⟩, [], rfl, c, hcall, he⟩

section Examples

theorem seven_lt : 7 < 2 ^ 128 := by norm_num

/-- One tenant. -/
def testTenant : Tenant := ⟨7, text "demo-wallet", seven_lt, testIssue.tenantSlug_unpaired⟩

/-- A deployment with one tenant and no keys. -/
def testDeployment : Deployment where
  rt := oneDigest
  settings := testSettings
  consoleSessionTtlSeconds := 43200
  apiKeyHashPepper := []
  tenants := [testTenant]
  apiKeys := []
  castUuid := uuidOf oneDigest.unicode
  castUuid_strUuid _ h := uuidOf_strUuid h

/-- A reviewer signs in to it. -/
def testSignIn : SessionIn :=
  ⟨text "demo-wallet", text "ops_reviewer_1", testIssue.reviewerId_unpaired⟩

/-- Its session. -/
def testOpened : Issue := issueOf testDeployment testTenant testSignIn 1700000000

/-- Its cookie. -/
def testToken : Text := tokenBody testOpened.payload ++ point '.' ::
  digest oneDigest testSettings.consoleSessionSecret (tokenBody testOpened.payload)

/-- A review of row 9, under a URN of its id. -/
def testReview : ConsoleRequest ℚ where
  consoleSession := some testToken
  now := 1700000001
  clock := 0
  recommendationId := text "urn:uuid:" ++ strUuid 9
  writtenAt := 120
  commits := true

theorem genuine_testToken : Genuine oneDigest testSettings.consoleSessionSecret testOpened testToken :=
  sign_eq (testOpened.isPart oneDigest.toInterpreter) (by decide +kernel) (by decide +kernel)

theorem createSession_testSignIn :
    createSession testDeployment testSignIn 1700000000 = .ok (testToken, testOpened) := by
  have hreviewer : ¬ ¬ testDeployment.settings.demoReviewerSet.contains testSignIn.reviewerId := by
    decide +kernel
  have htenant : getBySlug testDeployment testSignIn.tenantSlug = .ok (some testTenant) := rfl
  have hcookie : issueSessionCookie testDeployment.rt testDeployment.settings.consoleSessionSecret
      (issueOf testDeployment testTenant testSignIn 1700000000) = .ok testToken := genuine_testToken
  unfold createSession
  rw [if_neg hreviewer, htenant]
  simp only [bind, Except.bind]
  rw [hcookie]
  rfl

/-- The desk after the sign-in. -/
def testSignedIn : Desk ℚ := ⟨Lifecycle.initial, none, [testOpened]⟩

/-- The worker then submits row 9. -/
def testSubmitted : Desk ℚ :=
  (serve testDeployment testSignedIn (.createPending 7 9 (some Lifecycle.sampleColumns) 0)).2

/-- And the reviewer approves it. -/
def testReviewed : Desk ℚ :=
  (serve testDeployment testSubmitted (.approveRecommendation testReview none)).2

end Examples

end Console

end Api

end RetentionEngine
