import RetentionEngine.Common.Run
import RetentionEngine.Store.Recommendations
import Mathlib.Data.List.Chain

/-!
# The lifecycle of a recommendation

The four calls of the recommendations repository as transactions on the
table and the audit log, in any order, for any tenants, ids and reviewers.
Every theorem about a row is read off one statement, `step_row`: a call
leaves a row and its trail alone, creates it, or moves it along the frozen
table and appends one entry to its trail.
-/

namespace RetentionEngine

namespace Lifecycle

open RecommendationStatus Store

/-- The columns `create_pending` may be given, the review columns apart. -/
structure PendingColumns extends PendingFields where
  createdAt : Option Timestamp
  deliveredAt : Option Timestamp
  deliveryRef : Option String
  deriving DecidableEq, Repr

/-- A row of `audit_log`, as `_audit` writes it; `status` and `note` are
its `detail`. -/
structure AuditEntry where
  tenantId : Uuid
  actor : String
  action : String
  entityType : String
  entityId : Uuid
  status : RecommendationStatus
  note : Option String
  deriving DecidableEq, Repr

/-- The table by tenant, the primary keys in use, and the audit log. -/
structure State where
  rows : Uuid → List RecommendationRow
  ids : List Uuid
  auditLog : List AuditEntry

/-- A call of the repository. -/
inductive Call
  /-- `create_pending` of the drawn `id`; `none` stands for columns that
  make no row: one missing, one given twice, a value of another type. -/
  | createPending (tenantId id : Uuid) (fields : Option PendingColumns) (now : Timestamp)
  | approve (tenantId id : Uuid) (reviewerId : String) (note : Option String) (now : Timestamp)
  | reject (tenantId id : Uuid) (reviewerId : String) (note : Option String) (now : Timestamp)
  | markDelivered (tenantId id : Uuid) (deliveryRef : Option String) (actor : String)
      (now : Timestamp)
  deriving DecidableEq, Repr

/-- What a call raises. -/
inductive CallError
  | repository (e : RepositoryError)
  /-- The arguments, the primary key or a CHECK constraint. -/
  | rejected
  deriving DecidableEq, Repr

/-- The row `create_pending` adds. -/
def newRow (tenantId id : Uuid) (f : PendingColumns) (now : Timestamp) : RecommendationRow :=
  { Store.createPending id tenantId now f.toPendingFields with
    createdAt := f.createdAt.getD now
    deliveredAt := f.deliveredAt
    deliveryRef := f.deliveryRef }

variable (s : State) (tenantId : Uuid)

/-- `session.flush()` on the tenant's rows: the CHECK constraints. -/
def State.flush (rows : List RecommendationRow) : Except CallError State :=
  if ∀ r ∈ rows, r.Checks then .ok { s with rows := Function.update s.rows tenantId rows }
  else .error .rejected

/-- `_audit`. -/
def State.audit (id : Uuid) (actor action : String) (status : RecommendationStatus)
    (note : Option String) : State :=
  { s with
    auditLog := s.auditLog ++ [⟨tenantId, actor, action, "recommendation", id, status, note⟩] }

/-- **What a call does before it commits.** -/
def Call.perform : Call → Except CallError State
  | .createPending tenantId id fields now =>
      match fields with
      | none => .error .rejected
      | some f =>
          if id ∈ s.ids then .error .rejected
          else State.flush { s with ids := s.ids ++ [id] } tenantId
            (s.rows tenantId ++ [newRow tenantId id f now])
  | .approve tenantId id reviewerId note now => do
      let rows ← (Store.approve tenantId (s.rows tenantId) id reviewerId note now).mapError
        .repository
      let flushed ← s.flush tenantId rows
      return flushed.audit tenantId id reviewerId "RECOMMENDATION_APPROVED" approved note
  | .reject tenantId id reviewerId note now => do
      let rows ← (Store.reject tenantId (s.rows tenantId) id reviewerId note now).mapError
        .repository
      let flushed ← s.flush tenantId rows
      return flushed.audit tenantId id reviewerId "RECOMMENDATION_REJECTED"
        RecommendationStatus.rejected note
  | .markDelivered tenantId id deliveryRef actor now => do
      let rows ← (Store.markDelivered tenantId (s.rows tenantId) id deliveryRef now).mapError
        .repository
      let flushed ← s.flush tenantId rows
      return flushed.audit tenantId id actor "RECOMMENDATION_DELIVERED" delivered deliveryRef

/-- **One transaction**: what a call does is committed, and rolled back
when it raises. -/
def transaction (c : Call) : State :=
  match c.perform s with
  | .ok s' => s'
  | .error _ => s

/-- The step relation. -/
def Step (s : State) (c : Call) (s' : State) : Prop := transaction s c = s'

/-- No rows and no trail. -/
def initial : State := ⟨fun _ => [], [], []⟩

/-! ## One row and its trail -/

variable (id : Uuid)

/-- The row of the tenant with this id. -/
def State.rowOf : Option RecommendationRow := (s.rows tenantId).find? fun r => r.id = id

/-- Its audit entries. -/
def State.trailOf : List AuditEntry :=
  s.auditLog.filter fun e => e.tenantId = tenantId ∧ e.entityId = id

/-- The statuses the row takes on in a run, in order. -/
def statusesTaken (tr : List (Transition State Call)) : List RecommendationStatus :=
  tr.filterMap fun t =>
    let after := (t.post.rowOf tenantId id).map RecommendationRow.status
    if after = (t.pre.rowOf tenantId id).map RecommendationRow.status then none else after

/-- The call reviews the row for `reviewer`. -/
def Call.Reviews (reviewer : String) (c : Call) : Prop :=
  (∃ note now, c = .approve tenantId id reviewer note now) ∨
    ∃ note now, c = .reject tenantId id reviewer note now

/-- **The reviewer on record**: a call that reviewed the pending row for
`reviewer` wrote the column, which was empty before and has not changed
since. -/
def SetByReview (tr : List (Transition State Call)) (reviewer : String) : Prop :=
  ∃ tr₁ t tr₂, tr = tr₁ ++ t :: tr₂ ∧ t.act.Reviews tenantId id reviewer ∧ nonBlank reviewer ∧
    (∃ row ∈ t.pre.rowOf tenantId id, row.status = pendingApproval ∧ row.reviewedBy = none) ∧
    ∀ s ∈ t.post :: tr₂.map Transition.post, ∃ row ∈ s.rowOf tenantId id,
      (row.status = approved ∨ row.status = RecommendationStatus.rejected ∨
        row.status = delivered) ∧ row.reviewedBy = some reviewer

/-- **The lifecycle of one row** over a run that led to `s`. -/
structure Kept (tr : List (Transition State Call)) (s : State) : Prop where
  /-- The statuses taken are a path of the frozen table, from DRAFT. -/
  path : (draft :: statusesTaken tenantId id tr).IsChain fun src dst => dst ∈ src.allowedTransitions
  /-- The path ends in the status of the row. -/
  current : (s.rowOf tenantId id).map RecommendationRow.status =
    (statusesTaken tenantId id tr).getLast?
  /-- Whoever reviewed the row is on record. -/
  reviewed : ∀ row ∈ s.rowOf tenantId id, row.status ∈ reviewerRequired →
    ∃ reviewer, row.reviewedBy = some reviewer ∧ SetByReview tenantId id tr reviewer
  /-- A pending row has no reviewer. -/
  pending : ∀ row ∈ s.rowOf tenantId id, row.status = pendingApproval → row.reviewedBy = none
  /-- A delivered row was approved and has a time of delivery. -/
  delivered : ∀ row ∈ s.rowOf tenantId id, row.status = delivered →
    row.deliveredAt ≠ none ∧ approved ∈ statusesTaken tenantId id tr
  /-- The trail has one entry for every status after the first. -/
  trail : (s.trailOf tenantId id).map AuditEntry.status = (statusesTaken tenantId id tr).tail

/-! ## What one call does to one row -/

/-- **What a call may do to a row and its trail.** -/
inductive RowStep (c : Call) :
    Option RecommendationRow → Option RecommendationRow → List AuditEntry → Prop
  /-- Leave both alone. -/
  | same (row : Option RecommendationRow) : RowStep c row row []
  /-- Create the row. -/
  | created {row : RecommendationRow} : row.status = pendingApproval → row.reviewedBy = none →
      RowStep c none (some row) []
  /-- Review it. -/
  | reviewed {row row' : RecommendationRow} {reviewer : String} {entry : AuditEntry} :
      c.Reviews tenantId id reviewer → nonBlank reviewer → row.status = pendingApproval →
      (row'.status = approved ∨ row'.status = RecommendationStatus.rejected) →
      row'.reviewedBy = some reviewer → entry.status = row'.status →
      RowStep c (some row) (some row') [entry]
  /-- Record its delivery. -/
  | delivered {row row' : RecommendationRow} {entry : AuditEntry} :
      row.status = approved → row'.status = delivered → row'.reviewedBy = row.reviewedBy →
      row'.deliveredAt ≠ none → entry.status = delivered → RowStep c (some row) (some row') [entry]

variable {s tenantId id} {s' : State} {c : Call} {t k : Uuid}

/-- A flush replaces the rows of its tenant. -/
theorem of_flush {rows : List RecommendationRow} (h : s.flush t rows = .ok s') :
    s' = { s with rows := Function.update s.rows t rows } ∧ ∀ r ∈ rows, r.Checks := by
  unfold State.flush at h
  split at h
  · rename_i hchecks
    exact ⟨(Except.ok.inj h).symm, hchecks⟩
  · cases h

theorem rowOf_update {rows : List RecommendationRow} :
    ({ s with rows := Function.update s.rows t rows } : State).rowOf tenantId id =
      if tenantId = t then rows.find? (fun r => r.id = id) else s.rowOf tenantId id := by
  unfold State.rowOf
  dsimp only
  split
  · rename_i heq
    rw [heq, Function.update_self]
  · rename_i hne
    rw [Function.update_of_ne hne]

theorem trailOf_audit {actor action : String} {status : RecommendationStatus}
    {note : Option String} : (s.audit t k actor action status note).trailOf tenantId id =
      s.trailOf tenantId id ++ if tenantId = t ∧ id = k then
        [⟨t, actor, action, "recommendation", k, status, note⟩] else [] := by
  unfold State.trailOf State.audit
  dsimp only
  rw [List.filter_append]
  refine congrArg _ ?_
  by_cases hkey : tenantId = t ∧ id = k
  · rw [if_pos hkey]
    refine List.filter_eq_self.mpr ?_
    intro e he
    rw [List.mem_singleton.mp he]
    exact decide_eq_true ⟨hkey.1.symm, hkey.2.symm⟩
  · rw [if_neg hkey]
    refine List.filter_eq_nil_iff.mpr ?_
    intro e he hin
    rw [List.mem_singleton.mp he] at hin
    obtain ⟨htenant, hid⟩ := of_decide_eq_true hin
    exact hkey ⟨htenant.symm, hid.symm⟩

theorem rowOf_audit {actor action : String} {status : RecommendationStatus} {note : Option String} :
    (s.audit t k actor action status note).rowOf tenantId id = s.rowOf tenantId id := rfl

/-- **A row written back and audited**: only this row has changed, and only
its trail has grown. -/
theorem rowStep_of_writeBack {row row' : RecommendationRow} {actor action : String}
    {status : RecommendationStatus} {note : Option String}
    (hrow : (s.rows t).find? (fun r => r.id = k) = some row)
    (hflush : s.flush t (writeBack (s.rows t) row') = .ok s') (hid : row'.id = k)
    (hmove : tenantId = t → id = k → RowStep tenantId id c (some row) (some row')
      [⟨t, actor, action, "recommendation", k, status, note⟩]) :
    ∃ new, RowStep tenantId id c (s.rowOf tenantId id)
        ((s'.audit t k actor action status note).rowOf tenantId id) new ∧
      (s'.audit t k actor action status note).trailOf tenantId id =
        s.trailOf tenantId id ++ new := by
  obtain ⟨rfl, -⟩ := of_flush hflush
  refine ⟨_, ?_, trailOf_audit⟩
  rw [rowOf_audit, rowOf_update, find?_writeBack (hid.symm ▸ hrow), hid]
  have hrowOf : (if tenantId = t then if id = k then some row' else
      (s.rows t).find? (fun r => r.id = id) else s.rowOf tenantId id) =
        if tenantId = t ∧ id = k then some row' else s.rowOf tenantId id := by
    by_cases htenant : tenantId = t
    · subst htenant
      by_cases hkey : id = k
      · rw [if_pos rfl, if_pos hkey, if_pos ⟨rfl, hkey⟩]
      · rw [if_pos rfl, if_neg hkey, if_neg fun hboth => hkey hboth.2]
        rfl
    · rw [if_neg htenant, if_neg fun hboth => htenant hboth.1]
  rw [hrowOf]
  by_cases hkey : tenantId = t ∧ id = k
  · obtain ⟨rfl, rfl⟩ := hkey
    rw [if_pos ⟨rfl, rfl⟩, if_pos ⟨rfl, rfl⟩]
    have hloaded : s.rowOf tenantId id = some row := hrow
    rw [hloaded]
    exact hmove rfl rfl
  · rw [if_neg hkey, if_neg hkey]
    exact .same _

/-- Every row's key is in use. -/
def State.KeysUsed (s : State) : Prop := ∀ t, ∀ r ∈ s.rows t, r.id ∈ s.ids

/-- The creation of a row. -/
theorem rowStep_createPending {f : PendingColumns} {now : Timestamp} (hkeys : s.KeysUsed)
    (hnew : k ∉ s.ids) (hflush : State.flush { s with ids := s.ids ++ [k] } t
      (s.rows t ++ [newRow t k f now]) = .ok s') :
    RowStep tenantId id c (s.rowOf tenantId id) (s'.rowOf tenantId id) [] := by
  obtain ⟨rfl, -⟩ := of_flush hflush
  have hrowOf : (s.rows t ++ [newRow t k f now]).find? (fun r => r.id = id) =
      if id = k then some (newRow t k f now) else (s.rows t).find? fun r => r.id = id := by
    rw [List.find?_append]
    by_cases hid : id = k
    · have hnone : (s.rows t).find? (fun r => r.id = id) = none := by
        refine List.find?_eq_none.mpr ?_
        intro r hr hin
        exact hnew (hid ▸ of_decide_eq_true hin ▸ hkeys t r hr)
      rw [hnone, if_pos hid, hid, Option.none_or]
      simp [newRow, Store.createPending]
    · have hother : [newRow t k f now].find? (fun r => r.id = id) = none :=
        List.find?_cons_of_neg (fun hin => hid (of_decide_eq_true hin).symm)
      rw [if_neg hid, hother, Option.or_none]
  change RowStep tenantId id c _ (State.rowOf { s with rows := Function.update s.rows t _ }
    tenantId id) []
  rw [rowOf_update, hrowOf]
  by_cases htenant : tenantId = t
  · subst htenant
    rw [if_pos rfl]
    by_cases hid : id = k
    · have hnone : s.rowOf tenantId id = none := by
        refine List.find?_eq_none.mpr ?_
        intro r hr hin
        exact hnew (hid ▸ of_decide_eq_true hin ▸ hkeys tenantId r hr)
      rw [if_pos hid, hnone]
      exact .created rfl rfl
    · rw [if_neg hid]
      exact .same _
  · rw [if_neg htenant]
    exact .same _

/-- **One call that returns**, seen from one row. -/
theorem perform_row (hkeys : s.KeysUsed) (h : c.perform s = .ok s') :
    ∃ new, RowStep tenantId id c (s.rowOf tenantId id) (s'.rowOf tenantId id) new ∧
      s'.trailOf tenantId id = s.trailOf tenantId id ++ new := by
  cases c with
  | createPending t k fields now =>
      cases fields with
      | none => cases h
      | some f =>
          unfold Call.perform at h
          dsimp only at h
          split at h
          · cases h
          · rename_i hnew
            refine ⟨[], rowStep_createPending hkeys hnew h, ?_⟩
            obtain ⟨rfl, -⟩ := of_flush h
            exact (List.append_nil _).symm
  | approve t k reviewer note now =>
      obtain ⟨rows, hrows, h⟩ := exists_of_bind_eq_ok h
      obtain ⟨flushed, hflush, h⟩ := exists_of_bind_eq_ok h
      obtain rfl := Except.ok.inj h
      obtain ⟨row, hrow, hpending, hblank, -, rfl⟩ := of_approve (of_mapError hrows)
      have hid : row.id = k := by simpa using List.find?_some hrow
      refine rowStep_of_writeBack hrow hflush hid ?_
      rintro rfl rfl
      exact .reviewed (Or.inl ⟨note, now, rfl⟩) hblank hpending (Or.inl rfl) rfl rfl
  | reject t k reviewer note now =>
      obtain ⟨rows, hrows, h⟩ := exists_of_bind_eq_ok h
      obtain ⟨flushed, hflush, h⟩ := exists_of_bind_eq_ok h
      obtain rfl := Except.ok.inj h
      obtain ⟨row, hrow, hpending, hblank, rfl⟩ := of_reject (of_mapError hrows)
      have hid : row.id = k := by simpa using List.find?_some hrow
      refine rowStep_of_writeBack hrow hflush hid ?_
      rintro rfl rfl
      exact .reviewed (Or.inr ⟨note, now, rfl⟩) hblank hpending (Or.inr rfl) rfl rfl
  | markDelivered t k deliveryRef actor now =>
      obtain ⟨rows, hrows, h⟩ := exists_of_bind_eq_ok h
      obtain ⟨flushed, hflush, h⟩ := exists_of_bind_eq_ok h
      obtain rfl := Except.ok.inj h
      obtain ⟨row, hrow, happroved, rfl⟩ := of_markDelivered (of_mapError hrows)
      have hid : row.id = k := by simpa using List.find?_some hrow
      refine rowStep_of_writeBack hrow hflush hid ?_
      rintro rfl rfl
      exact .delivered happroved rfl rfl (by simp) rfl

/-! ## What a run does to one row -/

variable {tr : List (Transition State Call)} {before after : Option RecommendationRow}
  {row : RecommendationRow} {reviewer : String}

/-- A status not taken before: the row's own has changed. -/
theorem statusesTaken_append (hbefore : s.rowOf tenantId id = before)
    (hafter : s'.rowOf tenantId id = after)
    (hne : after.map RecommendationRow.status ≠ before.map RecommendationRow.status) :
    statusesTaken tenantId id (tr ++ [⟨s, c, s'⟩]) =
      statusesTaken tenantId id tr ++ (after.map RecommendationRow.status).toList := by
  unfold statusesTaken
  rw [List.filterMap_append, List.filterMap_cons, List.filterMap_nil]
  dsimp only
  rw [hbefore, hafter, if_neg hne]
  cases after <;> rfl

theorem statusesTaken_same (hsame : s'.rowOf tenantId id = s.rowOf tenantId id) :
    statusesTaken tenantId id (tr ++ [⟨s, c, s'⟩]) = statusesTaken tenantId id tr := by
  unfold statusesTaken
  rw [List.filterMap_append, List.filterMap_cons, List.filterMap_nil]
  dsimp only
  rw [hsame, if_pos rfl, List.append_nil]

/-- **A reviewer on record stays on record.** -/
theorem SetByReview.snoc (h : SetByReview tenantId id tr reviewer)
    (hrow : s'.rowOf tenantId id = some row)
    (hstatus : row.status = approved ∨ row.status = RecommendationStatus.rejected ∨
      row.status = delivered)
    (hreviewer : row.reviewedBy = some reviewer) :
    SetByReview tenantId id (tr ++ [⟨s, c, s'⟩]) reviewer := by
  obtain ⟨tr₁, t, tr₂, rfl, hcall, hblank, hpre, hpost⟩ := h
  refine ⟨tr₁, t, tr₂ ++ [⟨s, c, s'⟩], by simp, hcall, hblank, hpre, ?_⟩
  intro u hu
  rw [List.map_append, ← List.cons_append] at hu
  rcases List.mem_append.mp hu with hmem | hlast
  · exact hpost u hmem
  · rw [List.map_singleton, List.mem_singleton] at hlast
    rw [hlast]
    exact ⟨row, hrow, hstatus, hreviewer⟩

theorem mem_reviewerRequired {status : RecommendationStatus} : status ∈ reviewerRequired ↔
    status = approved ∨ status = RecommendationStatus.rejected ∨ status = delivered := by
  cases status <;> decide

/-- **A row that moves**: the path and the trail grow by one, the same
status. -/
theorem Kept.moved {row' : RecommendationRow} {entry : AuditEntry} (hkept : Kept tenantId id tr s)
    (hbefore : s.rowOf tenantId id = some row) (hafter : s'.rowOf tenantId id = some row')
    (hmove : row'.status ∈ row.status.allowedTransitions)
    (htrail : s'.trailOf tenantId id = s.trailOf tenantId id ++ [entry])
    (hentry : entry.status = row'.status) :
    statusesTaken tenantId id (tr ++ [⟨s, c, s'⟩]) = statusesTaken tenantId id tr ++ [row'.status] ∧
      ((draft :: (statusesTaken tenantId id tr ++ [row'.status])).IsChain
        fun src dst => dst ∈ src.allowedTransitions) ∧
      (s'.trailOf tenantId id).map AuditEntry.status =
        (statusesTaken tenantId id tr ++ [row'.status]).tail := by
  have hcurrent := hkept.current
  rw [hbefore, Option.map_some] at hcurrent
  have hne : statusesTaken tenantId id tr ≠ [] := by
    intro hnil
    rw [hnil] at hcurrent
    cases hcurrent
  refine ⟨?_, ?_, ?_⟩
  · refine statusesTaken_append hbefore hafter ?_
    intro heq
    rw [Option.some.inj heq] at hmove
    revert hmove
    cases row.status <;> decide
  · rw [← List.cons_append, List.isChain_append]
    refine ⟨hkept.path, List.isChain_singleton _, ?_⟩
    intro src hsrc dst hdst
    rw [List.getLast?_cons_of_ne_nil hne, ← hcurrent] at hsrc
    obtain rfl := Option.some.inj hsrc
    obtain rfl := Option.some.inj hdst
    exact hmove
  · rw [htrail, List.map_append, hkept.trail, List.map_singleton, hentry,
      List.tail_append_of_ne_nil hne]

/-- A call that leaves the row and its trail alone. -/
theorem Kept.snoc_same (hkept : Kept tenantId id tr s)
    (hsame : s'.rowOf tenantId id = s.rowOf tenantId id)
    (htrail : s'.trailOf tenantId id = s.trailOf tenantId id) :
    Kept tenantId id (tr ++ [⟨s, c, s'⟩]) s' := by
  have htaken : statusesTaken tenantId id (tr ++ [⟨s, c, s'⟩]) = statusesTaken tenantId id tr :=
    statusesTaken_same hsame
  refine ⟨?_, ?_, ?_, ?_, ?_, ?_⟩
  · rw [htaken]
    exact hkept.path
  · rw [htaken, hsame]
    exact hkept.current
  · intro row hrow hstatus
    have hrow' : row ∈ s.rowOf tenantId id := hsame ▸ hrow
    obtain ⟨reviewer, hreviewer, hset⟩ := hkept.reviewed row hrow' hstatus
    exact ⟨reviewer, hreviewer, hset.snoc hrow (mem_reviewerRequired.mp hstatus) hreviewer⟩
  · intro row hrow
    exact hkept.pending row (hsame ▸ hrow)
  · intro row hrow hstatus
    rw [htaken]
    exact hkept.delivered row (hsame ▸ hrow) hstatus
  · rw [htaken, htrail]
    exact hkept.trail

/-- The call that creates the row. -/
theorem Kept.snoc_created (hkept : Kept tenantId id tr s) (hbefore : s.rowOf tenantId id = none)
    (hafter : s'.rowOf tenantId id = some row) (hpending : row.status = pendingApproval)
    (hreviewer : row.reviewedBy = none)
    (htrail : s'.trailOf tenantId id = s.trailOf tenantId id) :
    Kept tenantId id (tr ++ [⟨s, c, s'⟩]) s' := by
  have hcurrent := hkept.current
  rw [hbefore] at hcurrent
  -- there was no row, so no status has been taken
  have hnone : statusesTaken tenantId id tr = [] := List.getLast?_eq_none_iff.mp hcurrent.symm
  have htaken : statusesTaken tenantId id (tr ++ [⟨s, c, s'⟩]) = [pendingApproval] := by
    rw [statusesTaken_append hbefore hafter (by simp), hnone, Option.map_some, hpending]
    rfl
  have hrow : ∀ row' ∈ s'.rowOf tenantId id, row' = row := by
    intro row' hrow'
    rw [hafter] at hrow'
    exact (Option.some.inj hrow').symm
  refine ⟨?_, ?_, ?_, ?_, ?_, ?_⟩
  · rw [htaken]
    decide
  · rw [htaken, hafter, Option.map_some, hpending]
    rfl
  · intro row' hrow' hstatus
    rw [hrow row' hrow', hpending] at hstatus
    exact absurd hstatus (by decide)
  · intro row' hrow' _
    rw [hrow row' hrow']
    exact hreviewer
  · intro row' hrow' hstatus
    rw [hrow row' hrow', hpending] at hstatus
    cases hstatus
  · rw [htaken, htrail, hkept.trail, hnone]
    rfl

/-- The call that reviews the row. -/
theorem Kept.snoc_reviewed {row' : RecommendationRow} {entry : AuditEntry}
    (hkept : Kept tenantId id tr s) (hbefore : s.rowOf tenantId id = some row)
    (hafter : s'.rowOf tenantId id = some row') (hcall : c.Reviews tenantId id reviewer)
    (hblank : nonBlank reviewer) (hpending : row.status = pendingApproval)
    (hstatus : row'.status = approved ∨ row'.status = RecommendationStatus.rejected)
    (hreviewer : row'.reviewedBy = some reviewer) (hentry : entry.status = row'.status)
    (htrail : s'.trailOf tenantId id = s.trailOf tenantId id ++ [entry]) :
    Kept tenantId id (tr ++ [⟨s, c, s'⟩]) s' := by
  have hmove : row'.status ∈ row.status.allowedTransitions := by
    rw [hpending]
    rcases hstatus with heq | heq <;> rw [heq] <;> decide
  obtain ⟨htaken, hpath, haudit⟩ := hkept.moved hbefore hafter hmove htrail hentry
  have hlive : row'.status = approved ∨ row'.status = RecommendationStatus.rejected ∨
      row'.status = RecommendationStatus.delivered := by tauto
  refine ⟨?_, ?_, ?_, ?_, ?_, ?_⟩
  · rw [htaken]
    exact hpath
  · rw [htaken, hafter, List.getLast?_concat]
    rfl
  · intro row'' hrow _
    rw [hafter] at hrow
    obtain rfl := Option.some.inj hrow
    refine ⟨reviewer, hreviewer, tr, ⟨s, c, s'⟩, [], rfl, hcall, hblank, ?_, ?_⟩
    · exact ⟨row, hbefore, hpending, hkept.pending row hbefore hpending⟩
    · intro u hu
      rw [List.map_nil, List.mem_singleton] at hu
      rw [hu]
      exact ⟨row', hafter, hlive, hreviewer⟩
  · intro row'' hrow hpending'
    rw [hafter] at hrow
    obtain rfl := Option.some.inj hrow
    rcases hstatus with heq | heq <;> rw [heq] at hpending' <;> cases hpending'
  · intro row'' hrow hdelivered
    rw [hafter] at hrow
    obtain rfl := Option.some.inj hrow
    rcases hstatus with heq | heq <;> rw [heq] at hdelivered <;> cases hdelivered
  · rw [htaken]
    exact haudit

/-- The call that records the delivery. -/
theorem Kept.snoc_delivered {row' : RecommendationRow} {entry : AuditEntry}
    (hkept : Kept tenantId id tr s) (hbefore : s.rowOf tenantId id = some row)
    (hafter : s'.rowOf tenantId id = some row') (happroved : row.status = approved)
    (hdelivered : row'.status = RecommendationStatus.delivered)
    (hreviewer : row'.reviewedBy = row.reviewedBy)
    (hat : row'.deliveredAt ≠ none) (hentry : entry.status = RecommendationStatus.delivered)
    (htrail : s'.trailOf tenantId id = s.trailOf tenantId id ++ [entry]) :
    Kept tenantId id (tr ++ [⟨s, c, s'⟩]) s' := by
  have hmove : row'.status ∈ row.status.allowedTransitions := by
    rw [happroved, hdelivered]
    decide
  obtain ⟨htaken, hpath, haudit⟩ :=
    hkept.moved hbefore hafter hmove htrail (hentry.trans hdelivered.symm)
  refine ⟨?_, ?_, ?_, ?_, ?_, ?_⟩
  · rw [htaken]
    exact hpath
  · rw [htaken, hafter, List.getLast?_concat]
    rfl
  · intro row'' hrow _
    rw [hafter] at hrow
    obtain rfl := Option.some.inj hrow
    obtain ⟨reviewer, hby, hset⟩ := hkept.reviewed row hbefore (by rw [happroved]; decide)
    exact ⟨reviewer, hreviewer.trans hby,
      hset.snoc hafter (Or.inr (Or.inr hdelivered)) (hreviewer.trans hby)⟩
  · intro row'' hrow hpending
    rw [hafter] at hrow
    obtain rfl := Option.some.inj hrow
    rw [hdelivered] at hpending
    cases hpending
  · intro row'' hrow _
    rw [hafter] at hrow
    obtain rfl := Option.some.inj hrow
    -- the row was approved, so the path ended there
    have hlast : approved ∈ (statusesTaken tenantId id tr).getLast? := by
      rw [← hkept.current, hbefore, Option.map_some, happroved]
      rfl
    rw [htaken]
    exact ⟨hat, List.mem_append_left _ (List.mem_of_getLast? hlast)⟩
  · rw [htaken]
    exact haudit

/-- **One more call keeps the lifecycle.** -/
theorem Kept.snoc {new : List AuditEntry} (hkept : Kept tenantId id tr s)
    (hstep : RowStep tenantId id c (s.rowOf tenantId id) (s'.rowOf tenantId id) new)
    (htrail : s'.trailOf tenantId id = s.trailOf tenantId id ++ new) :
    Kept tenantId id (tr ++ [⟨s, c, s'⟩]) s' := by
  generalize hbefore : s.rowOf tenantId id = before at hstep
  generalize hafter : s'.rowOf tenantId id = after at hstep
  cases hstep with
  | same =>
      rw [List.append_nil] at htrail
      exact hkept.snoc_same (hafter.trans hbefore.symm) htrail
  | created hpending hreviewer =>
      rw [List.append_nil] at htrail
      exact hkept.snoc_created hbefore hafter hpending hreviewer htrail
  | reviewed hcall hblank hpending hstatus hreviewer hentry =>
      exact hkept.snoc_reviewed hbefore hafter hcall hblank hpending hstatus hreviewer hentry htrail
  | delivered happroved hdelivered hreviewer hat hentry =>
      exact hkept.snoc_delivered hbefore hafter happroved hdelivered hreviewer hat hentry htrail

/-! ## The lifecycle -/

theorem exists_of_mem_writeBack {rows : List RecommendationRow} {r row' : RecommendationRow}
    (hr : r ∈ writeBack rows row') : ∃ r₀ ∈ rows, r₀.id = r.id := by
  obtain ⟨r₀, hr₀, rfl⟩ := List.mem_map.mp hr
  refine ⟨r₀, hr₀, ?_⟩
  split
  · assumption
  · rfl

/-- Replacing a tenant's rows by rows with keys in use. -/
theorem State.KeysUsed.update {rows : List RecommendationRow} {ids : List Uuid}
    (hkeys : s.KeysUsed) (hrows : ∀ r ∈ rows, r.id ∈ ids) (hids : ∀ i ∈ s.ids, i ∈ ids)
    (log : List AuditEntry) :
    State.KeysUsed ⟨Function.update s.rows t rows, ids, log⟩ := by
  intro t' r hr
  dsimp only at hr ⊢
  by_cases heq : t' = t
  · subst heq
    rw [Function.update_self] at hr
    exact hrows r hr
  · rw [Function.update_of_ne heq] at hr
    exact hids _ (hkeys t' r hr)

/-- **Every call keeps the keys in use.** -/
theorem keysUsed_perform (hkeys : s.KeysUsed) (h : c.perform s = .ok s') : s'.KeysUsed := by
  have hback : ∀ {t : Uuid} {row' : RecommendationRow}, ∀ r ∈ writeBack (s.rows t) row',
      r.id ∈ s.ids := by
    intro t row' r hr
    obtain ⟨r₀, hr₀, heq⟩ := exists_of_mem_writeBack hr
    exact heq ▸ hkeys t r₀ hr₀
  cases c with
  | createPending t k fields now =>
      cases fields with
      | none => cases h
      | some f =>
          unfold Call.perform at h
          dsimp only at h
          split at h
          · cases h
          · obtain ⟨rfl, -⟩ := of_flush h
            refine hkeys.update ?_ (fun i hi => List.mem_append_left _ hi) _
            intro r hr
            rcases List.mem_append.mp hr with hmem | hlast
            · exact List.mem_append_left _ (hkeys t r hmem)
            · rw [List.mem_singleton.mp hlast]
              exact List.mem_append_right _ (List.mem_singleton_self _)
  | approve t k reviewer note now =>
      obtain ⟨rows, hrows, h⟩ := exists_of_bind_eq_ok h
      obtain ⟨flushed, hflush, h⟩ := exists_of_bind_eq_ok h
      obtain rfl := Except.ok.inj h
      obtain ⟨row, -, -, -, -, rfl⟩ := of_approve (of_mapError hrows)
      obtain ⟨rfl, -⟩ := of_flush hflush
      exact hkeys.update hback (fun i hi => hi) _
  | reject t k reviewer note now =>
      obtain ⟨rows, hrows, h⟩ := exists_of_bind_eq_ok h
      obtain ⟨flushed, hflush, h⟩ := exists_of_bind_eq_ok h
      obtain rfl := Except.ok.inj h
      obtain ⟨row, -, -, -, rfl⟩ := of_reject (of_mapError hrows)
      obtain ⟨rfl, -⟩ := of_flush hflush
      exact hkeys.update hback (fun i hi => hi) _
  | markDelivered t k deliveryRef actor now =>
      obtain ⟨rows, hrows, h⟩ := exists_of_bind_eq_ok h
      obtain ⟨flushed, hflush, h⟩ := exists_of_bind_eq_ok h
      obtain rfl := Except.ok.inj h
      obtain ⟨row, -, -, rfl⟩ := of_markDelivered (of_mapError hrows)
      obtain ⟨rfl, -⟩ := of_flush hflush
      exact hkeys.update hback (fun i hi => hi) _

/-- **A call that raises changes nothing.** -/
theorem eq_of_raises {e : CallError} (hstep : Step s c s') (hraise : c.perform s = .error e) :
    s' = s := by
  unfold Step transaction at hstep
  rw [hraise] at hstep
  exact hstep.symm

variable (tenantId id) in
/-- **One transaction**, seen from one row. -/
theorem step_row (hkeys : s.KeysUsed) (hstep : Step s c s') :
    s'.KeysUsed ∧ ∃ new,
      RowStep tenantId id c (s.rowOf tenantId id) (s'.rowOf tenantId id) new ∧
        s'.trailOf tenantId id = s.trailOf tenantId id ++ new := by
  cases hperform : c.perform s with
  | error e =>
      obtain rfl := eq_of_raises hstep hperform
      exact ⟨hkeys, [], .same _, (List.append_nil _).symm⟩
  | ok s'' =>
      have heq : s'' = s' := by
        unfold Step transaction at hstep
        rw [hperform] at hstep
        exact hstep
      subst heq
      exact ⟨keysUsed_perform hkeys hperform, perform_row hkeys hperform⟩

theorem rowOf_initial : initial.rowOf tenantId id = none := rfl

theorem keysUsed_initial : initial.KeysUsed := by
  intro t r hr
  cases (hr : r ∈ [])

/-- Before any call there is no row. -/
theorem kept_initial : Kept tenantId id [] initial := by
  have hno : ∀ row, row ∉ initial.rowOf tenantId id := by
    intro row hrow
    rw [rowOf_initial] at hrow
    cases hrow
  exact ⟨List.isChain_singleton _, rfl, fun row hrow => absurd hrow (hno row),
    fun row hrow => absurd hrow (hno row), fun row hrow => absurd hrow (hno row), rfl⟩

/-- **The lifecycle of every recommendation**, over every sequence of
calls: the statuses a row takes on are a path of the frozen table from
DRAFT; a reviewed row carries the name of the reviewer whose call moved it
out of PENDING_APPROVAL, unchanged since; a delivered row was approved
before and has its time of delivery; its audit entries are one for every
status after the first; and a call that raises changes nothing. -/
theorem lifecycle (hrun : Run Step initial tr s) :
    (∀ tenantId id, Kept tenantId id tr s) ∧
      ∀ t ∈ tr, ∀ e, t.act.perform t.pre = .error e → t.post = t.pre := by
  refine ⟨?_, ?_⟩
  · intro tenantId id
    have hboth : s.KeysUsed ∧ Kept tenantId id tr s := by
      refine hrun.history (G := fun _ _ => True)
        (P := fun tr s => s.KeysUsed ∧ Kept tenantId id tr s) (fun _ _ => trivial)
        ⟨keysUsed_initial, kept_initial⟩ ?_
      rintro tr s c s' - ⟨hkeys, hkept⟩ hstep -
      obtain ⟨hkeys', new, hrow, htrail⟩ := step_row tenantId id hkeys hstep
      exact ⟨hkeys', hkept.snoc hrow htrail⟩
    exact hboth.2
  · intro t ht e hraise
    obtain ⟨tr₀, -, -, hstep⟩ := hrun.exists_prefix ht
    exact eq_of_raises hstep hraise

/-- The columns of a recommendation for one user. -/
def sampleColumns : PendingColumns where
  allocationRunId := 1
  allocationCandidateId := none
  subjectType := .user
  userPseudonym := some "a0"
  circleId := none
  incentiveCode := "CASHBACK_10K"
  costIdr := 10000
  priorityIdr := 0
  userRank := 1
  isRunnerUp := false
  reasonText := none
  reasonFactors := "[]"
  reasonSource := none
  factSheetHash := none
  createdAt := none
  deliveredAt := none
  deliveryRef := none

/-- A recommendation is approved, at the second attempt, and delivered. -/
theorem lifecycle_sample : ∃ tr s, Run Step initial tr s ∧
    statusesTaken 1 7 tr = [pendingApproval, approved, delivered] ∧ Kept 1 7 tr s := by
  have hrun := ((((.nil : Run Step initial [] initial).snoc
    (a := .createPending 1 7 (some sampleColumns) 0) rfl).snoc
    (a := .approve 1 7 " " none 60) rfl).snoc
    (a := .approve 1 7 "reviewer-1" none 120) rfl).snoc
    (a := .markDelivered 1 7 (some "push-1") "api_delivery_ack" 180) rfl
  exact ⟨_, _, hrun, by decide +kernel, (lifecycle hrun).1 1 7⟩

end Lifecycle

end RetentionEngine
