import RetentionEngine.Common.Lists
import RetentionEngine.Schema.Recommendation
import Mathlib.Data.List.Nodup

/-!
# The recommendations repository

`persistence.repositories.recommendations`: the calls that create a row
and move it through its statuses, each on the tenant's rows in the order
they were created. A call that raises leaves the rows as they were. The
audit row written with every change is left out: nothing here reads it.
-/

namespace RetentionEngine

namespace Store

open RecommendationStatus

/-- How a call fails. -/
inductive RepositoryError
  | lookupError (text : String)
  | illegalTransition (text : String)
  deriving DecidableEq, Repr

/-- What the worker hands `create_pending`. -/
structure PendingFields where
  allocationRunId : Uuid
  allocationCandidateId : Option Uuid
  subjectType : SubjectType
  userPseudonym : Option String
  circleId : Option Uuid
  incentiveCode : String
  costIdr : ℤ
  priorityIdr : ℤ
  userRank : ℤ
  isRunnerUp : Bool
  reasonText : Option String
  reasonFactors : String
  reasonSource : Option String
  factSheetHash : Option String
  deriving DecidableEq, Repr

/-- `create_pending`. Its own check, of the transition from DRAFT, never
fails. -/
def createPending (id tenantId : Uuid) (now : Timestamp) (f : PendingFields) :
    RecommendationRow where
  id := id
  tenantId := tenantId
  allocationRunId := f.allocationRunId
  allocationCandidateId := f.allocationCandidateId
  subjectType := f.subjectType
  userPseudonym := f.userPseudonym
  circleId := f.circleId
  incentiveCode := f.incentiveCode
  costIdr := f.costIdr
  priorityIdr := f.priorityIdr
  userRank := f.userRank
  isRunnerUp := f.isRunnerUp
  status := pendingApproval
  reasonText := f.reasonText
  reasonFactors := f.reasonFactors
  reasonSource := f.reasonSource
  factSheetHash := f.factSheetHash
  createdAt := now
  submittedAt := some now
  reviewedBy := none
  reviewedAt := none
  reviewNote := none
  deliveredAt := none
  deliveryRef := none

example : assertTransition draft pendingApproval none = .ok () := rfl

variable (tenantId : Uuid) (rows : List RecommendationRow) (id : Uuid)

/-- `_load_for_update`. -/
def loadForUpdate : Except RepositoryError RecommendationRow :=
  match rows.find? fun r => r.id = id with
  | some row => .ok row
  | none => .error (.lookupError ("recommendation " ++ toString id ++ " not found for tenant " ++
      toString tenantId))

/-- The rows of one subject and allocation run as `row`, itself apart. -/
def Sibling (row r : RecommendationRow) : Prop :=
  r.allocationRunId = row.allocationRunId ∧ r.id ≠ row.id ∧ r.status.Live ∧
    if row.circleId ≠ none then r.circleId = row.circleId
    else r.userPseudonym = row.userPseudonym ∧ row.userPseudonym ≠ none

instance (row r : RecommendationRow) : Decidable (Sibling row r) :=
  inferInstanceAs (Decidable (_ ∧ _))

/-- `_assert_no_live_sibling`. -/
def assertNoLiveSibling (row : RecommendationRow) : Except RepositoryError Unit :=
  if ∃ r ∈ rows, Sibling row r then
    .error (.illegalTransition ("recommendation " ++ toString row.id ++
      " has a sibling already approved in this allocation run"))
  else .ok ()

/-- `assert_transition`, raised from the repository. -/
def checkTransition (row : RecommendationRow) (dst : RecommendationStatus)
    (reviewerId : Option String) : Except RepositoryError Unit :=
  (assertTransition row.status dst reviewerId).mapError .illegalTransition

/-- The rows with one of them written back. -/
def writeBack (row : RecommendationRow) : List RecommendationRow :=
  rows.map fun r => if r.id = row.id then row else r

/-- `approve`. -/
def approve (reviewerId : String) (note : Option String) (now : Timestamp) :
    Except RepositoryError (List RecommendationRow) := do
  let row ← loadForUpdate tenantId rows id
  checkTransition row approved (some reviewerId)
  assertNoLiveSibling rows row
  return writeBack rows { row with
    status := approved, reviewedBy := some reviewerId, reviewedAt := some now, reviewNote := note }

/-- `reject`. -/
def reject (reviewerId : String) (note : Option String) (now : Timestamp) :
    Except RepositoryError (List RecommendationRow) := do
  let row ← loadForUpdate tenantId rows id
  checkTransition row rejected (some reviewerId)
  return writeBack rows { row with
    status := rejected, reviewedBy := some reviewerId, reviewedAt := some now, reviewNote := note }

/-- `mark_delivered`. -/
def markDelivered (deliveryRef : Option String) (now : Timestamp) :
    Except RepositoryError (List RecommendationRow) := do
  let row ← loadForUpdate tenantId rows id
  checkTransition row delivered row.reviewedBy
  return writeBack rows { row with
    status := delivered, deliveredAt := some now, deliveryRef := deliveryRef }

/-! ## What a call that returns has done -/

variable {tenantId rows id} {row row' : RecommendationRow} {reviewerId : String}
  {note deliveryRef : Option String} {now : Timestamp}
  {rows' : List RecommendationRow}

theorem loadForUpdate_eq_ok :
    loadForUpdate tenantId rows id = .ok row ↔ rows.find? (fun r => r.id = id) = some row := by
  unfold loadForUpdate
  cases rows.find? fun r => r.id = id with
  | none => simp
  | some r => simp

theorem checkTransition_eq_ok {dst : RecommendationStatus} {reviewer : Option String} :
    checkTransition row dst reviewer = .ok () ↔
      assertTransition row.status dst reviewer = .ok () := by
  unfold checkTransition
  cases assertTransition row.status dst reviewer with
  | error e => exact iff_of_false nofun nofun
  | ok u => exact iff_of_true rfl rfl

theorem assertNoLiveSibling_eq_ok :
    assertNoLiveSibling rows row = .ok () ↔ ∀ r ∈ rows, ¬ Sibling row r := by
  unfold assertNoLiveSibling
  split
  · rename_i hlive
    exact iff_of_false nofun fun hnone => hlive.elim fun r hr => hnone r hr.1 hr.2
  · rename_i hnone
    exact iff_of_true rfl fun r hr hsibling => hnone ⟨r, hr, hsibling⟩

/-- **What `approve` has done**: the row was pending, the reviewer has a
name, no sibling was live. -/
theorem of_approve (h : approve tenantId rows id reviewerId note now = .ok rows') :
    ∃ row, rows.find? (fun r => r.id = id) = some row ∧ row.status = pendingApproval ∧
      nonBlank reviewerId ∧ (∀ r ∈ rows, ¬ Sibling row r) ∧
      rows' = writeBack rows { row with
        status := approved, reviewedBy := some reviewerId, reviewedAt := some now,
        reviewNote := note } := by
  unfold approve at h
  obtain ⟨row, hload, h⟩ := exists_of_bind_eq_ok h
  obtain ⟨_, hcheck, h⟩ := exists_of_bind_eq_ok h
  obtain ⟨_, hsibling, h⟩ := exists_of_bind_eq_ok h
  obtain ⟨hallowed, hreviewer⟩ := assertTransition_eq_ok.mp (checkTransition_eq_ok.mp hcheck)
  obtain ⟨reviewer, heq, hblank⟩ := hreviewer (by decide)
  obtain rfl := Option.some.inj heq
  exact ⟨row, loadForUpdate_eq_ok.mp hload, eq_pending_of_approved hallowed, hblank,
    assertNoLiveSibling_eq_ok.mp hsibling, (Except.ok.inj h).symm⟩

/-- **What `reject` has done.** -/
theorem of_reject (h : reject tenantId rows id reviewerId note now = .ok rows') :
    ∃ row, rows.find? (fun r => r.id = id) = some row ∧ row.status = pendingApproval ∧
      nonBlank reviewerId ∧ rows' = writeBack rows { row with
        status := rejected, reviewedBy := some reviewerId, reviewedAt := some now,
        reviewNote := note } := by
  unfold reject at h
  obtain ⟨row, hload, h⟩ := exists_of_bind_eq_ok h
  obtain ⟨_, hcheck, h⟩ := exists_of_bind_eq_ok h
  obtain ⟨hallowed, hreviewer⟩ := assertTransition_eq_ok.mp (checkTransition_eq_ok.mp hcheck)
  obtain ⟨reviewer, heq, hblank⟩ := hreviewer (by decide)
  obtain rfl := Option.some.inj heq
  exact ⟨row, loadForUpdate_eq_ok.mp hload, eq_pending_of_rejected hallowed, hblank,
    (Except.ok.inj h).symm⟩

/-- **What `mark_delivered` has done.** -/
theorem of_markDelivered (h : markDelivered tenantId rows id deliveryRef now = .ok rows') :
    ∃ row, rows.find? (fun r => r.id = id) = some row ∧ row.status = approved ∧
      rows' = writeBack rows { row with
        status := delivered, deliveredAt := some now, deliveryRef := deliveryRef } := by
  unfold markDelivered at h
  obtain ⟨row, hload, h⟩ := exists_of_bind_eq_ok h
  obtain ⟨_, hcheck, h⟩ := exists_of_bind_eq_ok h
  obtain ⟨hallowed, -⟩ := assertTransition_eq_ok.mp (checkTransition_eq_ok.mp hcheck)
  exact ⟨row, loadForUpdate_eq_ok.mp hload, eq_approved_of_delivered hallowed,
    (Except.ok.inj h).symm⟩

/-- **Looking a row up after one is written back.** -/
theorem find?_writeBack {k : Uuid} (hrow : rows.find? (fun r => r.id = row'.id) = some row) :
    (writeBack rows row').find? (fun r => r.id = k) =
      if k = row'.id then some row' else rows.find? fun r => r.id = k := by
  have hsame : ∀ r : RecommendationRow, (if r.id = row'.id then row' else r).id = r.id := by
    intro r
    split
    · rename_i heq
      exact heq.symm
    · rfl
  have hfind : (writeBack rows row').find? (fun r => r.id = k) =
      (rows.find? fun r => r.id = k).map fun r => if r.id = row'.id then row' else r := by
    unfold writeBack
    rw [List.find?_map]
    refine congrArg _ (congrArg (fun p => rows.find? p) (funext fun r => ?_))
    rw [Function.comp_apply, hsame]
  rw [hfind]
  split
  · rename_i hk
    rw [hk, hrow]
    have hid := List.find?_some hrow
    exact congrArg some (if_pos (of_decide_eq_true hid))
  · rename_i hk
    cases hr : rows.find? fun r => r.id = k with
    | none => rfl
    | some r =>
        have hid : r.id = k := by simpa using List.find?_some hr
        exact congrArg some (if_neg fun heq => hk (hid.symm.trans heq))

/-! ## The newest row -/

theorem loadForUpdate_append (hnew : ∀ r ∈ rows, r.id ≠ row.id) :
    loadForUpdate tenantId (rows ++ [row]) row.id = .ok row := by
  have hfind : (rows ++ [row]).find? (fun r => r.id = row.id) = some row := by
    rw [List.find?_append, List.find?_eq_none.mpr fun r hr => by simpa using hnew r hr]
    simp
  unfold loadForUpdate
  rw [hfind]

theorem writeBack_append (hnew : ∀ r ∈ rows, r.id ≠ row.id) (hid : row'.id = row.id) :
    writeBack (rows ++ [row]) row' = rows ++ [row'] := by
  unfold writeBack
  rw [List.map_append, List.map_singleton, if_pos hid.symm,
    List.map_congr_left fun r hr => if_neg (hid ▸ hnew r hr), List.map_id']

/-- **A pending row of a new allocation run can be approved.** -/
theorem approve_append (hnew : ∀ r ∈ rows, r.id ≠ row.id)
    (hrun : ∀ r ∈ rows, r.allocationRunId ≠ row.allocationRunId)
    (hpending : row.status = pendingApproval) (hreviewer : nonBlank reviewerId) :
    approve tenantId (rows ++ [row]) row.id reviewerId note now = .ok (rows ++ [{ row with
      status := approved, reviewedBy := some reviewerId, reviewedAt := some now,
      reviewNote := note }]) := by
  have htransition : assertTransition row.status approved (some reviewerId) = .ok () :=
    assertTransition_eq_ok.mpr ⟨by rw [hpending]; decide, fun _ => ⟨reviewerId, rfl, hreviewer⟩⟩
  have hsibling : ¬ ∃ r ∈ rows ++ [row], Sibling row r := by
    rintro ⟨r, hr, hsame, hne, -⟩
    rcases List.mem_append.mp hr with hmem | hlast
    · exact hrun r hmem hsame
    · exact hne (List.mem_singleton.mp hlast ▸ rfl)
  unfold approve
  rw [loadForUpdate_append hnew]
  dsimp only [bind, Except.bind]
  rw [checkTransition_eq_ok.mpr htransition]
  unfold assertNoLiveSibling
  dsimp only
  rw [if_neg hsibling]
  exact congrArg Except.ok (writeBack_append hnew rfl)

/-- **An approved row can be delivered.** -/
theorem markDelivered_append (hnew : ∀ r ∈ rows, r.id ≠ row.id) (happroved : row.status = approved)
    (hreviewer : ∃ r ∈ row.reviewedBy, nonBlank r) :
    markDelivered tenantId (rows ++ [row]) row.id deliveryRef now = .ok (rows ++ [{ row with
      status := delivered, deliveredAt := some now, deliveryRef := deliveryRef }]) := by
  have htransition : assertTransition row.status delivered row.reviewedBy = .ok () :=
    assertTransition_eq_ok.mpr ⟨by rw [happroved]; decide, fun _ => hreviewer⟩
  unfold markDelivered
  rw [loadForUpdate_append hnew]
  dsimp only [bind, Except.bind]
  rw [checkTransition_eq_ok.mpr htransition]
  exact congrArg Except.ok (writeBack_append hnew rfl)

end Store

end RetentionEngine
