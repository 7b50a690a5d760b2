import RetentionEngine.Common.Run
import RetentionEngine.Store.Recommendations

/-!
# Concurrent reviews

Approvals, rejections and delivery acks as transactions that run beside
each other under READ COMMITTED: each locks its row and reads it, an
approval then looks for a live sibling among the *committed* rows, the
change is written and committed. The lock is on the row itself, so nothing
stops two siblings from being looked at before either is committed, and
the index that would is declared in the models only.
`atMostOneLive_iff` says that this is the one way to two live siblings.
-/

namespace RetentionEngine

namespace Concurrent

open RecommendationStatus Store

/-- What a transaction is asked to do. -/
inductive Request
  | approve (reviewerId : String) (note : Option String)
  | reject (reviewerId : String) (note : Option String)
  | markDelivered (deliveryRef : Option String)
  deriving DecidableEq, Repr

namespace Request

/-- The status it writes. -/
def status : Request → RecommendationStatus
  | approve _ _ => approved
  | reject _ _ => rejected
  | markDelivered _ => delivered

/-- The reviewer it passes to `assert_transition`. -/
def reviewer (row : RecommendationRow) : Request → Option String
  | approve reviewerId _ => some reviewerId
  | reject reviewerId _ => some reviewerId
  | markDelivered _ => row.reviewedBy

/-- The row it writes. -/
def apply (row : RecommendationRow) (now : Timestamp) : Request → RecommendationRow
  | approve reviewerId note =>
      { row with
        status := approved
        reviewedBy := some reviewerId
        reviewedAt := some now
        reviewNote := note }
  | reject reviewerId note =>
      { row with
        status := rejected
        reviewedBy := some reviewerId
        reviewedAt := some now
        reviewNote := note }
  | markDelivered deliveryRef =>
      { row with status := delivered, deliveredAt := some now, deliveryRef := deliveryRef }

end Request

/-- Where a transaction stands. -/
inductive Progress
  | idle
  /-- It holds the lock on `row` and has asserted the transition. -/
  | loaded (row : RecommendationRow) (request : Request)
  /-- An approval that has found no live sibling. -/
  | checked (row : RecommendationRow) (reviewerId : String) (note : Option String)
  /-- It has written `new` over `row`, which nobody else sees yet. -/
  | written (row new : RecommendationRow)
  deriving DecidableEq, Repr

/-- The row a transaction has locked, as it read it. -/
def Progress.row? : Progress → Option RecommendationRow
  | idle => none
  | loaded row _ => some row
  | checked row _ _ => some row
  | written row _ => some row

/-- The committed rows, the ids of the locked ones, and where each
transaction stands. -/
structure State where
  rows : List RecommendationRow
  locks : List Uuid
  progress : ℕ → Progress

/-- What happens next. -/
inductive Action
  /-- `_load_for_update` and `assert_transition`, which wait for the lock. -/
  | load (w : ℕ) (tenantId id : Uuid) (request : Request)
  /-- `_assert_no_live_sibling`. -/
  | check (w : ℕ)
  /-- The columns are set and flushed. -/
  | write (w : ℕ) (now : Timestamp)
  | commit (w : ℕ)
  | rollback (w : ℕ)
  deriving DecidableEq, Repr

variable (s : State)

/-- The rows a tenant's statements see. -/
def State.ofTenant (tenantId : Uuid) : List RecommendationRow :=
  s.rows.filter fun r => r.tenantId = tenantId

/-- `w` has got to `p`. -/
def State.goto (w : ℕ) (p : Progress) : State :=
  { s with progress := Function.update s.progress w p }

/-- `w` ends and gives its lock back. -/
def State.release (w : ℕ) (id : Uuid) : State :=
  { s.goto w .idle with locks := s.locks.erase id }

/-- **One step of one transaction.** A call that raises ends its
transaction; one that has to wait takes no step. -/
def step (s : State) : Action → Option State
  | .load w tenantId id request =>
      match s.progress w, loadForUpdate tenantId (s.ofTenant tenantId) id with
      | .idle, .ok row =>
          if row.id ∈ s.locks then none
          else match checkTransition row request.status (request.reviewer row) with
            | .ok () => some { s.goto w (.loaded row request) with locks := row.id :: s.locks }
            | .error _ => some s
      | .idle, .error _ => some s
      | _, _ => none
  | .check w =>
      match s.progress w with
      | .loaded row (.approve reviewerId note) =>
          match assertNoLiveSibling (s.ofTenant row.tenantId) row with
          | .ok () => some (s.goto w (.checked row reviewerId note))
          | .error _ => some (s.release w row.id)
      | _ => none
  | .write w now =>
      match s.progress w with
      | .checked row reviewerId note =>
          some (s.goto w (.written row ((Request.approve reviewerId note).apply row now)))
      | .loaded row (.reject reviewerId note) =>
          some (s.goto w (.written row ((Request.reject reviewerId note).apply row now)))
      | .loaded row (.markDelivered deliveryRef) =>
          some (s.goto w (.written row ((Request.markDelivered deliveryRef).apply row now)))
      | _ => none
  | .commit w =>
      match s.progress w with
      | .written row new => some { s.release w row.id with rows := writeBack s.rows new }
      | _ => none
  | .rollback w => (s.progress w).row?.map fun row => s.release w row.id

/-- The step relation. -/
def Step (s : State) (a : Action) (s' : State) : Prop := step s a = some s'

/-- Nobody has started. -/
def initial (rows : List RecommendationRow) : State := ⟨rows, [], fun _ => .idle⟩

/-- Two rows are about one subject in one allocation run. -/
def SameSubject (row r : RecommendationRow) : Prop :=
  r.tenantId = row.tenantId ∧ r.allocationRunId = row.allocationRunId ∧
    (row.userPseudonym ≠ none ∧ r.userPseudonym = row.userPseudonym ∨
      row.circleId ≠ none ∧ r.circleId = row.circleId)

/-- **At most one live row** for each user and each circle of an allocation
run. -/
def AtMostOneLive (rows : List RecommendationRow) : Prop :=
  ∀ r ∈ rows, ∀ r' ∈ rows, r.status.Live → r'.status.Live → SameSubject r r' → r = r'

/-- The transition commits the approval of `row`. -/
def CommitsApproval (t : Transition State Action) (row : RecommendationRow) : Prop :=
  ∃ w old, t.act = .commit w ∧ t.pre.progress w = .written old row ∧ row.status = approved

/-- What has happened since `w` last looked for a sibling. -/
def sinceCheck (w : ℕ) (tr : List (Transition State Action)) : List (Transition State Action) :=
  (tr.reverse.takeWhile fun t => t.act ≠ .check w).reverse

/-- **An overlap**: `t` commits an approval, and after its transaction had
looked for a sibling, the approval of one was committed. -/
def Overlaps (tr : List (Transition State Action)) (t : Transition State Action) : Prop :=
  ∃ w old row, t.act = .commit w ∧ t.pre.progress w = .written old row ∧ row.status = approved ∧
    ∃ u ∈ sinceCheck w tr, ∃ row', CommitsApproval u row' ∧ SameSubject row row'

/-- No commit of the run overlaps with what came before it. -/
def NoOverlap (tr : List (Transition State Action)) : Prop :=
  ∀ tr₀ t, tr₀ ++ [t] <+: tr → ¬ Overlaps tr₀ t

/-! ## Rows that move -/

variable {s} {s' : State} {a : Action} {w : ℕ} {row row' new r : RecommendationRow}
  {rows : List RecommendationRow} {tr : List (Transition State Action)}
  {t : Transition State Action}

/-- `new` is `row` after one of the calls: the same key and subject, and a
status the table allows. -/
structure Moves (row new : RecommendationRow) : Prop where
  id : new.id = row.id
  tenantId : new.tenantId = row.tenantId
  allocationRunId : new.allocationRunId = row.allocationRunId
  subjectType : new.subjectType = row.subjectType
  userPseudonym : new.userPseudonym = row.userPseudonym
  circleId : new.circleId = row.circleId
  allowed : new.status ∈ row.status.allowedTransitions

theorem moves_apply (request : Request) (now : Timestamp)
    (h : request.status ∈ row.status.allowedTransitions) : Moves row (request.apply row now) := by
  cases request <;> exact ⟨rfl, rfl, rfl, rfl, rfl, rfl, h⟩

theorem SameSubject.symm (h : SameSubject row r) : SameSubject r row := by
  obtain ⟨htenant, hrun, ⟨hne, heq⟩ | ⟨hne, heq⟩⟩ := h
  · exact ⟨htenant.symm, hrun.symm, Or.inl ⟨heq ▸ hne, heq.symm⟩⟩
  · exact ⟨htenant.symm, hrun.symm, Or.inr ⟨heq ▸ hne, heq.symm⟩⟩

/-- A row that moves stays about its subject. -/
theorem Moves.sameSubject_iff (h : Moves row new) : SameSubject r new ↔ SameSubject r row := by
  unfold SameSubject
  rw [h.tenantId, h.allocationRunId, h.userPseudonym, h.circleId]

theorem Moves.sameSubject_iff' (h : Moves row new) : SameSubject new r ↔ SameSubject row r := by
  unfold SameSubject
  rw [h.tenantId, h.allocationRunId, h.userPseudonym, h.circleId]

theorem Moves.exclusive (h : Moves row new) (hexclusive : row.SubjectExclusive) :
    new.SubjectExclusive := by
  unfold RecommendationRow.SubjectExclusive at hexclusive ⊢
  rwa [h.subjectType, h.userPseudonym, h.circleId]

/-- One row is about one user or one circle, so subjects are shared along. -/
theorem SameSubject.trans (hexclusive : row'.SubjectExclusive) (h : SameSubject row row')
    (h' : SameSubject row' r) : SameSubject row r := by
  obtain ⟨htenant, hrun, hsubject⟩ := h
  obtain ⟨htenant', hrun', hsubject'⟩ := h'
  refine ⟨htenant'.trans htenant, hrun'.trans hrun, ?_⟩
  rcases hsubject with ⟨hne, heq⟩ | ⟨hne, heq⟩ <;> rcases hsubject' with ⟨hne', heq'⟩ | ⟨hne', heq'⟩
  · exact Or.inl ⟨hne, heq'.trans heq⟩
  · obtain ⟨-, -, hnone⟩ | ⟨-, -, hnone⟩ := hexclusive
    · exact absurd hnone hne'
    · exact absurd (heq.symm.trans hnone) hne
  · obtain ⟨-, -, hnone⟩ | ⟨-, -, hnone⟩ := hexclusive
    · exact absurd (heq.symm.trans hnone) hne
    · exact absurd hnone hne'
  · exact Or.inr ⟨hne, heq'.trans heq⟩

/-- The sibling check looks for live rows about the same subject. -/
theorem sibling_of_sameSubject (hexclusive : row.SubjectExclusive) (hsame : SameSubject row r)
    (hne : r.id ≠ row.id) (hlive : r.status.Live) : Sibling row r := by
  obtain ⟨-, hrun, hsubject⟩ := hsame
  refine ⟨hrun, hne, hlive, ?_⟩
  rcases hsubject with ⟨huser, heq⟩ | ⟨hcircle, heq⟩
  · obtain ⟨-, -, hnone⟩ | ⟨-, -, hnone⟩ := hexclusive
    · rw [if_neg (not_not.mpr hnone)]
      exact ⟨heq, huser⟩
    · exact absurd hnone huser
  · rw [if_pos hcircle]
    exact heq

theorem sinceCheck_append (h : t.act ≠ .check w) :
    sinceCheck w (tr ++ [t]) = sinceCheck w tr ++ [t] := by
  unfold sinceCheck
  rw [List.reverse_append, List.reverse_singleton, List.singleton_append]
  simp [h]

theorem mem_of_mem_sinceCheck (h : t ∈ sinceCheck w tr) : t ∈ tr :=
  List.mem_reverse.mp ((List.takeWhile_sublist _).mem (List.mem_reverse.mp h))

/-- **The rows after a commit**: the new row, and the others. -/
theorem mem_writeBack_iff (hids : (rows.map RecommendationRow.id).Nodup) (hrow : row ∈ rows)
    (hid : new.id = row.id) : r ∈ writeBack rows new ↔ r = new ∨ r ∈ rows ∧ r ≠ row := by
  unfold writeBack
  rw [List.mem_map]
  constructor
  · rintro ⟨r₀, hr₀, rfl⟩
    split
    · exact Or.inl rfl
    · rename_i hne
      refine Or.inr ⟨hr₀, ?_⟩
      rintro rfl
      exact hne hid.symm
  · rintro (rfl | ⟨hr, hne⟩)
    · exact ⟨row, hrow, if_pos hid.symm⟩
    · refine ⟨r, hr, if_neg ?_⟩
      intro heq
      exact hne (List.inj_on_of_nodup_map hids hr hrow (heq.trans hid))

/-! ## What every step keeps -/

/-- What a transaction's progress says of its row. -/
def Progress.Legal : Progress → Prop
  | .idle => True
  | .loaded row request => request.status ∈ row.status.allowedTransitions
  | .checked row _ _ => approved ∈ row.status.allowedTransitions
  | .written row new => Moves row new

/-- **The locks protect the rows**: whatever a transaction holds is still
as it read it, and nobody else holds it. -/
structure Inv (s : State) : Prop where
  ids : (s.rows.map RecommendationRow.id).Nodup
  exclusive : ∀ r ∈ s.rows, r.SubjectExclusive
  held : ∀ w, ∀ row ∈ (s.progress w).row?, row ∈ s.rows ∧ row.id ∈ s.locks
  distinct : ∀ w w', ∀ row ∈ (s.progress w).row?, ∀ row' ∈ (s.progress w').row?,
    row.id = row'.id → w = w'
  legal : ∀ w, (s.progress w).Legal

theorem inv_initial (hids : (rows.map RecommendationRow.id).Nodup)
    (hchecks : ∀ r ∈ rows, r.Checks) : Inv (initial rows) where
  ids := hids
  exclusive r hr := (hchecks r hr).1
  held w row hrow := by cases hrow
  distinct w w' row hrow := by cases hrow
  legal w := trivial

theorem progress_goto (w' : ℕ) (p : Progress) :
    (s.goto w p).progress w' = if w' = w then p else s.progress w' := by
  unfold State.goto
  exact Function.update_apply _ _ _ _

/-- A transaction takes a lock that nobody holds. -/
theorem Inv.acquire {request : Request} (hinv : Inv s) (hrow : row ∈ s.rows)
    (hfree : row.id ∉ s.locks) (hallowed : request.status ∈ row.status.allowedTransitions) :
    Inv { s.goto w (.loaded row request) with locks := row.id :: s.locks } := by
  have hother : ∀ w', ∀ r ∈ (s.progress w').row?, r.id ≠ row.id := by
    intro w' r hr heq
    exact hfree (heq ▸ (hinv.held w' r hr).2)
  refine ⟨hinv.ids, hinv.exclusive, ?_, ?_, ?_⟩
  · intro w' r hr
    rw [progress_goto] at hr
    split at hr
    · obtain rfl : row = r := Option.some.inj hr
      exact ⟨hrow, List.mem_cons_self⟩
    · obtain ⟨hmem, hlock⟩ := hinv.held w' r hr
      exact ⟨hmem, List.mem_cons_of_mem _ hlock⟩
  · intro w₁ w₂ r₁ hr₁ r₂ hr₂ heq
    rw [progress_goto] at hr₁ hr₂
    split at hr₁ <;> split at hr₂
    · rename_i h₁ h₂
      exact h₁.trans h₂.symm
    · obtain rfl : row = r₁ := Option.some.inj hr₁
      exact absurd heq.symm (hother w₂ r₂ hr₂)
    · obtain rfl : row = r₂ := Option.some.inj hr₂
      exact absurd heq (hother w₁ r₁ hr₁)
    · exact hinv.distinct w₁ w₂ r₁ hr₁ r₂ hr₂ heq
  · intro w'
    rw [progress_goto]
    split
    · exact hallowed
    · exact hinv.legal w'

/-- A transaction goes on with the row it holds. -/
theorem Inv.advance {p : Progress} (hinv : Inv s) (hrow : p.row? = (s.progress w).row?)
    (hlegal : p.Legal) : Inv (s.goto w p) := by
  have hsame : ∀ w', ((s.goto w p).progress w').row? = (s.progress w').row? := by
    intro w'
    rw [progress_goto]
    split
    · rename_i heq
      rw [heq, hrow]
    · rfl
  refine ⟨hinv.ids, hinv.exclusive, ?_, ?_, ?_⟩
  · intro w' r hr
    rw [hsame] at hr
    exact hinv.held w' r hr
  · intro w₁ w₂ r₁ hr₁ r₂ hr₂
    rw [hsame] at hr₁ hr₂
    exact hinv.distinct w₁ w₂ r₁ hr₁ r₂ hr₂
  · intro w'
    rw [progress_goto]
    split
    · exact hlegal
    · exact hinv.legal w'

/-- Who still holds a row after `w` has ended. -/
theorem row?_release {w' : ℕ} (id : Uuid) (hr : r ∈ ((s.release w id).progress w').row?) :
    w' ≠ w ∧ r ∈ (s.progress w').row? := by
  have hprogress : (s.release w id).progress w' = (s.goto w .idle).progress w' := rfl
  rw [hprogress, progress_goto] at hr
  split at hr
  · cases hr
  · rename_i hne
    exact ⟨hne, hr⟩

/-- A transaction ends. -/
theorem Inv.release (hinv : Inv s) (hrow : row ∈ (s.progress w).row?) :
    Inv (s.release w row.id) := by
  refine ⟨hinv.ids, hinv.exclusive, ?_, ?_, ?_⟩
  · intro w' r hr
    obtain ⟨hne, hr⟩ := row?_release row.id hr
    obtain ⟨hmem, hlock⟩ := hinv.held w' r hr
    refine ⟨hmem, (List.mem_erase_of_ne ?_).mpr hlock⟩
    intro heq
    exact hne (hinv.distinct w' w r hr row hrow heq)
  · intro w₁ w₂ r₁ hr₁ r₂ hr₂
    obtain ⟨-, hr₁⟩ := row?_release row.id hr₁
    obtain ⟨-, hr₂⟩ := row?_release row.id hr₂
    exact hinv.distinct w₁ w₂ r₁ hr₁ r₂ hr₂
  · intro w'
    have hprogress : (s.release w row.id).progress w' = (s.goto w .idle).progress w' := rfl
    rw [hprogress, progress_goto]
    split
    · trivial
    · exact hinv.legal w'

/-- A transaction commits what it has written. -/
theorem Inv.commit (hinv : Inv s) (hwritten : s.progress w = .written row new) :
    Inv { s.release w row.id with rows := writeBack s.rows new } := by
  have hrow : row ∈ (s.progress w).row? := by
    rw [hwritten]
    rfl
  have hmoves : Moves row new := by
    have hlegal := hinv.legal w
    rw [hwritten] at hlegal
    exact hlegal
  obtain ⟨hmem, -⟩ := hinv.held w row hrow
  have hreleased := hinv.release hrow
  have hback : ∀ r, r ∈ writeBack s.rows new ↔ r = new ∨ r ∈ s.rows ∧ r ≠ row := fun r =>
    mem_writeBack_iff hinv.ids hmem hmoves.id
  refine ⟨?_, ?_, ?_, hreleased.distinct, hreleased.legal⟩
  · have hids : (writeBack s.rows new).map RecommendationRow.id =
        s.rows.map RecommendationRow.id := by
      unfold writeBack
      rw [List.map_map]
      refine List.map_congr_left ?_
      intro r _
      dsimp only [Function.comp_apply]
      split
      · rename_i heq
        exact heq.symm
      · rfl
    exact hids ▸ hinv.ids
  · intro r hr
    rcases (hback r).mp hr with rfl | ⟨hr, -⟩
    · exact hmoves.exclusive (hinv.exclusive row hmem)
    · exact hinv.exclusive r hr
  · intro w' r hr
    obtain ⟨hmem', hlock⟩ := hreleased.held w' r hr
    refine ⟨(hback r).mpr (Or.inr ⟨hmem', ?_⟩), hlock⟩
    intro heq
    obtain ⟨hne, hr'⟩ := row?_release row.id hr
    exact hne (hinv.distinct w' w r hr' row hrow (congrArg RecommendationRow.id heq))

/-! ## What one step can do -/

/-- **What a step can do.** -/
inductive StepKind (s : State) : Action → State → Prop
  /-- The row is not there, or its transition is not allowed. -/
  | raised {w : ℕ} {tenantId id : Uuid} {request : Request} :
      StepKind s (.load w tenantId id request) s
  | acquired {w : ℕ} {tenantId id : Uuid} {request : Request} {row : RecommendationRow} :
      row ∈ s.rows → row.id ∉ s.locks → request.status ∈ row.status.allowedTransitions →
      StepKind s (.load w tenantId id request)
        { s.goto w (.loaded row request) with locks := row.id :: s.locks }
  | checked {w : ℕ} {row : RecommendationRow} {reviewerId : String} {note : Option String} :
      s.progress w = .loaded row (.approve reviewerId note) →
      (∀ r ∈ s.ofTenant row.tenantId, ¬ Sibling row r) →
      StepKind s (.check w) (s.goto w (.checked row reviewerId note))
  | refused {w : ℕ} {row : RecommendationRow} : row ∈ (s.progress w).row? →
      StepKind s (.check w) (s.release w row.id)
  | written {w : ℕ} {now : Timestamp} {row new : RecommendationRow} :
      row ∈ (s.progress w).row? → Moves row new →
      (new.status = approved → ∃ reviewerId note, s.progress w = .checked row reviewerId note) →
      StepKind s (.write w now) (s.goto w (.written row new))
  | committed {w : ℕ} {row new : RecommendationRow} : s.progress w = .written row new →
      StepKind s (.commit w) { s.release w row.id with rows := writeBack s.rows new }
  | rolledBack {w : ℕ} {row : RecommendationRow} : row ∈ (s.progress w).row? →
      StepKind s (.rollback w) (s.release w row.id)

/-- The step of a load. -/
theorem stepKind_load {tenantId id : Uuid} {request : Request}
    (h : Step s (.load w tenantId id request) s') :
    StepKind s (.load w tenantId id request) s' := by
  unfold Step step at h
  dsimp only at h
  split at h
  · rename_i row _ hload
    split at h
    · cases h
    · rename_i hfree
      split at h
      · rename_i hcheck
        obtain rfl := Option.some.inj h
        have hfind := List.mem_of_find?_eq_some (loadForUpdate_eq_ok.mp hload)
        exact .acquired (List.mem_of_mem_filter hfind) hfree
          (assertTransition_eq_ok.mp (checkTransition_eq_ok.mp hcheck)).1
      · obtain rfl := Option.some.inj h
        exact .raised
  · obtain rfl := Option.some.inj h
    exact .raised
  · cases h

/-- The step of a check. -/
theorem stepKind_check (h : Step s (.check w) s') : StepKind s (.check w) s' := by
  unfold Step step at h
  dsimp only at h
  split at h
  · rename_i row reviewerId note hloaded
    split at h
    · rename_i hnone
      obtain rfl := Option.some.inj h
      exact .checked hloaded (assertNoLiveSibling_eq_ok.mp hnone)
    · obtain rfl := Option.some.inj h
      exact .refused (by rw [hloaded]; rfl)
  · cases h

/-- The step of a write. -/
theorem stepKind_write {now : Timestamp} (hinv : Inv s) (h : Step s (.write w now) s') :
    StepKind s (.write w now) s' := by
  have hlegal := hinv.legal w
  unfold Step step at h
  dsimp only at h
  split at h
  · rename_i row reviewerId note hchecked
    rw [hchecked] at hlegal
    obtain rfl := Option.some.inj h
    exact .written (by rw [hchecked]; rfl) (moves_apply (.approve reviewerId note) now hlegal)
      fun _ => ⟨reviewerId, note, hchecked⟩
  · rename_i row reviewerId note hloaded
    rw [hloaded] at hlegal
    obtain rfl := Option.some.inj h
    exact .written (by rw [hloaded]; rfl) (moves_apply (.reject reviewerId note) now hlegal) nofun
  · rename_i row deliveryRef hloaded
    rw [hloaded] at hlegal
    obtain rfl := Option.some.inj h
    have hmoves := moves_apply (.markDelivered deliveryRef) now hlegal
    exact .written (by rw [hloaded]; rfl) hmoves nofun
  · cases h

theorem stepKind (hinv : Inv s) (h : Step s a s') : StepKind s a s' := by
  cases a with
  | load w tenantId id request => exact stepKind_load h
  | check w => exact stepKind_check h
  | write w now => exact stepKind_write hinv h
  | commit w =>
      unfold Step step at h
      dsimp only at h
      split at h
      · rename_i row new hwritten
        obtain rfl := Option.some.inj h
        exact .committed hwritten
      · cases h
  | rollback w =>
      obtain ⟨row, hrow, rfl⟩ := Option.map_eq_some_iff.mp h
      exact .rolledBack hrow

/-- **Every step keeps the invariant.** -/
theorem inv_step (hinv : Inv s) (h : Step s a s') : Inv s' := by
  cases stepKind hinv h with
  | raised => exact hinv
  | acquired hrow hfree hallowed => exact hinv.acquire hrow hfree hallowed
  | @checked w row reviewerId note hloaded _ =>
      have hlegal := hinv.legal w
      rw [hloaded] at hlegal
      exact hinv.advance (by rw [hloaded]; rfl) hlegal
  | refused hrow => exact hinv.release hrow
  | written hrow hmoves _ => exact hinv.advance (Eq.symm hrow) hmoves
  | committed hwritten => exact hinv.commit hwritten
  | rolledBack hrow => exact hinv.release hrow

/-! ## When two siblings are live -/

/-- `w` is approving `row` and has looked for a sibling. -/
def Approving (s : State) (w : ℕ) (row : RecommendationRow) : Prop :=
  (∃ reviewerId note, s.progress w = .checked row reviewerId note) ∨
    ∃ new, s.progress w = .written row new ∧ new.status = approved

/-- **What is live has been seen or has come since**: a live row about the
subject of an approval under way was approved after the approval looked. -/
def SeenOrSince (tr : List (Transition State Action)) (s : State) : Prop :=
  ∀ w row, Approving s w row → ∀ r ∈ s.rows, r.status.Live → SameSubject row r →
    ∃ u ∈ sinceCheck w tr, ∃ row', CommitsApproval u row' ∧ SameSubject row row'

/-- A row approved in the run is live, under the same subject. -/
def ApprovedLive (tr : List (Transition State Action)) (s : State) : Prop :=
  ∀ u ∈ tr, ∀ row, CommitsApproval u row →
    row.SubjectExclusive ∧ ∃ r ∈ s.rows, r.status.Live ∧ SameSubject row r

theorem Approving.row? (h : Approving s w row) : row ∈ (s.progress w).row? := by
  rcases h with ⟨reviewerId, note, heq⟩ | ⟨new, heq, -⟩ <;> rw [heq] <;> rfl

/-- An approval is of a pending row. -/
theorem Approving.pending (hinv : Inv s) (h : Approving s w row) :
    row.status = pendingApproval := by
  have hlegal := hinv.legal w
  rcases h with ⟨reviewerId, note, heq⟩ | ⟨new, heq, hnew⟩
  · rw [heq] at hlegal
    exact eq_pending_of_approved hlegal
  · rw [heq] at hlegal
    have hmoves : Moves row new := hlegal
    exact eq_pending_of_approved (hnew ▸ hmoves.allowed)

/-- A commit that shows a live row where there was none is an approval. -/
theorem live_or_approved (hmoves : Moves row new) (hlive : new.status.Live) :
    row.status.Live ∨ new.status = approved := by
  by_cases hrow : row.status.Live
  · exact Or.inl hrow
  · exact Or.inr (eq_pending_of_live hmoves.allowed hrow hlive).2

/-- What has come since an approval looked has come since after one more
step, unless the approval looks again. -/
theorem SeenOrSince.since (hseen : SeenOrSince tr s) (hact : t.act ≠ .check w)
    (hap : Approving s w row) (hr : r ∈ s.rows) (hlive : r.status.Live)
    (hsame : SameSubject row r) :
    ∃ u ∈ sinceCheck w (tr ++ [t]), ∃ row', CommitsApproval u row' ∧ SameSubject row row' := by
  obtain ⟨u, hu, row', hcommit, hsub⟩ := hseen w row hap r hr hlive hsame
  rw [sinceCheck_append hact]
  exact ⟨u, List.mem_append_left _ hu, row', hcommit, hsub⟩

/-- A step that commits nothing and looks for nothing changes nothing here. -/
theorem SeenOrSince.mono (hseen : SeenOrSince tr s) (hrows : s'.rows = s.rows)
    (hcheck : ∀ w, t.act ≠ .check w)
    (happroving : ∀ w row, Approving s' w row → Approving s w row) :
    SeenOrSince (tr ++ [t]) s' := by
  intro w row hap r hr hlive hsame
  rw [hrows] at hr
  exact hseen.since (hcheck w) (happroving w row hap) hr hlive hsame

/-- Who is approving after `w` has got to `p`. -/
theorem approving_of_progress {p : Progress} {w' : ℕ}
    (hprogress : s'.progress = (s.goto w p).progress) (h : Approving s' w' row) :
    w' ≠ w ∧ Approving s w' row ∨ w' = w ∧ ((∃ reviewerId note, p = .checked row reviewerId note) ∨
      ∃ new, p = .written row new ∧ new.status = approved) := by
  unfold Approving at h
  rw [hprogress, progress_goto] at h
  split at h
  · rename_i heq
    exact Or.inr ⟨heq, h⟩
  · rename_i hne
    exact Or.inl ⟨hne, h⟩

/-- An idle or newly loaded transaction approves nothing. -/
theorem approving_of_idle {w' : ℕ} (hprogress : s'.progress = (s.goto w .idle).progress)
    (h : Approving s' w' row) : w' ≠ w ∧ Approving s w' row := by
  rcases approving_of_progress hprogress h with hother | ⟨-, ⟨_, _, hp⟩ | ⟨_, hp, -⟩⟩
  · exact hother
  · cases hp
  · cases hp

/-- The check of `w`. -/
theorem SeenOrSince.check {reviewerId : String} {note : Option String} (hinv : Inv s)
    (hseen : SeenOrSince tr s) (hloaded : s.progress w = .loaded row (.approve reviewerId note))
    (hnone : ∀ r ∈ s.ofTenant row.tenantId, ¬ Sibling row r) (ht : t.act = .check w) :
    SeenOrSince (tr ++ [t]) (s.goto w (.checked row reviewerId note)) := by
  intro w' row' hap r hr hlive hsame
  rcases approving_of_progress rfl hap with ⟨hne, hap⟩ | ⟨rfl, hp⟩
  · have hact : t.act ≠ .check w' := by
      rw [ht]
      intro heq
      exact hne (Action.check.inj heq).symm
    exact hseen.since hact hap hr hlive hsame
  · -- it has just seen that there is none
    obtain ⟨_, _, hp⟩ | ⟨_, hp, -⟩ := hp
    · cases hp
      have hmem := (hinv.held w' row (by rw [hloaded]; rfl)).1
      have hlegal := hinv.legal w'
      rw [hloaded] at hlegal
      have hpending : row.status = pendingApproval := eq_pending_of_approved hlegal
      have hne : r.id ≠ row.id := by
        intro heq
        rw [List.inj_on_of_nodup_map hinv.ids hr hmem heq, hpending] at hlive
        exact absurd hlive (by decide)
      have hin : r ∈ s.ofTenant row.tenantId :=
        List.mem_filter.mpr ⟨hr, decide_eq_true hsame.1⟩
      exact absurd (sibling_of_sameSubject (hinv.exclusive row hmem) hsame hne hlive) (hnone r hin)
    · cases hp

/-- The commit of `w`. -/
theorem SeenOrSince.commit (hinv : Inv s) (hseen : SeenOrSince tr s)
    (hwritten : s.progress w = .written row new) (htpre : t.pre = s) (ht : t.act = .commit w) :
    SeenOrSince (tr ++ [t]) { s.release w row.id with rows := writeBack s.rows new } := by
  have hmoves : Moves row new := by
    have hlegal := hinv.legal w
    rw [hwritten] at hlegal
    exact hlegal
  have hmem := (hinv.held w row (by rw [hwritten]; rfl)).1
  intro w' row' hap r hr hlive hsame
  obtain ⟨-, hap'⟩ := approving_of_idle (s := s) (w := w) rfl hap
  have hact : t.act ≠ .check w' := by
    rw [ht]
    exact nofun
  rcases (mem_writeBack_iff hinv.ids hmem hmoves.id).mp hr with rfl | ⟨hr, -⟩
  · rcases live_or_approved hmoves hlive with hrow | happroved
    · exact hseen.since hact hap' hmem hrow (hmoves.sameSubject_iff.mp hsame)
    · -- the commit itself is what has come since
      rw [sinceCheck_append hact]
      refine ⟨t, List.mem_append_right _ (List.mem_singleton_self _), r, ?_, hsame⟩
      exact ⟨w, row, ht, by rw [htpre]; exact hwritten, happroved⟩
  · exact hseen.since hact hap' hr hlive hsame

/-- **Every step keeps it.** -/
theorem SeenOrSince.step (hinv : Inv s) (hseen : SeenOrSince tr s) (h : Step s a s') :
    SeenOrSince (tr ++ [⟨s, a, s'⟩]) s' := by
  cases stepKind hinv h with
  | raised => exact hseen.mono rfl (fun _ => nofun) fun _ _ hap => hap
  | acquired =>
      refine hseen.mono rfl (fun _ => nofun) ?_
      intro w' row' hap
      rcases approving_of_progress (s := s) rfl hap with ⟨-, hap⟩ | ⟨-, ⟨_, _, hp⟩ | ⟨_, hp, -⟩⟩
      · exact hap
      · cases hp
      · cases hp
  | checked hloaded hnone => exact hseen.check hinv hloaded hnone rfl
  | @refused w row hrow =>
      intro w' row' hap r hr hlive hsame
      obtain ⟨hne, hap⟩ := approving_of_idle (s := s) (w := w) rfl hap
      exact hseen.since (fun heq => hne (Action.check.inj heq).symm) hap hr hlive hsame
  | written hrow hmoves hchecked =>
      refine hseen.mono rfl (fun _ => nofun) ?_
      intro w' row' hap
      rcases approving_of_progress (s := s) rfl hap with
        ⟨-, hap⟩ | ⟨rfl, ⟨_, _, hp⟩ | ⟨_, hp, hnew⟩⟩
      · exact hap
      · cases hp
      · cases hp
        exact Or.inl (hchecked hnew)
  | committed hwritten => exact hseen.commit hinv hwritten rfl rfl
  | rolledBack =>
      refine hseen.mono rfl (fun _ => nofun) ?_
      intro w' row' hap
      exact (approving_of_idle (s := s) rfl hap).2

/-- **Only a commit changes the committed rows**: it puts the new row in
the place of the old. -/
theorem commit_or_rows_eq (hinv : Inv s) (h : Step s a s') :
    (∃ w row new, a = .commit w ∧ s.progress w = .written row new ∧ row ∈ s.rows ∧ Moves row new ∧
      ∀ r, r ∈ s'.rows ↔ r = new ∨ r ∈ s.rows ∧ r ≠ row) ∨
    (∀ w, a ≠ .commit w) ∧ s'.rows = s.rows := by
  cases stepKind hinv h with
  | raised => exact Or.inr ⟨fun _ => nofun, rfl⟩
  | acquired => exact Or.inr ⟨fun _ => nofun, rfl⟩
  | checked => exact Or.inr ⟨fun _ => nofun, rfl⟩
  | refused => exact Or.inr ⟨fun _ => nofun, rfl⟩
  | written => exact Or.inr ⟨fun _ => nofun, rfl⟩
  | @committed w row new hwritten =>
      have hlegal := hinv.legal w
      rw [hwritten] at hlegal
      have hmoves : Moves row new := hlegal
      have hmem := (hinv.held w row (by rw [hwritten]; rfl)).1
      exact Or.inl ⟨w, row, new, rfl, hwritten, hmem, hmoves,
        fun r => mem_writeBack_iff hinv.ids hmem hmoves.id⟩
  | rolledBack => exact Or.inr ⟨fun _ => nofun, rfl⟩

/-- A row is about its own subject. -/
theorem sameSubject_self (hexclusive : row.SubjectExclusive) : SameSubject row row := by
  obtain ⟨-, huser, -⟩ | ⟨-, hcircle, -⟩ := hexclusive
  · exact ⟨rfl, rfl, Or.inl ⟨huser, rfl⟩⟩
  · exact ⟨rfl, rfl, Or.inr ⟨hcircle, rfl⟩⟩

/-- **Approved rows stay live.** -/
theorem ApprovedLive.step (hinv : Inv s) (hlive : ApprovedLive tr s) (h : Step s a s') :
    ApprovedLive (tr ++ [⟨s, a, s'⟩]) s' := by
  intro u hu row₂ hcommit
  rcases commit_or_rows_eq hinv h with ⟨w, row, new, rfl, hwritten, hmem, hmoves, hrows⟩ |
    ⟨hact, hrows⟩
  · rcases List.mem_append.mp hu with hu | hu
    · obtain ⟨hexclusive, r, hr, hrlive, hsame⟩ := hlive u hu row₂ hcommit
      refine ⟨hexclusive, ?_⟩
      by_cases heq : r = row
      · subst heq
        exact ⟨new, (hrows new).mpr (Or.inl rfl), live_of_live hmoves.allowed hrlive,
          hmoves.sameSubject_iff.mpr hsame⟩
      · exact ⟨r, (hrows r).mpr (Or.inr ⟨hr, heq⟩), hrlive, hsame⟩
    · -- the approval that has just been committed
      rw [List.mem_singleton] at hu
      subst hu
      obtain ⟨w₂, old, hact, hwritten₂, happroved⟩ := hcommit
      obtain rfl : w = w₂ := Action.commit.inj hact
      obtain ⟨rfl, rfl⟩ := Progress.written.inj (hwritten.symm.trans hwritten₂)
      have hexclusive := hmoves.exclusive (hinv.exclusive row hmem)
      refine ⟨hexclusive, new, (hrows new).mpr (Or.inl rfl), ?_, sameSubject_self hexclusive⟩
      rw [happroved]
      exact live_approved
  · rcases List.mem_append.mp hu with hu | hu
    · rw [hrows]
      exact hlive u hu row₂ hcommit
    · rw [List.mem_singleton] at hu
      subst hu
      obtain ⟨w, -, heq, -⟩ := hcommit
      exact absurd heq (hact w)

/-- **A step without an overlap keeps one live row.** -/
theorem AtMostOneLive.step (hinv : Inv s) (hseen : SeenOrSince tr s)
    (hone : AtMostOneLive s.rows) (h : Step s a s') (hno : ¬ Overlaps tr ⟨s, a, s'⟩) :
    AtMostOneLive s'.rows := by
  rcases commit_or_rows_eq hinv h with ⟨w, row, new, rfl, hwritten, hmem, hmoves, hrows⟩ |
    ⟨-, hrows⟩
  · -- a live row beside `new` would have been beside `row`, or have come since the check
    have hbeside : ∀ r ∈ s.rows, r ≠ row → new.status.Live → r.status.Live →
        ¬ SameSubject new r := by
      intro r hr hne hnew hrlive hsame
      have hsame' := hmoves.sameSubject_iff'.mp hsame
      rcases live_or_approved hmoves hnew with hrow | happroved
      · exact hne (hone row hmem r hr hrow hrlive hsame').symm
      · obtain ⟨u, hu, row₂, hcommit, hsub⟩ :=
          hseen w row (Or.inr ⟨new, hwritten, happroved⟩) r hr hrlive hsame'
        exact hno ⟨w, row, new, rfl, hwritten, happroved, u, hu, row₂, hcommit,
          hmoves.sameSubject_iff'.mpr hsub⟩
    intro r hr r' hr' hlive hlive' hsame
    rcases (hrows r).mp hr with rfl | ⟨hr, hne⟩ <;> rcases (hrows r').mp hr' with rfl | ⟨hr', hne'⟩
    · rfl
    · exact absurd hsame (hbeside r' hr' hne' hlive hlive')
    · exact absurd hsame.symm (hbeside r hr hne hlive' hlive)
    · exact hone r hr r' hr' hlive hlive' hsame
  · rw [hrows]
    exact hone

/-- **An overlap leaves two live rows.** -/
theorem not_atMostOneLive_of_overlaps (hinv : Inv s) (hlive : ApprovedLive tr s)
    (h : Step s a s') (hover : Overlaps tr ⟨s, a, s'⟩) : ¬ AtMostOneLive s'.rows := by
  obtain ⟨w, row, new, hact, hwritten, happroved, u, hu, row₂, hcommit, hsub⟩ := hover
  have hact : a = .commit w := hact
  have hwritten : s.progress w = .written row new := hwritten
  rcases commit_or_rows_eq hinv h with ⟨w', row', new', rfl, hwritten', hmem, hmoves, hrows⟩ |
    ⟨hnot, -⟩
  · obtain rfl : w' = w := Action.commit.inj hact
    obtain ⟨rfl, rfl⟩ := Progress.written.inj (hwritten.symm.trans hwritten')
    obtain ⟨hexclusive, r, hr, hrlive, hsame⟩ := hlive u (mem_of_mem_sinceCheck hu) row₂ hcommit
    -- the sibling is another row: the one being approved was not live
    have hne : r ≠ row := by
      rintro rfl
      have hpending := eq_pending_of_approved (happroved ▸ hmoves.allowed)
      rw [hpending] at hrlive
      exact absurd hrlive (by decide)
    intro hone
    have heq := hone new ((hrows new).mpr (Or.inl rfl)) r ((hrows r).mpr (Or.inr ⟨hr, hne⟩))
      (by rw [happroved]; exact live_approved) hrlive (hsub.trans hexclusive hsame)
    have hid := hmoves.id
    rw [heq] at hid
    exact hne (List.inj_on_of_nodup_map hinv.ids hr hmem hid)
  · exact absurd hact (hnot w)

/-! ## Over whole runs -/

section Runs

variable (hpending : ∀ r ∈ rows, r.status = pendingApproval)
  (hids : (rows.map RecommendationRow.id).Nodup) (hchecks : ∀ r ∈ rows, r.Checks)

include hids hchecks in
/-- What holds of every run. -/
theorem invariants (hrun : Run Step (initial rows) tr s) :
    Inv s ∧ SeenOrSince tr s ∧ ApprovedLive tr s := by
  refine hrun.history (G := fun _ _ => True)
    (P := fun tr s => Inv s ∧ SeenOrSince tr s ∧ ApprovedLive tr s) (fun _ _ => trivial) ?_ ?_
  · refine ⟨inv_initial hids hchecks, ?_, nofun⟩
    intro w row hap
    have hrow := hap.row?
    cases hrow
  · rintro tr s a s' - ⟨hinv, hseen, hlive⟩ hstep -
    exact ⟨inv_step hinv hstep, hseen.step hinv hstep, hlive.step hinv hstep⟩

include hpending hids hchecks in
/-- **Without an overlap at most one row is live.** -/
theorem atMostOneLive_of_noOverlap (hrun : Run Step (initial rows) tr s) (hno : NoOverlap tr) :
    AtMostOneLive s.rows := by
  have hboth := hrun.history (G := fun _ _ => True)
    (P := fun tr s => NoOverlap tr → AtMostOneLive s.rows) (fun _ _ => trivial) ?_ ?_
  · exact hboth hno
  · intro _ r hr _ _ hlive
    rw [hpending r hr] at hlive
    exact absurd hlive (by decide)
  · intro tr s a s' hrun ih hstep _ hno
    obtain ⟨hinv, hseen, -⟩ := invariants hids hchecks hrun
    have hone := ih fun tr₀ t hpre => hno tr₀ t (hpre.trans (List.prefix_append _ _))
    exact hone.step hinv hseen hstep (hno tr _ List.prefix_rfl)

include hpending hids hchecks in
/-- **One live row for each subject exactly without an overlap.** From any
pending rows, through any interleaving of any number of approvals,
rejections and delivery acks: at most one row for each user and for each
circle of an allocation run is live in every state reached, if and only if
no approval is committed after the approval of a sibling has been
committed since its own check. -/
theorem atMostOneLive_iff (hrun : Run Step (initial rows) tr s) :
    (∀ t ∈ tr, AtMostOneLive t.post.rows) ↔ NoOverlap tr := by
  constructor
  · intro hone tr₀ t hpre hover
    obtain ⟨hrun₀, hstep⟩ := hrun.of_prefix hpre
    obtain ⟨hinv, -, hlive⟩ := invariants hids hchecks hrun₀
    have hmem : t ∈ tr := hpre.subset (List.mem_append_right _ (List.mem_singleton_self _))
    exact not_atMostOneLive_of_overlaps hinv hlive hstep hover (hone t hmem)
  · intro hno t ht
    obtain ⟨tr₀, hpre, hrun₀, hstep⟩ := hrun.exists_prefix ht
    exact atMostOneLive_of_noOverlap hpending hids hchecks (hrun₀.snoc hstep)
      fun tr₁ u hpre' => hno tr₁ u (hpre'.trans hpre)

end Runs

/-- A pending recommendation for a user, the top pick or the runner-up. -/
def samplePending (id : Uuid) (isRunnerUp : Bool) : RecommendationRow :=
  Store.createPending id 1 0
    { allocationRunId := 1
      allocationCandidateId := none
      subjectType := .user
      userPseudonym := some "a0"
      circleId := none
      incentiveCode := "CASHBACK_10K"
      costIdr := 10000
      priorityIdr := 0
      userRank := 1
      isRunnerUp := isRunnerUp
      reasonText := none
      reasonFactors := "[]"
      reasonSource := none
      factSheetHash := none }

/-- A top pick and its runner-up. -/
def siblings : List RecommendationRow := [samplePending 2 false, samplePending 3 true]

/-- One approval after the other: the second one is refused. -/
theorem atMostOneLive_iff_siblings : ∃ tr s, Run Step (initial siblings) tr s ∧
    s.rows.map RecommendationRow.status = [approved, pendingApproval] ∧
    ((∀ t ∈ tr, AtMostOneLive t.post.rows) ↔ NoOverlap tr) := by
  have hend : ∃ s ∈ [Action.load 0 1 2 (.approve "reviewer-1" none), .check 0, .write 0 60,
      .commit 0, .load 1 1 3 (.approve "reviewer-2" none), .check 1].foldlM step (initial siblings),
      s.rows.map RecommendationRow.status = [approved, pendingApproval] := by decide +kernel
  obtain ⟨s, hs, hstatuses⟩ := hend
  obtain ⟨tr, hrun⟩ := Run.exists_of_foldlM hs
  exact ⟨tr, s, hrun, hstatuses,
    atMostOneLive_iff (by decide +kernel) (by decide +kernel) (by decide +kernel) hrun⟩

/-- **Two siblings can be live**: both approvals look before either is
committed. -/
theorem not_atMostOneLive : ¬ ∀ rows : List RecommendationRow,
    (∀ r ∈ rows, r.status = pendingApproval) → (rows.map RecommendationRow.id).Nodup →
    (∀ r ∈ rows, r.Checks) → ∀ tr s, Run Step (initial rows) tr s → AtMostOneLive s.rows := by
  intro hlaw
  have hend : ∃ s ∈ [Action.load 0 1 2 (.approve "reviewer-1" none),
      .load 1 1 3 (.approve "reviewer-2" none), .check 0, .check 1, .write 0 60, .write 1 60,
      .commit 0, .commit 1].foldlM step (initial siblings),
      ∃ r ∈ s.rows, ∃ r' ∈ s.rows, r.status = approved ∧ r'.status = approved ∧ r.id = 2 ∧
        r'.id = 3 ∧ r'.tenantId = r.tenantId ∧ r'.allocationRunId = r.allocationRunId ∧
        r.userPseudonym ≠ none ∧ r'.userPseudonym = r.userPseudonym := by decide +kernel
  obtain ⟨s, hs, r, hr, r', hr', hlive, hlive', hid, hid', htenant, hrun, hne, huser⟩ := hend
  obtain ⟨tr, hrun'⟩ := Run.exists_of_foldlM hs
  have hone := hlaw siblings (by decide +kernel) (by decide +kernel) (by decide +kernel) tr s hrun'
  have heq := hone r hr r' hr' (Or.inl hlive) (Or.inl hlive') ⟨htenant, hrun, Or.inl ⟨hne, huser⟩⟩
  rw [heq, hid'] at hid
  cases hid

end Concurrent

end RetentionEngine
