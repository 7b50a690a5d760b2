import RetentionEngine.Common.Run
import RetentionEngine.Schema.Recommendation

/-!
# Which role may write what

The grants of migrations 0006 and 0007 on `recommendations`, and the
single-row statements the two writing roles may run under them. The
UPDATE grants are per column; the INSERT grant is for the whole row, and
the transition trigger fires on UPDATE only. That gap is what this file
measures: `roles.sql` says that only `app_console` can produce an
APPROVED row, and `approvedOnlyByConsole_iff` says which statements of
`app_worker` have to be absent for that to be so.
-/

namespace RetentionEngine

namespace Schema

open RecommendationStatus

/-- The two roles that write recommendations. -/
inductive Role
  | appWorker
  | appConsole
  deriving DecidableEq, Repr

/-- The columns of `recommendations`. -/
inductive Column
  | id | tenantId | allocationRunId | allocationCandidateId | subjectType | userPseudonym
  | circleId | incentiveCode | costIdr | priorityIdr | userRank | isRunnerUp | status
  | reasonText | reasonFactors | reasonSource | factSheetHash | createdAt | submittedAt
  | reviewedBy | reviewedAt | reviewNote | deliveredAt | deliveryRef
  deriving DecidableEq, Repr

/-- One `column = value` of a SET clause. -/
inductive Assignment
  | id (v : Uuid)
  | tenantId (v : Uuid)
  | allocationRunId (v : Uuid)
  | allocationCandidateId (v : Option Uuid)
  | subjectType (v : SubjectType)
  | userPseudonym (v : Option String)
  | circleId (v : Option Uuid)
  | incentiveCode (v : String)
  | costIdr (v : ℤ)
  | priorityIdr (v : ℤ)
  | userRank (v : ℤ)
  | isRunnerUp (v : Bool)
  | status (v : RecommendationStatus)
  | reasonText (v : Option String)
  | reasonFactors (v : String)
  | reasonSource (v : Option String)
  | factSheetHash (v : Option String)
  | createdAt (v : Timestamp)
  | submittedAt (v : Option Timestamp)
  | reviewedBy (v : Option String)
  | reviewedAt (v : Option Timestamp)
  | reviewNote (v : Option String)
  | deliveredAt (v : Option Timestamp)
  | deliveryRef (v : Option String)

namespace Assignment

/-- The column an assignment writes. -/
def column : Assignment → Column
  | id _ => .id
  | tenantId _ => .tenantId
  | allocationRunId _ => .allocationRunId
  | allocationCandidateId _ => .allocationCandidateId
  | subjectType _ => .subjectType
  | userPseudonym _ => .userPseudonym
  | circleId _ => .circleId
  | incentiveCode _ => .incentiveCode
  | costIdr _ => .costIdr
  | priorityIdr _ => .priorityIdr
  | userRank _ => .userRank
  | isRunnerUp _ => .isRunnerUp
  | status _ => .status
  | reasonText _ => .reasonText
  | reasonFactors _ => .reasonFactors
  | reasonSource _ => .reasonSource
  | factSheetHash _ => .factSheetHash
  | createdAt _ => .createdAt
  | submittedAt _ => .submittedAt
  | reviewedBy _ => .reviewedBy
  | reviewedAt _ => .reviewedAt
  | reviewNote _ => .reviewNote
  | deliveredAt _ => .deliveredAt
  | deliveryRef _ => .deliveryRef

/-- The row with the assignment made. -/
def apply (r : RecommendationRow) : Assignment → RecommendationRow
  | id v => { r with id := v }
  | tenantId v => { r with tenantId := v }
  | allocationRunId v => { r with allocationRunId := v }
  | allocationCandidateId v => { r with allocationCandidateId := v }
  | subjectType v => { r with subjectType := v }
  | userPseudonym v => { r with userPseudonym := v }
  | circleId v => { r with circleId := v }
  | incentiveCode v => { r with incentiveCode := v }
  | costIdr v => { r with costIdr := v }
  | priorityIdr v => { r with priorityIdr := v }
  | userRank v => { r with userRank := v }
  | isRunnerUp v => { r with isRunnerUp := v }
  | status v => { r with status := v }
  | reasonText v => { r with reasonText := v }
  | reasonFactors v => { r with reasonFactors := v }
  | reasonSource v => { r with reasonSource := v }
  | factSheetHash v => { r with factSheetHash := v }
  | createdAt v => { r with createdAt := v }
  | submittedAt v => { r with submittedAt := v }
  | reviewedBy v => { r with reviewedBy := v }
  | reviewedAt v => { r with reviewedAt := v }
  | reviewNote v => { r with reviewNote := v }
  | deliveredAt v => { r with deliveredAt := v }
  | deliveryRef v => { r with deliveryRef := v }

end Assignment

/-- The row an UPDATE leaves: every assignment of its SET clause made. -/
def applyAll (r : RecommendationRow) (set : List Assignment) : RecommendationRow :=
  set.foldl Assignment.apply r

/-- A single-row statement on `recommendations`. An INSERT gives the
whole row, its defaults filled in; an UPDATE names the row by id. -/
inductive Statement
  | insert (row : RecommendationRow)
  | update (id : Uuid) (set : List Assignment)

/-- A statement with the role that runs it and the `app.tenant_id` of its
transaction. -/
structure Command where
  role : Role
  tenant : Uuid
  stmt : Statement

/-- `GRANT INSERT ON recommendations TO app_worker` (0006): on the table,
so on every column of it. -/
def Role.mayInsert : Role → Bool
  | .appWorker => true
  | .appConsole => false

/-- `GRANT SELECT ON recommendations`: to the console in 0006, to the
worker in 0007. An UPDATE with a WHERE clause reads. -/
def Role.maySelect : Role → Bool
  | .appWorker => true
  | .appConsole => true

/-- `GRANT UPDATE (…) ON recommendations` (0006). -/
def Role.updatable : Role → List Column
  | .appWorker => [.status, .deliveredAt, .deliveryRef]
  | .appConsole => [.status, .reviewedBy, .reviewedAt, .reviewNote]

/-- **One statement against the table**; `none` is a statement Postgres
refuses. Row-level security shows an UPDATE only the rows of the
transaction's tenant, so one on a hidden or missing row changes
nothing. -/
def execute (t : RecommendationTable) (c : Command) : Option RecommendationTable :=
  match c.stmt with
  | .insert row =>
      if c.role.mayInsert ∧ row.tenantId = c.tenant ∧ t row.id = none ∧ row.Checks then
        some (Function.update t row.id (some row))
      else none
  | .update id set =>
      if c.role.maySelect ∧ set ≠ [] ∧ (set.map Assignment.column).Nodup ∧
          ∀ a ∈ set, a.column ∈ c.role.updatable then
        match t id with
        | none => some t
        | some old =>
            if old.tenantId = c.tenant then
              if checkRecommendationTransition old.status (applyAll old set).status ∧
                  (applyAll old set).Checks then
                some (Function.update t id (some (applyAll old set)))
              else none
            else some t
      else none

/-- The step relation of the table: a statement that is let through. -/
def Step (t : RecommendationTable) (c : Command) (t' : RecommendationTable) : Prop :=
  execute t c = some t'

/-! ## What one statement can do -/

/-- **The inversion of a step**: an INSERT of a fresh row by the worker,
an UPDATE that found no row, or an UPDATE of one row by an allowed
transition. -/
theorem step_cases {t t' : RecommendationTable} {c : Command} (h : Step t c t') :
    (∃ row, c.stmt = .insert row ∧ c.role = .appWorker ∧ t row.id = none ∧
        t' = Function.update t row.id (some row)) ∨
      (t' = t ∧ ∀ id set old, c.stmt = .update id set → t id = some old →
        old.tenantId ≠ c.tenant) ∨
      (∃ id set old, c.stmt = .update id set ∧ t id = some old ∧ old.tenantId = c.tenant ∧
        ((applyAll old set).status = old.status ∨
          (applyAll old set).status ∈ old.status.allowedTransitions) ∧
        t' = Function.update t id (some (applyAll old set))) := by
  obtain ⟨role, tenant, stmt⟩ := c
  cases stmt with
  | insert row =>
      simp only [Step, execute, Option.ite_none_right_eq_some, Option.some.injEq] at h
      obtain ⟨⟨hrole, -, hfresh, -⟩, rfl⟩ := h
      refine Or.inl ⟨row, rfl, ?_, hfresh, rfl⟩
      cases role with
      | appWorker => rfl
      | appConsole => simp [Role.mayInsert] at hrole
  | update id set =>
      simp only [Step, execute, Option.ite_none_right_eq_some] at h
      obtain ⟨-, h⟩ := h
      cases hold : t id with
      | none =>
          rw [hold] at h
          refine Or.inr (Or.inl ⟨(Option.some.inj h).symm, ?_⟩)
          rintro id' set' old heq hsome
          injection heq with hid _
          rw [← hid, hold] at hsome
          cases hsome
      | some old =>
          rw [hold] at h
          by_cases htenant : old.tenantId = tenant
          · simp only [htenant, if_true, Option.ite_none_right_eq_some, Option.some.injEq] at h
            obtain ⟨⟨htrig, -⟩, rfl⟩ := h
            exact Or.inr (Or.inr ⟨id, set, old, rfl, hold, htenant,
              (checkRecommendationTransition_iff _ _).mp htrig, rfl⟩)
          · simp only [htenant, if_false, Option.some.injEq] at h
            refine Or.inr (Or.inl ⟨h.symm, ?_⟩)
            rintro id' set' old' heq hsome
            injection heq with hid _
            rw [← hid, hold] at hsome
            obtain rfl := Option.some.inj hsome
            exact htenant

/-- **A live row stays live**: no statement deletes a row, and the
trigger lets an APPROVED or DELIVERED row only stay or be delivered. -/
theorem live_of_step {t t' : RecommendationTable} {c : Command} (h : Step t c t')
    {i : Uuid} {r : RecommendationRow} (hr : t i = some r) (hlive : r.status.Live) :
    ∃ r', t' i = some r' ∧ r'.status.Live := by
  rcases step_cases h with
    ⟨row, -, -, hfresh, rfl⟩ | ⟨rfl, -⟩ | ⟨id, set, old, -, hold, -, htrans, rfl⟩
  · have hne : i ≠ row.id := by
      rintro rfl
      rw [hfresh] at hr
      cases hr
    exact ⟨r, by rw [Function.update_of_ne hne]; exact hr, hlive⟩
  · exact ⟨r, hr, hlive⟩
  · by_cases hi : i = id
    · subst hi
      obtain rfl : old = r := Option.some.inj (hold.symm.trans hr)
      refine ⟨applyAll old set, Function.update_self .., ?_⟩
      rcases htrans with heq | hmem
      · rwa [heq]
      · exact live_of_live hmem hlive
    · exact ⟨r, by rw [Function.update_of_ne hi]; exact hr, hlive⟩

/-! ## Who approved -/

/-- The step is an `app_console` statement that moved row `i` from
PENDING_APPROVAL to APPROVED. -/
def ConsoleApproves (x : Transition RecommendationTable Command) (i : Uuid) : Prop :=
  x.act.role = .appConsole ∧ (∃ set, x.act.stmt = .update i set) ∧
    (∃ old, x.pre i = some old ∧ old.status = pendingApproval) ∧
    ∃ new, x.post i = some new ∧ new.status = approved

/-- **Every live row was approved by the console**, in this history. -/
def ReviewedByConsole (tr : List (Transition RecommendationTable Command))
    (t : RecommendationTable) : Prop :=
  ∀ i row, t i = some row → row.status.Live → ∃ x ∈ tr, ConsoleApproves x i

/-- **The statements the grants should have refused**: an INSERT of a row
that is already live, and a worker's UPDATE that approves. The second
passes the CHECK when the reviewer columns are filled already, by the
worker's own INSERT or by a console statement that leaves the status. -/
def BypassesReview (t : RecommendationTable) (c : Command) : Prop :=
  match c.stmt with
  | .insert row => row.status.Live
  | .update i set => c.role = .appWorker ∧ ∃ old, t i = some old ∧ old.tenantId = c.tenant ∧
      old.status = pendingApproval ∧ (applyAll old set).status = approved

/-- One step keeps the law unless it bypasses review. -/
theorem reviewedByConsole_step {tr : List (Transition RecommendationTable Command)}
    {t t' : RecommendationTable} {c : Command} (hinv : ReviewedByConsole tr t) (h : Step t c t')
    (hgood : ¬ BypassesReview t c) : ReviewedByConsole (tr ++ [⟨t, c, t'⟩]) t' := by
  have hearlier : ∀ i, (∃ x ∈ tr, ConsoleApproves x i) →
      ∃ x ∈ tr ++ [⟨t, c, t'⟩], ConsoleApproves x i := fun i ⟨x, hx, hc⟩ => ⟨x, by simp [hx], hc⟩
  intro i row hrow hlive
  rcases step_cases h with ⟨ins, hstmt, -, -, rfl⟩ | ⟨rfl, -⟩ |
      ⟨id, set, old, hstmt, hold, htenant, htrans, rfl⟩
  · rw [BypassesReview, hstmt] at hgood
    by_cases hi : i = ins.id
    · subst hi
      rw [Function.update_self] at hrow
      exact absurd (Option.some.inj hrow ▸ hlive) hgood
    · rw [Function.update_of_ne hi] at hrow
      exact hearlier i (hinv i row hrow hlive)
  · exact hearlier i (hinv i row hrow hlive)
  · by_cases hi : i = id
    · subst hi
      rw [Function.update_self] at hrow
      obtain rfl := Option.some.inj hrow
      by_cases hwas : old.status.Live
      · exact hearlier i (hinv i old hold hwas)
      · -- the row became live in this step, so the step approved it
        have hmem : (applyAll old set).status ∈ old.status.allowedTransitions := by
          rcases htrans with heq | hmem
          · exact absurd (heq ▸ hlive) hwas
          · exact hmem
        obtain ⟨hpending, happroved⟩ := eq_pending_of_live hmem hwas hlive
        refine ⟨_, List.mem_append_right _ (List.mem_singleton_self _), ?_, ⟨set, hstmt⟩,
          ⟨old, hold, hpending⟩, _, Function.update_self .., happroved⟩
        rw [BypassesReview, hstmt] at hgood
        cases hrole : c.role with
        | appConsole => rfl
        | appWorker => exact absurd ⟨hrole, old, hold, htenant, hpending, happroved⟩ hgood
    · rw [Function.update_of_ne hi] at hrow
      exact hearlier i (hinv i row hrow hlive)

/-- A row the console has approved is live from then on. -/
theorem live_of_consoleApproves {tr : List (Transition RecommendationTable Command)}
    {t : RecommendationTable} (h : Run Step .empty tr t)
    {x : Transition RecommendationTable Command} (hx : x ∈ tr) {i : Uuid}
    (hc : ConsoleApproves x i) :
    ∃ row, t i = some row ∧ row.status.Live := by
  induction h with
  | nil => cases hx
  | @snoc tr t t' c _ hstep ih =>
      rcases List.mem_append.mp hx with hmem | hlast
      · obtain ⟨row, hrow, hlive⟩ := ih hmem
        exact live_of_step hstep hrow hlive
      · rw [List.mem_singleton] at hlast
        subst hlast
        obtain ⟨-, -, -, new, hnew, happroved⟩ := hc
        exact ⟨new, hnew, Or.inl happroved⟩

/-- **A bypassing step breaks the law at once**: it makes a row live that
no console statement has approved, then or earlier. -/
theorem not_reviewedByConsole_of_bypass {tr : List (Transition RecommendationTable Command)}
    {t t' : RecommendationTable} {c : Command} (hrun : Run Step .empty tr t) (h : Step t c t')
    (hbad : BypassesReview t c) : ¬ ReviewedByConsole (tr ++ [⟨t, c, t'⟩]) t' := by
  intro hlaw
  rcases step_cases h with ⟨ins, hstmt, hrole, hfresh, rfl⟩ | ⟨rfl, hhidden⟩ |
      ⟨id, set, old, hstmt, hold, -, -, rfl⟩
  · rw [BypassesReview, hstmt] at hbad
    obtain ⟨x, hx, hc⟩ := hlaw ins.id ins (Function.update_self ..) hbad
    rcases List.mem_append.mp hx with hmem | hlast
    · obtain ⟨row, hrow, -⟩ := live_of_consoleApproves hrun hmem hc
      rw [hfresh] at hrow
      cases hrow
    · rw [List.mem_singleton] at hlast
      subst hlast
      exact absurd (hrole.symm.trans hc.1) (by decide)
  · obtain ⟨role, tenant, stmt⟩ := c
    cases stmt with
    | insert row =>
        -- an INSERT always changes the table, so this case is the update's
        simp only [Step, execute, Option.ite_none_right_eq_some, Option.some.injEq] at h
        obtain ⟨⟨-, -, hfresh, -⟩, heq⟩ := h
        have := congrFun heq row.id
        rw [Function.update_self, hfresh] at this
        cases this
    | update id set =>
        obtain ⟨-, old, hold, htenant, -⟩ := hbad
        exact hhidden id set old rfl hold htenant
  · rw [BypassesReview, hstmt] at hbad
    obtain ⟨hrole, old', hold', -, hpending, happroved⟩ := hbad
    obtain rfl : old = old' := Option.some.inj (hold.symm.trans hold')
    obtain ⟨x, hx, hc⟩ := hlaw id _ (Function.update_self ..) (Or.inl happroved)
    rcases List.mem_append.mp hx with hmem | hlast
    · obtain ⟨row, hrow, hlive⟩ := live_of_consoleApproves hrun hmem hc
      obtain rfl : old = row := Option.some.inj (hold.symm.trans hrow)
      rw [hpending] at hlive
      exact absurd hlive not_live_pendingApproval
    · rw [List.mem_singleton] at hlast
      subst hlast
      exact absurd (hrole.symm.trans hc.1) (by decide)

/-- **Only the console approves, exactly when no statement bypasses
review.** In every state of a run each live row was approved by an
earlier console statement if and only if no executed statement is an
INSERT of a live row or a worker's approving UPDATE. -/
theorem approvedOnlyByConsole_iff {tr : List (Transition RecommendationTable Command)}
    {t : RecommendationTable} (h : Run Step .empty tr t) :
    (∀ tr₀ t₀, tr₀ <+: tr → Run Step .empty tr₀ t₀ → ReviewedByConsole tr₀ t₀) ↔
      ∀ x ∈ tr, ¬ BypassesReview x.pre x.act := by
  constructor
  · intro hlaw x hx hbad
    obtain ⟨tr₀, hpre, hrun₀, hstep⟩ := h.exists_prefix hx
    exact not_reviewedByConsole_of_bypass hrun₀ hstep hbad (hlaw _ _ hpre (hrun₀.snoc hstep))
  · intro hgood tr₀ t₀ hpre hrun₀
    refine Run.history (G := fun t c => ¬ BypassesReview t c) hrun₀
      (fun x hx => hgood x (hpre.subset hx)) ?_ ?_
    · intro i row hrow
      cases hrow
    · intro tr s c s' _ hinv hstep hok
      exact reviewedByConsole_step hinv hstep hok

/-- A pending row as the worker's `create_pending` writes it. -/
def pendingRow : RecommendationRow where
  id := 1
  tenantId := 0
  allocationRunId := 7
  allocationCandidateId := none
  subjectType := .user
  userPseudonym := some "a1"
  circleId := none
  incentiveCode := "CASHBACK"
  costIdr := 25000
  priorityIdr := 0
  userRank := 1
  isRunnerUp := false
  status := .pendingApproval
  reasonText := none
  reasonFactors := "[]"
  reasonSource := none
  factSheetHash := none
  createdAt := 0
  submittedAt := some 0
  reviewedBy := none
  reviewedAt := none
  reviewNote := none
  deliveredAt := none
  deliveryRef := none

/-- The reviewed life of a row: the worker proposes it and the console
approves it, and the law holds all along. -/
theorem approvedOnlyByConsole_iff_reviewed :
    ∃ tr t, Run Step .empty tr t ∧
      (∃ row, t 1 = some row ∧ row.status = approved) ∧
      ∀ tr₀ t₀, tr₀ <+: tr → Run Step .empty tr₀ t₀ → ReviewedByConsole tr₀ t₀ := by
  have hpropose : Step .empty ⟨.appWorker, 0, .insert pendingRow⟩
      (Function.update RecommendationTable.empty 1 (some pendingRow)) := by
    simp [Step, execute, Role.mayInsert, pendingRow, RecommendationTable.empty,
      RecommendationRow.Checks, RecommendationRow.SubjectExclusive,
      RecommendationRow.ApprovedNeedsReviewer, RecommendationRow.RejectedNeedsReviewer,
      RecommendationRow.DeliveredNeedsReviewAndDelivery]
  let sign : List Assignment := [.status approved, .reviewedBy (some "ops_1"), .reviewedAt (some 5)]
  have happrove : Step (Function.update RecommendationTable.empty 1 (some pendingRow))
      ⟨.appConsole, 0, .update 1 sign⟩
      (Function.update (Function.update RecommendationTable.empty 1 (some pendingRow)) 1
        (some (applyAll pendingRow sign))) := by
    rfl
  refine ⟨_, _, (Run.nil.snoc hpropose).snoc happrove,
    ⟨_, Function.update_self .., rfl⟩, ?_⟩
  refine (approvedOnlyByConsole_iff ((Run.nil.snoc hpropose).snoc happrove)).mpr ?_
  intro x hx
  simp only [List.nil_append, List.cons_append, List.mem_cons, List.not_mem_nil, or_false] at hx
  rcases hx with rfl | rfl
  · exact not_live_pendingApproval
  · rintro ⟨hrole, -⟩
    cases hrole

/-- The row a worker can write straight into APPROVED: the INSERT grant
covers the reviewer columns and no trigger looks at an INSERT. -/
def forgedRow : RecommendationRow :=
  { pendingRow with status := .approved, reviewedBy := some "nobody", reviewedAt := some 0 }

/-- **The grants do not keep the worker from APPROVED**: one INSERT of
`app_worker` alone puts a row there. -/
theorem not_approvedOnlyByConsole :
    ¬ ∀ tr t, Run Step .empty tr t → ReviewedByConsole tr t := by
  intro hlaw
  have hforge : Step .empty ⟨.appWorker, 0, .insert forgedRow⟩
      (Function.update RecommendationTable.empty 1 (some forgedRow)) := by
    rfl
  obtain ⟨x, hx, hc⟩ := hlaw _ _ (Run.nil.snoc hforge) 1 forgedRow (Function.update_self ..)
    live_approved
  rw [List.nil_append, List.mem_singleton] at hx
  subst hx
  exact absurd hc.1 (by decide)

end Schema

end RetentionEngine
