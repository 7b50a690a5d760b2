import RetentionEngine.Common.OffsetPaging
import RetentionEngine.Store.Recommendations
import Mathlib

/-!
# Pulling recommendations

`GET /v1/recommendations` and its delivery-ack, of `api.routers.ingest`, on
the rows of the tenant, past the API key and the check of the query's
types. The cursor of a page is an offset into the rows that are APPROVED at
the moment, oldest review first, and an ack takes a row out of them. The
text of a UUID is that of its number.
-/

namespace RetentionEngine

namespace Api

open Store RecommendationStatus

/-- NULLS LAST. -/
def ReviewedFirst (r r' : RecommendationRow) : Prop :=
  match r.reviewedAt, r'.reviewedAt with
  | some a, some b => a ≤ b
  | _, none => True
  | none, some _ => False

instance : DecidableRel ReviewedFirst := fun r r' => by
  unfold ReviewedFirst
  split <;> infer_instance

/-- The APPROVED rows, ORDER BY reviewed_at. -/
def approvedRows (rows : List RecommendationRow) : List RecommendationRow :=
  (rows.filter fun r => r.status = approved).insertionSort ReviewedFirst

/-- `list_approved`. -/
def listApproved (rows : List RecommendationRow) (limit offset : ℕ) : List RecommendationRow :=
  ((approvedRows rows).drop offset).take limit

/-- `RecommendationOut`. -/
structure RecommendationOut where
  recommendationId : String
  subjectType : SubjectType
  userPseudonym : Option String
  circleId : Option String
  incentiveCode : String
  costIdr : ℤ
  reasonText : Option String
  approvedAt : Option String
  expiresAt : Option String
  deriving DecidableEq, Repr

/-- `RecommendationList`. -/
structure RecommendationList where
  items : List RecommendationOut
  nextCursor : Option String
  deriving DecidableEq, Repr

/-- What leaves the endpoints as an exception. -/
inductive RecommendationsError
  | forbidden (message : String)
  | notFound (message : String)
  | conflict (message : String)
  deriving DecidableEq, Repr

variable (isoformat : Timestamp → String)

/-- One element of `items`. -/
def recommendationOut (r : RecommendationRow) : RecommendationOut where
  recommendationId := toString r.id
  subjectType := r.subjectType
  userPseudonym := r.userPseudonym
  circleId := r.circleId.map toString
  incentiveCode := r.incentiveCode
  costIdr := r.costIdr
  reasonText := r.reasonText
  approvedAt := r.reviewedAt.map isoformat
  expiresAt := none

/-- **`list_approved_recommendations`**. -/
def listApprovedRecommendations (rows : List RecommendationRow) (status : String)
    (limit cursor : ℕ) : Except RecommendationsError RecommendationList :=
  if status ≠ "APPROVED" then
    .error (.forbidden
      "status must be APPROVED; no other value is ever returned on this surface")
  else
    let page := listApproved rows limit cursor
    .ok ⟨page.map (recommendationOut isoformat),
      if page.length = limit then some (toString (cursor + limit)) else none⟩

/-- `DeliveryAckIn`. -/
structure DeliveryAckIn where
  deliveredAt : String
  deliveryRef : Option String
  channel : Option String
  deriving DecidableEq, Repr

/-- **`delivery_ack`**: the id and the status of the row, and the rows. -/
def deliveryAck (tenantId : Uuid) (rows : List RecommendationRow) (recommendationId : String)
    (body : DeliveryAckIn) (now : Timestamp) :
    Except RecommendationsError (String × String) × List RecommendationRow :=
  match recommendationId.toNat? with
  | none => (.error (.notFound "recommendation not found"), rows)
  | some id =>
      match markDelivered tenantId rows id body.deliveryRef now with
      | .error (.lookupError message) => (.error (.notFound message), rows)
      | .error (.illegalTransition message) => (.error (.conflict message), rows)
      | .ok rows' => (.ok (toString id, delivered.value), rows')

/-! ## A client that pages -/

/-- The rows, the cursor the client goes on with (`none` after the last
page), and the items it has received. -/
structure Session where
  rows : List RecommendationRow
  cursor : Option ℕ
  received : List RecommendationOut

/-- What happens next. -/
inductive PullAction
  /-- The client asks for the next page. -/
  | get
  /-- It acks an item. -/
  | ack (recommendationId : String) (body : DeliveryAckIn) (now : Timestamp)
  /-- A reviewer approves. -/
  | approve (id : Uuid) (reviewerId : String) (note : Option String) (now : Timestamp)
  deriving DecidableEq, Repr

variable (tenantId : Uuid) (limit : ℕ)

/-- **One step of the session.** The client acks what it has received; a
review is later than every one before it. -/
inductive PullStep : Session → PullAction → Session → Prop
  | get {s : Session} {c : ℕ} {page : RecommendationList} (hcursor : s.cursor = some c)
      (hpage : listApprovedRecommendations isoformat s.rows "APPROVED" limit c = .ok page) :
      PullStep s .get ⟨s.rows, page.nextCursor.bind String.toNat?, s.received ++ page.items⟩
  | ack {s : Session} {recommendationId : String} {body : DeliveryAckIn} {now : Timestamp}
      (hitem : recommendationId ∈ s.received.map RecommendationOut.recommendationId) :
      PullStep s (.ack recommendationId body now)
        { s with rows := (deliveryAck tenantId s.rows recommendationId body now).2 }
  | approve {s : Session} {id : Uuid} {reviewerId : String} {note : Option String}
      {now : Timestamp} (hlater : ∀ r ∈ s.rows, ∀ d ∈ r.reviewedAt, d < now) :
      PullStep s (.approve id reviewerId note now) { s with
        rows := (approve tenantId s.rows id reviewerId note now).toOption.getD s.rows }

/-- The row of an id can be delivered, as `assert_transition` has it. -/
def Deliverable (rows : List RecommendationRow) (recommendationId : String) : Prop :=
  ∃ id ∈ recommendationId.toNat?, ∃ row ∈ rows.find? (fun r => r.id = id),
    assertTransition row.status delivered row.reviewedBy = .ok ()

/-- **Acks come late enough**: a row is delivered only when none that was
APPROVED at first stands at the cursor or after it. -/
def AckedLate (first : List RecommendationRow) (s : Session) : PullAction → Prop
  | .ack recommendationId _ _ => Deliverable s.rows recommendationId →
      ∀ c ∈ s.cursor, ∀ r ∈ (approvedRows s.rows).drop c,
        r.id ∉ (approvedRows first).map RecommendationRow.id
  | _ => True

variable {isoformat tenantId limit} {rows first : List RecommendationRow}
  {row row' : RecommendationRow} {s s' : Session} {a : PullAction}

/-! ## The approved rows -/

instance : IsTrans RecommendationRow ReviewedFirst where
  trans p q r hpq hqr := by
    unfold ReviewedFirst at *
    cases hp : p.reviewedAt <;> cases hq : q.reviewedAt <;> cases hr : r.reviewedAt <;> simp_all
    exact hpq.trans hqr

instance : Std.Total ReviewedFirst where
  total p q := by
    unfold ReviewedFirst
    cases p.reviewedAt <;> cases q.reviewedAt <;> simp [le_total]

/-- **The table is sound**: a primary key, a review time on every APPROVED
row (`ck_recommendations_approved_needs_reviewer`), and no such time twice. -/
structure SoundRows (rows : List RecommendationRow) : Prop where
  ids : (rows.map RecommendationRow.id).Nodup
  reviewed : ∀ r ∈ rows, r.status = approved → r.reviewedAt ≠ none
  distinct : ∀ r ∈ rows, ∀ r' ∈ rows, r.status = approved → r'.status = approved →
    r.reviewedAt = r'.reviewedAt → r = r'

theorem mem_approvedRows : row ∈ approvedRows rows ↔ row ∈ rows ∧ row.status = approved := by
  unfold approvedRows
  rw [(List.perm_insertionSort _ _).mem_iff, List.mem_filter, decide_eq_true_iff]

/-- Of two rows with a review time each the earlier comes first. -/
theorem reviewedFirst_antisymm (h : ReviewedFirst row row') (h' : ReviewedFirst row' row) :
    row.reviewedAt = row'.reviewedAt := by
  unfold ReviewedFirst at *
  cases hrow : row.reviewedAt <;> cases hrow' : row'.reviewedAt <;> simp_all
  exact le_antisymm h h'

/-- **The order by review is the only one.** -/
theorem approvedRows_eq {l : List RecommendationRow} (hsound : SoundRows rows)
    (hperm : l.Perm (rows.filter fun r => r.status = approved))
    (hsorted : l.Pairwise ReviewedFirst) : approvedRows rows = l := by
  have hall : (approvedRows rows).Perm (rows.filter fun r => r.status = approved) :=
    List.perm_insertionSort _ _
  refine (hall.trans hperm.symm).eq_of_pairwise ?_ (List.pairwise_insertionSort _ _) hsorted
  intro r r' hr hr' hle hle'
  obtain ⟨hr, hstatus⟩ := mem_approvedRows.mp hr
  obtain ⟨hr', hstatus'⟩ := List.mem_filter.mp (hperm.mem_iff.mp hr')
  exact hsound.distinct r hr r' hr' hstatus (of_decide_eq_true hstatus')
    (reviewedFirst_antisymm hle hle')

/-- A row written back stands where it stood. -/
theorem exists_writeBack_eq (hids : (rows.map RecommendationRow.id).Nodup) (hrow : row ∈ rows)
    (hid : row'.id = row.id) :
    ∃ before after, rows = before ++ row :: after ∧ writeBack rows row' = before ++ row' :: after ∧
      ∀ r ∈ before ++ after, r.id ≠ row.id := by
  obtain ⟨before, after, rfl⟩ := List.append_of_mem hrow
  have hnodup : ((row :: (before ++ after)).map RecommendationRow.id).Nodup :=
    hids.perm (List.perm_middle.map _)
  rw [List.map_cons, List.nodup_cons] at hnodup
  have hne : ∀ r ∈ before ++ after, r.id ≠ row.id := fun r hr heq =>
    hnodup.1 (heq ▸ List.mem_map_of_mem hr)
  have hsame : ∀ l : List RecommendationRow, (∀ r ∈ l, r ∈ before ++ after) →
      l.map (fun r => if r.id = row'.id then row' else r) = l := by
    intro l hl
    rw [List.map_congr_left fun r hr => if_neg (hid ▸ hne r (hl r hr)), List.map_id']
  refine ⟨before, after, rfl, ?_, hne⟩
  unfold writeBack
  rw [List.map_append, List.map_cons, hsame before fun r hr => List.mem_append_left _ hr,
    hsame after fun r hr => List.mem_append_right _ hr, if_pos hid.symm]

/-- Writing a row back keeps every id. -/
theorem map_id_writeBack : (writeBack rows row').map RecommendationRow.id =
    rows.map RecommendationRow.id := by
  unfold writeBack
  rw [List.map_map]
  refine List.map_congr_left ?_
  intro r _
  show (if r.id = row'.id then row' else r).id = r.id
  split
  · rename_i heq
    exact heq.symm
  · rfl

/-- What is in the table after a row is written back. -/
theorem mem_writeBack {r : RecommendationRow} (h : r ∈ writeBack rows row') :
    r = row' ∨ r ∈ rows := by
  obtain ⟨r₀, hr₀, heq⟩ := List.mem_map.mp h
  split at heq
  · exact Or.inl heq.symm
  · exact Or.inr (heq ▸ hr₀)

/-- **An approval comes last.** -/
theorem SoundRows.approve (h : SoundRows rows) (row' : RecommendationRow) (hrow : row ∈ rows)
    (hstatus : row.status ≠ approved) (hid : row'.id = row.id) (hstatus' : row'.status = approved)
    {now : Timestamp} (hnow : row'.reviewedAt = some now)
    (hlater : ∀ r ∈ rows, ∀ d ∈ r.reviewedAt, d < now) :
    SoundRows (writeBack rows row') ∧
      approvedRows (writeBack rows row') = approvedRows rows ++ [row'] := by
  have hother : ∀ r ∈ rows, r.status = approved → ∃ d, r.reviewedAt = some d ∧ d < now := by
    intro r hr happroved
    obtain ⟨d, hd⟩ := Option.ne_none_iff_exists'.mp (h.reviewed r hr happroved)
    exact ⟨d, hd, hlater r hr d hd⟩
  have hsound : SoundRows (writeBack rows row') := by
    refine ⟨by rw [map_id_writeBack]; exact h.ids, ?_, ?_⟩
    · intro r hr happroved
      rcases mem_writeBack hr with rfl | hr
      · rw [hnow]
        exact Option.some_ne_none _
      · exact h.reviewed r hr happroved
    · intro r hr r' hr' happroved happroved' heq
      rcases mem_writeBack hr with hnew | hr
      · rcases mem_writeBack hr' with hnew' | hr'
        · rw [hnew, hnew']
        · obtain ⟨d, hd, hlt⟩ := hother r' hr' happroved'
          rw [hnew, hnow, hd] at heq
          exact absurd (Option.some.inj heq) hlt.ne'
      · rcases mem_writeBack hr' with hnew' | hr'
        · obtain ⟨d, hd, hlt⟩ := hother r hr happroved
          rw [hnew', hnow, hd] at heq
          exact absurd (Option.some.inj heq) hlt.ne
        · exact h.distinct r hr r' hr' happroved happroved' heq
  refine ⟨hsound, approvedRows_eq hsound ?_ ?_⟩
  · obtain ⟨before, after, hsplit, hwritten, -⟩ := exists_writeBack_eq h.ids hrow hid
    have hperm : (approvedRows rows).Perm (rows.filter fun r => r.status = approved) :=
      List.perm_insertionSort _ _
    refine (hperm.append_right _).trans ?_
    rw [hwritten, hsplit]
    simp only [List.filter_append, List.filter_cons, hstatus, hstatus', decide_true, decide_false,
      if_true, Bool.false_eq_true, if_false, List.append_assoc]
    exact (List.perm_append_singleton _ _).append_left _
  · rw [List.pairwise_append]
    refine ⟨List.pairwise_insertionSort _ _, List.pairwise_singleton _ _, ?_⟩
    intro r hr r' hr'
    obtain ⟨hr, happroved⟩ := mem_approvedRows.mp hr
    obtain ⟨d, hd, hlt⟩ := hother r hr happroved
    rw [List.mem_singleton.mp hr']
    unfold ReviewedFirst
    rw [hd, hnow]
    exact hlt.le

/-- **A delivery takes one row out.** -/
theorem SoundRows.deliver (h : SoundRows rows) (row' : RecommendationRow) (hrow : row ∈ rows)
    (hstatus : row.status = approved) (hid : row'.id = row.id) (hstatus' : row'.status ≠ approved) :
    SoundRows (writeBack rows row') ∧
      approvedRows (writeBack rows row') = (approvedRows rows).filter fun r => r.id ≠ row.id := by
  have hsound : SoundRows (writeBack rows row') := by
    refine ⟨by rw [map_id_writeBack]; exact h.ids, ?_, ?_⟩
    · intro r hr happroved
      rcases mem_writeBack hr with rfl | hr
      · exact absurd happroved hstatus'
      · exact h.reviewed r hr happroved
    · intro r hr r' hr' happroved happroved' heq
      rcases mem_writeBack hr with rfl | hr
      · exact absurd happroved hstatus'
      · rcases mem_writeBack hr' with rfl | hr'
        · exact absurd happroved' hstatus'
        · exact h.distinct r hr r' hr' happroved happroved' heq
  refine ⟨hsound, approvedRows_eq hsound ?_ ?_⟩
  · obtain ⟨before, after, hsplit, hwritten, hne⟩ := exists_writeBack_eq h.ids hrow hid
    have hperm : (approvedRows rows).Perm (rows.filter fun r => r.status = approved) :=
      List.perm_insertionSort _ _
    have hkeep : ∀ l : List RecommendationRow, (∀ r ∈ l, r ∈ before ++ after) →
        (l.filter fun r => r.status = approved).filter (fun r => r.id ≠ row.id) =
          l.filter fun r => r.status = approved := by
      intro l hl
      refine List.filter_eq_self.mpr ?_
      intro r hr
      exact decide_eq_true (hne r (hl r (List.mem_of_mem_filter hr)))
    refine (hperm.filter _).trans ?_
    rw [hwritten, hsplit, List.filter_append, List.filter_append, List.filter_append,
      hkeep before fun r hr => List.mem_append_left _ hr, List.filter_cons,
      if_pos (by simpa using hstatus), List.filter_cons, if_neg (by simp),
      hkeep after fun r hr => List.mem_append_right _ hr, List.filter_cons,
      if_neg (by simpa using hstatus')]
  · exact (List.pairwise_insertionSort _ _).sublist List.filter_sublist

/-! ## The session as paging by offset -/

/-- The texts of the ids of the APPROVED rows. -/
def approvedIds (rows : List RecommendationRow) : List String :=
  (approvedRows rows).map fun r => toString r.id

/-- **The session as a pager.** -/
def Session.pager (s : Session) : OffsetPaging.Pager String where
  items := approvedIds s.rows
  cursor := s.cursor
  received := s.received.map RecommendationOut.recommendationId

/-- What an action does to it; a call that raises does nothing. -/
def pagerAction (tenantId : Uuid) (s : Session) : PullAction → OffsetPaging.Action String
  | .get => .page
  | .ack recommendationId body now =>
      match (deliveryAck tenantId s.rows recommendationId body now).1 with
      | .ok _ => .remove recommendationId
      | .error _ => .idle
  | .approve id reviewerId note now =>
      match approve tenantId s.rows id reviewerId note now with
      | .ok _ => .append (toString id)
      | .error _ => .idle

/-- **What the session keeps**: a sound table, in which what was APPROVED at
first and what was received are still live. -/
structure SoundSession (first : List RecommendationRow) (s : Session) : Prop where
  rows : SoundRows s.rows
  live : ∀ x, x ∈ approvedIds first ∨ x ∈ s.received.map RecommendationOut.recommendationId →
    ∃ r ∈ s.rows, toString r.id = x ∧ r.status.Live

theorem mem_of_find? {id : Uuid} (h : rows.find? (fun r => r.id = id) = some row) :
    row ∈ rows ∧ row.id = id := by
  have hid := List.find?_some h
  exact ⟨List.mem_of_find?_eq_some h, of_decide_eq_true hid⟩

/-- The row `mark_delivered` writes back. -/
def deliveredRow (row : RecommendationRow) (deliveryRef : Option String) (now : Timestamp) :
    RecommendationRow :=
  { row with status := delivered, deliveredAt := some now, deliveryRef := deliveryRef }

/-- The row `approve` writes back. -/
def approvedRow (row : RecommendationRow) (reviewerId : String) (note : Option String)
    (now : Timestamp) : RecommendationRow :=
  { row with
    status := approved, reviewedBy := some reviewerId, reviewedAt := some now, reviewNote := note }

/-- **What an ack does**: it takes an APPROVED row to DELIVERED, or raises
and changes nothing. -/
theorem deliveryAck_cases (tenantId : Uuid) (rows : List RecommendationRow)
    (recommendationId : String) (body : DeliveryAckIn) (now : Timestamp) :
    (¬ Deliverable rows recommendationId ∧ ∃ e,
      deliveryAck tenantId rows recommendationId body now = (.error e, rows)) ∨
    (Deliverable rows recommendationId ∧ ∃ id row, recommendationId.toNat? = some id ∧
      rows.find? (fun r => r.id = id) = some row ∧ row.status = approved ∧
      deliveryAck tenantId rows recommendationId body now =
        (.ok (toString id, delivered.value),
          writeBack rows (deliveredRow row body.deliveryRef now))) := by
  unfold deliveryAck Deliverable markDelivered loadForUpdate checkTransition
  cases hid : recommendationId.toNat? with
  | none =>
      refine Or.inl ⟨?_, _, rfl⟩
      rintro ⟨id, hid', -⟩
      cases hid'
  | some id =>
      cases hfind : rows.find? fun r => r.id = id with
      | none =>
          refine Or.inl ⟨?_, _, by dsimp only; rw [hfind]; rfl⟩
          rintro ⟨id', hid', row, hrow, -⟩
          obtain rfl := Option.some.inj hid'
          rw [hfind] at hrow
          cases hrow
      | some row =>
          cases htransition : assertTransition row.status delivered row.reviewedBy with
          | error message =>
              refine Or.inl ⟨?_, .conflict message, ?_⟩
              · rintro ⟨id', hid', row', hrow, hallowed⟩
                obtain rfl := Option.some.inj hid'
                obtain rfl := Option.some.inj (hfind.symm.trans hrow)
                rw [htransition] at hallowed
                cases hallowed
              · dsimp only
                rw [hfind]
                dsimp only [bind, Except.bind]
                rw [htransition]
                rfl
          | ok u =>
              refine Or.inr ⟨⟨id, rfl, row, hfind, htransition⟩, id, row, rfl, hfind,
                eq_approved_of_delivered (assertTransition_eq_ok.mp htransition).1, ?_⟩
              dsimp only
              rw [hfind]
              dsimp only [bind, Except.bind]
              rw [htransition]
              rfl

/-- A live row is live after a live one is written back. -/
theorem live_writeBack {x : String} (hlive : row'.status.Live)
    (h : ∃ r ∈ rows, toString r.id = x ∧ r.status.Live) :
    ∃ r ∈ writeBack rows row', toString r.id = x ∧ r.status.Live := by
  obtain ⟨r, hr, hx, hr'⟩ := h
  have hmem : (if r.id = row'.id then row' else r) ∈ writeBack rows row' :=
    List.mem_map_of_mem hr
  split at hmem
  · rename_i heq
    exact ⟨row', hmem, heq ▸ hx, hlive⟩
  · exact ⟨r, hmem, hx, hr'⟩

/-- **What a page holds**: the rows at the cursor, and the next cursor. -/
theorem of_listApprovedRecommendations {c : ℕ} {page : RecommendationList}
    (h : listApprovedRecommendations isoformat rows "APPROVED" limit c = .ok page) :
    page.items.map RecommendationOut.recommendationId =
        OffsetPaging.pageAt limit c (approvedIds rows) ∧
      page.nextCursor.bind String.toNat? =
        OffsetPaging.nextCursor limit c (OffsetPaging.pageAt limit c (approvedIds rows)) := by
  unfold listApprovedRecommendations at h
  rw [if_neg (by simp)] at h
  obtain rfl := Except.ok.inj h
  have hids : (listApproved rows limit c).map (fun r => toString r.id) =
      OffsetPaging.pageAt limit c (approvedIds rows) := by
    unfold listApproved OffsetPaging.pageAt approvedIds
    rw [List.map_take, List.map_drop]
  have hlength := congrArg List.length hids
  rw [List.length_map] at hlength
  refine ⟨?_, ?_⟩
  · rw [← hids]
    dsimp only
    rw [List.map_map]
    rfl
  · unfold OffsetPaging.nextCursor
    dsimp only
    rw [← hlength]
    split
    · exact Nat.toNat?_repr (c + limit)
    · rfl

theorem soundSession_step (hsound : SoundSession first s)
    (h : PullStep isoformat tenantId limit s a s') : SoundSession first s' := by
  cases h with
  | @get c page hcursor hpage =>
      refine ⟨hsound.rows, ?_⟩
      intro x hx
      rw [List.map_append, List.mem_append] at hx
      rcases hx with hfirst | hold | hpaged
      · exact hsound.live x (Or.inl hfirst)
      · exact hsound.live x (Or.inr hold)
      · rw [(of_listApprovedRecommendations hpage).1] at hpaged
        obtain ⟨r, hr, rfl⟩ := List.mem_map.mp (List.mem_of_mem_drop (List.mem_of_mem_take hpaged))
        obtain ⟨hr, hstatus⟩ := mem_approvedRows.mp hr
        exact ⟨r, hr, rfl, Or.inl hstatus⟩
  | @ack recommendationId body now hitem =>
      rcases deliveryAck_cases tenantId s.rows recommendationId body now with
        ⟨-, e, heq⟩ | ⟨-, id, row, -, hfind, hstatus, heq⟩
      · rw [heq]
        exact hsound
      · rw [heq]
        have hrows := hsound.rows.deliver (deliveredRow row body.deliveryRef now)
          (mem_of_find? hfind).1 hstatus rfl (by unfold deliveredRow; simp)
        exact ⟨hrows.1, fun x hx => live_writeBack live_delivered (hsound.live x hx)⟩
  | @approve id reviewerId note now hlater =>
      cases happrove : Store.approve tenantId s.rows id reviewerId note now with
      | error e => exact hsound
      | ok rows' =>
          obtain ⟨row, hfind, hpending, -, -, rfl⟩ := of_approve happrove
          have hrows := hsound.rows.approve (approvedRow row reviewerId note now)
            (mem_of_find? hfind).1 (by rw [hpending]; simp) rfl rfl rfl hlater
          exact ⟨hrows.1, fun x hx => live_writeBack live_approved (hsound.live x hx)⟩

/-- Of two live rows, one of them pending, the ids differ. -/
theorem ne_of_pending {x : String} (hids : (rows.map RecommendationRow.id).Nodup)
    (hrow : row ∈ rows) (hpending : row.status = pendingApproval)
    (hx : ∃ r ∈ rows, toString r.id = x ∧ r.status.Live) : toString row.id ≠ x := by
  rintro rfl
  obtain ⟨r, hr, hid, hlive⟩ := hx
  obtain rfl := List.inj_on_of_nodup_map hids hr hrow (toString_injective hid)
  rw [hpending] at hlive
  exact absurd hlive (by decide)

/-- No id stands twice among the APPROVED rows. -/
theorem nodup_approvedIds (h : SoundRows rows) : (approvedIds rows).Nodup := by
  have hids : ((approvedRows rows).map RecommendationRow.id).Nodup := by
    have hperm : (approvedRows rows).Perm (rows.filter fun r => r.status = approved) :=
      List.perm_insertionSort _ _
    exact (h.ids.sublist (List.filter_sublist.map _)).perm (hperm.map _).symm
  have htexts := hids.map toString_injective
  rwa [List.map_map] at htexts

/-- **A delivery erases an id.** -/
theorem SoundRows.approvedIds_deliver (h : SoundRows rows) (row' : RecommendationRow)
    (hrow : row ∈ rows) (hstatus : row.status = approved) (hid : row'.id = row.id)
    (hstatus' : row'.status ≠ approved) :
    approvedIds (writeBack rows row') = (approvedIds rows).erase (toString row.id) := by
  rw [(nodup_approvedIds h).erase_eq_filter]
  unfold approvedIds
  rw [(h.deliver row' hrow hstatus hid hstatus').2, List.filter_map]
  refine congrArg _ (List.filter_congr fun r _ => ?_)
  have hiff : r.id ≠ row.id ↔ toString r.id ≠ toString row.id := toString_injective.ne_iff.symm
  simp only [hiff, Function.comp_apply, bne, BEq.beq, decide_not]

/-- A received id is the text of the number it is read as. -/
theorem SoundSession.toString_eq (h : SoundSession first s) {recommendationId : String} {id : Uuid}
    (hitem : recommendationId ∈ s.received.map RecommendationOut.recommendationId)
    (hid : recommendationId.toNat? = some id) : toString id = recommendationId := by
  obtain ⟨r, -, htext, -⟩ := h.live recommendationId (Or.inr hitem)
  have hread : recommendationId.toNat? = some r.id := by
    rw [← htext]
    exact Nat.toNat?_repr r.id
  rw [Option.some.inj (hid.symm.trans hread), htext]

/-- **A step of the session is one of the pager.** -/
theorem pager_step (hsound : SoundSession first s) (h : PullStep isoformat tenantId limit s a s') :
    OffsetPaging.Step (approvedIds first) limit s.pager (pagerAction tenantId s a) s'.pager := by
  cases h with
  | @get c page hcursor hpage =>
      obtain ⟨hitems, hnext⟩ := of_listApprovedRecommendations hpage
      have hpager : Session.pager ⟨s.rows, page.nextCursor.bind String.toNat?,
          s.received ++ page.items⟩ = ⟨s.pager.items,
            OffsetPaging.nextCursor limit c (OffsetPaging.pageAt limit c s.pager.items),
            s.pager.received ++ OffsetPaging.pageAt limit c s.pager.items⟩ := by
        unfold Session.pager
        dsimp only
        rw [hnext, List.map_append, hitems]
      rw [hpager]
      exact .page hcursor
  | @ack recommendationId body now hitem =>
      unfold pagerAction
      dsimp only
      rcases deliveryAck_cases tenantId s.rows recommendationId body now with
        ⟨-, e, heq⟩ | ⟨-, id, row, hid, hfind, hstatus, heq⟩
      · rw [heq]
        exact .idle
      · rw [heq]
        obtain ⟨hrow, rfl⟩ := mem_of_find? hfind
        have htext := hsound.toString_eq hitem hid
        have hdelivered := hsound.rows.approvedIds_deliver (deliveredRow row body.deliveryRef now)
          hrow hstatus rfl (by unfold deliveredRow; simp)
        rw [htext] at hdelivered
        have hstep : OffsetPaging.Step (approvedIds first) limit s.pager (.remove recommendationId)
            { s.pager with items := (approvedIds s.rows).erase recommendationId } := .remove hitem
        rw [← hdelivered] at hstep
        exact hstep
  | @approve id reviewerId note now hlater =>
      unfold pagerAction
      dsimp only
      cases happrove : Store.approve tenantId s.rows id reviewerId note now with
      | error e => exact .idle
      | ok rows' =>
          obtain ⟨row, hfind, hpending, -, -, rfl⟩ := of_approve happrove
          obtain ⟨hrow, rfl⟩ := mem_of_find? hfind
          have happroved := hsound.rows.approve (approvedRow row reviewerId note now) hrow
            (by rw [hpending]; simp) rfl rfl rfl hlater
          have hids : approvedIds (writeBack s.rows (approvedRow row reviewerId note now)) =
              approvedIds s.rows ++ [toString row.id] := by
            unfold approvedIds
            rw [happroved.2, List.map_append]
            rfl
          have hne : ∀ x, x ∈ approvedIds first ∨
              x ∈ s.received.map RecommendationOut.recommendationId → x ≠ toString row.id :=
            fun x hx => (ne_of_pending hsound.rows.ids hrow hpending (hsound.live x hx)).symm
          have hpending' : toString row.id ∉ approvedIds s.rows := by
            intro hmem
            obtain ⟨r, hr, hid⟩ := List.mem_map.mp hmem
            obtain ⟨hr, hstatus⟩ := mem_approvedRows.mp hr
            exact ne_of_pending hsound.rows.ids hrow hpending ⟨r, hr, hid, Or.inl hstatus⟩ rfl
          have hstep : OffsetPaging.Step (approvedIds first) limit s.pager
              (.append (toString row.id))
              { s.pager with items := approvedIds s.rows ++ [toString row.id] } :=
            .append (fun h => hne _ (Or.inl h) rfl) hpending' (fun h => hne _ (Or.inr h) rfl)
          rw [← hids] at hstep
          exact hstep

/-- **When an ack is late** for the session, it is for the pager. -/
theorem late_iff (hsound : SoundSession first s) (h : PullStep isoformat tenantId limit s a s') :
    OffsetPaging.Late (approvedIds first) s.pager (pagerAction tenantId s a) ↔
      AckedLate first s a := by
  have hdrop : ∀ c, (∀ y ∈ (approvedIds s.rows).drop c, y ∉ approvedIds first) ↔
      ∀ r ∈ (approvedRows s.rows).drop c, r.id ∉ (approvedRows first).map RecommendationRow.id := by
    intro c
    unfold approvedIds
    rw [← List.map_drop, List.forall_mem_map]
    refine forall₂_congr fun r _ => not_congr ?_
    rw [← List.mem_map_of_injective toString_injective, List.map_map]
    rfl
  cases h with
  | get _ _ => exact Iff.rfl
  | @ack recommendationId body now hitem =>
      unfold pagerAction AckedLate
      dsimp only
      rcases deliveryAck_cases tenantId s.rows recommendationId body now with
        ⟨hnot, e, heq⟩ | ⟨hdeliverable, id, row, hid, hfind, hstatus, heq⟩
      · rw [heq]
        exact iff_of_true trivial fun h => absurd h hnot
      · rw [heq]
        have hmem : recommendationId ∈ approvedIds s.rows := by
          obtain ⟨hrow, rfl⟩ := mem_of_find? hfind
          rw [← hsound.toString_eq hitem hid]
          exact List.mem_map_of_mem (mem_approvedRows.mpr ⟨hrow, hstatus⟩)
        show (recommendationId ∈ approvedIds s.rows → ∀ c ∈ s.cursor,
          ∀ y ∈ (approvedIds s.rows).drop c, y ∉ approvedIds first) ↔ _
        simp only [hmem, hdeliverable, forall_const, hdrop]
  | @approve id reviewerId note now hlater =>
      unfold pagerAction
      dsimp only
      cases Store.approve tenantId s.rows id reviewerId note now with
      | error e => exact Iff.rfl
      | ok rows' => exact Iff.rfl

/-- **A client that pages gets every recommendation exactly when it acks
late.** For every sound table, every limit and every course of a session, up
to its last page: every row that was APPROVED when the first page was
requested is on some page if and only if, whenever a row is delivered, no
such row stands at the cursor or after it. -/
theorem allReturned_iff {tr : List (Transition Session PullAction)} (hsound : SoundRows first)
    (hrun : Run (PullStep isoformat tenantId limit) ⟨first, some 0, []⟩ tr s)
    (hdone : s.cursor = none) :
    (∀ r ∈ first, r.status = approved →
      ∃ item ∈ s.received, item.recommendationId = toString r.id) ↔
        ∀ t ∈ tr, AckedLate first t.pre t.act := by
  have hinit : SoundSession first ⟨first, some 0, []⟩ := by
    refine ⟨hsound, ?_⟩
    rintro x (hx | hx)
    · obtain ⟨r, hr, rfl⟩ := List.mem_map.mp hx
      obtain ⟨hr, hstatus⟩ := mem_approvedRows.mp hr
      exact ⟨r, hr, rfl, Or.inl hstatus⟩
    · exact absurd hx List.not_mem_nil
  have hpager := hrun.map hinit (fun _ _ _ => soundSession_step) fun _ _ _ => pager_step
  have hall := OffsetPaging.allReceived_iff (nodup_approvedIds hsound) hpager hdone
  have hreceived : (∀ x ∈ approvedIds first, x ∈ s.pager.received) ↔
      ∀ r ∈ first, r.status = approved →
        ∃ item ∈ s.received, item.recommendationId = toString r.id := by
    unfold approvedIds
    rw [List.forall_mem_map]
    constructor
    · intro h r hr hstatus
      exact List.mem_map.mp (h r (mem_approvedRows.mpr ⟨hr, hstatus⟩))
    · intro h r hr
      obtain ⟨hr, hstatus⟩ := mem_approvedRows.mp hr
      exact List.mem_map.mpr (h r hr hstatus)
  rw [← hreceived, hall, List.forall_mem_map]
  refine forall₂_congr fun t ht => ?_
  obtain ⟨tr₀, -, hrun₀, hstep⟩ := hrun.exists_prefix ht
  exact late_iff (hrun₀.invariant' hinit fun _ _ _ => soundSession_step) hstep

/-- A row reviewed at `reviewedAt`. -/
def reviewedRow (id : Uuid) (reviewedAt : Timestamp) : RecommendationRow :=
  approvedRow (createPending id 1 0 ⟨1, none, .user, some (toString id), none, "X", 10000, 5000, 1,
    false, none, "{}", none, none⟩) "reviewer" none reviewedAt

theorem soundRows_reviewedRow : SoundRows [reviewedRow 1 10, reviewedRow 2 20] where
  ids := by decide
  reviewed := by decide
  distinct := by decide

/-- What the client acks with. -/
def sampleAck : DeliveryAckIn := ⟨"2026-09-17T00:00:00+07:00", none, none⟩

/-- The two rows, and the rows when the first is delivered. -/
def sampleRows : List RecommendationRow := [reviewedRow 1 10, reviewedRow 2 20]

def deliveredRows : List RecommendationRow :=
  [deliveredRow (reviewedRow 1 10) none 30, reviewedRow 2 20]

/-- A page, its cursor read back. -/
theorem pullStep_get {c : ℕ} {page : List RecommendationRow} {cursor : Option ℕ}
    {received : List RecommendationOut} (hpage : listApproved rows limit c = page)
    (hcursor : OffsetPaging.nextCursor limit c page = cursor) :
    PullStep isoformat tenantId limit ⟨rows, some c, received⟩ .get
      ⟨rows, cursor, received ++ page.map (recommendationOut isoformat)⟩ := by
  subst hpage
  have hok : listApprovedRecommendations isoformat rows "APPROVED" limit c = .ok
      ⟨(listApproved rows limit c).map (recommendationOut isoformat),
        if (listApproved rows limit c).length = limit then some (toString (c + limit))
        else none⟩ := rfl
  have hnext : (if (listApproved rows limit c).length = limit then some (toString (c + limit))
      else none).bind String.toNat? = cursor := by
    rw [← hcursor]
    unfold OffsetPaging.nextCursor
    split
    · exact Nat.toNat?_repr (c + limit)
    · rfl
  rw [← hnext]
  exact PullStep.get (s := ⟨rows, some c, received⟩) rfl hok

/-- The ack of the first row. -/
theorem pullStep_ack {cursor : Option ℕ} {received : List RecommendationOut}
    (hitem : toString 1 ∈ received.map RecommendationOut.recommendationId) :
    PullStep isoformat 1 limit ⟨sampleRows, cursor, received⟩ (.ack (toString 1) sampleAck 30)
      ⟨deliveredRows, cursor, received⟩ := by
  have hrows : (deliveryAck 1 sampleRows (toString 1) sampleAck 30).2 = deliveredRows := by
    unfold deliveryAck
    rw [show (toString 1).toNat? = some 1 from Nat.toNat?_repr 1]
    rfl
  rw [← hrows]
  exact .ack hitem

/-- **The client acks an item before it asks for the next page**: the second
row moves to the place the next page starts after, and is on no page. -/
theorem not_allReturned : ∃ tr s,
    Run (PullStep toString 1 1) ⟨sampleRows, some 0, []⟩ tr s ∧ s.cursor = none ∧
      ¬ ∀ r ∈ sampleRows, r.status = approved →
        ∃ item ∈ s.received, item.recommendationId = toString r.id := by
  have hpage : listApproved sampleRows 1 0 = [reviewedRow 1 10] := by decide
  have hempty : listApproved deliveredRows 1 1 = [] := by decide
  have hfirst : PullStep toString 1 1 ⟨sampleRows, some 0, []⟩ .get ⟨sampleRows, some 1, _⟩ :=
    pullStep_get hpage rfl
  have hack : PullStep toString 1 1
      ⟨sampleRows, some 1, [] ++ [reviewedRow 1 10].map (recommendationOut toString)⟩ _
      ⟨deliveredRows, some 1, _⟩ := pullStep_ack (by decide)
  refine ⟨_, _, ((Run.nil.snoc hfirst).snoc hack).snoc (pullStep_get hempty rfl), rfl, ?_⟩
  decide

/-- Pages of two: the ack comes when both rows are received. -/
theorem allReturned_iff_two : ∃ tr s,
    Run (PullStep toString 1 2) ⟨sampleRows, some 0, []⟩ tr s ∧ s.cursor = none ∧
      ∀ r ∈ sampleRows, r.status = approved →
        ∃ item ∈ s.received, item.recommendationId = toString r.id := by
  have hpage : listApproved sampleRows 2 0 = sampleRows := by decide
  have hempty : listApproved deliveredRows 2 2 = [] := by decide
  have hfirst : PullStep toString 1 2 ⟨sampleRows, some 0, []⟩ .get ⟨sampleRows, some 2, _⟩ :=
    pullStep_get hpage rfl
  have hack : PullStep toString 1 2
      ⟨sampleRows, some 2, [] ++ sampleRows.map (recommendationOut toString)⟩ _
      ⟨deliveredRows, some 2, _⟩ := pullStep_ack (by decide)
  have hrun := ((Run.nil.snoc hfirst).snoc hack).snoc (pullStep_get hempty rfl)
  refine ⟨_, _, hrun, rfl, (allReturned_iff soundRows_reviewedRow hrun rfl).mpr ?_⟩
  -- no row stands at the cursor when the ack comes
  have hlate : (approvedRows sampleRows).drop 2 = [] := by decide
  intro t ht
  simp only [List.nil_append, List.cons_append, List.mem_cons, List.not_mem_nil, or_false] at ht
  rcases ht with rfl | rfl | rfl
  · exact trivial
  · intro _ c hc r hr
    obtain rfl := Option.some.inj hc
    dsimp only at hr
    rw [hlate] at hr
    cases hr
  · exact trivial

end Api

end RetentionEngine
