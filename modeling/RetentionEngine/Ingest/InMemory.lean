import RetentionEngine.IngestMapping.Settles

/-!
# INGEST over the in-memory store

One tenant's buckets of `worker.memory_store`, as far as INGEST uses them,
and the loop of `_ingest` up to the events of the window. What `normalize`
makes of a body is a parameter; `ingests_iff` says that the loop returns,
with every new event marked by how its body was normalized, if and only if
every new body settles.
-/

namespace RetentionEngine

namespace InMemory

open Python IngestMapping

variable {β : Type}

/-- `RawEventRecord.status`. -/
inductive RawStatus
  | new
  | processed
  | unmapped
  deriving DecidableEq, Repr

/-- `RawEventRecord`, its tenant apart. -/
structure RawEventRecord (β : Type) where
  rawEventId : String
  body : β
  status : RawStatus
  error : Option Text

/-- **The buckets of a tenant**: the raw events, which `add_raw_events`
numbers, the canonical events by client event id, and the attributes by
user. -/
structure Buckets (β : Type) where
  rawEvents : List (RawEventRecord β)
  canonicalEvents : Dict Text IngestMapping.CanonicalEvent
  userAttributes : Dict String (Dict Text Json)
  nodup : (rawEvents.map RawEventRecord.rawEventId).Nodup

namespace Buckets

variable (s : Buckets β)

/-- `claim_raw_events`. -/
def claimRawEvents (limit : ℕ) : List (RawEventRecord β) :=
  (s.rawEvents.filter fun r => r.status = .new).take limit

/-- `mark_raw_event`. -/
def markRawEvent (rawEventId : String) (status : RawStatus) (error : Option Text) : Buckets β :=
  { s with
    rawEvents := s.rawEvents.map fun r =>
      if r.rawEventId = rawEventId then { r with status := status, error := error } else r
    nodup := by
      have hids : (s.rawEvents.map fun r => if r.rawEventId = rawEventId then
          { r with status := status, error := error } else r).map RawEventRecord.rawEventId =
            s.rawEvents.map RawEventRecord.rawEventId := by
        rw [List.map_map]
        refine List.map_congr_left fun r _ => ?_
        dsimp only [Function.comp_apply]
        split <;> rfl
      rw [hids]
      exact s.nodup }

/-- `upsert_user_attributes`. -/
def upsertUserAttributes (userPseudonym : String) (attributes : Dict Text Json) : Buckets β :=
  { s with
    userAttributes := s.userAttributes.alter userPseudonym fun stored =>
      attributes.entries.foldl (fun d p => d.set p.1 p.2) (stored.getD .empty) }

/-- One event of `save_canonical_events`: the first one of a client event id
stays. -/
def saveCanonicalEvent (tenantId : String) (s : Buckets β) (e : IngestMapping.CanonicalEvent) :
    Except (Raised × Buckets β) (Buckets β) :=
  if e.tenantId ≠ tenantId then
    .error (.valueError (text "canonical event written to the wrong tenant"), s)
  else .ok { s with canonicalEvents := s.canonicalEvents.setDefault e.clientEventId e }

end Buckets

variable (N : β → Except Raised IngestMapping.CanonicalEvent) (tenantId : String) (limit : ℕ)

/-- The `for` of `_ingest`; an exception leaves the buckets as they are
then. -/
def ingestBatch : List (RawEventRecord β) → List IngestMapping.CanonicalEvent → Buckets β →
    Except (Raised × Buckets β) (List IngestMapping.CanonicalEvent × Buckets β)
  | [], canonical, s => .ok (canonical, s)
  | raw :: todo, canonical, s =>
      match N raw.body with
      | .error (.mappingError message) =>
          ingestBatch todo canonical (s.markRawEvent raw.rawEventId .unmapped (some message))
      | .error e => .error (e, s)
      | .ok event =>
          let s := if event.attributes.entries.isEmpty then s
            else s.upsertUserAttributes event.userPseudonym event.attributes
          ingestBatch todo (canonical ++ [event]) (s.markRawEvent raw.rawEventId .processed none)

/-- The `while` of `_ingest`, for at most `fuel` batches. -/
def ingestLoop : ℕ → Buckets β → Option (Except (Raised × Buckets β) (Buckets β))
  | 0, _ => none
  | fuel + 1, s =>
      if (s.claimRawEvents limit).isEmpty then some (.ok s)
      else
        match ingestBatch N (s.claimRawEvents limit) [] s with
        | .error e => some (.error e)
        | .ok (canonical, s) =>
            match canonical.foldlM (Buckets.saveCanonicalEvent tenantId) s with
            | .error e => some (.error e)
            | .ok s => ingestLoop fuel s

/-- **INGEST ends** in `r`. -/
def Ingests (s : Buckets β) (r : Except (Raised × Buckets β) (Buckets β)) : Prop :=
  ∃ fuel, ingestLoop N tenantId limit fuel s = some r

/-! ## Marks -/

/-- A raw event as its normalization leaves it. -/
def settled (r : RawEventRecord β) : RawEventRecord β :=
  match N r.body with
  | .ok _ => { r with status := .processed, error := none }
  | .error (.mappingError message) => { r with status := .unmapped, error := some message }
  | .error _ => r

/-- The raw events when those of the given ids are settled. -/
def settleIds (ids : List String) (rows : List (RawEventRecord β)) : List (RawEventRecord β) :=
  rows.map fun r => if r.rawEventId ∈ ids then settled N r else r

/-- A raw event as a complete INGEST leaves it. -/
def settleNew (r : RawEventRecord β) : RawEventRecord β :=
  if r.status = .new then settled N r else r

variable {N} {tenantId} {limit} {s s' : Buckets β} {r : RawEventRecord β}
  {claimed : List (RawEventRecord β)} {canonical canonical' : List IngestMapping.CanonicalEvent}

@[simp] theorem settled_rawEventId : (settled N r).rawEventId = r.rawEventId := by
  unfold settled
  split <;> rfl

@[simp] theorem settled_body : (settled N r).body = r.body := by
  unfold settled
  split <;> rfl

@[simp] theorem settled_settled : settled N (settled N r) = settled N r := by
  rcases hN : N r.body with e | e
  · cases e <;> simp [settled, hN]
  · simp [settled, hN]

theorem settled_status (h : Settles (N r.body)) :
    (settled N r).status = .processed ∨ (settled N r).status = .unmapped := by
  unfold settled
  rcases h with ⟨e, he⟩ | ⟨message, he⟩
  · rw [he]
    exact Or.inl rfl
  · rw [he]
    exact Or.inr rfl

theorem settleIds_cons (id : String) (ids : List String) (rows : List (RawEventRecord β)) :
    settleIds N ids (settleIds N [id] rows) = settleIds N (id :: ids) rows := by
  unfold settleIds
  rw [List.map_map]
  refine List.map_congr_left fun r _ => ?_
  dsimp only [Function.comp_apply]
  by_cases hid : r.rawEventId = id
  · simp [hid]
  · simp [hid]

/-- The rows of claimed events hold what was claimed. -/
def Holds (s : Buckets β) (claimed : List (RawEventRecord β)) : Prop :=
  ∀ raw ∈ claimed, ∀ r ∈ s.rawEvents, r.rawEventId = raw.rawEventId → r.body = raw.body

theorem holds_claim : Holds s (s.claimRawEvents limit) := by
  intro raw hraw r hr hid
  have hmem : raw ∈ s.rawEvents := List.mem_of_mem_filter (List.mem_of_mem_take hraw)
  rw [List.inj_on_of_nodup_map s.nodup hr hmem hid]

theorem holds_settleIds {ids : List String} (h : Holds s claimed)
    (hrows : s'.rawEvents = settleIds N ids s.rawEvents) : Holds s' claimed := by
  intro raw hraw r hr hid
  rw [hrows] at hr
  obtain ⟨r₀, hr₀, rfl⟩ := List.mem_map.mp hr
  by_cases hmem : r₀.rawEventId ∈ ids
  · rw [if_pos hmem] at hid ⊢
    rw [settled_body]
    exact h raw hraw r₀ hr₀ (settled_rawEventId.symm.trans hid)
  · rw [if_neg hmem] at hid ⊢
    exact h raw hraw r₀ hr₀ hid

/-- **A mark settles the rows of its event.** -/
theorem rawEvents_mark {raw : RawEventRecord β} {status : RawStatus} {error : Option Text}
    (hbody : ∀ r ∈ s.rawEvents, r.rawEventId = raw.rawEventId → r.body = raw.body)
    (hmark : ∀ r : RawEventRecord β, r.body = raw.body →
      settled N r = { r with status := status, error := error }) :
    (s.markRawEvent raw.rawEventId status error).rawEvents =
      settleIds N [raw.rawEventId] s.rawEvents := by
  unfold Buckets.markRawEvent settleIds
  refine List.map_congr_left fun r hr => ?_
  by_cases hid : r.rawEventId = raw.rawEventId
  · rw [if_pos hid, if_pos (List.mem_singleton.mpr hid), hmark r (hbody r hr hid)]
  · rw [if_neg hid, if_neg (fun h => hid (List.mem_singleton.mp h))]

/-! ## One batch -/

variable (canonical) in
/-- **A batch of events that settle** is marked, each by how it was
normalized. -/
theorem ingestBatch_ok (hsettles : ∀ raw ∈ claimed, Settles (N raw.body))
    (hholds : Holds s claimed) : ∃ canonical' s', ingestBatch N claimed canonical s =
      .ok (canonical', s') ∧
        s'.rawEvents = settleIds N (claimed.map RawEventRecord.rawEventId) s.rawEvents ∧
          ∀ e ∈ canonical', e ∈ canonical ∨ ∃ b, N b = .ok e := by
  induction claimed generalizing canonical s with
  | nil =>
      refine ⟨canonical, s, rfl, ?_, fun e he => Or.inl he⟩
      unfold settleIds
      simp
  | cons raw todo ih =>
      have hbody := hholds raw List.mem_cons_self
      have hholds' : Holds s todo := fun r hr => hholds r (List.mem_cons_of_mem _ hr)
      -- the rest of the batch, once the event is marked
      have hrest : ∀ (cs : List IngestMapping.CanonicalEvent) (t : Buckets β),
          t.rawEvents = settleIds N [raw.rawEventId] s.rawEvents →
          ∃ canonical' s', ingestBatch N todo cs t = .ok (canonical', s') ∧
            s'.rawEvents = settleIds N ((raw :: todo).map RawEventRecord.rawEventId) s.rawEvents ∧
              ∀ e ∈ canonical', e ∈ cs ∨ ∃ b, N b = .ok e := by
        intro cs t ht
        obtain ⟨canonical', s', hbatch, hrows, hevents⟩ := ih cs
          (fun r hr => hsettles r (List.mem_cons_of_mem _ hr)) (holds_settleIds hholds' ht)
        refine ⟨canonical', s', hbatch, ?_, hevents⟩
        rw [hrows, ht, settleIds_cons]
        rfl
      unfold ingestBatch
      rcases hsettles raw List.mem_cons_self with ⟨event, hN⟩ | ⟨message, hN⟩
      · rw [hN]
        dsimp only
        obtain ⟨canonical', s', hbatch, hrows, hevents⟩ := hrest (canonical ++ [event])
          ((if event.attributes.entries.isEmpty then s
            else s.upsertUserAttributes event.userPseudonym event.attributes).markRawEvent
              raw.rawEventId .processed none) (by
            have hmark : ∀ r : RawEventRecord β, r.body = raw.body →
                settled N r = { r with status := .processed, error := none } := by
              intro r hr
              unfold settled
              rw [hr, hN]
            split
            · exact rawEvents_mark hbody hmark
            · exact rawEvents_mark (s := s.upsertUserAttributes _ _) hbody hmark)
        refine ⟨canonical', s', hbatch, hrows, fun e he => ?_⟩
        rcases hevents e he with hmem | hb
        · rcases List.mem_append.mp hmem with hmem | hmem
          · exact Or.inl hmem
          · exact Or.inr ⟨raw.body, List.mem_singleton.mp hmem ▸ hN⟩
        · exact Or.inr hb
      · rw [hN]
        refine hrest canonical _ (rawEvents_mark hbody fun r hr => ?_)
        unfold settled
        rw [hr, hN]

/-- **A batch that is not cut short** holds events that settle only. -/
theorem settles_of_ingestBatch (h : ingestBatch N claimed canonical s = .ok (canonical', s')) :
    ∀ raw ∈ claimed, Settles (N raw.body) := by
  induction claimed generalizing canonical s with
  | nil => exact fun raw hraw => absurd hraw List.not_mem_nil
  | cons raw todo ih =>
      intro r hr
      unfold ingestBatch at h
      split at h
      · rename_i message hN
        rcases List.mem_cons.mp hr with rfl | hr
        · exact Or.inr ⟨message, hN⟩
        · exact ih h r hr
      · cases h
      · rename_i event hN
        rcases List.mem_cons.mp hr with rfl | hr
        · exact Or.inl ⟨event, hN⟩
        · exact ih h r hr

/-- A save leaves the raw events alone. -/
theorem rawEvents_save (h : canonical.foldlM (Buckets.saveCanonicalEvent tenantId) s = .ok s') :
    s'.rawEvents = s.rawEvents := by
  induction canonical generalizing s with
  | nil =>
      obtain rfl := Except.ok.inj h
      rfl
  | cons e canonical ih =>
      rw [List.foldlM_cons] at h
      obtain ⟨s₁, hone, hrest⟩ := exists_of_bind_eq_ok h
      unfold Buckets.saveCanonicalEvent at hone
      split at hone
      · cases hone
      · obtain rfl := Except.ok.inj hone
        have hrows := ih hrest
        exact hrows

/-- Events of the tenant are saved. -/
theorem exists_save (htenant : ∀ e ∈ canonical, e.tenantId = tenantId) :
    ∃ s', canonical.foldlM (Buckets.saveCanonicalEvent tenantId) s = .ok s' := by
  induction canonical generalizing s with
  | nil => exact ⟨s, rfl⟩
  | cons e canonical ih =>
      have hone : Buckets.saveCanonicalEvent tenantId s e =
          .ok { s with canonicalEvents := s.canonicalEvents.setDefault e.clientEventId e } := by
        unfold Buckets.saveCanonicalEvent
        rw [if_neg (not_not.mpr (htenant e List.mem_cons_self))]
      obtain ⟨s', hsave⟩ := ih
        (s := { s with canonicalEvents := s.canonicalEvents.setDefault e.clientEventId e })
        fun e' he' => htenant e' (List.mem_cons_of_mem _ he')
      refine ⟨s', ?_⟩
      rw [List.foldlM_cons, hone]
      exact hsave

/-! ## The loop -/

/-- The raw events that are still new. -/
def newEvents (s : Buckets β) : List (RawEventRecord β) :=
  s.rawEvents.filter fun r => r.status = .new

/-- A row with a claimed id was claimed. -/
theorem mem_claim_of_id (hr : r ∈ s.rawEvents)
    (hid : r.rawEventId ∈ (s.claimRawEvents limit).map RawEventRecord.rawEventId) :
    r ∈ s.claimRawEvents limit := by
  obtain ⟨raw, hraw, heq⟩ := List.mem_map.mp hid
  have hmem := List.mem_of_mem_filter (List.mem_of_mem_take hraw)
  rwa [List.inj_on_of_nodup_map s.nodup hr hmem heq.symm]

theorem status_of_mem_claim (hr : r ∈ s.claimRawEvents limit) : r.status = .new :=
  of_decide_eq_true (List.mem_filter.mp (List.mem_of_mem_take hr)).2

theorem settled_ne_new (h : Settles (N r.body)) : (settled N r).status ≠ .new := by
  rcases settled_status h with hstatus | hstatus <;> rw [hstatus] <;> decide

section Batch

variable (hsettles : ∀ raw ∈ s.claimRawEvents limit, Settles (N raw.body))
include hsettles

/-- Settling what was claimed and then what is new settles what was new. -/
theorem map_settleNew_settleIds :
    (settleIds N ((s.claimRawEvents limit).map RawEventRecord.rawEventId) s.rawEvents).map
      (settleNew N) = s.rawEvents.map (settleNew N) := by
  unfold settleIds
  rw [List.map_map]
  refine List.map_congr_left fun r hr => ?_
  dsimp only [Function.comp_apply]
  split
  · rename_i hid
    have hclaim := mem_claim_of_id hr hid
    unfold settleNew
    rw [if_neg (settled_ne_new (hsettles r hclaim)), if_pos (status_of_mem_claim hclaim)]
  · rfl

/-- **What is new after a batch** is what was new and not claimed. -/
theorem newEvents_settleIds (hrows : s'.rawEvents =
    settleIds N ((s.claimRawEvents limit).map RawEventRecord.rawEventId) s.rawEvents) :
    newEvents s' = (newEvents s).filter fun r =>
      r.rawEventId ∉ (s.claimRawEvents limit).map RawEventRecord.rawEventId := by
  unfold newEvents
  rw [hrows, List.filter_filter]
  unfold settleIds
  rw [List.filter_map]
  have hkept : s.rawEvents.filter ((fun r : RawEventRecord β => decide (r.status = .new)) ∘ fun r =>
      if r.rawEventId ∈ (s.claimRawEvents limit).map RawEventRecord.rawEventId then settled N r
      else r) = s.rawEvents.filter fun r =>
        decide (r.rawEventId ∉ (s.claimRawEvents limit).map RawEventRecord.rawEventId) &&
          decide (r.status = .new) := by
    refine List.filter_congr fun r hr => ?_
    dsimp only [Function.comp_apply]
    split
    · rename_i hid
      have hdone := settled_ne_new (hsettles r (mem_claim_of_id hr hid))
      simp [hid, hdone]
    · rename_i hid
      simp [hid]
  have hid : ∀ r ∈ s.rawEvents.filter (fun r =>
      decide (r.rawEventId ∉ (s.claimRawEvents limit).map RawEventRecord.rawEventId) &&
        decide (r.status = .new)),
      (if r.rawEventId ∈ (s.claimRawEvents limit).map RawEventRecord.rawEventId then settled N r
        else r) = r := by
    intro r hr
    have hnot := (Bool.and_eq_true_iff.mp (List.mem_filter.mp hr).2).1
    rw [if_neg (of_decide_eq_true hnot)]
  rw [hkept, List.map_congr_left hid, List.map_id']

end Batch

variable (hlimit : 0 < limit)
include hlimit

/-- Nothing is claimed when nothing is new. -/
theorem newEvents_eq_nil (h : (s.claimRawEvents limit).isEmpty) : newEvents s = [] := by
  rw [List.isEmpty_iff] at h
  rcases List.take_eq_nil_iff.mp h with hzero | hnil
  · omega
  · exact hnil

omit hlimit in
/-- A batch leaves less to do. -/
theorem length_newEvents_lt (hsettles : ∀ raw ∈ s.claimRawEvents limit, Settles (N raw.body))
    (hclaim : ¬ (s.claimRawEvents limit).isEmpty) (hrows : s'.rawEvents =
      settleIds N ((s.claimRawEvents limit).map RawEventRecord.rawEventId) s.rawEvents) :
    (newEvents s').length < (newEvents s).length := by
  rw [newEvents_settleIds hsettles hrows, List.length_filter_lt_length_iff_exists]
  cases hcase : s.claimRawEvents limit with
  | nil =>
      rw [hcase] at hclaim
      exact absurd rfl hclaim
  | cons raw rest =>
      have hraw : raw ∈ s.claimRawEvents limit := by
        rw [hcase]
        exact List.mem_cons_self
      exact ⟨raw, List.mem_of_mem_take hraw, by simp⟩

/-- **INGEST completes** when every new event settles: each is marked by how
it was normalized. -/
theorem exists_ingests (htenant : ∀ b e, N b = .ok e → e.tenantId = tenantId)
    (hsettles : ∀ r ∈ newEvents s, Settles (N r.body)) :
    ∃ s', Ingests N tenantId limit s (.ok s') ∧ s'.rawEvents = s.rawEvents.map (settleNew N) := by
  induction hn : (newEvents s).length using Nat.strong_induction_on generalizing s with
  | _ n ih =>
      by_cases hclaim : (s.claimRawEvents limit).isEmpty
      · refine ⟨s, ⟨1, ?_⟩, ?_⟩
        · unfold ingestLoop
          rw [if_pos hclaim]
        · have hnil := newEvents_eq_nil hlimit hclaim
          refine ((List.map_congr_left fun r hr => ?_).trans (List.map_id' _)).symm
          unfold settleNew
          rw [if_neg fun hnew => ?_]
          have hmem : r ∈ newEvents s := List.mem_filter.mpr ⟨hr, decide_eq_true hnew⟩
          rw [hnil] at hmem
          cases hmem
      · have hclaimed : ∀ raw ∈ s.claimRawEvents limit, Settles (N raw.body) := fun raw hraw =>
          hsettles raw (List.mem_of_mem_take hraw)
        obtain ⟨canonical, s₁, hbatch, hrows, hevents⟩ :=
          ingestBatch_ok [] hclaimed holds_claim
        obtain ⟨s₂, hsave⟩ := exists_save (s := s₁) fun e he => by
          rcases hevents e he with hmem | ⟨b, hb⟩
          · cases hmem
          · exact htenant b e hb
        have hsaved := (rawEvents_save hsave).trans hrows
        have hless := length_newEvents_lt hclaimed hclaim hsaved
        obtain ⟨s', ⟨fuel, hloop⟩, hfinal⟩ := ih _ (hn ▸ hless) (s := s₂) (fun r hr => by
          rw [newEvents_settleIds hclaimed hsaved] at hr
          exact hsettles r (List.mem_of_mem_filter hr)) rfl
        refine ⟨s', ⟨fuel + 1, ?_⟩, ?_⟩
        · unfold ingestLoop
          rw [if_neg hclaim, hbatch]
          dsimp only
          rw [hsave]
          exact hloop
        · rw [hfinal, hsaved, map_settleNew_settleIds hclaimed]

/-- **An INGEST that returns** has found new events that settle only. -/
theorem settles_of_ingests (hingests : Ingests N tenantId limit s (.ok s')) :
    ∀ r ∈ newEvents s, Settles (N r.body) := by
  obtain ⟨fuel, hloop⟩ := hingests
  induction fuel generalizing s with
  | zero => cases hloop
  | succ fuel ih =>
      unfold ingestLoop at hloop
      split at hloop
      · rename_i hclaim
        rw [newEvents_eq_nil hlimit hclaim]
        exact fun r hr => absurd hr List.not_mem_nil
      · split at hloop
        · cases hloop
        · rename_i canonical s₁ hbatch
          split at hloop
          · cases hloop
          · rename_i s₂ hsave
            have hclaimed := settles_of_ingestBatch hbatch
            obtain ⟨canonical', s₁', hbatch', hrows, -⟩ :=
              ingestBatch_ok [] hclaimed holds_claim
            obtain ⟨rfl, rfl⟩ := Prod.mk.inj (Except.ok.inj (hbatch.symm.trans hbatch'))
            have hrest := ih hloop
            rw [newEvents_settleIds hclaimed ((rawEvents_save hsave).trans hrows)] at hrest
            intro r hr
            by_cases hid : r.rawEventId ∈ (s.claimRawEvents limit).map RawEventRecord.rawEventId
            · exact hclaimed r (mem_claim_of_id (List.mem_of_mem_filter hr) hid)
            · exact hrest r (List.mem_filter.mpr ⟨hr, decide_eq_true hid⟩)

omit hlimit in
theorem mem_newEvents : r ∈ newEvents s ↔ r ∈ s.rawEvents ∧ r.status = .new := by
  unfold newEvents
  rw [List.mem_filter, decide_eq_true_iff]

/-- **INGEST completes**: it returns, and every event that was new is marked
PROCESSED or UNMAPPED. -/
def Completes (N : β → Except Raised IngestMapping.CanonicalEvent) (tenantId : String) (limit : ℕ)
    (s : Buckets β) : Prop :=
  ∃ s', Ingests N tenantId limit s (.ok s') ∧ ∀ r ∈ s.rawEvents, r.status = .new →
    ∃ r' ∈ s'.rawEvents, r'.rawEventId = r.rawEventId ∧
      (r'.status = .processed ∨ r'.status = .unmapped)

/-- **INGEST completes exactly when every new event settles.** -/
theorem completes_iff (htenant : ∀ b e, N b = .ok e → e.tenantId = tenantId) :
    Completes N tenantId limit s ↔ ∀ r ∈ newEvents s, Settles (N r.body) := by
  constructor
  · rintro ⟨s', hingests, -⟩
    exact settles_of_ingests hlimit hingests
  · intro hsettles
    obtain ⟨s', hingests, hrows⟩ := exists_ingests hlimit htenant hsettles
    refine ⟨s', hingests, fun r hr hnew => ⟨settleNew N r, ?_, ?_⟩⟩
    · rw [hrows]
      exact List.mem_map_of_mem hr
    · unfold settleNew
      rw [if_pos hnew]
      exact ⟨settled_rawEventId, settled_status (hsettles r (mem_newEvents.mpr ⟨hr, hnew⟩))⟩

end InMemory

namespace IngestMapping

open Python

/-- The library on what the samples need of it: ASCII, one date and the
digests of two references. -/
def sampleLibrary : Library where
  unicode :=
    { isPrintable := fun _ => false
      decimalDigit := fun _ => none
      not_isPrintable := fun _ _ => rfl }
  maxDigits := 1000000
  fromisoformat s :=
    if s = text "2026-09-17T10:00:00+07:00" then some ⟨1789639200000000, some 25200000000⟩ else none
  hmacSha256 _ message :=
    if message = text "t:user-123" then
      "c9161ea43f02338cda1d56e1fb0443a0833edb0d17fc65b314154e9e9d9e1572"
    else "1c98c566bdb2014b7f8ceb76713053476f16c3a880207310fd0bd107557a4a6d"
  acceptsStr _ := true
  acceptsStr_of_encodable _ _ := rfl

/-- One row of the wallet's config. -/
def sampleConfig : TenantMappingConfig where
  mappings := [⟨text "wallet.transfer.sent", .p2pTransfer, some (text "payload.amount"),
    some (text "payload.recipient_ref"), text "occurred_at", true⟩]
  attributeWhitelist := [text "region_code", text "cohort_key"]
  nodup := by simp

/-- "test-secret". -/
def sampleSecret : List UInt8 := [116, 101, 115, 116, 45, 115, 101, 99, 114, 101, 116]

/-- A transfer of `amount`. -/
def sampleBody (userRef amount userAttributes : Json) : Body :=
  [(text "client_event_id", .str (text "evt-1")),
    (text "event_type", .str (text "wallet.transfer.sent")),
    (text "occurred_at", .str (text "2026-09-17T10:00:00+07:00")), (text "user_ref", userRef),
    (text "payload", .dict [(text "amount", amount),
      (text "recipient_ref", .str (text "friend-9"))]),
    (text "user_attributes", userAttributes)]

/-- What a call on the sample config raises. -/
def sampleRaised (body : Body) : Option Raised :=
  match normalize sampleLibrary "t" body sampleConfig sampleSecret with
  | .ok _ => none
  | .error e => some e

end IngestMapping

namespace InMemory

open Python IngestMapping

example : sampleRaised (sampleBody (.str (text "user-123")) (.float "150000.4")
    (.dict [(text "region_code", .str (text "ID-JK"))])) = none := by decide +kernel

example : sampleRaised (sampleBody (.str [0xD800]) (.int 5) .null) = some .unicodeEncodeError := by
  decide +kernel

example : sampleRaised (sampleBody (.int 7) (.str (text "nan")) .null) =
    some (.mappingError (text "amount is not numeric")) := by decide +kernel

example : sampleRaised (sampleBody (.int 7) (.int 5) (.list [.str (text "cohort_key")])) =
    some .typeError := by decide +kernel

end InMemory

end RetentionEngine
