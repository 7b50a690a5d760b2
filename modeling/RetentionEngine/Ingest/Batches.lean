import RetentionEngine.Ingest.InMemory

/-!
# The batch size does not matter

What `_ingest` leaves in the in-memory store is what normalizing the new
events one by one leaves (`oneByOne`): a batch appends what it normalized
to what is saved and upserts as it goes, the two never read each other,
and the batches in order are the new events in order.
-/

namespace RetentionEngine

namespace InMemory

open Python IngestMapping

variable {β : Type}

/-! ## One by one -/

/-- The first event of a client event id stays. -/
def insertEvent (d : Dict Text IngestMapping.CanonicalEvent) (e : IngestMapping.CanonicalEvent) :
    Dict Text IngestMapping.CanonicalEvent := d.setDefault e.clientEventId e

/-- The attributes of an event, if it has any, over those of its user. -/
def upsertEvent (d : Dict String (Dict Text Json)) (e : IngestMapping.CanonicalEvent) :
    Dict String (Dict Text Json) :=
  if e.attributes.entries.isEmpty then d
  else d.alter e.userPseudonym fun stored =>
    e.attributes.entries.foldl (fun d p => d.set p.1 p.2) (stored.getD .empty)

/-- What is normalized of raw events. -/
def normalized (N : β → Except Raised IngestMapping.CanonicalEvent)
    (rows : List (RawEventRecord β)) : List IngestMapping.CanonicalEvent :=
  rows.filterMap fun r => (N r.body).toOption

/-- **Every new event normalized in the order of arrival.** -/
def oneByOne (N : β → Except Raised IngestMapping.CanonicalEvent) (s : Buckets β) : Buckets β where
  rawEvents := s.rawEvents.map (settleNew N)
  canonicalEvents := (normalized N (newEvents s)).foldl insertEvent s.canonicalEvents
  userAttributes := (normalized N (newEvents s)).foldl upsertEvent s.userAttributes
  nodup := by
    have hids : (s.rawEvents.map (settleNew N)).map RawEventRecord.rawEventId =
        s.rawEvents.map RawEventRecord.rawEventId := by
      rw [List.map_map]
      refine List.map_congr_left fun r _ => ?_
      dsimp only [Function.comp_apply]
      unfold settleNew
      split
      · exact settled_rawEventId
      · rfl
    rw [hids]
    exact s.nodup

variable {N : β → Except Raised IngestMapping.CanonicalEvent} {tenantId : String} {limit : ℕ}
  {s s' : Buckets β} {claimed : List (RawEventRecord β)}
  {canonical canonical' : List IngestMapping.CanonicalEvent}

/-! ## A batch -/

/-- **What a batch leaves**: its events are normalized in order, its
attributes upserted in order, and no canonical event is touched. -/
theorem of_ingestBatch (h : ingestBatch N claimed canonical s = .ok (canonical', s')) :
    canonical' = canonical ++ normalized N claimed ∧ s'.canonicalEvents = s.canonicalEvents ∧
      s'.userAttributes = (normalized N claimed).foldl upsertEvent s.userAttributes := by
  induction claimed generalizing canonical s with
  | nil =>
      obtain ⟨rfl, rfl⟩ := Prod.mk.inj (Except.ok.inj h)
      exact ⟨(List.append_nil _).symm, rfl, rfl⟩
  | cons raw todo ih =>
      unfold ingestBatch at h
      split at h
      · rename_i message hN
        have hnone : normalized N (raw :: todo) = normalized N todo := by
          unfold normalized
          rw [List.filterMap_cons, hN]
          rfl
        have hrest := ih h
        rw [hnone]
        exact hrest
      · simp at h
      · rename_i event hN
        have hcons : normalized N (raw :: todo) = event :: normalized N todo := by
          unfold normalized
          rw [List.filterMap_cons, hN]
          rfl
        have hupsert : (if event.attributes.entries.isEmpty then s
            else s.upsertUserAttributes event.userPseudonym event.attributes).userAttributes =
              upsertEvent s.userAttributes event := by
          unfold upsertEvent
          split <;> rfl
        have hkept : (if event.attributes.entries.isEmpty then s
            else s.upsertUserAttributes event.userPseudonym event.attributes).canonicalEvents =
              s.canonicalEvents := by
          split <;> rfl
        obtain ⟨hcanonical, hevents, hattributes⟩ := ih h
        refine ⟨?_, hevents.trans hkept, ?_⟩
        · rw [hcanonical, hcons, List.append_assoc]
          rfl
        · rw [hattributes, hcons, List.foldl_cons, ← hupsert]
          rfl

/-- What saving a batch leaves. -/
theorem of_save (h : canonical.foldlM (Buckets.saveCanonicalEvent tenantId) s = .ok s') :
    s'.canonicalEvents = canonical.foldl insertEvent s.canonicalEvents ∧
      s'.userAttributes = s.userAttributes := by
  induction canonical generalizing s with
  | nil =>
      obtain rfl := Except.ok.inj h
      exact ⟨rfl, rfl⟩
  | cons e canonical ih =>
      rw [List.foldlM_cons] at h
      obtain ⟨s₁, hone, hrest⟩ := exists_of_bind_eq_ok h
      unfold Buckets.saveCanonicalEvent at hone
      split at hone
      · simp at hone
      · obtain rfl := Except.ok.inj hone
        have hlast := ih hrest
        exact hlast

/-! ## The loop -/

/-- **A batch is the next of the new events**: what stays new comes after it. -/
theorem newEvents_eq_append (hsettles : ∀ raw ∈ s.claimRawEvents limit, Settles (N raw.body))
    (hrows : s'.rawEvents =
      settleIds N ((s.claimRawEvents limit).map RawEventRecord.rawEventId) s.rawEvents) :
    newEvents s = s.claimRawEvents limit ++ newEvents s' := by
  have hids : ((newEvents s).map RawEventRecord.rawEventId).Nodup :=
    (List.filter_sublist.map _).nodup s.nodup
  have hclaim : s.claimRawEvents limit = (newEvents s).take limit := rfl
  rw [newEvents_settleIds hsettles hrows, hclaim, filter_key_notMem_take hids,
    List.take_append_drop]

theorem normalized_append (rows rows' : List (RawEventRecord β)) :
    normalized N (rows ++ rows') = normalized N rows ++ normalized N rows' :=
  List.filterMap_append

/-- **What a run leaves** is what normalizing one by one leaves. -/
theorem of_ingests (hlimit : 0 < limit) (h : Ingests N tenantId limit s (.ok s')) :
    s'.canonicalEvents = (normalized N (newEvents s)).foldl insertEvent s.canonicalEvents ∧
      s'.userAttributes = (normalized N (newEvents s)).foldl upsertEvent s.userAttributes := by
  obtain ⟨fuel, hloop⟩ := h
  induction fuel generalizing s with
  | zero => simp [ingestLoop] at hloop
  | succ fuel ih =>
      unfold ingestLoop at hloop
      split at hloop
      · rename_i hclaim
        obtain rfl := Except.ok.inj (Option.some.inj hloop)
        rw [newEvents_eq_nil hlimit hclaim]
        exact ⟨rfl, rfl⟩
      · split at hloop
        · simp at hloop
        · rename_i canonical s₁ hbatch
          split at hloop
          · simp at hloop
          · rename_i s₂ hsave
            have hclaimed := settles_of_ingestBatch hbatch
            obtain ⟨canonical', s₁', hbatch', hrows, -⟩ := ingestBatch_ok [] hclaimed holds_claim
            obtain ⟨rfl, rfl⟩ := Prod.mk.inj (Except.ok.inj (hbatch.symm.trans hbatch'))
            obtain ⟨hcanonical, hevents, hattributes⟩ := of_ingestBatch hbatch
            obtain ⟨hsaved, hkept⟩ := of_save hsave
            obtain ⟨hlast, hlast'⟩ := ih hloop
            rw [newEvents_eq_append hclaimed ((rawEvents_save hsave).trans hrows),
              normalized_append, List.foldl_append, List.foldl_append, hlast, hlast', hsaved,
              hkept, hevents, hattributes, hcanonical, List.nil_append]
            exact ⟨rfl, rfl⟩

/-- More turns change nothing once the loop has ended. -/
theorem ingestLoop_succ {fuel : ℕ} {r : Except (Raised × Buckets β) (Buckets β)}
    (h : ingestLoop N tenantId limit fuel s = some r) :
    ingestLoop N tenantId limit (fuel + 1) s = some r := by
  induction fuel generalizing s with
  | zero => simp [ingestLoop] at h
  | succ fuel ih =>
      unfold ingestLoop at h ⊢
      split at h
      · rename_i hclaim
        rw [if_pos hclaim]
        exact h
      · rename_i hclaim
        rw [if_neg hclaim]
        split at h
        · exact h
        · split at h
          · exact h
          · exact ih h

theorem ingests_unique {r r' : Except (Raised × Buckets β) (Buckets β)}
    (h : Ingests N tenantId limit s r) (h' : Ingests N tenantId limit s r') : r = r' := by
  have hmono : ∀ {fuel k r}, ingestLoop N tenantId limit fuel s = some r →
      ingestLoop N tenantId limit (fuel + k) s = some r := by
    intro fuel k r hr
    induction k with
    | zero => exact hr
    | succ k ih => exact ingestLoop_succ ih
  obtain ⟨fuel, hr⟩ := h
  obtain ⟨fuel', hr'⟩ := h'
  have hsame := hmono (k := fuel') hr
  rw [Nat.add_comm, hmono (k := fuel) hr'] at hsame
  exact (Option.some.inj hsame).symm

/-- **INGEST ends as normalizing one by one does**, and in no other way. -/
theorem ingests_iff_oneByOne (hlimit : 0 < limit)
    (htenant : ∀ b e, N b = .ok e → e.tenantId = tenantId)
    (hsettles : ∀ r ∈ newEvents s, Settles (N r.body))
    (r : Except (Raised × Buckets β) (Buckets β)) :
    Ingests N tenantId limit s r ↔ r = .ok (oneByOne N s) := by
  obtain ⟨s', hingests, hrows⟩ := exists_ingests hlimit htenant hsettles
  obtain ⟨hevents, hattributes⟩ := of_ingests hlimit hingests
  have heq : s' = oneByOne N s := by
    obtain ⟨rows, events, attributes, nodup⟩ := s'
    dsimp only at hrows hevents hattributes
    subst hrows hevents hattributes
    rfl
  rw [← heq]
  exact ⟨fun h => ingests_unique h hingests, fun h => h ▸ hingests⟩

/-! ## What is looked up -/

/-- An attribute of a user. -/
def attributeOf (d : Dict String (Dict Text Json)) (user : String) (key : Text) : Option Json :=
  (d.get? user).bind fun attributes => attributes.get? key

/-- An `update` leaves what it does not set. -/
theorem get?_update (attributes d : Dict Text Json) (key : Text) :
    (attributes.entries.foldl (fun d p => d.set p.1 p.2) d).get? key =
      (attributes.get? key).or (d.get? key) := by
  cases hget : attributes.get? key with
  | none =>
      rw [Dict.get?_foldl_set_of_notMem]
      · rfl
      · intro p hp heq
        exact Dict.get?_eq_none.mp hget (heq ▸ List.mem_map_of_mem hp)
  | some v =>
      have hmem := Dict.get?_eq_some.mp hget
      refine Dict.get?_foldl_set attributes.entries _ ?_ hmem
      · intro p hp q hq hkey
        rw [List.inj_on_of_nodup_map attributes.nodup hp hq hkey]

theorem attributeOf_upsertEvent (d : Dict String (Dict Text Json))
    (e : IngestMapping.CanonicalEvent) (user : String) (key : Text) :
    attributeOf (upsertEvent d e) user key =
      (if e.userPseudonym = user then e.attributes.get? key else none).or
        (attributeOf d user key) := by
  unfold upsertEvent
  split
  · rename_i hempty
    have hnone : e.attributes.get? key = none := by
      rw [Dict.get?_eq_none]
      unfold Dict.keys
      rw [List.isEmpty_iff.mp hempty]
      simp
    rw [hnone]
    simp
  · unfold attributeOf
    rw [Dict.get?_alter]
    by_cases huser : user = e.userPseudonym
    · subst huser
      rw [if_pos rfl, if_pos rfl, Option.bind_some, get?_update]
      cases d.get? e.userPseudonym <;> rfl
    · rw [if_neg huser, if_neg (Ne.symm huser), Option.none_or]

/-- **Later attributes overwrite earlier ones**: an attribute is that of the
last event of the user that has it. -/
theorem attributeOf_foldl (es : List IngestMapping.CanonicalEvent)
    (d : Dict String (Dict Text Json)) (user : String) (key : Text) :
    attributeOf (es.foldl upsertEvent d) user key =
      (es.reverse.findSome? fun e =>
        if e.userPseudonym = user then e.attributes.get? key else none).or
          (attributeOf d user key) := by
  induction es using List.reverseRecOn with
  | nil => rfl
  | append_singleton es e ih =>
      rw [List.foldl_append, List.foldl_cons, List.foldl_nil, attributeOf_upsertEvent, ih,
        List.reverse_append, List.reverse_singleton, List.singleton_append,
        List.findSome?_cons]
      cases (if e.userPseudonym = user then e.attributes.get? key else none) <;> rfl

/-- **The first event of a client event id wins.** -/
theorem get?_foldl_insertEvent (es : List IngestMapping.CanonicalEvent)
    (d : Dict Text IngestMapping.CanonicalEvent) (clientEventId : Text) :
    (es.foldl insertEvent d).get? clientEventId =
      (d.get? clientEventId).or (es.find? fun e => e.clientEventId = clientEventId) := by
  have h := Dict.get?_foldl_setDefault (fun e : IngestMapping.CanonicalEvent => e.clientEventId)
    id es d clientEventId
  rw [Option.map_id] at h
  exact h

/-! ## INGEST -/

/-- **What INGEST leaves**, for new events that settle: no new event, each
marked by how its body was normalized, and of the canonical events and the
attributes what normalizing one by one gives. -/
structure Ingested (N : β → Except Raised IngestMapping.CanonicalEvent) (s s' : Buckets β) :
    Prop where
  no_new : ∀ r ∈ s'.rawEvents, r.status ≠ .new
  marked : ∀ r ∈ s.rawEvents, r.status = .new → ∃ r' ∈ s'.rawEvents,
    r'.rawEventId = r.rawEventId ∧ r'.body = r.body ∧
      (r'.status = .processed ∧ (∃ e, N r.body = .ok e) ∨
        r'.status = .unmapped ∧ ∃ message, N r.body = .error (.mappingError message) ∧
          r'.error = some message)
  canonicalEvents_eq : s'.canonicalEvents =
    (normalized N (newEvents s)).foldl insertEvent s.canonicalEvents
  userAttributes_eq : s'.userAttributes =
    (normalized N (newEvents s)).foldl upsertEvent s.userAttributes
  first_wins : ∀ clientEventId, s'.canonicalEvents.get? clientEventId =
    (s.canonicalEvents.get? clientEventId).or
      ((normalized N (newEvents s)).find? fun e => e.clientEventId = clientEventId)
  last_wins : ∀ user key, attributeOf s'.userAttributes user key =
    ((normalized N (newEvents s)).reverse.findSome? fun e =>
      if e.userPseudonym = user then e.attributes.get? key else none).or
        (attributeOf s.userAttributes user key)

/-- A new event that settles is marked by how its body was normalized. -/
theorem settled_cases {r : RawEventRecord β} (h : Settles (N r.body)) :
    (settled N r).status = .processed ∧ (∃ e, N r.body = .ok e) ∨
      (settled N r).status = .unmapped ∧ ∃ message, N r.body = .error (.mappingError message) ∧
        (settled N r).error = some message := by
  unfold settled
  rcases h with ⟨e, he⟩ | ⟨message, he⟩
  · rw [he]
    exact Or.inl ⟨rfl, e, rfl⟩
  · rw [he]
    exact Or.inr ⟨rfl, message, rfl, rfl⟩

theorem ingested_oneByOne (hsettles : ∀ r ∈ newEvents s, Settles (N r.body)) :
    Ingested N s (oneByOne N s) where
  no_new r hr := by
    obtain ⟨r₀, hr₀, rfl⟩ := List.mem_map.mp hr
    unfold settleNew
    split
    · rename_i hnew
      exact settled_ne_new (hsettles r₀ (mem_newEvents.mpr ⟨hr₀, hnew⟩))
    · rename_i hnew
      exact hnew
  marked r hr hnew := by
    refine ⟨settleNew N r, List.mem_map_of_mem hr, ?_⟩
    unfold settleNew
    rw [if_pos hnew]
    exact ⟨settled_rawEventId, settled_body,
      settled_cases (hsettles r (mem_newEvents.mpr ⟨hr, hnew⟩))⟩
  canonicalEvents_eq := rfl
  userAttributes_eq := rfl
  first_wins := get?_foldl_insertEvent _ _
  last_wins := attributeOf_foldl _ _

/-- **INGEST is complete and does not depend on the batch size**: where
`normalize` returns or raises `MappingError` on every new event, the loop
ends, and with every batch size in what normalizing one by one leaves. -/
theorem ingest_complete {lib : Library} {config : TenantMappingConfig} {secret : List UInt8}
    (s : Buckets Body) (hsettles : ∀ r ∈ s.rawEvents, r.status = .new →
      Settles (normalize lib tenantId r.body config secret)) :
    let N := fun body => normalize lib tenantId body config secret
    Ingested N s (oneByOne N s) ∧
      ∀ limit, 0 < limit → ∀ r, Ingests N tenantId limit s r ↔ r = .ok (oneByOne N s) := by
  have hnew : ∀ r ∈ newEvents s, Settles (normalize lib tenantId r.body config secret) :=
    fun r hr => hsettles r (mem_newEvents.mp hr).1 (mem_newEvents.mp hr).2
  refine ⟨ingested_oneByOne hnew, fun limit hlimit r => ?_⟩
  exact ingests_iff_oneByOne hlimit (fun _ _ => tenantId_of_normalize) hnew r

/-- A transfer and a body of an unknown event type. -/
def sampleBuckets : Buckets Body where
  rawEvents := [⟨"raw-1", sampleBody (.str (text "user-123")) (.int 150000)
      (.dict [(text "region_code", .str (text "ID-JK"))]), .new, none⟩,
    ⟨"raw-2", [(text "client_event_id", .str (text "evt-2")),
      (text "event_type", .str (text "wallet.closed"))], .new, none⟩]
  canonicalEvents := .empty
  userAttributes := .empty
  nodup := by decide

theorem ingest_complete_sample :
    let N := fun body => normalize sampleLibrary "t" body sampleConfig sampleSecret
    (oneByOne N sampleBuckets).rawEvents.map RawEventRecord.status = [.processed, .unmapped] ∧
      Ingests N "t" 1 sampleBuckets (.ok (oneByOne N sampleBuckets)) ∧
      Ingests N "t" 500 sampleBuckets (.ok (oneByOne N sampleBuckets)) := by
  have hsettles : ∀ r ∈ sampleBuckets.rawEvents, r.status = .new →
      Settles (normalize sampleLibrary "t" r.body sampleConfig sampleSecret) := by
    decide +kernel
  intro N
  obtain ⟨-, hall⟩ : _ ∧ ∀ limit, 0 < limit → ∀ r,
      Ingests N "t" limit sampleBuckets r ↔ r = .ok (oneByOne N sampleBuckets) :=
    ingest_complete sampleBuckets hsettles
  exact ⟨by decide +kernel, (hall 1 (by decide) _).mpr rfl, (hall 500 (by decide) _).mpr rfl⟩

end InMemory

end RetentionEngine
