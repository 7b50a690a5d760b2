import RetentionEngine.Ingest.Stage

/-!
# INGEST stores no event twice

`canonical_events` has no key on the raw event, so that it holds each at
most once rests on the order of the calls: a row is claimed while it is
unprocessed, marked before the batch is saved, and saved at the end of the
batch. With one worker a claim therefore never sees a row whose event is
stored or waiting, wherever the INGEST before it ended (`Batched`).
-/

namespace RetentionEngine

namespace Ingest

open EventTables

variable {β : Type*} {N : Normalizer β} {batchSize : ℕ} {s s' : State β} {t t' : EventTables β}
  {p : Progress β}

namespace Progress

/-- The claimed events the `for` has not yet normalized. -/
def unread : Progress β → List (RawEventRecord β)
  | .looping _ todo _ => todo
  | .marking _ _ todo _ => todo
  | _ => []

/-- The row the loop is about to mark. -/
def marked : Progress β → Option Uuid
  | .marking _ raw _ _ => some raw.rawEventId
  | _ => none

end Progress

/-- **What one worker knows of its batch**: the normalized events and the
unread rows are pairwise different, the unread rows are unprocessed, and
the normalized events are not stored and, but for the one in hand, marked. -/
structure Batched (N : Normalizer β) (t : EventTables β) (p : Progress β) : Prop where
  distinct : (p.canonical.map CanonicalEvent.clientEventId ++
    p.unread.map fun raw => N.clientEventId raw.body).Nodup
  unread : ∀ raw ∈ p.unread, ∃ r ∈ t.rawEvents, r.id = raw.rawEventId ∧ r.payload = raw.body ∧
    r.processedAt = none
  canonical : ∀ e ∈ p.canonical, ∃ r ∈ t.rawEvents, r.clientEventId = e.clientEventId ∧
    ¬ t.Stored r ∧ (r.processedAt = none → p.marked = some r.id)
  apart : ∀ raw ∈ p.unread, p.marked ≠ some raw.rawEventId

theorem batched_idle : Batched N t .idle := ⟨List.nodup_nil, nofun, nofun, nofun⟩

theorem batched_claiming : Batched N t .claiming := ⟨List.nodup_nil, nofun, nofun, nofun⟩

/-- What the tables of one worker keep. -/
structure Once (N : Normalizer β) (t : EventTables β) : Prop where
  keyed : t.Keyed
  bodies : ∀ r ∈ t.rawEvents, r.clientEventId = N.clientEventId r.payload
  /-- A stored event comes of a row that is marked. -/
  stored : ∀ row ∈ t.canonicalEvents, ∃ r ∈ t.rawEvents, r.id = row.rawEventId ∧
    r.processedAt ≠ none
  nodup : (t.canonicalEvents.map CanonicalEventRow.rawEventId).Nodup

theorem once_empty : Once N (empty : EventTables β) := ⟨keyed_empty, nofun, nofun, List.nodup_nil⟩

/-- The event of an unprocessed row is not stored. -/
theorem Once.not_stored (h : Once N t) {r : RawEvent β} (hr : r ∈ t.rawEvents)
    (hnew : r.processedAt = none) : ¬ t.Stored r := by
  rintro ⟨row, hrow, hid⟩
  obtain ⟨r', hr', hid', hproc⟩ := h.stored row hrow
  obtain rfl := h.keyed.eq_of_id hr hr' (hid.symm.trans hid'.symm)
  exact hproc hnew

/-! ## What each call keeps -/

/-- A call that touches neither events table. -/
theorem Once.of_eq (h : Once N t) (hraw : t'.rawEvents = t.rawEvents)
    (hcan : t'.canonicalEvents = t.canonicalEvents) : Once N t' := by
  refine ⟨⟨hraw ▸ h.keyed.ids, hraw ▸ h.keyed.clientEventIds⟩, fun r hr => h.bodies r (hraw ▸ hr),
    ?_, hcan ▸ h.nodup⟩
  intro row hrow
  rw [hraw]
  exact h.stored row (hcan ▸ hrow)

theorem Once.insertRawEvent (h : Once N t) {id : Uuid} {payload : β}
    (hid : id ∉ t.rawEvents.map RawEvent.id) :
    Once N (t.insertRawEvent id (N.clientEventId payload) payload) := by
  refine ⟨h.keyed.insertRawEvent hid _ _, ?_, ?_, canonicalEvents_insertRawEvent.symm ▸ h.nodup⟩
  · intro r hr
    rcases mem_insertRawEvent hr with hold | rfl
    · exact h.bodies r hold
    · rfl
  · intro row hrow
    obtain ⟨r, hr, hid, hproc⟩ := h.stored row (canonicalEvents_insertRawEvent ▸ hrow)
    exact ⟨r, mem_rawEvents_insertRawEvent hr, hid, hproc⟩

theorem Once.mark (h : Once N t) (now : Timestamp) (i : Uuid) (error : Option String) :
    Once N (t.mark now i error) := by
  refine ⟨h.keyed.mark now i error, ?_, ?_, h.nodup⟩
  · intro r hr
    obtain ⟨r₀, hr₀, rfl⟩ := mem_mark.mp hr
    split <;> exact h.bodies r₀ hr₀
  · intro row hrow
    obtain ⟨r, hr, hid, hproc⟩ := h.stored row hrow
    refine ⟨_, mem_mark.mpr ⟨r, hr, rfl⟩, ?_⟩
    split
    · exact ⟨hid, nofun⟩
    · exact ⟨hid, hproc⟩

/-- The row `save_canonical_events` writes of an event is of the event's
raw row. -/
theorem Once.canonicalRow (h : Once N t) {e : CanonicalEvent} {row : CanonicalEventRow}
    (hrow : t.canonicalRow e = some row) {r : RawEvent β} (hr : r ∈ t.rawEvents)
    (hclient : r.clientEventId = e.clientEventId) : row.rawEventId = r.id := by
  unfold EventTables.canonicalRow at hrow
  rw [← hclient, h.keyed.getRawEventIdByClientId hr] at hrow
  rw [← Option.some.inj hrow]

/-- A new row changes nothing the batch knows. -/
theorem Batched.insertRawEvent (h : Batched N t p) {id : Uuid} {clientEventId : String}
    {payload : β} : Batched N (t.insertRawEvent id clientEventId payload) p := by
  refine ⟨h.distinct, ?_, ?_, h.apart⟩
  · intro raw hraw
    obtain ⟨r, hr, hrow⟩ := h.unread raw hraw
    exact ⟨r, mem_rawEvents_insertRawEvent hr, hrow⟩
  · intro e he
    obtain ⟨r, hr, hclient, hnot, hmarked⟩ := h.canonical e he
    refine ⟨r, mem_rawEvents_insertRawEvent hr, hclient, ?_, hmarked⟩
    rwa [EventTables.Stored, canonicalEvents_insertRawEvent]

theorem Batched.of_eq (h : Batched N t p) (hraw : t'.rawEvents = t.rawEvents)
    (hcan : t'.canonicalEvents = t.canonicalEvents) : Batched N t' p := by
  refine ⟨h.distinct, hraw ▸ h.unread, ?_, h.apart⟩
  intro e he
  obtain ⟨r, hr, hclient, hnot, hmarked⟩ := h.canonical e he
  refine ⟨r, hraw ▸ hr, hclient, ?_, hmarked⟩
  rwa [EventTables.Stored, hcan]

/-- **A claim sees no row whose event is stored or waiting.** -/
theorem Once.claim (h : Once N t) {locked : List Uuid} {claimed : List (RawEventRecord β)} :
    Batched N t (.looping claimed (t.claimUnprocessed batchSize locked) []) := by
  have hrow : ∀ raw ∈ t.claimUnprocessed batchSize locked, ∃ r ∈ t.rawEvents,
      r.id = raw.rawEventId ∧ r.payload = raw.body ∧ r.processedAt = none := by
    intro raw hraw
    obtain ⟨r, hr, rfl⟩ := List.mem_map.mp hraw
    obtain ⟨hmem, hnew⟩ := List.mem_filter.mp (List.mem_of_mem_take hr)
    exact ⟨r, hmem, rfl, rfl, (of_decide_eq_true hnew).1⟩
  refine ⟨?_, hrow, nofun, nofun⟩
  -- their client ids are those of different rows
  simp only [Progress.canonical, Progress.unread, List.map_nil, List.nil_append,
    claimUnprocessed, List.map_map]
  have hsub : ((t.rawEvents.filter fun r => r.processedAt = none ∧ r.id ∉ locked).take
      batchSize).Sublist t.rawEvents :=
    (List.take_sublist _ _).trans List.filter_sublist
  have hids : ∀ r ∈ (t.rawEvents.filter fun r => r.processedAt = none ∧ r.id ∉ locked).take
      batchSize, ((fun raw => N.clientEventId raw.body) ∘ fun r : RawEvent β =>
        (⟨r.id, r.payload⟩ : RawEventRecord β)) r = r.clientEventId :=
    fun r hr => (h.bodies r (hsub.subset hr)).symm
  rw [List.map_congr_left hids]
  exact h.keyed.clientEventIds.sublist (hsub.map _)

variable {claimed todo : List (RawEventRecord β)} {raw : RawEventRecord β}
  {canonical : List CanonicalEvent}

/-- The rows of different unread events are different. -/
theorem Once.apart (h : Once N t) (hb : Batched N t (.looping claimed (raw :: todo) canonical)) :
    ∀ raw' ∈ todo, some raw.rawEventId ≠ some raw'.rawEventId := by
  intro raw' hraw' heq
  obtain ⟨r, hr, hid, hbody, -⟩ := hb.unread raw List.mem_cons_self
  obtain ⟨r', hr', hid', hbody', -⟩ := hb.unread raw' (List.mem_cons_of_mem _ hraw')
  obtain rfl := h.keyed.eq_of_id hr hr' (hid.trans ((Option.some.inj heq).trans hid'.symm))
  have hnodup := (List.nodup_append.mp hb.distinct).2.1
  refine (List.nodup_cons.mp hnodup).1 (List.mem_map.mpr ⟨raw', hraw', ?_⟩)
  exact congrArg N.clientEventId (hbody'.symm.trans hbody)

/-- An event the mapping refuses leaves the batch. -/
theorem Once.unmapped (h : Once N t)
    (hb : Batched N t (.looping claimed (raw :: todo) canonical)) :
    Batched N t (.marking claimed raw todo canonical) := by
  refine ⟨hb.distinct.sublist ?_, fun x hx => hb.unread x (List.mem_cons_of_mem _ hx), ?_,
    h.apart hb⟩
  · exact (List.Sublist.refl _).append (List.sublist_cons_self _ _)
  · intro e he
    obtain ⟨r, hr, hclient, hnot, hmarked⟩ := hb.canonical e he
    exact ⟨r, hr, hclient, hnot, fun hnew => nomatch hmarked hnew⟩

/-- **A normalized event joins the batch**: its row is the one in hand. -/
theorem Once.normalized (h : Once N t)
    (hb : Batched N t (.looping claimed (raw :: todo) canonical)) {e : CanonicalEvent}
    (he : e.clientEventId = N.clientEventId raw.body) :
    Batched N t (.marking claimed raw todo (canonical ++ [e])) := by
  have hb' := h.unmapped hb
  refine ⟨?_, hb'.unread, ?_, hb'.apart⟩
  · have hdistinct := hb.distinct
    simp only [Progress.canonical, Progress.unread, List.map_append, List.map_cons, List.map_nil,
      List.append_assoc, List.singleton_append, he] at hdistinct ⊢
    exact hdistinct
  · intro x hx
    rcases List.mem_append.mp hx with hx | hx
    · exact hb'.canonical x hx
    · obtain rfl := List.mem_singleton.mp hx
      obtain ⟨r, hr, hid, hbody, hnew⟩ := hb.unread raw List.mem_cons_self
      refine ⟨r, hr, ?_, h.not_stored hr hnew, fun _ => congrArg some hid.symm⟩
      rw [he, ← hbody]
      exact h.bodies r hr

/-- **The mark of the row in hand** leaves the whole batch marked. -/
theorem Batched.mark (hb : Batched N t (.marking claimed raw todo canonical)) (now : Timestamp)
    (error : Option String) :
    Batched N (t.mark now raw.rawEventId error) (.looping claimed todo canonical) := by
  refine ⟨hb.distinct, ?_, ?_, nofun⟩
  · intro raw' hraw'
    obtain ⟨r, hr, hid, hrow⟩ := hb.unread raw' hraw'
    refine ⟨_, mem_mark.mpr ⟨r, hr, rfl⟩, ?_⟩
    rw [if_neg fun heq => hb.apart raw' hraw' (congrArg some (heq.symm.trans hid))]
    exact ⟨hid, hrow⟩
  · intro e he
    obtain ⟨r, hr, hclient, hnot, hmarked⟩ := hb.canonical e he
    refine ⟨_, mem_mark.mpr ⟨r, hr, rfl⟩, ?_⟩
    split
    · exact ⟨hclient, hnot, nofun⟩
    · rename_i hne
      exact ⟨hclient, hnot, fun hnew => absurd (Option.some.inj (hmarked hnew)).symm hne⟩

/-- **A save stores each event once**: those of the batch are of different
rows, and none of these has an event yet. -/
theorem Once.save (h : Once N t) (hb : Batched N t (.looping claimed [] canonical))
    (hsave : t.saveCanonicalEvents canonical = some t') : Once N t' := by
  obtain ⟨rows, hmap, rfl⟩ := Option.map_eq_some_iff.mp hsave
  have hrows := forall₂_of_mapM hmap
  -- a new row is of a marked raw row without an event
  have hnew : ∀ row ∈ rows, ∃ r ∈ t.rawEvents, r.id = row.rawEventId ∧ r.processedAt ≠ none ∧
      ¬ t.Stored r := by
    intro row hrow
    obtain ⟨e, he, hof⟩ := exists_left_of_forall₂ hrows hrow
    obtain ⟨r, hr, hclient, hnot, hmarked⟩ := hb.canonical e he
    exact ⟨r, hr, (h.canonicalRow hof hr hclient).symm, fun hnone => (nomatch hmarked hnone), hnot⟩
  have hids : rows.map CanonicalEventRow.rawEventId =
      (canonical.map CanonicalEvent.clientEventId).map
        fun c => (t.getRawEventIdByClientId c).getD 0 := by
    rw [List.map_map]
    refine map_eq_map_of_forall₂ hrows ?_
    intro e row hof
    obtain ⟨i, hi, rfl⟩ := Option.map_eq_some_iff.mp hof
    simp [hi]
  refine ⟨⟨h.keyed.ids, h.keyed.clientEventIds⟩, h.bodies, ?_, ?_⟩
  · intro row hrow
    rcases List.mem_append.mp hrow with hold | hrow
    · exact h.stored row hold
    · obtain ⟨r, hr, hid, hproc, -⟩ := hnew row hrow
      exact ⟨r, hr, hid, hproc⟩
  · rw [List.map_append]
    refine List.nodup_append.mpr ⟨h.nodup, ?_, ?_⟩
    · rw [hids]
      refine List.Nodup.map_on ?_ (by simpa [Progress.canonical, Progress.unread] using hb.distinct)
      intro c hc c' hc' heq
      obtain ⟨e, he, rfl⟩ := List.mem_map.mp hc
      obtain ⟨e', he', rfl⟩ := List.mem_map.mp hc'
      obtain ⟨r, hr, hclient, -⟩ := hb.canonical e he
      obtain ⟨r', hr', hclient', -⟩ := hb.canonical e' he'
      rw [← hclient, ← hclient', h.keyed.getRawEventIdByClientId hr,
        h.keyed.getRawEventIdByClientId hr'] at heq
      rw [← hclient, ← hclient', h.keyed.eq_of_id hr hr' heq]
    · rintro i hi _ hi' rfl
      obtain ⟨old, hold, hold_id⟩ := List.mem_map.mp hi
      obtain ⟨row, hrow, hrow_id⟩ := List.mem_map.mp hi'
      obtain ⟨r, -, hid, -, hnot⟩ := hnew row hrow
      exact hnot ⟨old, hold, hold_id.trans (hrow_id.symm.trans hid.symm)⟩

/-! ## What a run keeps -/

/-- The tables, and the INGEST of the one worker. -/
structure OnceInv (N : Normalizer β) (s : State β) : Prop where
  tables : Once N s.tables
  batch : Batched N s.tables (s.progress 0)

theorem OnceInv.goto (ht : Once N t) (hp : Batched N t p) : OnceInv N (s.goto 0 t p) :=
  ⟨ht, by rwa [progress_goto_self]⟩

theorem OnceInv.next (h : OnceInv N s) {now : Timestamp}
    (hstep : Step N batchSize s (.next 0 now) s') : OnceInv N s' := by
  have hbatch := h.batch
  unfold Step step at hstep
  dsimp only at hstep
  split at hstep
  · rename_i claimed raw todo canonical hp
    rw [hp] at hbatch
    split at hstep
    · rename_i text hnorm
      rw [← Option.some.inj hstep]
      exact .goto (h.tables.mark _ _ _) ((h.tables.unmapped hbatch).mark _ _)
    · rename_i e hnorm
      have hjoin := h.tables.normalized hbatch (N.clientEventId_eq hnorm)
      split at hstep <;> rw [← Option.some.inj hstep]
      · exact .goto (h.tables.mark _ _ _) (hjoin.mark _ _)
      · exact .goto (h.tables.of_eq rfl rfl) (hjoin.of_eq rfl rfl)
    · cases hstep
  · rename_i claimed raw todo canonical hp
    rw [hp] at hbatch
    rw [← Option.some.inj hstep]
    exact .goto (h.tables.mark _ _ _) (hbatch.mark _ _)
  · rename_i claimed canonical hp
    rw [hp] at hbatch
    obtain ⟨t, hsave, rfl⟩ := Option.map_eq_some_iff.mp hstep
    exact .goto (h.tables.save hbatch hsave) batched_claiming
  · cases hstep

/-- **Every step of the API and of worker 0 keeps the invariant**, a
failure at any point included. -/
theorem onceInv_step (h : OnceInv N s) {a : Action β} (hstep : Step N batchSize s a s')
    (hone : a.run = none ∨ a.run = some 0) : OnceInv N s' := by
  cases a with
  | post id payload =>
      simp only [Step, step, Option.ite_none_left_eq_some, Option.some.injEq] at hstep
      exact hstep.2 ▸ ⟨h.tables.insertRawEvent hstep.1, h.batch.insertRawEvent⟩
  | start w =>
      obtain rfl : w = 0 := by simpa [Action.run] using hone
      unfold Step step at hstep
      dsimp only at hstep
      split at hstep
      · rw [← Option.some.inj hstep]
        exact .goto h.tables batched_claiming
      · cases hstep
  | claim w locked =>
      obtain rfl : w = 0 := by simpa [Action.run] using hone
      unfold Step step at hstep
      dsimp only at hstep
      split at hstep
      · split at hstep <;> rw [← Option.some.inj hstep]
        · exact .goto h.tables batched_idle
        · rename_i raw rest hclaim
          exact .goto h.tables (hclaim ▸ h.tables.claim)
      · cases hstep
  | next w now =>
      obtain rfl : w = 0 := by simpa [Action.run] using hone
      exact h.next hstep
  | fail w =>
      obtain rfl : w = 0 := by simpa [Action.run] using hone
      simp only [Step, step, Option.some.injEq] at hstep
      exact hstep ▸ .goto h.tables batched_idle

/-- **One worker stores no event twice**: in every state of every run of
worker 0 and the API, whatever calls raised and whenever the process died,
`canonical_events` has at most one row for a raw event. -/
theorem rawEventId_nodup {tr : List (Transition (State β) (Action β))}
    (h : Run (Step N batchSize) initial tr s)
    (hone : ∀ x ∈ tr, x.act.run = none ∨ x.act.run = some 0) :
    (s.tables.canonicalEvents.map CanonicalEventRow.rawEventId).Nodup := by
  have hinv : OnceInv N s := h.invariant
    (G := fun _ a => Action.run a = none ∨ Action.run a = some 0) hone
    ⟨once_empty, batched_idle⟩ fun _ _ _ hinv hstep hg => onceInv_step hinv hstep hg
  exact hinv.tables.nodup

/-- A worker that dies before its first mark claims the event again. -/
theorem rawEventId_nodup_reclaimed :
    ∃ tr s, Run (Step sessions 500) initial tr s ∧
      s.tables.canonicalEvents.map CanonicalEventRow.rawEventId = [1, 2] ∧
      (s.tables.canonicalEvents.map CanonicalEventRow.rawEventId).Nodup := by
  have htwice : ∃ s ∈ [Action.post 1 "e1", .start 0, .claim 0 [], .fail 0, .post 2 "e2", .start 0,
      .claim 0 [], .next 0 5, .next 0 6, .next 0 7, .fail 0].foldlM
        (fun s a => if a.run = none ∨ a.run = some 0 then step sessions 500 s a else none) initial,
        s.tables.canonicalEvents.map CanonicalEventRow.rawEventId = [1, 2] := by decide
  obtain ⟨s, hs, hids⟩ := htwice
  obtain ⟨tr, hrun, hone⟩ := Run.exists_of_foldlM_guard hs
  exact ⟨tr, s, hrun, hids, rawEventId_nodup hrun hone⟩

end Ingest

end RetentionEngine
