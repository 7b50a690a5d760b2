import RetentionEngine.Common.Run
import RetentionEngine.Schema.Events

/-!
# INGEST

The loop of `_ingest` in `worker.pipeline`, one committed store call at a
time, for any number of runs beside each other and the API posting in
between. A run that raises or dies leaves INGEST wherever it stood; the
next one starts over with an empty batch. An event is marked PROCESSED
before the batch it belongs to is saved, and this gap is the whole story:
`processed_stored` says that no event is lost as long as no INGEST ends
inside it.
-/

namespace RetentionEngine

namespace Ingest

open EventTables

variable {β : Type*}

/-- Where the INGEST of a run stands. -/
inductive Progress (β : Type*)
  /-- Not in INGEST. -/
  | idle
  /-- At the top of the `while`. -/
  | claiming
  /-- At the top of the `for`, with `todo` of the `claimed` events left. -/
  | looping (claimed todo : List (RawEventRecord β)) (canonical : List CanonicalEvent)
  /-- Between the upsert of `raw`'s attributes and its mark. -/
  | marking (claimed : List (RawEventRecord β)) (raw : RawEventRecord β)
      (todo : List (RawEventRecord β)) (canonical : List CanonicalEvent)

namespace Progress

/-- The events the running `for` has claimed. -/
def batch : Progress β → List (RawEventRecord β)
  | .looping claimed _ _ => claimed
  | .marking claimed _ _ _ => claimed
  | _ => []

/-- The events it has still to mark. -/
def todo : Progress β → List (RawEventRecord β)
  | .looping _ todo _ => todo
  | .marking _ raw todo _ => raw :: todo
  | _ => []

/-- The local `canonical`. -/
def canonical : Progress β → List CanonicalEvent
  | .looping _ _ canonical => canonical
  | .marking _ _ _ canonical => canonical
  | _ => []

end Progress

/-- The tables, and where each run's INGEST stands. -/
structure State (β : Type*) where
  tables : EventTables β
  progress : ℕ → Progress β

/-- What happens next. -/
inductive Action (β : Type*)
  /-- The API stores a body under a fresh id. -/
  | post (id : Uuid) (payload : β)
  /-- Run `w` enters INGEST. -/
  | start (w : ℕ)
  /-- Its `claim_raw_events`, which skips the rows in `locked`. -/
  | claim (w : ℕ) (locked : List Uuid)
  /-- Its next store call: the upsert or the mark of an event, or the save. -/
  | next (w : ℕ) (now : Timestamp)
  /-- A call raises or the process dies. -/
  | fail (w : ℕ)

/-- The run that acts. -/
def Action.run {β : Type*} : Action β → Option ℕ
  | .post _ _ => none
  | .start w | .claim w _ | .next w _ | .fail w => some w

/-- `w` has made a call that left the tables `t`, and stands at `p`. -/
def State.goto (s : State β) (w : ℕ) (t : EventTables β) (p : Progress β) : State β :=
  ⟨t, Function.update s.progress w p⟩

variable (N : Normalizer β) (batchSize : ℕ)

/-- **One store call.** -/
def step (s : State β) : Action β → Option (State β)
  | .post id payload =>
      if id ∈ s.tables.rawEvents.map RawEvent.id then none
      else some { s with tables := s.tables.insertRawEvent id (N.clientEventId payload) payload }
  | .start w =>
      match s.progress w with
      | .idle => some (s.goto w s.tables .claiming)
      | _ => none
  | .claim w locked =>
      match s.progress w with
      | .claiming =>
          match s.tables.claimUnprocessed batchSize locked with
          | [] => some (s.goto w s.tables .idle)
          | raw :: rest => some (s.goto w s.tables (.looping (raw :: rest) (raw :: rest) []))
      | _ => none
  | .next w now =>
      match s.progress w with
      | .looping claimed (raw :: todo) canonical =>
          match N.normalize raw.body with
          | .mappingError text =>
              some (s.goto w (s.tables.markUnmapped now raw.rawEventId text)
                (.looping claimed todo canonical))
          | .event e =>
              if e.attributes = [] then
                some (s.goto w (s.tables.markProcessed now raw.rawEventId)
                  (.looping claimed todo (canonical ++ [e])))
              else
                some (s.goto w (s.tables.upsertAttributes e.userPseudonym e.attributes)
                  (.marking claimed raw todo (canonical ++ [e])))
          | .raised => none
      | .marking claimed raw todo canonical =>
          some (s.goto w (s.tables.markProcessed now raw.rawEventId)
            (.looping claimed todo canonical))
      | .looping _ [] canonical =>
          (s.tables.saveCanonicalEvents canonical).map fun t => s.goto w t .claiming
      | _ => none
  | .fail w => some (s.goto w s.tables .idle)

/-- The step relation. -/
def Step (s : State β) (a : Action β) (s' : State β) : Prop := step N batchSize s a = some s'

/-- Nothing posted, nobody in INGEST. -/
def initial : State β := ⟨EventTables.empty, fun _ => .idle⟩

/-- The canonical event of a row is waiting in the batch of some INGEST. -/
def Waiting (s : State β) (r : RawEvent β) : Prop :=
  ∃ w, ∃ e ∈ (s.progress w).canonical, e.clientEventId = r.clientEventId

/-- The row belongs to the batch of an INGEST that is running. -/
def InBatch (s : State β) (r : RawEvent β) : Prop :=
  ∃ w, ∃ raw ∈ (s.progress w).batch, raw.rawEventId = r.id

/-- **A lossy failure**: an INGEST ends while an event it has normalized is
marked PROCESSED and not stored. -/
def LossyFailure (s : State β) : Action β → Prop
  | .fail w => ∃ r ∈ s.tables.rawEvents, r.Processed ∧ ¬ s.tables.Stored r ∧
      ∃ e ∈ (s.progress w).canonical, e.clientEventId = r.clientEventId
  | _ => False

instance (s : State β) : DecidablePred (LossyFailure s) := fun a => match a with
  | .fail w => inferInstanceAs (Decidable (∃ r ∈ s.tables.rawEvents, r.Processed ∧
      ¬ s.tables.Stored r ∧ ∃ e ∈ (s.progress w).canonical, e.clientEventId = r.clientEventId))
  | .post _ _ | .start _ | .claim _ _ | .next _ _ => inferInstanceAs (Decidable False)

/-! ## What an INGEST knows of its batch -/

variable {N batchSize} {s s' : State β} {t t' : EventTables β} {p : Progress β} {w : ℕ}

/-- `t'` still has every row of `t`, its marks apart. -/
def Keeps (t t' : EventTables β) : Prop :=
  ∀ r ∈ t.rawEvents, ∃ r' ∈ t'.rawEvents, r'.id = r.id ∧ r'.payload = r.payload

theorem Keeps.rfl : Keeps t t := fun r hr => ⟨r, hr, Eq.refl _, Eq.refl _⟩

theorem Keeps.of_eq (h : t'.rawEvents = t.rawEvents) : Keeps t t' :=
  fun r hr => ⟨r, h ▸ hr, Eq.refl _, Eq.refl _⟩

theorem Keeps.mark {now : Timestamp} {i : Uuid} {error : Option String} :
    Keeps t (t.mark now i error) := by
  intro r hr
  refine ⟨_, mem_mark.mpr ⟨r, hr, Eq.refl _⟩, ?_⟩
  split <;> exact ⟨Eq.refl _, Eq.refl _⟩

theorem Keeps.insertRawEvent {i : Uuid} {c : String} {b : β} :
    Keeps t (t.insertRawEvent i c b) := by
  intro r hr
  exact ⟨r, mem_rawEvents_insertRawEvent hr, Eq.refl _, Eq.refl _⟩

/-- **What an INGEST knows**: its batch are rows of the table, what it has
to mark is of the batch, its canonical events are events of the batch, and
the event it is about to mark is among them. -/
structure Tracks (N : Normalizer β) (t : EventTables β) (p : Progress β) : Prop where
  batch : ∀ raw ∈ p.batch, ∃ r ∈ t.rawEvents, r.id = raw.rawEventId ∧ r.payload = raw.body
  todo : ∀ raw ∈ p.todo, raw ∈ p.batch
  canonical : ∀ e ∈ p.canonical, ∃ raw ∈ p.batch, e.clientEventId = N.clientEventId raw.body
  marking : ∀ claimed raw todo canonical, p = .marking claimed raw todo canonical →
    ∃ e ∈ canonical, e.clientEventId = N.clientEventId raw.body

theorem Tracks.keeps (h : Tracks N t p) (hk : Keeps t t') : Tracks N t' p := by
  refine ⟨?_, h.todo, h.canonical, h.marking⟩
  intro raw hraw
  obtain ⟨r, hr, hid, hbody⟩ := h.batch raw hraw
  obtain ⟨r', hr', hid', hbody'⟩ := hk r hr
  exact ⟨r', hr', hid'.trans hid, hbody'.trans hbody⟩

theorem tracks_idle : Tracks N t .idle := ⟨nofun, nofun, nofun, nofun⟩

theorem tracks_claiming : Tracks N t .claiming := ⟨nofun, nofun, nofun, nofun⟩

/-- A fresh claim tracks its rows. -/
theorem tracks_claim {locked : List Uuid} :
    Tracks N t (.looping (t.claimUnprocessed batchSize locked)
      (t.claimUnprocessed batchSize locked) []) := by
  refine ⟨?_, fun _ h => h, nofun, nofun⟩
  intro raw hraw
  obtain ⟨r, hr, rfl⟩ := List.mem_map.mp hraw
  exact ⟨r, List.mem_of_mem_filter (List.mem_of_mem_take hr), rfl, rfl⟩

/-! ## The invariant -/

/-- **The invariant of INGEST.** -/
structure Inv (N : Normalizer β) (s : State β) : Prop where
  keyed : s.tables.Keyed
  /-- A row stands under the client id of its body. -/
  bodies : ∀ r ∈ s.tables.rawEvents, r.clientEventId = N.clientEventId r.payload
  tracks : ∀ w, Tracks N s.tables (s.progress w)
  /-- No event is lost. -/
  waiting : ∀ r ∈ s.tables.rawEvents, r.Processed → s.tables.Stored r ∨ Waiting s r

theorem inv_initial : Inv N (initial : State β) :=
  ⟨keyed_empty, nofun, fun _ => tracks_idle, nofun⟩

theorem progress_goto_self : (s.goto w t p).progress w = p := Function.update_self ..

/-- A call moves its own run alone. -/
theorem progress_goto_of_ne {v : ℕ} (hv : v ≠ w) : (s.goto w t p).progress v = s.progress v :=
  Function.update_of_ne hv ..

/-- An event that waits in another batch, or in `p`, waits after the step. -/
theorem waiting_goto {r : RawEvent β} (h : Waiting s r)
    (hw : ∀ e ∈ (s.progress w).canonical, e ∈ p.canonical) : Waiting (s.goto w t p) r := by
  obtain ⟨v, e, he, hclient⟩ := h
  rcases eq_or_ne v w with rfl | hne
  · exact ⟨v, e, by rw [progress_goto_self]; exact hw e he, hclient⟩
  · exact ⟨v, e, by rwa [progress_goto_of_ne hne], hclient⟩

theorem progress_step {a : Action β} (h : Step N batchSize s a s') {v : ℕ}
    (hv : a.run ≠ some v) : s'.progress v = s.progress v := by
  unfold Step step at h
  cases a with
  | post id payload =>
      simp only [Option.ite_none_left_eq_some, Option.some.injEq] at h
      exact h.2 ▸ rfl
  | start w =>
      dsimp only at h
      split at h
      · exact Option.some.inj h ▸ progress_goto_of_ne fun hvw => hv (hvw ▸ rfl)
      · cases h
  | claim w locked =>
      dsimp only at h
      split at h
      · split at h <;>
          exact Option.some.inj h ▸ progress_goto_of_ne fun hvw => hv (hvw ▸ rfl)
      · cases h
  | next w now =>
      have hne : v ≠ w := fun hvw => hv (hvw ▸ rfl)
      dsimp only at h
      split at h
      · split at h
        · exact Option.some.inj h ▸ progress_goto_of_ne hne
        · split at h <;> exact Option.some.inj h ▸ progress_goto_of_ne hne
        · cases h
      · exact Option.some.inj h ▸ progress_goto_of_ne hne
      · obtain ⟨t, -, rfl⟩ := Option.map_eq_some_iff.mp h
        exact progress_goto_of_ne hne
      · cases h
  | fail w =>
      dsimp only at h
      exact Option.some.inj h ▸ progress_goto_of_ne fun hvw => hv (hvw ▸ rfl)

theorem tracks_goto (h : Inv N s) (hk : Keeps s.tables t) (hp : Tracks N t p) (v : ℕ) :
    Tracks N (s.goto w t p).tables ((s.goto w t p).progress v) := by
  rcases eq_or_ne v w with rfl | hne
  · rwa [progress_goto_self]
  · rw [progress_goto_of_ne hne]
    exact (h.tracks v).keeps hk

/-- A call that leaves raw and canonical events as they are and drops
nothing from the batch keeps the invariant. -/
theorem Inv.goto_of_eq (h : Inv N s) (hraw : t.rawEvents = s.tables.rawEvents)
    (hcan : t.canonicalEvents = s.tables.canonicalEvents) (hp : Tracks N t p)
    (hw : ∀ e ∈ (s.progress w).canonical, e ∈ p.canonical) : Inv N (s.goto w t p) := by
  refine ⟨⟨hraw ▸ h.keyed.ids, hraw ▸ h.keyed.clientEventIds⟩, fun r hr => h.bodies r (hraw ▸ hr),
    tracks_goto h (Keeps.of_eq hraw) hp, ?_⟩
  intro r hr hproc
  rcases h.waiting r (hraw ▸ hr) hproc with ⟨row, hrow, hid⟩ | hwait
  · exact Or.inl ⟨row, hcan ▸ hrow, hid⟩
  · exact Or.inr (waiting_goto hwait hw)

/-- **A mark keeps the invariant** when, if it says PROCESSED, the event it
marks is in the batch. -/
theorem Inv.goto_mark (h : Inv N s) {raw : RawEventRecord β} {now : Timestamp}
    {error : Option String} (hraw : raw ∈ (s.progress w).batch)
    (hp : Tracks N (s.tables.mark now raw.rawEventId error) p)
    (hw : ∀ e ∈ (s.progress w).canonical, e ∈ p.canonical)
    (hmark : error = none → ∃ e ∈ p.canonical, e.clientEventId = N.clientEventId raw.body) :
    Inv N (s.goto w (s.tables.mark now raw.rawEventId error) p) := by
  refine ⟨h.keyed.mark _ _ _, ?_, tracks_goto h Keeps.mark hp, ?_⟩
  · intro r hr
    obtain ⟨r₀, hr₀, rfl⟩ := mem_mark.mp hr
    split <;> exact h.bodies r₀ hr₀
  · intro r hr hproc
    obtain ⟨r₀, hr₀, rfl⟩ := mem_mark.mp hr
    by_cases hid : r₀.id = raw.rawEventId
    · -- the marked row is the row of `raw`, whose event is in the batch
      rw [if_pos hid] at hproc ⊢
      obtain ⟨e, he, hclient⟩ := hmark hproc.2
      obtain ⟨r₁, hr₁, hid₁, hbody₁⟩ := (h.tracks w).batch raw hraw
      have heq : r₀ = r₁ := h.keyed.eq_of_id hr₀ hr₁ (hid.trans hid₁.symm)
      refine Or.inr ⟨w, e, by rwa [progress_goto_self], ?_⟩
      rw [hclient, ← hbody₁, ← heq]
      exact (h.bodies r₀ hr₀).symm
    · rw [if_neg hid] at hproc ⊢
      rcases h.waiting r₀ hr₀ hproc with hstored | hwait
      · exact Or.inl hstored
      · exact Or.inr (waiting_goto hwait hw)

/-- **A save keeps the invariant**: the events it takes out of the batch
are stored. -/
theorem Inv.goto_save (h : Inv N s)
    (hsave : s.tables.saveCanonicalEvents (s.progress w).canonical = some t) :
    Inv N (s.goto w t .claiming) := by
  have hraw := rawEvents_of_save hsave
  refine ⟨⟨hraw ▸ h.keyed.ids, hraw ▸ h.keyed.clientEventIds⟩, fun r hr => h.bodies r (hraw ▸ hr),
    tracks_goto h (Keeps.of_eq hraw) tracks_claiming, ?_⟩
  intro r hr hproc
  have hr₀ : r ∈ s.tables.rawEvents := hraw ▸ hr
  rcases h.waiting r hr₀ hproc with hstored | ⟨v, e, he, hclient⟩
  · exact Or.inl (h.keyed.stored_of_save hsave hr₀ (Or.inl hstored))
  · rcases eq_or_ne v w with rfl | hne
    · exact Or.inl (h.keyed.stored_of_save hsave hr₀ (Or.inr ⟨e, he, hclient⟩))
    · exact Or.inr ⟨v, e, by rwa [progress_goto_of_ne hne], hclient⟩

/-- **A failure that is not lossy keeps the invariant.** -/
theorem Inv.goto_fail (h : Inv N s) (hgood : ¬ LossyFailure s (.fail w)) :
    Inv N (s.goto w s.tables .idle) := by
  refine ⟨h.keyed, h.bodies, tracks_goto h Keeps.rfl tracks_idle, ?_⟩
  intro r hr hproc
  by_contra hlost
  rw [not_or] at hlost
  rcases h.waiting r hr hproc with hstored | ⟨v, e, he, hclient⟩
  · exact hlost.1 hstored
  · rcases eq_or_ne v w with rfl | hne
    · exact hgood ⟨r, hr, hproc, hlost.1, e, he, hclient⟩
    · exact hlost.2 ⟨v, e, by rwa [progress_goto_of_ne hne], hclient⟩

theorem Inv.post (h : Inv N s) {id : Uuid} {payload : β}
    (hid : id ∉ s.tables.rawEvents.map RawEvent.id) :
    Inv N { s with tables := s.tables.insertRawEvent id (N.clientEventId payload) payload } := by
  refine ⟨h.keyed.insertRawEvent hid _ _, ?_,
    fun v => (h.tracks v).keeps Keeps.insertRawEvent, ?_⟩
  · intro r hr
    rcases mem_insertRawEvent hr with hold | rfl
    · exact h.bodies r hold
    · rfl
  · intro r hr hproc
    rcases mem_insertRawEvent hr with hold | rfl
    · rcases h.waiting r hold hproc with ⟨row, hrow, hrid⟩ | hwait
      · exact Or.inl ⟨row, canonicalEvents_insertRawEvent.symm ▸ hrow, hrid⟩
      · exact Or.inr hwait
    · exact absurd rfl hproc.1

/-- The `next` call keeps the invariant, wherever the loop stands. -/
theorem Inv.next (h : Inv N s) {now : Timestamp} (hstep : Step N batchSize s (.next w now) s') :
    Inv N s' := by
  have htracks := h.tracks w
  unfold Step step at hstep
  dsimp only at hstep
  split at hstep
  · rename_i claimed raw todo canonical hp
    rw [hp] at htracks
    have hraw : raw ∈ (s.progress w).batch := by
      rw [hp]
      exact htracks.todo raw List.mem_cons_self
    have htodo : ∀ x ∈ todo, x ∈ claimed :=
      fun x hx => htracks.todo x (List.mem_cons_of_mem _ hx)
    split at hstep
    · rename_i text hnorm
      rw [← Option.some.inj hstep]
      refine h.goto_mark hraw ?_ (fun e he => by rwa [hp] at he) nofun
      exact Tracks.keeps ⟨htracks.batch, htodo, htracks.canonical, nofun⟩ Keeps.mark
    · rename_i e hnorm
      have hclient := N.clientEventId_eq hnorm
      have hcanonical : ∀ x ∈ canonical ++ [e], ∃ raw ∈ claimed,
          x.clientEventId = N.clientEventId raw.body := by
        intro x hx
        rcases List.mem_append.mp hx with hx | hx
        · exact htracks.canonical x hx
        · rw [List.mem_singleton.mp hx]
          exact ⟨raw, htracks.todo raw List.mem_cons_self, hclient⟩
      have hgrow : ∀ x ∈ (s.progress w).canonical, x ∈ canonical ++ [e] := by
        rw [hp]
        exact fun x hx => List.mem_append_left _ hx
      split at hstep <;> rw [← Option.some.inj hstep]
      · refine h.goto_mark hraw ?_ hgrow fun _ => ⟨e, by simp [Progress.canonical], hclient⟩
        exact Tracks.keeps ⟨htracks.batch, htodo, hcanonical, nofun⟩ Keeps.mark
      · refine h.goto_of_eq rfl rfl ⟨htracks.batch, htracks.todo, hcanonical, ?_⟩ hgrow
        rintro _ _ _ _ heq
        cases heq
        exact ⟨e, by simp, hclient⟩
    · cases hstep
  · rename_i claimed raw todo canonical hp
    rw [hp] at htracks
    rw [← Option.some.inj hstep]
    refine h.goto_mark (by rw [hp]; exact htracks.todo raw List.mem_cons_self) ?_
      (fun e he => by rwa [hp] at he) fun _ => htracks.marking _ _ _ _ rfl
    exact Tracks.keeps ⟨htracks.batch, fun x hx => htracks.todo x (List.mem_cons_of_mem _ hx),
      htracks.canonical, nofun⟩ Keeps.mark
  · rename_i claimed canonical hp
    obtain ⟨t, hsave, rfl⟩ := Option.map_eq_some_iff.mp hstep
    exact h.goto_save (by rw [hp]; exact hsave)
  · cases hstep

/-- **Every call keeps the invariant, and so does every end of an INGEST
that is not lossy.** -/
theorem inv_step (h : Inv N s) {a : Action β} (hstep : Step N batchSize s a s')
    (hgood : ¬ LossyFailure s a) : Inv N s' := by
  cases a with
  | post id payload =>
      simp only [Step, step, Option.ite_none_left_eq_some, Option.some.injEq] at hstep
      exact hstep.2 ▸ h.post hstep.1
  | start w =>
      unfold Step step at hstep
      dsimp only at hstep
      split at hstep
      · rename_i hp
        rw [← Option.some.inj hstep]
        exact h.goto_of_eq rfl rfl tracks_claiming fun e he => by rw [hp] at he; cases he
      · cases hstep
  | claim w locked =>
      unfold Step step at hstep
      dsimp only at hstep
      split at hstep
      · rename_i hp
        have hnone : ∀ {p : Progress β}, ∀ e ∈ (s.progress w).canonical, e ∈ p.canonical :=
          fun e he => by rw [hp] at he; cases he
        split at hstep <;> rw [← Option.some.inj hstep]
        · exact h.goto_of_eq rfl rfl tracks_idle hnone
        · rename_i raw rest hclaim
          exact h.goto_of_eq rfl rfl (hclaim ▸ tracks_claim) hnone
      · cases hstep
  | next w now => exact h.next hstep
  | fail w =>
      simp only [Step, step, Option.some.injEq] at hstep
      exact hstep ▸ h.goto_fail hgood

/-- A waiting event belongs to a running batch. -/
theorem Inv.inBatch_of_waiting (h : Inv N s) {r : RawEvent β} (hr : r ∈ s.tables.rawEvents)
    (hwait : Waiting s r) : InBatch s r := by
  obtain ⟨w, e, he, hclient⟩ := hwait
  obtain ⟨raw, hraw, heraw⟩ := (h.tracks w).canonical e he
  obtain ⟨r', hr', hid, hbody⟩ := (h.tracks w).batch raw hraw
  have heq : r' = r := h.keyed.eq_of_clientEventId hr' hr (by
    rw [h.bodies r' hr', hbody, ← heraw, hclient])
  exact ⟨w, raw, hraw, by rw [← hid, heq]⟩

/-- **INGEST loses no event in a run without lossy failures**: in each of
its states a row marked PROCESSED has its canonical event stored, or is in
the batch of an INGEST that is running. -/
theorem processed_stored {tr : List (Transition (State β) (Action β))}
    (h : Run (Step N batchSize) initial tr s) (hgood : ∀ x ∈ tr, ¬ LossyFailure x.pre x.act) :
    ∀ r ∈ s.tables.rawEvents, r.Processed → s.tables.Stored r ∨ InBatch s r := by
  have hinv : Inv N s := h.invariant (G := fun s a => ¬ LossyFailure s a) hgood inv_initial
    fun _ _ _ hinv hstep hg => inv_step hinv hstep hg
  intro r hr hproc
  exact (hinv.waiting r hr hproc).imp_right (hinv.inBatch_of_waiting hr)

/-- Bodies that are their client id, each a session of one user. -/
def sessions : Normalizer String where
  clientEventId b := b
  normalize b := .event ⟨b, .sessionOpen, 0, "p1", none, none, []⟩
  clientEventId_eq := by rintro b e ⟨⟩; rfl

/-- One INGEST of one event, up to the save. -/
theorem processed_stored_once :
    ∃ tr s, Run (Step sessions 500) initial tr s ∧ (∃ r ∈ s.tables.rawEvents, r.Processed) ∧
      ∀ r ∈ s.tables.rawEvents, r.Processed → s.tables.Stored r ∨ InBatch s r := by
  have honce : ∃ s ∈ [Action.post 1 "e1", .start 0, .claim 0 [], .next 0 5, .next 0 6].foldlM
      (fun s a => if ¬ LossyFailure s a then step sessions 500 s a else none) initial,
        ∃ r ∈ s.tables.rawEvents, r.Processed := by decide
  obtain ⟨s, hs, hproc⟩ := honce
  obtain ⟨tr, hrun, hgood⟩ := Run.exists_of_foldlM_guard hs
  exact ⟨tr, s, hrun, hproc, processed_stored hrun hgood⟩

/-- A run of the pipeline that never acts stays out of INGEST. -/
theorem progress_eq_idle {tr : List (Transition (State β) (Action β))} {v : ℕ}
    (h : Run (Step N batchSize) initial tr s) (hv : ∀ x ∈ tr, x.act.run ≠ some v) :
    s.progress v = .idle := by
  have hstep : ∀ (s : State β) a s', s.progress v = .idle → Step N batchSize s a s' →
      Action.run a ≠ some v → s'.progress v = .idle := by
    intro s a s' hidle hstep ha
    rw [← hidle]
    exact progress_step hstep ha
  exact h.invariant (G := fun _ a => Action.run a ≠ some v)
    (I := fun s => s.progress v = .idle) hv rfl hstep

/-- **INGEST can lose an event**: it is posted, claimed and marked
PROCESSED, and the process dies before the save. -/
theorem not_processed_stored :
    ¬ ∀ (N : Normalizer String) (batchSize : ℕ) (tr : List (Transition (State String)
        (Action String))) (s : State String), Run (Step N batchSize) initial tr s →
      ∀ r ∈ s.tables.rawEvents, r.Processed → s.tables.Stored r ∨ InBatch s r := by
  intro hlaw
  have hlost : ∃ s ∈ [Action.post 1 "e1", .start 0, .claim 0 [], .next 0 5, .fail 0].foldlM
      (fun s a => if a.run ∈ [none, some 0] then step sessions 500 s a else none) initial,
        (s.progress 0).batch = [] ∧
          ∃ r ∈ s.tables.rawEvents, r.Processed ∧ ¬ s.tables.Stored r := by decide
  obtain ⟨s, hs, hnobatch, r, hr, hproc, hunstored⟩ := hlost
  obtain ⟨tr, hrun, hzero⟩ :=
    Run.exists_of_foldlM_guard (G := fun _ a => Action.run a ∈ [none, some 0]) hs
  rcases hlaw sessions 500 tr s hrun r hr hproc with hstored | ⟨v, raw, hraw, -⟩
  · exact hunstored hstored
  · rcases eq_or_ne v 0 with rfl | hv
    · rw [hnobatch] at hraw
      cases hraw
    · have hidle : s.progress v = .idle := progress_eq_idle hrun fun x hx hxv => by
        have hx0 := hzero x hx
        rw [hxv] at hx0
        simp [hv] at hx0
      rw [hidle] at hraw
      cases hraw

end Ingest

end RetentionEngine
