import RetentionEngine.Worker.Isolation

/-!
# What a tenant sees

A history of the store: tenants are added, their events, incentives,
contacts and outcomes come in, and their pipelines run, in any order. What
one tenant sees of it, the results of its own runs and its own bucket, is
what it would see had nothing of the others ever happened
(`play_restrict`).
-/

namespace RetentionEngine

namespace Worker

open Prog (Keeps Both)
open Pipeline (RunEnv)

variable (T : Parts) (K : Type)

/-- **What happens to a store.** -/
inductive Action
  | addTenant (tenant : TenantRecord T.toRows)
  | addRawEvents (tenantId : String) (bodies : List T.Body)
  | setIncentives (tenantId : String) (incentives : List T.Incentive)
  | addContacts (tenantId userPseudonym : String) (times : List Timestamp)
  | addOutcomes (outcomes : List Feedback.OutcomeEvent)
  | runPipeline (env : RunEnv)

variable {T K}

/-- Whether an action is about a tenant: outcomes may be about any. -/
def Action.Concerns (tenantId : String) : Action T → Prop
  | addTenant tenant => tenant.tenantId = tenantId
  | addRawEvents owner _ => owner = tenantId
  | setIncentives owner _ => owner = tenantId
  | addContacts owner _ _ => owner = tenantId
  | addOutcomes _ => True
  | runPipeline env => env.tenantId = tenantId

instance (tenantId : String) : DecidablePred (Action.Concerns (T := T) tenantId) := fun a => by
  cases a <;> unfold Action.Concerns <;> infer_instance

/-- What of an action is about a tenant. -/
def Action.restrict (tenantId : String) : Action T → Option (Action T)
  | addOutcomes outcomes => some (addOutcomes (outcomes.filter fun o => o.tenantId = tenantId))
  | a => if a.Concerns tenantId then some a else none

section Play

variable [Field K] [LinearOrder K] (P : Packages T K) (settings : Settings)

/-- The calls of an action, and what a run returns. -/
def Action.perform : Action T → Call T.toRows K (Option (RunResult T K))
  | addTenant tenant => do
      Store.addTenant tenant
      return none
  | addRawEvents tenantId bodies => do
      Store.addRawEvents tenantId bodies
      return none
  | setIncentives tenantId incentives => do
      Store.setIncentives tenantId incentives
      return none
  | addContacts tenantId user times => do
      Store.addContacts tenantId user times
      return none
  | addOutcomes outcomes => do
      Store.addOutcomes outcomes
      return none
  | runPipeline env => do
      let result ← Worker.runPipeline P settings env
      return some result

/-- **What a tenant sees** of a history: what comes of each action that is
about it, and the store at the end. -/
def play (tenantId : String) : List (Action T) → InMemoryStore T.toRows K →
    List (Except String (Option (RunResult T K))) × InMemoryStore T.toRows K
  | [], s => ([], s)
  | a :: rest, s =>
      let r := a.perform P settings s
      let seen := play tenantId rest r.2
      (if a.Concerns tenantId then r.1 :: seen.1 else seen.1, seen.2)

end Play

/-! ## Seeding -/

variable {tenantId other : String} {s s' : InMemoryStore T.toRows K} {b : Bucket T.toRows K}

/-- Two stores with the same bucket of a tenant. -/
def SameBucket (tenantId : String) (s s' : InMemoryStore T.toRows K) : Prop :=
  s.bucket tenantId = s'.bucket tenantId

theorem ofData_sameBucket {α : Type} {f : Data T.toRows K → α} :
    Keeps (SameBucket tenantId) (Store.ofData tenantId f) :=
  .read fun _ _ h => congrArg (fun b => f b.data) h

theorem onData_sameBucket {f : Data T.toRows K → Data T.toRows K} :
    Keeps (SameBucket tenantId) (Store.onData tenantId f) := by
  refine .modify fun s s' h => ?_
  unfold SameBucket at h ⊢
  rw [InMemoryStore.bucket_setData, InMemoryStore.bucket_setData, h]

/-- **A change of one tenant's data** is none of another's. -/
theorem onData_other (hne : tenantId ≠ other) {f : Data T.toRows K → Data T.toRows K} :
    Keeps (Both fun s => s.bucket tenantId = b) (Store.onData other f) :=
  Prog.keeps_both fun _ h => (InMemoryStore.bucket_setData_of_ne hne).trans h

/-- The calls of `add_raw_events` are reads and changes of one tenant's
data. -/
theorem addRawEvents_keeps {R : InMemoryStore T.toRows K → InMemoryStore T.toRows K → Prop}
    (hread : ∀ f : Data T.toRows K → List T.ClientEventId, Keeps R (Store.ofData tenantId f))
    (hwrite : ∀ f, Keeps R (Store.onData tenantId f)) (bodies : List T.Body) :
    Keeps R (Store.addRawEvents tenantId bodies) := by
  refine (hread _).bind fun known =>
    Keeps.bind (.foldlM (fun known body _ => ?_) _) fun _ => .pure _
  unfold Store.addRawEvent
  split
  · exact .raise _
  · split
    · exact .pure _
    · exact (hwrite _).bind fun _ => .pure _

/-- **Outcomes of other tenants** do not matter to one. -/
theorem addOutcomes_restrict (outcomes : List Feedback.OutcomeEvent)
    (h : SameBucket tenantId s s') :
    (Store.addOutcomes outcomes s).1 = .ok () ∧
      (Store.addOutcomes (outcomes.filter fun o => o.tenantId = tenantId) s').1 = .ok () ∧
      SameBucket tenantId (Store.addOutcomes outcomes s).2
        (Store.addOutcomes (outcomes.filter fun o => o.tenantId = tenantId) s').2 := by
  induction outcomes generalizing s s' with
  | nil => exact ⟨rfl, rfl, h⟩
  | cons o outcomes ih =>
      have hstep : ∀ (l : List Feedback.OutcomeEvent) (t : InMemoryStore T.toRows K),
          Store.addOutcomes (o :: l) t = Store.addOutcomes l (Store.addOutcome o t).2 :=
        fun _ _ => rfl
      rw [hstep]
      by_cases hown : o.tenantId = tenantId
      · rw [List.filter_cons_of_pos (by simpa using hown), hstep]
        refine ih ?_
        subst hown
        exact (onData_sameBucket _ _ h).2
      · rw [List.filter_cons_of_neg (by simpa using hown)]
        exact ih ((InMemoryStore.bucket_setData_of_ne (Ne.symm hown)).trans h)

section Play

variable [Field K] [LinearOrder K] (P : Packages T K) (settings : Settings)

/-- **What is about another tenant** leaves the bucket alone. -/
theorem perform_other {a : Action T} (ha : ¬ a.Concerns tenantId) (hs : Reachable s) :
    (a.perform P settings s).2.bucket tenantId = s.bucket tenantId := by
  have hframe : ∀ {m : Call T.toRows K Unit},
      Keeps (Both fun t => t.bucket tenantId = s.bucket tenantId) m →
      ((m >>= fun _ =>
        (pure none : Call T.toRows K (Option (RunResult T K)))) s).2.bucket tenantId =
        s.bucket tenantId := fun hm => by
    rw [Prog.snd_bind_pure]
    exact hm.invariant rfl
  cases a with
  | addTenant tenant => exact hframe (onData_other (Ne.symm ha))
  | addRawEvents owner bodies =>
      exact hframe (addRawEvents_keeps (fun _ => Prog.keeps_both fun _ h => h)
        (fun _ => onData_other (Ne.symm ha)) bodies)
  | setIncentives owner incentives => exact hframe (onData_other (Ne.symm ha))
  | addContacts owner user times => exact hframe (onData_other (Ne.symm ha))
  | addOutcomes outcomes => exact absurd trivial ha
  | runPipeline env =>
      have hrun : ((Action.runPipeline env).perform P settings s).2 =
          (Worker.runPipeline P settings env s).2 := Prog.snd_bind_pure
      rw [hrun]
      exact bucket_runPipeline P settings env hs (Ne.symm ha)

/-- **What is about a tenant** comes to the same where its bucket is the
same. -/
theorem perform_restrict {a a' : Action T} (ha : a.restrict tenantId = some a') (hs : Reachable s)
    (h : SameBucket tenantId s s') :
    (a.perform P settings s).1 = (a'.perform P settings s').1 ∧
      SameBucket tenantId (a.perform P settings s).2 (a'.perform P settings s').2 := by
  have hseed : ∀ {m : Call T.toRows K Unit}, Keeps (SameBucket tenantId) m →
      Keeps (SameBucket tenantId)
        (m >>= fun _ => (pure none : Call T.toRows K (Option (RunResult T K)))) :=
    fun hm => hm.bind fun _ => .pure _
  cases a with
  | addTenant tenant =>
      obtain ⟨rfl, ⟨⟩⟩ := Option.ite_none_right_eq_some.mp ha
      exact hseed onData_sameBucket _ _ h
  | addRawEvents owner bodies =>
      obtain ⟨rfl, ⟨⟩⟩ := Option.ite_none_right_eq_some.mp ha
      exact hseed (addRawEvents_keeps (fun _ => ofData_sameBucket) (fun _ => onData_sameBucket)
        bodies) _ _ h
  | setIncentives owner incentives =>
      obtain ⟨rfl, ⟨⟩⟩ := Option.ite_none_right_eq_some.mp ha
      exact hseed onData_sameBucket _ _ h
  | addContacts owner user times =>
      obtain ⟨rfl, ⟨⟩⟩ := Option.ite_none_right_eq_some.mp ha
      exact hseed onData_sameBucket _ _ h
  | addOutcomes outcomes =>
      obtain rfl := Option.some.inj ha
      obtain ⟨hok, hok', hsame⟩ := addOutcomes_restrict outcomes h
      have hadd : ∀ {l : List Feedback.OutcomeEvent} {t : InMemoryStore T.toRows K},
          (Store.addOutcomes l t).1 = .ok () →
          (Action.addOutcomes l).perform P settings t = (.ok none, (Store.addOutcomes l t).2) :=
        fun hl => Prog.bind_of_ok (Prod.ext hl rfl)
      rw [hadd hok, hadd hok']
      exact ⟨rfl, hsame⟩
  | runPipeline env =>
      obtain ⟨rfl, ⟨⟩⟩ := Option.ite_none_right_eq_some.mp ha
      obtain ⟨hresult, w, hleft, hleft'⟩ :=
        runPipeline_leftSame P settings env hs (congrArg Bucket.data h)
      have hsame : SameBucket env.tenantId (Worker.runPipeline P settings env s).2
          (Worker.runPipeline P settings env s').2 := by
        unfold SameBucket at h ⊢
        rw [hleft, hleft', bucket_left, bucket_left, h]
      have hrun : ∀ t : InMemoryStore T.toRows K,
          (Action.runPipeline env).perform P settings t =
            ((Worker.runPipeline P settings env t).1.map some,
              (Worker.runPipeline P settings env t).2) := by
        intro t
        rcases hr : Worker.runPipeline P settings env t with ⟨r, u⟩
        cases r with
        | error e => exact Prog.bind_of_error hr
        | ok r => exact Prog.bind_of_ok hr
      rw [hrun, hrun, hresult]
      exact ⟨rfl, hsame⟩

/-- What is about a tenant stays, and nothing else does. -/
theorem restrict_cases (a : Action T) :
    (a.Concerns tenantId ∧ ∃ a', a.restrict tenantId = some a' ∧ a'.Concerns tenantId) ∨
      ¬ a.Concerns tenantId ∧ a.restrict tenantId = none := by
  by_cases ha : a.Concerns tenantId
  · refine Or.inl ⟨ha, ?_⟩
    cases a with
    | addOutcomes outcomes => exact ⟨_, rfl, trivial⟩
    | _ => exact ⟨_, if_pos ha, ha⟩
  · refine Or.inr ⟨ha, ?_⟩
    cases a with
    | addOutcomes outcomes => exact absurd trivial ha
    | _ => exact if_neg ha

/-- An action leaves a reachable store. -/
theorem reachable_perform (a : Action T) (hs : Reachable s) :
    Reachable (a.perform P settings s).2 := by
  have hop : ∀ op : Operation T.toRows K,
      Reachable ((op.call >>= fun _ =>
        (pure none : Call T.toRows K (Option (RunResult T K)))) s).2 :=
    fun op => by
      rw [Prog.snd_bind_pure]
      exact hs.call op
  cases a with
  | addTenant tenant => exact hop (.addTenant tenant)
  | addRawEvents owner bodies => exact hop (.addRawEvents owner bodies)
  | setIncentives owner incentives => exact hop (.setIncentives owner incentives)
  | addContacts owner user times => exact hop (.addContacts owner user times)
  | addOutcomes outcomes => exact hop (.addOutcomes outcomes)
  | runPipeline env =>
      have hrun : ((Action.runPipeline env).perform P settings s).2 =
          (Worker.runPipeline P settings env s).2 := Prog.snd_bind_pure
      rw [hrun]
      exact hs.runPipeline

theorem play_cons {a : Action T} {rest : List (Action T)} (ha : a.Concerns tenantId) :
    play P settings tenantId (a :: rest) s =
      ((a.perform P settings s).1 ::
        (play P settings tenantId rest (a.perform P settings s).2).1,
        (play P settings tenantId rest (a.perform P settings s).2).2) :=
  Prod.ext (if_pos ha) rfl

theorem play_cons_other {a : Action T} {rest : List (Action T)} (ha : ¬ a.Concerns tenantId) :
    play P settings tenantId (a :: rest) s =
      play P settings tenantId rest (a.perform P settings s).2 :=
  Prod.ext (if_neg ha) rfl

/-- **A tenant sees only itself.** For every history, from every reachable
store: what comes of the actions about a tenant, and its bucket at the end,
are those of the history without the others. -/
theorem play_restrict (actions : List (Action T)) (hs : Reachable s) :
    (play P settings tenantId actions s).1 =
        (play P settings tenantId (actions.filterMap (Action.restrict tenantId)) s).1 ∧
      (play P settings tenantId actions s).2.bucket tenantId =
        (play P settings tenantId (actions.filterMap (Action.restrict tenantId)) s).2.bucket
          tenantId := by
  have hall : ∀ {s' : InMemoryStore T.toRows K}, SameBucket tenantId s s' →
      (play P settings tenantId actions s).1 =
          (play P settings tenantId (actions.filterMap (Action.restrict tenantId)) s').1 ∧
        SameBucket tenantId (play P settings tenantId actions s).2
          (play P settings tenantId (actions.filterMap (Action.restrict tenantId)) s').2 := by
    induction actions generalizing s with
    | nil => exact fun h => ⟨rfl, h⟩
    | cons a rest ih =>
        intro s' h
        rcases restrict_cases a with ⟨ha, a', hrestrict, ha'⟩ | ⟨ha, hrestrict⟩
        · obtain ⟨hresult, hsame⟩ := perform_restrict P settings hrestrict hs h
          obtain ⟨hrest, hend⟩ := ih (reachable_perform P settings a hs) hsame
          rw [List.filterMap_cons_some hrestrict, play_cons P settings ha, play_cons P settings ha']
          exact ⟨congrArg₂ List.cons hresult hrest, hend⟩
        · have hsame : SameBucket tenantId (a.perform P settings s).2 s' :=
            (perform_other P settings ha hs).trans h
          rw [List.filterMap_cons_none hrestrict, play_cons_other P settings ha]
          exact ih (reachable_perform P settings a hs) hsame
  exact hall rfl

end Play

theorem play_restrict_new :
    (play samplePackages sampleSettings "tenant-wallet"
        [.addTenant ⟨"tenant-wallet", "demo-wallet", "WALLET", ()⟩,
          .addTenant ⟨"tenant-lending", "demo-lending", "LENDING", ()⟩,
          .addRawEvents "tenant-lending" ["tx-7"], .addRawEvents "tenant-wallet" ["tx-1"],
          .runPipeline { sampleEnv with tenantId := "tenant-lending" }, .runPipeline sampleEnv]
        (InMemoryStore.new sampleParts.toRows ℚ)).1 =
      (play samplePackages sampleSettings "tenant-wallet"
        [.addTenant ⟨"tenant-wallet", "demo-wallet", "WALLET", ()⟩,
          .addRawEvents "tenant-wallet" ["tx-1"], .runPipeline sampleEnv]
        (InMemoryStore.new sampleParts.toRows ℚ)).1 :=
  (play_restrict samplePackages sampleSettings _ Reachable.new).1

end Worker

end RetentionEngine
