import RetentionEngine.Pipeline.Experiment

/-!
# Replicas and the one experiment

Worker replicas that execute different runs of one tenant.
`get_or_create_experiment` is a transaction of two statements, and under
READ COMMITTED another one may commit between them: the INSERT does not see
again what the SELECT saw. No key of `experiments` stands in its way, so
what is left to say is which interleavings keep one experiment;
`singleExperiment_iff` says it.
-/

namespace RetentionEngine

namespace Experiment

open Pipeline Measurement

/-- `create_experiment`, with the column defaults of the row. -/
def createExperiment (s : State) (controlPct naivePct : ℤ) (now : Timestamp) : State × Uuid :=
  ({ s with
    experiments := s.experiments ++ [⟨s.nextId, controlPct, naivePct, now, none⟩]
    nextId := s.nextId + 1 }, s.nextId)

/-- The method is its two statements. -/
theorem getOrCreateExperiment_eq (s : State) (controlPct naivePct : ℤ) (now : Timestamp) :
    getOrCreateExperiment s controlPct naivePct now =
      match getActiveExperiment s with
      | some existing => (s, existing.id)
      | none => createExperiment s controlPct naivePct now := rfl

namespace Replicas

/-- Where a run is in `_allocate`. -/
inductive Phase
  /-- Before the stage. -/
  | waiting
  /-- Inside the transaction, having read that no experiment is open. -/
  | creating (startedAt : Timestamp)
  /-- With the id `get_or_create_experiment` returned. -/
  | holding (experimentId : Uuid)
  /-- Its arms are recorded. -/
  | assigned
  deriving DecidableEq

/-- The committed tables, every run's phase, and the ids returned so far,
with the runs they were returned to. -/
structure State where
  shared : Experiment.State
  phase : Uuid → Phase
  returned : List (Uuid × Uuid)

/-- The statements and commits of a run. -/
inductive Action
  | read (run : Uuid) (now : Timestamp)
  | create (run : Uuid)
  | save (run : Uuid)
  /-- It raises or its worker dies; the queue hands it out again. -/
  | fail (run : Uuid)

/-- The state with `run` in phase `p`. -/
def State.goto (s : State) (run : Uuid) (p : Phase) : State :=
  { s with phase := Function.update s.phase run p }

@[simp] theorem State.goto_shared (s : State) (run : Uuid) (p : Phase) :
    (s.goto run p).shared = s.shared := rfl

@[simp] theorem State.goto_phase_self (s : State) (run : Uuid) (p : Phase) :
    (s.goto run p).phase run = p := Function.update_self ..

theorem State.goto_phase_of_ne (s : State) {run run' : Uuid} (p : Phase) (h : run' ≠ run) :
    (s.goto run p).phase run' = s.phase run' := Function.update_of_ne h ..

/-- The state with `id` returned to `run`. -/
def State.giveBack (s : State) (run id : Uuid) : State :=
  { s with returned := s.returned ++ [(run, id)] }.goto run (.holding id)

variable {K : Type} [Field K] [LinearOrder K] (env : Env) (runs : Uuid → Allocation K)

/-- **One step of the replicas.** -/
def step (s : State) : Action → Option State
  | .read run now =>
      match s.phase run with
      | .waiting =>
          match getActiveExperiment s.shared with
          | some existing => some (s.giveBack run existing.id)
          | none => some (s.goto run (.creating now))
      | _ => none
  | .create run =>
      match s.phase run with
      | .creating now =>
          let created := createExperiment s.shared (runs run).settings.measurementControlPct
            (runs run).settings.measurementNaivePct now
          some ({ s with shared := created.1 }.giveBack run created.2)
      | _ => none
  | .save run =>
      match s.phase run with
      | .holding id =>
          (armsOf env id (runs run)).map fun arms =>
            { s with shared := saveArmAssignments s.shared id arms }.goto run .assigned
      | _ => none
  | .fail run => some (s.goto run .waiting)

/-- The step relation. -/
def Step (s : State) (a : Action) (s' : State) : Prop := step env runs s a = some s'

/-- Before the tenant's first run. -/
def initial : State := ⟨Experiment.initial, fun _ => .waiting, []⟩

/-- The open experiments. -/
def openRows (s : Experiment.State) : List ExperimentRow :=
  s.experiments.filter fun e => e.endedAt = none

/-- **All runs measure one experiment**: at most one is open, every run was
given the same one, and no user has arms in two. -/
structure SingleExperiment (s : State) : Prop where
  atMostOneOpen : (openRows s.shared).length ≤ 1
  sameId : ∀ p ∈ s.returned, ∀ q ∈ s.returned, p.2 = q.2
  oneArm : ∀ unit id id', (id, unit) ∈ s.shared.assignments.keys →
    (id', unit) ∈ s.shared.assignments.keys → id = id'

/-- **A create that comes in time**: when it commits, no experiment is open
yet. -/
def InTime (s : State) : Action → Prop
  | .create _ => getActiveExperiment s.shared = none
  | _ => True

instance (s : State) : (a : Action) → Decidable (InTime s a)
  | .create _ => inferInstanceAs (Decidable (getActiveExperiment s.shared = none))
  | .read _ _ => inferInstanceAs (Decidable True)
  | .save _ => inferInstanceAs (Decidable True)
  | .fail _ => inferInstanceAs (Decidable True)

/-! ## A run alone -/

variable {env runs} {s s₁ s' : State} {a : Action} {run : Uuid} {now : Timestamp}

/-- **Undisturbed, the two statements are the method**: a run that reads
and creates with nothing between ends as `get_or_create_experiment` does. -/
theorem create_of_read (hread : Step env runs s (.read run now) s₁)
    (hcreate : Step env runs s₁ (.create run) s') :
    (s'.shared, s'.phase run) =
      let r := getOrCreateExperiment s.shared (runs run).settings.measurementControlPct
        (runs run).settings.measurementNaivePct now
      (r.1, .holding r.2) := by
  unfold Step step at hread
  dsimp only at hread
  split at hread
  · split at hread
    · -- an open experiment was returned, and there is nothing to create
      obtain rfl := Option.some.inj hread
      simp [Step, step, State.giveBack] at hcreate
    · rename_i hnone
      obtain rfl := Option.some.inj hread
      simp only [Step, step, State.goto_phase_self, State.goto_shared, Option.some.injEq] at hcreate
      obtain rfl := hcreate
      rw [getOrCreateExperiment_eq, hnone]
      simp [State.giveBack]
  · cases hread

/-! ## What is kept -/

/-- **All in experiment `id`**: what was returned, what is held and what is
on record. -/
structure AllIn (id : Uuid) (s : State) : Prop where
  returned : ∀ p ∈ s.returned, p.2 = id
  holding : ∀ run id', s.phase run = .holding id' → id' = id
  assignments : ∀ k ∈ s.shared.assignments.keys, k.1 = id

/-- **No experiment and nothing in any**, or one that is open and
everything in it. -/
def Inv (s : State) : Prop :=
  s.shared.experiments = [] ∧ (∀ id, AllIn id s) ∨
    ∃ row : ExperimentRow, s.shared.experiments = [row] ∧ row.endedAt = none ∧ AllIn row.id s

theorem getActiveExperiment_eq_none {s : Experiment.State} :
    getActiveExperiment s = none ↔ openRows s = [] := by
  unfold getActiveExperiment openRows
  rw [List.head?_eq_none_iff, ← List.length_eq_zero_iff, List.length_insertionSort,
    List.length_eq_zero_iff]

theorem mem_of_getActiveExperiment {s : Experiment.State} {e : ExperimentRow}
    (h : getActiveExperiment s = some e) : e ∈ s.experiments := by
  unfold getActiveExperiment at h
  have hmem := List.mem_of_mem_head? (Option.mem_def.mpr h)
  exact List.mem_of_mem_filter ((List.mem_insertionSort _).mp hmem)

namespace AllIn

variable {id : Uuid}

theorem goto (h : AllIn id s) {p : Phase} (hp : ∀ id', p = .holding id' → id' = id) :
    AllIn id (s.goto run p) := by
  refine ⟨h.returned, ?_, h.assignments⟩
  intro run' id' hphase
  by_cases heq : run' = run
  · subst heq
    rw [State.goto_phase_self] at hphase
    exact hp id' hphase
  · rw [State.goto_phase_of_ne s p heq] at hphase
    exact h.holding run' id' hphase

theorem giveBack (h : AllIn id s) : AllIn id (s.giveBack run id) := by
  have hreturned : AllIn id { s with returned := s.returned ++ [(run, id)] } := by
    refine ⟨?_, h.holding, h.assignments⟩
    intro p hp
    rcases List.mem_append.mp hp with hp | hp
    · exact h.returned p hp
    · rw [List.mem_singleton.mp hp]
  refine hreturned.goto ?_
  intro id' hid'
  exact (Phase.holding.inj hid').symm

/-- Recorded arms are in the experiment they are recorded in. -/
theorem save (h : AllIn id s) (arms : Dict String Arm) :
    AllIn id { s with shared := saveArmAssignments s.shared id arms } := by
  refine ⟨h.returned, h.holding, ?_⟩
  unfold saveArmAssignments
  dsimp only
  have hkeys := h.assignments
  generalize s.shared.assignments = d at hkeys
  induction arms.entries generalizing d with
  | nil => exact hkeys
  | cons p l ih =>
      refine ih _ ?_
      intro k hk
      rcases Dict.mem_keys_setDefault.mp hk with rfl | hk
      · rfl
      · exact hkeys k hk

end AllIn

/-- **A step keeps one experiment**, if a create comes in time. -/
theorem inv_step (h : Inv s) (hstep : Step env runs s a s') (htime : InTime s a) : Inv s' := by
  unfold Step step at hstep
  cases a with
  | read run now =>
      dsimp only at hstep
      split at hstep
      · split at hstep
        · rename_i existing hactive
          obtain rfl := Option.some.inj hstep
          rcases h with ⟨hnone, -⟩ | ⟨row, hrows, hopen, hall⟩
          · have hmem := mem_of_getActiveExperiment hactive
            rw [hnone] at hmem
            exact absurd hmem List.not_mem_nil
          · have hmem := mem_of_getActiveExperiment hactive
            rw [hrows, List.mem_singleton] at hmem
            subst hmem
            exact Or.inr ⟨existing, hrows, hopen, hall.giveBack⟩
        · obtain rfl := Option.some.inj hstep
          rcases h with ⟨hnone, hall⟩ | ⟨row, hrows, hopen, hall⟩
          · exact Or.inl ⟨hnone, fun id => (hall id).goto nofun⟩
          · exact Or.inr ⟨row, hrows, hopen, hall.goto nofun⟩
      · cases hstep
  | create run =>
      dsimp only at hstep
      split at hstep
      · rename_i now hphase
        obtain rfl := Option.some.inj hstep
        have hnone : openRows s.shared = [] := getActiveExperiment_eq_none.mp htime
        rcases h with ⟨hempty, hall⟩ | ⟨row, hrows, hopen, -⟩
        · have hcreated : AllIn s.shared.nextId { s with shared := (createExperiment s.shared
              (runs run).settings.measurementControlPct
              (runs run).settings.measurementNaivePct now).1 } :=
            ⟨(hall _).returned, (hall _).holding, (hall _).assignments⟩
          refine Or.inr ⟨⟨s.shared.nextId, (runs run).settings.measurementControlPct,
            (runs run).settings.measurementNaivePct, now, none⟩, ?_, rfl, hcreated.giveBack⟩
          show s.shared.experiments ++ _ = _
          rw [hempty]
          rfl
        · unfold openRows at hnone
          rw [hrows] at hnone
          simp [hopen] at hnone
      · cases hstep
  | save run =>
      dsimp only at hstep
      split at hstep
      · rename_i id hphase
        obtain ⟨arms, -, rfl⟩ := Option.map_eq_some_iff.mp hstep
        have hsaved : ∀ id', AllIn id' s → AllIn id' ({ s with
            shared := saveArmAssignments s.shared id arms }.goto run .assigned) := by
          intro id' hall
          obtain rfl := hall.holding run id hphase
          exact (hall.save arms).goto nofun
        rcases h with ⟨hnone, hall⟩ | ⟨row, hrows, hopen, hall⟩
        · exact Or.inl ⟨hnone, fun id' => hsaved id' (hall id')⟩
        · exact Or.inr ⟨row, hrows, hopen, hsaved row.id hall⟩
      · cases hstep
  | fail run =>
      obtain rfl := Option.some.inj hstep
      rcases h with ⟨hnone, hall⟩ | ⟨row, hrows, hopen, hall⟩
      · exact Or.inl ⟨hnone, fun id => (hall id).goto nofun⟩
      · exact Or.inr ⟨row, hrows, hopen, hall.goto nofun⟩

theorem inv_initial : Inv initial := by
  refine Or.inl ⟨rfl, fun id => ⟨?_, ?_, ?_⟩⟩
  · exact fun p hp => absurd hp List.not_mem_nil
  · exact fun run id' hphase => nomatch hphase
  · exact fun k hk => absurd hk List.not_mem_nil

/-- **The invariant is what was asked for.** -/
theorem Inv.singleExperiment (h : Inv s) : SingleExperiment s := by
  have hall : ∃ id, AllIn id s := by
    rcases h with ⟨-, hall⟩ | ⟨row, -, -, hall⟩
    · exact ⟨0, hall 0⟩
    · exact ⟨row.id, hall⟩
  obtain ⟨id, hall⟩ := hall
  refine ⟨?_, ?_, ?_⟩
  · unfold openRows
    rcases h with ⟨hnone, -⟩ | ⟨row, hrows, -, -⟩
    · rw [hnone]
      exact Nat.zero_le 1
    · rw [hrows]
      exact List.length_filter_le _ [row]
  · intro p hp q hq
    rw [hall.returned p hp, hall.returned q hq]
  · intro unit id₁ id₂ h₁ h₂
    have hid₁ : id₁ = id := hall.assignments _ h₁
    have hid₂ : id₂ = id := hall.assignments _ h₂
    rw [hid₁, hid₂]

/-- **A create that comes late opens another experiment.** -/
theorem two_open_of_create (hstep : Step env runs s (.create run) s')
    (hlate : getActiveExperiment s.shared ≠ none) : 1 < (openRows s'.shared).length := by
  unfold Step step at hstep
  dsimp only at hstep
  split at hstep
  · obtain rfl := Option.some.inj hstep
    have hopen : 0 < (openRows s.shared).length :=
      List.length_pos_of_ne_nil fun hnil => hlate (getActiveExperiment_eq_none.mpr hnil)
    show 1 < (openRows (createExperiment s.shared _ _ _).1).length
    unfold openRows createExperiment at *
    rw [List.filter_append, List.length_append]
    simp only [List.filter_cons, decide_true, if_true, List.filter_nil, List.length_singleton]
    omega
  · cases hstep

variable {tr : List (Transition State Action)}

/-- **One experiment exactly when every create comes in time.** For any
number of runs on any number of replicas, over every interleaving of their
statements: all runs measure one experiment in every state reached, if and
only if no create commits while an experiment is open. -/
theorem singleExperiment_iff (hrun : Run (Step env runs) initial tr s) :
    (∀ t ∈ tr, SingleExperiment t.post) ↔ ∀ t ∈ tr, InTime t.pre t.act := by
  constructor
  · intro hsingle t ht
    obtain ⟨-, -, -, hstep⟩ := hrun.exists_prefix ht
    cases hact : t.act with
    | create run =>
        by_contra hlate
        rw [hact] at hstep
        have htwo := two_open_of_create hstep hlate
        have hone := (hsingle t ht).atMostOneOpen
        omega
    | read run now => trivial
    | save run => trivial
    | fail run => trivial
  · intro htime t ht
    obtain ⟨tr₀, hpre, hrun₀, hstep⟩ := hrun.exists_prefix ht
    have hbefore : Inv t.pre := hrun₀.invariant (G := InTime)
      (fun t' ht' => htime t' (hpre.subset (List.mem_append_left _ ht'))) inv_initial
      fun _ _ _ h hstep htime => inv_step h hstep htime
    exact (inv_step hbefore hstep (htime t ht)).singleExperiment

/-- Runs of `user1` under the default percentages. -/
def sampleRuns (_ : Uuid) : Allocation ℚ := sampleAllocation 20 20 0

/-- Two replicas, one after the other. -/
theorem singleExperiment_iff_sequential : ∃ tr s, Run (Step sampleEnv sampleRuns) initial tr s ∧
    s.returned = [(1, 0), (2, 0)] ∧ ∀ t ∈ tr, SingleExperiment t.post := by
  have hacts : (([.read 1 0, .create 1, .read 2 5, .save 2, .save 1] : List Action).foldlM
      (fun s a => if InTime s a then step sampleEnv sampleRuns s a else none) initial).map
        State.returned = some [(1, 0), (2, 0)] := by decide +kernel
  obtain ⟨s, hs, hreturned⟩ := Option.map_eq_some_iff.mp hacts
  obtain ⟨tr, hrun, htime⟩ := Run.exists_of_foldlM_guard hs
  exact ⟨tr, s, hrun, hreturned, (singleExperiment_iff hrun).mpr htime⟩

/-- **Two replicas may open two experiments**: both read before either
creates, and `user1` is assigned an arm in each. -/
theorem not_singleExperiment : ∃ tr s, Run (Step sampleEnv sampleRuns) initial tr s ∧
    (openRows s.shared).length = 2 ∧ s.returned = [(1, 0), (2, 1)] ∧
    s.shared.assignments.keys = [(0, user1), (1, user1)] ∧ ¬ SingleExperiment s := by
  have hacts : (([.read 1 0, .read 2 0, .create 1, .create 2, .save 1, .save 2] :
      List Action).foldlM (step sampleEnv sampleRuns) initial).map (fun s =>
        ((openRows s.shared).length, s.returned, s.shared.assignments.keys)) =
          some (2, [(1, 0), (2, 1)], [(0, user1), (1, user1)]) := by decide +kernel
  obtain ⟨s, hs, hend⟩ := Option.map_eq_some_iff.mp hacts
  obtain ⟨tr, hrun⟩ := Run.exists_of_foldlM hs
  simp only [Prod.mk.injEq] at hend
  obtain ⟨hopen, hreturned, hkeys⟩ := hend
  refine ⟨tr, s, hrun, hopen, hreturned, hkeys, ?_⟩
  intro hsingle
  have hone := hsingle.atMostOneOpen
  omega

end Replicas

end Experiment

end RetentionEngine
