import Mathlib.Data.List.Infix

/-!
# Runs of a transition system

A step relation `R s a s'` says that action `a` may take state `s` to
`s'`. A run carries its whole history: the list of its transitions, each
with the states on both sides, so that a property of a run may speak of
what happened earlier (`Run.exists_prefix` reads a transition back as the
end of a shorter run). The two rules below are the only inductions over
runs the development makes: `Run.invariant` for a property of states and
`Run.history` for a property of the history and the state it led to.
-/

namespace RetentionEngine

variable {σ α : Type*}

/-- One step of a run, with the states on both sides of it. -/
structure Transition (σ α : Type*) where
  pre : σ
  act : α
  post : σ

/-- **A finite run of `R` from `init`**: its transitions in order, and the
state it ends in. -/
inductive Run (R : σ → α → σ → Prop) (init : σ) : List (Transition σ α) → σ → Prop
  /-- The run that has not moved. -/
  | nil : Run R init [] init
  /-- One more step at the end. -/
  | snoc {tr : List (Transition σ α)} {s s' : σ} {a : α} :
      Run R init tr s → R s a s' → Run R init (tr ++ [⟨s, a, s'⟩]) s'

namespace Run

variable {R : σ → α → σ → Prop} {init : σ} {tr : List (Transition σ α)} {s : σ}

/-- **A transition of a run ends a shorter run.** -/
theorem exists_prefix (h : Run R init tr s) {t : Transition σ α} (ht : t ∈ tr) :
    ∃ tr₀, tr₀ ++ [t] <+: tr ∧ Run R init tr₀ t.pre ∧ R t.pre t.act t.post := by
  induction h with
  | nil => cases ht
  | @snoc tr s s' a hrun hstep ih =>
      rcases List.mem_append.mp ht with hmem | hlast
      · obtain ⟨tr₀, hpre, hrun₀, hR⟩ := ih hmem
        exact ⟨tr₀, hpre.trans (List.prefix_append _ _), hrun₀, hR⟩
      · rw [List.mem_singleton] at hlast
        subst hlast
        exact ⟨tr, List.prefix_rfl, hrun, hstep⟩

/-- Every beginning of a run is a run. -/
theorem of_prefix (h : Run R init tr s) {tr₀ : List (Transition σ α)} {t : Transition σ α}
    (hpre : tr₀ ++ [t] <+: tr) : Run R init tr₀ t.pre ∧ R t.pre t.act t.post := by
  induction h with
  | nil =>
      have hnil := List.prefix_nil.mp hpre
      exact absurd hnil (by simp)
  | @snoc tr s s' a hrun hstep ih =>
      rcases List.prefix_concat_iff.mp hpre with heq | hpre
      · obtain ⟨rfl, hlast⟩ := List.append_inj' heq rfl
        obtain rfl := List.singleton_inj.mp hlast
        exact ⟨hrun, hstep⟩
      · exact ih hpre

/-- **Executing a list of actions is a run** of the relation an
executable step function stands for, and a run whose steps meet `G` when
every action is checked against it. -/
theorem exists_of_foldlM_guard {step : σ → α → Option σ} {G : σ → α → Prop}
    [∀ s a, Decidable (G s a)] {acts : List α}
    (h : acts.foldlM (fun s a => if G s a then step s a else none) init = some s) :
    ∃ tr, Run (fun s a s' => step s a = some s') init tr s ∧ ∀ t ∈ tr, G t.pre t.act := by
  induction acts using List.reverseRecOn generalizing s with
  | nil =>
      obtain rfl : init = s := by simpa using h
      exact ⟨[], .nil, fun t ht => by cases ht⟩
  | append_singleton acts a ih =>
      rw [List.foldlM_append] at h
      obtain ⟨s₀, hs₀, hlast⟩ := Option.bind_eq_some_iff.mp h
      obtain ⟨tr, hrun, hG⟩ := ih hs₀
      simp only [List.foldlM_cons, List.foldlM_nil, Option.bind_eq_bind, Option.pure_def,
        Option.bind_fun_some, Option.ite_none_right_eq_some] at hlast
      refine ⟨_, hrun.snoc hlast.2, ?_⟩
      intro t ht
      rcases List.mem_append.mp ht with hmem | hmem
      · exact hG t hmem
      · rw [List.mem_singleton.mp hmem]
        exact hlast.1

theorem exists_of_foldlM {step : σ → α → Option σ} {acts : List α}
    (h : acts.foldlM step init = some s) :
    ∃ tr, Run (fun s a s' => step s a = some s') init tr s := by
  have hguard : acts.foldlM (fun s a => if True then step s a else none) init = some s := by
    simpa using h
  obtain ⟨tr, hrun, -⟩ := exists_of_foldlM_guard (G := fun _ _ => True) hguard
  exact ⟨tr, hrun⟩

/-- **The actions of the run are those executed.** -/
theorem exists_of_foldlM_acts {step : σ → α → Option σ} {acts : List α}
    (h : acts.foldlM step init = some s) :
    ∃ tr, Run (fun s a s' => step s a = some s') init tr s ∧ tr.map Transition.act = acts := by
  induction acts using List.reverseRecOn generalizing s with
  | nil =>
      obtain rfl : init = s := by simpa using h
      exact ⟨[], .nil, rfl⟩
  | append_singleton acts a ih =>
      rw [List.foldlM_append] at h
      obtain ⟨s₀, hs₀, hlast⟩ := Option.bind_eq_some_iff.mp h
      obtain ⟨tr, hrun, hacts⟩ := ih hs₀
      simp only [List.foldlM_cons, List.foldlM_nil, Option.bind_eq_bind, Option.pure_def,
        Option.bind_fun_some] at hlast
      refine ⟨_, hrun.snoc hlast, ?_⟩
      rw [List.map_append, hacts, List.map_singleton]

/-- The same for a step function that is total. -/
theorem exists_of_foldl (step : σ → α → σ) (init : σ) (acts : List α) :
    ∃ tr, Run (fun s a s' => step s a = s') init tr (acts.foldl step init) := by
  induction acts using List.reverseRecOn with
  | nil => exact ⟨[], .nil⟩
  | append_singleton acts a ih =>
      obtain ⟨tr, hrun⟩ := ih
      rw [List.foldl_append]
      exact ⟨_, hrun.snoc rfl⟩

/-- **The rule for histories.** A property of history and state that
holds at the start and is kept by every step meeting `G` holds of every
run all of whose steps meet `G`. -/
theorem history {G : σ → α → Prop} {P : List (Transition σ α) → σ → Prop}
    (h : Run R init tr s) (hG : ∀ t ∈ tr, G t.pre t.act) (h0 : P [] init)
    (hstep : ∀ tr s a s', Run R init tr s → P tr s → R s a s' → G s a →
      P (tr ++ [⟨s, a, s'⟩]) s') : P tr s := by
  induction h with
  | nil => exact h0
  | @snoc tr s s' a hrun hR ih =>
      have hlast : G s a := hG ⟨s, a, s'⟩ (by simp)
      exact hstep tr s a s' hrun (ih fun t ht => hG t (by simp [ht])) hR hlast

/-- **The rule for states**: an invariant every step meeting `G` keeps. -/
theorem invariant {G : σ → α → Prop} {I : σ → Prop}
    (h : Run R init tr s) (hG : ∀ t ∈ tr, G t.pre t.act) (h0 : I init)
    (hstep : ∀ s a s', I s → R s a s' → G s a → I s') : I s :=
  history (P := fun _ s => I s) h hG h0 fun _ s a s' _ => hstep s a s'

/-- The invariant of a system whose every step keeps it. -/
theorem invariant' {I : σ → Prop} (h : Run R init tr s) (h0 : I init)
    (hstep : ∀ s a s', I s → R s a s' → I s') : I s :=
  invariant (G := fun _ _ => True) h (fun _ _ => trivial) h0
    fun s a s' hs hR _ => hstep s a s' hs hR

/-- **A simulation takes runs to runs**: where every step from a state
meeting the invariant is one of `R'` between the images, so is the run. -/
theorem map {σ' α' : Type*} {R' : σ' → α' → σ' → Prop} {f : σ → σ'} {g : σ → α → α'}
    {I : σ → Prop} (h : Run R init tr s) (h0 : I init)
    (hstep : ∀ s a s', I s → R s a s' → I s')
    (hsim : ∀ s a s', I s → R s a s' → R' (f s) (g s a) (f s')) :
    Run R' (f init) (tr.map fun t => ⟨f t.pre, g t.pre t.act, f t.post⟩) (f s) := by
  induction h with
  | nil => exact .nil
  | @snoc tr s s' a hrun hR ih =>
      have hs : I s := hrun.invariant' h0 hstep
      rw [List.map_append, List.map_singleton]
      exact ih.snoc (hsim s a s' hs hR)

end Run

end RetentionEngine
