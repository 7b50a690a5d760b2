import RetentionEngine.Common.Run
import RetentionEngine.Explain.Template
import RetentionEngine.Pipeline.Persist
import Mathlib.Data.Rat.Floor

/-!
# EXPLAIN

`_explain` of `worker.pipeline` with `narrate_or_fallback` and
`save_narration`, over any sequence of executions of a tenant's runs. Each
store call commits on its own; an execution may raise or die between any
two of them, and the narrator answers each question anew.

The table `narrations` keeps the first text of a fact sheet, and PERSIST
writes the text of the execution at hand. `oneText_of_repeats` says when
the two agree.
-/

namespace RetentionEngine

namespace Explain

open Pipeline
open Python (roundTo)

variable {K : Type}

/-- What EXPLAIN reads of a run beside its scores. -/
structure Reads (K : Type) where
  riskModelOf : String → String
  externalSignalContributionOf : String → K
  impactModelOf : String → String
  snapshotOf : String → Option (CircleSnapshot K)
  signalOf : String → Option (SignalFacts K)
  displayNames : String → Option String
  activityWindowDays : ℤ

section Sheet

variable [Field K] [LinearOrder K] (settings : PipelineSettings K) (run : ScoredRun K)
  (reads : Reads K)

/-- `run.risk[user]`. -/
def riskOf (user : String) : RiskScore K where
  churnRisk := run.churnRiskOf user
  model := reads.riskModelOf user
  externalSignalContribution := reads.externalSignalContributionOf user

/-- `statistics.fmean`. -/
def fmean (values : List K) : K := values.sum / values.length

/-- `risk` of a group; `member_risk[0]` raises without members. -/
def groupRisk : List String → Option (RiskScore K)
  | [] => none
  | m :: members => some
      { riskOf run reads m with
        churnRisk := fmean ((m :: members).map fun u => (riskOf run reads u).churnRisk)
        externalSignalContribution :=
          fmean ((m :: members).map fun u => (riskOf run reads u).externalSignalContribution) }

/-- `impact_score` of a group; `run.impact[m]` raises for a member without. -/
def groupImpact (members : List String) : Option (ImpactScore K × String) := do
  let scores ← members.mapM run.impact.get?
  some (⟨fmean (scores.map ImpactScore.pIncentivized),
    fmean (scores.map ImpactScore.pNotIncentivized)⟩, reads.impactModelOf (members.headD ""))

/-- `allocation`. -/
def allocationFacts (a : Allocated K) (p : Pick K) : AllocationFacts K :=
  if p.arm = .engine then
    .engine a.allocation.strategy a.allocation.budgetIdr a.allocation.spentIdr
      ((a.allocation.decisions.filter fun d => d.selected).map
        AllocationDecision.choiceKey).dedup.length p.rank
  else .naive RankingStrategy.naiveRiskOnly.value settings.measurementNaiveRiskThreshold

variable [FloorRing K]

/-- `_reason_factors`. -/
def reasonFactors (user : String) : List (ReasonFactor K) :=
  let risk := riskOf run reads user
  [⟨"CHURN_RISK", "INCREASES_RISK", roundTo 4 risk.churnRisk, []⟩] ++
  ((reads.snapshotOf user).toList.filter fun snap =>
    snap.circleSize ≠ 0 ∧ snap.deltaStability < 0).map (fun snap =>
      ⟨"CIRCLE_DESTABILIZING", "INCREASES_RISK", roundTo 4 (-snap.deltaStability),
        [("pattern_type", snap.patternType.value)]⟩) ++
  (if risk.externalSignalContribution = 0 then []
    else [⟨"EXTERNAL_SIGNAL",
      if 0 < risk.externalSignalContribution then "INCREASES_RISK" else "DECREASES_RISK",
      roundTo 4 |risk.externalSignalContribution|, []⟩]) ++
  (run.impact.get? user).toList.map fun i =>
    ⟨"IMPACT_SCORE", "SUPPORTS_PICK", roundTo 4 i.impactScore, []⟩

/-- The fact sheet of a pick. -/
def sheetOf (a : Allocated K) (p : Pick K) : Option (FactSheet K) :=
  let user := p.top.candidate.userPseudonym
  let sheet := fun risk impact circle signal subjectType =>
    buildFactSheet p.top risk impact circle p.policy (allocationFacts settings a p) p.runnerUp
      reads.displayNames signal p.arm subjectType
      (if truthy p.groupId then p.groupId else some user) (max p.members.length 1)
      reads.activityWindowDays (reasonFactors run reads user)
  if truthy p.groupId then do
    let risk ← groupRisk run reads p.members
    let impact ← groupImpact run reads p.members
    some (sheet risk (some impact) none none .group)
  else
    some (sheet (riskOf run reads user)
      ((run.impact.get? user).map fun i => (i, reads.impactModelOf user))
      (reads.snapshotOf user) (reads.signalOf user) .user)

end Sheet

/-! ## The narrator -/

/-- `fact_sheet_hash`, the digest of the sheet's JSON, and whether
`validate_narration` lets a text pass. -/
structure Explainer (K : Type) where
  factSheetHash : FactSheet K → String
  validateNarration : String → FactSheet K → Bool

/-- A narrator's answer. -/
inductive Reply
  | raised
  | text (text : String)
  deriving DecidableEq, Repr

/-- A text and its source. -/
structure Narrated where
  text : String
  source : String
  deriving DecidableEq, Repr

variable [Field K] [LinearOrder K] [FloorRing K] (x : Explainer K) (sheet : FactSheet K)

/-- The narrator's text, if there is a narrator (`some`), it answers and
its answer is valid. -/
def accepted (reply : Option Reply) : Option String :=
  match reply with
  | some (.text text) => if x.validateNarration text sheet then some text else none
  | _ => none

/-- What a sheet that is not cached is answered with. -/
def narrated (reply : Option Reply) : Narrated :=
  match accepted x sheet reply with
  | some text => ⟨text, "LLM"⟩
  | none => ⟨renderTemplate sheet, "TEMPLATE"⟩

/-- `narrate_or_fallback`, with the cache it leaves. -/
def narrateOrFallback (reply : Option Reply) (cache : Dict String Narrated) :
    Narrated × Dict String Narrated :=
  let key := x.factSheetHash sheet
  match cache.get? key with
  | some result => (result, cache)
  | none =>
      let result := narrated x sheet reply
      (result, cache.set key result)

/-- `save_narration`: `ON CONFLICT DO NOTHING`. -/
def saveNarration (narrations : Dict String Narrated) (digest : String) (n : Narrated) :
    Dict String Narrated :=
  narrations.setDefault digest n

/-! ## Executions -/

/-- What one execution reads and computes before EXPLAIN. -/
structure Inputs (K : Type) where
  store : StoreReads
  run : ScoredRun K
  regressor : Ranker.Regressor K
  reads : Reads K

/-- How far an execution has come. -/
inductive Progress (K : Type)
  /-- `save_circles` is committed. -/
  | graphed (i : Inputs K)
  /-- In EXPLAIN, or past it, with the cache and `run.narrations` so far. -/
  | explaining (i : Inputs K) (a : Allocated K) (cache : Dict String Narrated)
      (narrations : List Narration)
  /-- The recommendations are committed. -/
  | persisted

/-- What all executions share. -/
structure Env (K : Type) where
  hashes : Hashes
  settings : PipelineSettings K
  tenant : Uuid
  explainer : Explainer K

/-- The tables of the tenant, and the execution that is going on. -/
structure State (K : Type) where
  tables : Tables K
  narrations : Dict String Narrated
  execution : Option (StoreCache × Progress K)

/-- What happens next. -/
inductive Action (K : Type)
  /-- An execution starts and comes to `save_circles`. -/
  | saveCircles (i : Inputs K)
  /-- POLICY, RANK and ALLOCATE, up to `save_allocation`. -/
  | saveAllocation
  /-- The next pick is explained; `reply` is what the narrator, if there
  is one, answers when asked. -/
  | narrate (reply : Option Reply)
  /-- PERSIST commits the recommendations. -/
  | createRecommendations (now : Timestamp)
  /-- The execution ends: it is done, a call raises or the process dies. -/
  | stop

/-- The pick EXPLAIN is at: its fact sheet, and the cache. -/
def State.pending (env : Env K) (s : State K) : Option (FactSheet K × Dict String Narrated) :=
  match s.execution with
  | some (_, .explaining i a cache narrations) => do
      let p ← a.picks[narrations.length]?
      let sheet ← sheetOf env.settings i.run i.reads a p
      some (sheet, cache)
  | _ => none

/-- `run.narrations`, as PERSIST reads it. -/
def narrationOf (narrations : List Narration) (n : ℕ) : Narration :=
  narrations.getD n ⟨"", "", ""⟩

/-- **One store call of the execution.** -/
def step (env : Env K) (s : State K) : Action K → Option (State K)
  | .saveCircles i =>
      if s.execution.isNone then
        let (tables, cache) := Pipeline.saveCircles s.tables .fresh
          (i.run.circles env.hashes env.settings)
        some { s with tables := tables, execution := some (cache, .graphed i) }
      else none
  | .saveAllocation =>
      match s.execution with
      | some (cache, .graphed i) =>
          (decisionStages env.hashes env.settings i.store i.run i.regressor).map fun a =>
            let (tables, cache) := Pipeline.saveAllocation s.tables cache a
            { s with tables := tables, execution := some (cache, .explaining i a .empty []) }
      | _ => none
  | .narrate reply =>
      match s.execution with
      | some (cache, .explaining i a texts narrations) => do
          let p ← a.picks[narrations.length]?
          let sheet ← sheetOf env.settings i.run i.reads a p
          let (n, texts) := narrateOrFallback env.explainer sheet reply texts
          let digest := env.explainer.factSheetHash sheet
          some { s with
            narrations := saveNarration s.narrations digest n
            execution := some (cache, .explaining i a texts
              (narrations ++ [⟨n.text, n.source, digest⟩])) }
      | _ => none
  | .createRecommendations now =>
      match s.execution with
      | some (cache, .explaining i a _ narrations) =>
          if narrations.length = a.picks.length then
            match Pipeline.createRecommendations s.tables cache env.tenant now
                (recommendations env.hashes i.run (narrationOf narrations) a.picks) with
            | .ok tables => some { s with tables := tables, execution := some (cache, .persisted) }
            | .error _ => some { s with execution := none }
          else none
      | _ => none
  | .stop => some { s with execution := none }

/-- The step relation. -/
def Step (env : Env K) (s : State K) (a : Action K) (s' : State K) : Prop :=
  step env s a = some s'

/-- Nothing recommended, nothing narrated. -/
def initial : State K := ⟨⟨.empty, [], [], 0⟩, .empty, none⟩

/-- **One text for a fact sheet**: recommendations with one hash have one
text, the one that is stored for the hash. -/
structure OneText (s : State K) : Prop where
  stored : ∀ row ∈ s.tables.recommendations, ∀ digest ∈ row.factSheetHash,
    ∃ n ∈ s.narrations.get? digest, row.reasonText = some n.text
  same : ∀ row ∈ s.tables.recommendations, ∀ row' ∈ s.tables.recommendations,
    row.factSheetHash ≠ none → row.factSheetHash = row'.factSheetHash →
      row.reasonText = row'.reasonText

/-- The narrator answers with the stored text, or has no valid answer and
the stored text is the template's. -/
def Repeats (reply : Option Reply) (stored : Narrated) : Prop :=
  reply = some (.text stored.text) ∧ x.validateNarration stored.text sheet ∨
    accepted x sheet reply = none ∧ stored.text = renderTemplate sheet

instance (reply : Option Reply) (stored : Narrated) : Decidable (Repeats x sheet reply stored) :=
  inferInstanceAs (Decidable (_ ∨ _))

/-- **No second text**: a fact sheet that is narrated anew, its hash being
stored by an earlier execution, is narrated as before. -/
def NoSecondText (env : Env K) (s : State K) : Action K → Prop
  | .narrate reply =>
      match s.pending env with
      | some (sheet, cache) =>
          cache.get? (env.explainer.factSheetHash sheet) = none →
            ∀ stored ∈ s.narrations.get? (env.explainer.factSheetHash sheet),
              Repeats env.explainer sheet reply stored
      | none => True
  | _ => True

instance (env : Env K) (s : State K) : DecidablePred (NoSecondText env s) := by
  intro a
  unfold NoSecondText
  split
  · split <;> infer_instance
  · infer_instance

/-! ## What is kept -/

/-- The text is the one stored for the hash. -/
def Keeps (narrations : Dict String Narrated) (digest text : String) : Prop :=
  ∃ n ∈ narrations.get? digest, text = n.text

/-- The cache and `run.narrations` have stored texts only. -/
def Progress.Sound (narrations : Dict String Narrated) : Progress K → Prop
  | .explaining _ _ texts done =>
      (∀ key n, texts.get? key = some n → Keeps narrations key n.text) ∧
        ∀ n ∈ done, Keeps narrations n.factSheetHash n.text
  | _ => True

/-- The invariant of the executions. -/
structure Inv (s : State K) : Prop where
  rows : ∀ row ∈ s.tables.recommendations, ∀ digest ∈ row.factSheetHash,
    ∃ n ∈ s.narrations.get? digest, row.reasonText = some n.text
  execution : ∀ e ∈ s.execution, e.2.Sound s.narrations

variable {x sheet} {env : Env K} {s s' : State K} {narrations : Dict String Narrated}
  {digest text : String}

omit [Field K] [LinearOrder K] [FloorRing K] in
theorem inv_initial : Inv (initial : State K) :=
  ⟨fun row hrow => absurd hrow List.not_mem_nil, fun e he => by cases he⟩

/-- A save never replaces a text. -/
theorem Keeps.save (h : Keeps narrations digest text) (digest' : String) (n : Narrated) :
    Keeps (saveNarration narrations digest' n) digest text := by
  obtain ⟨stored, hstored, htext⟩ := h
  refine ⟨stored, ?_, htext⟩
  rw [Option.mem_def] at hstored ⊢
  rw [saveNarration, Dict.get?_setDefault]
  split
  · rename_i heq
    rw [← heq, hstored]
    rfl
  · exact hstored

theorem get?_saveNarration (digest : String) (n : Narrated) :
    (saveNarration narrations digest n).get? digest = some ((narrations.get? digest).getD n) := by
  rw [saveNarration, Dict.get?_setDefault, if_pos rfl]

theorem Repeats.narrated_text {reply : Option Reply} {stored : Narrated}
    (h : Repeats x sheet reply stored) : (narrated x sheet reply).text = stored.text := by
  unfold narrated
  rcases h with ⟨rfl, hvalid⟩ | ⟨hnone, htemplate⟩
  · simp [accepted, hvalid]
  · simp only [hnone, htemplate]

/-- **A narrated text is the stored one** after the save, if it is not a
second one. -/
theorem narrateOrFallback_keeps {reply : Option Reply} {texts : Dict String Narrated}
    (htexts : ∀ key n, texts.get? key = some n → Keeps narrations key n.text)
    (hrep : texts.get? (x.factSheetHash sheet) = none →
      ∀ stored ∈ narrations.get? (x.factSheetHash sheet), Repeats x sheet reply stored) :
    let r := narrateOrFallback x sheet reply texts
    let narrations' := saveNarration narrations (x.factSheetHash sheet) r.1
    Keeps narrations' (x.factSheetHash sheet) r.1.text ∧
      ∀ key n, r.2.get? key = some n → Keeps narrations' key n.text := by
  unfold narrateOrFallback
  dsimp only
  cases hcache : texts.get? (x.factSheetHash sheet) with
  | some result =>
      exact ⟨(htexts _ _ hcache).save _ _, fun key n hn => (htexts key n hn).save _ _⟩
  | none =>
      dsimp only
      have hnew : Keeps (saveNarration narrations (x.factSheetHash sheet) (narrated x sheet reply))
          (x.factSheetHash sheet) (narrated x sheet reply).text := by
        refine ⟨_, get?_saveNarration _ _, ?_⟩
        cases hstored : narrations.get? (x.factSheetHash sheet) with
        | none => rfl
        | some stored => exact (hrep hcache stored hstored).narrated_text
      refine ⟨hnew, ?_⟩
      intro key n hn
      rw [Dict.get?_set] at hn
      split at hn
      · rename_i hkey
        obtain rfl := Option.some.inj hn
        exact hkey ▸ hnew
      · exact (htexts key n hn).save _ _

omit [Field K] [LinearOrder K] [FloorRing K] in
/-- A step that narrates nothing. -/
theorem Inv.stay (h : Inv s) {e : Option (StoreCache × Progress K)} {tables : Tables K}
    (hrecs : tables.recommendations = s.tables.recommendations)
    (he : ∀ e' ∈ e, e'.2.Sound s.narrations) :
    Inv { s with tables := tables, execution := e } :=
  ⟨hrecs ▸ h.rows, he⟩

omit [Field K] [LinearOrder K] [FloorRing K] in
theorem saveCircles_recommendations (tables : Tables K) (cache : StoreCache)
    (circles : List Circle) :
    (Pipeline.saveCircles tables cache circles).1.recommendations = tables.recommendations := by
  unfold Pipeline.saveCircles
  induction circles generalizing tables cache with
  | nil => rfl
  | cons c l ih => exact ih _ _

omit [Field K] [LinearOrder K] [FloorRing K] in
/-- **The narrated texts are those PERSIST writes**, each with the hash of
its sheet. -/
theorem exists_narration {h : Hashes} {run : ScoredRun K} {picks : List (Pick K)}
    {done : List Narration} (hlength : done.length = picks.length)
    {rec : Recommendation K} (hrec : rec ∈ recommendations h run (narrationOf done) picks) :
    ∃ n ∈ done, rec.reasonText = n.text ∧ rec.factSheetHash = n.factSheetHash := by
  obtain ⟨⟨p, n⟩, hp, rfl⟩ := List.mem_map.mp hrec
  have hn : n < done.length := by
    rw [hlength]
    exact (List.getElem?_eq_some_iff.mp (List.mem_zipIdx_iff_getElem?.mp hp)).1
  refine ⟨done[n], List.getElem_mem hn, ?_⟩
  simp [recommendation, narrationOf, hn]

/-- **The commit of the recommendations** writes stored texts. -/
theorem Inv.createRecommendations (h : Inv s) {cache : StoreCache} {i : Inputs K}
    {picks : List (Pick K)} {done : List Narration} {now : Timestamp} {tables : Tables K}
    (hdone : ∀ n ∈ done, Keeps s.narrations n.factSheetHash n.text)
    (hlength : done.length = picks.length)
    (hcreate : Pipeline.createRecommendations s.tables cache env.tenant now
      (recommendations env.hashes i.run (narrationOf done) picks) = .ok tables) :
    Inv { s with tables := tables, execution := some (cache, .persisted) } := by
  obtain ⟨-, -, allocationRunId, rows, hrecs, hrows⟩ := createRecommendations_rows hcreate
  refine ⟨?_, fun e he => Option.some.inj he ▸ trivial⟩
  intro row hrow digest hdigest
  rw [hrecs] at hrow
  rcases List.mem_append.mp hrow with hold | hnew
  · exact h.rows row hold digest hdigest
  · obtain ⟨rec, hrec, id, circleId, -, rfl⟩ := exists_left_of_forall₂ hrows hnew
    obtain ⟨n, hn, htext, hhash⟩ := exists_narration hlength hrec
    obtain rfl : rec.factSheetHash = digest := Option.some.inj hdigest
    obtain ⟨stored, hstored, hsame⟩ := hdone n hn
    refine ⟨stored, hhash ▸ hstored, ?_⟩
    rw [← hsame, ← htext]
    rfl

/-- **A narration that gives no second text keeps the invariant**: what it
stores and what it adds to `run.narrations` is one text. -/
theorem Inv.narrate (h : Inv s) {cache : StoreCache} {i : Inputs K} {a : Allocated K}
    {texts : Dict String Narrated} {done : List Narration} {reply : Option Reply}
    (hexec : s.execution = some (cache, .explaining i a texts done))
    (hgood : texts.get? (env.explainer.factSheetHash sheet) = none →
      ∀ stored ∈ s.narrations.get? (env.explainer.factSheetHash sheet),
        Repeats env.explainer sheet reply stored) :
    let n := narrateOrFallback env.explainer sheet reply texts
    let digest := env.explainer.factSheetHash sheet
    Inv { s with
      narrations := saveNarration s.narrations digest n.1
      execution := some (cache, .explaining i a n.2
        (done ++ [⟨n.1.text, n.1.source, digest⟩])) } := by
  obtain ⟨htexts, hdone⟩ : Progress.Sound s.narrations (.explaining i a texts done) :=
    h.execution _ hexec
  obtain ⟨hnew, hcache⟩ := narrateOrFallback_keeps htexts hgood
  refine ⟨?_, fun e he => Option.some.inj he ▸ ⟨hcache, ?_⟩⟩
  · intro row hrow digest hdigest
    obtain ⟨stored, hstored, htext⟩ := h.rows row hrow digest hdigest
    have hkeeps : Keeps s.narrations digest stored.text := ⟨stored, hstored, rfl⟩
    obtain ⟨stored', hstored', htext'⟩ := hkeeps.save _ _
    exact ⟨stored', hstored', htext.trans (congrArg some htext')⟩
  · intro n hn
    rcases List.mem_append.mp hn with hn | hn
    · exact (hdone n hn).save _ _
    · obtain rfl := List.mem_singleton.mp hn
      exact hnew

/-- **Every step that gives no second text keeps the invariant.** -/
theorem inv_step {a : Action K} (h : Inv s) (hstep : Step env s a s')
    (hgood : NoSecondText env s a) : Inv s' := by
  unfold Step step at hstep
  cases a with
  | saveCircles i =>
      dsimp only at hstep
      split at hstep
      · obtain rfl := Option.some.inj hstep
        exact h.stay (saveCircles_recommendations _ _ _) fun e he => Option.some.inj he ▸ trivial
      · cases hstep
  | saveAllocation =>
      dsimp only at hstep
      split at hstep
      · obtain ⟨a, -, rfl⟩ := Option.map_eq_some_iff.mp hstep
        refine h.stay rfl fun e he => Option.some.inj he ▸ ⟨?_, nofun⟩
        intro key n hn
        cases hn
      · cases hstep
  | narrate reply =>
      dsimp only at hstep
      split at hstep
      · rename_i cache i a texts done hexec
        obtain ⟨p, hp, hstep⟩ := Option.bind_eq_some_iff.mp hstep
        obtain ⟨sheet, hsheet, hstep⟩ := Option.bind_eq_some_iff.mp hstep
        obtain rfl := Option.some.inj hstep
        have hpending : s.pending env = some (sheet, texts) := by
          unfold State.pending
          rw [hexec]
          simp [hp, hsheet]
        unfold NoSecondText at hgood
        dsimp only at hgood
        rw [hpending] at hgood
        exact h.narrate hexec hgood
      · cases hstep
  | createRecommendations now =>
      dsimp only at hstep
      split at hstep
      · rename_i cache i a texts done hexec
        obtain ⟨-, hdone⟩ : Progress.Sound s.narrations (.explaining i a texts done) :=
          h.execution _ hexec
        rw [Option.ite_none_right_eq_some] at hstep
        obtain ⟨hlength, hstep⟩ := hstep
        split at hstep
        · rename_i tables hcreate
          obtain rfl := Option.some.inj hstep
          exact h.createRecommendations hdone hlength hcreate
        · obtain rfl := Option.some.inj hstep
          exact h.stay rfl nofun
      · cases hstep
  | stop =>
      obtain rfl := Option.some.inj hstep
      exact h.stay rfl nofun

omit [Field K] [LinearOrder K] [FloorRing K] in
/-- Rows with stored texts have one text for each hash. -/
theorem Inv.oneText (h : Inv s) : OneText s := by
  refine ⟨h.rows, ?_⟩
  intro row hrow row' hrow' hne heq
  obtain ⟨digest, hdigest⟩ := Option.ne_none_iff_exists'.mp hne
  obtain ⟨n, hn, htext⟩ := h.rows row hrow digest hdigest
  obtain ⟨n', hn', htext'⟩ := h.rows row' hrow' digest (heq ▸ hdigest)
  obtain rfl := Option.some.inj (hn.symm.trans hn')
  exact htext.trans htext'.symm

/-- **One fact sheet, one text, as long as the narrator repeats itself.**
In every state of a run of executions none of which narrates a stored
sheet anew in other words, recommendations with one hash have the text
that is stored for it. -/
theorem oneText_of_noSecondText {tr : List (Transition (State K) (Action K))}
    (h : Run (Step env) initial tr s) (hgood : ∀ t ∈ tr, NoSecondText env t.pre t.act) :
    OneText s := by
  have hinv : Inv s := h.invariant (G := fun s a => NoSecondText env s a) hgood
    inv_initial fun _ _ _ hinv hstep hg => inv_step hinv hstep hg
  exact hinv.oneText

/-! ## A run executed twice -/

/-- The sample tenant. A text without a digit has no number and, being
prose, no identifier; the digest is that of the one sheet that is made. -/
def sampleEnv : Env ℚ where
  hashes := sampleHashes
  settings := sampleSettings
  tenant := 1
  explainer :=
    { factSheetHash := fun _ => "77a94e8dde708c8a6ffbc56c24b8390d20e31f511b64d3dfb84d3da5256bb54d"
      validateNarration := fun text _ =>
        text ≠ "" && text.toList.all fun ch => ch ∉ "0123456789".toList }

/-- An execution for `user1`, who has no neighbours. -/
def loneInputs : Inputs ℚ where
  store := sampleStore
  run := loneRun
  regressor := zeroRegressor
  reads :=
    { riskModelOf := fun _ => "SKLEARN_RANDOM_FOREST"
      externalSignalContributionOf := fun _ => 0
      impactModelOf := fun _ => "SKLEARN_RANDOM_FOREST_TWO_MODEL"
      snapshotOf := fun _ => some ⟨0, 0, 0, 0, .stable⟩
      signalOf := fun _ => none
      displayNames := fun _ => some "Cashback Rp 10.000 on next payment"
      activityWindowDays := 30 }

/-- What the narrator says of the pick. -/
def loneText : String := "A cashback fits this user best. The data is synthetic."

/-- An execution that dies in PERSIST, and a second one of the same run in
which the narrator answers `reply`. -/
def loneRetry (reply : Option Reply) : List (Action ℚ) :=
  [.saveCircles loneInputs, .saveAllocation, .narrate (some (.text loneText)), .stop,
    .saveCircles loneInputs, .saveAllocation, .narrate reply, .createRecommendations 10]

/-- The narrator says the same again. -/
theorem oneText_of_noSecondText_lone :
    ∃ tr s, Run (Step sampleEnv) initial tr s ∧
      s.tables.recommendations.map (fun row => row.reasonText) = [some loneText] ∧ OneText s := by
  have hexec : ∃ s ∈ (loneRetry (some (.text loneText))).foldlM
      (fun s a => if NoSecondText sampleEnv s a then step sampleEnv s a else none) initial,
        s.tables.recommendations.map (fun row => row.reasonText) = [some loneText] := by
    decide +kernel
  obtain ⟨s, hs, hrow⟩ := hexec
  obtain ⟨tr, hrun, hG⟩ := Run.exists_of_foldlM_guard (G := NoSecondText sampleEnv) hs
  exact ⟨tr, s, hrun, hrow, oneText_of_noSecondText hrun hG⟩

/-- **A fact sheet may have two texts**: the narrator's text is stored, the
execution dies before its recommendations are committed, and when the run
is executed again the narrator fails, so the recommendation has the text
of the template. -/
theorem not_oneText :
    ¬ ∀ (env : Env ℚ) (tr : List (Transition (State ℚ) (Action ℚ))) (s : State ℚ),
      Run (Step env) initial tr s → OneText s := by
  intro hlaw
  have hexec : ∃ s ∈ (loneRetry (some .raised)).foldlM (step sampleEnv) initial,
      ¬ ∀ row ∈ s.tables.recommendations, ∀ digest ∈ row.factSheetHash,
        ∃ n ∈ s.narrations.get? digest, row.reasonText = some n.text := by decide +kernel
  obtain ⟨s, hs, htwo⟩ := hexec
  obtain ⟨tr, hrun⟩ := Run.exists_of_foldlM hs
  exact htwo (hlaw sampleEnv tr s hrun).stored

end Explain

end RetentionEngine
