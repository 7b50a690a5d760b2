import RetentionEngine.Explain.ShownNumbers

/-!
# Whether the template passes

The text of a fact sheet as segments, each a literal and what is said after
it. Every literal closes what is before it, so that the validator finds in
the text what it finds in the texts and numbers of the sheet. It knows all of
them but the long runs of digits.
-/

namespace RetentionEngine

open Python (Text point text roundHalfEven roundTo text_append)
open Explain (Node OpenFactSheet)

/-! ## The fact sheet as dictionaries -/

section Open

variable {K : Type} [Field K]

/-- `_pick`. -/
def PickFacts.entries (p : PickFacts K) : List (Text × Node K) :=
  [(text "candidate_id", .str (text p.candidateId)),
    (text "incentive_code", .str (text p.incentiveCode)),
    (text "display_name", .str (text p.displayName)), (text "cost_idr", .num p.costIdr),
    (text "priority", .num p.priority), (text "ranking_strategy", .str (text p.rankingStrategy))]

/-- `risk`. -/
def RiskScore.entries (r : RiskScore K) : List (Text × Node K) :=
  [(text "churn_risk", .num r.churnRisk), (text "model", .str (text r.model)),
    (text "external_signal_contribution", .num r.externalSignalContribution)]

/-- `circle_facts`. -/
def CircleFacts.entries (c : CircleFacts K) : List (Text × Node K) :=
  [(text "circle_size", .num c.circleSize),
    (text "neighbor_activity_ratio_now", .num c.neighborActivityRatioNow),
    (text "neighbor_activity_ratio_30d_ago", .num c.neighborActivityRatio30dAgo),
    (text "delta_stability", .num c.deltaStability),
    (text "activity_window_days", .num c.activityWindowDays),
    (text "pattern_type", .str (text c.patternType))]

/-- `impact_facts`. -/
def ImpactFacts.entries (i : ImpactFacts K) : List (Text × Node K) :=
  [(text "p_incentivized", .num i.pIncentivized),
    (text "p_not_incentivized", .num i.pNotIncentivized),
    (text "impact_score", .num i.impactScore), (text "segment", .str (text i.segment)),
    (text "model", .str (text i.model))]

/-- `signal_facts`. -/
def SignalFacts.entries (s : SignalFacts K) : List (Text × Node K) :=
  [(text "scope_type", .str (text s.scopeType.value)), (text "scope_key", .str (text s.scopeKey)),
    (text "signal_type", .str (text s.signalType.value)), (text "value", .num s.value)]

/-- `allocation`, its keys in order. -/
def AllocationFacts.entries : AllocationFacts K → List (Text × Node K)
  | .engine strategy budgetIdr spentIdr selectedCount rank =>
      [(text "budget_idr", .num budgetIdr),
        (text "rank", rank.elim .null fun n => .num (n : K)),
        (text "selected_count", .num (selectedCount : K)), (text "spent_idr", .num spentIdr),
        (text "strategy", .str (text strategy))]
  | .naive strategy riskThreshold =>
      [(text "risk_threshold", .num riskThreshold), (text "strategy", .str (text strategy))]

/-- `f.model_dump(mode="json")` of a reason factor. -/
def ReasonFactor.entries (f : ReasonFactor K) : List (Text × Node K) :=
  [(text "code", .str (text f.code)), (text "direction", .str (text f.direction)),
    (text "weight", .num f.weight),
    (text "evidence", .dict (f.evidence.map fun e => (text e.1, .str (text e.2))))]

/-- The text of a subject type. -/
def SubjectType.value : SubjectType → String
  | user => "USER"
  | group => "GROUP"

/-- **A fact sheet with its dictionaries.** -/
def FactSheet.open (fs : FactSheet K) : OpenFactSheet K where
  subjectType := text fs.subjectType.value
  subjectRef := text fs.subjectRef
  memberCount := fs.memberCount
  arm := fs.arm
  topPick := fs.topPick.entries
  runnerUp := fs.runnerUp.map PickFacts.entries
  risk := fs.risk.entries
  circle := fs.circle.map CircleFacts.entries
  impact := fs.impact.map ImpactFacts.entries
  externalSignal := fs.externalSignal.map SignalFacts.entries
  policy := [(text "outcome", .str (text fs.policyOutcome)),
    (text "rules_checked", .list (fs.rulesChecked.map fun code => .str (text code)))]
  allocation := fs.allocation.entries
  reasonFactors := fs.reasonFactors.map ReasonFactor.entries
  syntheticData := true

end Open

namespace Explain

/-! ## What is in a node -/

section Holds

variable {K : Type} [Field K] [LinearOrder K] {u : Classes}

/-- The second node is in the first. -/
inductive Node.Holds : Node K → Node K → Prop
  | refl (n : Node K) : Holds n n
  | dict {entries : List (Text × Node K)} {e : Text × Node K} {n : Node K} :
      e ∈ entries → Holds e.2 n → Holds (.dict entries) n
  | list {elements : List (Node K)} {v n : Node K} :
      v ∈ elements → Holds v n → Holds (.list elements) n

omit [LinearOrder K] [Field K] in
theorem stringsOfEntries_eq (entries : List (Text × Node K)) :
    stringsOfEntries entries = entries.flatMap fun e => stringsOf e.2 := by
  induction entries with
  | nil => simp [stringsOfEntries]
  | cons e entries ih => rw [stringsOfEntries, ih, List.flatMap_cons]

omit [LinearOrder K] [Field K] in
theorem stringsOfElements_eq (elements : List (Node K)) :
    stringsOfElements elements = elements.flatMap stringsOf := by
  induction elements with
  | nil => simp [stringsOfElements]
  | cons v elements ih => rw [stringsOfElements, ih, List.flatMap_cons]

theorem numbersOfEntries_eq (entries : List (Text × Node K)) :
    numbersOfEntries u entries = entries.flatMap fun e => numbersOf u e.2 := by
  induction entries with
  | nil => simp [numbersOfEntries]
  | cons e entries ih => rw [numbersOfEntries, ih, List.flatMap_cons]

theorem numbersOfElements_eq (elements : List (Node K)) :
    numbersOfElements u elements = elements.flatMap (numbersOf u) := by
  induction elements with
  | nil => simp [numbersOfElements]
  | cons v elements ih => rw [numbersOfElements, ih, List.flatMap_cons]

omit [LinearOrder K] [Field K] in
/-- **The texts of a part** are texts of the whole. -/
theorem Node.Holds.mem_stringsOf {n m : Node K} (h : n.Holds m) {s : Text}
    (hs : s ∈ stringsOf m) : s ∈ stringsOf n := by
  induction h with
  | refl n => exact hs
  | dict he _ ih =>
      rw [stringsOf, stringsOfEntries_eq]
      exact List.mem_flatMap_of_mem he (ih hs)
  | list hv _ ih =>
      rw [stringsOf, stringsOfElements_eq]
      exact List.mem_flatMap_of_mem hv (ih hs)

/-- **So are its numbers.** -/
theorem Node.Holds.mem_numbersOf {n m : Node K} (h : n.Holds m) {x : K}
    (hx : x ∈ numbersOf u m) : x ∈ numbersOf u n := by
  induction h with
  | refl n => exact hx
  | dict he _ ih =>
      rw [numbersOf, numbersOfEntries_eq]
      exact List.mem_flatMap_of_mem he (ih hx)
  | list hv _ ih =>
      rw [numbersOf, numbersOfElements_eq]
      exact List.mem_flatMap_of_mem hv (ih hx)

end Holds

/-! ## Segments -/

variable {K : Type} [Field K] [LinearOrder K] [FloorRing K] {u : Classes}

/-- What is said between two literals. -/
inductive Piece (K : Type)
  | nothing
  | name (s : String)
  | amount (x : ℤ)
  | count (x : ℤ)
  | percent (p : K)
  | decimals (x : K)

/-- The text of a piece; the sign of a percentage is part of a literal. -/
def Piece.shown : Piece K → Text
  | nothing => []
  | name s => text s
  | amount x => text (idr x)
  | count x => text (toString x)
  | percent p => text (toString (roundHalfEven (p * ((100 : ℕ) : K))))
  | decimals x => text (fixed2 x)

/-- The digits of a piece that are not grouped, before its decimals. -/
def Piece.ungrouped : Piece K → ℕ
  | nothing => 0
  | name _ => 0
  | amount _ => 0
  | count x => x.natAbs
  | percent p => cents p
  | decimals x => cents x / 100

/-- A dump holds what a piece says. -/
def Piece.From (dump : Node K) : Piece K → Prop
  | nothing => True
  | name s => dump.Holds (.str (text s))
  | amount x => dump.Holds (.num x)
  | count x => dump.Holds (.num x)
  | percent p => dump.Holds (.num p)
  | decimals x => dump.Holds (.num x)

/-- Segments, and what stands at the end. -/
def spell (segments : List (String × Piece K)) (closing : Text) : Text :=
  segments.flatMap (fun s => text s.1 ++ s.2.shown) ++ closing

theorem spell_append (a b : List (String × Piece K)) (closing : Text) :
    spell (a ++ b) closing = spell a (spell b closing) := by
  unfold spell
  rw [List.flatMap_append, List.append_assoc]

theorem spell_cons (s : String × Piece K) (segments : List (String × Piece K)) (closing : Text) :
    spell (s :: segments) closing = text s.1 ++ (s.2.shown ++ spell segments closing) := by
  unfold spell
  rw [List.flatMap_cons, List.append_assoc, List.append_assoc]

/-- A literal between two pieces. -/
def Between (s : String × Piece K) : Prop := Closes (text s.1) ∧ Follows (text s.1)

section Reading

variable {segments : List (String × Piece K)} {s : String × Piece K} {q closing : Text}

/-- After a text, each piece is searched on its own for identifiers. -/
theorem hexIds_append_spell (hs : ∀ s ∈ segments, Between s) (hplain : Plain closing)
    (hfollows : Follows closing) : hexIds u (q ++ spell segments closing) =
      hexIds u q ++ segments.flatMap fun s => hexIds u s.2.shown := by
  induction segments generalizing q with
  | nil =>
      rw [List.flatMap_nil, List.append_nil]
      exact hexIds_append_plain hplain hfollows
  | cons s segments ih =>
      obtain ⟨hcloses, hf⟩ := hs s List.mem_cons_self
      rw [spell_cons, hexIds_append_closes hcloses (Or.inr hf),
        ih fun s hs' => hs s (List.mem_cons_of_mem _ hs'), List.flatMap_cons]

/-- And for numbers. -/
theorem extractNumbers_append_spell (hs : ∀ s ∈ segments, Between s) (hplain : Plain closing)
    (hfollows : Follows closing) :
    (extractNumbers u (q ++ spell segments closing) : List (List K)) =
      extractNumbers u q ++ segments.flatMap fun s => extractNumbers u s.2.shown := by
  induction segments generalizing q with
  | nil =>
      rw [List.flatMap_nil, List.append_nil]
      exact extractNumbers_append_plain hplain hfollows
  | cons s segments ih =>
      obtain ⟨hcloses, hf⟩ := hs s List.mem_cons_self
      rw [spell_cons, extractNumbers_append_closes hcloses (Or.inr hf),
        ih fun s hs' => hs s (List.mem_cons_of_mem _ hs'), List.flatMap_cons]

/-- **The identifiers of a text of segments.** -/
theorem hexIds_spell (hfirst : Closes (text s.1)) (hs : ∀ s ∈ segments, Between s)
    (hplain : Plain closing) (hfollows : Follows closing) :
    hexIds u (spell (s :: segments) closing) =
      (s :: segments).flatMap fun s => hexIds u s.2.shown := by
  have hcut := hexIds_append_closes (u := u) (q := []) (s := s.2.shown ++ spell segments closing)
    hfirst (Or.inl rfl)
  rw [List.nil_append, hexIds_nil, List.nil_append] at hcut
  rw [spell_cons, hcut, hexIds_append_spell hs hplain hfollows, List.flatMap_cons]

/-- **The numbers of a text of segments.** -/
theorem extractNumbers_spell (hfirst : Closes (text s.1)) (hs : ∀ s ∈ segments, Between s)
    (hplain : Plain closing) (hfollows : Follows closing) :
    (extractNumbers u (spell (s :: segments) closing) : List (List K)) =
      (s :: segments).flatMap fun s => extractNumbers u s.2.shown := by
  have hcut := extractNumbers_append_closes (u := u) (K := K) (q := [])
    (s := s.2.shown ++ spell segments closing) hfirst (Or.inl rfl)
  rw [List.nil_append, extractNumbers_nil, List.nil_append] at hcut
  rw [spell_cons, hcut, extractNumbers_append_spell hs hplain hfollows, List.flatMap_cons]

end Reading

/-! ### Those of a fact sheet -/

/-- Of a pick. -/
def pickSegments (first : String) (p : PickFacts K) : List (String × Piece K) :=
  [(first, .name p.displayName), (" (cost ", .amount p.costIdr),
    (", priority ", .decimals p.priority)]

/-- Of the circle. -/
def circleSegments (c : CircleFacts K) : List (String × Piece K) :=
  [(". Active share of the circle moved from ", .percent c.neighborActivityRatio30dAgo),
    ("% to ", .percent c.neighborActivityRatioNow), ("% over ", .count c.activityWindowDays),
    (" days across ", .count c.circleSize), (" counterparties, tagged ", .name c.patternType)]

/-- Of the impact. -/
def impactSegments (i : ImpactFacts K) : List (String × Piece K) :=
  [(". Estimated chance to stay is ", .percent i.pIncentivized),
    ("% with the incentive and ", .percent i.pNotIncentivized),
    ("% without it, so the segment is ", .name i.segment)]

/-- Of the market context. -/
def signalSegments (s : SignalFacts K) : List (String × Piece K) :=
  [(". Market context: ", .name s.signalType.value),
    (" for " ++ s.scopeType.value ++ " ", .name s.scopeKey),
    (" is " ++ (if s.value < 0 then "negative" else "non-negative") ++ " (", .decimals s.value),
    (")", .nothing)]

/-- Of the runner-up. -/
def runnerUpSegments (p : PickFacts K) : List (String × Piece K) :=
  pickSegments ". Runner-up: " p ++ [(")", .nothing)]

/-- The beginning of the text. -/
def greeting : SubjectType → String
  | .group => "Recommended for this transaction circle: "
  | .user => "Recommended for this user: "

/-- The segments after the first. -/
def laterSegments (fs : FactSheet K) : List (String × Piece K) :=
  [(" (cost ", .amount fs.topPick.costIdr), (", priority ", .decimals fs.topPick.priority),
    (" via ", .name fs.topPick.rankingStrategy), ("). Churn risk is ", .percent fs.risk.churnRisk),
    ("% (", .name fs.risk.model), (")", .nothing)] ++
  fs.circle.toList.flatMap circleSegments ++ fs.impact.toList.flatMap impactSegments ++
  fs.externalSignal.toList.flatMap signalSegments ++ fs.runnerUp.toList.flatMap runnerUpSegments

/-- **The segments of a fact sheet.** -/
def segmentsOf (fs : FactSheet K) : List (String × Piece K) :=
  (greeting fs.subjectType, .name fs.topPick.displayName) :: laterSegments fs

/-- The end of the text. -/
def disclaimer : String :=
  ". Based on synthetic demo data; a human reviewer must approve before any action."

/-! ### Every literal closes -/

/-- **The literals of the template** that follow something. -/
def literals : List String :=
  [" (cost ", ", priority ", " via ", "). Churn risk is ", "% (", ")",
    ". Active share of the circle moved from ", "% to ", "% over ", " days across ",
    " counterparties, tagged ", ". Estimated chance to stay is ", "% with the incentive and ",
    "% without it, so the segment is ", ". Market context: ", " for CLIENT ", " for REGION ",
    " for COHORT ", " is negative (", " is non-negative (", ". Runner-up: "]

/-- Nothing before or after such a literal is read together with it. -/
theorem closes_literals : ∀ l ∈ literals, Closes (text l) ∧ Follows (text l) := by decide +kernel

theorem closes_greeting (t : SubjectType) : Closes (text (greeting t)) := by
  cases t <;> decide +kernel

omit [Field K] [LinearOrder K] [FloorRing K] in
theorem between_of_literals {l : List (String × Piece K)} (h : ∀ s ∈ l, s.1 ∈ literals) :
    ∀ s ∈ l, Between s :=
  fun s hs => closes_literals s.1 (h s hs)

omit [Field K] [LinearOrder K] [FloorRing K] in
theorem between_circleSegments (c : CircleFacts K) : ∀ s ∈ circleSegments c, Between s :=
  between_of_literals (by simp [circleSegments, literals])

omit [Field K] [LinearOrder K] [FloorRing K] in
theorem between_impactSegments (i : ImpactFacts K) : ∀ s ∈ impactSegments i, Between s :=
  between_of_literals (by simp [impactSegments, literals])

omit [FloorRing K] in
theorem between_signalSegments (f : SignalFacts K) : ∀ s ∈ signalSegments f, Between s := by
  have hscope : " for " ++ f.scopeType.value ++ " " ∈ literals := by
    cases f.scopeType <;> simp [ScopeType.value, literals]
  have hsign : " is " ++ (if f.value < 0 then "negative" else "non-negative") ++ " (" ∈
      literals := by
    split <;> simp [literals]
  refine between_of_literals ?_
  unfold signalSegments
  simp only [List.forall_mem_cons]
  exact ⟨by simp [literals], hscope, hsign, by simp [literals],
    fun _ hs => absurd hs List.not_mem_nil⟩

omit [Field K] [LinearOrder K] [FloorRing K] in
theorem between_runnerUpSegments (p : PickFacts K) : ∀ s ∈ runnerUpSegments p, Between s :=
  between_of_literals (by simp [runnerUpSegments, pickSegments, literals])

omit [Field K] [LinearOrder K] [FloorRing K] in
/-- What holds of the segments of a sentence, if there is one. -/
theorem forall_of_option {α : Type*} {o : Option α} {f : α → List (String × Piece K)}
    {P : String × Piece K → Prop} (h : ∀ a, o = some a → ∀ s ∈ f a, P s) :
    ∀ s ∈ o.toList.flatMap f, P s := by
  intro s hs
  obtain ⟨a, ha, hs⟩ := List.mem_flatMap.mp hs
  exact h a (Option.mem_toList.mp ha) s hs

omit [FloorRing K] in
/-- **Every literal of the template closes** what stands before it. -/
theorem between_laterSegments (fs : FactSheet K) : ∀ s ∈ laterSegments fs, Between s := by
  have hopening : ∀ s ∈ ([(" (cost ", .amount fs.topPick.costIdr),
      (", priority ", .decimals fs.topPick.priority), (" via ", .name fs.topPick.rankingStrategy),
      ("). Churn risk is ", .percent fs.risk.churnRisk), ("% (", .name fs.risk.model),
      (")", .nothing)] : List (String × Piece K)), Between s :=
    between_of_literals (by simp [literals])
  unfold laterSegments
  simp only [List.forall_mem_append]
  exact ⟨⟨⟨⟨hopening, forall_of_option fun c _ => between_circleSegments c⟩,
    forall_of_option fun i _ => between_impactSegments i⟩,
    forall_of_option fun f _ => between_signalSegments f⟩,
    forall_of_option fun p _ => between_runnerUpSegments p⟩

theorem plain_disclaimer : Plain (text disclaimer) ∧ Follows (text disclaimer) := by decide +kernel

/-! ### The template spells them -/

/-- Texts with blanks between them. -/
theorem text_intercalate (s : String) (l : List String) :
    text (" ".intercalate (s :: l)) = text s ++ l.flatMap fun t => point ' ' :: text t := by
  unfold text
  rw [String.toList_intercalate]
  induction l generalizing s with
  | nil => simp
  | cons t l ih =>
      have htail := ih t
      rw [List.map_cons] at htail
      rw [List.map_cons, List.map_cons, List.intercalate_cons_cons, List.map_append,
        List.map_append, List.flatMap_cons, htail, List.append_assoc]
      rfl

/-- **A sentence that may be missing**: the dot of the one before it goes to
its first segment, and its own dot to what follows. -/
theorem spell_option {α : Type*} {o : Option α} {sentence : α → String}
    {segments : α → List (String × Piece K)} {rest : Text}
    (h : ∀ a, point '.' :: point ' ' :: text (sentence a) = spell (segments a) [point '.']) :
    point '.' :: ((o.toList.map sentence).flatMap (fun t => point ' ' :: text t) ++ rest) =
      spell (o.toList.flatMap segments) (point '.' :: rest) := by
  cases o with
  | none => rfl
  | some a =>
      have ha := congrArg (· ++ rest) (h a)
      unfold spell at ha ⊢
      simpa using ha

theorem spell_circle (c : CircleFacts K) :
    point '.' :: point ' ' :: text (circleSentence c) = spell (circleSegments c) [point '.'] := by
  unfold circleSentence circleSegments spell pct
  simp only [text_append, List.flatMap_cons, List.flatMap_nil, Piece.shown, List.append_assoc,
    List.append_nil]
  rfl

theorem spell_impact (i : ImpactFacts K) :
    point '.' :: point ' ' :: text (impactSentence i) = spell (impactSegments i) [point '.'] := by
  unfold impactSentence impactSegments spell pct
  simp only [text_append, List.flatMap_cons, List.flatMap_nil, Piece.shown, List.append_assoc,
    List.append_nil]
  rfl

theorem spell_signal (f : SignalFacts K) :
    point '.' :: point ' ' :: text (signalSentence f) = spell (signalSegments f) [point '.'] := by
  unfold signalSentence signalSegments spell
  simp only [text_append, List.flatMap_cons, List.flatMap_nil, Piece.shown, List.append_assoc,
    List.append_nil]
  rfl

theorem spell_runnerUp (p : PickFacts K) :
    point '.' :: point ' ' :: text (runnerUpSentence p) =
      spell (runnerUpSegments p) [point '.'] := by
  unfold runnerUpSentence runnerUpSegments pickSegments spell
  simp only [text_append, List.flatMap_append, List.flatMap_cons, List.flatMap_nil, Piece.shown,
    List.append_assoc, List.append_nil]
  rfl

/-- **The template says the segments of its fact sheet.** -/
theorem text_renderTemplate (fs : FactSheet K) :
    text (renderTemplate fs) = spell (segmentsOf fs) (text disclaimer) := by
  unfold segmentsOf laterSegments
  rw [spell_cons, spell_append, spell_append, spell_append, spell_append]
  have hdisclaimer : text disclaimer = point '.' :: (point ' ' ::
      text "Based on synthetic demo data; a human reviewer must approve before any action.") := by
    unfold disclaimer
    rfl
  rw [hdisclaimer, ← spell_option spell_runnerUp, ← spell_option spell_signal,
    ← spell_option spell_impact, ← spell_option spell_circle]
  unfold renderTemplate
  simp only [List.cons_append, List.nil_append, List.append_assoc, text_intercalate,
    List.flatMap_cons, List.flatMap_append, List.flatMap_nil]
  cases fs.subjectType <;>
    simp only [text_append, spell, List.flatMap_cons, List.flatMap_nil, Piece.shown, pct,
      List.append_assoc, List.append_nil] <;> rfl

/-! ## What the validator knows -/

section Known

variable {dump : Node K} {strings : List Text} {a b d s : Text}

/-- A word stands on one side of a character that it does not have. -/
theorem infix_append_cons {α : Type*} {x : α} {d a b : List α} (hx : x ∉ d) (hne : d ≠ [])
    (h : d <:+: a ++ x :: b) : d <:+: a ∨ d <:+: b := by
  obtain ⟨p, q, hpq⟩ := h
  rw [List.append_assoc] at hpq
  rcases List.append_eq_append_iff.mp hpq with ⟨a', rfl, hrest⟩ | ⟨c, rfl, hrest⟩
  · rcases List.append_eq_append_iff.mp hrest with ⟨c, rfl, -⟩ | ⟨c, rfl, hcons⟩
    · exact Or.inl ⟨p, c, by simp⟩
    · -- the character would stand in the word
      cases c with
      | nil =>
          rw [List.append_nil]
          exact Or.inl (List.suffix_append p a').isInfix
      | cons y c =>
          obtain rfl : y = x := (List.cons.inj hcons).1.symm
          exact absurd (List.mem_append_right a' List.mem_cons_self) hx
  · cases c with
    | nil =>
        cases d with
        | nil => exact absurd rfl hne
        | cons y d =>
            obtain rfl : x = y := (List.cons.inj hrest).1
            exact absurd List.mem_cons_self hx
    | cons y c =>
        obtain ⟨-, rfl⟩ := List.cons.inj hrest
        exact Or.inr ⟨c, q, by simp⟩

theorem joinBlank_cons_cons : joinBlank (a :: b :: strings) =
    a ++ point ' ' :: joinBlank (b :: strings) := by
  unfold joinBlank
  simp

theorem joinBlank_singleton : joinBlank [s] = s := by
  unfold joinBlank
  simp

/-- Every text stands in the join. -/
theorem infix_joinBlank_of_mem (h : s ∈ strings) : s <:+: joinBlank strings := by
  induction strings with
  | nil => exact absurd h List.not_mem_nil
  | cons t strings ih =>
      cases strings with
      | nil =>
          obtain rfl := List.mem_singleton.mp h
          rw [joinBlank_singleton]
      | cons t' strings =>
          rw [joinBlank_cons_cons]
          rcases List.mem_cons.mp h with rfl | h
          · exact (List.prefix_append _ _).isInfix
          · refine (ih h).trans (List.IsInfix.trans ?_ (List.suffix_append _ _).isInfix)
            exact (List.suffix_cons _ _).isInfix

/-- **A word of a joined text** stands in one of the texts. -/
theorem infix_joinBlank_iff (hblank : point ' ' ∉ d) (hne : d ≠ []) :
    d <:+: joinBlank strings ↔ ∃ s ∈ strings, d <:+: s := by
  refine ⟨fun h => ?_, fun ⟨s, hs, h⟩ => h.trans (infix_joinBlank_of_mem hs)⟩
  induction strings with
  | nil => exact absurd (List.infix_nil.mp h) hne
  | cons s strings ih =>
      cases strings with
      | nil =>
          rw [joinBlank_singleton] at h
          exact ⟨s, List.mem_singleton_self s, h⟩
      | cons t strings =>
          rw [joinBlank_cons_cons] at h
          rcases infix_append_cons hblank hne h with h | h
          · exact ⟨s, List.mem_cons_self, h⟩
          · obtain ⟨s', hs', h⟩ := ih h
            exact ⟨s', List.mem_cons_of_mem _ hs', h⟩

/-- One character of a lower case. -/
def lowerPoint (c : Python.CodePoint) : Python.CodePoint := (lowerText [c]).headD c

theorem lowerText_eq : lowerText s = s.map lowerPoint := rfl

theorem lowerPoint_of_digit {c : Python.CodePoint} (h : 48 ≤ c.val ∧ c.val ≤ 57) :
    lowerPoint c = c := dif_neg (by omega)

/-- A digit is the lower case of itself only. -/
theorem eq_of_lowerPoint_digit {c : Python.CodePoint}
    (h : 48 ≤ (lowerPoint c).val ∧ (lowerPoint c).val ≤ 57) : lowerPoint c = c := by
  unfold lowerPoint lowerText at h ⊢
  rw [List.map_singleton, List.headD_cons] at h ⊢
  split
  · rename_i hupper
    rw [dif_pos hupper] at h
    dsimp only at h
    omega
  · rfl

theorem lowerText_of_digits (hd : IsDigits d) : lowerText d = d := by
  rw [lowerText_eq]
  exact (List.map_congr_left fun c hc => lowerPoint_of_digit (hd c hc)).trans (List.map_id d)

/-- **Digits are found in a text** whatever its case. -/
theorem infix_lowerText_iff (hd : IsDigits d) : d <:+: lowerText s ↔ d <:+: s := by
  constructor
  · rintro ⟨p, q, hpq⟩
    rw [lowerText_eq] at hpq
    obtain ⟨l, q', rfl, hl, -⟩ := List.append_eq_map_iff.mp hpq
    obtain ⟨p', d', rfl, -, rfl⟩ := List.map_eq_append_iff.mp hl
    have hsame : d'.map lowerPoint = d' := by
      refine (List.map_congr_left fun c hc => ?_).trans (List.map_id d')
      exact eq_of_lowerPoint_digit (hd _ (List.mem_map_of_mem hc))
    rw [hsame]
    exact ⟨p', q', rfl⟩
  · intro h
    rw [← lowerText_of_digits hd]
    exact h.map _

/-- **A number known as an identifier** stands in a text. -/
def StandsIn (strings : List Text) (n : ℕ) : Prop := ∃ s ∈ strings, text (toString n) <:+: s

theorem standsIn_iff {n : ℕ} : StandsIn strings n ↔
    lowerText (text (toString n)) <:+: lowerText (joinBlank strings) := by
  have hd := isDigits_text_toString n
  have hblank : point ' ' ∉ text (toString n) := fun hmem =>
    absurd (hd _ hmem) (by decide)
  rw [lowerText_of_digits hd, infix_lowerText_iff hd,
    infix_joinBlank_iff hblank (text_toString_ne_nil n)]
  rfl

omit [LinearOrder K] [FloorRing K] in
/-- The identifiers of what is shown are known unless there are too many digits. -/
theorem Shows.ids_known_iff {n : ℕ} {v : K} (h : Shows u s n v) :
    (∀ ident ∈ hexIds u s, lowerText ident <:+: lowerText (joinBlank strings)) ↔
      n < 10 ^ 11 ∨ StandsIn strings n := by
  rw [h.ids]
  split
  · rename_i hbig
    rw [List.forall_mem_singleton, standsIn_iff]
    exact ⟨Or.inr, fun h => h.resolve_left (not_lt.mpr hbig)⟩
  · rename_i hsmall
    exact iff_of_true (fun _ h => absurd h List.not_mem_nil) (Or.inl (not_le.mp hsmall))

/-- **The identifiers of a piece** are known exactly if its digits are. -/
theorem Piece.ids_known_iff {p : Piece K} (hp : p.From dump) :
    (∀ ident ∈ hexIds u p.shown, lowerText ident <:+: lowerText (joinBlank (stringsOf dump))) ↔
      p.ungrouped < 10 ^ 11 ∨ StandsIn (stringsOf dump) p.ungrouped := by
  cases p with
  | nothing =>
      exact iff_of_true (fun _ h => absurd h List.not_mem_nil) (Or.inl (Nat.pow_pos (by decide)))
  | name s =>
      refine iff_of_true (fun ident hident => ?_) (Or.inl (Nat.pow_pos (by decide)))
      have hin : ident <:+: text s := by
        have hrun := Munch.infix_of_mem_runs (List.mem_of_mem_filter hident)
        rwa [List.nil_append] at hrun
      have hmem : text s ∈ stringsOf dump := hp.mem_stringsOf (List.mem_singleton_self _)
      exact (hin.trans (infix_joinBlank_of_mem hmem)).map _
  | amount x => exact (shows_idr (K := K) x).ids_known_iff
  | count x => exact (shows_int (K := K) x).ids_known_iff
  | percent x => exact (shows_int (K := K) _).ids_known_iff
  | decimals x => exact (shows_fixed2 x).ids_known_iff

omit [FloorRing K] in
theorem knows_of_mem [IsStrictOrderedRing K] {allowed options : List K} {x : K} (hx : x ∈ options)
    (ha : x ∈ allowed) : knows allowed options = true := by
  refine List.any_eq_true.mpr ⟨x, hx, List.any_eq_true.mpr ⟨x, ha, decide_eq_true ?_⟩⟩
  rw [sub_self, abs_zero]
  exact tol_nonneg

/-- A number of the dump is allowed, and so is what it is rounded to. -/
theorem mem_allowedNumbers {x : K} (h : dump.Holds (.num x)) :
    |x| ∈ allowedNumbers u dump ∧ roundTo 2 |x| ∈ allowedNumbers u dump ∧
      roundTo 0 (|x| * ((100 : ℕ) : K)) ∈ allowedNumbers u dump := by
  have hraw : |x| ∈ numbersOf u dump := h.mem_numbersOf (List.mem_singleton_self _)
  unfold allowedNumbers
  refine ⟨List.mem_append_left _ hraw, List.mem_append_right _ ?_, List.mem_append_right _ ?_⟩
  · exact List.mem_flatMap.mpr ⟨_, hraw, by simp⟩
  · exact List.mem_flatMap.mpr ⟨_, hraw, by simp⟩

/-- **The numbers of a piece are known.** -/
theorem Piece.numbers_known [IsStrictOrderedRing K] {p : Piece K} (hp : p.From dump) :
    ∀ options ∈ extractNumbers u p.shown, knows (allowedNumbers u dump) options = true := by
  intro options hoptions
  cases p with
  | nothing => exact absurd hoptions List.not_mem_nil
  | name s =>
      have hne : options ≠ [] := by
        have hkept := (List.mem_filter.mp hoptions).2
        rwa [Bool.not_eq_true', List.isEmpty_eq_false_iff] at hkept
      obtain ⟨x, hx⟩ := List.exists_mem_of_ne_nil options hne
      have hraw : x ∈ numbersOf u dump :=
        hp.mem_numbersOf (List.mem_flatten.mpr ⟨options, hoptions, hx⟩)
      exact knows_of_mem hx (List.mem_append_left _ hraw)
  | amount x =>
      have habs : |(x : K)| ∈ allowedNumbers u dump := (mem_allowedNumbers hp).1
      rw [← Int.cast_abs, ← Nat.cast_natAbs] at habs
      exact knows_of_mem ((shows_idr x).options options hoptions) habs
  | count x =>
      have habs : |(x : K)| ∈ allowedNumbers u dump := (mem_allowedNumbers hp).1
      rw [← Int.cast_abs, ← Nat.cast_natAbs] at habs
      exact knows_of_mem ((shows_int x).options options hoptions) habs
  | percent x =>
      have hvalue := (mem_allowedNumbers (u := u) hp).2.2
      have hround : roundTo 0 (|x| * ((100 : ℕ) : K)) =
          (((roundHalfEven (x * 100)).natAbs : ℕ) : K) := by
        unfold roundTo
        rw [Python.natAbs_roundHalfEven, abs_mul, pow_zero, mul_one, div_one]
        simp
      rw [hround] at hvalue
      exact knows_of_mem ((shows_int _).options options hoptions) hvalue
  | decimals x =>
      have hvalue := (mem_allowedNumbers (u := u) hp).2.1
      have hround : roundTo 2 |x| = (cents x : K) / ((100 : ℕ) : K) := by
        have hpow : (10 : K) ^ 2 = 100 := by norm_num
        unfold roundTo cents
        rw [Python.natAbs_roundHalfEven, abs_mul, hpow]
        simp
      rw [hround] at hvalue
      exact knows_of_mem ((shows_fixed2 x).options options hoptions) hvalue

end Known

/-! ### The dump of a fact sheet -/

section Sheet

variable {fs : FactSheet K} {e : Text × Node K}

omit [Field K] [LinearOrder K] [FloorRing K] in
/-- What a dictionary of the sheet holds. -/
theorem holds_entry {k : Text} {entries : List (Text × Node K)} {top : List (Text × Node K)}
    (hk : (k, Node.dict entries) ∈ top) (he : e ∈ entries) : (Node.dict top).Holds e.2 :=
  .dict hk (.dict he (.refl _))

omit [LinearOrder K] [FloorRing K] in
theorem holds_topPick (he : e ∈ fs.topPick.entries) : fs.open.modelDump.Holds e.2 :=
  holds_entry (k := text "top_pick") (List.mem_of_getElem? (i := 4) rfl) he

omit [LinearOrder K] [FloorRing K] in
theorem holds_runnerUp {p : PickFacts K} (hp : fs.runnerUp = some p) (he : e ∈ p.entries) :
    fs.open.modelDump.Holds e.2 := by
  refine holds_entry (k := text "runner_up") (List.mem_of_getElem? (i := 5) ?_) he
  unfold FactSheet.open
  rw [hp]
  rfl

omit [LinearOrder K] [FloorRing K] in
theorem holds_risk (he : e ∈ fs.risk.entries) : fs.open.modelDump.Holds e.2 :=
  holds_entry (k := text "risk") (List.mem_of_getElem? (i := 6) rfl) he

omit [LinearOrder K] [FloorRing K] in
theorem holds_circle {c : CircleFacts K} (hc : fs.circle = some c) (he : e ∈ c.entries) :
    fs.open.modelDump.Holds e.2 := by
  refine holds_entry (k := text "circle") (List.mem_of_getElem? (i := 7) ?_) he
  unfold FactSheet.open
  rw [hc]
  rfl

omit [LinearOrder K] [FloorRing K] in
theorem holds_impact {i : ImpactFacts K} (hi : fs.impact = some i) (he : e ∈ i.entries) :
    fs.open.modelDump.Holds e.2 := by
  refine holds_entry (k := text "impact") (List.mem_of_getElem? (i := 8) ?_) he
  unfold FactSheet.open
  rw [hi]
  rfl

omit [LinearOrder K] [FloorRing K] in
theorem holds_externalSignal {f : SignalFacts K} (hf : fs.externalSignal = some f)
    (he : e ∈ f.entries) : fs.open.modelDump.Holds e.2 := by
  refine holds_entry (k := text "external_signal") (List.mem_of_getElem? (i := 9) ?_) he
  unfold FactSheet.open
  rw [hf]
  rfl

omit [FloorRing K] in
/-- **The template says nothing else** than its fact sheet. -/
theorem from_segmentsOf (fs : FactSheet K) :
    ∀ s ∈ segmentsOf fs, s.2.From fs.open.modelDump := by
  unfold segmentsOf laterSegments
  simp only [List.forall_mem_cons, List.forall_mem_append, Piece.From]
  refine ⟨holds_topPick (e := (_, _)) (List.mem_of_getElem? (i := 2) rfl),
    ⟨⟨⟨⟨holds_topPick (e := (_, _)) (List.mem_of_getElem? (i := 3) rfl),
      holds_topPick (e := (_, _)) (List.mem_of_getElem? (i := 4) rfl),
      holds_topPick (e := (_, _)) (List.mem_of_getElem? (i := 5) rfl),
      holds_risk (e := (_, _)) (List.mem_of_getElem? (i := 0) rfl),
      holds_risk (e := (_, _)) (List.mem_of_getElem? (i := 1) rfl), trivial,
      fun _ h => absurd h List.not_mem_nil⟩, ?circle⟩, ?impact⟩, ?signal⟩, ?runnerUp⟩
  case circle =>
    refine forall_of_option fun c hsome => ?_
    unfold circleSegments
    simp only [List.forall_mem_cons]
    exact ⟨holds_circle (e := (_, _)) hsome (List.mem_of_getElem? (i := 2) rfl),
      holds_circle (e := (_, _)) hsome (List.mem_of_getElem? (i := 1) rfl),
      holds_circle (e := (_, _)) hsome (List.mem_of_getElem? (i := 4) rfl),
      holds_circle (e := (_, _)) hsome (List.mem_of_getElem? (i := 0) rfl),
      holds_circle (e := (_, _)) hsome (List.mem_of_getElem? (i := 5) rfl),
      fun _ h => absurd h List.not_mem_nil⟩
  case impact =>
    refine forall_of_option fun i hsome => ?_
    unfold impactSegments
    simp only [List.forall_mem_cons]
    exact ⟨holds_impact (e := (_, _)) hsome (List.mem_of_getElem? (i := 0) rfl),
      holds_impact (e := (_, _)) hsome (List.mem_of_getElem? (i := 1) rfl),
      holds_impact (e := (_, _)) hsome (List.mem_of_getElem? (i := 3) rfl),
      fun _ h => absurd h List.not_mem_nil⟩
  case signal =>
    refine forall_of_option fun f hsome => ?_
    unfold signalSegments
    simp only [List.forall_mem_cons]
    exact ⟨holds_externalSignal (e := (_, _)) hsome (List.mem_of_getElem? (i := 2) rfl),
      holds_externalSignal (e := (_, _)) hsome (List.mem_of_getElem? (i := 1) rfl),
      holds_externalSignal (e := (_, _)) hsome (List.mem_of_getElem? (i := 3) rfl), trivial,
      fun _ h => absurd h List.not_mem_nil⟩
  case runnerUp =>
    refine forall_of_option fun p hsome => ?_
    unfold runnerUpSegments pickSegments
    simp only [List.forall_mem_append, List.forall_mem_cons]
    exact ⟨⟨holds_runnerUp (e := (_, _)) hsome (List.mem_of_getElem? (i := 2) rfl),
      holds_runnerUp (e := (_, _)) hsome (List.mem_of_getElem? (i := 3) rfl),
      holds_runnerUp (e := (_, _)) hsome (List.mem_of_getElem? (i := 4) rfl),
      fun _ h => absurd h List.not_mem_nil⟩, trivial, fun _ h => absurd h List.not_mem_nil⟩

end Sheet

/-! ## Whether it passes -/

/-- **The numbers of the text that are not grouped**, each without its sign
and its decimals. -/
def ungrouped (fs : FactSheet K) : List ℕ :=
  [cents fs.topPick.priority / 100, cents fs.risk.churnRisk] ++
  fs.circle.toList.flatMap (fun c => [cents c.neighborActivityRatio30dAgo,
    cents c.neighborActivityRatioNow, c.activityWindowDays.natAbs, c.circleSize.natAbs]) ++
  fs.impact.toList.flatMap (fun i => [cents i.pIncentivized, cents i.pNotIncentivized]) ++
  fs.externalSignal.toList.flatMap (fun f => [cents f.value / 100]) ++
  fs.runnerUp.toList.flatMap fun p => [cents p.priority / 100]

theorem forall_option_iff {α : Type*} {o : Option α} {P : ℕ → Prop}
    {f : α → List (String × Piece K)} {g : α → List ℕ}
    (h : ∀ a, (∀ s ∈ f a, P s.2.ungrouped) ↔ ∀ n ∈ g a, P n) :
    (∀ s ∈ o.toList.flatMap f, P s.2.ungrouped) ↔ ∀ n ∈ o.toList.flatMap g, P n := by
  cases o with
  | none =>
      exact iff_of_true (fun _ h => absurd h List.not_mem_nil) fun _ h => absurd h List.not_mem_nil
  | some a => simpa using h a

/-- They are those of the segments. -/
theorem forall_ungrouped_iff {P : ℕ → Prop} (hzero : P 0) (fs : FactSheet K) :
    (∀ s ∈ segmentsOf fs, P s.2.ungrouped) ↔ ∀ n ∈ ungrouped fs, P n := by
  unfold segmentsOf laterSegments ungrouped
  rw [List.forall_mem_cons]
  simp only [List.forall_mem_append]
  rw [and_iff_right (show P (Piece.ungrouped (.name _)) from hzero)]
  refine and_congr (and_congr (and_congr (and_congr ?_ (forall_option_iff fun c => ?_))
    (forall_option_iff fun i => ?_)) (forall_option_iff fun f => ?_))
    (forall_option_iff fun p => ?_)
  · simp [Piece.ungrouped, hzero, cents]
  · simp [circleSegments, Piece.ungrouped, hzero, cents]
  · simp [impactSegments, Piece.ungrouped, hzero, cents]
  · simp [signalSegments, Piece.ungrouped, hzero]
  · simp [runnerUpSegments, pickSegments, Piece.ungrouped, hzero]

theorem not_blank_renderTemplate (fs : FactSheet K) : ¬ Blank (text (renderTemplate fs)) := by
  intro hblank
  have hfirst : ∀ t, point 'R' ∈ text (greeting t) := by
    intro t
    cases t <;> decide +kernel
  refine absurd (hblank (point 'R') ?_) (by decide)
  rw [text_renderTemplate, segmentsOf, spell_cons]
  exact List.mem_append_left _ (hfirst _)

/-- **Whether the template of a fact sheet passes**: all its numbers are
known, and so are its identifiers unless a run of digits is taken for one. -/
theorem validateNarration_renderTemplate [IsStrictOrderedRing K] {fs : FactSheet K}
    (hlength : (text (renderTemplate fs)).length ≤ maxChars) :
    validateNarration u (text (renderTemplate fs)) fs.open.modelDump = .ok () ↔
      ∀ n ∈ ungrouped fs, n < 10 ^ 11 ∨ StandsIn (stringsOf fs.open.modelDump) n := by
  have hbetween := between_laterSegments fs
  have hgreeting := closes_greeting fs.subjectType
  obtain ⟨hplain, hfollows⟩ := plain_disclaimer
  have hfrom := from_segmentsOf fs
  have hids : hexIds u (text (renderTemplate fs)) =
      (segmentsOf fs).flatMap fun s => hexIds u s.2.shown := by
    rw [text_renderTemplate]
    exact hexIds_spell hgreeting hbetween hplain hfollows
  have hnumbers : (extractNumbers u (text (renderTemplate fs)) : List (List K)) =
      (segmentsOf fs).flatMap fun s => extractNumbers u s.2.shown := by
    rw [text_renderTemplate]
    exact extractNumbers_spell hgreeting hbetween hplain hfollows
  have hknown : ∀ options ∈ (extractNumbers u (text (renderTemplate fs)) : List (List K)),
      knows (allowedNumbers u fs.open.modelDump) options = true := by
    intro options hoptions
    rw [hnumbers] at hoptions
    obtain ⟨s, hs, hoptions⟩ := List.mem_flatMap.mp hoptions
    exact Piece.numbers_known (hfrom s hs) options hoptions
  rw [validateNarration_eq_ok, and_iff_right (not_blank_renderTemplate fs), and_iff_right hlength,
    and_iff_left hknown, hids,
    ← forall_ungrouped_iff (P := fun n => n < 10 ^ 11 ∨ StandsIn (stringsOf fs.open.modelDump) n)
      (Or.inl (Nat.pow_pos (by decide)))]
  constructor
  · intro h s hs
    exact (Piece.ids_known_iff (hfrom s hs)).mp fun ident hident =>
      h ident (List.mem_flatMap.mpr ⟨s, hs, hident⟩)
  · intro h ident hident
    obtain ⟨s, hs, hident⟩ := List.mem_flatMap.mp hident
    exact (Piece.ids_known_iff (hfrom s hs)).mpr (h s hs) ident hident

/-- A cashback of a priority, as it is picked. -/
def cashback (priority : ℚ) : RankedCandidate ℚ where
  candidate :=
    { candidateId := "cand-1"
      tenantId := "t"
      userPseudonym := "u1"
      incentiveCode := "CASHBACK_25K"
      costIdr := 25000
      businessValueIdr := 450000
      encouragesBorrowing := false
      changesCreditTerms := false
      groupId := none
      churnRisk := 7 / 10
      impactScore := 2 / 5
      segment := .persuadable
      patternType := .stable }
  priority := priority
  rankingStrategy := .fallback

/-- The fact sheet of a cashback. -/
def cashbackSheet (priority : ℚ) : FactSheet ℚ :=
  buildFactSheet (cashback priority) ⟨7 / 10, "FORMULA", 0⟩ none none ⟨"cand-1", "u1", "ALLOW", []⟩
    (.engine "EXACT_DP" 5000000 25000 1 (some 1)) none (fun _ => some "Cashback Rp 25.000") none
    .engine .user none 1 30 []

end Explain

end RetentionEngine
