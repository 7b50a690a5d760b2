import RetentionEngine.Common.Memo
import RetentionEngine.Explain.TemplatePasses

/-!
# The narrations of a run

`narrate_or_fallback` of `worker.llm_narrator`, over calls that share one
cache. A narrator is asked for a text; what it returns is used if the
validator lets it pass, and whatever it or the validator raises is caught.
-/

namespace RetentionEngine

namespace LlmNarrator

open Python (Text text)
open Explain (Classes Rejection validateNarration renderTemplate)

/-! ## The prompt -/

/-- `SYSTEM_PROMPT`. -/
def systemPrompt : String :=
  "You explain a retention recommendation to a non-technical fintech operations reviewer. " ++
  "Use ONLY the JSON fact sheet you are given. " ++
  "Do not add any number, percentage, amount, date, reason, prediction, or advice that is not " ++
  "in the fact sheet. Do not mention user identifiers. " ++
  "Say which incentive is the top pick and, if present, the runner-up. " ++
  "Mention that the data is synthetic. " ++
  "Write at most 4 short sentences in plain English. " ++
  "Numbers may be written as they appear, as percentages of a probability, or as 'Rp' amounts."

/-- `SOURCE_LLM`. -/
def sourceLlm : String := "LLM"

/-- `SOURCE_TEMPLATE`. -/
def sourceTemplate : String := "TEMPLATE"

/-- What becomes of a fact sheet outside this code: its JSON, and the SHA-256
of a text in hexadecimal. -/
structure Digests (K : Type) where
  canonicalJson : FactSheet K → String
  sha256 : String → String

/-- `fact_sheet_hash`. -/
def Digests.factSheetHash {K : Type} (d : Digests K) (sheet : FactSheet K) : String :=
  d.sha256 (d.canonicalJson sheet)

/-- `build_prompt`: what the system says and what the user says. -/
def Digests.buildPrompt {K : Type} (d : Digests K) (sheet : FactSheet K) : String × String :=
  (systemPrompt, "Fact sheet:\n" ++ d.canonicalJson sheet)

/-! ## The narrator -/

/-- What the `try` may raise: an exception of the narrator, or a rejection. -/
inductive Failure (ε K : Type)
  | narrator (exc : ε)
  | rejected (reason : Rejection K)

/-- The method `narrate` of a narrator at one call. -/
abbrev Narrator (ε : Type) := String → String → Except ε Text

/-- `(reason_text, reason_source)`. -/
abbrev Narration := Text × String

variable {ε K : Type} [Field K] [LinearOrder K] [FloorRing K] (u : Classes) (d : Digests K)

/-- The body of the `try`. -/
def narration (sheet : FactSheet K) (narrator : Narrator ε) : Except (Failure ε K) Narration := do
  let (system, user) := d.buildPrompt sheet
  let text ← (narrator system user).mapError .narrator
  (validateNarration u text sheet.open.modelDump).mapError .rejected
  return (text, sourceLlm)

/-- The result without a text of the narrator. -/
def fallback (sheet : FactSheet K) : Narration := (text (renderTemplate sheet), sourceTemplate)

/-- `narrate_or_fallback`, with the cache it leaves. -/
def narrateOrFallback (sheet : FactSheet K) (narrator : Option (Narrator ε))
    (cache : Option (Dict String Narration)) :
    Except (Failure ε K) (Narration × Option (Dict String Narration)) := do
  let key := d.factSheetHash sheet
  match cache.bind fun cache => cache.get? key with
  | some result => return (result, cache)
  | none =>
      let result ← match narrator with
        | some narrator => tryCatch (narration u d sheet narrator) fun _ => pure (fallback sheet)
        | none => pure (fallback sheet)
      return (result, cache.map fun cache => cache.set key result)

/-- A call of `narrate_or_fallback`. -/
structure Call (ε K : Type) where
  sheet : FactSheet K
  narrator : Option (Narrator ε)

/-- The calls of a run, which share a cache. -/
def narrateAll (cache : Option (Dict String Narration)) :
    List (Call ε K) → Except (Failure ε K) (List Narration × Option (Dict String Narration))
  | [] => return ([], cache)
  | c :: calls => do
      let (result, cache) ← narrateOrFallback u d c.sheet c.narrator cache
      let (results, cache) ← narrateAll cache calls
      return (result :: results, cache)

/-! ## What a call answers -/

/-- The result of a call whose sheet is not cached. -/
def Call.answer (c : Call ε K) : Narration :=
  match c.narrator with
  | some narrator =>
      match narration u d c.sheet narrator with
      | .ok result => result
      | .error _ => fallback c.sheet
  | none => fallback c.sheet

/-- The key of a call. -/
def Call.key (c : Call ε K) : String := d.factSheetHash c.sheet

/-- **A text of the narrator for the sheet that the validator lets pass.** -/
structure Call.Vetted (c : Call ε K) (t : Text) : Prop where
  said : ∃ narrator ∈ c.narrator,
    narrator (d.buildPrompt c.sheet).1 (d.buildPrompt c.sheet).2 = .ok t
  valid : validateNarration u t c.sheet.open.modelDump = .ok ()

variable {u d} {c : Call ε K} {calls : List (Call ε K)} {cache : Dict String Narration}

/-- What the `try` returns is a vetted text. -/
theorem vetted_of_narration {narrator : Narrator ε} {result : Narration}
    (hc : narrator ∈ c.narrator) (h : narration u d c.sheet narrator = .ok result) :
    ∃ t, result = (t, sourceLlm) ∧ c.Vetted u d t := by
  unfold narration at h
  dsimp only at h
  cases hsaid : narrator (d.buildPrompt c.sheet).1 (d.buildPrompt c.sheet).2 with
  | error exc =>
      rw [hsaid] at h
      cases h
  | ok t =>
      rw [hsaid] at h
      cases hvalid : validateNarration u t c.sheet.open.modelDump with
      | error reason =>
          simp only [Except.mapError, bind, Except.bind, hvalid] at h
          cases h
      | ok _ =>
          simp only [Except.mapError, bind, Except.bind, hvalid] at h
          cases h
          exact ⟨t, rfl, ⟨narrator, hc, hsaid⟩, hvalid⟩

/-- **An answer is a vetted text or the template's.** -/
theorem answer_cases : (∃ t, c.answer u d = (t, sourceLlm) ∧ c.Vetted u d t) ∨
    c.answer u d = fallback c.sheet := by
  unfold Call.answer
  split
  · rename_i narrator hc
    split
    · rename_i result hresult
      exact Or.inl (vetted_of_narration hc hresult)
    · exact Or.inr rfl
  · exact Or.inr rfl

/-- **No call raises**: it is a call through the cache. -/
theorem narrateOrFallback_eq : narrateOrFallback u d c.sheet c.narrator (some cache) =
    .ok ((Memo.call (Call.key d) (Call.answer u d) cache c).1,
      some (Memo.call (Call.key d) (Call.answer u d) cache c).2) := by
  unfold narrateOrFallback Memo.call Call.key
  dsimp only [Option.bind_some, Option.map_some]
  cases hcache : cache.get? (d.factSheetHash c.sheet) with
  | some result => rfl
  | none =>
      dsimp only
      unfold Call.answer
      cases c.narrator with
      | none => rfl
      | some narrator =>
          dsimp only
          cases narration u d c.sheet narrator with
          | ok result => rfl
          | error failure => rfl

/-- Nor do any calls that share a cache. -/
theorem narrateAll_eq : narrateAll u d (some cache) calls =
    .ok ((Memo.calls (Call.key d) (Call.answer u d) cache calls).1,
      some (Memo.calls (Call.key d) (Call.answer u d) cache calls).2) := by
  induction calls generalizing cache with
  | nil => rfl
  | cons c calls ih =>
      unfold narrateAll Memo.calls
      rw [narrateOrFallback_eq]
      simp only [bind, Except.bind, ih]
      rfl

/-! ## Only vetted text is labelled LLM -/

/-- The results of calls are what they should be: the one of a call is a text
vetted by it or an earlier call for the same sheet, or the template's, and
equal sheets have equal results. -/
structure OnlyVetted (u : Classes) (d : Digests K) (calls : List (Call ε K))
    (results : List Narration) : Prop where
  length : results.length = calls.length
  source : ∀ (i : ℕ) (c : Call ε K) (result : Narration),
    calls[i]? = some c → results[i]? = some result →
    (∃ t, result = (t, sourceLlm) ∧
      ∃ j ≤ i, ∃ c' : Call ε K, calls[j]? = some c' ∧ c'.sheet = c.sheet ∧ c'.Vetted u d t) ∨
      result = (text (renderTemplate c.sheet), sourceTemplate)
  same : ∀ (i j : ℕ) (c c' : Call ε K), calls[i]? = some c → calls[j]? = some c' →
    c.sheet = c'.sheet → results[i]? = results[j]?

/-- The JSON of a cashback's fact sheet, with its priority. -/
def cashbackJson (priority : String) : String :=
  "\x7b\"allocation\":\x7b\"budget_idr\":5000000,\"rank\":1,\"selected_count\":1," ++
  "\"spent_idr\":25000,\"strategy\":\"EXACT_DP\"\x7d,\"arm\":\"ENGINE\",\"circle\":null," ++
  "\"external_signal\":null,\"impact\":null,\"member_count\":1,\"policy\":\x7b\"outcome\":" ++
  "\"ALLOW\",\"rules_checked\":[]\x7d,\"reason_factors\":[],\"risk\":\x7b\"churn_risk\":0.7," ++
  "\"external_signal_contribution\":0.0,\"model\":\"FORMULA\"\x7d,\"runner_up\":null," ++
  "\"subject_ref\":\"u1\",\"subject_type\":\"USER\",\"synthetic_data\":true," ++
  "\"top_pick\":\x7b\"candidate_id\":\"cand-1\",\"cost_idr\":25000," ++
  "\"display_name\":\"Cashback Rp 25.000\",\"incentive_code\":\"CASHBACK_25K\"," ++
  "\"priority\":" ++ priority ++ ",\"ranking_strategy\":\"FALLBACK\"\x7d\x7d"

/-- The digests of two cashbacks. -/
def cashbackDigests : Digests ℚ where
  canonicalJson sheet :=
    cashbackJson (if sheet.topPick.priority = 184500 then "184500.0" else "184501.5")
  sha256 json :=
    if json = cashbackJson "184500.0" then
      "fae3432a3ff94b9965bf74023c5ae1cdac01b45229674c626583547ac85e7262"
    else "cd87125ded3067baafd7a11a37856ebb7a70c15b7f5bf3068c2a13ae8766d5f8"

/-- A narrator that is asked about both, fails once and then says the same of
both. -/
def cashbackCalls : List (Call String ℚ) :=
  let sheet := Explain.cashbackSheet 184500
  let other := Explain.cashbackSheet (184501 + 1 / 2)
  let answers : Narrator String := fun _ _ => .ok (text "A cashback fits. The data is synthetic.")
  [⟨sheet, some fun _ _ => .error "ReadTimeout"⟩, ⟨other, some answers⟩, ⟨sheet, some answers⟩,
    ⟨other, none⟩]

end LlmNarrator

end RetentionEngine
