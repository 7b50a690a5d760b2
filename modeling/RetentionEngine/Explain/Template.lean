import RetentionEngine.Explain.FactSheet

/-!
# The template

`explain.template.render_template`: the text of a fact sheet when no
narrator has one.
-/

namespace RetentionEngine

namespace Explain

open Python (roundHalfEven)

/-- The digits of `n` in groups of three, with dots between. -/
def grouped (n : ℕ) : String :=
  let digits := (toString n).toList
  String.ofList <| digits.zipIdx.flatMap fun d =>
    if d.2 ≠ 0 ∧ (digits.length - d.2) % 3 = 0 then ['.', d.1] else [d.1]

/-- `_idr`. -/
def idr (amount : ℤ) : String :=
  "Rp " ++ (if amount < 0 then "-" else "") ++ grouped amount.natAbs

variable {K : Type} [Field K] [LinearOrder K] [FloorRing K]

/-- `_pct`. -/
def pct (p : K) : String := toString (roundHalfEven (p * 100)) ++ "%"

/-- The format `.2f`. -/
def fixed2 (x : K) : String :=
  let cents := (roundHalfEven (x * 100)).natAbs
  (if x < 0 then "-" else "") ++ toString (cents / 100) ++ "." ++
    (if cents % 100 < 10 then "0" else "") ++ toString (cents % 100)

/-- The sentence of the circle. -/
def circleSentence (c : CircleFacts K) : String :=
  "Active share of the circle moved from " ++ pct c.neighborActivityRatio30dAgo ++ " to " ++
    pct c.neighborActivityRatioNow ++ " over " ++ toString c.activityWindowDays ++
    " days across " ++ toString c.circleSize ++ " counterparties, tagged " ++ c.patternType ++ "."

/-- The sentence of the impact. -/
def impactSentence (i : ImpactFacts K) : String :=
  "Estimated chance to stay is " ++ pct i.pIncentivized ++ " with the incentive and " ++
    pct i.pNotIncentivized ++ " without it, so the segment is " ++ i.segment ++ "."

/-- The sentence of the market context. -/
def signalSentence (s : SignalFacts K) : String :=
  "Market context: " ++ s.signalType.value ++ " for " ++ s.scopeType.value ++ " " ++ s.scopeKey ++
    " is " ++ (if s.value < 0 then "negative" else "non-negative") ++ " (" ++ fixed2 s.value ++ ")."

/-- The sentence of the runner-up. -/
def runnerUpSentence (p : PickFacts K) : String :=
  "Runner-up: " ++ p.displayName ++ " (cost " ++ idr p.costIdr ++ ", priority " ++
    fixed2 p.priority ++ ")."

/-- `render_template`. -/
def renderTemplate (fs : FactSheet K) : String :=
  let subject := match fs.subjectType with
    | .group => "this transaction circle"
    | .user => "this user"
  let top := fs.topPick
  " ".intercalate <|
    ["Recommended for " ++ subject ++ ": " ++ top.displayName ++ " (cost " ++ idr top.costIdr ++
        ", priority " ++ fixed2 top.priority ++ " via " ++ top.rankingStrategy ++ ").",
      "Churn risk is " ++ pct fs.risk.churnRisk ++ " (" ++ fs.risk.model ++ ")."] ++
    fs.circle.toList.map circleSentence ++ fs.impact.toList.map impactSentence ++
    fs.externalSignal.toList.map signalSentence ++ fs.runnerUp.toList.map runnerUpSentence ++
    ["Based on synthetic demo data; a human reviewer must approve before any action."]

end Explain

end RetentionEngine
