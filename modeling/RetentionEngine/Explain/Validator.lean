import RetentionEngine.Common.Munch
import RetentionEngine.Contracts.Decision
import RetentionEngine.Python.Round
import RetentionEngine.Python.Text
import Mathlib.Algebra.Order.AbsoluteValue.Basic
import Mathlib.Data.List.Infix

/-!
# The narration validator

`explain.validator`. A narration is cut into numbers by four patterns:
identifiers are taken out, an amount is split off its currency, and what
is left is searched for runs of digits with separators; each run is read in
every way it can be meant. Numbers are exact.
-/

namespace RetentionEngine

namespace Explain

open Python (CodePoint Text Unicode point text roundTo)

/-! ## The characters of a pattern -/

/-- What `re` asks the Unicode database: of characters that are not ASCII,
also whether they are letters or numerals. -/
structure Classes extends Unicode where
  isAlnum : CodePoint → Bool

namespace Classes

variable (u : Classes)

/-- The digit a character stands for. -/
def digit? (c : CodePoint) : Option (Fin 10) :=
  if h : 48 ≤ c.val ∧ c.val ≤ 57 then some ⟨c.val - 48, by omega⟩
  else if c.val < 128 then none
  else u.decimalDigit c

/-- `\d`. -/
def isDigit (c : CodePoint) : Bool := (u.digit? c).isSome

/-- `\w`. -/
def isWord (c : CodePoint) : Bool :=
  u.isDigit c || decide (65 ≤ c.val ∧ c.val ≤ 90) || decide (97 ≤ c.val ∧ c.val ≤ 122) ||
    decide (c = point '_') || (decide (128 ≤ c.val) && u.isAlnum c)

end Classes

/-- `[0-9a-f]`, ignoring case. -/
def isHexDigit (c : CodePoint) : Bool :=
  decide (48 ≤ c.val ∧ c.val ≤ 57) || decide (65 ≤ c.val ∧ c.val ≤ 70) ||
    decide (97 ≤ c.val ∧ c.val ≤ 102)

/-- `[.,]`. -/
def isSep (c : CodePoint) : Bool := c = point '.' || c = point ','

variable (u : Classes)

/-- `[\d.,]`. -/
def isNumberChar (c : CodePoint) : Bool := u.isDigit c || isSep c

/-! ## Finding the numbers -/

/-- A run of word characters that `_HEX_ID` matches: its borders are those
of the run. -/
def isHexId (run : Text) : Bool := decide (12 ≤ run.length) && run.all isHexDigit

/-- `_HEX_ID.findall(text)`. -/
def hexIds (s : Text) : List Text := (Munch.runs u.isWord [] s).filter isHexId

/-- What is left of a run of word characters. -/
def blankHexId (run : Text) : Text := if isHexId run then [point ' '] else run

/-- `_HEX_ID.sub(" ", text)`. -/
def dropHexIds (s : Text) : Text := Munch.mapRuns u.isWord blankHexId [] s

/-- The text before ends in `Rp`. -/
def endsRp (pre : Text) : Bool := [point 'R', point 'p'].isSuffixOf pre

/-- What `_RP_GLUED.sub("Rp ", text)` makes of one character: a blank stands
before a digit that follows `Rp`, and for a dot between the two. -/
def splitRpAt (pre : Text) (c : CodePoint) (next : Option CodePoint) : Text :=
  if endsRp pre && u.isDigit c then [point ' ', c]
  else if endsRp pre && decide (c = point '.') && next.any u.isDigit then [point ' ']
  else [c]

/-- `_RP_GLUED.sub("Rp ", text)`, `pre` being what stands before. -/
def splitRp (pre : Text) : Text → Text
  | [] => []
  | c :: s => splitRpAt u pre c s.head? ++ splitRp (pre ++ [c]) s

/-- A digit here is the first of a number: `(?<![\w.,])\d`. -/
def startsNumber (pre : Text) (c : CodePoint) : Bool :=
  u.isDigit c && pre.getLast?.all fun b => !(u.isWord b || isSep b)

/-- `_NUMBER.finditer(text)`: each match with the text before it. -/
def numberTokens (s : Text) : List (Text × Text) :=
  Munch.scan (startsNumber u) (isNumberChar u) [] none s

/-- `re.search(r"Rp\.?\s*$", text[max(0, start - 4):start])`. -/
def afterRp (pre : Text) : Bool :=
  let window := (pre.reverse.take 4).dropWhile fun c => decide (Python.isSpace c)
  [point 'p', point 'R'].isPrefixOf window || [point '.', point 'p', point 'R'].isPrefixOf window

/-! ## Reading a number -/

/-- `token.rstrip(".,")`. -/
def stripSeps (token : Text) : Text := (token.reverse.dropWhile isSep).reverse

/-- The number some digits show. -/
def ofDigits (digits : Text) : ℕ :=
  digits.foldl (fun n c => 10 * n + ((u.digit? c).elim 0 Fin.val)) 0

/-- `_THOUSANDS` on the groups between the separators. -/
def isThousands : List Text → Bool
  | [] => false
  | first :: rest =>
      first.head?.any (fun c => decide (49 ≤ c.val ∧ c.val ≤ 57)) && decide (first.length ≤ 3) &&
        first.all u.isDigit && !rest.isEmpty &&
          rest.all fun g => decide (g.length = 3) && g.all u.isDigit

variable {K : Type} [Field K]

/-- `float(token)` of the groups before and after the separator. -/
def decimal (groups : List Text) : K :=
  (ofDigits u groups.flatten : K) / ((10 ^ (groups.drop 1).flatten.length : ℕ) : K)

/-- The reading with at most one separator, a decimal one. -/
def plainReading (token : Text) : List K :=
  if token.count (point '.') ≤ 1 ∧ token.count (point ',') = 0 then
    [decimal u (token.splitOnP isSep)]
  else if token.count (point ',') = 1 ∧ token.count (point '.') = 0 then
    [decimal u (token.splitOnP isSep)]
  else []

/-- `_interpretations`. -/
def interpretations (token : Text) (rupiah : Bool) : List K :=
  let token := stripSeps token
  let groups := token.splitOnP isSep
  if isThousands u groups then
    (ofDigits u groups.flatten : K) :: if rupiah then [] else plainReading u token
  else plainReading u token

/-- `extract_numbers`. -/
def extractNumbers (s : Text) : List (List K) :=
  ((numberTokens u (splitRp u [] (dropHexIds u s))).map fun m =>
    interpretations u m.2 (afterRp m.1)).filter fun options => !options.isEmpty

/-! ## The fact sheet -/

/-- A value of `model_dump(mode="json")`. -/
inductive Node (K : Type)
  | null
  | bool (b : Bool)
  | num (x : K)
  | str (s : Text)
  | dict (entries : List (Text × Node K))
  | list (elements : List (Node K))

/-- `FactSheet` with its dictionaries open to any content. -/
structure OpenFactSheet (K : Type) where
  subjectType : Text
  subjectRef : Text
  memberCount : ℤ
  arm : Arm
  topPick : List (Text × Node K)
  runnerUp : Option (List (Text × Node K))
  risk : List (Text × Node K)
  circle : Option (List (Text × Node K))
  impact : Option (List (Text × Node K))
  externalSignal : Option (List (Text × Node K))
  policy : List (Text × Node K)
  allocation : List (Text × Node K)
  reasonFactors : List (List (Text × Node K))
  syntheticData : Bool

/-- The text of an arm. -/
def armText : Arm → String
  | .control => "CONTROL"
  | .naive => "NAIVE"
  | .engine => "ENGINE"

/-- A dictionary that may be missing. -/
def Node.ofOption (entries : Option (List (Text × Node K))) : Node K :=
  entries.elim .null .dict

/-- `fact_sheet.model_dump(mode="json")`. -/
def OpenFactSheet.modelDump (sheet : OpenFactSheet K) : Node K :=
  .dict [(text "subject_type", .str sheet.subjectType), (text "subject_ref", .str sheet.subjectRef),
    (text "member_count", .num sheet.memberCount), (text "arm", .str (text (armText sheet.arm))),
    (text "top_pick", .dict sheet.topPick), (text "runner_up", .ofOption sheet.runnerUp),
    (text "risk", .dict sheet.risk), (text "circle", .ofOption sheet.circle),
    (text "impact", .ofOption sheet.impact),
    (text "external_signal", .ofOption sheet.externalSignal), (text "policy", .dict sheet.policy),
    (text "allocation", .dict sheet.allocation),
    (text "reason_factors", .list (sheet.reasonFactors.map .dict)),
    (text "synthetic_data", .bool sheet.syntheticData)]

variable [LinearOrder K]

mutual

/-- The numbers `_walk` collects. -/
def numbersOf : Node K → List K
  | .null => []
  | .bool _ => []
  | .num x => [|x|]
  | .str s => (extractNumbers u s).flatten
  | .dict entries => numbersOfEntries entries
  | .list elements => numbersOfElements elements

/-- Those of a dictionary's values. -/
def numbersOfEntries : List (Text × Node K) → List K
  | [] => []
  | (_, v) :: l => numbersOf v ++ numbersOfEntries l

/-- Those of a list's elements. -/
def numbersOfElements : List (Node K) → List K
  | [] => []
  | v :: l => numbersOf v ++ numbersOfElements l

end

mutual

/-- The texts `_walk` collects. -/
def stringsOf : Node K → List Text
  | .null => []
  | .bool _ => []
  | .num _ => []
  | .str s => [s]
  | .dict entries => stringsOfEntries entries
  | .list elements => stringsOfElements elements

/-- Those of a dictionary's values. -/
def stringsOfEntries : List (Text × Node K) → List Text
  | [] => []
  | (_, v) :: l => stringsOf v ++ stringsOfEntries l

/-- Those of a list's elements. -/
def stringsOfElements : List (Node K) → List Text
  | [] => []
  | v :: l => stringsOf v ++ stringsOfElements l

end

variable [FloorRing K]

/-- `allowed_numbers`. -/
def allowedNumbers (dump : Node K) : List K :=
  let raw := numbersOf u dump
  raw ++ raw.flatMap fun v =>
    [roundTo 1 v, roundTo 2 v, roundTo 3 v, roundTo 0 (v * ((100 : ℕ) : K)),
      roundTo 1 (v * ((100 : ℕ) : K))]

/-! ## The validator -/

/-- `MAX_CHARS`. -/
def maxChars : ℕ := 1200

/-- `_TOL`. -/
def tol : K := 1 / 1000000

/-- The reason of a `NarrationRejected`: of an identifier its first six
characters are shown, of a number its least reading. -/
inductive Rejection (K : Type)
  | empty
  | tooLong
  | unknownIdentifier (shown : Text)
  | unknownNumber (shown : Option K)
  deriving DecidableEq, Repr

/-- `s.lower()` on ASCII letters, which is all an identifier can be found
by: no other character's lower case has a hexadecimal digit. -/
def lowerText (s : Text) : Text :=
  s.map fun c => if h : 65 ≤ c.val ∧ c.val ≤ 90 then ⟨c.val + 32, by omega⟩ else c

/-- `" ".join(strings)`. -/
def joinBlank (strings : List Text) : Text := (strings.intersperse [point ' ']).flatten

/-- Some reading is within the tolerance of an allowed number. -/
def knows (allowed options : List K) : Bool :=
  options.any fun o => allowed.any fun a => decide (|o - a| ≤ tol)

/-- `validate_narration`. -/
def validateNarration (s : Text) (dump : Node K) : Except (Rejection K) Unit := do
  if s.all fun c => decide (Python.isSpace c) then throw .empty
  if maxChars < s.length then throw .tooLong
  let knownText := lowerText (joinBlank (stringsOf dump))
  match (hexIds u s).find? fun ident => decide (¬ lowerText ident <:+: knownText) with
  | some ident => throw (.unknownIdentifier (ident.take 6))
  | none => pure ()
  let allowed := allowedNumbers u dump
  match (extractNumbers u s).find? fun options => !knows allowed options with
  | some options => throw (.unknownNumber options.min?)
  | none => pure ()

end Explain

end RetentionEngine
