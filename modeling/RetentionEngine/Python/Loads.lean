import RetentionEngine.Common.Dict
import RetentionEngine.Python.Codecs
import RetentionEngine.Python.Dumps

/-!
# `json.loads`

The decoder in its defaults, with the scanner it calls. Every reader returns
the value and what is left of the text. Two things can go wrong: a
`ValueError`, which a `JSONDecodeError`, a `UnicodeDecodeError` and an
integer of too many digits all are, and a `RecursionError`.
-/

namespace RetentionEngine

namespace Python

namespace Json

/-- What `json.loads` raises. -/
inductive LoadsError
  | valueError
  | recursionError
  deriving DecidableEq, Repr

/-- `WHITESPACE`. -/
def isBlank (c : CodePoint) : Bool :=
  c = point ' ' || c = point '\t' || c = point '\n' || c = point '\r'

def skip (t : Text) : Text := t.dropWhile isBlank

/-! ## Strings -/

/-- A half of a surrogate pair: the first, and the second. -/
def isHigh (c : CodePoint) : Bool := 0xD800 ≤ c.val && c.val ≤ 0xDBFF

def isLow (c : CodePoint) : Bool := 0xDC00 ≤ c.val && c.val ≤ 0xDFFF

/-- The character of a surrogate pair. -/
def pair (a b : CodePoint) : CodePoint :=
  ⟨0x10000 + a.val % 0x400 * 0x400 + b.val % 0x400, by omega⟩

/-- What a hexadecimal digit stands for. -/
def hexValue (c : CodePoint) : Option (Fin 16) :=
  if h : 48 ≤ c.val ∧ c.val ≤ 57 then some ⟨c.val - 48, by omega⟩
  else if h : 97 ≤ c.val ∧ c.val ≤ 102 then some ⟨c.val - 87, by omega⟩
  else if h : 65 ≤ c.val ∧ c.val ≤ 70 then some ⟨c.val - 55, by omega⟩
  else none

/-- The four digits after `\u`. -/
def readUnit : Text → Option (CodePoint × Text)
  | a :: b :: c :: d :: t => do
      let a ← hexValue a
      let b ← hexValue b
      let c ← hexValue c
      let d ← hexValue d
      return (⟨a.val * 4096 + b.val * 256 + c.val * 16 + d.val, by omega⟩, t)
  | _ => none

/-- The second half, after the first one. -/
def readLow (c : CodePoint) (t : Text) : Option (CodePoint × Text) :=
  match t with
  | a :: b :: l =>
      if a = point '\\' ∧ b = point 'u' then
        (readUnit l).map fun r => if isLow r.1 then (pair c r.1, r.2) else (c, t)
      else some (c, t)
  | _ => some (c, t)

/-- The character of a letter after a backslash. -/
def unescapes : List (CodePoint × CodePoint) :=
  escapes.map Prod.swap ++ [(point '/', point '/')]

/-- What follows a backslash. -/
def readEscape : Text → Option (CodePoint × Text)
  | [] => none
  | e :: t =>
      if e = point 'u' then
        (readUnit t).bind fun r => if isHigh r.1 then readLow r.1 r.2 else some r
      else (unescapes.lookup e).map fun c => (c, t)

/-- `scanstring` after the opening quote. Each step takes a character, so the
length of the text is fuel enough. -/
def scanString : ℕ → Text → Option (Text × Text)
  | 0, _ => none
  | _ + 1, [] => none
  | fuel + 1, c :: t =>
      if c = point '"' then some ([], t)
      else if c = point '\\' then
        (readEscape t).bind fun r => (scanString fuel r.2).map fun q => (r.1 :: q.1, q.2)
      else if c.val < 32 then none
      else (scanString fuel t).map fun q => (c :: q.1, q.2)

/-! ## Numbers -/

def isDigit (c : CodePoint) : Bool := 48 ≤ c.val && c.val ≤ 57

/-- `int(s)` of digits. -/
def digitsValue (t : Text) : ℕ := t.foldl (fun n c => 10 * n + (c.val - 48)) 0

/-- `(?:0|[1-9]\d*)`. -/
def readWhole : Text → Option (Text × Text)
  | [] => none
  | c :: t =>
      if c = point '0' then some ([c], t)
      else if isDigit c then some (c :: t.takeWhile isDigit, t.dropWhile isDigit)
      else none

/-- `(\.\d+)?`. -/
def readFraction (t : Text) : Text × Text :=
  match t with
  | [] => ([], t)
  | c :: l =>
      if c = point '.' ∧ l.takeWhile isDigit ≠ [] then
        (c :: l.takeWhile isDigit, l.dropWhile isDigit)
      else ([], t)

/-- `[-+]?`. -/
def readSign : Text → Text × Text
  | [] => ([], [])
  | c :: l => if c = point '-' ∨ c = point '+' then ([c], l) else ([], c :: l)

/-- `([eE][-+]?\d+)?`. -/
def readExponent (t : Text) : Text × Text :=
  match t with
  | [] => ([], t)
  | c :: l =>
      if (c = point 'e' ∨ c = point 'E') ∧ (readSign l).2.takeWhile isDigit ≠ [] then
        (c :: ((readSign l).1 ++ (readSign l).2.takeWhile isDigit),
          (readSign l).2.dropWhile isDigit)
      else ([], t)

/-- `-?`. -/
def readMinus : Text → Text × Text
  | [] => ([], [])
  | c :: l => if c = point '-' then ([c], l) else ([], c :: l)

/-- `_match_number`. -/
def readNumber (py : Interpreter) (t : Text) : Except LoadsError (Json × Text) :=
  let (sign, t) := readMinus t
  match readWhole t with
  | none => .error .valueError
  | some (whole, t) =>
      let (fraction, t) := readFraction t
      let (exponent, t) := readExponent t
      if fraction = [] ∧ exponent = [] then
        if maxStrDigits < whole.length then .error .valueError
        else .ok (int (if sign = [] then digitsValue whole else -(digitsValue whole : ℤ)), t)
      else .ok (float (py.reprFloat (sign ++ (whole ++ (fraction ++ exponent)))), t)

/-! ## Values -/

/-- The constants. -/
def constants : List (Text × Json) :=
  [(text "null", null), (text "true", bool true), (text "false", bool false),
    (text "NaN", float "nan"), (text "Infinity", float "inf"), (text "-Infinity", float "-inf")]

/-- A constant, or else a number. -/
def readConstant (py : Interpreter) (t : Text) : Except LoadsError (Json × Text) :=
  match constants.find? fun e => e.1.isPrefixOf t with
  | some e => .ok (e.2, t.drop e.1.length)
  | none => readNumber py t

/-- Whether a comma follows, or `close`. -/
def readDelimiter (close : CodePoint) (t : Text) : Except LoadsError (Bool × Text) :=
  match skip t with
  | [] => .error .valueError
  | c :: t =>
      if c = point ',' then .ok (true, t)
      else if c = close then .ok (false, t)
      else .error .valueError

/-- One `step` after the other, as long as each says that there is more. Each
takes a character, so the length of the text is fuel enough. -/
def several {α : Type} (step : Text → Except LoadsError (α × Bool × Text)) :
    ℕ → Text → Except LoadsError (List α × Text)
  | 0, _ => .error .valueError
  | fuel + 1, t => do
      let (a, more, t) ← step t
      if more then
        let (l, t) ← several step fuel t
        return (a :: l, t)
      else return ([a], t)

section Containers

variable (inner : Text → Except LoadsError (Json × Text))

/-- An element of a list, and whether there are more. -/
def readElement (t : Text) : Except LoadsError (Json × Bool × Text) := do
  let (v, t) ← inner (skip t)
  let (more, t) ← readDelimiter (point ']') t
  return (v, more, t)

/-- `JSONArray` after the bracket. -/
def readElements (t : Text) : Except LoadsError (Json × Text) :=
  match skip t with
  | [] => .error .valueError
  | c :: l =>
      if c = point ']' then .ok (list [], l)
      else do
        let (elements, t) ← several (readElement inner) t.length t
        return (list elements, t)

/-- An entry of an object, and whether there are more. -/
def readEntry (t : Text) : Except LoadsError ((Text × Json) × Bool × Text) :=
  match skip t with
  | [] => .error .valueError
  | c :: t =>
      if c = point '"' then
        match scanString t.length t with
        | none => .error .valueError
        | some (k, t) =>
            match skip t with
            | [] => .error .valueError
            | c :: t =>
                if c = point ':' then do
                  let (v, t) ← inner (skip t)
                  let (more, t) ← readDelimiter (point '\x7d') t
                  return ((k, v), more, t)
                else .error .valueError
      else .error .valueError

/-- The object of pairs: of two with one key, the later value. -/
def ofPairs (l : List (Text × Json)) : List (Text × Json) :=
  (Dict.ofList Prod.fst Prod.snd l).entries

/-- `JSONObject` after the brace. -/
def readEntries (t : Text) : Except LoadsError (Json × Text) :=
  match skip t with
  | [] => .error .valueError
  | c :: l =>
      if c = point '\x7d' then .ok (dict [], l)
      else do
        let (pairs, t) ← several (readEntry inner) t.length t
        return (dict (ofPairs pairs), t)

end Containers

/-- `scan_once`, with what reads inside a container, unless there is no room
for one. -/
def scanOnce (py : Interpreter) (inner : Option (Text → Except LoadsError (Json × Text)))
    (t : Text) : Except LoadsError (Json × Text) :=
  match t with
  | [] => .error .valueError
  | c :: l =>
      if c = point '"' then
        match scanString l.length l with
        | none => .error .valueError
        | some (s, t) => .ok (str s, t)
      else if c = point '\x7b' then
        match inner with
        | none => .error .recursionError
        | some inner => readEntries inner l
      else if c = point '[' then
        match inner with
        | none => .error .recursionError
        | some inner => readElements inner l
      else readConstant py t

/-- A value of at most `depth` containers inside each other. -/
def readValue (py : Interpreter) : ℕ → Text → Except LoadsError (Json × Text)
  | 0 => scanOnce py none
  | depth + 1 => scanOnce py (some (readValue py depth))

/-- `JSONDecoder.decode`. -/
def decode (py : Interpreter) (t : Text) : Except LoadsError Json := do
  let (v, t) ← readValue py py.decodeDepth (skip t)
  if skip t = [] then return v else throw .valueError

/-- The characters of bytes: ASCII is ASCII in the encoding that is detected,
unless there are zero bytes. -/
def decodeBytes (py : Interpreter) (l : List UInt8) : Option Text :=
  if l.all fun b => 0 < b && b < 128 then some (decodeAscii l) else py.decodeOther l

/-- `json.loads` of bytes. -/
def loads (py : Interpreter) (l : List UInt8) : Except LoadsError Json :=
  match decodeBytes py l with
  | none => .error .valueError
  | some t => decode py t

end Json

end Python

end RetentionEngine
