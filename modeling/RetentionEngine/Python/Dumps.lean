import RetentionEngine.Python.Json
import Mathlib.Data.List.Sort

/-!
# `json.dumps`

The text `json.dumps(v, sort_keys=True)` returns, in the encoder's defaults:
what is not printable ASCII is escaped, a character above the basic plane as
the two halves of a surrogate pair. An integer of more than 4300 digits is a
`ValueError`, and a value nested deeper than the interpreter has room for a
`RecursionError`.
-/

namespace RetentionEngine

namespace Python

/-- What an interpreter has beside the language: the Unicode database, the
`repr` of the float a text reads as, how many containers inside each other
`json.dumps` and `json.loads` have room for, and the characters `json.loads`
takes bytes for that are not all ASCII. -/
structure Interpreter where
  unicode : Unicode
  reprFloat : Text → String
  encodeDepth : ℕ
  decodeDepth : ℕ
  decodeOther : List UInt8 → Option Text
  decodeDepth_pos : 0 < decodeDepth

namespace Json

/-! ## Values part by part -/

/-- **Induction over a value**: a list and an object from what they hold. -/
@[elab_as_elim] theorem induct {motive : Json → Prop} (null : motive null)
    (bool : ∀ b, motive (bool b)) (int : ∀ n, motive (int n))
    (float : ∀ shown, motive (float shown)) (str : ∀ s, motive (str s))
    (list : ∀ elements, (∀ v ∈ elements, motive v) → motive (list elements))
    (dict : ∀ entries, (∀ e ∈ entries, motive e.2) → motive (dict entries)) (v : Json) :
    motive v := by
  refine @Json.rec motive (fun l => ∀ v ∈ l, motive v)
    (fun l => ∀ e ∈ l, motive e.2) (fun e => motive e.2)
    null bool int float str list dict ?nil ?cons ?nilEntry ?consEntry ?entry v
  case nil => exact fun _ h => absurd h List.not_mem_nil
  case cons => exact fun _ _ hv hl => List.forall_mem_cons.mpr ⟨hv, hl⟩
  case nilEntry => exact fun _ h => absurd h List.not_mem_nil
  case consEntry => exact fun _ _ he hl => List.forall_mem_cons.mpr ⟨he, hl⟩
  case entry => exact fun _ _ hv => hv

mutual

/-- `p` holds of the value and of every value in it. -/
def Every (p : Json → Prop) : Json → Prop
  | list elements => p (list elements) ∧ EveryElement p elements
  | dict entries => p (dict entries) ∧ EveryEntry p entries
  | v => p v

/-- The elements of a list. -/
def EveryElement (p : Json → Prop) : List Json → Prop
  | [] => True
  | v :: l => Every p v ∧ EveryElement p l

/-- The entries of an object. -/
def EveryEntry (p : Json → Prop) : List (Text × Json) → Prop
  | [] => True
  | (_, v) :: l => Every p v ∧ EveryEntry p l

end

mutual

/-- How many containers there are inside each other. -/
def nesting : Json → ℕ
  | list elements => nestingElements elements + 1
  | dict entries => nestingEntries entries + 1
  | _ => 0

/-- The elements of a list. -/
def nestingElements : List Json → ℕ
  | [] => 0
  | v :: l => max (nesting v) (nestingElements l)

/-- The entries of an object. -/
def nestingEntries : List (Text × Json) → ℕ
  | [] => 0
  | (_, v) :: l => max (nesting v) (nestingEntries l)

end

variable {p : Json → Prop} {elements : List Json} {entries : List (Text × Json)} {d : ℕ}

theorem everyElement_iff : EveryElement p elements ↔ ∀ v ∈ elements, Every p v := by
  induction elements with
  | nil => exact iff_of_true trivial fun _ h => absurd h List.not_mem_nil
  | cons v l ih =>
      unfold EveryElement
      rw [List.forall_mem_cons, ih]

theorem everyEntry_iff : EveryEntry p entries ↔ ∀ e ∈ entries, Every p e.2 := by
  induction entries with
  | nil => exact iff_of_true trivial fun _ h => absurd h List.not_mem_nil
  | cons e l ih =>
      unfold EveryEntry
      rw [List.forall_mem_cons, ih]

theorem every_list : Every p (list elements) ↔ p (list elements) ∧ ∀ v ∈ elements, Every p v :=
  and_congr_right fun _ => everyElement_iff

theorem every_dict : Every p (dict entries) ↔ p (dict entries) ∧ ∀ e ∈ entries, Every p e.2 :=
  and_congr_right fun _ => everyEntry_iff

theorem nestingElements_le : nestingElements elements ≤ d ↔ ∀ v ∈ elements, nesting v ≤ d := by
  induction elements with
  | nil => exact iff_of_true (Nat.zero_le d) fun _ h => absurd h List.not_mem_nil
  | cons v l ih =>
      unfold nestingElements
      rw [List.forall_mem_cons, Nat.max_le, ih]

theorem nestingEntries_le : nestingEntries entries ≤ d ↔ ∀ e ∈ entries, nesting e.2 ≤ d := by
  induction entries with
  | nil => exact iff_of_true (Nat.zero_le d) fun _ h => absurd h List.not_mem_nil
  | cons e l ih =>
      unfold nestingEntries
      rw [List.forall_mem_cons, Nat.max_le, ih]

mutual

/-- Whether `p` holds of every part. -/
def decEvery (p : Json → Prop) [DecidablePred p] : (v : Json) → Decidable (Every p v)
  | list elements =>
      have := decEveryElement p elements
      inferInstanceAs (Decidable (p (list elements) ∧ EveryElement p elements))
  | dict entries =>
      have := decEveryEntry p entries
      inferInstanceAs (Decidable (p (dict entries) ∧ EveryEntry p entries))
  | null => inferInstanceAs (Decidable (p null))
  | bool b => inferInstanceAs (Decidable (p (bool b)))
  | int n => inferInstanceAs (Decidable (p (int n)))
  | float shown => inferInstanceAs (Decidable (p (float shown)))
  | str s => inferInstanceAs (Decidable (p (str s)))

/-- The elements of a list. -/
def decEveryElement (p : Json → Prop) [DecidablePred p] :
    (l : List Json) → Decidable (EveryElement p l)
  | [] => isTrue trivial
  | v :: l =>
      have := decEvery p v
      have := decEveryElement p l
      inferInstanceAs (Decidable (Every p v ∧ EveryElement p l))

/-- The entries of an object. -/
def decEveryEntry (p : Json → Prop) [DecidablePred p] :
    (l : List (Text × Json)) → Decidable (EveryEntry p l)
  | [] => isTrue trivial
  | (_, v) :: l =>
      have := decEvery p v
      have := decEveryEntry p l
      inferInstanceAs (Decidable (Every p v ∧ EveryEntry p l))

end

instance [DecidablePred p] : DecidablePred (Every p) := decEvery p

/-! ## Writing a text -/

/-- The characters with a short escape, and its letter. -/
def escapes : List (CodePoint × CodePoint) :=
  [(point '\\', point '\\'), (point '"', point '"'), (8, point 'b'), (12, point 'f'),
    (point '\n', point 'n'), (point '\r', point 'r'), (point '\t', point 't')]

/-- `\u` and four hexadecimal digits. -/
def escapeUnit (c : CodePoint) : Text := point '\\' :: point 'u' :: hex 4 c.val

/-- The halves of the surrogate pair for a character above the basic plane. -/
def highSurrogate (c : CodePoint) : CodePoint := ⟨0xD800 + (c.val - 0x10000) / 0x400, by omega⟩

def lowSurrogate (c : CodePoint) : CodePoint := ⟨0xDC00 + (c.val - 0x10000) % 0x400, by omega⟩

/-- `ESCAPE_ASCII`: one character between the quotes. -/
def escape (c : CodePoint) : Text :=
  match escapes.lookup c with
  | some letter => [point '\\', letter]
  | none =>
      if 32 ≤ c.val ∧ c.val ≤ 126 then [c]
      else if c.val < 0x10000 then escapeUnit c
      else escapeUnit (highSurrogate c) ++ escapeUnit (lowSurrogate c)

/-- `py_encode_basestring_ascii`. -/
def quoted (s : Text) : Text := point '"' :: (s.flatMap escape ++ [point '"'])

/-- `floatstr`. -/
def writtenFloat (shown : String) : Text :=
  if shown = "nan" then text "NaN"
  else if shown = "inf" then text "Infinity"
  else if shown = "-inf" then text "-Infinity"
  else text shown

/-- `s <= t` of texts. -/
def textLe : Text → Text → Bool
  | [], _ => true
  | _ :: _, [] => false
  | a :: s, b :: t => a.val < b.val || (a = b && textLe s t)

/-- The entries in the order of their keys. -/
def sortKeys {α : Type} (entries : List (Text × α)) : List (Text × α) :=
  entries.insertionSort fun e e' => textLe e.1 e'.1 = true

/-- An entry of an object. -/
def writtenEntry (e : Text × Text) : Text := quoted e.1 ++ (text ": " ++ e.2)

mutual

/-- The text of a value, with sorted keys. -/
def written : Json → Text
  | null => text "null"
  | bool b => text (if b then "true" else "false")
  | int n => text (toString n)
  | float shown => writtenFloat shown
  | str s => quoted s
  | list elements => point '[' :: (join (writtenElements elements) ++ [point ']'])
  | dict entries =>
      point '\x7b' :: (join ((sortKeys (writtenEntries entries)).map writtenEntry) ++
        [point '\x7d'])

/-- The elements of a list. -/
def writtenElements : List Json → List Text
  | [] => []
  | v :: l => written v :: writtenElements l

/-- The entries of an object. -/
def writtenEntries : List (Text × Json) → List (Text × Text)
  | [] => []
  | (k, v) :: l => (k, written v) :: writtenEntries l

end

/-- `sys.int_info.default_max_str_digits`. -/
def maxStrDigits : ℕ := 4300

/-- An integer that has a text. -/
def DigitsFit : Json → Prop
  | int n => (Nat.toDigits 10 n.natAbs).length ≤ maxStrDigits
  | _ => True

instance : DecidablePred DigitsFit := fun v => match v with
  | int n => inferInstanceAs (Decidable ((Nat.toDigits 10 n.natAbs).length ≤ maxStrDigits))
  | null | bool _ | float _ | str _ | list _ | dict _ => isTrue trivial

/-- `json.dumps(v, sort_keys=True)`; `none` is a `ValueError` or a
`RecursionError`. -/
def dumps (py : Interpreter) (v : Json) : Option Text :=
  if Every DigitsFit v ∧ nesting v ≤ py.encodeDepth then some (written v) else none

theorem writtenElements_eq : writtenElements elements = elements.map written := by
  induction elements with
  | nil => rfl
  | cons v l ih =>
      unfold writtenElements
      rw [ih, List.map_cons]

theorem writtenEntries_eq :
    writtenEntries entries = entries.map fun e => (e.1, written e.2) := by
  induction entries with
  | nil => rfl
  | cons e l ih =>
      unfold writtenEntries
      rw [ih, List.map_cons]

/-- Sorting looks at the keys only. -/
theorem sortKeys_map {α β : Type} (f : α → β) (l : List (Text × α)) :
    sortKeys (l.map fun e => (e.1, f e.2)) = (sortKeys l).map fun e => (e.1, f e.2) :=
  (List.map_insertionSort (fun e e' : Text × α => textLe e.1 e'.1 = true)
    (fun e e' : Text × β => textLe e.1 e'.1 = true) (fun e => (e.1, f e.2)) l
    fun _ _ _ _ => Iff.rfl).symm

theorem perm_sortKeys {α : Type} (l : List (Text × α)) : (sortKeys l).Perm l :=
  List.perm_insertionSort _ l

theorem mem_sortKeys {α : Type} {l : List (Text × α)} {e : Text × α} : e ∈ sortKeys l ↔ e ∈ l :=
  (perm_sortKeys l).mem_iff

end Json

end Python

end RetentionEngine
