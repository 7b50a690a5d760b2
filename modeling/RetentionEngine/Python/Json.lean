import RetentionEngine.Python.Text

/-!
# JSON values

What `json.loads` returns, and what the language does with such a value
whatever it is: its truth, `str` and `repr`. A float is known by its
`repr`; the keys of an object are distinct.
-/

namespace RetentionEngine

namespace Python

/-- A JSON value as a Python object. -/
inductive Json
  | null
  | bool (b : Bool)
  | int (n : ℤ)
  | float (shown : String)
  | str (s : Text)
  | list (elements : List Json)
  | dict (entries : List (Text × Json))

namespace Json

/-- `bool(v)`. -/
def truthy : Json → Bool
  | null => false
  | bool b => b
  | int n => n ≠ 0
  | float shown => shown ≠ "0.0" ∧ shown ≠ "-0.0"
  | str s => s ≠ []
  | list elements => !elements.isEmpty
  | dict entries => !entries.isEmpty

/-- `v == s` for a text `s`. -/
def isText (s : Text) : Json → Bool
  | str t => t = s
  | _ => false

/-- `d.get(k)` of an object. -/
def get? (entries : List (Text × Json)) (k : Text) : Option Json := entries.lookup k

variable (u : Unicode)

/-- The texts with a comma and a blank between them. -/
def join : List Text → Text
  | [] => []
  | [s] => s
  | s :: t :: l => s ++ text ", " ++ join (t :: l)

mutual

/-- `repr(v)`. -/
def repr : Json → Text
  | null => text "None"
  | bool b => text (if b then "True" else "False")
  | int n => text (toString n)
  | float shown => text shown
  | str s => reprText u s
  | list elements => text "[" ++ join (reprs elements) ++ text "]"
  | dict entries => text "\x7b" ++ join (reprEntries entries) ++ text "\x7d"

/-- The elements of a list. -/
def reprs : List Json → List Text
  | [] => []
  | v :: l => repr v :: reprs l

/-- The entries of an object. -/
def reprEntries : List (Text × Json) → List Text
  | [] => []
  | (k, v) :: l => (reprText u k ++ text ": " ++ repr v) :: reprEntries l

end

/-- `str(v)`. -/
def toText : Json → Text
  | str s => s
  | v => repr u v

/-- A text that cannot be encoded. -/
def HasLoneSurrogate : Json → Prop
  | str s => ¬ Encodable s
  | _ => False

instance : DecidablePred HasLoneSurrogate := fun v => match v with
  | str s => inferInstanceAs (Decidable (¬ Encodable s))
  | null | bool _ | int _ | float _ | list _ | dict _ => inferInstanceAs (Decidable False)

theorem any_isText {s : Text} {elements : List Json} :
    elements.any (isText s) = true ↔ str s ∈ elements := by
  rw [List.any_eq_true]
  constructor
  · rintro ⟨v, hv, htext⟩
    cases v with
    | str t => exact of_decide_eq_true htext ▸ hv
    | null | bool _ | int _ | float _ | list _ | dict _ => cases htext
  · exact fun hmem => ⟨str s, hmem, decide_eq_true rfl⟩

/-! ## What can be encoded -/

theorem encodable_join {l : List Text} (h : ∀ s ∈ l, Encodable s) : Encodable (join l) := by
  induction l with
  | nil => exact encodable_nil
  | cons s l ih =>
      cases l with
      | nil => exact h s List.mem_cons_self
      | cons t l =>
          have htail := ih fun r hr => h r (List.mem_cons_of_mem _ hr)
          have hhead := encodable_append.mpr ⟨h s List.mem_cons_self, encodable_text ", "⟩
          exact encodable_append.mpr ⟨hhead, htail⟩

theorem encodable_enclosed {s : Text} (a b : String) (h : Encodable s) :
    Encodable (text a ++ s ++ text b) :=
  encodable_append.mpr ⟨encodable_append.mpr ⟨encodable_text a, h⟩, encodable_text b⟩

/-- **Every `repr` can be encoded.** -/
theorem encodable_repr (v : Json) : Encodable (repr u v) := by
  refine (repr.mutual_induct (fun v => Encodable (repr u v))
    (fun entries => ∀ s ∈ reprEntries u entries, Encodable s)
    (fun elements => ∀ s ∈ reprs u elements, Encodable s)
    ?null ?bool ?int ?float ?str ?list ?dict ?nil ?cons ?nilEntry ?consEntry).1 v
  case null => exact encodable_text _
  case bool => exact fun _ => encodable_text _
  case int => exact fun _ => encodable_text _
  case float => exact fun _ => encodable_text _
  case str => exact fun _ => encodable_reprText
  case list => exact fun _ ih => encodable_enclosed _ _ (encodable_join ih)
  case dict => exact fun _ ih => encodable_enclosed _ _ (encodable_join ih)
  case nil => exact fun _ h => absurd h List.not_mem_nil
  case cons =>
    intro v l hv hl s hs
    rcases List.mem_cons.mp hs with rfl | hs
    · exact hv
    · exact hl s hs
  case nilEntry => exact fun _ h => absurd h List.not_mem_nil
  case consEntry =>
    intro k v l hv hl s hs
    rcases List.mem_cons.mp hs with rfl | hs
    · have hkey := encodable_append.mpr ⟨encodable_reprText (u := u) (s := k), encodable_text ": "⟩
      exact encodable_append.mpr ⟨hkey, hv⟩
    · exact hl s hs

/-- **`str(v)` can be encoded** unless `v` is itself a text with a lone
surrogate. -/
theorem encodable_toText (v : Json) : Encodable (toText u v) ↔ ¬ HasLoneSurrogate v := by
  cases v with
  | str s => exact Decidable.not_not.symm
  | null | bool _ | int _ | float _ | list _ | dict _ =>
      exact iff_of_true (encodable_repr u _) not_false

end Json

end Python

end RetentionEngine
