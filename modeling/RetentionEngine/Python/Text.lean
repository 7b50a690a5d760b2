import Mathlib.Data.List.Infix
import Mathlib.Data.Nat.Notation

/-!
# Python texts

A `str` is a list of code points, lone surrogates included: a JSON escape
can name one, and no encoding takes it. What the interpreter takes from
the Unicode database is a parameter.
-/

namespace RetentionEngine

namespace Python

/-- A code point. -/
abbrev CodePoint := Fin 0x110000

/-- A `str`. -/
abbrev Text := List CodePoint

theorem toNat_lt (c : Char) : c.toNat < 0x110000 := by
  have hvalid := c.valid
  unfold UInt32.isValidChar Nat.isValidChar at hvalid
  change c.val.toNat < 0x110000
  omega

/-- The code point of a character. -/
def point (c : Char) : CodePoint := ⟨c.toNat, toNat_lt c⟩

/-- A literal of the source. -/
def text (s : String) : Text := s.toList.map point

/-- Half of a surrogate pair. -/
def IsSurrogate (c : CodePoint) : Prop := 0xD800 ≤ c.val ∧ c.val ≤ 0xDFFF

instance : DecidablePred IsSurrogate := fun _ => inferInstanceAs (Decidable (_ ∧ _))

/-- `s.encode()` succeeds. -/
def Encodable (s : Text) : Prop := ∀ c ∈ s, ¬ IsSurrogate c

instance : DecidablePred Encodable := fun s => List.decidableBAll (fun c => ¬ IsSurrogate c) s

/-- The Unicode database: `str.isprintable` of a character that is not
ASCII, and the digit such a character stands for. -/
structure Unicode where
  isPrintable : CodePoint → Bool
  decimalDigit : CodePoint → Option (Fin 10)
  not_isPrintable : ∀ c, IsSurrogate c → isPrintable c = false

/-- `str.isspace` of one character. -/
def isSpace (c : CodePoint) : Prop :=
  9 ≤ c.val ∧ c.val ≤ 13 ∨ 28 ≤ c.val ∧ c.val ≤ 32 ∨ 8192 ≤ c.val ∧ c.val ≤ 8202 ∨
    c.val ∈ [133, 160, 5760, 8232, 8233, 8239, 8287, 12288]

instance : DecidablePred isSpace := fun _ => inferInstanceAs (Decidable (_ ∨ _))

/-- A digit of `repr`'s escapes. -/
def hexDigit (n : ℕ) : CodePoint :=
  if h : n < 10 then ⟨48 + n, by omega⟩ else ⟨87 + n % 16, by omega⟩

/-- `width` hexadecimal digits of `n`. -/
def hex : ℕ → ℕ → Text
  | 0, _ => []
  | width + 1, n => hex width (n / 16) ++ [hexDigit (n % 16)]

/-- One character of a `repr` between the quotes `q`. -/
def reprChar (u : Unicode) (q c : CodePoint) : Text :=
  if c = q ∨ c = point '\\' then [point '\\', c]
  else if c = point '\t' then text "\\t"
  else if c = point '\n' then text "\\n"
  else if c = point '\r' then text "\\r"
  else if c.val < 32 ∨ c.val = 127 then text "\\x" ++ hex 2 c.val
  else if c.val < 127 then [c]
  else if u.isPrintable c then [c]
  else if c.val < 0x100 then text "\\x" ++ hex 2 c.val
  else if c.val < 0x10000 then text "\\u" ++ hex 4 c.val
  else text "\\U" ++ hex 8 c.val

/-- The quotes of a `repr`: double ones for a text with single ones only. -/
def quote (s : Text) : CodePoint :=
  if point '\'' ∈ s ∧ point '"' ∉ s then point '"' else point '\''

/-- `repr(s)`. -/
def reprText (u : Unicode) (s : Text) : Text :=
  quote s :: s.flatMap (reprChar u (quote s)) ++ [quote s]

/-! ## What can be encoded -/

variable {u : Unicode} {s t : Text} {c q : CodePoint}

theorem not_isSurrogate_point (c : Char) : ¬ IsSurrogate (point c) := by
  have hvalid := c.valid
  unfold IsSurrogate point
  dsimp only
  unfold UInt32.isValidChar Nat.isValidChar at hvalid
  change ¬ (0xD800 ≤ c.val.toNat ∧ c.val.toNat ≤ 0xDFFF)
  omega

/-- **A literal can be encoded.** -/
theorem encodable_text (s : String) : Encodable (text s) := by
  intro c hc
  obtain ⟨ch, -, rfl⟩ := List.mem_map.mp hc
  exact not_isSurrogate_point ch

theorem encodable_append : Encodable (s ++ t) ↔ Encodable s ∧ Encodable t := by
  unfold Encodable
  simp only [List.mem_append, or_imp, forall_and]

theorem encodable_cons : Encodable (c :: s) ↔ ¬ IsSurrogate c ∧ Encodable s := by
  unfold Encodable
  simp only [List.mem_cons, forall_eq_or_imp]

theorem encodable_nil : Encodable [] := fun _ h => absurd h List.not_mem_nil

theorem encodable_flatMap {α : Type*} {l : List α} {f : α → Text}
    (h : ∀ a ∈ l, Encodable (f a)) : Encodable (l.flatMap f) := by
  intro c hc
  obtain ⟨a, ha, hc⟩ := List.mem_flatMap.mp hc
  exact h a ha c hc

theorem not_isSurrogate_hexDigit (n : ℕ) : ¬ IsSurrogate (hexDigit n) := by
  unfold hexDigit IsSurrogate
  split <;> dsimp only <;> omega

theorem encodable_hex (width n : ℕ) : Encodable (hex width n) := by
  induction width generalizing n with
  | zero => exact encodable_nil
  | succ width ih =>
      unfold hex
      exact encodable_append.mpr
        ⟨ih _, encodable_cons.mpr ⟨not_isSurrogate_hexDigit _, encodable_nil⟩⟩

theorem encodable_reprChar (hq : ¬ IsSurrogate q) : Encodable (reprChar u q c) := by
  have hsmall : c.val < 127 → Encodable [c] := by
    intro hc
    refine encodable_cons.mpr ⟨?_, encodable_nil⟩
    unfold IsSurrogate
    omega
  have hescape : ∀ (s : String) (width : ℕ), Encodable (text s ++ hex width c.val) :=
    fun s width => encodable_append.mpr ⟨encodable_text s, encodable_hex width _⟩
  unfold reprChar
  split
  · rename_i hc
    refine encodable_cons.mpr ⟨not_isSurrogate_point _, encodable_cons.mpr ⟨?_, encodable_nil⟩⟩
    rcases hc with rfl | rfl
    · exact hq
    · exact not_isSurrogate_point _
  · split
    · exact encodable_text _
    · split
      · exact encodable_text _
      · split
        · exact encodable_text _
        · split
          · exact hescape _ _
          · split
            · exact hsmall ‹_›
            · split
              · -- a printable character is no surrogate
                rename_i hprint
                refine encodable_cons.mpr ⟨?_, encodable_nil⟩
                intro hsurrogate
                rw [u.not_isPrintable c hsurrogate] at hprint
                cases hprint
              · split
                · exact hescape _ _
                · split <;> exact hescape _ _

/-- **A `repr` can be encoded**, whatever it shows. -/
theorem encodable_reprText : Encodable (reprText u s) := by
  have hq : ¬ IsSurrogate (quote s) := by
    unfold quote
    split <;> exact not_isSurrogate_point _
  unfold reprText
  exact encodable_append.mpr ⟨encodable_cons.mpr
    ⟨hq, encodable_flatMap fun _ _ => encodable_reprChar hq⟩,
    encodable_cons.mpr ⟨hq, encodable_nil⟩⟩

end Python

end RetentionEngine
