import Mathlib
import RetentionEngine.Python.Text

/-!
# The digits of a number

`str` of an integer, as a text: its decimal digits, and a minus before them.
-/

namespace RetentionEngine

namespace Python

theorem text_append (s t : String) : text (s ++ t) = text s ++ text t := by
  unfold text
  rw [String.toList_append, List.map_append]

theorem text_toString (n : ℕ) : text (toString n) = (Nat.toDigits 10 n).map point := by
  unfold text
  rw [show toString n = n.repr from rfl, Nat.toList_repr]

theorem isDigit_of_mem_toDigits {n : ℕ} : ∀ d ∈ Nat.toDigits 10 n, d.isDigit = true := fun _ hd =>
  Nat.isDigit_of_mem_toDigits (by decide) (by decide) hd

/-- The code point of a digit. -/
theorem val_point_of_isDigit {d : Char} (h : d.isDigit = true) :
    48 ≤ (point d).val ∧ (point d).val ≤ 57 := by
  unfold Char.isDigit at h
  rw [Bool.and_eq_true, decide_eq_true_iff, decide_eq_true_iff] at h
  exact h

/-- A number has no leading zero. -/
theorem head?_toDigits {n : ℕ} (hn : 0 < n) : ∀ d ∈ (Nat.toDigits 10 n).head?, '1' ≤ d := by
  induction n using Nat.strong_induction_on with
  | _ n ih =>
      rcases Nat.lt_or_ge n 10 with hlt | hge
      · rw [Nat.toDigits_of_lt_base hlt]
        intro d hd
        obtain rfl : n.digitChar = d := by simpa using hd
        have hall : ∀ n < 10, 0 < n → '1' ≤ n.digitChar := by decide
        exact hall n hlt hn
      · rw [Nat.toDigits_of_base_le (by decide) hge,
          List.head?_append_of_ne_nil _ Nat.toDigits_ne_nil]
        exact ih (n / 10) (by omega) (by omega)

/-- **The text of an integer**: its digits, after a minus if it is negative. -/
theorem text_toString_int (n : ℤ) : text (toString n) =
    (if n < 0 then [point '-'] else []) ++ (Nat.toDigits 10 n.natAbs).map point := by
  rw [← text_toString]
  cases n with
  | ofNat m =>
      have hsign : ¬ Int.ofNat m < 0 := not_lt.mpr (Int.natCast_nonneg m)
      rw [if_neg hsign, List.nil_append]
      rfl
  | negSucc m =>
      rw [if_pos (Int.negSucc_lt_zero m)]
      exact text_append "-" (toString (m + 1))

end Python

end RetentionEngine
