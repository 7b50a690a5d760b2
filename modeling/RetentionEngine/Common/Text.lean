import Mathlib.Data.List.Infix
import Mathlib.Data.String.Basic

/-!
# Texts

The string operations the source's ids are built with, as functions of the
characters, so that they can be evaluated.
-/

namespace RetentionEngine

/-- Python's `s.startswith(p)`. -/
def startsWith (s p : String) : Prop := p.toList <+: s.toList

instance (s p : String) : Decidable (startsWith s p) :=
  inferInstanceAs (Decidable (p.toList <+: s.toList))

/-- Python's `s.removeprefix(p)`. -/
def removePrefix (s p : String) : String :=
  if startsWith s p then String.ofList (s.toList.drop p.length) else s

/-- Python's `s.lower()` on ASCII letters. -/
def lower (s : String) : String := String.ofList (s.toList.map Char.toLower)

/-- Python's `s.upper()` on ASCII letters. -/
def upper (s : String) : String := String.ofList (s.toList.map Char.toUpper)

/-- Python's `ch.isspace()`. -/
def isSpace (ch : Char) : Prop :=
  9 ≤ ch.toNat ∧ ch.toNat ≤ 13 ∨ 28 ≤ ch.toNat ∧ ch.toNat ≤ 32 ∨
    8192 ≤ ch.toNat ∧ ch.toNat ≤ 8202 ∨
    ch.toNat ∈ [133, 160, 5760, 8232, 8233, 8239, 8287, 12288]

instance : DecidablePred isSpace := fun _ => inferInstanceAs (Decidable (_ ∨ _))

/-- Python's truth of `s.strip()`. -/
def nonBlank (s : String) : Prop := ∃ ch ∈ s.toList, ¬ isSpace ch

instance : DecidablePred nonBlank := fun s => List.decidableBEx (fun ch => ¬ isSpace ch) s.toList

/-- Python's `s[:n]`. -/
def take (s : String) (n : ℕ) : String := String.ofList (s.toList.take n)

theorem startsWith_append (p s : String) : startsWith (p ++ s) p := by
  unfold startsWith
  rw [String.toList_append]
  exact List.prefix_append _ _

theorem append_right_inj_text {p s t : String} (h : p ++ s = p ++ t) : s = t := by
  have hl := congrArg String.toList h
  rw [String.toList_append, String.toList_append] at hl
  exact String.toList_inj.mp (List.append_cancel_left hl)

@[simp] theorem removePrefix_append (p s : String) : removePrefix (p ++ s) p = s := by
  unfold removePrefix
  rw [if_pos (startsWith_append p s), String.toList_append, ← String.length_toList,
    List.drop_left, String.ofList_toList]

/-- A number is read back from its text. -/
theorem toString_injective : Function.Injective (toString : ℕ → String) := by
  intro m n h
  have hdigits : Nat.toDigits 10 m = Nat.toDigits 10 n := by
    rw [← Nat.toList_repr, ← Nat.toList_repr]
    exact congrArg String.toList h
  rw [← Nat.ofDigitChars_ten_toDigits (n := m), hdigits, Nat.ofDigitChars_ten_toDigits]

/-- Two texts cut at their first separator agree on both sides of it. -/
theorem append_cons_inj {α : Type*} {s : α} {a a' b b' : List α} (ha : s ∉ a) (ha' : s ∉ a')
    (h : a ++ s :: b = a' ++ s :: b') : a = a' ∧ b = b' := by
  induction a generalizing a' with
  | nil =>
      cases a' with
      | nil => exact ⟨rfl, (List.cons.inj h).2⟩
      | cons x a' => exact absurd ((List.cons.inj h).1 ▸ List.mem_cons_self) ha'
  | cons x a ih =>
      cases a' with
      | nil => exact absurd ((List.cons.inj h).1 ▸ List.mem_cons_self) ha
      | cons x' a' =>
          obtain ⟨rfl, htail⟩ := List.cons.inj h
          obtain ⟨rfl, rfl⟩ := ih (fun hmem => ha (List.mem_cons_of_mem _ hmem))
            (fun hmem => ha' (List.mem_cons_of_mem _ hmem)) htail
          exact ⟨rfl, rfl⟩

/-- The same for the last separator. -/
theorem append_cons_inj_last {α : Type*} {s : α} {a a' b b' : List α} (hb : s ∉ b) (hb' : s ∉ b')
    (h : a ++ s :: b = a' ++ s :: b') : a = a' ∧ b = b' := by
  have hrev := congrArg List.reverse h
  simp only [List.reverse_append, List.reverse_cons, List.append_assoc, List.singleton_append]
    at hrev
  obtain ⟨hbb, haa⟩ := append_cons_inj (by simpa using hb) (by simpa using hb') hrev
  exact ⟨List.reverse_inj.mp haa, List.reverse_inj.mp hbb⟩

/-- Texts without the separator are read back from their join. -/
theorem intercalate_inj {sep : String} {c : Char} {l l' : List String} (hsep : sep.toList = [c])
    (hne : l ≠ []) (hne' : l' ≠ []) (hl : ∀ s ∈ l, c ∉ s.toList) (hl' : ∀ s ∈ l', c ∉ s.toList)
    (h : sep.intercalate l = sep.intercalate l') : l = l' := by
  have hchars := congrArg (fun s => s.toList.splitOn c) h
  simp only [String.toList_intercalate, hsep] at hchars
  rw [List.splitOn_intercalate c (by simpa using hl) (by simpa using hne),
    List.splitOn_intercalate c (by simpa using hl') (by simpa using hne')] at hchars
  exact List.map_injective_iff.mpr (fun _ _ => String.toList_inj.mp) hchars

end RetentionEngine
