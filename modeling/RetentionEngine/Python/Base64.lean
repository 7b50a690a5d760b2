import Mathlib.Data.List.Basic
import Mathlib.Data.Nat.Notation

/-!
# Base64

`base64.urlsafe_b64encode` and `base64.urlsafe_b64decode`. The decoder is
the lenient one: it passes over what is no letter of the alphabet, ends at
the first complete padding, and fails on a quad that is left open.
-/

namespace RetentionEngine

namespace Python

namespace Base64

/-- The padding. -/
def pad : UInt8 := 61

/-- A letter of the standard alphabet. -/
def letter (n : ℕ) : UInt8 :=
  if n < 26 then UInt8.ofNat (65 + n)
  else if n < 52 then UInt8.ofNat (97 + (n - 26))
  else if n < 62 then UInt8.ofNat (48 + (n - 52))
  else if n = 62 then 43 else 47

/-- What a letter stands for. -/
def sextet (c : UInt8) : Option ℕ :=
  if 65 ≤ c ∧ c ≤ 90 then some (c.toNat - 65)
  else if 97 ≤ c ∧ c ≤ 122 then some (c.toNat - 97 + 26)
  else if 48 ≤ c ∧ c ≤ 57 then some (c.toNat - 48 + 52)
  else if c = 43 then some 62
  else if c = 47 then some 63
  else none

/-- `binascii.b2a_base64` without its newline. -/
def b2aBase64 : List UInt8 → List UInt8
  | [] => []
  | [a] => [letter (a.toNat / 4), letter (a.toNat % 4 * 16), pad, pad]
  | [a, b] =>
      [letter (a.toNat / 4), letter (a.toNat % 4 * 16 + b.toNat / 16),
        letter (b.toNat % 16 * 4), pad]
  | a :: b :: c :: l =>
      letter (a.toNat / 4) :: letter (a.toNat % 4 * 16 + b.toNat / 16) ::
        letter (b.toNat % 16 * 4 + c.toNat / 64) :: letter (c.toNat % 64) :: b2aBase64 l

/-- `binascii.a2b_base64`, `quadPos` letters into a quad with `leftchar`
left of the last one and `pads` read since; `none` is its error. -/
def a2bBase64 (quadPos leftchar pads : ℕ) : List UInt8 → Option (List UInt8)
  | [] => if quadPos = 0 then some [] else none
  | c :: l =>
      if c = pad then
        if 2 ≤ quadPos ∧ 4 ≤ quadPos + (pads + 1) then some []
        else a2bBase64 quadPos leftchar (if 2 ≤ quadPos then pads + 1 else pads) l
      else match sextet c with
        | none => a2bBase64 quadPos leftchar pads l
        | some v =>
            match quadPos with
            | 0 => a2bBase64 1 v 0 l
            | 1 => (a2bBase64 2 (v % 16) 0 l).map (UInt8.ofNat (leftchar * 4 + v / 16) :: ·)
            | 2 => (a2bBase64 3 (v % 4) 0 l).map (UInt8.ofNat (leftchar * 16 + v / 4) :: ·)
            | _ => (a2bBase64 0 0 0 l).map (UInt8.ofNat (leftchar * 64 + v) :: ·)

/-- The translation to the URL-safe alphabet, and back. -/
def toUrlsafe (c : UInt8) : UInt8 := if c = 43 then 45 else if c = 47 then 95 else c

def fromUrlsafe (c : UInt8) : UInt8 := if c = 45 then 43 else if c = 95 then 47 else c

/-- `base64.urlsafe_b64encode`. -/
def urlsafeB64encode (l : List UInt8) : List UInt8 := (b2aBase64 l).map toUrlsafe

/-- `base64.urlsafe_b64decode`. -/
def urlsafeB64decode (l : List UInt8) : Option (List UInt8) :=
  a2bBase64 0 0 0 (l.map fromUrlsafe)

/-! ## What was encoded is read back -/

variable {n quadPos leftchar pads : ℕ} {l : List UInt8}

theorem sextet_letter (h : n < 64) : sextet (letter n) = some n := by
  have hall : ∀ m : Fin 64, sextet (letter m) = some m.val := by decide
  exact hall ⟨n, h⟩

theorem letter_ne_pad (h : n < 64) : letter n ≠ pad := by
  have hall : ∀ m : Fin 64, letter m ≠ pad := by decide
  exact hall ⟨n, h⟩

/-! A letter, at each place of the quad. -/

theorem a2bBase64_first (h : n < 64) :
    a2bBase64 0 leftchar pads (letter n :: l) = a2bBase64 1 n 0 l := by
  conv_lhs => unfold a2bBase64
  rw [if_neg (letter_ne_pad h), sextet_letter h]
  rfl

theorem a2bBase64_second (h : n < 64) : a2bBase64 1 leftchar pads (letter n :: l) =
    (a2bBase64 2 (n % 16) 0 l).map (UInt8.ofNat (leftchar * 4 + n / 16) :: ·) := by
  conv_lhs => unfold a2bBase64
  rw [if_neg (letter_ne_pad h), sextet_letter h]
  rfl

theorem a2bBase64_third (h : n < 64) : a2bBase64 2 leftchar pads (letter n :: l) =
    (a2bBase64 3 (n % 4) 0 l).map (UInt8.ofNat (leftchar * 16 + n / 4) :: ·) := by
  conv_lhs => unfold a2bBase64
  rw [if_neg (letter_ne_pad h), sextet_letter h]
  rfl

theorem a2bBase64_fourth (h : n < 64) : a2bBase64 3 leftchar pads (letter n :: l) =
    (a2bBase64 0 0 0 l).map (UInt8.ofNat (leftchar * 64 + n) :: ·) := by
  conv_lhs => unfold a2bBase64
  rw [if_neg (letter_ne_pad h), sextet_letter h]
  rfl

/-- A byte put together from its parts. -/
theorem ofNat_toNat_of_eq {a : UInt8} {n : ℕ} (h : n = a.toNat) : UInt8.ofNat n = a := by
  rw [h, UInt8.ofNat_toNat]

/-- **What was encoded is read back.** -/
theorem a2bBase64_b2aBase64 (l : List UInt8) : a2bBase64 0 0 0 (b2aBase64 l) = some l := by
  induction l using b2aBase64.induct with
  | case1 => rfl
  | case2 a =>
      have ha := a.toNat_lt
      unfold b2aBase64
      rw [a2bBase64_first (by omega), a2bBase64_second (by omega)]
      have hend : a2bBase64 2 (a.toNat % 4 * 16 % 16) 0 [pad, pad] = some [] := rfl
      rw [hend, Option.map_some, ofNat_toNat_of_eq (a := a) (by omega)]
  | case3 a b =>
      have ha := a.toNat_lt
      have hb := b.toNat_lt
      unfold b2aBase64
      rw [a2bBase64_first (by omega), a2bBase64_second (by omega), a2bBase64_third (by omega)]
      have hend : a2bBase64 3 (b.toNat % 16 * 4 % 4) 0 [pad] = some [] := rfl
      rw [hend, Option.map_some, Option.map_some, ofNat_toNat_of_eq (a := a) (by omega),
        ofNat_toNat_of_eq (a := b) (by omega)]
  | case4 a b c l ih =>
      have ha := a.toNat_lt
      have hb := b.toNat_lt
      have hc := c.toNat_lt
      unfold b2aBase64
      rw [a2bBase64_first (by omega), a2bBase64_second (by omega), a2bBase64_third (by omega),
        a2bBase64_fourth (by omega)]
      rw [ih, Option.map_some, Option.map_some, Option.map_some,
        ofNat_toNat_of_eq (a := a) (by omega), ofNat_toNat_of_eq (a := b) (by omega),
        ofNat_toNat_of_eq (a := c) (by omega)]

/-! ## The URL-safe alphabet -/

/-- **What the encoder writes** is ASCII and has none of the characters that
the translation to the URL-safe alphabet would mix up. -/
theorem of_mem_b2aBase64 {c : UInt8} (hc : c ∈ b2aBase64 l) : c = pad ∨ ∃ n < 64, c = letter n := by
  have hletter : ∀ {n : ℕ}, n < 64 → letter n = pad ∨ ∃ m < 64, letter n = letter m :=
    fun h => Or.inr ⟨_, h, rfl⟩
  induction l using b2aBase64.induct with
  | case1 => cases hc
  | case2 a =>
      have ha := a.toNat_lt
      unfold b2aBase64 at hc
      simp only [List.mem_cons, List.not_mem_nil, or_false] at hc
      rcases hc with rfl | rfl | rfl | rfl
      · exact hletter (by omega)
      · exact hletter (by omega)
      · exact Or.inl rfl
      · exact Or.inl rfl
  | case3 a b =>
      have ha := a.toNat_lt
      have hb := b.toNat_lt
      unfold b2aBase64 at hc
      simp only [List.mem_cons, List.not_mem_nil, or_false] at hc
      rcases hc with rfl | rfl | rfl | rfl
      · exact hletter (by omega)
      · exact hletter (by omega)
      · exact hletter (by omega)
      · exact Or.inl rfl
  | case4 a b c' l ih =>
      have ha := a.toNat_lt
      have hb := b.toNat_lt
      have hc' := c'.toNat_lt
      unfold b2aBase64 at hc
      simp only [List.mem_cons] at hc
      rcases hc with rfl | rfl | rfl | rfl | hc
      · exact hletter (by omega)
      · exact hletter (by omega)
      · exact hletter (by omega)
      · exact hletter (by omega)
      · exact ih hc

theorem fromUrlsafe_toUrlsafe {c : UInt8} (hc : c ∈ b2aBase64 l) :
    fromUrlsafe (toUrlsafe c) = c := by
  have hall : ∀ m : Fin 64, fromUrlsafe (toUrlsafe (letter m)) = letter m := by decide
  rcases of_mem_b2aBase64 hc with rfl | ⟨n, hn, rfl⟩
  · rfl
  · exact hall ⟨n, hn⟩

/-- **The URL-safe text is read back.** -/
theorem urlsafeB64decode_urlsafeB64encode (l : List UInt8) :
    urlsafeB64decode (urlsafeB64encode l) = some l := by
  have hback : ((b2aBase64 l).map toUrlsafe).map fromUrlsafe = b2aBase64 l := by
    rw [List.map_map]
    exact (List.map_congr_left fun c hc => fromUrlsafe_toUrlsafe hc).trans (List.map_id _)
  unfold urlsafeB64decode urlsafeB64encode
  rw [hback]
  exact a2bBase64_b2aBase64 l

/-- **What is encoded is ASCII** without a dot. -/
theorem of_mem_urlsafeB64encode {c : UInt8} (hc : c ∈ urlsafeB64encode l) :
    c < 128 ∧ c ≠ 46 := by
  have hall : ∀ m : Fin 64, toUrlsafe (letter m) < 128 ∧ toUrlsafe (letter m) ≠ 46 := by decide
  obtain ⟨d, hd, rfl⟩ := List.mem_map.mp hc
  rcases of_mem_b2aBase64 hd with rfl | ⟨n, hn, rfl⟩
  · decide
  · exact hall ⟨n, hn⟩

end Base64

end Python

end RetentionEngine
