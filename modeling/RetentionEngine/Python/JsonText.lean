import RetentionEngine.Python.Loads
import Mathlib.Data.List.Chain

/-!
# A JSON text is read back

What `json.loads` makes of a text that `json.dumps` wrote. The value comes
back, with the keys of its objects sorted, but for one thing: a surrogate
pair that a text spells as two characters is read as one.
-/

namespace RetentionEngine

namespace Python

namespace Json

/-! ## Strings -/

/-- **A text as it is read back**, its surrogate pairs joined. -/
def joined : Text → Text
  | a :: b :: s =>
      if isHigh a = true ∧ isLow b = true then pair a b :: joined s else a :: joined (b :: s)
  | s => s

/-- **No surrogate pair** is spelt as two characters. -/
def Unpaired (s : Text) : Prop := s.IsChain fun a b => ¬ (isHigh a = true ∧ isLow b = true)

variable {a b c : CodePoint} {s t : Text} {fuel : ℕ}

theorem isHigh_eq_true : isHigh c = true ↔ 0xD800 ≤ c.val ∧ c.val ≤ 0xDBFF := by
  unfold isHigh
  rw [Bool.and_eq_true, decide_eq_true_iff, decide_eq_true_iff]

theorem isLow_eq_true : isLow c = true ↔ 0xDC00 ≤ c.val ∧ c.val ≤ 0xDFFF := by
  unfold isLow
  rw [Bool.and_eq_true, decide_eq_true_iff, decide_eq_true_iff]

theorem not_isHigh_pair : ¬ isHigh (pair a b) = true := by
  rw [isHigh_eq_true]
  unfold pair
  dsimp only
  omega

theorem not_isLow_pair : ¬ isLow (pair a b) = true := by
  rw [isLow_eq_true]
  unfold pair
  dsimp only
  omega

theorem joined_of_pair (ha : isHigh a = true) (hb : isLow b = true) :
    joined (a :: b :: s) = pair a b :: joined s := if_pos ⟨ha, hb⟩

theorem joined_of_not_pair (h : ¬ (isHigh a = true ∧ isLow b = true)) :
    joined (a :: b :: s) = a :: joined (b :: s) := if_neg h

/-- **Induction along a text that is read back**: a pair is one step. -/
theorem pairInduct {motive : Text → Prop} (nil : motive []) (single : ∀ a, motive [a])
    (paired : ∀ a b s, isHigh a = true ∧ isLow b = true → motive s → motive (a :: b :: s))
    (apart : ∀ a b s, ¬ (isHigh a = true ∧ isLow b = true) → motive (b :: s) →
      motive (a :: b :: s)) (s : Text) : motive s := by
  -- of two texts the second is one character longer, so that a pair can step over one
  suffices h : motive s ∧ ∀ a, motive (a :: s) from h.1
  induction s with
  | nil => exact ⟨nil, single⟩
  | cons b s ih =>
      refine ⟨ih.2 b, fun a => ?_⟩
      by_cases h : isHigh a = true ∧ isLow b = true
      · exact paired a b s h ih.1
      · exact apart a b s h (ih.2 b)

/-- The first character is kept, or taken into a pair. -/
theorem head_joined (b : CodePoint) (s : Text) : ∀ c ∈ (joined (b :: s)).head?,
    c = b ∨ ∃ d, c = pair b d := by
  intro c hc
  cases s with
  | nil => exact Or.inl (Option.some.inj hc).symm
  | cons d s =>
      by_cases h : isHigh b = true ∧ isLow d = true
      · rw [joined_of_pair h.1 h.2] at hc
        exact Or.inr ⟨d, (Option.some.inj hc).symm⟩
      · rw [joined_of_not_pair h] at hc
        exact Or.inl (Option.some.inj hc).symm

/-- **What is read back has no pair left.** -/
theorem unpaired_joined (s : Text) : Unpaired (joined s) := by
  unfold Unpaired
  induction s using pairInduct with
  | nil => exact List.IsChain.nil
  | single a => exact List.IsChain.singleton a
  | paired a b s h ih =>
      rw [joined_of_pair h.1 h.2]
      exact List.isChain_cons.mpr ⟨fun c _ hc => not_isHigh_pair hc.1, ih⟩
  | apart a b s h ih =>
      rw [joined_of_not_pair h]
      refine List.isChain_cons.mpr ⟨?_, ih⟩
      intro c hc hpair
      rcases head_joined b s c hc with rfl | ⟨d, rfl⟩
      · exact h hpair
      · exact not_isLow_pair hpair.2

/-- **A text comes back** exactly if it spells no pair as two characters. -/
theorem joined_eq_self_iff : joined s = s ↔ Unpaired s := by
  refine ⟨fun h => h ▸ unpaired_joined s, fun h => ?_⟩
  induction s with
  | nil => rfl
  | cons a s ih =>
      cases s with
      | nil => rfl
      | cons b s =>
          obtain ⟨hab, htail⟩ := List.isChain_cons_cons.mp h
          rw [joined_of_not_pair hab, ih htail]

/-! ### One character -/

theorem hexValue_hexDigit {n : ℕ} (h : n < 16) : hexValue (hexDigit n) = some ⟨n, h⟩ := by
  have hall : ∀ m : Fin 16, hexValue (hexDigit m) = some m := by decide
  exact hall ⟨n, h⟩

theorem hex_four (n : ℕ) : hex 4 n =
    [hexDigit (n / 16 / 16 / 16 % 16), hexDigit (n / 16 / 16 % 16), hexDigit (n / 16 % 16),
      hexDigit (n % 16)] := rfl

/-- Four digits are read back. -/
theorem readUnit_hex (h : c.val < 0x10000) : readUnit (hex 4 c.val ++ t) = some (c, t) := by
  have hmod : ∀ n : ℕ, n % 16 < 16 := fun n => Nat.mod_lt _ (by omega)
  rw [hex_four]
  unfold readUnit
  simp only [List.cons_append, List.nil_append, hexValue_hexDigit (hmod _), Option.bind_eq_bind,
    Option.bind_some, Option.pure_def]
  congr 2
  refine Fin.ext ?_
  show _ = c.val
  dsimp only
  omega

/-- The short escapes: each is read back, none starts a longer one, and all
are of ASCII characters. -/
theorem of_lookup_escapes {letter : CodePoint} (h : escapes.lookup c = some letter) :
    letter ≠ point 'u' ∧ unescapes.lookup letter = some c ∧ c.val < 128 := by
  have hall : escapes.all (fun e => decide (e.2 ≠ point 'u' ∧
      unescapes.lookup e.2 = some e.1 ∧ e.1.val < 128)) = true := by decide
  obtain ⟨l, l', hsplit, -⟩ := List.lookup_eq_some_iff.mp h
  have hmem : (c, letter) ∈ escapes := by
    rw [hsplit]
    exact List.mem_append_right _ List.mem_cons_self
  exact of_decide_eq_true (List.all_eq_true.mp hall _ hmem)

/-- **The four kinds of escape.** -/
theorem escape_cases (c : CodePoint) :
    (∃ letter, escapes.lookup c = some letter ∧ escape c = [point '\\', letter]) ∨
    (c ≠ point '"' ∧ c ≠ point '\\' ∧ 32 ≤ c.val ∧ c.val ≤ 126 ∧ escape c = [c]) ∨
    (c.val < 0x10000 ∧ escape c = escapeUnit c) ∨
    (0x10000 ≤ c.val ∧ escape c = escapeUnit (highSurrogate c) ++ escapeUnit (lowSurrogate c)) := by
  unfold escape
  cases hlookup : escapes.lookup c with
  | some letter => exact Or.inl ⟨letter, rfl, rfl⟩
  | none =>
      refine Or.inr ?_
      dsimp only
      split
      · rename_i hprintable
        refine Or.inl ⟨?_, ?_, hprintable.1, hprintable.2, rfl⟩
        · rintro rfl
          exact absurd hlookup (by decide)
        · rintro rfl
          exact absurd hlookup (by decide)
      · split
        · exact Or.inr (Or.inl ⟨‹_›, rfl⟩)
        · exact Or.inr (Or.inr ⟨not_lt.mp ‹_›, rfl⟩)

theorem escape_of_surrogate (h : 0xD800 ≤ c.val) (h' : c.val ≤ 0xDFFF) :
    escape c = escapeUnit c := by
  rcases escape_cases c with ⟨letter, hlookup, -⟩ | ⟨-, -, -, hle, -⟩ | ⟨-, heq⟩ | ⟨hge, -⟩
  · have hascii := (of_lookup_escapes hlookup).2.2
    omega
  · omega
  · exact heq
  · omega

theorem isHigh_highSurrogate (c : CodePoint) : isHigh (highSurrogate c) = true := by
  have hc := c.isLt
  rw [isHigh_eq_true]
  unfold highSurrogate
  dsimp only
  omega

theorem isLow_lowSurrogate (c : CodePoint) : isLow (lowSurrogate c) = true := by
  rw [isLow_eq_true]
  unfold lowSurrogate
  dsimp only
  omega

/-- The halves of a character make it. -/
theorem pair_surrogates (h : 0x10000 ≤ c.val) : pair (highSurrogate c) (lowSurrogate c) = c := by
  have hc := c.isLt
  refine Fin.ext ?_
  unfold pair highSurrogate lowSurrogate
  dsimp only
  omega

theorem val_lt_of_isHigh (h : isHigh c = true) : c.val < 0x10000 := by
  have hle := (isHigh_eq_true.mp h).2
  omega

theorem val_lt_of_isLow (h : isLow c = true) : c.val < 0x10000 := by
  have hle := (isLow_eq_true.mp h).2
  omega

/-- An escaped unit after the first half of a pair. -/
theorem readLow_escapeUnit (h : b.val < 0x10000) : readLow c (escapeUnit b ++ t) =
    some (if isLow b then (pair c b, t) else (c, escapeUnit b ++ t)) := by
  unfold readLow escapeUnit
  rw [List.cons_append, List.cons_append]
  dsimp only
  rw [if_pos ⟨rfl, rfl⟩, readUnit_hex h, Option.map_some]

theorem readLow_of_head (h : ∀ x ∈ t.head?, x ≠ point '\\') : readLow c t = some (c, t) := by
  unfold readLow
  split
  · rename_i a b l
    exact if_neg fun hab => h a rfl hab.1
  · rfl

/-- What is no second half leaves the first one alone. -/
theorem readLow_escape (h : ¬ isLow b = true) :
    readLow c (escape b ++ t) = some (c, escape b ++ t) := by
  rcases escape_cases b with ⟨letter, hlookup, heq⟩ | ⟨-, hne, -, -, heq⟩ | ⟨hlt, heq⟩ | ⟨hge, heq⟩
  · rw [heq]
    unfold readLow
    dsimp only [List.cons_append, List.nil_append]
    exact if_neg fun hab => (of_lookup_escapes hlookup).1 hab.2
  · rw [heq]
    exact readLow_of_head fun x hx => (Option.some.inj hx) ▸ hne
  · rw [heq, readLow_escapeUnit hlt, if_neg h]
  · have hhigh := isHigh_eq_true.mp (isHigh_highSurrogate b)
    have hlow : ¬ isLow (highSurrogate b) = true := by
      rw [isLow_eq_true]
      omega
    rw [heq, List.append_assoc, readLow_escapeUnit (by omega), if_neg hlow]

theorem readEscape_letter {letter : CodePoint} (h : escapes.lookup c = some letter) :
    readEscape (letter :: t) = some (c, t) := by
  obtain ⟨hne, hback, -⟩ := of_lookup_escapes h
  unfold readEscape
  dsimp only
  rw [if_neg hne, hback, Option.map_some]

theorem scanString_backslash : scanString (fuel + 1) (point '\\' :: t) =
    (readEscape t).bind fun r => (scanString fuel r.2).map fun q => (r.1 :: q.1, q.2) := by
  conv_lhs => unfold scanString
  rw [if_neg (by decide), if_pos rfl]

theorem scanString_plain (hquote : c ≠ point '"') (hback : c ≠ point '\\') (h : 32 ≤ c.val) :
    scanString (fuel + 1) (c :: t) = (scanString fuel t).map fun q => (c :: q.1, q.2) := by
  conv_lhs => unfold scanString
  rw [if_neg hquote, if_neg hback, if_neg (not_lt.mpr h)]

theorem readEscape_unit (h : c.val < 0x10000) : readEscape (point 'u' :: (hex 4 c.val ++ t)) =
    if isHigh c then readLow c t else some (c, t) := by
  unfold readEscape
  dsimp only
  rw [if_pos rfl, readUnit_hex h, Option.bind_some]

/-- **One character of a string.** -/
theorem scanString_escape (hlow : isHigh c = true → readLow c t = some (c, t)) :
    scanString (fuel + 1) (escape c ++ t) =
      (scanString fuel t).map fun q => (c :: q.1, q.2) := by
  rcases escape_cases c with ⟨letter, hlookup, heq⟩ | ⟨hquote, hback, hge, -, heq⟩ | ⟨hlt, heq⟩ |
    ⟨hge, heq⟩
  · rw [heq, List.cons_append, scanString_backslash, List.singleton_append,
      readEscape_letter hlookup, Option.bind_some]
  · rw [heq, List.singleton_append, scanString_plain hquote hback hge]
  · rw [heq]
    unfold escapeUnit
    rw [List.cons_append, scanString_backslash, List.cons_append, readEscape_unit hlt]
    by_cases hhigh : isHigh c = true
    · rw [if_pos hhigh, hlow hhigh, Option.bind_some]
    · rw [if_neg hhigh, Option.bind_some]
  · have hhigh := isHigh_highSurrogate c
    have hlow := isLow_lowSurrogate c
    rw [heq, List.append_assoc]
    conv_lhs => unfold escapeUnit
    rw [List.cons_append, scanString_backslash, List.cons_append,
      readEscape_unit (val_lt_of_isHigh hhigh), if_pos hhigh]
    have hread := readLow_escapeUnit (c := highSurrogate c) (t := t) (val_lt_of_isLow hlow)
    rw [if_pos hlow, pair_surrogates hge] at hread
    unfold escapeUnit at hread
    rw [hread, Option.bind_some]

/-- **A string is read back**, its pairs joined. -/
theorem scanString_quoted (h : s.length < fuel) :
    scanString fuel (s.flatMap escape ++ point '"' :: t) = some (joined s, t) := by
  induction s using pairInduct generalizing fuel with
  | nil =>
      obtain ⟨n, rfl⟩ := Nat.exists_eq_succ_of_ne_zero (Nat.ne_zero_of_lt h)
      rfl
  | single a =>
      obtain ⟨n, rfl⟩ : ∃ n, fuel = n + 2 := ⟨fuel - 2, by
        simp only [List.length_singleton] at h
        omega⟩
      have hlow : isHigh a = true →
          readLow a (point '"' :: t) = some (a, point '"' :: t) := fun _ =>
        readLow_of_head fun x hx => (Option.some.inj hx) ▸ by decide
      rw [List.flatMap_singleton, scanString_escape hlow]
      rfl
  | paired a b s hpair ih =>
      obtain ⟨n, rfl⟩ := Nat.exists_eq_succ_of_ne_zero (Nat.ne_zero_of_lt h)
      have ha := isHigh_eq_true.mp hpair.1
      have hb := isLow_eq_true.mp hpair.2
      have hlength : s.length < n := by
        simp only [List.length_cons] at h
        omega
      rw [List.flatMap_cons, List.flatMap_cons, escape_of_surrogate ha.1 (by omega),
        escape_of_surrogate (by omega) hb.2, List.append_assoc, List.append_assoc]
      have hread := readLow_escapeUnit (c := a) (t := s.flatMap escape ++ point '"' :: t)
        (val_lt_of_isLow hpair.2)
      rw [if_pos hpair.2] at hread
      conv_lhs => unfold escapeUnit
      unfold escapeUnit at hread
      rw [List.cons_append, scanString_backslash, List.cons_append,
        readEscape_unit (val_lt_of_isHigh hpair.1), if_pos hpair.1, hread, Option.bind_some,
        ih hlength, Option.map_some, joined_of_pair hpair.1 hpair.2]
  | apart a b s hpair ih =>
      obtain ⟨n, rfl⟩ := Nat.exists_eq_succ_of_ne_zero (Nat.ne_zero_of_lt h)
      have hlength : (b :: s).length < n := by
        simp only [List.length_cons] at h ⊢
        omega
      have hlow : isHigh a = true → readLow a ((b :: s).flatMap escape ++ point '"' :: t) =
          some (a, (b :: s).flatMap escape ++ point '"' :: t) := by
        intro hhigh
        rw [List.flatMap_cons, List.append_assoc]
        exact readLow_escape fun hb => hpair ⟨hhigh, hb⟩
      rw [List.flatMap_cons, List.append_assoc, scanString_escape hlow, ih hlength,
        Option.map_some, joined_of_not_pair hpair]

/-! ## Numbers -/

/-- An integer part. -/
def IsWhole (t : Text) : Prop :=
  t = [point '0'] ∨ ∃ c l, t = c :: l ∧ c ≠ point '0' ∧ ∀ d ∈ t, isDigit d = true

/-- A fraction, or none. -/
def IsFraction (t : Text) : Prop :=
  t = [] ∨ ∃ l, t = point '.' :: l ∧ l ≠ [] ∧ ∀ d ∈ l, isDigit d = true

/-- An exponent, or none. -/
def IsExponent (t : Text) : Prop :=
  t = [] ∨ ∃ c sign l, t = c :: (sign ++ l) ∧ (c = point 'e' ∨ c = point 'E') ∧
    (sign = [] ∨ sign = [point '-'] ∨ sign = [point '+']) ∧ l ≠ [] ∧ ∀ d ∈ l, isDigit d = true

/-- **The parts of a number.** -/
structure IsNumber (sign whole fraction exponent : Text) : Prop where
  sign : sign = [] ∨ sign = [point '-']
  whole : IsWhole whole
  fraction : IsFraction fraction
  exponent : IsExponent exponent

/-- What may follow a value inside a container: a delimiter. -/
def Ends (t : Text) : Prop := ∀ c ∈ t.head?, c = point ',' ∨ c = point ']' ∨ c = point '\x7d'

variable {sign whole fraction exponent l : Text} {py : Interpreter}

theorem takeWhile_digits (hl : ∀ d ∈ l, isDigit d = true) (ht : ∀ d ∈ t.head?, isDigit d = false) :
    (l ++ t).takeWhile isDigit = l := by
  rw [List.takeWhile_append_of_pos hl]
  cases t with
  | nil => rw [List.takeWhile_nil, List.append_nil]
  | cons c t =>
      rw [List.takeWhile_cons_of_neg (Bool.eq_false_iff.mp (ht c rfl)), List.append_nil]

theorem dropWhile_digits (hl : ∀ d ∈ l, isDigit d = true) (ht : ∀ d ∈ t.head?, isDigit d = false) :
    (l ++ t).dropWhile isDigit = t := by
  rw [List.dropWhile_append_of_pos hl]
  cases t with
  | nil => rfl
  | cons c t => exact List.dropWhile_cons_of_neg (Bool.eq_false_iff.mp (ht c rfl))

theorem readWhole_append (h : IsWhole whole) (ht : ∀ d ∈ t.head?, isDigit d = false) :
    readWhole (whole ++ t) = some (whole, t) := by
  rcases h with rfl | ⟨c, l, rfl, hne, hdigits⟩
  · rfl
  · obtain ⟨hc, hl⟩ := List.forall_mem_cons.mp hdigits
    unfold readWhole
    dsimp only [List.cons_append]
    rw [if_neg hne, if_pos hc, takeWhile_digits hl ht, dropWhile_digits hl ht]

theorem readFraction_append (h : IsFraction fraction)
    (ht : ∀ d ∈ t.head?, isDigit d = false ∧ d ≠ point '.') :
    readFraction (fraction ++ t) = (fraction, t) := by
  rcases h with rfl | ⟨l, rfl, hne, hl⟩
  · rw [List.nil_append]
    cases t with
    | nil => rfl
    | cons c t => exact if_neg fun hc => (ht c rfl).2 hc.1
  · have hdigit : ∀ d ∈ t.head?, isDigit d = false := fun d hd => (ht d hd).1
    unfold readFraction
    dsimp only [List.cons_append]
    rw [takeWhile_digits hl hdigit, dropWhile_digits hl hdigit, if_pos ⟨rfl, hne⟩]

theorem readSign_append (h : sign = [] ∨ sign = [point '-'] ∨ sign = [point '+']) (hne : l ≠ [])
    (hl : ∀ d ∈ l, isDigit d = true) : readSign (sign ++ (l ++ t)) = (sign, l ++ t) := by
  rcases h with rfl | rfl | rfl
  · obtain ⟨c, l, rfl⟩ := List.exists_cons_of_ne_nil hne
    have hc := hl c List.mem_cons_self
    refine if_neg ?_
    rintro (rfl | rfl)
    · exact absurd hc (by decide)
    · exact absurd hc (by decide)
  · rfl
  · rfl

theorem readExponent_append (h : IsExponent exponent) (ht : Ends t) :
    readExponent (exponent ++ t) = (exponent, t) := by
  have hdigit : ∀ d ∈ t.head?, isDigit d = false := by
    intro d hd
    rcases ht d hd with rfl | rfl | rfl <;> rfl
  rcases h with rfl | ⟨c, sign, l, rfl, hc, hsign, hne, hl⟩
  · rw [List.nil_append]
    cases t with
    | nil => rfl
    | cons c t =>
        refine if_neg fun hc => ?_
        rcases ht c rfl with rfl | rfl | rfl <;> exact absurd hc.1 (by decide)
  · unfold readExponent
    dsimp only [List.cons_append]
    rw [List.append_assoc, readSign_append hsign hne hl]
    dsimp only
    rw [takeWhile_digits hl hdigit, dropWhile_digits hl hdigit, if_pos ⟨hc, hne⟩]

theorem IsWhole.head (h : IsWhole whole) : ∃ c l, whole = c :: l ∧ isDigit c = true := by
  rcases h with rfl | ⟨c, l, rfl, -, hdigits⟩
  · exact ⟨_, _, rfl, rfl⟩
  · exact ⟨c, l, rfl, hdigits c List.mem_cons_self⟩

theorem readMinus_append (hsign : sign = [] ∨ sign = [point '-']) (h : IsWhole whole) :
    readMinus (sign ++ (whole ++ t)) = (sign, whole ++ t) := by
  rcases hsign with rfl | rfl
  · obtain ⟨c, l, rfl, hc⟩ := h.head
    refine if_neg ?_
    rintro rfl
    exact absurd hc (by decide)
  · rfl

/-- What comes after the integer part is no digit of it. -/
theorem head_exponent (h : IsExponent exponent) (ht : Ends t) :
    ∀ d ∈ (exponent ++ t).head?, isDigit d = false ∧ d ≠ point '.' := by
  intro d hd
  rcases h with rfl | ⟨c, sign, l, rfl, hc, -, -, -⟩
  · rcases ht d hd with rfl | rfl | rfl <;> exact ⟨rfl, by decide⟩
  · obtain rfl := Option.some.inj hd
    rcases hc with rfl | rfl <;> exact ⟨rfl, by decide⟩

theorem head_fraction (h : IsFraction fraction)
    (ht : ∀ d ∈ t.head?, isDigit d = false ∧ d ≠ point '.') :
    ∀ d ∈ (fraction ++ t).head?, isDigit d = false := by
  intro d hd
  rcases h with rfl | ⟨l, rfl, -, -⟩
  · exact (ht d hd).1
  · obtain rfl := Option.some.inj hd
    rfl

/-- **A number is read to its end.** -/
theorem readNumber_append (h : IsNumber sign whole fraction exponent) (ht : Ends t) :
    readNumber py (sign ++ (whole ++ (fraction ++ (exponent ++ t)))) =
      if fraction = [] ∧ exponent = [] then
        if maxStrDigits < whole.length then .error .valueError
        else .ok (int (if sign = [] then digitsValue whole else -(digitsValue whole : ℤ)), t)
      else .ok (float (py.reprFloat (sign ++ (whole ++ (fraction ++ exponent)))), t) := by
  have hexponent := head_exponent h.exponent ht
  unfold readNumber
  rw [readMinus_append h.sign h.whole]
  dsimp only
  rw [readWhole_append h.whole (head_fraction h.fraction hexponent)]
  dsimp only
  rw [readFraction_append h.fraction hexponent]
  dsimp only
  rw [readExponent_append h.exponent ht]

/-- No constant starts like a number. -/
theorem readConstant_number (hsign : sign = [] ∨ sign = [point '-']) (h : IsWhole whole) :
    readConstant py (sign ++ (whole ++ t)) = readNumber py (sign ++ (whole ++ t)) := by
  obtain ⟨c, l, rfl, hc⟩ := h.head
  have hhead : ∀ a : CodePoint, isDigit a = false → a ≠ c := by
    rintro a ha rfl
    rw [ha] at hc
    cases hc
  have hnone : constants.find? (fun e => e.1.isPrefixOf (sign ++ (c :: l ++ t))) = none := by
    rcases hsign with rfl | rfl
    · simp [constants, text, hhead (point 'n') rfl, hhead (point 't') rfl, hhead (point 'f') rfl,
        hhead (point 'N') rfl, hhead (point 'I') rfl, hhead (point '-') rfl]
    · simp [constants, text, hhead (point 'u') rfl, hhead (point 'r') rfl, hhead (point 'a') rfl,
        hhead (point 'n') rfl, hhead (point 'I') rfl]
  unfold readConstant
  rw [hnone]

end Json

end Python

end RetentionEngine
