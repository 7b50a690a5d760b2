import Mathlib
import RetentionEngine.Python.Codecs
import RetentionEngine.Python.JsonText

/-!
# UUIDs and their texts

`uuid.UUID` of a text, and `str` of a UUID. The constructor takes far more
than `str` writes: a URN, braces, hyphens anywhere, and of what is left
whatever `int(_, 16)` reads in 32 characters, with blanks around it, a sign,
an `0x`, underscores and the digits of any script. None of this is a quote.
-/

namespace RetentionEngine

namespace Python

open Json (hexValue hexValue_hexDigit)

/-- `s.replace(old, "")`, from where `skip` more characters of an occurrence
stand. -/
def eraseFrom (old : Text) : ℕ → Text → Text
  | _, [] => []
  | skip + 1, _ :: s => eraseFrom old skip s
  | 0, c :: s =>
      if old <+: c :: s then eraseFrom old (old.length - 1) s else c :: eraseFrom old 0 s

/-- `s.replace(old, "")`. -/
def eraseAll (s old : Text) : Text := eraseFrom old 0 s

/-- `s.strip(chars)`. -/
def stripOf (s chars : Text) : Text := (s.rdropWhile chars.contains).dropWhile chars.contains

/-- `isspace` of C. -/
def IsBlank (c : CodePoint) : Prop := 9 ≤ c.val ∧ c.val ≤ 13 ∨ c.val = 32

instance : DecidablePred IsBlank := fun _ => inferInstanceAs (Decidable (_ ∨ _))

variable (u : Unicode)

/-- What a number is read from in place of a character: a space of any
script is a blank, and a digit of any script a digit. -/
def toAscii (c : CodePoint) : CodePoint :=
  if c.val < 127 then c
  else if isSpace c then point ' '
  else match u.decimalDigit c with
    | some d => ⟨48 + d.val, by omega⟩
    | none => point '?'

/-- A sign, and what follows it. -/
def readSignOf : Text → Bool × Text
  | [] => (false, [])
  | c :: s =>
      if c = point '-' then (true, s) else if c = point '+' then (false, s) else (false, c :: s)

/-- What follows an `0x`, with one underscore allowed. -/
def dropBase : Text → Text
  | a :: b :: s =>
      if a = point '0' ∧ (b = point 'x' ∨ b = point 'X') then
        if s.head? = some (point '_') then s.tail else s
      else a :: b :: s
  | s => s

/-- One more digit. -/
def addDigit (n : ℕ) (c : CodePoint) : Option ℕ := (hexValue c).map fun d => 16 * n + d.val

/-- Some more digits, at least one. -/
def addGroup (n : ℕ) (group : Text) : Option ℕ :=
  if group = [] then none else group.foldlM addDigit n

/-- `int(s, 16)`; `none` is a `ValueError`. -/
def intBase16 (s : Text) : Option ℤ :=
  let ascii := ((s.map (toAscii u)).dropWhile (IsBlank ·)).rdropWhile (IsBlank ·)
  let (negative, unsigned) := readSignOf ascii
  (((dropBase unsigned).splitOn (point '_')).foldlM addGroup 0).map fun n : ℕ =>
    if negative then -(n : ℤ) else (n : ℤ)

/-- **`uuid.UUID(s)`**; `none` is a `ValueError`. -/
def uuidOf (s : Text) : Option ℕ :=
  let bare := stripOf (eraseAll (eraseAll s (text "urn:")) (text "uuid:")) (text "\x7b\x7d")
  let digits := bare.filter (· ≠ point '-')
  if digits.length ≠ 32 then none
  else (intBase16 u digits).bind fun n => if 0 ≤ n ∧ n < 2 ^ 128 then some n.toNat else none

/-- The digits between its hyphens. -/
def hyphenated (digits : Text) : Text :=
  digits.take 8 ++ point '-' :: (digits.drop 8).take 4 ++ point '-' :: (digits.drop 12).take 4 ++
    point '-' :: (digits.drop 16).take 4 ++ point '-' :: digits.drop 20

/-- **`str` of a UUID.** -/
def strUuid (n : ℕ) : Text := hyphenated (hex 32 n)

variable {u} {s old group : Text} {c : CodePoint} {n m width skip : ℕ} {k : ℤ}

/-! ## What a UUID is written with -/

/-- **What a number may be written with**: blanks, a sign, an `x`, underscores
and digits. -/
def Spells (c : CodePoint) : Prop := IsBlank c ∨ c ∈ text "+-xX_" ∨ (hexValue c).isSome

instance : DecidablePred Spells := fun _ => inferInstanceAs (Decidable (_ ∨ _))

theorem mem_foldlM_addDigit (h : group.foldlM addDigit n = some m) (hc : c ∈ group) :
    (hexValue c).isSome := by
  induction group generalizing n with
  | nil => cases hc
  | cons d group ih =>
      rw [List.foldlM_cons] at h
      obtain ⟨n', hn', h⟩ := Option.bind_eq_some_iff.mp h
      rcases List.mem_cons.mp hc with rfl | hc
      · obtain ⟨v, hv, -⟩ := Option.map_eq_some_iff.mp hn'
        rw [hv]
        rfl
      · exact ih h hc

theorem mem_foldlM_addGroup {groups : List Text} (h : groups.foldlM addGroup n = some m)
    (hgroup : group ∈ groups) (hc : c ∈ group) : (hexValue c).isSome := by
  induction groups generalizing n with
  | nil => cases hgroup
  | cons g groups ih =>
      rw [List.foldlM_cons] at h
      obtain ⟨n', hn', h⟩ := Option.bind_eq_some_iff.mp h
      rcases List.mem_cons.mp hgroup with rfl | hgroup
      · unfold addGroup at hn'
        split at hn'
        · cases hn'
        · exact mem_foldlM_addDigit hn' hc
      · exact ih h hgroup

theorem mem_readSignOf (hc : c ∈ s) : c ∈ text "+-" ∨ c ∈ (readSignOf s).2 := by
  cases s with
  | nil => cases hc
  | cons d s =>
      unfold readSignOf
      dsimp only
      rcases List.mem_cons.mp hc with rfl | hc
      · split
        · rename_i heq
          exact Or.inl (heq ▸ by decide)
        · split
          · rename_i heq
            exact Or.inl (heq ▸ by decide)
          · exact Or.inr List.mem_cons_self
      · right
        split
        · exact hc
        · split
          · exact hc
          · exact List.mem_cons_of_mem _ hc

/-- What is dropped with an `0x` is a digit, an `x` or an underscore. -/
theorem mem_dropBase (hc : c ∈ s) : Spells c ∨ c ∈ dropBase s := by
  unfold dropBase
  split
  · rename_i a b s
    split
    · rename_i hbase
      rcases List.mem_cons.mp hc with rfl | hc
      · exact Or.inl (hbase.1 ▸ by decide)
      · rcases List.mem_cons.mp hc with rfl | hc
        · rcases hbase.2 with heq | heq
          · exact Or.inl (heq ▸ by decide)
          · exact Or.inl (heq ▸ by decide)
        · split
          · rename_i hhead
            obtain ⟨t, rfl⟩ := List.head?_eq_some_iff.mp hhead
            rcases List.mem_cons.mp hc with rfl | hc
            · exact Or.inl (by decide)
            · exact Or.inr hc
          · exact Or.inr hc
    · exact Or.inr hc
  · exact Or.inr hc

theorem mem_intercalate {a : CodePoint} {groups : List Text} (hc : c ∈ [a].intercalate groups) :
    c = a ∨ ∃ group ∈ groups, c ∈ group := by
  induction groups with
  | nil => cases hc
  | cons group groups ih =>
      cases groups with
      | nil =>
          rw [List.intercalate_singleton] at hc
          exact Or.inr ⟨group, List.mem_cons_self, hc⟩
      | cons group' groups =>
          rw [List.intercalate_cons_cons, List.append_assoc] at hc
          rcases List.mem_append.mp hc with hc | hc
          · exact Or.inr ⟨group, List.mem_cons_self, hc⟩
          · rcases List.mem_append.mp hc with hc | hc
            · exact Or.inl (List.mem_singleton.mp hc)
            · refine (ih hc).imp_right ?_
              rintro ⟨g, hg, hc⟩
              exact ⟨g, List.mem_cons_of_mem _ hg, hc⟩

/-- What is not between underscores is one. -/
theorem mem_splitOn {a : CodePoint} (hc : c ∈ s) : c = a ∨ ∃ group ∈ s.splitOn a, c ∈ group := by
  refine mem_intercalate ?_
  rw [List.intercalate_splitOn]
  exact hc

theorem mem_of_mem_dropWhile {p : CodePoint → Bool} (hc : c ∈ s) :
    p c = true ∨ c ∈ s.dropWhile p := by
  rw [← List.takeWhile_append_dropWhile (p := p) (l := s)] at hc
  exact (List.mem_append.mp hc).imp_left fun h => List.mem_takeWhile_imp h

theorem mem_of_mem_rdropWhile {p : CodePoint → Bool} (hc : c ∈ s) :
    p c = true ∨ c ∈ s.rdropWhile p := by
  unfold List.rdropWhile
  rw [List.mem_reverse]
  exact mem_of_mem_dropWhile (List.mem_reverse.mpr hc)

/-- **A number is written with nothing else.** -/
theorem spells_of_intBase16 (h : intBase16 u s = some k) (hc : c ∈ s) : Spells (toAscii u c) := by
  unfold intBase16 at h
  obtain ⟨n, hn, -⟩ := Option.map_eq_some_iff.mp h
  have hmem : toAscii u c ∈ s.map (toAscii u) := List.mem_map_of_mem hc
  rcases mem_of_mem_dropWhile (p := (IsBlank ·)) hmem with hblank | hmem
  · exact Or.inl (of_decide_eq_true hblank)
  · rcases mem_of_mem_rdropWhile (p := (IsBlank ·)) hmem with hblank | hmem
    · exact Or.inl (of_decide_eq_true hblank)
    · rcases mem_readSignOf hmem with hsign | hmem
      · have hall : (text "+-").all (Spells ·) = true := by decide
        exact of_decide_eq_true (List.all_eq_true.mp hall _ hsign)
      · rcases mem_dropBase hmem with hbase | hmem
        · exact hbase
        · rcases mem_splitOn hmem with heq | ⟨group, hgroup, hmem⟩
          · exact heq ▸ (by decide : Spells (point '_'))
          · exact Or.inr (Or.inr (mem_foldlM_addGroup hn hgroup hmem))

/-- What is erased stood in what is looked for. -/
theorem mem_eraseFrom (hold : old ≠ []) (hskip : s.take skip ⊆ old) (hc : c ∈ s) :
    c ∈ old ∨ c ∈ eraseFrom old skip s := by
  induction s generalizing skip with
  | nil => cases hc
  | cons d s ih =>
      cases skip with
      | zero =>
          unfold eraseFrom
          split
          · rename_i hstarts
            obtain ⟨e, rest, rfl⟩ := List.exists_cons_of_ne_nil hold
            obtain ⟨rfl, hrest⟩ := List.cons_prefix_cons.mp hstarts
            rcases List.mem_cons.mp hc with rfl | hc
            · exact Or.inl List.mem_cons_self
            · refine ih ?_ hc
              rw [List.length_cons, Nat.add_sub_cancel, ← List.prefix_iff_eq_take.mp hrest]
              exact List.subset_cons_self _ _
          · rcases List.mem_cons.mp hc with rfl | hc
            · exact Or.inr List.mem_cons_self
            · exact (ih (by simp) hc).imp_right (List.mem_cons_of_mem _)
      | succ skip =>
          rw [List.take_succ_cons, List.cons_subset] at hskip
          unfold eraseFrom
          rcases List.mem_cons.mp hc with rfl | hc
          · exact Or.inl hskip.1
          · exact ih hskip.2 hc

theorem mem_eraseAll (old : Text) (hold : old ≠ []) (hc : c ∈ s) : c ∈ old ∨ c ∈ eraseAll s old :=
  mem_eraseFrom hold (List.nil_subset _) hc

theorem mem_stripOf (chars : Text) (hc : c ∈ s) : c ∈ chars ∨ c ∈ stripOf s chars := by
  unfold stripOf
  rcases mem_of_mem_rdropWhile (p := chars.contains) hc with h | h
  · exact Or.inl (List.contains_iff_mem.mp h)
  · exact (mem_of_mem_dropWhile (p := chars.contains) h).imp_left List.contains_iff_mem.mp

/-- **What a UUID may be written with.** -/
theorem spells_of_uuidOf (h : uuidOf u s = some n) (hc : c ∈ s) :
    c ∈ text "urn:uuid:\x7b\x7d-" ∨ Spells (toAscii u c) := by
  have hmarks : text "urn:uuid:\x7b\x7d-" =
      text "urn:" ++ (text "uuid:" ++ (text "\x7b\x7d" ++ [point '-'])) := rfl
  rw [hmarks]
  unfold uuidOf at h
  dsimp only at h
  split at h
  · cases h
  · obtain ⟨k, hk, -⟩ := Option.bind_eq_some_iff.mp h
    rcases mem_eraseAll (text "urn:") (by decide) hc with hmark | hc
    · exact Or.inl (by simp [hmark])
    · rcases mem_eraseAll (text "uuid:") (by decide) hc with hmark | hc
      · exact Or.inl (by simp [hmark])
      · rcases mem_stripOf (text "\x7b\x7d") hc with hmark | hc
        · exact Or.inl (by simp [hmark])
        · by_cases hhyphen : c = point '-'
          · exact Or.inl (by simp [hhyphen])
          · exact Or.inr (spells_of_intBase16 hk
              (List.mem_filter.mpr ⟨hc, decide_eq_true hhyphen⟩))

/-! ## What `str` writes -/

/-- What is not looked for stays. -/
theorem eraseAll_eq_self {a : CodePoint} (ha : a ∈ old) (hs : a ∉ s) : eraseAll s old = s := by
  unfold eraseAll
  induction s with
  | nil => rfl
  | cons c s ih =>
      have hno : ¬ old <+: c :: s := fun hstarts => hs (List.IsPrefix.subset hstarts ha)
      unfold eraseFrom
      rw [if_neg hno, ih fun h => hs (List.mem_cons_of_mem _ h)]

theorem dropWhile_eq_self {p : CodePoint → Bool} (h : ∀ c ∈ s, p c = false) :
    s.dropWhile p = s := by
  cases s with
  | nil => rfl
  | cons c s => exact List.dropWhile_cons_of_neg (by simp [h c List.mem_cons_self])

theorem rdropWhile_eq_self {p : CodePoint → Bool} (h : ∀ c ∈ s, p c = false) :
    s.rdropWhile p = s := by
  unfold List.rdropWhile
  rw [dropWhile_eq_self fun c hc => h c (List.mem_reverse.mp hc), List.reverse_reverse]

/-- **What a digit is not.** -/
theorem of_mem_hex_digits (hc : c ∈ hex width n) :
    c ∉ text "-+_ xX:\x7b\x7d" ∧ ¬ IsBlank c ∧ c.val < 127 := by
  have hall : (List.finRange 16).all (fun d => decide (hexDigit d.val ∉ text "-+_ xX:\x7b\x7d" ∧
      ¬ IsBlank (hexDigit d.val) ∧ (hexDigit d.val).val < 127)) = true := by decide
  obtain ⟨d, hd, rfl⟩ := mem_hex hc
  exact of_decide_eq_true (List.all_eq_true.mp hall ⟨d, hd⟩ (List.mem_finRange _))

theorem length_hex : (hex width n).length = width := by
  induction width generalizing n with
  | zero => rfl
  | succ width ih =>
      unfold hex
      rw [List.length_append, ih]
      rfl

/-- **Digits are read back.** -/
theorem foldlM_addDigit_hex : (hex width n).foldlM addDigit m =
    some (m * 16 ^ width + n % 16 ^ width) := by
  induction width generalizing n with
  | zero => simp [hex, Nat.mod_one]
  | succ width ih =>
      have hdigit : addDigit (m * 16 ^ width + n / 16 % 16 ^ width) (hexDigit (n % 16)) =
          some (16 * (m * 16 ^ width + n / 16 % 16 ^ width) + n % 16) := by
        unfold addDigit
        rw [hexValue_hexDigit (Nat.mod_lt _ (by decide))]
        rfl
      unfold hex
      rw [List.foldlM_append, ih]
      simp only [Option.bind_eq_bind, Option.bind_some, List.foldlM_cons, List.foldlM_nil, hdigit,
        Option.pure_def]
      have hsplit : n % (16 ^ width * 16) = n % 16 + 16 * (n / 16 % 16 ^ width) := by
        rw [mul_comm, Nat.mod_mul]
      rw [pow_succ, hsplit]
      ring_nf

/-- **Digits alone** are a number. -/
theorem intBase16_hex : intBase16 u (hex (width + 1) n) = some ((n % 16 ^ (width + 1) : ℕ) : ℤ) := by
  have hdigits : ∀ c ∈ hex (width + 1) n, c ∉ text "-+_ xX:\x7b\x7d" ∧ ¬ IsBlank c ∧
      c.val < 127 := fun c hc => of_mem_hex_digits hc
  have hne : hex (width + 1) n ≠ [] := List.ne_nil_of_length_eq_add_one length_hex
  have hvalue : (hex (width + 1) n).foldlM addDigit 0 = some (n % 16 ^ (width + 1)) := by
    rw [foldlM_addDigit_hex, zero_mul, zero_add]
  generalize hex (width + 1) n = digits at hdigits hne hvalue ⊢
  have hascii : digits.map (toAscii u) = digits :=
    (List.map_congr_left fun c hc => if_pos (hdigits c hc).2.2).trans (List.map_id _)
  have hblank : ∀ c ∈ digits, decide (IsBlank c) = false := fun c hc =>
    decide_eq_false (hdigits c hc).2.1
  have hother : ∀ a ∈ text "-+_ xX:\x7b\x7d", a ∉ digits := fun a ha h => (hdigits a h).1 ha
  have hsign : readSignOf digits = (false, digits) := by
    obtain ⟨c, rest, rfl⟩ := List.exists_cons_of_ne_nil hne
    have hminus : c ≠ point '-' := fun h => hother (point '-') (by decide) (h ▸ List.mem_cons_self)
    have hplus : c ≠ point '+' := fun h => hother (point '+') (by decide) (h ▸ List.mem_cons_self)
    unfold readSignOf
    dsimp only
    rw [if_neg hminus, if_neg hplus]
  have hbase : dropBase digits = digits := by
    unfold dropBase
    split
    · rename_i a b rest
      have hx : ¬ (a = point '0' ∧ (b = point 'x' ∨ b = point 'X')) := by
        rintro ⟨-, rfl | rfl⟩
        · exact hother (point 'x') (by decide) (by simp)
        · exact hother (point 'X') (by decide) (by simp)
      rw [if_neg hx]
    · rfl
  have hsplit : digits.splitOn (point '_') = [digits] :=
    List.splitOn_eq_singleton (hother (point '_') (by decide))
  unfold intBase16
  rw [hascii, dropWhile_eq_self hblank, rdropWhile_eq_self hblank]
  dsimp only
  rw [hsign]
  dsimp only
  have hgroup : addGroup 0 digits = some (n % 16 ^ (width + 1)) := (if_neg hne).trans hvalue
  rw [hbase, hsplit, List.foldlM_cons, hgroup]
  rfl

theorem filter_hyphenated (h : point '-' ∉ s) :
    (hyphenated s).filter (· ≠ point '-') = s := by
  have hkeep : ∀ l : Text, l ⊆ s → l.filter (· ≠ point '-') = l := fun l hl =>
    List.filter_eq_self.mpr fun c hc => decide_eq_true fun heq => h (heq ▸ hl hc)
  have hpart : ∀ i k, ((s.drop i).take k).filter (· ≠ point '-') = (s.drop i).take k := fun i k =>
    hkeep _ fun _ hc => List.mem_of_mem_drop (List.mem_of_mem_take hc)
  have hjoin : ∀ i k, (s.drop i).take k ++ s.drop (i + k) = s.drop i := fun i k => by
    rw [← List.drop_drop, List.take_append_drop]
  unfold hyphenated
  simp only [List.filter_append, List.filter_cons, hpart, hkeep _ (List.take_subset _ _),
    hkeep _ (List.drop_subset _ _), ne_eq, not_true_eq_false, decide_false, Bool.false_eq_true,
    if_false, List.append_assoc]
  rw [hjoin 16 4, hjoin 12 4, hjoin 8 4, List.take_append_drop]

theorem mem_hyphenated (hc : c ∈ hyphenated s) : c = point '-' ∨ c ∈ s := by
  by_cases hhyphen : c = point '-'
  · exact Or.inl hhyphen
  · right
    unfold hyphenated at hc
    simp only [List.mem_append, List.mem_cons, hhyphen, false_or] at hc
    rcases hc with (((hc | hc) | hc) | hc) | hc
    · exact List.mem_of_mem_take hc
    · exact List.mem_of_mem_drop (List.mem_of_mem_take hc)
    · exact List.mem_of_mem_drop (List.mem_of_mem_take hc)
    · exact List.mem_of_mem_drop (List.mem_of_mem_take hc)
    · exact List.mem_of_mem_drop hc

theorem isAscii_strUuid : IsAscii (strUuid n) := by
  intro c hc
  rcases mem_hyphenated hc with rfl | hc
  · decide
  · exact (of_mem_hex_digits hc).2.2.trans (by decide)

theorem bare_strUuid : stripOf (eraseAll (eraseAll (strUuid n) (text "urn:")) (text "uuid:"))
    (text "\x7b\x7d") = strUuid n := by
  have hmarks : ∀ a ∈ text ":\x7b\x7d", a ∉ strUuid n := by
    intro a ha hmem
    have hall : (text ":\x7b\x7d").all (fun a => decide (a ≠ point '-' ∧
        a ∈ text "-+_ xX:\x7b\x7d")) = true := by decide
    obtain ⟨hhyphen, hother⟩ := of_decide_eq_true (List.all_eq_true.mp hall a ha)
    rcases mem_hyphenated hmem with heq | hmem
    · exact hhyphen heq
    · exact (of_mem_hex_digits hmem).1 hother
  have hcolon := hmarks (point ':') (by decide)
  have hbrace : ∀ c ∈ strUuid n, (text "\x7b\x7d").contains c = false := by
    intro c hc
    refine Bool.eq_false_iff.mpr fun hbrace => hmarks c ?_ hc
    exact List.mem_cons_of_mem _ (List.contains_iff_mem.mp hbrace)
  rw [eraseAll_eq_self (a := point ':') (by decide) hcolon,
    eraseAll_eq_self (a := point ':') (by decide) hcolon]
  unfold stripOf
  rw [rdropWhile_eq_self hbrace, dropWhile_eq_self hbrace]

theorem filter_strUuid : (strUuid n).filter (· ≠ point '-') = hex 32 n := by
  refine filter_hyphenated fun h => ?_
  exact (of_mem_hex_digits h).1 (by decide)

theorem intBase16_digits (hn : n < 2 ^ 128) : intBase16 u (hex 32 n) = some (n : ℤ) := by
  have hlt : n % 16 ^ (31 + 1) = n := Nat.mod_eq_of_lt (by omega)
  have hread : intBase16 u (hex 32 n) = some ((n % 16 ^ (31 + 1) : ℕ) : ℤ) := intBase16_hex
  rw [hread, hlt]

/-- **What `str` writes is read back.** -/
theorem uuidOf_strUuid (hn : n < 2 ^ 128) : uuidOf u (strUuid n) = some n := by
  have hlength : ¬ (hex 32 n).length ≠ 32 := not_not.mpr length_hex
  have hrange : 0 ≤ (n : ℤ) ∧ (n : ℤ) < 2 ^ 128 := ⟨Int.natCast_nonneg n, by exact_mod_cast hn⟩
  unfold uuidOf
  dsimp only
  rw [bare_strUuid, filter_strUuid, if_neg hlength, intBase16_digits hn, Option.bind_some,
    if_pos hrange, Int.toNat_natCast]

theorem strUuid_injective (hn : n < 2 ^ 128) (hm : m < 2 ^ 128) (h : strUuid n = strUuid m) :
    n = m := by
  have hread : uuidOf ⟨fun _ => false, fun _ => none, fun _ _ => rfl⟩ (strUuid n) = some m := by
    rw [h, uuidOf_strUuid hm]
  rw [uuidOf_strUuid hn] at hread
  exact Option.some.inj hread

end Python

end RetentionEngine
