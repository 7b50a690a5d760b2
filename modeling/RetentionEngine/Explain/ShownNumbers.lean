import RetentionEngine.Explain.Closing
import RetentionEngine.Explain.Template
import RetentionEngine.Python.Digits

/-!
# Shown numbers

How the template writes a number and how the validator reads it. An amount
is grouped and every other number is not, so that the digits before its
decimals may be taken for an identifier. What is read of it otherwise is the
number that was rounded.
-/

namespace RetentionEngine

namespace Explain

open Python (CodePoint Text point text roundHalfEven roundTo text_append text_toString
  isDigit_of_mem_toDigits val_point_of_isDigit head?_toDigits text_toString_int)

/-! ## Digits -/

/-- ASCII digits. -/
def IsDigits (l : Text) : Prop := ∀ c ∈ l, 48 ≤ c.val ∧ c.val ≤ 57

instance : DecidablePred IsDigits := fun l =>
  List.decidableBAll (fun c : CodePoint => 48 ≤ c.val ∧ c.val ≤ 57) l

variable {u : Classes} {a b l pre core : Text} {c : CodePoint}

theorem isDigits_append : IsDigits (a ++ b) ↔ IsDigits a ∧ IsDigits b := by
  unfold IsDigits
  exact List.forall_mem_append

theorem digit?_of_digit (h : 48 ≤ c.val ∧ c.val ≤ 57) :
    ∃ d : Fin 10, u.digit? c = some d ∧ d.val = c.val - 48 := by
  unfold Classes.digit?
  rw [dif_pos h]
  exact ⟨_, rfl, rfl⟩

theorem isDigit_of_digit (h : 48 ≤ c.val ∧ c.val ≤ 57) : u.isDigit c = true := by
  obtain ⟨d, hd, -⟩ := digit?_of_digit (u := u) h
  unfold Classes.isDigit
  rw [hd]
  rfl

theorem isSep_of_digit (h : 48 ≤ c.val ∧ c.val ≤ 57) : isSep c = false := by
  by_contra hsep
  rcases isSep_iff.mp (Bool.not_eq_false _ ▸ hsep) with rfl | rfl <;> revert h <;> decide

theorem IsDigits.isDigit (h : IsDigits l) : ∀ c ∈ l, u.isDigit c = true := fun c hc =>
  isDigit_of_digit (h c hc)

theorem IsDigits.isWord (h : IsDigits l) : ∀ c ∈ l, u.isWord c = true := fun c hc =>
  isWord_of_isDigit (h.isDigit c hc)

theorem IsDigits.isSep (h : IsDigits l) : ∀ c ∈ l, isSep c = false := fun c hc =>
  isSep_of_digit (h c hc)

theorem IsDigits.isNumberChar (h : IsDigits l) : ∀ c ∈ l, isNumberChar u c = true := by
  intro c hc
  unfold Explain.isNumberChar
  rw [h.isDigit c hc, Bool.true_or]

theorem IsDigits.isHexId (h : IsDigits l) : isHexId l = decide (12 ≤ l.length) := by
  have hall : l.all isHexDigit = true := by
    refine List.all_eq_true.mpr fun c hc => ?_
    unfold isHexDigit
    rw [decide_eq_true (h c hc)]
    rfl
  unfold Explain.isHexId
  rw [hall, Bool.and_true]

/-- **Digits are an identifier** if there are enough of them. -/
theorem IsDigits.hexIds (h : IsDigits l) : hexIds u l = if 12 ≤ l.length then [l] else [] := by
  unfold Explain.hexIds
  rw [Munch.runs_of_all h.isWord, List.nil_append, List.filter_singleton, h.isHexId]
  simp

/-! ### Those of a number -/

theorem isDigits_map_point {ds : List Char} (h : ∀ d ∈ ds, d.isDigit = true) :
    IsDigits (ds.map point) := by
  intro c hc
  obtain ⟨d, hd, rfl⟩ := List.mem_map.mp hc
  exact val_point_of_isDigit (h d hd)

theorem isDigits_text_toString (n : ℕ) : IsDigits (text (toString n)) := by
  rw [text_toString]
  exact isDigits_map_point isDigit_of_mem_toDigits

theorem text_toString_ne_nil (n : ℕ) : text (toString n) ≠ [] := by
  rw [text_toString]
  exact mt List.map_eq_nil_iff.mp Nat.toDigits_ne_nil

/-- How many digits a number has. -/
theorem length_text_toString {n k : ℕ} (hk : 0 < k) :
    k < (text (toString n)).length ↔ 10 ^ k ≤ n := by
  rw [text_toString, List.length_map, ← not_le, Nat.length_toDigits_le_iff (by decide) hk, not_lt]

theorem foldl_digits {ds : List Char} (h : ∀ d ∈ ds, d.isDigit = true) (n : ℕ) :
    (ds.map point).foldl (fun n c => 10 * n + (u.digit? c).elim 0 Fin.val) n =
      Nat.ofDigitChars 10 ds n := by
  induction ds generalizing n with
  | nil => rfl
  | cons d ds ih =>
      have hd : 48 ≤ (point d).val ∧ (point d).val ≤ 57 :=
        isDigits_map_point h (point d) List.mem_cons_self
      obtain ⟨v, hv, hval⟩ := digit?_of_digit (u := u) hd
      rw [List.map_cons, List.foldl_cons, Nat.ofDigitChars_cons, hv, Option.elim_some, hval]
      exact ih (fun e he => h e (List.mem_cons_of_mem _ he)) _

/-- **The digits of a number show it.** -/
theorem ofDigits_text_toString (n : ℕ) : ofDigits u (text (toString n)) = n := by
  rw [text_toString]
  exact (foldl_digits isDigit_of_mem_toDigits 0).trans Nat.ofDigitChars_ten_toDigits

theorem ofDigits_append (h : IsDigits b) :
    ofDigits u (a ++ b) = 10 ^ b.length * ofDigits u a + ofDigits u b := by
  unfold ofDigits
  rw [List.foldl_append]
  generalize a.foldl _ 0 = n
  induction b generalizing n with
  | nil => simp
  | cons c b ih =>
      have hb : IsDigits b := fun d hd => h d (List.mem_cons_of_mem _ hd)
      rw [List.foldl_cons, List.foldl_cons, ih hb, ih hb (10 * 0 + _), List.length_cons]
      ring

/-! ## A number that stands alone -/

variable {K : Type} [Field K]

/-- **One number is found** after a text that says none. -/
theorem extractNumbers_number (hplain : ∀ c ∈ pre, isPlain c = true)
    (hlast : ∀ c ∈ pre.getLast?, isBreak c = true) (hids : hexIds u (pre ++ core) = [])
    (hfirst : core.head?.any u.isDigit = true) (hchars : ∀ c ∈ core, isNumberChar u c = true) :
    (extractNumbers u (pre ++ core) : List (List K)) =
      [interpretations u core (afterRp pre)].filter fun options => !options.isEmpty := by
  have hends : endsRp pre = false :=
    endsRp_eq_false fun c hc => (ne_of_isBreak (hlast c hc)).1
  have hcore : splitRp u pre core = core := by
    have hkept : splitRp u pre (core ++ []) = core ++ splitRp u (pre ++ core) [] :=
      splitRp_of_numberChars hends hchars
    rw [List.append_nil] at hkept
    rw [hkept]
    exact List.append_nil core
  have hclean : cleaned u (pre ++ core) = pre ++ core := by
    unfold cleaned
    rw [dropHexIds_eq_self hids]
    cases hget : pre.getLast? with
    | none =>
        obtain rfl := List.getLast?_eq_none_iff.mp hget
        exact hcore
    | some y =>
        obtain ⟨pre₀, rfl⟩ := List.getLast?_eq_some_iff.mp hget
        have hpre₀ : splitRp u [] pre₀ = pre₀ := by
          have hall := splitRp_append_plain (u := u) (q := []) (p := []) fun c hc =>
            hplain c (List.mem_append_left [y] hc)
          rwa [List.nil_append] at hall
        rw [List.append_assoc, List.singleton_append,
          splitRp_append_cons (isNumberChar_of_isBreak (hlast y hget)), hpre₀, List.nil_append,
          hcore]
  have htokens : numberTokens u (pre ++ core) = [(pre, core)] := by
    obtain ⟨c, rest, rfl⟩ : ∃ c rest, core = c :: rest := by
      cases core with
      | nil => cases hfirst
      | cons c rest => exact ⟨c, rest, rfl⟩
    have hstart : startsNumber u pre c = true := by
      unfold startsNumber
      rw [Bool.and_eq_true, Option.all_eq_true]
      refine ⟨hfirst, fun d hd => ?_⟩
      rw [isWord_of_isBreak (hlast d hd), isSep_of_isBreak (hlast d hd)]
      rfl
    have hrest : ∀ d ∈ rest, isNumberChar u d = true := fun d hd =>
      hchars d (List.mem_cons_of_mem _ hd)
    have hbefore : ∀ d ∈ pre, ∀ p, startsNumber u p d = false := fun d hd p =>
      startsNumber_eq_false_of_isPlain (hplain d hd) p
    exact Munch.scan_of_all hbefore hstart hrest
  rw [extractNumbers_eq, hclean, htokens]
  rfl

/-! ## Reading what is shown -/

/-- **A text shows `v`**, and the digits of `n` as a word of their own: these
are its identifiers, if they can be one, and every number that is found in
it can be read as `v`. -/
structure Shows (u : Classes) (s : Text) (n : ℕ) (v : K) : Prop where
  ids : hexIds u s = if 10 ^ 11 ≤ n then [text (toString n)] else []
  options : ∀ options ∈ extractNumbers u s, v ∈ options

theorem hexIds_text_toString (n : ℕ) :
    hexIds u (text (toString n)) = if 10 ^ 11 ≤ n then [text (toString n)] else [] := by
  rw [(isDigits_text_toString n).hexIds]
  exact if_congr (length_text_toString (by decide)) rfl rfl

theorem closes_minus : Closes [point '-'] := by decide

theorem hexIds_nil : hexIds u [] = [] := rfl

theorem extractNumbers_nil : (extractNumbers u [] : List (List K)) = [] := rfl

/-- A closing literal before it does not change what is shown. -/
theorem Shows.append_left {n : ℕ} {v : K} (h : Shows u a n v) (hl : Closes l) :
    Shows u (l ++ a) n v := by
  have hids := hexIds_append_closes (u := u) (q := []) (s := a) hl (Or.inl rfl)
  have hnumbers := extractNumbers_append_closes (u := u) (K := K) (q := []) (s := a) hl (Or.inl rfl)
  rw [List.nil_append, hexIds_nil, List.nil_append] at hids
  rw [List.nil_append, extractNumbers_nil, List.nil_append] at hnumbers
  exact ⟨by rw [hids, h.ids], by rw [hnumbers]; exact h.options⟩

/-- A sign is not read. -/
theorem Shows.neg {n : ℕ} {v : K} (h : Shows u l n v) : Shows u (point '-' :: l) n v := by
  have hsigned := h.append_left closes_minus
  rwa [List.singleton_append] at hsigned

/-- What is read of digits, by themselves or with two decimals. -/
theorem extractNumbers_of_hexIds {options : List K} (hfirst : l.head?.any u.isDigit = true)
    (hchars : ∀ c ∈ l, isNumberChar u c = true) (hids : hexIds u l = [])
    (hoptions : options ∈ extractNumbers u l) : options = interpretations u l false := by
  have hlone : (extractNumbers u ([] ++ l) : List (List K)) =
      [interpretations u l (afterRp [])].filter fun options => !options.isEmpty :=
    extractNumbers_number (fun c hc => absurd hc List.not_mem_nil)
      (fun c hc => absurd hc (Option.not_mem_none c)) hids hfirst hchars
  rw [List.nil_append] at hlone
  rw [hlone] at hoptions
  exact List.mem_singleton.mp (List.mem_of_mem_filter hoptions)

theorem IsDigits.head?_any (h : IsDigits l) (hne : l ≠ []) : l.head?.any u.isDigit = true := by
  cases l with
  | nil => exact absurd rfl hne
  | cons c l => exact h.isDigit c List.mem_cons_self

/-- Nothing is stripped of what ends in a digit. -/
theorem stripSeps_of_digits (h : IsDigits b) (hne : b ≠ []) : stripSeps (a ++ b) = a ++ b := by
  have hlast : ∀ c ∈ (a ++ b).getLast?, isSep c = false := by
    intro c hc
    rw [List.getLast?_append_of_ne_nil a hne] at hc
    exact h.isSep c (List.mem_of_getLast? hc)
  have hstrip := stripSeps_append hlast fun c (hc : c ∈ []) => absurd hc List.not_mem_nil
  rwa [List.append_nil] at hstrip

theorem count_eq_zero_of_digits (h : IsDigits l) :
    l.count (point '.') = 0 ∧ l.count (point ',') = 0 := by
  refine ⟨List.count_eq_zero.mpr fun hmem => ?_, List.count_eq_zero.mpr fun hmem => ?_⟩
  · exact absurd (h.isSep _ hmem) (by decide)
  · exact absurd (h.isSep _ hmem) (by decide)

/-- **Digits are read as their number.** -/
theorem interpretations_digits (h : IsDigits l) (hne : l ≠ []) (rupiah : Bool) :
    (interpretations u l rupiah : List K) = [(ofDigits u l : K)] := by
  obtain ⟨hdot, hcomma⟩ := count_eq_zero_of_digits h
  have hsplit : l.splitOnP isSep = [l] := List.splitOnP_eq_singleton h.isSep
  have hnot : isThousands u [l] = false := by simp [isThousands]
  have hstrip := stripSeps_of_digits (a := []) h hne
  rw [List.nil_append] at hstrip
  unfold interpretations
  dsimp only
  rw [hstrip, hsplit, hnot, if_neg Bool.false_ne_true]
  unfold plainReading decimal
  rw [if_pos ⟨by omega, hcomma⟩, hsplit]
  simp

/-- **A number without decimals.** -/
theorem shows_toString (n : ℕ) : Shows u (text (toString n)) n (n : K) where
  ids := hexIds_text_toString n
  options := by
    intro options hoptions
    have hdigits := isDigits_text_toString n
    have hne := text_toString_ne_nil n
    by_cases hbig : 10 ^ 11 ≤ n
    · -- it is taken for an identifier
      have hlong : 12 ≤ (text (toString n)).length := (length_text_toString (by decide)).mpr hbig
      have hdrop : dropHexIds u (text (toString n)) = [point ' '] := by
        unfold dropHexIds
        rw [Munch.mapRuns_of_all hdigits.isWord, List.nil_append]
        unfold blankHexId
        rw [hdigits.isHexId, decide_eq_true hlong, if_pos rfl]
      rw [extractNumbers_eq, cleaned, hdrop] at hoptions
      exact absurd hoptions List.not_mem_nil
    · have hids := hexIds_text_toString (u := u) n
      rw [if_neg hbig] at hids
      rw [extractNumbers_of_hexIds (hdigits.head?_any hne) hdigits.isNumberChar hids hoptions,
        interpretations_digits hdigits hne, ofDigits_text_toString]
      exact List.mem_singleton_self _

/-- **An integer**: its sign is not read. -/
theorem shows_int (x : ℤ) : Shows u (text (toString x)) x.natAbs (x.natAbs : K) := by
  cases x with
  | ofNat n => exact shows_toString n
  | negSucc n =>
      rw [text_toString_int, if_pos (Int.negSucc_lt_zero n), ← text_toString]
      exact (shows_toString (n + 1)).neg

/-! ### Two decimals -/

/-- Digits on both sides of a dot. -/
theorem interpretations_decimals (ha : IsDigits a) (hb : IsDigits b) (hlength : b.length = 2)
    (rupiah : Bool) : (interpretations u (a ++ point '.' :: b) rupiah : List K) =
      [((100 * ofDigits u a + ofDigits u b : ℕ) : K) / ((100 : ℕ) : K)] := by
  have hne : b ≠ [] := List.ne_nil_of_length_pos (by omega)
  obtain ⟨hdota, hcommaa⟩ := count_eq_zero_of_digits ha
  obtain ⟨hdotb, hcommab⟩ := count_eq_zero_of_digits hb
  have hdot : (a ++ point '.' :: b).count (point '.') = 1 := by
    rw [List.count_append, List.count_cons_self]
    omega
  have hcomma : (a ++ point '.' :: b).count (point ',') = 0 := by
    rw [List.count_append, List.count_cons_of_ne (by decide)]
    omega
  have hsplit : (a ++ point '.' :: b).splitOnP isSep = [a, b] := by
    rw [List.splitOnP_append_cons a b rfl, List.splitOnP_eq_singleton ha.isSep,
      List.splitOnP_eq_singleton hb.isSep]
    rfl
  have hnot : isThousands u [a, b] = false := by simp [isThousands, hlength]
  have hstrip := stripSeps_of_digits (a := a ++ [point '.']) hb hne
  rw [List.append_assoc, List.singleton_append] at hstrip
  unfold interpretations
  dsimp only
  rw [hstrip, hsplit, hnot, if_neg Bool.false_ne_true]
  unfold plainReading decimal
  rw [if_pos ⟨by omega, hcomma⟩, hsplit, List.flatten_cons, List.flatten_singleton,
    ofDigits_append hb, List.drop_succ_cons, List.drop_zero, List.flatten_singleton, hlength]
  simp only [Nat.reducePow]

/-- The decimals of a number of which the identifier is taken out are not
found: no number follows a separator. -/
theorem numberTokens_decimals (hb : IsDigits b) :
    numberTokens u (point ' ' :: point '.' :: b) = [] := by
  unfold numberTokens
  rw [Munch.scan_none_of_neg (by rfl), Munch.scan_none_of_neg (by rfl)]
  have hnone : ∀ pre : Text, pre.getLast?.any (fun c => u.isWord c || isSep c) = true →
      Munch.scan (startsNumber u) (isNumberChar u) pre none b = [] := by
    induction b with
    | nil => exact fun _ _ => rfl
    | cons c b ih =>
        intro pre hpre
        have hstart : startsNumber u pre c = false := by
          unfold startsNumber
          obtain ⟨d, hd, hword⟩ := (Option.any_eq_true _ _).mp hpre
          rw [Option.mem_def.mp hd, Option.all_some, hword]
          exact Bool.and_false _
        rw [Munch.scan_none_of_neg hstart]
        refine ih (fun d hd => hb d (List.mem_cons_of_mem _ hd)) _ ?_
        rw [List.getLast?_concat, Option.any_some, hb.isWord c List.mem_cons_self]
        rfl
  exact hnone _ rfl

/-- The cents of a number, without its sign. -/
def cents [LinearOrder K] [FloorRing K] (x : K) : ℕ :=
  (roundHalfEven (x * ((100 : ℕ) : K))).natAbs

/-- Two digits. -/
theorem twoDigits {n : ℕ} (hn : n < 100) :
    IsDigits (text ((if n < 10 then "0" else "") ++ toString n)) ∧
      (text ((if n < 10 then "0" else "") ++ toString n)).length = 2 ∧
        ofDigits u (text ((if n < 10 then "0" else "") ++ toString n)) = n := by
  have hdigits := isDigits_text_toString n
  have hpos : 0 < (text (toString n)).length := List.length_pos_iff.mpr (text_toString_ne_nil n)
  have hone : 1 < (text (toString n)).length ↔ 10 ^ 1 ≤ n := length_text_toString (by decide)
  have htwo : 2 < (text (toString n)).length ↔ 10 ^ 2 ≤ n := length_text_toString (by decide)
  rw [text_append]
  split
  · refine ⟨isDigits_append.mpr ⟨by decide, hdigits⟩, ?_, ?_⟩
    · rw [List.length_append, show (text "0").length = 1 from rfl]
      omega
    · rw [ofDigits_append hdigits, ofDigits_text_toString,
        show ofDigits u (text "0") = 0 from rfl, Nat.mul_zero, Nat.zero_add]
  · rw [show text "" = [] from rfl, List.nil_append]
    exact ⟨hdigits, by omega, ofDigits_text_toString n⟩

/-- **A number with two decimals.** -/
theorem shows_decimals {n : ℕ} (hb : IsDigits b) (hlength : b.length = 2) :
    Shows u (text (toString n) ++ point '.' :: b) n
      (((100 * n + ofDigits u b : ℕ) : K) / ((100 : ℕ) : K)) where
  ids := by
    have hdot : u.isWord (point '.') = false := isWord_of_isSep rfl
    have hidsb : hexIds u b = [] := by rw [hb.hexIds, if_neg (by omega)]
    rw [hexIds_append_cons hdot, hexIds_text_toString, hidsb, List.append_nil]
  options := by
    intro options hoptions
    have hdot : u.isWord (point '.') = false := isWord_of_isSep rfl
    have hdigits := isDigits_text_toString n
    have hne := text_toString_ne_nil n
    have hidsb : hexIds u b = [] := by rw [hb.hexIds, if_neg (by omega)]
    by_cases hbig : 10 ^ 11 ≤ n
    · -- what is before the dot is taken for an identifier
      have hlong : 12 ≤ (text (toString n)).length := (length_text_toString (by decide)).mpr hbig
      have hdrop : dropHexIds u (text (toString n) ++ point '.' :: b) =
          point ' ' :: point '.' :: b := by
        rw [dropHexIds_append_cons hdot, dropHexIds_eq_self hidsb]
        unfold dropHexIds
        rw [Munch.mapRuns_of_all hdigits.isWord, List.nil_append]
        unfold blankHexId
        rw [hdigits.isHexId, decide_eq_true hlong, if_pos rfl, List.singleton_append]
      have hclean : cleaned u (text (toString n) ++ point '.' :: b) =
          point ' ' :: point '.' :: b := by
        unfold cleaned
        rw [hdrop]
        have hnumber : ∀ c ∈ point '.' :: b, isNumberChar u c = true := by
          intro c hc
          rcases List.mem_cons.mp hc with rfl | hc
          · exact isNumberChar_of_isSep rfl
          · exact hb.isNumberChar c hc
        have hkept : splitRp u [point ' '] (point '.' :: b ++ []) =
            point '.' :: b ++ splitRp u ([point ' '] ++ point '.' :: b) [] :=
          splitRp_of_numberChars rfl hnumber
        rw [List.append_nil] at hkept
        rw [splitRp_cons, splitRpAt_of_other rfl, List.nil_append, hkept]
        simp [splitRp]
      rw [extractNumbers_eq, hclean, numberTokens_decimals hb] at hoptions
      exact absurd hoptions List.not_mem_nil
    · have hids := hexIds_text_toString (u := u) n
      rw [if_neg hbig] at hids
      have hall : hexIds u (text (toString n) ++ point '.' :: b) = [] := by
        rw [hexIds_append_cons hdot, hids, hidsb, List.append_nil]
      have hfirst : (text (toString n) ++ point '.' :: b).head?.any u.isDigit = true := by
        rw [List.head?_append_of_ne_nil _ hne]
        exact hdigits.head?_any hne
      have hchars : ∀ c ∈ text (toString n) ++ point '.' :: b, isNumberChar u c = true := by
        intro c hc
        rcases List.mem_append.mp hc with hc | hc
        · exact hdigits.isNumberChar c hc
        · rcases List.mem_cons.mp hc with rfl | hc
          · exact isNumberChar_of_isSep rfl
          · exact hb.isNumberChar c hc
      rw [extractNumbers_of_hexIds hfirst hchars hall hoptions,
        interpretations_decimals hdigits hb hlength, ofDigits_text_toString]
      exact List.mem_singleton_self _

/-- **The format `.2f`** shows the cents. -/
theorem shows_fixed2 [LinearOrder K] [FloorRing K] (x : K) :
    Shows u (text (fixed2 x)) (cents x / 100) ((cents x : K) / ((100 : ℕ) : K)) := by
  have hcents : cents x % 100 < 100 := Nat.mod_lt (cents x) (by decide)
  obtain ⟨hdigits, hlength, hvalue⟩ := twoDigits (u := u) hcents
  have hshows := shows_decimals (u := u) (K := K) (n := cents x / 100) hdigits hlength
  rw [hvalue, Nat.div_add_mod] at hshows
  have htext : text (fixed2 x) = (if x < 0 then [point '-'] else []) ++
      (text (toString (cents x / 100)) ++ point '.' ::
        text ((if cents x % 100 < 10 then "0" else "") ++ toString (cents x % 100))) := by
    show text ((if x < 0 then "-" else "") ++ toString (cents x / 100) ++ "." ++
      (if cents x % 100 < 10 then "0" else "") ++ toString (cents x % 100)) = _
    have hsign : text (if x < 0 then "-" else "") = if x < 0 then [point '-'] else [] := by
      split <;> rfl
    simp only [text_append, hsign, List.append_assoc]
    rfl
  rw [htext]
  split
  · exact hshows.neg
  · exact hshows

/-! ### Amounts -/

/-- A digit of an amount of `n` digits, with its place, after the dot before it. -/
def dotted (n : ℕ) (d : Char × ℕ) : List Char :=
  if d.2 ≠ 0 ∧ (n - d.2) % 3 = 0 then ['.', d.1] else [d.1]

theorem grouped_eq (n : ℕ) : grouped n = String.ofList
    ((Nat.toDigits 10 n).zipIdx.flatMap (dotted (Nat.toDigits 10 n).length)) := by
  unfold grouped
  rw [show (toString n).toList = Nat.toDigits 10 n from Nat.toList_repr]
  rfl

theorem mem_dotted {n : ℕ} {d : Char × ℕ} {e : Char} (h : e ∈ dotted n d) : e = '.' ∨ e = d.1 := by
  unfold dotted at h
  split at h
  · simpa using h
  · exact Or.inr (List.mem_singleton.mp h)

/-- **Digits inside an amount** are in groups of three, the first of which
goes on with those before. -/
theorem splitOnP_dotted {ds : List Char} (hds : ∀ d ∈ ds, d.isDigit = true) {k : ℕ} (hk : 0 < k) :
    ∃ first rest,
      (((ds.zipIdx k).flatMap (dotted (k + ds.length))).map point).splitOnP isSep = first :: rest ∧
        first.length = ds.length % 3 ∧ (∀ g ∈ rest, g.length = 3) ∧
          (first :: rest).flatten = ds.map point := by
  induction ds generalizing k with
  | nil => exact ⟨[], [], rfl, rfl, fun _ h => absurd h List.not_mem_nil, rfl⟩
  | cons d ds ih =>
      obtain ⟨first, rest, hsplit, hfirst, hrest, hflat⟩ :=
        ih (fun e he => hds e (List.mem_cons_of_mem _ he)) (Nat.succ_pos k)
      have hd : isSep (point d) = false :=
        (isDigits_map_point hds).isSep (point d) List.mem_cons_self
      have hlength : k + (d :: ds).length = k + 1 + ds.length := by
        rw [List.length_cons]
        omega
      have hflat' : (point d :: first) ++ rest.flatten = (d :: ds).map point := by
        rw [List.map_cons, ← hflat]
        rfl
      have hcons : (point d :: ((ds.zipIdx (k + 1)).flatMap (dotted (k + 1 + ds.length))).map
          point).splitOnP isSep = (point d :: first) :: rest := by
        rw [List.splitOnP_cons_eq_if_modifyHead, hd, if_neg Bool.false_ne_true, hsplit]
        rfl
      rw [hlength, List.zipIdx_cons, List.flatMap_cons, List.map_append]
      by_cases hdot : k ≠ 0 ∧ (k + 1 + ds.length - k) % 3 = 0
      · -- a dot stands before it
        have hpair : dotted (k + 1 + ds.length) (d, k) = ['.', d] := if_pos hdot
        refine ⟨[], (point d :: first) :: rest, ?_, ?_, ?_, hflat'⟩
        · rw [hpair, List.map_cons, List.map_singleton, List.cons_append, List.singleton_append,
            List.splitOnP_cons_eq_if_modifyHead, show isSep (point '.') = true from rfl,
            if_pos rfl, hcons]
        · rw [List.length_nil, List.length_cons]
          omega
        · intro g hg
          rcases List.mem_cons.mp hg with rfl | hg
          · rw [List.length_cons]
            omega
          · exact hrest g hg
      · have hone : dotted (k + 1 + ds.length) (d, k) = [d] := if_neg hdot
        rw [hone, List.map_singleton, List.singleton_append]
        refine ⟨point d :: first, rest, hcons, ?_, hrest, hflat'⟩
        rw [List.length_cons, List.length_cons]
        omega

/-- **The groups of an amount**: the first has one digit to three, the
others three. -/
theorem splitOnP_grouped (n : ℕ) : ∃ first rest,
    (text (grouped n)).splitOnP isSep = first :: rest ∧ 0 < first.length ∧ first.length ≤ 3 ∧
      (∀ g ∈ rest, g.length = 3) ∧ (first :: rest).flatten = text (toString n) := by
  rw [grouped_eq, text_toString]
  unfold text
  rw [String.toList_ofList]
  have hdigits := isDigit_of_mem_toDigits (n := n)
  revert hdigits
  cases hds : Nat.toDigits 10 n with
  | nil => exact absurd hds Nat.toDigits_ne_nil
  | cons d ds =>
      intro hdigits
      obtain ⟨first, rest, hsplit, hfirst, hrest, hflat⟩ :=
        splitOnP_dotted (fun e (he : e ∈ ds) => hdigits e (List.mem_cons_of_mem _ he)) Nat.one_pos
      have hd : isSep (point d) = false :=
        (isDigits_map_point hdigits).isSep (point d) List.mem_cons_self
      refine ⟨point d :: first, rest, ?_, ?_, ?_, hrest, ?_⟩
      · rw [List.zipIdx_cons, List.flatMap_cons, List.map_append, List.length_cons,
          Nat.add_comm ds.length 1, Nat.zero_add,
          show dotted (1 + ds.length) (d, 0) = [d] from if_neg fun h => h.1 rfl,
          List.map_singleton, List.singleton_append, List.splitOnP_cons_eq_if_modifyHead, hd,
          if_neg Bool.false_ne_true, hsplit]
        rfl
      · exact Nat.succ_pos _
      · rw [List.length_cons]
        omega
      · rw [List.map_cons, ← hflat]
        rfl

/-- The characters of an amount are digits and dots. -/
theorem mem_grouped {n : ℕ} {c : CodePoint} (h : c ∈ text (grouped n)) :
    c = point '.' ∨ 48 ≤ c.val ∧ c.val ≤ 57 := by
  rw [grouped_eq] at h
  unfold text at h
  rw [String.toList_ofList] at h
  obtain ⟨e, he, rfl⟩ := List.mem_map.mp h
  obtain ⟨⟨d, i⟩, hd, he⟩ := List.mem_flatMap.mp he
  rcases mem_dotted he with rfl | rfl
  · exact Or.inl rfl
  · have hmem : e ∈ Nat.toDigits 10 n := List.fst_mem_of_mem_zipIdx hd
    exact Or.inr (isDigits_map_point isDigit_of_mem_toDigits _ (List.mem_map_of_mem hmem))

/-- **No amount has an identifier.** -/
theorem hexIds_grouped (n : ℕ) : hexIds u (text (grouped n)) = [] := by
  obtain ⟨first, rest, hsplit, -, hfirst, hrest, -⟩ := splitOnP_grouped n
  have hruns : Munch.runs u.isWord [] (text (grouped n)) = first :: rest := by
    have hsep : ∀ c ∈ text (grouped n), u.isWord c = !isSep c := by
      intro c hc
      rcases mem_grouped hc with rfl | hdigit
      · rw [isWord_of_isSep (c := point '.') rfl]
        rfl
      · rw [isWord_of_isDigit (isDigit_of_digit hdigit), isSep_of_digit hdigit]
        rfl
    rw [Munch.runs_congr hsep, Munch.runs_eq_splitOnP]
    simp only [Bool.not_not, List.nil_append, hsplit]
    rfl
  unfold hexIds
  rw [hruns, List.filter_eq_nil_iff]
  intro g hg
  have hlength : g.length ≤ 3 := by
    rcases List.mem_cons.mp hg with rfl | hg
    · exact hfirst
    · exact (hrest g hg).le
  unfold isHexId
  rw [decide_eq_false (by omega : ¬ 12 ≤ g.length), Bool.false_and]
  exact Bool.false_ne_true

/-- The last group of an amount is not empty. -/
theorem isSep_getLast?_grouped (n : ℕ) : ∀ c ∈ (text (grouped n)).getLast?, isSep c = false := by
  obtain ⟨first, rest, hsplit, hpos, -, hrest, -⟩ := splitOnP_grouped n
  intro c hc
  by_contra hsep
  obtain ⟨l, hl⟩ := List.getLast?_eq_some_iff.mp hc
  have hlast : [] ∈ (text (grouped n)).splitOnP isSep := by
    rw [hl, List.splitOnP_append_cons l [] (Bool.not_eq_false _ ▸ hsep)]
    exact List.mem_append_right _ (List.mem_singleton_self _)
  rw [hsplit] at hlast
  rcases List.mem_cons.mp hlast with hnil | hmem
  · rw [← hnil] at hpos
    exact absurd hpos (Nat.lt_irrefl 0)
  · exact absurd (hrest [] hmem) (by decide)

/-- An amount of one group is its digits. -/
theorem text_grouped_of_small {n : ℕ} (hsplit : (text (grouped n)).splitOnP isSep = [l]) :
    text (grouped n) = l := by
  have hnone : ∀ c ∈ text (grouped n), isSep c = false := by
    intro c hc
    by_contra hsep
    obtain ⟨a, b, hab⟩ := List.append_of_mem hc
    rw [hab, List.splitOnP_append_cons a b (Bool.not_eq_false _ ▸ hsep)] at hsplit
    have hlength := congrArg List.length hsplit
    have ha := List.length_pos_iff.mpr (List.splitOnP_ne_nil isSep a)
    have hb := List.length_pos_iff.mpr (List.splitOnP_ne_nil isSep b)
    rw [List.length_append, List.length_singleton] at hlength
    omega
  rw [List.splitOnP_eq_singleton hnone] at hsplit
  exact (List.cons.inj hsplit).1

/-- **The groups of an amount** are those of a number with thousands. -/
theorem isThousands_grouped {n : ℕ} {first g : Text} {rest : List Text} (hpos : 0 < first.length)
    (hfirst : first.length ≤ 3) (hrest : ∀ h ∈ g :: rest, h.length = 3)
    (hflat : (first :: g :: rest).flatten = text (toString n)) :
    isThousands u (first :: g :: rest) = true := by
  have hdigits : IsDigits (first :: g :: rest).flatten := by
    rw [hflat]
    exact isDigits_text_toString n
  have hgroup : ∀ h ∈ first :: g :: rest, h.all u.isDigit = true := by
    intro h hh
    refine List.all_eq_true.mpr fun c hc => hdigits.isDigit c ?_
    exact List.mem_flatten.mpr ⟨h, hh, hc⟩
  have hlarge : 10 ^ 3 ≤ n := by
    refine (length_text_toString (by decide)).mp ?_
    rw [← hflat, List.flatten_cons, List.flatten_cons, List.length_append, List.length_append,
      hrest g List.mem_cons_self]
    omega
  have hhead : first.head?.any (fun c => decide (49 ≤ c.val ∧ c.val ≤ 57)) = true := by
    cases first with
    | nil => exact absurd hpos (Nat.lt_irrefl 0)
    | cons c first =>
        have hc : c ∈ (text (toString n)).head? := by
          rw [← hflat]
          rfl
        rw [text_toString, List.head?_map] at hc
        obtain ⟨d, hd, rfl⟩ := Option.map_eq_some_iff.mp hc
        have hone := head?_toDigits (by omega) d hd
        have hnine := (isDigits_map_point isDigit_of_mem_toDigits (point d)
          (List.mem_map_of_mem (List.mem_of_mem_head? hd))).2
        exact decide_eq_true ⟨hone, hnine⟩
  unfold isThousands
  dsimp only
  rw [hhead, decide_eq_true hfirst, hgroup first List.mem_cons_self]
  refine List.all_eq_true.mpr fun h hh => ?_
  rw [decide_eq_true (hrest h hh), hgroup h (List.mem_cons_of_mem _ hh)]
  rfl

/-- **An amount is read as its number**, with or without the currency. -/
theorem mem_interpretations_grouped (n : ℕ) (rupiah : Bool) :
    (n : K) ∈ (interpretations u (text (grouped n)) rupiah : List K) := by
  obtain ⟨first, rest, hsplit, hpos, hfirst, hrest, hflat⟩ := splitOnP_grouped n
  cases rest with
  | nil =>
      rw [List.flatten_singleton] at hflat
      rw [text_grouped_of_small hsplit, hflat,
        interpretations_digits (isDigits_text_toString n) (text_toString_ne_nil n),
        ofDigits_text_toString]
      exact List.mem_singleton_self _
  | cons g rest =>
      have hstrip := stripSeps_append (isSep_getLast?_grouped n) fun c (hc : c ∈ []) =>
        absurd hc List.not_mem_nil
      rw [List.append_nil] at hstrip
      unfold interpretations
      dsimp only
      rw [hstrip, hsplit, if_pos (isThousands_grouped hpos hfirst hrest hflat), hflat,
        ofDigits_text_toString]
      exact List.mem_cons_self

/-- An amount is found after a text that says none. -/
theorem shows_grouped (n : ℕ) (hplain : ∀ c ∈ pre, isPlain c = true)
    (hlast : ∀ c ∈ pre.getLast?, isBreak c = true) (hids : hexIds u pre = []) :
    Shows u (pre ++ text (grouped n)) 0 (n : K) := by
  have hall : hexIds u (pre ++ text (grouped n)) = [] := by
    cases hget : pre.getLast? with
    | none =>
        obtain rfl := List.getLast?_eq_none_iff.mp hget
        rw [List.nil_append, hexIds_grouped]
    | some y =>
        obtain ⟨pre₀, rfl⟩ := List.getLast?_eq_some_iff.mp hget
        have hword : u.isWord y = false := isWord_of_isBreak (hlast y hget)
        rw [hexIds_append_cons hword] at hids
        rw [List.append_assoc, List.singleton_append, hexIds_append_cons hword, hexIds_grouped,
          (List.append_eq_nil_iff.mp hids).1, List.append_nil]
  obtain ⟨first, rest, hsplit, hpos, -, -, hflat⟩ := splitOnP_grouped n
  have hchars : ∀ c ∈ text (grouped n), isNumberChar u c = true := by
    intro c hc
    rcases mem_grouped hc with rfl | hdigit
    · exact isNumberChar_of_isSep rfl
    · unfold isNumberChar
      rw [isDigit_of_digit hdigit, Bool.true_or]
  have hfirst : (text (grouped n)).head?.any u.isDigit = true := by
    cases htext : text (grouped n) with
    | nil =>
        rw [htext] at hsplit
        obtain ⟨rfl, rfl⟩ := List.cons.inj hsplit
        exact absurd hpos (Nat.lt_irrefl 0)
    | cons c l =>
        refine (?_ : u.isDigit c = true)
        have hmem : c ∈ text (grouped n) := by
          rw [htext]
          exact List.mem_cons_self
        rcases mem_grouped hmem with rfl | hdigit
        · rw [htext, List.splitOnP_cons_eq_if_modifyHead, show isSep (point '.') = true from rfl,
            if_pos rfl] at hsplit
          obtain ⟨rfl, -⟩ := List.cons.inj hsplit
          exact absurd hpos (Nat.lt_irrefl 0)
        · exact isDigit_of_digit hdigit
  refine ⟨by rw [hall, if_neg (by omega)], fun options hoptions => ?_⟩
  rw [extractNumbers_number hplain hlast hall hfirst hchars] at hoptions
  rw [List.mem_singleton.mp (List.mem_of_mem_filter hoptions)]
  exact mem_interpretations_grouped n _

/-- **`_idr`** shows the amount, in groups. -/
theorem shows_idr (x : ℤ) : Shows u (text (idr x)) 0 (x.natAbs : K) := by
  have hplain : Plain (text "Rp ") := by decide
  have hlast : (text "Rp ").getLast?.all isBreak = true := by decide
  unfold idr
  rw [text_append, text_append]
  split
  · -- the sign stands between the currency and the digits
    have hcloses : Closes (text "Rp -") := by decide
    have hlone : Shows u ([] ++ text (grouped x.natAbs)) 0 (x.natAbs : K) :=
      shows_grouped x.natAbs (fun c hc => absurd hc List.not_mem_nil)
        (fun c hc => absurd hc (Option.not_mem_none c)) rfl
    rw [List.nil_append] at hlone
    rw [← text_append]
    exact hlone.append_left hcloses
  · rw [show text "" = [] from rfl, List.append_nil]
    exact shows_grouped x.natAbs hplain.isPlain ((Option.all_eq_true _ _).mp hlast)
      hplain.hexIds_eq_nil

end Explain

end RetentionEngine
