import RetentionEngine.Explain.UnknownNumbers

/-!
# Closing literals

A template sets texts of others between literals of its own. A literal
closes what stands before it if no pattern of the validator reads across
it. A text is then read piece by piece: what is found in it is what is found
in the pieces, each on its own.
-/

namespace RetentionEngine

namespace Explain

open Python (CodePoint Text point text)

/-! ## Literals -/

/-- An ASCII character that is no digit. -/
def isPlain (c : CodePoint) : Bool := decide (c.val < 128) && !decide (48 ≤ c.val ∧ c.val ≤ 57)

/-- A character that ends both a word and a number. -/
def isBreak (c : CodePoint) : Bool := isPlain c && !asciiClasses.isWord c && !isSep c

/-- **A literal in which nothing is found.** -/
def Plain (l : Text) : Prop := l.all isPlain = true ∧ hexIds asciiClasses l = []

/-- It does not go on with a word before it. -/
def Follows (l : Text) : Prop := l.head?.all (fun c => !asciiClasses.isWord c) = true

/-- The last character that is not a blank. -/
def lastShown (l : Text) : Option CodePoint :=
  (l.reverse.dropWhile fun c => decide (Python.isSpace c)).head?

/-- **A literal after which reading starts afresh**: a word, a number and a
currency all end before it does. -/
def Closes (l : Text) : Prop :=
  Plain l ∧ l.getLast?.any isBreak = true ∧
    (lastShown l).any (fun c => decide (c ≠ point 'p' ∧ c ≠ point '.')) = true

instance : DecidablePred Plain := fun _ => inferInstanceAs (Decidable (_ ∧ _))

instance : DecidablePred Follows := fun _ => inferInstanceAs (Decidable (_ = true))

instance : DecidablePred Closes := fun _ => inferInstanceAs (Decidable (_ ∧ _ ∧ _))

variable {u : Classes} {l q s k : Text} {c : CodePoint}

theorem isDigit_eq_false_of_isPlain (h : isPlain c = true) : u.isDigit c = false := by
  unfold isPlain at h
  simp only [Bool.and_eq_true, decide_eq_true_iff, Bool.not_eq_true', decide_eq_false_iff_not] at h
  unfold Classes.isDigit Classes.digit?
  rw [dif_neg h.2, if_pos h.1]
  rfl

theorem startsNumber_eq_false_of_isPlain (h : isPlain c = true) (pre : Text) :
    startsNumber u pre c = false := by
  unfold startsNumber
  rw [isDigit_eq_false_of_isPlain h, Bool.false_and]

/-- The classes of ASCII characters are fixed. -/
theorem isWord_of_isPlain (h : isPlain c = true) : u.isWord c = asciiClasses.isWord c := by
  have hascii : c.val < 128 := by
    unfold isPlain at h
    simp only [Bool.and_eq_true, decide_eq_true_iff] at h
    exact h.1
  have hnot : ¬ 128 ≤ c.val := by omega
  unfold Classes.isWord
  rw [isDigit_eq_false_of_isPlain h, isDigit_eq_false_of_isPlain h, decide_eq_false hnot,
    Bool.false_and, Bool.false_and]

theorem isPlain_of_isBreak (h : isBreak c = true) : isPlain c = true := by
  unfold isBreak at h
  simp only [Bool.and_eq_true] at h
  exact h.1.1

theorem isWord_of_isBreak (h : isBreak c = true) : u.isWord c = false := by
  rw [isWord_of_isPlain (isPlain_of_isBreak h)]
  unfold isBreak at h
  simp only [Bool.and_eq_true, Bool.not_eq_true'] at h
  exact h.1.2

theorem isSep_of_isBreak (h : isBreak c = true) : isSep c = false := by
  unfold isBreak at h
  simp only [Bool.and_eq_true, Bool.not_eq_true'] at h
  exact h.2

/-- A break is in no number. -/
theorem isNumberChar_of_isBreak (h : isBreak c = true) : isNumberChar u c = false :=
  isNumberChar_eq_false.mpr
    ⟨isDigit_eq_false_of_isPlain (isPlain_of_isBreak h), isSep_of_isBreak h⟩

theorem ne_of_isBreak (h : isBreak c = true) : c ≠ point 'p' ∧ c ≠ point 'R' ∧ c ≠ point '.' := by
  refine ⟨?_, ?_, ?_⟩ <;> (rintro rfl; revert h; decide)

theorem Plain.isPlain (h : Plain l) : ∀ c ∈ l, isPlain c = true := List.all_eq_true.mp h.1

theorem Plain.not_startsNumber (h : Plain l) : ∀ c ∈ l, ∀ pre, startsNumber u pre c = false :=
  fun c hc pre => startsNumber_eq_false_of_isPlain (h.isPlain c hc) pre

theorem Plain.hexIds_eq_nil (h : Plain l) : hexIds u l = [] := by
  unfold hexIds
  rw [Munch.runs_congr fun c hc => isWord_of_isPlain (h.isPlain c hc)]
  exact h.2

/-- The last character of a closing literal. -/
theorem Closes.exists_last (h : Closes l) : ∃ l₀ y, l = l₀ ++ [y] ∧ isBreak y = true := by
  obtain ⟨y, hy, hbreak⟩ := (Option.any_eq_true _ _).mp h.2.1
  obtain ⟨l₀, rfl⟩ := List.getLast?_eq_some_iff.mp hy
  exact ⟨l₀, y, rfl, hbreak⟩

/-! ## Identifiers -/

/-- **Identifiers do not stand across a character that is in no word.** -/
theorem hexIds_append_cons (hc : u.isWord c = false) :
    hexIds u (q ++ c :: s) = hexIds u q ++ hexIds u s := by
  unfold hexIds
  rw [Munch.runs_append_cons hc, List.filter_append]

theorem hexIds_cons (hc : u.isWord c = false) : hexIds u (c :: s) = hexIds u s := by
  have hcut : hexIds u ([] ++ c :: s) = _ := hexIds_append_cons hc
  rwa [List.nil_append] at hcut

theorem Follows.isWord (h : Follows l) (hplain : Plain l) : ∀ c ∈ l.head?, u.isWord c = false := by
  intro c hc
  rw [isWord_of_isPlain (hplain.isPlain c (List.mem_of_mem_head? hc))]
  exact Bool.not_eq_true' _ ▸ (Option.all_eq_true _ _).mp h c hc

/-- A literal at the end has no part in one. -/
theorem hexIds_append_plain (hl : Plain l) (hf : Follows l) : hexIds u (q ++ l) = hexIds u q := by
  cases l with
  | nil => rw [List.append_nil]
  | cons c l =>
      have hc : u.isWord c = false := hf.isWord hl c rfl
      have hnil : hexIds u (c :: l) = [] := hl.hexIds_eq_nil
      rw [hexIds_cons hc] at hnil
      rw [hexIds_append_cons hc, hnil, List.append_nil]

/-- **The identifiers on both sides of a closing literal.** -/
theorem hexIds_append_closes (hl : Closes l) (hq : q = [] ∨ Follows l) :
    hexIds u (q ++ (l ++ s)) = hexIds u q ++ hexIds u s := by
  have hleft : hexIds u (q ++ l) = hexIds u q := by
    rcases hq with rfl | hf
    · rw [List.nil_append, hl.1.hexIds_eq_nil]
      rfl
    · exact hexIds_append_plain hl.1 hf
  obtain ⟨l₀, y, rfl, hy⟩ := hl.exists_last
  have hword : u.isWord y = false := isWord_of_isBreak hy
  have hlast : hexIds u (q ++ l₀ ++ y :: []) = _ := hexIds_append_cons hword
  rw [List.append_assoc q l₀ [y], hleft] at hlast
  rw [List.append_assoc l₀ [y] s, List.singleton_append, ← List.append_assoc,
    hexIds_append_cons hword, hlast]
  exact congrArg (· ++ hexIds u s) (List.append_nil _).symm

/-! ## Numbers -/

/-- The text in which numbers are searched. -/
def cleaned (u : Classes) (s : Text) : Text := splitRp u [] (dropHexIds u s)

theorem dropHexIds_append_cons (hc : u.isWord c = false) :
    dropHexIds u (q ++ c :: s) = dropHexIds u q ++ c :: dropHexIds u s :=
  Munch.mapRuns_append_cons hc

theorem dropHexIds_append_plain (hl : Plain l) (hq : q = [] ∨ Follows l) :
    dropHexIds u (q ++ l) = dropHexIds u q ++ l := by
  rcases hq with rfl | hf
  · exact dropHexIds_eq_self hl.hexIds_eq_nil
  · cases l with
    | nil => rw [List.append_nil, List.append_nil]
    | cons c l =>
        have hc : u.isWord c = false := hf.isWord hl c rfl
        have hnil : hexIds u (c :: l) = [] := hl.hexIds_eq_nil
        rw [hexIds_cons hc] at hnil
        rw [dropHexIds_append_cons hc, dropHexIds_eq_self hnil]

/-- A literal at the end is kept, and what stands before it is split on its own. -/
theorem splitRp_append_plain {p : Text} (hl : ∀ c ∈ l, isPlain c = true) :
    splitRp u p (q ++ l) = splitRp u p q ++ l := by
  induction q generalizing p with
  | nil =>
      rw [List.nil_append]
      induction l generalizing p with
      | nil => rfl
      | cons c l ih =>
          have hdigit : u.isDigit c = false :=
            isDigit_eq_false_of_isPlain (hl c List.mem_cons_self)
          have hl' : ∀ d ∈ l, isPlain d = true := fun d hd => hl d (List.mem_cons_of_mem _ hd)
          have hnext : l.head?.any u.isDigit = false := by
            cases l with
            | nil => rfl
            | cons d l => exact isDigit_eq_false_of_isPlain (hl' d List.mem_cons_self)
          rw [splitRp_cons, ih hl']
          unfold splitRpAt
          rw [hdigit, hnext, Bool.and_false, Bool.and_false, if_neg Bool.false_ne_true,
            if_neg Bool.false_ne_true]
          rfl
  | cons c q ih =>
      have hnext : (q ++ l).head?.any u.isDigit = q.head?.any u.isDigit := by
        cases q with
        | nil =>
            cases l with
            | nil => rfl
            | cons d l => exact isDigit_eq_false_of_isPlain (hl d List.mem_cons_self)
        | cons d q => rfl
      rw [List.cons_append, splitRp_cons, splitRp_cons, ih, List.append_assoc]
      unfold splitRpAt
      rw [hnext]

/-- A pattern does not go on past a character that it does not have. -/
theorem isPrefixOf_append_cons {α : Type*} [BEq α] [LawfulBEq α] {t a b : List α} {y : α}
    (hy : y ∉ t) : t.isPrefixOf (a ++ y :: b) = t.isPrefixOf a := by
  induction t generalizing a with
  | nil => rw [List.isPrefixOf_nil_left, List.isPrefixOf_nil_left]
  | cons x t ih =>
      obtain ⟨hx, ht⟩ := not_or.mp (mt List.mem_cons.mpr hy)
      cases a with
      | nil =>
          rw [List.nil_append, List.isPrefixOf_cons_cons, List.isPrefixOf_cons_nil,
            beq_eq_false_iff_ne.mpr (Ne.symm hx), Bool.false_and]
      | cons z a =>
          rw [List.cons_append, List.isPrefixOf_cons_cons, List.isPrefixOf_cons_cons, ih ht]

/-- **A currency is not read across a closing literal.** -/
theorem endsRp_append {y : CodePoint} (hy : isBreak y = true) :
    endsRp (q ++ y :: k) = endsRp k := by
  obtain ⟨hp, hR, -⟩ := ne_of_isBreak hy
  have hnot : y ∉ [point 'p', point 'R'] := by simp [hp, hR]
  show ([point 'p', point 'R'] : Text).isPrefixOf (q ++ y :: k).reverse =
    ([point 'p', point 'R'] : Text).isPrefixOf k.reverse
  rw [List.reverse_append, List.reverse_cons, List.append_assoc, List.singleton_append]
  exact isPrefixOf_append_cons hnot

theorem splitRp_append_break {y : CodePoint} (hy : isBreak y = true) :
    splitRp u (q ++ y :: k) s = splitRp u k s := by
  induction s generalizing k with
  | nil => rfl
  | cons c s ih =>
      have hk : q ++ y :: k ++ [c] = q ++ y :: (k ++ [c]) := by simp
      rw [splitRp_cons, splitRp_cons, hk, ih]
      unfold splitRpAt
      rw [endsRp_append hy]

/-- **What is searched for numbers**, on both sides of a closing literal. -/
theorem cleaned_append_closes (hl : Closes l) (hq : q = [] ∨ Follows l) :
    cleaned u (q ++ (l ++ s)) = cleaned u q ++ (l ++ cleaned u s) := by
  have hleft := dropHexIds_append_plain (u := u) hl.1 hq
  obtain ⟨l₀, y, rfl, hy⟩ := hl.exists_last
  have hword : u.isWord y = false := isWord_of_isBreak hy
  have hlast : dropHexIds u (q ++ l₀ ++ y :: []) = _ := dropHexIds_append_cons hword
  rw [List.append_assoc q l₀ [y], hleft, ← List.append_assoc] at hlast
  have hdrop : dropHexIds u q ++ l₀ = dropHexIds u (q ++ l₀) := List.append_inj_left' hlast rfl
  have hplain : ∀ c ∈ l₀, isPlain c = true := fun c hc =>
    hl.1.isPlain c (List.mem_append_left _ hc)
  unfold cleaned
  rw [List.append_assoc l₀ [y] s, List.singleton_append, ← List.append_assoc,
    dropHexIds_append_cons hword, ← hdrop, splitRp_append_cons (isNumberChar_of_isBreak hy),
    splitRp_append_plain hplain, splitRp_append_break hy]
  simp

/-- A pattern that is searched for at the end, past blanks, does not go on
past a character it does not have, nor past blanks after another. -/
theorem isPrefixOf_window {α : Type*} [BEq α] [LawfulBEq α] {blank : α → Bool} {x y : α}
    {t a b : List α} (n : ℕ) (hy : y ∉ x :: t)
    (hx : ∀ z ∈ ((y :: b).dropWhile blank).head?, z ≠ x) :
    (x :: t).isPrefixOf (((a ++ y :: b).take n).dropWhile blank) =
      (x :: t).isPrefixOf ((a.take n).dropWhile blank) := by
  rw [List.take_append, List.dropWhile_append]
  split
  · -- only blanks are before it
    rename_i hempty
    rw [List.isEmpty_iff.mp hempty, List.isPrefixOf_cons_nil]
    cases hdrop : ((y :: b).take (n - a.length)).dropWhile blank with
    | nil => rfl
    | cons z w =>
        have hz : z ∈ ((y :: b).dropWhile blank).head? := by
          rw [← List.take_append_drop (n - a.length) (y :: b), List.dropWhile_append, hdrop]
          rfl
        rw [List.isPrefixOf_cons_cons, beq_eq_false_iff_ne.mpr (hx z hz).symm, Bool.false_and]
  · cases n - a.length with
    | zero => rw [List.take_zero, List.append_nil]
    | succ m => rw [List.take_succ_cons, isPrefixOf_append_cons hy]

/-- **No number after a closing literal is an amount** because of what
stands before it. -/
theorem afterRp_append_closes (hl : Closes l) : afterRp (q ++ (l ++ k)) = afterRp k := by
  have hshown := hl.2.2
  obtain ⟨l₀, y, rfl, hy⟩ := hl.exists_last
  obtain ⟨hp, hR, hdot⟩ := ne_of_isBreak hy
  have hrev : (q ++ (l₀ ++ [y] ++ k)).reverse = k.reverse ++ y :: (l₀.reverse ++ q.reverse) := by
    simp
  have hfirst : ∀ z ∈ ((y :: (l₀.reverse ++ q.reverse)).dropWhile fun c =>
      decide (Python.isSpace c)).head?, z ≠ point 'p' ∧ z ≠ point '.' := by
    intro z hz
    obtain ⟨x, hx, hne⟩ := (Option.any_eq_true _ _).mp hshown
    unfold lastShown at hx
    rw [List.reverse_append, List.reverse_singleton, List.singleton_append] at hx
    rw [← List.cons_append, List.dropWhile_append, if_neg] at hz
    · rw [List.head?_append, hx] at hz
      obtain rfl : x = z := by simpa using hz
      exact of_decide_eq_true hne
    · intro hempty
      rw [List.isEmpty_iff.mp hempty] at hx
      cases hx
  unfold afterRp
  dsimp only
  rw [hrev, isPrefixOf_window 4 (by simp [hp, hR]) fun z hz => (hfirst z hz).1,
    isPrefixOf_window 4 (by simp [hp, hR, hdot]) fun z hz => (hfirst z hz).2]

/-! ### Its readings -/

variable {K : Type} [Field K]

/-- What is read of a match. -/
def reading (u : Classes) (m : Text × Text) : List K := interpretations u m.2 (afterRp m.1)

/-- Separators after a number do not change what is read. -/
theorem reading_append_seps {m : Text × Text} {seps : Text} (h : ∀ c ∈ seps, isSep c = true) :
    (reading u (m.1, m.2 ++ seps) : List K) = reading u m := by
  have hstrip : stripSeps (m.2 ++ seps) = stripSeps m.2 := by
    unfold stripSeps
    rw [List.reverse_append, List.dropWhile_append_of_pos fun c hc =>
      h c (List.mem_reverse.mp hc)]
  unfold reading interpretations
  rw [hstrip]

/-- What a literal adds to a number that stands before it is separators. -/
theorem reading_append_plain (hl : Plain l) (m : Text × Text) :
    (reading u (m.1, m.2 ++ l.takeWhile (isNumberChar u)) : List K) = reading u m := by
  refine reading_append_seps ?_
  intro c hc
  have hnumber : isNumberChar u c = true := List.mem_takeWhile_imp hc
  have hdigit : u.isDigit c = false :=
    isDigit_eq_false_of_isPlain (hl.isPlain c ((List.takeWhile_prefix _).subset hc))
  unfold isNumberChar at hnumber
  rwa [hdigit, Bool.false_or] at hnumber

theorem extractNumbers_eq (s : Text) : (extractNumbers u s : List (List K)) =
    ((numberTokens u (cleaned u s)).map (reading u)).filter fun options => !options.isEmpty := rfl

/-- **A literal at the end says no number.** -/
theorem extractNumbers_append_plain (hl : Plain l) (hf : Follows l) :
    (extractNumbers u (q ++ l) : List (List K)) = extractNumbers u q := by
  have hclean : cleaned u (q ++ l) = cleaned u q ++ l := by
    unfold cleaned
    rw [dropHexIds_append_plain hl (Or.inr hf), splitRp_append_plain hl.isPlain]
  rw [extractNumbers_eq, extractNumbers_eq, hclean]
  unfold numberTokens
  rw [Munch.map_scan_append hl.not_startsNumber (reading_append_plain hl)]

/-- **The numbers on both sides of a closing literal.** -/
theorem extractNumbers_append_closes (hl : Closes l) (hq : q = [] ∨ Follows l) :
    (extractNumbers u (q ++ (l ++ s)) : List (List K)) =
      extractNumbers u q ++ extractNumbers u s := by
  rw [extractNumbers_eq, extractNumbers_eq, extractNumbers_eq, cleaned_append_closes hl hq,
    ← List.filter_append]
  have hafter : ∀ k, afterRp (cleaned u q ++ (l ++ k)) = afterRp k := fun k =>
    afterRp_append_closes hl
  have hplain := hl.1
  obtain ⟨l₀, y, rfl, hy⟩ := hl.exists_last
  have hstart : ∀ pre, startsNumber u pre y = false :=
    startsNumber_eq_false_of_isPlain (isPlain_of_isBreak hy)
  -- what stands before the last character of the literal
  have hleft : ((numberTokens u (cleaned u q ++ l₀)).map (reading u) : List (List K)) =
      (numberTokens u (cleaned u q)).map (reading u) := by
    have hcut : Munch.scan (startsNumber u) (isNumberChar u) [] none (cleaned u q ++ l₀ ++ [y]) =
        Munch.scan (startsNumber u) (isNumberChar u) [] none (cleaned u q ++ l₀) ++ [] :=
      Munch.scan_append_cons (isNumberChar_of_isBreak hy) hstart
    have hall : ((numberTokens u (cleaned u q ++ (l₀ ++ [y]))).map (reading u) : List (List K)) =
        (numberTokens u (cleaned u q)).map (reading u) :=
      Munch.map_scan_append hplain.not_startsNumber (reading_append_plain hplain)
    rw [← hall, ← List.append_assoc]
    exact congrArg (List.map (reading u)) ((List.append_nil _).symm.trans hcut.symm)
  -- what stands after it
  have hright : ((Munch.scan (startsNumber u) (isNumberChar u) (cleaned u q ++ (l₀ ++ [y])) none
      (cleaned u s)).map (reading u) : List (List K)) =
        (numberTokens u (cleaned u s)).map (reading u) := by
    have hfresh : ∀ k c,
        startsNumber u (cleaned u q ++ (l₀ ++ [y]) ++ k) c = startsNumber u k c := by
      intro k c
      unfold startsNumber
      cases k using List.reverseRecOn with
      | nil =>
          rw [List.append_nil, ← List.append_assoc, List.getLast?_concat]
          simp [isWord_of_isBreak hy, isSep_of_isBreak hy]
      | append_singleton k d => rw [← List.append_assoc, List.getLast?_concat, List.getLast?_concat]
    have hshift : Munch.scan (startsNumber u) (isNumberChar u) (cleaned u q ++ (l₀ ++ [y]) ++ [])
        (none.map fun m : Text × Text => (cleaned u q ++ (l₀ ++ [y]) ++ m.1, m.2)) (cleaned u s) =
          (Munch.scan (startsNumber u) (isNumberChar u) [] none (cleaned u s)).map fun m =>
            (cleaned u q ++ (l₀ ++ [y]) ++ m.1, m.2) := Munch.scan_append_left hfresh
    rw [List.append_nil, Option.map_none] at hshift
    rw [hshift, List.map_map]
    refine List.map_congr_left fun m _ => ?_
    unfold reading
    dsimp only [Function.comp_apply]
    rw [List.append_assoc, hafter]
  have hcut : numberTokens u (cleaned u q ++ (l₀ ++ [y] ++ cleaned u s)) =
      numberTokens u (cleaned u q ++ l₀) ++ Munch.scan (startsNumber u) (isNumberChar u)
        (cleaned u q ++ (l₀ ++ [y])) none (cleaned u s) := by
    rw [List.append_assoc l₀, List.singleton_append, ← List.append_assoc, ← List.append_assoc]
    exact Munch.scan_append_cons (isNumberChar_of_isBreak hy) hstart
  rw [hcut, List.map_append, hleft, hright]

end Explain

end RetentionEngine
