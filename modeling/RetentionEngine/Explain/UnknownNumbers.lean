import RetentionEngine.Explain.Validator
import Mathlib.Data.Rat.Floor

/-!
# Unknown numbers

What an accepted narration may say. A number is read if it is grouped in
thousands or has at most one separator; one that is neither has no reading,
and the validator passes over it. `knownNumbers_iff` is about the others.
-/

namespace RetentionEngine

namespace Explain

open Python (CodePoint Text point text)

variable {u : Classes}

/-! ## The numbers of a text -/

/-- **A number of a text**: digits with separators between them, starting
at a digit that is not glued to a word or a separator, and as many as there
are. `seps` are the separators after it. -/
structure IsNumber (u : Classes) (s pre core seps post : Text) : Prop where
  split : s = pre ++ (core ++ (seps ++ post))
  chars : ∀ c ∈ core, isNumberChar u c = true
  first : ∃ c l, core = c :: l ∧ u.isDigit c = true
  last : ∀ c ∈ core.getLast?, isSep c = false
  seps : ∀ c ∈ seps, isSep c = true
  left : ∀ c ∈ pre.getLast?, u.isWord c = false ∧ isSep c = false
  right : ∀ c ∈ post.head?, isNumberChar u c = false

/-- The number, with the rest of the word it ends in. -/
def withRest (u : Classes) (core seps post : Text) : Text :=
  core ++ (seps ++ post).takeWhile u.isWord

/-- **Part of an identifier**: the word it is in is one. -/
def InsideId (u : Classes) (core seps post : Text) : Prop :=
  isHexId (withRest u core seps post) = true

instance (core seps post : Text) : Decidable (InsideId u core seps post) :=
  inferInstanceAs (Decidable (_ = true))

/-- **Cut by an identifier**: one stands in it, between its separators. -/
def CutById (u : Classes) (core seps post : Text) : Prop :=
  hexIds u (withRest u core seps post) ≠ [] ∧ ¬ InsideId u core seps post

/-- **A number that can be read**: grouped in thousands, or with one
separator at most. -/
def Readable (u : Classes) (core : Text) : Prop :=
  isThousands u (core.splitOnP isSep) = true ∨ (core.filter isSep).length ≤ 1

/-! ### Its characters -/

theorem isWord_of_isDigit {c : CodePoint} (h : u.isDigit c = true) : u.isWord c = true := by
  unfold Classes.isWord
  rw [h]
  rfl

theorem isSep_iff {c : CodePoint} : isSep c = true ↔ c = point '.' ∨ c = point ',' := by
  unfold isSep
  rw [Bool.or_eq_true, decide_eq_true_iff, decide_eq_true_iff]

theorem isWord_of_isSep {c : CodePoint} (h : isSep c = true) : u.isWord c = false := by
  rcases isSep_iff.mp h with rfl | rfl <;> rfl

theorem isNumberChar_of_isSep {c : CodePoint} (h : isSep c = true) :
    isNumberChar u c = true := by
  unfold isNumberChar
  rw [h, Bool.or_true]

theorem isNumberChar_eq_false {c : CodePoint} :
    isNumberChar u c = false ↔ u.isDigit c = false ∧ isSep c = false := by
  unfold isNumberChar
  rw [Bool.or_eq_false_iff]

/-- What a number may follow is no part of one. -/
theorem not_isNumberChar_of_left {c : CodePoint} (hword : u.isWord c = false)
    (hsep : isSep c = false) : isNumberChar u c = false := by
  refine isNumberChar_eq_false.mpr ⟨?_, hsep⟩
  by_contra hdigit
  rw [isWord_of_isDigit (Bool.not_eq_false _ ▸ hdigit)] at hword
  cases hword

theorem endsRp_eq_false {pre : Text} (h : ∀ c ∈ pre.getLast?, c ≠ point 'p') :
    endsRp pre = false := by
  unfold endsRp
  by_contra hsuffix
  obtain ⟨l, rfl⟩ := List.isSuffixOf_iff_suffix.mp (Bool.not_eq_false _ ▸ hsuffix)
  exact h (point 'p') (by simp) rfl

theorem isNumberChar_point_p : isNumberChar u (point 'p') = false := rfl

/-! ## What the substitutions leave -/

/-- Taking identifiers out does not make a number longer. -/
theorem right_dropHexIds {post : Text} (h : ∀ c ∈ post.head?, isNumberChar u c = false) :
    ∀ c ∈ (dropHexIds u post).head?, isNumberChar u c = false := by
  unfold dropHexIds
  rw [Munch.mapRuns_eq_append, List.nil_append]
  cases post with
  | nil => exact fun c hc => absurd hc (Option.not_mem_none c)
  | cons a l =>
      by_cases ha : u.isWord a = true
      · rw [List.takeWhile_cons_of_pos ha]
        unfold blankHexId
        split
        · intro c hc
          obtain rfl : point ' ' = c := by simpa using hc
          rfl
        · exact fun c hc => h c (by simpa using hc)
      · rw [List.takeWhile_cons_of_neg ha, List.dropWhile_cons_of_neg ha]
        exact fun c hc => h c (by simpa [blankHexId, isHexId] using hc)

theorem blankHexId_nil : blankHexId [] = [] := rfl

/-- Where no identifier stands in a word, it is kept. -/
theorem dropHexIds_eq_self {s : Text} (h : hexIds u s = []) : dropHexIds u s = s := by
  refine (Munch.mapRuns_eq_of_runs ?_).trans (List.nil_append s)
  intro r hr
  unfold blankHexId
  rw [if_neg]
  intro hid
  have hmem : r ∈ hexIds u s := List.mem_filter.mpr ⟨hr, hid⟩
  rw [h] at hmem
  exact List.not_mem_nil hmem

/-- What follows a number, once identifiers are taken out. -/
theorem exists_post_dropHexIds {core seps post : Text} (hseps : ∀ c ∈ seps, isSep c = true)
    (hright : ∀ c ∈ post.head?, isNumberChar u c = false)
    (hfree : hexIds u (withRest u core seps post) = []) :
    ∃ post', dropHexIds u (core ++ (seps ++ post)) = core ++ (seps ++ post') ∧
      ∀ c ∈ post'.head?, isNumberChar u c = false := by
  unfold withRest at hfree
  cases seps with
  | nil =>
      rw [List.nil_append] at hfree ⊢
      have hkept := dropHexIds_eq_self hfree
      have hsplit := List.takeWhile_append_dropWhile (p := u.isWord) (l := post)
      cases hdrop : post.dropWhile u.isWord with
      | nil =>
          rw [hdrop, List.append_nil] at hsplit
          rw [hsplit] at hkept
          exact ⟨post, hkept, hright⟩
      | cons y q =>
          have hy : u.isWord y = false := by
            have hhead := List.head?_dropWhile_not u.isWord post
            rw [hdrop] at hhead
            simpa using hhead
          rw [hdrop] at hsplit
          refine ⟨post.takeWhile u.isWord ++ y :: Munch.mapRuns u.isWord blankHexId [] q, ?_, ?_⟩
          · rw [← hsplit, ← List.append_assoc]
            unfold dropHexIds at hkept ⊢
            rw [Munch.mapRuns_append_cons hy, hkept, hsplit, List.append_assoc, List.nil_append]
          · rw [← hsplit] at hright
            intro c hc
            refine hright c ?_
            cases htake : post.takeWhile u.isWord with
            | nil =>
                rw [htake] at hc
                rw [List.nil_append] at hc ⊢
                exact hc
            | cons a l =>
                rw [htake] at hc
                exact hc
  | cons a seps =>
      have ha := isWord_of_isSep (u := u) (hseps a List.mem_cons_self)
      rw [List.cons_append, List.takeWhile_cons_of_neg (by rw [ha]; exact Bool.false_ne_true),
        List.append_nil] at hfree
      have hkept := dropHexIds_eq_self hfree
      refine ⟨dropHexIds u post, ?_, right_dropHexIds hright⟩
      unfold dropHexIds at hkept ⊢
      rw [List.cons_append, Munch.mapRuns_append_cons ha, hkept,
        Munch.mapRuns_append_of_all blankHexId_nil fun c hc =>
          isWord_of_isSep (hseps c (List.mem_cons_of_mem _ hc)), List.cons_append]

variable {s pre core seps post : Text}

/-- **Taking identifiers out leaves the numbers they do not touch.** -/
theorem IsNumber.dropHexIds (h : IsNumber u s pre core seps post)
    (hfree : hexIds u (withRest u core seps post) = []) :
    ∃ pre' post', IsNumber u (dropHexIds u s) pre' core seps post' := by
  obtain ⟨post', htail, hright⟩ := exists_post_dropHexIds h.seps h.right hfree
  cases hlast : pre.getLast? with
  | none =>
      obtain rfl := List.getLast?_eq_none_iff.mp hlast
      refine ⟨[], post', ?_, h.chars, h.first, h.last, h.seps, h.left, hright⟩
      rw [h.split, List.nil_append, htail, List.nil_append]
  | some x =>
      obtain ⟨pre₀, rfl⟩ := List.getLast?_eq_some_iff.mp hlast
      obtain ⟨hword, hsep⟩ := h.left x hlast
      refine ⟨Munch.mapRuns u.isWord blankHexId [] pre₀ ++ [x], post', ?_, h.chars, h.first, h.last,
        h.seps, ?_, hright⟩
      · rw [h.split, List.append_assoc, List.singleton_append, List.append_assoc,
          List.singleton_append, ← htail]
        exact Munch.mapRuns_append_cons hword
      · intro c hc
        obtain rfl : x = c := by simpa using hc
        exact ⟨hword, hsep⟩

theorem splitRpAt_of_other {p : Text} {x : CodePoint} (hx : isNumberChar u x = false)
    (next : Option CodePoint) : splitRpAt u p x next = [x] := by
  obtain ⟨hdigit, hsep⟩ := isNumberChar_eq_false.mp hx
  have hdot : x ≠ point '.' := by
    rintro rfl
    cases hsep
  unfold splitRpAt
  rw [hdigit, decide_eq_false hdot, Bool.and_false, Bool.false_and,
    if_neg Bool.false_ne_true, if_neg Bool.false_ne_true]

theorem splitRpAt_of_not_endsRp {p : Text} (hp : endsRp p = false) (c : CodePoint)
    (next : Option CodePoint) : splitRpAt u p c next = [c] := by
  unfold splitRpAt
  rw [hp, Bool.false_and, Bool.false_and, Bool.false_and,
    if_neg Bool.false_ne_true, if_neg Bool.false_ne_true]

theorem splitRp_cons {p l : Text} {c : CodePoint} :
    splitRp u p (c :: l) = splitRpAt u p c l.head? ++ splitRp u (p ++ [c]) l := rfl

/-- A character that is neither digit nor separator is kept, and what stands
on either side of it is split on its own. -/
theorem splitRp_append_cons {p l l' : Text} {x : CodePoint} (hx : isNumberChar u x = false) :
    splitRp u p (l ++ x :: l') = splitRp u p l ++ x :: splitRp u (p ++ l ++ [x]) l' := by
  induction l generalizing p with
  | nil =>
      rw [List.nil_append, splitRp_cons, splitRpAt_of_other hx, List.append_nil]
      rfl
  | cons c l ih =>
      have hhead : splitRpAt u p c (l ++ x :: l').head? = splitRpAt u p c l.head? := by
        cases l with
        | nil =>
            have hdigit := (isNumberChar_eq_false.mp hx).1
            unfold splitRpAt
            rw [List.nil_append, List.head?_cons, Option.any_some, hdigit]
            rfl
        | cons d l => rfl
      rw [List.cons_append, splitRp_cons, splitRp_cons, hhead, ih, List.append_assoc p [c] l,
        List.singleton_append]
      exact (List.append_assoc ..).symm

/-- A number that does not follow `Rp` is kept. -/
theorem splitRp_of_numberChars {p l l' : Text} (hp : endsRp p = false)
    (hl : ∀ c ∈ l, isNumberChar u c = true) :
    splitRp u p (l ++ l') = l ++ splitRp u (p ++ l) l' := by
  induction l generalizing p with
  | nil => rw [List.append_nil, List.nil_append, List.nil_append]
  | cons c l ih =>
      have hnext : endsRp (p ++ [c]) = false := by
        refine endsRp_eq_false ?_
        intro d hd
        obtain rfl : c = d := by simpa using hd
        rintro rfl
        have hc := hl (point 'p') List.mem_cons_self
        rw [isNumberChar_point_p] at hc
        cases hc
      rw [List.cons_append, splitRp_cons, splitRpAt_of_not_endsRp hp,
        ih hnext fun d hd => hl d (List.mem_cons_of_mem _ hd), List.append_assoc,
        List.singleton_append, List.singleton_append, List.cons_append]

/-- Splitting off the currency does not make a number longer. -/
theorem right_splitRp {p : Text} (h : ∀ c ∈ post.head?, isNumberChar u c = false) :
    ∀ c ∈ (splitRp u p post).head?, isNumberChar u c = false := by
  cases post with
  | nil => exact fun c hc => absurd hc (Option.not_mem_none c)
  | cons a l =>
      have ha := h a rfl
      have hkept : splitRp u p ([] ++ a :: l) = _ := splitRp_append_cons ha
      rw [List.nil_append] at hkept
      rw [hkept]
      intro c hc
      obtain rfl : a = c := by simpa [splitRp] using hc
      exact ha

/-- **Splitting off the currency leaves every number.** -/
theorem IsNumber.splitRp (h : IsNumber u s pre core seps post) :
    ∃ pre' post', IsNumber u (splitRp u [] s) pre' core seps post' := by
  have hp : endsRp pre = false := by
    refine endsRp_eq_false ?_
    rintro c hc rfl
    cases (h.left _ hc).1
  have hnumber : ∀ c ∈ core ++ seps, isNumberChar u c = true := by
    intro c hc
    rcases List.mem_append.mp hc with hc | hc
    · exact h.chars c hc
    · exact isNumberChar_of_isSep (h.seps c hc)
  have htail : Explain.splitRp u pre (core ++ (seps ++ post)) =
      core ++ (seps ++ Explain.splitRp u (pre ++ (core ++ seps)) post) := by
    rw [← List.append_assoc, splitRp_of_numberChars hp hnumber, List.append_assoc]
  cases hlast : pre.getLast? with
  | none =>
      obtain rfl := List.getLast?_eq_none_iff.mp hlast
      refine ⟨[], Explain.splitRp u ([] ++ (core ++ seps)) post, ?_, h.chars, h.first, h.last,
        h.seps, h.left, right_splitRp h.right⟩
      rw [h.split]
      exact htail
  | some x =>
      obtain ⟨pre₀, rfl⟩ := List.getLast?_eq_some_iff.mp hlast
      obtain ⟨hword, hsep⟩ := h.left x hlast
      have hx := not_isNumberChar_of_left hword hsep
      refine ⟨Explain.splitRp u [] pre₀ ++ [x],
        Explain.splitRp u (pre₀ ++ [x] ++ (core ++ seps)) post, ?_, h.chars, h.first, h.last,
        h.seps, ?_, right_splitRp h.right⟩
      · rw [h.split, List.append_assoc, List.singleton_append, splitRp_append_cons hx,
          List.nil_append, htail]
        exact (List.append_assoc _ [x] _).symm
      · intro c hc
        obtain rfl : x = c := by simpa using hc
        exact ⟨hword, hsep⟩

/-- **Every number is found.** -/
theorem IsNumber.mem_numberTokens (h : IsNumber u s pre core seps post) :
    (pre, core ++ seps) ∈ numberTokens u s := by
  obtain ⟨c, l, rfl, hc⟩ := h.first
  have hfollow : ∀ b ∈ l ++ seps, isNumberChar u b = true := by
    intro b hb
    rcases List.mem_append.mp hb with hb | hb
    · exact h.chars b (List.mem_cons_of_mem _ hb)
    · exact isNumberChar_of_isSep (h.seps b hb)
  have hpre : ∀ b ∈ pre.getLast?, isNumberChar u b = false ∧
      ∀ pre, startsNumber u pre b = false := by
    intro b hb
    obtain ⟨hword, hsep⟩ := h.left b hb
    have hb := not_isNumberChar_of_left hword hsep
    refine ⟨hb, fun pre => ?_⟩
    unfold startsNumber
    rw [(isNumberChar_eq_false.mp hb).1, Bool.false_and]
  have hstart : startsNumber u pre c = true := by
    unfold startsNumber
    rw [hc, Bool.true_and, Option.all_eq_true]
    intro b hb
    obtain ⟨hword, hsep⟩ := h.left b hb
    rw [hword, hsep]
    rfl
  have hfound := Munch.mem_scan (l := post) hpre hstart hfollow h.right
  unfold numberTokens
  rw [h.split]
  rwa [List.append_assoc] at hfound

/-! ## Readings -/

/-- Trailing separators are stripped, and only they. -/
theorem stripSeps_append (hlast : ∀ c ∈ core.getLast?, isSep c = false)
    (hseps : ∀ c ∈ seps, isSep c = true) : stripSeps (core ++ seps) = core := by
  unfold stripSeps
  rw [List.reverse_append, List.dropWhile_append_of_pos fun c hc =>
    hseps c (List.mem_reverse.mp hc)]
  cases hrev : core.reverse with
  | nil => exact (List.reverse_eq_nil_iff.mp hrev).symm
  | cons c l =>
      have hc : core.getLast? = some c := by
        rw [← List.head?_reverse, hrev]
        rfl
      rw [List.dropWhile_cons_of_neg (by rw [hlast c hc]; exact Bool.false_ne_true), ← hrev,
        List.reverse_reverse]

variable {K : Type} [Field K]

/-- The separators after a number do not change its readings. -/
theorem interpretations_append (hlast : ∀ c ∈ core.getLast?, isSep c = false)
    (hseps : ∀ c ∈ seps, isSep c = true) (rupiah : Bool) :
    (interpretations u (core ++ seps) rupiah : List K) = interpretations u core rupiah := by
  have hcore : stripSeps (core ++ []) = core :=
    stripSeps_append hlast fun c hc => absurd hc List.not_mem_nil
  rw [List.append_nil] at hcore
  unfold interpretations
  rw [stripSeps_append hlast hseps, hcore]

/-- An amount of rupiah has no reading that another number has not. -/
theorem mem_interpretations {rupiah : Bool} {x : K} (h : x ∈ interpretations u core rupiah) :
    x ∈ interpretations u core false := by
  unfold interpretations at h ⊢
  dsimp only at h ⊢
  split at h
  · rename_i hthousands
    rw [if_pos hthousands]
    rcases List.mem_cons.mp h with rfl | hx
    · exact List.mem_cons_self
    · cases rupiah with
      | true => cases hx
      | false => exact List.mem_cons_of_mem _ hx
  · rename_i hthousands
    rw [if_neg hthousands]
    exact h

/-- How many separators there are of each kind. -/
theorem length_filter_isSep (l : Text) :
    (l.filter isSep).length = l.count (point '.') + l.count (point ',') := by
  induction l with
  | nil => rfl
  | cons c l ih =>
      by_cases hdot : c = point '.'
      · subst hdot
        rw [List.filter_cons_of_pos rfl, List.length_cons, List.count_cons_self,
          List.count_cons_of_ne (by decide), ih]
        omega
      · by_cases hcomma : c = point ','
        · subst hcomma
          rw [List.filter_cons_of_pos rfl, List.length_cons, List.count_cons_self,
            List.count_cons_of_ne (by decide), ih]
          omega
        · have hsep : ¬ isSep c = true := fun h => (isSep_iff.mp h).elim hdot hcomma
          rw [List.filter_cons_of_neg hsep, List.count_cons_of_ne hdot,
            List.count_cons_of_ne hcomma, ih]

/-- **A reading with a decimal separator needs no more than one.** -/
theorem plainReading_ne_nil :
    (plainReading u core : List K) ≠ [] ↔ (core.filter isSep).length ≤ 1 := by
  have hcount := length_filter_isSep core
  unfold plainReading
  split
  · exact iff_of_true (List.cons_ne_nil _ _) (by omega)
  · split
    · exact iff_of_true (List.cons_ne_nil _ _) (by omega)
    · refine iff_of_false (fun h => h rfl) ?_
      omega

/-- **A number is read exactly if it can be.** -/
theorem interpretations_ne_nil (hlast : ∀ c ∈ core.getLast?, isSep c = false) {rupiah : Bool} :
    (interpretations u core rupiah : List K) ≠ [] ↔ Readable u core := by
  have hcore : stripSeps (core ++ []) = core :=
    stripSeps_append hlast fun c hc => absurd hc List.not_mem_nil
  rw [List.append_nil] at hcore
  unfold interpretations Readable
  dsimp only
  rw [hcore]
  split
  · rename_i hthousands
    exact iff_of_true (List.cons_ne_nil _ _) (Or.inl hthousands)
  · rename_i hthousands
    rw [plainReading_ne_nil]
    exact ⟨Or.inr, fun h => h.resolve_left hthousands⟩

/-! ## What is accepted -/

variable [LinearOrder K] [FloorRing K]

/-- A text of blanks. -/
def Blank (s : Text) : Prop := ∀ c ∈ s, Python.isSpace c

/-- **What the validator asks of a narration.** -/
theorem validateNarration_eq_ok {dump : Node K} : validateNarration u s dump = .ok () ↔
    ¬ Blank s ∧ s.length ≤ maxChars ∧
      (∀ ident ∈ hexIds u s, lowerText ident <:+: lowerText (joinBlank (stringsOf dump))) ∧
      ∀ options ∈ extractNumbers u s, knows (allowedNumbers u dump) options = true := by
  have hblank : (s.all fun c => decide (Python.isSpace c)) = true ↔ Blank s := by
    rw [List.all_eq_true]
    exact forall₂_congr fun c _ => decide_eq_true_iff
  unfold validateNarration
  by_cases hempty : Blank s
  · rw [if_pos (hblank.mpr hempty)]
    exact iff_of_false nofun fun h => h.1 hempty
  rw [if_neg (mt hblank.mp hempty)]
  by_cases hlong : maxChars < s.length
  · rw [if_pos hlong]
    exact iff_of_false nofun fun h => absurd h.2.1 (not_le.mpr hlong)
  rw [if_neg hlong]
  cases hident : (hexIds u s).find? fun ident =>
      decide (¬ lowerText ident <:+: lowerText (joinBlank (stringsOf dump))) with
  | some ident =>
      simp only [hident]
      refine iff_of_false nofun fun h => ?_
      have hmem := List.mem_of_find?_eq_some hident
      have hnot := List.find?_some hident
      exact of_decide_eq_true hnot (h.2.2.1 ident hmem)
  | none =>
      simp only [hident]
      have hknown : ∀ ident ∈ hexIds u s,
          lowerText ident <:+: lowerText (joinBlank (stringsOf dump)) := by
        intro ident hmem
        have hnot := List.find?_eq_none.mp hident ident hmem
        rwa [decide_eq_true_iff, not_not] at hnot
      cases hnumber : (extractNumbers u s).find? fun options =>
          !knows (allowedNumbers u dump) options with
      | some options =>
          dsimp only
          refine iff_of_false nofun fun h => ?_
          have hmem := List.mem_of_find?_eq_some hnumber
          have hnot := List.find?_some hnumber
          rw [h.2.2.2 options hmem] at hnot
          cases hnot
      | none =>
          dsimp only
          refine iff_of_true rfl ⟨hempty, not_lt.mp hlong, hknown, ?_⟩
          intro options hmem
          have hnot := List.find?_eq_none.mp hnumber options hmem
          simpa using hnot

/-- **The numbers of a narration are known** to a fact sheet: each that is
no part of an identifier has a reading within the tolerance of an allowed
number. -/
def KnownNumbers (u : Classes) (s : Text) (dump : Node K) : Prop :=
  ∀ pre core seps post, IsNumber u s pre core seps post → ¬ InsideId u core seps post →
    ∃ x ∈ interpretations u core false, ∃ a ∈ allowedNumbers u dump, |x - a| ≤ tol

/-- **An accepted number is known**, if it can be read and no identifier
cuts it. -/
theorem exists_known {dump : Node K} (hok : validateNarration u s dump = .ok ())
    (h : IsNumber u s pre core seps post) (hfree : hexIds u (withRest u core seps post) = [])
    (hread : Readable u core) :
    ∃ x ∈ interpretations u core false, ∃ a ∈ allowedNumbers u dump, |x - a| ≤ tol := by
  obtain ⟨pre₁, post₁, h₁⟩ := h.dropHexIds hfree
  obtain ⟨pre₂, post₂, h₂⟩ := h₁.splitRp
  have hoptions : (interpretations u core (afterRp pre₂) : List K) ∈ extractNumbers u s := by
    refine List.mem_filter.mpr ⟨List.mem_map.mpr ⟨_, h₂.mem_numberTokens, ?_⟩, ?_⟩
    · exact interpretations_append h.last h.seps _
    · rw [Bool.not_eq_true', List.isEmpty_eq_false_iff]
      exact (interpretations_ne_nil h.last).mpr hread
  have hknows := (validateNarration_eq_ok.mp hok).2.2.2 _ hoptions
  obtain ⟨x, hx, hany⟩ := List.any_eq_true.mp hknows
  obtain ⟨a, ha, hclose⟩ := List.any_eq_true.mp hany
  exact ⟨x, mem_interpretations hx, a, ha, of_decide_eq_true hclose⟩

/-! ## A fact sheet that says the same -/

/-- A fact sheet about `s`. -/
def echoSheet (s : Text) : OpenFactSheet K where
  subjectType := text "USER"
  subjectRef := s
  memberCount := 1
  arm := .engine
  topPick := []
  runnerUp := none
  risk := []
  circle := none
  impact := none
  externalSignal := none
  policy := []
  allocation := []
  reasonFactors := []
  syntheticData := true

omit [LinearOrder K] [FloorRing K] in
theorem stringsOf_echoSheet :
    stringsOf (echoSheet (K := K) s).modelDump = [text "USER", s, text "ENGINE"] := rfl

omit [FloorRing K] in
theorem subset_numbersOf_echoSheet {options : List K} (h : options ∈ extractNumbers u s) {x : K}
    (hx : x ∈ options) : x ∈ numbersOf u (echoSheet (K := K) s).modelDump := by
  have hmem : x ∈ numbersOf u (Node.str (K := K) s) := List.mem_flatten.mpr ⟨options, h, hx⟩
  unfold OpenFactSheet.modelDump echoSheet
  exact List.mem_append_right _ (List.mem_append_left _ hmem)

omit [FloorRing K] in
theorem tol_nonneg [IsStrictOrderedRing K] : (0 : K) ≤ tol := by
  unfold tol
  positivity

/-- **What a text says, a fact sheet about it allows.** -/
theorem validateNarration_echoSheet [IsStrictOrderedRing K] (hblank : ¬ Blank s)
    (hlength : s.length ≤ maxChars) :
    validateNarration u s (echoSheet (K := K) s).modelDump = .ok () := by
  refine validateNarration_eq_ok.mpr ⟨hblank, hlength, ?_, ?_⟩
  · intro ident hident
    have hin : ident <:+: s := by
      have hrun := Munch.infix_of_mem_runs (List.mem_of_mem_filter hident)
      rwa [List.nil_append] at hrun
    have hjoin : s <:+: joinBlank [text "USER", s, text "ENGINE"] :=
      ⟨text "USER" ++ [point ' '], point ' ' :: text "ENGINE", by simp [joinBlank]⟩
    rw [stringsOf_echoSheet]
    exact (hin.trans hjoin).map _
  · intro options hoptions
    have hne : options ≠ [] := by
      have hkept := (List.mem_filter.mp hoptions).2
      rwa [Bool.not_eq_true', List.isEmpty_eq_false_iff] at hkept
    obtain ⟨x, hx⟩ := List.exists_mem_of_ne_nil options hne
    refine List.any_eq_true.mpr ⟨x, hx, List.any_eq_true.mpr ⟨x, ?_, decide_eq_true ?_⟩⟩
    · exact List.mem_append_left _ (subset_numbersOf_echoSheet hoptions hx)
    · rw [sub_self, abs_zero]
      exact tol_nonneg

/-! ## Unknown numbers -/

/-- The ASCII characters. -/
def asciiClasses : Classes where
  isPrintable _ := false
  decimalDigit _ := none
  not_isPrintable _ _ := rfl
  isAlnum _ := false

/-- A number, character by character. -/
theorem isNumber_of_all (hsplit : s = pre ++ (core ++ (seps ++ post)))
    (hchars : core.all (isNumberChar u) = true) (hfirst : core.head?.any u.isDigit = true)
    (hlast : core.getLast?.all (fun c => !isSep c) = true) (hseps : seps.all isSep = true)
    (hleft : pre.getLast?.all (fun c => !u.isWord c && !isSep c) = true)
    (hright : post.head?.all (fun c => !isNumberChar u c) = true) :
    IsNumber u s pre core seps post where
  split := hsplit
  chars := List.all_eq_true.mp hchars
  first := by
    cases core with
    | nil => cases hfirst
    | cons c l => exact ⟨c, l, rfl, hfirst⟩
  last c hc := by simpa using (Option.all_eq_true _ _).mp hlast c hc
  seps := List.all_eq_true.mp hseps
  left c hc := by simpa using (Option.all_eq_true _ _).mp hleft c hc
  right c hc := by simpa using (Option.all_eq_true _ _).mp hright c hc

end Explain

end RetentionEngine
