import RetentionEngine.Python.Digits
import RetentionEngine.Python.JsonOrder
import RetentionEngine.Python.JsonText

/-!
# A JSON value is read back

`json.loads` of what `json.dumps(…, sort_keys=True)` wrote: the value, with
the keys of its objects sorted, as long as the reader has room for its
containers.
-/

namespace RetentionEngine

namespace Python

namespace Json

/-! ## Proper values -/

/-- A float is shown as a number that is not an integer, and is read from that
text. -/
def IsFloat (py : Interpreter) (shown : String) : Prop :=
  ∃ sign whole fraction exponent, IsNumber sign whole fraction exponent ∧
    ¬ (fraction = [] ∧ exponent = []) ∧ text shown = sign ++ (whole ++ (fraction ++ exponent)) ∧
      py.reprFloat (text shown) = shown

/-- What a JSON value is made of: finite floats, texts without a pair spelt as
two characters, and objects with distinct keys. -/
def IsPart (py : Interpreter) : Json → Prop
  | float shown => IsFloat py shown
  | str s => Unpaired s
  | dict entries => (entries.map Prod.fst).Nodup ∧ ∀ e ∈ entries, Unpaired e.1
  | _ => True

/-- What holds of every part holds of the whole. -/
theorem Every.here {p : Json → Prop} {v : Json} (h : Every p v) : p v := by
  cases v with
  | list elements => exact h.1
  | dict entries => exact h.1
  | null | bool _ | int _ | float _ | str _ => exact h

/-! ## Blanks -/

variable {py : Interpreter} {s t l : Text} {c : CodePoint} {v : Json} {depth fuel : ℕ}

/-- What a value starts with is no blank and closes no list. -/
def Starts (s : Text) : Prop := ∃ c l, s = c :: l ∧ isBlank c = false ∧ c ≠ point ']'

theorem Starts.append (h : Starts s) (t : Text) : Starts (s ++ t) := by
  obtain ⟨c, l, rfl, hc⟩ := h
  exact ⟨c, l ++ t, rfl, hc⟩

theorem skip_cons (h : isBlank c = false) : skip (c :: l) = c :: l :=
  List.dropWhile_cons_of_neg (Bool.eq_false_iff.mp h)

theorem skip_blank (l : Text) : skip (point ' ' :: l) = skip l :=
  List.dropWhile_cons_of_pos (by decide)

theorem Starts.skip (h : Starts s) : Json.skip s = s := by
  obtain ⟨c, l, rfl, hc, -⟩ := h
  exact skip_cons hc

theorem starts_quoted (s : Text) : Starts (quoted s) := ⟨_, _, rfl, by decide, by decide⟩

theorem starts_digits {d : CodePoint} (h : isDigit d = true) (l : Text) : Starts (d :: l) := by
  refine ⟨d, l, rfl, ?_, ?_⟩
  · by_contra hblank
    unfold isBlank at hblank
    simp only [Bool.not_eq_false, Bool.or_eq_true, decide_eq_true_iff] at hblank
    rcases hblank with ((rfl | rfl) | rfl) | rfl <;> exact absurd h (by decide)
  · rintro rfl
    exact absurd h (by decide)

theorem starts_number {sign whole : Text} (hsign : sign = [] ∨ sign = [point '-'])
    (h : IsWhole whole) (t : Text) : Starts (sign ++ (whole ++ t)) := by
  obtain ⟨d, l, rfl, hd⟩ := h.head
  rcases hsign with rfl | rfl
  · exact starts_digits hd _
  · exact ⟨_, _, rfl, by decide, by decide⟩

/-! ## Numbers -/

/-- The digits of a number are an integer part. -/
theorem isWhole_toDigits (n : ℕ) : IsWhole ((Nat.toDigits 10 n).map point) := by
  have hdigits : ∀ d ∈ (Nat.toDigits 10 n).map point, isDigit d = true := by
    intro d hd
    obtain ⟨ch, hch, rfl⟩ := List.mem_map.mp hd
    obtain ⟨hlow, hhigh⟩ := val_point_of_isDigit (isDigit_of_mem_toDigits ch hch)
    unfold isDigit
    rw [decide_eq_true hlow, decide_eq_true hhigh]
    rfl
  rcases Nat.eq_zero_or_pos n with rfl | hpos
  · exact Or.inl rfl
  · refine Or.inr ?_
    have hhead := head?_toDigits hpos
    cases hds : Nat.toDigits 10 n with
    | nil => exact absurd hds Nat.toDigits_ne_nil
    | cons ch l =>
        rw [hds] at hdigits hhead
        refine ⟨point ch, l.map point, rfl, ?_, hdigits⟩
        intro hzero
        have hone : '1' ≤ ch := hhead ch rfl
        have hval : (point ch).val = (point '0').val := congrArg (fun c : CodePoint => c.val) hzero
        have hle : (point '1').val ≤ (point ch).val := hone
        rw [hval] at hle
        exact absurd hle (by decide)

theorem foldl_digitsValue {ds : List Char} (h : ∀ d ∈ ds, d.isDigit = true) (n : ℕ) :
    (ds.map point).foldl (fun n c => 10 * n + (c.val - 48)) n = Nat.ofDigitChars 10 ds n := by
  induction ds generalizing n with
  | nil => rfl
  | cons d ds ih =>
      rw [List.map_cons, List.foldl_cons, Nat.ofDigitChars_cons]
      exact ih (fun e he => h e (List.mem_cons_of_mem _ he)) _

/-- **The digits of a number have its value.** -/
theorem digitsValue_toDigits (n : ℕ) : digitsValue ((Nat.toDigits 10 n).map point) = n :=
  (foldl_digitsValue isDigit_of_mem_toDigits 0).trans Nat.ofDigitChars_ten_toDigits

theorem sign_cases (n : ℤ) : (if n < 0 then [point '-'] else []) = [] ∨
    (if n < 0 then [point '-'] else []) = [point '-'] := by
  split
  · exact Or.inr rfl
  · exact Or.inl rfl

/-- A float is written as it is shown. -/
theorem writtenFloat_of_isFloat {shown : String} (h : IsFloat py shown) :
    writtenFloat shown = text shown := by
  obtain ⟨sign, whole, fraction, exponent, hnumber, -, htext, -⟩ := h
  obtain ⟨d, l, rfl, hd⟩ := hnumber.whole.head
  unfold writtenFloat
  have hnot : ∀ (s : String) (a b : CodePoint) (l : Text), text s = a :: b :: l →
      isDigit a = false → isDigit b = false → shown ≠ s := by
    rintro s a b l hs ha hb rfl
    rw [hs] at htext
    rcases hnumber.sign with rfl | rfl
    · obtain rfl : a = d := (List.cons.inj htext).1
      rw [ha] at hd
      cases hd
    · obtain rfl : b = d := (List.cons.inj (List.cons.inj htext).2).1
      rw [hb] at hd
      cases hd
  rw [if_neg (hnot "nan" _ _ _ rfl rfl rfl), if_neg (hnot "inf" _ _ _ rfl rfl rfl),
    if_neg (hnot "-inf" _ _ _ rfl rfl rfl)]

/-! ## One value -/

/-- What stands inside the quotes is no shorter than the text. -/
theorem length_le_escape (s : Text) : s.length ≤ (s.flatMap escape).length := by
  induction s with
  | nil => exact Nat.zero_le _
  | cons c s ih =>
      have hone : 1 ≤ (escape c).length := by
        unfold escape
        split
        · exact Nat.le_add_left 1 1
        · split
          · exact le_rfl
          · split
            · exact Nat.le_add_left 1 _
            · rw [List.length_append]
              exact Nat.le_add_right_of_le (Nat.le_add_left 1 _)
      rw [List.flatMap_cons, List.length_append, List.length_cons]
      omega

/-- **A quoted text is read to its end.** -/
theorem scanString_quoted_length (hs : Unpaired s) :
    scanString (s.flatMap escape ++ point '"' :: t).length (s.flatMap escape ++ point '"' :: t) =
      some (s, t) := by
  have hfuel : s.length < (s.flatMap escape ++ point '"' :: t).length := by
    have hlength := length_le_escape s
    rw [List.length_append, List.length_cons]
    omega
  rw [scanString_quoted hfuel, joined_eq_self_iff.mpr hs]

/-! ## Several values -/

section Several

variable {α β : Type} {step : Text → Except LoadsError (β × Bool × Text)} {w : α → Text}
  {val : α → β} {close : CodePoint} {as : List α}

/-- A step reads what is written of `a`, and the delimiter after it. -/
structure StepReads (step : Text → Except LoadsError (β × Bool × Text)) (w : α → Text)
    (val : α → β) (close : CodePoint) (a : α) : Prop where
  more : ∀ t, step (w a ++ point ',' :: t) = .ok (val a, true, t)
  last : ∀ t, step (w a ++ close :: t) = .ok (val a, false, t)
  starts : Starts (w a)

theorem several_blank (hblank : ∀ t, step (point ' ' :: t) = step t) (fuel : ℕ) (t : Text) :
    several step fuel (point ' ' :: t) = several step fuel t := by
  cases fuel with
  | zero => rfl
  | succ fuel =>
      unfold several
      rw [hblank]

/-- **What is joined is read back**, one after the other. -/
theorem several_join (hblank : ∀ t, step (point ' ' :: t) = step t) (hne : as ≠ [])
    (h : ∀ a ∈ as, StepReads step w val close a) (hfuel : as.length ≤ fuel) :
    several step fuel (join (as.map w) ++ close :: t) = .ok (as.map val, t) := by
  induction as generalizing fuel with
  | nil => exact absurd rfl hne
  | cons a as ih =>
      obtain ⟨n, rfl⟩ : ∃ n, fuel = n + 1 := ⟨fuel - 1, by
        rw [List.length_cons] at hfuel
        omega⟩
      have ha := h a List.mem_cons_self
      unfold several
      cases as with
      | nil =>
          show (step (w a ++ close :: t) >>= _) = _
          rw [ha.last]
          rfl
      | cons b as =>
          have hjoin : join ((a :: b :: as).map w) ++ close :: t =
              w a ++ point ',' :: point ' ' :: (join ((b :: as).map w) ++ close :: t) := by
            show w a ++ text ", " ++ join ((b :: as).map w) ++ close :: t = _
            simp [text]
          have hrest := ih (List.cons_ne_nil b as) (fun c hc => h c (List.mem_cons_of_mem _ hc))
            (Nat.le_of_succ_le_succ hfuel)
          rw [hjoin, ha.more]
          simp only [bind, Except.bind, if_true, several_blank hblank, hrest]
          rfl

theorem starts_join (hne : as ≠ []) (h : ∀ a ∈ as, Starts (w a)) : Starts (join (as.map w)) := by
  cases as with
  | nil => exact absurd rfl hne
  | cons a as =>
      have ha := h a List.mem_cons_self
      cases as with
      | nil => exact ha
      | cons b as => exact (ha.append (text ", ")).append _

theorem length_le_join (h : ∀ a ∈ as, Starts (w a)) : as.length ≤ (join (as.map w)).length := by
  induction as with
  | nil => exact le_rfl
  | cons a as ih =>
      have hrest := ih fun b hb => h b (List.mem_cons_of_mem _ hb)
      have hone : 1 ≤ (w a).length := by
        obtain ⟨c, l, hw, -⟩ := h a List.mem_cons_self
        rw [hw, List.length_cons]
        omega
      cases as with
      | nil => exact hone
      | cons b as =>
          show _ ≤ (w a ++ text ", " ++ join ((b :: as).map w)).length
          rw [List.length_append, List.length_append, List.length_cons]
          omega

end Several

/-! ## Containers -/

variable {inner : Text → Except LoadsError (Json × Text)} {elements : List Json}
  {entries : List (Text × Json)}

/-- **A value is read to its end**, wherever it stands. -/
def Reads (inner : Text → Except LoadsError (Json × Text)) (v : Json) : Prop :=
  ∀ t, Ends t → inner (written v ++ t) = .ok (sorted v, t)

theorem readDelimiter_more (close : CodePoint) (t : Text) :
    readDelimiter close (point ',' :: t) = .ok (true, t) := by
  unfold readDelimiter
  rw [skip_cons (by decide)]
  exact if_pos rfl

theorem readDelimiter_last {close : CodePoint} (hblank : isBlank close = false)
    (hcomma : close ≠ point ',') (t : Text) :
    readDelimiter close (close :: t) = .ok (false, t) := by
  unfold readDelimiter
  rw [skip_cons hblank]
  exact (if_neg hcomma).trans (if_pos rfl)

theorem ends_cons (h : c = point ',' ∨ c = point ']' ∨ c = point '\x7d') (t : Text) :
    Ends (c :: t) := fun _ hd => Option.some.inj hd ▸ h

theorem stepReads_element (hv : Reads inner v) (hstarts : Starts (written v)) :
    StepReads (readElement inner) written sorted (point ']') v := by
  refine ⟨fun t => ?_, fun t => ?_, hstarts⟩
  · unfold readElement
    rw [(hstarts.append _).skip, hv _ (ends_cons (Or.inl rfl) t)]
    simp only [bind, Except.bind, readDelimiter_more]
    rfl
  · unfold readElement
    rw [(hstarts.append _).skip, hv _ (ends_cons (Or.inr (Or.inl rfl)) t)]
    simp only [bind, Except.bind, readDelimiter_last (by decide : isBlank (point ']') = false)
      (by decide)]
    rfl

/-- **A list is read back.** -/
theorem readElements_written (h : ∀ v ∈ elements, Reads inner v ∧ Starts (written v)) :
    readElements inner (join (elements.map written) ++ point ']' :: t) =
      .ok (list (elements.map sorted), t) := by
  by_cases hne : elements = []
  · rw [hne]
    rfl
  · have hstarts := starts_join hne fun v hv => (h v hv).2
    have hblank : ∀ t, readElement inner (point ' ' :: t) = readElement inner t := by
      intro t
      unfold readElement
      rw [skip_blank]
    have hfuel : elements.length ≤ (join (elements.map written) ++ point ']' :: t).length := by
      rw [List.length_append]
      exact Nat.le_add_right_of_le (length_le_join fun v hv => (h v hv).2)
    have hseveral : several (readElement inner) _ (join (elements.map written) ++ point ']' :: t) =
        .ok (elements.map sorted, t) :=
      several_join hblank hne (fun v hv => stepReads_element (h v hv).1 (h v hv).2) hfuel
    unfold readElements
    rw [(hstarts.append _).skip]
    obtain ⟨c, l, hjoin, -, hc⟩ := hstarts
    rw [hjoin] at hseveral ⊢
    rw [List.cons_append] at hseveral ⊢
    dsimp only
    rw [if_neg hc, hseveral]
    rfl

theorem stepReads_entry {e : Text × Json} (hk : Unpaired e.1) (hv : Reads inner e.2)
    (hstarts : Starts (written e.2)) :
    StepReads (readEntry inner) (fun e => writtenEntry (e.1, written e.2))
      (fun e => (e.1, sorted e.2)) (point '\x7d') e := by
  have hentry : ∀ rest, Ends rest → readEntry inner (writtenEntry (e.1, written e.2) ++ rest) =
      readDelimiter (point '\x7d') rest >>= fun r => .ok ((e.1, sorted e.2), r.1, r.2) := by
    intro rest hrest
    have hsplit : writtenEntry (e.1, written e.2) ++ rest = point '"' ::
        (e.1.flatMap escape ++ point '"' :: point ':' :: point ' ' :: (written e.2 ++ rest)) := by
      unfold writtenEntry quoted
      simp [text]
    rw [hsplit]
    unfold readEntry
    rw [skip_cons (by decide)]
    dsimp only
    rw [if_pos rfl, scanString_quoted_length hk]
    dsimp only
    rw [skip_cons (by decide)]
    dsimp only
    rw [if_pos rfl, skip_blank, (hstarts.append _).skip, hv _ hrest]
    rfl
  refine ⟨fun t => ?_, fun t => ?_, (starts_quoted e.1).append _⟩
  · rw [hentry _ (ends_cons (Or.inl rfl) t), readDelimiter_more]
    rfl
  · rw [hentry _ (ends_cons (Or.inr (Or.inr rfl)) t),
      readDelimiter_last (by decide) (by decide)]
    rfl

/-- **An object is read back**, as it was written. -/
theorem readEntries_written (hnodup : (entries.map Prod.fst).Nodup)
    (h : ∀ e ∈ entries, Unpaired e.1 ∧ Reads inner e.2 ∧ Starts (written e.2)) :
    readEntries inner (join (entries.map fun e => writtenEntry (e.1, written e.2)) ++
      point '\x7d' :: t) = .ok (dict (entries.map fun e => (e.1, sorted e.2)), t) := by
  by_cases hne : entries = []
  · rw [hne]
    rfl
  · have hsteps := fun e he => stepReads_entry (h e he).1 (h e he).2.1 (h e he).2.2
    have hblank : ∀ t, readEntry inner (point ' ' :: t) = readEntry inner t := by
      intro t
      unfold readEntry
      rw [skip_blank]
    have hfuel : entries.length ≤ (join (entries.map fun e => writtenEntry (e.1, written e.2)) ++
        point '\x7d' :: t).length := by
      rw [List.length_append]
      exact Nat.le_add_right_of_le (length_le_join fun e he => (hsteps e he).starts)
    have hseveral : several (readEntry inner) _
        (join (entries.map fun e => writtenEntry (e.1, written e.2)) ++ point '\x7d' :: t) =
          .ok (entries.map fun e => (e.1, sorted e.2), t) :=
      several_join hblank hne hsteps hfuel
    have hpairs : ofPairs (entries.map fun e => (e.1, sorted e.2)) =
        entries.map fun e => (e.1, sorted e.2) := by
      unfold ofPairs
      rw [Dict.entries_ofList]
      · exact List.map_id _
      · rw [List.map_map]
        exact hnodup
    have hbrace : ∃ l, join (entries.map fun e => writtenEntry (e.1, written e.2)) =
        point '"' :: l := by
      cases entries with
      | nil => exact absurd rfl hne
      | cons e entries =>
          cases entries with
          | nil => exact ⟨_, rfl⟩
          | cons e' entries => exact ⟨_, rfl⟩
    obtain ⟨l, hjoin⟩ := hbrace
    unfold readEntries
    rw [hjoin] at hseveral ⊢
    rw [List.cons_append] at hseveral ⊢
    rw [skip_cons (by decide)]
    dsimp only
    rw [if_neg (by decide), hseveral]
    simp only [bind, Except.bind, hpairs]
    rfl

/-! ## Whole values -/

variable {o : Option (Text → Except LoadsError (Json × Text))} {sign whole fraction exponent : Text}

theorem scanOnce_of_head (hquote : c ≠ point '"') (hbrace : c ≠ point '\x7b')
    (hbracket : c ≠ point '[') : scanOnce py o (c :: l) = readConstant py (c :: l) := by
  unfold scanOnce
  dsimp only
  rw [if_neg hquote, if_neg hbrace, if_neg hbracket]

theorem scanOnce_quoted (hs : Unpaired s) : scanOnce py o (quoted s ++ t) = .ok (str s, t) := by
  have hsplit : quoted s ++ t = point '"' :: (s.flatMap escape ++ point '"' :: t) := by
    unfold quoted
    simp
  rw [hsplit]
  unfold scanOnce
  dsimp only
  rw [if_pos rfl, scanString_quoted_length hs]

theorem scanOnce_number (h : IsNumber sign whole fraction exponent) (ht : Ends t) :
    scanOnce py o (sign ++ (whole ++ (fraction ++ (exponent ++ t)))) =
      if fraction = [] ∧ exponent = [] then
        if maxStrDigits < whole.length then .error .valueError
        else .ok (int (if sign = [] then digitsValue whole else -(digitsValue whole : ℤ)), t)
      else .ok (float (py.reprFloat (sign ++ (whole ++ (fraction ++ exponent)))), t) := by
  rw [← readNumber_append h ht, ← readConstant_number h.sign h.whole]
  obtain ⟨d, l, rfl, hd⟩ := h.whole.head
  rcases h.sign with rfl | rfl
  · have hne : ∀ a : CodePoint, isDigit a = false → d ≠ a := by
      rintro a ha rfl
      rw [hd] at ha
      cases ha
    exact scanOnce_of_head (hne _ rfl) (hne _ rfl) (hne _ rfl)
  · exact scanOnce_of_head (by decide) (by decide) (by decide)

theorem scanOnce_int {n : ℤ} (hfit : DigitsFit (int n)) (ht : Ends t) :
    scanOnce py o (written (int n) ++ t) = .ok (int n, t) := by
  have hnumber : IsNumber (if n < 0 then [point '-'] else [])
      ((Nat.toDigits 10 n.natAbs).map point) [] [] :=
    ⟨sign_cases n, isWhole_toDigits n.natAbs, Or.inl rfl, Or.inl rfl⟩
  have hlength : ¬ maxStrDigits < ((Nat.toDigits 10 n.natAbs).map point).length := by
    rw [List.length_map]
    exact not_lt.mpr hfit
  have hread := @scanOnce_number py t o _ _ _ _ hnumber ht
  have hvalue : (if (if n < 0 then [point '-'] else []) = [] then (n.natAbs : ℤ)
      else -(n.natAbs : ℤ)) = n := by
    rcases lt_or_ge n 0 with hneg | hpos
    · rw [if_pos hneg, if_neg (List.cons_ne_nil _ _)]
      omega
    · rw [if_neg (not_lt.mpr hpos), if_pos rfl]
      omega
  have hplain : ([] : Text) = [] ∧ ([] : Text) = [] := ⟨rfl, rfl⟩
  rw [if_pos hplain, if_neg hlength, digitsValue_toDigits, hvalue] at hread
  unfold written
  rw [text_toString_int, List.append_assoc]
  exact hread

theorem scanOnce_float {shown : String} (h : IsFloat py shown) (ht : Ends t) :
    scanOnce py o (written (float shown) ++ t) = .ok (float shown, t) := by
  unfold written
  rw [writtenFloat_of_isFloat h]
  obtain ⟨sign, whole, fraction, exponent, hnumber, hfloat, htext, hshown⟩ := h
  have hread := @scanOnce_number py t o _ _ _ _ hnumber ht
  rw [if_neg hfloat, ← htext, hshown] at hread
  rw [← hread, htext]
  simp only [List.append_assoc]

/-- A value starts like one. -/
theorem starts_written (h : IsPart py v) : Starts (written v) := by
  cases v with
  | null => exact ⟨_, _, rfl, by decide, by decide⟩
  | bool b =>
      cases b with
      | false => exact ⟨_, _, rfl, by decide, by decide⟩
      | true => exact ⟨_, _, rfl, by decide, by decide⟩
  | int n =>
      unfold written
      rw [text_toString_int]
      have hstarts := starts_number (sign_cases n) (isWhole_toDigits n.natAbs) []
      rwa [List.append_nil] at hstarts
  | float shown =>
      unfold written
      rw [writtenFloat_of_isFloat h]
      obtain ⟨sign, whole, fraction, exponent, hnumber, -, htext, -⟩ := h
      rw [htext]
      exact starts_number hnumber.sign hnumber.whole _
  | str s => exact starts_quoted s
  | list elements => exact ⟨_, _, rfl, by decide, by decide⟩
  | dict entries => exact ⟨_, _, rfl, by decide, by decide⟩

theorem scanOnce_list {inner : Text → Except LoadsError (Json × Text)}
    (h : ∀ v ∈ elements, Reads inner v ∧ Starts (written v)) :
    scanOnce py (some inner) (written (list elements) ++ t) = .ok (sorted (list elements), t) := by
  have hsplit : written (list elements) ++ t =
      point '[' :: (join (elements.map written) ++ point ']' :: t) := by
    show point '[' :: (join (writtenElements elements) ++ [point ']']) ++ t = _
    rw [writtenElements_eq, List.cons_append, List.append_assoc]
    rfl
  have hread := readElements_written (t := t) h
  rw [hsplit, sorted_list]
  unfold scanOnce
  dsimp only
  rw [if_neg (by decide), if_neg (by decide), if_pos rfl, hread]

theorem scanOnce_dict {inner : Text → Except LoadsError (Json × Text)}
    (hnodup : (entries.map Prod.fst).Nodup)
    (h : ∀ e ∈ entries, Unpaired e.1 ∧ Reads inner e.2 ∧ Starts (written e.2)) :
    scanOnce py (some inner) (written (dict entries) ++ t) = .ok (sorted (dict entries), t) := by
  have hsplit : written (dict entries) ++ t = point '\x7b' ::
      (join ((sortKeys entries).map fun e => writtenEntry (e.1, written e.2)) ++
        point '\x7d' :: t) := by
    show point '\x7b' :: (join ((sortKeys (writtenEntries entries)).map writtenEntry) ++
      [point '\x7d']) ++ t = _
    rw [writtenEntries_eq, sortKeys_map, List.map_map, List.cons_append, List.append_assoc]
    rfl
  have hsorted : ((sortKeys entries).map Prod.fst).Nodup :=
    ((perm_sortKeys entries).map Prod.fst).nodup_iff.mpr hnodup
  have hread : readEntries inner (join ((sortKeys entries).map
      fun e => writtenEntry (e.1, written e.2)) ++ point '\x7d' :: t) = _ :=
    readEntries_written hsorted fun e he => h e (mem_sortKeys.mp he)
  rw [hsplit, sorted_dict]
  unfold scanOnce
  dsimp only
  rw [if_neg (by decide), if_pos rfl, hread]

/-- **A value is read back**, if there is room for its containers. -/
theorem reads_written (hpart : Every (IsPart py) v) (hfit : Every DigitsFit v)
    (hdepth : nesting v ≤ depth) : Reads (readValue py depth) v := by
  induction v using induct generalizing depth with
  | null =>
      intro t _
      cases depth <;> rfl
  | bool b =>
      intro t _
      cases depth <;> cases b <;> rfl
  | int n =>
      intro t ht
      cases depth with
      | zero => exact scanOnce_int hfit ht
      | succ depth => exact scanOnce_int hfit ht
  | float shown =>
      intro t ht
      cases depth with
      | zero => exact scanOnce_float hpart ht
      | succ depth => exact scanOnce_float hpart ht
  | str s =>
      intro t _
      cases depth with
      | zero => exact scanOnce_quoted hpart
      | succ depth => exact scanOnce_quoted hpart
  | list elements ih =>
      obtain ⟨-, hparts⟩ := every_list.mp hpart
      obtain ⟨-, hfits⟩ := every_list.mp hfit
      obtain ⟨depth, rfl⟩ := Nat.exists_eq_succ_of_ne_zero (Nat.ne_zero_of_lt hdepth)
      have hdepths := nestingElements_le.mp (Nat.le_of_succ_le_succ hdepth)
      intro t _
      refine scanOnce_list fun v hv => ⟨ih v hv (hparts v hv) (hfits v hv) (hdepths v hv), ?_⟩
      exact starts_written (hparts v hv).here
  | dict entries ih =>
      obtain ⟨⟨hnodup, hkeys⟩, hparts⟩ := every_dict.mp hpart
      obtain ⟨-, hfits⟩ := every_dict.mp hfit
      obtain ⟨depth, rfl⟩ := Nat.exists_eq_succ_of_ne_zero (Nat.ne_zero_of_lt hdepth)
      have hdepths := nestingEntries_le.mp (Nat.le_of_succ_le_succ hdepth)
      intro t _
      refine scanOnce_dict hnodup fun e he => ⟨hkeys e he, ?_, ?_⟩
      · exact ih e he (hparts e he) (hfits e he) (hdepths e he)
      · exact starts_written (hparts e he).here

end Json

end Python

end RetentionEngine
