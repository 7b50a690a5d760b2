import RetentionEngine.Python.JsonRoundTrip

/-!
# `json.loads` of what `json.dumps` wrote

The text is plain ASCII, so that its bytes are read as its characters. The
value comes back, up to the order of keys, exactly if the reader has room
for its containers.
-/

namespace RetentionEngine

namespace Python

namespace Json

/-! ## What is written is plain -/

/-- **Plain text**: ASCII, and no zero byte in it. -/
def Plain (s : Text) : Prop := ∀ c ∈ s, 0 < c.val ∧ c.val < 128

instance : DecidablePred Plain := fun s =>
  List.decidableBAll (fun c : CodePoint => 0 < c.val ∧ c.val < 128) s

variable {py : Interpreter} {s t : Text} {c : CodePoint} {v : Json}

theorem plain_append : Plain (s ++ t) ↔ Plain s ∧ Plain t := by
  unfold Plain
  exact List.forall_mem_append

theorem plain_cons : Plain (c :: s) ↔ (0 < c.val ∧ c.val < 128) ∧ Plain s := by
  unfold Plain
  exact List.forall_mem_cons

theorem plain_nil : Plain [] := fun _ h => absurd h List.not_mem_nil

theorem Plain.isAscii (h : Plain s) : IsAscii s := fun c hc => (h c hc).2

theorem plain_hex (width n : ℕ) : Plain (hex width n) := by
  have hall : ∀ d : Fin 16, 0 < (hexDigit d.val).val ∧ (hexDigit d.val).val < 128 := by decide
  intro c hc
  obtain ⟨d, hd, rfl⟩ := mem_hex hc
  exact hall ⟨d, hd⟩

theorem plain_escapeUnit (c : CodePoint) : Plain (escapeUnit c) :=
  plain_cons.mpr ⟨by decide, plain_cons.mpr ⟨by decide, plain_hex 4 c.val⟩⟩

/-- A letter of a short escape is plain. -/
theorem plain_of_lookup_escapes {letter : CodePoint} (h : escapes.lookup c = some letter) :
    0 < letter.val ∧ letter.val < 128 := by
  have hall : escapes.all (fun e => decide (0 < e.2.val ∧ e.2.val < 128)) = true := by decide
  obtain ⟨l, l', hsplit, -⟩ := List.lookup_eq_some_iff.mp h
  have hmem : (c, letter) ∈ escapes := by
    rw [hsplit]
    exact List.mem_append_right _ List.mem_cons_self
  exact of_decide_eq_true (List.all_eq_true.mp hall _ hmem)

theorem plain_escape (c : CodePoint) : Plain (escape c) := by
  rcases escape_cases c with ⟨letter, hlookup, heq⟩ | ⟨-, -, hge, hle, heq⟩ | ⟨-, heq⟩ | ⟨-, heq⟩
  · rw [heq]
    exact plain_cons.mpr ⟨by decide, plain_cons.mpr ⟨plain_of_lookup_escapes hlookup, plain_nil⟩⟩
  · rw [heq]
    exact plain_cons.mpr ⟨by omega, plain_nil⟩
  · rw [heq]
    exact plain_escapeUnit c
  · rw [heq]
    exact plain_append.mpr ⟨plain_escapeUnit _, plain_escapeUnit _⟩

theorem plain_quoted (s : Text) : Plain (quoted s) := by
  unfold quoted
  refine plain_cons.mpr ⟨by decide, plain_append.mpr ⟨?_, by decide⟩⟩
  intro c hc
  obtain ⟨a, -, ha⟩ := List.mem_flatMap.mp hc
  exact plain_escape a c ha

theorem plain_join {l : List Text} (h : ∀ s ∈ l, Plain s) : Plain (join l) := by
  induction l with
  | nil => exact plain_nil
  | cons s l ih =>
      have hs := h s List.mem_cons_self
      cases l with
      | nil => exact hs
      | cons t l =>
          have hrest := ih fun r hr => h r (List.mem_cons_of_mem _ hr)
          exact plain_append.mpr ⟨plain_append.mpr ⟨hs, by decide⟩, hrest⟩

theorem plain_digits (h : ∀ d ∈ s, isDigit d = true) : Plain s := by
  intro d hd
  have hdigit := h d hd
  unfold isDigit at hdigit
  rw [Bool.and_eq_true, decide_eq_true_iff, decide_eq_true_iff] at hdigit
  omega

theorem IsWhole.plain (h : IsWhole s) : Plain s := by
  rcases h with rfl | ⟨c, l, rfl, -, hdigits⟩
  · decide
  · exact plain_digits hdigits

theorem IsFraction.plain (h : IsFraction s) : Plain s := by
  rcases h with rfl | ⟨l, rfl, -, hdigits⟩
  · exact plain_nil
  · exact plain_cons.mpr ⟨by decide, plain_digits hdigits⟩

theorem IsExponent.plain (h : IsExponent s) : Plain s := by
  rcases h with rfl | ⟨c, sign, l, rfl, hc, hsign, -, hdigits⟩
  · exact plain_nil
  · have hletter : 0 < c.val ∧ c.val < 128 := by
      rcases hc with rfl | rfl <;> decide
    have hsigns : Plain sign := by
      rcases hsign with rfl | rfl | rfl <;> decide
    exact plain_cons.mpr ⟨hletter, plain_append.mpr ⟨hsigns, plain_digits hdigits⟩⟩

theorem IsNumber.plain {sign whole fraction exponent : Text}
    (h : IsNumber sign whole fraction exponent) :
    Plain (sign ++ (whole ++ (fraction ++ exponent))) := by
  have hsign : Plain sign := by
    rcases h.sign with rfl | rfl <;> decide
  exact plain_append.mpr ⟨hsign, plain_append.mpr
    ⟨h.whole.plain, plain_append.mpr ⟨h.fraction.plain, h.exponent.plain⟩⟩⟩

/-- **What is written is plain.** -/
theorem plain_written (hpart : Every (IsPart py) v) : Plain (written v) := by
  induction v using induct with
  | null => decide
  | bool b => cases b <;> decide
  | int n =>
      have hdigits := (isWhole_toDigits n.natAbs).plain
      unfold written
      rw [text_toString_int]
      refine plain_append.mpr ⟨?_, hdigits⟩
      split <;> decide
  | float shown =>
      unfold written
      rw [writtenFloat_of_isFloat hpart]
      obtain ⟨sign, whole, fraction, exponent, hnumber, -, htext, -⟩ := hpart
      rw [htext]
      exact hnumber.plain
  | str s => exact plain_quoted s
  | list elements ih =>
      obtain ⟨-, hparts⟩ := every_list.mp hpart
      show Plain (point '[' :: (join (writtenElements elements) ++ [point ']']))
      refine plain_cons.mpr ⟨by decide, plain_append.mpr ⟨plain_join ?_, by decide⟩⟩
      rw [writtenElements_eq]
      exact List.forall_mem_map.mpr fun v hv => ih v hv (hparts v hv)
  | dict entries ih =>
      obtain ⟨-, hparts⟩ := every_dict.mp hpart
      show Plain (point '\x7b' :: (join ((sortKeys (writtenEntries entries)).map writtenEntry) ++
        [point '\x7d']))
      refine plain_cons.mpr ⟨by decide, plain_append.mpr ⟨plain_join ?_, by decide⟩⟩
      rw [writtenEntries_eq, sortKeys_map, List.map_map]
      refine List.forall_mem_map.mpr fun e he => plain_append.mpr ⟨plain_quoted e.1, ?_⟩
      have hmem := mem_sortKeys.mp he
      exact plain_append.mpr ⟨by decide, ih e hmem (hparts e hmem)⟩

/-! ## How deep a value is that was read -/

theorem of_bind_ok {ε α β : Type} {x : Except ε α} {f : α → Except ε β} {b : β}
    (h : x >>= f = .ok b) : ∃ a, x = .ok a ∧ f a = .ok b := by
  cases x with
  | error e => cases h
  | ok a => exact ⟨a, rfl, h⟩

/-- What `several` collects has been read by a step. -/
theorem mem_several {α : Type} {step : Text → Except LoadsError (α × Bool × Text)} {fuel : ℕ}
    {l : List α} {a : α} (h : several step fuel s = .ok (l, t)) (ha : a ∈ l) :
    ∃ s' r, step s' = .ok (a, r) := by
  induction fuel generalizing s l with
  | zero => cases h
  | succ fuel ih =>
      unfold several at h
      obtain ⟨⟨b, more, s'⟩, hstep, h⟩ := of_bind_ok h
      dsimp only at h
      split at h
      · obtain ⟨⟨l', t'⟩, hrest, h⟩ := of_bind_ok h
        cases h
        rcases List.mem_cons.mp ha with rfl | ha
        · exact ⟨s, _, hstep⟩
        · exact ih hrest ha
      · cases h
        obtain rfl := List.mem_singleton.mp ha
        exact ⟨s, _, hstep⟩

variable {inner : Text → Except LoadsError (Json × Text)} {d depth : ℕ}

/-- What `inner` reads is nested `d` deep at most. -/
def Bounded (d : ℕ) (inner : Text → Except LoadsError (Json × Text)) : Prop :=
  ∀ s v t, inner s = .ok (v, t) → nesting v ≤ d

theorem Bounded.readElements (hinner : Bounded d inner) : Bounded (d + 1) (readElements inner) := by
  intro s v t h
  unfold Json.readElements at h
  split at h
  · cases h
  · split at h
    · cases h
      exact Nat.succ_le_succ (Nat.zero_le d)
    · obtain ⟨⟨elements, t'⟩, hseveral, h⟩ := of_bind_ok h
      cases h
      refine Nat.succ_le_succ (nestingElements_le.mpr fun v hv => ?_)
      obtain ⟨s', r, hstep⟩ := mem_several hseveral hv
      unfold readElement at hstep
      obtain ⟨⟨v', t''⟩, hread, hstep⟩ := of_bind_ok hstep
      obtain ⟨⟨more, t₂⟩, -, hstep⟩ := of_bind_ok hstep
      cases hstep
      exact hinner _ _ _ hread

/-- An object has the values of its pairs. -/
theorem exists_of_mem_ofPairs {l : List (Text × Json)} {e : Text × Json} (he : e ∈ ofPairs l) :
    ∃ e' ∈ l, e'.2 = e.2 := by
  obtain ⟨e', he', -, hvalue⟩ := Dict.exists_of_get?_ofList (Dict.get?_eq_some.mpr he)
  exact ⟨e', he', hvalue⟩

theorem nesting_of_readEntry (hinner : Bounded d inner) {e : Text × Json} {r : Bool × Text}
    (h : readEntry inner s = .ok (e, r)) : nesting e.2 ≤ d := by
  unfold readEntry at h
  split at h
  · cases h
  · split at h
    · split at h
      · cases h
      · split at h
        · cases h
        · split at h
          · obtain ⟨⟨v', t'⟩, hread, h⟩ := of_bind_ok h
            obtain ⟨⟨more, t₂⟩, -, h⟩ := of_bind_ok h
            cases h
            exact hinner _ _ _ hread
          · cases h
    · cases h

theorem Bounded.readEntries (hinner : Bounded d inner) : Bounded (d + 1) (readEntries inner) := by
  intro s v t h
  unfold Json.readEntries at h
  split at h
  · cases h
  · split at h
    · cases h
      exact Nat.succ_le_succ (Nat.zero_le d)
    · obtain ⟨⟨pairs, t'⟩, hseveral, h⟩ := of_bind_ok h
      cases h
      refine Nat.succ_le_succ (nestingEntries_le.mpr fun e he => ?_)
      obtain ⟨e', he', hvalue⟩ := exists_of_mem_ofPairs he
      obtain ⟨s', r, hstep⟩ := mem_several hseveral he'
      rw [← hvalue]
      exact nesting_of_readEntry hinner hstep

theorem bounded_readConstant : Bounded 0 (readConstant py) := by
  intro s v t h
  unfold readConstant at h
  split at h
  · rename_i e hfind
    cases h
    have hall : ∀ e ∈ constants, nesting e.2 = 0 := by
      unfold constants
      simp [nesting]
    exact (hall e (List.mem_of_find?_eq_some hfind)).le
  · unfold readNumber at h
    dsimp only at h
    split at h
    · cases h
    · split at h
      · split at h
        · cases h
        · cases h
          exact le_rfl
      · cases h
        exact le_rfl

theorem bounded_scanOnce {o : Option (Text → Except LoadsError (Json × Text))}
    (hinner : ∀ inner ∈ o, ∃ d, depth = d + 1 ∧ Bounded d inner) :
    Bounded depth (scanOnce py o) := by
  intro s v t h
  unfold scanOnce at h
  split at h
  · cases h
  · split at h
    · split at h
      · cases h
      · cases h
        exact Nat.zero_le _
    · split at h
      · split at h
        · cases h
        · obtain ⟨d, rfl, hd⟩ := hinner _ rfl
          exact hd.readEntries _ _ _ h
      · split at h
        · split at h
          · cases h
          · obtain ⟨d, rfl, hd⟩ := hinner _ rfl
            exact hd.readElements _ _ _ h
        · exact (bounded_readConstant _ _ _ h).trans (Nat.zero_le _)

/-- **What is read is no deeper than there is room.** -/
theorem bounded_readValue (depth : ℕ) : Bounded depth (readValue py depth) := by
  induction depth with
  | zero => exact bounded_scanOnce fun inner h => absurd h (Option.not_mem_none inner)
  | succ depth ih =>
      refine bounded_scanOnce fun inner h => ⟨depth, rfl, ?_⟩
      obtain rfl := Option.some.inj h
      exact ih

/-! ## The round trip -/

theorem loads_asciiBytes (h : Plain s) : loads py (asciiBytes s) = decode py s := by
  have hall : ((asciiBytes s).all fun b => 0 < b && b < 128) = true := by
    unfold asciiBytes
    rw [List.all_map, List.all_eq_true]
    intro c hc
    obtain ⟨hpos, hlt⟩ := h c hc
    have hval : (UInt8.ofNat c.val).toNat = c.val := by
      rw [UInt8.toNat_ofNat']
      omega
    rw [Function.comp_apply, Bool.and_eq_true, decide_eq_true_iff, decide_eq_true_iff,
      UInt8.lt_iff_toNat_lt, UInt8.lt_iff_toNat_lt, hval]
    exact ⟨hpos, hlt⟩
  unfold loads decodeBytes
  rw [if_pos hall, decodeAscii_asciiBytes h.isAscii]

/-- **What was written is read**, if there is room. -/
theorem loads_written (hpart : Every (IsPart py) v) (hfit : Every DigitsFit v)
    (hdepth : nesting v ≤ py.decodeDepth) :
    loads py (asciiBytes (written v)) = .ok (sorted v) := by
  have hread := reads_written hpart hfit hdepth [] fun _ h => absurd h (Option.not_mem_none _)
  rw [loads_asciiBytes (plain_written hpart)]
  unfold decode
  rw [(starts_written hpart.here).skip, ← List.append_nil (written v), hread]
  rfl

/-- **Nothing is read that is too deep.** -/
theorem nesting_of_loads {w : Json} (hpart : Every (IsPart py) v)
    (h : loads py (asciiBytes (written v)) = .ok w) : nesting w ≤ py.decodeDepth := by
  rw [loads_asciiBytes (plain_written hpart)] at h
  unfold decode at h
  obtain ⟨⟨v', t⟩, hread, h⟩ := of_bind_ok h
  dsimp only at h
  split at h
  · cases h
    exact bounded_readValue _ _ _ _ hread
  · cases h

end Json

end Python

end RetentionEngine
