import RetentionEngine.Python.Text

/-!
# Texts and bytes

`str.encode` and `bytes.decode` for ASCII and UTF-8, as far as the service
asks for them, and the hexadecimal text of a digest.
-/

namespace RetentionEngine

namespace Python

/-- **ASCII only.** -/
def IsAscii (s : Text) : Prop := ∀ c ∈ s, c.val < 128

instance : DecidablePred IsAscii := fun s => List.decidableBAll (fun c : CodePoint => c.val < 128) s

/-- The bytes of ASCII characters. -/
def asciiBytes (s : Text) : List UInt8 := s.map fun c => UInt8.ofNat c.val

/-- `s.encode("ascii")`; `none` is a `UnicodeEncodeError`. -/
def encodeAscii (s : Text) : Option (List UInt8) := if IsAscii s then some (asciiBytes s) else none

/-- The bytes of a character in UTF-8. -/
def utf8 (c : CodePoint) : List UInt8 :=
  if c.val < 0x80 then [UInt8.ofNat c.val]
  else if c.val < 0x800 then
    [UInt8.ofNat (0xC0 + c.val / 0x40), UInt8.ofNat (0x80 + c.val % 0x40)]
  else if c.val < 0x10000 then
    [UInt8.ofNat (0xE0 + c.val / 0x1000), UInt8.ofNat (0x80 + c.val / 0x40 % 0x40),
      UInt8.ofNat (0x80 + c.val % 0x40)]
  else
    [UInt8.ofNat (0xF0 + c.val / 0x40000), UInt8.ofNat (0x80 + c.val / 0x1000 % 0x40),
      UInt8.ofNat (0x80 + c.val / 0x40 % 0x40), UInt8.ofNat (0x80 + c.val % 0x40)]

/-- `s.encode("utf-8")`; `none` is a `UnicodeEncodeError`. -/
def encodeUtf8 (s : Text) : Option (List UInt8) :=
  if Encodable s then some (s.flatMap utf8) else none

/-- The character of a byte. -/
def ofByte (b : UInt8) : CodePoint := ⟨b.toNat, b.toNat_lt.trans (by decide)⟩

/-- `b.decode("ascii")` of ASCII bytes. -/
def decodeAscii (l : List UInt8) : Text := l.map ofByte

/-- `hexdigest()` of a digest. -/
def hexdigest (l : List UInt8) : Text := l.flatMap fun b => hex 2 b.toNat

variable {s : Text} {l : List UInt8} {n width : ℕ} {c : CodePoint}

theorem encodeAscii_of_isAscii (h : IsAscii s) : encodeAscii s = some (asciiBytes s) := if_pos h

/-- **ASCII is its own UTF-8.** -/
theorem encodeUtf8_of_isAscii (h : IsAscii s) : encodeUtf8 s = some (asciiBytes s) := by
  have hencodable : Encodable s := by
    intro c hc hsurrogate
    have hlow := hsurrogate.1
    have hascii := h c hc
    omega
  have hbytes : s.flatMap utf8 = asciiBytes s := by
    unfold asciiBytes
    rw [List.map_eq_flatMap]
    refine List.flatMap_congr fun c hc => ?_
    unfold utf8
    exact if_pos (h c hc)
  unfold encodeUtf8
  rw [if_pos hencodable, hbytes]

/-- **ASCII is read back.** -/
theorem decodeAscii_asciiBytes (h : IsAscii s) : decodeAscii (asciiBytes s) = s := by
  unfold decodeAscii asciiBytes
  rw [List.map_map]
  refine (List.map_congr_left fun c hc => ?_).trans (List.map_id s)
  have hascii := h c hc
  refine Fin.ext ?_
  show (UInt8.ofNat c.val).toNat = c.val
  rw [UInt8.toNat_ofNat']
  omega

theorem asciiBytes_decodeAscii (l : List UInt8) : asciiBytes (decodeAscii l) = l := by
  unfold decodeAscii asciiBytes
  rw [List.map_map]
  refine (List.map_congr_left fun b _ => ?_).trans (List.map_id l)
  exact UInt8.ofNat_toNat

theorem isAscii_append {t : Text} : IsAscii (s ++ t) ↔ IsAscii s ∧ IsAscii t := by
  unfold IsAscii
  simp only [List.mem_append, or_imp, forall_and]

theorem isAscii_decodeAscii (h : ∀ b ∈ l, b < 128) : IsAscii (decodeAscii l) := by
  intro c hc
  obtain ⟨b, hb, rfl⟩ := List.mem_map.mp hc
  exact h b hb

/-! ## Hexadecimal digits -/

theorem mem_hex (h : c ∈ hex width n) : ∃ d < 16, c = hexDigit d := by
  induction width generalizing n with
  | zero => cases h
  | succ width ih =>
      unfold hex at h
      rcases List.mem_append.mp h with h | h
      · exact ih h
      · exact ⟨n % 16, Nat.mod_lt _ (by omega), List.mem_singleton.mp h⟩

theorem mem_hexdigest (h : c ∈ hexdigest l) : ∃ d < 16, c = hexDigit d := by
  obtain ⟨b, -, hb⟩ := List.mem_flatMap.mp h
  exact mem_hex hb

/-- **A digest is ASCII** without a dot. -/
theorem of_mem_hexdigest (h : c ∈ hexdigest l) : c.val < 128 ∧ c ≠ point '.' := by
  have hall : ∀ d : Fin 16, (hexDigit d.val).val < 128 ∧ hexDigit d.val ≠ point '.' := by decide
  obtain ⟨d, hd, rfl⟩ := mem_hexdigest h
  exact hall ⟨d, hd⟩

end Python

end RetentionEngine
