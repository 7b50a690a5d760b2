import Mathlib.Data.List.Basic
import RetentionEngine.Common.Text

/-!
# Hashes and ids

The two digests the code takes from its standard library, as parameters,
and the ids it cuts from them. Nothing is assumed of a digest but that a
hexadecimal one is hexadecimal.
-/

namespace RetentionEngine

/-- The digits of `hexdigest()`. -/
def hexDigits : List Char := "0123456789abcdef".toList

/-- A text of such digits, as digests and pseudonyms are. -/
def IsHex (s : String) : Prop := ∀ ch ∈ s.toList, ch ∈ hexDigits

instance : DecidablePred IsHex := fun s => List.decidableBAll (· ∈ hexDigits) s.toList

theorem IsHex.bar_not_mem {s : String} (h : IsHex s) : '|' ∉ s.toList := by
  intro hmem
  have hdigit := h _ hmem
  revert hdigit
  decide

theorem IsHex.not_startsWith_group {s : String} (h : IsHex s) : ¬ startsWith s "group:" := by
  intro hpre
  have hdigit := h 'g' (hpre.subset (by decide))
  revert hdigit
  decide

/-- **The digests**: `sha256(s).hexdigest()`, and HMAC-SHA-256 of a message
under a key as a big-endian integer. -/
structure Hashes where
  sha256 : String → String
  hmacSha256 : String → String → ℕ
  sha256_hex : ∀ s, IsHex (sha256 s)

namespace Hashes

variable (h : Hashes)

/-- The text an id is hashed of. -/
def idText (parts : List String) : String := "|".intercalate parts

/-- `_id` of `worker.pipeline`. -/
def idOf (pre : String) (parts : List String) : String :=
  pre ++ "-" ++ take (h.sha256 (idText parts)) 16

/-- The id `find_circles` gives the sorted members. -/
def circleId (members : List String) : String :=
  "circle-" ++ take (h.sha256 (idText members)) 12

/-- **Pseudonyms are read back from the text they are hashed in.** -/
theorem eq_of_idText {parts parts' : List String} (hne : parts ≠ []) (hne' : parts' ≠ [])
    (hhex : ∀ s ∈ parts, IsHex s) (hhex' : ∀ s ∈ parts', IsHex s)
    (heq : idText parts = idText parts') : parts = parts' :=
  intercalate_inj (c := '|') rfl hne hne' (fun s hs => (hhex s hs).bar_not_mem)
    (fun s hs => (hhex' s hs).bar_not_mem) heq

/-- A free text between two texts without a bar is read back too. -/
theorem eq_of_idText_four {r u u' c c' g g' : String} (hu : '|' ∉ u.toList) (hu' : '|' ∉ u'.toList)
    (hg : '|' ∉ g.toList) (hg' : '|' ∉ g'.toList)
    (heq : idText [r, u, c, g] = idText [r, u', c', g']) : u = u' ∧ c = c' ∧ g = g' := by
  have hchars := congrArg String.toList heq
  simp only [idText, String.toList_intercalate, List.map_cons, List.map_nil,
    List.intercalate_cons_cons, List.intercalate_singleton, List.append_assoc,
    show "|".toList = ['|'] from rfl, List.singleton_append] at hchars
  obtain ⟨huu, htail⟩ := append_cons_inj hu hu' (List.cons.inj (List.append_cancel_left hchars)).2
  obtain ⟨hcc, hgg⟩ := append_cons_inj_last hg hg' htail
  exact ⟨String.toList_inj.mp huu, String.toList_inj.mp hcc, String.toList_inj.mp hgg⟩

/-- A circle's id holds its digits and its prefix only. -/
theorem not_mem_circleId {ch : Char} (hpre : ch ∉ "circle-".toList) (hhex : ch ∉ hexDigits)
    (members : List String) : ch ∉ (h.circleId members).toList := by
  unfold circleId take
  rw [String.toList_append, List.mem_append]
  rintro (hmem | hmem)
  · exact hpre hmem
  · rw [String.toList_ofList] at hmem
    exact hhex (h.sha256_hex _ _ (List.mem_of_mem_take hmem))

theorem circleId_ne_empty (members : List String) : h.circleId members ≠ "" := by
  intro hempty
  have hl := congrArg String.toList hempty
  simp [circleId, String.toList_append] at hl

/-- A candidate's id does not look like a bundle item's. -/
theorem not_startsWith_idOf (parts : List String) :
    ¬ startsWith (h.idOf "cand" parts) "bundle:" := by
  unfold idOf startsWith
  simp [String.toList_append]

end Hashes

end RetentionEngine
