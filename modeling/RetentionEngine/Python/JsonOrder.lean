import RetentionEngine.Python.Dumps

/-!
# The order of an object's keys

Two JSON values are the same if they differ in the order of the keys of their
objects at most: with the keys sorted, all the way down, they are equal.
-/

namespace RetentionEngine

namespace Python

namespace Json

/-! ## The order of texts -/

variable {s t r : Text}

theorem textLe_cons {a b : CodePoint} :
    textLe (a :: s) (b :: t) = true ↔ a.val < b.val ∨ a = b ∧ textLe s t = true := by
  conv_lhs => unfold textLe
  rw [Bool.or_eq_true, Bool.and_eq_true, decide_eq_true_iff, decide_eq_true_iff]

theorem textLe_total (s t : Text) : textLe s t = true ∨ textLe t s = true := by
  induction s generalizing t with
  | nil => exact Or.inl rfl
  | cons a s ih =>
      cases t with
      | nil => exact Or.inr rfl
      | cons b t =>
          rw [textLe_cons, textLe_cons]
          rcases lt_trichotomy a.val b.val with hlt | heq | hgt
          · exact Or.inl (Or.inl hlt)
          · have hab : a = b := Fin.ext heq
            rcases ih t with h | h
            · exact Or.inl (Or.inr ⟨hab, h⟩)
            · exact Or.inr (Or.inr ⟨hab.symm, h⟩)
          · exact Or.inr (Or.inl hgt)

theorem textLe_trans (h : textLe s t = true) (h' : textLe t r = true) : textLe s r = true := by
  induction s generalizing t r with
  | nil => rfl
  | cons a s ih =>
      cases t with
      | nil => cases h
      | cons b t =>
          cases r with
          | nil => cases h'
          | cons c r =>
              rw [textLe_cons] at h h' ⊢
              rcases h with hab | ⟨rfl, hst⟩
              · rcases h' with hbc | ⟨rfl, -⟩
                · exact Or.inl (hab.trans hbc)
                · exact Or.inl hab
              · rcases h' with hbc | ⟨rfl, htr⟩
                · exact Or.inl hbc
                · exact Or.inr ⟨rfl, ih hst htr⟩

theorem textLe_antisymm (h : textLe s t = true) (h' : textLe t s = true) : s = t := by
  induction s generalizing t with
  | nil =>
      cases t with
      | nil => rfl
      | cons b t => cases h'
  | cons a s ih =>
      cases t with
      | nil => cases h
      | cons b t =>
          rw [textLe_cons] at h h'
          rcases h with hab | ⟨rfl, hst⟩
          · rcases h' with hba | ⟨rfl, -⟩
            · omega
            · exact absurd hab (lt_irrefl _)
          · rcases h' with hba | ⟨-, hts⟩
            · exact absurd hba (lt_irrefl _)
            · rw [ih hst hts]

/-! ## Sorted entries -/

variable {α : Type} {l l' : List (Text × α)}

instance : Std.Total fun e e' : Text × α => textLe e.1 e'.1 = true :=
  ⟨fun e e' => textLe_total e.1 e'.1⟩

instance : IsTrans (Text × α) fun e e' => textLe e.1 e'.1 = true :=
  ⟨fun _ _ _ => textLe_trans⟩

theorem sortKeys_sortKeys (l : List (Text × α)) : sortKeys (sortKeys l) = sortKeys l :=
  (List.pairwise_insertionSort _ l).insertionSort_eq

/-- **Entries in another order are sorted alike**, if their keys are
distinct. -/
theorem sortKeys_of_perm (hnodup : (l.map Prod.fst).Nodup) (h : l.Perm l') :
    sortKeys l = sortKeys l' := by
  have hperm : (sortKeys l).Perm (sortKeys l') :=
    (perm_sortKeys l).trans (h.trans (perm_sortKeys l').symm)
  refine hperm.eq_of_pairwise (fun e e' he he' hle hle' => ?_) (List.pairwise_insertionSort _ l)
    (List.pairwise_insertionSort _ l')
  have hmem : e' ∈ l := h.mem_iff.mpr (mem_sortKeys.mp he')
  exact List.inj_on_of_nodup_map hnodup (mem_sortKeys.mp he) hmem (textLe_antisymm hle hle')

mutual

/-- **A value with sorted keys**, all the way down. -/
def sorted : Json → Json
  | list elements => list (sortedElements elements)
  | dict entries => dict (sortKeys (sortedEntries entries))
  | v => v

/-- The elements of a list. -/
def sortedElements : List Json → List Json
  | [] => []
  | v :: l => sorted v :: sortedElements l

/-- The entries of an object. -/
def sortedEntries : List (Text × Json) → List (Text × Json)
  | [] => []
  | (k, v) :: l => (k, sorted v) :: sortedEntries l

end

theorem sortedElements_eq (elements : List Json) :
    sortedElements elements = elements.map sorted := by
  induction elements with
  | nil => rfl
  | cons v l ih =>
      unfold sortedElements
      rw [ih, List.map_cons]

theorem sortedEntries_eq (entries : List (Text × Json)) :
    sortedEntries entries = entries.map fun e => (e.1, sorted e.2) := by
  induction entries with
  | nil => rfl
  | cons e l ih =>
      unfold sortedEntries
      rw [ih, List.map_cons]

/-! ## The same value -/

variable {v w : Json} {elements : List Json} {entries entries' : List (Text × Json)}

/-- **`v == w`**, up to the order of keys. -/
def Same (v w : Json) : Prop := sorted v = sorted w

theorem sorted_list : sorted (list elements) = list (elements.map sorted) :=
  congrArg list (sortedElements_eq elements)

theorem sorted_dict :
    sorted (dict entries) = dict ((sortKeys entries).map fun e => (e.1, sorted e.2)) := by
  show dict (sortKeys (sortedEntries entries)) = _
  rw [sortedEntries_eq, sortKeys_map]

/-- Sorting twice is sorting once. -/
theorem sorted_sorted (v : Json) : sorted (sorted v) = sorted v := by
  induction v using induct with
  | null | bool _ | int _ | float _ | str _ => rfl
  | list elements ih =>
      rw [sorted_list, sorted_list, List.map_map]
      exact congrArg list (List.map_congr_left ih)
  | dict entries ih =>
      rw [sorted_dict, sorted_dict, sortKeys_map, sortKeys_sortKeys, List.map_map]
      refine congrArg dict (List.map_congr_left fun e he => ?_)
      exact congrArg (Prod.mk e.1) (ih e (mem_sortKeys.mp he))

theorem same_sorted (v : Json) : Same (sorted v) v := sorted_sorted v

/-- **Objects are the same** exactly if their entries are, in some order. -/
theorem same_dict_iff (hnodup : (entries.map Prod.fst).Nodup) :
    Same (dict entries) (dict entries') ↔
      (sortedEntries entries).Perm (sortedEntries entries') := by
  have hkeys : ((sortedEntries entries).map Prod.fst).Nodup := by
    rw [sortedEntries_eq, List.map_map]
    exact hnodup
  unfold Same sorted
  rw [dict.injEq]
  constructor
  · intro h
    exact (perm_sortKeys _).symm.trans (h ▸ perm_sortKeys _)
  · exact sortKeys_of_perm hkeys

theorem nesting_sorted (v : Json) : nesting (sorted v) = nesting v := by
  induction v using induct with
  | null | bool _ | int _ | float _ | str _ => rfl
  | list elements ih =>
      rw [sorted_list]
      refine congrArg (· + 1) (eq_of_forall_ge_iff fun d => ?_)
      rw [nestingElements_le, nestingElements_le, List.forall_mem_map]
      exact forall₂_congr fun v hv => by rw [ih v hv]
  | dict entries ih =>
      rw [sorted_dict]
      refine congrArg (· + 1) (eq_of_forall_ge_iff fun d => ?_)
      rw [nestingEntries_le, nestingEntries_le, List.forall_mem_map]
      simp only [mem_sortKeys]
      exact forall₂_congr fun e he => by rw [ih e he]

/-- The same values are nested alike. -/
theorem Same.nesting (h : Same v w) : nesting v = nesting w := by
  rw [← nesting_sorted v, ← nesting_sorted w, h]

end Json

end Python

end RetentionEngine
