import RetentionEngine.Common.Dict
import Mathlib.Data.Rat.Floor

/-!
# Counting

Counters kept in a dictionary, and what counting a list by keys comes to.
-/

namespace RetentionEngine

variable {α κ M : Type*} [DecidableEq κ]

/-- **A counter**: `d[k] = d.get(k, 0) + w` for every element. -/
def tally [Zero M] [Add M] (key : α → κ) (w : α → M) (l : List α) : Dict κ M :=
  l.foldl (fun d a => d.alter (key a) fun o => o.getD 0 + w a) .empty

/-- Nothing has a key that does not occur. -/
theorem filter_key_eq_nil {key : α → κ} {l : List α} {k : κ} (hk : k ∉ l.map key) :
    (l.filter fun a => key a = k) = [] := by
  rw [List.filter_eq_nil_iff]
  intro a ha heq
  exact hk (of_decide_eq_true heq ▸ List.mem_map_of_mem ha)

/-- **What a counter holds** of a key: the weight of its elements, if there
are any. -/
theorem get?_tally [AddMonoid M] {key : α → κ} {w : α → M} {l : List α} {k : κ} :
    (tally key w l).get? k =
      if k ∈ l.map key then some ((l.filter fun a => key a = k).map w).sum else none := by
  unfold tally
  induction l using List.reverseRecOn with
  | nil => rfl
  | append_singleton l a ih =>
      rw [List.foldl_append, List.foldl_cons, List.foldl_nil, Dict.get?_alter]
      by_cases hk : k = key a
      · subst hk
        rw [if_pos rfl, ih, if_pos (List.mem_map_of_mem (List.mem_append_right l (by simp)))]
        by_cases hmem : key a ∈ l.map key
        · rw [if_pos hmem]
          simp
        · rw [if_neg hmem, List.filter_append, filter_key_eq_nil hmem]
          simp
      · rw [if_neg hk, ih]
        have hne : ¬ key a = k := fun h => hk h.symm
        simp [hne, hk]

/-- The weight of a key, counted from nothing. -/
theorem getD_tally [AddMonoid M] {key : α → κ} {w : α → M} {l : List α} {k : κ} :
    ((tally key w l).get? k).getD 0 = ((l.filter fun a => key a = k).map w).sum := by
  rw [get?_tally]
  split
  · rfl
  · rename_i hk
    rw [filter_key_eq_nil hk]
    rfl

/-- A counter has the keys that occur. -/
theorem mem_keys_tally [AddMonoid M] {key : α → κ} {w : α → M} {l : List α} {k : κ} :
    k ∈ (tally key w l).keys ↔ k ∈ l.map key := by
  rw [← not_iff_not, ← Dict.get?_eq_none, get?_tally]
  split <;> simp_all

/-- Adding one for what satisfies `p` counts it. -/
theorem sum_map_ite {p : α → Prop} [DecidablePred p] {l : List α} :
    (l.map fun a => if p a then (1 : ℤ) else 0).sum = (l.filter fun a => p a).length := by
  induction l with
  | nil => rfl
  | cons a l ih => by_cases ha : p a <;> simp [ha, ih, add_comm]

/-- **Counting key by key** counts every element whose key is listed. -/
theorem length_filter_mem (key : α → κ) {keys : List κ} (hnodup : keys.Nodup) (l : List α) :
    (l.filter fun a => key a ∈ keys).length =
      (keys.map fun k => (l.filter fun a => key a = k).length).sum := by
  induction keys with
  | nil => simp
  | cons k keys ih =>
      obtain ⟨hk, hnodup⟩ := List.nodup_cons.mp hnodup
      have hsplit : (l.filter fun a => key a ∈ k :: keys).length =
          (l.filter fun a => key a = k).length + (l.filter fun a => key a ∈ keys).length := by
        clear ih
        induction l with
        | nil => rfl
        | cons a l ih =>
            by_cases hak : key a = k
            · simp [hak, hk] at ih ⊢
              omega
            · by_cases hmem : key a ∈ keys
              · simp [hak, hmem] at ih ⊢
                omega
              · simp [hak, hmem] at ih ⊢
                omega
      rw [hsplit, ih hnodup, List.map_cons, List.sum_cons]

/-- **Counting what occurs counts how often it occurs** exactly when nothing
occurs twice. -/
theorem length_filter_pos_eq_sum_iff {f : α → ℕ} {l : List α} :
    (l.filter fun a => 0 < f a).length = (l.map f).sum ↔ ∀ a ∈ l, f a ≤ 1 := by
  have hle : ∀ l : List α, (l.filter fun a => 0 < f a).length ≤ (l.map f).sum := by
    intro l
    induction l with
    | nil => exact le_rfl
    | cons a l ih =>
        by_cases ha : 0 < f a
        · simp only [ha, decide_true, List.filter_cons_of_pos, List.length_cons, List.map_cons,
            List.sum_cons]
          omega
        · simp only [ha, decide_false, Bool.false_eq_true, not_false_eq_true,
            List.filter_cons_of_neg, List.map_cons, List.sum_cons]
          omega
  induction l with
  | nil => simp
  | cons a l ih =>
      have hrest := hle l
      rw [List.forall_mem_cons]
      by_cases ha : 0 < f a
      · simp only [ha, decide_true, List.filter_cons_of_pos, List.length_cons, List.map_cons,
          List.sum_cons]
        refine ⟨fun h => ⟨by omega, ih.mp (by omega)⟩, fun h => ?_⟩
        have hsum := ih.mpr h.2
        omega
      · simp only [ha, decide_false, Bool.false_eq_true, not_false_eq_true,
          List.filter_cons_of_neg, List.map_cons, List.sum_cons]
        refine ⟨fun h => ⟨by omega, ih.mp (by omega)⟩, fun h => ?_⟩
        have hsum := ih.mpr h.2
        omega

end RetentionEngine
