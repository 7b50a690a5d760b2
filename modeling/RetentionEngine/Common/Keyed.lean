import Mathlib

/-!
# Lists with a key

Lists of records with a key that no two of them share: what `find?` finds,
and what replacing the record of a key, or adding one, leaves.
-/

namespace RetentionEngine

variable {α β : Type*} {f : α → β} {k : β} {l : List α} {a b : α} {rest : List α}

/-- Where a key is had once, what is found is what is there. -/
theorem find?_eq_some_iff_of_nodup {p : α → Prop} [DecidablePred p] (hnodup : (l.map f).Nodup)
    (hp : ∀ a, p a → f a = k) : (l.find? fun a => decide (p a)) = some a ↔ a ∈ l ∧ p a := by
  constructor
  · intro h
    have hfound := List.find?_some h
    exact ⟨List.mem_of_find?_eq_some h, of_decide_eq_true hfound⟩
  · rintro ⟨hmem, hpa⟩
    have hsome : (l.find? fun a => decide (p a)).isSome := by
      rw [List.find?_isSome]
      exact ⟨a, hmem, decide_eq_true hpa⟩
    obtain ⟨a', ha'⟩ := Option.isSome_iff_exists.mp hsome
    have hfound := List.find?_some ha'
    have heq : a' = a := List.inj_on_of_nodup_map hnodup (List.mem_of_find?_eq_some ha') hmem
      ((hp a' (of_decide_eq_true hfound)).trans (hp a hpa).symm)
    rw [ha', heq]

/-- A record with a new key may be added. -/
theorem nodup_map_append (hnodup : (l.map f).Nodup) (hnew : ∀ a ∈ l, f a ≠ f b) :
    ((l ++ [b]).map f).Nodup := by
  rw [List.map_append, List.map_singleton]
  refine hnodup.append (List.nodup_singleton _) ?_
  intro k hk hlast
  obtain rfl := List.mem_singleton.mp hlast
  obtain ⟨a, ha, heq⟩ := List.mem_map.mp hk
  exact hnew a ha heq

variable [DecidableEq β]

/-- No second record has a key. -/
theorem of_filter_key_eq_cons (hnodup : (l.map f).Nodup)
    (h : (l.filter fun a => decide (f a = k)) = a :: rest) : rest = [] ∧ a ∈ l ∧ f a = k := by
  have hmem : ∀ b ∈ a :: rest, b ∈ l ∧ f b = k := fun b hb => by
    obtain ⟨hb, hkey⟩ := List.mem_filter.mp (h ▸ hb)
    exact ⟨hb, of_decide_eq_true hkey⟩
  have hsub : ((a :: rest).map f).Nodup := h ▸ hnodup.sublist (List.filter_sublist.map f)
  rw [List.map_cons, List.nodup_cons] at hsub
  refine ⟨List.eq_nil_iff_forall_not_mem.mpr fun b hb => hsub.1 ?_, hmem a List.mem_cons_self⟩
  rw [(hmem a List.mem_cons_self).2, ← (hmem b (List.mem_cons_of_mem _ hb)).2]
  exact List.mem_map_of_mem hb

/-- Replacing the record of a key keeps the keys. -/
theorem map_replace : (l.map fun a => if f a = f b then b else a).map f = l.map f := by
  rw [List.map_map]
  refine List.map_congr_left fun a _ => ?_
  dsimp only [Function.comp]
  split
  · rename_i heq
    exact heq.symm
  · rfl

/-- **What replacing leaves.** -/
theorem mem_replace (ha : a ∈ l) (hkey : f a = f b) {c : α} :
    c ∈ l.map (fun a => if f a = f b then b else a) ↔ c = b ∨ c ∈ l ∧ f c ≠ f b := by
  rw [List.mem_map]
  constructor
  · rintro ⟨a, ha, rfl⟩
    split
    · exact Or.inl rfl
    · rename_i hne
      exact Or.inr ⟨ha, hne⟩
  · rintro (rfl | ⟨hc, hne⟩)
    · exact ⟨a, ha, if_pos hkey⟩
    · exact ⟨c, hc, if_neg hne⟩

end RetentionEngine
