import Mathlib.Data.List.Sort
import Mathlib.Order.OrderDual

/-!
# Sorting by two keys

The order of a sort by a pair of keys, and what a sort does not depend on:
where no two elements share both keys, the order they come in.
-/

namespace RetentionEngine

variable {α β γ : Type*} [LinearOrder β] [LinearOrder γ]

/-- The order of `key=lambda a: (f(a), g(a))`. -/
def LexLe (f : α → β) (g : α → γ) (a b : α) : Prop := f a < f b ∨ f a = f b ∧ g a ≤ g b

variable {f : α → β} {g : α → γ} {a b c : α}

instance : DecidableRel (LexLe f g) := fun _ _ => inferInstanceAs (Decidable (_ ∨ _))

namespace LexLe

theorem trans (hab : LexLe f g a b) (hbc : LexLe f g b c) : LexLe f g a c := by
  rcases hab with hlt | ⟨heq, hle⟩
  · rcases hbc with hlt' | ⟨heq', -⟩
    · exact Or.inl (hlt.trans hlt')
    · exact Or.inl (heq' ▸ hlt)
  · rcases hbc with hlt' | ⟨heq', hle'⟩
    · exact Or.inl (heq ▸ hlt')
    · exact Or.inr ⟨heq.trans heq', hle.trans hle'⟩

theorem total (f : α → β) (g : α → γ) (a b : α) : LexLe f g a b ∨ LexLe f g b a := by
  rcases lt_trichotomy (f a) (f b) with hlt | heq | hgt
  · exact Or.inl (Or.inl hlt)
  · exact (le_total (g a) (g b)).imp (fun h => Or.inr ⟨heq, h⟩) fun h => Or.inr ⟨heq.symm, h⟩
  · exact Or.inr (Or.inl hgt)

/-- **Elements that come before each other share both keys.** -/
theorem keys_eq (hab : LexLe f g a b) (hba : LexLe f g b a) : f a = f b ∧ g a = g b := by
  rcases hab with hlt | ⟨heq, hle⟩
  · rcases hba with hlt' | ⟨heq', -⟩
    · exact absurd hlt hlt'.not_gt
    · exact absurd heq' hlt.ne'
  · rcases hba with hlt' | ⟨-, hle'⟩
    · exact absurd heq hlt'.ne'
    · exact ⟨heq, le_antisymm hle hle'⟩

end LexLe

instance : IsTrans α (LexLe f g) := ⟨fun _ _ _ => LexLe.trans⟩

instance : Std.Total (LexLe f g) := ⟨LexLe.total f g⟩

/-- **A sort does not depend on the order it is given**, where elements that
come before each other are the same. -/
theorem insertionSort_eq_of_perm {r : α → α → Prop} [DecidableRel r] [IsTrans α r] [Std.Total r]
    {l l' : List α} (hperm : l.Perm l') (hanti : ∀ a ∈ l, ∀ b ∈ l, r a b → r b a → a = b) :
    l.insertionSort r = l'.insertionSort r := by
  have hsort : (l.insertionSort r).Perm (l'.insertionSort r) :=
    (List.perm_insertionSort r l).trans (hperm.trans (List.perm_insertionSort r l').symm)
  refine hsort.eq_of_pairwise ?_ (List.pairwise_insertionSort r l)
    (List.pairwise_insertionSort r l')
  intro a b ha hb
  have ha : a ∈ l := (List.perm_insertionSort r l).mem_iff.mp ha
  have hb : b ∈ l := hperm.mem_iff.mpr ((List.perm_insertionSort r l').mem_iff.mp hb)
  exact hanti a ha b hb

/-- **A sort by one key** that no two elements share. -/
theorem insertionSort_le_eq_of_perm (f : α → β) [DecidableRel fun a b => f a ≤ f b]
    {l l' : List α} (hperm : l.Perm l') (hinj : ∀ a ∈ l, ∀ b ∈ l, f a = f b → a = b) :
    l.insertionSort (fun a b => f a ≤ f b) = l'.insertionSort fun a b => f a ≤ f b := by
  have htrans : IsTrans α fun a b => f a ≤ f b := ⟨fun _ _ _ => le_trans⟩
  have htotal : Std.Total fun a b => f a ≤ f b := ⟨fun a b => le_total (f a) (f b)⟩
  exact insertionSort_eq_of_perm hperm fun a ha b hb hab hba => hinj a ha b hb (le_antisymm hab hba)

/-- The first element of a sort that satisfies `p` comes before every other
one that does. -/
theorem find?_insertionSort {r : α → α → Prop} [DecidableRel r] [IsTrans α r] [Std.Total r]
    {l : List α} {p : α → Bool} (h : (l.insertionSort r).find? p = some a) :
    a ∈ l ∧ p a = true ∧ ∀ b ∈ l, p b = true → b = a ∨ r a b := by
  obtain ⟨hp, before, after, hsplit, hbefore⟩ := List.find?_eq_some_iff_append.mp h
  have hmem : ∀ b, b ∈ l ↔ b ∈ before ++ a :: after := fun b => by
    rw [← hsplit]
    exact (List.perm_insertionSort r l).mem_iff.symm
  have hsorted := List.pairwise_insertionSort r l
  rw [hsplit, List.pairwise_append, List.pairwise_cons] at hsorted
  refine ⟨(hmem a).mpr (by simp), hp, ?_⟩
  intro b hb hpb
  rcases List.mem_append.mp ((hmem b).mp hb) with hb | hb
  · have hnot := hbefore b hb
    rw [hpb] at hnot
    cases hnot
  · rcases List.mem_cons.mp hb with rfl | hb
    · exact Or.inl rfl
    · exact Or.inr (hsorted.2.1.1 b hb)

/-- An element is inserted among those that are left where it is inserted
among all. -/
theorem filter_orderedInsert {r : α → α → Prop} [DecidableRel r] [IsTrans α r] (p : α → Bool)
    (a : α) {l : List α} (hsorted : l.Pairwise r) : (l.orderedInsert r a).filter p =
      if p a then (l.filter p).orderedInsert r a else l.filter p := by
  induction l with
  | nil => simp [List.filter_cons]
  | cons b l ih =>
      obtain ⟨hb, hl⟩ := List.pairwise_cons.mp hsorted
      by_cases hab : r a b
      · -- `a` comes before `b`, hence before all that are left
        have hall : (l.filter p).orderedInsert r a = a :: l.filter p := by
          cases hrest : l.filter p with
          | nil => rfl
          | cons c rest =>
              have hc : c ∈ l := List.mem_of_mem_filter (hrest ▸ List.mem_cons_self)
              exact List.orderedInsert_cons_of_le r rest (IsTrans.trans _ _ _ hab (hb c hc))
        rw [List.orderedInsert_cons_of_le r l hab, List.filter_cons]
        by_cases hpb : p b <;> simp [hpb, hab, hall]
      · rw [List.orderedInsert_of_not_le r l hab, List.filter_cons, ih hl]
        by_cases hpb : p b <;> by_cases hpa : p a <;> simp [hpb, hpa, hab]

/-- **What is left of a sorted list** is what is left, sorted. -/
theorem filter_insertionSort {r : α → α → Prop} [DecidableRel r] [IsTrans α r] [Std.Total r]
    (p : α → Bool) (l : List α) :
    (l.insertionSort r).filter p = (l.filter p).insertionSort r := by
  induction l with
  | nil => rfl
  | cons a l ih =>
      rw [List.insertionSort_cons, filter_orderedInsert p a (List.pairwise_insertionSort r l), ih,
        List.filter_cons]
      split <;> rfl

/-- **A sorted list is cut in two by a key.** -/
theorem filter_lt_append_filter_le (t : β) {l : List α} (h : l.Pairwise fun a b => f a ≤ f b) :
    (l.filter fun a => f a < t) ++ (l.filter fun a => t ≤ f a) = l := by
  induction l with
  | nil => rfl
  | cons a l ih =>
      obtain ⟨ha, hl⟩ := List.pairwise_cons.mp h
      by_cases hlt : f a < t
      · simp only [List.filter_cons, hlt, decide_true, if_true, not_le.mpr hlt, decide_false,
          Bool.false_eq_true, if_false, List.cons_append, ih hl]
      · have hle : t ≤ f a := not_lt.mp hlt
        have hnone : (a :: l).filter (fun a => f a < t) = [] := by
          rw [List.filter_eq_nil_iff]
          intro b hb
          rcases List.mem_cons.mp hb with rfl | hb
          · simpa using hle
          · simpa using hle.trans (ha b hb)
        have hall : (a :: l).filter (fun a => t ≤ f a) = a :: l := by
          rw [List.filter_eq_self]
          intro b hb
          rcases List.mem_cons.mp hb with rfl | hb
          · simpa using hle
          · simpa using hle.trans (ha b hb)
        rw [hnone, hall, List.nil_append]

end RetentionEngine
