import Mathlib.Data.Finset.Max
import Mathlib.Data.Fintype.Basic

/-!
# Choices from intervals

Every index has an interval of integers to choose from, of two at least. How
many different integers are chosen is settled only if no two of the
intervals meet.
-/

namespace RetentionEngine

open Finset

variable {ι : Type*} [Fintype ι] [DecidableEq ι] {a b f : ι → ℤ} {i j : ι}

/-- **A choice** of an integer between the ends for each index. -/
def IsChoice (a b f : ι → ℤ) : Prop := ∀ i, a i ≤ f i ∧ f i ≤ b i

/-- Two indices have an integer in common. -/
def Meet (a b : ι → ℤ) (i j : ι) : Prop := i ≠ j ∧ a i ≤ b j ∧ a j ≤ b i

omit [Fintype ι] [DecidableEq ι] in
theorem Meet.symm (h : Meet a b i j) : Meet a b j i := ⟨h.1.symm, h.2.2, h.2.1⟩

theorem image_update (f : ι → ℤ) (i : ι) (x : ℤ) :
    univ.image (Function.update f i x) = insert x ((univ.erase i).image f) := by
  ext y
  simp only [mem_image, mem_univ, true_and, mem_insert, mem_erase, and_true]
  constructor
  · rintro ⟨k, rfl⟩
    by_cases hk : k = i
    · exact Or.inl (by rw [hk, Function.update_self])
    · exact Or.inr ⟨k, hk, by rw [Function.update_of_ne hk]⟩
  · rintro (rfl | ⟨k, hk, rfl⟩)
    · exact ⟨i, by rw [Function.update_self]⟩
    · exact ⟨k, by rw [Function.update_of_ne hk]⟩

/-- **Where intervals meet, the number of different choices varies.** Of the
indices that meet another, take one whose interval ends first: with the others
at their right ends, and one of them at its own right end, its left end is
chosen by it alone and its right end is not. -/
theorem exists_two_counts (hab : ∀ k, a k < b k) (h : Meet a b i j) :
    ∃ f g, IsChoice a b f ∧ IsChoice a b g ∧ (univ.image f).card ≠ (univ.image g).card := by
  classical
  obtain ⟨i, hi, hmin⟩ := exists_min_image (univ.filter fun i => ∃ j, Meet a b i j) b
    ⟨i, mem_filter.mpr ⟨mem_univ i, j, h⟩⟩
  obtain ⟨j, hij⟩ := (mem_filter.mp hi).2
  have hfirst : ∀ k, Meet a b i k → b i ≤ b k := fun k hk =>
    hmin k (mem_filter.mpr ⟨mem_univ k, i, hk.symm⟩)
  have hothers : ∀ k, a k ≤ Function.update b j (b i) k ∧ Function.update b j (b i) k ≤ b k := by
    intro k
    by_cases hk : k = j
    · rw [hk, Function.update_self]
      exact ⟨hij.2.2, hfirst j hij⟩
    · rw [Function.update_of_ne hk]
      exact ⟨(hab k).le, le_rfl⟩
  have hchoice : ∀ x, a i ≤ x → x ≤ b i →
      IsChoice a b (Function.update (Function.update b j (b i)) i x) := by
    intro x hax hxb k
    by_cases hk : k = i
    · rw [hk, Function.update_self]
      exact ⟨hax, hxb⟩
    · rw [Function.update_of_ne hk]
      exact hothers k
  refine ⟨_, _, hchoice (a i) le_rfl (hab i).le, hchoice (b i) (hab i).le le_rfl, ?_⟩
  have halone : a i ∉ (univ.erase i).image (Function.update b j (b i)) := by
    intro hmem
    obtain ⟨k, hk, hkey⟩ := mem_image.mp hmem
    have hne : i ≠ k := (ne_of_mem_erase hk).symm
    have hi := hab i
    have hk := hab k
    by_cases hkj : k = j
    · rw [hkj, Function.update_self] at hkey
      omega
    · rw [Function.update_of_ne hkj] at hkey
      have hend := hfirst k ⟨hne, by omega, by omega⟩
      omega
  have hshared : b i ∈ (univ.erase i).image (Function.update b j (b i)) :=
    mem_image.mpr ⟨j, mem_erase.mpr ⟨hij.1.symm, mem_univ j⟩, Function.update_self j (b i) b⟩
  rw [image_update, image_update, card_insert_of_notMem halone, insert_eq_of_mem hshared]
  exact Nat.succ_ne_self _

end RetentionEngine
