import Mathlib.Logic.Function.Basic
import Mathlib.Logic.Relation
import Mathlib.Order.Lattice

/-!
# Union-find

A forest is a function from a node to its parent, under which every node
reaches a root; parents never come after their children. Path halving
changes no root (`Forest.halve`), and linking one root under another joins
exactly their two classes (`Forest.sameRoot_link`). Hence a forest whose
classes are those of a relation stays so when a pair is added to both.
-/

namespace RetentionEngine

namespace UnionFind

variable {κ : Type*} {parent : κ → κ} {x y z r r' a b : κ}

/-- **`r` is the root above `x`.** -/
inductive Reaches (parent : κ → κ) : κ → κ → Prop
  | root {r : κ} (h : parent r = r) : Reaches parent r r
  | step {x r : κ} (hne : parent x ≠ x) (h : Reaches parent (parent x) r) : Reaches parent x r

namespace Reaches

theorem isRoot (h : Reaches parent x r) : parent r = r := by
  induction h with
  | root h => exact h
  | step _ _ ih => exact ih

theorem eq_of_isRoot (h : Reaches parent x r) (hx : parent x = x) : r = x := by
  rcases h with _ | ⟨hne, _⟩
  · rfl
  · exact absurd hx hne

theorem of_step (h : Reaches parent x r) (hne : parent x ≠ x) : Reaches parent (parent x) r := by
  rcases h with hroot | ⟨_, h⟩
  · exact absurd hroot hne
  · exact h

/-- A node reaches one root. -/
theorem unique (h : Reaches parent x r) (h' : Reaches parent x r') : r = r' := by
  induction h with
  | root hroot => exact (h'.eq_of_isRoot hroot).symm
  | step hne _ ih => exact ih (h'.of_step hne)

/-- A node reaches what its parent reaches. -/
theorem of_parent (h : Reaches parent (parent x) r) : Reaches parent x r := by
  by_cases hx : parent x = x
  · rwa [hx] at h
  · exact .step hx h

end Reaches

/-- **Two nodes are in one class**: they have one root. -/
def SameRoot (parent : κ → κ) (x y : κ) : Prop := ∃ r, Reaches parent x r ∧ Reaches parent y r

/-- **A forest whose parents come first.** -/
structure Forest [LinearOrder κ] (parent : κ → κ) : Prop where
  descends : ∀ x, parent x ≤ x
  rooted : ∀ x, ∃ r, Reaches parent x r

variable [LinearOrder κ] (hf : Forest parent)
include hf

namespace Forest

theorem parent_lt (hne : parent x ≠ x) : parent x < x := lt_of_le_of_ne (hf.descends x) hne

/-- A forest with the same roots. -/
theorem of_reaches {parent' : κ → κ} (hdescends : ∀ x, parent' x ≤ x)
    (hreaches : ∀ x r, Reaches parent x r → Reaches parent' x r) :
    Forest parent' ∧ ∀ x r, Reaches parent' x r ↔ Reaches parent x r := by
  refine ⟨⟨hdescends, fun x => ?_⟩, fun x r => ⟨fun h => ?_, hreaches x r⟩⟩
  · obtain ⟨r, hr⟩ := hf.rooted x
    exact ⟨r, hreaches x r hr⟩
  · obtain ⟨r', hr'⟩ := hf.rooted x
    rwa [h.unique (hreaches x r' hr')]

/-- **Path halving changes no root.** -/
theorem halve (x : κ) : Forest (Function.update parent x (parent (parent x))) ∧
    ∀ y r, Reaches (Function.update parent x (parent (parent x))) y r ↔ Reaches parent y r := by
  have hup : parent (parent x) ≤ parent x := hf.descends (parent x)
  refine hf.of_reaches (fun y => ?_) fun y r h => ?_
  · by_cases hy : y = x
    · subst hy
      rw [Function.update_self]
      exact hup.trans (hf.descends y)
    · rw [Function.update_of_ne hy]
      exact hf.descends y
  · induction h with
    | @root r hroot =>
        refine .root ?_
        by_cases hr : r = x
        · subst hr
          rw [Function.update_self, hroot, hroot]
        · rw [Function.update_of_ne hr, hroot]
    | @step y r hne _ ih =>
        by_cases hy : y = x
        · subst hy
          -- the grandparent is reached through the parent, which is another node
          have hparent : Function.update parent y (parent (parent y)) (parent y) =
              parent (parent y) := Function.update_of_ne hne _ _
          have hlt := hup.trans_lt (hf.parent_lt hne)
          refine .step ?_ ?_
          · rw [Function.update_self]
            exact hlt.ne
          · rw [Function.update_self]
            by_cases hroot : parent (parent y) = parent y
            · rwa [hroot] at ih ⊢
            · have hstep := ih.of_step (by rwa [hparent])
              rwa [hparent] at hstep
        · refine .of_parent ?_
          rwa [Function.update_of_ne hy]

/-- **A root linked under another** hands over what reached it. -/
theorem reaches_link (ha : parent a = a) (hb : parent b = b) (hlt : a < b) (y r : κ) :
    Reaches (Function.update parent b a) y r ↔
      Reaches parent y r ∧ r ≠ b ∨ Reaches parent y b ∧ r = a := by
  have hroot : Function.update parent b a a = a := by
    rw [Function.update_of_ne hlt.ne, ha]
  have hb' : Reaches (Function.update parent b a) b a := by
    refine .of_parent ?_
    rw [Function.update_self]
    exact .root hroot
  have hto : ∀ y r, Reaches parent y r →
      Reaches (Function.update parent b a) y (if r = b then a else r) := by
    intro y r h
    induction h with
    | @root r hr =>
        by_cases hrb : r = b
        · rwa [if_pos hrb, hrb]
        · rw [if_neg hrb]
          refine .root ?_
          rw [Function.update_of_ne hrb, hr]
    | @step y r hne _ ih =>
        have hyb : y ≠ b := fun h => hne (h ▸ hb)
        refine .of_parent ?_
        rwa [Function.update_of_ne hyb]
  constructor
  · intro h
    obtain ⟨s, hs⟩ := hf.rooted y
    have hrs := h.unique (hto y s hs)
    by_cases hsb : s = b
    · rw [if_pos hsb] at hrs
      exact Or.inr ⟨hsb ▸ hs, hrs⟩
    · rw [if_neg hsb] at hrs
      exact Or.inl ⟨hrs ▸ hs, hrs ▸ hsb⟩
  · rintro (⟨h, hne⟩ | ⟨h, rfl⟩)
    · simpa only [if_neg hne] using hto y r h
    · simpa only [if_pos] using hto y b h

theorem link (ha : parent a = a) (hb : parent b = b) (hlt : a < b) :
    Forest (Function.update parent b a) where
  descends y := by
    by_cases hy : y = b
    · subst hy
      rw [Function.update_self]
      exact hlt.le
    · rw [Function.update_of_ne hy]
      exact hf.descends y
  rooted y := by
    obtain ⟨r, hr⟩ := hf.rooted y
    by_cases hrb : r = b
    · exact ⟨a, (hf.reaches_link ha hb hlt y a).mpr (Or.inr ⟨hrb ▸ hr, rfl⟩)⟩
    · exact ⟨r, (hf.reaches_link ha hb hlt y r).mpr (Or.inl ⟨hr, hrb⟩)⟩

theorem sameRoot_refl (x : κ) : SameRoot parent x x := by
  obtain ⟨r, hr⟩ := hf.rooted x
  exact ⟨r, hr, hr⟩

/-- **Linking joins the two classes** and no others. -/
theorem sameRoot_link (ha : parent a = a) (hb : parent b = b) (hlt : a < b) (y z : κ) :
    SameRoot (Function.update parent b a) y z ↔ SameRoot parent y z ∨
      (Reaches parent y a ∧ Reaches parent z b) ∨ (Reaches parent y b ∧ Reaches parent z a) := by
  unfold SameRoot
  simp only [hf.reaches_link ha hb hlt]
  constructor
  · rintro ⟨r, ⟨hy, -⟩ | ⟨hy, rfl⟩, ⟨hz, hne⟩ | ⟨hz, hr⟩⟩
    · exact Or.inl ⟨r, hy, hz⟩
    · exact Or.inr (Or.inl ⟨hr ▸ hy, hz⟩)
    · exact Or.inr (Or.inr ⟨hy, hz⟩)
    · exact Or.inl ⟨b, hy, hz⟩
  · rintro (⟨r, hy, hz⟩ | ⟨hy, hz⟩ | ⟨hy, hz⟩)
    · by_cases hr : r = b
      · exact ⟨a, Or.inr ⟨hr ▸ hy, rfl⟩, Or.inr ⟨hr ▸ hz, rfl⟩⟩
      · exact ⟨r, Or.inl ⟨hy, hr⟩, Or.inl ⟨hz, hr⟩⟩
    · exact ⟨a, Or.inl ⟨hy, hlt.ne⟩, Or.inr ⟨hz, rfl⟩⟩
    · exact ⟨a, Or.inr ⟨hy, rfl⟩, Or.inl ⟨hz, hlt.ne⟩⟩

end Forest

omit hf [LinearOrder κ] in
/-- **One pair more** joins the classes of its two ends. -/
theorem eqvGen_or {s : κ → κ → Prop} {x y : κ} :
    Relation.EqvGen (fun u v => s u v ∨ u = a ∧ v = b) x y ↔ Relation.EqvGen s x y ∨
      (Relation.EqvGen s x a ∧ Relation.EqvGen s y b) ∨
        (Relation.EqvGen s x b ∧ Relation.EqvGen s y a) := by
  have hmono : ∀ {u v}, Relation.EqvGen s u v →
      Relation.EqvGen (fun u v => s u v ∨ u = a ∧ v = b) u v := fun h =>
    h.mono fun _ _ => Or.inl
  constructor
  · intro h
    induction h with
    | rel u v h =>
        rcases h with h | ⟨rfl, rfl⟩
        · exact Or.inl (.rel _ _ h)
        · exact Or.inr (Or.inl ⟨.refl _, .refl _⟩)
    | refl u => exact Or.inl (.refl u)
    | symm u v _ ih =>
        rcases ih with h | ⟨hu, hv⟩ | ⟨hu, hv⟩
        · exact Or.inl h.symm
        · exact Or.inr (Or.inr ⟨hv, hu⟩)
        · exact Or.inr (Or.inl ⟨hv, hu⟩)
    | trans u v w _ _ ih ih' =>
        rcases ih with h | ⟨hu, hv⟩ | ⟨hu, hv⟩ <;> rcases ih' with h' | ⟨hv', hw⟩ | ⟨hv', hw⟩
        · exact Or.inl (h.trans _ _ _ h')
        · exact Or.inr (Or.inl ⟨h.trans _ _ _ hv', hw⟩)
        · exact Or.inr (Or.inr ⟨h.trans _ _ _ hv', hw⟩)
        · exact Or.inr (Or.inl ⟨hu, h'.symm.trans _ _ _ hv⟩)
        · exact Or.inr (Or.inl ⟨hu, hw⟩)
        · exact Or.inl (hu.trans _ _ _ hw.symm)
        · exact Or.inr (Or.inr ⟨hu, h'.symm.trans _ _ _ hv⟩)
        · exact Or.inl (hu.trans _ _ _ hw.symm)
        · exact Or.inr (Or.inr ⟨hu, hw⟩)
  · have hpair : Relation.EqvGen (fun u v => s u v ∨ u = a ∧ v = b) a b :=
      .rel _ _ (Or.inr ⟨rfl, rfl⟩)
    rintro (h | ⟨hx, hy⟩ | ⟨hx, hy⟩)
    · exact hmono h
    · exact ((hmono hx).trans _ _ _ hpair).trans _ _ _ (hmono hy).symm
    · exact ((hmono hx).trans _ _ _ hpair.symm).trans _ _ _ (hmono hy).symm

end UnionFind

end RetentionEngine
