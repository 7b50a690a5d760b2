import Mathlib.Data.List.Forall2
import Mathlib.Data.List.Nodup
import Mathlib.Data.List.ReduceOption

/-!
# Lists

General facts about lists the models share.
-/

namespace RetentionEngine

variable {α β γ ε : Type*}

/-- **A traversal that succeeds succeeded on every element**, in order. -/
theorem forall₂_of_mapM {f : α → Option β} {l : List α} {l' : List β} (h : l.mapM f = some l') :
    List.Forall₂ (fun a b => f a = some b) l l' := by
  induction l generalizing l' with
  | nil =>
      obtain rfl : [] = l' := Option.some.inj h
      exact .nil
  | cons x l ih =>
      rw [List.mapM_cons] at h
      obtain ⟨b, hb, h⟩ := Option.bind_eq_some_iff.mp h
      obtain ⟨bs, hbs, h⟩ := Option.bind_eq_some_iff.mp h
      obtain rfl : b :: bs = l' := Option.some.inj h
      exact .cons hb (ih hbs)

theorem exists_mapM_some {f : α → Option β} {l : List α} (h : ∀ a ∈ l, ∃ b, f a = some b) :
    ∃ l', l.mapM f = some l' := by
  induction l with
  | nil => exact ⟨[], rfl⟩
  | cons a l ih =>
      obtain ⟨b, hb⟩ := h a List.mem_cons_self
      obtain ⟨l', hl'⟩ := ih fun x hx => h x (List.mem_cons_of_mem _ hx)
      refine ⟨b :: l', ?_⟩
      rw [List.mapM_cons, hb, hl']
      rfl

/-- **A traversal whose every step succeeds succeeds**, elementwise. -/
theorem exists_mapM_ok {f : α → Except ε β} {P : α → β → Prop} {l : List α}
    (h : ∀ a ∈ l, ∃ b, f a = .ok b ∧ P a b) : ∃ l', l.mapM f = .ok l' ∧ List.Forall₂ P l l' := by
  induction l with
  | nil => exact ⟨[], rfl, .nil⟩
  | cons a l ih =>
      obtain ⟨b, hb, hP⟩ := h a List.mem_cons_self
      obtain ⟨l', hl', hall⟩ := ih fun x hx => h x (List.mem_cons_of_mem _ hx)
      refine ⟨b :: l', ?_, .cons hP hall⟩
      rw [List.mapM_cons, hb, hl']
      rfl

/-- A computation that succeeds has succeeded at its first step. -/
theorem exists_of_bind_eq_ok {x : Except ε α} {f : α → Except ε β} {b : β}
    (h : x.bind f = .ok b) : ∃ a, x = .ok a ∧ f a = .ok b := by
  cases x with
  | error e => cases h
  | ok a => exact ⟨a, rfl, h⟩

/-- A traversal fails as some element does. -/
theorem exists_of_mapM_error {f : α → Except ε β} {l : List α} {e : ε} (h : l.mapM f = .error e) :
    ∃ a ∈ l, f a = .error e := by
  induction l with
  | nil => cases h
  | cons a l ih =>
      rw [List.mapM_cons] at h
      cases ha : f a with
      | error e' =>
          rw [ha] at h
          obtain rfl : e' = e := Except.error.inj h
          exact ⟨a, List.mem_cons_self, ha⟩
      | ok b =>
          rw [ha] at h
          cases hl : l.mapM f with
          | error e' =>
              rw [hl] at h
              obtain rfl : e' = e := Except.error.inj h
              obtain ⟨a', ha', hfail⟩ := ih hl
              exact ⟨a', List.mem_cons_of_mem _ ha', hfail⟩
          | ok l' =>
              rw [hl] at h
              cases h

/-- A traversal that succeeds succeeded on every element. -/
theorem exists_of_mapM_ok {f : α → Except ε β} {l : List α} {l' : List β} (h : l.mapM f = .ok l')
    {a : α} (ha : a ∈ l) : ∃ b, f a = .ok b := by
  induction l generalizing l' with
  | nil => cases ha
  | cons a' l ih =>
      rw [List.mapM_cons] at h
      obtain ⟨b, hb, h⟩ := exists_of_bind_eq_ok h
      obtain ⟨bs, hbs, -⟩ := exists_of_bind_eq_ok h
      rcases List.mem_cons.mp ha with rfl | ha
      · exact ⟨b, hb⟩
      · exact ih hbs ha

theorem forall₂_of_mapM_ok {f : α → Except ε β} {l : List α} {l' : List β}
    (h : l.mapM f = .ok l') : List.Forall₂ (fun a b => f a = .ok b) l l' := by
  induction l generalizing l' with
  | nil =>
      obtain rfl : [] = l' := Except.ok.inj h
      exact .nil
  | cons x l ih =>
      rw [List.mapM_cons] at h
      obtain ⟨b, hb, h⟩ := exists_of_bind_eq_ok h
      obtain ⟨bs, hbs, h⟩ := exists_of_bind_eq_ok h
      obtain rfl : b :: bs = l' := Except.ok.inj h
      exact .cons hb (ih hbs)

/-- Renaming the error of a computation that succeeds. -/
theorem of_mapError {ε' : Type*} {g : ε → ε'} {x : Except ε α} {a : α} (h : x.mapError g = .ok a) :
    x = .ok a := by
  cases x with
  | error e => cases h
  | ok b => exact congrArg Except.ok (Except.ok.inj h)

theorem toOption_eq_some {e : Except ε α} {x : α} : e.toOption = some x ↔ e = .ok x := by
  cases e <;> simp [Except.toOption]

/-- Elements of related lists that correspond. -/
theorem exists_left_of_forall₂ {P : α → β → Prop} {l : List α} {l' : List β}
    (h : List.Forall₂ P l l') {b : β} (hb : b ∈ l') : ∃ a ∈ l, P a b := by
  induction h with
  | nil => cases hb
  | cons hP _ ih =>
      rcases List.mem_cons.mp hb with rfl | hb
      · exact ⟨_, List.mem_cons_self, hP⟩
      · obtain ⟨a, ha, hab⟩ := ih hb
        exact ⟨a, List.mem_cons_of_mem _ ha, hab⟩

theorem exists_right_of_forall₂ {P : α → β → Prop} {l : List α} {l' : List β}
    (h : List.Forall₂ P l l') {a : α} (ha : a ∈ l) : ∃ b ∈ l', P a b := by
  induction h with
  | nil => cases ha
  | cons hP _ ih =>
      rcases List.mem_cons.mp ha with rfl | ha
      · exact ⟨_, List.mem_cons_self, hP⟩
      · obtain ⟨b, hb, hab⟩ := ih ha
        exact ⟨b, List.mem_cons_of_mem _ hb, hab⟩

/-- What holds of any two elements holds of what they correspond to. -/
theorem pairwise_reduceOption_of_forall₂ {P : α → Option β → Prop} {S : α → α → Prop}
    {T : β → β → Prop} {l : List α} {l' : List (Option β)} (h : List.Forall₂ P l l')
    (hS : l.Pairwise S)
    (hT : ∀ a a' b b', S a a' → P a (some b) → P a' (some b') → T b b') :
    l'.reduceOption.Pairwise T := by
  induction h with
  | nil => exact .nil
  | @cons a o l l' hab hall ih =>
      rw [List.pairwise_cons] at hS
      cases o with
      | none => exact ih hS.2
      | some b =>
          rw [List.reduceOption_cons_of_some, List.pairwise_cons]
          refine ⟨?_, ih hS.2⟩
          intro b' hb'
          obtain ⟨a', ha', hab'⟩ := exists_left_of_forall₂ hall (List.reduceOption_mem_iff.mp hb')
          exact hT a a' b b' (hS.1 a' ha') hab hab'

theorem map_eq_map_of_forall₂ {f : α → γ} {g : β → γ} {P : α → β → Prop} {l : List α} {l' : List β}
    (h : List.Forall₂ P l l') (hP : ∀ a b, P a b → g b = f a) : l'.map g = l.map f := by
  induction h with
  | nil => rfl
  | cons hab _ ih => rw [List.map_cons, List.map_cons, hP _ _ hab, ih]

/-- **One element corresponds to one key**, if the keys are distinct. -/
theorem exists_filter_zip [DecidableEq γ] {f : α → γ} {P : α → β → Prop} {l : List α} {l' : List β}
    (h : List.Forall₂ P l l') (hnodup : (l.map f).Nodup) {a : α} (ha : a ∈ l) :
    ∃ b, P a b ∧ ((l.zip l').filter fun q => f q.1 = f a).map Prod.snd = [b] := by
  induction h with
  | nil => cases ha
  | @cons x b l l' hxb hall ih =>
      rw [List.map_cons, List.nodup_cons] at hnodup
      obtain ⟨hfresh, hnodup⟩ := hnodup
      rw [List.zip_cons_cons, List.filter_cons]
      rcases List.mem_cons.mp ha with rfl | ha
      · have hrest : ((l.zip l').filter fun q => f q.1 = f a) = [] := by
          rw [List.filter_eq_nil_iff]
          intro q hq heq
          exact hfresh (of_decide_eq_true heq ▸ List.mem_map_of_mem (List.of_mem_zip hq).1)
        exact ⟨b, hxb, by simp [hrest]⟩
      · have hne : f x ≠ f a := fun heq => hfresh (heq ▸ List.mem_map_of_mem ha)
        obtain ⟨b', hab', hrest⟩ := ih hnodup ha
        exact ⟨b', hab', by simpa [hne] using hrest⟩

/-- Lists are the same up to order when the keys of their elements are. -/
theorem perm_of_perm_map {f : α → β} {s l l' : List α} (hnodup : (s.map f).Nodup)
    (hl : ∀ a ∈ l, a ∈ s) (hl' : l'.Sublist s) (h : (l.map f).Perm (l'.map f)) : l.Perm l' := by
  have hkeys : (l'.map f).Nodup := (hl'.map f).nodup hnodup
  refine (List.perm_ext_iff_of_nodup (h.nodup_iff.mpr hkeys).of_map hkeys.of_map).mpr ?_
  intro a
  constructor
  · intro ha
    obtain ⟨b, hb, heq⟩ := List.mem_map.mp (h.mem_iff.mp (List.mem_map_of_mem ha))
    rwa [List.inj_on_of_nodup_map hnodup (hl a ha) (hl'.subset hb) heq.symm]
  · intro ha
    obtain ⟨b, hb, heq⟩ := List.mem_map.mp (h.mem_iff.mpr (List.mem_map_of_mem ha))
    rwa [List.inj_on_of_nodup_map hnodup (hl'.subset ha) (hl b hb) heq.symm]

/-- What satisfies `p` does or does not satisfy `q`. -/
theorem filter_and_perm (p q : α → Prop) [DecidablePred p] [DecidablePred q] (l : List α) :
    (l.filter (fun a => p a ∧ q a) ++ l.filter fun a => p a ∧ ¬ q a).Perm
      (l.filter fun a => p a) := by
  have hsplit := List.filter_append_perm (fun a => decide (q a)) (l.filter fun a => p a)
  rw [List.filter_filter, List.filter_filter] at hsplit
  refine List.Perm.trans (.of_eq ?_) hsplit
  congr 1 <;> exact List.filter_congr fun a _ => by simp [Bool.and_comm]

/-- A list is what satisfies `p`, what of the rest satisfies `q`, and the
remainder. -/
theorem filter_append_filter_perm (p q : α → Prop) [DecidablePred p] [DecidablePred q]
    (l : List α) : (l.filter (fun a => p a) ++ (l.filter (fun a => ¬ p a ∧ q a) ++
      l.filter fun a => ¬ p a ∧ ¬ q a)).Perm l := by
  have hp := List.filter_append_perm (fun a => decide (p a)) l
  have hq := filter_and_perm (fun a => ¬ p a) q l
  have hrest : (l.filter fun a => ¬ p a) = l.filter fun a => !decide (p a) :=
    List.filter_congr fun a _ => by simp
  rw [hrest] at hq
  exact (hq.append_left _).trans hp

/-- Parts dropped with their element. -/
theorem flatMap_ite {p : α → Prop} [DecidablePred p] {f : α → List β} {l : List α} :
    (l.flatMap fun a => if p a then f a else []) = (l.filter p).flatMap f := by
  induction l with
  | nil => rfl
  | cons a l ih => by_cases ha : p a <;> simp [ha, ih]

/-- **What is left when the first `n` are taken out by their keys**, where no
two elements share one. -/
theorem filter_key_notMem_take [DecidableEq β] {f : α → β} {l : List α}
    (hnodup : (l.map f).Nodup) (n : ℕ) :
    (l.filter fun a => f a ∉ (l.take n).map f) = l.drop n := by
  induction l generalizing n with
  | nil => simp
  | cons a l ih =>
      cases n with
      | zero => simp
      | succ n =>
          rw [List.map_cons, List.nodup_cons] at hnodup
          rw [List.take_succ_cons, List.drop_succ_cons, List.filter_cons_of_neg (by simp),
            ← ih hnodup.2 n]
          refine List.filter_congr fun b hb => ?_
          have hne : f b ≠ f a := fun h => hnodup.1 (h ▸ List.mem_map_of_mem hb)
          simp [hne]

end RetentionEngine
