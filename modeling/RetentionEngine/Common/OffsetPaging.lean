import RetentionEngine.Common.Run
import Mathlib.Data.List.Nodup

/-!
# Paging by offset

A reader pages through a list that changes under it: it asks for the items
from its cursor on, `limit` at a time, and its cursor moves by as many, until
a page comes back short. In between it may remove what it has received, and
others may append. Removing an item moves every later one up by one place,
past the cursor if it stood at it. `allReceived_iff` says that this loses an
item of the first list in every case in which it can.
-/

namespace RetentionEngine

namespace OffsetPaging

variable {α : Type*}

/-- The list, the place the next page starts at (`none` after the last
page), and what was received. -/
structure Pager (α : Type*) where
  items : List α
  cursor : Option ℕ
  received : List α

/-- What happens next. -/
inductive Action (α : Type*)
  /-- The reader asks for the next page. -/
  | page
  /-- It removes an item. -/
  | remove (x : α)
  /-- An item is added at the end. -/
  | append (x : α)
  /-- Something that changes nothing. -/
  | idle

/-- The page at a cursor. -/
def pageAt (limit c : ℕ) (items : List α) : List α := (items.drop c).take limit

/-- The cursor after a page. -/
def nextCursor (limit c : ℕ) (page : List α) : Option ℕ :=
  if page.length = limit then some (c + limit) else none

variable [DecidableEq α]

/-- **One step**; what is appended is new, and not of `first`, the list of
the first page. -/
inductive Step (first : List α) (limit : ℕ) : Pager α → Action α → Pager α → Prop
  | page {s : Pager α} {c : ℕ} (hcursor : s.cursor = some c) :
      Step first limit s .page ⟨s.items, nextCursor limit c (pageAt limit c s.items),
        s.received ++ pageAt limit c s.items⟩
  | remove {s : Pager α} {x : α} (hx : x ∈ s.received) :
      Step first limit s (.remove x) { s with items := s.items.erase x }
  | append {s : Pager α} {x : α} (hfirst : x ∉ first) (hitems : x ∉ s.items)
      (hreceived : x ∉ s.received) :
      Step first limit s (.append x) { s with items := s.items ++ [x] }
  | idle {s : Pager α} : Step first limit s .idle s

/-- **Removals come late enough**: an item that is there is removed only
when no item of `first` stands at the cursor or after it. -/
def Late (first : List α) (s : Pager α) : Action α → Prop
  | .remove x => x ∈ s.items → ∀ c ∈ s.cursor, ∀ y ∈ s.items.drop c, y ∉ first
  | _ => True

/-- **What every step keeps**: no item twice, what is left of `first` before
what was appended, and nothing received from the cursor on. -/
structure Ordered (first : List α) (s : Pager α) : Prop where
  nodup : s.items.Nodup
  split : ∃ old new, s.items = old ++ new ∧ (∀ y ∈ old, y ∈ first) ∧ ∀ y ∈ new, y ∉ first
  ahead : ∀ c ∈ s.cursor, ∀ y ∈ s.items.drop c, y ∉ s.received

/-- Every item of `first` is received or to come. -/
def Covered (first : List α) (s : Pager α) : Prop :=
  ∀ x ∈ first, x ∈ s.received ∨ ∃ c ∈ s.cursor, x ∈ s.items.drop c

/-- An item of `first` is neither. -/
def Missed (first : List α) (s : Pager α) : Prop :=
  ∃ x ∈ first, x ∉ s.received ∧ ∀ c ∈ s.cursor, x ∉ s.items.drop c

variable {first : List α} {limit : ℕ} {init s s' : Pager α} {a : Action α} {x : α}
  {tr : List (Transition (Pager α) (Action α))}

omit [DecidableEq α] in
theorem eq_nextCursor {c c' : ℕ} {page : List α} (h : c' ∈ nextCursor limit c page) :
    c' = c + limit := by
  unfold nextCursor at h
  rw [Option.mem_def, Option.ite_none_right_eq_some] at h
  exact (Option.some.inj h.2).symm

omit [DecidableEq α] in
/-- **What is from the cursor on** is on the page or still to come. -/
theorem mem_pageAt_or_mem_drop {c : ℕ} {items : List α} (hx : x ∈ items.drop c) :
    x ∈ pageAt limit c items ∨ ∃ c' ∈ nextCursor limit c (pageAt limit c items),
      x ∈ items.drop c' := by
  unfold nextCursor
  have hsplit : x ∈ (items.drop c).take limit ++ (items.drop c).drop limit := by
    rwa [List.take_append_drop]
  rcases List.mem_append.mp hsplit with hpage | hlater
  · exact Or.inl hpage
  · -- a page something comes after is full
    have hlong : limit < (items.drop c).length := by
      have hpos := List.length_pos_of_mem hlater
      rw [List.length_drop] at hpos
      omega
    have hfull : (pageAt limit c items).length = limit := by
      unfold pageAt
      rw [List.length_take]
      omega
    refine Or.inr ⟨c + limit, ?_, ?_⟩
    · rw [if_pos hfull]
      rfl
    · rwa [List.drop_drop] at hlater

/-! ## One step -/

/-- What is from the cursor on after a removal was so before. -/
theorem mem_drop_of_mem_erase_drop {c : ℕ} {items : List α} {y : α}
    (h : y ∈ (items.erase x).drop c) : y ∈ items.drop c :=
  (List.erase_sublist.drop c).subset h

theorem ordered_step (hordered : Ordered first s) (h : Step first limit s a s') :
    Ordered first s' := by
  obtain ⟨hnodup, ⟨old, new, hsplit, hold, hnew⟩, hahead⟩ := hordered
  cases h with
  | @page c hcursor =>
      refine ⟨hnodup, ⟨old, new, hsplit, hold, hnew⟩, ?_⟩
      intro c' hc' y hy hreceived
      obtain rfl := eq_nextCursor hc'
      have hlater : y ∈ (s.items.drop c).drop limit := by rwa [List.drop_drop]
      rcases List.mem_append.mp hreceived with hreceived | hpage
      · exact hahead c hcursor y (List.mem_of_mem_drop hlater) hreceived
      · have hparts : ((s.items.drop c).take limit ++ (s.items.drop c).drop limit).Nodup := by
          rw [List.take_append_drop]
          exact hnodup.sublist (List.drop_sublist _ _)
        exact (List.nodup_append.mp hparts).2.2 y hpage y hlater rfl
  | @remove x hx =>
      refine ⟨hnodup.sublist List.erase_sublist, ?_, ?_⟩
      · by_cases hmem : x ∈ old
        · refine ⟨old.erase x, new, ?_, ?_, hnew⟩
          · show s.items.erase x = _
            rw [hsplit, List.erase_append_left _ hmem]
          · exact fun y hy => hold y (List.mem_of_mem_erase hy)
        · refine ⟨old, new.erase x, ?_, hold, ?_⟩
          · show s.items.erase x = _
            rw [hsplit, List.erase_append_right _ hmem]
          · exact fun y hy => hnew y (List.mem_of_mem_erase hy)
      · intro c hc y hy
        exact hahead c hc y (mem_drop_of_mem_erase_drop hy)
  | @append x hfirst hitems hreceived =>
      refine ⟨?_, ⟨old, new ++ [x], ?_, hold, ?_⟩, ?_⟩
      · exact List.nodup_append.mpr ⟨hnodup, List.nodup_singleton x, fun y hy z hz heq =>
          hitems (List.mem_singleton.mp hz ▸ heq ▸ hy)⟩
      · show s.items ++ [x] = _
        rw [hsplit, List.append_assoc]
      · intro y hy
        rcases List.mem_append.mp hy with hy | hy
        · exact hnew y hy
        · rwa [List.mem_singleton.mp hy]
      · intro c hc y hy
        rw [List.drop_append] at hy
        rcases List.mem_append.mp hy with hy | hy
        · exact hahead c hc y hy
        · rwa [List.mem_singleton.mp (List.mem_of_mem_drop hy)]
  | idle => exact ⟨hnodup, ⟨old, new, hsplit, hold, hnew⟩, hahead⟩

/-- **A step with late removals keeps everything received or to come.** -/
theorem covered_step (hcovered : Covered first s) (h : Step first limit s a s')
    (hlate : Late first s a) : Covered first s' := by
  intro x hx
  rcases hcovered x hx with hreceived | ⟨c, hc, hahead⟩
  · left
    cases h with
    | page _ => exact List.mem_append_left _ hreceived
    | remove _ => exact hreceived
    | append _ _ _ => exact hreceived
    | idle => exact hreceived
  · cases h with
    | @page c' hcursor =>
        obtain rfl : c' = c := Option.some.inj (hcursor.symm.trans hc)
        exact (mem_pageAt_or_mem_drop hahead).imp_left (List.mem_append_right _)
    | @remove y hy =>
        by_cases hmem : y ∈ s.items
        · exact absurd hx (hlate hmem c hc x hahead)
        · refine Or.inr ⟨c, hc, ?_⟩
          show x ∈ (s.items.erase y).drop c
          rwa [List.erase_of_not_mem hmem]
    | append _ _ _ =>
        refine Or.inr ⟨c, hc, ?_⟩
        show x ∈ (s.items ++ _).drop c
        rw [List.drop_append]
        exact List.mem_append_left _ hahead
    | idle => exact Or.inr ⟨c, hc, hahead⟩

/-- **What is missed stays missed.** -/
theorem missed_step (hmissed : Missed first s) (h : Step first limit s a s') :
    Missed first s' := by
  obtain ⟨x, hx, hreceived, hbehind⟩ := hmissed
  refine ⟨x, hx, ?_⟩
  cases h with
  | @page c hcursor =>
      have hdrop := hbehind c hcursor
      refine ⟨?_, ?_⟩
      · intro hmem
        rcases List.mem_append.mp hmem with hmem | hpage
        · exact hreceived hmem
        · exact hdrop (List.mem_of_mem_take hpage)
      · intro c' hc' hlater
        obtain rfl := eq_nextCursor hc'
        rw [← List.drop_drop] at hlater
        exact hdrop (List.mem_of_mem_drop hlater)
  | remove _ =>
      exact ⟨hreceived, fun c hc hmem => hbehind c hc (mem_drop_of_mem_erase_drop hmem)⟩
  | @append y hfirst _ _ =>
      refine ⟨hreceived, ?_⟩
      intro c hc hmem
      rw [List.drop_append] at hmem
      rcases List.mem_append.mp hmem with hmem | hmem
      · exact hbehind c hc hmem
      · rw [List.mem_singleton.mp (List.mem_of_mem_drop hmem)] at hx
        exact hfirst hx
  | idle => exact ⟨hreceived, hbehind⟩

/-- Removing an item before place `c` moves the one at `c` there. -/
theorem drop_erase_of_mem_take {c : ℕ} {items : List α} (hx : x ∈ items.take c) :
    (items.erase x).drop c = items.drop (c + 1) := by
  induction items generalizing c with
  | nil => simp at hx
  | cons y items ih =>
      cases c with
      | zero => simp at hx
      | succ c =>
          rw [List.take_succ_cons, List.mem_cons] at hx
          by_cases heq : y = x
          · rw [heq, List.erase_cons_head, List.drop_succ_cons]
          · have hmem : x ∈ items.take c := hx.resolve_left (Ne.symm heq)
            rw [List.erase_cons_tail (by simpa using heq), List.drop_succ_cons, ih hmem,
              List.drop_succ_cons]

/-- **A removal that comes too early loses an item**: the one at the cursor. -/
theorem missed_of_not_late (hordered : Ordered first s) (h : Step first limit s a s')
    (hlate : ¬ Late first s a) : Missed first s' := by
  obtain ⟨hnodup, ⟨old, new, hsplit, hold, hnew⟩, hahead⟩ := hordered
  cases h with
  | page _ => exact absurd trivial hlate
  | append _ _ _ => exact absurd trivial hlate
  | idle => exact absurd trivial hlate
  | @remove x hx =>
      unfold Late at hlate
      push Not at hlate
      obtain ⟨hmem, c, hc, y, hy, hyfirst⟩ := hlate
      -- the item at the cursor is of `first`, as a later one is
      have hlong : c < old.length := by
        by_contra hshort
        rw [hsplit, List.drop_append, List.drop_eq_nil_of_le (by omega), List.nil_append] at hy
        exact hnew y (List.mem_of_mem_drop hy) hyfirst
      have hc' : c < s.items.length := by
        rw [hsplit, List.length_append]
        omega
      have hcons : s.items.drop c = s.items[c] :: s.items.drop (c + 1) :=
        List.drop_eq_getElem_cons hc'
      have hfirst : s.items[c] ∈ first := by
        have hget : s.items[c] = old[c] := by
          simp only [hsplit, List.getElem_append_left hlong]
        rw [hget]
        exact hold _ (List.getElem_mem hlong)
      have hbefore : x ∈ s.items.take c := by
        rw [← List.take_append_drop c s.items] at hmem
        exact (List.mem_append.mp hmem).resolve_right fun h => hahead c ‹_› x h hx
      refine ⟨s.items[c], hfirst, hahead c ‹_› _ (hcons ▸ List.mem_cons_self), ?_⟩
      intro c' hcursor hin
      obtain rfl : c' = c := Option.some.inj (hcursor.symm.trans ‹_›)
      have hnodup' : (s.items.drop c').Nodup := hnodup.sublist (List.drop_sublist _ _)
      rw [hcons, List.nodup_cons] at hnodup'
      rw [drop_erase_of_mem_take hbefore] at hin
      exact hnodup'.1 hin

/-! ## Over a whole session -/

/-- **Every item of the first list is received exactly when every removal
comes late.** For every list, every limit and every course of a session, up
to its last page. -/
theorem allReceived_iff (hnodup : first.Nodup)
    (hrun : Run (Step first limit) ⟨first, some 0, []⟩ tr s) (hdone : s.cursor = none) :
    (∀ x ∈ first, x ∈ s.received) ↔ ∀ t ∈ tr, Late first t.pre t.act := by
  have hinit : Ordered first (⟨first, some 0, []⟩ : Pager α) :=
    ⟨hnodup, ⟨first, [], (List.append_nil _).symm, fun _ hy => hy, fun _ hy => by cases hy⟩,
      fun _ _ _ _ hy => by cases hy⟩
  constructor
  · intro hall
    have hmissed : (∃ t ∈ tr, ¬ Late first t.pre t.act) → Missed first s := by
      refine hrun.history (G := fun _ _ => True)
        (P := fun tr s => (∃ t ∈ tr, ¬ Late first t.pre t.act) → Missed first s)
        (fun _ _ => trivial) (fun h => ?_) ?_
      · obtain ⟨t, ht, -⟩ := h
        cases ht
      · intro tr s a s' hrun ih hstep _ hearly
        have hordered : Ordered first s := hrun.invariant' hinit fun _ _ _ => ordered_step
        obtain ⟨t, ht, hearly⟩ := hearly
        rcases List.mem_append.mp ht with ht | ht
        · exact missed_step (ih ⟨t, ht, hearly⟩) hstep
        · rw [List.mem_singleton.mp ht] at hearly
          exact missed_of_not_late hordered hstep hearly
    by_contra hearly
    push Not at hearly
    obtain ⟨x, hx, hreceived, -⟩ := hmissed hearly
    exact hreceived (hall x hx)
  · intro hlate x hx
    have hcovered : Covered first s :=
      hrun.invariant hlate (fun x hx => Or.inr ⟨0, rfl, hx⟩) fun _ _ _ => covered_step
    rcases hcovered x hx with hreceived | ⟨c, hc, -⟩
    · exact hreceived
    · rw [hdone] at hc
      cases hc

end OffsetPaging

end RetentionEngine
