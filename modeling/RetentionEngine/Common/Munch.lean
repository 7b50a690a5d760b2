import Mathlib.Data.List.TakeWhile

/-!
# Maximal munch

Scans of a text from left to right, each as one structural recursion. A
substitution of the maximal runs of one kind of element, and the matches of
a pattern that asks for a first element and takes all that may follow it.
What is read is stated by where a text is cut: a run ends where an element
of another kind stands.
-/

namespace RetentionEngine

namespace Munch

variable {α : Type*}

/-! ## Runs -/

/-- The maximal runs of `p`, `run` being the one that is read. Between two
elements that stand next to each other there is an empty one. -/
def runs (p : α → Bool) (run : List α) : List α → List (List α)
  | [] => [run]
  | a :: l => if p a then runs p (run ++ [a]) l else run :: runs p [] l

/-- The text with every maximal run replaced. -/
def mapRuns (p : α → Bool) (f : List α → List α) (run : List α) : List α → List α
  | [] => f run
  | a :: l => if p a then mapRuns p f (run ++ [a]) l else f run ++ a :: mapRuns p f [] l

variable {p : α → Bool} {f : List α → List α} {run l l' : List α} {a : α}

theorem mapRuns_of_pos (ha : p a = true) :
    mapRuns p f run (a :: l) = mapRuns p f (run ++ [a]) l := if_pos ha

theorem mapRuns_of_neg (ha : p a = false) :
    mapRuns p f run (a :: l) = f run ++ a :: mapRuns p f [] l :=
  if_neg (by rw [ha]; exact Bool.false_ne_true)

/-- **A run ends at an element of another kind.** -/
theorem mapRuns_append_cons (ha : p a = false) :
    mapRuns p f run (l ++ a :: l') = mapRuns p f run l ++ a :: mapRuns p f [] l' := by
  induction l generalizing run with
  | nil => exact mapRuns_of_neg ha
  | cons b l ih =>
      rw [List.cons_append]
      cases hb : p b with
      | true => rw [mapRuns_of_pos hb, mapRuns_of_pos hb, ih]
      | false => rw [mapRuns_of_neg hb, mapRuns_of_neg hb, ih, List.append_assoc, List.cons_append]

/-- Elements of another kind are kept. -/
theorem mapRuns_append_of_all (hf : f [] = []) (h : ∀ a ∈ l, p a = false) :
    mapRuns p f [] (l ++ l') = l ++ mapRuns p f [] l' := by
  induction l with
  | nil => rfl
  | cons a l ih =>
      rw [List.cons_append, mapRuns_of_neg (h a List.mem_cons_self), hf, List.nil_append,
        ih fun b hb => h b (List.mem_cons_of_mem _ hb), List.cons_append]

/-- **Where every run is kept, so is the text.** -/
theorem mapRuns_eq_of_runs (h : ∀ r ∈ runs p run l, f r = r) : mapRuns p f run l = run ++ l := by
  induction l generalizing run with
  | nil =>
      rw [List.append_nil]
      exact h run (List.mem_singleton_self _)
  | cons a l ih =>
      unfold runs at h
      split at h
      · rename_i ha
        rw [mapRuns_of_pos ha, ih h, List.append_assoc, List.singleton_append]
      · rename_i ha
        rw [mapRuns_of_neg (Bool.eq_false_iff.mpr ha), h run List.mem_cons_self,
          ih fun r hr => h r (List.mem_cons_of_mem _ hr), List.nil_append]

theorem runs_of_pos (ha : p a = true) : runs p run (a :: l) = runs p (run ++ [a]) l := if_pos ha

theorem runs_of_neg (ha : p a = false) : runs p run (a :: l) = run :: runs p [] l :=
  if_neg (by rw [ha]; exact Bool.false_ne_true)

/-- The runs on both sides of an element of another kind. -/
theorem runs_append_cons (ha : p a = false) :
    runs p run (l ++ a :: l') = runs p run l ++ runs p [] l' := by
  induction l generalizing run with
  | nil => exact runs_of_neg ha
  | cons b l ih =>
      rw [List.cons_append]
      cases hb : p b with
      | true => rw [runs_of_pos hb, runs_of_pos hb, ih]
      | false => rw [runs_of_neg hb, runs_of_neg hb, ih, List.cons_append]

/-- Only the kinds of the elements count. -/
theorem runs_congr {q : α → Bool} (h : ∀ a ∈ l, p a = q a) : runs p run l = runs q run l := by
  induction l generalizing run with
  | nil => rfl
  | cons a l ih =>
      have hl : ∀ b ∈ l, p b = q b := fun b hb => h b (List.mem_cons_of_mem _ hb)
      unfold runs
      rw [h a List.mem_cons_self, ih hl, ih hl]

/-- Elements of one kind are one run. -/
theorem runs_of_all (h : ∀ a ∈ l, p a = true) : runs p run l = [run ++ l] := by
  induction l generalizing run with
  | nil =>
      rw [List.append_nil]
      rfl
  | cons a l ih =>
      rw [runs_of_pos (h a List.mem_cons_self), ih fun b hb => h b (List.mem_cons_of_mem _ hb),
        List.append_assoc, List.singleton_append]

/-- Runs are what elements of another kind separate. -/
theorem runs_eq_splitOnP :
    runs p run l = (l.splitOnP fun a => !p a).modifyHead fun r => run ++ r := by
  induction l generalizing run with
  | nil => simp [runs]
  | cons a l ih =>
      rw [List.splitOnP_cons_eq_if_modifyHead]
      cases ha : p a with
      | true =>
          rw [runs_of_pos ha, ih, Bool.not_true, if_neg Bool.false_ne_true,
            List.modifyHead_modifyHead]
          congr 1
          funext r
          simp
      | false =>
          rw [runs_of_neg ha, ih, Bool.not_false, if_pos rfl, List.modifyHead_cons, List.append_nil]
          cases l.splitOnP fun a => !p a <;> rfl

/-- Every run stands in the text. -/
theorem infix_of_mem_runs {r : List α} (hr : r ∈ runs p run l) : r <:+: run ++ l := by
  induction l generalizing run with
  | nil =>
      obtain rfl := List.mem_singleton.mp hr
      exact (List.prefix_append r []).isInfix
  | cons a l ih =>
      unfold runs at hr
      split at hr
      · have hin := ih hr
        rwa [List.append_assoc, List.singleton_append] at hin
      · rcases List.mem_cons.mp hr with rfl | hr
        · exact (List.prefix_append _ _).isInfix
        · have hin := ih hr
          rw [List.nil_append] at hin
          exact hin.trans ((List.suffix_cons a l).isInfix.trans (List.suffix_append _ _).isInfix)

/-- What a run becomes comes first. -/
theorem mapRuns_eq_append (p : α → Bool) (f : List α → List α) (run l : List α) :
    mapRuns p f run l = f (run ++ l.takeWhile p) ++
      match l.dropWhile p with
      | [] => []
      | a :: l' => a :: mapRuns p f [] l' := by
  induction l generalizing run with
  | nil => simp [mapRuns]
  | cons a l ih =>
      by_cases ha : p a = true
      · rw [mapRuns_of_pos ha, ih, List.takeWhile_cons_of_pos ha, List.dropWhile_cons_of_pos ha,
          List.append_assoc, List.singleton_append]
      · rw [mapRuns_of_neg (Bool.eq_false_iff.mpr ha), List.takeWhile_cons_of_neg ha,
          List.dropWhile_cons_of_neg ha, List.append_nil]

/-- Where all is one run, it is replaced. -/
theorem mapRuns_of_all (h : ∀ a ∈ l, p a = true) : mapRuns p f run l = f (run ++ l) := by
  induction l generalizing run with
  | nil =>
      rw [List.append_nil]
      rfl
  | cons a l ih =>
      rw [mapRuns_of_pos (h a List.mem_cons_self), ih fun b hb => h b (List.mem_cons_of_mem _ hb),
        List.append_assoc, List.singleton_append]

/-! ## Matches -/

/-- The matches of an element that `starts` after what stands before it, and
of all elements `inside` that follow: each with what stands before it. `cur`
is the match that is read. -/
def scan (starts : List α → α → Bool) (inside : α → Bool) (pre : List α) :
    Option (List α × List α) → List α → List (List α × List α)
  | cur, [] => cur.toList
  | some m, a :: l =>
      if inside a then scan starts inside (pre ++ [a]) (some (m.1, m.2 ++ [a])) l
      else m :: scan starts inside (pre ++ [a]) none l
  | none, a :: l =>
      if starts pre a then scan starts inside (pre ++ [a]) (some (pre, [a])) l
      else scan starts inside (pre ++ [a]) none l

variable {starts : List α → α → Bool} {inside : α → Bool} {pre tok : List α}
  {cur : Option (List α × List α)}

theorem scan_none_of_pos (ha : starts pre a = true) :
    scan starts inside pre none (a :: l) = scan starts inside (pre ++ [a]) (some (pre, [a])) l :=
  if_pos ha

theorem scan_none_of_neg (ha : starts pre a = false) :
    scan starts inside pre none (a :: l) = scan starts inside (pre ++ [a]) none l :=
  if_neg (by rw [ha]; exact Bool.false_ne_true)

theorem scan_some_of_pos {m : List α × List α} (ha : inside a = true) :
    scan starts inside pre (some m) (a :: l) =
      scan starts inside (pre ++ [a]) (some (m.1, m.2 ++ [a])) l :=
  if_pos ha

theorem scan_some_of_neg {m : List α × List α} (ha : inside a = false) :
    scan starts inside pre (some m) (a :: l) = m :: scan starts inside (pre ++ [a]) none l :=
  if_neg (by rw [ha]; exact Bool.false_ne_true)

/-- **A match takes all it can.** -/
theorem mem_scan_of_cur {m : List α × List α} (htok : ∀ b ∈ tok, inside b = true)
    (hstop : ∀ b ∈ l.head?, inside b = false) :
    (m.1, m.2 ++ tok) ∈ scan starts inside pre (some m) (tok ++ l) := by
  induction tok generalizing pre m with
  | nil =>
      rw [List.append_nil, List.nil_append]
      cases l with
      | nil => exact List.mem_singleton_self _
      | cons b l =>
          unfold scan
          rw [if_neg (by rw [hstop b rfl]; exact Bool.false_ne_true)]
          exact List.mem_cons_self
  | cons b tok ih =>
      rw [List.cons_append]
      unfold scan
      rw [if_pos (htok b List.mem_cons_self)]
      have hrest : (m.1, m.2 ++ [b] ++ tok) ∈
          scan starts inside (pre ++ [b]) (some (m.1, m.2 ++ [b])) (tok ++ l) :=
        ih fun c hc => htok c (List.mem_cons_of_mem _ hc)
      rwa [List.append_assoc, List.singleton_append] at hrest

/-- **A match ends at an element that is in none**: what follows is scanned
on its own, after what stands before it. -/
theorem scan_append_cons (hout : inside a = false) (hstart : ∀ pre, starts pre a = false) :
    scan starts inside pre cur (l ++ a :: l') =
      scan starts inside pre cur l ++ scan starts inside (pre ++ l ++ [a]) none l' := by
  induction l generalizing pre cur with
  | nil =>
      rw [List.append_nil, List.nil_append]
      cases cur with
      | none => exact scan_none_of_neg (hstart pre)
      | some m => exact scan_some_of_neg hout
  | cons b l ih =>
      have hpre : pre ++ b :: l = pre ++ [b] ++ l := by simp
      rw [List.cons_append, hpre]
      cases cur with
      | none =>
          cases hb : starts pre b with
          | true => rw [scan_none_of_pos hb, scan_none_of_pos hb, ih]
          | false => rw [scan_none_of_neg hb, scan_none_of_neg hb, ih]
      | some m =>
          cases hb : inside b with
          | true => rw [scan_some_of_pos hb, scan_some_of_pos hb, ih]
          | false => rw [scan_some_of_neg hb, scan_some_of_neg hb, ih, List.cons_append]

/-- After an element that is in no match, none is read. -/
theorem mem_scan_append_cons {m : List α × List α} (hout : inside a = false)
    (hstart : ∀ pre, starts pre a = false)
    (h : m ∈ scan starts inside (pre ++ l ++ [a]) none l') :
    m ∈ scan starts inside pre cur (l ++ a :: l') := by
  rw [scan_append_cons hout hstart]
  exact List.mem_append_right _ h

/-- What stands before all of it is with every match. -/
theorem scan_append_left {q : List α} (h : ∀ k a, starts (q ++ k) a = starts k a) :
    scan starts inside (q ++ pre) (cur.map fun m => (q ++ m.1, m.2)) l =
      (scan starts inside pre cur l).map fun m => (q ++ m.1, m.2) := by
  induction l generalizing pre cur with
  | nil => cases cur <;> rfl
  | cons b l ih =>
      have hpre : q ++ pre ++ [b] = q ++ (pre ++ [b]) := List.append_assoc ..
      cases cur with
      | none =>
          rw [Option.map_none]
          cases hb : starts pre b with
          | true =>
              rw [scan_none_of_pos hb, scan_none_of_pos (by rw [h, hb]), hpre, ← ih]
              rfl
          | false =>
              rw [scan_none_of_neg hb, scan_none_of_neg (by rw [h, hb]), hpre, ← ih]
              rfl
      | some m =>
          rw [Option.map_some]
          cases hb : inside b with
          | true =>
              rw [scan_some_of_pos hb, scan_some_of_pos hb, hpre, ← ih]
              rfl
          | false =>
              rw [scan_some_of_neg hb, scan_some_of_neg hb, hpre, List.map_cons, ← ih]
              rfl

/-- Where no match starts, none is found. -/
theorem scan_none_of_not_starts (h : ∀ a ∈ l, ∀ pre, starts pre a = false) :
    scan starts inside pre none l = [] := by
  induction l generalizing pre with
  | nil => rfl
  | cons a l ih =>
      rw [scan_none_of_neg (h a List.mem_cons_self pre)]
      exact ih fun b hb => h b (List.mem_cons_of_mem _ hb)

/-- Where no match starts, one that is read is made longer. -/
theorem scan_some_of_not_starts {m : List α × List α}
    (h : ∀ a ∈ l, ∀ pre, starts pre a = false) :
    scan starts inside pre (some m) l = [(m.1, m.2 ++ l.takeWhile inside)] := by
  induction l generalizing pre m with
  | nil =>
      rw [List.takeWhile_nil, List.append_nil]
      rfl
  | cons a l ih =>
      have hl : ∀ b ∈ l, ∀ pre, starts pre b = false := fun b hb => h b (List.mem_cons_of_mem _ hb)
      cases ha : inside a with
      | true =>
          rw [scan_some_of_pos ha, ih hl, List.takeWhile_cons_of_pos ha, List.append_assoc,
            List.singleton_append]
      | false =>
          rw [scan_some_of_neg ha, scan_none_of_not_starts hl,
            List.takeWhile_cons_of_neg (Bool.eq_false_iff.mp ha), List.append_nil]

/-- A match may take all that is left. -/
theorem scan_some_of_all {m : List α × List α} (h : ∀ b ∈ tok, inside b = true) :
    scan starts inside pre (some m) tok = [(m.1, m.2 ++ tok)] := by
  induction tok generalizing pre m with
  | nil =>
      rw [List.append_nil]
      rfl
  | cons b tok ih =>
      rw [scan_some_of_pos (h b List.mem_cons_self), ih fun c hc => h c (List.mem_cons_of_mem _ hc),
        List.append_assoc, List.singleton_append]

/-- One match, to the end. -/
theorem scan_of_all (hl : ∀ b ∈ l, ∀ pre, starts pre b = false)
    (ha : starts (pre ++ l) a = true) (htok : ∀ b ∈ tok, inside b = true) :
    scan starts inside pre none (l ++ a :: tok) = [(pre ++ l, a :: tok)] := by
  induction l generalizing pre with
  | nil =>
      rw [List.append_nil] at ha ⊢
      rw [List.nil_append, scan_none_of_pos ha, scan_some_of_all htok, List.singleton_append]
  | cons b l ih =>
      have hpre : pre ++ b :: l = pre ++ [b] ++ l := by simp
      rw [hpre] at ha ⊢
      rw [List.cons_append, scan_none_of_neg (hl b List.mem_cons_self pre)]
      exact ih (fun c hc => hl c (List.mem_cons_of_mem _ hc)) ha

/-- **What follows does not count**, if no match starts there and what makes
a match longer is not seen. -/
theorem map_scan_append {β : Type*} {g : List α × List α → β}
    (h : ∀ a ∈ l', ∀ pre, starts pre a = false)
    (hg : ∀ m : List α × List α, g (m.1, m.2 ++ l'.takeWhile inside) = g m) :
    (scan starts inside pre cur (l ++ l')).map g = (scan starts inside pre cur l).map g := by
  induction l generalizing pre cur with
  | nil =>
      rw [List.nil_append]
      cases cur with
      | none =>
          rw [scan_none_of_not_starts h]
          rfl
      | some m =>
          rw [scan_some_of_not_starts h, List.map_singleton, hg]
          rfl
  | cons b l ih =>
      rw [List.cons_append]
      cases cur with
      | none =>
          cases hb : starts pre b with
          | true => rw [scan_none_of_pos hb, scan_none_of_pos hb, ih]
          | false => rw [scan_none_of_neg hb, scan_none_of_neg hb, ih]
      | some m =>
          cases hb : inside b with
          | true => rw [scan_some_of_pos hb, scan_some_of_pos hb, ih]
          | false => rw [scan_some_of_neg hb, scan_some_of_neg hb, List.map_cons, List.map_cons, ih]

/-- **Every match is found**: an element that starts one, at the beginning
or after an element that is in no match, with all that follows it. -/
theorem mem_scan (hpre : ∀ b ∈ pre.getLast?, inside b = false ∧ ∀ pre, starts pre b = false)
    (hstart : starts pre a = true) (htok : ∀ b ∈ tok, inside b = true)
    (hstop : ∀ b ∈ l.head?, inside b = false) :
    (pre, a :: tok) ∈ scan starts inside [] none (pre ++ a :: (tok ++ l)) := by
  have hmatch : (pre, a :: tok) ∈ scan starts inside pre none (a :: (tok ++ l)) := by
    unfold scan
    rw [if_pos hstart]
    exact mem_scan_of_cur (m := (pre, [a])) htok hstop
  cases hlast : pre.getLast? with
  | none =>
      obtain rfl := List.getLast?_eq_none_iff.mp hlast
      exact hmatch
  | some b =>
      obtain ⟨pre₀, rfl⟩ := List.getLast?_eq_some_iff.mp hlast
      obtain ⟨hout, hnot⟩ := hpre b hlast
      rw [List.append_assoc, List.singleton_append]
      exact mem_scan_append_cons hout hnot (by rwa [List.nil_append])

end Munch

end RetentionEngine
