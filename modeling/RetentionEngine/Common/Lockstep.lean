import Mathlib.Data.Nat.Notation

/-!
# Two runs in step

Programs that read and change a state and may raise; an exception leaves the
state as it is then. A program keeps a relation if two runs of it, from
related states, come to the same value or exception and to related states
again. What keeps a relation is closed under everything a program is put
together with, so that a property of two runs is shown call by call, and an
invariant of one run (`Both`) too.
-/

namespace RetentionEngine

/-- **A program** over states `σ` that may raise an `ε`. -/
def Prog (σ ε α : Type) : Type := σ → Except ε α × σ

namespace Prog

variable {σ τ ε α β : Type}

instance : Monad (Prog σ ε) where
  pure a s := (.ok a, s)
  bind m f s :=
    match m s with
    | (.ok a, t) => f a t
    | (.error e, t) => (.error e, t)

/-- What `f` makes of the state. -/
def read (f : σ → α) : Prog σ ε α := fun s => (.ok (f s), s)

def modify (f : σ → σ) : Prog σ ε Unit := fun s => (.ok (), f s)

/-- A value, or an exception. -/
def lift (x : Except ε α) : Prog σ ε α := fun s => (x, s)

def raise (e : ε) : Prog σ ε α := lift (.error e)

/-- What a program comes to, its exception caught. -/
def attempt (m : Prog σ ε α) : Prog σ ε (Except ε α) := fun s => (.ok (m s).1, (m s).2)

/-- A program that takes back what it did if it raises. -/
def atomically (m : Prog σ ε α) : Prog σ ε α := fun s =>
  match m s with
  | (.ok a, t) => (.ok a, t)
  | (.error e, _) => (.error e, s)

/-- A program on a part of the state. -/
def zoom (get : σ → τ) (set : τ → σ → σ) (m : Prog τ ε α) : Prog σ ε α := fun s =>
  ((m (get s)).1, set (m (get s)).2 s)

/-- A program with a state of its own beside that of the caller. -/
def within (init : τ) (m : Prog (τ × σ) ε α) : Prog σ ε α := fun s =>
  ((m (init, s)).1, (m (init, s)).2.2)

/-- **Two runs in step**: the same result, and related states. -/
def Keeps (R : σ → σ → Prop) (m : Prog σ ε α) : Prop :=
  ∀ s s', R s s' → (m s).1 = (m s').1 ∧ R (m s).2 (m s').2

/-- **A property of one state**, as a relation of two. -/
def Both (p : σ → Prop) (s s' : σ) : Prop := s = s' ∧ p s

variable {R : σ → σ → Prop} {Q : τ → τ → Prop} {m : Prog σ ε α} {f : α → Prog σ ε β} {s : σ}

theorem bind_of_ok {a : α} {t : σ} (h : m s = (.ok a, t)) : (m >>= f) s = f a t := by
  show (match m s with
    | (.ok a, t) => f a t
    | (.error e, t) => (.error e, t)) = _
  rw [h]

theorem bind_of_error {e : ε} {t : σ} (h : m s = (.error e, t)) :
    (m >>= f) s = (.error e, t) := by
  show (match m s with
    | (.ok a, t) => f a t
    | (.error e, t) => (.error e, t)) = _
  rw [h]

theorem exists_of_bind_ok {b : β} {t : σ} (h : (m >>= f) s = (.ok b, t)) :
    ∃ a u, m s = (.ok a, u) ∧ f a u = (.ok b, t) := by
  rcases hm : m s with ⟨r, u⟩
  cases r with
  | error e =>
      rw [bind_of_error hm] at h
      cases h
  | ok a =>
      rw [bind_of_ok hm] at h
      exact ⟨a, u, rfl, h⟩

/-- What comes of a result does not matter to the state. -/
theorem snd_bind_pure {g : α → β} : ((m >>= fun a => (pure (g a) : Prog σ ε β)) s).2 = (m s).2 := by
  rcases hm : m s with ⟨r, t⟩
  cases r with
  | error e => rw [bind_of_error hm]
  | ok a =>
      rw [bind_of_ok hm]
      rfl

/-- All of it is done, or nothing. -/
theorem snd_atomically (m : Prog σ ε α) (s : σ) :
    (m.atomically s).2 = s ∨ (m.atomically s).2 = (m s).2 := by
  unfold atomically
  rcases m s with ⟨r, t⟩
  cases r with
  | error e => exact Or.inl rfl
  | ok a => exact Or.inr rfl

/-- **An invariant is kept.** -/
theorem keeps_both {p : σ → Prop} (h : ∀ s, p s → p (m s).2) : Keeps (Both p) m := by
  rintro s _ ⟨rfl, hs⟩
  exact ⟨rfl, rfl, h s hs⟩

theorem Keeps.invariant {p : σ → Prop} (h : Keeps (Both p) m) (hs : p s) : p (m s).2 :=
  (h s s ⟨rfl, hs⟩).2.2

namespace Keeps

theorem pure (a : α) : Keeps R (Pure.pure a : Prog σ ε α) := fun _ _ h => ⟨rfl, h⟩

theorem lift (x : Except ε α) : Keeps R (Prog.lift x) := fun _ _ h => ⟨rfl, h⟩

theorem raise (e : ε) : Keeps R (Prog.raise e : Prog σ ε α) := lift _

theorem read {f : σ → α} (hf : ∀ s s', R s s' → f s = f s') :
    Keeps R (Prog.read f : Prog σ ε α) := fun s s' h => ⟨congrArg Except.ok (hf s s' h), h⟩

theorem modify {f : σ → σ} (hf : ∀ s s', R s s' → R (f s) (f s')) :
    Keeps R (Prog.modify f : Prog σ ε Unit) := fun s s' h => ⟨rfl, hf s s' h⟩

/-- **One after the other**, where `p` is known of the value in between. -/
theorem bindOf {p : α → Prop} (hm : Keeps R m)
    (hp : ∀ s s' a t, R s s' → m s = (.ok a, t) → p a) (hf : ∀ a, p a → Keeps R (f a)) :
    Keeps R (m >>= f) := by
  intro s s' h
  obtain ⟨hresult, hstates⟩ := hm s s' h
  rcases hs : m s with ⟨r, t⟩
  rcases hs' : m s' with ⟨r', t'⟩
  rw [hs, hs'] at hresult hstates
  obtain rfl : r = r' := hresult
  cases r with
  | error e =>
      rw [bind_of_error hs, bind_of_error hs']
      exact ⟨rfl, hstates⟩
  | ok a =>
      rw [bind_of_ok hs, bind_of_ok hs']
      exact hf a (hp s s' a t h hs) t t' hstates

theorem bind (hm : Keeps R m) (hf : ∀ a, Keeps R (f a)) : Keeps R (m >>= f) :=
  hm.bindOf (p := fun _ => True) (fun _ _ _ _ _ _ => trivial) fun a _ => hf a

/-- A value that is known, or an exception, and what comes after it. -/
theorem bindLift {x : Except ε α} (hf : ∀ a, x = .ok a → Keeps R (f a)) :
    Keeps R (Prog.lift x >>= f) :=
  (lift x).bindOf (p := fun a => x = .ok a)
    (fun _ _ _ _ _ hrun => (Prod.mk.inj hrun).1) hf

/-- **An exception that is caught** is one value more. -/
theorem attempt (hm : Keeps R m) : Keeps R m.attempt := fun s s' h =>
  ⟨congrArg Except.ok (hm s s' h).1, (hm s s' h).2⟩

/-- **What is taken back** was related before. -/
theorem atomically (hm : Keeps R m) : Keeps R m.atomically := by
  intro s s' h
  obtain ⟨hresult, hstates⟩ := hm s s' h
  unfold Prog.atomically
  rcases hs : m s with ⟨r, t⟩
  rcases hs' : m s' with ⟨r', t'⟩
  rw [hs, hs'] at hresult hstates
  obtain rfl : r = r' := hresult
  cases r with
  | error e => exact ⟨rfl, h⟩
  | ok a => exact ⟨rfl, hstates⟩

theorem forM {l : List α} {f : α → Prog σ ε PUnit} (hf : ∀ a ∈ l, Keeps R (f a)) :
    Keeps R (l.forM f) := by
  induction l with
  | nil => exact pure _
  | cons a l ih =>
      show Keeps R (f a >>= fun _ => l.forM f)
      exact (hf a List.mem_cons_self).bind fun _ =>
        ih fun b hb => hf b (List.mem_cons_of_mem _ hb)

theorem optionForM {o : Option α} {f : α → Prog σ ε PUnit} (hf : ∀ a ∈ o, Keeps R (f a)) :
    Keeps R (o.forM f) := by
  cases o with
  | none => exact pure _
  | some a => exact hf a rfl

theorem foldlM {l : List α} {f : β → α → Prog σ ε β} (hf : ∀ b, ∀ a ∈ l, Keeps R (f b a))
    (b : β) : Keeps R (l.foldlM f b) := by
  induction l generalizing b with
  | nil => exact pure _
  | cons a l ih =>
      rw [List.foldlM_cons]
      exact (hf b a List.mem_cons_self).bind fun b' =>
        ih (fun c d hd => hf c d (List.mem_cons_of_mem _ hd)) b'

theorem zoom {get : σ → τ} {set : τ → σ → σ} {m : Prog τ ε α} (hm : Keeps Q m)
    (hget : ∀ s s', R s s' → Q (get s) (get s'))
    (hset : ∀ s s' t t', R s s' → Q t t' → R (set t s) (set t' s')) :
    Keeps R (Prog.zoom get set m) := by
  intro s s' h
  obtain ⟨hresult, hstates⟩ := hm _ _ (hget s s' h)
  exact ⟨hresult, hset s s' _ _ h hstates⟩

theorem within {init : τ} {m : Prog (τ × σ) ε α}
    (hm : Keeps (fun x x' => x.1 = x'.1 ∧ R x.2 x'.2) m) : Keeps R (Prog.within init m) := by
  intro s s' h
  obtain ⟨hresult, hstates⟩ := hm (init, s) (init, s') ⟨rfl, h⟩
  exact ⟨hresult, hstates.2⟩

end Keeps

end Prog

end RetentionEngine
