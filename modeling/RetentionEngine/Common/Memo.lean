import RetentionEngine.Common.Dict
import Mathlib.Data.Option.Basic

/-!
# Calls through a cache

A function is called through a dictionary that keeps its results under a
key. Whatever it would answer later, a key is answered by its first call.
-/

namespace RetentionEngine

variable {κ α β : Type*} [DecidableEq κ]

namespace Memo

variable (key : α → κ) (value : α → β)

/-- One call through the cache: its result, and the cache it leaves. -/
def call (cache : Dict κ β) (a : α) : β × Dict κ β :=
  match cache.get? (key a) with
  | some b => (b, cache)
  | none => (value a, cache.set (key a) (value a))

/-- Calls through one cache, in order. -/
def calls (cache : Dict κ β) : List α → List β × Dict κ β
  | [] => ([], cache)
  | a :: l =>
      let r := call key value cache a
      let rs := calls r.2 l
      (r.1 :: rs.1, rs.2)

variable {key value} {cache : Dict κ β} {l : List α} {a : α} {b : β}

/-- **A call answers what the cache has**, or what it computes. -/
theorem call_fst : (call key value cache a).1 = (cache.get? (key a)).getD (value a) := by
  unfold call
  cases cache.get? (key a) with
  | none => rfl
  | some b => rfl

/-- **A call adds its key to the cache**, if it is new, and nothing else. -/
theorem get?_call_snd (k : κ) : (call key value cache a).2.get? k =
    (cache.get? k).or (if key a = k then some (value a) else none) := by
  unfold call
  cases hcache : cache.get? (key a) with
  | none =>
      dsimp only
      rw [Dict.get?_set]
      by_cases hk : key a = k
      · rw [if_pos hk.symm, if_pos hk, ← hk, hcache, Option.none_or]
      · rw [if_neg (Ne.symm hk), if_neg hk, Option.or_none]
  | some b =>
      dsimp only
      by_cases hk : key a = k
      · rw [← hk, hcache, Option.some_or]
      · rw [if_neg hk, Option.or_none]

/-- **A key is answered by what the cache has of it**, or by its first call. -/
theorem map_some_calls_fst : (calls key value cache l).1.map some =
    l.map fun a => (cache.get? (key a)).or ((l.find? fun b => key b = key a).map value) := by
  induction l generalizing cache with
  | nil => rfl
  | cons a l ih =>
      unfold calls
      rw [List.map_cons, List.map_cons, ih, call_fst, List.find?_cons_of_pos (by simp)]
      refine congrArg₂ List.cons (by cases cache.get? (key a) <;> rfl) ?_
      refine List.map_congr_left fun b _ => ?_
      rw [get?_call_snd, Option.or_assoc, List.find?_cons]
      by_cases hkey : key a = key b
      · simp [hkey]
      · simp [hkey]

theorem length_calls_fst : (calls key value cache l).1.length = l.length := by
  rw [← List.length_map (f := some), map_some_calls_fst, List.length_map]

/-- Calls of one key are answered alike. -/
theorem getElem?_calls_congr {a' : α} {i j : ℕ} (ha : l[i]? = some a) (ha' : l[j]? = some a')
    (hkey : key a = key a') :
    (calls key value cache l).1[i]? = (calls key value cache l).1[j]? := by
  have hread : ∀ k : ℕ, (calls key value cache l).1[k]?.map some = l[k]?.map fun a =>
      (cache.get? (key a)).or ((l.find? fun b => key b = key a).map value) := by
    intro k
    rw [← List.getElem?_map, map_some_calls_fst, List.getElem?_map]
  refine Option.map_injective (Option.some_injective β) ?_
  rw [hread, hread, ha, ha', Option.map_some, Option.map_some, hkey]

/-- **Through a cache that starts empty**, a call is answered by the first
one of its key, which is not a later one. -/
theorem exists_first {i : ℕ} (ha : l[i]? = some a)
    (hb : (calls key value .empty l).1[i]? = some b) :
    ∃ j ≤ i, ∃ a', l[j]? = some a' ∧ key a' = key a ∧ b = value a' ∧
      l.find? (fun c => key c = key a) = some a' := by
  have hread : (calls key value .empty l).1[i]?.map some = l[i]?.map fun a =>
      (Dict.empty.get? (key a)).or ((l.find? fun b => key b = key a).map value) := by
    rw [← List.getElem?_map, map_some_calls_fst, List.getElem?_map]
  rw [ha, hb, Option.map_some, Option.map_some, Option.some.injEq] at hread
  obtain ⟨a', hfind, rfl⟩ := Option.map_eq_some_iff.mp hread.symm
  obtain ⟨hkey, j, hj, hat, hbefore⟩ := List.find?_eq_some_iff_getElem.mp hfind
  refine ⟨j, ?_, a', ?_, of_decide_eq_true hkey, rfl, hfind⟩
  · by_contra hlater
    obtain ⟨hi, hget⟩ := List.getElem?_eq_some_iff.mp ha
    have hnot := hbefore i (Nat.lt_of_not_le hlater)
    rw [hget] at hnot
    simp at hnot
  · rw [List.getElem?_eq_getElem hj, hat]

end Memo

end RetentionEngine
