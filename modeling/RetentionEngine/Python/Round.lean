import Mathlib.Algebra.Order.Floor.Ring
import Mathlib.Algebra.Ring.Int.Parity
import Mathlib.Tactic.Linarith

/-!
# `round`

The built-in of the language, on numbers that are exact.
-/

namespace RetentionEngine

namespace Python

variable {K : Type} [Field K] [LinearOrder K] [FloorRing K]

/-- Python's `round`: to the nearest integer, and to the even one of two. -/
def roundHalfEven (x : K) : ℤ :=
  if x - ⌊x⌋ < 1 / 2 then ⌊x⌋
  else if 1 / 2 < x - ⌊x⌋ then ⌊x⌋ + 1
  else if Even ⌊x⌋ then ⌊x⌋ else ⌊x⌋ + 1

/-- `round(x, digits)`. -/
def roundTo (digits : ℕ) (x : K) : K := roundHalfEven (x * 10 ^ digits) / 10 ^ digits

/-! ## How far a rounded number is off -/

variable [IsStrictOrderedRing K]

/-- A whole number is its own rounding. -/
theorem roundHalfEven_intCast (n : ℤ) : roundHalfEven (n : K) = n := by
  unfold roundHalfEven
  rw [Int.floor_intCast, sub_self, if_pos (by norm_num)]

theorem roundHalfEven_le (x : K) : (roundHalfEven x : K) ≤ x + 1 / 2 := by
  have hfloor := Int.floor_le x
  unfold roundHalfEven
  split
  · linarith
  · split
    · push_cast
      linarith
    · split
      · linarith
      · push_cast
        linarith

omit [IsStrictOrderedRing K] in
theorem roundHalfEven_nonneg {x : K} (h : 0 ≤ ⌊x⌋) : 0 ≤ roundHalfEven x := by
  unfold roundHalfEven
  split_ifs <;> omega

/-- **A number that is rounded up by one half** becomes even. -/
theorem even_roundHalfEven {x : K} (h : (roundHalfEven x : K) = x + 1 / 2) :
    Even (roundHalfEven x) := by
  have hfloor := Int.floor_le x
  revert h
  unfold roundHalfEven
  split
  · intro h
    linarith
  · split
    · intro h
      push_cast at h
      linarith
    · split
      · intro h
        linarith
      · rename_i hodd
        exact fun _ => (Int.not_even_iff_odd.mp hodd).add_one

/-- **What is rounded away**: one half, and what is less. -/
theorem roundHalfEven_nonpos_iff {x : K} : roundHalfEven x ≤ 0 ↔ x ≤ 1 / 2 := by
  have hfloor := Int.floor_le x
  have hlt := Int.lt_floor_add_one x
  -- the floor decides, unless it is zero
  rcases lt_trichotomy ⌊x⌋ 0 with hneg | hzero | hpos
  · have hle : (⌊x⌋ : K) ≤ -1 := by exact_mod_cast Int.le_sub_one_of_lt hneg
    refine iff_of_true ?_ (by linarith)
    unfold roundHalfEven
    split_ifs <;> omega
  · have hcast : (⌊x⌋ : K) = 0 := by exact_mod_cast hzero
    unfold roundHalfEven
    rw [hzero, Int.cast_zero, sub_zero]
    split
    · exact iff_of_true le_rfl (by linarith)
    · split
      · exact iff_of_false (by decide) (by linarith)
      · exact iff_of_true (by decide) (by linarith)
  · have hle : (1 : K) ≤ ⌊x⌋ := by exact_mod_cast hpos
    refine iff_of_false ?_ (by linarith)
    unfold roundHalfEven
    split_ifs <;> omega

/-- **Rounding is symmetric**: halves go to the even number on both sides. -/
theorem roundHalfEven_neg (x : K) : roundHalfEven (-x) = -roundHalfEven x := by
  have hle := Int.floor_le x
  have hlt := Int.lt_floor_add_one x
  rcases hle.eq_or_lt with heq | hlt'
  · -- an integer is not rounded
    have hneg : ⌊-x⌋ = -⌊x⌋ := by rw [← heq, ← Int.cast_neg, Int.floor_intCast, Int.floor_intCast]
    unfold roundHalfEven
    rw [hneg, if_pos (by push_cast; linarith), if_pos (by linarith)]
  · have hneg : ⌊-x⌋ = -⌊x⌋ - 1 := by
      rw [Int.floor_eq_iff]
      push_cast
      exact ⟨by linarith, by linarith⟩
    have hparity : Even (-⌊x⌋ - 1) ↔ ¬ Even ⌊x⌋ := by
      rw [Int.even_sub_one, even_neg]
    unfold roundHalfEven
    rw [hneg]
    push_cast
    rcases lt_trichotomy (x - ⌊x⌋) (1 / 2) with hless | hhalf | hmore
    · rw [if_neg (by linarith), if_pos (by linarith), if_pos hless]
      omega
    · have hless : ¬ x - ⌊x⌋ < 1 / 2 := by linarith
      have hmore : ¬ 1 / 2 < x - ⌊x⌋ := by linarith
      rw [if_neg (by linarith), if_neg (by linarith)]
      simp only [hless, hmore, if_false, hparity]
      split_ifs <;> omega
    · rw [if_pos (by linarith), if_neg (by linarith), if_pos hmore]
      omega

/-- **What is rounded keeps its size**, whatever its sign. -/
theorem natAbs_roundHalfEven (x : K) :
    (((roundHalfEven x).natAbs : ℕ) : K) = (roundHalfEven |x| : K) := by
  rw [Nat.cast_natAbs]
  rcases le_total 0 x with hx | hx
  · have hpos : 0 ≤ roundHalfEven x := roundHalfEven_nonneg (Int.floor_nonneg.mpr hx)
    rw [abs_of_nonneg hx, abs_of_nonneg hpos]
  · have hpos : 0 ≤ roundHalfEven (-x) :=
      roundHalfEven_nonneg (Int.floor_nonneg.mpr (neg_nonneg.mpr hx))
    rw [roundHalfEven_neg] at hpos
    rw [abs_of_nonpos hx, abs_of_nonpos (neg_nonneg.mp hpos), roundHalfEven_neg]

theorem roundTo_neg (digits : ℕ) (x : K) : roundTo digits (-x) = -roundTo digits x := by
  unfold roundTo
  rw [neg_mul, roundHalfEven_neg, Int.cast_neg, neg_div]

end Python

end RetentionEngine
