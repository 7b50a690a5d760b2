import RetentionEngine.Contracts.Decision
import RetentionEngine.Contracts.Hashes
import Mathlib.Data.Int.Basic

/-!
# Arm assignment

`measurement.assignment`: the arm of a unit is a function of the tenant,
the experiment, the unit and the secret.
-/

namespace RetentionEngine

namespace Measurement

variable (h : Hashes)

/-- `bucket`; the error is the text of its `ValueError`. -/
def bucket (tenantId experimentId userPseudonym secret : String) : Except String ℕ :=
  if secret = "" then .error "measurement secret must not be empty"
  else .ok (h.hmacSha256 secret (tenantId ++ ":" ++ experimentId ++ ":" ++ userPseudonym) % 100)

/-- `assign_arm`. -/
def assignArm (tenantId experimentId userPseudonym secret : String) (controlPct naivePct : ℤ) :
    Except String Arm :=
  if controlPct < 0 ∨ naivePct < 0 ∨ 100 < controlPct + naivePct then
    .error "arm percentages must be non-negative and sum to at most 100"
  else do
    let b ← bucket h tenantId experimentId userPseudonym secret
    if (b : ℤ) < controlPct then return .control
    if (b : ℤ) < controlPct + naivePct then return .naive
    return .engine

/-- The arm of a bucket. -/
def bandOf (b : ℕ) (controlPct naivePct : ℤ) : Arm :=
  if (b : ℤ) < controlPct then .control
  else if (b : ℤ) < controlPct + naivePct then .naive
  else .engine

/-- Percentages `assign_arm` accepts. -/
def ValidPcts (controlPct naivePct : ℤ) : Prop :=
  0 ≤ controlPct ∧ 0 ≤ naivePct ∧ controlPct + naivePct ≤ 100

instance (controlPct naivePct : ℤ) : Decidable (ValidPcts controlPct naivePct) :=
  inferInstanceAs (Decidable (_ ∧ _))

variable {h} {tenantId experimentId userPseudonym secret : String} {controlPct naivePct : ℤ}
  {arm : Arm}

/-- **What `assign_arm` does**: under valid percentages and a secret it
returns the arm of the unit's bucket, and otherwise it raises. -/
theorem assignArm_eq_ok :
    assignArm h tenantId experimentId userPseudonym secret controlPct naivePct =
    .ok arm ↔ ValidPcts controlPct naivePct ∧ secret ≠ "" ∧
      arm = bandOf (h.hmacSha256 secret (tenantId ++ ":" ++ experimentId ++ ":" ++ userPseudonym) %
        100) controlPct naivePct := by
  unfold assignArm bucket ValidPcts bandOf
  by_cases hpcts : controlPct < 0 ∨ naivePct < 0 ∨ 100 < controlPct + naivePct
  · rw [if_pos hpcts]
    refine iff_of_false nofun ?_
    rintro ⟨⟨hcontrol, hnaive, hsum⟩, -⟩
    omega
  · have hvalid : 0 ≤ controlPct ∧ 0 ≤ naivePct ∧ controlPct + naivePct ≤ 100 := by omega
    rw [if_neg hpcts]
    by_cases hsecret : secret = ""
    · rw [if_pos hsecret]
      exact iff_of_false nofun fun hall => hall.2.1 hsecret
    · rw [if_neg hsecret]
      generalize h.hmacSha256 secret _ % 100 = b
      have hreturns : (do
          let b ← (.ok b : Except String ℕ)
          if (b : ℤ) < controlPct then return .control
          if (b : ℤ) < controlPct + naivePct then return .naive
          return .engine) = (.ok (if (b : ℤ) < controlPct then .control
            else if (b : ℤ) < controlPct + naivePct then .naive else .engine) :
              Except String Arm) := by
        change (if (b : ℤ) < controlPct then _ else _) = _
        split
        · rfl
        · split <;> rfl
      rw [hreturns, Except.ok.injEq]
      exact ⟨fun heq => ⟨hvalid, hsecret, heq.symm⟩, fun hall => hall.2.2.symm⟩

end Measurement

end RetentionEngine
