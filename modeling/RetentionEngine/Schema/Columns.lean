import Mathlib.Data.Int.Notation
import Mathlib.Data.Nat.Notation

/-!
# Column types

What every table's rows are made of.
-/

namespace RetentionEngine

/-- A UUID, compared and nothing else. -/
abbrev Uuid := ℕ

/-- A timestamp with time zone: an instant, in seconds. -/
abbrev Timestamp := ℤ

end RetentionEngine
