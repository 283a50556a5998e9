import Mathlib.Data.Nat.Notation
import Mathlib.Data.Int.Notation

/-!
# Values the server passes around

The scalar types of the source that every part of the model shares. None of them is computed with
beyond comparison, so each is the plainest type with the same comparisons.
-/

namespace MichiServer

abbrev Uuid := ℕ

/-- `chrono::DateTime<Utc>`, as the instant it names on one time line. -/
abbrev DateTime := ℤ

abbrev F64 := UInt64

end MichiServer
