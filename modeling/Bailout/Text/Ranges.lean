/-!
# Ranges of characters

A class of characters given as a list of ranges of code points.
-/

namespace Bailout.Text

/-- Ranges of code points in ascending order, each given by its first and its last member. -/
abbrev Ranges := List (Nat × Nat)

namespace Ranges

/-- Whether a code point lies in one of the ranges. -/
def covers (rs : Ranges) (n : Nat) : Bool := rs.any fun r => r.1 ≤ n && n ≤ r.2

end Ranges
end Bailout.Text
