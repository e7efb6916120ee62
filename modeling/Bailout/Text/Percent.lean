/-!
# Percentages

A share of a total is shown as a percentage with one decimal. The percentage is computed as a
binary floating-point number of 53 significant bits, and that exact number is then rounded to
tenths; both roundings send a half to the even neighbour. Where the exact percentage lies halfway
between two tenths the first rounding decides, as it moves the number off the half.
-/

namespace Bailout.Text

/-- `n / d` rounded to a whole number, a half to the even neighbour. -/
def roundHalfEven (n d : Nat) : Nat :=
  let q := n / d
  let r := n % d
  if d < 2 * r then q + 1
  else if 2 * r = d then q + q % 2
  else q

/-- The number of significant bits of the floating-point numbers. -/
def significandBits : Nat := 53

/-- The floating-point number nearest to `n / d`, as a significand and the power of two that divides
it. It is meant for numbers below `2 ^ 52`, whose last significant bit stands behind the point. -/
def nearestBinary (n d : Nat) : Nat × Nat :=
  let shift :=
    if n / d = 0 then significandBits + (d / n).log2 else significandBits - 1 - (n / d).log2
  (roundHalfEven (n <<< shift) d, shift)

/-- A number of tenths with its decimal point. -/
def tenthsText (t : Nat) : String := s!"{t / 10}.{t % 10}"

/-- `n` as a percentage of `total`, without the sign. -/
def percent (n total : Nat) : String :=
  let (m, shift) := nearestBinary (n * 100) total
  tenthsText (roundHalfEven (m * 10) (1 <<< shift))

/-- Fill up a text with blanks on the left. -/
def padLeft (width : Nat) (s : String) : String :=
  String.ofList (List.replicate (width - s.length) ' ') ++ s

end Bailout.Text
