import DisplayLogic.Number.Magnitude

/-!
# Shortest decimals

A `Decimal` is a row of digits with a place for the point: the digits `d₁ d₂ …` with the point at
`p` stand for `0.d₁d₂… × 10 ^ p`. `Magnitude.shortest` is the decimal with the fewest digits that
still reads as the magnitude; of two such decimals with equally many digits the nearer one, and
exactly between them the larger one.

The search is exact. A magnitude is `units × 5 ^ 1074` parts of `10 ^ -1074`, a whole number of such
parts. For each number of digits the two neighbours on that decimal grid are tried, by rounding them
as a reader would. Seventeen digits always suffice; the written digits read back whatever the search
finds, because nothing is accepted untested and the exact digits stand behind it.

A decimal is laid out in one of two ways. `Decimal.plain` writes all places out and
`Decimal.scientific` writes one digit, the point, the other digits and a power of ten.
-/

namespace DisplayLogic

-- A power of natural numbers is always the one of core, whatever other instances are in scope.
attribute [local instance (high)] instPowNat

/-- Digits with a place for the point, counted from before the first digit. -/
structure Decimal where
  /-- The digits, the most significant first. -/
  digits : List Char
  point : Int
deriving DecidableEq

namespace Decimal

def trimZeros (digits : List Char) : List Char := (digits.reverse.dropWhile (· == '0')).reverse

def ofScaled (significand : Nat) (exponent : Int) : Decimal :=
  let digits := Nat.toDigits 10 significand
  { digits := trimZeros digits, point := digits.length + exponent }

/-- The digits before the point when all places are written, at least one. -/
def whole (d : Decimal) : List Char :=
  if d.point ≤ 0 then ['0']
  else (d.digits.take d.point.toNat).rightpad d.point.toNat '0'

/-- The digits after the point when all places are written. -/
def fraction (d : Decimal) : List Char :=
  List.replicate (-d.point).toNat '0' ++ d.digits.drop d.point.toNat

/-- All places, with a point only where digits follow it. -/
def plain (d : Decimal) : List Char :=
  if d.fraction.isEmpty then d.whole else d.whole ++ '.' :: d.fraction

/-- All places, with a point and at least one digit after it. -/
def pointed (d : Decimal) : List Char :=
  d.whole ++ '.' :: (if d.fraction.isEmpty then ['0'] else d.fraction)

def leadingExponent (d : Decimal) : Int := d.point - 1

/-- One digit, the other digits after a point, and the exponent of the first digit. -/
def scientific (d : Decimal) : List Char :=
  let mantissa := match d.digits with
    | [] => ['0']
    | [first] => [first]
    | first :: others => first :: '.' :: others
  mantissa ++ 'e' :: (toString d.leadingExponent).toList

end Decimal

namespace Magnitude

/-- The number of decimal parts in one unit: both are fractions of 1, by the same power. -/
def partsPerUnit : Nat := 5 ^ oneExponent

/-- The magnitude as a whole number of decimal parts, each `10 ^ -oneExponent`. -/
def parts (m : Magnitude) : Nat := m.units * partsPerUnit

/-- Whether so many decimal parts round to the magnitude. -/
def ReadsFrom (m : Magnitude) (parts : Nat) : Prop := roundUnits parts partsPerUnit = m.units

instance (m : Magnitude) (parts : Nat) : Decidable (m.ReadsFrom parts) :=
  inferInstanceAs (Decidable (_ = _))

/-- The count of grid steps that reads as the magnitude and is nearest to it, if one of the two
neighbours does. -/
def nearestSteps? (m : Magnitude) (step : Nat) : Option Nat :=
  let below := m.parts / step
  let above := below + 1
  let upwards := step ≤ 2 * (m.parts % step)
  if m.ReadsFrom (below * step) ∧ ¬ (upwards ∧ m.ReadsFrom (above * step)) then some below
  else if m.ReadsFrom (above * step) then some above
  else none

/-- The digit counts to try, from one up to those that tell any two magnitudes apart. -/
def digitCounts : List Nat := List.range' 1 17

/-- The shortest decimal that reads as the magnitude. -/
def shortest (m : Magnitude) : Decimal :=
  if m.isZero then ⟨[], 0⟩
  else
    let length := (Nat.toDigits 10 m.parts).length
    let found := digitCounts.findSome? fun count =>
      (m.nearestSteps? (10 ^ (length - count))).map fun steps => (steps, length - count)
    match found with
    | some (steps, power) => .ofScaled steps (power - oneExponent)
    | none => .ofScaled m.parts (-oneExponent)

/-- Steps that are found read as the magnitude. -/
theorem readsFrom_of_nearestSteps? {m : Magnitude} {step steps : Nat}
    (h : m.nearestSteps? step = some steps) : m.ReadsFrom (steps * step) := by
  simp only [nearestSteps?] at h
  split at h
  · rename_i hb; cases h; exact hb.1
  · split at h
    · rename_i ha; cases h; exact ha
    · nomatch h

end Magnitude

end DisplayLogic
