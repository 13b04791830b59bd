import DisplayLogic.Number.Basic

/-!
# Numerals

A numeral is a run of digits with at most one point among them and at least one digit: `20`, `0.25`,
`3.`, `.5`. It has no sign and no exponent. `Number.ofNumeral?` reads it as the nearest number, so
that a numeral too long for the range is infinite, never `nan` and never negative.
-/

namespace DisplayLogic

-- A power of natural numbers is always the one of core, whatever other instances are in scope.
attribute [local instance (high)] instPowNat

/-- The whole number that a row of digits writes in base ten. -/
def digitsValue (digits : List Char) : Nat := Nat.ofDigitChars 10 digits 0

namespace Number

/-- The digits before the first point and, if there is a point, all that follows it. -/
def splitAtPoint : List Char → List Char × Option (List Char)
  | [] => ([], none)
  | c :: cs =>
    if c = '.' then ([], some cs)
    else
      let (whole, fraction?) := splitAtPoint cs
      (c :: whole, fraction?)

/-- The number that a numeral writes, or nothing for other text. -/
def ofNumeral? (text : List Char) : Option Number :=
  let (whole, fraction?) := splitAtPoint text
  let fraction := fraction?.getD []
  let digits := whole ++ fraction
  if digits.isEmpty || !digits.all Char.isDigit then none
  else some (ofRatio (digitsValue digits) (10 ^ fraction.length))

theorem splitAtPoint_point (cs : List Char) : splitAtPoint ('.' :: cs) = ([], some cs) := by
  simp [splitAtPoint]

/-- Without a point the whole text stands before it. -/
theorem splitAtPoint_of_not_mem {cs : List Char} (h : '.' ∉ cs) : splitAtPoint cs = (cs, none) := by
  induction cs with
  | nil => rfl
  | cons c cs ih =>
    simp only [List.mem_cons, not_or] at h
    rw [splitAtPoint, if_neg (Ne.symm h.1), ih h.2]

/-- The first point cuts the text. -/
theorem splitAtPoint_append_point {cs : List Char} (h : '.' ∉ cs) (rest : List Char) :
    splitAtPoint (cs ++ '.' :: rest) = (cs, some rest) := by
  induction cs with
  | nil => exact splitAtPoint_point rest
  | cons c cs ih =>
    simp only [List.mem_cons, not_or] at h
    rw [List.cons_append, splitAtPoint, if_neg (Ne.symm h.1), ih h.2]

end Number

end DisplayLogic
