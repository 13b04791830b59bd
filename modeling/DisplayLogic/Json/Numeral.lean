import DisplayLogic.Number.Numeral

/-!
# JSON numerals

A JSON numeral has a sign, whole digits without needless zeros, and optional fraction and exponent
digits. `JsonNumeral.ofChars?` reads one from a run of the characters that numerals are made of.

Its value is found in binary64 arithmetic and not by one exact rounding. The leading digits are
gathered as a `Significand` while they fit 64 bits, the remaining whole digits only raise the
exponent, and the remaining fraction digits are dropped. The significand is rounded and then
multiplied or divided by a rounded power of ten, which can miss the nearest number by a unit in the
last place. A numeral beyond the range has no value.
-/

namespace DisplayLogic

-- A power of natural numbers is always the one of core, whatever other instances are in scope.
attribute [local instance (high)] instPowNat

/-- The parts of a JSON numeral. -/
structure JsonNumeral where
  negative : Bool
  whole : List Char
  fraction : List Char
  exponent : Int
deriving DecidableEq, Inhabited

/-- The leading digits of a numeral, as far as they fit 64 bits, and the power of ten that goes with
them. -/
structure Significand where
  value : Nat
  exponent : Int
  full : Bool
deriving DecidableEq, Inhabited

namespace Significand

/-- The first whole number that does not fit 64 bits. -/
def limit : Nat := UInt64.size

def zero : Significand := ⟨0, 0, false⟩

def append (value : Nat) (digit : Char) : Nat := value * 10 + digitsValue [digit]

/-- Takes a digit before the point. From the first one on that does not fit, digits raise the
exponent. -/
def takeWhole (s : Significand) (digit : Char) : Significand :=
  if s.full || limit ≤ append s.value digit then { s with exponent := s.exponent + 1, full := true }
  else { s with value := append s.value digit }

/-- Takes a digit after the point. From the first one on that does not fit, digits are dropped. -/
def takeFraction (s : Significand) (digit : Char) : Significand :=
  if s.full || limit ≤ append s.value digit then { s with full := true }
  else { s with value := append s.value digit, exponent := s.exponent - 1 }

/-- The significand of the digits before and after a point. -/
def ofDigits (whole fraction : List Char) : Significand :=
  fraction.foldl takeFraction { whole.foldl takeWhole zero with full := false }

end Significand

namespace Magnitude

/-- The largest exponent of a power of ten that is a magnitude. -/
def greatestPower : Nat := 308

/-- A power of ten, rounded. -/
def powerOfTen? (exponent : Nat) : Option Magnitude := ofRatio? (10 ^ exponent) 1

/-- A magnitude times a power of ten, absent beyond the range. Large negative powers are applied in
steps. -/
def scaleByTen? (m : Magnitude) (exponent : Int) : Option Magnitude :=
  if exponent.natAbs ≤ greatestPower then do
    let power ← powerOfTen? exponent.natAbs
    if 0 ≤ exponent then m.mul? power else m.div? power
  else if m.isZero then some m
  else if 0 ≤ exponent then none
  else do
    let power ← powerOfTen? greatestPower
    let quotient ← m.div? power
    quotient.scaleByTen? (exponent + greatestPower)
termination_by (-exponent).toNat
decreasing_by simp only [greatestPower] at *; omega

end Magnitude

namespace JsonNumeral

/-- The number that a numeral stands for, absent beyond the range. -/
def value? (n : JsonNumeral) : Option Number := do
  let s := Significand.ofDigits n.whole n.fraction
  let m ← Magnitude.ofRatio? s.value 1
  return .finite n.negative (← m.scaleByTen? (s.exponent + n.exponent))

/-- The digits that a text begins with, of which there must be one. -/
def digits? (cs : List Char) : Option (List Char × List Char) :=
  let run := cs.takeWhile Char.isDigit
  if run.isEmpty then none else some (run, cs.drop run.length)

/-- The whole digits that a text begins with; after a leading zero there are no more. -/
def whole? : List Char → Option (List Char × List Char)
  | '0' :: rest => some (['0'], rest)
  | cs => digits? cs

/-- The fraction digits that a text begins with, if a point stands in front. -/
def fraction? : List Char → Option (List Char × List Char)
  | '.' :: rest => digits? rest
  | cs => some ([], cs)

def signedExponent? (negative : Bool) (cs : List Char) : Option (Int × List Char) := do
  let (digits, rest) ← digits? cs
  return (Number.signed negative (digitsValue digits), rest)

/-- The exponent that a text begins with, if its letter stands in front. -/
def exponent? : List Char → Option (Int × List Char)
  | c :: rest =>
    if c = 'e' ∨ c = 'E' then
      match rest with
      | '+' :: digits => signedExponent? false digits
      | '-' :: digits => signedExponent? true digits
      | digits => signedExponent? false digits
    else some (0, c :: rest)
  | [] => some (0, [])

def sign : List Char → Bool × List Char
  | '-' :: rest => (true, rest)
  | cs => (false, cs)

def isNumeralChar (c : Char) : Bool :=
  c.isDigit || c == '-' || c == '+' || c == '.' || c == 'e' || c == 'E'

def ofChars? (cs : List Char) : Option JsonNumeral := do
  let (negative, rest) := sign cs
  let (whole, rest) ← whole? rest
  let (fraction, rest) ← fraction? rest
  let (exponent, rest) ← exponent? rest
  if rest.isEmpty then some ⟨negative, whole, fraction, exponent⟩ else none

end JsonNumeral

end DisplayLogic
