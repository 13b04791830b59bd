import DisplayLogic.Number.Basic
import DisplayLogic.Number.Decimal

/-!
# The text of a number

Numbers are written in two ways. `Number.text` is for display: all places are written out, whole
numbers carry no point, and zero has no sign. `Number.inspect` is for diagnostics: it always shows a
point or an exponent, keeps the sign of zero, and turns to an exponent outside the range that
`plainExponents` gives. Both start from the shortest decimal that reads back.
-/

namespace DisplayLogic

namespace Number

/-- A sign in front, if the number is negative. -/
def withSign (negative : Bool) (text : List Char) : String :=
  .ofList (if negative then '-' :: text else text)

def text : Number → String
  | nan => "NaN"
  | infinite negative => withSign negative "inf".toList
  | finite negative m => withSign (negative && !m.isZero) m.shortest.plain

/-- Exponents of the leading digit from `lowest` on and below `limit`. -/
structure ExponentRange where
  lowest : Int
  limit : Int

/-- Diagnostics write out numbers from `0.0001` up to `10 ^ 16`. -/
def plainExponents : ExponentRange := ⟨-4, 16⟩

/-- The digits of a magnitude as diagnostics show them. -/
def inspectDecimal (d : Decimal) : List Char :=
  let e := d.leadingExponent
  if plainExponents.lowest ≤ e ∧ e < plainExponents.limit then d.pointed else d.scientific

def inspect : Number → String
  | nan => "NaN"
  | infinite negative => withSign negative "inf".toList
  | finite negative m => withSign negative (inspectDecimal m.shortest)

end Number

end DisplayLogic
