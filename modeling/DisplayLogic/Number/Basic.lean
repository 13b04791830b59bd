import DisplayLogic.Number.Magnitude

/-!
# Numbers

A `Number` is a binary64 value: the one indeterminate value `nan`, the two infinities, or a signed
`Magnitude`. Zero keeps its sign, so that `0` and `-0` are two numbers, although no comparison tells
them apart.

Order goes through `rank?`, which places every number but `nan` on the line of whole units.
`partialCompare` compares the places and leaves `nan` incomparable with everything, itself included.
-/

namespace DisplayLogic

/-- A binary64 value. -/
inductive Number where
  /-- The indeterminate value, equal to nothing. -/
  | nan
  /-- An infinity and whether it is the negative one. -/
  | infinite (negative : Bool)
  | finite (negative : Bool) (magnitude : Magnitude)
deriving DecidableEq

namespace Number

/-- A signed magnitude as a number; an absent magnitude, being too large, gives an infinity. -/
def ofMagnitude? (negative : Bool) : Option Magnitude → Number
  | some m => finite negative m
  | none => infinite negative

/-- The number nearest to `num / den`, infinite when the quotient leaves the range. -/
def ofRatio (num den : Nat) : Number := ofMagnitude? false (Magnitude.ofRatio? num den)

def ofNat (n : Nat) : Number := ofRatio n 1

/-- The number 0, without a sign. -/
def zero : Number := finite false Magnitude.zero

instance : Inhabited Number := ⟨zero⟩

def one : Number := ofNat 1

def negate : Number → Number
  | nan => nan
  | infinite negative => infinite !negative
  | finite negative m => finite (!negative) m

def signed (negative : Bool) (n : Nat) : Int := if negative then -(n : Int) else n

/-- The place of a number on the line of units: finite numbers stand at their own units, infinities
just beyond all of them, `nan` nowhere. -/
def rank? : Number → Option Int
  | nan => none
  | infinite negative => some (signed negative Magnitude.bound)
  | finite negative m => some (signed negative m.units)

/-- The order of two numbers, absent when one of them is `nan`. -/
def partialCompare (a b : Number) : Option Ordering := do
  let x ← a.rank?
  let y ← b.rank?
  return compare x y

def isPositive (n : Number) : Bool := partialCompare n zero == some .gt

@[simp]
theorem rank?_nan : rank? nan = none := rfl

/-- Only `nan` has no place. -/
theorem rank?_eq_none_iff {n : Number} : n.rank? = none ↔ n = nan := by
  cases n <;> simp [rank?]

end Number

end DisplayLogic
