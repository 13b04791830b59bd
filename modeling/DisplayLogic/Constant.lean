import DisplayLogic.Number.Text

/-!
# Constants and their views

A constant is a text, a number or a boolean. Whatever it is, it can be viewed in three ways: as
text, as a number and as a truth. The number of a text is its length and a boolean counts 1 or 0;
everything but a boolean is true when its number is above zero.

Data that is not available is viewed through the three fallbacks of `Missing`.
-/

namespace DisplayLogic

/-- A fixed value. -/
inductive Constant where
  | text (value : String)
  | number (value : Number)
  | boolean (value : Bool)
deriving DecidableEq, Inhabited

/-- The kinds of values. -/
inductive Kind where
  | text
  | number
  | boolean
deriving DecidableEq, Inhabited

namespace Kind

def name : Kind → String
  | text => "string"
  | number => "number"
  | boolean => "boolean"

end Kind

def booleanText (b : Bool) : String := if b then "true" else "false"

def booleanNumber (b : Bool) : Number := if b then .one else .zero

namespace Constant

def kind : Constant → Kind
  | text _ => .text
  | number _ => .number
  | boolean _ => .boolean

def asText : Constant → String
  | text s => s
  | number n => n.text
  | boolean b => booleanText b

def asNumber : Constant → Number
  | text s => .ofNat s.length
  | number n => n
  | boolean b => booleanNumber b

def asTruth : Constant → Bool
  | boolean b => b
  | c => c.asNumber.isPositive

end Constant

namespace Missing

def text : String := "-"

def number : Number := .zero

def truth : Bool := false

end Missing

end DisplayLogic
