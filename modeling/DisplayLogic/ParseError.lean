/-!
# Structural errors

What can be wrong with a row of tokens, from the marks of groups that do not match to a section that
is neither an atom nor a comparison, and how it is worded.
-/

namespace DisplayLogic

/-- Why tokens do not form a condition. -/
inductive ParseError where
  | empty
  | wrongTokenCount (count : Nat)
  | unexpectedToken (found expected : String)
  | unmatchedClose (position : Nat)
  | unmatchedOpen (depth : Nat)
  | tooDeep (limit : Nat)
deriving DecidableEq, Inhabited

namespace ParseError

def message : ParseError → String
  | empty => "empty expression"
  | wrongTokenCount count => "wrong number of tokens: expected 1 or 3, got " ++ toString count
  | unexpectedToken found expected =>
    "unexpected " ++ found ++ " where " ++ expected ++ " was expected"
  | unmatchedClose position => "')' at token " ++ toString position ++ " has no matching '('"
  | unmatchedOpen depth => toString depth ++ " '(' left unclosed"
  | tooDeep limit => "groups nested deeper than " ++ toString limit ++ " levels"

end ParseError

end DisplayLogic
