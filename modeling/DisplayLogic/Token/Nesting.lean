import DisplayLogic.ParseError
import DisplayLogic.Token.Basic

/-!
# Matching the marks of groups

`Token.nest` replaces every matched pair of marks by one group token that holds what stands between
them, so that no mark is left. It goes through the tokens once. `outer` holds the unfinished groups
around the current one, the innermost first, and all unfinished groups are kept in reverse. Groups
may stand at most `maxNesting` deep, because everything that follows recurses once for each.
-/

namespace DisplayLogic

namespace Token

def maxNesting : Nat := 64

/-- The nested form of the tokens from a position on, with the current group and those around it. -/
def nestFrom (position : Nat) (outer : List (List Token)) (current : List Token) :
    List Token → Except ParseError (List Token)
  | [] => if outer.isEmpty then .ok current.reverse else .error (.unmatchedOpen outer.length)
  | .openGroup :: rest =>
    if maxNesting ≤ outer.length then .error (.tooDeep maxNesting)
    else nestFrom (position + 1) (current :: outer) [] rest
  | .closeGroup :: rest =>
    match outer with
    | [] => .error (.unmatchedClose position)
    | parent :: outer => nestFrom (position + 1) outer (.group current.reverse :: parent) rest
  | token :: rest => nestFrom (position + 1) outer (token :: current) rest

/-- The tokens with every matched pair of marks replaced by a group. -/
def nest (tokens : List Token) : Except ParseError (List Token) := nestFrom 0 [] [] tokens

end Token

end DisplayLogic
