import DisplayLogic.Token.Nesting

/-!
# From tokens to a condition

Nested tokens are read by splitting: at the connective of alternatives first, each part at the
connective of joint conditions next, and what is left must be one atom or a comparison of two
operands. A part that is the only one stands for itself, so that parentheses and single parts leave
no trace in the condition.

Splitting does not look into groups, while an atom may be one. `Token.part` therefore reads the
group of a token in advance and keeps the outcome, good or bad, in a `Part`; whether a bad outcome
counts is decided where the part is used.
-/

namespace DisplayLogic

/-- A token as one level of a condition sees it. -/
inductive Part where
  /-- A group, with the condition that its tokens form. -/
  | group (inner : Except ParseError Condition)
  | token (token : Token)
deriving Inhabited

namespace Part

def kind : Part → String
  | group _ => (Token.group []).kind
  | token t => t.kind

/-- Whether the part is the connective of alternatives. -/
def isOr : Part → Bool
  | token .or => true
  | _ => false

/-- Whether the part is the connective of joint conditions. -/
def isAnd : Part → Bool
  | token .and => true
  | _ => false

/-- The sections of a list between the members that satisfy a test, of which there is always at
least one. -/
def sections {α : Type} (test : α → Bool) : List α → List (List α)
  | [] => [[]]
  | a :: rest =>
    if test a then [] :: sections test rest
    else match sections test rest with
      | [] => [[a]]
      | first :: others => (a :: first) :: others

/-- The only member of a list, or all of them under a connective. -/
def combine (connective : List Condition → Condition) : List Condition → Condition
  | [c] => c
  | cs => connective cs

def atom : Part → Except ParseError Condition
  | group inner => inner
  | token (.boolean b) => .ok (.literal b)
  | token (.source s) => .ok (.holds s)
  | p => .error (.unexpectedToken p.kind "group, boolean or variable")

def operand : Part → Except ParseError Operand
  | token (.source s) => .ok (.source s)
  | token (.text s) => .ok (.literal (.text s))
  | token (.number n) => .ok (.literal (.number n))
  | token (.boolean b) => .ok (.literal (.boolean b))
  | p => .error (.unexpectedToken p.kind "comparison operand")

def relation : Part → Except ParseError Relation
  | token (.relation r) => .ok r
  | p => .error (.unexpectedToken p.kind "comparison")

end Part

def Operand.isLiteralOf (kind : Kind) : Operand → Bool
  | .literal c => c.kind == kind
  | .source _ => false

def LiteralKinds.ofOperands (left right : Operand) : LiteralKinds where
  boolean := left.isLiteralOf .boolean || right.isLiteralOf .boolean
  number := left.isLiteralOf .number || right.isLiteralOf .number

namespace Condition

/-- The comparison of two operands, in the mode that their literals call for. -/
def relate (left : Operand) (relation : Relation) (right : Operand) : Condition :=
  .comparison left relation right (.ofOperands left right)

/-- The condition of parts without a connective. Of several faults in a comparison the one of the
relation comes first, then that of the left operand. -/
def ofSimple : List Part → Except ParseError Condition
  | [] => .error .empty
  | [p] => p.atom
  | [left, middle, right] => do
    let relation ← middle.relation
    let left ← left.operand
    let right ← right.operand
    return relate left relation right
  | parts => .error (.wrongTokenCount parts.length)

/-- The condition of parts without the connective of alternatives. -/
def ofJoint (parts : List Part) : Except ParseError Condition := do
  let conditions ← (Part.sections Part.isAnd parts).mapM ofSimple
  return Part.combine .all conditions

def ofParts (parts : List Part) : Except ParseError Condition := do
  let conditions ← (Part.sections Part.isOr parts).mapM ofJoint
  return Part.combine .any conditions

end Condition

mutual

def Token.part : Token → Part
  | .group items => .group (Condition.ofParts (Token.parts items))
  | t => .token t

/-- Several tokens as one level of a condition sees them. -/
def Token.parts : List Token → List Part
  | [] => []
  | t :: rest => t.part :: Token.parts rest

end

def Condition.ofTokens (tokens : List Token) : Except ParseError Condition :=
  Condition.ofParts (Token.parts tokens)

theorem Token.parts_eq_map (tokens : List Token) : Token.parts tokens = tokens.map Token.part := by
  induction tokens with
  | nil => rfl
  | cons t rest ih => rw [Token.parts, ih, List.map_cons]

end DisplayLogic
