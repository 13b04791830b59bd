import DisplayLogic.Json.Reader
import DisplayLogic.Registry

/-!
# The variables document

A JSON object can stand in for the live data of a host: each member is a name with its value. Texts
and numbers become constants, a boolean becomes a feed that always has its value and null one that
never has any. The members are visited by ascending name, each with its last value, and the first
one at fault refuses the whole document; of two faults in one member, that of the name counts. A
number could only be refused for its range, and none that can be read is out of range.
-/

namespace DisplayLogic

/-- Why a JSON document does not describe variables. -/
inductive DocumentError where
  | notObject
  /-- The name of a member cannot stand in a condition. -/
  | invalidName (name : String)
  /-- The value of a member is a number that is not available as a `Number`. -/
  | outOfRange (name : String)
  /-- The value of a member is an array or an object. -/
  | invalidValue (name : String)
deriving DecidableEq, Inhabited

namespace DocumentError

def message : DocumentError → String
  | notObject => "expected a JSON object"
  | invalidName name =>
    "'" ++ name ++ "' is not a valid variable name (lowercase letters, '_' and ':' only)"
  | outOfRange name => "'" ++ name ++ "' is out of range"
  | invalidValue name => "'" ++ name ++ "' must be a string, number, boolean or null"

end DocumentError

namespace Json

/-- The source that a value stands for under a name, unless it is an array or an object. -/
def source? (name : String) : Json → Option Source
  | null => some (.feed ⟨.text, name, .fixed none⟩)
  | boolean b => some (.feed ⟨.boolean, name, .fixed (some (.boolean b))⟩)
  | number n => some (.constant (.number n))
  | text s => some (.constant (.text s))
  | array _ => none
  | object _ => none

/-- Why a value under a name is refused if it stands for no source. -/
def refusal (name : String) : Json → DocumentError
  | number _ => .outOfRange name
  | _ => .invalidValue name

end Json

namespace Registry

/-- The registry with one more member of a document. -/
def registerMember (r : Registry) (member : String × Json) : Except DocumentError Registry :=
  if !Name.isName member.1.toList then .error (.invalidName member.1)
  else match member.2.source? member.1 with
    | none => .error (member.2.refusal member.1)
    | some source => .ok (r.register member.1 ⟨source, []⟩)

def ofDocument : Json → Except DocumentError Registry
  | .object members => (Json.sortedMembers members).foldlM registerMember empty
  | _ => .error .notObject

end Registry

end DisplayLogic
