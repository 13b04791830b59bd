/-!
# Names and references

A name is a non-empty row of lowercase letters, underscores and colons. What stands before the first
colon of a name is its namespace, and `unqualified?` is the name without it. A reference is a name
between braces, the form in which names are handed to whoever knows the data.
-/

namespace DisplayLogic

namespace Name

def isNameChar (c : Char) : Bool := c == ':' || c == '_' || c.isLower

def isName (cs : List Char) : Bool := !cs.isEmpty && cs.all isNameChar

/-- The name after the first colon, if something stands on both sides of it. -/
def unqualified? (name : List Char) : Option (List Char) :=
  match name.dropWhile (· != ':') with
  | ':' :: rest =>
    if (name.takeWhile (· != ':')).isEmpty || rest.isEmpty then none else some rest
  | _ => none

def reference (name : List Char) : String := .ofList ('\x7b' :: name ++ ['\x7d'])

/-- The characters between the braces of a text, if it stands between braces. -/
def unbraced? : List Char → Option (List Char)
  | '\x7b' :: rest => if rest.getLast? = some '\x7d' then some rest.dropLast else none
  | _ => none

def ofReference? (reference : String) : Option (List Char) :=
  (unbraced? reference.toList).filter isName

@[simp]
theorem unbraced?_braced (cs : List Char) : unbraced? ('\x7b' :: cs ++ ['\x7d']) = some cs := by
  simp [unbraced?]

/-- Every name can be referred to. -/
theorem ofReference?_reference {name : List Char} (h : isName name = true) :
    ofReference? (reference name) = some name := by
  simp only [ofReference?, reference, String.toList_ofList, unbraced?_braced, Option.filter_some, h,
    if_true]

end Name

end DisplayLogic
