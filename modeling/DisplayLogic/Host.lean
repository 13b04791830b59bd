import DisplayLogic.Batch
import DisplayLogic.Condition.Eval
import DisplayLogic.Store

/-!
# A host of conditions

A host owns what conditions work with: the registry of names, the data groups that are switched on,
the cells with the live data, and the conditions that it has compiled, kept under names of their
own. Every operation gives the host after it. A condition is bound to its sources when it is
compiled, so that nothing that is registered later changes what it means.
-/

namespace DisplayLogic

/-- The state of a host. -/
structure Host where
  registry : Registry
  groups : Groups
  store : Store
  /-- The conditions kept, the latest first. -/
  conditions : List (String × Condition)
deriving Inhabited

namespace Host

def empty : Host := ⟨.empty, .empty, .empty, []⟩

def register (h : Host) (name : String) (entry : Entry) : Host :=
  { h with registry := h.registry.register name entry }

def enable (h : Host) (group : String) : Host := { h with groups := h.groups.insert group }

def resetGroups (h : Host) : Host := { h with groups := .empty }

def write (h : Host) (cell : String) (content : Option Constant) : Host :=
  { h with store := h.store.write cell content }

def keep (h : Host) (name : String) (condition : Condition) : Host :=
  { h with conditions := (name, condition) :: h.conditions }

def condition? (h : Host) (name : String) : Option Condition := h.conditions.lookup name

/-- Resolves a reference and switches on the groups that its entry needs. -/
def resolve (h : Host) (reference : String) (line : Nat) : Except ResolveError (Binding × Host) :=
  (h.registry.resolve reference line).map fun binding =>
    (binding, { h with groups := h.groups.bindAll [binding] })

/-- Compiles an expression. Its bindings switch on groups even if it is refused. -/
def compile (h : Host) (e : Expression) : Compilation × Host :=
  let c := h.registry.compile e
  (c, { h with groups := c.groups h.groups })

def compileAll (h : Host) (outlines : Bool) (expressions : List Expression) : Batch × Host :=
  let batch := h.registry.compileAll outlines h.groups expressions
  (batch, { h with groups := batch.groups })

def observe {α : Type} (h : Host) (look : Cells → Observed α) : α × Host :=
  let seen := look h.store.contents
  (seen.value, { h with store := h.store.countReads seen.reads })

end Host

end DisplayLogic
