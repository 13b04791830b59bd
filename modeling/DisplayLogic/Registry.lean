import DisplayLogic.Condition.Inspect
import DisplayLogic.Groups
import DisplayLogic.Name

/-!
# The registry of names

A registry says which source each name stands for and which data groups that source needs. A name
stands in it at most once: registering it again replaces its entry.

`Registry.resolve` finds the entry for a reference. The whole name is tried first; failing that, a
name with a namespace is tried without it, and only the first namespace is ever dropped. A found
entry comes back as a `Binding`, which remembers the reference and the line it was met on, so that
the groups to switch on and the note for the log can both be read off it.
-/

namespace DisplayLogic

/-- What a name stands for. -/
structure Entry where
  source : Source
  /-- The data groups that have to be computed for it. -/
  requires : List String
deriving Inhabited

/-- Why a reference was not resolved. -/
inductive ResolveError where
  | unknown (reference : String) (line : Nat)
  | malformed (reference : String) (line : Nat)
deriving DecidableEq, Inhabited

namespace ResolveError

def message : ResolveError → String
  | unknown reference line => "unknown variable " ++ reference ++ " on line " ++ toString line
  | malformed reference line =>
    "malformed variable reference " ++ Text.quote reference ++ " on line " ++ toString line

end ResolveError

/-- A reference that was resolved. -/
structure Binding where
  reference : String
  line : Nat
  entry : Entry
deriving Inhabited

namespace Binding

def note (b : Binding) : String :=
  "line " ++ toString b.line ++ ": resolved " ++ b.reference ++ " to " ++ b.entry.source.inspect

end Binding

/-- Switches on all groups that some bindings need. -/
def Groups.bindAll (groups : Groups) (bindings : List Binding) : Groups :=
  bindings.foldl (fun gs b => gs.insertAll b.entry.requires) groups

/-- A group is on afterwards if it was on before or some binding needs it. -/
theorem Groups.mem_bindAll {groups : Groups} {bindings : List Binding} {name : String} :
    name ∈ groups.bindAll bindings ↔ (∃ b ∈ bindings, name ∈ b.entry.requires) ∨ name ∈ groups := by
  induction bindings generalizing groups with
  | nil => simp [bindAll]
  | cons b rest ih =>
    have : groups.bindAll (b :: rest) = (groups.insertAll b.entry.requires).bindAll rest := rfl
    rw [this, ih, mem_insertAll]
    simp only [List.mem_cons, exists_eq_or_imp]
    grind

/-- Bindings made in two steps switch on the same groups as in one. -/
theorem Groups.bindAll_append (groups : Groups) (bs cs : List Binding) :
    groups.bindAll (bs ++ cs) = (groups.bindAll bs).bindAll cs := List.foldl_append

/-- Names with their entries. -/
structure Registry where
  /-- The entries, the latest first. -/
  entries : List (String × Entry)
  distinct : entries.Pairwise fun a b => a.1 ≠ b.1

namespace Registry

def empty : Registry := ⟨[], .nil⟩

instance : Inhabited Registry := ⟨empty⟩

/-- Registers a name, in place of what it stood for before. -/
def register (r : Registry) (name : String) (entry : Entry) : Registry where
  entries := (name, entry) :: r.entries.filter fun e => e.1 != name
  distinct := by
    refine List.pairwise_cons.mpr ⟨fun e he => ?_, r.distinct.filter _⟩
    have := (List.mem_filter.mp he).2
    simp only [bne_iff_ne] at this
    exact Ne.symm this

def find? (r : Registry) (name : String) : Option Entry := r.entries.lookup name

def contains (r : Registry) (name : String) : Bool := (r.find? name).isSome

def size (r : Registry) : Nat := r.entries.length

def isEmpty (r : Registry) : Bool := r.entries.isEmpty

/-- The entry that a name leads to, if need be without its namespace. -/
def findQualified? (r : Registry) (name : List Char) : Option Entry :=
  r.find? (.ofList name) <|> (Name.unqualified? name).bind fun rest => r.find? (.ofList rest)

def resolve (r : Registry) (reference : String) (line : Nat) : Except ResolveError Binding :=
  match Name.ofReference? reference with
  | none => .error (.malformed reference line)
  | some name =>
    match r.findQualified? name with
    | none => .error (.unknown reference line)
    | some entry => .ok ⟨reference, line, entry⟩

@[simp]
theorem find?_empty (name : String) : empty.find? name = none := rfl

theorem lookup_filter_ne {name other : String} (h : other ≠ name)
    (entries : List (String × Entry)) :
    (entries.filter fun e => e.1 != name).lookup other = entries.lookup other := by
  induction entries with
  | nil => rfl
  | cons e rest ih =>
    obtain ⟨key, entry⟩ := e
    by_cases hkey : key = name
    · subst hkey
      have : (other == key) = false := by simpa using h
      simp [List.lookup_cons, this, ih]
    · simp [List.lookup_cons, hkey, ih]

/-- Registering decides what its name stands for and leaves all other names alone. -/
theorem find?_register (r : Registry) (name other : String) (entry : Entry) :
    (r.register name entry).find? other = if other = name then some entry else r.find? other := by
  by_cases h : other = name
  · simp [find?, register, h]
  · have : (other == name) = false := by simpa using h
    simp [find?, register, List.lookup_cons, this, h, lookup_filter_ne h]

end Registry

end DisplayLogic
