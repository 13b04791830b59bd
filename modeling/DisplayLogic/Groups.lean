/-!
# Data groups

Data is computed in groups, and only the groups that some condition uses are switched on. `Groups`
is the set of those, kept as a list of names in strictly ascending order, so that listing them needs
no further work and equal sets are equal lists.
-/

namespace DisplayLogic

/-- The groups that are switched on, in strictly ascending order. -/
structure Groups where
  names : List String
  ascending : names.Pairwise (· < ·)

namespace Groups

/-- A name put into its place in an ascending list, unless it is there already. -/
def insertName (name : String) : List String → List String
  | [] => [name]
  | first :: rest =>
    if name < first then name :: first :: rest
    else if name = first then first :: rest
    else first :: insertName name rest

theorem mem_insertName {a name : String} {names : List String} :
    a ∈ insertName name names ↔ a = name ∨ a ∈ names := by
  induction names with
  | nil => simp [insertName]
  | cons first rest ih =>
    simp only [insertName]
    split
    · simp
    · split
      · rename_i h; subst h; simp
      · simp only [List.mem_cons, ih]; grind

theorem ascending_insertName {name : String} {names : List String} (h : names.Pairwise (· < ·)) :
    (insertName name names).Pairwise (· < ·) := by
  induction names with
  | nil => simp [insertName]
  | cons first rest ih =>
    rw [List.pairwise_cons] at h
    simp only [insertName]
    split
    · rename_i hlt
      refine List.pairwise_cons.mpr ⟨fun a ha => ?_, List.pairwise_cons.mpr h⟩
      rcases List.mem_cons.mp ha with rfl | ha
      · exact hlt
      · exact String.lt_trans hlt (h.1 a ha)
    · split
      · exact List.pairwise_cons.mpr h
      · rename_i hlt hne
        refine List.pairwise_cons.mpr ⟨fun a ha => ?_, ih h.2⟩
        rcases mem_insertName.mp ha with rfl | ha
        · exact Decidable.byContradiction fun hge =>
            hne (String.le_antisymm (String.not_lt.mp hge) (String.not_lt.mp hlt))
        · exact h.1 a ha

def empty : Groups := ⟨[], .nil⟩

instance : Inhabited Groups := ⟨empty⟩

def insert (groups : Groups) (name : String) : Groups :=
  ⟨insertName name groups.names, ascending_insertName groups.ascending⟩

def insertAll (groups : Groups) (names : List String) : Groups := names.foldl insert groups

def ofList (names : List String) : Groups := empty.insertAll names

def contains (groups : Groups) (name : String) : Bool := groups.names.contains name

def isEmpty (groups : Groups) : Bool := groups.names.isEmpty

instance : Membership String Groups := ⟨fun groups name => name ∈ groups.names⟩

theorem mem_def {groups : Groups} {name : String} : name ∈ groups ↔ name ∈ groups.names := Iff.rfl

@[simp]
theorem contains_eq_true_iff {groups : Groups} {name : String} :
    groups.contains name = true ↔ name ∈ groups := by
  simp [contains, mem_def]

@[simp]
theorem not_mem_empty (name : String) : name ∉ empty := by simp [mem_def, empty]

@[simp]
theorem mem_insert {groups : Groups} {name a : String} :
    a ∈ groups.insert name ↔ a = name ∨ a ∈ groups :=
  mem_insertName

@[simp]
theorem mem_insertAll {groups : Groups} {names : List String} {a : String} :
    a ∈ groups.insertAll names ↔ a ∈ names ∨ a ∈ groups := by
  induction names generalizing groups with
  | nil => simp [insertAll]
  | cons name rest ih =>
    have : groups.insertAll (name :: rest) = (groups.insert name).insertAll rest := rfl
    rw [this, ih, mem_insert, List.mem_cons]
    grind

end Groups

end DisplayLogic
