import DisplayLogic.Number.Basic

/-!
# JSON values

The values of a JSON document. Objects keep their members as they are written, repeated names
included; `Json.sortedMembers` is the view in which a name counts once, with its last value, and
names come in ascending order.
-/

namespace DisplayLogic

/-- A value of a JSON document. -/
inductive Json where
  | null
  | boolean (value : Bool)
  | number (value : Number)
  | text (value : String)
  | array (items : List Json)
  | object (members : List (String × Json))
deriving Inhabited

namespace Json

/-- A member put into its place in an ascending list, in place of one of the same name. -/
def insertMember (name : String) (value : Json) : List (String × Json) → List (String × Json)
  | [] => [(name, value)]
  | (first, v) :: rest =>
    if name < first then (name, value) :: (first, v) :: rest
    else if name = first then (name, value) :: rest
    else (first, v) :: insertMember name value rest

/-- The members by ascending name, each name with its last value. -/
def sortedMembers (members : List (String × Json)) : List (String × Json) :=
  members.foldl (fun sorted (name, value) => insertMember name value sorted) []

/-- The value of a member, if there is one of the name. -/
def memberValue? (members : List (String × Json)) (name : String) : Option Json :=
  members.lookup name

/-- Putting a member into its place decides the value of its name and of no other. -/
theorem memberValue?_insertMember (name other : String) (value : Json)
    (members : List (String × Json)) :
    memberValue? (insertMember name value members) other =
      if other = name then some value else memberValue? members other := by
  induction members with
  | nil =>
    by_cases h : other = name
    · simp [memberValue?, insertMember, h]
    · have : (other == name) = false := by simpa using h
      simp [memberValue?, insertMember, List.lookup_cons, this, h]
  | cons member rest ih =>
    obtain ⟨first, v⟩ := member
    simp only [memberValue?] at ih
    by_cases h : other = name
    · subst h
      simp only [insertMember]
      split
      · simp [memberValue?]
      · split
        · simp [memberValue?]
        · rename_i hne
          have : (other == first) = false := by simpa using hne
          simp [memberValue?, List.lookup_cons, this, ih]
    · have hother : (other == name) = false := by simpa using h
      simp only [insertMember]
      split
      · simp [memberValue?, List.lookup_cons, hother]
      · split
        · rename_i heq
          subst heq
          simp [memberValue?, List.lookup_cons, hother]
        · simp [memberValue?, List.lookup_cons, ih, h]

end Json

end DisplayLogic
