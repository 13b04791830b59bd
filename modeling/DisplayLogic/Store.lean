import DisplayLogic.Feed

/-!
# The cells of a host

A `Store` is the live data of a host: named cells, each with its content and a count of how often it
was read. Writing to a cell that is not there makes it. `Store.contents` is what evaluation sees of
a store.
-/

namespace DisplayLogic

/-- A named place for live data. -/
structure Cell where
  name : String
  content : Option Constant
  reads : Nat
deriving DecidableEq, Inhabited

/-- The cells of a host. -/
structure Store where
  /-- The cells, in the order in which they were made. -/
  cells : List Cell
deriving DecidableEq, Inhabited

namespace Store

def empty : Store := ⟨[]⟩

def find? (s : Store) (name : String) : Option Cell := s.cells.find? fun c => c.name == name

/-- The contents of all cells; a cell that is not there holds nothing. -/
def contents (s : Store) : Cells := fun name => (s.find? name).bind Cell.content

def reads (s : Store) (name : String) : Nat := ((s.find? name).map Cell.reads).getD 0

/-- The store with a cell of the name, which holds nothing if it is new. -/
def declare (s : Store) (name : String) : Store :=
  if (s.find? name).isSome then s else ⟨s.cells ++ [⟨name, none, 0⟩]⟩

/-- The store with a change made to the cell of a name. -/
def modify (s : Store) (name : String) (change : Cell → Cell) : Store :=
  ⟨s.cells.map fun c => if c.name == name then change c else c⟩

def write (s : Store) (name : String) (content : Option Constant) : Store :=
  (s.declare name).modify name fun c => { c with content }

/-- Counts a read of a feed, if the feed has a cell. -/
def countRead (s : Store) (f : Feed) : Store :=
  match f.cell? with
  | none => s
  | some name => (s.declare name).modify name fun c => { c with reads := c.reads + 1 }

def countReads (s : Store) (feeds : List Feed) : Store := feeds.foldl countRead s

theorem find?_declare (s : Store) (name other : String) :
    (s.declare name).find? other =
      if other = name then some ((s.find? name).getD ⟨name, none, 0⟩) else s.find? other := by
  unfold declare
  split
  · rename_i h
    obtain ⟨c, hc⟩ := Option.isSome_iff_exists.mp h
    split
    · rename_i heq; subst heq; simp [hc]
    · rfl
  · rename_i h
    simp only [Option.not_isSome_iff_eq_none] at h
    simp only [find?, List.find?_append, List.find?_singleton] at h ⊢
    by_cases heq : other = name
    · subst heq; simp [h]
    · simp [heq, Ne.symm heq]

theorem find?_modify (s : Store) (name other : String) {change : Cell → Cell}
    (hname : ∀ c, (change c).name = c.name) :
    (s.modify name change).find? other =
      if other = name then (s.find? other).map change else s.find? other := by
  have hcomp : ∀ c : Cell,
      ((if c.name == name then change c else c).name == other) = (c.name == other) := by
    intro c; split <;> simp [hname]
  simp only [find?, modify, List.find?_map, Function.comp_def, hcomp]
  cases hf : s.cells.find? fun c => c.name == other with
  | none => simp
  | some c =>
    have : c.name = other := by simpa using List.find?_some hf
    subst this
    by_cases h : c.name = name <;> simp [h]

/-- Counting a read changes no content. -/
theorem contents_countRead (s : Store) (f : Feed) : (s.countRead f).contents = s.contents := by
  unfold countRead
  split
  · rfl
  · rename_i name _
    funext other
    simp only [contents]
    rw [find?_modify, find?_declare]
    · by_cases h : other = name
      · subst h
        cases hc : s.find? other <;> simp
      · simp [h]
    · exact fun _ => rfl

/-- Counting reads changes no content. -/
@[simp]
theorem contents_countReads (s : Store) (feeds : List Feed) :
    (s.countReads feeds).contents = s.contents := by
  induction feeds generalizing s with
  | nil => rfl
  | cons f rest ih =>
    have : s.countReads (f :: rest) = (s.countRead f).countReads rest := rfl
    rw [this, ih, contents_countRead]

end Store

end DisplayLogic
