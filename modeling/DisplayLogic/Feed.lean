import DisplayLogic.Constant

/-!
# Live data

A `Feed` is a piece of live data of one kind. It has a label for diagnostics and takes its content
from an origin, which is a cell that the host writes to or a content that never changes. `Cells`
gives the content of every cell at one moment. A feed whose origin is empty, or holds a value of
another kind, is not available and shows the fallbacks.

Looking at a feed is an event that the host can count. `Observed` is a value together with the feeds
that were read to find it, in the order of the reads.
-/

namespace DisplayLogic

/-- Where live data comes from. -/
inductive Origin where
  /-- A cell that the host fills, known by name. -/
  | cell (name : String)
  | fixed (content : Option Constant)
deriving DecidableEq, Inhabited

/-- Live data of one kind. -/
structure Feed where
  /-- The kind of value that the data has when it is available. -/
  kind : Kind
  label : String
  origin : Origin
deriving DecidableEq, Inhabited

abbrev Cells := String → Option Constant

namespace Feed

def content? (f : Feed) (cells : Cells) : Option Constant :=
  match f.origin with
  | .cell name => cells name
  | .fixed content => content

/-- The value of a feed, if one of its kind is available. -/
def value? (f : Feed) (cells : Cells) : Option Constant :=
  (f.content? cells).filter fun c => c.kind == f.kind

def text (f : Feed) (cells : Cells) : String :=
  (f.value? cells).elim Missing.text Constant.asText

def number (f : Feed) (cells : Cells) : Number :=
  (f.value? cells).elim Missing.number Constant.asNumber

def truth (f : Feed) (cells : Cells) : Bool :=
  (f.value? cells).elim Missing.truth Constant.asTruth

/-- The name of the cell that a feed reads, if it reads one. -/
def cell? (f : Feed) : Option String :=
  match f.origin with
  | .cell name => some name
  | .fixed _ => none

end Feed

/-- A value and the feeds that were read to find it. -/
structure Observed (α : Type) where
  value : α
  /-- The feeds read, in order, each as often as it was read. -/
  reads : List Feed

namespace Observed

instance : Monad Observed where
  pure a := ⟨a, []⟩
  bind x f :=
    let y := f x.value
    ⟨y.value, x.reads ++ y.reads⟩

def look {α : Type} (f : Feed) (view : Feed → α) : Observed α := ⟨view f, [f]⟩

@[ext]
theorem ext {α : Type} {x y : Observed α} (hv : x.value = y.value) (hr : x.reads = y.reads) :
    x = y := by
  cases x; cases y; cases hv; cases hr; rfl

variable {α β : Type}

@[simp]
theorem value_pure (a : α) : (pure a : Observed α).value = a := rfl

@[simp]
theorem reads_pure (a : α) : (pure a : Observed α).reads = [] := rfl

@[simp]
theorem value_bind (x : Observed α) (f : α → Observed β) :
    (x >>= f).value = (f x.value).value := rfl

@[simp]
theorem reads_bind (x : Observed α) (f : α → Observed β) :
    (x >>= f).reads = x.reads ++ (f x.value).reads := rfl

instance : LawfulMonad Observed :=
  .mk' Observed
    (fun x => ext rfl (List.append_nil x.reads))
    (fun _ _ => rfl)
    (fun x f g => ext rfl (List.append_assoc x.reads _ _))

@[simp]
theorem value_look (f : Feed) (view : Feed → α) : (look f view).value = view f := rfl

@[simp]
theorem reads_look (f : Feed) (view : Feed → α) : (look f view).reads = [f] := rfl

end Observed

end DisplayLogic
