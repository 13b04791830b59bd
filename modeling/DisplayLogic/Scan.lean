import DisplayLogic.Lexeme

/-!
# Scanning a text

A scan walks through a text and collects the pieces that it finds, each with its extent, counted in
characters. Characters without meaning are passed over and leave no piece.

Two faults can be met. A run of digits and points that is no numeral stands among the pieces,
because reading can go on behind it. An exclamation mark without an equals sign ends the scan,
because it is never passed.
-/

namespace DisplayLogic

/-- What a piece of text was found to be. -/
inductive Reading where
  | lexeme (lexeme : Lexeme)
  | notNumeral (run : List Char)
deriving DecidableEq, Inhabited

/-- A piece of text with its extent. -/
structure Piece where
  start : Nat
  length : Nat
  reading : Reading
deriving DecidableEq, Inhabited

namespace Piece

/-- How many characters there are up to the end of the piece. -/
def stop (p : Piece) : Nat := p.start + p.length

end Piece

/-- How a scan comes to its end, with how many characters lie behind it then. -/
inductive Ending where
  | finished (position : Nat)
  /-- An exclamation mark stands without an equals sign. -/
  | loneBang (position : Nat)
deriving DecidableEq, Inhabited

namespace Ending

/-- How many characters precede the end of the scan. -/
def position : Ending → Nat
  | finished position => position
  | loneBang position => position

end Ending

/-- The pieces of a text, in order, and what ended the scan. -/
structure Scan where
  /-- The pieces, in order. -/
  pieces : List Piece
  ending : Ending
deriving DecidableEq, Inhabited

namespace Scan

def cons (piece : Piece) (s : Scan) : Scan := { s with pieces := piece :: s.pieces }

/-- The scan of a text of which `position` characters are behind and the next `passing` belong to
the piece found last. -/
def ofCharsFrom (position passing : Nat) : List Char → Scan
  | [] => ⟨[], .finished position⟩
  | c :: rest =>
    match passing with
    | passing + 1 => ofCharsFrom (position + 1) passing rest
    | 0 =>
      match Lexeme.front (c :: rest) with
      | .nothing => ofCharsFrom (position + 1) 0 rest
      | .lexeme l length =>
        (ofCharsFrom (position + 1) (length - 1) rest).cons ⟨position, length, .lexeme l⟩
      | .notNumeral run =>
        (ofCharsFrom (position + 1) (run.length - 1) rest).cons
          ⟨position, run.length, .notNumeral run⟩
      | .loneBang => ⟨[], .loneBang position⟩

def ofChars (cs : List Char) : Scan := ofCharsFrom 0 0 cs

/-- The characters that belong to the last piece are passed over. -/
theorem ofCharsFrom_passing (position passing : Nat) (cs : List Char) :
    ofCharsFrom position passing cs =
      ofCharsFrom (position + min passing cs.length) 0 (cs.drop passing) := by
  induction cs generalizing position passing with
  | nil => cases passing <;> simp [ofCharsFrom]
  | cons c rest ih =>
    cases passing with
    | zero => simp
    | succ n =>
      rw [ofCharsFrom, ih, List.drop_succ_cons, List.length_cons]
      congr 1
      omega

end Scan

end DisplayLogic
