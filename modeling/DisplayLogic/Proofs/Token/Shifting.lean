import DisplayLogic.Proofs.Token.Lexing

/-!
# Texts further back

A text that has other characters in front of it is cut as it would be alone, and everything found in
it stands further back. The only numbers that come out of a lexing are the positions of faults, so
that `shift` moves these and leaves tokens, bindings and unresolved names alone.
-/

namespace DisplayLogic

/-- The fault of a text with `n` more characters in front. -/
def LexFault.shift (n : Nat) : LexFault → LexFault
  | loneBang position => loneBang (position + n)
  | invalidNumber run position => invalidNumber run (position + n)

/-- The error of a text with `n` more characters in front. Unresolved names know only their line. -/
def LexError.shift (n : Nat) : LexError → LexError
  | fault f => fault (f.shift n)
  | unresolved e => unresolved e

/-- The answer for a text with `n` more characters in front. -/
def Answer.shift (n : Nat) : Answer → Answer
  | failure e => failure (e.shift n)
  | answer => answer

def Piece.shift (n : Nat) (p : Piece) : Piece := { p with start := p.start + n }

def Ending.shift (n : Nat) : Ending → Ending
  | finished position => finished (position + n)
  | loneBang position => loneBang (position + n)

/-- The scan of a text with `n` more characters in front. -/
def Scan.shift (n : Nat) (s : Scan) : Scan := ⟨s.pieces.map (Piece.shift n), s.ending.shift n⟩

/-- The lexing of a text with `n` more characters in front. -/
def Lexing.shift (n : Nat) (l : Lexing) : Lexing :=
  { l with failure? := l.failure?.map (LexError.shift n) }

theorem Scan.ofCharsFrom_add (n position passing : Nat) (cs : List Char) :
    ofCharsFrom (position + n) passing cs = (ofCharsFrom position passing cs).shift n := by
  induction cs generalizing position passing with
  | nil => rfl
  | cons c rest ih =>
      have hnext (passing : Nat) : ofCharsFrom (position + n + 1) passing rest =
          (ofCharsFrom (position + 1) passing rest).shift n := by
        rw [Nat.add_right_comm, ih]
      cases passing with
      | succ passing => exact hnext passing
      | zero =>
          simp only [ofCharsFrom, hnext]
          cases Lexeme.front (c :: rest) <;> rfl

theorem Lexing.cons_shift (n : Nat) (answer : Answer) (l : Lexing) :
    cons (answer.shift n) (l.shift n) = (cons answer l).shift n := by
  cases answer <;> rfl

namespace Registry

variable {r : Registry} {line : Nat}

/-- A name that is not resolved has no position. -/
theorem shift_tokenOf (n : Nat) (l : Lexeme) : (r.tokenOf line l).shift n = r.tokenOf line l := by
  cases l with
  | name name =>
      simp only [tokenOf]
      cases r.resolve (Name.reference name) line <;> rfl
  | _ => rfl

theorem answerOf_shift (n : Nat) (p : Piece) :
    r.answerOf line (p.shift n) = (r.answerOf line p).shift n := by
  obtain ⟨start, length, reading⟩ := p
  cases reading with
  | lexeme l => exact (shift_tokenOf n l).symm
  | notNumeral run => rfl

theorem ofScan_shift (n : Nat) (s : Scan) :
    Lexing.ofScan r line (s.shift n) = (Lexing.ofScan r line s).shift n := by
  obtain ⟨pieces, ending⟩ := s
  induction pieces with
  | nil => cases ending <;> rfl
  | cons p pieces ih =>
      have hcons (p : Piece) (pieces : List Piece) (ending : Ending) :
          Lexing.ofScan r line ⟨p :: pieces, ending⟩ =
            .cons (r.answerOf line p) (.ofScan r line ⟨pieces, ending⟩) := rfl
      rw [hcons, ← Lexing.cons_shift, ← answerOf_shift, ← ih]
      rfl

/-- The rest of a text is lexed as if it stood alone, with its faults further back. -/
theorem lexFrom_add (n position : Nat) (cs : List Char) :
    r.lexFrom line (position + n) cs = (r.lexFrom line position cs).shift n := by
  rw [lexFrom, Scan.ofCharsFrom_add, ofScan_shift]
  rfl

end Registry

end DisplayLogic
