import DisplayLogic.Token.Lexing

/-!
# Lexing one piece at a time

A text is scanned first and bound to the registry afterwards. `Registry.lexFrom` joins the two
walks: it is the lexing of what is left of a text, and each of its equations says what one front
contributes, a lexeme, a character without meaning or a fault, and where the lexing goes on.
-/

namespace DisplayLogic

theorem Lexing.toExcept_eq_ok_iff {l : Lexing} {ts : List Token} :
    l.toExcept = .ok ts ↔ l.failure? = none ∧ l.tokens = ts := by
  obtain ⟨tokens, bindings, failure?⟩ := l
  cases failure? <;> simp [toExcept]

theorem Lexing.toExcept_eq_error_iff {l : Lexing} {e : LexError} :
    l.toExcept = .error e ↔ l.failure? = some e := by
  obtain ⟨tokens, bindings, failure?⟩ := l
  cases failure? <;> simp [toExcept]

theorem Lexing.toExcept_cons_token (t : Token) (binding? : Option Binding) (rest : Lexing) :
    (Lexing.cons (.token t binding?) rest).toExcept = rest.toExcept.map (t :: ·) := by
  obtain ⟨tokens, bindings, failure?⟩ := rest
  cases failure? <;> rfl

/-! ### The front of a text is its first piece -/

namespace Scan

variable {position : Nat} {cs : List Char}

theorem ofCharsFrom_of_nothing {c : Char} (h : Lexeme.front (c :: cs) = .nothing) :
    ofCharsFrom position 0 (c :: cs) = ofCharsFrom (position + 1) 0 cs := by
  simp only [ofCharsFrom, h]

theorem ofCharsFrom_of_loneBang (h : Lexeme.front cs = .loneBang) :
    ofCharsFrom position 0 cs = ⟨[], .loneBang position⟩ := by
  cases cs with
  | nil => nomatch h
  | cons c cs => simp only [ofCharsFrom, h]

/-- Walking to the end of a piece passes over the rest of its characters. -/
theorem ofCharsFrom_piece {length : Nat} {c : Char} (hpos : 0 < length)
    (hle : length ≤ (c :: cs).length) :
    ofCharsFrom (position + 1) (length - 1) cs =
      ofCharsFrom (position + length) 0 ((c :: cs).drop length) := by
  obtain ⟨n, rfl⟩ := Nat.exists_eq_succ_of_ne_zero (Nat.ne_of_gt hpos)
  have hmin : min n cs.length = n := Nat.min_eq_left (Nat.le_of_succ_le_succ hle)
  rw [Nat.succ_sub_one, ofCharsFrom_passing, hmin, List.drop_succ_cons]
  congr 1
  omega

theorem ofCharsFrom_of_lexeme {l : Lexeme} {length : Nat}
    (h : Lexeme.front cs = .lexeme l length) :
    ofCharsFrom position 0 cs =
      (ofCharsFrom (position + length) 0 (cs.drop length)).cons ⟨position, length, .lexeme l⟩ := by
  cases cs with
  | nil => nomatch h
  | cons c cs =>
      obtain ⟨hpos, hle⟩ := Lexeme.front_lexeme_bounds h
      rw [← ofCharsFrom_piece hpos hle]
      simp only [ofCharsFrom, h]

theorem ofCharsFrom_of_notNumeral {run : List Char} (h : Lexeme.front cs = .notNumeral run) :
    ofCharsFrom position 0 cs =
      (ofCharsFrom (position + run.length) 0 (cs.drop run.length)).cons
        ⟨position, run.length, .notNumeral run⟩ := by
  cases cs with
  | nil => nomatch h
  | cons c cs =>
      obtain ⟨hpos, hle⟩ := Lexeme.front_notNumeral_bounds h
      rw [← ofCharsFrom_piece hpos hle]
      simp only [ofCharsFrom, h]

end Scan

namespace Registry

theorem resolve_reference_of_some {r : Registry} {name : List Char} {entry : Entry}
    (hname : Name.isName name = true) (h : r.findQualified? name = some entry) (line : Nat) :
    r.resolve (Name.reference name) line = .ok ⟨Name.reference name, line, entry⟩ := by
  rw [resolve, Name.ofReference?_reference hname]
  simp only [h]

theorem resolve_reference_of_none {r : Registry} {name : List Char}
    (hname : Name.isName name = true) (h : r.findQualified? name = none) (line : Nat) :
    r.resolve (Name.reference name) line = .error (.unknown (Name.reference name) line) := by
  rw [resolve, Name.ofReference?_reference hname]
  simp only [h]

/-- The lexing of the rest of a text of which `position` characters are behind. -/
def lexFrom (r : Registry) (line position : Nat) (cs : List Char) : Lexing :=
  .ofScan r line (.ofCharsFrom position 0 cs)

theorem lex_eq_lexFrom (r : Registry) (text : String) (line : Nat) :
    r.lex text line = r.lexFrom line 0 text.toList := rfl

theorem lexFrom_of_nothing (r : Registry) (line position : Nat) {c : Char} {cs : List Char}
    (h : Lexeme.front (c :: cs) = .nothing) :
    r.lexFrom line position (c :: cs) = r.lexFrom line (position + 1) cs := by
  rw [lexFrom, lexFrom, Scan.ofCharsFrom_of_nothing h]

theorem lexFrom_of_loneBang (r : Registry) (line position : Nat) {cs : List Char}
    (h : Lexeme.front cs = .loneBang) :
    r.lexFrom line position cs = ⟨[], [], some (.fault (.loneBang position))⟩ := by
  rw [lexFrom, Scan.ofCharsFrom_of_loneBang h]
  rfl

theorem lexFrom_of_lexeme (r : Registry) (line position : Nat) {cs : List Char} {l : Lexeme}
    {length : Nat} (h : Lexeme.front cs = .lexeme l length) :
    r.lexFrom line position cs =
      .cons (r.tokenOf line l) (r.lexFrom line (position + length) (cs.drop length)) := by
  rw [lexFrom, lexFrom, Scan.ofCharsFrom_of_lexeme h]
  rfl

theorem lexFrom_of_notNumeral (r : Registry) (line position : Nat) {cs run : List Char}
    (h : Lexeme.front cs = .notNumeral run) :
    r.lexFrom line position cs =
      ⟨[], [], some (.fault (.invalidNumber run position))⟩ := by
  rw [lexFrom, Scan.ofCharsFrom_of_notNumeral h]
  rfl

end Registry

end DisplayLogic
