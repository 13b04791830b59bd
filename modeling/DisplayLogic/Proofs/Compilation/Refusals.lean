import DisplayLogic.Proofs.Compilation.Stages
import DisplayLogic.Proofs.Grammar.Segments
import DisplayLogic.Proofs.Token.Balance

/-!
# Why a text is refused

A text may be at fault in many places, and for each of the three stages of a compilation. The error
that is reported belongs to the earliest stage that finds a fault, and to the first fault that this
stage meets. `Registry.Refuses` says this without running any stage but those that have passed: by
the pieces of the text in their order, then by the level of the marks, then by the segments in the
order in which they are met.

In particular a name that leads nowhere is reported even if the marks in front of it do not match,
and a faulty segment is reported only if all marks match.
-/

namespace DisplayLogic

/-- The failure, if the lexer answers with one. -/
def Answer.failure? : Answer → Option LexError
  | .failure e => some e
  | _ => none

/-- What can be wrong with a piece of text that stands on a line. -/
inductive Registry.PieceFault (r : Registry) (line : Nat) : Piece → LexError → Prop where
  | unresolved {piece : Piece} {name : List Char} {e : ResolveError}
      (hname : piece.name? = some name) (h : r.resolve (Name.reference name) line = .error e) :
      r.PieceFault line piece (.unresolved e)
  | notNumeral {piece : Piece} {run : List Char} (hrun : piece.reading = .notNumeral run) :
      r.PieceFault line piece (.fault (.invalidNumber run piece.start))

/-- The first fault of a scan, in the order of the text. A lone exclamation mark ends the scan, so
that all pieces stand in front of it. -/
inductive Registry.FirstLexFault (r : Registry) (line : Nat) (scan : Scan) : LexError → Prop where
  | piece {e : LexError} (h : Outcome.FirstFault (r.PieceFault line) scan.pieces e) :
      r.FirstLexFault line scan e
  | loneBang {position : Nat} (hpieces : ∀ piece ∈ scan.pieces, ∀ e, ¬ r.PieceFault line piece e)
      (hending : scan.ending = .loneBang position) :
      r.FirstLexFault line scan (.fault (.loneBang position))

/-- Why the text of an expression is refused: for the first fault of the pieces in it or, if it has
none, for a fault of the marks among its tokens or, if these match, for the first faulty segment. -/
inductive Registry.Refuses (r : Registry) (e : Expression) : CompileError → Prop where
  | lexical {fault : LexFault}
      (h : r.FirstLexFault e.line (.ofChars e.text.toList) (.fault fault)) :
      r.Refuses e (.lexical fault)
  | resolution {error : ResolveError}
      (h : r.FirstLexFault e.line (.ofChars e.text.toList) (.unresolved error)) :
      r.Refuses e (.resolution error)
  | marks {tokens : List Token} {error : ParseError}
      (hlex : (r.lex e.text e.line).toExcept = .ok tokens) (h : Token.MarksFault tokens error) :
      r.Refuses e (.structural error)
  | segment {tokens ts : List Token} {error : ParseError}
      (hlex : (r.lex e.text e.line).toExcept = .ok tokens) (hnest : Token.nest tokens = .ok ts)
      (h : Outcome.FirstFault Token.SegmentFault (Token.visited ts) error) :
      r.Refuses e (.structural error)

namespace Registry

variable {r : Registry} {line : Nat}

/-! ### The first stage -/

theorem failure?_answerOf_eq_some_iff (piece : Piece) (e : LexError) :
    (r.answerOf line piece).failure? = some e ↔ r.PieceFault line piece e := by
  constructor
  · intro h
    cases hreading : piece.reading with
    | notNumeral run =>
        simp only [answerOf, hreading] at h
        cases h
        exact .notNumeral hreading
    | lexeme lexeme =>
        simp only [answerOf, hreading] at h
        cases lexeme with
        | name name =>
            have hname : piece.name? = some name := by rw [Piece.name?, hreading]
            cases hresolve : r.resolve (Name.reference name) line with
            | error error =>
                simp only [tokenOf, hresolve] at h
                cases h
                exact .unresolved hname hresolve
            | ok binding =>
                simp only [tokenOf, hresolve] at h
                cases h
        | _ => cases h
  · intro h
    cases h with
    | @unresolved name error hname hresolve =>
        simp only [answerOf, Piece.reading_of_name?_eq_some hname, tokenOf, hresolve]
        rfl
    | notNumeral hrun =>
        simp only [answerOf, hrun]
        rfl

theorem answerOf_ne_finished (piece : Piece) : r.answerOf line piece ≠ .finished := by
  rw [answerOf]
  split
  · exact r.tokenOf_ne_finished line _
  · intro h
    cases h

/-- A scan fails at its first piece that does, or else at its end. -/
theorem failure?_ofScan (r : Registry) (line : Nat) (scan : Scan) :
    (Lexing.ofScan r line scan).failure? =
      (scan.pieces.findSome? fun piece => (r.answerOf line piece).failure?).or
        scan.ending.answer.failure? := by
  obtain ⟨pieces, ending⟩ := scan
  induction pieces with
  | nil => cases ending <;> rfl
  | cons piece rest ih =>
      have hcons : Lexing.ofScan r line ⟨piece :: rest, ending⟩ =
        .cons (r.answerOf line piece) (.ofScan r line ⟨rest, ending⟩) := rfl
      rw [hcons, List.findSome?_cons]
      cases hanswer : r.answerOf line piece with
      | finished => exact absurd hanswer (answerOf_ne_finished piece)
      | failure e => rfl
      | token t binding? => exact ih

theorem failure?_ofScan_eq_some_iff {scan : Scan} {e : LexError} :
    (Lexing.ofScan r line scan).failure? = some e ↔ r.FirstLexFault line scan e := by
  have hpiece : (scan.pieces.findSome? fun piece => (r.answerOf line piece).failure?) = some e ↔
      Outcome.FirstFault (r.PieceFault line) scan.pieces e :=
    Outcome.findSome?_eq_some_iff_firstFault failure?_answerOf_eq_some_iff
  have hpieces : (scan.pieces.findSome? fun piece => (r.answerOf line piece).failure?) = none ↔
      ∀ piece ∈ scan.pieces, ∀ e, ¬ r.PieceFault line piece e :=
    Outcome.findSome?_eq_none_iff_forall_not_fault failure?_answerOf_eq_some_iff
  rw [failure?_ofScan, Option.or_eq_some_iff, hpiece, hpieces]
  constructor
  · rintro (h | ⟨hnone, h⟩)
    · exact .piece h
    · cases hending : scan.ending with
      | finished position =>
          rw [hending] at h
          cases h
      | loneBang position =>
          rw [hending] at h
          cases h
          exact .loneBang hnone hending
  · intro h
    cases h with
    | piece h => exact .inl h
    | loneBang hnone hending =>
        rw [hending]
        exact .inr ⟨hnone, rfl⟩

/-! ### All stages -/

variable {e : Expression} {error : CompileError}

theorem failure?_lex_eq_some_iff {lexError : LexError} :
    (r.lex e.text e.line).failure? = some lexError ↔
      r.FirstLexFault e.line (.ofChars e.text.toList) lexError :=
  failure?_ofScan_eq_some_iff

/-- A text that is not cut into tokens is refused for nothing else. -/
theorem refuses_iff_of_failure {lexError : LexError}
    (hfailure : (r.lex e.text e.line).failure? = some lexError) :
    r.Refuses e error ↔ error = .ofLexError lexError := by
  constructor
  · intro h
    cases h with
    | lexical h | resolution h =>
        rw [failure?_lex_eq_some_iff.mpr h] at hfailure
        cases hfailure
        rfl
    | marks hlex | segment hlex =>
        rw [(Lexing.toExcept_eq_ok_iff.mp hlex).1] at hfailure
        cases hfailure
  · rintro rfl
    have hfirst := failure?_lex_eq_some_iff.mp hfailure
    cases lexError with
    | fault fault => exact .lexical hfirst
    | unresolved error => exact .resolution hfirst

/-- The tokens of a text are at fault for their marks or, if these match, for a segment. -/
theorem refuses_iff_of_no_failure (hfailure : (r.lex e.text e.line).failure? = none) :
    r.Refuses e error ↔
      ∃ parseError, (Token.nest (r.lex e.text e.line).tokens >>= Condition.ofTokens) =
        .error parseError ∧ error = .structural parseError := by
  have hlex : (r.lex e.text e.line).toExcept = .ok (r.lex e.text e.line).tokens :=
    Lexing.toExcept_eq_ok_iff.mpr ⟨hfailure, rfl⟩
  simp only [Outcome.bind_eq_error_iff, Token.nest_eq_error_iff, Condition.ofTokens_eq_error_iff]
  constructor
  · intro h
    cases h with
    | lexical h | resolution h =>
        rw [failure?_lex_eq_some_iff.mpr h] at hfailure
        cases hfailure
    | marks hlex' h =>
        rw [(Lexing.toExcept_eq_ok_iff.mp hlex').2]
        exact ⟨_, .inl h, rfl⟩
    | segment hlex' hnest h =>
        rw [(Lexing.toExcept_eq_ok_iff.mp hlex').2]
        exact ⟨_, .inr ⟨_, hnest, h⟩, rfl⟩
  · rintro ⟨parseError, hmarks | ⟨ts, hnest, hsegment⟩, rfl⟩
    · exact .marks hlex hmarks
    · exact .segment hlex hnest hsegment

/-- The error of a compilation is that of its earliest stage that fails. -/
theorem refuses_of_outcome (h : (r.compile e).outcome = .error error) : r.Refuses e error := by
  rw [compile] at h
  cases hfailure : (r.lex e.text e.line).failure? with
  | some lexError =>
      rw [Compilation.outcome_of_failure hfailure, Except.error.injEq] at h
      exact (refuses_iff_of_failure hfailure).mpr h.symm
  | none =>
      rw [Compilation.outcome_of_no_failure hfailure, Outcome.mapError_eq_error_iff] at h
      exact (refuses_iff_of_no_failure hfailure).mpr h

/-- A closing mark and an empty segment in front of a run that is no numeral go unreported. -/
example : (empty.compile ⟨") | 1.2.3", 1⟩).outcome =
    .error (.lexical (.invalidNumber ['1', '.', '2', '.', '3'] 4)) := rfl

end Registry

end DisplayLogic
