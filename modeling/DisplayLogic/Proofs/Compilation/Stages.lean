import DisplayLogic.Compilation
import DisplayLogic.Proofs.Grammar.Language
import DisplayLogic.Proofs.Token.Joining

/-!
# The stages of a compilation

A text is compiled in three stages, and the first that fails decides the outcome. The lemmas here
say of each outcome how far the stages went. A text passes all of them just when it is cut into the
tokens of a derivation whose marks are not too deep.
-/

namespace DisplayLogic

namespace Compilation

/-- A compilation succeeds when all of its stages do. -/
theorem outcome_eq_ok_iff {l : Lexing} {c : Condition} :
    (ofLexing l).outcome = .ok c ↔
      ∃ tokens, l.toExcept = .ok tokens ∧ (Token.nest tokens >>= Condition.ofTokens) = .ok c := by
  simp only [ofLexing, Outcome.bind_eq_ok_iff, Outcome.mapError_eq_ok_iff]

theorem outcome_of_failure {l : Lexing} {e : LexError} (h : l.failure? = some e) :
    (ofLexing l).outcome = .error (.ofLexError e) := by
  simp only [ofLexing, Lexing.toExcept, h]
  rfl

theorem outcome_of_no_failure {l : Lexing} (h : l.failure? = none) :
    (ofLexing l).outcome = (Token.nest l.tokens >>= Condition.ofTokens).mapError .structural := by
  simp only [ofLexing, Lexing.toExcept, h]
  rw [Outcome.mapError_bind]
  rfl

end Compilation

namespace Registry

open Grammar

variable {r : Registry} {s : String} {line : Nat}

/-- A text compiles just when it is cut into the tokens of a derivation of moderate depth. -/
theorem compile_eq_ok_iff {c : Condition} :
    (r.compile ⟨s, line⟩).outcome = .ok c ↔
      ∃ e : Disjunction, r.Cuts s.toList e.tokens ∧ e.condition = c ∧
        Token.nesting e.tokens ≤ Token.maxNesting := by
  rw [compile, Compilation.outcome_eq_ok_iff]
  constructor
  · rintro ⟨tokens, hlex, hread⟩
    have hcuts : r.Cuts s.toList tokens := cuts_of_toExcept hlex
    obtain ⟨⟨e, rfl, rfl⟩, hdepth⟩ := (nest_bind_ofTokens_eq_ok_iff hcuts.isFlat).mp hread
    exact ⟨e, hcuts, rfl, hdepth⟩
  · rintro ⟨e, hcuts, rfl, hdepth⟩
    exact ⟨e.tokens, hcuts line 0, e.nest_bind_ofTokens_tokens hdepth⟩

end Registry

end DisplayLogic
