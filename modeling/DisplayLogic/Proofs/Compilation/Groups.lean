import DisplayLogic.Proofs.Compilation.Stages
import DisplayLogic.Proofs.Grammar.Language
import DisplayLogic.Proofs.Token.Identifiers

/-!
# The groups that a compilation switches on

Binding a name switches on the groups of its entry, long before it is known whether the text is a
condition at all. Nevertheless the groups switched on by a compiled text are those of the variables
in the condition: between the lexer and the condition no variable is lost, repeated or moved. A text
that is refused has switched on the groups of the names in front of its first failure, which are all
of its names if only its structure is wrong.
-/

namespace DisplayLogic

/-- Reading tokens as a condition keeps the sources among them, in order. -/
theorem Condition.variables_of_nest_bind_ofTokens {tokens : List Token}
    (hflat : ∀ t ∈ tokens, t.isGroup = false) {c : Condition}
    (h : (Token.nest tokens >>= Condition.ofTokens) = .ok c) :
    c.variables = tokens.filterMap Token.source? := by
  obtain ⟨⟨e, rfl, rfl⟩, -⟩ := (Grammar.nest_bind_ofTokens_eq_ok_iff hflat).mp h
  rw [e.filterMap_source?_tokens, e.flatMap_variables]

namespace Registry

/-- What the pieces reached by a lexing say about the outcome of its compilation. -/
theorem Reaches.outcome {r : Registry} {line : Nat} {scan : Scan} {reached : List Piece}
    {l : Lexing} (h : r.Reaches line scan reached l) :
    match (Compilation.ofLexing l).outcome with
    | .ok c => scan.pieces = reached ∧ c.variables = l.bindings.map fun b => b.entry.source
    | .error (.structural _) => scan.pieces = reached
    | .error (.lexical fault) => r.StopsBehind line scan reached (.fault fault)
    | .error (.resolution e) => r.StopsBehind line scan reached (.unresolved e) := by
  cases hfailure : l.failure? with
  | some e =>
      rw [Compilation.outcome_of_failure hfailure]
      cases e with
      | fault fault => exact h.stopped _ hfailure
      | unresolved e => exact h.stopped _ hfailure
  | none =>
      rw [Compilation.outcome_of_no_failure hfailure]
      cases hread : Token.nest l.tokens >>= Condition.ofTokens with
      | error e => exact h.finished hfailure
      | ok c =>
          refine ⟨h.finished hfailure, ?_⟩
          rw [← h.sources]
          exact Condition.variables_of_nest_bind_ofTokens h.isFlat hread

/-- The variables of a compiled condition are, one by one, the sources that the names in its text
lead to. -/
theorem forall₂_variables_of_compile {r : Registry} {e : Expression} {c : Condition}
    (h : (r.compile e).outcome = .ok c) :
    List.Forall₂ (fun name s => ∃ entry, r.findQualified? name = some entry ∧ entry.source = s)
      ((Scan.ofChars e.text.toList).pieces.filterMap Piece.name?) c.variables := by
  obtain ⟨reached, hreached⟩ : ∃ reached,
      r.Reaches e.line (.ofChars e.text.toList) reached (r.lex e.text e.line) :=
    exists_reaches r e.line _ Scan.isName_of_mem
  have houtcome := hreached.outcome
  rw [compile] at h
  rw [h] at houtcome
  obtain ⟨hpieces, hvariables⟩ := houtcome
  have hbound := List.forall₂_map_right_iff.mp hreached.bound
  rw [hpieces, hvariables, List.forall₂_map_right_iff]
  refine hbound.imp ?_
  intro name b hb
  exact ⟨b.entry, hb, rfl⟩

/-- A compilation adds to the groups just those that are required by the entries of the names it
came through, and lists them in strictly ascending order. In a compiled text these entries supply
the variables of the condition, one by one. -/
theorem compile_groups (r : Registry) (e : Expression) (before : Groups) :
    let c := r.compile e
    let scan := Scan.ofChars e.text.toList
    (c.groups before).names.Pairwise (· < ·) ∧
      ∃ (reached : List Piece) (entries : List Entry),
        List.Forall₂ (fun name entry => r.findQualified? name = some entry)
          (reached.filterMap Piece.name?) entries ∧
        (∀ g, g ∈ c.groups before ↔ g ∈ before ∨ ∃ entry ∈ entries, g ∈ entry.requires) ∧
        match c.outcome with
        | .ok condition => scan.pieces = reached ∧ condition.variables = entries.map Entry.source
        | .error (.structural _) => scan.pieces = reached
        | .error (.lexical fault) => r.StopsBehind e.line scan reached (.fault fault)
        | .error (.resolution error) => r.StopsBehind e.line scan reached (.unresolved error) := by
  intro c scan
  have hnames : ∀ p ∈ scan.pieces, ∀ name, p.name? = some name → Name.isName name = true :=
    Scan.isName_of_mem
  obtain ⟨reached, hreached⟩ := exists_reaches r e.line scan.ending hnames
  refine ⟨(c.groups before).ascending, reached, c.bindings.map Binding.entry, hreached.bound, ?_,
    ?_⟩
  · intro g
    simp only [Compilation.groups, Groups.mem_bindAll, List.mem_map, exists_exists_and_eq_and]
    exact or_comm
  · rw [List.map_map]
    exact hreached.outcome

end Registry

end DisplayLogic
