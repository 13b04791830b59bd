import DisplayLogic.Proofs.Compilation.Stages
import DisplayLogic.Proofs.Condition.Printing

/-!
# Printed conditions compile to themselves

A well-formed condition that is printed with a space between its tokens is compiled to the very
condition it was printed from, as long as its parentheses are not too deep. The lexer finds the
printed tokens again, whatever names and numerals were chosen for them, and the grammar derives
them, so that reading them gives the condition back.
-/

namespace DisplayLogic

namespace Registry

/-- The printed tokens of a well-formed condition are read as the condition. -/
theorem nest_bind_ofTokens_tokens {r : Registry} {c : Condition} (h : c.WellFormed r)
    (hdepth : Token.nesting c.tokens ≤ Token.maxNesting) :
    (Token.nest c.tokens >>= Condition.ofTokens) = .ok c := by
  obtain ⟨e, he, hcondition⟩ := h.exists_disjunction
  rw [← he] at hdepth ⊢
  rw [← hcondition]
  exact e.nest_bind_ofTokens_tokens hdepth

theorem exists_spellings {r : Registry} {tokens : List Token}
    (h : ∀ t ∈ tokens, ∃ cs, r.Spells t cs) :
    ∃ spellings, List.Forall₂ r.Spells tokens spellings := by
  induction tokens with
  | nil => exact ⟨[], .nil⟩
  | cons t rest ih =>
      obtain ⟨⟨cs, ht⟩, hrest⟩ := List.forall_mem_cons.mp h
      obtain ⟨spellings, hspellings⟩ := ih hrest
      exact ⟨cs :: spellings, .cons ht hspellings⟩

/-- A well-formed condition whose parentheses stand at most 64 deep can be printed, and every print
of it, with whatever names and numerals, is compiled to the condition on any line. -/
theorem compile_intercalate_eq_ok {r : Registry} {c : Condition} (h : c.WellFormed r)
    (hdepth : Token.nesting c.tokens ≤ 64) :
    (∃ spellings, List.Forall₂ r.Spells c.tokens spellings) ∧
      ∀ spellings, List.Forall₂ r.Spells c.tokens spellings → ∀ line,
        (r.compile ⟨.ofList ([' '].intercalate spellings), line⟩).outcome = .ok c := by
  refine ⟨exists_spellings h.exists_spelling, ?_⟩
  intro spellings hspellings line
  rw [compile, Compilation.outcome_eq_ok_iff]
  refine ⟨c.tokens, ?_, nest_bind_ofTokens_tokens h hdepth⟩
  rw [lex_eq_lexFrom, String.toList_ofList]
  exact lexFrom_intercalate hspellings line 0

theorem compile_printed_groups :
    let s : Source := .constant (.number .zero)
    let r : Registry := Registry.empty.register "b" ⟨s, ["world"]⟩
    let c : Condition := .any [.all [.holds s, .comparison (.source s) .notEqual
        (.literal (.text "true |")) ⟨false, false⟩], .any [.literal true,
        .comparison (.literal (.number (.ofRatio 5 10))) .lessEqual (.source s) ⟨false, true⟩]]
    c.WellFormed r ∧ Token.nesting c.tokens ≤ 64 ∧
      (r.compile ⟨"( b & a:b != \"true |\" ) | ( true | .5 <= b )", 7⟩).outcome = .ok c := by
  intro s r c
  have hb : Name.IsWhole ['b'] := ⟨rfl, by decide, by decide⟩
  have hab : Name.IsWhole ['a', ':', 'b'] := ⟨rfl, by decide, by decide⟩
  have hfindb : r.findQualified? ['b'] = some ⟨s, ["world"]⟩ := rfl
  have hfindab : r.findQualified? ['a', ':', 'b'] = some ⟨s, ["world"]⟩ := rfl
  have hsb : r.Supplies ['b'] s := supplies_of_findQualified? hb.isName hfindb
  have hsab : r.Supplies ['a', ':', 'b'] s := supplies_of_findQualified? hab.isName hfindab
  have hhalf : Number.ofNumeral? ['.', '5'] = some (.ofRatio 5 10) := rfl
  have hnumeral : Number.IsNumeral ['.', '5'] :=
    Number.ofNumeral?_isSome_iff.mp (by rw [hhalf]; rfl)
  have htext : '"' ∉ "true |".toList := by decide
  have hsource : (Operand.source s).WellFormed r := .source ⟨_, hb, hsb⟩
  have hconjunction : (Condition.all [.holds s, .comparison (.source s) .notEqual
      (.literal (.text "true |")) ⟨false, false⟩]).WellFormed r := by
    apply Condition.WellFormed.all (by decide)
    rw [List.forall_mem_cons, List.forall_mem_singleton]
    exact ⟨.holds ⟨_, hb, hsb⟩, .comparison hsource (.text htext) rfl rfl⟩
  have hdisjunction : (Condition.any [.literal true,
      .comparison (.literal (.number (.ofRatio 5 10))) .lessEqual (.source s)
        ⟨false, true⟩]).WellFormed r := by
    apply Condition.WellFormed.any (by decide)
    rw [List.forall_mem_cons, List.forall_mem_singleton]
    exact ⟨.literal true, .comparison (.number ⟨_, hnumeral, hhalf⟩) hsource rfl rfl⟩
  have hwell : c.WellFormed r := by
    apply Condition.WellFormed.any (by decide)
    rw [List.forall_mem_cons, List.forall_mem_singleton]
    exact ⟨hconjunction, hdisjunction⟩
  have hdepth : Token.nesting c.tokens ≤ 64 := by decide
  have htokens : List.Forall₂ r.Spells c.tokens [['('], ['b'], ['&'], ['a', ':', 'b'], ['!', '='],
      "\"true |\"".toList, [')'], ['|'], ['('], ['t', 'r', 'u', 'e'], ['|'], ['.', '5'],
      ['<', '='], ['b'], [')']] :=
    .cons .openGroup <| .cons (.source hb hsb) <| .cons .and <| .cons (.source hab hsab) <|
      .cons (.relation .notEqual) <| .cons (.text htext) <| .cons .closeGroup <| .cons .or <|
      .cons .openGroup <| .cons (.boolean true) <| .cons .or <| .cons (.number hnumeral hhalf) <|
      .cons (.relation .lessEqual) <| .cons (.source hb hsb) <| .cons .closeGroup .nil
  exact ⟨hwell, hdepth, (compile_intercalate_eq_ok hwell hdepth).2 _ htokens 7⟩

end Registry

end DisplayLogic
