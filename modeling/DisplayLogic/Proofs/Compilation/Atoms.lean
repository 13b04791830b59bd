import DisplayLogic.Proofs.Compilation.Stages

/-!
# Texts of a single atom

The smallest texts that compile are a variable on its own and a comparison of two operands with
spaces in between. Each operand may be written in any way that spells its token, and the comparison
gets its mode from the literals among them, as it does everywhere.

A name that is cut as one variable is one of these ways for its source. It stands for the same
source on every line and wherever it is written.
-/

namespace DisplayLogic

namespace Registry

open Grammar

variable {r : Registry} {s : Source}

/-- A text that begins with the word of a boolean is cut behind the word. -/
theorem exists_tokens_of_boolean {cs : List Char} {ts : List Token} {value : Bool}
    (hcuts : r.Cuts ((booleanText value).toList ++ cs) ts) :
    ∃ rest, ts = .boolean value :: rest := by
  have hfront : Lexeme.front ((booleanText value).toList ++ cs) =
      .lexeme (.boolean value) (booleanText value).toList.length := by
    cases value with
    | false => rfl
    | true => rfl
  have htoken : r.tokenOf 0 (.boolean value) = .token (.boolean value) none := rfl
  have hlex := hcuts 0 0
  rw [lexFrom_of_lexeme r 0 0 hfront, htoken, Lexing.toExcept_cons_token] at hlex
  obtain ⟨rest, -, hrest⟩ := Outcome.map_eq_ok_iff.mp hlex
  exact ⟨rest, hrest.symm⟩

/-- A name that is cut as one variable is whole. -/
theorem isWhole_of_cuts {name : List Char} (hname : Name.isName name = true)
    (hcuts : r.Cuts name [.source s]) : Name.IsWhole name := by
  have hword (value : Bool) : ¬ (booleanText value).toList <+: name := by
    rintro ⟨cs, rfl⟩
    obtain ⟨rest, htokens⟩ := exists_tokens_of_boolean hcuts
    nomatch htokens
  exact ⟨hname, hword true, hword false⟩

/-- A name that is cut as one variable spells it. -/
theorem spells_of_cuts {name : List Char} (hname : Name.isName name = true)
    (hcuts : r.Cuts name [.source s]) : r.Spells (.source s) name := by
  have hwhole := isWhole_of_cuts hname hcuts
  refine .source hwhole ?_
  intro line
  have hlex := hcuts line 0
  rw [lexFrom_of_lexeme r line 0 (Lexeme.front_name hwhole), List.drop_length] at hlex
  cases hresolve : r.resolve (Name.reference name) line with
  | error e =>
      simp only [tokenOf, hresolve] at hlex
      cases hlex
  | ok binding =>
      simp only [tokenOf, hresolve] at hlex
      have htokens : [Token.source binding.entry.source] = [.source s] := Except.ok.inj hlex
      exact ⟨binding, rfl, Token.source.inj (List.cons.inj htokens).1⟩

/-- The tokens of a derivation, spelled with spaces in between, are compiled to what it means. -/
theorem compile_spelled {e : Disjunction} {spellings : List (List Char)} {text : String}
    (h : List.Forall₂ r.Spells e.tokens spellings)
    (hdepth : Token.nesting e.tokens ≤ Token.maxNesting)
    (htext : text.toList = [' '].intercalate spellings) (line : Nat) :
    (r.compile ⟨text, line⟩).outcome = .ok e.condition := by
  refine compile_eq_ok_iff.mpr ⟨e, ?_, rfl, hdepth⟩
  rw [htext]
  exact lexFrom_intercalate h

/-- A variable on its own asks for its truth. -/
theorem compile_source {text : String} (h : r.Spells (.source s) text.toList) (line : Nat) :
    (r.compile ⟨text, line⟩).outcome = .ok (.holds s) := by
  let e : Disjunction := .single (.single (.holds s))
  have hspells : List.Forall₂ r.Spells e.tokens [text.toList] := .cons h .nil
  exact compile_spelled hspells (Nat.zero_le _) (List.intercalate_singleton ..).symm line

theorem nesting_comparison (left right : Operand) (relation : Relation) :
    Token.nesting [left.token, .relation relation, right.token] = 0 := by
  rw [Token.nesting, Token.nestingFrom_of_isPlain (isPlain_token left),
    Token.nestingFrom_of_isPlain rfl, Token.nestingFrom_of_isPlain (isPlain_token right)]
  rfl

/-- Two operands with a relation between them are compared by it. -/
theorem compile_comparison {left right : Operand} {relation : Relation} {text : String}
    {cs ds : List Char} (hleft : r.Spells left.token cs) (hright : r.Spells right.token ds)
    (htext : text.toList = cs ++ ' ' :: (relation.symbol.toList ++ ' ' :: ds)) (line : Nat) :
    (r.compile ⟨text, line⟩).outcome = .ok (.relate left relation right) := by
  let e : Disjunction := .single (.single (.comparison left relation right))
  have hspells : List.Forall₂ r.Spells e.tokens [cs, relation.symbol.toList, ds] :=
    .cons hleft (.cons (.relation relation) (.cons hright .nil))
  have hdepth : Token.nesting e.tokens ≤ Token.maxNesting := by
    refine Nat.le_trans (Nat.le_of_eq ?_) (Nat.zero_le _)
    exact nesting_comparison left right relation
  have hmeaning : e.condition = .relate left relation right := by
    rw [Condition.relate, kinds_ofOperands]
    rfl
  rw [← hmeaning]
  refine compile_spelled hspells hdepth ?_ line
  rw [htext, List.intercalate_cons_cons, List.intercalate_cons_cons, List.intercalate_singleton,
    List.append_assoc, List.append_assoc, List.singleton_append, List.singleton_append]

end Registry

end DisplayLogic
