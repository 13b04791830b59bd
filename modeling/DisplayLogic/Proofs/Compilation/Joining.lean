import DisplayLogic.Proofs.Compilation.Stages
import DisplayLogic.Proofs.Condition.Meaning

/-!
# Conditions put together as texts

Two texts that compile can be joined by a connective, provided that no quote in them is left open.
Written with `|` between them they compile to a disjunction of the members of both, so that two
disjunctions become a single one. With parentheses around each of them they keep their conditions,
whichever connective stands in between, as long as the new parentheses are not too deep.

A text compiles just when it is cut into the tokens of a derivation. The texts are therefore joined
by joining derivations, and the depth of the marks is read off the derivations as well.
-/

namespace DisplayLogic

namespace Grammar

/-! ### Joining derivations -/

/-- The derivation with the members of both, one after the other. -/
def Disjunction.append : Disjunction → Disjunction → Disjunction
  | .single first, e => .more first e
  | .more first rest, e => .more first (rest.append e)

theorem Disjunction.tokens_append (e e' : Disjunction) :
    (e.append e').tokens = e.tokens ++ .or :: e'.tokens := by
  cases e with
  | single first => rfl
  | more first rest =>
      rw [Disjunction.append, Disjunction.tokens, rest.tokens_append e', Disjunction.tokens,
        List.append_assoc, List.cons_append]

theorem Disjunction.conditions_append (e e' : Disjunction) :
    (e.append e').conditions = e.conditions ++ e'.conditions := by
  cases e with
  | single first => rfl
  | more first rest =>
      rw [Disjunction.append, Disjunction.conditions, rest.conditions_append e',
        Disjunction.conditions, List.cons_append]

/-- A disjunction holds when one of its members does, even if there is only one. -/
theorem Disjunction.meaning_condition (cells : Cells) (e : Disjunction) :
    e.condition.meaning cells = (e.conditions.map fun c => c.meaning cells).or := by
  cases e with
  | single first => exact (Bool.or_false _).symm
  | more first rest =>
      rw [Disjunction.condition, Condition.meaning]
      rfl

/-! ### The depth of the marks in a derivation -/

/-- What stands behind a derivation stands as deep as it would alone. -/
theorem Disjunction.nestingFrom_tokens_append (e : Disjunction) (depth : Nat)
    (rest : List Token) :
    Token.nestingFrom depth (e.tokens ++ rest) =
      max (depth + Token.nesting e.tokens) (Token.nestingFrom depth rest) := by
  have hunmarked (t : Token) (ht : t ∈ e.nested) :=
    Token.nestingFrom_flat_append (e.unmarked_nested t ht)
  rw [← e.flatten_nested]
  exact Token.nestingFrom_flatten_append hunmarked depth rest

theorem Disjunction.nesting_append (e e' : Disjunction) :
    Token.nesting (e.append e').tokens =
      max (Token.nesting e.tokens) (Token.nesting e'.tokens) := by
  rw [e.tokens_append, Token.nesting, e.nestingFrom_tokens_append, Nat.zero_add]
  rfl

theorem Factor.tokens_group_append (e : Disjunction) (rest : List Token) :
    (Factor.group e).tokens ++ rest = .openGroup :: (e.tokens ++ .closeGroup :: rest) := by
  rw [Factor.tokens, List.cons_append, List.cons_append, List.append_assoc, List.singleton_append]

/-- A pair of parentheses stands one deeper than what is in between. -/
theorem Factor.nesting_group_append (e : Disjunction) (rest : List Token) :
    Token.nesting ((Factor.group e).tokens ++ rest) =
      max (Token.nesting e.tokens + 1) (Token.nesting rest) := by
  have hclose : Token.nestingFrom 1 (.closeGroup :: rest) = max 1 (Token.nesting rest) := rfl
  rw [tokens_group_append, Token.nesting, Token.nestingFrom, e.nestingFrom_tokens_append, hclose]
  omega

end Grammar

namespace Registry

open Grammar

variable {r : Registry} {s t : String} {a b : Condition} {line line' : Nat}

theorem Cuts.tokens_lex {ts : List Token} (h : r.Cuts s.toList ts) (line : Nat) :
    (r.lex s line).tokens = ts := (Lexing.toExcept_eq_ok_iff.mp (h line 0)).2

theorem Cuts.group_append {cs rest : List Char} {us : List Token} {e : Disjunction}
    (h : r.Cuts cs e.tokens) (heven : Even (cs.count '"')) (hrest : r.Cuts rest us) :
    r.Cuts ('(' :: (cs ++ ')' :: rest)) ((Factor.group e).tokens ++ us) := by
  rw [Factor.tokens_group_append]
  exact .cons Token.isMark_openGroup (h.append_cons heven Token.isMark_closeGroup hrest)

/-- Two texts in parentheses with a connective between them compile to what the two groups and the
connective derive. -/
theorem compile_grouped {cs cs' : List Char} {e e' d : Disjunction} {c : Char} {connective : Token}
    (h : r.Cuts cs e.tokens) (h' : r.Cuts cs' e'.tokens) (heven : Even (cs.count '"'))
    (heven' : Even (cs'.count '"')) (hroom : Token.nesting e.tokens < Token.maxNesting)
    (hroom' : Token.nesting e'.tokens < Token.maxNesting) (hc : connective.IsMark c)
    (hplain : connective.isPlain = true)
    (hd : d.tokens = (Factor.group e).tokens ++ connective :: (Factor.group e').tokens)
    (hs : s.toList = '(' :: (cs ++ ')' :: c :: '(' :: (cs' ++ [')']))) (line : Nat) :
    (r.compile ⟨s, line⟩).outcome = .ok d.condition := by
  have hempty : r.Cuts [] [] := fun _ _ => rfl
  have hlast : r.Cuts ('(' :: (cs' ++ [')'])) (Factor.group e').tokens := by
    simpa using h'.group_append heven' hempty
  have hdeep : Token.nesting (connective :: (Factor.group e').tokens) ≤ Token.maxNesting := by
    have hskip : Token.nesting (connective :: (Factor.group e').tokens) =
        Token.nesting (Factor.group e').tokens := Token.nestingFrom_of_isPlain hplain 0 _
    have hgroup := Factor.nesting_group_append e' []
    rw [List.append_nil] at hgroup
    rw [hskip, hgroup]
    exact Nat.max_le.mpr ⟨hroom', Nat.zero_le _⟩
  refine compile_eq_ok_iff.mpr ⟨d, ?_, rfl, ?_⟩
  · rw [hs, hd]
    exact h.group_append heven (.cons hc hlast)
  · rw [hd, Factor.nesting_group_append]
    exact Nat.max_le.mpr ⟨hroom, hdeep⟩

/-- Two texts that compile and leave no quote open compile to the disjunction of both when `|` is
written between them. In parentheses, if there is room for these, they compile to just the
conjunction or the disjunction of the two conditions. -/
theorem compile_joined (hs : (r.compile ⟨s, line⟩).outcome = .ok a)
    (ht : (r.compile ⟨t, line'⟩).outcome = .ok b) (heven : Even (s.toList.count '"'))
    (heven' : Even (t.toList.count '"')) (line'' : Nat) :
    (∃ c, (r.compile ⟨s ++ "|" ++ t, line''⟩).outcome = .ok c ∧
      ∀ cells, (c.eval cells).value = ((a.eval cells).value || (b.eval cells).value)) ∧
    (Token.nesting (r.lex s line).tokens ≤ 63 → Token.nesting (r.lex t line').tokens ≤ 63 →
      (r.compile ⟨"(" ++ s ++ ")&(" ++ t ++ ")", line''⟩).outcome = .ok (.all [a, b]) ∧
      (r.compile ⟨"(" ++ s ++ ")|(" ++ t ++ ")", line''⟩).outcome = .ok (.any [a, b])) := by
  obtain ⟨e, hcuts, rfl, hdepth⟩ := compile_eq_ok_iff.mp hs
  obtain ⟨e', hcuts', rfl, hdepth'⟩ := compile_eq_ok_iff.mp ht
  constructor
  · refine ⟨(e.append e').condition, compile_eq_ok_iff.mpr ⟨e.append e', ?_, rfl, ?_⟩, ?_⟩
    · rw [e.tokens_append]
      simpa using hcuts.append_cons heven Token.isMark_or hcuts'
    · rw [e.nesting_append]
      exact Nat.max_le.mpr ⟨hdepth, hdepth'⟩
    · intro cells
      simp only [Condition.eval_eq, Disjunction.meaning_condition, e.conditions_append,
        List.map_append]
      exact List.any_append
  · rw [hcuts.tokens_lex, hcuts'.tokens_lex]
    intro hroom hroom'
    have hroom := Nat.lt_succ_of_le hroom
    have hroom' := Nat.lt_succ_of_le hroom'
    constructor
    · exact compile_grouped (d := .single (.more (.group e) (.single (.group e')))) hcuts hcuts'
        heven heven' hroom hroom' Token.isMark_and rfl rfl (by simp) line''
    · exact compile_grouped (d := .more (.single (.group e)) (.single (.single (.group e')))) hcuts
        hcuts' heven heven' hroom hroom' Token.isMark_or rfl rfl (by simp) line''

theorem compile_joined_of_group_and_quoted :
    let zero : Source := .constant (.number .zero)
    let r : Registry := Registry.empty.register "b" ⟨zero, ["world"]⟩
    let a : Condition := .any [.holds zero, .literal false]
    let b : Condition := .all [.literal true,
      .comparison (.source zero) .notEqual (.literal (.text "true |")) ⟨false, false⟩]
    (r.compile ⟨"(b | false)", 1⟩).outcome = .ok a ∧
      (r.compile ⟨"true & a:b != \"true |\"", 2⟩).outcome = .ok b ∧
      (r.compile ⟨"((b | false))&(true & a:b != \"true |\")", 3⟩).outcome = .ok (.all [a, b]) ∧
      ∃ c, (r.compile ⟨"(b | false)|true & a:b != \"true |\"", 3⟩).outcome = .ok c ∧
        ∀ cells, (c.eval cells).value = ((a.eval cells).value || (b.eval cells).value) := by
  intro zero r a b
  have hlex : (r.lex "(b | false)" 1).toExcept = .ok [.openGroup, .source zero, .or,
    .boolean false, .closeGroup] := rfl
  have hlex' : (r.lex "true & a:b != \"true |\"" 2).toExcept = .ok [.boolean true, .and,
    .source zero, .relation .notEqual, .text "true |"] := rfl
  have hs : (r.compile ⟨"(b | false)", 1⟩).outcome = .ok a :=
    Compilation.outcome_eq_ok_iff.mpr ⟨_, hlex, rfl⟩
  have ht : (r.compile ⟨"true & a:b != \"true |\"", 2⟩).outcome = .ok b :=
    Compilation.outcome_eq_ok_iff.mpr ⟨_, hlex', rfl⟩
  have hroom : Token.nesting (r.lex "(b | false)" 1).tokens ≤ 63 := by
    rw [(Lexing.toExcept_eq_ok_iff.mp hlex).2]
    decide
  have hroom' : Token.nesting (r.lex "true & a:b != \"true |\"" 2).tokens ≤ 63 := by
    rw [(Lexing.toExcept_eq_ok_iff.mp hlex').2]
    decide
  have hjoined := compile_joined hs ht (by decide) (by decide) 3
  exact ⟨hs, ht, (hjoined.2 hroom hroom').1, hjoined.1⟩

end Registry

end DisplayLogic
