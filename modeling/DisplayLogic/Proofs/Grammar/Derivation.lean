import DisplayLogic.Proofs.Token.Flattening

/-!
# Derivations of conditions

The grammar of conditions has four rules,

* `E := T ('|' T)*`,
* `T := F ('&' F)*`,
* `F := '(' E ')' | boolean | variable | X cmp X`,
* `X := variable | string | number | boolean`,

and a derivation from it is a tree. `Disjunction`, `Conjunction` and `Factor` are the trees of the
first three rules, where a row of members is built up one member at a time; a tree of the last rule
is an `Operand`. `tokens` is the row of tokens at the leaves and `condition` what the derivation
means. Both are defined on trees alone, without a parser.

`nested` is the row of leaves with every pair of parentheses kept together as one group. It is what
a parser sees once the marks have been matched, and it writes out as `tokens`.
-/

namespace DisplayLogic

/-- Whether an operand is a number literal. -/
def Operand.isNumberLiteral : Operand → Bool
  | .literal (.number _) => true
  | _ => false

/-- Whether an operand is a boolean literal. -/
def Operand.isBooleanLiteral : Operand → Bool
  | .literal (.boolean _) => true
  | _ => false

/-- The token that an operand is written with. -/
def Operand.token : Operand → Token
  | .source s => .source s
  | .literal (.text s) => .text s
  | .literal (.number n) => .number n
  | .literal (.boolean b) => .boolean b

namespace Grammar

mutual

/-- A derivation from `E := T ('|' T)*`. -/
inductive Disjunction where
  | single (first : Conjunction)
  | more (first : Conjunction) (rest : Disjunction)

/-- A derivation from `T := F ('&' F)*`. -/
inductive Conjunction where
  | single (first : Factor)
  | more (first : Factor) (rest : Conjunction)

/-- A derivation from `F := '(' E ')' | boolean | variable | X cmp X`. -/
inductive Factor where
  | group (inner : Disjunction)
  | literal (value : Bool)
  | holds (source : Source)
  | comparison (left : Operand) (relation : Relation) (right : Operand)

end

mutual

/-- The tokens at the leaves. -/
def Disjunction.tokens : Disjunction → List Token
  | .single first => first.tokens
  | .more first rest => first.tokens ++ .or :: rest.tokens

def Conjunction.tokens : Conjunction → List Token
  | .single first => first.tokens
  | .more first rest => first.tokens ++ .and :: rest.tokens

def Factor.tokens : Factor → List Token
  | .group inner => .openGroup :: inner.tokens ++ [.closeGroup]
  | .literal value => [.boolean value]
  | .holds source => [.source source]
  | .comparison left relation right => [left.token, .relation relation, right.token]

end

mutual

/-- The leaves, with the contents of each pair of parentheses kept together. -/
def Disjunction.nested : Disjunction → List Token
  | .single first => first.nested
  | .more first rest => first.nested ++ .or :: rest.nested

def Conjunction.nested : Conjunction → List Token
  | .single first => first.nested
  | .more first rest => first.nested ++ .and :: rest.nested

def Factor.nested : Factor → List Token
  | .group inner => [.group inner.nested]
  | .literal value => [.boolean value]
  | .holds source => [.source source]
  | .comparison left relation right => [left.token, .relation relation, right.token]

end

mutual

/-- What the members of a disjunction mean, in order. -/
def Disjunction.conditions : Disjunction → List Condition
  | .single first => [first.condition]
  | .more first rest => first.condition :: rest.conditions

/-- What a derivation means: its only member, or all members under the connective. -/
def Disjunction.condition : Disjunction → Condition
  | .single first => first.condition
  | .more first rest => .any (first.condition :: rest.conditions)

/-- What the members of a conjunction mean, in order. -/
def Conjunction.conditions : Conjunction → List Condition
  | .single first => [first.condition]
  | .more first rest => first.condition :: rest.conditions

def Conjunction.condition : Conjunction → Condition
  | .single first => first.condition
  | .more first rest => .all (first.condition :: rest.conditions)

def Factor.condition : Factor → Condition
  | .group inner => inner.condition
  | .literal value => .literal value
  | .holds source => .holds source
  | .comparison left relation right =>
    .comparison left relation right
      { boolean := left.isBooleanLiteral || right.isBooleanLiteral
        number := left.isNumberLiteral || right.isNumberLiteral }

end

/-! ### The two rows of leaves -/

theorem isPlain_token (x : Operand) : x.token.isPlain = true := by
  cases x with
  | source s => rfl
  | literal c => cases c <;> rfl

mutual

theorem Disjunction.unmarked_nested : ∀ e : Disjunction, ∀ t ∈ e.nested, t.Unmarked
  | .single first => first.unmarked_nested
  | .more first rest => by
      have hor : Token.Unmarked .or := .plain rfl
      exact List.forall_mem_append.mpr
        ⟨first.unmarked_nested, List.forall_mem_cons.mpr ⟨hor, rest.unmarked_nested⟩⟩

theorem Conjunction.unmarked_nested : ∀ e : Conjunction, ∀ t ∈ e.nested, t.Unmarked
  | .single first => first.unmarked_nested
  | .more first rest => by
      have hand : Token.Unmarked .and := .plain rfl
      exact List.forall_mem_append.mpr
        ⟨first.unmarked_nested, List.forall_mem_cons.mpr ⟨hand, rest.unmarked_nested⟩⟩

theorem Factor.unmarked_nested : ∀ f : Factor, ∀ t ∈ f.nested, t.Unmarked
  | .group inner => by
      intro t ht
      rw [List.mem_singleton.mp ht]
      exact .group inner.unmarked_nested
  | .literal value | .holds source => by
      intro t ht
      rw [List.mem_singleton.mp ht]
      exact .plain rfl
  | .comparison left relation right => by
      intro t ht
      simp only [Factor.nested, List.mem_cons, List.not_mem_nil, or_false] at ht
      rcases ht with rfl | rfl | rfl
      · exact .plain (isPlain_token left)
      · exact .plain rfl
      · exact .plain (isPlain_token right)

end

mutual

theorem Disjunction.flatten_nested : ∀ e : Disjunction, Token.flatten e.nested = e.tokens
  | .single first => first.flatten_nested
  | .more first rest => by
      rw [Disjunction.nested, Disjunction.tokens, Token.flatten_append, first.flatten_nested,
        Token.flatten_cons, rest.flatten_nested]
      rfl

theorem Conjunction.flatten_nested : ∀ e : Conjunction, Token.flatten e.nested = e.tokens
  | .single first => first.flatten_nested
  | .more first rest => by
      rw [Conjunction.nested, Conjunction.tokens, Token.flatten_append, first.flatten_nested,
        Token.flatten_cons, rest.flatten_nested]
      rfl

theorem Factor.flatten_nested : ∀ f : Factor, Token.flatten f.nested = f.tokens
  | .group inner => by
      rw [Factor.nested, Factor.tokens, Token.flatten_cons, Token.flat_group,
        inner.flatten_nested, Token.flatten_nil, List.append_nil]
      rfl
  | .literal value | .holds source => rfl
  | .comparison left relation right => by
      have hleft := Token.flat_of_isGroup (Token.isGroup_of_isPlain (isPlain_token left))
      have hright := Token.flat_of_isGroup (Token.isGroup_of_isPlain (isPlain_token right))
      rw [Factor.nested, Factor.tokens, Token.flatten_cons, hleft, Token.flatten_cons,
        Token.flatten_cons, hright]
      rfl

end

end Grammar

end DisplayLogic
