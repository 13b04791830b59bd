import DisplayLogic.Proofs.Grammar.Reading

/-!
# The variables of a condition

`Condition.variables` lists the sources that a condition was written with, from left to right and
each as often as it occurs: those that are asked for their truth and those that are compared. The
sources inside of an element are none of them, because the element is a variable of its own. A
derivation has these sources at its leaves, in the same order.
-/

namespace DisplayLogic

/-- The source that a token stands for. -/
def Token.source? : Token → Option Source
  | .source s => some s
  | _ => none

def Operand.variables : Operand → List Source
  | .source s => [s]
  | .literal _ => []

/-- The sources that occur in a condition as atoms or operands. -/
def Condition.variables : Condition → List Source
  | .literal _ => []
  | .holds s => [s]
  | .comparison left _ right _ => left.variables ++ right.variables
  | .all conditions | .any conditions => conditions.flatMap fun c => c.variables

namespace Grammar

theorem variables_combine {connective : List Condition → Condition}
    (h : ∀ cs, (connective cs).variables = cs.flatMap fun c => c.variables)
    (conditions : List Condition) :
    (Part.combine connective conditions).variables = conditions.flatMap fun c => c.variables := by
  cases conditions with
  | nil => exact h []
  | cons c rest =>
      cases rest with
      | nil =>
          rw [List.flatMap_singleton]
          rfl
      | cons d rest => exact h (c :: d :: rest)

theorem Disjunction.flatMap_variables (e : Disjunction) :
    e.conditions.flatMap (fun c => c.variables) = e.condition.variables := by
  rw [← e.combine_conditions]
  exact (variables_combine (fun _ => by rw [Condition.variables]) e.conditions).symm

theorem Conjunction.flatMap_variables (e : Conjunction) :
    e.conditions.flatMap (fun c => c.variables) = e.condition.variables := by
  rw [← e.combine_conditions]
  exact (variables_combine (fun _ => by rw [Condition.variables]) e.conditions).symm

theorem filterMap_source?_token (x : Operand) (ts : List Token) :
    (x.token :: ts).filterMap Token.source? = x.variables ++ ts.filterMap Token.source? := by
  cases x with
  | source s => rfl
  | literal c => cases c <;> rfl

mutual

theorem Disjunction.filterMap_source?_tokens : ∀ e : Disjunction,
    e.tokens.filterMap Token.source? = e.conditions.flatMap fun c => c.variables
  | .single first => by
      rw [Disjunction.tokens, Disjunction.conditions, List.flatMap_singleton,
        first.filterMap_source?_tokens, first.flatMap_variables]
  | .more first rest => by
      rw [Disjunction.tokens, Disjunction.conditions, List.filterMap_append, List.flatMap_cons,
        first.filterMap_source?_tokens, first.flatMap_variables, List.filterMap_cons_none rfl,
        rest.filterMap_source?_tokens]

theorem Conjunction.filterMap_source?_tokens : ∀ e : Conjunction,
    e.tokens.filterMap Token.source? = e.conditions.flatMap fun c => c.variables
  | .single first => by
      rw [Conjunction.tokens, Conjunction.conditions, List.flatMap_singleton]
      exact first.filterMap_source?_tokens
  | .more first rest => by
      rw [Conjunction.tokens, Conjunction.conditions, List.filterMap_append, List.flatMap_cons,
        first.filterMap_source?_tokens, List.filterMap_cons_none rfl,
        rest.filterMap_source?_tokens]

theorem Factor.filterMap_source?_tokens : ∀ f : Factor,
    f.tokens.filterMap Token.source? = f.condition.variables
  | .group inner => by
      rw [Factor.tokens, Factor.condition, List.filterMap_append, List.filterMap_cons_none rfl,
        inner.filterMap_source?_tokens, inner.flatMap_variables, List.filterMap_cons_none rfl,
        List.filterMap_nil, List.append_nil]
  | .literal value => by
      rw [Factor.condition, Condition.variables]
      rfl
  | .holds source => by
      rw [Factor.condition, Condition.variables]
      rfl
  | .comparison left relation right => by
      rw [Factor.tokens, Factor.condition, Condition.variables, filterMap_source?_token,
        List.filterMap_cons_none rfl, filterMap_source?_token, List.filterMap_nil,
        List.append_nil]

end

end Grammar

end DisplayLogic
