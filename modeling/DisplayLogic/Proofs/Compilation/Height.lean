import DisplayLogic.Proofs.Compilation.Stages
import DisplayLogic.Proofs.Condition.Height
import DisplayLogic.Proofs.Token.Balance

/-!
# How high compiled conditions are

However long a text is, its condition is not high. A pair of parentheses adds two nodes at most to a
path, one for each connective, and so does the text around all of them; only the leaf comes on top.
Since groups stand at most 64 deep, no path has more than 131 nodes. Evaluation and outline get by
with so many calls at a time, and with so many levels of indentation.
-/

namespace DisplayLogic

theorem Token.groupDepths_append (ts us : List Token) :
    groupDepths (ts ++ us) = max (groupDepths ts) (groupDepths us) := by
  induction ts with
  | nil => exact (Nat.zero_max _).symm
  | cons t rest ih => rw [List.cons_append, groupDepths, ih, groupDepths, Nat.max_assoc]

namespace Grammar

/-- A disjunction is one node higher than its members or, with a single one, just as high. -/
theorem Disjunction.height_condition_le_heights (e : Disjunction) :
    e.condition.height ≤ Condition.heights e.conditions + 1 := by
  cases e with
  | single first =>
      rw [condition, conditions]
      exact Nat.le_succ_of_le (Condition.height_le_heights (List.mem_singleton_self _))
  | more first rest =>
      rw [condition, conditions, Condition.height]

theorem Conjunction.height_condition_le_heights (e : Conjunction) :
    e.condition.height ≤ Condition.heights e.conditions + 1 := by
  cases e with
  | single first =>
      rw [condition, conditions]
      exact Nat.le_succ_of_le (Condition.height_le_heights (List.mem_singleton_self _))
  | more first rest =>
      rw [condition, conditions, Condition.height]

mutual

/-- Each pair of parentheses inside adds two nodes, and the conjunctions themselves one. -/
theorem Disjunction.heights_conditions_le : ∀ e : Disjunction,
    Condition.heights e.conditions ≤ 2 * Token.groupDepths e.nested + 2
  | .single first => by
      have hfirst := first.height_condition_le_heights
      have hmembers := first.heights_conditions_le
      rw [Disjunction.conditions, Disjunction.nested, Condition.heights, Condition.heights]
      omega
  | .more first rest => by
      have hfirst := first.height_condition_le_heights
      have hmembers := first.heights_conditions_le
      have hrest := rest.heights_conditions_le
      rw [Disjunction.conditions, Disjunction.nested, Condition.heights, Token.groupDepths_append,
        Token.groupDepths]
      omega

theorem Conjunction.heights_conditions_le : ∀ e : Conjunction,
    Condition.heights e.conditions ≤ 2 * Token.groupDepths e.nested + 1
  | .single first => by
      have hfirst := first.height_condition_le
      rw [Conjunction.conditions, Conjunction.nested, Condition.heights, Condition.heights]
      omega
  | .more first rest => by
      have hfirst := first.height_condition_le
      have hrest := rest.heights_conditions_le
      rw [Conjunction.conditions, Conjunction.nested, Condition.heights, Token.groupDepths_append,
        Token.groupDepths]
      omega

theorem Factor.height_condition_le : ∀ f : Factor,
    f.condition.height ≤ 2 * Token.groupDepths f.nested + 1
  | .group inner => by
      have hinner := inner.height_condition_le_heights
      have hmembers := inner.heights_conditions_le
      rw [Factor.condition, Factor.nested, Token.groupDepths, Token.groupDepth, Token.groupDepths]
      omega
  | .literal value | .holds source | .comparison left relation right => by
      rw [Factor.condition, Condition.height]
      exact Nat.le_add_left ..

end

end Grammar

namespace Registry

variable {r : Registry} {e : Expression} {c : Condition}

theorem height_of_compile (h : (r.compile e).outcome = .ok c) : c.height ≤ 131 := by
  obtain ⟨derivation, -, rfl, hnesting⟩ := compile_eq_ok_iff.mp h
  have hheight := derivation.height_condition_le_heights
  have hmembers := derivation.heights_conditions_le
  rw [← derivation.flatten_nested, Token.nesting_flatten derivation.unmarked_nested,
    Token.maxNesting] at hnesting
  omega

/-- Whatever text a condition is compiled from, its paths have at most 131 nodes. Evaluation and
outline never need more calls at a time, and no line is indented further. -/
theorem bounded_of_compile (h : (r.compile e).outcome = .ok c) :
    (∀ path, c.IsPath path → path.length ≤ 131) ∧
      (∀ cells, c.evalWithin cells 131 = .lift (c.eval cells)) ∧
      c.outlineWithin 131 0 = some c.outline ∧
      ∀ line ∈ c.outline, ∃ depth ≤ 131, indentation line = 2 * depth := by
  have hheight := height_of_compile h
  refine ⟨fun path hpath => ?_, fun cells => ?_, ?_, fun line hline => ?_⟩
  · exact Nat.le_trans hpath.length_le hheight
  · exact Condition.evalWithin_of_height_le cells hheight
  · exact Condition.outlineWithin_of_height_le hheight 0
  · obtain ⟨depth, hdepth, hindentation⟩ := Condition.exists_indentation_eq hline
    rw [Nat.zero_add] at hdepth
    exact ⟨depth, Nat.le_trans hdepth hheight, hindentation⟩

/-- Two connectives and a leaf without parentheses, and two more connectives inside of them. -/
theorem bounded_of_compile_of_group :
    let leaf : Condition := .literal true
    let inner : Condition := .any [.all [leaf, .literal false], leaf]
    let c : Condition := .any [.all [inner, leaf], leaf]
    (Registry.empty.compile ⟨"(true & false | true) & true | true", 1⟩).outcome = .ok c ∧
      c.IsPath [c, .all [inner, leaf], inner, .all [leaf, .literal false], leaf] ∧
      ∀ path, c.IsPath path → path.length ≤ 131 := by
  intro leaf inner c
  have hcompile : (Registry.empty.compile ⟨"(true & false | true) & true | true", 1⟩).outcome =
      .ok c := rfl
  have hpath : c.IsPath [c, .all [inner, leaf], inner, .all [leaf, .literal false], leaf] :=
    .cons List.mem_cons_self (.cons List.mem_cons_self (.cons List.mem_cons_self
      (.cons List.mem_cons_self (.leaf rfl))))
  exact ⟨hcompile, hpath, (bounded_of_compile hcompile).1⟩

end Registry

end DisplayLogic
