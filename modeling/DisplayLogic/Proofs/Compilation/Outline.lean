import DisplayLogic.Proofs.Compilation.Stages
import DisplayLogic.Proofs.Condition.Outline

/-!
# Outlines of compiled conditions

A compiled condition is consistent: the kinds of literals that a comparison keeps are those of its
operands. The outline shows these operands, so that compiled conditions with the same outline agree
on the kinds of literals as well, not only on the modes.
-/

namespace DisplayLogic

namespace Grammar

mutual

theorem Disjunction.consistent_conditions :
    ∀ e : Disjunction, ∀ c ∈ e.conditions, c.Consistent
  | .single first => List.forall_mem_singleton.mpr first.consistent_condition
  | .more first rest =>
      List.forall_mem_cons.mpr ⟨first.consistent_condition, rest.consistent_conditions⟩

theorem Disjunction.consistent_condition : ∀ e : Disjunction, e.condition.Consistent
  | .single first => first.consistent_condition
  | .more first rest =>
      .any (List.forall_mem_cons.mpr ⟨first.consistent_condition, rest.consistent_conditions⟩)

theorem Conjunction.consistent_conditions :
    ∀ e : Conjunction, ∀ c ∈ e.conditions, c.Consistent
  | .single first => List.forall_mem_singleton.mpr first.consistent_condition
  | .more first rest =>
      List.forall_mem_cons.mpr ⟨first.consistent_condition, rest.consistent_conditions⟩

theorem Conjunction.consistent_condition : ∀ e : Conjunction, e.condition.Consistent
  | .single first => first.consistent_condition
  | .more first rest =>
      .all (List.forall_mem_cons.mpr ⟨first.consistent_condition, rest.consistent_conditions⟩)

theorem Factor.consistent_condition : ∀ f : Factor, f.condition.Consistent
  | .group inner => inner.consistent_condition
  | .literal value => .literal value
  | .holds source => .holds source
  | .comparison left relation right => by
      rw [Factor.condition, ← kinds_ofOperands]
      exact .comparison left relation right

end

end Grammar

theorem Registry.consistent_of_compile {r : Registry} {e : Expression} {c : Condition}
    (h : (r.compile e).outcome = .ok c) : c.Consistent := by
  obtain ⟨derivation, -, rfl, -⟩ := compile_eq_ok_iff.mp h
  exact derivation.consistent_condition

namespace Condition

/-- Conditions with the same outline are alike, with the same modes. If both are compiled, their
comparisons also keep the same kinds of literals. -/
theorem alike_of_outline_eq {c c' : Condition} (h : c.outline = c'.outline) :
    c.Alike LiteralKinds.SameMode c' ∧
      ∀ (r r' : Registry) (e e' : Expression), (r.compile e).outcome = .ok c →
        (r'.compile e').outcome = .ok c' → c.Alike Eq c' := by
  have halike := alike_of_outlineAt_eq h
  refine ⟨halike, fun r r' e e' hc hc' => ?_⟩
  have hconsistent := Registry.consistent_of_compile hc
  have hconsistent' := Registry.consistent_of_compile hc'
  exact halike.of_consistent hconsistent hconsistent'

/-- An outline shows the label of a feed, but not where its data comes from. -/
theorem alike_of_same_labels :
    let live : Source := .feed ⟨.number, "health", .cell "hp"⟩
    let missing : Source := .feed ⟨.number, "health", .fixed none⟩
    let c (s : Source) : Condition :=
      .any [.holds s, .comparison (.source s) .equal (.literal (.boolean true)) ⟨true, false⟩]
    (c live).outline = (c missing).outline ∧
      (c live).Alike LiteralKinds.SameMode (c missing) ∧
      (c live).Alike Eq (c missing) := by
  intro live missing c
  let r (s : Source) : Registry := Registry.empty.register "hp" ⟨s, []⟩
  have hlex (s : Source) : ((r s).lex "hp | hp = true" 1).toExcept =
    .ok [.source s, .or, .source s, .relation .equal, .boolean true] := rfl
  have hcompile (s : Source) : ((r s).compile ⟨"hp | hp = true", 1⟩).outcome = .ok (c s) :=
    Compilation.outcome_eq_ok_iff.mpr ⟨_, hlex s, rfl⟩
  have houtline : (c live).outline = (c missing).outline := rfl
  have halike := alike_of_outline_eq houtline
  exact ⟨houtline, halike.1, halike.2 _ _ _ _ (hcompile live) (hcompile missing)⟩

end Condition

end DisplayLogic
