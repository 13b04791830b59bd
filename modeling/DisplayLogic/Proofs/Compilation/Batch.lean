import DisplayLogic.Batch
import Mathlib.Data.List.FinRange
import Mathlib.Data.List.Sort
import Mathlib.Data.String.Basic

/-!
# Expressions of a batch do not affect one another

A batch is compiled with one set of groups that is handed on from expression to expression, and one
sink that all of them write to. The groups are only ever added to and never looked at, so that what
becomes of an expression does not depend on those around it: `compileAll_eq` gives every part of a
batch in terms of the expressions compiled on their own. It follows that the order of a batch
decides nothing but the order of its results, because a set of groups does not know in which order
it was filled.
-/

namespace DisplayLogic

namespace Groups

/-- Sets of groups with the same members are the same. -/
theorem eq_of_mem_iff {a b : Groups} (h : ∀ name, name ∈ a ↔ name ∈ b) : a = b := by
  obtain ⟨names, hnames⟩ := a
  obtain ⟨names', hnames'⟩ := b
  have heq : names = names' := hnames.eq_of_mem_iff hnames' h
  subst heq
  rfl

/-- The order in which bindings are made does not matter to the groups. -/
theorem bindAll_eq_of_perm {bs cs : List Binding} (h : bs.Perm cs) (groups : Groups) :
    groups.bindAll bs = groups.bindAll cs := by
  apply eq_of_mem_iff
  intro name
  rw [mem_bindAll, mem_bindAll]
  simp only [h.mem_iff]

end Groups

/-- The condition to use is the one compiled, or one that always holds. -/
theorem Compilation.condition_eq (c : Compilation) :
    c.condition =
      match c.outcome with
      | .ok condition => condition
      | .error _ => .literal true := rfl

namespace Registry

variable (r : Registry) (outlines : Bool)

/-- A batch is made of what each of its expressions gives on its own, in order. -/
theorem compileAll_eq (before : Groups) (es : List Expression) :
    r.compileAll outlines before es =
      { conditions := es.map fun e => (r.compile e).condition
        reports := es.flatMap fun e => (r.compile e).reports e outlines
        log := es.flatMap fun e => (r.compile e).bindings.map Binding.record ++
          ((r.compile e).reports e outlines).map Report.record
        groups := before.bindAll (es.flatMap fun e => (r.compile e).bindings) } := by
  induction es generalizing before with
  | nil => rfl
  | cons e rest ih =>
      rw [compileAll, ih, List.map_cons, List.flatMap_cons, List.flatMap_cons, List.flatMap_cons,
        Groups.bindAll_append]
      rfl

/-- A batch of one expression is what the expression gives on its own. -/
theorem compileAll_singleton (before : Groups) (e : Expression) :
    r.compileAll outlines before [e] =
      { conditions := [(r.compile e).condition]
        reports := (r.compile e).reports e outlines
        log := (r.compile e).bindings.map Binding.record ++
          ((r.compile e).reports e outlines).map Report.record
        groups := before.bindAll (r.compile e).bindings } := by
  rw [compileAll_eq]
  simp only [List.map_singleton, List.flatMap_singleton]

theorem groups_compileAll_of_perm {es es' : List Expression} (h : es.Perm es') (before : Groups) :
    (r.compileAll outlines before es).groups = (r.compileAll outlines before es').groups := by
  rw [compileAll_eq, compileAll_eq]
  exact Groups.bindAll_eq_of_perm (h.flatMap_right _) before

/-- Every expression of a batch becomes the condition that it is compiled to on its own, or one that
always holds if it is refused. The sink receives the outlines of the former, if they are wanted,
under a heading each, and one failure for each of the latter. In another order the same batch gives
the same conditions in that order and the same groups. -/
theorem compileAll_independent (before : Groups) (es : List Expression) :
    let batch := r.compileAll outlines before es
    batch.conditions =
        es.map (fun e =>
          match (r.compile e).outcome with
          | .ok condition => condition
          | .error _ => .literal true) ∧
      batch.reports =
        es.flatMap (fun e =>
          match (r.compile e).outcome with
          | .ok condition =>
            if outlines then
              .trace ("Tree for conditional on line " ++ toString e.line ++ ":") ::
                condition.outline.map .trace
            else []
          | .error error =>
            [.failure ("Conditional on line " ++ toString e.line ++ " couldn't be parsed (" ++
              Text.quote e.text ++ "): " ++ error.message)]) ∧
      ∀ order : Equiv.Perm (Fin es.length),
        let reordered := r.compileAll outlines before (List.ofFn fun i => es[order i])
        reordered.conditions.length = es.length ∧
          (∀ i : Fin es.length,
            reordered.conditions[(i : Nat)]? = batch.conditions[(order i : Nat)]?) ∧
          reordered.groups = batch.groups := by
  intro batch
  refine ⟨?_, ?_, ?_⟩
  · simp only [batch, compileAll_eq, Compilation.condition_eq]
  · simp only [batch, compileAll_eq]
    rfl
  · intro order reordered
    have hperm : (List.ofFn fun i => es[order i]).Perm es := by
      have hofFn := order.ofFn_comp_perm es.get
      rwa [List.ofFn_get] at hofFn
    refine ⟨?_, ?_, ?_⟩
    · simp only [reordered, compileAll_eq, List.length_map, List.length_ofFn]
    · intro i
      simp [reordered, batch, compileAll_eq]
    · exact groups_compileAll_of_perm r outlines hperm before

end Registry

end DisplayLogic
