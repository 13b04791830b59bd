import DisplayLogic.Condition.Eval
import DisplayLogic.Proofs.Condition.Outline

/-!
# How high conditions are

The height of a condition is the number of nodes on its longest path from the root to a leaf. It
bounds everything that walks through the tree. Evaluating and outlining are written down once more
with a limit on how many calls may be open at a time: a call that finds no room fails, and the calls
for the members have room for one less. With room for the height nothing fails and the results are
the same, and no line of the outline stands further in than the height.
-/

namespace DisplayLogic

namespace Condition

/-- The conditions that the root joins. -/
def members : Condition → List Condition
  | .all conditions | .any conditions => conditions
  | _ => []

/-- The nodes lead from the root to a leaf. -/
inductive IsPath : Condition → List Condition → Prop where
  | leaf {c : Condition} (h : c.members = []) : IsPath c [c]
  | cons {c member : Condition} {path : List Condition} (hmember : member ∈ c.members)
      (hpath : IsPath member path) : IsPath c (c :: path)

mutual

/-- How many nodes there are on the longest path from the root to a leaf. -/
def height : Condition → Nat
  | .literal _ | .holds _ | .comparison .. => 1
  | .all conditions | .any conditions => heights conditions + 1

/-- The height of the highest of several conditions. -/
def heights : List Condition → Nat
  | [] => 0
  | c :: rest => max c.height (heights rest)

end

/-- Evaluation that fails when more calls are open than there is room for. A leaf makes no calls for
other conditions of the tree. -/
def evalWithin (cells : Cells) : Nat → Condition → OptionT Observed Bool
  | 0, _ => failure
  | room + 1, .all conditions => conditions.allM (evalWithin cells room)
  | room + 1, .any conditions => conditions.anyM (evalWithin cells room)
  | _ + 1, c => .lift (c.eval cells)

/-- The outline, which fails when more calls are open than there is room for. -/
def outlineWithin : Nat → Nat → Condition → Option (List String)
  | 0, _, _ => none
  | room + 1, depth, .all conditions => do
    let below ← conditions.mapM (outlineWithin room (depth + 1))
    return (indent depth ++ "And") :: below.flatten
  | room + 1, depth, .any conditions => do
    let below ← conditions.mapM (outlineWithin room (depth + 1))
    return (indent depth ++ "Or") :: below.flatten
  | _ + 1, depth, c => some (c.outlineAt depth)

theorem height_le_heights {c : Condition} {conditions : List Condition} (h : c ∈ conditions) :
    c.height ≤ heights conditions := by
  induction conditions with
  | nil => cases h
  | cons first rest ih =>
      rw [heights]
      rcases List.mem_cons.mp h with rfl | h
      · exact Nat.le_max_left ..
      · exact Nat.le_trans (ih h) (Nat.le_max_right ..)

theorem height_lt_of_mem_members {c member : Condition} (h : member ∈ c.members) :
    member.height < c.height := by
  cases c with
  | all conditions | any conditions =>
      rw [height]
      exact Nat.lt_succ_of_le (height_le_heights h)
  | _ => cases h

theorem height_pos (c : Condition) : 0 < c.height := by
  cases c <;> simp only [height] <;> omega

/-- No path is longer than the height. -/
theorem IsPath.length_le {c : Condition} {path : List Condition} (h : c.IsPath path) :
    path.length ≤ c.height := by
  induction h with
  | leaf _ => exact height_pos _
  | cons hmember _ ih => exact Nat.lt_of_le_of_lt ih (height_lt_of_mem_members hmember)

/-! ### Evaluation -/

section Evaluation

variable {cells : Cells} {ask : Condition → OptionT Observed Bool} {conditions : List Condition}

theorem allM_eq_lift (h : ∀ c ∈ conditions, ask c = .lift (c.eval cells)) :
    conditions.allM ask = .lift (evalAll cells conditions) := by
  induction conditions with
  | nil => rfl
  | cons c rest ih =>
      obtain ⟨hc, hrest⟩ := List.forall_mem_cons.mp h
      rw [List.allM, hc, ih hrest, evalAll, OptionT.lift_bind]
      congr 1
      funext b
      cases b <;> rfl

theorem anyM_eq_lift (h : ∀ c ∈ conditions, ask c = .lift (c.eval cells)) :
    conditions.anyM ask = .lift (evalAny cells conditions) := by
  induction conditions with
  | nil => rfl
  | cons c rest ih =>
      obtain ⟨hc, hrest⟩ := List.forall_mem_cons.mp h
      rw [List.anyM, hc, ih hrest, evalAny, OptionT.lift_bind]
      congr 1
      funext b
      cases b <;> rfl

/-- With room for the height no call fails in an evaluation. -/
theorem evalWithin_of_height_le (cells : Cells) {room : Nat} {c : Condition}
    (h : c.height ≤ room) : c.evalWithin cells room = .lift (c.eval cells) := by
  induction room generalizing c with
  | zero => exact absurd h (Nat.not_le.mpr c.height_pos)
  | succ room ih =>
      have hmembers (member : Condition) (hmember : member ∈ c.members) :
          member.evalWithin cells room = .lift (member.eval cells) :=
        ih (Nat.le_of_lt_succ (Nat.lt_of_lt_of_le (height_lt_of_mem_members hmember) h))
      cases c with
      | all conditions =>
          rw [evalWithin, eval]
          exact allM_eq_lift hmembers
      | any conditions =>
          rw [evalWithin, eval]
          exact anyM_eq_lift hmembers
      | _ => rfl

end Evaluation

/-! ### Lines -/

theorem mapM_eq_some {α β : Type} {f : α → Option β} {g : α → β} {as : List α}
    (h : ∀ a ∈ as, f a = some (g a)) : as.mapM f = some (as.map g) := by
  induction as with
  | nil => rfl
  | cons a rest ih =>
      obtain ⟨ha, hrest⟩ := List.forall_mem_cons.mp h
      rw [List.mapM_cons, ha, ih hrest]
      rfl

/-- With room for the height no call fails in an outline. -/
theorem outlineWithin_of_height_le {room : Nat} {c : Condition} (h : c.height ≤ room)
    (depth : Nat) : c.outlineWithin room depth = some (c.outlineAt depth) := by
  induction room generalizing c depth with
  | zero => exact absurd h (Nat.not_le.mpr c.height_pos)
  | succ room ih =>
      have hmembers (member : Condition) (hmember : member ∈ c.members) :
          member.outlineWithin room (depth + 1) = some (member.outlineAt (depth + 1)) :=
        ih (Nat.le_of_lt_succ (Nat.lt_of_lt_of_le (height_lt_of_mem_members hmember) h)) _
      cases c with
      | all conditions | any conditions =>
          have hbelow : conditions.mapM (outlineWithin room (depth + 1)) =
              some (conditions.map (outlineAt (depth + 1))) := mapM_eq_some hmembers
          rw [outlineWithin, hbelow, outlineAt, outlinesAt_eq_flatMap, List.flatMap_def]
          rfl
      | _ => rfl

/-- A line below the root is that of an operand or a line of a member, one level further in. -/
theorem mem_linesBelow {c : Condition} {depth : Nat} {line : String}
    (h : line ∈ c.linesBelow depth) :
    indentation line = 2 * (depth + 1) ∨
      ∃ member ∈ c.members, line ∈ member.outlineAt (depth + 1) := by
  cases c with
  | literal b | holds s => cases h
  | comparison left relation right kinds =>
      left
      rw [linesBelow, List.mem_cons, List.mem_singleton] at h
      rcases h with rfl | rfl
      · exact indentation_indent_append (by simp [String.toList_append]) (depth + 1)
      · exact indentation_indent_append (by simp [String.toList_append]) (depth + 1)
  | all conditions | any conditions =>
      right
      rw [linesBelow, outlinesAt_eq_flatMap, List.mem_flatMap] at h
      exact h

/-- A line is indented by two spaces for each level, and not further than the height leads. -/
theorem exists_indentation_eq {c : Condition} {depth : Nat} {line : String}
    (h : line ∈ c.outlineAt depth) : ∃ d ≤ depth + c.height, indentation line = 2 * d := by
  induction hheight : c.height using Nat.strong_induction_on generalizing c depth with
  | h n ih =>
      subst hheight
      rw [outlineAt_eq, List.mem_cons] at h
      rcases h with rfl | h
      · exact ⟨depth, Nat.le_add_right .., indentation_line depth c⟩
      · rcases mem_linesBelow h with hline | ⟨member, hmember, hline⟩
        · exact ⟨depth + 1, Nat.add_le_add_left c.height_pos depth, hline⟩
        · have hlower := height_lt_of_mem_members hmember
          obtain ⟨d, hd, hindentation⟩ := ih member.height hlower hline rfl
          exact ⟨d, by omega, hindentation⟩

end Condition

end DisplayLogic
