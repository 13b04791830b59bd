import DisplayLogic.Proofs.Condition.Meaning
import DisplayLogic.Proofs.Grammar.Reading

/-!
# Comparisons, their mirror images and their complements

A comparison holds when its relation holds between the views of its operands, in the mode that the
literals among them call for. Both operands have the same say in the mode. Exchanging them therefore
leaves the mode alone, and leads to the same truth if the relation is exchanged for its mirror
image.

The complement of a relation asks for the opposite. In a linear order one of the two holds, and
truths, texts and the places of numbers are linearly ordered. Only `nan` has no place, so that in
the mode of numbers it lets neither a relation that asks for an order nor the complement hold. That
a number is equal and that it is not are opposite even then.
-/

namespace DisplayLogic

namespace Relation

/-- The relation that asks the same of two values in the other order. -/
def mirror : Relation → Relation
  | less => greater
  | lessEqual => greaterEqual
  | greater => less
  | greaterEqual => lessEqual
  | equal => equal
  | notEqual => notEqual

theorem holds_mirror {α : Type} [LinearOrder α] (relation : Relation) (a b : α) :
    relation.mirror.holds b a = relation.holds a b := by
  cases relation with
  | equal => exact decide_eq_decide.mpr eq_comm
  | notEqual => exact decide_eq_decide.mpr ne_comm
  | _ => rfl

theorem holdsIn_mirror (relation : Relation) (mode : Mode) (a b : Views) :
    relation.mirror.holdsIn mode b a = relation.holdsIn mode a b := by
  cases mode with
  | boolean => exact relation.holds_mirror a.truth b.truth
  | text => exact relation.holds_mirror a.text b.text
  | number =>
      have hnotEqual : (relation.mirror = notEqual) ↔ relation = notEqual := by
        cases relation <;> decide
      rw [holdsIn, holdsIn]
      cases a.number.rank? with
      | none =>
          cases b.number.rank? with
          | none => exact decide_eq_decide.mpr hnotEqual
          | some y => exact decide_eq_decide.mpr hnotEqual
      | some x =>
          cases b.number.rank? with
          | none => exact decide_eq_decide.mpr hnotEqual
          | some y => exact relation.holds_mirror x y

/-- The relation that asks for the opposite of two values. -/
def complement : Relation → Relation
  | less => greaterEqual
  | lessEqual => greater
  | greater => lessEqual
  | greaterEqual => less
  | equal => notEqual
  | notEqual => equal

theorem holds_complement {α : Type} [LinearOrder α] (relation : Relation) (a b : α) :
    relation.complement.holds a b = !relation.holds a b := by
  cases relation with
  | less => exact (decide_eq_decide.mpr not_lt.symm).trans decide_not
  | lessEqual => exact (decide_eq_decide.mpr not_le.symm).trans decide_not
  | greater => exact (decide_eq_decide.mpr not_lt.symm).trans decide_not
  | greaterEqual => exact (decide_eq_decide.mpr not_le.symm).trans decide_not
  | equal => exact decide_not
  | notEqual => exact (decide_eq_decide.mpr not_not.symm).trans decide_not

end Relation

/-- In the mode of numbers nothing stands in an order to `nan`. -/
def Mode.Unordered (mode : Mode) (a b : Views) : Prop :=
  mode = .number ∧ (a.number = .nan ∨ b.number = .nan)

namespace Relation

variable {mode : Mode} {a b : Views}

/-- Without an order only difference holds. -/
theorem holdsIn_of_unordered (h : mode.Unordered a b) (relation : Relation) :
    relation.holdsIn mode a b = decide (relation = notEqual) := by
  obtain ⟨rfl, hnan⟩ := h
  rw [holdsIn]
  rcases hnan with hnan | hnan
  · rw [hnan, Number.rank?_nan]
  · rw [hnan, Number.rank?_nan]
    cases a.number.rank? <;> rfl

theorem holdsIn_complement (h : ¬ mode.Unordered a b) (relation : Relation) :
    relation.complement.holdsIn mode a b = !relation.holdsIn mode a b := by
  cases mode with
  | boolean => exact relation.holds_complement a.truth b.truth
  | text => exact relation.holds_complement a.text b.text
  | number =>
      have hnan : ¬ (a.number = .nan ∨ b.number = .nan) := fun hnan => h ⟨rfl, hnan⟩
      rw [not_or, ← Number.rank?_eq_none_iff, ← Number.rank?_eq_none_iff] at hnan
      obtain ⟨x, hx⟩ := Option.ne_none_iff_exists'.mp hnan.1
      obtain ⟨y, hy⟩ := Option.ne_none_iff_exists'.mp hnan.2
      simp only [holdsIn, hx, hy]
      exact relation.holds_complement x y

/-- Difference is the opposite of equality, also without an order. -/
theorem holdsIn_notEqual (mode : Mode) (a b : Views) :
    notEqual.holdsIn mode a b = !equal.holdsIn mode a b := by
  by_cases h : mode.Unordered a b
  · rw [holdsIn_of_unordered h, holdsIn_of_unordered h]
    rfl
  · exact holdsIn_complement h equal

end Relation

theorem LiteralKinds.ofOperands_comm (left right : Operand) :
    ofOperands right left = ofOperands left right := by
  rw [ofOperands, ofOperands, Bool.or_comm (left.isLiteralOf .boolean),
    Bool.or_comm (left.isLiteralOf .number)]

namespace Condition

variable {left right : Operand}

/-- The views of the operands are compared in the mode of the literals. -/
theorem meaning_relate {mode : Mode} (h : (LiteralKinds.ofOperands left right).mode = mode)
    (relation : Relation) (cells : Cells) :
    (relate left relation right).meaning cells =
      relation.holdsIn mode (left.meaning cells) (right.meaning cells) := by
  rw [relate, meaning, h]

/-- A comparison means the same as its mirror image. -/
theorem meaning_relate_mirror (left : Operand) (relation : Relation) (right : Operand)
    (cells : Cells) :
    (relate right relation.mirror left).meaning cells =
      (relate left relation right).meaning cells := by
  rw [meaning_relate rfl, meaning_relate rfl, LiteralKinds.ofOperands_comm, Relation.holdsIn_mirror]

/-- Two operands with a relation between them are read as their comparison. -/
theorem ofTokens_comparison (left : Operand) (relation : Relation) (right : Operand) :
    ofTokens [left.token, .relation relation, right.token] = .ok (relate left relation right) := by
  rw [relate, Grammar.kinds_ofOperands]
  exact (Grammar.Disjunction.single (.single (.comparison left relation right))).ofTokens_nested

/-- Two operands may be compared in either order: the mirror image of the relation gives a
comparison of the same mode and the same truth. Equality and difference are opposite, and so are the
relations that ask for an order and their complements, unless numbers are compared and one of them
is `nan`. Then all four of these fail. -/
theorem comparisons_consistent (left right : Operand) (cells : Cells) :
    let kinds := LiteralKinds.ofOperands left right
    let truth (relation : Relation) :=
      ((comparison left relation right kinds).eval cells).value
    (∀ relation,
      ofTokens [left.token, .relation relation, right.token] =
          .ok (comparison left relation right kinds) ∧
        ofTokens [right.token, .relation relation.mirror, left.token] =
          .ok (comparison right relation.mirror left kinds) ∧
        ((comparison right relation.mirror left kinds).eval cells).value = truth relation) ∧
    truth .notEqual = !truth .equal ∧
    if kinds.mode = .number ∧
        ((left.number cells).value = .nan ∨ (right.number cells).value = .nan) then
      ∀ relation ∈ [Relation.less, .lessEqual, .greater, .greaterEqual], truth relation = false
    else truth .greaterEqual = !truth .less ∧ truth .lessEqual = !truth .greater := by
  intro kinds truth
  have htruth (relation : Relation) :
      truth relation = relation.holdsIn kinds.mode (left.meaning cells) (right.meaning cells) := by
    simp only [truth, eval_eq, meaning]
  refine ⟨fun relation => ⟨ofTokens_comparison left relation right, ?_, ?_⟩, ?_, ?_⟩
  · rw [ofTokens_comparison, relate, LiteralKinds.ofOperands_comm]
  · rw [eval_eq, meaning, htruth, Relation.holdsIn_mirror]
  · rw [htruth, htruth, Relation.holdsIn_notEqual]
  · rw [left.number_eq, right.number_eq]
    split
    · rename_i h
      intro relation hrelation
      rw [htruth, Relation.holdsIn_of_unordered h, decide_eq_false_iff_not]
      rintro rfl
      exact absurd hrelation (by decide)
    · rename_i h
      rw [htruth, htruth, htruth, htruth]
      exact ⟨Relation.holdsIn_complement h .less, Relation.holdsIn_complement h .greater⟩

end Condition

end DisplayLogic
