import DisplayLogic.Condition.Eval
import Mathlib.Data.String.Basic
import Mathlib.Order.Compare

/-!
# What conditions mean

Two things are said here without evaluating anything. `Condition.meaning` is the plain logic of a
condition: a conjunction holds when all its members do, a disjunction when one of them does, and a
comparison when its relation holds between the two views of its mode. Texts and truths are compared
in their linear orders; numbers by their places, so that `nan` differs from everything and stands in
no other relation to anything.

`Condition.reads` are the feeds that have to be looked at. From the members of a conjunction only
those up to the first false one are read, and from the members of a disjunction those up to the
first true one. A comparison reads one view of its left and one view of its right operand. An
element reads its condition for every view, and for its text the texts of the chosen branch as well.
-/

namespace DisplayLogic

/-- Whether the relation holds between two members of a linear order. -/
def Relation.holds {α : Type} [LinearOrder α] (relation : Relation) (a b : α) : Bool :=
  match relation with
  | less => a < b
  | lessEqual => a ≤ b
  | greater => a > b
  | greaterEqual => a ≥ b
  | equal => a = b
  | notEqual => a ≠ b

/-- Whether the relation holds between the views of a mode. -/
def Relation.holdsIn (relation : Relation) (mode : Mode) (a b : Views) : Bool :=
  match mode with
  | .boolean => relation.holds a.truth b.truth
  | .text => relation.holds a.text b.text
  | .number =>
      match a.number.rank?, b.number.rank? with
      | some x, some y => relation.holds x y
      | _, _ => relation = notEqual

/-- All views of a constant. -/
def Constant.views (c : Constant) : Views := ⟨c.asText, c.asNumber, c.asTruth⟩

/-- All views of a feed. -/
def Feed.views (f : Feed) (cells : Cells) : Views := ⟨f.text cells, f.number cells, f.truth cells⟩

mutual

/-- The views of a source. -/
def Source.meaning (cells : Cells) : Source → Views
  | .constant c => c.views
  | .feed f => f.views cells
  | .element condition positive negative =>
      if condition.meaning cells then
        ⟨String.join (positive.map fun s => (s.meaning cells).text), .one, true⟩
      else ⟨String.join (negative.map fun s => (s.meaning cells).text), .zero, false⟩

/-- The views of an operand. -/
def Operand.meaning (cells : Cells) : Operand → Views
  | .source s => s.meaning cells
  | .literal c => c.views

/-- The truth of a condition. -/
def Condition.meaning (cells : Cells) : Condition → Bool
  | .literal value => value
  | .holds s => (s.meaning cells).truth
  | .comparison left relation right kinds =>
      relation.holdsIn kinds.mode (left.meaning cells) (right.meaning cells)
  | .all conditions => (conditions.map fun c => c.meaning cells).and
  | .any conditions => (conditions.map fun c => c.meaning cells).or

end

/-- The members up to the first one that passes a test, which is the last to be kept. -/
def through {α : Type} (stop : α → Bool) : List α → List α
  | [] => []
  | a :: rest => if stop a then [a] else a :: through stop rest

mutual

/-- The feeds that a view of a source reads. -/
def Source.reads (cells : Cells) (mode : Mode) : Source → List Feed
  | .constant _ => []
  | .feed f => [f]
  | .element condition positive negative =>
      condition.reads cells ++
        match mode with
        | .text =>
            if condition.meaning cells then positive.flatMap fun s => s.reads cells .text
            else negative.flatMap fun s => s.reads cells .text
        | .number | .boolean => []

/-- The feeds that a view of an operand reads. -/
def Operand.reads (cells : Cells) (mode : Mode) : Operand → List Feed
  | .source s => s.reads cells mode
  | .literal _ => []

/-- The feeds that a condition reads. -/
def Condition.reads (cells : Cells) : Condition → List Feed
  | .literal _ => []
  | .holds s => s.reads cells .boolean
  | .comparison left _ right kinds => left.reads cells kinds.mode ++ right.reads cells kinds.mode
  | .all conditions =>
      let members := conditions.map fun c => (c.meaning cells, c.reads cells)
      (through (fun c => !c.1) members).flatMap (·.2)
  | .any conditions =>
      let members := conditions.map fun c => (c.meaning cells, c.reads cells)
      (through (fun c => c.1) members).flatMap (·.2)

end

/-! ### Evaluation finds the meaning and the reads -/

theorem Relation.accepts_compare {α : Type} [LinearOrder α] (relation : Relation) (a b : α) :
    relation.accepts (some (compare a b)) = relation.holds a b := by
  rcases lt_trichotomy a b with h | rfl | h
  · have hcompare : compare a b = .lt := compare_lt_iff_lt.mpr h
    rw [hcompare]
    cases relation <;> simp [accepts, holds, h, h.le, h.ne, h.not_gt, h.not_ge]
  · have hcompare : compare a a = .eq := compare_eq_iff_eq.mpr rfl
    rw [hcompare]
    cases relation <;> simp [accepts, holds]
  · have hcompare : compare a b = .gt := compare_gt_iff_gt.mpr h
    rw [hcompare]
    cases relation <;> simp [accepts, holds, h, h.le, h.ne', h.not_gt, h.not_ge]

theorem Relation.accepts_partialCompare (relation : Relation) {a b : Views} :
    relation.accepts (a.number.partialCompare b.number) = relation.holdsIn .number a b := by
  unfold Number.partialCompare holdsIn
  cases ha : a.number.rank? with
  | none => exact relation.accepts_none
  | some x =>
      cases hb : b.number.rank? with
      | none => exact relation.accepts_none
      | some y => exact relation.accepts_compare x y

theorem Observed.mk_bind {α β : Type} (a : α) (reads : List Feed) (f : α → Observed β) :
    (⟨a, reads⟩ : Observed α) >>= f = ⟨(f a).value, reads ++ (f a).reads⟩ := rfl

variable (cells : Cells)

mutual

theorem Source.text_eq : ∀ s : Source,
    s.text cells = ⟨(s.meaning cells).text, s.reads cells .text⟩
  | .constant c => by
      rw [Source.text, Source.meaning, Source.reads]
      rfl
  | .feed f => by
      rw [Source.text, Source.meaning, Source.reads]
      rfl
  | .element condition positive negative => by
      rw [Source.text, condition.eval_eq, Source.meaning, Source.reads, Observed.mk_bind]
      cases condition.meaning cells with
      | true =>
          simp only [if_true]
          rw [Source.joinedText_eq positive]
      | false =>
          simp only [Bool.false_eq_true, if_false]
          rw [Source.joinedText_eq negative]

theorem Source.joinedText_eq : ∀ sources : List Source,
    Source.joinedText cells sources =
      ⟨String.join (sources.map fun s => (s.meaning cells).text),
        sources.flatMap fun s => s.reads cells .text⟩
  | [] => rfl
  | s :: rest => by
      rw [Source.joinedText, s.text_eq, Source.joinedText_eq rest, List.map_cons, String.join_cons,
        List.flatMap_cons, Observed.mk_bind, Observed.mk_bind]
      simp only [Observed.value_pure, Observed.reads_pure, List.append_nil]

theorem Source.number_eq : ∀ s : Source,
    s.number cells = ⟨(s.meaning cells).number, s.reads cells .number⟩
  | .constant c => by
      rw [Source.number, Source.meaning, Source.reads]
      rfl
  | .feed f => by
      rw [Source.number, Source.meaning, Source.reads]
      rfl
  | .element condition positive negative => by
      rw [Source.number, condition.eval_eq, Source.meaning, Source.reads, Observed.mk_bind]
      cases condition.meaning cells <;> rfl

theorem Source.truth_eq : ∀ s : Source,
    s.truth cells = ⟨(s.meaning cells).truth, s.reads cells .boolean⟩
  | .constant c => by
      rw [Source.truth, Source.meaning, Source.reads]
      rfl
  | .feed f => by
      rw [Source.truth, Source.meaning, Source.reads]
      rfl
  | .element condition positive negative => by
      rw [Source.truth, condition.eval_eq, Source.meaning, Source.reads, List.append_nil]
      cases condition.meaning cells <;> rfl

theorem Operand.text_eq : ∀ x : Operand,
    x.text cells = ⟨(x.meaning cells).text, x.reads cells .text⟩
  | .source s => by
      rw [Operand.text, Operand.meaning, Operand.reads]
      exact s.text_eq
  | .literal c => by
      rw [Operand.text, Operand.meaning, Operand.reads]
      rfl

theorem Operand.number_eq : ∀ x : Operand,
    x.number cells = ⟨(x.meaning cells).number, x.reads cells .number⟩
  | .source s => by
      rw [Operand.number, Operand.meaning, Operand.reads]
      exact s.number_eq
  | .literal c => by
      rw [Operand.number, Operand.meaning, Operand.reads]
      rfl

theorem Operand.truth_eq : ∀ x : Operand,
    x.truth cells = ⟨(x.meaning cells).truth, x.reads cells .boolean⟩
  | .source s => by
      rw [Operand.truth, Operand.meaning, Operand.reads]
      exact s.truth_eq
  | .literal c => by
      rw [Operand.truth, Operand.meaning, Operand.reads]
      rfl

theorem Condition.eval_eq : ∀ c : Condition, c.eval cells = ⟨c.meaning cells, c.reads cells⟩
  | .literal value => by
      rw [Condition.eval, Condition.meaning, Condition.reads]
      rfl
  | .holds s => by
      rw [Condition.eval, Condition.meaning, Condition.reads]
      exact s.truth_eq
  | .comparison left relation right kinds => by
      rw [Condition.eval, Condition.meaning, Condition.reads]
      cases kinds.mode with
      | boolean =>
          simp only [left.truth_eq, right.truth_eq, Observed.mk_bind, Observed.value_pure,
            Observed.reads_pure, List.append_nil]
          rw [relation.accepts_compare]
          rfl
      | number =>
          simp only [left.number_eq, right.number_eq, Observed.mk_bind, Observed.value_pure,
            Observed.reads_pure, List.append_nil]
          rw [relation.accepts_partialCompare]
      | text =>
          simp only [left.text_eq, right.text_eq, Observed.mk_bind, Observed.value_pure,
            Observed.reads_pure, List.append_nil]
          rw [relation.accepts_compare]
          rfl
  | .all conditions => by
      rw [Condition.eval, Condition.meaning, Condition.reads]
      exact Condition.evalAll_eq conditions
  | .any conditions => by
      rw [Condition.eval, Condition.meaning, Condition.reads]
      exact Condition.evalAny_eq conditions

theorem Condition.evalAll_eq : ∀ conditions : List Condition,
    Condition.evalAll cells conditions =
      ⟨(conditions.map fun c => c.meaning cells).and,
        (through (fun c => !c.1)
          (conditions.map fun c => (c.meaning cells, c.reads cells))).flatMap (·.2)⟩
  | [] => rfl
  | c :: rest => by
      rw [Condition.evalAll, c.eval_eq, Condition.evalAll_eq rest, Observed.mk_bind, List.map_cons,
        List.map_cons, through]
      cases c.meaning cells with
      | true => rfl
      | false => rfl

theorem Condition.evalAny_eq : ∀ conditions : List Condition,
    Condition.evalAny cells conditions =
      ⟨(conditions.map fun c => c.meaning cells).or,
        (through (fun c => c.1)
          (conditions.map fun c => (c.meaning cells, c.reads cells))).flatMap (·.2)⟩
  | [] => rfl
  | c :: rest => by
      rw [Condition.evalAny, c.eval_eq, Condition.evalAny_eq rest, Observed.mk_bind, List.map_cons,
        List.map_cons, through]
      cases c.meaning cells with
      | true => rfl
      | false => rfl

end

end DisplayLogic
