import DisplayLogic.Proofs.Compilation.Atoms
import DisplayLogic.Proofs.Condition.Comparison

/-!
# Asking for the truth of a variable

The truth of a source is decided by its number: it is true when the number is above zero. Constants
and feeds say so for everything but booleans, which count as 1 or 0 as an element does, and for data
that is not available both views fall back to the same side.

A condition can therefore ask for the truth of a variable in any mode. The variable alone, a
comparison with either boolean and a comparison with zero are evaluated in three ways that lead to
the same result.
-/

namespace DisplayLogic

/-! ### Truth is a matter of the number -/

namespace Number

theorem isPositive_iff {n : Number} :
    n.isPositive = true ↔ n.partialCompare .zero = some .gt := beq_iff_eq

/-- Above zero is what has a place there. -/
theorem isPositive_eq (n : Number) : n.isPositive = n.rank?.any fun x => 0 < x := by
  rw [isPositive, partialCompare]
  cases n.rank? with
  | none => rfl
  | some x =>
      rw [Bool.eq_iff_iff, beq_iff_eq, Option.any_some, decide_eq_true_iff]
      exact Option.some_inj.trans compare_gt_iff_gt

theorem isPositive_one : one.isPositive = true := by
  decide +kernel

theorem isPositive_booleanNumber (b : Bool) : (booleanNumber b).isPositive = b := by
  cases b with
  | false => rfl
  | true => exact isPositive_one

end Number

theorem Constant.asTruth_eq (c : Constant) : c.asTruth = c.asNumber.isPositive := by
  cases c with
  | boolean b => exact (Number.isPositive_booleanNumber b).symm
  | _ => rfl

theorem Feed.truth_eq (f : Feed) (cells : Cells) : f.truth cells = (f.number cells).isPositive := by
  rw [Feed.truth, Feed.number]
  cases f.value? cells with
  | none => rfl
  | some c => exact c.asTruth_eq

/-- Every source is true when its number is above zero. -/
theorem Source.truth_meaning (cells : Cells) (s : Source) :
    (s.meaning cells).truth = (s.meaning cells).number.isPositive := by
  cases s with
  | constant c =>
      rw [Source.meaning]
      exact c.asTruth_eq
  | feed f =>
      rw [Source.meaning]
      exact f.truth_eq cells
  | element condition positive negative =>
      rw [Source.meaning]
      split
      · rw [Number.isPositive_one]
      · rfl

/-! ### Comparisons that ask for the truth -/

namespace Condition

variable (cells : Cells) (s : Source)

theorem meaning_equal_true :
    (relate (.source s) .equal (.literal (.boolean true))).meaning cells =
      (s.meaning cells).truth := by
  rw [meaning_relate rfl, Operand.meaning, Operand.meaning]
  exact Bool.decide_eq_true

theorem meaning_notEqual_false :
    (relate (.source s) .notEqual (.literal (.boolean false))).meaning cells =
      (s.meaning cells).truth := by
  rw [meaning_relate rfl, Operand.meaning, Operand.meaning]
  cases htruth : (s.meaning cells).truth with
  | false => exact decide_eq_false fun hne => hne htruth
  | true => exact decide_eq_true fun heq => nomatch htruth.symm.trans heq

theorem meaning_greater_zero :
    (relate (.source s) .greater (.literal (.number .zero))).meaning cells =
      (s.meaning cells).truth := by
  rw [meaning_relate rfl, Operand.meaning, Operand.meaning, s.truth_meaning, Number.isPositive_eq]
  have hmode : (LiteralKinds.ofOperands (.source s) (.literal (.number .zero))).mode = .number :=
    rfl
  rw [hmode, Relation.holdsIn]
  cases (s.meaning cells).number.rank? with
  | none => rfl
  | some x => rfl

end Condition

namespace Registry

theorem spells_zero (r : Registry) : r.Spells (.number .zero) "0".toList := by
  have hvalue : Number.ofNumeral? "0".toList = some .zero := by decide +kernel
  exact .number (Number.ofNumeral?_eq_some_iff.mp hvalue).1 hvalue

/-- A comparison that means the truth of a source is compiled to a condition that finds it. -/
theorem exists_truth_test {r : Registry} {s : Source} {left right : Operand} {relation : Relation}
    {text : String} {cs ds : List Char} (hleft : r.Spells left.token cs)
    (hright : r.Spells right.token ds)
    (htext : text.toList = cs ++ ' ' :: (relation.symbol.toList ++ ' ' :: ds)) (line : Nat)
    (hmeaning : ∀ cells, (Condition.relate left relation right).meaning cells =
      (s.meaning cells).truth) :
    ∃ c, (r.compile ⟨text, line⟩).outcome = .ok c ∧
      ∀ cells, (c.eval cells).value = (s.truth cells).value := by
  refine ⟨_, compile_comparison hleft hright htext line, ?_⟩
  intro cells
  rw [Condition.eval_eq, Source.truth_eq]
  exact hmeaning cells

/-- All ways to ask for the truth of a variable agree. A source is true just when its number is
greater than zero. A name that is a variable of its own can be asked for its truth alone, compared
with a boolean on either side or with zero on either side: each of these texts compiles, and leads
to the truth of the source in every state of the cells. -/
theorem truth_tests_agree (r : Registry) :
    (∀ (s : Source) (cells : Cells),
      (s.truth cells).value = true ↔
        (s.number cells).value.partialCompare .zero = some .gt) ∧
    ∀ (name : String) (s : Source) (line : Nat), Name.isName name.toList = true →
      (r.lex name line).toExcept = .ok [.source s] →
      ∀ text ∈ [name, name ++ " = true", "true = " ++ name, name ++ " != false", name ++ " > 0",
          "0 < " ++ name],
        ∀ line, ∃ c, (r.compile ⟨text, line⟩).outcome = .ok c ∧
          ∀ cells, (c.eval cells).value = (s.truth cells).value := by
  refine ⟨?_, ?_⟩
  · intro s cells
    rw [Source.truth_eq, Source.number_eq, Source.truth_meaning]
    exact Number.isPositive_iff
  · intro name s line hname hlex
    have hvariable : r.Spells (Operand.source s).token name.toList :=
      spells_of_cuts hname (cuts_of_toExcept hlex)
    have hboolean (b : Bool) :
        r.Spells (Operand.literal (.boolean b)).token (booleanText b).toList := .boolean b
    have hzero : r.Spells (Operand.literal (.number .zero)).token "0".toList := r.spells_zero
    simp only [List.mem_cons, List.not_mem_nil, or_false]
    rintro text (rfl | rfl | rfl | rfl | rfl | rfl) line
    · exact ⟨_, compile_source hvariable line, fun cells => by rw [Condition.eval]⟩
    · have htext : (name ++ " = true").toList = name.toList ++ " = true".toList :=
        String.toList_append
      exact exists_truth_test hvariable (hboolean true) htext line fun cells =>
        Condition.meaning_equal_true cells s
    · have htext : ("true = " ++ name).toList =
          "true".toList ++ ' ' :: (Relation.equal.symbol.toList ++ ' ' :: name.toList) :=
        String.toList_append
      exact exists_truth_test (hboolean true) hvariable htext line fun cells =>
        (Condition.meaning_relate_mirror _ .equal _ cells).trans
          (Condition.meaning_equal_true cells s)
    · have htext : (name ++ " != false").toList = name.toList ++ " != false".toList :=
        String.toList_append
      exact exists_truth_test hvariable (hboolean false) htext line fun cells =>
        Condition.meaning_notEqual_false cells s
    · have htext : (name ++ " > 0").toList = name.toList ++ " > 0".toList :=
        String.toList_append
      exact exists_truth_test hvariable hzero htext line fun cells =>
        Condition.meaning_greater_zero cells s
    · have htext : ("0 < " ++ name).toList =
          "0".toList ++ ' ' :: (Relation.less.symbol.toList ++ ' ' :: name.toList) :=
        String.toList_append
      exact exists_truth_test hzero hvariable htext line fun cells =>
        (Condition.meaning_relate_mirror _ .greater _ cells).trans
          (Condition.meaning_greater_zero cells s)

/-- Through a namespace the truth of an element can be asked for in the mode of numbers. -/
theorem truth_tests_agree_on_element :
    let hp : Source := .feed ⟨.number, "hp", .cell "hp"⟩
    let alive : Source :=
      .element (.relate (.source hp) .notEqual (.literal (.number .zero))) [hp] []
    let r := Registry.empty.register "alive" ⟨alive, ["health"]⟩
    Name.isName "client:alive".toList = true ∧
      (r.lex "client:alive" 1).toExcept = .ok [.source alive] ∧
      ∃ c, (r.compile ⟨"0 < client:alive", 7⟩).outcome = .ok c ∧
        ∀ cells, (c.eval cells).value = (alive.truth cells).value := by
  intro hp alive r
  have hname : Name.isName "client:alive".toList = true := rfl
  have hlex : (r.lex "client:alive" 1).toExcept = .ok [.source alive] := by rfl
  obtain ⟨-, htests⟩ := truth_tests_agree r
  exact ⟨hname, hlex, htests "client:alive" alive 1 hname hlex "0 < client:alive" (by decide) 7⟩

end Registry

end DisplayLogic
