import DisplayLogic.Proofs.Condition.Meaning
import Mathlib.Logic.Relation

/-!
# What nested elements select

Elements may be nested to any depth. In one state of the cells every element selects the branch that
its condition calls for, and following the selections from an element downwards leads to conditions,
one for each element on the way, and to leaves, which are sources that are no elements.
`Source.visits` lists what is met in this way, from left to right.

The visits say everything about the text of a source: the leaves among them supply its pieces, and
what is read are the reads of the visits, in order. Members and elements that are not selected take
no part. `Source.pruned` removes them, and the text is found by the same reads without them.
-/

namespace DisplayLogic

/-- What is met on the way through the selected branches. -/
inductive Visit where
  /-- An element, met with its condition. -/
  | condition (condition : Condition)
  /-- A source that is no element. -/
  | leaf (source : Source)

namespace Visit

def leaf? : Visit → Option Source
  | condition _ => none
  | leaf source => some source

/-- The feeds that are read at a visit: those of the condition, or those of the text of a leaf. -/
def reads (cells : Cells) : Visit → List Feed
  | condition c => (c.eval cells).reads
  | leaf s => (s.text cells).reads

end Visit

namespace Source

def isElement : Source → Bool
  | element .. => true
  | constant _ | feed _ => false

/-- The members that an element selects. -/
def branch (cells : Cells) : Source → List Source
  | element condition positive negative =>
      if (condition.eval cells).value then positive else negative
  | constant _ | feed _ => []

/-- The selected branches lead from the first source down to the second one. -/
def LeadsTo (cells : Cells) : Source → Source → Prop :=
  Relation.ReflTransGen fun s member => member ∈ s.branch cells

/-- What a source is met as. -/
def visit : Source → Visit
  | element condition _ _ => .condition condition
  | s => .leaf s

/-- What is met in a source when the selected branches are followed from left to right. -/
def visits (cells : Cells) : Source → List Visit
  | element condition positive negative =>
      .condition condition ::
        if (condition.eval cells).value then positive.flatMap fun s => s.visits cells
        else negative.flatMap fun s => s.visits cells
  | s => [.leaf s]

/-- The sources that are met and are no elements, from left to right. -/
def leaves (cells : Cells) (s : Source) : List Source := (s.visits cells).filterMap Visit.leaf?

/-- The source without the members that are not selected, at any depth. -/
def pruned (cells : Cells) : Source → Source
  | element condition positive negative =>
      if (condition.eval cells).value then
        element condition (positive.map fun s => s.pruned cells) []
      else element condition [] (negative.map fun s => s.pruned cells)
  | s => s

/-- The text that some visits make up, with the reads that this takes. -/
def shown (cells : Cells) (visits : List Visit) : Observed String where
  value := String.join ((visits.filterMap Visit.leaf?).map fun leaf => (leaf.text cells).value)
  reads := visits.flatMap fun visit => visit.reads cells

variable {cells : Cells} {s leaf : Source} {condition : Condition}
  {positive negative sources : List Source}

/-! ### One step down -/

/-- What holds of leaves, and of elements if it holds of the members that they select, holds of all
sources. -/
@[elab_as_elim]
theorem branch_induction (cells : Cells) {motive : Source → Prop}
    (leaf : ∀ s, s.isElement = false → motive s)
    (element : ∀ condition positive negative,
      (∀ s ∈ (Source.element condition positive negative).branch cells, motive s) →
        motive (.element condition positive negative)) (s : Source) : motive s := by
  cases s with
  | constant c => exact leaf _ rfl
  | feed f => exact leaf _ rfl
  | element condition positive negative =>
      have hpositive : ∀ s ∈ positive, motive s := fun s _ => branch_induction cells leaf element s
      have hnegative : ∀ s ∈ negative, motive s := fun s _ => branch_induction cells leaf element s
      refine element condition positive negative fun s hs => ?_
      rw [branch] at hs
      split at hs
      · exact hpositive s hs
      · exact hnegative s hs

theorem visit_of_not_isElement (h : s.isElement = false) : s.visit = .leaf s := by
  cases s with
  | element condition positive negative => nomatch h
  | _ => rfl

theorem visits_of_not_isElement (h : s.isElement = false) : s.visits cells = [.leaf s] := by
  cases s with
  | element condition positive negative => nomatch h
  | _ => rw [visits]; nofun

theorem visits_element : (element condition positive negative).visits cells =
    .condition condition ::
      ((element condition positive negative).branch cells).flatMap fun s => s.visits cells := by
  rw [visits, branch]
  split <;> rfl

/-- A pruned element has its condition still, and selects what it selected, pruned. -/
theorem exists_pruned_element (cells : Cells) (condition : Condition)
    (positive negative : List Source) :
    ∃ positive' negative',
      (element condition positive negative).pruned cells =
        element condition positive' negative' ∧
      (element condition positive' negative').branch cells =
        ((element condition positive negative).branch cells).map fun s => s.pruned cells := by
  rw [pruned, branch]
  cases h : (condition.eval cells).value with
  | true => exact ⟨_, _, if_pos rfl, if_pos h⟩
  | false => exact ⟨_, _, if_neg Bool.false_ne_true, if_neg (Bool.eq_false_iff.mp h)⟩

theorem text_element : (element condition positive negative).text cells =
    ⟨(joinedText cells ((element condition positive negative).branch cells)).value,
      (condition.eval cells).reads ++
        (joinedText cells ((element condition positive negative).branch cells)).reads⟩ := by
  rw [text, branch]
  ext1
  · rw [Observed.value_bind]
    split <;> rfl
  · rw [Observed.reads_bind]
    split <;> rfl

/-! ### Texts are made of leaves -/

theorem joinedText_eq_shown (h : ∀ s ∈ sources, s.text cells = shown cells (s.visits cells)) :
    joinedText cells sources = shown cells (sources.flatMap fun s => s.visits cells) := by
  induction sources with
  | nil => rfl
  | cons s rest ih =>
      obtain ⟨hs, hrest⟩ := List.forall_mem_cons.mp h
      rw [joinedText, hs, ih hrest, List.flatMap_cons]
      ext1
      · simp only [shown, Observed.value_bind, Observed.value_pure, List.filterMap_append,
          List.map_append, String.join_append]
      · simp only [shown, Observed.reads_bind, Observed.reads_pure, List.append_nil,
          List.flatMap_append]

/-- The visits of a source say everything about its text. -/
theorem text_eq_shown (cells : Cells) (s : Source) :
    s.text cells = shown cells (s.visits cells) := by
  induction s using branch_induction cells with
  | leaf s h =>
      rw [visits_of_not_isElement h]
      ext1
      · simp [shown, Visit.leaf?, String.join_cons]
      · simp [shown, Visit.reads]
  | element condition positive negative ih =>
      rw [text_element, visits_element, joinedText_eq_shown ih]
      rfl

/-- Taking away what is not selected leaves the visits as they are. -/
theorem visits_pruned (cells : Cells) (s : Source) :
    (s.pruned cells).visits cells = s.visits cells := by
  induction s using branch_induction cells with
  | leaf s h =>
      cases s with
      | element condition positive negative => nomatch h
      | _ => rw [pruned]; nofun
  | element condition positive negative ih =>
      obtain ⟨positive', negative', hpruned, hbranch⟩ :=
        exists_pruned_element cells condition positive negative
      rw [hpruned, visits_element, visits_element, hbranch, List.flatMap_map]
      exact congrArg _ (List.flatMap_congr ih)

/-! ### Selections lead to what is met -/

/-- What is met in a source is met at the sources that its selections lead to. -/
theorem mem_visits_iff {visit : Visit} :
    visit ∈ s.visits cells ↔ ∃ t, s.LeadsTo cells t ∧ t.visit = visit := by
  constructor
  · intro h
    induction s using branch_induction cells with
    | leaf s hkind =>
        rw [visits_of_not_isElement hkind, List.mem_singleton] at h
        exact ⟨s, .refl, (visit_of_not_isElement hkind).trans h.symm⟩
    | element condition positive negative ih =>
        rw [visits_element, List.mem_cons, List.mem_flatMap] at h
        rcases h with rfl | ⟨s, hs, h⟩
        · exact ⟨_, .refl, rfl⟩
        · obtain ⟨t, hleads, hvisit⟩ := ih s hs h
          exact ⟨t, .head hs hleads, hvisit⟩
  · rintro ⟨t, hleads, rfl⟩
    induction hleads using Relation.ReflTransGen.head_induction_on with
    | refl =>
        cases t with
        | element condition positive negative =>
            rw [visits_element]
            exact List.mem_cons_self
        | _ =>
            rw [visits_of_not_isElement rfl]
            exact List.mem_singleton_self _
    | @head s member hmember _ ih =>
        cases s with
        | element condition positive negative =>
            rw [visits_element]
            exact List.mem_cons_of_mem _ (List.mem_flatMap.mpr ⟨member, hmember, ih⟩)
        | _ => nomatch hmember

/-- The leaves are what selections lead to, but for the elements on the way. -/
theorem mem_leaves_iff : leaf ∈ s.leaves cells ↔ s.LeadsTo cells leaf ∧ leaf.isElement = false := by
  have hleaf : leaf ∈ s.leaves cells ↔ .leaf leaf ∈ s.visits cells := by
    rw [leaves, List.mem_filterMap]
    constructor
    · rintro ⟨visit, hmem, hvisit⟩
      cases visit with
      | condition c => nomatch hvisit
      | leaf s =>
          cases hvisit
          exact hmem
    · intro hmem
      exact ⟨_, hmem, rfl⟩
  rw [hleaf, mem_visits_iff]
  constructor
  · rintro ⟨t, hleads, hvisit⟩
    cases t with
    | element condition positive negative => nomatch hvisit
    | _ =>
        cases hvisit
        exact ⟨hleads, rfl⟩
  · rintro ⟨hleads, hkind⟩
    exact ⟨leaf, hleads, visit_of_not_isElement hkind⟩

/-- Nested elements show just what they select. The text is made of the leaves that the selected
branches lead to, from left to right. It takes the reads of these leaves and of the conditions of
the elements on the way, and it is found by the same reads if all other members are removed. The
truth and the number are those of the condition and take its reads alone. -/
theorem views_of_element (cells : Cells) (condition : Condition) (positive negative : List Source) :
    let s : Source := .element condition positive negative
    (s.text cells).value =
        String.join ((s.leaves cells).map fun leaf => (leaf.text cells).value) ∧
      (∀ leaf, leaf ∈ s.leaves cells ↔ s.LeadsTo cells leaf ∧ leaf.isElement = false) ∧
      (s.text cells).reads = ((s.visits cells).flatMap fun visit => visit.reads cells) ∧
      (∀ visit, visit ∈ s.visits cells ↔ ∃ t, s.LeadsTo cells t ∧ t.visit = visit) ∧
      (s.pruned cells).text cells = s.text cells ∧
      s.truth cells = condition.eval cells ∧
      (s.number cells).value = (if (condition.eval cells).value then .one else .zero) ∧
      (s.number cells).reads = (condition.eval cells).reads := by
  intro s
  refine ⟨?_, fun leaf => mem_leaves_iff, ?_, fun visit => mem_visits_iff, ?_, ?_, ?_, ?_⟩
  · rw [text_eq_shown]
    rfl
  · rw [text_eq_shown]
    rfl
  · rw [text_eq_shown, visits_pruned, ← text_eq_shown]
  · simp only [s, truth]
  · simp only [s, number]
    rfl
  · simp only [s, number, Observed.reads_bind, Observed.reads_pure, List.append_nil]

end Source

end DisplayLogic
