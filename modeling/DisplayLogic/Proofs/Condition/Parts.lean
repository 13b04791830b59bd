import DisplayLogic.Proofs.Condition.Meaning
import DisplayLogic.Proofs.Condition.Variables
import Mathlib.Data.List.Flatten
import Mathlib.Data.List.Infix
import Mathlib.Logic.Relation
import Mathlib.Order.WellFounded

/-!
# What sources are made of

An element asks its condition, the condition asks its variables, and the text of an element asks the
members of a branch. `Source.IsPartOf` is this relation between a source and those that it may hand
a question on to. It is well-founded, so that handing questions on comes to an end and no source is
asked in order to answer for itself.

`Source.feeds` and `Condition.feeds` are the feeds at the ends of these chains, each as often as it
occurs. Whatever the cells hold, what is read is a sublist of them.
-/

namespace DisplayLogic

mutual

/-- The feeds in a source at any depth, from left to right. -/
def Source.feeds : Source → List Feed
  | .constant _ => []
  | .feed f => [f]
  | .element condition positive negative =>
      condition.feeds ++
        ((positive.flatMap fun s => s.feeds) ++ negative.flatMap fun s => s.feeds)

/-- The feeds in an operand. -/
def Operand.feeds : Operand → List Feed
  | .source s => s.feeds
  | .literal _ => []

/-- The feeds in a condition at any depth, from left to right. -/
def Condition.feeds : Condition → List Feed
  | .literal _ => []
  | .holds s => s.feeds
  | .comparison left _ right _ => left.feeds ++ right.feeds
  | .all conditions | .any conditions => conditions.flatMap fun c => c.feeds

end

/-- The first source may be asked when the second one is. -/
inductive Source.IsPartOf : Source → Source → Prop where
  | ofCondition {s : Source} {condition : Condition} {positive negative : List Source}
      (h : s ∈ condition.variables) : IsPartOf s (.element condition positive negative)
  | ofPositive {s : Source} {condition : Condition} {positive negative : List Source}
      (h : s ∈ positive) : IsPartOf s (.element condition positive negative)
  | ofNegative {s : Source} {condition : Condition} {positive negative : List Source}
      (h : s ∈ negative) : IsPartOf s (.element condition positive negative)

/-! ### Parts are smaller -/

theorem Operand.sizeOf_lt_of_mem_variables {x : Operand} {s : Source} (h : s ∈ x.variables) :
    sizeOf s < sizeOf x := by
  cases x with
  | literal c => nomatch h
  | source t =>
      obtain rfl : s = t := List.mem_singleton.mp h
      simp only [Operand.source.sizeOf_spec]
      omega

theorem Condition.sizeOf_lt_of_mem_variables {s : Source} :
    ∀ c : Condition, s ∈ c.variables → sizeOf s < sizeOf c
  | .literal value, h => by
      rw [Condition.variables] at h
      nomatch h
  | .holds t, h => by
      rw [Condition.variables, List.mem_singleton] at h
      subst h
      simp only [Condition.holds.sizeOf_spec]
      omega
  | .comparison left relation right kinds, h => by
      rw [Condition.variables, List.mem_append] at h
      simp only [Condition.comparison.sizeOf_spec]
      rcases h with h | h
      · have hleft := Operand.sizeOf_lt_of_mem_variables h
        omega
      · have hright := Operand.sizeOf_lt_of_mem_variables h
        omega
  | .all conditions, h => by
      rw [Condition.variables, List.mem_flatMap] at h
      obtain ⟨c, hmem, hc⟩ := h
      have hsmaller := c.sizeOf_lt_of_mem_variables hc
      have hmember := List.sizeOf_lt_of_mem hmem
      simp only [Condition.all.sizeOf_spec]
      omega
  | .any conditions, h => by
      rw [Condition.variables, List.mem_flatMap] at h
      obtain ⟨c, hmem, hc⟩ := h
      have hsmaller := c.sizeOf_lt_of_mem_variables hc
      have hmember := List.sizeOf_lt_of_mem hmem
      simp only [Condition.any.sizeOf_spec]
      omega

namespace Source

theorem IsPartOf.sizeOf_lt {s t : Source} (h : s.IsPartOf t) : sizeOf s < sizeOf t := by
  cases h with
  | ofCondition h =>
      have hsmaller := Condition.sizeOf_lt_of_mem_variables _ h
      simp only [element.sizeOf_spec]
      omega
  | ofPositive h | ofNegative h =>
      have hmember := List.sizeOf_lt_of_mem h
      simp only [element.sizeOf_spec]
      omega

theorem wellFounded_isPartOf : WellFounded IsPartOf :=
  Subrelation.wf IsPartOf.sizeOf_lt (measure sizeOf).wf

/-- Through however many parts, no source leads back to itself. -/
theorem not_transGen_isPartOf (s : Source) : ¬ Relation.TransGen IsPartOf s s :=
  wellFounded_isPartOf.transGen.irrefl.irrefl s

end Source

/-! ### What is read is among the feeds -/

theorem through_prefix {α : Type} (stop : α → Bool) (as : List α) : through stop as <+: as := by
  induction as with
  | nil => exact List.prefix_rfl
  | cons a rest ih =>
      rw [through]
      split
      · exact List.prefix_append [a] rest
      · exact List.prefix_cons_inj a |>.mpr ih

/-- Members that are left unread take nothing away from the order of the others. -/
theorem flatMap_through_sublist {stop : Bool × List Feed → Bool} {f : Condition → Bool}
    {g : Condition → List Feed} {conditions : List Condition}
    (h : ∀ c ∈ conditions, (g c).Sublist c.feeds) :
    ((through stop (conditions.map fun c => (f c, g c))).flatMap (·.2)).Sublist
      (conditions.flatMap fun c => c.feeds) := by
  have hprefix := through_prefix stop (conditions.map fun c => (f c, g c))
  have hthrough := hprefix.sublist.flatMap (·.2)
  rw [List.flatMap_map] at hthrough
  exact hthrough.trans (.flatMap_right conditions h)

variable (cells : Cells)

mutual

theorem Source.reads_sublist (mode : Mode) :
    ∀ s : Source, (s.reads cells mode).Sublist s.feeds
  | .constant c => by
      rw [Source.reads]
      exact List.nil_sublist _
  | .feed f => by
      rw [Source.reads, Source.feeds]
  | .element condition positive negative => by
      have hpositive : (positive.flatMap fun s => s.reads cells .text).Sublist
          (positive.flatMap fun s => s.feeds) := .flatMap_right _ fun s _ => s.reads_sublist .text
      have hnegative : (negative.flatMap fun s => s.reads cells .text).Sublist
          (negative.flatMap fun s => s.feeds) := .flatMap_right _ fun s _ => s.reads_sublist .text
      rw [Source.reads.eq_def, Source.feeds]
      refine condition.reads_sublist.append ?_
      cases mode with
      | text =>
          simp only
          split
          · exact hpositive.trans (List.sublist_append_left _ _)
          · exact hnegative.trans (List.sublist_append_right _ _)
      | number => exact List.nil_sublist _
      | boolean => exact List.nil_sublist _

theorem Operand.reads_sublist (mode : Mode) :
    ∀ x : Operand, (x.reads cells mode).Sublist x.feeds
  | .source s => by
      rw [Operand.reads, Operand.feeds]
      exact s.reads_sublist mode
  | .literal c => by
      rw [Operand.reads]
      exact List.nil_sublist _

theorem Condition.reads_sublist : ∀ c : Condition, (c.reads cells).Sublist c.feeds
  | .literal value => by
      rw [Condition.reads]
      exact List.nil_sublist _
  | .holds s => by
      rw [Condition.reads, Condition.feeds]
      exact s.reads_sublist .boolean
  | .comparison left relation right kinds => by
      rw [Condition.reads, Condition.feeds]
      exact (left.reads_sublist kinds.mode).append (right.reads_sublist kinds.mode)
  | .all conditions => by
      rw [Condition.reads, Condition.feeds]
      exact flatMap_through_sublist fun c _ => c.reads_sublist
  | .any conditions => by
      rw [Condition.reads, Condition.feeds]
      exact flatMap_through_sublist fun c _ => c.reads_sublist

end

/-- The feeds of a condition are those of its variables. -/
theorem Condition.feeds_eq : ∀ c : Condition, c.feeds = c.variables.flatMap fun s => s.feeds
  | .literal value => by
      rw [Condition.feeds, Condition.variables]
      rfl
  | .holds s => by
      rw [Condition.feeds, Condition.variables, List.flatMap_singleton]
  | .comparison left relation right kinds => by
      have hoperand (x : Operand) : x.feeds = x.variables.flatMap fun s => s.feeds := by
        cases x with
        | source s => rw [Operand.feeds, Operand.variables, List.flatMap_singleton]
        | literal c => rw [Operand.feeds, Operand.variables, List.flatMap_nil]
      rw [Condition.feeds, Condition.variables, List.flatMap_append, hoperand, hoperand]
  | .all conditions => by
      rw [Condition.feeds, Condition.variables, List.flatMap_assoc]
      exact List.flatMap_congr fun c _ => c.feeds_eq
  | .any conditions => by
      rw [Condition.feeds, Condition.variables, List.flatMap_assoc]
      exact List.flatMap_congr fun c _ => c.feeds_eq

end DisplayLogic
