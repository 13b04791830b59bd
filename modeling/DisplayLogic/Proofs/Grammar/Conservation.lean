import DisplayLogic.Proofs.Grammar.Reading
import Mathlib.Algebra.BigOperators.Group.List.Basic
import Mathlib.Algebra.GroupWithZero.Nat

/-!
# What reading keeps of the tokens

Reading moves tokens through two cuts, drops the connectives, leaves single members without a node
of their own and goes down into groups. Nothing is lost on the way. The leaves of the condition are,
from left to right, the tokens that are neither marks nor connectives, `Condition.leafTokens`. The
connectives are not kept one by one, but each of them joins two members of some node, so that they
are counted by `Condition.joints` over all nodes.

Nothing is asked of the tokens in advance. They may hold groups and marks at any depth; that they
hold no mark is part of what follows.
-/

namespace DisplayLogic

namespace Token

/-- Whether a token has a place at the leaves of a condition. -/
def isLeaf : Token → Bool
  | relation _ | number _ | text _ | boolean _ | source _ => true
  | _ => false

def isOr : Token → Bool
  | or => true
  | _ => false

def isAnd : Token → Bool
  | and => true
  | _ => false

end Token

namespace Condition

/-- The tokens at the leaves, from left to right. -/
def leafTokens : Condition → List Token
  | .literal value => [.boolean value]
  | .holds source => [.source source]
  | .comparison left relation right _ => [left.token, .relation relation, right.token]
  | .all conditions | .any conditions => conditions.flatMap fun c => c.leafTokens

/-- A condition and all conditions below it. -/
def nodes : Condition → List Condition
  | .all conditions => .all conditions :: conditions.flatMap fun c => c.nodes
  | .any conditions => .any conditions :: conditions.flatMap fun c => c.nodes
  | c => [c]

/-- Every conjunction and disjunction in a condition has two members or more. -/
def Branches (c : Condition) : Prop :=
  ∀ cs, .all cs ∈ c.nodes ∨ .any cs ∈ c.nodes → 2 ≤ cs.length

/-- How many times a node joins its members by a connective: one time less than it has members. -/
def joints (connective : Token → Bool) : Condition → Nat
  | .all conditions => if connective .and then conditions.length - 1 else 0
  | .any conditions => if connective .or then conditions.length - 1 else 0
  | _ => 0

/-- How many times the nodes of a condition join members by a connective. -/
def totalJoints (connective : Token → Bool) (c : Condition) : Nat :=
  (c.nodes.map (joints connective)).sum

theorem nodes_all (cs : List Condition) :
    (Condition.all cs).nodes = .all cs :: cs.flatMap fun c => c.nodes := by
  rw [nodes]

theorem nodes_any (cs : List Condition) :
    (Condition.any cs).nodes = .any cs :: cs.flatMap fun c => c.nodes := by
  rw [nodes]

theorem totalJoints_of_nodes {c : Condition} {cs : List Condition}
    (h : c.nodes = c :: cs.flatMap fun c => c.nodes) (connective : Token → Bool) :
    c.totalJoints connective = c.joints connective + (cs.map (totalJoints connective)).sum := by
  rw [totalJoints, h, List.map_cons, List.sum_cons, List.map_flatMap, List.flatMap_def,
    List.sum_flatten, List.map_map]
  rfl

theorem branches_of_nodes {c : Condition} {cs : List Condition}
    (hnodes : c.nodes = c :: cs.flatMap fun c => c.nodes)
    (hself : ∀ ds, .all ds = c ∨ .any ds = c → 2 ≤ ds.length) (h : ∀ c ∈ cs, c.Branches) :
    c.Branches := by
  intro ds hds
  rw [hnodes] at hds
  simp only [List.mem_cons, List.mem_flatMap] at hds
  rcases hds with (hc | ⟨d, hd, hds⟩) | (hc | ⟨d, hd, hds⟩)
  · exact hself ds (.inl hc)
  · exact h d hd ds (.inl hds)
  · exact hself ds (.inr hc)
  · exact h d hd ds (.inr hds)

theorem branches_all {cs : List Condition} (hlength : 2 ≤ cs.length)
    (h : ∀ c ∈ cs, c.Branches) : (Condition.all cs).Branches := by
  refine branches_of_nodes (nodes_all cs) ?_ h
  rintro ds (hds | hds)
  · cases hds
    exact hlength
  · cases hds

theorem branches_any {cs : List Condition} (hlength : 2 ≤ cs.length)
    (h : ∀ c ∈ cs, c.Branches) : (Condition.any cs).Branches := by
  refine branches_of_nodes (nodes_any cs) ?_ h
  rintro ds (hds | hds)
  · cases hds
  · cases hds
    exact hlength

end Condition

namespace Grammar

/-! ### Leaves -/

theorem isLeaf_token (x : Operand) : x.token.isLeaf = true := by
  cases x with
  | source s => rfl
  | literal c => cases c <;> rfl

theorem leafTokens_combine {connective : List Condition → Condition}
    (h : ∀ cs, (connective cs).leafTokens = cs.flatMap fun c => c.leafTokens)
    (conditions : List Condition) :
    (Part.combine connective conditions).leafTokens = conditions.flatMap fun c => c.leafTokens := by
  match conditions with
  | [] | _ :: _ :: _ => exact h _
  | [c] => exact (List.flatMap_singleton _ c).symm

theorem Disjunction.leafTokens_condition (e : Disjunction) :
    e.condition.leafTokens = e.conditions.flatMap fun c => c.leafTokens := by
  rw [← e.combine_conditions]
  exact leafTokens_combine (fun _ => by rw [Condition.leafTokens]) _

theorem Conjunction.leafTokens_condition (e : Conjunction) :
    e.condition.leafTokens = e.conditions.flatMap fun c => c.leafTokens := by
  rw [← e.combine_conditions]
  exact leafTokens_combine (fun _ => by rw [Condition.leafTokens]) _

mutual

theorem Disjunction.filter_isLeaf_tokens : ∀ e : Disjunction,
    e.tokens.filter Token.isLeaf = e.conditions.flatMap fun c => c.leafTokens
  | .single first => by
      rw [Disjunction.tokens, Disjunction.conditions, List.flatMap_singleton,
        first.filter_isLeaf_tokens, first.leafTokens_condition]
  | .more first rest => by
      rw [Disjunction.tokens, Disjunction.conditions, List.filter_append, List.flatMap_cons,
        first.filter_isLeaf_tokens, first.leafTokens_condition,
        List.filter_cons_of_neg Bool.false_ne_true, rest.filter_isLeaf_tokens]

theorem Conjunction.filter_isLeaf_tokens : ∀ e : Conjunction,
    e.tokens.filter Token.isLeaf = e.conditions.flatMap fun c => c.leafTokens
  | .single first => by
      rw [Conjunction.tokens, Conjunction.conditions, List.flatMap_singleton]
      exact first.filter_isLeaf_tokens
  | .more first rest => by
      rw [Conjunction.tokens, Conjunction.conditions, List.filter_append, List.flatMap_cons,
        first.filter_isLeaf_tokens, List.filter_cons_of_neg Bool.false_ne_true,
        rest.filter_isLeaf_tokens]

theorem Factor.filter_isLeaf_tokens : ∀ f : Factor,
    f.tokens.filter Token.isLeaf = f.condition.leafTokens
  | .group inner => by
      rw [Factor.tokens, Factor.condition, List.filter_append,
        List.filter_cons_of_neg Bool.false_ne_true, inner.filter_isLeaf_tokens,
        inner.leafTokens_condition]
      exact List.append_nil _
  | .literal value => by
      rw [Factor.condition, Condition.leafTokens]
      rfl
  | .holds source => by
      rw [Factor.condition, Condition.leafTokens]
      rfl
  | .comparison left relation right => by
      rw [Factor.tokens, Factor.condition, Condition.leafTokens,
        List.filter_cons_of_pos (isLeaf_token left), List.filter_cons_of_pos rfl,
        List.filter_cons_of_pos (isLeaf_token right), List.filter_nil]

end

/-! ### Members -/

theorem Disjunction.length_conditions_pos (e : Disjunction) : 0 < e.conditions.length := by
  cases e <;> exact Nat.succ_pos _

theorem Conjunction.length_conditions_pos (e : Conjunction) : 0 < e.conditions.length := by
  cases e <;> exact Nat.succ_pos _

mutual

theorem Disjunction.branches_conditions : ∀ e : Disjunction, ∀ c ∈ e.conditions, c.Branches
  | .single first => List.forall_mem_singleton.mpr first.branches_condition
  | .more first rest =>
      List.forall_mem_cons.mpr ⟨first.branches_condition, rest.branches_conditions⟩

theorem Disjunction.branches_condition : ∀ e : Disjunction, e.condition.Branches
  | .single first => first.branches_condition
  | .more first rest =>
      Condition.branches_any (Nat.succ_le_succ rest.length_conditions_pos)
        (List.forall_mem_cons.mpr ⟨first.branches_condition, rest.branches_conditions⟩)

theorem Conjunction.branches_conditions : ∀ e : Conjunction, ∀ c ∈ e.conditions, c.Branches
  | .single first => List.forall_mem_singleton.mpr first.branches_condition
  | .more first rest =>
      List.forall_mem_cons.mpr ⟨first.branches_condition, rest.branches_conditions⟩

theorem Conjunction.branches_condition : ∀ e : Conjunction, e.condition.Branches
  | .single first => first.branches_condition
  | .more first rest =>
      Condition.branches_all (Nat.succ_le_succ rest.length_conditions_pos)
        (List.forall_mem_cons.mpr ⟨first.branches_condition, rest.branches_conditions⟩)

theorem Factor.branches_condition : ∀ f : Factor, f.condition.Branches
  | .group inner => inner.branches_condition
  | .literal _ | .holds _ | .comparison _ _ _ => by
      intro cs hcs
      simp [Factor.condition, Condition.nodes] at hcs

end

/-! ### Connectives -/

/-- Only the connectives can be counted by the test. -/
structure CountsConnectives (test : Token → Bool) : Prop where
  leaf : ∀ t : Token, t.isLeaf = true → test t = false
  openGroup : test .openGroup = false
  closeGroup : test .closeGroup = false

theorem countsConnectives_isOr : CountsConnectives Token.isOr where
  leaf t h := by
    cases t with
    | or => nomatch h
    | _ => rfl
  openGroup := rfl
  closeGroup := rfl

theorem countsConnectives_isAnd : CountsConnectives Token.isAnd where
  leaf t h := by
    cases t with
    | and => nomatch h
    | _ => rfl
  openGroup := rfl
  closeGroup := rfl

variable {test : Token → Bool}

theorem Disjunction.totalJoints_condition (e : Disjunction) :
    e.condition.totalJoints test =
      (if test .or then e.conditions.length - 1 else 0) +
        (e.conditions.map (Condition.totalJoints test)).sum := by
  cases e with
  | single first => simp [Disjunction.condition, Disjunction.conditions]
  | more first rest => exact Condition.totalJoints_of_nodes (Condition.nodes_any _) test

theorem Conjunction.totalJoints_condition (e : Conjunction) :
    e.condition.totalJoints test =
      (if test .and then e.conditions.length - 1 else 0) +
        (e.conditions.map (Condition.totalJoints test)).sum := by
  cases e with
  | single first => simp [Conjunction.condition, Conjunction.conditions]
  | more first rest => exact Condition.totalJoints_of_nodes (Condition.nodes_all _) test

mutual

/-- A connective stands between any two neighbouring members. -/
theorem Disjunction.countP_tokens (htest : CountsConnectives test) : ∀ e : Disjunction,
    e.tokens.countP test =
      (if test .or then e.conditions.length - 1 else 0) +
        (e.conditions.map (Condition.totalJoints test)).sum
  | .single first => by
      rw [Disjunction.tokens, first.countP_tokens htest, ← first.totalJoints_condition]
      simp [Disjunction.conditions]
  | .more first rest => by
      have hpos := rest.length_conditions_pos
      rw [Disjunction.tokens, List.countP_append, List.countP_cons, first.countP_tokens htest,
        rest.countP_tokens htest, ← first.totalJoints_condition, Disjunction.conditions,
        List.map_cons, List.sum_cons, List.length_cons]
      split <;> omega

theorem Conjunction.countP_tokens (htest : CountsConnectives test) : ∀ e : Conjunction,
    e.tokens.countP test =
      (if test .and then e.conditions.length - 1 else 0) +
        (e.conditions.map (Condition.totalJoints test)).sum
  | .single first => by
      rw [Conjunction.tokens, first.countP_tokens htest]
      simp [Conjunction.conditions]
  | .more first rest => by
      have hpos := rest.length_conditions_pos
      rw [Conjunction.tokens, List.countP_append, List.countP_cons, first.countP_tokens htest,
        rest.countP_tokens htest, Conjunction.conditions, List.map_cons, List.sum_cons,
        List.length_cons]
      split <;> omega

theorem Factor.countP_tokens (htest : CountsConnectives test) : ∀ f : Factor,
    f.tokens.countP test = f.condition.totalJoints test
  | .group inner => by
      rw [Factor.tokens, Factor.condition, inner.totalJoints_condition,
        ← inner.countP_tokens htest]
      simp [htest.openGroup, htest.closeGroup]
  | .literal value => by
      have hleaf := htest.leaf (.boolean value) rfl
      simp [Factor.tokens, Factor.condition, Condition.totalJoints, Condition.nodes,
        Condition.joints, hleaf]
  | .holds source => by
      have hleaf := htest.leaf (.source source) rfl
      simp [Factor.tokens, Factor.condition, Condition.totalJoints, Condition.nodes,
        Condition.joints, hleaf]
  | .comparison left relation right => by
      have hoperand (x : Operand) := htest.leaf x.token (isLeaf_token x)
      have hrelation := htest.leaf (.relation relation) rfl
      simp [Factor.tokens, Factor.condition, Condition.totalJoints, Condition.nodes,
        Condition.joints, hoperand, hrelation]

end

/-- A condition is read only from tokens without marks at any depth. It has two members or more
wherever it has any, its leaves are the other tokens than the connectives, in their order and with
groups opened in place, and it joins members as often as there are connectives. -/
theorem ofTokens_conserves {ts : List Token} {c : Condition} (h : Condition.ofTokens ts = .ok c) :
    (∀ t ∈ ts, t.Unmarked) ∧
      (∀ cs, .all cs ∈ c.nodes ∨ .any cs ∈ c.nodes → 2 ≤ cs.length) ∧
      c.leafTokens = (Token.flatten ts).filter Token.isLeaf ∧
      (c.nodes.map (Condition.joints Token.isOr)).sum = (Token.flatten ts).countP Token.isOr ∧
      (c.nodes.map (Condition.joints Token.isAnd)).sum = (Token.flatten ts).countP Token.isAnd := by
  obtain ⟨e, rfl, rfl⟩ := ofTokens_eq_ok_iff.mp h
  rw [e.flatten_nested]
  refine ⟨e.unmarked_nested, e.branches_condition, ?_, ?_, ?_⟩
  · rw [e.leafTokens_condition, e.filter_isLeaf_tokens]
  · rw [e.countP_tokens countsConnectives_isOr, ← e.totalJoints_condition]
    rfl
  · rw [e.countP_tokens countsConnectives_isAnd, ← e.totalJoints_condition]
    rfl

theorem ofTokens_conserves_groups :
    let x : Source := .constant (.text "x")
    let alternatives : Condition := .any [.literal true, .literal false]
    let less : Condition :=
      .comparison (.literal (.number .zero)) .less (.source x) ⟨false, true⟩
    let ts : List Token := [.group [.boolean true, .or, .group [.boolean false]], .and,
      .number .zero, .relation .less, .source x]
    let c : Condition := .all [alternatives, less]
    Condition.ofTokens ts = .ok c ∧ (∀ t ∈ ts, t.Unmarked) ∧
      c.leafTokens = [.boolean true, .boolean false, .number .zero, .relation .less, .source x] ∧
      (c.nodes.map (Condition.joints Token.isOr)).sum = 1 ∧
      (c.nodes.map (Condition.joints Token.isAnd)).sum = 1 := by
  intro x alternatives less ts c
  have hread : Condition.ofTokens ts = .ok c := rfl
  obtain ⟨hunmarked, -, hleaves, hor, hand⟩ := ofTokens_conserves hread
  exact ⟨hread, hunmarked, hleaves, hor, hand⟩

end Grammar

end DisplayLogic
