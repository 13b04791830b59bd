import DisplayLogic.Proofs.Grammar.Language
import DisplayLogic.Proofs.Token.Spelling

/-!
# Printing conditions

`Condition.tokens` prints a condition: a conjunction or disjunction puts its connective between its
members, and stands in parentheses unless it is the whole condition. Its counterpart for members is
`innerTokens`.

A condition is `WellFormed` for a registry when it could have been read: it has no conjunction or
disjunction of fewer than two members, its comparisons know their literals, and everything at its
leaves can be written. The printed tokens of a well-formed condition then have a derivation, and
the derivation means the condition.
-/

namespace DisplayLogic

mutual

/-- The tokens of a condition as a member of another. -/
def Condition.innerTokens : Condition → List Token
  | .literal value => [.boolean value]
  | .holds source => [.source source]
  | .comparison left relation right _ => [left.token, .relation relation, right.token]
  | .all conditions => .openGroup :: Condition.joinedTokens .and conditions ++ [.closeGroup]
  | .any conditions => .openGroup :: Condition.joinedTokens .or conditions ++ [.closeGroup]

/-- The tokens of several members, with the connective between them. -/
def Condition.joinedTokens (connective : Token) : List Condition → List Token
  | [] => []
  | [c] => c.innerTokens
  | c :: rest => c.innerTokens ++ connective :: Condition.joinedTokens connective rest

end

/-- The tokens of a whole condition. -/
def Condition.tokens : Condition → List Token
  | .all conditions => Condition.joinedTokens .and conditions
  | .any conditions => Condition.joinedTokens .or conditions
  | c => c.innerTokens

/-- An operand that can be written. -/
inductive Operand.WellFormed (r : Registry) : Operand → Prop where
  | source {s : Source} (h : ∃ name, Name.IsWhole name ∧ r.Supplies name s) :
      WellFormed r (.source s)
  | text {s : String} (h : '"' ∉ s.toList) : WellFormed r (.literal (.text s))
  | number {n : Number} (h : ∃ run, Number.IsNumeral run ∧ Number.ofNumeral? run = some n) :
      WellFormed r (.literal (.number n))
  | boolean (value : Bool) : WellFormed r (.literal (.boolean value))

/-- A condition of a form that can be read, with leaves that can be written. -/
inductive Condition.WellFormed (r : Registry) : Condition → Prop where
  | literal (value : Bool) : WellFormed r (.literal value)
  | holds {s : Source} (h : ∃ name, Name.IsWhole name ∧ r.Supplies name s) :
      WellFormed r (.holds s)
  | comparison {left right : Operand} {relation : Relation} {kinds : LiteralKinds}
      (hleft : left.WellFormed r) (hright : right.WellFormed r)
      (hboolean : kinds.boolean = (left.isBooleanLiteral || right.isBooleanLiteral))
      (hnumber : kinds.number = (left.isNumberLiteral || right.isNumberLiteral)) :
      WellFormed r (.comparison left relation right kinds)
  | all {conditions : List Condition} (hlength : 2 ≤ conditions.length)
      (h : ∀ c ∈ conditions, WellFormed r c) : WellFormed r (.all conditions)
  | any {conditions : List Condition} (hlength : 2 ≤ conditions.length)
      (h : ∀ c ∈ conditions, WellFormed r c) : WellFormed r (.any conditions)

namespace Condition

theorem joinedTokens_cons_cons (connective : Token) (c d : Condition) (rest : List Condition) :
    joinedTokens connective (c :: d :: rest) =
      c.innerTokens ++ connective :: joinedTokens connective (d :: rest) := rfl

/-! ### The derivation of what is printed -/

section Derivation

open Grammar

theorem combine_of_two_le {conditions : List Condition} (h : 2 ≤ conditions.length)
    (connective : List Condition → Condition) :
    Part.combine connective conditions = connective conditions := by
  match conditions, h with
  | _ :: _ :: _, _ => rfl

/-- The tokens of members are derived as a conjunction, if those of each member are as a factor. -/
theorem exists_conjunction_joined {conditions : List Condition} (hne : conditions ≠ [])
    (h : ∀ c ∈ conditions, ∃ f : Factor, f.tokens = c.innerTokens ∧ f.condition = c) :
    ∃ e : Conjunction, e.tokens = joinedTokens .and conditions ∧ e.conditions = conditions := by
  induction conditions with
  | nil => exact absurd rfl hne
  | cons c rest ih =>
      obtain ⟨f, hf, hcondition⟩ := h c List.mem_cons_self
      cases rest with
      | nil =>
          refine ⟨.single f, hf, ?_⟩
          rw [← hcondition]
          rfl
      | cons d rest =>
          obtain ⟨e, he, hconditions⟩ := ih (List.cons_ne_nil d rest)
            fun c' hc' => h c' (List.mem_cons_of_mem c hc')
          refine ⟨.more f e, ?_, ?_⟩
          · rw [Conjunction.tokens, hf, he, joinedTokens_cons_cons]
          · rw [Conjunction.conditions, hcondition, hconditions]

theorem exists_disjunction_joined {conditions : List Condition} (hne : conditions ≠ [])
    (h : ∀ c ∈ conditions, ∃ f : Factor, f.tokens = c.innerTokens ∧ f.condition = c) :
    ∃ e : Disjunction, e.tokens = joinedTokens .or conditions ∧ e.conditions = conditions := by
  induction conditions with
  | nil => exact absurd rfl hne
  | cons c rest ih =>
      obtain ⟨f, hf, hcondition⟩ := h c List.mem_cons_self
      cases rest with
      | nil =>
          refine ⟨.single (.single f), hf, ?_⟩
          rw [← hcondition]
          rfl
      | cons d rest =>
          obtain ⟨e, he, hconditions⟩ := ih (List.cons_ne_nil d rest)
            fun c' hc' => h c' (List.mem_cons_of_mem c hc')
          refine ⟨.more (.single f) e, ?_, ?_⟩
          · rw [Disjunction.tokens, Conjunction.tokens, hf, he, joinedTokens_cons_cons]
          · rw [Disjunction.conditions, Conjunction.condition, hcondition, hconditions]

variable {r : Registry} {c : Condition} {conditions : List Condition}

theorem exists_conjunction_all (hlength : 2 ≤ conditions.length)
    (h : ∀ c ∈ conditions, ∃ f : Factor, f.tokens = c.innerTokens ∧ f.condition = c) :
    ∃ e : Conjunction,
      e.tokens = joinedTokens .and conditions ∧ e.condition = .all conditions := by
  have hne : conditions ≠ [] := List.ne_nil_of_length_pos (Nat.lt_of_lt_of_le (by decide) hlength)
  obtain ⟨e, he, hconditions⟩ := exists_conjunction_joined hne h
  refine ⟨e, he, ?_⟩
  rw [← e.combine_conditions, hconditions, combine_of_two_le hlength]

theorem exists_disjunction_any (hlength : 2 ≤ conditions.length)
    (h : ∀ c ∈ conditions, ∃ f : Factor, f.tokens = c.innerTokens ∧ f.condition = c) :
    ∃ e : Disjunction,
      e.tokens = joinedTokens .or conditions ∧ e.condition = .any conditions := by
  have hne : conditions ≠ [] := List.ne_nil_of_length_pos (Nat.lt_of_lt_of_le (by decide) hlength)
  obtain ⟨e, he, hconditions⟩ := exists_disjunction_joined hne h
  refine ⟨e, he, ?_⟩
  rw [← e.combine_conditions, hconditions, combine_of_two_le hlength]

/-- As a member, a well-formed condition is printed as a factor that means it. -/
theorem WellFormed.exists_factor (h : c.WellFormed r) :
    ∃ f : Factor, f.tokens = c.innerTokens ∧ f.condition = c := by
  induction h with
  | literal value => exact ⟨.literal value, rfl, rfl⟩
  | @holds s _ => exact ⟨.holds s, rfl, rfl⟩
  | @comparison left right relation kinds _ _ hboolean hnumber =>
      refine ⟨.comparison left relation right, rfl, ?_⟩
      rw [Factor.condition, ← hboolean, ← hnumber]
  | all hlength _ ih =>
      obtain ⟨e, he, hcondition⟩ := exists_conjunction_all hlength ih
      refine ⟨.group (.single e), ?_, hcondition⟩
      rw [Factor.tokens, Disjunction.tokens, he, innerTokens]
  | any hlength _ ih =>
      obtain ⟨e, he, hcondition⟩ := exists_disjunction_any hlength ih
      refine ⟨.group e, ?_, hcondition⟩
      rw [Factor.tokens, he, innerTokens]

/-- The printed tokens of a well-formed condition have a derivation that means it. -/
theorem WellFormed.exists_disjunction (h : c.WellFormed r) :
    ∃ e : Disjunction, e.tokens = c.tokens ∧ e.condition = c := by
  cases c with
  | all conditions =>
      cases h with
      | all hlength hmembers =>
          obtain ⟨e, he, hcondition⟩ :=
            exists_conjunction_all hlength fun c hc => (hmembers c hc).exists_factor
          exact ⟨.single e, he, hcondition⟩
  | any conditions =>
      cases h with
      | any hlength hmembers =>
          exact exists_disjunction_any hlength fun c hc => (hmembers c hc).exists_factor
  | _ =>
      obtain ⟨f, hf, hcondition⟩ := h.exists_factor
      exact ⟨.single (.single f), hf, hcondition⟩

end Derivation

/-! ### Everything that is printed can be written -/

section Spelling

variable {r : Registry} {c : Condition}

theorem exists_spelling_token {x : Operand} (h : x.WellFormed r) :
    ∃ cs, r.Spells x.token cs := by
  cases h with
  | source h =>
      obtain ⟨name, hname, hsupplies⟩ := h
      exact ⟨name, .source hname hsupplies⟩
  | text h => exact ⟨_, .text h⟩
  | number h =>
      obtain ⟨run, hrun, hvalue⟩ := h
      exact ⟨run, .number hrun hvalue⟩
  | boolean value => exact ⟨_, .boolean value⟩

theorem exists_spelling_joined {connective : Token} (hconnective : ∃ cs, r.Spells connective cs)
    {conditions : List Condition}
    (h : ∀ c ∈ conditions, ∀ t ∈ c.innerTokens, ∃ cs, r.Spells t cs) :
    ∀ t ∈ joinedTokens connective conditions, ∃ cs, r.Spells t cs := by
  induction conditions with
  | nil => nofun
  | cons c rest ih =>
      obtain ⟨hc, hrest⟩ := List.forall_mem_cons.mp h
      cases rest with
      | nil => exact hc
      | cons d rest =>
          rw [joinedTokens_cons_cons]
          exact List.forall_mem_append.mpr ⟨hc, List.forall_mem_cons.mpr ⟨hconnective, ih hrest⟩⟩

theorem exists_spelling_group {ts : List Token} (h : ∀ t ∈ ts, ∃ cs, r.Spells t cs) :
    ∀ t ∈ .openGroup :: ts ++ [.closeGroup], ∃ cs, r.Spells t cs := by
  have hopen : ∃ cs, r.Spells .openGroup cs := ⟨_, .openGroup⟩
  have hclose : ∃ cs, r.Spells .closeGroup cs := ⟨_, .closeGroup⟩
  exact List.forall_mem_append.mpr
    ⟨List.forall_mem_cons.mpr ⟨hopen, h⟩, List.forall_mem_singleton.mpr hclose⟩

theorem WellFormed.exists_spelling_inner (h : c.WellFormed r) :
    ∀ t ∈ c.innerTokens, ∃ cs, r.Spells t cs := by
  induction h with
  | literal value => exact List.forall_mem_singleton.mpr ⟨_, .boolean value⟩
  | holds h =>
      obtain ⟨name, hname, hsupplies⟩ := h
      exact List.forall_mem_singleton.mpr ⟨name, .source hname hsupplies⟩
  | @comparison left right relation kinds hleft hright _ _ =>
      have hrelation : ∃ cs, r.Spells (.relation relation) cs := ⟨_, .relation relation⟩
      simp [innerTokens, exists_spelling_token hleft, exists_spelling_token hright, hrelation]
  | all _ _ ih => exact exists_spelling_group (exists_spelling_joined ⟨_, .and⟩ ih)
  | any _ _ ih => exact exists_spelling_group (exists_spelling_joined ⟨_, .or⟩ ih)

theorem WellFormed.exists_spelling (h : c.WellFormed r) :
    ∀ t ∈ c.tokens, ∃ cs, r.Spells t cs := by
  cases c with
  | all conditions =>
      cases h with
      | all _ hmembers =>
          exact exists_spelling_joined ⟨_, .and⟩ fun c hc =>
            (hmembers c hc).exists_spelling_inner
  | any conditions =>
      cases h with
      | any _ hmembers =>
          exact exists_spelling_joined ⟨_, .or⟩ fun c hc =>
            (hmembers c hc).exists_spelling_inner
  | _ => exact h.exists_spelling_inner

end Spelling

end Condition

end DisplayLogic
