import DisplayLogic.Condition.OfTokens
import DisplayLogic.Proofs.Grammar.Derivation
import DisplayLogic.Proofs.Outcome

/-!
# Reading nested tokens

`Condition.ofTokens` never builds a derivation: it cuts the tokens at one connective, the sections
at the other, and counts what is left. The main statement `ofTokens_eq_ok_iff` says that it gives a
condition just for the nested leaves of a derivation, and then the condition of that derivation.

A connective is characterised by the one token that its test accepts. Cutting at a connective is
described by two equations, for tokens without the connective and for tokens up to its first
occurrence, and both directions of the main statement are built on these two.
-/

namespace DisplayLogic

open Grammar

namespace Part

theorem sections_of_forall {α : Type} {test : α → Bool} {as : List α}
    (h : ∀ a ∈ as, test a = false) : sections test as = [as] := by
  induction as with
  | nil => rfl
  | cons a rest ih =>
      obtain ⟨ha, hrest⟩ := List.forall_mem_cons.mp h
      rw [sections, ha, ih hrest]
      rfl

theorem sections_append_cons {α : Type} {test : α → Bool} {as : List α}
    (h : ∀ a ∈ as, test a = false) {mark : α} (hmark : test mark = true) (bs : List α) :
    sections test (as ++ mark :: bs) = as :: sections test bs := by
  induction as with
  | nil =>
      rw [List.nil_append, sections, hmark]
      rfl
  | cons a rest ih =>
      obtain ⟨ha, hrest⟩ := List.forall_mem_cons.mp h
      rw [List.cons_append, sections, ha, ih hrest]
      rfl

theorem isOr_part_iff (t : Token) : t.part.isOr = true ↔ t = .or := by
  cases t <;> simp [Token.part, isOr]

theorem isAnd_part_iff (t : Token) : t.part.isAnd = true ↔ t = .and := by
  cases t <;> simp [Token.part, isAnd]

section Sections

variable {test : Part → Bool} {mark : Token} {ts : List Token}

theorem forall_parts_of_not_mem (htest : ∀ t : Token, test t.part = true ↔ t = mark)
    (h : mark ∉ ts) : ∀ p ∈ Token.parts ts, test p = false := by
  rw [Token.parts_eq_map]
  intro p hp
  obtain ⟨t, ht, rfl⟩ := List.mem_map.mp hp
  rw [← Bool.not_eq_true, htest]
  rintro rfl
  exact h ht

theorem sections_parts_of_not_mem (htest : ∀ t : Token, test t.part = true ↔ t = mark)
    (h : mark ∉ ts) : sections test (Token.parts ts) = [Token.parts ts] :=
  sections_of_forall (forall_parts_of_not_mem htest h)

theorem sections_parts_append_cons (htest : ∀ t : Token, test t.part = true ↔ t = mark)
    (h : mark ∉ ts) (us : List Token) :
    sections test (Token.parts (ts ++ mark :: us)) =
      Token.parts ts :: sections test (Token.parts us) := by
  have happend : Token.parts (ts ++ mark :: us) =
      Token.parts ts ++ mark.part :: Token.parts us := by
    simp only [Token.parts_eq_map, List.map_append, List.map_cons]
  rw [happend, sections_append_cons (forall_parts_of_not_mem htest h) ((htest mark).mpr rfl)]

end Sections

end Part

namespace Grammar

/-! ### Derivations are read back -/

theorem kinds_ofOperands (left right : Operand) :
    LiteralKinds.ofOperands left right =
      { boolean := left.isBooleanLiteral || right.isBooleanLiteral
        number := left.isNumberLiteral || right.isNumberLiteral } := by
  have hkind (x : Operand) : x.isLiteralOf .boolean = x.isBooleanLiteral ∧
      x.isLiteralOf .number = x.isNumberLiteral := by
    cases x with
    | source s => exact ⟨rfl, rfl⟩
    | literal c => cases c <;> exact ⟨rfl, rfl⟩
  rw [LiteralKinds.ofOperands, (hkind left).1, (hkind left).2, (hkind right).1, (hkind right).2]

theorem operand_token (x : Operand) : x.token.part.operand = .ok x := by
  cases x with
  | source s => rfl
  | literal c => cases c <;> rfl

/-- Neither connective stands at the top level of a factor. -/
theorem Factor.not_mem_nested {mark : Token} (hmark : mark = .or ∨ mark = .and) (f : Factor) :
    mark ∉ f.nested := by
  have hoperand (x : Operand) : mark ≠ x.token := by
    rcases hmark with rfl | rfl
    all_goals
      cases x with
      | source s => nofun
      | literal c => cases c <;> nofun
  cases f with
  | comparison left relation right =>
      have hrelation : mark ≠ .relation relation := by rcases hmark with rfl | rfl <;> nofun
      simp [Factor.nested, hoperand, hrelation]
  | _ => rcases hmark with rfl | rfl <;> simp [Factor.nested]

theorem Conjunction.or_not_mem_nested (e : Conjunction) : .or ∉ e.nested := by
  cases e with
  | single first => exact first.not_mem_nested (.inl rfl)
  | more first rest =>
      have hfirst := first.not_mem_nested (.inl rfl)
      have hrest := rest.or_not_mem_nested
      simp [Conjunction.nested, hfirst, hrest]

theorem Conjunction.combine_conditions (e : Conjunction) :
    Part.combine .all e.conditions = e.condition := by
  cases e with
  | single first => rfl
  | more first rest => cases rest <;> rfl

theorem Disjunction.combine_conditions (e : Disjunction) :
    Part.combine .any e.conditions = e.condition := by
  cases e with
  | single first => rfl
  | more first rest => cases rest <;> rfl

mutual

theorem Disjunction.mapM_sections : ∀ e : Disjunction,
    (Part.sections Part.isOr (Token.parts e.nested)).mapM Condition.ofJoint = .ok e.conditions
  | .single first => by
      rw [Disjunction.nested,
        Part.sections_parts_of_not_mem Part.isOr_part_iff first.or_not_mem_nested,
        Outcome.mapM_cons_eq_ok_iff]
      exact ⟨_, [], first.ofJoint_nested, rfl, rfl⟩
  | .more first rest => by
      rw [Disjunction.nested,
        Part.sections_parts_append_cons Part.isOr_part_iff first.or_not_mem_nested,
        Outcome.mapM_cons_eq_ok_iff]
      exact ⟨_, _, first.ofJoint_nested, rest.mapM_sections, rfl⟩

theorem Conjunction.mapM_sections : ∀ e : Conjunction,
    (Part.sections Part.isAnd (Token.parts e.nested)).mapM Condition.ofSimple =
      .ok e.conditions
  | .single first => by
      rw [Conjunction.nested,
        Part.sections_parts_of_not_mem Part.isAnd_part_iff (first.not_mem_nested (.inr rfl)),
        Outcome.mapM_cons_eq_ok_iff]
      exact ⟨_, [], first.ofSimple_nested, rfl, rfl⟩
  | .more first rest => by
      rw [Conjunction.nested,
        Part.sections_parts_append_cons Part.isAnd_part_iff (first.not_mem_nested (.inr rfl)),
        Outcome.mapM_cons_eq_ok_iff]
      exact ⟨_, _, first.ofSimple_nested, rest.mapM_sections, rfl⟩

theorem Conjunction.ofJoint_nested : ∀ e : Conjunction,
    Condition.ofJoint (Token.parts e.nested) = .ok e.condition := by
  intro e
  rw [Condition.ofJoint, Outcome.map_eq_ok_iff]
  exact ⟨_, e.mapM_sections, e.combine_conditions⟩

theorem Factor.ofSimple_nested : ∀ f : Factor,
    Condition.ofSimple (Token.parts f.nested) = .ok f.condition
  | .group inner => by
      have hinner : Condition.ofParts (Token.parts inner.nested) = .ok inner.condition := by
        rw [Condition.ofParts, Outcome.map_eq_ok_iff]
        exact ⟨_, inner.mapM_sections, inner.combine_conditions⟩
      exact hinner
  | .literal value | .holds source => rfl
  | .comparison left relation right => by
      have hparts : Token.parts (Factor.comparison left relation right).nested =
          [left.token.part, .token (.relation relation), right.token.part] := rfl
      rw [hparts, Condition.ofSimple, operand_token, operand_token]
      rw [Factor.condition, ← kinds_ofOperands]
      rfl

end

/-- The nested leaves of a derivation are read as its condition. -/
theorem Disjunction.ofTokens_nested (e : Disjunction) :
    Condition.ofTokens e.nested = .ok e.condition := by
  rw [Condition.ofTokens, Condition.ofParts, Outcome.map_eq_ok_iff]
  exact ⟨_, e.mapM_sections, e.combine_conditions⟩

/-! ### What is read has a derivation -/

theorem token_of_operand {t : Token} {x : Operand} (h : t.part.operand = .ok x) :
    x.token = t := by
  cases t with
  | number n | text s | boolean b | source s =>
      cases h
      rfl
  | _ => nomatch h

theorem eq_relation_of_part {t : Token} {r : Relation} (h : t.part.relation = .ok r) :
    t = .relation r := by
  cases t with
  | relation r' =>
      cases h
      rfl
  | _ => nomatch h

/-- Behind every condition that is read from the tokens stands a derivation. -/
def Derivable (ts : List Token) : Prop :=
  ∀ c, Condition.ofTokens ts = .ok c → ∃ e : Disjunction, e.nested = ts ∧ e.condition = c

theorem exists_factor_of_atom {t : Token} (hgroup : ∀ items, t = .group items → Derivable items)
    {c : Condition} (h : t.part.atom = .ok c) :
    ∃ f : Factor, f.nested = [t] ∧ f.condition = c := by
  cases t with
  | group items =>
      obtain ⟨e, rfl, rfl⟩ := hgroup items rfl c h
      exact ⟨.group e, rfl, rfl⟩
  | boolean b =>
      cases h
      exact ⟨.literal b, rfl, rfl⟩
  | source s =>
      cases h
      exact ⟨.holds s, rfl, rfl⟩
  | _ => nomatch h

theorem exists_factor {ts : List Token} (hgroups : ∀ items, .group items ∈ ts → Derivable items)
    {c : Condition} (h : Condition.ofSimple (Token.parts ts) = .ok c) :
    ∃ f : Factor, f.nested = ts ∧ f.condition = c := by
  match ts, hgroups, h with
  | [t], hgroups, h =>
      exact exists_factor_of_atom (fun items ht => hgroups items (by rw [ht]; simp)) h
  | [first, middle, last], _, h =>
      obtain ⟨relation, hrelation, h⟩ := Outcome.bind_eq_ok_iff.mp h
      obtain ⟨left, hleft, h⟩ := Outcome.bind_eq_ok_iff.mp h
      obtain ⟨right, hright, h⟩ := Outcome.map_eq_ok_iff.mp h
      refine ⟨.comparison left relation right, ?_, ?_⟩
      · rw [Factor.nested, token_of_operand hleft, token_of_operand hright,
          eq_relation_of_part hrelation]
      · rw [Factor.condition, ← kinds_ofOperands, ← h]
        rfl
  | [], _, h => nomatch h
  | [_, _], _, h => nomatch h
  | _ :: _ :: _ :: _ :: _, _, h => nomatch h

/-- The members that are found by cutting at one connective, as a derivation. The induction is on
the tokens, of which every cut leaves fewer. -/
theorem exists_conjunction {ts : List Token}
    (hgroups : ∀ items, .group items ∈ ts → Derivable items) {cs : List Condition}
    (h : (Part.sections Part.isAnd (Token.parts ts)).mapM Condition.ofSimple = .ok cs) :
    ∃ e : Conjunction, e.nested = ts ∧ e.conditions = cs := by
  by_cases hmark : .and ∈ ts
  · obtain ⟨first, rest, rfl, hfirst⟩ := List.eq_append_cons_of_mem hmark
    rw [Part.sections_parts_append_cons Part.isAnd_part_iff hfirst] at h
    obtain ⟨c, others, hc, hothers, rfl⟩ := Outcome.mapM_cons_eq_ok_iff.mp h
    obtain ⟨f, rfl, rfl⟩ := exists_factor (fun items hi => hgroups items (by simp [hi])) hc
    obtain ⟨e, rfl, rfl⟩ :=
      exists_conjunction (fun items hi => hgroups items (by simp [hi])) hothers
    exact ⟨.more f e, rfl, rfl⟩
  · rw [Part.sections_parts_of_not_mem Part.isAnd_part_iff hmark] at h
    obtain ⟨c, others, hc, hothers, rfl⟩ := Outcome.mapM_cons_eq_ok_iff.mp h
    cases hothers
    obtain ⟨f, rfl, rfl⟩ := exists_factor hgroups hc
    exact ⟨.single f, rfl, rfl⟩
termination_by ts.length

theorem exists_disjunction {ts : List Token}
    (hgroups : ∀ items, .group items ∈ ts → Derivable items) {cs : List Condition}
    (h : (Part.sections Part.isOr (Token.parts ts)).mapM Condition.ofJoint = .ok cs) :
    ∃ e : Disjunction, e.nested = ts ∧ e.conditions = cs := by
  have hjoint {us : List Token} (hus : ∀ items, .group items ∈ us → Derivable items)
      {c : Condition} (hc : Condition.ofJoint (Token.parts us) = .ok c) :
      ∃ e : Conjunction, e.nested = us ∧ e.condition = c := by
    obtain ⟨cs, hcs, rfl⟩ := Outcome.map_eq_ok_iff.mp hc
    obtain ⟨e, rfl, rfl⟩ := exists_conjunction hus hcs
    exact ⟨e, rfl, e.combine_conditions.symm⟩
  by_cases hmark : .or ∈ ts
  · obtain ⟨first, rest, rfl, hfirst⟩ := List.eq_append_cons_of_mem hmark
    rw [Part.sections_parts_append_cons Part.isOr_part_iff hfirst] at h
    obtain ⟨c, others, hc, hothers, rfl⟩ := Outcome.mapM_cons_eq_ok_iff.mp h
    obtain ⟨f, rfl, rfl⟩ := hjoint (fun items hi => hgroups items (by simp [hi])) hc
    obtain ⟨e, rfl, rfl⟩ :=
      exists_disjunction (fun items hi => hgroups items (by simp [hi])) hothers
    exact ⟨.more f e, rfl, rfl⟩
  · rw [Part.sections_parts_of_not_mem Part.isOr_part_iff hmark] at h
    obtain ⟨c, others, hc, hothers, rfl⟩ := Outcome.mapM_cons_eq_ok_iff.mp h
    cases hothers
    obtain ⟨f, rfl, rfl⟩ := hjoint hgroups hc
    exact ⟨.single f, rfl, rfl⟩
termination_by ts.length

theorem derivable (ts : List Token) : Derivable ts := by
  intro c h
  obtain ⟨cs, hcs, rfl⟩ := Outcome.map_eq_ok_iff.mp h
  have hgroups (items : List Token) (hitems : .group items ∈ ts) : Derivable items :=
    derivable items
  obtain ⟨e, rfl, rfl⟩ := exists_disjunction hgroups hcs
  exact ⟨e, rfl, e.combine_conditions.symm⟩
termination_by sizeOf ts
decreasing_by
  have := List.sizeOf_lt_of_mem hitems
  simp only [Token.group.sizeOf_spec] at this
  omega

/-- Reading gives a condition just for the nested leaves of a derivation. -/
theorem ofTokens_eq_ok_iff {ts : List Token} {c : Condition} :
    Condition.ofTokens ts = .ok c ↔ ∃ e : Disjunction, e.nested = ts ∧ e.condition = c := by
  constructor
  · exact derivable ts c
  · rintro ⟨e, rfl, rfl⟩
    exact e.ofTokens_nested

end Grammar

end DisplayLogic
