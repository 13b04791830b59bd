import DisplayLogic.Proofs.Grammar.Reading

/-!
# The language of conditions

The grammar is unambiguous: two derivations with the same tokens are equal. To compare two
derivations from the left, one has to know what may follow each of them. Behind a factor stands a
connective, a closing mark or nothing, behind a conjunction no `&`, and behind a disjunction no
connective at all; with these restrictions the tokens decide both the derivation and where it ends.

Together with the exact account of matching the marks and of reading nested tokens, this gives the
main statement: tokens form a condition just when the grammar derives them and their marks stand at
most 64 deep, and the condition is the one of the only derivation.
-/

namespace DisplayLogic

open Grammar

theorem Operand.token_injective {x y : Operand} (h : x.token = y.token) : x = y := by
  have hx := operand_token x
  have hy := operand_token y
  rw [h, hy] at hx
  cases hx
  rfl

namespace Grammar

/-- What follows is nothing, or begins with one of the marks. -/
def StartsAmong (marks rest : List Token) : Prop := ∀ t ∈ rest.head?, t ∈ marks

/-- What may follow a disjunction. -/
def behindDisjunction : List Token := [.closeGroup]

/-- What may follow a conjunction. -/
def behindConjunction : List Token := .or :: behindDisjunction

/-- What may follow a factor. -/
def behindFactor : List Token := .and :: behindConjunction

theorem StartsAmong.cons {marks rest : List Token} (h : StartsAmong marks rest) (mark : Token) :
    StartsAmong (mark :: marks) rest := fun t ht => List.mem_cons_of_mem _ (h t ht)

theorem startsAmong_cons_iff {marks rest : List Token} {t : Token} :
    StartsAmong marks (t :: rest) ↔ t ∈ marks := by
  simp [StartsAmong]

/-- A comparison is no literal or variable with something behind it. -/
theorem comparison_tokens_append_ne {t : Token} {rest rest' : List Token}
    (h : StartsAmong behindFactor rest) (left right : Operand) (relation : Relation) :
    t :: rest ≠ (Factor.comparison left relation right).tokens ++ rest' := by
  intro heq
  rw [Factor.tokens, List.cons_append] at heq
  obtain ⟨-, rfl⟩ := List.cons.inj heq
  have hmem := startsAmong_cons_iff.mp h
  simp [behindFactor, behindConjunction, behindDisjunction] at hmem

theorem openGroup_ne_token (x : Operand) : Token.openGroup ≠ x.token := by
  intro h
  have hplain := isPlain_token x
  rw [← h] at hplain
  nomatch hplain

mutual

theorem Disjunction.tokens_append_inj : ∀ (e e' : Disjunction) {rest rest' : List Token},
    e.tokens ++ rest = e'.tokens ++ rest' →
      StartsAmong behindDisjunction rest → StartsAmong behindDisjunction rest' →
        e = e' ∧ rest = rest'
  | .single first, .single first', rest, rest', h, hrest, hrest' => by
      obtain ⟨rfl, rfl⟩ := first.tokens_append_inj first' h (hrest.cons _) (hrest'.cons _)
      exact ⟨rfl, rfl⟩
  | .more first others, .more first' others', rest, rest', h, hrest, hrest' => by
      simp only [Disjunction.tokens, List.append_assoc, List.cons_append] at h
      obtain ⟨rfl, heq⟩ := first.tokens_append_inj first' h
        (startsAmong_cons_iff.mpr List.mem_cons_self)
        (startsAmong_cons_iff.mpr List.mem_cons_self)
      obtain ⟨rfl, rfl⟩ := others.tokens_append_inj others' (List.cons.inj heq).2 hrest hrest'
      exact ⟨rfl, rfl⟩
  | .single first, .more first' others', rest, rest', h, hrest, _ => by
      simp only [Disjunction.tokens, List.append_assoc, List.cons_append] at h
      obtain ⟨-, rfl⟩ := first.tokens_append_inj first' h (hrest.cons _)
        (startsAmong_cons_iff.mpr List.mem_cons_self)
      nomatch List.mem_singleton.mp (startsAmong_cons_iff.mp hrest)
  | .more first others, .single first', rest, rest', h, _, hrest' => by
      simp only [Disjunction.tokens, List.append_assoc, List.cons_append] at h
      obtain ⟨-, rfl⟩ := first.tokens_append_inj first' h
        (startsAmong_cons_iff.mpr List.mem_cons_self) (hrest'.cons _)
      nomatch List.mem_singleton.mp (startsAmong_cons_iff.mp hrest')

theorem Conjunction.tokens_append_inj : ∀ (e e' : Conjunction) {rest rest' : List Token},
    e.tokens ++ rest = e'.tokens ++ rest' →
      StartsAmong behindConjunction rest → StartsAmong behindConjunction rest' →
        e = e' ∧ rest = rest'
  | .single first, .single first', rest, rest', h, hrest, hrest' => by
      obtain ⟨rfl, rfl⟩ := first.tokens_append_inj first' h (hrest.cons _) (hrest'.cons _)
      exact ⟨rfl, rfl⟩
  | .more first others, .more first' others', rest, rest', h, hrest, hrest' => by
      simp only [Conjunction.tokens, List.append_assoc, List.cons_append] at h
      obtain ⟨rfl, heq⟩ := first.tokens_append_inj first' h
        (startsAmong_cons_iff.mpr List.mem_cons_self)
        (startsAmong_cons_iff.mpr List.mem_cons_self)
      obtain ⟨rfl, rfl⟩ := others.tokens_append_inj others' (List.cons.inj heq).2 hrest hrest'
      exact ⟨rfl, rfl⟩
  | .single first, .more first' others', rest, rest', h, hrest, _ => by
      simp only [Conjunction.tokens, List.append_assoc, List.cons_append] at h
      obtain ⟨-, rfl⟩ := first.tokens_append_inj first' h (hrest.cons _)
        (startsAmong_cons_iff.mpr List.mem_cons_self)
      have hmem := startsAmong_cons_iff.mp hrest
      simp [behindConjunction, behindDisjunction] at hmem
  | .more first others, .single first', rest, rest', h, _, hrest' => by
      simp only [Conjunction.tokens, List.append_assoc, List.cons_append] at h
      obtain ⟨-, rfl⟩ := first.tokens_append_inj first' h
        (startsAmong_cons_iff.mpr List.mem_cons_self) (hrest'.cons _)
      have hmem := startsAmong_cons_iff.mp hrest'
      simp [behindConjunction, behindDisjunction] at hmem

theorem Factor.tokens_append_inj : ∀ (f f' : Factor) {rest rest' : List Token},
    f.tokens ++ rest = f'.tokens ++ rest' →
      StartsAmong behindFactor rest → StartsAmong behindFactor rest' → f = f' ∧ rest = rest'
  | .group inner, .group inner', rest, rest', h, _, _ => by
      simp only [Factor.tokens, List.append_assoc, List.cons_append, List.nil_append] at h
      obtain ⟨rfl, heq⟩ := inner.tokens_append_inj inner' (List.cons.inj h).2
        (startsAmong_cons_iff.mpr List.mem_cons_self)
        (startsAmong_cons_iff.mpr List.mem_cons_self)
      exact ⟨rfl, (List.cons.inj heq).2⟩
  | .literal value, .literal value', rest, rest', h, _, _ => by
      cases h
      exact ⟨rfl, rfl⟩
  | .holds source, .holds source', rest, rest', h, _, _ => by
      cases h
      exact ⟨rfl, rfl⟩
  | .comparison left relation right, .comparison left' relation' right', rest, rest', h, _, _ => by
      simp only [Factor.tokens, List.cons_append, List.nil_append, List.cons.injEq,
        Token.relation.injEq] at h
      obtain ⟨hleft, rfl, hright, rfl⟩ := h
      rw [Operand.token_injective hleft, Operand.token_injective hright]
      exact ⟨rfl, rfl⟩
  | .literal _, .comparison left relation right, rest, rest', h, hrest, _
  | .holds _, .comparison left relation right, rest, rest', h, hrest, _ =>
      absurd h (comparison_tokens_append_ne hrest left right relation)
  | .comparison left relation right, .literal _, rest, rest', h, _, hrest'
  | .comparison left relation right, .holds _, rest, rest', h, _, hrest' =>
      absurd h.symm (comparison_tokens_append_ne hrest' left right relation)
  | .group _, .comparison left relation right, rest, rest', h, _, _ =>
      absurd (List.cons.inj h).1 (openGroup_ne_token left)
  | .comparison left relation right, .group _, rest, rest', h, _, _ =>
      absurd (List.cons.inj h).1.symm (openGroup_ne_token left)
  | .group _, .literal _, rest, rest', h, _, _
  | .group _, .holds _, rest, rest', h, _, _
  | .literal _, .group _, rest, rest', h, _, _
  | .holds _, .group _, rest, rest', h, _, _
  | .literal _, .holds _, rest, rest', h, _, _
  | .holds _, .literal _, rest, rest', h, _, _ => nomatch (List.cons.inj h).1

end

/-- No two derivations have the same tokens. -/
theorem Disjunction.tokens_injective {e e' : Disjunction} (h : e.tokens = e'.tokens) : e = e' := by
  have hnil : StartsAmong behindDisjunction [] := nofun
  have happend : e.tokens ++ [] = e'.tokens ++ [] := by rw [h]
  exact (e.tokens_append_inj e' happend hnil hnil).1

/-- The tokens of a derivation are read as its condition, unless their marks are too deep. -/
theorem Disjunction.nest_bind_ofTokens_tokens (e : Disjunction)
    (hdepth : Token.nesting e.tokens ≤ Token.maxNesting) :
    (Token.nest e.tokens >>= Condition.ofTokens) = .ok e.condition := by
  rw [Outcome.bind_eq_ok_iff]
  refine ⟨e.nested, ?_, e.ofTokens_nested⟩
  rw [← e.flatten_nested] at hdepth ⊢
  exact Token.nest_flatten e.unmarked_nested hdepth

/-- Flat tokens form a condition just when they are derived with marks that are not too deep. -/
theorem nest_bind_ofTokens_eq_ok_iff {tokens : List Token}
    (hflat : ∀ t ∈ tokens, t.isGroup = false) {c : Condition} :
    (Token.nest tokens >>= Condition.ofTokens) = .ok c ↔
      (∃ e : Disjunction, e.tokens = tokens ∧ e.condition = c) ∧
        Token.nesting tokens ≤ Token.maxNesting := by
  constructor
  · intro h
    obtain ⟨ts, hnest, hread⟩ := Outcome.bind_eq_ok_iff.mp h
    obtain ⟨rfl, -, hdepth⟩ := (Token.nest_eq_ok_iff hflat).mp hnest
    obtain ⟨e, rfl, rfl⟩ := ofTokens_eq_ok_iff.mp hread
    exact ⟨⟨e, e.flatten_nested.symm, rfl⟩, hdepth⟩
  · rintro ⟨⟨e, rfl, rfl⟩, hdepth⟩
    exact e.nest_bind_ofTokens_tokens hdepth

/-- Flat tokens form a condition just when the grammar derives them and their marks stand at most
64 deep. The condition is then what the derivation means, of which there is only one. -/
theorem nest_bind_ofTokens_iff_derivation {tokens : List Token}
    (hflat : ∀ t ∈ tokens, t.isGroup = false) :
    (∀ c, (Token.nest tokens >>= Condition.ofTokens) = .ok c ↔
        (∃ e : Disjunction, e.tokens = tokens ∧ e.condition = c) ∧ Token.nesting tokens ≤ 64) ∧
      ∀ e e' : Disjunction, e.tokens = tokens → e'.tokens = tokens → e = e' := by
  constructor
  · intro c
    exact nest_bind_ofTokens_eq_ok_iff hflat
  · intro e e' h h'
    exact Disjunction.tokens_injective (h.trans h'.symm)

theorem derivation_of_group_and_comparison :
    let tokens : List Token := [.openGroup, .boolean true, .or, .boolean false, .closeGroup, .and,
      .number .zero, .relation .less, .source (.constant (.text "x"))]
    (∀ t ∈ tokens, t.isGroup = false) ∧
      (Token.nest tokens >>= Condition.ofTokens) =
        .ok (.all [.any [.literal true, .literal false],
          .comparison (.literal (.number .zero)) .less (.source (.constant (.text "x")))
            ⟨false, true⟩]) := by
  intro tokens
  have hflat : ∀ t ∈ tokens, t.isGroup = false := by simp [tokens, Token.isGroup]
  refine ⟨hflat, ((nest_bind_ofTokens_iff_derivation hflat).1 _).mpr ⟨⟨?_, ?_, ?_⟩, ?_⟩⟩
  · exact .single (.more
      (.group (.more (.single (.literal true)) (.single (.single (.literal false)))))
      (.single (.comparison (.literal (.number .zero)) .less (.source (.constant (.text "x"))))))
  · rfl
  · rfl
  · decide

end Grammar

end DisplayLogic
