import DisplayLogic.Proofs.Grammar.Language
import DisplayLogic.Proofs.Token.Balanced
import Mathlib.Data.List.Basic

/-!
# Redundant parentheses

A section of tokens is complete if it reaches from one separator, mark or end to the next. Which
connectives count as separators makes three kinds of sections: a whole level, an alternative, and a
segment. Parentheses around a complete section change nothing, at whatever depth it stands, as long
as the marks are not too deep.

Sections are found again in a derivation: a level is a disjunction, an alternative a conjunction and
a segment a factor. The induction goes down the derivation. In a row of two members the section is
in the first, in the rest, or reaches over the connective between them, and then it is the whole
row.
-/

namespace DisplayLogic

namespace Grammar

open Token (IsBalanced Hides balance balance_append balance_cons balance_openGroup
  balance_closeGroup balance_of_isPlain isBalanced_flatten hides_flatten hides_group
  append_eq_append_cons)

/-- What sections are separated by, besides the marks around their level. -/
inductive SectionKind where
  /-- All tokens of a level. -/
  | level
  /-- What stands between the connectives of alternatives. -/
  | alternative
  /-- What stands between connectives of either kind. -/
  | segment
deriving DecidableEq

/-- The connectives that separate sections of a kind. -/
def SectionKind.separators : SectionKind → List Token
  | level => []
  | alternative => [.or]
  | segment => [.or, .and]

/-- Between the tokens in front and those behind, the ones in the middle are a complete section. -/
structure IsSection (kind : SectionKind) (before middle behind : List Token) : Prop where
  /-- In front there is nothing, an opening mark or a separator. -/
  opens : ∀ t ∈ before.getLast?, t = .openGroup ∨ t ∈ kind.separators
  /-- Behind there is nothing, a closing mark or a separator. -/
  closes : ∀ t ∈ behind.head?, t = .closeGroup ∨ t ∈ kind.separators
  balanced : IsBalanced middle
  /-- No separator of the level is in the section. -/
  hides : ∀ t ∈ kind.separators, Hides t middle

/-- The tokens with a pair of parentheses around those in the middle. -/
def parenthesized (before middle behind : List Token) : List Token :=
  before ++ .openGroup :: (middle ++ .closeGroup :: behind)

theorem parenthesized_append_before (ts before middle behind : List Token) :
    parenthesized (ts ++ before) middle behind = ts ++ parenthesized before middle behind :=
  List.append_assoc ..

theorem parenthesized_append_behind (before middle behind ts : List Token) :
    parenthesized before middle (behind ++ ts) = parenthesized before middle behind ++ ts := by
  simp only [parenthesized, List.append_assoc, List.cons_append]

/-! ### The tokens of derivations -/

theorem Disjunction.isBalanced_tokens (e : Disjunction) : IsBalanced e.tokens := by
  rw [← e.flatten_nested]
  exact isBalanced_flatten e.unmarked_nested

theorem Conjunction.isBalanced_tokens (e : Conjunction) : IsBalanced e.tokens := by
  rw [← e.flatten_nested]
  exact isBalanced_flatten e.unmarked_nested

theorem Factor.isBalanced_tokens (f : Factor) : IsBalanced f.tokens := by
  rw [← f.flatten_nested]
  exact isBalanced_flatten f.unmarked_nested

theorem Conjunction.hides_or_tokens (e : Conjunction) : Hides .or e.tokens := by
  rw [← e.flatten_nested]
  exact hides_flatten rfl e.unmarked_nested e.or_not_mem_nested

theorem Factor.hides_tokens {t : Token} (f : Factor) (ht : t = .or ∨ t = .and) :
    Hides t f.tokens := by
  have hplain : t.isPlain = true := by
    rcases ht with rfl | rfl
    · rfl
    · rfl
  rw [← f.flatten_nested]
  exact hides_flatten hplain f.unmarked_nested (f.not_mem_nested ht)

theorem SectionKind.eq_or_of_mem {kind : SectionKind} {t : Token} (h : t ∈ kind.separators) :
    t = .or ∨ t = .and := by
  cases kind with
  | level => cases h
  | alternative => exact .inl (List.mem_singleton.mp h)
  | segment => simpa [separators] using h

theorem SectionKind.isPlain_of_mem {kind : SectionKind} {t : Token} (h : t ∈ kind.separators) :
    t.isPlain = true := by
  rcases kind.eq_or_of_mem h with rfl | rfl
  · rfl
  · rfl

/-- The connective of alternatives separates wherever there are separators. -/
theorem SectionKind.or_mem_separators {kind : SectionKind} {t : Token}
    (h : t ∈ kind.separators) : .or ∈ kind.separators := by
  cases kind with
  | level => cases h
  | alternative | segment => exact List.mem_cons_self

/-! ### Where a section ends -/

section Ends

variable {kind : SectionKind} {before middle behind : List Token}

theorem IsSection.of_append_before {ts : List Token}
    (h : IsSection kind (ts ++ before) middle behind) : IsSection kind before middle behind where
  opens := by
    intro t ht
    refine h.opens t ?_
    rw [List.getLast?_append, ht]
    rfl
  closes := h.closes
  balanced := h.balanced
  hides := h.hides

theorem IsSection.of_append_behind {ts : List Token}
    (h : IsSection kind before middle (behind ++ ts)) : IsSection kind before middle behind where
  opens := h.opens
  closes := by
    intro t ht
    refine h.closes t ?_
    rw [List.head?_append, ht]
    rfl
  balanced := h.balanced
  hides := h.hides

/-- In tokens that hide the separators, a section that does not close what was opened in front of it
comes first. -/
theorem IsSection.before_eq_nil {s : List Token} (h : IsSection kind before middle behind)
    (hbalanced : IsBalanced (before ++ s)) (hs : 0 ≤ balance s)
    (hhides : ∀ t ∈ kind.separators, Hides t (before ++ s)) : before = [] := by
  rcases List.eq_nil_or_concat' before with rfl | ⟨p, t, rfl⟩
  · rfl
  · exfalso
    rw [List.append_assoc, List.singleton_append] at hbalanced hhides
    have hp := hbalanced.nonneg p (List.prefix_append p _)
    have hzero := hbalanced.balance_eq
    rw [balance_append, balance_cons] at hzero
    rcases h.opens t List.getLast?_concat with rfl | ht
    · rw [balance_openGroup] at hzero
      omega
    · have hpos := hhides t ht p s rfl
      rw [balance_of_isPlain (kind.isPlain_of_mem ht)] at hzero
      omega

/-- In tokens that hide the separators, a section in front of which nothing is left open comes last.
-/
theorem IsSection.behind_eq_nil {s : List Token} (h : IsSection kind before middle behind)
    (hbalanced : IsBalanced (s ++ behind)) (hs : balance s = 0)
    (hhides : ∀ t ∈ kind.separators, Hides t (s ++ behind)) : behind = [] := by
  cases behind with
  | nil => rfl
  | cons t rest =>
      exfalso
      rcases h.closes t rfl with rfl | ht
      · have hclosed := hbalanced.nonneg (s ++ [.closeGroup]) ⟨rest, by simp⟩
        rw [balance_append, hs, balance_closeGroup] at hclosed
        omega
      · have hpos := hhides t ht s rest rfl
        omega

/-- A section of tokens among which there are neither marks nor separators is all of them. -/
theorem IsSection.eq_nil_of_forall (h : IsSection kind before middle behind) {ts : List Token}
    (hts : ts = before ++ (middle ++ behind)) (hplain : ∀ t ∈ ts, t.isPlain = true)
    (hseparators : ∀ t ∈ kind.separators, t ∉ ts) : before = [] ∧ behind = [] := by
  subst hts
  constructor
  · rcases List.eq_nil_or_concat' before with rfl | ⟨p, t, rfl⟩
    · rfl
    · have hmem : t ∈ p ++ [t] ++ (middle ++ behind) := by simp
      rcases h.opens t List.getLast?_concat with rfl | ht
      · cases hplain _ hmem
      · exact absurd hmem (hseparators t ht)
  · cases behind with
    | nil => rfl
    | cons t rest =>
        have hmem : t ∈ before ++ (middle ++ t :: rest) := by simp
        rcases h.closes t rfl with rfl | ht
        · cases hplain _ hmem
        · exact absurd hmem (hseparators t ht)

/-- A section of a pair of marks with balanced tokens between them is all of it, or it lies between
the marks. -/
theorem IsSection.cases_of_group {ts : List Token} (h : IsSection kind before middle behind)
    (hts : IsBalanced ts)
    (htokens : .openGroup :: (ts ++ [.closeGroup]) = before ++ (middle ++ behind)) :
    (before = [] ∧ behind = []) ∨
      ∃ p q, before = .openGroup :: p ∧ behind = q ++ [.closeGroup] ∧ ts = p ++ (middle ++ q) := by
  have hbalanced : IsBalanced (before ++ (middle ++ behind)) := htokens ▸ hts.group
  have hhides : ∀ t ∈ kind.separators, Hides t (before ++ (middle ++ behind)) := by
    intro t ht
    exact htokens ▸ hides_group (kind.isPlain_of_mem ht) hts
  cases before with
  | nil => exact .inl ⟨rfl, h.behind_eq_nil hbalanced h.balanced.balance_eq hhides⟩
  | cons t p =>
      rcases List.eq_nil_or_concat' behind with rfl | ⟨q, u, rfl⟩
      · rw [List.append_nil] at hbalanced hhides
        exact .inl ⟨h.before_eq_nil hbalanced (Int.le_of_eq h.balanced.balance_eq.symm) hhides, rfl⟩
      · rw [List.cons_append, List.cons.injEq] at htokens
        obtain ⟨rfl, htail⟩ := htokens
        rw [← List.append_assoc middle, ← List.append_assoc p] at htail
        obtain ⟨hts, hlast⟩ := List.append_inj' htail rfl
        cases hlast
        exact .inr ⟨p, q, rfl, rfl, hts⟩

/-- A section that reaches over a connective of a row is the whole row. -/
theorem IsSection.eq_nil_of_mem {s rest : List Token} {connective : Token}
    (h : IsSection kind before (s ++ connective :: rest) behind)
    (hconnective : connective.isPlain = true) (hfirst : IsBalanced (before ++ s))
    (hrest : IsBalanced (rest ++ behind))
    (hhides : connective ∉ kind.separators →
      ∀ t ∈ kind.separators, Hides t (before ++ s) ∧ Hides t (rest ++ behind)) :
    before = [] ∧ behind = [] := by
  have hs := h.balanced.nonneg s (List.prefix_append s _)
  have hnot : connective ∉ kind.separators := by
    intro hmem
    have hpos := h.hides connective hmem s rest rfl
    have hbefore := hfirst.nonneg before (List.prefix_append before s)
    have hzero := hfirst.balance_eq
    rw [balance_append] at hzero
    omega
  obtain rfl := h.before_eq_nil hfirst hs fun t ht => (hhides hnot t ht).1
  refine ⟨rfl, h.behind_eq_nil hrest ?_ fun t ht => (hhides hnot t ht).2⟩
  have hzero := h.balanced.balance_eq
  rw [balance_append, balance_cons, balance_of_isPlain hconnective] at hzero
  have hfirst := hfirst.balance_eq
  rw [List.nil_append] at hfirst
  omega

/-- A section of a row of two members is all of it, in the first, or in the rest. If it comes first
in the rest, the connective in front of it separates and is not in it. -/
theorem IsSection.cases_of_row {first rest : List Token} {connective : Token}
    (h : IsSection kind before middle behind)
    (htokens : first ++ connective :: rest = before ++ (middle ++ behind))
    (hconnective : connective.isPlain = true) (hfirst : IsBalanced first) (hrest : IsBalanced rest)
    (hhides : connective ∉ kind.separators →
      ∀ t ∈ kind.separators, Hides t first ∧ Hides t rest) :
    (before = [] ∧ behind = []) ∨
      (∃ q, IsSection kind before middle q ∧ first = before ++ (middle ++ q) ∧
        parenthesized before middle behind =
          parenthesized before middle q ++ connective :: rest) ∨
      ∃ q, IsSection kind q middle behind ∧ rest = q ++ (middle ++ behind) ∧
        parenthesized before middle behind =
          first ++ connective :: parenthesized q middle behind ∧
        (q = [] → Hides connective middle) := by
  rcases append_eq_append_cons htokens.symm with ⟨q, rfl, rfl⟩ | ⟨s, rfl, hmiddle⟩
  · refine .inr (.inr ⟨q, ?_, rfl, ?_, ?_⟩)
    · rw [List.append_cons] at h
      exact h.of_append_before
    · rw [List.append_cons, parenthesized_append_before, ← List.append_cons]
    · rintro rfl
      rcases h.opens connective List.getLast?_concat with rfl | hmem
      · cases hconnective
      · exact h.hides connective hmem
  · rcases append_eq_append_cons hmiddle with ⟨s', rfl, rfl⟩ | ⟨q, rfl, rfl⟩
    · exact .inl (h.eq_nil_of_mem hconnective hfirst hrest hhides)
    · exact .inr (.inl ⟨q, h.of_append_behind, rfl, parenthesized_append_behind ..⟩)

end Ends

/-! ### Sections of derivations -/

/-- A section of a factor without parentheses is all of it. -/
theorem IsSection.eq_nil_of_leaf {kind : SectionKind} {before middle behind : List Token}
    {f : Factor} (h : IsSection kind before middle behind)
    (htokens : f.tokens = before ++ (middle ++ behind)) (hleaf : f.nested = f.tokens)
    (hplain : ∀ t ∈ f.tokens, t.isPlain = true) : before = [] ∧ behind = [] :=
  h.eq_nil_of_forall htokens hplain fun _ ht => hleaf ▸ f.not_mem_nested (kind.eq_or_of_mem ht)

theorem Disjunction.condition_eq {e e' : Disjunction} (h : e.conditions = e'.conditions) :
    e.condition = e'.condition := by
  rw [← e.combine_conditions, h, e'.combine_conditions]

theorem Conjunction.condition_eq {e e' : Conjunction} (h : e.conditions = e'.conditions) :
    e.condition = e'.condition := by
  rw [← e.combine_conditions, h, e'.combine_conditions]

/-- The derivation in parentheses. -/
def Disjunction.grouped (e : Disjunction) : Disjunction := .single (.single (.group e))

/-- The derivation in parentheses. -/
def Conjunction.grouped (e : Conjunction) : Conjunction := .single (.group (.single e))

/-- The derivation in parentheses. -/
def Factor.grouped (f : Factor) : Factor := .group (.single (.single f))

theorem Disjunction.tokens_grouped (e : Disjunction) :
    e.grouped.tokens = parenthesized [] e.tokens [] := rfl

theorem Conjunction.tokens_grouped (e : Conjunction) :
    e.grouped.tokens = parenthesized [] e.tokens [] := rfl

theorem Factor.tokens_grouped (f : Factor) : f.grouped.tokens = parenthesized [] f.tokens [] := rfl

theorem Disjunction.condition_grouped (e : Disjunction) : e.grouped.condition = e.condition := rfl

theorem Conjunction.condition_grouped (e : Conjunction) : e.grouped.condition = e.condition := rfl

theorem Factor.condition_grouped (f : Factor) : f.grouped.condition = f.condition := rfl

variable {kind : SectionKind}

-- A section that is all of a derivation is left to the caller. Only the caller knows whether the
-- derivation is the rest of a row, which parentheses would make a single member.
mutual

/-- A section of a disjunction is all of it, or parentheses around it leave the members the same. -/
theorem Disjunction.exists_parenthesized : ∀ (e : Disjunction) {before middle behind : List Token},
    IsSection kind before middle behind → e.tokens = before ++ (middle ++ behind) →
      (before = [] ∧ behind = []) ∨
        ∃ e' : Disjunction, e'.tokens = parenthesized before middle behind ∧
          e'.conditions = e.conditions
  | .single first, _, _, _, h, htokens => by
      rcases first.exists_parenthesized h htokens with hall | ⟨first', hfirst, hconditions⟩
      · exact .inl hall
      · refine .inr ⟨.single first', hfirst, ?_⟩
        rw [Disjunction.conditions, Conjunction.condition_eq hconditions, Disjunction.conditions]
  | .more first rest, _, _, _, h, htokens => by
      rcases h.cases_of_row htokens rfl first.isBalanced_tokens rest.isBalanced_tokens
        (fun hnot t ht => absurd (kind.or_mem_separators ht) hnot) with
        hall | ⟨q, hsection, hfirst, hparentheses⟩ | ⟨q, hsection, hrest, hparentheses, hhides⟩
      · exact .inl hall
      · rw [hparentheses]
        rcases first.exists_parenthesized hsection hfirst with
          ⟨rfl, rfl⟩ | ⟨first', htokens', hconditions⟩
        · rw [List.nil_append, List.append_nil] at hfirst
          rw [← hfirst, ← first.tokens_grouped]
          refine .inr ⟨.more first.grouped rest, rfl, ?_⟩
          rw [Disjunction.conditions, first.condition_grouped, Disjunction.conditions]
        · rw [← htokens']
          refine .inr ⟨.more first' rest, rfl, ?_⟩
          rw [Disjunction.conditions, Conjunction.condition_eq hconditions, Disjunction.conditions]
      · rw [hparentheses]
        rcases rest.exists_parenthesized hsection hrest with
          ⟨rfl, rfl⟩ | ⟨rest', htokens', hconditions⟩
        · rw [List.nil_append, List.append_nil] at hrest
          cases rest with
          | single last =>
              rw [← hrest, Disjunction.tokens, ← last.tokens_grouped]
              refine .inr ⟨.more first (.single last.grouped), rfl, ?_⟩
              simp only [Disjunction.conditions, last.condition_grouped]
          | more last others =>
              exfalso
              have hpos := hhides rfl last.tokens others.tokens hrest.symm
              rw [last.isBalanced_tokens.balance_eq] at hpos
              exact Int.lt_irrefl 0 hpos
        · rw [← htokens']
          refine .inr ⟨.more first rest', rfl, ?_⟩
          rw [Disjunction.conditions, hconditions, Disjunction.conditions]

theorem Conjunction.exists_parenthesized : ∀ (e : Conjunction) {before middle behind : List Token},
    IsSection kind before middle behind → e.tokens = before ++ (middle ++ behind) →
      (before = [] ∧ behind = []) ∨
        ∃ e' : Conjunction, e'.tokens = parenthesized before middle behind ∧
          e'.conditions = e.conditions
  | .single first, _, _, _, h, htokens => by
      rcases first.exists_parenthesized h htokens with hall | ⟨first', hfirst, hcondition⟩
      · exact .inl hall
      · refine .inr ⟨.single first', hfirst, ?_⟩
        rw [Conjunction.conditions, hcondition, Conjunction.conditions]
  | .more first rest, _, _, _, h, htokens => by
      have hor {t : Token} (hnot : .and ∉ kind.separators) (ht : t ∈ kind.separators) :
          t = .or := by
        rcases kind.eq_or_of_mem ht with rfl | rfl
        · rfl
        · exact absurd ht hnot
      rcases h.cases_of_row htokens rfl first.isBalanced_tokens rest.isBalanced_tokens
        (fun hnot t ht => hor hnot ht ▸ ⟨first.hides_tokens (.inl rfl), rest.hides_or_tokens⟩) with
        hall | ⟨q, hsection, hfirst, hparentheses⟩ | ⟨q, hsection, hrest, hparentheses, hhides⟩
      · exact .inl hall
      · rw [hparentheses]
        rcases first.exists_parenthesized hsection hfirst with
          ⟨rfl, rfl⟩ | ⟨first', htokens', hcondition⟩
        · rw [List.nil_append, List.append_nil] at hfirst
          rw [← hfirst, ← first.tokens_grouped]
          refine .inr ⟨.more first.grouped rest, rfl, ?_⟩
          rw [Conjunction.conditions, first.condition_grouped, Conjunction.conditions]
        · rw [← htokens']
          refine .inr ⟨.more first' rest, rfl, ?_⟩
          rw [Conjunction.conditions, hcondition, Conjunction.conditions]
      · rw [hparentheses]
        rcases rest.exists_parenthesized hsection hrest with
          ⟨rfl, rfl⟩ | ⟨rest', htokens', hconditions⟩
        · rw [List.nil_append, List.append_nil] at hrest
          cases rest with
          | single last =>
              rw [← hrest, Conjunction.tokens, ← last.tokens_grouped]
              refine .inr ⟨.more first (.single last.grouped), rfl, ?_⟩
              simp only [Conjunction.conditions, last.condition_grouped]
          | more last others =>
              exfalso
              have hpos := hhides rfl last.tokens others.tokens hrest.symm
              rw [last.isBalanced_tokens.balance_eq] at hpos
              exact Int.lt_irrefl 0 hpos
        · rw [← htokens']
          refine .inr ⟨.more first rest', rfl, ?_⟩
          rw [Conjunction.conditions, hconditions, Conjunction.conditions]

theorem Factor.exists_parenthesized : ∀ (f : Factor) {before middle behind : List Token},
    IsSection kind before middle behind → f.tokens = before ++ (middle ++ behind) →
      (before = [] ∧ behind = []) ∨
        ∃ f' : Factor, f'.tokens = parenthesized before middle behind ∧
          f'.condition = f.condition
  | .group inner, _, _, _, h, htokens => by
      rcases h.cases_of_group inner.isBalanced_tokens htokens with
        hall | ⟨p, q, rfl, rfl, hinner⟩
      · exact .inl hall
      · right
        have hsection : IsSection kind ([.openGroup] ++ p) _ _ := h.of_append_behind
        rw [parenthesized_append_behind, ← List.singleton_append, parenthesized_append_before]
        rcases inner.exists_parenthesized hsection.of_append_before hinner with
          ⟨rfl, rfl⟩ | ⟨inner', htokens', hconditions⟩
        · rw [List.nil_append, List.append_nil] at hinner
          rw [← hinner, ← inner.tokens_grouped]
          exact ⟨.group inner.grouped, rfl, rfl⟩
        · rw [← htokens']
          exact ⟨.group inner', rfl, Disjunction.condition_eq hconditions⟩
  | .literal _, _, _, _, h, htokens | .holds _, _, _, _, h, htokens =>
      .inl (h.eq_nil_of_leaf htokens rfl (by simp [Factor.tokens, Token.isPlain]))
  | .comparison left relation right, _, _, _, h, htokens => by
      refine .inl (h.eq_nil_of_leaf htokens rfl fun t ht => ?_)
      simp only [Factor.tokens, List.mem_cons, List.not_mem_nil, or_false] at ht
      rcases ht with rfl | rfl | rfl
      · exact isPlain_token left
      · rfl
      · exact isPlain_token right

end

/-- Parentheses around a complete section change nothing, unless the marks get too deep. -/
theorem ofTokens_parenthesized {kind : SectionKind} {before middle behind : List Token}
    (hflat : ∀ t ∈ before ++ (middle ++ behind), t.isGroup = false) {c : Condition}
    (h : (Token.nest (before ++ (middle ++ behind)) >>= Condition.ofTokens) = .ok c)
    (hsection : IsSection kind before middle behind)
    (hdepth : Token.nesting (parenthesized before middle behind) ≤ 64) :
    (Token.nest (parenthesized before middle behind) >>= Condition.ofTokens) = .ok c := by
  obtain ⟨⟨e, htokens, rfl⟩, -⟩ := (nest_bind_ofTokens_eq_ok_iff hflat).mp h
  obtain ⟨e', htokens', hcondition⟩ : ∃ e' : Disjunction,
      e'.tokens = parenthesized before middle behind ∧ e'.condition = e.condition := by
    rcases e.exists_parenthesized hsection htokens with
      ⟨rfl, rfl⟩ | ⟨e', htokens', hconditions⟩
    · rw [List.nil_append, List.append_nil] at htokens
      exact ⟨e.grouped, by rw [e.tokens_grouped, htokens], e.condition_grouped⟩
    · exact ⟨e', htokens', Disjunction.condition_eq hconditions⟩
  rw [← htokens'] at hdepth ⊢
  rw [← hcondition]
  exact e'.nest_bind_ofTokens_tokens hdepth

theorem ofTokens_parenthesized_alternative :
    let before : List Token := [.boolean true, .and, .openGroup, .boolean false, .or]
    let middle : List Token := [.boolean true, .and, .openGroup, .boolean false, .or, .boolean true,
      .closeGroup]
    let behind : List Token := [.closeGroup]
    let c : Condition := .all [.literal true,
      .any [.literal false, .all [.literal true, .any [.literal false, .literal true]]]]
    IsSection .alternative before middle behind ∧
      (Token.nest (before ++ (middle ++ behind)) >>= Condition.ofTokens) = .ok c ∧
      (Token.nest (parenthesized before middle behind) >>= Condition.ofTokens) = .ok c := by
  intro before middle behind c
  have hmiddle : Token.flatten [.boolean true, .and, .group [.boolean false, .or, .boolean true]] =
      middle := rfl
  have hunmarked : ∀ t ∈ ([.boolean true, .and, .group [.boolean false, .or, .boolean true]] :
      List Token), t.Unmarked := by
    have hinner : ∀ t ∈ ([.boolean false, .or, .boolean true] : List Token), t.Unmarked := by
      simpa using ⟨.plain rfl, .plain rfl, .plain rfl⟩
    simpa using ⟨.plain rfl, .plain rfl, .group hinner⟩
  have hsection : IsSection .alternative before middle behind := by
    refine ⟨?_, ?_, hmiddle ▸ isBalanced_flatten hunmarked, ?_⟩
    · intro t ht
      cases ht
      exact .inr List.mem_cons_self
    · intro t ht
      cases ht
      exact .inl rfl
    · intro t ht
      rw [List.mem_singleton.mp ht, ← hmiddle]
      exact hides_flatten rfl hunmarked (by simp)
  have hflat : ∀ t ∈ before ++ (middle ++ behind), t.isGroup = false := by
    simp [before, middle, behind, Token.isGroup]
  have hread : (Token.nest (before ++ (middle ++ behind)) >>= Condition.ofTokens) = .ok c := rfl
  exact ⟨hsection, hread, ofTokens_parenthesized hflat hread hsection (by decide)⟩

end Grammar

end DisplayLogic
