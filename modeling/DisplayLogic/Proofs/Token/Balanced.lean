import DisplayLogic.Proofs.Token.Balance

/-!
# Balanced tokens

Tokens are balanced if no prefix of them closes more groups than it opens and all groups that are
opened are closed. Rows of balanced tokens and balanced tokens between two marks are balanced, and
so is whatever has been written out from tokens without marks. Marks hide what stands between them:
of the tokens written out, only those that were not in a group stand outside of all marks.
-/

namespace DisplayLogic

namespace Token

/-- Every group that is closed has been opened, and every group that is opened is closed. -/
structure IsBalanced (ts : List Token) : Prop where
  /-- On the way, no more groups are closed than have been opened. -/
  nonneg : ∀ p, p <+: ts → 0 ≤ balance p
  /-- At the end, no group is open. -/
  balance_eq : balance ts = 0

/-- The token stands between marks only. -/
def Hides (t : Token) (ts : List Token) : Prop :=
  ∀ p rest, ts = p ++ t :: rest → 0 < balance p

/-- A prefix of a row of two ends in the first or takes it in. -/
theorem prefix_append_cases {ts us p : List Token} (h : p <+: ts ++ us) :
    p <+: ts ∨ ∃ q, q <+: us ∧ p = ts ++ q := by
  rcases List.prefix_or_prefix_of_prefix h (List.prefix_append ts us) with hle | hge
  · exact .inl hle
  · obtain ⟨q, rfl⟩ := hge
    exact .inr ⟨q, (List.prefix_append_right_inj ts).mp h, rfl⟩

/-- A place in a row of two is in the first or in the second. -/
theorem append_eq_append_cons {ts us p rest : List Token} {t : Token}
    (h : ts ++ us = p ++ t :: rest) :
    (∃ q, ts = p ++ t :: q ∧ rest = q ++ us) ∨ ∃ q, p = ts ++ q ∧ us = q ++ t :: rest := by
  rcases List.append_eq_append_iff.mp h with ⟨q, rfl, hus⟩ | ⟨q, rfl, hrest⟩
  · exact .inr ⟨q, rfl, hus⟩
  · rcases List.cons_eq_append_iff.mp hrest with ⟨rfl, rfl⟩ | ⟨q, rfl, rfl⟩
    · exact .inr ⟨[], by rw [List.append_nil, List.append_nil], rfl⟩
    · exact .inl ⟨q, rfl, rfl⟩

theorem balance_of_isPlain {t : Token} (h : t.isPlain = true) : balance [t] = 0 := by
  cases t with
  | openGroup | closeGroup => cases h
  | _ => rfl

theorem isBalanced_nil : IsBalanced [] where
  nonneg := by
    intro p hp
    rw [List.prefix_nil.mp hp]
    exact Int.le_refl 0
  balance_eq := rfl

theorem isBalanced_of_isPlain {t : Token} (h : t.isPlain = true) : IsBalanced [t] where
  nonneg := by
    intro p hp
    rcases List.prefix_cons_iff.mp hp with rfl | ⟨q, rfl, hq⟩
    · exact Int.le_refl 0
    · rw [List.prefix_nil.mp hq]
      exact Int.le_of_eq (balance_of_isPlain h).symm
  balance_eq := balance_of_isPlain h

theorem IsBalanced.append {ts us : List Token} (hts : IsBalanced ts) (hus : IsBalanced us) :
    IsBalanced (ts ++ us) where
  nonneg := by
    intro p hp
    rcases prefix_append_cases hp with hp | ⟨q, hq, rfl⟩
    · exact hts.nonneg p hp
    · rw [balance_append, hts.balance_eq, Int.zero_add]
      exact hus.nonneg q hq
  balance_eq := by rw [balance_append, hts.balance_eq, hus.balance_eq, Int.zero_add]

/-- Between an opening and a closing mark, a prefix has opened one group more. -/
theorem IsBalanced.balance_pos {ts p : List Token} (h : IsBalanced ts) (hp : p <+: ts) :
    0 < balance (openGroup :: p) := by
  have hle := h.nonneg p hp
  rw [balance_cons, balance_openGroup]
  omega

theorem IsBalanced.group {ts : List Token} (h : IsBalanced ts) :
    IsBalanced (openGroup :: (ts ++ [closeGroup])) where
  nonneg := by
    intro p hp
    rcases List.prefix_cons_iff.mp hp with rfl | ⟨q, rfl, hq⟩
    · exact Int.le_refl 0
    · rcases prefix_append_cases hq with hq | ⟨last, hlast, rfl⟩
      · exact Int.le_of_lt (h.balance_pos hq)
      · rcases List.prefix_cons_iff.mp hlast with rfl | ⟨rest, rfl, hrest⟩
        · rw [List.append_nil]
          exact Int.le_of_lt (h.balance_pos List.prefix_rfl)
        · rw [List.prefix_nil.mp hrest, balance_cons, balance_append, h.balance_eq]
          exact Int.le_refl 0
  balance_eq := by
    rw [balance_cons, balance_append, h.balance_eq]
    rfl

/-! ### Tokens that are written out -/

theorem isBalanced_flatten_of_forall {items : List Token}
    (h : ∀ t ∈ items, IsBalanced t.flat) : IsBalanced (flatten items) := by
  induction items with
  | nil =>
      rw [flatten_nil]
      exact isBalanced_nil
  | cons t items ih =>
      obtain ⟨ht, hitems⟩ := List.forall_mem_cons.mp h
      rw [flatten_cons]
      exact ht.append (ih hitems)

theorem isBalanced_flat {t : Token} (h : t.Unmarked) : IsBalanced t.flat := by
  induction h with
  | plain hplain =>
      rw [flat_of_isGroup (isGroup_of_isPlain hplain)]
      exact isBalanced_of_isPlain hplain
  | group _ ih =>
      rw [flat_group]
      exact (isBalanced_flatten_of_forall ih).group

theorem isBalanced_flatten {ts : List Token} (h : ∀ t ∈ ts, t.Unmarked) :
    IsBalanced (flatten ts) :=
  isBalanced_flatten_of_forall fun t ht => isBalanced_flat (h t ht)

/-- Everything between two marks is hidden by them. -/
theorem hides_group {t : Token} (ht : t.isPlain = true) {ts : List Token} (h : IsBalanced ts) :
    Hides t (openGroup :: (ts ++ [closeGroup])) := by
  intro p rest heq
  rw [← List.cons_append] at heq
  rcases append_eq_append_cons heq with ⟨q, hinner, -⟩ | ⟨q, -, hlast⟩
  · rcases List.cons_eq_append_iff.mp hinner with ⟨-, hhead⟩ | ⟨p, rfl, rfl⟩
    · cases hhead
      cases ht
    · exact h.balance_pos (List.prefix_append p _)
  · have hmem : t ∈ [closeGroup] := by
      rw [hlast]
      exact List.mem_append_cons_self
    rw [List.mem_singleton.mp hmem] at ht
    cases ht

theorem Hides.append {t : Token} {ts us : List Token} (hts : IsBalanced ts) (h : Hides t ts)
    (h' : Hides t us) : Hides t (ts ++ us) := by
  intro p rest heq
  rcases append_eq_append_cons heq with ⟨q, rfl, -⟩ | ⟨q, rfl, rfl⟩
  · exact h p q rfl
  · rw [balance_append, hts.balance_eq, Int.zero_add]
    exact h' q rest rfl

/-- A token that is not written out by itself stands in groups only. -/
theorem hides_flatten {t : Token} (ht : t.isPlain = true) {ts : List Token}
    (hts : ∀ u ∈ ts, u.Unmarked) (h : t ∉ ts) : Hides t (flatten ts) := by
  induction ts with
  | nil =>
      intro p rest heq
      rw [flatten_nil] at heq
      simp at heq
  | cons u ts ih =>
      obtain ⟨hu, hts⟩ := List.forall_mem_cons.mp hts
      rw [List.mem_cons, not_or] at h
      rw [flatten_cons]
      refine .append (isBalanced_flat hu) ?_ (ih hts h.2)
      cases hu with
      | plain hplain =>
          rw [flat_of_isGroup (isGroup_of_isPlain hplain)]
          intro p rest heq
          have hmem : t ∈ [u] := by
            rw [heq]
            exact List.mem_append_cons_self
          exact absurd (List.mem_singleton.mp hmem) h.1
      | group hitems =>
          rw [flat_group]
          exact hides_group ht (isBalanced_flatten hitems)

end Token

end DisplayLogic
