import DisplayLogic.Token.Nesting

/-!
# Nested tokens and their flat form

`Token.flatten` writes every group out between its two marks and is the inverse of `Token.nest`.
The main statement `nest_eq_ok_iff` says so with the exact condition under which there is something
to invert: flat tokens are nested into `ts` just when `ts` holds no mark, writes out as those
tokens, and the marks among them stand at most `maxNesting` deep.

`nestFrom` reads with a stack of unfinished groups. What it has read so far is written out by
`unfinished`, and each half of the main statement is an induction that keeps this text fixed.
-/

namespace DisplayLogic

namespace Token

/-- Whether a token is neither a mark nor a group. -/
def isPlain : Token → Bool
  | openGroup | closeGroup | group _ => false
  | _ => true

/-- Whether a token is a group. -/
def isGroup : Token → Bool
  | group _ => true
  | _ => false

/-- No mark stands in a token, at any depth. -/
inductive Unmarked : Token → Prop where
  | plain {t : Token} (h : t.isPlain = true) : Unmarked t
  | group {items : List Token} (h : ∀ t ∈ items, Unmarked t) : Unmarked (.group items)

mutual

/-- A token with its groups written out between their marks. -/
def flat : Token → List Token
  | group items => openGroup :: flatten items ++ [closeGroup]
  | t => [t]

/-- Tokens with their groups written out between their marks. -/
def flatten : List Token → List Token
  | [] => []
  | t :: rest => t.flat ++ flatten rest

end

/-- How deep the marks of tokens stand, below so many open groups. -/
def nestingFrom (depth : Nat) : List Token → Nat
  | [] => depth
  | openGroup :: rest => nestingFrom (depth + 1) rest
  | closeGroup :: rest => max depth (nestingFrom (depth - 1) rest)
  | _ :: rest => nestingFrom depth rest

/-- How deep the marks of tokens stand in one another. -/
def nesting (tokens : List Token) : Nat := nestingFrom 0 tokens

@[simp] theorem flatten_nil : flatten [] = [] := by rw [flatten]

@[simp] theorem flatten_cons (t : Token) (rest : List Token) :
    flatten (t :: rest) = t.flat ++ flatten rest := by rw [flatten]

@[simp] theorem flatten_append (ts us : List Token) :
    flatten (ts ++ us) = flatten ts ++ flatten us := by
  induction ts with
  | nil => simp
  | cons t rest ih => rw [List.cons_append, flatten_cons, ih, flatten_cons, List.append_assoc]

@[simp] theorem flat_group (items : List Token) :
    (group items).flat = openGroup :: (flatten items ++ [closeGroup]) := by rw [flat]; rfl

theorem flat_group_append (items rest : List Token) :
    (group items).flat ++ rest = openGroup :: (flatten items ++ closeGroup :: rest) := by
  rw [flat_group, List.cons_append, List.append_assoc, List.singleton_append]

theorem flat_of_isGroup {t : Token} (h : t.isGroup = false) : t.flat = [t] := by
  cases t with
  | group items => nomatch h
  | _ => rfl

theorem isGroup_of_isPlain {t : Token} (h : t.isPlain = true) : t.isGroup = false := by
  cases t with
  | group items => nomatch h
  | _ => rfl

theorem isPlain_of_isGroup {t : Token} (hopen : t ≠ openGroup) (hclose : t ≠ closeGroup)
    (h : t.isGroup = false) : t.isPlain = true := by
  cases t with
  | openGroup => exact absurd rfl hopen
  | closeGroup => exact absurd rfl hclose
  | group items => nomatch h
  | _ => rfl

theorem le_nestingFrom (depth : Nat) (tokens : List Token) :
    depth ≤ nestingFrom depth tokens := by
  induction tokens generalizing depth with
  | nil => exact Nat.le_refl depth
  | cons t rest ih =>
      cases t with
      | openGroup => exact Nat.le_trans (Nat.le_succ depth) (ih (depth + 1))
      | closeGroup => exact Nat.le_max_left ..
      | _ => exact ih depth

theorem nestingFrom_of_isPlain {t : Token} (h : t.isPlain = true) (depth : Nat)
    (rest : List Token) : nestingFrom depth (t :: rest) = nestingFrom depth rest := by
  cases t with
  | openGroup | closeGroup => nomatch h
  | _ => rfl

theorem nestFrom_of_isPlain {t : Token} (h : t.isPlain = true) (position : Nat)
    (outer : List (List Token)) (current rest : List Token) :
    nestFrom position outer current (t :: rest) =
      nestFrom (position + 1) outer (t :: current) rest := by
  cases t with
  | openGroup | closeGroup => nomatch h
  | _ => rfl

/-! ### Groups that are written out are nested again -/

theorem nestingFrom_flatten_append {items : List Token}
    (h : ∀ t ∈ items, ∀ depth rest,
      nestingFrom depth (t.flat ++ rest) = max (depth + nesting t.flat) (nestingFrom depth rest))
    (depth : Nat) (rest : List Token) :
    nestingFrom depth (flatten items ++ rest) =
      max (depth + nesting (flatten items)) (nestingFrom depth rest) := by
  induction items generalizing depth rest with
  | nil => exact (Nat.max_eq_right (le_nestingFrom depth rest)).symm
  | cons t items ih =>
      have ht := h t List.mem_cons_self
      have hitems := ih fun u hu => h u (List.mem_cons_of_mem _ hu)
      have hcons : nesting (t.flat ++ flatten items) =
          max (nesting t.flat) (nesting (flatten items)) := by
        rw [nesting, ht, Nat.zero_add]
        rfl
      rw [flatten_cons, List.append_assoc, ht, hitems, hcons]
      omega

/-- An unmarked token closes all groups that it opens. What follows stands as deep as it would
without the token. -/
theorem nestingFrom_flat_append {t : Token} (h : t.Unmarked) :
    ∀ (depth : Nat) (rest : List Token),
      nestingFrom depth (t.flat ++ rest) =
        max (depth + nesting t.flat) (nestingFrom depth rest) := by
  induction h with
  | @plain t hplain =>
      intro depth rest
      have hnesting : nesting [t] = 0 := nestingFrom_of_isPlain hplain 0 []
      rw [flat_of_isGroup (isGroup_of_isPlain hplain), List.singleton_append,
        nestingFrom_of_isPlain hplain, hnesting]
      exact (Nat.max_eq_right (le_nestingFrom depth rest)).symm
  | @group items _ ih =>
      have hgroup (depth : Nat) (rest : List Token) :
          nestingFrom depth ((group items).flat ++ rest) =
            max (depth + 1 + nesting (flatten items))
              (max (depth + 1) (nestingFrom depth rest)) := by
        rw [flat_group_append, nestingFrom, nestingFrom_flatten_append ih, nestingFrom]
        rfl
      intro depth rest
      have hnesting : nesting (group items).flat =
          max (1 + nesting (flatten items)) (max 1 0) := by
        have hnil := hgroup 0 []
        rwa [List.append_nil, Nat.zero_add] at hnil
      rw [hgroup, hnesting]
      omega

theorem nestFrom_flatten_append {items : List Token} {outer : List (List Token)}
    (hitems : ∀ t ∈ items, t.Unmarked)
    (h : ∀ t ∈ items, ∀ position current rest,
      nestingFrom outer.length (t.flat ++ rest) ≤ maxNesting →
        nestFrom position outer current (t.flat ++ rest) =
          nestFrom (position + t.flat.length) outer (t :: current) rest)
    (position : Nat) (current rest : List Token)
    (hdepth : nestingFrom outer.length (flatten items ++ rest) ≤ maxNesting) :
    nestFrom position outer current (flatten items ++ rest) =
      nestFrom (position + (flatten items).length) outer (items.reverse ++ current) rest := by
  induction items generalizing position current with
  | nil => rfl
  | cons t items ih =>
      rw [flatten_cons, List.append_assoc] at hdepth ⊢
      have ht := hitems t List.mem_cons_self
      have hrest : nestingFrom outer.length (flatten items ++ rest) ≤ maxNesting := by
        rw [nestingFrom_flat_append ht] at hdepth
        exact Nat.le_trans (Nat.le_max_right ..) hdepth
      rw [h t List.mem_cons_self position current _ hdepth,
        ih (fun u hu => hitems u (List.mem_cons_of_mem _ hu))
          (fun u hu => h u (List.mem_cons_of_mem _ hu)) _ _ hrest,
        List.length_append, Nat.add_assoc, List.reverse_cons, List.append_assoc,
        List.singleton_append]

/-- Reading a token that is written out puts it into the current group. -/
theorem nestFrom_flat_append {t : Token} (h : t.Unmarked) :
    ∀ (position : Nat) (outer : List (List Token)) (current rest : List Token),
      nestingFrom outer.length (t.flat ++ rest) ≤ maxNesting →
        nestFrom position outer current (t.flat ++ rest) =
          nestFrom (position + t.flat.length) outer (t :: current) rest := by
  induction h with
  | plain hplain =>
      intro position outer current rest _
      rw [flat_of_isGroup (isGroup_of_isPlain hplain)]
      exact nestFrom_of_isPlain hplain position outer current rest
  | @group items hitems ih =>
      intro position outer current rest hdepth
      rw [flat_group_append] at hdepth ⊢
      rw [nestingFrom] at hdepth
      have hroom : ¬ maxNesting ≤ outer.length := by
        have hopen := le_nestingFrom (outer.length + 1) (flatten items ++ closeGroup :: rest)
        omega
      have hinner :
          nestFrom (position + 1) (current :: outer) [] (flatten items ++ closeGroup :: rest) =
            nestFrom (position + 1 + (flatten items).length) (current :: outer)
              (items.reverse ++ []) (closeGroup :: rest) :=
        nestFrom_flatten_append hitems
          (fun u hu position inner rest => ih u hu position (current :: outer) inner rest)
          (position + 1) [] (closeGroup :: rest) hdepth
      rw [nestFrom, if_neg hroom, hinner, nestFrom, List.append_nil, List.reverse_reverse]
      congr 1
      simp only [flat_group, List.length_cons, List.length_append, List.length_nil]
      omega

theorem nest_flatten {ts : List Token} (h : ∀ t ∈ ts, t.Unmarked)
    (hdepth : nesting (flatten ts) ≤ maxNesting) : nest (flatten ts) = .ok ts := by
  have hread := nestFrom_flatten_append h
    (fun t ht position current rest => nestFrom_flat_append (h t ht) position [] current rest)
    0 [] [] (by rw [List.append_nil]; exact hdepth)
  rw [List.append_nil] at hread
  rw [nest, hread, nestFrom]
  simp

/-! ### What is nested writes out as what was read -/

/-- What has been read so far, for a current group and those around it. -/
def unfinished : List (List Token) → List Token → List Token
  | [], current => flatten current.reverse
  | parent :: outer, current =>
    unfinished outer parent ++ openGroup :: flatten current.reverse

theorem unfinished_cons (outer : List (List Token)) (t : Token) (current : List Token) :
    unfinished outer (t :: current) = unfinished outer current ++ t.flat := by
  cases outer <;> simp [unfinished]

theorem flatten_of_nestFrom {position : Nat} {outer : List (List Token)}
    {current tokens ts : List Token} (hflat : ∀ t ∈ tokens, t.isGroup = false)
    (h : nestFrom position outer current tokens = .ok ts) :
    flatten ts = unfinished outer current ++ tokens := by
  fun_induction nestFrom position outer current tokens with
  | case1 position outer current houter =>
      cases h
      rw [List.isEmpty_iff] at houter
      rw [houter, unfinished, List.append_nil]
  | case2 => nomatch h
  | case3 => nomatch h
  | case4 position outer current rest _ ih =>
      rw [ih (fun t ht => hflat t (List.mem_cons_of_mem _ ht)) h, unfinished]
      simp
  | case5 => nomatch h
  | case6 position current rest parent outer ih =>
      rw [ih (fun t ht => hflat t (List.mem_cons_of_mem _ ht)) h, unfinished_cons, unfinished,
        flat_group]
      simp
  | case7 position outer current t rest hopen hclose ih =>
      rw [ih (fun t ht => hflat t (List.mem_cons_of_mem _ ht)) h, unfinished_cons,
        flat_of_isGroup (hflat t List.mem_cons_self)]
      simp

theorem unmarked_of_nestFrom {position : Nat} {outer : List (List Token)}
    {current tokens ts : List Token} (hflat : ∀ t ∈ tokens, t.isGroup = false)
    (hread : ∀ group ∈ current :: outer, ∀ t ∈ group, t.Unmarked)
    (h : nestFrom position outer current tokens = .ok ts) : ∀ t ∈ ts, t.Unmarked := by
  fun_induction nestFrom position outer current tokens with
  | case1 position outer current _ =>
      cases h
      intro t ht
      exact hread current List.mem_cons_self t (List.mem_reverse.mp ht)
  | case2 => nomatch h
  | case3 => nomatch h
  | case4 position outer current rest _ ih =>
      refine ih (fun t ht => hflat t (List.mem_cons_of_mem _ ht)) ?_ h
      intro group hgroup t ht
      rcases List.mem_cons.mp hgroup with rfl | hgroup
      · nomatch ht
      · exact hread group hgroup t ht
  | case5 => nomatch h
  | case6 position current rest parent outer ih =>
      refine ih (fun t ht => hflat t (List.mem_cons_of_mem _ ht)) ?_ h
      have hinner : (group current.reverse).Unmarked := .group fun t ht =>
        hread current List.mem_cons_self t (List.mem_reverse.mp ht)
      intro group hgroup t ht
      rcases List.mem_cons.mp hgroup with rfl | hgroup
      · rcases List.mem_cons.mp ht with rfl | ht
        · exact hinner
        · exact hread parent (by simp) t ht
      · exact hread group (by simp [hgroup]) t ht
  | case7 position outer current t rest hopen hclose ih =>
      refine ih (fun t ht => hflat t (List.mem_cons_of_mem _ ht)) ?_ h
      have hplain : t.Unmarked := .plain (isPlain_of_isGroup hopen hclose
        (hflat t List.mem_cons_self))
      intro group hgroup u hu
      rcases List.mem_cons.mp hgroup with rfl | hgroup
      · rcases List.mem_cons.mp hu with rfl | hu
        · exact hplain
        · exact hread current List.mem_cons_self u hu
      · exact hread group (List.mem_cons_of_mem _ hgroup) u hu

theorem nestingFrom_of_nestFrom {position : Nat} {outer : List (List Token)}
    {current tokens ts : List Token} (houter : outer.length ≤ maxNesting)
    (h : nestFrom position outer current tokens = .ok ts) :
    nestingFrom outer.length tokens ≤ maxNesting := by
  fun_induction nestFrom position outer current tokens with
  | case1 => exact houter
  | case2 => nomatch h
  | case3 => nomatch h
  | case4 position outer current rest hroom ih => exact ih (Nat.lt_of_not_le hroom) h
  | case5 => nomatch h
  | case6 position current rest parent outer ih =>
      exact Nat.max_le.mpr ⟨houter, ih (Nat.le_of_succ_le houter) h⟩
  | case7 position outer current t rest hopen hclose ih =>
      rw [nestingFrom]
      · exact ih houter h
      · exact hopen
      · exact hclose

/-- Flat tokens are nested just as the unmarked tokens that write out as them. -/
theorem nest_eq_ok_iff {tokens ts : List Token} (hflat : ∀ t ∈ tokens, t.isGroup = false) :
    nest tokens = .ok ts ↔
      flatten ts = tokens ∧ (∀ t ∈ ts, t.Unmarked) ∧ nesting tokens ≤ maxNesting := by
  constructor
  · intro h
    refine ⟨?_, ?_, ?_⟩
    · rw [flatten_of_nestFrom hflat h]
      rfl
    · refine unmarked_of_nestFrom hflat ?_ h
      simp
    · exact nestingFrom_of_nestFrom (Nat.zero_le _) h
  · rintro ⟨rfl, hunmarked, hdepth⟩
    exact nest_flatten hunmarked hdepth

end Token

end DisplayLogic
