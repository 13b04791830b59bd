import DisplayLogic.Proofs.Token.Flattening
import Mathlib.Data.Nat.Find

/-!
# The level of the marks

Walking through tokens, an opening mark leads one level up and a closing mark one level down.
`level tokens i` is the level in front of the token at place `i`, as a whole number, because nothing
keeps closing marks from coming first. `nest` works with a stack of unfinished groups instead. Its
height is the level as long as the level stays between zero and `maxNesting`, which is what
`exists_nestFrom_append` says of a whole stretch of tokens.

The first place at which the level leaves this range is therefore where `nest` fails, and the fault
tells on which side it was left. If it is never left, the level at the end decides. `MarksFault`
lists these faults, and `nest_eq_error_iff` says that there are no others.
-/

namespace DisplayLogic

namespace Token

def isOpening : Token → Bool
  | openGroup => true
  | _ => false

def isClosing : Token → Bool
  | closeGroup => true
  | _ => false

/-- The opening marks among tokens less the closing ones. -/
def balance (tokens : List Token) : Int := tokens.countP isOpening - tokens.countP isClosing

/-- The balance of the first tokens. -/
def level (tokens : List Token) (i : Nat) : Int := balance (tokens.take i)

/-- Groups may be open so many at a time. -/
def IsLevel (n : Int) : Prop := 0 ≤ n ∧ n ≤ 64

instance (n : Int) : Decidable (IsLevel n) := inferInstanceAs (Decidable (_ ∧ _))

/-- What is wrong with the marks of tokens: the first one that leads out of the levels or, if none
does, the groups that are open at the end. -/
inductive MarksFault (tokens : List Token) : ParseError → Prop where
  | unmatchedClose {i : Nat} (hbefore : ∀ j ≤ i, IsLevel (level tokens j))
      (h : level tokens (i + 1) = -1) : MarksFault tokens (.unmatchedClose i)
  | tooDeep {i : Nat} (hbefore : ∀ j ≤ i, IsLevel (level tokens j))
      (h : level tokens (i + 1) = 65) : MarksFault tokens (.tooDeep 64)
  | unmatchedOpen {depth : Nat} (hlevels : ∀ i, IsLevel (level tokens i))
      (h : level tokens tokens.length = depth) (hpos : 0 < depth) :
      MarksFault tokens (.unmatchedOpen depth)

mutual

/-- How deep groups stand in one another in a token. -/
def groupDepth : Token → Nat
  | group items => groupDepths items + 1
  | _ => 0

/-- How deep groups stand in one another in some of the tokens. -/
def groupDepths : List Token → Nat
  | [] => 0
  | t :: rest => max t.groupDepth (groupDepths rest)

end

@[simp] theorem balance_openGroup : balance [openGroup] = 1 := rfl

@[simp] theorem balance_closeGroup : balance [closeGroup] = -1 := rfl

@[simp] theorem balance_append (ts us : List Token) :
    balance (ts ++ us) = balance ts + balance us := by
  simp only [balance, List.countP_append, Int.natCast_add]
  omega

theorem balance_cons (t : Token) (ts : List Token) : balance (t :: ts) = balance [t] + balance ts :=
  balance_append [t] ts

theorem level_length (tokens : List Token) : level tokens tokens.length = balance tokens := by
  rw [level, List.take_length]

theorem level_succ {tokens : List Token} {i : Nat} (h : i < tokens.length) :
    level tokens (i + 1) = level tokens i + balance [tokens[i]] := by
  rw [level, List.take_succ_eq_append_getElem h, balance_append, level]

/-! ### The height of the stack -/

section Reading

variable {outer : List (List Token)}

/-- Reading a token moves the number of open groups just as the level. -/
theorem exists_nestFrom_cons (position : Nat) (current : List Token) {t : Token}
    (h : IsLevel (outer.length + balance [t])) :
    ∃ outer' current', (outer'.length : Int) = outer.length + balance [t] ∧
      ∀ rest, nestFrom position outer current (t :: rest) =
        nestFrom (position + 1) outer' current' rest := by
  cases t with
  | openGroup =>
      rw [balance_openGroup] at h ⊢
      have hroom : ¬ maxNesting ≤ outer.length := by
        have hle := h.2
        have hmax : maxNesting = 64 := rfl
        omega
      refine ⟨current :: outer, [], by simp, fun rest => ?_⟩
      rw [nestFrom, if_neg hroom]
  | closeGroup =>
      rw [balance_closeGroup] at h ⊢
      cases outer with
      | nil => exact absurd h.1 (by decide)
      | cons parent outer =>
          have hlength : ((parent :: outer).length : Int) + -1 = outer.length := by
            rw [List.length_cons]
            omega
          exact ⟨outer, .group current.reverse :: parent, hlength.symm, fun _ => rfl⟩
  | _ => exact ⟨outer, _, (Int.add_zero _).symm, fun _ => rfl⟩

/-- A token that leads out of the levels is an unmatched closing mark or an opening mark that stands
too deep. -/
theorem nestFrom_cons_of_not_isLevel (position : Nat) (current : List Token) {t : Token}
    (houter : IsLevel outer.length) (h : ¬ IsLevel (outer.length + balance [t]))
    (rest : List Token) :
    outer.length + balance [t] = -1 ∧
        nestFrom position outer current (t :: rest) = .error (.unmatchedClose position) ∨
      outer.length + balance [t] = 65 ∧
        nestFrom position outer current (t :: rest) = .error (.tooDeep 64) := by
  cases t with
  | openGroup =>
      rw [balance_openGroup] at h ⊢
      have hfull : outer.length = maxNesting := by
        have hmax : maxNesting = 64 := rfl
        unfold IsLevel at h houter
        omega
      refine .inr ⟨by rw [hfull]; rfl, ?_⟩
      rw [nestFrom, if_pos (Nat.le_of_eq hfull.symm)]
      rfl
  | closeGroup =>
      rw [balance_closeGroup] at h ⊢
      cases outer with
      | nil => exact .inl ⟨rfl, rfl⟩
      | cons parent outer =>
          exfalso
          unfold IsLevel at h houter
          rw [List.length_cons] at h houter
          omega
  | _ => exact absurd houter h

/-- As long as the level stays in its range, it says how many groups are open. -/
theorem exists_nestFrom_append (position : Nat) (current : List Token) {before : List Token}
    (h : ∀ i, IsLevel (outer.length + level before i)) :
    ∃ outer' current', (outer'.length : Int) = outer.length + balance before ∧
      ∀ rest, nestFrom position outer current (before ++ rest) =
        nestFrom (position + before.length) outer' current' rest := by
  induction before generalizing position outer current with
  | nil => exact ⟨outer, current, (Int.add_zero _).symm, fun _ => rfl⟩
  | cons t before ih =>
      have hlevel (i : Nat) : level (t :: before) (i + 1) = balance [t] + level before i :=
        balance_cons t _
      obtain ⟨outer₁, current₁, hlength₁, hread₁⟩ :=
        exists_nestFrom_cons position current (h 1)
      have hbefore (i : Nat) : IsLevel (outer₁.length + level before i) := by
        have hi := h (i + 1)
        rwa [hlevel, ← Int.add_assoc, ← hlength₁] at hi
      obtain ⟨outer', current', hlength, hread⟩ :=
        ih (position + 1) current₁ hbefore
      refine ⟨outer', current', ?_, fun rest => ?_⟩
      · rw [hlength, hlength₁, balance_cons t before, Int.add_assoc]
      · rw [List.cons_append, hread₁, hread, List.length_cons, Nat.add_assoc, Nat.add_comm 1]

/-- From the start on, the level is the number of open groups. -/
theorem exists_nest_append {before : List Token} (h : ∀ i, IsLevel (level before i)) :
    ∃ (outer : List (List Token)) (current : List Token), (outer.length : Int) = balance before ∧
      ∀ rest, nest (before ++ rest) = nestFrom before.length outer current rest := by
  have hzero (n : Int) : (([] : List (List Token)).length : Int) + n = n := Int.zero_add n
  have hlevels (i : Nat) : IsLevel (([] : List (List Token)).length + level before i) := by
    rw [hzero]
    exact h i
  obtain ⟨outer, current, hlength, hread⟩ :=
    exists_nestFrom_append 0 [] hlevels
  refine ⟨outer, current, hlength.trans (hzero _), fun rest => ?_⟩
  rw [nest, hread, Nat.zero_add]

end Reading

/-! ### The first place that decides -/

variable {tokens : List Token}

/-- Where the level stays in its range up to a place and leaves it there, the marks are at fault. -/
theorem nest_of_first_not_isLevel {i : Nat} (hbefore : ∀ j ≤ i, IsLevel (level tokens j))
    (h : ¬ IsLevel (level tokens (i + 1))) :
    level tokens (i + 1) = -1 ∧ nest tokens = .error (.unmatchedClose i) ∨
      level tokens (i + 1) = 65 ∧ nest tokens = .error (.tooDeep 64) := by
  have hi : i < tokens.length := by
    by_contra hle
    have hsame : level tokens (i + 1) = level tokens i := by
      rw [level, level, List.take_of_length_le (by omega), List.take_of_length_le (by omega)]
    rw [hsame] at h
    exact h (hbefore i (Nat.le_refl i))
  have hlevels (j : Nat) : IsLevel (level (tokens.take i) j) := by
    rw [level, List.take_take]
    exact hbefore (min j i) (Nat.min_le_right j i)
  obtain ⟨outer, current, hopen, hread⟩ := exists_nest_append hlevels
  have hnest := hread (tokens[i] :: tokens.drop (i + 1))
  rw [← List.drop_eq_getElem_cons hi, List.take_append_drop,
    List.length_take_of_le (Nat.le_of_lt hi)] at hnest
  have houter : IsLevel outer.length := by
    rw [hopen]
    exact hbefore i (Nat.le_refl i)
  rw [level_succ hi, level, ← hopen] at h ⊢
  rw [hnest, List.drop_eq_getElem_cons hi]
  exact nestFrom_cons_of_not_isLevel i current houter h _

/-- Where the level never leaves its range, the groups that are open at the end decide. -/
theorem exists_nest_of_isLevel (h : ∀ i, IsLevel (level tokens i)) :
    ∃ (outer : List (List Token)) (current : List Token),
      level tokens tokens.length = outer.length ∧
        nest tokens = nestFrom tokens.length outer current [] := by
  obtain ⟨outer, current, hopen, hread⟩ := exists_nest_append h
  refine ⟨outer, current, ?_, ?_⟩
  · rw [level_length, hopen]
  · rw [← hread, List.append_nil]

theorem exists_first_not_isLevel (h : ¬ ∀ i, IsLevel (level tokens i)) :
    ∃ i, (∀ j ≤ i, IsLevel (level tokens j)) ∧ ¬ IsLevel (level tokens (i + 1)) := by
  push Not at h
  have hzero : IsLevel (level tokens 0) := (by decide : IsLevel 0)
  obtain ⟨i, hi⟩ : ∃ i, Nat.find h = i + 1 := by
    refine Nat.exists_eq_succ_of_ne_zero fun hfind => ?_
    have hspec := Nat.find_spec h
    rw [hfind] at hspec
    exact hspec hzero
  refine ⟨i, fun j hj => ?_, ?_⟩
  · have hlt : j < Nat.find h := by omega
    exact Decidable.not_not.mp (Nat.find_min h hlt)
  · rw [← hi]
    exact Nat.find_spec h

/-- Tokens are nested just when the level never leaves its range and ends where it began. -/
theorem exists_nest_eq_ok_iff :
    (∃ ts, nest tokens = .ok ts) ↔
      (∀ i, IsLevel (level tokens i)) ∧ level tokens tokens.length = 0 := by
  constructor
  · rintro ⟨ts, hts⟩
    have hlevels : ∀ i, IsLevel (level tokens i) := by
      by_contra h
      obtain ⟨i, hbefore, hi⟩ := exists_first_not_isLevel h
      rcases nest_of_first_not_isLevel hbefore hi with ⟨-, hfault⟩ | ⟨-, hfault⟩
      · nomatch hts.symm.trans hfault
      · nomatch hts.symm.trans hfault
    obtain ⟨outer, current, hopen, hnest⟩ := exists_nest_of_isLevel hlevels
    cases outer with
    | nil => exact ⟨hlevels, hopen⟩
    | cons parent outer => nomatch hts.symm.trans hnest
  · rintro ⟨hlevels, hend⟩
    obtain ⟨outer, current, hopen, hnest⟩ := exists_nest_of_isLevel hlevels
    cases outer with
    | nil => exact ⟨current.reverse, hnest⟩
    | cons parent outer =>
        rw [hend, List.length_cons] at hopen
        omega

/-- Where the level never leaves its range but ends above zero, groups are left open. -/
theorem nest_of_level_length_eq {depth : Nat} (hlevels : ∀ i, IsLevel (level tokens i))
    (hpos : 0 < depth) (h : level tokens tokens.length = depth) :
    nest tokens = .error (.unmatchedOpen depth) := by
  obtain ⟨outer, current, hopen, hnest⟩ := exists_nest_of_isLevel hlevels
  have hdepth : outer.length = depth := Int.ofNat_inj.mp (hopen.symm.trans h)
  subst hdepth
  rw [hnest, nestFrom, List.isEmpty_eq_false_iff.mpr (List.ne_nil_of_length_pos hpos)]
  rfl

/-- Tokens are refused just for a fault of their marks. -/
theorem nest_eq_error_iff {e : ParseError} : nest tokens = .error e ↔ MarksFault tokens e := by
  constructor
  · intro h
    by_cases hlevels : ∀ i, IsLevel (level tokens i)
    · obtain ⟨depth, hdepth⟩ := Int.eq_ofNat_of_zero_le (hlevels tokens.length).1
      have hpos : 0 < depth := by
        refine Nat.pos_of_ne_zero fun hzero => ?_
        subst hzero
        obtain ⟨ts, hts⟩ := exists_nest_eq_ok_iff.mpr ⟨hlevels, hdepth⟩
        nomatch h.symm.trans hts
      cases h.symm.trans (nest_of_level_length_eq hlevels hpos hdepth)
      exact .unmatchedOpen hlevels hdepth hpos
    · obtain ⟨i, hbefore, hi⟩ := exists_first_not_isLevel hlevels
      rcases nest_of_first_not_isLevel hbefore hi with ⟨hlevel, hfault⟩ | ⟨hlevel, hfault⟩
      · cases h.symm.trans hfault
        exact .unmatchedClose hbefore hlevel
      · cases h.symm.trans hfault
        exact .tooDeep hbefore hlevel
  · intro h
    cases h with
    | @unmatchedClose i hbefore hlevel =>
        have hleft : ¬ IsLevel (level tokens (i + 1)) := by
          rw [hlevel]
          decide
        rcases nest_of_first_not_isLevel hbefore hleft with ⟨-, hfault⟩ | ⟨hlevel', -⟩
        · exact hfault
        · nomatch hlevel.symm.trans hlevel'
    | @tooDeep i hbefore hlevel =>
        have hleft : ¬ IsLevel (level tokens (i + 1)) := by
          rw [hlevel]
          decide
        rcases nest_of_first_not_isLevel hbefore hleft with ⟨hlevel', -⟩ | ⟨-, hfault⟩
        · nomatch hlevel.symm.trans hlevel'
        · exact hfault
    | unmatchedOpen hlevels hend hpos => exact nest_of_level_length_eq hlevels hpos hend

/-! ### Groups and the marks around them -/

theorem groupDepth_of_isPlain {t : Token} (h : t.isPlain = true) : t.groupDepth = 0 := by
  cases t with
  | group items => nomatch h
  | _ => rw [groupDepth]; nofun

theorem nesting_flatten_of_forall {items : List Token} (hitems : ∀ t ∈ items, t.Unmarked)
    (h : ∀ t ∈ items, nesting t.flat = t.groupDepth) :
    nesting (flatten items) = groupDepths items := by
  induction items with
  | nil => rfl
  | cons t items ih =>
      obtain ⟨ht, hrest⟩ := List.forall_mem_cons.mp h
      obtain ⟨hunmarked, hunmarkeds⟩ := List.forall_mem_cons.mp hitems
      rw [flatten_cons, nesting, nestingFrom_flat_append hunmarked, Nat.zero_add, ht, groupDepths,
        ← ih hunmarkeds hrest]
      rfl

/-- The marks of an unmarked token stand as deep as its groups. -/
theorem nesting_flat {t : Token} (h : t.Unmarked) : nesting t.flat = t.groupDepth := by
  induction h with
  | @plain t hplain =>
      rw [flat_of_isGroup (isGroup_of_isPlain hplain), groupDepth_of_isPlain hplain]
      exact nestingFrom_of_isPlain hplain 0 []
  | @group items hitems ih =>
      have hread := nestingFrom_flatten_append
        (fun t ht => nestingFrom_flat_append (hitems t ht)) 1 [closeGroup]
      have hclose : nestingFrom 1 [closeGroup] = 1 := rfl
      rw [flat_group, nesting, nestingFrom, hread, nesting_flatten_of_forall hitems ih, hclose,
        groupDepth]
      omega

theorem nesting_flatten {ts : List Token} (h : ∀ t ∈ ts, t.Unmarked) :
    nesting (flatten ts) = groupDepths ts :=
  nesting_flatten_of_forall h fun t ht => nesting_flat (h t ht)

/-- Flat tokens are nested just when their level stays between 0 and 64 and ends at 0. The result
holds no mark and writes out as the tokens, and everything without marks and with groups at most 64
deep is such a result. Otherwise the first place where the level leaves its range decides the fault
or, if there is none, the level at the end. -/
theorem nest_by_level {tokens : List Token} (hflat : ∀ t ∈ tokens, t.isGroup = false) :
    ((∃ ts, nest tokens = .ok ts) ↔
        (∀ i, 0 ≤ level tokens i ∧ level tokens i ≤ 64) ∧ level tokens tokens.length = 0) ∧
      (∀ ts, nest tokens = .ok ts → (∀ t ∈ ts, t.Unmarked) ∧ flatten ts = tokens) ∧
      (∀ ts, (∀ t ∈ ts, Unmarked t) → groupDepths ts ≤ 64 → nest (flatten ts) = .ok ts) ∧
      (∀ i, (∀ j ≤ i, 0 ≤ level tokens j ∧ level tokens j ≤ 64) →
        ¬ (0 ≤ level tokens (i + 1) ∧ level tokens (i + 1) ≤ 64) →
          level tokens (i + 1) = -1 ∧ nest tokens = .error (.unmatchedClose i) ∨
            level tokens (i + 1) = 65 ∧ nest tokens = .error (.tooDeep 64)) ∧
      ((∀ i, 0 ≤ level tokens i ∧ level tokens i ≤ 64) → level tokens tokens.length ≠ 0 →
        ∃ depth : Nat, level tokens tokens.length = depth ∧
          nest tokens = .error (.unmatchedOpen depth)) := by
  refine ⟨exists_nest_eq_ok_iff, fun ts h => ?_, fun ts hunmarked hdepth => ?_,
    fun i => nest_of_first_not_isLevel, fun hlevels hend => ?_⟩
  · obtain ⟨hflatten, hunmarked, -⟩ := (nest_eq_ok_iff hflat).mp h
    exact ⟨hunmarked, hflatten⟩
  · refine nest_flatten hunmarked ?_
    rw [nesting_flatten hunmarked]
    exact hdepth
  · obtain ⟨depth, hdepth⟩ := Int.eq_ofNat_of_zero_le (hlevels tokens.length).1
    have hpos : 0 < depth := by
      refine Nat.pos_of_ne_zero fun hzero => hend ?_
      rw [hdepth, hzero]
      rfl
    exact ⟨depth, hdepth, nest_of_level_length_eq hlevels hpos hdepth⟩

theorem nest_by_level_of_second_close :
    let tokens : List Token := [.openGroup, .boolean true, .closeGroup, .closeGroup, .openGroup]
    let ts : List Token := [.group [.group [.boolean true], .or], .boolean false]
    (∀ t ∈ tokens, t.isGroup = false) ∧ (∀ j ≤ 3, 0 ≤ level tokens j ∧ level tokens j ≤ 64) ∧
      level tokens 4 = -1 ∧ nest tokens = .error (.unmatchedClose 3) ∧
        (∀ t ∈ ts, t.Unmarked) ∧ groupDepths ts = 2 ∧ nest (flatten ts) = .ok ts := by
  intro tokens ts
  have hflat : ∀ t ∈ tokens, t.isGroup = false := by simp [tokens, isGroup]
  have hbefore : ∀ j ≤ 3, 0 ≤ level tokens j ∧ level tokens j ≤ 64 := by decide
  have hlevel : level tokens 4 = -1 := rfl
  have hunmarked : ∀ t ∈ ts, t.Unmarked := by
    have htrue : Unmarked (.group [.boolean true]) :=
      .group (List.forall_mem_singleton.mpr (.plain rfl))
    have houter : Unmarked (.group [.group [.boolean true], .or]) :=
      .group (List.forall_mem_cons.mpr ⟨htrue, List.forall_mem_singleton.mpr (.plain rfl)⟩)
    exact List.forall_mem_cons.mpr ⟨houter, List.forall_mem_singleton.mpr (.plain rfl)⟩
  obtain ⟨-, -, hnested, hfault, -⟩ := nest_by_level hflat
  refine ⟨hflat, hbefore, hlevel, ?_, hunmarked, rfl, hnested ts hunmarked (by decide)⟩
  rcases hfault 3 hbefore (by decide) with ⟨-, hclose⟩ | ⟨hdeep, -⟩
  · exact hclose
  · nomatch hlevel.symm.trans hdeep

end Token

end DisplayLogic
