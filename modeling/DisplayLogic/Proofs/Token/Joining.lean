import DisplayLogic.Proofs.Lexeme.Extent
import DisplayLogic.Proofs.Token.Identifiers
import Mathlib.Algebra.Group.Nat.Even

/-!
# Texts behind one another

What is written behind a text can change how the text is cut only in two ways: it completes the last
lexeme, or it falls into a text whose quote was never closed. The one is excluded where a boundary
follows, and the other where the text has an even number of quotes. Under these two conditions
`lexFrom_append` says that the two texts are lexed one after the other, faults and positions
included.

Good lexings do not depend on the line and the position of a text. `Registry.Cuts` are the tokens
that a text is then cut into.
-/

namespace DisplayLogic

namespace Lexeme

theorem isClosed_of_even {cs : List Char} (h : Even (cs.count '"')) : IsClosed cs := by
  rintro content rfl
  rw [List.count_cons_self, Nat.even_add_one] at h
  rw [← List.count_pos_iff]
  exact Nat.pos_of_ne_zero fun hzero => h (hzero ▸ Even.zero)

/-- A lexeme leaves an even number of quotes behind, if there was one in front of it. -/
theorem Occupies.even_count {l : Lexeme} {slice behind : List Char}
    (h : l.Occupies slice behind) (heven : Even ((slice ++ behind).count '"')) :
    Even (behind.count '"') := by
  have hfree {slice : List Char} (hslice : '"' ∉ slice) :
      (slice ++ behind).count '"' = behind.count '"' := by
    rw [List.count_append, List.count_eq_zero.mpr hslice, Nat.zero_add]
  cases h with
  | openText _ => exact Even.zero
  | @closedText s hs _ =>
      have hcount : ('"' :: (s.toList ++ ['"']) ++ behind).count '"' = behind.count '"' + 2 := by
        simp only [List.count_append, List.count_cons_self, List.count_nil,
          List.count_eq_zero.mpr hs]
        omega
      rwa [hcount, Nat.even_add_one, Nat.even_add_one, not_not] at heven
  | boolean value _ =>
      have hquote : '"' ∉ (booleanText value).toList := by cases value <;> decide
      rwa [hfree hquote] at heven
  | number hrun _ _ =>
      have hquote : '"' ∉ slice := fun hmem => nomatch hrun.isNumeralChar _ hmem
      rwa [hfree hquote] at heven
  | name hrun _ =>
      have hquote : '"' ∉ slice := fun hmem => nomatch hrun.isNameChar _ hmem
      rwa [hfree hquote] at heven
  | _ => exact heven

end Lexeme

namespace Lexing

/-- Two lexings, one behind the other. The second counts only if the first has not failed. -/
def append (l l' : Lexing) : Lexing :=
  match l.failure? with
  | none => ⟨l.tokens ++ l'.tokens, l.bindings ++ l'.bindings, l'.failure?⟩
  | some _ => l

theorem cons_append {answer : Answer} (h : answer ≠ .finished) (l l' : Lexing) :
    (cons answer l).append l' = cons answer (l.append l') := by
  cases answer with
  | finished => exact absurd rfl h
  | failure e => rfl
  | token t binding? =>
      obtain ⟨tokens, bindings, failure?⟩ := l
      cases failure? with
      | none => simp only [cons, append, List.cons_append, List.append_assoc]
      | some e => rfl

theorem toExcept_append {l l' : Lexing} {ts us : List Token} (h : l.toExcept = .ok ts)
    (h' : l'.toExcept = .ok us) : (l.append l').toExcept = .ok (ts ++ us) := by
  obtain ⟨hfailure, rfl⟩ := toExcept_eq_ok_iff.mp h
  obtain ⟨hfailure', rfl⟩ := toExcept_eq_ok_iff.mp h'
  rw [toExcept_eq_ok_iff, append, hfailure]
  exact ⟨hfailure', rfl⟩

end Lexing

/-- The token is written with the character, which is a lexeme of its own whatever follows it, and
ends what stands in front of it. -/
structure Token.IsMark (t : Token) (c : Char) : Prop where
  front : ∃ l, (∀ rest, Lexeme.front (c :: rest) = .lexeme l 1) ∧
    ∀ (r : Registry) (line : Nat), r.tokenOf line l = .token t none
  isBoundary : Lexeme.isBoundary c = true

theorem Token.isMark_openGroup : openGroup.IsMark '(' := ⟨⟨_, fun _ => rfl, fun _ _ => rfl⟩, rfl⟩

theorem Token.isMark_closeGroup : closeGroup.IsMark ')' := ⟨⟨_, fun _ => rfl, fun _ _ => rfl⟩, rfl⟩

theorem Token.isMark_or : or.IsMark '|' := ⟨⟨_, fun _ => rfl, fun _ _ => rfl⟩, rfl⟩

theorem Token.isMark_and : and.IsMark '&' := ⟨⟨_, fun _ => rfl, fun _ _ => rfl⟩, rfl⟩

namespace Registry

variable {r : Registry} {line position : Nat} {cs rest : List Char} {ts us : List Token}

theorem tokenOf_ne_finished (r : Registry) (line : Nat) (l : Lexeme) :
    r.tokenOf line l ≠ .finished := by
  intro h
  cases l with
  | name name =>
      simp only [tokenOf] at h
      split at h
      · cases h
      · cases h
  | _ => cases h

/-- A text with an even number of quotes and what follows it behind a boundary are lexed one after
the other. -/
theorem lexFrom_append (heven : Even (cs.count '"')) (hrest : Lexeme.StartsApart rest) :
    r.lexFrom line position (cs ++ rest) =
      (r.lexFrom line position cs).append (r.lexFrom line (position + cs.length) rest) := by
  have hsame {cs : List Char} (hne : cs ≠ []) (heven : Even (cs.count '"')) :
      Lexeme.front (cs ++ rest) = Lexeme.front cs :=
    Lexeme.front_append hne (Lexeme.isClosed_of_even heven) hrest
  induction cs using Lexeme.front_induction generalizing position with
  | nil => rfl
  | nothing c cs hfront hmeaning ih =>
      have hquote : c ≠ '"' := by
        rintro rfl
        nomatch hmeaning
      have hevenrest : Even (cs.count '"') := by
        rwa [List.count_cons_of_ne hquote] at heven
      have hfront' : Lexeme.front (c :: (cs ++ rest)) = .nothing :=
        (hsame (List.cons_ne_nil c cs) heven).trans hfront
      rw [List.cons_append, lexFrom_of_nothing r line position hfront',
        lexFrom_of_nothing r line position hfront, ih hevenrest, List.length_cons,
        Nat.add_right_comm, Nat.add_assoc]
  | lexeme l slice behind hne hfront hoccupies ih =>
      have hfront' := (hsame (List.append_ne_nil_of_left_ne_nil hne behind) heven).trans hfront
      have hposition : position + (slice ++ behind).length =
          position + slice.length + behind.length := by
        rw [List.length_append, Nat.add_assoc]
      rw [lexFrom_of_lexeme r line position hfront', lexFrom_of_lexeme r line position hfront,
        List.append_assoc, List.drop_left, List.drop_left, ih (hoccupies.even_count heven),
        hposition, Lexing.cons_append (r.tokenOf_ne_finished line l)]
  | notNumeral run behind hfront hfaulty _ =>
      have hne := List.append_ne_nil_of_left_ne_nil hfaulty.ne_nil behind
      rw [lexFrom_of_notNumeral r line position ((hsame hne heven).trans hfront),
        lexFrom_of_notNumeral r line position hfront]
      rfl
  | loneBang cs hfront _ =>
      have hne := List.cons_ne_nil '!' cs
      rw [lexFrom_of_loneBang r line position ((hsame hne heven).trans hfront),
        lexFrom_of_loneBang r line position hfront]
      rfl

/-! ### The tokens of a text, wherever it stands -/

/-- The text is cut into the tokens, on every line and at every position. -/
def Cuts (r : Registry) (cs : List Char) (ts : List Token) : Prop :=
  ∀ line position, (r.lexFrom line position cs).toExcept = .ok ts

/-- The line of a reference decides nothing but the texts of notes and errors. -/
theorem exists_resolve_eq_ok {reference : String} {b : Binding}
    (h : r.resolve reference line = .ok b) (line' : Nat) :
    ∃ b', r.resolve reference line' = .ok b' ∧ b'.entry = b.entry := by
  cases hname : Name.ofReference? reference with
  | none =>
      simp only [resolve, hname] at h
      cases h
  | some name =>
      cases hentry : r.findQualified? name with
      | none =>
          simp only [resolve, hname, hentry] at h
          cases h
      | some entry =>
          simp only [resolve, hname, hentry] at h ⊢
          cases h
          exact ⟨_, rfl, rfl⟩

theorem exists_tokenOf_eq_token {l : Lexeme} {t : Token} {binding? : Option Binding}
    (h : r.tokenOf line l = .token t binding?) (line' : Nat) :
    ∃ binding?', r.tokenOf line' l = .token t binding?' := by
  cases l with
  | name name =>
      cases hresolve : r.resolve (Name.reference name) line with
      | error e =>
          simp only [tokenOf, hresolve] at h
          cases h
      | ok b =>
          simp only [tokenOf, hresolve] at h
          obtain ⟨b', hresolve', hentry⟩ := exists_resolve_eq_ok hresolve line'
          simp only [tokenOf, hresolve', hentry]
          cases h
          exact ⟨_, rfl⟩
  | _ =>
      cases h
      exact ⟨none, rfl⟩

/-- A text that is cut somewhere is cut everywhere. -/
theorem cuts_of_toExcept (h : (r.lexFrom line position cs).toExcept = .ok ts) : r.Cuts cs ts := by
  intro line' position'
  induction cs using Lexeme.front_induction generalizing position position' ts with
  | nil => exact h
  | nothing c cs hfront _ ih =>
      rw [lexFrom_of_nothing r _ _ hfront] at h ⊢
      exact ih h (position' + 1)
  | lexeme l slice behind _ hfront _ ih =>
      rw [lexFrom_of_lexeme r _ _ hfront, List.drop_left] at h ⊢
      cases htoken : r.tokenOf line l with
      | finished => exact absurd htoken (r.tokenOf_ne_finished line l)
      | failure e =>
          rw [htoken] at h
          nomatch h
      | token t binding? =>
          obtain ⟨binding?', htoken'⟩ := exists_tokenOf_eq_token htoken line'
          rw [htoken, Lexing.toExcept_cons_token] at h
          rw [htoken', Lexing.toExcept_cons_token]
          cases hbehind : (r.lexFrom line (position + slice.length) behind).toExcept with
          | error e =>
              rw [hbehind] at h
              nomatch h
          | ok us =>
              rw [hbehind] at h
              rw [ih hbehind]
              exact h
  | notNumeral run behind hfront _ _ =>
      rw [lexFrom_of_notNumeral r line position hfront] at h
      nomatch h
  | loneBang cs hfront _ =>
      rw [lexFrom_of_loneBang r line position hfront] at h
      nomatch h

theorem Cuts.isFlat (h : r.Cuts cs ts) : ∀ t ∈ ts, t.isGroup = false := by
  obtain ⟨_, hreached⟩ := r.exists_reaches 0 (Scan.ofChars cs).ending
    Scan.isName_of_mem
  rw [← (Lexing.toExcept_eq_ok_iff.mp (h 0 0)).2]
  exact hreached.isFlat

/-- A text without an open quote may stand in front of what begins apart. -/
theorem Cuts.append (h : r.Cuts cs ts) (heven : Even (cs.count '"'))
    (hrest : Lexeme.StartsApart rest) (h' : r.Cuts rest us) : r.Cuts (cs ++ rest) (ts ++ us) := by
  intro line position
  rw [lexFrom_append heven hrest]
  exact Lexing.toExcept_append (h line position) (h' line _)

theorem Cuts.cons {c : Char} {t : Token} (hc : t.IsMark c) (h : r.Cuts cs ts) :
    r.Cuts (c :: cs) (t :: ts) := by
  obtain ⟨l, hfront, htoken⟩ := hc.front
  intro line position
  rw [lexFrom_of_lexeme r line position (hfront cs), htoken, Lexing.toExcept_cons_token,
    List.drop_one, List.tail_cons, h]
  rfl

theorem Cuts.append_cons {c : Char} {t : Token} (h : r.Cuts cs ts) (heven : Even (cs.count '"'))
    (hc : t.IsMark c) (h' : r.Cuts rest us) : r.Cuts (cs ++ c :: rest) (ts ++ t :: us) := by
  have hapart : Lexeme.StartsApart (c :: rest) := by
    intro d hd
    cases hd
    exact hc.isBoundary
  exact h.append heven hapart (.cons hc h')

end Registry

end DisplayLogic
