import DisplayLogic.Proofs.Lexeme.Behind
import DisplayLogic.Proofs.Token.Joining
import DisplayLogic.Proofs.Token.Shifting

/-!
# Separated texts

Two texts between which a character is passed over are lexed independently: first the one, with its
tokens or its first failure, and then the other, with its faults further back. The only way to reach
over the gap is an open quote, which an even number of quotes in the first text excludes.

What is passed over may also be inserted between two pieces of a text that is already there. A place
is a boundary of a scan if no piece takes in characters on both sides of it and no quote in front of
it is left open. At a boundary a text may be taken apart, even though its second half need not begin
with a boundary character, and its first half then stays what it was with anything behind it that
keeps it apart.
-/

namespace DisplayLogic

/-- Whether the piece is a quoted text without a closing quote. -/
def Piece.isOpenText (p : Piece) : Bool :=
  match p.reading with
  | .lexeme l => l.isOpenText p.length
  | .notNumeral _ => false

/-- No piece takes in characters on both sides of the place, and no quote in front of it is open. -/
def Scan.IsBoundary (s : Scan) (place : Nat) : Prop :=
  ∀ p ∈ s.pieces, place ≤ p.start ∨ p.stop ≤ place ∧ p.isOpenText = false

namespace Lexeme

theorem startsApart_append {gap rest : List Char} (hne : gap ≠ [])
    (hgap : ∀ c ∈ gap, IsSkipped c) : StartsApart (gap ++ rest) := by
  obtain ⟨c, gap, rfl⟩ := List.exists_cons_of_ne_nil hne
  intro d hd
  cases hd
  exact (hgap c List.mem_cons_self).isBoundary

end Lexeme

namespace Scan

variable {place position : Nat} {p : Piece} {s : Scan} {slice : List Char}

theorem IsBoundary.of_cons (h : (s.cons p).IsBoundary place) : s.IsBoundary place :=
  fun q hq => h q (List.mem_cons_of_mem _ hq)

/-- A piece that begins in front of a boundary takes in characters in front of it only. -/
theorem IsBoundary.exists_append {tail cs behind : List Char} {reading : Reading}
    (h : (s.cons ⟨position, slice.length, reading⟩).IsBoundary (position + cs.length))
    (hcs : cs ≠ []) (hwhole : slice ++ tail = cs ++ behind) :
    ∃ rest, cs = slice ++ rest ∧ tail = rest ++ behind ∧
      (⟨position, slice.length, reading⟩ : Piece).isOpenText = false := by
  have hlt : position < position + cs.length :=
    Nat.lt_add_of_pos_right (List.length_pos_iff.mpr hcs)
  obtain ⟨hstop, hopen⟩ := (h _ List.mem_cons_self).resolve_left (Nat.not_le.mpr hlt)
  obtain ⟨rest, rfl⟩ : slice <+: cs :=
    List.prefix_of_prefix_length_le ⟨tail, hwhole⟩ (List.prefix_append cs behind)
      (Nat.le_of_add_le_add_left hstop)
  rw [List.append_assoc, List.append_cancel_left_eq] at hwhole
  exact ⟨rest, rfl, hwhole, hopen⟩

end Scan

theorem LexError.shift_shift (m n : Nat) (e : LexError) :
    (e.shift m).shift n = e.shift (m + n) := by
  cases e with
  | fault f => cases f <;> simp only [shift, LexFault.shift, Nat.add_assoc]
  | unresolved e => rfl

namespace Lexing

theorem toExcept_shift (n : Nat) (l : Lexing) :
    (l.shift n).toExcept = l.toExcept.mapError (LexError.shift n) := by
  obtain ⟨tokens, bindings, failure?⟩ := l
  cases failure? <;> rfl

/-- Nothing counts behind a failure. -/
theorem append_of_error {l : Lexing} {e : LexError} (h : l.toExcept = .error e) (l' : Lexing) :
    l.append l' = l := by
  rw [append, toExcept_eq_error_iff.mp h]

theorem append_of_ok {l : Lexing} {ts : List Token} (h : l.toExcept = .ok ts) (l' : Lexing) :
    l.append l' = ⟨ts ++ l'.tokens, l.bindings ++ l'.bindings, l'.failure?⟩ := by
  obtain ⟨hfailure, rfl⟩ := toExcept_eq_ok_iff.mp h
  rw [append, hfailure]

theorem toExcept_append_of_ok {l : Lexing} {ts : List Token} (h : l.toExcept = .ok ts)
    (l' : Lexing) : (l.append l').toExcept = l'.toExcept.map (ts ++ ·) := by
  obtain ⟨tokens, bindings, failure?⟩ := l'
  rw [append_of_ok h]
  cases failure? <;> rfl

/-- Another text behind changes neither tokens nor bindings by standing further back, and its own
faults only. -/
theorem append_shift_add (m n : Nat) (l l' : Lexing) :
    l.append (l'.shift (m + n)) =
      { l.append (l'.shift m) with
        failure? :=
          match l.failure? with
          | some e => some e
          | none => (l.append (l'.shift m)).failure?.map (LexError.shift n) } := by
  obtain ⟨tokens, bindings, failure?⟩ := l
  obtain ⟨tokens', bindings', failure?'⟩ := l'
  cases failure? with
  | some e => rfl
  | none =>
      cases failure?' with
      | none => rfl
      | some e => simp only [append, shift, Option.map_some, LexError.shift_shift]

end Lexing

namespace Registry

variable {r : Registry} {line position : Nat} {cs behind rest : List Char}

/-- A text may be taken apart at a boundary. Its first half is lexed in the same way with any text
behind it that may replace the second. -/
theorem lexFrom_append_of_isBoundary
    (hplace : (Scan.ofCharsFrom position 0 (cs ++ behind)).IsBoundary (position + cs.length))
    (hrest : Lexeme.MayReplace rest behind) :
    r.lexFrom line position (cs ++ rest) =
      (r.lexFrom line position cs).append (r.lexFrom line (position + cs.length) rest) := by
  -- The whole text is walked through from front to front, for as long as these lie in `cs`.
  induction hwhole : cs ++ behind using Lexeme.front_induction generalizing cs position with
  | nil =>
      obtain ⟨rfl, -⟩ := List.append_eq_nil_iff.mp hwhole
      rfl
  | nothing c tail hfront hmeaning ih =>
      cases cs with
      | nil => rfl
      | cons d cs =>
          rw [List.cons_append, List.cons.injEq] at hwhole
          obtain ⟨rfl, rfl⟩ := hwhole
          have hskipped := Lexeme.isSkipped_iff.mpr hmeaning
          have hposition : position + (d :: cs).length = position + 1 + cs.length := by
            rw [List.length_cons, Nat.add_comm cs.length, Nat.add_assoc]
          rw [List.cons_append, Scan.ofCharsFrom_of_nothing hfront, hposition] at hplace
          rw [List.cons_append, lexFrom_of_nothing r line position (hskipped _),
            lexFrom_of_nothing r line position (hskipped _), ih hplace rfl, hposition]
  | lexeme l slice tail hne hfront hoccupies ih =>
      by_cases hcs : cs = []
      · subst hcs
        rfl
      · rw [hwhole, Scan.ofCharsFrom_of_lexeme hfront, List.drop_left] at hplace
        obtain ⟨cs, rfl, rfl, hopen⟩ := hplace.exists_append hcs hwhole.symm
        have hsame {tail : List Char} (h : Lexeme.MayReplace tail (cs ++ behind)) :
            Lexeme.front (slice ++ tail) = .lexeme l slice.length :=
          Lexeme.front_of_occupies (hoccupies.replace hopen h)
        have hposition : position + (slice ++ cs).length =
            position + slice.length + cs.length := by
          rw [List.length_append, Nat.add_assoc]
        rw [hposition] at hplace
        rw [List.append_assoc, lexFrom_of_lexeme r line position (hsame (hrest.append cs)),
          lexFrom_of_lexeme r line position (hsame (Lexeme.mayReplace_append cs behind)),
          List.drop_left, List.drop_left, ih hplace.of_cons rfl, hposition,
          Lexing.cons_append (r.tokenOf_ne_finished line l)]
  | notNumeral run tail hfront hfaulty _ =>
      by_cases hcs : cs = []
      · subst hcs
        rfl
      · rw [hwhole, Scan.ofCharsFrom_of_notNumeral hfront] at hplace
        obtain ⟨cs, rfl, rfl, -⟩ := hplace.exists_append hcs hwhole.symm
        have hsame {tail : List Char} (h : Lexeme.MayReplace tail (cs ++ behind)) :
            Lexeme.front (run ++ tail) = .notNumeral run :=
          Lexeme.front_of_isFaultyRun (hfaulty.replace h)
        rw [List.append_assoc, lexFrom_of_notNumeral r line position (hsame (hrest.append cs)),
          lexFrom_of_notNumeral r line position (hsame (Lexeme.mayReplace_append cs behind))]
        rfl
  | loneBang tail _ htail =>
      cases cs with
      | nil => rfl
      | cons d cs =>
          rw [List.cons_append, List.cons.injEq] at hwhole
          obtain ⟨rfl, rfl⟩ := hwhole
          have hsame {tail : List Char} (h : Lexeme.MayReplace tail (cs ++ behind)) :
              Lexeme.front ('!' :: tail) = .loneBang := Lexeme.front_of_head_ne (h.head?_ne htail)
          rw [List.cons_append, lexFrom_of_loneBang r line position (hsame (hrest.append cs)),
            lexFrom_of_loneBang r line position (hsame (Lexeme.mayReplace_append cs behind))]
          rfl

/-- What is passed over in front of a text moves it back. -/
theorem lexFrom_skipped {gap : List Char} (hgap : ∀ c ∈ gap, Lexeme.IsSkipped c)
    (cs : List Char) :
    r.lexFrom line position (gap ++ cs) = r.lexFrom line (position + gap.length) cs := by
  induction gap generalizing position with
  | nil => rfl
  | cons c gap ih =>
      obtain ⟨hc, hgap⟩ := List.forall_mem_cons.mp hgap
      rw [List.cons_append, lexFrom_of_nothing r line position (hc _), ih hgap, List.length_cons,
        Nat.add_comm gap.length, Nat.add_assoc]

/-- A text behind a gap is lexed as if it stood alone, with its faults further back. -/
theorem lexFrom_gap {s gap t : String} (hgap : ∀ c ∈ gap.toList, Lexeme.IsSkipped c) :
    r.lexFrom line s.toList.length (gap.toList ++ t.toList) =
      (r.lex t line).shift (s.length + gap.length) := by
  rw [lexFrom_skipped hgap, String.length_toList, String.length_toList, lex_eq_lexFrom,
    ← lexFrom_add, Nat.zero_add]

/-- Two texts with a gap between them are lexed one after the other, unless there is a quote open in
the first. -/
theorem lex_append_gap {s gap : String} (heven : Even (s.toList.count '"')) (hne : gap ≠ "")
    (hgap : ∀ c ∈ gap.toList, Lexeme.IsSkipped c) (t : String) :
    r.lex (s ++ gap ++ t) line =
      (r.lex s line).append ((r.lex t line).shift (s.length + gap.length)) := by
  have hne : gap.toList ≠ [] := fun h => hne (String.toList_eq_nil_iff.mp h)
  rw [lex_eq_lexFrom, String.toList_append, String.toList_append, List.append_assoc,
    lexFrom_append heven (Lexeme.startsApart_append hne hgap), Nat.zero_add, lexFrom_gap hgap,
    ← lex_eq_lexFrom]

/-- At a boundary a text may be taken apart by a gap. -/
theorem lex_insert_gap (r : Registry) (line : Nat) {s t : String} (gap : String)
    (hplace : (Scan.ofChars (s ++ t).toList).IsBoundary s.length)
    (hgap : ∀ c ∈ gap.toList, Lexeme.IsSkipped c) :
    r.lex (s ++ gap ++ t) line =
      (r.lex s line).append ((r.lex t line).shift (s.length + gap.length)) := by
  have hrest : Lexeme.MayReplace (gap.toList ++ t.toList) t.toList := by
    by_cases hne : gap.toList = []
    · rw [hne]
      exact .refl _
    · exact (Lexeme.startsApart_append hne hgap).mayReplace _
  rw [← String.length_toList, String.toList_append, ← Nat.zero_add s.toList.length] at hplace
  rw [lex_eq_lexFrom, String.toList_append, String.toList_append, List.append_assoc,
    lexFrom_append_of_isBoundary hplace hrest, Nat.zero_add, lexFrom_gap hgap, ← lex_eq_lexFrom]

/-- Separated texts are lexed independently, and at a boundary outside an open quote any gap may be
inserted. -/
theorem lex_separated (r : Registry) (line : Nat) :
    (∀ (s t : String) (c : Char) (before : Groups), Even (s.toList.count '"') →
      Lexeme.IsSkipped c →
        let first := r.lex s line
        let second := r.lex t line
        let whole := r.lex (s ++ String.singleton c ++ t) line
        match first.toExcept with
        | .error e =>
          whole.toExcept = .error e ∧
            before.bindAll whole.bindings = before.bindAll first.bindings
        | .ok tokens =>
          whole.toExcept =
              (second.toExcept.map (tokens ++ ·)).mapError (LexError.shift (s.length + 1)) ∧
            before.bindAll whole.bindings =
              (before.bindAll first.bindings).bindAll second.bindings) ∧
    ∀ s gap t : String, (Scan.ofChars (s ++ t).toList).IsBoundary s.length →
      (∀ c ∈ gap.toList, Lexeme.IsSkipped c) →
        let whole := r.lex (s ++ t) line
        let parted := r.lex (s ++ gap ++ t) line
        parted.tokens = whole.tokens ∧ parted.bindings = whole.bindings ∧
          parted.failure? =
            match (r.lex s line).failure? with
            | some e => some e
            | none => whole.failure?.map (LexError.shift gap.length) := by
  constructor
  · intro s t c before heven hc first second whole
    have hgap : ∀ d ∈ (String.singleton c).toList, Lexeme.IsSkipped d := by simpa using hc
    have hwhole : whole = first.append (second.shift (s.length + 1)) := by
      rw [← String.length_singleton (c := c)]
      exact lex_append_gap heven String.singleton_ne_empty hgap t
    clear_value whole first second
    subst hwhole
    cases hfirst : first.toExcept with
    | error e =>
        rw [Lexing.append_of_error hfirst]
        exact ⟨hfirst, rfl⟩
    | ok tokens =>
        refine ⟨?_, ?_⟩
        · rw [Lexing.toExcept_append_of_ok hfirst, Lexing.toExcept_shift]
          cases second.toExcept <;> rfl
        · rw [Lexing.append_of_ok hfirst, Groups.bindAll_append]
          rfl
  · intro s gap t hplace hgap whole parted
    have hwhole : whole = (r.lex s line).append ((r.lex t line).shift s.length) := by
      have hempty := r.lex_insert_gap line "" hplace (by simp)
      rwa [String.append_empty, String.length_empty] at hempty
    have hparted : parted = _ := r.lex_insert_gap line gap hplace hgap
    rw [Lexing.append_shift_add, ← hwhole] at hparted
    clear_value parted
    subst hparted
    exact ⟨rfl, rfl, rfl⟩

theorem lex_separated_of_faulty_number :
    let zero : Source := .constant (.number .zero)
    let r : Registry := Registry.empty.register "b" ⟨zero, ["world"]⟩
    let l := r.lex "b<\"x!\"#1.2.3" 1
    l.toExcept = .error (.fault (.invalidNumber ['1', '.', '2', '.', '3'] 7)) ∧
      (Groups.empty.bindAll l.bindings).names = ["world"] ∧
        (r.lex "b<# \"x" 1).tokens = [.source zero, .relation .less, .text "x"] := by
  intro zero r l
  obtain ⟨hseparated, hinsert⟩ := lex_separated r 1
  have hfirst : (r.lex "b<\"x!\"" 1).toExcept = .ok [.source zero, .relation .less, .text "x!"] :=
    rfl
  have hboundary : (Scan.ofChars ("b<" ++ "\"x").toList).IsBoundary "b<".length := by
    unfold Scan.IsBoundary
    decide
  have hskipped : ∀ c ∈ "# ".toList, Lexeme.IsSkipped c := by
    intro c hc
    obtain rfl | rfl : c = '#' ∨ c = ' ' := by simpa using hc
    · exact Lexeme.isSkipped_iff.mpr rfl
    · exact Lexeme.isSkipped_iff.mpr rfl
  have hl := hseparated "b<\"x!\"" "1.2.3" '#' .empty (by decide) (Lexeme.isSkipped_iff.mpr rfl)
  simp only [hfirst] at hl
  exact ⟨hl.1, congrArg Groups.names hl.2, (hinsert "b<" "# " "\"x" hboundary hskipped).1⟩

end Registry

end DisplayLogic
