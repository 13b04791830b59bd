import DisplayLogic.Proofs.Lexeme.Behind
import DisplayLogic.Proofs.Token.Shifting
import DisplayLogic.Proofs.Token.Slices

/-!
# Asking a lexer again and again

A lexer can be asked for the next token for ever, behind failures too. At any time it stands at a
place of its text and is the lexer for what is left, moved back to there. `Lexer.Call` says what one
call may answer there and where it leads: to the end of a piece, which lies further on, or to the
end of the scan, where it stays. The runs follow by induction on the number of calls.

`Lexer.Progress` collects what comes of it. The lexer advances until it settles, goes on behind a
failure as if the rest of the text stood alone, and lexing the whole text is asking until the first
answer without a token.
-/

namespace DisplayLogic

namespace Answer

/-- The token, if one was found, or the error. -/
def result : Answer → Except LexError (Option Token)
  | finished => .ok none
  | token t _ => .ok (some t)
  | failure e => .error e

/-- Whether the answer is the last one, at the end of the text or at a lone exclamation mark. -/
def isFinal : Answer → Bool
  | finished => true
  | failure (.fault (.loneBang _)) => true
  | _ => false

theorem isFinal_answer (ending : Ending) : ending.answer.isFinal = true := by
  cases ending <;> rfl

theorem binding?_of_isFinal {answer : Answer} (h : answer.isFinal = true) :
    answer.binding? = none := by
  cases answer with
  | token t binding? => cases h
  | _ => rfl

end Answer

/-- The run is what a text is at fault with, apart from lone exclamation marks, and nothing behind
it continues it. -/
inductive Registry.Offends (r : Registry) (line start : Nat) :
    List Char → List Char → LexError → Prop where
  | invalidNumber {run behind : List Char} (hrun : Lexeme.IsFaultyRun run behind) :
      r.Offends line start run behind (.fault (.invalidNumber run start))
  | unresolved {name behind : List Char} {e : ResolveError} (hname : Name.IsWhole name)
      (hbehind : ∀ c ∈ behind.head?, Name.isNameChar c = false)
      (hresolve : r.resolve (Name.reference name) line = .error e) :
      r.Offends line start name behind (.unresolved e)

namespace Registry

variable {r : Registry} {line : Nat} {text : List Char} {p : Piece}

theorem isFinal_tokenOf (r : Registry) (line : Nat) (l : Lexeme) :
    (r.tokenOf line l).isFinal = false := by
  cases l with
  | name name =>
      simp only [tokenOf]
      cases r.resolve (Name.reference name) line <;> rfl
  | _ => rfl

theorem isFinal_answerOf (r : Registry) (line : Nat) (p : Piece) :
    (r.answerOf line p).isFinal = false := by
  unfold answerOf
  cases p.reading with
  | lexeme l => exact r.isFinal_tokenOf line l
  | notNumeral run => rfl

/-- A piece that is not bound takes in the run that is at fault. -/
theorem offends_of_answerOf {e : LexError} (hp : p.StandsIn text)
    (h : r.answerOf line p = .failure e) :
    ∃ run behind, text.drop p.start = run ++ behind ∧ run.length = p.length ∧
      r.Offends line p.start run behind e := by
  obtain ⟨slice, behind, htext, hlength, -, hstands⟩ := hp
  refine ⟨slice, behind, htext, hlength, ?_⟩
  unfold answerOf at h
  cases hreading : p.reading with
  | notNumeral run =>
      simp only [hreading] at h hstands
      obtain ⟨rfl, hfaulty⟩ := hstands
      cases h
      exact .invalidNumber hfaulty
  | lexeme l =>
      simp only [hreading] at h hstands
      cases l with
      | name name =>
          cases hstands with
          | name hname hbehind =>
              cases hresolve : r.resolve (Name.reference slice) line with
              | ok b =>
                  simp only [tokenOf, hresolve] at h
                  cases h
              | error e' =>
                  simp only [tokenOf, hresolve] at h
                  cases h
                  exact .unresolved hname hbehind hresolve
      | _ => cases h

end Registry

theorem Piece.StandsIn.start_lt_stop {text : List Char} {p : Piece} (h : p.StandsIn text) :
    p.start < p.stop := by
  obtain ⟨slice, behind, -, hlength, hne, -⟩ := h
  rw [stop, ← hlength]
  exact Nat.lt_add_of_pos_right (List.length_pos_iff.mpr hne)

theorem Ending.StandsIn.position_le {text : List Char} {ending : Ending}
    (h : ending.StandsIn text) : ending.position ≤ text.length := by
  cases ending with
  | finished position => exact Nat.le_of_eq h
  | loneBang position =>
      obtain ⟨rest, hrest, -⟩ := h
      refine Nat.le_of_not_lt fun hlt => ?_
      have hnil : text.drop position = [] := List.drop_eq_nil_of_le (Nat.le_of_lt hlt)
      rw [hnil] at hrest
      cases hrest

namespace Lexer

/-- The lexer after so many calls. -/
def after : Nat → Lexer → Lexer
  | 0, l => l
  | n + 1, l => after n l.next.2

theorem after_add (m n : Nat) (l : Lexer) : l.after (m + n) = (l.after m).after n := by
  induction m generalizing l with
  | zero => rw [Nat.zero_add, after]
  | succ m ih => rw [Nat.succ_add, after, after, ih]

theorem after_succ (n : Nat) (l : Lexer) : l.after (n + 1) = (l.after n).next.2 := after_add n 1 l

theorem answers_add (m n : Nat) (l : Lexer) :
    l.answers (m + n) = l.answers m ++ (l.after m).answers n := by
  induction m generalizing l with
  | zero => rw [Nat.zero_add, answers, after, List.nil_append]
  | succ m ih => rw [Nat.succ_add, answers, answers, after, ih, List.cons_append]

/-- The lexer for a text with `n` more characters in front. -/
def shift (n : Nat) (l : Lexer) : Lexer :=
  { l with position := l.position + n, scan := l.scan.shift n }

theorem next_shift (n : Nat) (l : Lexer) :
    (l.shift n).next = (l.next.1.shift n, l.next.2.shift n) := by
  obtain ⟨registry, line, position, pieces, ending⟩ := l
  cases pieces with
  | nil => cases ending <;> rfl
  | cons p pieces =>
      have hstop : (p.shift n).stop = p.stop + n := Nat.add_right_comm ..
      simp only [shift, Scan.shift, next, List.map_cons, Registry.answerOf_shift, hstop]

theorem answers_shift (n k : Nat) (l : Lexer) :
    (l.shift n).answers k = (l.answers k).map (Answer.shift n) := by
  induction k generalizing l with
  | zero => rfl
  | succ k ih => rw [answers, answers, next_shift, ih, List.map_cons]

/-! ### One call -/

/-- The lexer that has come to a place of a text. -/
def atPlace (r : Registry) (text : List Char) (line place : Nat) : Lexer :=
  ⟨r, line, place, .ofCharsFrom place 0 (text.drop place)⟩

/-- What a call may answer at a place of a text, and the place that it leads to. -/
inductive Call (r : Registry) (text : List Char) (line place : Nat) : Answer → Nat → Prop where
  | ending {ending : Ending} (hplace : place ≤ ending.position)
      (hending : ending.StandsIn text) : Call r text line place ending.answer ending.position
  | piece {p : Piece} (hplace : place ≤ p.start) (hp : p.StandsIn text)
      (hstop : p.stop ≤ text.length) :
      Call r text line place (r.answerOf line p) p.stop

variable {r : Registry} {text : List Char} {line place place' : Nat} {answer : Answer}

theorem Call.of_succ (h : Call r text line (place + 1) answer place') :
    Call r text line place answer place' := by
  cases h with
  | ending hplace hending => exact .ending (Nat.le_of_succ_le hplace) hending
  | piece hplace hp hstop => exact .piece (Nat.le_of_succ_le hplace) hp hstop

theorem atPlace_eq_shift (r : Registry) (text : List Char) (line place : Nat) :
    atPlace r text line place = (ofText r (.ofList (text.drop place)) line).shift place := by
  rw [atPlace, ofText, shift, Scan.ofChars, String.toList_ofList, ← Scan.ofCharsFrom_add,
    Nat.zero_add]

/-- The end of the scan is where the lexer remains. -/
theorem next_of_standsIn {ending : Ending} (h : ending.StandsIn text) :
    (atPlace r text line ending.position).next =
      (ending.answer, atPlace r text line ending.position) := by
  have hscan : Scan.ofCharsFrom ending.position 0 (text.drop ending.position) = ⟨[], ending⟩ := by
    cases ending with
    | finished position =>
        have hend : text.drop position = [] := by
          rw [show position = text.length from h, List.drop_length]
        rw [Ending.position, hend]
        rfl
    | loneBang position =>
        obtain ⟨rest, hrest, hhead⟩ := h
        rw [Ending.position, hrest]
        exact Scan.ofCharsFrom_of_loneBang (Lexeme.front_of_head_ne hhead)
  rw [atPlace, hscan]
  rfl

theorem next_of_piece {p : Piece}
    (hscan : Scan.ofCharsFrom place 0 (text.drop place) =
      (Scan.ofCharsFrom p.stop 0 (text.drop p.stop)).cons p) :
    (atPlace r text line place).next = (r.answerOf line p, atPlace r text line p.stop) := by
  rw [atPlace, hscan]
  rfl

/-- A call leads from one place of the text to another. -/
theorem exists_call (r : Registry) (line : Nat) {cs : List Char} (hplace : place ≤ text.length)
    (hcs : text.drop place = cs) :
    ∃ answer place', (atPlace r text line place).next = (answer, atPlace r text line place') ∧
      Call r text line place answer place' := by
  induction cs using Lexeme.front_induction generalizing place with
  | nil =>
      have hending : (Ending.finished place).StandsIn text :=
        Nat.le_antisymm hplace (List.drop_eq_nil_iff.mp hcs)
      exact ⟨_, _, next_of_standsIn hending, .ending (Nat.le_refl _) hending⟩
  | nothing c rest hfront _ ih =>
      have hlt : place < text.length := by
        rw [← List.drop_eq_nil_iff.not.trans Nat.not_le, hcs]
        exact List.cons_ne_nil c rest
      have hrest : text.drop (place + 1) = rest := by
        rw [← List.tail_drop, hcs, List.tail_cons]
      obtain ⟨answer, place', hnext, hcall⟩ := ih hlt hrest
      have hsame : (atPlace r text line place).next = (atPlace r text line (place + 1)).next := by
        rw [atPlace, atPlace, hcs, hrest, Scan.ofCharsFrom_of_nothing hfront]
        rfl
      exact ⟨answer, place', hsame.trans hnext, hcall.of_succ⟩
  | lexeme l slice behind hne hfront hoccupies _ =>
      let p : Piece := ⟨place, slice.length, .lexeme l⟩
      have hp : p.StandsIn text := ⟨slice, behind, hcs, rfl, hne, hoccupies⟩
      obtain ⟨hstop, hbehind⟩ := Scan.drop_append hplace hcs
      refine ⟨_, _, next_of_piece (p := p) ?_, .piece (Nat.le_refl _) hp hstop⟩
      rw [hcs, Scan.ofCharsFrom_of_lexeme hfront, List.drop_left, Piece.stop, hbehind]
  | notNumeral run behind hfront hfaulty _ =>
      let p : Piece := ⟨place, run.length, .notNumeral run⟩
      have hp : p.StandsIn text := ⟨run, behind, hcs, rfl, hfaulty.ne_nil, rfl, hfaulty⟩
      obtain ⟨hstop, hbehind⟩ := Scan.drop_append hplace hcs
      refine ⟨_, _, next_of_piece (p := p) ?_, .piece (Nat.le_refl _) hp hstop⟩
      rw [hcs, Scan.ofCharsFrom_of_notNumeral hfront, List.drop_left, Piece.stop, hbehind]
  | loneBang rest _ hrest =>
      have hending : (Ending.loneBang place).StandsIn text := ⟨rest, hcs, hrest⟩
      exact ⟨_, _, next_of_standsIn hending, .ending (Nat.le_refl _) hending⟩

theorem Call.bounds (h : Call r text line place answer place') :
    place ≤ place' ∧ place' ≤ text.length := by
  cases h with
  | ending hplace hending => exact ⟨hplace, hending.position_le⟩
  | piece hplace _ hstop => exact ⟨Nat.le_trans hplace (Nat.le_add_right ..), hstop⟩

/-- An answer that is not the last one takes in a piece of the text. -/
theorem Call.lt (h : Call r text line place answer place') (hanswer : answer.isFinal = false) :
    place < place' := by
  cases h with
  | ending _ _ =>
      rw [Answer.isFinal_answer] at hanswer
      cases hanswer
  | piece hplace hp _ => exact Nat.lt_of_le_of_lt hplace hp.start_lt_stop

/-- Behind an answer that is the last one the lexer stays where it is. -/
theorem Call.next_of_isFinal (h : Call r text line place answer place')
    (hanswer : answer.isFinal = true) :
    (atPlace r text line place').next = (answer, atPlace r text line place') := by
  cases h with
  | ending _ hending => exact next_of_standsIn hending
  | piece _ _ _ =>
      rw [r.isFinal_answerOf] at hanswer
      cases hanswer

/-- An error other than the last answer is that of a run in front of the place that the lexer goes
on at. -/
theorem Call.exists_offends {e : LexError} (h : Call r text line place (.failure e) place')
    (he : (Answer.failure e).isFinal = false) :
    ∃ start run behind, text.drop start = run ++ behind ∧ r.Offends line start run behind e ∧
      place ≤ start ∧ place' = start + run.length ∧ text.drop place' = behind := by
  generalize hanswer : Answer.failure e = answer at h he
  cases h with
  | ending _ _ =>
      rw [Answer.isFinal_answer] at he
      cases he
  | @piece p hplace hp hstop =>
      obtain ⟨run, behind, hdrop, hlength, hoffends⟩ := Registry.offends_of_answerOf hp hanswer.symm
      have hstop' : p.stop = p.start + run.length := by rw [Piece.stop, hlength]
      have hstart := Nat.le_trans (Nat.le_of_lt hp.start_lt_stop) hstop
      refine ⟨p.start, run, behind, hdrop, hoffends, hplace, hstop', ?_⟩
      rw [hstop']
      exact (Scan.drop_append hstart hdrop).2

/-! ### Many calls -/

/-- After any number of calls the lexer is at some place of the text. -/
theorem exists_after_eq (r : Registry) (line n : Nat) (hplace : place ≤ text.length) :
    ∃ place', place' ≤ text.length ∧
      (atPlace r text line place).after n = atPlace r text line place' := by
  induction n generalizing place with
  | zero => exact ⟨place, hplace, rfl⟩
  | succ n ih =>
      obtain ⟨answer, place', hnext, hcall⟩ := exists_call r line hplace rfl
      rw [after, hnext]
      exact ih hcall.bounds.2

/-- Whatever has been answered, the next call is made at a place of the text. -/
theorem exists_call_after (r : Registry) (text : String) (line k : Nat) :
    ∃ place answer place',
      (ofText r text line).after k = atPlace r text.toList line place ∧
        (atPlace r text.toList line place).next = (answer, atPlace r text.toList line place') ∧
          Call r text.toList line place answer place' := by
  obtain ⟨place, hplace, hafter⟩ := exists_after_eq r line k (Nat.zero_le text.toList.length)
  obtain ⟨answer, place', hnext, hcall⟩ := exists_call r line hplace rfl
  exact ⟨place, answer, place', hafter, hnext, hcall⟩

/-- There are no more answers that take in something than characters ahead. -/
theorem countP_answers_le (r : Registry) (line n : Nat) (hplace : place ≤ text.length) :
    place + ((atPlace r text line place).answers n).countP (!·.isFinal) ≤ text.length := by
  induction n generalizing place with
  | zero => exact hplace
  | succ n ih =>
      obtain ⟨answer, place', hnext, hcall⟩ := exists_call r line hplace rfl
      obtain ⟨hle, hle'⟩ := hcall.bounds
      have hrest := ih hle'
      rw [answers, hnext, List.countP_cons]
      cases hanswer : answer.isFinal with
      | true =>
          simp only [Bool.not_true, Bool.false_eq_true, if_false]
          omega
      | false =>
          have hlt := hcall.lt hanswer
          simp only [Bool.not_false, if_true]
          omega

/-- A lexer that stays where it is gives the same answer for ever. -/
theorem answers_of_next_eq {l : Lexer} (h : l.next = (answer, l)) (n : Nat) :
    l.answers n = List.replicate n answer := by
  induction n with
  | zero => rfl
  | succ n ih => rw [answers, h, ih, List.replicate_succ]

/-- The last answer is given for ever. -/
theorem Call.answers_of_isFinal (h : Call r text line place answer place')
    (hnext : (atPlace r text line place).next = (answer, atPlace r text line place'))
    (hanswer : answer.isFinal = true) (n : Nat) :
    (atPlace r text line place).answers n = List.replicate n answer := by
  cases n with
  | zero => rfl
  | succ n =>
      rw [answers, hnext, answers_of_next_eq (h.next_of_isFinal hanswer), List.replicate_succ]

/-! ### The whole text -/

/-- The tokens and bindings of all that is left. -/
def lexing (l : Lexer) : Lexing := .ofScan l.registry l.line l.scan

/-- Lexing what is left is asking once and lexing what is left then, unless there was no token. -/
theorem lexing_eq_cons (l : Lexer) : l.lexing = .cons l.next.1 l.next.2.lexing := by
  obtain ⟨registry, line, position, pieces, ending⟩ := l
  cases pieces with
  | nil => cases ending <;> rfl
  | cons p pieces => rfl

/-- The answer that stops the lexing. -/
def closing (failure? : Option LexError) : Except LexError (Option Token) :=
  match failure? with
  | none => .ok none
  | some e => .error e

/-- The answers are some tokens and one that stops the lexing just where the lexing finds these
tokens and stops with that. -/
theorem map_result_answers_iff (l : Lexer) (ts : List Token) (failure? : Option LexError) :
    (l.answers (ts.length + 1)).map Answer.result =
        ts.map (fun t => .ok (some t)) ++ [closing failure?] ↔
      l.lexing.tokens = ts ∧ l.lexing.failure? = failure? := by
  induction ts generalizing l with
  | nil =>
      rw [lexing_eq_cons, List.length_nil, Nat.zero_add, answers, answers]
      cases l.next.1 with
      | finished => cases failure? <;> simp [Answer.result, closing, Lexing.cons]
      | token t binding? => cases failure? <;> simp [Answer.result, closing, Lexing.cons]
      | failure e => cases failure? <;> simp [Answer.result, closing, Lexing.cons]
  | cons t ts ih =>
      rw [lexing_eq_cons, List.length_cons, answers, List.map_cons, List.map_cons,
        List.cons_append, List.cons.injEq, ih]
      cases l.next.1 with
      | finished => simp [Answer.result, Lexing.cons]
      | token t' binding? => simp [Answer.result, Lexing.cons, and_assoc]
      | failure e => simp [Answer.result, Lexing.cons]

/-- What becomes of a lexer for a text that is asked for any number of tokens. -/
structure Progress (text : String) (l : Lexer) : Prop where
  /-- The lexer never goes back. -/
  position_le_succ : ∀ k, (l.after k).position ≤ (l.after (k + 1)).position
  /-- The lexer never leaves the text. -/
  position_le_length : ∀ k, (l.after k).position ≤ text.length
  /-- Tokens, wrong numbers and names that are not resolved are passed. -/
  advances : ∀ k, (l.after k).next.1.isFinal = false →
    (l.after k).position < (l.after (k + 1)).position
  /-- There are no more of them than characters. -/
  countP_le_length : ∀ k, (l.answers k).countP (!·.isFinal) ≤ text.length
  /-- The end of the text and a lone exclamation mark are answered for ever, and no further group is
  switched on. -/
  settles : ∀ k, (l.after k).next.1.isFinal = true →
    ∀ n, l.answers (k + n) = l.answers k ++ List.replicate n (l.after k).next.1 ∧
      ∀ before : Groups, before.bindAll ((l.answers (k + n)).filterMap Answer.binding?) =
        before.bindAll ((l.answers k).filterMap Answer.binding?)
  /-- Behind a run that is at fault the rest of the text is answered as if it stood alone. -/
  resumes : ∀ k e, (l.after k).next.1 = .failure e → (l.after k).next.1.isFinal = false →
    ∃ start run behind, text.toList.drop start = run ++ behind ∧
      l.registry.Offends l.line start run behind e ∧
      (l.after k).position ≤ start ∧ (l.after (k + 1)).position = start + run.length ∧
      ∀ n, l.answers (k + 1 + n) = l.answers (k + 1) ++
        ((ofText l.registry (.ofList behind) l.line).answers n).map
          (Answer.shift (start + run.length))
  /-- Lexing the text succeeds with the tokens that are answered up to its end. -/
  toExcept_eq_ok_iff : ∀ ts, (l.registry.lex text l.line).toExcept = .ok ts ↔
    (l.answers (ts.length + 1)).map Answer.result =
      ts.map (fun t => .ok (some t)) ++ [.ok none]
  /-- Lexing the text fails with the first error that is answered. -/
  toExcept_eq_error_iff : ∀ e, (l.registry.lex text l.line).toExcept = .error e ↔
    ∃ ts : List Token, (l.answers (ts.length + 1)).map Answer.result =
      ts.map (fun t => .ok (some t)) ++ [.error e]

/-- A lexer for a text makes progress until it settles. -/
theorem progress_ofText (r : Registry) (text : String) (line : Nat) :
    (ofText r text line).Progress text where
  position_le_succ := by
    intro k
    obtain ⟨place, answer, place', hafter, hnext, hcall⟩ := exists_call_after r text line k
    rw [after_succ, hafter, hnext]
    exact hcall.bounds.1
  position_le_length := by
    intro k
    obtain ⟨place, hplace, hafter⟩ := exists_after_eq r line k (Nat.zero_le text.toList.length)
    have hstart : ofText r text line = atPlace r text.toList line 0 := rfl
    rw [hstart, hafter, ← String.length_toList]
    exact hplace
  advances := by
    intro k hanswer
    obtain ⟨place, answer, place', hafter, hnext, hcall⟩ := exists_call_after r text line k
    rw [hafter, hnext] at hanswer
    rw [after_succ, hafter, hnext]
    exact hcall.lt hanswer
  countP_le_length := by
    intro k
    have hcount := countP_answers_le r line k (Nat.zero_le text.toList.length)
    rwa [Nat.zero_add, String.length_toList] at hcount
  settles := by
    intro k hanswer n
    obtain ⟨place, answer, place', hafter, hnext, hcall⟩ := exists_call_after r text line k
    rw [hafter, hnext] at hanswer ⊢
    have hbindings : (List.replicate n answer).filterMap Answer.binding? = [] := by
      rw [List.filterMap_eq_nil_iff]
      intro a ha
      rw [List.eq_of_mem_replicate ha]
      exact Answer.binding?_of_isFinal hanswer
    rw [answers_add, hafter, hcall.answers_of_isFinal hnext hanswer n]
    refine ⟨rfl, fun before => ?_⟩
    rw [List.filterMap_append, hbindings, List.append_nil]
  resumes := by
    intro k e hfailure hanswer
    obtain ⟨place, answer, place', hafter, hnext, hcall⟩ := exists_call_after r text line k
    rw [hafter, hnext] at hfailure hanswer
    cases hfailure
    obtain ⟨start, run, behind, hdrop, hoffends, hplace, hplace', hbehind⟩ :=
      hcall.exists_offends hanswer
    refine ⟨start, run, behind, hdrop, hoffends, ?_, ?_, fun n => ?_⟩
    · rw [hafter]
      exact hplace
    · rw [after_succ, hafter, hnext]
      exact hplace'
    · rw [answers_add, after_succ, hafter, hnext, atPlace_eq_shift, answers_shift, hbehind, hplace']
      rfl
  toExcept_eq_ok_iff := by
    intro ts
    have hlex : (ofText r text line).lexing = r.lex text line := rfl
    have hanswers := map_result_answers_iff (ofText r text line) ts none
    rw [hlex] at hanswers
    exact Lexing.toExcept_eq_ok_iff.trans (and_comm.trans hanswers.symm)
  toExcept_eq_error_iff := by
    intro e
    have hlex : (ofText r text line).lexing = r.lex text line := rfl
    have hanswers (ts : List Token) := map_result_answers_iff (ofText r text line) ts (some e)
    rw [hlex] at hanswers
    refine Lexing.toExcept_eq_error_iff.trans ⟨fun h => ?_, fun ⟨ts, h⟩ => ?_⟩
    · exact ⟨_, (hanswers _).mpr ⟨rfl, h⟩⟩
    · exact ((hanswers ts).mp h).2

theorem progress_of_faulty_number :
    let l := ofText .empty "1..2|!" 1
    let number := Answer.failure (.fault (.invalidNumber ['1', '.', '.', '2'] 0))
    let bang := Answer.failure (.fault (.loneBang 5))
    l.Progress "1..2|!" ∧ (l.after 1).position = 4 ∧
      l.answers 52 = [number, .token .or none] ++ List.replicate 50 bang := by
  intro l number bang
  have hprogress := progress_ofText .empty "1..2|!" 1
  exact ⟨hprogress, rfl, (hprogress.settles 2 rfl 50).1⟩

end Lexer

end DisplayLogic
