import DisplayLogic.Proofs.Lexeme.Extent

/-!
# Every character is accounted for

A scan cuts a text into pieces. `Piece.Account` says what it means that pieces account for a stretch
of the text: they follow one another without overlapping, each takes in the characters that its
reading calls for, and the characters between them are without meaning. The pieces of a scan account
for the text up to where the scan ends.

`Registry.Denotes` says which token a lexeme stands for, so that the characters of a piece settle
its token. Binding the pieces to a registry gives the token of each, up to the end of the text or to
the first piece that is at fault. The main statement puts the two together. No character of a text
is lost or read twice, and lexing fails only where the text goes wrong for the first time.
-/

namespace DisplayLogic

/-- The piece takes in just the characters that its reading calls for. -/
def Piece.StandsIn (text : List Char) (p : Piece) : Prop :=
  ∃ slice behind, text.drop p.start = slice ++ behind ∧ slice.length = p.length ∧ slice ≠ [] ∧
    match p.reading with
    | .lexeme l => l.Occupies slice behind
    | .notNumeral run => run = slice ∧ Lexeme.IsFaultyRun slice behind

/-- The pieces account for the characters of a text from the place `first` up to `last`. -/
structure Piece.Account (text : List Char) (first last : Nat) (pieces : List Piece) : Prop where
  standsIn : ∀ p ∈ pieces, p.StandsIn text
  bounds : ∀ p ∈ pieces, first ≤ p.start ∧ p.stop ≤ last
  ordered : pieces.Pairwise fun p q => p.stop ≤ q.start
  between : ∀ i c, first ≤ i → i < last → text[i]? = some c →
    (∀ p ∈ pieces, i < p.start ∨ p.stop ≤ i) → Lexeme.isMeaningful c = false

/-- What a scan leaves of a text: nothing, or what begins with a lone exclamation mark. -/
def Ending.StandsIn (text : List Char) : Ending → Prop
  | .finished position => position = text.length
  | .loneBang position => ∃ rest, text.drop position = '!' :: rest ∧ rest.head? ≠ some '='

/-- The token that a lexeme stands for. Only a name stands for something that the text does not say:
the source of the entry that the reference to it leads to. -/
inductive Registry.Denotes (r : Registry) (line : Nat) : Lexeme → Token → Prop where
  | openGroup : r.Denotes line .openGroup .openGroup
  | closeGroup : r.Denotes line .closeGroup .closeGroup
  | or : r.Denotes line .or .or
  | and : r.Denotes line .and .and
  | relation (relation : Relation) : r.Denotes line (.relation relation) (.relation relation)
  | number (n : Number) : r.Denotes line (.number n) (.number n)
  | text (s : String) : r.Denotes line (.text s) (.text s)
  | boolean (value : Bool) : r.Denotes line (.boolean value) (.boolean value)
  | source {name : List Char} {binding : Binding}
      (hresolve : r.resolve (Name.reference name) line = .ok binding) :
      r.Denotes line (.name name) (.source binding.entry.source)

/-- The piece is a lexeme that stands for the token. -/
def Registry.Binds (r : Registry) (line : Nat) (t : Token) (p : Piece) : Prop :=
  ∃ l, p.reading = .lexeme l ∧ r.Denotes line l t

/-- The tokens account for the first `last` characters of a text, one piece for each. Their numbers
are neither `nan` nor negative. -/
def Registry.Accounts (r : Registry) (line : Nat) (text : List Char) (last : Nat)
    (tokens : List Token) : Prop :=
  ∃ pieces, Piece.Account text 0 last pieces ∧ List.Forall₂ (r.Binds line) tokens pieces ∧
    ∀ n, .number n ∈ tokens → n.IsUnsigned

/-- How a text can be at fault in front, and the error that this is. -/
inductive Registry.FailsAt (r : Registry) (line position : Nat) : List Char → LexError → Prop where
  | loneBang {rest : List Char} (hrest : rest.head? ≠ some '=') :
      r.FailsAt line position ('!' :: rest) (.fault (.loneBang position))
  | invalidNumber {run behind : List Char} (hrun : Lexeme.IsFaultyRun run behind) :
      r.FailsAt line position (run ++ behind) (.fault (.invalidNumber run position))
  | unresolved {name behind : List Char} {e : ResolveError} (hname : Name.IsWhole name)
      (hbehind : ∀ c ∈ behind.head?, Name.isNameChar c = false)
      (hresolve : r.resolve (Name.reference name) line = .error e) :
      r.FailsAt line position (name ++ behind) (.unresolved e)

/-! ### The pieces of a scan -/

namespace Piece

variable {text : List Char} {first last : Nat} {pieces : List Piece}

theorem account_nil (text : List Char) (first : Nat) : Account text first first [] where
  standsIn := List.forall_mem_nil _
  bounds := List.forall_mem_nil _
  ordered := .nil
  between := fun _ _ hfirst hlast => absurd hfirst (Nat.not_le.mpr hlast)

/-- A character without meaning may stand in front. -/
theorem Account.skip (h : Account text (first + 1) last pieces) {c : Char}
    (hc : text[first]? = some c) (hmeaning : Lexeme.isMeaningful c = false) :
    Account text first last pieces where
  standsIn := h.standsIn
  bounds := fun p hp => ⟨Nat.le_of_succ_le (h.bounds p hp).1, (h.bounds p hp).2⟩
  ordered := h.ordered
  between := by
    intro i d hfirst hlast hd houtside
    rcases Nat.eq_or_lt_of_le hfirst with rfl | hlt
    · rw [hc] at hd
      cases hd
      exact hmeaning
    · exact h.between i d hlt hlast hd houtside

/-- A piece may stand in front of those that account for what is behind it. -/
theorem Account.cons {p : Piece} (h : Account text p.stop last pieces) (hp : p.StandsIn text)
    (hlast : p.stop ≤ last) : Account text p.start last (p :: pieces) where
  standsIn := List.forall_mem_cons.mpr ⟨hp, h.standsIn⟩
  bounds := by
    refine List.forall_mem_cons.mpr ⟨⟨Nat.le_refl _, hlast⟩, fun q hq => ?_⟩
    exact ⟨Nat.le_trans (Nat.le_add_right ..) (h.bounds q hq).1, (h.bounds q hq).2⟩
  ordered := List.pairwise_cons.mpr ⟨fun q hq => (h.bounds q hq).1, h.ordered⟩
  between := by
    intro i c hfirst hlt hc houtside
    obtain ⟨hout, houtside⟩ := List.forall_mem_cons.mp houtside
    have hstop : p.stop ≤ i := hout.resolve_left (Nat.not_lt.mpr hfirst)
    exact h.between i c hstop hlt hc houtside

/-- Of the pieces that account for a text, those before a piece account for all before it. -/
theorem Account.of_append {p : Piece} {rest : List Piece}
    (h : Account text first last (pieces ++ p :: rest)) :
    Account text first p.start pieces where
  standsIn := fun q hq => h.standsIn q (List.mem_append_left _ hq)
  bounds := by
    intro q hq
    have hbefore := (List.pairwise_append.mp h.ordered).2.2 q hq p List.mem_cons_self
    exact ⟨(h.bounds q (List.mem_append_left _ hq)).1, hbefore⟩
  ordered := (List.pairwise_append.mp h.ordered).1
  between := by
    intro i c hfirst hlt hc houtside
    have hbehind := (List.pairwise_cons.mp (List.pairwise_append.mp h.ordered).2.1).1
    have hlast := (h.bounds p (by simp)).2
    have hstop : p.start ≤ p.stop := Nat.le_add_right ..
    refine h.between i c hfirst (by omega) hc ?_
    refine List.forall_mem_append.mpr ⟨houtside, List.forall_mem_cons.mpr ⟨.inl hlt, ?_⟩⟩
    intro q hq
    have hq := hbehind q hq
    exact .inl (by omega)

end Piece

namespace Scan

theorem drop_append {text slice behind : List Char} {position : Nat}
    (hposition : position ≤ text.length) (h : text.drop position = slice ++ behind) :
    position + slice.length ≤ text.length ∧ text.drop (position + slice.length) = behind := by
  have hlength := congrArg List.length h
  rw [List.length_drop, List.length_append] at hlength
  refine ⟨by omega, ?_⟩
  rw [← List.drop_drop, h, List.drop_left]

/-- The pieces of a scan account for the text up to where the scan ends. -/
theorem account_ofCharsFrom {text cs : List Char} {position : Nat}
    (hposition : position ≤ text.length) (hcs : text.drop position = cs) :
    let s := ofCharsFrom position 0 cs
    position ≤ s.ending.position ∧
      Piece.Account text position s.ending.position s.pieces ∧ s.ending.StandsIn text := by
  induction cs using Lexeme.front_induction generalizing position with
  | nil =>
      have hend : position = text.length := by
        rw [List.drop_eq_nil_iff] at hcs
        exact Nat.le_antisymm hposition hcs
      exact ⟨Nat.le_refl _, Piece.account_nil text position, hend⟩
  | nothing c rest hfront hmeaning ih =>
      have hc : text[position]? = some c := by
        rw [← List.head?_drop, hcs, List.head?_cons]
      have hlt : position < text.length := (List.getElem?_eq_some_iff.mp hc).1
      have hrest : text.drop (position + 1) = rest := by
        rw [← List.tail_drop, hcs, List.tail_cons]
      obtain ⟨hle, haccount, hending⟩ := ih hlt hrest
      rw [ofCharsFrom_of_nothing hfront]
      exact ⟨Nat.le_of_succ_le hle, haccount.skip hc hmeaning, hending⟩
  | lexeme l slice behind hne hfront hoccupies ih =>
      let p : Piece := ⟨position, slice.length, .lexeme l⟩
      have hp : p.StandsIn text := ⟨slice, behind, hcs, rfl, hne, hoccupies⟩
      obtain ⟨hstop, hbehind⟩ := drop_append hposition hcs
      obtain ⟨hle, haccount, hending⟩ := ih hstop hbehind
      rw [ofCharsFrom_of_lexeme hfront, List.drop_left]
      exact ⟨Nat.le_trans (Nat.le_add_right ..) hle, haccount.cons hp hle, hending⟩
  | notNumeral run behind hfront hfaulty ih =>
      let p : Piece := ⟨position, run.length, .notNumeral run⟩
      have hp : p.StandsIn text := ⟨run, behind, hcs, rfl, hfaulty.ne_nil, rfl, hfaulty⟩
      obtain ⟨hstop, hbehind⟩ := drop_append hposition hcs
      obtain ⟨hle, haccount, hending⟩ := ih hstop hbehind
      rw [ofCharsFrom_of_notNumeral hfront, List.drop_left]
      exact ⟨Nat.le_trans (Nat.le_add_right ..) hle, haccount.cons hp hle, hending⟩
  | loneBang rest hfront hrest =>
      rw [ofCharsFrom_of_loneBang hfront]
      exact ⟨Nat.le_refl _, Piece.account_nil text position, rest, hcs, hrest⟩

theorem account_ofChars (text : List Char) :
    let s := ofChars text
    Piece.Account text 0 s.ending.position s.pieces ∧ s.ending.StandsIn text :=
  (account_ofCharsFrom (Nat.zero_le _) rfl).2

end Scan

/-! ### Binding the pieces -/

namespace Registry

variable {r : Registry} {line : Nat} {text : List Char} {p : Piece}

/-- A lexeme becomes the token that it stands for, unless it is a name that leads nowhere. -/
theorem tokenOf_eq (r : Registry) (line : Nat) (l : Lexeme) :
    (∃ t binding?, r.tokenOf line l = .token t binding? ∧ r.Denotes line l t) ∨
      ∃ name e, l = .name name ∧ r.resolve (Name.reference name) line = .error e ∧
        r.tokenOf line l = .failure (.unresolved e) := by
  cases l with
  | openGroup => exact .inl ⟨_, _, rfl, .openGroup⟩
  | closeGroup => exact .inl ⟨_, _, rfl, .closeGroup⟩
  | or => exact .inl ⟨_, _, rfl, .or⟩
  | and => exact .inl ⟨_, _, rfl, .and⟩
  | relation relation => exact .inl ⟨_, _, rfl, .relation relation⟩
  | number n => exact .inl ⟨_, _, rfl, .number n⟩
  | text s => exact .inl ⟨_, _, rfl, .text s⟩
  | boolean value => exact .inl ⟨_, _, rfl, .boolean value⟩
  | name name =>
      cases hresolve : r.resolve (Name.reference name) line with
      | ok binding =>
          refine .inl ⟨.source binding.entry.source, some binding, ?_, .source hresolve⟩
          rw [tokenOf, hresolve]
      | error e =>
          refine .inr ⟨name, e, rfl, hresolve, ?_⟩
          rw [tokenOf, hresolve]

/-- A piece is either bound or at fault. -/
theorem answerOf_eq (r : Registry) (line : Nat) (p : Piece) :
    (∃ t binding?, r.answerOf line p = .token t binding? ∧ r.Binds line t p) ∨
      ∃ e, r.answerOf line p = .failure e := by
  unfold answerOf
  cases hreading : p.reading with
  | notNumeral run => exact .inr ⟨_, rfl⟩
  | lexeme l =>
      rcases r.tokenOf_eq line l with ⟨t, binding?, htoken, hdenotes⟩ | ⟨_, e, -, -, hfails⟩
      · exact .inl ⟨t, binding?, htoken, l, hreading, hdenotes⟩
      · exact .inr ⟨.unresolved e, hfails⟩

/-- The tokens of a scan are those of its pieces. All are bound if there is no error, and those
before the one at fault if there is. -/
theorem binds_of_ofScan (r : Registry) (line : Nat) (pieces : List Piece) (ending : Ending) :
    match (Lexing.ofScan r line ⟨pieces, ending⟩).toExcept with
    | .ok tokens =>
      List.Forall₂ (r.Binds line) tokens pieces ∧ ∃ position, ending = .finished position
    | .error e =>
      ∃ tokens reached rest, pieces = reached ++ rest ∧
        List.Forall₂ (r.Binds line) tokens reached ∧
          match rest with
          | [] => ∃ position, ending = .loneBang position ∧ e = .fault (.loneBang position)
          | p :: _ => r.answerOf line p = .failure e := by
  induction pieces with
  | nil =>
      cases ending with
      | finished position => exact ⟨.nil, position, rfl⟩
      | loneBang position => exact ⟨[], [], [], rfl, .nil, position, rfl, rfl⟩
  | cons p pieces ih =>
      have hcons : Lexing.ofScan r line ⟨p :: pieces, ending⟩ =
        .cons (r.answerOf line p) (.ofScan r line ⟨pieces, ending⟩) := rfl
      rw [hcons]
      rcases r.answerOf_eq line p with ⟨t, binding?, hanswer, hbinds⟩ | ⟨e, hanswer⟩
      · rw [hanswer, Lexing.toExcept_cons_token]
        cases hrest : (Lexing.ofScan r line ⟨pieces, ending⟩).toExcept with
        | ok tokens =>
            rw [hrest] at ih
            exact ⟨.cons hbinds ih.1, ih.2⟩
        | error e =>
            rw [hrest] at ih
            obtain ⟨tokens, reached, rest, rfl, hreached, hfault⟩ := ih
            exact ⟨t :: tokens, p :: reached, rest, rfl, .cons hbinds hreached, hfault⟩
      · rw [hanswer]
        exact ⟨[], [], p :: pieces, rfl, .nil, hanswer⟩

/-- A number is what the numeral of its piece writes, so that it has no sign. -/
theorem isUnsigned_of_binds {n : Number} (hp : p.StandsIn text)
    (h : r.Binds line (.number n) p) : n.IsUnsigned := by
  obtain ⟨l, hreading, hdenotes⟩ := h
  obtain ⟨slice, behind, -, -, -, hoccupies⟩ := hp
  rw [hreading] at hoccupies
  cases hdenotes
  cases hoccupies with
  | number _ _ hvalue =>
      rw [hvalue]
      exact Number.isUnsigned_ofRatio _ _

/-- Where a piece is at fault, the text is. -/
theorem failsAt_of_answerOf {e : LexError} (hp : p.StandsIn text)
    (h : r.answerOf line p = .failure e) : r.FailsAt line p.start (text.drop p.start) e := by
  obtain ⟨slice, behind, htext, -, -, hstands⟩ := hp
  rw [htext]
  unfold answerOf at h
  cases hreading : p.reading with
  | notNumeral run =>
      simp only [hreading] at h hstands
      cases h
      rw [hstands.1]
      exact .invalidNumber hstands.2
  | lexeme l =>
      simp only [hreading] at h hstands
      rcases r.tokenOf_eq line l with ⟨t, binding?, htoken, -⟩ | ⟨name, e, rfl, hresolve, hfails⟩
      · rw [htoken] at h
        cases h
      · rw [hfails] at h
        cases h
        cases hstands with
        | name hname hbehind => exact .unresolved hname hbehind hresolve

theorem accounts_of_forall₂ {last : Nat} {tokens : List Token} {pieces : List Piece}
    (haccount : Piece.Account text 0 last pieces)
    (hbinds : List.Forall₂ (r.Binds line) tokens pieces) : r.Accounts line text last tokens := by
  refine ⟨pieces, haccount, hbinds, fun n hn => ?_⟩
  obtain ⟨i, hi, hget⟩ := List.getElem_of_mem hn
  have hlength : i < pieces.length := by rwa [← hbinds.length_eq]
  have hbind := hbinds.get hi hlength
  rw [List.get_eq_getElem, hget] at hbind
  exact isUnsigned_of_binds (haccount.standsIn _ (List.get_mem _ _)) hbind

/-- The tokens of a text account for all of its characters. A text that is not cut into tokens has
tokens that account for what stands before a place where it is at fault. -/
theorem accounts_of_lex (r : Registry) (text : String) (line : Nat) :
    match (r.lex text line).toExcept with
    | .ok tokens => r.Accounts line text.toList text.length tokens
    | .error e =>
      ∃ tokens position, r.Accounts line text.toList position tokens ∧
        r.FailsAt line position (text.toList.drop position) e := by
  obtain ⟨haccount, hending⟩ := Scan.account_ofChars text.toList
  have hbinds := r.binds_of_ofScan line (Scan.ofChars text.toList).pieces
    (Scan.ofChars text.toList).ending
  have hscan : Lexing.ofScan r line ⟨(Scan.ofChars text.toList).pieces,
    (Scan.ofChars text.toList).ending⟩ = r.lex text line := rfl
  rw [hscan] at hbinds
  generalize (Scan.ofChars text.toList).pieces = pieces at haccount hbinds
  generalize (Scan.ofChars text.toList).ending = ending at haccount hending hbinds
  cases hlex : (r.lex text line).toExcept with
  | ok tokens =>
      rw [hlex] at hbinds
      obtain ⟨hbinds, position, rfl⟩ := hbinds
      have hlength : position = text.length := hending.trans String.length_toList
      subst hlength
      exact accounts_of_forall₂ haccount hbinds
  | error e =>
      rw [hlex] at hbinds
      obtain ⟨tokens, reached, rest, rfl, hbinds, hfault⟩ := hbinds
      cases rest with
      | nil =>
          obtain ⟨position, rfl, rfl⟩ := hfault
          obtain ⟨rest, hrest, hhead⟩ := hending
          rw [List.append_nil] at haccount
          refine ⟨tokens, position, accounts_of_forall₂ haccount hbinds, ?_⟩
          rw [hrest]
          exact .loneBang hhead
      | cons p rest =>
          have hp : p.StandsIn text.toList := haccount.standsIn p (by simp)
          exact ⟨tokens, p.start, accounts_of_forall₂ haccount.of_append hbinds,
            failsAt_of_answerOf hp hfault⟩

end Registry

end DisplayLogic
