import DisplayLogic.Proofs.Condition.Variables
import DisplayLogic.Proofs.Lexeme.Extent
import Mathlib.Data.List.Forall2

/-!
# How far a text is bound

Names are bound from the left, one by one, until a text ends or cannot be cut into tokens. What a
lexing `Reaches` are the pieces up to there: every name among them has been bound to the entry that
it leads to, in order, and the tokens stand for the sources of just these entries. `StopsBehind`
gives the reasons for which no more pieces are reached.
-/

namespace DisplayLogic

/-- The name that a piece of text is. -/
def Piece.name? (p : Piece) : Option (List Char) :=
  match p.reading with
  | .lexeme (.name name) => some name
  | _ => none

theorem Piece.reading_of_name?_eq_some {p : Piece} {name : List Char} (h : p.name? = some name) :
    p.reading = .lexeme (.name name) := by
  rw [name?] at h
  split at h
  · cases h
    assumption
  · cases h

/-- Why nothing behind the given pieces of a scan becomes a token. -/
inductive Registry.StopsBehind (r : Registry) (line : Nat) (scan : Scan) (reached : List Piece) :
    LexError → Prop where
  | unknown {piece : Piece} {name : List Char} {rest : List Piece}
      (hpieces : scan.pieces = reached ++ piece :: rest) (hname : piece.name? = some name)
      (hentry : r.findQualified? name = none) :
      r.StopsBehind line scan reached (.unresolved (.unknown (Name.reference name) line))
  | notNumeral {piece : Piece} {run : List Char} {rest : List Piece}
      (hpieces : scan.pieces = reached ++ piece :: rest) (hrun : piece.reading = .notNumeral run) :
      r.StopsBehind line scan reached (.fault (.invalidNumber run piece.start))
  | loneBang {position : Nat} (hpieces : scan.pieces = reached)
      (hending : scan.ending = .loneBang position) :
      r.StopsBehind line scan reached (.fault (.loneBang position))

/-- The lexing has come through the given pieces of a scan, and no further. -/
structure Registry.Reaches (r : Registry) (line : Nat) (scan : Scan) (reached : List Piece)
    (l : Lexing) : Prop where
  bound : List.Forall₂ (fun name entry => r.findQualified? name = some entry)
    (reached.filterMap Piece.name?) (l.bindings.map Binding.entry)
  sources : l.tokens.filterMap Token.source? = l.bindings.map fun b => b.entry.source
  isFlat : ∀ t ∈ l.tokens, t.isGroup = false
  finished : l.failure? = none → scan.pieces = reached
  stopped : ∀ e, l.failure? = some e → r.StopsBehind line scan reached e

/-! ### Names in a text -/

theorem Scan.isName_of_mem {position : Nat} {cs : List Char} :
    ∀ p ∈ (ofCharsFrom position 0 cs).pieces, ∀ name,
      p.name? = some name → Name.isName name = true := by
  induction cs using Lexeme.front_induction generalizing position with
  | nil => exact List.forall_mem_nil _
  | nothing c rest hfront _ ih =>
      rw [ofCharsFrom_of_nothing hfront]
      exact ih
  | lexeme l slice behind _ hfront hoccupies ih =>
      rw [ofCharsFrom_of_lexeme hfront, List.drop_left]
      refine List.forall_mem_cons.mpr ⟨?_, ih⟩
      intro name hname
      cases hoccupies with
      | name hrun _ =>
          cases hname
          exact hrun.isName
      | _ => nomatch hname
  | notNumeral run behind hfront _ ih =>
      rw [ofCharsFrom_of_notNumeral hfront, List.drop_left]
      refine List.forall_mem_cons.mpr ⟨?_, ih⟩
      intro name hname
      nomatch hname
  | loneBang rest hfront _ =>
      rw [ofCharsFrom_of_loneBang hfront]
      exact List.forall_mem_nil _

namespace Registry

variable {r : Registry} {line : Nat} {ending : Ending} {piece : Piece}
  {rest reached : List Piece} {l : Lexing}

/-! ### One piece more -/

theorem StopsBehind.cons {e : LexError} (h : r.StopsBehind line ⟨rest, ending⟩ reached e) :
    r.StopsBehind line ⟨piece :: rest, ending⟩ (piece :: reached) e := by
  cases h with
  | unknown hpieces hname hentry => exact .unknown (congrArg (piece :: ·) hpieces) hname hentry
  | notNumeral hpieces hrun => exact .notNumeral (congrArg (piece :: ·) hpieces) hrun
  | loneBang hpieces hending => exact .loneBang (congrArg (piece :: ·) hpieces) hending

theorem Reaches.cons_token (h : r.Reaches line ⟨rest, ending⟩ reached l) {t : Token}
    (hsource : t.source? = none) (hflat : t.isGroup = false) (hname : piece.name? = none) :
    r.Reaches line ⟨piece :: rest, ending⟩ (piece :: reached) (.cons (.token t none) l) where
  bound := by
    rw [List.filterMap_cons_none hname]
    exact h.bound
  sources := by
    refine Eq.trans ?_ h.sources
    exact List.filterMap_cons_none hsource
  isFlat := List.forall_mem_cons.mpr ⟨hflat, h.isFlat⟩
  finished := by
    intro hnone
    exact congrArg (piece :: ·) (h.finished hnone)
  stopped := by
    intro e he
    exact (h.stopped e he).cons

theorem Reaches.cons_source (h : r.Reaches line ⟨rest, ending⟩ reached l) {name : List Char}
    {b : Binding} (hname : piece.name? = some name)
    (hentry : r.findQualified? name = some b.entry) :
    r.Reaches line ⟨piece :: rest, ending⟩ (piece :: reached)
      (.cons (.token (.source b.entry.source) (some b)) l) where
  bound := by
    rw [List.filterMap_cons_some hname]
    exact .cons hentry h.bound
  sources := congrArg (b.entry.source :: ·) h.sources
  isFlat := List.forall_mem_cons.mpr ⟨rfl, h.isFlat⟩
  finished := by
    intro hnone
    exact congrArg (piece :: ·) (h.finished hnone)
  stopped := by
    intro e he
    exact (h.stopped e he).cons

/-- A failure is the end of what is reached. -/
theorem reaches_of_stopsBehind {e : LexError} {scan : Scan} (h : r.StopsBehind line scan [] e) :
    r.Reaches line scan [] ⟨[], [], some e⟩ where
  bound := .nil
  sources := rfl
  isFlat := nofun
  finished := nofun
  stopped := by
    intro e' he
    rw [← Option.some.inj he]
    exact h

/-- Every scan of proper names is lexed up to some piece. -/
theorem exists_reaches (r : Registry) (line : Nat) (ending : Ending) {pieces : List Piece}
    (h : ∀ p ∈ pieces, ∀ name, p.name? = some name → Name.isName name = true) :
    ∃ reached, r.Reaches line ⟨pieces, ending⟩ reached (.ofScan r line ⟨pieces, ending⟩) := by
  induction pieces with
  | nil =>
      cases ending with
      | finished position => exact ⟨[], .nil, rfl, nofun, fun _ => rfl, nofun⟩
      | loneBang position => exact ⟨[], reaches_of_stopsBehind (.loneBang rfl rfl)⟩
  | cons piece rest ih =>
      obtain ⟨hpiece, hrest⟩ := List.forall_mem_cons.mp h
      obtain ⟨reached, hreached⟩ := ih hrest
      have hcons : Lexing.ofScan r line ⟨piece :: rest, ending⟩ =
        .cons (r.answerOf line piece) (.ofScan r line ⟨rest, ending⟩) := rfl
      rw [hcons]
      cases hreading : piece.reading with
      | notNumeral run =>
          simp only [answerOf, hreading]
          exact ⟨[], reaches_of_stopsBehind (.notNumeral rfl hreading)⟩
      | lexeme lexeme =>
          simp only [answerOf, hreading]
          cases lexeme with
          | name name =>
              have hname : piece.name? = some name := by rw [Piece.name?, hreading]
              simp only [tokenOf]
              cases hentry : r.findQualified? name with
              | none =>
                  rw [resolve_reference_of_none (hpiece name hname) hentry]
                  exact ⟨[], reaches_of_stopsBehind (.unknown rfl hname hentry)⟩
              | some entry =>
                  rw [resolve_reference_of_some (hpiece name hname) hentry]
                  exact ⟨piece :: reached, hreached.cons_source hname hentry⟩
          | _ =>
              have hname : piece.name? = none := by rw [Piece.name?, hreading]
              exact ⟨piece :: reached, hreached.cons_token rfl rfl hname⟩

end Registry

end DisplayLogic
