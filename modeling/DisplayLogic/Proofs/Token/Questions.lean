import DisplayLogic.Proofs.Compilation.Refusals
import DisplayLogic.Proofs.Registry.Registration
import DisplayLogic.Proofs.Token.Progress

/-!
# What a lexer asks a registry

A lexer asks its registry for the names that it comes to, one reference a call. The rules for names
are known in two places: the scan tells by them where a name ends, and the pattern for references
which references are well formed. `Lexer.AsksForNames` says that the two agree on every run that a
scan can isolate, also on what it finds behind `true`, `false` or a failure, and on runs of colons
and underscores alone. A reference that a lexer hands over is never malformed. If it is not
resolved, then for no other reason than that a name in the text leads nowhere.
-/

namespace DisplayLogic

/-- The answer for what has become of a reference. -/
def Answer.ofResolution : Except ResolveError Binding → Answer
  | .ok binding => .token (.source binding.entry.source) (some binding)
  | .error e => .failure (.unresolved e)

/-- The reference that the next call hands over to the registry, if it comes to a name. -/
def Lexer.question? (l : Lexer) : Option String :=
  l.scan.pieces.head?.bind fun p => p.name?.map Name.reference

/-- The error reports a name that stands in the text and leads nowhere. -/
inductive Registry.ReportsName (r : Registry) (text : String) (line : Nat) :
    ResolveError → Prop where
  | unknown {name : List Char} (hname : Name.isName name = true) (htext : name <:+: text.toList)
      (hentry : r.findQualified? name = none) :
      r.ReportsName text line (.unknown (Name.reference name) line)

/-! ### Names in a scan -/

/-- A name among the pieces of a text is part of the text. -/
theorem Scan.isInfix_of_mem {text name : List Char} {p : Piece}
    (hp : p ∈ (ofChars text).pieces) (hname : p.name? = some name) : name <:+: text := by
  obtain ⟨slice, behind, hdrop, -, -, hreading⟩ := (account_ofChars text).1.standsIn p hp
  rw [Piece.reading_of_name?_eq_some hname] at hreading
  cases hreading with
  | name _ _ =>
      refine ⟨text.take p.start, behind, ?_⟩
      rw [List.append_assoc, ← hdrop, List.take_append_drop]

namespace Registry

variable {r : Registry} {line : Nat} {p : Piece} {name : List Char}

/-- A name is answered with what becomes of the reference to it. -/
theorem answerOf_of_name (r : Registry) (line : Nat) (h : p.name? = some name) :
    r.answerOf line p = .ofResolution (r.resolve (Name.reference name) line) := by
  simp only [answerOf, Piece.reading_of_name?_eq_some h, tokenOf]
  cases r.resolve (Name.reference name) line <;> rfl

/-- The reference to a name fails to be resolved for one reason only. -/
theorem resolve_reference_eq_error_iff {e : ResolveError} (hname : Name.isName name = true) :
    r.resolve (Name.reference name) line = .error e ↔
      r.findQualified? name = none ∧ e = .unknown (Name.reference name) line := by
  cases hentry : r.findQualified? name with
  | none =>
      rw [resolve_reference_of_none hname hentry, Except.error.injEq, eq_comm]
      exact (and_iff_right rfl).symm
  | some entry =>
      rw [resolve_reference_of_some hname hentry]
      exact ⟨nofun, nofun⟩

/-- What is not resolved in a text is a name that leads nowhere. -/
theorem PieceFault.reportsName {text : String} {e : ResolveError}
    (hp : p ∈ (Scan.ofChars text.toList).pieces) (h : r.PieceFault line p (.unresolved e)) :
    r.ReportsName text line e := by
  cases h with
  | @unresolved name _ hname hresolve =>
      have hisname := Scan.isName_of_mem p hp name hname
      obtain ⟨hentry, rfl⟩ := (resolve_reference_eq_error_iff hisname).mp hresolve
      exact .unknown hisname (Scan.isInfix_of_mem hp hname) hentry

/-- An expression whose names are not all resolved is refused for one that leads nowhere. -/
theorem reportsName_of_outcome {x : Expression} {e : ResolveError}
    (h : (r.compile x).outcome = .error (.resolution e)) : r.ReportsName x.text x.line e := by
  cases refuses_of_outcome h with
  | resolution hfirst =>
      cases hfirst with
      | piece hfirst =>
          obtain ⟨before, p, rest, hpieces, -, hfault⟩ := hfirst
          have hp : p ∈ (Scan.ofChars x.text.toList).pieces := by simp [hpieces]
          exact hfault.reportsName hp

end Registry

namespace Lexer

/-! ### One call -/

/-- A call that comes to a name is answered with what the registry says. -/
theorem next_of_question {l : Lexer} {reference : String} (h : l.question? = some reference) :
    l.next.1 = .ofResolution (l.registry.resolve reference l.line) := by
  obtain ⟨registry, line, position, pieces, ending⟩ := l
  cases pieces with
  | nil => cases h
  | cons p rest =>
      obtain ⟨name, hname, rfl⟩ := Option.map_eq_some_iff.mp h
      exact registry.answerOf_of_name line hname

/-- Any other call is answered alike by all registries. -/
theorem next_of_no_question {l : Lexer} (h : l.question? = none) (r : Registry) :
    ({ l with registry := r } : Lexer).next.1 = l.next.1 := by
  obtain ⟨registry, line, position, pieces, ending⟩ := l
  cases pieces with
  | nil => rfl
  | cons p rest =>
      have hname : p.name? = none := Option.map_eq_none_iff.mp h
      refine Registry.answerOf_congr (fun name hsome => ?_) line
      rw [hname] at hsome
      cases hsome

/-- A call fails to resolve a reference only where it takes a piece that is at fault. -/
theorem exists_pieceFault_of_next {l : Lexer} {e : ResolveError}
    (h : l.next.1 = .failure (.unresolved e)) :
    ∃ p ∈ l.scan.pieces, l.registry.PieceFault l.line p (.unresolved e) := by
  obtain ⟨registry, line, position, pieces, ending⟩ := l
  cases pieces with
  | nil => cases ending <;> cases h
  | cons p rest =>
      refine ⟨p, List.mem_cons_self, ?_⟩
      rw [← Registry.failure?_answerOf_eq_some_iff]
      exact congrArg Answer.failure? h

/-! ### Many calls -/

/-- The registry and the line are never changed. -/
theorem registry_line_after (k : Nat) (l : Lexer) :
    (l.after k).registry = l.registry ∧ (l.after k).line = l.line := by
  induction k generalizing l with
  | zero => exact ⟨rfl, rfl⟩
  | succ k ih =>
      obtain ⟨hregistry, hline⟩ := ih l.next.2
      rw [after, hregistry, hline, next]
      split <;> exact ⟨rfl, rfl⟩

/-- Each call takes a piece, whatever is said about it, until none is left. -/
theorem pieces_after (k : Nat) (l : Lexer) : (l.after k).scan.pieces = l.scan.pieces.drop k := by
  induction k generalizing l with
  | zero => rfl
  | succ k ih =>
      obtain ⟨registry, line, position, pieces, ending⟩ := l
      rw [after, ih]
      cases pieces with
      | nil => exact List.drop_nil.trans List.drop_nil.symm
      | cons p rest => rfl

/-- Where a lexer is after some calls does not depend on what it has been told. -/
theorem after_onRegistry (k : Nat) (l : Lexer) (r : Registry) :
    ({ l with registry := r } : Lexer).after k = { l.after k with registry := r } := by
  induction k generalizing l with
  | zero => rfl
  | succ k ih =>
      have hnext : ({ l with registry := r } : Lexer).next.2 = { l.next.2 with registry := r } := by
        simp only [next]
        split <;> rfl
      rw [after, hnext, ih, after]

variable {r : Registry} {text : String} {line k : Nat}

/-- Whatever has been answered, a reference that is handed over refers to a name in the text. -/
theorem exists_name_of_question {reference : String}
    (h : ((ofText r text line).after k).question? = some reference) :
    ∃ name, reference = Name.reference name ∧ Name.isName name = true ∧ name <:+: text.toList := by
  rw [question?, pieces_after] at h
  obtain ⟨p, hhead, h⟩ := Option.bind_eq_some_iff.mp h
  obtain ⟨name, hname, rfl⟩ := Option.map_eq_some_iff.mp h
  have hp : p ∈ (Scan.ofChars text.toList).pieces :=
    List.mem_of_mem_drop (List.mem_of_mem_head? hhead)
  exact ⟨name, rfl, Scan.isName_of_mem p hp name hname, Scan.isInfix_of_mem hp hname⟩

/-- Whatever has been answered, what is not resolved is a name that leads nowhere. -/
theorem reportsName_of_next {e : ResolveError}
    (h : ((ofText r text line).after k).next.1 = .failure (.unresolved e)) :
    r.ReportsName text line e := by
  obtain ⟨p, hp, hfault⟩ := exists_pieceFault_of_next h
  rw [pieces_after] at hp
  obtain ⟨hregistry, hline⟩ := registry_line_after k (ofText r text line)
  rw [hregistry, hline] at hfault
  exact hfault.reportsName (List.mem_of_mem_drop hp)

/-- What a lexer for a text asks a registry, and what it and the compilation of the text fail with
if a reference is not resolved. -/
structure AsksForNames (r : Registry) (text : String) (line : Nat) : Prop where
  /-- A call hands over one reference, and its answer is what has become of that, or else its answer
  is that of all registries. -/
  answered : ∀ k, match ((ofText r text line).after k).question? with
    | some reference =>
      ((ofText r text line).after k).next.1 = .ofResolution (r.resolve reference line)
    | none => ∀ r',
      ((ofText r' text line).after k).next.1 = ((ofText r text line).after k).next.1
  /-- A reference refers to a name that stands in the text, and it fits the pattern. -/
  fits : ∀ k reference, ((ofText r text line).after k).question? = some reference →
    (Pattern.reference.search reference.toList).isSome = true ∧
      ∃ name, reference = Name.reference name ∧ Name.isName name = true ∧ name <:+: text.toList
  not_malformed : ∀ k reference n, ((ofText r text line).after k).next.1 ≠
    .failure (.unresolved (.malformed reference n))
  reports : ∀ k e, ((ofText r text line).after k).next.1 = .failure (.unresolved e) →
    r.ReportsName text line e
  reports_compile : ∀ e, (r.compile ⟨text, line⟩).outcome = .error (.resolution e) →
    r.ReportsName text line e

/-- A lexer only asks for names, and only the names of a text can fail to be resolved. -/
theorem asksForNames (r : Registry) (text : String) (line : Nat) : AsksForNames r text line where
  answered := by
    intro k
    cases hquestion : ((ofText r text line).after k).question? with
    | some reference =>
        obtain ⟨hregistry, hline⟩ := registry_line_after k (ofText r text line)
        have hnext := next_of_question hquestion
        rwa [hregistry, hline] at hnext
    | none =>
        intro r'
        have hother : ofText r' text line = { ofText r text line with registry := r' } := rfl
        rw [hother, after_onRegistry]
        exact next_of_no_question hquestion r'
  fits := by
    intro k reference hquestion
    obtain ⟨name, rfl, hname, htext⟩ := exists_name_of_question hquestion
    refine ⟨?_, name, rfl, hname, htext⟩
    rw [Pattern.search_reference, Name.ofReference?_reference hname]
    rfl
  not_malformed := by
    intro k reference n h
    cases reportsName_of_next h
  reports := by
    intro k e h
    exact reportsName_of_next h
  reports_compile := by
    intro e h
    exact Registry.reportsName_of_outcome h

/-- Names of colons and underscores, behind a boolean and behind a run that is no numeral. -/
theorem asksForNames_behind_faults :
    let l := ofText .empty "trueb 1..2:|_:" 7
    AsksForNames .empty "trueb 1..2:|_:" 7 ∧
      (List.range 6).map (fun k => (l.after k).question?) =
        [none, some (Name.reference ['b']), none, some (Name.reference [':']), none,
          some (Name.reference ['_', ':'])] ∧
      (∀ k reference n, (l.after k).next.1 ≠ .failure (.unresolved (.malformed reference n))) ∧
      Registry.empty.ReportsName "trueb 1..2:|_:" 7 (.unknown (Name.reference ['_', ':']) 7) ∧
      Registry.empty.ReportsName "trueb 1..2:|_:" 7 (.unknown (Name.reference ['b']) 7) := by
  intro l
  have hasks := asksForNames .empty "trueb 1..2:|_:" 7
  have hcompile : (Registry.empty.compile ⟨"trueb 1..2:|_:", 7⟩).outcome =
    .error (.resolution (.unknown (Name.reference ['b']) 7)) := rfl
  exact ⟨hasks, rfl, hasks.not_malformed, hasks.reports 5 _ rfl, hasks.reports_compile _ hcompile⟩

end Lexer

end DisplayLogic
