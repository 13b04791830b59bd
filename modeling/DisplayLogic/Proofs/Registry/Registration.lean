import DisplayLogic.Compilation
import DisplayLogic.Proofs.Name.Pattern
import DisplayLogic.Proofs.Token.Identifiers

/-!
# What a registration changes

A registered name answers for itself and, with any namespace in front of it, for all names that are
not registered themselves (`findQualified?_register`). A text asks for the names among its pieces,
also for those behind a failure, and nothing but the entries that they lead to passes from a
registry into what is compiled. A text that asks for none of the names that a registration answers
for is therefore compiled as before, with the same faults and the same groups.
-/

namespace DisplayLogic

/-- The names among the pieces of a scan, in order. They are what a lexer of the scan asks a
registry for, if it is called again behind every failure. -/
def Scan.names (scan : Scan) : List (List Char) := scan.pieces.filterMap Piece.name?

namespace Registry

variable {r r' : Registry}

/-- What a name leads to after a registration: the new entry for the registered name itself, and for
an unregistered name that is the registered one with a namespace. -/
theorem findQualified?_register (r : Registry) (registered : String) (entry : Entry)
    (name : List Char) :
    (r.register registered entry).findQualified? name =
      if name = registered.toList ∨
          r.find? (.ofList name) = none ∧ Name.unqualified? name = some registered.toList then
        some entry
      else r.findQualified? name := by
  have hsame (cs : List Char) : String.ofList cs = registered ↔ cs = registered.toList := by
    rw [← String.toList_inj, String.toList_ofList]
  simp only [findQualified?, find?_register, hsame]
  by_cases hname : name = registered.toList
  · rw [if_pos hname, if_pos (.inl hname)]
    rfl
  · rw [if_neg hname]
    cases hwhole : r.find? (.ofList name) with
    | some found => simp [hname]
    | none =>
        cases hrest : Name.unqualified? name with
        | none => simp [hname]
        | some rest =>
            by_cases heq : rest = registered.toList
            · simp [heq]
            · simp [hname, heq]

/-! ### Registries that agree on the names of a text -/

theorem tokenOf_congr {l : Lexeme}
    (h : ∀ name, l = .name name →
      Name.isName name = true ∧ r'.findQualified? name = r.findQualified? name) (line : Nat) :
    r'.tokenOf line l = r.tokenOf line l := by
  cases l with
  | name name =>
      obtain ⟨hname, hfind⟩ := h name rfl
      simp only [tokenOf]
      cases hentry : r.findQualified? name with
      | none =>
          rw [resolve_reference_of_none hname hentry,
            resolve_reference_of_none hname (hfind.trans hentry)]
      | some entry =>
          rw [resolve_reference_of_some hname hentry,
            resolve_reference_of_some hname (hfind.trans hentry)]
  | _ => rfl

theorem answerOf_congr {piece : Piece}
    (h : ∀ name, piece.name? = some name →
      Name.isName name = true ∧ r'.findQualified? name = r.findQualified? name) (line : Nat) :
    r'.answerOf line piece = r.answerOf line piece := by
  cases hreading : piece.reading with
  | notNumeral run => simp only [answerOf, hreading]
  | lexeme l =>
      simp only [answerOf, hreading]
      refine tokenOf_congr ?_ line
      rintro name rfl
      exact h name (by rw [Piece.name?, hreading])

theorem ofScan_congr {pieces : List Piece} {line : Nat}
    (h : ∀ p ∈ pieces, r'.answerOf line p = r.answerOf line p) (ending : Ending) :
    Lexing.ofScan r' line ⟨pieces, ending⟩ = Lexing.ofScan r line ⟨pieces, ending⟩ := by
  induction pieces with
  | nil => rfl
  | cons piece rest ih =>
      obtain ⟨hpiece, hrest⟩ := List.forall_mem_cons.mp h
      have hcons (r : Registry) : Lexing.ofScan r line ⟨piece :: rest, ending⟩ =
        .cons (r.answerOf line piece) (.ofScan r line ⟨rest, ending⟩) := rfl
      rw [hcons, hcons, hpiece, ih hrest]

/-- Registries that lead the names of a text to the same entries compile it alike, whether or not
they refuse it. -/
theorem compile_congr {e : Expression}
    (h : ∀ name ∈ (Scan.ofChars e.text.toList).names,
      r'.findQualified? name = r.findQualified? name) : r'.compile e = r.compile e := by
  have hlex : r'.lex e.text e.line = r.lex e.text e.line := by
    refine ofScan_congr (fun p hp => answerOf_congr (fun name hname => ⟨?_, ?_⟩) e.line) _
    · exact Scan.isName_of_mem p hp name hname
    · exact h name (List.mem_filterMap.mpr ⟨p, hp, hname⟩)
  rw [compile, compile, hlex]

/-- A registration is local. Unless a text asks for the registered name, or for the name with a
namespace where that is not registered itself, it leads to the same condition or the same error as
before and switches on the same groups. -/
theorem compile_register (r : Registry) (registered : String) (entry : Entry) (e : Expression)
    (h : ∀ name ∈ (Scan.ofChars e.text.toList).names,
      name ≠ registered.toList ∧
        ∀ ns, name = ns ++ ':' :: registered.toList → ns ≠ [] → ':' ∉ ns →
          r.contains (.ofList name) = true) :
    ((r.register registered entry).compile e).outcome = (r.compile e).outcome ∧
      ∀ before, ((r.register registered entry).compile e).groups before =
        (r.compile e).groups before := by
  have hsame : (r.register registered entry).compile e = r.compile e := by
    apply compile_congr
    intro name hmem
    obtain ⟨hname, hqualified⟩ := h name hmem
    rw [findQualified?_register, if_neg]
    rintro (heq | ⟨hnone, hrest⟩)
    · exact hname heq
    · obtain ⟨ns, hsplit, hns, hcolon, -⟩ := Name.unqualified?_eq_some_iff.mp hrest
      have hcontains := hqualified ns hsplit hns hcolon
      rw [contains, hnone] at hcontains
      nomatch hcontains
  rw [hsame]
  exact ⟨rfl, fun before => rfl⟩

/-- Registering `fps` leaves `client:fps` alone where that has an entry of its own, and a second
namespace hides it, here in a text that is refused before it comes to the second name. -/
theorem compile_register_behind_namespace :
    let zero : Source := .constant (.number .zero)
    let r : Registry := Registry.empty.register "client:fps" ⟨zero, ["client"]⟩
    let fps : Entry := ⟨.constant (.text "60"), ["timing"]⟩
    (Scan.ofChars "client:fps & 1.2.3 | a:client:fps".toList).names =
        ["client:fps".toList, "a:client:fps".toList] ∧
      ((r.register "fps" fps).compile ⟨"client:fps & 1.2.3 | a:client:fps", 5⟩).outcome =
        .error (.lexical (.invalidNumber "1.2.3".toList 13)) ∧
      (((r.register "fps" fps).compile ⟨"client:fps & 1.2.3 | a:client:fps", 5⟩).groups
        .empty).names = ["client"] := by
  intro zero r fps
  have hnames : (Scan.ofChars "client:fps & 1.2.3 | a:client:fps".toList).names =
      ["client:fps".toList, "a:client:fps".toList] := by decide
  have hlocal : ∀ name ∈ (Scan.ofChars "client:fps & 1.2.3 | a:client:fps".toList).names,
      name ≠ "fps".toList ∧
        ∀ ns, name = ns ++ ':' :: "fps".toList → ns ≠ [] → ':' ∉ ns →
          r.contains (.ofList name) = true := by
    rw [hnames]
    refine List.forall_mem_cons.mpr ⟨⟨by decide, fun ns _ _ _ => rfl⟩, ?_⟩
    refine List.forall_mem_singleton.mpr ⟨by decide, ?_⟩
    intro ns hsplit _ hcolon
    obtain rfl : "a:client".toList = ns := List.append_cancel_right hsplit
    exact absurd (by decide) hcolon
  have hrefused : (r.compile ⟨"client:fps & 1.2.3 | a:client:fps", 5⟩).outcome =
      .error (.lexical (.invalidNumber "1.2.3".toList 13)) := by rfl
  have hgroups : ((r.compile ⟨"client:fps & 1.2.3 | a:client:fps", 5⟩).groups .empty).names =
      ["client"] := by rfl
  obtain ⟨houtcome, hsame⟩ := compile_register r "fps" fps ⟨_, 5⟩ hlocal
  exact ⟨hnames, houtcome.trans hrefused, (congrArg Groups.names (hsame .empty)).trans hgroups⟩

end Registry

end DisplayLogic
