import DisplayLogic.Proofs.Command.Agreement
import DisplayLogic.Proofs.Condition.Outline
import DisplayLogic.Proofs.Text.Lines
import DisplayLogic.Proofs.Token.Questions

/-!
# Nothing adds a line to what is printed

The text of an expression and the values of a document are written by others, and they may contain
line ends, inside of quotes and outside. What is reported and printed about them is cut into lines
again by whoever reads it. It is shown here that the lines are those that were meant: a report of a
refused text is one line, whatever the text and the registry, and so is each line of an outline, if
the registry is that of a document. What is printed about a compiled text can therefore be taken
apart into the lines of its outline.
-/

namespace DisplayLogic

open Text

/-! ### Errors -/

theorem LexFault.isLine_message (fault : LexFault) : IsLine fault.message := by
  cases fault with
  | loneBang position => exact .append (by decide) (isLine_toString_nat position)
  | invalidNumber run position =>
      refine .append (.append (.append ?_ (isLine_quote _)) ?_) (isLine_toString_nat position)
      · decide
      · decide

/-- A name that leads nowhere is reported as it stands, and there are no line ends in a name. -/
theorem Registry.ReportsName.isLine_message {r : Registry} {text : String} {line : Nat}
    {e : ResolveError} (h : r.ReportsName text line e) : IsLine e.message := by
  cases h with
  | unknown hname _ _ =>
      refine .append (.append (.append ?_ (Name.isLine_reference hname)) ?_)
        (isLine_toString_nat line)
      · decide
      · decide

theorem Token.MarksFault.isLine_message {tokens : List Token} {e : ParseError}
    (h : MarksFault tokens e) : IsLine e.message := by
  cases h with
  | @unmatchedClose i _ _ =>
      refine .append (.append ?_ (isLine_toString_nat i)) ?_
      · decide
      · decide
  | tooDeep _ _ => decide
  | @unmatchedOpen depth _ _ _ => exact .append (isLine_toString_nat depth) (by decide)

/-- What is expected is said in fixed words, and so is what was found. -/
theorem ParseError.isLine_message_unexpectedToken (t : Token) {expected : String}
    (h : IsLine expected) : IsLine (message (.unexpectedToken t.kind expected)) := by
  refine .append (.append (.append (.append ?_ t.isLine_kind) ?_) h) ?_
  · decide
  · decide
  · decide

theorem Token.SegmentFault.isLine_message {segment : List Token} {e : ParseError}
    (h : SegmentFault segment e) : IsLine e.message := by
  cases h with
  | empty => decide
  | count _ _ _ => exact .append (by decide) (isLine_toString_nat segment.length)
  | alone _ => exact ParseError.isLine_message_unexpectedToken _ (by decide)
  | middle _ => exact ParseError.isLine_message_unexpectedToken _ (by decide)
  | left _ _ => exact ParseError.isLine_message_unexpectedToken _ (by decide)
  | right _ _ _ => exact ParseError.isLine_message_unexpectedToken _ (by decide)

namespace Registry

variable {r : Registry} {e : Expression}

/-- Whatever a text is refused for, the error is said in one line. -/
theorem isLine_message_of_outcome {error : CompileError}
    (h : (r.compile e).outcome = .error error) : IsLine error.message := by
  have hrefuses := refuses_of_outcome h
  cases hrefuses with
  | @lexical fault _ => exact .append (by decide) fault.isLine_message
  | resolution _ => exact .append (by decide) (reportsName_of_outcome h).isLine_message
  | marks _ hmarks => exact .append (by decide) hmarks.isLine_message
  | segment _ _ hsegment =>
      obtain ⟨before, segment, behind, -, -, hfault⟩ := hsegment
      exact .append (by decide) hfault.isLine_message

/-- The report of a refused text is one line. -/
theorem isLine_refusal_of_outcome {error : CompileError}
    (h : (r.compile e).outcome = .error error) : IsLine (e.refusal error) := by
  refine .append (.append (.append (.append (.append ?_ (isLine_toString_nat e.line)) ?_)
    (isLine_quote e.text)) ?_) (isLine_message_of_outcome h)
  · decide
  · decide
  · decide

theorem isLine_of_failure_mem_reports {outlines : Bool} {text : String}
    (h : .failure text ∈ (r.compile e).reports e outlines) : IsLine text := by
  unfold Compilation.reports at h
  split at h
  · split at h
    · simp at h
    · nomatch h
  · rename_i error herror
    cases List.mem_singleton.mp h
    exact isLine_refusal_of_outcome herror

/-! ### Outlines -/

/-- All sources of the registry are described in one line. -/
def DescribesInLines (r : Registry) : Prop :=
  ∀ name entry, r.find? name = some entry → IsLine entry.source.inspect

theorem describesInLines_empty : empty.DescribesInLines := nofun

end Registry

/-- A value of a document is described in one line, because texts are quoted and the label of a feed
is a name. -/
theorem Json.isLine_inspect_of_source? {value : Json} {name : String} {s : Source}
    (hname : Name.isName name.toList = true) (h : value.source? name = some s) :
    IsLine s.inspect := by
  have hfeed (kind : Kind) (origin : Origin) : IsLine (Feed.inspect ⟨kind, name, origin⟩) := by
    refine .append (.append (.append kind.isLine_name ?_) (Name.isLineEnd_of_mem hname)) ?_
    · decide
    · decide
  cases value with
  | null =>
      cases h
      exact hfeed .text _
  | boolean b =>
      cases h
      exact hfeed .boolean _
  | number n =>
      cases h
      exact .append (.append (by decide) n.isLine_inspect) (by decide)
  | text t =>
      cases h
      exact .append (.append (by decide) (isLine_quote t)) (by decide)
  | array items | object members => nomatch h

theorem Registry.describesInLines_of_ofDocument {document : Json} {r : Registry}
    (h : ofDocument document = .ok r) : r.DescribesInLines := by
  intro name entry hentry
  obtain ⟨hname, value, hsource⟩ := exists_source?_of_ofDocument h hentry
  exact Json.isLine_inspect_of_source? hname hsource

theorem Operand.isLine_inspect {x : Operand} (h : ∀ s ∈ x.variables, IsLine s.inspect) :
    IsLine x.inspect := by
  cases x with
  | source s => exact .append (by decide) (h s (List.mem_singleton_self s))
  | literal c =>
      cases c with
      | text t => exact isLine_quote t
      | number n => exact n.isLine_text
      | boolean b => exact isLine_booleanText b

namespace Condition

theorem isLine_caption {c : Condition} (h : ∀ s ∈ c.variables, IsLine s.inspect) :
    IsLine c.caption := by
  cases c with
  | literal b => exact .append (by decide) (isLine_booleanText b)
  | holds s =>
      rw [Condition.variables, List.forall_mem_singleton] at h
      exact .append (by decide) h
  | comparison left relation right kinds =>
      refine .append ?_ (.append relation.isLine_symbol (.append ?_ (.append
        kinds.mode.isLine_name ?_)))
      · decide
      · decide
      · decide
  | all conditions | any conditions =>
      rw [caption]
      decide

mutual

/-- An outline is made of lines if the variables are described in one line each. -/
theorem isLine_of_mem_outlineAt : ∀ (c : Condition) (depth : Nat),
    (∀ s ∈ c.variables, IsLine s.inspect) → ∀ line ∈ c.outlineAt depth, IsLine line
  | .literal b, depth, h | .holds s, depth, h => by
      rw [outlineAt_eq, linesBelow, List.forall_mem_singleton]
      exact (isLine_indent depth).append (isLine_caption h)
  | .comparison left relation right kinds, depth, h => by
      rw [outlineAt_eq, linesBelow, List.forall_mem_cons]
      refine ⟨(isLine_indent depth).append (isLine_caption h), ?_⟩
      rw [Condition.variables, List.forall_mem_append] at h
      rw [List.forall_mem_cons, List.forall_mem_singleton]
      refine ⟨.append (isLine_indent _) (.append ?_ (Operand.isLine_inspect h.1)),
        .append (isLine_indent _) (.append ?_ (Operand.isLine_inspect h.2))⟩
      · decide
      · decide
  | .all conditions, depth, h | .any conditions, depth, h => by
      rw [outlineAt_eq, linesBelow, List.forall_mem_cons]
      refine ⟨(isLine_indent depth).append (isLine_caption h), ?_⟩
      rw [Condition.variables, List.forall_mem_flatMap] at h
      exact isLine_of_mem_outlinesAt conditions (depth + 1) h

theorem isLine_of_mem_outlinesAt : ∀ (conditions : List Condition) (depth : Nat),
    (∀ c ∈ conditions, ∀ s ∈ c.variables, IsLine s.inspect) →
      ∀ line ∈ outlinesAt depth conditions, IsLine line
  | [], _, _ => List.forall_mem_nil _
  | c :: rest, depth, h => by
      rw [List.forall_mem_cons] at h
      rw [outlinesAt, List.forall_mem_append]
      exact ⟨isLine_of_mem_outlineAt c depth h.1, isLine_of_mem_outlinesAt rest depth h.2⟩

end

end Condition

/-- What is compiled against such a registry has an outline made of lines. -/
theorem Registry.DescribesInLines.isLine_of_mem_outline {r : Registry} (hr : r.DescribesInLines)
    {e : Expression} {c : Condition} (h : (r.compile e).outcome = .ok c) :
    ∀ line ∈ c.outline, IsLine line := by
  refine c.isLine_of_mem_outlineAt 0 fun s hs => ?_
  obtain ⟨name, entry, hentry, rfl⟩ := exists_find?_of_mem_variables h hs
  exact hr name entry hentry

namespace Command

/-! ### What is printed -/

theorem describesInLines_of_registryOf {explain : String → String} {document : Option String}
    {r : Registry} (hr : registryOf explain document = .ok r) : r.DescribesInLines :=
  holds_of_registryOf Registry.describesInLines_empty
    (fun _ _ => Registry.describesInLines_of_ofDocument) hr

/-- Lines that are written one below the other are found again by their ends. -/
theorem splitOnP_linesText {lines : List String} (h : ∀ line ∈ lines, IsLine line) :
    (linesText lines).toList.splitOnP isLineEnd = lines.map String.toList ++ [[]] := by
  induction lines with
  | nil => rfl
  | cons line rest ih =>
      obtain ⟨hline, hrest⟩ := List.forall_mem_cons.mp h
      have hcons : linesText (line :: rest) = line ++ "\n" ++ linesText rest := String.join_cons
      have hend : ("\n" : String).toList = ['\n'] := rfl
      rw [hcons, String.toList_append, String.toList_append, hend, List.append_assoc,
        List.singleton_append, List.splitOnP_append_cons _ _ rfl, List.splitOnP_eq_singleton hline,
        ih hrest]
      rfl

/-- A text from outside never adds a line to what is reported or printed. The report of a refused
text is one line, and so is each line of an outline for a document. What the program prints is cut
into just these lines by the line ends in it. -/
theorem texts_add_no_lines :
    (∀ (r : Registry) (outlines : Bool) (before : Groups) (es : List Expression) (text : String),
      .failure text ∈ (r.compileAll outlines before es).reports → IsLine text) ∧
    (∀ (document : Json) (r : Registry) (e : Expression) (c : Condition),
      Registry.ofDocument document = .ok r → (r.compile e).outcome = .ok c →
        ∀ line ∈ c.outline, IsLine line) ∧
    ∀ (explain : String → String) (expression : String) (vars input : Option String)
        (r : Registry) (c : Condition),
      registryOf explain (vars <|> input) = .ok r → (r.compile ⟨expression, 1⟩).outcome = .ok c →
        ((Invocation.tree expression vars).run explain input).output.toList.splitOnP isLineEnd =
          c.outline.map String.toList ++ [[]] := by
  refine ⟨?_, ?_, ?_⟩
  · intro r outlines before es text h
    rw [Registry.compileAll_eq] at h
    obtain ⟨e, -, hreport⟩ := List.mem_flatMap.mp h
    exact Registry.isLine_of_failure_mem_reports hreport
  · intro document r e c hr h
    exact (Registry.describesInLines_of_ofDocument hr).isLine_of_mem_outline h
  · intro explain expression vars input r c hr h
    have hlines := (describesInLines_of_registryOf hr).isLine_of_mem_outline h
    have houtput :
        ((Invocation.tree expression vars).run explain input).output = linesText c.outline := by
      rw [Invocation.run, outline_eq hr, h]
      rfl
    rw [houtput, splitOnP_linesText hlines]

/-- Line ends in a value, in a literal, between tokens and around a name that leads nowhere. -/
theorem texts_add_no_lines_of_line_ends :
    let explain := fun _ : String => "expected value at line 1 column 1"
    let document : Json := .object [("motd", .text "a\r\nb")]
    let written := "\x7b\"motd\":\"a\\r\\nb\"\x7d"
    let r := Registry.empty.register "motd" ⟨.constant (.text "a\r\nb"), []⟩
    let compared := "motd\n=\r\"c\nd\""
    let c : Condition := .comparison (.source (.constant (.text "a\r\nb"))) .equal
      (.literal (.text "c\nd")) ⟨false, false⟩
    let refused : Expression := ⟨"\r\nlines:\n", 4⟩
    let error : CompileError := .resolution (.unknown (Name.reference "lines:".toList) 4)
    (Registry.ofDocument document = .ok r ∧ registryOf explain (some written) = .ok r ∧
      (r.compile ⟨compared, 1⟩).outcome = .ok c ∧ (r.compile refused).outcome = .error error) ∧
    IsLine (refused.refusal error) ∧ (∀ line ∈ c.outline, IsLine line) ∧
      ((Invocation.tree compared none).run explain (some written)).output.toList.splitOnP
        isLineEnd = c.outline.map String.toList ++ [[]] ∧
      c.outline = ["Comparison: = (string)", "  left: Variable: String(\"a\\r\\nb\")",
        "  right: \"c\\nd\""] := by
  intro explain document written r compared c refused error
  have hdocument : Registry.ofDocument document = .ok r := rfl
  have hwritten : registryOf explain (some written) = .ok r := by
    simp only [written]
    rfl
  have hlex : (r.lex compared 1).toExcept =
      .ok [.source (.constant (.text "a\r\nb")), .relation .equal, .text "c\nd"] := by
    simp only [compared]
    rfl
  have hcompared : (r.compile ⟨compared, 1⟩).outcome = .ok c :=
    Compilation.outcome_eq_ok_iff.mpr ⟨_, hlex, rfl⟩
  have hrefused : (r.compile refused).outcome = .error error := by
    simp only [refused]
    rfl
  have hreport : .failure (refused.refusal error) ∈
      (r.compileAll false .empty [refused]).reports := by
    rw [Registry.compileAll_eq, List.flatMap_singleton, Compilation.reports, hrefused]
    exact List.mem_singleton_self _
  obtain ⟨hfailure, houtline, hprinted⟩ := texts_add_no_lines
  exact ⟨⟨hdocument, hwritten, hcompared, hrefused⟩, hfailure _ _ _ _ _ hreport,
    houtline document r ⟨compared, 1⟩ c hdocument hcompared,
    hprinted explain compared none (some written) r c hwritten hcompared, rfl⟩

end Command

end DisplayLogic
