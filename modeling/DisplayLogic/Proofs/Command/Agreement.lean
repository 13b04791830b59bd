import DisplayLogic.Command.Run
import DisplayLogic.Proofs.Compilation.Batch
import DisplayLogic.Proofs.Registry.Document

/-!
# The commands agree with the compiler

A text is compiled by the check, strict or lenient, by the outline and by a batch, and each of them
deals with a refused text in its own way. They nevertheless say the same. All of them rest on one
compilation: a strict check and an outline are its outcome carried over to another result
(`check_strict_eq`, `outline_eq`), and a lenient check is the result of a condition that is always
there (`check_lenient_eq`). `Agreement` collects what follows for the caller, and `Outcome.Shows`
what the program makes of it.
-/

namespace DisplayLogic

namespace Compilation

variable {c : Compilation}

theorem isRefused_eq_false_iff : c.isRefused = false ↔ ∃ condition, c.outcome = .ok condition := by
  unfold isRefused
  cases c.outcome with
  | error e => simp
  | ok condition => simp

/-- A text that was refused counts as true, whatever the cells hold. -/
theorem eval_condition_of_isRefused (h : c.isRefused = true) (cells : Cells) :
    (c.condition.eval cells).value = true := by
  unfold isRefused at h
  unfold condition
  cases houtcome : c.outcome with
  | error e => rfl
  | ok condition =>
      rw [houtcome] at h
      nomatch h

theorem condition_of_ok {condition : Condition} (h : c.outcome = .ok condition) :
    c.condition = condition := by
  rw [Compilation.condition, h]

end Compilation

/-- The condition to use for a text, whether or not it was refused, is as true in all contents. -/
theorem Registry.IsFixed.eval_condition_eq {r : Registry} (hr : r.IsFixed) (e : Expression)
    (cells cells' : Cells) :
    ((r.compile e).condition.eval cells').value = ((r.compile e).condition.eval cells).value := by
  cases h : (r.compile e).outcome with
  | ok condition => rw [Compilation.condition_of_ok h, hr.eval_eq h cells cells']
  | error error =>
      have hrefused : (r.compile e).isRefused = true := by rw [Compilation.isRefused, h]
      rw [Compilation.eval_condition_of_isRefused hrefused,
        Compilation.eval_condition_of_isRefused hrefused]

namespace Command

/-- The result of a check of a compiled text that makes do with what there is. -/
def CheckResult.ofCompilation (c : Compilation) : CheckResult :=
  ⟨(c.condition.eval noCells).value, c.isRefused, c.groups .empty⟩

/-- The warnings among some records. -/
def warningsIn (log : List LogRecord) : List LogRecord := log.filter fun r => r.level = .warning

variable {explain : String → String} {document : Option String} {r : Registry} {e : Expression}

/-! ### The commands in terms of the compilation -/

theorem ofDocument_of_registryOf {text : String}
    (hr : registryOf explain (some text) = .ok r) :
    ∃ document, Json.parse? text = some document ∧ Registry.ofDocument document = .ok r := by
  simp only [registryOf] at hr
  cases hjson : Json.parse? text with
  | none =>
      rw [hjson] at hr
      nomatch hr
  | some document =>
      rw [hjson] at hr
      exact ⟨document, rfl, Outcome.mapError_eq_ok_iff.mp hr⟩

/-- The commands know no registries but the empty one and those of documents. -/
theorem holds_of_registryOf {P : Registry → Prop} (hempty : P .empty)
    (hdocument : ∀ value r, Registry.ofDocument value = .ok r → P r)
    (hr : registryOf explain document = .ok r) : P r := by
  cases document with
  | none =>
      cases hr
      exact hempty
  | some text =>
      obtain ⟨value, -, hvalue⟩ := ofDocument_of_registryOf hr
      exact hdocument value r hvalue

theorem isFixed_of_registryOf (hr : registryOf explain document = .ok r) : r.IsFixed :=
  holds_of_registryOf Registry.isFixed_empty (fun _ _ => Registry.isFixed_of_ofDocument) hr

theorem check_of_registryOf_error {error : Error} (hr : registryOf explain document = .error error)
    (strict : Bool) : check explain document e strict = .error error := by
  rw [check, hr]
  rfl

theorem outline_of_registryOf_error {error : Error}
    (hr : registryOf explain document = .error error) :
    outline explain document e = .error error := by
  rw [outline, hr]
  rfl

theorem check_of_registryOf (hr : registryOf explain document = .ok r) (strict : Bool) :
    check explain document e strict = checkAgainst r e strict := by
  rw [check, hr]
  rfl

/-- A strict check has a result just when the text compiles. -/
theorem check_strict_eq (hr : registryOf explain document = .ok r) :
    check explain document e true =
      ((r.compile e).outcome.mapError .refused).map fun _ =>
        CheckResult.ofCompilation (r.compile e) := by
  rw [check_of_registryOf hr]
  cases h : (r.compile e).outcome with
  | error cause =>
      simp only [checkAgainst, h]
      rfl
  | ok condition =>
      simp only [checkAgainst, h]
      rfl

/-- A lenient check always has a result. -/
theorem check_lenient_eq (hr : registryOf explain document = .ok r) :
    check explain document e false = .ok (CheckResult.ofCompilation (r.compile e)) := by
  rw [check_of_registryOf hr]
  cases h : (r.compile e).outcome with
  | error cause =>
      simp only [checkAgainst, h]
      rfl
  | ok condition =>
      simp only [checkAgainst, h]
      rfl

theorem outline_eq (hr : registryOf explain document = .ok r) :
    outline explain document e =
      ((r.compile e).outcome.mapError .refused).map Condition.outline := by
  have houtline : outline explain document e =
      ((r.compile e).outcome.mapError .refused >>= fun c => return c.outline) := by
    rw [outline, hr]
    rfl
  rw [houtline]
  cases (r.compile e).outcome with
  | error cause => rfl
  | ok condition => rfl

/-- Whether a check is strict does not matter to a text that compiles. -/
theorem check_of_outcome_ok (hr : registryOf explain document = .ok r) {c : Condition}
    (h : (r.compile e).outcome = .ok c) (strict : Bool) :
    check explain document e strict =
      .ok ⟨(c.eval noCells).value, false, (r.compile e).groups .empty⟩ := by
  have hresult : CheckResult.ofCompilation (r.compile e) =
      ⟨(c.eval noCells).value, false, (r.compile e).groups .empty⟩ := by
    rw [CheckResult.ofCompilation, Compilation.condition_of_ok h,
      Compilation.isRefused_eq_false_iff.mpr ⟨c, h⟩]
  cases strict with
  | false => rw [check_lenient_eq hr, hresult]
  | true =>
      rw [check_strict_eq hr, h, hresult]
      rfl

/-! ### The log -/

theorem warningsIn_append (log log' : List LogRecord) :
    warningsIn (log ++ log') = warningsIn log ++ warningsIn log' :=
  List.filter_append log log'

theorem warningsIn_bindings (bindings : List Binding) :
    warningsIn (bindings.map Binding.record) = [] := by
  rw [warningsIn, List.filter_eq_nil_iff]
  intro record hrecord
  obtain ⟨b, -, rfl⟩ := List.mem_map.mp hrecord
  simp [Binding.record]

/-- Outlines are no warnings. -/
theorem warningsIn_reports (c : Compilation) (outlines : Bool) :
    warningsIn ((c.reports e outlines).map Report.record) = warnings c e false := by
  unfold Compilation.reports warnings
  cases c.outcome with
  | error error => rfl
  | ok condition =>
      cases outlines with
      | false => rfl
      | true =>
          rw [warningsIn, List.filter_eq_nil_iff]
          simp [Report.record]

theorem warningsIn_warnings (c : Compilation) :
    warningsIn (warnings c e false) = warnings c e false := by
  unfold warnings
  cases c.outcome with
  | error error => rfl
  | ok condition => rfl

theorem length_warnings (c : Compilation) :
    (warnings c e false).length = if c.isRefused then 1 else 0 := by
  unfold warnings Compilation.isRefused
  cases c.outcome with
  | error error => rfl
  | ok condition => rfl

theorem warningsIn_checkLog (hr : registryOf explain document = .ok r) :
    warningsIn (checkLog explain document e false) = warnings (r.compile e) e false := by
  simp only [checkLog, hr]
  rw [warningsIn_append, warningsIn_bindings, warningsIn_warnings, List.nil_append]

theorem warningsIn_log_compileAll (outlines : Bool) (before : Groups) :
    warningsIn (r.compileAll outlines before [e]).log = warnings (r.compile e) e false := by
  rw [Registry.compileAll_singleton, warningsIn_append, warningsIn_bindings, warningsIn_reports,
    List.nil_append]

/-! ### Agreement -/

/-- All ways to ask about an expression agree with its compilation against a registry. -/
structure Agreement (explain : String → String) (document : Option String) (r : Registry)
    (e : Expression) (lenient : CheckResult) : Prop where
  check_lenient : check explain document e false = .ok lenient
  check_succeeds_iff :
    (∃ result, check explain document e true = .ok result) ↔ ∃ c, (r.compile e).outcome = .ok c
  outline_succeeds_iff :
    (∃ lines, outline explain document e = .ok lines) ↔ ∃ c, (r.compile e).outcome = .ok c
  fellBack_iff : lenient.fellBack = false ↔ ∃ c, (r.compile e).outcome = .ok c
  check_fails_iff : ∀ error, check explain document e true = .error error ↔
    ∃ cause, (r.compile e).outcome = .error cause ∧ error = .refused cause
  outline_fails_iff : ∀ error, outline explain document e = .error error ↔
    ∃ cause, (r.compile e).outcome = .error cause ∧ error = .refused cause
  check_strict : ∀ result, check explain document e true = .ok result → result = lenient
  /-- A batch has one condition for the expression, which is as true as the check says. -/
  value_eq : ∀ outlines before, ∃ c, (r.compileAll outlines before [e]).conditions = [c] ∧
    ∀ cells, (c.eval cells).value = lenient.value
  value_of_fellBack : lenient.fellBack = true → lenient.value = true
  groups_eq : ∀ outlines, (r.compileAll outlines .empty [e]).groups = lenient.groups
  warnings_eq : ∀ outlines before, warningsIn (checkLog explain document e false) =
    warningsIn (r.compileAll outlines before [e]).log
  length_warnings :
    (warningsIn (checkLog explain document e false)).length = if lenient.fellBack then 1 else 0
  outline_eq : ∀ lines, outline explain document e = .ok lines → ∀ before,
    (r.compileAll true before [e]).reports = .trace e.heading :: lines.map .trace

theorem agreement_of_registryOf (hr : registryOf explain document = .ok r) :
    Agreement explain document r e (.ofCompilation (r.compile e)) where
  check_lenient := check_lenient_eq hr
  check_succeeds_iff := by
    rw [check_strict_eq hr, Outcome.exists_map_eq_ok_iff]
    simp only [Outcome.mapError_eq_ok_iff]
  outline_succeeds_iff := by
    rw [Command.outline_eq hr, Outcome.exists_map_eq_ok_iff]
    simp only [Outcome.mapError_eq_ok_iff]
  fellBack_iff := Compilation.isRefused_eq_false_iff
  check_fails_iff error := by
    rw [check_strict_eq hr, Outcome.map_eq_error_iff, Outcome.mapError_eq_error_iff]
  outline_fails_iff error := by
    rw [Command.outline_eq hr, Outcome.map_eq_error_iff, Outcome.mapError_eq_error_iff]
  check_strict result hresult := by
    rw [check_strict_eq hr] at hresult
    obtain ⟨-, -, hlenient⟩ := Outcome.map_eq_ok_iff.mp hresult
    exact hlenient.symm
  value_eq outlines before := by
    refine ⟨(r.compile e).condition, ?_, ?_⟩
    · rw [Registry.compileAll_singleton]
    · exact (isFixed_of_registryOf hr).eval_condition_eq e noCells
  value_of_fellBack h := Compilation.eval_condition_of_isRefused h noCells
  groups_eq outlines := by
    rw [Registry.compileAll_singleton]
    rfl
  warnings_eq outlines before := by
    rw [warningsIn_checkLog hr, warningsIn_log_compileAll]
  length_warnings := by
    rw [warningsIn_checkLog hr, Command.length_warnings]
    rfl
  outline_eq lines hlines before := by
    rw [Command.outline_eq hr] at hlines
    obtain ⟨c, hc, rfl⟩ := Outcome.map_eq_ok_iff.mp hlines
    have houtcome : (r.compile e).outcome = .ok c := Outcome.mapError_eq_ok_iff.mp hc
    rw [Registry.compileAll_singleton, Compilation.reports, houtcome]
    rfl

/-! ### What the program shows -/

/-- A command ends well just when there is a result, which it prints with its warnings. Otherwise it
prints nothing but the message of the error. -/
structure Outcome.Shows {α : Type} (outcome : Outcome) (result : Except Error α)
    (output warnings : α → String) : Prop where
  exitCode_eq_zero_iff : outcome.exitCode = 0 ↔ ∃ a, result = .ok a
  of_ok : ∀ a, result = .ok a → outcome.output = output a ∧ outcome.errorOutput = warnings a
  of_error : ∀ error, result = .error error →
    outcome.exitCode = 1 ∧ outcome.output = "" ∧ outcome.errorOutput = error.message ++ "\n"

theorem shows_failure {α : Type} {error : Error} {output warnings : α → String} :
    (Outcome.failure error).Shows (.error error) output warnings where
  exitCode_eq_zero_iff := by simp [Outcome.exitCode]
  of_ok := nofun
  of_error _ h := by
    cases h
    exact ⟨rfl, rfl, rfl⟩

theorem shows_success {α : Type} {a : α} {output warnings : α → String} {printed warned : String}
    (houtput : printed = output a) (hwarnings : warned = warnings a) :
    (Outcome.success printed warned).Shows (.ok a) output warnings where
  exitCode_eq_zero_iff := by simp [Outcome.exitCode]
  of_ok _ h := by
    cases h
    exact ⟨houtput, hwarnings⟩
  of_error := nofun

theorem shows_checkOutcome (result : Except Error CheckResult) :
    (checkOutcome result).Shows result (fun a => booleanText a.value ++ "\n")
      fun a => if a.fellBack then fallbackWarning else "" := by
  cases result with
  | error error => exact shows_failure
  | ok a => exact shows_success rfl rfl

theorem shows_ofText {α : Type} (result : Except Error α) (output : α → String) :
    (Outcome.ofText (result.map output)).Shows result output fun _ => "" := by
  cases result with
  | error error => exact shows_failure
  | ok a => exact shows_success rfl rfl

/-- Of a document that is refused all commands say the same. Otherwise the commands agree with the
compilation against its registry, and the program shows what the commands say of the document that
is given as an option or else read. -/
theorem commands_agree (explain : String → String) (document : Option String) (e : Expression) :
    (∀ error, registryOf explain document = .error error →
      (∀ strict, check explain document e strict = .error error) ∧
        outline explain document e = .error error) ∧
    (∀ r, registryOf explain document = .ok r → ∃ lenient, Agreement explain document r e lenient) ∧
    ∀ vars input : Option String, (vars <|> input) = document →
      (∀ strict, ((Invocation.check e.text e.line strict vars).run explain input).Shows
        (check explain document e strict) (fun result => booleanText result.value ++ "\n")
        fun result => if result.fellBack then fallbackWarning else "") ∧
      ((Invocation.tree e.text vars).run explain input).Shows
        (outline explain document ⟨e.text, 1⟩) linesText fun _ => "" := by
  refine ⟨?_, ?_, ?_⟩
  · intro error hr
    exact ⟨check_of_registryOf_error hr, outline_of_registryOf_error hr⟩
  · intro r hr
    exact ⟨.ofCompilation (r.compile e), agreement_of_registryOf hr⟩
  · rintro vars input rfl
    refine ⟨?_, ?_⟩
    · intro strict
      exact shows_checkOutcome _
    · exact shows_ofText _ linesText

/-- A document that is no JSON is refused by all commands, and the program prints what the reader
says. Without a document an unknown name counts as true to a lenient check, which the program says
with a warning. -/
theorem commands_agree_on_unknown_name :
    let explain := fun _ : String => "EOF while parsing a list at line 1 column 1"
    let refusal : Error := .invalidJson "EOF while parsing a list at line 1 column 1"
    let e : Expression := ⟨"raining", 3⟩
    let refused := (Invocation.check e.text e.line false (some "[")).run explain none
    let shown := (Invocation.check e.text e.line false none).run explain none
    (registryOf explain (some "[") = .error refusal ∧
      check explain (some "[") e false = .error refusal ∧
      outline explain (some "[") e = .error refusal) ∧
    (refused.exitCode = 1 ∧ refused.output = "" ∧
      refused.errorOutput = "Invalid JSON: EOF while parsing a list at line 1 column 1\n") ∧
    (registryOf explain none = .ok .empty ∧
      ∃ lenient, Agreement explain none .empty e lenient ∧ lenient.fellBack = true) ∧
    (none <|> none) = (none : Option String) ∧
      shown.exitCode = 0 ∧ shown.output = "true\n" ∧ shown.errorOutput = fallbackWarning := by
  intro explain refusal e refused shown
  have hparse : Json.parse? "[" = none := by decide +kernel
  have hrejected : registryOf explain (some "[") = .error refusal := by
    simp only [registryOf, hparse]
    rfl
  have hrefused : (Registry.empty.compile e).isRefused = true := by decide +kernel
  obtain ⟨hfails, -, hcomplains⟩ := commands_agree explain (some "[") e
  obtain ⟨hcheck, houtline⟩ := hfails refusal hrejected
  obtain ⟨hcomplaint, -⟩ := hcomplains (some "[") none rfl
  obtain ⟨-, hagrees, hprogram⟩ := commands_agree explain none e
  obtain ⟨lenient, hlenient⟩ := hagrees .empty rfl
  obtain ⟨hshows, -⟩ := hprogram none none rfl
  have hfellBack : lenient.fellBack = true := by
    rw [← Bool.not_eq_false, hlenient.fellBack_iff, ← Compilation.isRefused_eq_false_iff, hrefused]
    exact Bool.noConfusion
  obtain ⟨houtput, hwarnings⟩ := (hshows false).of_ok lenient hlenient.check_lenient
  refine ⟨⟨hrejected, hcheck false, houtline⟩, (hcomplaint false).of_error refusal (hcheck false),
    ⟨rfl, lenient, hlenient, hfellBack⟩, rfl, ?_, ?_, ?_⟩
  · exact (hshows false).exitCode_eq_zero_iff.mpr ⟨lenient, hlenient.check_lenient⟩
  · rw [houtput, hlenient.value_of_fellBack hfellBack]
    rfl
  · rw [hwarnings, if_pos hfellBack]

end Command

end DisplayLogic
