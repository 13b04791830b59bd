import DisplayLogic.Proofs.Command.Agreement
import DisplayLogic.Proofs.Compilation.Atoms

/-!
# The keys of a document as texts

The keys of a document are names, and the text of a name is read as the variable of its source, as
long as the name is whole. A name that begins with the word of a boolean is cut behind the word, and
what begins with a boolean is never a variable on its own (`compile_name_eq_ok_iff`). For the keys
that are whole a check shows the truth of their value.
-/

namespace DisplayLogic

namespace Grammar

/-- What means a variable on its own begins with the variable or with a parenthesis. -/
theorem Disjunction.head?_tokens_of_holds {e : Disjunction} {s : Source}
    (h : e.condition = .holds s) :
    e.tokens.head? = some (.source s) ∨ e.tokens.head? = some .openGroup := by
  cases e with
  | more first rest => nomatch h
  | single conjunction =>
      cases conjunction with
      | more first rest => nomatch h
      | single factor =>
          cases factor with
          | group inner => exact .inr rfl
          | literal value => nomatch h
          | comparison left relation right => nomatch h
          | holds source =>
              obtain rfl : source = s := Condition.holds.inj h
              exact .inl rfl

end Grammar

namespace Registry

open Grammar

variable {r : Registry}

/-- A text that is a variable does not begin with the word of a boolean. -/
theorem not_prefix_of_compile_holds {text : String} {line : Nat} {s : Source}
    (h : (r.compile ⟨text, line⟩).outcome = .ok (.holds s)) (value : Bool) :
    ¬ (booleanText value).toList <+: text.toList := by
  rintro ⟨cs, hcs⟩
  obtain ⟨e, hcuts, hcondition, -⟩ := compile_eq_ok_iff.mp h
  rw [← hcs] at hcuts
  obtain ⟨rest, htokens⟩ := exists_tokens_of_boolean hcuts
  have hhead := Disjunction.head?_tokens_of_holds hcondition
  rw [htokens, List.head?_cons] at hhead
  rcases hhead with hhead | hhead
  · nomatch hhead
  · nomatch hhead

/-- The text of a name is the variable of its source just when the name is whole. -/
theorem compile_name_eq_ok_iff {name : String} {entry : Entry}
    (hname : Name.isName name.toList = true) (hentry : r.find? name = some entry) (line : Nat) :
    (r.compile ⟨name, line⟩).outcome = .ok (.holds entry.source) ↔
      Name.IsWhole name.toList := by
  constructor
  · intro h
    exact ⟨hname, not_prefix_of_compile_holds h true, not_prefix_of_compile_holds h false⟩
  · intro hwhole
    have hsupplies : r.Supplies name.toList entry.source :=
      supplies_of_findQualified? hname (findQualified?_of_find? hentry)
    exact compile_source (.source hwhole hsupplies) line

end Registry

namespace Command

/-- Every key of a document that is accepted stands for the source of its last value. Its text is
that variable just when the key begins with neither boolean word, and a check of the text, strict or
lenient, then shows the truth of the value without a warning. -/
theorem check_key {explain : String → String} {text : String} {r : Registry}
    (hr : registryOf explain (some text) = .ok r) :
    ∃ members, Json.parse? text = some (.object members) ∧
      ∀ key ∈ members.map Prod.fst, ∃ value s,
        Json.memberValue? members.reverse key = some value ∧ value.source? key = some s ∧
        r.find? key = some ⟨s, []⟩ ∧
        ∀ line, ((r.compile ⟨key, line⟩).outcome = .ok (.holds s) ↔ Name.IsWhole key.toList) ∧
          (Name.IsWhole key.toList → ∀ strict, ∃ result,
            check explain (some text) ⟨key, line⟩ strict = .ok result ∧ result.fellBack = false ∧
            (∀ cells, result.value = (s.truth cells).value) ∧
            ∀ vars input : Option String, (vars <|> input) = some text →
              (Invocation.check key line strict vars).run explain input =
                .success (booleanText result.value ++ "\n") "") := by
  obtain ⟨document, hjson, hdocument⟩ := ofDocument_of_registryOf hr
  obtain ⟨members, rfl⟩ := Registry.exists_members_of_ofDocument hdocument
  refine ⟨members, hjson, ?_⟩
  intro key hkey
  obtain ⟨value, hvalue⟩ := Json.exists_memberValue?_reverse hkey
  obtain ⟨hname, s, hsource, hentry⟩ := Registry.find?_of_ofDocument hdocument hvalue
  refine ⟨value, s, hvalue, hsource, hentry, ?_⟩
  intro line
  have hiff := Registry.compile_name_eq_ok_iff hname hentry line
  refine ⟨hiff, ?_⟩
  intro hwhole strict
  have hcompile : (r.compile ⟨key, line⟩).outcome = .ok (.holds s) := hiff.mpr hwhole
  have hcheck := check_of_outcome_ok hr hcompile strict
  refine ⟨_, hcheck, rfl, ?_, ?_⟩
  · intro cells
    have hsame := (isFixed_of_registryOf hr).eval_eq hcompile cells noCells
    exact congrArg Observed.value hsame
  · intro vars input htext
    rw [Invocation.run, htext, hcheck]
    rfl

/-- The later of two values of a key counts, here for a document from the standard input. -/
theorem check_key_of_repeated_key :
    let explain := fun _ : String => "expected value at line 1 column 1"
    let text := "\x7b\"raining\":null,\"client:fps\":\"\",\"raining\":true\x7d"
    let raining : Source := .feed ⟨.boolean, "raining", .fixed (some (.boolean true))⟩
    ∃ r, registryOf explain (some text) = .ok r ∧ r.find? "raining" = some ⟨raining, []⟩ ∧
      Name.IsWhole "raining".toList ∧
      (r.compile ⟨"raining", 4⟩).outcome = .ok (.holds raining) ∧
      (none <|> some text) = some text ∧
      (Invocation.check "raining" 4 true none).run explain (some text) = .success "true\n" "" := by
  intro explain text raining
  let r := (Registry.empty.register "client:fps" ⟨.constant (.text ""), []⟩).register "raining"
    ⟨raining, []⟩
  have hr : registryOf explain
      (some "\x7b\"raining\":null,\"client:fps\":\"\",\"raining\":true\x7d") = .ok r := rfl
  have hjson : Json.parse? "\x7b\"raining\":null,\"client:fps\":\"\",\"raining\":true\x7d" =
      some (.object [("raining", .null), ("client:fps", .text ""), ("raining", .boolean true)]) :=
    rfl
  have hwhole : Name.IsWhole "raining".toList := ⟨by decide, by decide, by decide⟩
  obtain ⟨members, hmembers, hkeys⟩ := check_key hr
  obtain rfl := Json.object.inj (Option.some.inj (hmembers.symm.trans hjson))
  obtain ⟨value, s, -, -, hentry, hkey⟩ := hkeys "raining" (by decide)
  obtain rfl : raining = s := congrArg Entry.source (Option.some.inj hentry)
  obtain ⟨hiff, hcheck⟩ := hkey 4
  obtain ⟨result, -, -, hvalue, hrun⟩ := hcheck hwhole true
  refine ⟨r, hr, hentry, hwhole, hiff.mpr hwhole, rfl, ?_⟩
  rw [hrun none (some text) rfl, hvalue noCells]
  rfl

/-- A key may be taken for a boolean, or be cut into a boolean and a name that nothing stands for.
-/
theorem key_cut_behind_boolean :
    let explain := fun _ : String => "expected value at line 1 column 1"
    let text := "\x7b\"true\":false,\"truex\":false\x7d"
    let no (key : String) : Source := .feed ⟨.boolean, key, .fixed (some (.boolean false))⟩
    ∃ r, registryOf explain (some text) = .ok r ∧
      (r.find? "true" = some ⟨no "true", []⟩ ∧
        (r.compile ⟨"true", 1⟩).outcome = .ok (.literal true) ∧
        (r.compile ⟨"true", 1⟩).outcome ≠ .ok (.holds (no "true")) ∧
        (Invocation.check "true" 1 false (some text)).run explain none = .success "true\n" "") ∧
      (r.find? "truex" = some ⟨no "truex", []⟩ ∧
        (r.compile ⟨"truex", 1⟩).outcome = .error (.resolution (.unknown "\x7bx\x7d" 1)) ∧
        (Invocation.check "truex" 1 false (some text)).run explain none =
          .success "true\n" fallbackWarning) ∧
      ∀ key cells, ((no key).truth cells).value = false := by
  intro explain text no
  let r := (Registry.empty.register "true" ⟨no "true", []⟩).register "truex" ⟨no "truex", []⟩
  have hr : registryOf explain (some "\x7b\"true\":false,\"truex\":false\x7d") = .ok r := rfl
  have htrue : (r.compile ⟨"true", 1⟩).outcome = .ok (.literal true) := by rfl
  have hcut : (r.compile ⟨"truex", 1⟩).outcome =
      .error (.resolution (.unknown "\x7bx\x7d" 1)) := by rfl
  refine ⟨r, hr, ⟨rfl, htrue, ?_, ?_⟩, ⟨rfl, hcut, ?_⟩, ?_⟩
  · intro h
    nomatch htrue.symm.trans h
  · decide +kernel
  · decide +kernel
  · intro key cells
    rfl

end Command

end DisplayLogic
