import DisplayLogic.Proofs.Host.History
import DisplayLogic.Proofs.Name.Pattern

/-!
# Which entry a reference leads to

A registry is what a history of registrations has made of it, and all that a lookup can find of the
history is the latest registration of a name. `Registry.Resolves` says by the history alone what
becomes of a reference: whether it refers to a name, and whether the name, or else the name without
its first namespace, has been registered.

The rules for names are those of the pattern for references, so that a resolution through the parts
that the pattern captures finds the same. The host switches on the groups of the entry that was
found, and is left as it was if there is none.
-/

namespace DisplayLogic

namespace Registry

/-- The registry that some registrations lead to, in order. -/
def ofHistory (history : List (String × Entry)) : Registry :=
  history.foldl (fun r registered => r.register registered.1 registered.2) empty

/-- The latest registration of the name has given it the entry. -/
def IsLatest (history : List (String × Entry)) (name : String) (entry : Entry) : Prop :=
  ∃ earlier later, history = earlier ++ (name, entry) :: later ∧ name ∉ later.map Prod.fst

/-- What becomes of a reference after a history of registrations. -/
inductive Resolves (history : List (String × Entry)) (reference : String) (line : Nat) :
    Except ResolveError Binding → Prop where
  | malformed (h : ∀ name, Name.isName name = true → reference ≠ Name.reference name) :
      Resolves history reference line (.error (.malformed reference line))
  | whole {name : List Char} {entry : Entry} (hname : Name.isName name = true)
      (hreference : reference = Name.reference name)
      (h : IsLatest history (.ofList name) entry) :
      Resolves history reference line (.ok ⟨reference, line, entry⟩)
  | unqualified {name ns rest : List Char} {entry : Entry} (hname : Name.isName name = true)
      (hreference : reference = Name.reference name)
      (hwhole : .ofList name ∉ history.map Prod.fst) (hsplit : name = ns ++ ':' :: rest)
      (hns : ns ≠ []) (hcolon : ':' ∉ ns) (hrest : rest ≠ [])
      (h : IsLatest history (.ofList rest) entry) :
      Resolves history reference line (.ok ⟨reference, line, entry⟩)
  | unknown {name : List Char} (hname : Name.isName name = true)
      (hreference : reference = Name.reference name)
      (hwhole : .ofList name ∉ history.map Prod.fst)
      (h : ∀ ns rest, name = ns ++ ':' :: rest → ns ≠ [] → ':' ∉ ns → rest ≠ [] →
        .ofList rest ∉ history.map Prod.fst) :
      Resolves history reference line (.error (.unknown reference line))

/-- The resolution of a reference by the parts that its pattern captures. The whole name stands
between the braces, and the captured name counts only if a namespace has been captured. -/
def resolveCaptured (r : Registry) (reference : String) (line : Nat) :
    Except ResolveError Binding :=
  match Pattern.reference.search reference.toList with
  | none => .error (.malformed reference line)
  | some captured =>
    let whole := r.find? (.ofList reference.toList.tail.dropLast)
    let bare := (captured.lookup "ns").bind fun _ =>
      (captured.lookup "name").bind fun name => r.find? (.ofList name)
    match whole <|> bare with
    | none => .error (.unknown reference line)
    | some entry => .ok ⟨reference, line, entry⟩

variable {history : List (String × Entry)} {name : String} {entry : Entry}

/-! ### Histories -/

theorem find?_foldl_register (history : List (String × Entry)) (r : Registry) (name : String) :
    (history.foldl (fun r registered => r.register registered.1 registered.2) r).find? name =
      (history.reverse.lookup name).or (r.find? name) := by
  induction history generalizing r with
  | nil => rfl
  | cons registered later ih =>
      obtain ⟨key, value⟩ := registered
      rw [List.foldl_cons, ih, find?_register, List.reverse_cons, List.lookup_append,
        Option.or_assoc, List.lookup_cons]
      by_cases h : name = key
      · rw [if_pos h, beq_iff_eq.mpr h]
        rfl
      · rw [if_neg h, beq_false_of_ne h]
        rfl

theorem find?_ofHistory (history : List (String × Entry)) (name : String) :
    (ofHistory history).find? name = history.reverse.lookup name := by
  rw [ofHistory, find?_foldl_register, find?_empty, Option.or_none]

theorem forall_bne_iff_not_mem {registrations : List (String × Entry)} :
    (∀ registered ∈ registrations, (name != registered.1) = true) ↔
      name ∉ registrations.map Prod.fst := by
  constructor
  · intro h hmem
    obtain ⟨registered, hregistered, rfl⟩ := List.mem_map.mp hmem
    exact bne_iff_ne.mp (h registered hregistered) rfl
  · intro h registered hregistered
    rw [bne_iff_ne]
    rintro rfl
    exact h (List.mem_map_of_mem hregistered)

/-- What a name stands for was decided by its latest registration. -/
theorem find?_ofHistory_eq_some_iff :
    (ofHistory history).find? name = some entry ↔ IsLatest history name entry := by
  rw [find?_ofHistory, List.lookup_eq_some_iff]
  constructor
  · rintro ⟨later, earlier, hhistory, hlater⟩
    refine ⟨earlier.reverse, later.reverse, ?_, ?_⟩
    · rw [← List.reverse_reverse history, hhistory, List.reverse_append, List.reverse_cons,
        List.append_assoc, List.singleton_append]
    · rw [List.map_reverse, List.mem_reverse]
      exact forall_bne_iff_not_mem.mp hlater
  · rintro ⟨earlier, later, rfl, hlater⟩
    refine ⟨later.reverse, earlier.reverse, ?_, ?_⟩
    · rw [List.reverse_append, List.reverse_cons, List.append_assoc, List.singleton_append]
    · rw [forall_bne_iff_not_mem, List.map_reverse, List.mem_reverse]
      exact hlater

theorem find?_ofHistory_eq_none_iff :
    (ofHistory history).find? name = none ↔ name ∉ history.map Prod.fst := by
  rw [find?_ofHistory, List.lookup_eq_none_iff, forall_bne_iff_not_mem, List.map_reverse,
    List.mem_reverse]

/-! ### References -/

theorem findQualified?_eq_some_iff {r : Registry} {name : List Char} :
    r.findQualified? name = some entry ↔
      r.find? (.ofList name) = some entry ∨
        r.find? (.ofList name) = none ∧
          ∃ rest, Name.unqualified? name = some rest ∧ r.find? (.ofList rest) = some entry := by
  rw [findQualified?, Option.orElse_eq_some, Option.bind_eq_some_iff]

theorem findQualified?_eq_none_iff {r : Registry} {name : List Char} :
    r.findQualified? name = none ↔
      r.find? (.ofList name) = none ∧
        ∀ rest, Name.unqualified? name = some rest → r.find? (.ofList rest) = none := by
  rw [findQualified?, Option.orElse_eq_none, Option.bind_eq_none_iff]

variable {reference : String} {line : Nat}

/-- The resolution of every reference is described. -/
theorem resolves_resolve (history : List (String × Entry)) (reference : String) (line : Nat) :
    Resolves history reference line ((ofHistory history).resolve reference line) := by
  cases hread : Name.ofReference? reference with
  | none =>
      rw [resolve, hread]
      refine .malformed fun name hname hreference => ?_
      rw [Name.ofReference?_eq_some_iff.mpr ⟨hname, hreference⟩] at hread
      cases hread
  | some name =>
      obtain ⟨hname, hreference⟩ := Name.ofReference?_eq_some_iff.mp hread
      cases hfind : (ofHistory history).findQualified? name with
      | some entry =>
          rw [hreference, resolve_reference_of_some hname hfind, ← hreference]
          rcases findQualified?_eq_some_iff.mp hfind with hwhole | ⟨hnone, rest, hrest, hbare⟩
          · exact .whole hname hreference (find?_ofHistory_eq_some_iff.mp hwhole)
          · obtain ⟨ns, hsplit, hns, hcolon, hne⟩ := Name.unqualified?_eq_some_iff.mp hrest
            exact .unqualified hname hreference (find?_ofHistory_eq_none_iff.mp hnone) hsplit hns
              hcolon hne (find?_ofHistory_eq_some_iff.mp hbare)
      | none =>
          rw [hreference, resolve_reference_of_none hname hfind, ← hreference]
          obtain ⟨hnone, hbare⟩ := findQualified?_eq_none_iff.mp hfind
          refine .unknown hname hreference (find?_ofHistory_eq_none_iff.mp hnone) ?_
          intro ns rest hsplit hns hcolon hne
          have hrest := Name.unqualified?_eq_some_iff.mpr ⟨ns, hsplit, hns, hcolon, hne⟩
          exact find?_ofHistory_eq_none_iff.mp (hbare rest hrest)

/-- The description leaves no choice. -/
theorem Resolves.resolve_eq {outcome : Except ResolveError Binding}
    (h : Resolves history reference line outcome) :
    (ofHistory history).resolve reference line = outcome := by
  cases h with
  | malformed h =>
      cases hread : Name.ofReference? reference with
      | none => rw [resolve, hread]
      | some name =>
          obtain ⟨hname, hreference⟩ := Name.ofReference?_eq_some_iff.mp hread
          exact absurd hreference (h name hname)
  | whole hname hreference h =>
      rw [hreference]
      refine resolve_reference_of_some hname (findQualified?_eq_some_iff.mpr ?_) line
      exact .inl (find?_ofHistory_eq_some_iff.mpr h)
  | unqualified hname hreference hwhole hsplit hns hcolon hrest h =>
      rw [hreference]
      refine resolve_reference_of_some hname (findQualified?_eq_some_iff.mpr ?_) line
      refine .inr ⟨find?_ofHistory_eq_none_iff.mpr hwhole, _, ?_, find?_ofHistory_eq_some_iff.mpr h⟩
      exact Name.unqualified?_eq_some_iff.mpr ⟨_, hsplit, hns, hcolon, hrest⟩
  | unknown hname hreference hwhole h =>
      rw [hreference]
      refine resolve_reference_of_none hname (findQualified?_eq_none_iff.mpr ?_) line
      refine ⟨find?_ofHistory_eq_none_iff.mpr hwhole, fun rest hrest => ?_⟩
      obtain ⟨ns, hsplit, hns, hcolon, hne⟩ := Name.unqualified?_eq_some_iff.mp hrest
      exact find?_ofHistory_eq_none_iff.mpr (h ns rest hsplit hns hcolon hne)

/-- The parts that the pattern captures lead to the same entry. -/
theorem resolve_eq_resolveCaptured (r : Registry) (reference : String) (line : Nat) :
    r.resolve reference line = r.resolveCaptured reference line := by
  rw [resolveCaptured, Pattern.search_reference]
  cases hread : Name.ofReference? reference with
  | none =>
      rw [resolve, hread]
      rfl
  | some name =>
      obtain ⟨-, hreference⟩ := Name.ofReference?_eq_some_iff.mp hread
      have hwhole : reference.toList.tail.dropLast = name := by
        rw [hreference, Name.reference, String.toList_ofList, List.cons_append, List.tail_cons,
          List.dropLast_concat]
      simp only [resolve, hread, findQualified?, Option.map_some, hwhole]
      cases hrest : Name.unqualified? name with
      | none =>
          simp only [Pattern.capturedName, hrest]
          rfl
      | some rest =>
          simp only [Pattern.capturedName, hrest]
          rfl

end Registry

/-- After any registrations, a reference is resolved to the latest registration of the name in it
or, if there is none, of the name without its first namespace, and so it is by the parts that the
pattern for references captures. The groups become their union with those that the entry needs. A
reference that is not resolved leaves the host as it was. -/
theorem Host.resolve_after_history (history : List (String × Entry)) (reference : String)
    (line : Nat) (before : Host) :
    let r := Registry.ofHistory history
    let host : Host := { before with registry := r }
    let after := host.after (.resolve reference line)
    (∀ outcome, r.resolve reference line = outcome ↔
        Registry.Resolves history reference line outcome) ∧
      r.resolve reference line = r.resolveCaptured reference line ∧
      match r.resolve reference line with
      | .ok b => after = { host with groups := after.groups } ∧
          ∀ g, g ∈ after.groups ↔ g ∈ before.groups ∨ g ∈ b.entry.requires
      | .error _ => after = host := by
  intro r host after
  refine ⟨fun outcome => ⟨?_, Registry.Resolves.resolve_eq⟩, r.resolve_eq_resolveCaptured _ _, ?_⟩
  · rintro rfl
    exact Registry.resolves_resolve history reference line
  · cases hresolve : r.resolve reference line with
    | error e => simp only [after, host, Host.after, Host.resolve, hresolve, Except.map]
    | ok b =>
        have hafter : after = { host with groups := before.groups.bindAll [b] } := by
          simp only [after, host, Host.after, Host.resolve, hresolve, Except.map]
        rw [hafter]
        refine ⟨rfl, fun g => ?_⟩
        simp only [Groups.mem_bindAll, List.mem_singleton, exists_eq_left, or_comm]

end DisplayLogic
