import DisplayLogic.Host
import DisplayLogic.Proofs.Compilation.Groups
import DisplayLogic.Proofs.Condition.Parts

/-!
# What later events leave alone

A host lives through `Event`s: names are registered and registered again, expressions are compiled,
groups are switched on and off, cells are written and conditions are looked at. Names are looked up
when an expression is compiled and never again, so that none of this reaches a condition that is
kept already. In particular a condition can become that of an element, and the element can take over
a name that the condition was written with: the condition goes on asking the source that had the
name before, and nothing ever asks itself.
-/

namespace DisplayLogic

/-- Something that happens to a host. -/
inductive Event where
  | register (name : String) (entry : Entry)
  /-- A kept condition becomes the condition of an element, which is registered. -/
  | registerElement (kept name : String) (positive negative : List Source)
      (requires : List String)
  /-- An expression is compiled and, if it is not refused, its condition is kept. -/
  | compile (name : String) (e : Expression)
  /-- Expressions are compiled in order, and the condition to use for each is kept. -/
  | compileAll (outlines : Bool) (expressions : List (String × Expression))
  | resolve (reference : String) (line : Nat)
  | enable (group : String)
  | resetGroups
  | write (cell : String) (content : Option Constant)
  /-- A kept condition is looked at. -/
  | observe (kept : String)

namespace Host

/-- Keeps conditions under their names, in order. -/
def keepAll (h : Host) (conditions : List (String × Condition)) : Host :=
  conditions.foldl (fun h kept => h.keep kept.1 kept.2) h

/-- The host after an event. -/
def after (h : Host) : Event → Host
  | .register name entry => h.register name entry
  | .registerElement kept name positive negative requires =>
      match h.condition? kept with
      | none => h
      | some c => h.register name ⟨.element c positive negative, requires⟩
  | .compile name e =>
      match (h.compile e).1.outcome with
      | .ok c => (h.compile e).2.keep name c
      | .error _ => (h.compile e).2
  | .compileAll outlines expressions =>
      let batch := h.compileAll outlines (expressions.map (·.2))
      batch.2.keepAll ((expressions.map (·.1)).zip batch.1.conditions)
  | .resolve reference line =>
      match h.resolve reference line with
      | .ok (_, h') => h'
      | .error _ => h
  | .enable group => h.enable group
  | .resetGroups => h.resetGroups
  | .write cell content => h.write cell content
  | .observe kept =>
      match h.condition? kept with
      | none => h
      | some c => (h.observe fun cells => c.eval cells).2

/-- The host after some events, in order. -/
def run (h : Host) (events : List Event) : Host := events.foldl after h

/-- What a host shows of the condition that it kept after `i` others: for any contents of the cells
its truth with the reads that this takes, and its outline. -/
def shown? (h : Host) (i : Nat) : Option ((Cells → Observed Bool) × List String) :=
  (h.conditions.reverse[i]?).map fun kept => (fun cells => kept.2.eval cells, kept.2.outline)

theorem conditions_suffix_keepAll (h : Host) (conditions : List (String × Condition)) :
    h.conditions <:+ (h.keepAll conditions).conditions := by
  induction conditions generalizing h with
  | nil => exact List.suffix_rfl
  | cons kept rest ih =>
      exact (List.suffix_cons kept h.conditions).trans (ih (h.keep kept.1 kept.2))

/-- An event drops no condition and changes none. -/
theorem conditions_suffix_after (h : Host) (event : Event) :
    h.conditions <:+ (h.after event).conditions := by
  cases event with
  | registerElement kept name positive negative requires =>
      simp only [after]
      split
      · exact List.suffix_rfl
      · exact List.suffix_rfl
  | compile name e =>
      simp only [after]
      split
      · exact List.suffix_cons _ _
      · exact List.suffix_rfl
  | compileAll outlines expressions =>
      exact conditions_suffix_keepAll (h.compileAll outlines (expressions.map (·.2))).2 _
  | resolve reference line =>
      cases hresolve : h.registry.resolve reference line with
      | error e =>
          simp only [after, resolve, hresolve]
          exact List.suffix_rfl
      | ok binding =>
          simp only [after, resolve, hresolve]
          exact List.suffix_rfl
  | observe kept =>
      simp only [after]
      split
      · exact List.suffix_rfl
      · exact List.suffix_rfl
  | _ => exact List.suffix_rfl

theorem conditions_suffix_run (h : Host) (events : List Event) :
    h.conditions <:+ (h.run events).conditions := by
  induction events generalizing h with
  | nil => exact List.suffix_rfl
  | cons event rest ih => exact (h.conditions_suffix_after event).trans (ih (h.after event))

theorem shown?_run (h : Host) (events : List Event) {i : Nat} (hi : i < h.conditions.length) :
    (h.run events).shown? i = h.shown? i := by
  obtain ⟨newer, hnewer⟩ := h.conditions_suffix_run events
  have hlength : i < h.conditions.reverse.length := by rwa [List.length_reverse]
  rw [shown?, shown?, ← hnewer, List.reverse_append, List.getElem?_append_left hlength]

theorem shown?_keep (h : Host) (name : String) (c : Condition) :
    (h.keep name c).shown? h.conditions.length = some (fun cells => c.eval cells, c.outline) := by
  have hlast : (h.keep name c).conditions.reverse[h.conditions.length]? = some (name, c) := by
    rw [keep, List.reverse_cons, ← List.length_reverse, List.getElem?_concat_length]
  rw [shown?, hlast]
  rfl

/-- A condition is bound when it is compiled. Its variables are the sources that its names led to
then. Whatever happens to the host later, it shows what it would have shown at once, over any
contents of the cells, and so does every condition that was kept before. No variable of it and no
source that is registered by then, under whatever name, is a part of itself or begins an endless
chain of parts, and none of them reads more than its feeds. -/
theorem bound_when_compiled {h : Host} {e : Expression} {c : Condition}
    (hc : (h.registry.compile e).outcome = .ok c) (name : String) (later : List Event) :
    let host := (h.after (.compile name e)).run later
    List.Forall₂ (fun word s => ∃ entry, h.registry.findQualified? word = some entry ∧
        entry.source = s)
      ((Scan.ofChars e.text.toList).pieces.filterMap Piece.name?) c.variables ∧
    host.shown? h.conditions.length = some (fun cells => c.eval cells, c.outline) ∧
    (∀ i < h.conditions.length, host.shown? i = h.shown? i) ∧
    (∀ cells, (c.eval cells).reads.Sublist c.feeds) ∧
    ∀ s : Source,
      (s ∈ c.variables ∨ ∃ word entry, host.registry.find? word = some entry ∧ entry.source = s) →
      ¬ Relation.TransGen Source.IsPartOf s s ∧
      (∀ chain : Nat → Source, chain 0 = s → ∃ n, ¬ (chain (n + 1)).IsPartOf (chain n)) ∧
      ∀ cells, (s.text cells).reads.Sublist s.feeds ∧ (s.number cells).reads.Sublist s.feeds ∧
        (s.truth cells).reads.Sublist s.feeds := by
  intro host
  have hafter : h.after (.compile name e) = (h.compile e).2.keep name c := by
    simp only [after, Host.compile, hc]
  have hshown : (h.after (.compile name e)).shown? h.conditions.length =
      some (fun cells => c.eval cells, c.outline) := by
    rw [hafter]
    exact shown?_keep (h.compile e).2 name c
  have hlength : (h.after (.compile name e)).conditions.length = h.conditions.length + 1 := by
    rw [hafter]
    rfl
  refine ⟨Registry.forall₂_variables_of_compile hc, ?_, ?_, ?_, ?_⟩
  · rw [← hshown]
    exact shown?_run _ later (by omega)
  · intro i hi
    exact h.shown?_run (.compile name e :: later) hi
  · intro cells
    rw [c.eval_eq]
    exact c.reads_sublist cells
  · intro s _
    refine ⟨s.not_transGen_isPartOf, ?_, ?_⟩
    · intro chain _
      have hwell : IsWellFounded Source Source.IsPartOf := ⟨Source.wellFounded_isPartOf⟩
      exact WellFounded.not_rel_apply_succ chain
    · intro cells
      rw [s.text_eq, s.number_eq, s.truth_eq]
      exact ⟨s.reads_sublist cells .text, s.reads_sublist cells .number,
        s.reads_sublist cells .boolean⟩

/-- An element takes over a name that its own condition was written with. From then on the name
leads to the element, while the condition goes on asking for the health. -/
theorem bound_below_element :
    let health : Source := .feed ⟨.number, "health", .cell "hp"⟩
    let h : Host := Host.empty.register "hp" ⟨health, []⟩
    let e : Expression := ⟨"hp = true", 1⟩
    let c : Condition :=
      .comparison (.source health) .equal (.literal (.boolean true)) ⟨true, false⟩
    let element : Source := .element c [health] []
    let later : List Event := [.registerElement "alive" "hp" [health] [] ["world"],
      .write "hp" (some (.number .one)), .observe "alive"]
    let host := (h.after (.compile "alive" e)).run later
    (h.registry.compile e).outcome = .ok c ∧
      host.registry.find? "hp" = some ⟨element, ["world"]⟩ ∧
      (host.registry.compile ⟨"hp", 2⟩).outcome = .ok (.holds element) ∧
      host.shown? 0 = some (fun cells => c.eval cells, c.outline) ∧
      ¬ Relation.TransGen Source.IsPartOf element element := by
  intro health h e c element later host
  have hlex : (h.registry.lex "hp = true" 1).toExcept =
    .ok [.source health, .relation .equal, .boolean true] := rfl
  have hc : (h.registry.compile e).outcome = .ok c :=
    Compilation.outcome_eq_ok_iff.mpr ⟨_, hlex, rfl⟩
  have hafter : h.after (.compile "alive" e) = (h.compile e).2.keep "alive" c := by
    simp only [after, Host.compile, hc]
  have hfind : host.registry.find? "hp" = some ⟨element, ["world"]⟩ := by
    simp only [host, hafter]
    rfl
  have hlex' : (host.registry.lex "hp" 2).toExcept = .ok [.source element] := by
    simp only [host, hafter]
    rfl
  have hc' : (host.registry.compile ⟨"hp", 2⟩).outcome = .ok (.holds element) :=
    Compilation.outcome_eq_ok_iff.mpr ⟨_, hlex', rfl⟩
  obtain ⟨-, hshown, -, -, hparts⟩ := bound_when_compiled hc "alive" later
  exact ⟨hc, hfind, hc', hshown, (hparts element (.inr ⟨"hp", _, hfind, rfl⟩)).1⟩

end Host

end DisplayLogic
