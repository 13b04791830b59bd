/-!
# Outcomes of stages

Stages that may fail are run in `Except`. The lemmas here say when a sequence of stages, a stage
under another kind of error, or a stage for each member of a list has a good outcome. An outcome
carried over to another result or error is good or bad as before. `error?` is what is wrong with a
bad outcome; of the members of a list the first one with an error decides. `FirstFault` says the
same without a function that finds the fault.
-/

namespace DisplayLogic.Outcome

/-- The error, if the outcome is bad. -/
def error? {ε α : Type} : Except ε α → Option ε
  | .error e => some e
  | .ok _ => none

theorem bind_eq_ok_iff {ε α β : Type} {x : Except ε α} {f : α → Except ε β} {b : β} :
    (x >>= f) = .ok b ↔ ∃ a, x = .ok a ∧ f a = .ok b := by
  cases x with
  | error e => simp [bind, Except.bind]
  | ok a => simp [bind, Except.bind]

theorem bind_eq_error_iff {ε α β : Type} {x : Except ε α} {f : α → Except ε β} {e : ε} :
    (x >>= f) = .error e ↔ x = .error e ∨ ∃ a, x = .ok a ∧ f a = .error e := by
  cases x with
  | error e' => simp [bind, Except.bind]
  | ok a => simp [bind, Except.bind]

theorem map_eq_ok_iff {ε α β : Type} {x : Except ε α} {f : α → β} {b : β} :
    (do let a ← x; return f a) = .ok b ↔ ∃ a, x = .ok a ∧ f a = b := by
  cases x with
  | error e => simp [bind, Except.bind]
  | ok a => simp [bind, Except.bind, pure, Except.pure]

theorem mapError_eq_ok_iff {ε ε' α : Type} {x : Except ε α} {f : ε → ε'} {a : α} :
    x.mapError f = .ok a ↔ x = .ok a := by
  cases x with
  | error e =>
      constructor
      · intro h
        cases h
      · intro h
        cases h
  | ok b =>
      constructor
      · intro h
        cases h
        rfl
      · intro h
        cases h
        rfl

theorem exists_map_eq_ok_iff {ε α β : Type} {x : Except ε α} {f : α → β} :
    (∃ b, x.map f = .ok b) ↔ ∃ a, x = .ok a := by
  cases x with
  | error e => simp [Except.map]
  | ok a => simp [Except.map]

theorem map_eq_error_iff {ε α β : Type} {x : Except ε α} {f : α → β} {e : ε} :
    x.map f = .error e ↔ x = .error e := by
  cases x with
  | error e' => simp [Except.map]
  | ok a => simp [Except.map]

theorem mapError_eq_error_iff {ε ε' α : Type} {x : Except ε α} {f : ε → ε'} {e' : ε'} :
    x.mapError f = .error e' ↔ ∃ e, x = .error e ∧ e' = f e := by
  cases x with
  | error e =>
      constructor
      · intro h
        cases h
        exact ⟨e, rfl, rfl⟩
      · rintro ⟨e, ⟨⟩, rfl⟩
        rfl
  | ok a =>
      constructor
      · intro h
        cases h
      · rintro ⟨e, ⟨⟩, -⟩

theorem mapError_bind {ε ε' α β : Type} (x : Except ε α) (f : α → Except ε β) (g : ε → ε') :
    (x >>= f).mapError g = x.mapError g >>= fun a => (f a).mapError g := by
  cases x <;> rfl

theorem mapM_cons_eq_ok_iff {ε α β : Type} {f : α → Except ε β} {a : α} {as : List α}
    {bs : List β} :
    (a :: as).mapM f = .ok bs ↔
      ∃ b rest, f a = .ok b ∧ as.mapM f = .ok rest ∧ bs = b :: rest := by
  rw [List.mapM_cons, bind_eq_ok_iff]
  constructor
  · rintro ⟨b, hb, h⟩
    obtain ⟨rest, hrest, rfl⟩ := map_eq_ok_iff.mp h
    exact ⟨b, rest, hb, hrest, rfl⟩
  · rintro ⟨b, rest, hb, hrest, rfl⟩
    exact ⟨b, hb, map_eq_ok_iff.mpr ⟨rest, hrest, rfl⟩⟩

theorem error?_eq_some_iff {ε α : Type} {x : Except ε α} {e : ε} :
    error? x = some e ↔ x = .error e := by
  cases x <;> simp [error?]

theorem error?_map {ε α β : Type} (x : Except ε α) (f : α → β) :
    error? (do let a ← x; return f a) = error? x := by
  cases x <;> rfl

theorem error?_mapM {ε α β : Type} (f : α → Except ε β) (as : List α) :
    error? (as.mapM f) = as.findSome? fun a => error? (f a) := by
  induction as with
  | nil => rfl
  | cons a rest ih =>
      rw [List.mapM_cons, List.findSome?_cons, ← ih]
      cases f a with
      | error e => rfl
      | ok b => exact error?_map _ _

/-- The fault of the first member of a list that has one. -/
def FirstFault {α ε : Type} (Fault : α → ε → Prop) (as : List α) (e : ε) : Prop :=
  ∃ before a behind, as = before ++ a :: behind ∧ (∀ b ∈ before, ∀ e', ¬ Fault b e') ∧ Fault a e

section Faults

variable {α ε : Type} {Fault : α → ε → Prop} {f : α → Option ε} {as : List α}

theorem eq_none_iff_forall_not_fault (h : ∀ a e, f a = some e ↔ Fault a e) (a : α) :
    f a = none ↔ ∀ e, ¬ Fault a e := by
  simp only [Option.eq_none_iff_forall_ne_some, ne_eq, h]

theorem findSome?_eq_none_iff_forall_not_fault (h : ∀ a e, f a = some e ↔ Fault a e) :
    as.findSome? f = none ↔ ∀ a ∈ as, ∀ e, ¬ Fault a e := by
  simp only [List.findSome?_eq_none_iff, eq_none_iff_forall_not_fault h]

theorem findSome?_eq_some_iff_firstFault (h : ∀ a e, f a = some e ↔ Fault a e) {e : ε} :
    as.findSome? f = some e ↔ FirstFault Fault as e := by
  simp only [List.findSome?_eq_some_iff, eq_none_iff_forall_not_fault h, h, FirstFault, and_comm]

end Faults

theorem findSome?_congr {α ε : Type} {f g : α → Option ε} {as : List α}
    (h : ∀ a ∈ as, f a = g a) : as.findSome? f = as.findSome? g := by
  induction as with
  | nil => rfl
  | cons a rest ih =>
      obtain ⟨ha, hrest⟩ := List.forall_mem_cons.mp h
      rw [List.findSome?_cons, List.findSome?_cons, ha, ih hrest]

theorem findSome?_flatMap {α β ε : Type} (f : β → Option ε) (g : α → List β) (as : List α) :
    (as.flatMap g).findSome? f = as.findSome? fun a => (g a).findSome? f := by
  induction as with
  | nil => rfl
  | cons a rest ih =>
      rw [List.flatMap_cons, List.findSome?_append, ih, List.findSome?_cons]
      cases (g a).findSome? f <;> rfl

end DisplayLogic.Outcome
