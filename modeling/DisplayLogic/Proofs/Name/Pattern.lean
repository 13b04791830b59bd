import DisplayLogic.Name

/-!
# The pattern of references

The rules for names are those of one pattern, `^\{(?:([a-z_]+):)?([a-z_:]+)\}$`, which leaves a
choice: a colon may end the namespace or belong to the name, and the namespace may be missing
altogether. Which way is taken matters for what becomes of a name without its namespace. A `Pattern`
therefore leads from a place in a text to a list of places, the preferred ones first: a repetition
prefers more characters to fewer, an optional part prefers to be there, and what has been preferred
is given up only if nothing behind it fits. `Pattern.search` takes the first way from the first
start from which there is one.

`search_reference` says that the pattern fits the references to names and no other text, and that it
finds a namespace just when `Name.unqualified?` does. The reason is that every repetition in it is
followed by a character that the repetition itself rejects, so that only the longest run can be
continued.
-/

namespace DisplayLogic

namespace Name

theorem isName_iff {cs : List Char} :
    isName cs = true ↔ cs ≠ [] ∧ ∀ c ∈ cs, isNameChar c = true := by
  rw [isName, Bool.and_eq_true, Bool.not_eq_true', List.isEmpty_eq_false_iff, List.all_eq_true]

theorem takeWhile_append_colon {ns : List Char} (h : ':' ∉ ns) (rest : List Char) :
    (ns ++ ':' :: rest).takeWhile (· != ':') = ns ∧
      (ns ++ ':' :: rest).dropWhile (· != ':') = ':' :: rest := by
  have hfree : ∀ c ∈ ns, (c != ':') = true := by
    intro c hc
    rw [bne_iff_ne]
    rintro rfl
    exact h hc
  rw [List.takeWhile_append_of_pos hfree, List.dropWhile_append_of_pos hfree]
  exact ⟨List.append_nil ns, rfl⟩

/-- Only what stands in front of the first colon is ever dropped. -/
theorem unqualified?_eq_some_iff {name rest : List Char} :
    unqualified? name = some rest ↔
      ∃ ns, name = ns ++ ':' :: rest ∧ ns ≠ [] ∧ ':' ∉ ns ∧ rest ≠ [] := by
  constructor
  · intro h
    rw [unqualified?] at h
    split at h
    · rename_i hdrop
      split at h
      · nomatch h
      · rename_i hempty
        cases h
        rw [Bool.or_eq_true, not_or, List.isEmpty_iff, List.isEmpty_iff] at hempty
        refine ⟨name.takeWhile (· != ':'), ?_, hempty.1, ?_, hempty.2⟩
        · rw [← hdrop, List.takeWhile_append_dropWhile]
        · intro hcolon
          nomatch List.all_eq_true.mp List.all_takeWhile ':' hcolon
    · nomatch h
  · rintro ⟨ns, rfl, hns, hcolon, hrest⟩
    obtain ⟨htake, hdrop⟩ := takeWhile_append_colon hcolon rest
    simp only [unqualified?, htake, hdrop, List.isEmpty_eq_false_iff.mpr hns,
      List.isEmpty_eq_false_iff.mpr hrest, Bool.or_self, Bool.false_eq_true, if_false]

theorem unbraced?_eq_some_iff {cs inner : List Char} :
    unbraced? cs = some inner ↔ cs = '\x7b' :: inner ++ ['\x7d'] := by
  constructor
  · intro h
    unfold unbraced? at h
    split at h
    · split at h
      · rename_i rest hlast
        obtain ⟨body, rfl⟩ := List.getLast?_eq_some_iff.mp hlast
        cases h
        rw [List.dropLast_concat, List.cons_append]
      · nomatch h
    · nomatch h
  · rintro rfl
    exact unbraced?_braced inner

/-- Nothing but the reference to a name is read as a name. -/
theorem ofReference?_eq_some_iff {reference : String} {name : List Char} :
    ofReference? reference = some name ↔
      isName name = true ∧ reference = Name.reference name := by
  rw [ofReference?, Option.filter_eq_some_iff, unbraced?_eq_some_iff, and_comm, Name.reference,
    ← String.toList_inj, String.toList_ofList]

end Name

/-- What a text looks like, with a preference where there is a choice. -/
inductive Pattern where
  | start
  | stop
  | one (accepts : Char → Bool)
  /-- A row of characters, the longer the better. -/
  | many (accepts : Char → Bool)
  /-- The inner pattern, or else nothing. -/
  | optional (inner : Pattern)
  | seq (first second : Pattern)
  | capture (label : String) (inner : Pattern)

namespace Pattern

/-- A place in a text, with the parts of the text that have been captured on the way. -/
structure Place where
  /-- How many characters are behind. -/
  position : Nat
  rest : List Char
  /-- The captured parts, the latest first. -/
  captured : List (String × List Char)

/-- The place some characters further on. -/
def Place.skip (p : Place) (n : Nat) : Place :=
  { p with position := p.position + n, rest := p.rest.drop n }

/-- How many characters a row can take from the front of a text, the preferred numbers first. -/
def runLengths (accepts : Char → Bool) : List Char → List Nat
  | [] => [0]
  | c :: rest => if accepts c then (runLengths accepts rest).map (· + 1) ++ [0] else [0]

/-- The places that a pattern leads to from a place, the preferred ones first. -/
def runs : Pattern → Place → List Place
  | start, p => if p.position = 0 then [p] else []
  | stop, p => if p.rest.isEmpty then [p] else []
  | one accepts, p => if p.rest.head?.any accepts then [p.skip 1] else []
  | many accepts, p => (runLengths accepts p.rest).map p.skip
  | optional inner, p => runs inner p ++ [p]
  | seq first second, p => (runs first p).flatMap (runs second)
  | capture label inner, p => (runs inner p).map fun q =>
      { q with captured := (label, p.rest.take (q.position - p.position)) :: q.captured }

/-- What the first way of a pattern through a text captures, from the first start that has one. -/
def search (pattern : Pattern) (text : List Char) : Option (List (String × List Char)) :=
  (List.range (text.length + 1)).findSome? fun i =>
    (runs pattern ⟨i, text.drop i, []⟩).head?.map Place.captured

def oneOrMore (accepts : Char → Bool) : Pattern := .seq (.one accepts) (.many accepts)

/-- What may stand in a namespace. -/
def isNamespaceChar (c : Char) : Bool := c == '_' || c.isLower

/-- A namespace, with the colon behind it. -/
def qualifier : Pattern := .seq (.capture "ns" (oneOrMore isNamespaceChar)) (.one (· == ':'))

/-- The closing brace, with nothing behind it. -/
def closing : Pattern := .seq (.one (· == '\x7d')) .stop

/-- A name up to the closing brace. -/
def unqualified : Pattern := .seq (.capture "name" (oneOrMore Name.isNameChar)) closing

/-- A name between braces, with or without a namespace. -/
def reference : Pattern :=
  .seq .start (.seq (.one (· == '\x7b')) (.seq (.optional qualifier) unqualified))

theorem isNamespaceChar_iff (c : Char) :
    isNamespaceChar c = true ↔ Name.isNameChar c = true ∧ c ≠ ':' := by
  by_cases hc : c = ':'
  · subst hc
    decide
  · simp only [isNamespaceChar, Name.isNameChar, beq_false_of_ne hc, Bool.false_or, ne_eq, hc,
      not_false_eq_true, and_true]

/-! ### Rows that end where they must -/

/-- The pattern does not fit what begins with an accepted character. -/
def Rejects (pattern : Pattern) (accepts : Char → Bool) : Prop :=
  ∀ p : Place, p.rest.head?.any accepts = true → runs pattern p = []

/-- If nothing fits behind a shorter row, the longest row is the only one. -/
theorem flatMap_runLengths {α : Type} {accepts : Char → Bool} {cs : List Char} {next : Nat → List α}
    (h : ∀ n, (cs.drop n).head?.any accepts = true → next n = []) :
    (runLengths accepts cs).flatMap next = next (cs.takeWhile accepts).length := by
  induction cs generalizing next with
  | nil => exact List.append_nil _
  | cons c rest ih =>
      cases hc : accepts c with
      | true =>
          have hzero : next 0 = [] := h 0 hc
          have hrest : ((runLengths accepts rest).flatMap fun n => next (n + 1)) =
              next ((rest.takeWhile accepts).length + 1) := ih fun n => h (n + 1)
          rw [runLengths, if_pos hc, List.flatMap_append, List.flatMap_map, hrest,
            List.flatMap_singleton, hzero, List.append_nil, List.takeWhile_cons_of_pos hc,
            List.length_cons]
      | false =>
          have hneg : ¬ accepts c = true := by rw [hc]; exact Bool.false_ne_true
          rw [runLengths, if_neg hneg, List.takeWhile_cons_of_neg hneg]
          exact List.append_nil _

theorem take_of_mem_runLengths {accepts : Char → Bool} {cs : List Char} {n : Nat}
    (h : n ∈ runLengths accepts cs) : n ≤ cs.length ∧ ∀ c ∈ cs.take n, accepts c = true := by
  induction cs generalizing n with
  | nil =>
      obtain rfl := List.mem_singleton.mp h
      exact ⟨Nat.le_refl 0, List.forall_mem_nil _⟩
  | cons c rest ih =>
      rw [runLengths] at h
      split at h
      · rename_i hc
        rcases List.mem_append.mp h with h | h
        · obtain ⟨m, hm, rfl⟩ := List.mem_map.mp h
          obtain ⟨hle, hrow⟩ := ih hm
          exact ⟨Nat.succ_le_succ hle, List.forall_mem_cons.mpr ⟨hc, hrow⟩⟩
        · obtain rfl := List.mem_singleton.mp h
          exact ⟨Nat.zero_le _, List.forall_mem_nil _⟩
      · obtain rfl := List.mem_singleton.mp h
        exact ⟨Nat.zero_le _, List.forall_mem_nil _⟩

section Row

variable {accepts : Char → Bool} {label : String} {next : Pattern} {p q : Place}

/-- The place behind a captured row of some length. -/
def Place.behindRow (p : Place) (label : String) (n : Nat) : Place :=
  ⟨p.position + n, p.rest.drop n, (label, p.rest.take n) :: p.captured⟩

/-- A row begins with one accepted character and goes on for as long as it can. -/
theorem runs_capture_oneOrMore (accepts : Char → Bool) (label : String) (p : Place) :
    runs (.capture label (oneOrMore accepts)) p =
      if p.rest.head?.any accepts then
        (runLengths accepts (p.rest.drop 1)).map fun n => p.behindRow label (n + 1)
      else [] := by
  rw [runs, oneOrMore, runs, runs]
  split
  · rw [List.flatMap_singleton, runs, List.map_map]
    refine List.map_congr_left fun n _ => ?_
    have hposition : p.position + 1 + n = p.position + (n + 1) := by omega
    simp only [Function.comp_apply, Place.skip, Place.behindRow, hposition, Nat.add_sub_cancel_left,
      List.drop_drop, Nat.add_comm 1]
  · rfl

/-- What a captured row can be, however much of it is given up. -/
theorem exists_row (h : q ∈ runs (.seq (.capture label (oneOrMore accepts)) next) p) :
    ∃ n, 0 < n ∧ n ≤ p.rest.length ∧ (∀ c ∈ p.rest.take n, accepts c = true) ∧
      q ∈ runs next (p.behindRow label n) := by
  rw [runs, runs_capture_oneOrMore] at h
  split at h
  · rename_i hc
    rw [List.flatMap_map] at h
    obtain ⟨n, hn, hq⟩ := List.mem_flatMap.mp h
    obtain ⟨hle, hrow⟩ := take_of_mem_runLengths hn
    cases hrest : p.rest with
    | nil =>
        rw [hrest] at hc
        nomatch hc
    | cons c rest =>
        rw [hrest] at hc hle hrow
        exact ⟨n + 1, Nat.succ_pos n, Nat.succ_le_succ hle, List.forall_mem_cons.mpr ⟨hc, hrow⟩, hq⟩
  · nomatch h

/-- A row is captured as a whole if only what is not accepted can follow it. -/
theorem runs_row (hnext : next.Rejects accepts) {row behind : List Char} {mark : Char}
    (hrest : p.rest = row ++ mark :: behind) (hne : row ≠ []) (hrow : ∀ c ∈ row, accepts c = true)
    (hmark : ¬ accepts mark = true) :
    runs (.seq (.capture label (oneOrMore accepts)) next) p =
      runs next ⟨p.position + row.length, mark :: behind, (label, row) :: p.captured⟩ := by
  obtain ⟨c, row, rfl⟩ := List.exists_cons_of_ne_nil hne
  obtain ⟨hc, hrow⟩ := List.forall_mem_cons.mp hrow
  have hrejected (n : Nat) (hn : ((row ++ mark :: behind).drop n).head?.any accepts = true) :
      runs next (p.behindRow label (n + 1)) = [] := by
    apply hnext
    rw [Place.behindRow, hrest]
    exact hn
  have hlongest : (row ++ mark :: behind).takeWhile accepts = row := by
    rw [List.takeWhile_append_of_pos hrow, List.takeWhile_cons_of_neg hmark, List.append_nil]
  have hhead : p.rest.head?.any accepts = true := by
    rw [hrest]
    exact hc
  have htail : p.rest.drop 1 = row ++ mark :: behind := by
    rw [hrest]
    rfl
  rw [runs, runs_capture_oneOrMore, if_pos hhead, htail, List.flatMap_map,
    flatMap_runLengths hrejected, hlongest, Place.behindRow, hrest, ← List.length_cons,
    List.take_left, List.drop_left]

end Row

/-! ### References -/

section Reference

variable {p q : Place} {mark : Char}

theorem rejects_one {accepts : Char → Bool} (h : ¬ accepts mark = true) :
    (one (· == mark)).Rejects accepts := by
  intro p hp
  rw [runs, if_neg]
  cases hrest : p.rest with
  | nil => nofun
  | cons c rest =>
      rw [hrest] at hp
      intro hc
      rw [List.head?_cons, Option.any_some, beq_iff_eq] at hc
      exact h (hc ▸ hp)

theorem rejects_closing : closing.Rejects Name.isNameChar := by
  intro p hp
  rw [closing, runs, rejects_one (by decide) p hp, List.flatMap_nil]

theorem runs_one_of_rest {rest : List Char} (h : p.rest = mark :: rest) :
    runs (one (· == mark)) p = [p.skip 1] := by
  rw [runs, if_pos]
  rw [h, List.head?_cons, Option.any_some, beq_self_eq_true]

theorem rest_of_mem_runs_one (h : q ∈ runs (one (· == mark)) p) : p.rest = mark :: q.rest := by
  rw [runs] at h
  split at h
  · rename_i hc
    obtain rfl := List.mem_singleton.mp h
    cases hrest : p.rest with
    | nil =>
        rw [hrest] at hc
        nomatch hc
    | cons c rest =>
        rw [hrest, List.head?_cons, Option.any_some, beq_iff_eq] at hc
        rw [hc, Place.skip, hrest, List.drop_one, List.tail_cons]
  · nomatch h

theorem rest_of_mem_runs_closing (h : q ∈ runs closing p) : p.rest = ['\x7d'] := by
  obtain ⟨behind, hbehind, hq⟩ := List.mem_flatMap.mp h
  rw [rest_of_mem_runs_one hbehind]
  rw [runs] at hq
  split at hq
  · rename_i hend
    rw [List.isEmpty_iff.mp hend]
  · nomatch hq

/-- What is captured as a name is one. -/
theorem exists_name (h : q ∈ runs unqualified p) :
    ∃ name, Name.isName name = true ∧ p.rest = name ++ ['\x7d'] := by
  obtain ⟨n, hpos, hle, hrow, hq⟩ := exists_row h
  have hclosing : p.rest.drop n = ['\x7d'] := rest_of_mem_runs_closing hq
  have hne : p.rest.take n ≠ [] := by
    apply List.ne_nil_of_length_pos
    rwa [List.length_take_of_le hle]
  refine ⟨p.rest.take n, Name.isName_iff.mpr ⟨hne, hrow⟩, ?_⟩
  rw [← hclosing, List.take_append_drop]

theorem exists_qualifier (h : q ∈ runs qualifier p) :
    ∃ ns, p.rest = ns ++ ':' :: q.rest ∧ ns ≠ [] ∧ ∀ c ∈ ns, isNamespaceChar c = true := by
  obtain ⟨n, hpos, hle, hrow, hq⟩ := exists_row h
  have hcolon : p.rest.drop n = ':' :: q.rest := rest_of_mem_runs_one hq
  have hne : p.rest.take n ≠ [] := by
    apply List.ne_nil_of_length_pos
    rwa [List.length_take_of_le hle]
  refine ⟨p.rest.take n, ?_, hne, hrow⟩
  rw [← hcolon, List.take_append_drop]

/-- A name up to the closing brace is captured as a whole. -/
theorem runs_unqualified {name : List Char} (hname : Name.isName name = true)
    (hrest : p.rest = name ++ ['\x7d']) :
    (runs unqualified p).map Place.captured = [("name", name) :: p.captured] := by
  obtain ⟨hne, hchars⟩ := Name.isName_iff.mp hname
  rw [unqualified, runs_row rejects_closing hrest hne hchars (by decide)]
  rfl

/-- The characters up to the first colon are captured as a whole. -/
theorem runs_qualifier {ns rest : List Char} (hrest : p.rest = ns ++ ':' :: rest) (hne : ns ≠ [])
    (hns : ∀ c ∈ ns, isNamespaceChar c = true) :
    runs qualifier p = [⟨p.position + ns.length + 1, rest, ("ns", ns) :: p.captured⟩] := by
  rw [qualifier, runs_row (rejects_one (by decide)) hrest hne hns (by decide), runs_one_of_rest rfl]
  rfl

/-- A namespace that is found belongs to the name. -/
theorem exists_name_of_mem_runs (h : q ∈ runs (.seq (.optional qualifier) unqualified) p) :
    ∃ name, Name.isName name = true ∧ p.rest = name ++ ['\x7d'] := by
  obtain ⟨behind, hbehind, hq⟩ := List.mem_flatMap.mp h
  obtain ⟨name, hname, hrest⟩ := exists_name hq
  rcases List.mem_append.mp hbehind with hqualifier | hnothing
  · obtain ⟨ns, hns, -, hchars⟩ := exists_qualifier hqualifier
    refine ⟨ns ++ ':' :: name, ?_, ?_⟩
    · rw [Name.isName_iff] at hname ⊢
      refine ⟨by simp, List.forall_mem_append.mpr ⟨fun c hc => ?_, ?_⟩⟩
      · exact ((isNamespaceChar_iff c).mp (hchars c hc)).1
      · exact List.forall_mem_cons.mpr ⟨rfl, hname.2⟩
    · rw [hns, hrest, List.append_assoc, List.cons_append]
  · obtain rfl := List.mem_singleton.mp hnothing
    exact ⟨name, hname, hrest⟩

/-- The parts of a name that are captured behind the opening brace. -/
def capturedName (name : List Char) : List (String × List Char) :=
  match Name.unqualified? name with
  | some rest => [("name", rest), ("ns", name.takeWhile (· != ':'))]
  | none => [("name", name)]

/-- Where a colon may end the namespace or belong to the name, the first one ends the namespace. -/
theorem head?_runs_name {name : List Char} (hname : Name.isName name = true) :
    (runs (.seq (.optional qualifier) unqualified) ⟨1, name ++ ['\x7d'], []⟩).head?.map
      Place.captured = some (capturedName name) := by
  rw [runs, runs, List.flatMap_append, List.flatMap_singleton, ← List.head?_map, List.map_append,
    runs_unqualified hname rfl]
  cases hunqualified : Name.unqualified? name with
  | some rest =>
      obtain ⟨ns, rfl, hne, hcolon, hrest⟩ := Name.unqualified?_eq_some_iff.mp hunqualified
      obtain ⟨-, hchars⟩ := Name.isName_iff.mp hname
      obtain ⟨hnschars, hrestchars⟩ := List.forall_mem_append.mp hchars
      have hns : ∀ c ∈ ns, isNamespaceChar c = true := by
        intro c hc
        refine (isNamespaceChar_iff c).mpr ⟨hnschars c hc, ?_⟩
        rintro rfl
        exact hcolon hc
      have hrestname : Name.isName rest = true :=
        Name.isName_iff.mpr ⟨hrest, (List.forall_mem_cons.mp hrestchars).2⟩
      have hbraced : ns ++ ':' :: rest ++ ['\x7d'] = ns ++ ':' :: (rest ++ ['\x7d']) :=
        List.append_assoc ns _ _
      rw [runs_qualifier hbraced hne hns, List.flatMap_singleton, runs_unqualified hrestname rfl,
        capturedName, hunqualified, (Name.takeWhile_append_colon hcolon rest).1]
      rfl
  | none =>
      have hnone : (runs qualifier ⟨1, name ++ ['\x7d'], []⟩).flatMap (runs unqualified) = [] := by
        rw [List.eq_nil_iff_forall_not_mem]
        intro q hq
        obtain ⟨behind, hbehind, hq⟩ := List.mem_flatMap.mp hq
        obtain ⟨ns, hns, hne, hchars⟩ := exists_qualifier hbehind
        obtain ⟨rest, hrest, hbraced⟩ := exists_name hq
        have hsame : name ++ ['\x7d'] = ns ++ ':' :: rest ++ ['\x7d'] := by
          rw [List.append_assoc, List.cons_append, ← hbraced]
          exact hns
        have hsplit : name = ns ++ ':' :: rest := List.append_cancel_right hsame
        have hcolon : ':' ∉ ns := fun hmem => ((isNamespaceChar_iff ':').mp (hchars ':' hmem)).2 rfl
        have hsome : Name.unqualified? name = some rest :=
          Name.unqualified?_eq_some_iff.mpr ⟨ns, hsplit, hne, hcolon, (Name.isName_iff.mp hrest).1⟩
        rw [hsome] at hunqualified
        nomatch hunqualified
      rw [hnone, capturedName, hunqualified]
      rfl

end Reference

/-- A pattern that begins at the start is tried there only. -/
theorem search_start_seq (pattern : Pattern) (text : List Char) :
    search (.seq .start pattern) text = (runs pattern ⟨0, text, []⟩).head?.map Place.captured := by
  have hlater : (List.range text.length).findSome? (fun i =>
      (runs (.seq .start pattern) ⟨i + 1, text.drop (i + 1), []⟩).head?.map Place.captured) =
        none := by
    rw [List.findSome?_eq_none_iff]
    intro i _
    rfl
  have hstart : runs (.seq .start pattern) ⟨0, text, []⟩ = runs pattern ⟨0, text, []⟩ :=
    List.flatMap_singleton _ _
  rw [search, List.range_succ_eq_map, List.findSome?_cons, List.drop_zero, hstart,
    List.findSome?_map]
  cases (runs pattern ⟨0, text, []⟩).head?.map Place.captured with
  | some captured => rfl
  | none => exact hlater

/-- The pattern fits the references to names, and captures a namespace just when there is a name
without it. -/
theorem search_reference (text : String) :
    reference.search text.toList = (Name.ofReference? text).map capturedName := by
  rw [reference, search_start_seq, runs]
  cases hname : Name.ofReference? text with
  | some name =>
      obtain ⟨hisname, rfl⟩ := Name.ofReference?_eq_some_iff.mp hname
      rw [Name.reference, String.toList_ofList, runs_one_of_rest rfl, List.flatMap_singleton]
      exact head?_runs_name hisname
  | none =>
      have hnone : (runs (one (· == '\x7b')) ⟨0, text.toList, []⟩).flatMap
          (runs (.seq (.optional qualifier) unqualified)) = [] := by
        rw [List.eq_nil_iff_forall_not_mem]
        intro q hq
        obtain ⟨behind, hbehind, hq⟩ := List.mem_flatMap.mp hq
        obtain ⟨name, hisname, hrest⟩ := exists_name_of_mem_runs hq
        have htext : text = Name.reference name := by
          rw [← String.toList_inj, Name.reference, String.toList_ofList, List.cons_append, ← hrest]
          exact rest_of_mem_runs_one hbehind
        rw [Name.ofReference?_eq_some_iff.mpr ⟨hisname, htext⟩] at hname
        cases hname
      rw [hnone]
      rfl

/-- A colon that nothing follows belongs to the name. -/
example : reference.search "\x7ba:\x7d".toList = some [("name", ['a', ':'])] := rfl

end Pattern

end DisplayLogic
