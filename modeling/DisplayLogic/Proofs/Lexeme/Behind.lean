import DisplayLogic.Proofs.Lexeme.Extent

/-!
# What stands behind a lexeme

The descriptions of `Lexeme.LooksLike` leave no choice: `looksLike_iff` says that the front of a
text is found to be just what it looks like. Most descriptions do not care for the text behind, and
the others ask for no more than its first character. A lexeme or a fault therefore remains what it
is when the text behind it begins with a boundary instead, unless it is a quoted text that was never
closed.

The characters without meaning are the ones that are passed over, whatever follows them.
-/

namespace DisplayLogic

namespace Lexeme

/-- The character is passed over wherever it is met. -/
def IsSkipped (c : Char) : Prop := ∀ rest, front (c :: rest) = .nothing

/-- Whether the lexeme, taking in so many characters, is a quoted text without a closing quote. -/
def isOpenText (l : Lexeme) (length : Nat) : Bool :=
  match l with
  | text s => length == s.length + 1
  | _ => false

/-! ### The front of a text is what it looks like -/

theorem front_quote (cs : List Char) : front ('"' :: cs) = frontQuoted cs := by
  have hspelled : spelled? ('"' :: cs) = none :=
    spelled?_eq_none_of_head (· == '"') (by decide) rfl cs
  simp [front, hspelled]

theorem front_of_isNumeralChar {c : Char} (hc : isNumeralChar c = true) (cs : List Char) :
    front (c :: cs) = frontNumeral (c :: cs) := by
  have hspelled : spelled? (c :: cs) = none :=
    spelled?_eq_none_of_head isNumeralChar (by decide) hc cs
  have hbang : c ≠ '!' := by
    rintro rfl
    cases hc
  have hquote : c ≠ '"' := by
    rintro rfl
    cases hc
  simp [front, hspelled, hbang, hquote, hc]

theorem front_of_isNameChar {c : Char} {cs : List Char} (hc : Name.isNameChar c = true)
    (hwords : ∀ s ∈ spellings, ¬ s.1 <+: c :: cs) : front (c :: cs) = frontName (c :: cs) := by
  have hspelled : spelled? (c :: cs) = none := spelled?_eq_none hwords
  have hbang : c ≠ '!' := by
    rintro rfl
    cases hc
  have hquote : c ≠ '"' := by
    rintro rfl
    cases hc
  have hnumeral := isNumeralChar_eq_false_of_isNameChar hc
  simp [front, hspelled, hbang, hquote, hnumeral, hc]

/-- A run that cannot be continued is the longest one. -/
theorem takeWhile_run {test : Char → Bool} {run behind : List Char}
    (hrun : ∀ c ∈ run, test c = true) (hbehind : ∀ c ∈ behind.head?, test c = false) :
    (run ++ behind).takeWhile test = run := by
  rw [takeWhile_append_of_head hbehind]
  exact List.takeWhile_eq_self_iff.mpr hrun

/-- A word of some characters that stands at the front of a text stands at the front of the longest
run of such characters. -/
theorem prefix_run {test : Char → Bool} {word run behind : List Char}
    (hword : ∀ c ∈ word, test c = true) (hbehind : ∀ c ∈ behind.head?, test c = false)
    (h : word <+: run ++ behind) : word <+: run := by
  rcases List.prefix_or_prefix_of_prefix h (List.prefix_append run behind) with hle | hge
  · exact hle
  · obtain ⟨tail, rfl⟩ := hge
    have htail := (List.prefix_append_right_inj run).mp h
    cases tail with
    | nil => simp only [List.append_nil, List.prefix_rfl]
    | cons c tail =>
        obtain ⟨rest, rfl⟩ := htail
        have hc := hword c (by simp)
        rw [hbehind c rfl] at hc
        cases hc

theorem front_run {run behind : List Char} (hne : run ≠ [])
    (hrun : ∀ c ∈ run, isNumeralChar c = true)
    (hbehind : ∀ c ∈ behind.head?, isNumeralChar c = false) :
    front (run ++ behind) = frontNumeral run := by
  obtain ⟨c, rest, rfl⟩ := List.exists_cons_of_ne_nil hne
  rw [List.cons_append, front_of_isNumeralChar (hrun c List.mem_cons_self), frontNumeral,
    ← List.cons_append, takeWhile_append_of_head hbehind, frontNumeral]

theorem front_name_append {run behind : List Char} (hrun : Name.IsWhole run)
    (hbehind : ∀ c ∈ behind.head?, Name.isNameChar c = false) :
    front (run ++ behind) = .lexeme (name run) run.length := by
  have hchars := hrun.isNameChar
  have htake := takeWhile_run hchars hbehind
  have hwords : ∀ s ∈ spellings, ¬ s.1 <+: run ++ behind := by
    intro s hs hprefix
    rcases eq_boolean_of_mem_spellings s hs with heq | heq | hhead
    · rw [heq] at hprefix
      exact hrun.not_true (prefix_run (List.all_eq_true.mp rfl) hbehind hprefix)
    · rw [heq] at hprefix
      exact hrun.not_false (prefix_run (List.all_eq_true.mp rfl) hbehind hprefix)
    · cases run with
      | nil => cases hrun.isName
      | cons c rest =>
          exact not_prefix_of_head (spelling_ne_nil s hs) hhead (hchars c List.mem_cons_self)
            (rest ++ behind) hprefix
  cases run with
  | nil => cases hrun.isName
  | cons c rest =>
      rw [List.cons_append] at hwords ⊢
      rw [front_of_isNameChar (hchars c List.mem_cons_self) hwords, frontName,
        ← List.cons_append, htake]

/-- A lexeme that occupies characters at the front of a text is found there. -/
theorem front_of_occupies {l : Lexeme} {slice behind : List Char} (h : l.Occupies slice behind) :
    front (slice ++ behind) = .lexeme l slice.length := by
  cases h with
  | less hbehind | greater hbehind =>
      cases behind with
      | nil => rfl
      | cons c rest =>
          have hc : '=' ≠ c := fun heq => hbehind (by rw [heq]; rfl)
          simp [front, spelled?, spellings, hc]
  | boolean value => cases value <;> rfl
  | @closedText s hs =>
      have hquoted := front_text hs
      rw [front_quote] at hquoted
      rw [List.cons_append, front_quote, frontQuoted_append (by simp) behind, hquoted,
        List.length_cons, List.length_append]
      rfl
  | @openText s hs =>
      have hcontent : s.toList.takeWhile (· != '"') = s.toList := by
        rw [List.takeWhile_eq_self_iff]
        intro c hc
        rw [bne_iff_ne]
        rintro rfl
        exact hs hc
      rw [List.append_nil, front_quote, frontQuoted, hcontent, if_neg (Nat.lt_irrefl _),
        String.ofList_toList, List.length_cons, Nat.add_zero, Nat.add_comm]
  | number hrun hbehind hvalue =>
      have hne : slice ≠ [] := by
        obtain ⟨-, -, c, hc, -⟩ := hrun
        exact List.ne_nil_of_mem hc
      rw [front_run hne hrun.isNumeralChar hbehind, frontNumeral,
        List.takeWhile_eq_self_iff.mpr hrun.isNumeralChar,
        Number.ofNumeral?_eq_some_iff.mpr ⟨hrun, hvalue⟩]
  | name hrun hbehind => exact front_name_append hrun hbehind
  | _ => rfl

theorem front_of_isFaultyRun {run behind : List Char} (h : IsFaultyRun run behind) :
    front (run ++ behind) = .notNumeral run := by
  have hnone : Number.ofNumeral? run = none := by
    rw [← Option.not_isSome_iff_eq_none, Number.ofNumeral?_isSome_iff]
    exact h.not_isNumeral
  rw [front_run h.ne_nil h.isNumeralChar h.behind, frontNumeral,
    List.takeWhile_eq_self_iff.mpr h.isNumeralChar, hnone]

theorem front_of_head_ne {rest : List Char} (h : rest.head? ≠ some '=') :
    front ('!' :: rest) = .loneBang := by
  cases rest with
  | nil => rfl
  | cons c rest =>
      have hc : '=' ≠ c := fun heq => h (by rw [heq]; rfl)
      simp [front, spelled?, spellings, hc]

theorem isMeaningful_of_isNumeralChar {c : Char} (h : isNumeralChar c = true) :
    isMeaningful c = true := by
  rcases Number.isNumeralChar_iff.mp h with rfl | hdigit
  · rfl
  · simp [isMeaningful, hdigit]

theorem isMeaningful_of_isNameChar {c : Char} (h : Name.isNameChar c = true) :
    isMeaningful c = true := by
  have hcases : c = ':' ∨ c = '_' ∨ c.isLower = true := by
    simpa [Name.isNameChar, or_assoc] using h
  rcases hcases with rfl | rfl | hlower
  · rfl
  · rfl
  · simp [isMeaningful, hlower]

/-- A character without meaning is none of those with a meaning. -/
theorem eq_false_of_isMeaningful {test : Char → Bool}
    (htest : ∀ d, test d = true → isMeaningful d = true) {c : Char} (h : isMeaningful c = false) :
    test c = false := by
  rw [← Bool.not_eq_true]
  intro hc
  rw [htest c hc] at h
  cases h

theorem front_of_isMeaningful {c : Char} (h : isMeaningful c = false) (rest : List Char) :
    front (c :: rest) = .nothing := by
  have hbang : c ≠ '!' := by
    rintro rfl
    cases h
  have hquote : c ≠ '"' := by
    rintro rfl
    cases h
  have hnumeral := eq_false_of_isMeaningful (fun _ => isMeaningful_of_isNumeralChar) h
  have hname := eq_false_of_isMeaningful (fun _ => isMeaningful_of_isNameChar) h
  have hspelled : spelled? (c :: rest) = none :=
    spelled?_eq_none_of_head (fun c => !isMeaningful c) (by decide) (by rw [h]; rfl) rest
  simp [front, hspelled, hbang, hquote, hnumeral, hname]

/-- The front of a text is found to be just what it looks like. -/
theorem looksLike_iff {cs : List Char} {f : Front} : LooksLike cs f ↔ front cs = f := by
  constructor
  · intro h
    cases f with
    | nothing =>
        cases cs with
        | nil => rfl
        | cons c rest => exact front_of_isMeaningful (h c rfl) rest
    | lexeme l length =>
        obtain ⟨slice, behind, rfl, rfl, hoccupies⟩ := h
        exact front_of_occupies hoccupies
    | notNumeral run =>
        obtain ⟨behind, rfl, hfaulty⟩ := h
        exact front_of_isFaultyRun hfaulty
    | loneBang =>
        obtain ⟨rest, rfl, hrest⟩ := h
        exact front_of_head_ne hrest
  · rintro rfl
    exact looksLike_front cs

theorem isSkipped_iff {c : Char} : IsSkipped c ↔ isMeaningful c = false := by
  constructor
  · intro h
    exact looksLike_iff.mpr (h []) c rfl
  · exact front_of_isMeaningful

theorem IsSkipped.isBoundary {c : Char} (h : IsSkipped c) : isBoundary c = true := by
  have hmeaning := isSkipped_iff.mp h
  have hequal : c ≠ '=' := by
    rintro rfl
    cases hmeaning
  have hnumeral := eq_false_of_isMeaningful (fun _ => isMeaningful_of_isNumeralChar) hmeaning
  have hname := eq_false_of_isMeaningful (fun _ => isMeaningful_of_isNameChar) hmeaning
  simp [Lexeme.isBoundary, hequal, hnumeral, hname]

/-! ### Another text behind -/

/-- The text `behind'` begins like `behind`, or apart from what stands in front of it. -/
def MayReplace (behind' behind : List Char) : Prop :=
  ∀ c ∈ behind'.head?, c ∈ behind.head? ∨ isBoundary c = true

theorem mayReplace_nil (behind : List Char) : MayReplace [] behind := by
  intro c hc
  cases hc

theorem MayReplace.refl (behind : List Char) : MayReplace behind behind := fun _ hc => .inl hc

/-- What begins with a boundary may stand anywhere. -/
theorem StartsApart.mayReplace {rest : List Char} (h : StartsApart rest) (behind : List Char) :
    MayReplace rest behind := fun c hc => .inr (h c hc)

/-- The front of a text may stand alone. -/
theorem mayReplace_append (cs behind : List Char) : MayReplace cs (cs ++ behind) := by
  cases cs with
  | nil => exact mayReplace_nil _
  | cons c cs => exact fun d hd => .inl hd

theorem MayReplace.append {behind' behind : List Char} (h : MayReplace behind' behind)
    (cs : List Char) : MayReplace (cs ++ behind') (cs ++ behind) := by
  cases cs with
  | nil => exact h
  | cons c cs => exact fun d hd => .inl hd

/-- What does not continue a run does not continue it in the other text either. -/
theorem MayReplace.head?_eq_false {behind' behind : List Char} (h : MayReplace behind' behind)
    {test : Char → Bool} (htest : ∀ c, isBoundary c = true → test c = false)
    (hbehind : ∀ c ∈ behind.head?, test c = false) : ∀ c ∈ behind'.head?, test c = false := by
  intro c hc
  rcases h c hc with hsame | hboundary
  · exact hbehind c hsame
  · exact htest c hboundary

theorem MayReplace.isNumeralChar {behind' behind : List Char} (h : MayReplace behind' behind)
    (hbehind : ∀ c ∈ behind.head?, isNumeralChar c = false) :
    ∀ c ∈ behind'.head?, Lexeme.isNumeralChar c = false := by
  refine h.head?_eq_false (fun c hc => ?_) hbehind
  simp only [isBoundary, Bool.and_eq_true, Bool.not_eq_true'] at hc
  exact hc.1.2

theorem MayReplace.isNameChar {behind' behind : List Char} (h : MayReplace behind' behind)
    (hbehind : ∀ c ∈ behind.head?, Name.isNameChar c = false) :
    ∀ c ∈ behind'.head?, Name.isNameChar c = false := by
  refine h.head?_eq_false (fun c hc => ?_) hbehind
  simp only [isBoundary, Bool.and_eq_true, Bool.not_eq_true'] at hc
  exact hc.2

theorem MayReplace.head?_ne {behind' behind : List Char} (h : MayReplace behind' behind)
    (hbehind : behind.head? ≠ some '=') : behind'.head? ≠ some '=' := by
  intro hhead
  rcases h '=' hhead with hsame | hboundary
  · exact hbehind hsame
  · cases hboundary

/-- A lexeme other than an open text does not change with the text behind. -/
theorem Occupies.replace {l : Lexeme} {slice behind behind' : List Char}
    (h : l.Occupies slice behind) (hopen : l.isOpenText slice.length = false)
    (hbehind : MayReplace behind' behind) : l.Occupies slice behind' := by
  cases h with
  | openGroup | closeGroup | or | and => constructor
  | equal | notEqual | lessEqual | greaterEqual => constructor
  | less h => exact .less (hbehind.head?_ne h)
  | greater h => exact .greater (hbehind.head?_ne h)
  | boolean value => exact .boolean value behind'
  | closedText h => exact .closedText h behind'
  | openText h =>
      rw [isOpenText, List.length_cons, String.length_toList, beq_self_eq_true] at hopen
      cases hopen
  | number hrun h hvalue => exact .number hrun (hbehind.isNumeralChar h) hvalue
  | name hrun h => exact .name hrun (hbehind.isNameChar h)

theorem IsFaultyRun.replace {run behind behind' : List Char} (h : IsFaultyRun run behind)
    (hbehind : MayReplace behind' behind) : IsFaultyRun run behind' :=
  ⟨h.ne_nil, h.isNumeralChar, hbehind.isNumeralChar h.behind, h.not_isNumeral⟩

end Lexeme

end DisplayLogic
