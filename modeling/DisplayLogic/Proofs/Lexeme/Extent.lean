import DisplayLogic.Proofs.Token.Spelling
import Mathlib.Tactic.SplitIfs

/-!
# What lexemes take in

`Lexeme.Occupies` says which characters of a text a lexeme takes in, and what may stand behind them.
Most lexemes end of themselves. But a run of digits and points, or of the characters of names, goes
on as far as it can, a lone `<` or `>` is not completed by an equals sign, and a quoted text ends at
the next quote or, for want of one, with the whole text.

`Lexeme.front` finds nothing else: a lexeme at the front of a text occupies the characters that it
is said to take. The two faults and the characters without meaning are described likewise by what
they look like. `front_induction` walks through a text from front to front.
-/

namespace DisplayLogic

namespace Lexeme

/-- The lexeme takes in just these characters where the text goes on with those `behind`. -/
inductive Occupies : Lexeme → List Char → List Char → Prop where
  | openGroup (behind : List Char) : Occupies .openGroup ['('] behind
  | closeGroup (behind : List Char) : Occupies .closeGroup [')'] behind
  | or (behind : List Char) : Occupies .or ['|'] behind
  | and (behind : List Char) : Occupies .and ['&'] behind
  | equal (behind : List Char) : Occupies (.relation .equal) ['='] behind
  | notEqual (behind : List Char) : Occupies (.relation .notEqual) ['!', '='] behind
  | lessEqual (behind : List Char) : Occupies (.relation .lessEqual) ['<', '='] behind
  | greaterEqual (behind : List Char) : Occupies (.relation .greaterEqual) ['>', '='] behind
  | less {behind : List Char} (hbehind : behind.head? ≠ some '=') :
      Occupies (.relation .less) ['<'] behind
  | greater {behind : List Char} (hbehind : behind.head? ≠ some '=') :
      Occupies (.relation .greater) ['>'] behind
  | boolean (value : Bool) (behind : List Char) :
      Occupies (.boolean value) (booleanText value).toList behind
  | closedText {s : String} (h : '"' ∉ s.toList) (behind : List Char) :
      Occupies (.text s) ('"' :: (s.toList ++ ['"'])) behind
  | openText {s : String} (h : '"' ∉ s.toList) : Occupies (.text s) ('"' :: s.toList) []
  | number {run behind : List Char} {n : Number} (hrun : Number.IsNumeral run)
      (hbehind : ∀ c ∈ behind.head?, isNumeralChar c = false)
      (hvalue : n = Number.numeralValue run) : Occupies (.number n) run behind
  | name {run behind : List Char} (hrun : Name.IsWhole run)
      (hbehind : ∀ c ∈ behind.head?, Name.isNameChar c = false) : Occupies (.name run) run behind

/-- A run of digits and points that cannot be continued and is no numeral. -/
structure IsFaultyRun (run behind : List Char) : Prop where
  ne_nil : run ≠ []
  isNumeralChar : ∀ c ∈ run, Lexeme.isNumeralChar c = true
  behind : ∀ c ∈ behind.head?, Lexeme.isNumeralChar c = false
  not_isNumeral : ¬ Number.IsNumeral run

/-- The characters that lexemes and faults begin with: marks, signs, quotes, points, digits and the
characters of names. -/
def isMeaningful (c : Char) : Bool :=
  ['(', ')', '|', '&', '=', '!', '<', '>', '"', '.', '_', ':'].contains c || c.isDigit || c.isLower

/-! ### What the front of a text looks like -/

theorem occupies_of_spelled? {cs spelling : List Char} {l : Lexeme}
    (h : spelled? cs = some (spelling, l)) :
    ∃ behind, cs = spelling ++ behind ∧ l.Occupies spelling behind := by
  have hmem := List.mem_of_find?_eq_some h
  have hprefix := List.find?_some h
  obtain ⟨behind, rfl⟩ := List.isPrefixOf_iff_prefix.mp hprefix
  refine ⟨behind, rfl, ?_⟩
  -- The longer of two spellings that begin alike has been tried first.
  have hless (rest : List Char) :
    spelled? ('<' :: '=' :: rest) = some (['<', '='], relation .lessEqual) := rfl
  have hgreater (rest : List Char) :
    spelled? ('>' :: '=' :: rest) = some (['>', '='], relation .greaterEqual) := rfl
  simp only [spellings, List.mem_cons, Prod.mk.injEq, List.not_mem_nil, or_false] at hmem
  rcases hmem with ⟨rfl, rfl⟩ | ⟨rfl, rfl⟩ | ⟨rfl, rfl⟩ | ⟨rfl, rfl⟩ | ⟨rfl, rfl⟩ | ⟨rfl, rfl⟩ |
    ⟨rfl, rfl⟩ | ⟨rfl, rfl⟩ | ⟨rfl, rfl⟩ | ⟨rfl, rfl⟩ | ⟨rfl, rfl⟩ | ⟨rfl, rfl⟩
  · exact .openGroup behind
  · exact .closeGroup behind
  · exact .or behind
  · exact .and behind
  · exact .equal behind
  · exact .notEqual behind
  · exact .greaterEqual behind
  · refine .greater fun hhead => ?_
    obtain ⟨rest, rfl⟩ := List.head?_eq_some_iff.mp hhead
    rw [List.singleton_append, hgreater] at h
    cases h
  · exact .lessEqual behind
  · refine .less fun hhead => ?_
    obtain ⟨rest, rfl⟩ := List.head?_eq_some_iff.mp hhead
    rw [List.singleton_append, hless] at h
    cases h
  · exact .boolean false behind
  · exact .boolean true behind

theorem not_prefix_of_spelled?_eq_none {cs : List Char} (h : spelled? cs = none) :
    ∀ s ∈ spellings, ¬ s.1 <+: cs := by
  intro s hs hprefix
  have hnot := List.find?_eq_none.mp h s hs
  exact hnot (List.isPrefixOf_iff_prefix.mpr hprefix)

/-- What is left behind the longest run of some characters begins with another. -/
theorem head?_dropWhile_eq_false (test : Char → Bool) (cs : List Char) :
    ∀ c ∈ (cs.dropWhile test).head?, test c = false := by
  intro c hc
  have hhead := List.head?_dropWhile_not test cs
  rw [hc] at hhead
  exact hhead

/-- What the front of a text looks like, for everything that may be found there. -/
def LooksLike (cs : List Char) : Front → Prop
  | .nothing => ∀ c ∈ cs.head?, isMeaningful c = false
  | .lexeme l length =>
    ∃ slice behind, cs = slice ++ behind ∧ slice.length = length ∧ l.Occupies slice behind
  | .notNumeral run => ∃ behind, cs = run ++ behind ∧ IsFaultyRun run behind
  | .loneBang => ∃ rest, cs = '!' :: rest ∧ rest.head? ≠ some '='

theorem looksLike_frontQuoted (cs : List Char) : LooksLike ('"' :: cs) (frontQuoted cs) := by
  have hquote : '"' ∉ cs.takeWhile (· != '"') := fun hmem => by
    simpa using List.mem_takeWhile_imp hmem
  have hsplit : cs.takeWhile (· != '"') ++ cs.dropWhile (· != '"') = cs :=
    List.takeWhile_append_dropWhile
  have hhead := head?_dropWhile_eq_false (· != '"') cs
  simp only [frontQuoted]
  generalize cs.takeWhile (· != '"') = content at hquote hsplit ⊢
  generalize cs.dropWhile (· != '"') = tail at hsplit hhead
  obtain ⟨s, rfl⟩ : ∃ s : String, content = s.toList := ⟨.ofList content, by simp⟩
  rw [String.ofList_toList, ← hsplit]
  cases tail with
  | nil =>
      rw [List.append_nil, if_neg (Nat.lt_irrefl _)]
      exact ⟨'"' :: s.toList, [], by simp, Nat.add_comm .., .openText hquote⟩
  | cons c behind =>
      have hc : c = '"' := by simpa using hhead c rfl
      rw [if_pos (by simp), hc]
      refine ⟨'"' :: (s.toList ++ ['"']), behind, by simp, ?_, .closedText hquote behind⟩
      simp only [List.length_cons, List.length_append, List.length_nil]
      omega

theorem looksLike_frontNumeral {c : Char} {cs : List Char} (hc : isNumeralChar c = true) :
    LooksLike (c :: cs) (frontNumeral (c :: cs)) := by
  have hbehind := head?_dropWhile_eq_false isNumeralChar (c :: cs)
  simp only [frontNumeral]
  split
  · rename_i n hn
    obtain ⟨hrun, hvalue⟩ := Number.ofNumeral?_eq_some_iff.mp hn
    exact ⟨_, _, List.takeWhile_append_dropWhile.symm, rfl, .number hrun hbehind hvalue⟩
  · rename_i hnone
    refine ⟨_, List.takeWhile_append_dropWhile.symm, ?_, ?_, hbehind, ?_⟩
    · rw [List.takeWhile_cons_of_pos hc]
      exact List.cons_ne_nil _ _
    · exact fun _ => List.mem_takeWhile_imp
    · rw [← Number.ofNumeral?_isSome_iff, hnone]
      exact Bool.false_ne_true

theorem looksLike_frontName {c : Char} {cs : List Char} (hc : Name.isNameChar c = true)
    (hspelled : spelled? (c :: cs) = none) : LooksLike (c :: cs) (frontName (c :: cs)) := by
  have hwords := not_prefix_of_spelled?_eq_none hspelled
  have hrun : (c :: cs).takeWhile Name.isNameChar <+: c :: cs := List.takeWhile_prefix _
  have htrue : (['t', 'r', 'u', 'e'], boolean true) ∈ spellings := by simp [spellings]
  have hfalse : (['f', 'a', 'l', 's', 'e'], boolean false) ∈ spellings := by simp [spellings]
  have hwhole : Name.IsWhole ((c :: cs).takeWhile Name.isNameChar) := by
    refine ⟨?_, ?_, ?_⟩
    · rw [Name.isName, List.all_takeWhile, List.takeWhile_cons_of_pos hc]
      rfl
    · exact fun hword => hwords _ htrue (hword.trans hrun)
    · exact fun hword => hwords _ hfalse (hword.trans hrun)
  exact ⟨_, _, List.takeWhile_append_dropWhile.symm, rfl,
    .name hwhole (head?_dropWhile_eq_false Name.isNameChar (c :: cs))⟩

/-- A character with which nothing begins has no meaning. -/
theorem isMeaningful_eq_false {c : Char} {rest : List Char}
    (hwords : ∀ s ∈ spellings, ¬ s.1 <+: c :: rest) (hbang : c ≠ '!') (hquote : c ≠ '"')
    (hnumeral : ¬ isNumeralChar c = true) (hname : ¬ Name.isNameChar c = true) :
    isMeaningful c = false := by
  have hsingle : ∀ mark ∈ ['(', ')', '|', '&', '=', '<', '>'], ∃ l, ([mark], l) ∈ spellings := by
    simp [spellings]
  have hmarks : ∀ mark ∈ ['(', ')', '|', '&', '=', '<', '>'], c ≠ mark := by
    rintro mark hmark rfl
    obtain ⟨l, hl⟩ := hsingle c hmark
    exact hwords _ hl (List.prefix_append [c] rest)
  simp only [List.forall_mem_cons, List.not_mem_nil, false_imp_iff, implies_true, and_true]
    at hmarks
  simp only [isNumeralChar, Bool.or_eq_true, beq_iff_eq, not_or] at hnumeral
  simp only [Name.isNameChar, Bool.or_eq_true, beq_iff_eq, not_or] at hname
  simp [isMeaningful, hmarks, hbang, hquote, hnumeral, hname]

/-- What is found at the front of a text looks as it should. -/
theorem looksLike_front (cs : List Char) : LooksLike cs (front cs) := by
  cases hspelled : spelled? cs with
  | some s =>
      obtain ⟨spelling, l⟩ := s
      obtain ⟨behind, rfl, hoccupies⟩ := occupies_of_spelled? hspelled
      simp only [front, hspelled]
      exact ⟨spelling, behind, rfl, rfl, hoccupies⟩
  | none =>
      have hwords := not_prefix_of_spelled?_eq_none hspelled
      cases cs with
      | nil => nofun
      | cons c rest =>
          simp only [front, hspelled]
          split_ifs with hbang hquote hnumeral hname
          · subst hbang
            refine ⟨rest, rfl, fun hhead => ?_⟩
            obtain ⟨rest, rfl⟩ := List.head?_eq_some_iff.mp hhead
            nomatch hspelled
          · subst hquote
            exact looksLike_frontQuoted rest
          · exact looksLike_frontNumeral hnumeral
          · exact looksLike_frontName hname hspelled
          · intro c' hc'
            cases hc'
            exact isMeaningful_eq_false hwords hbang hquote hnumeral hname

/-- To prove something of every text, walk from front to front. -/
theorem front_induction {motive : List Char → Prop} (nil : motive [])
    (nothing : ∀ c rest, front (c :: rest) = .nothing → isMeaningful c = false → motive rest →
      motive (c :: rest))
    (lexeme : ∀ (l : Lexeme) (slice behind : List Char), slice ≠ [] →
      front (slice ++ behind) = .lexeme l slice.length → l.Occupies slice behind → motive behind →
        motive (slice ++ behind))
    (notNumeral : ∀ run behind, front (run ++ behind) = .notNumeral run →
      IsFaultyRun run behind → motive behind → motive (run ++ behind))
    (loneBang : ∀ rest, front ('!' :: rest) = .loneBang → rest.head? ≠ some '=' →
      motive ('!' :: rest)) (cs : List Char) : motive cs := by
  induction hlength : cs.length using Nat.strong_induction_on generalizing cs with
  | h n ih =>
      subst hlength
      have hlooks := looksLike_front cs
      cases hfront : front cs with
      | nothing =>
          rw [hfront] at hlooks
          cases cs with
          | nil => exact nil
          | cons c rest =>
              exact nothing c rest hfront (hlooks c rfl) (ih _ (Nat.lt_succ_self _) rest rfl)
      | lexeme l length =>
          rw [hfront] at hlooks
          obtain ⟨slice, behind, rfl, rfl, hoccupies⟩ := hlooks
          have hpos := (front_lexeme_bounds hfront).1
          have hshorter : behind.length < (slice ++ behind).length := by
            rw [List.length_append]
            omega
          exact lexeme l slice behind (List.ne_nil_of_length_pos hpos) hfront hoccupies
            (ih _ hshorter behind rfl)
      | notNumeral run =>
          rw [hfront] at hlooks
          obtain ⟨behind, rfl, hfaulty⟩ := hlooks
          have hpos := List.length_pos_iff.mpr hfaulty.ne_nil
          have hshorter : behind.length < (run ++ behind).length := by
            rw [List.length_append]
            omega
          exact notNumeral run behind hfront hfaulty (ih _ hshorter behind rfl)
      | loneBang =>
          rw [hfront] at hlooks
          obtain ⟨rest, rfl, hrest⟩ := hlooks
          exact loneBang rest hfront hrest

end Lexeme

end DisplayLogic
