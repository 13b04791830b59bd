import DisplayLogic.Proofs.Lexeme.Boundary
import DisplayLogic.Proofs.Number.Numeral
import DisplayLogic.Proofs.Token.Lexing
import Mathlib.Data.List.Forall2

/-!
# How tokens are written

`Registry.Spells` relates a token to the ways to write it. Marks, connectives, relations and
booleans have one spelling each; a text stands between quotes, which it cannot contain; a number has
many numerals; and a variable has all names that the registry resolves to its source, unless the
name begins with the word of a boolean, by which it would be cut.

The main statement `lex_intercalate` says that tokens written with a space between them are cut
into just these tokens again.
-/

namespace DisplayLogic

/-- A name that is not cut in two, because it begins with neither of the two boolean words. -/
structure Name.IsWhole (name : List Char) : Prop where
  isName : Name.isName name = true
  not_true : ¬ "true".toList <+: name
  not_false : ¬ "false".toList <+: name

theorem Name.IsWhole.isNameChar {name : List Char} (h : IsWhole name) :
    ∀ c ∈ name, Name.isNameChar c = true := by
  have hname := h.isName
  rw [Name.isName, Bool.and_eq_true] at hname
  exact List.all_eq_true.mp hname.2

/-- The registry resolves the name to the source, on whatever line. -/
def Registry.Supplies (r : Registry) (name : List Char) (s : Source) : Prop :=
  ∀ line, ∃ binding, r.resolve (Name.reference name) line = .ok binding ∧ binding.entry.source = s

theorem Registry.supplies_of_findQualified? {r : Registry} {name : List Char} {entry : Entry}
    (hname : Name.isName name = true) (h : r.findQualified? name = some entry) :
    r.Supplies name entry.source := by
  intro line
  exact ⟨_, resolve_reference_of_some hname h line, rfl⟩

/-- The ways to write a token. -/
inductive Registry.Spells (r : Registry) : Token → List Char → Prop where
  | openGroup : r.Spells .openGroup ['(']
  | closeGroup : r.Spells .closeGroup [')']
  | or : r.Spells .or ['|']
  | and : r.Spells .and ['&']
  | relation (relation : Relation) : r.Spells (.relation relation) relation.symbol.toList
  | boolean (value : Bool) : r.Spells (.boolean value) (booleanText value).toList
  | number {run : List Char} {n : Number} (hrun : Number.IsNumeral run)
      (hvalue : Number.ofNumeral? run = some n) : r.Spells (.number n) run
  | text {s : String} (h : '"' ∉ s.toList) : r.Spells (.text s) ('"' :: (s.toList ++ ['"']))
  | source {name : List Char} {s : Source} (hname : Name.IsWhole name)
      (hsupplies : r.Supplies name s) : r.Spells (.source s) name

namespace Lexeme

theorem spelling_ne_nil : ∀ s ∈ spellings, s.1 ≠ [] := by
  decide

theorem not_prefix_of_head {test : Char → Bool} {word : List Char} (hne : word ≠ [])
    (hword : word.head?.all (fun c => !test c) = true) {c : Char} (hc : test c = true)
    (cs : List Char) : ¬ word <+: c :: cs := by
  obtain ⟨w, word, rfl⟩ := List.exists_cons_of_ne_nil hne
  intro hprefix
  obtain ⟨rfl, -⟩ := List.cons_prefix_cons.mp hprefix
  simp [hc] at hword

theorem spelled?_eq_none {cs : List Char} (h : ∀ s ∈ spellings, ¬ s.1 <+: cs) :
    spelled? cs = none := by
  rw [spelled?, List.find?_eq_none]
  intro s hs hprefix
  exact h s hs (List.isPrefixOf_iff_prefix.mp hprefix)

theorem spelled?_eq_none_of_head (test : Char → Bool)
    (h : ∀ s ∈ spellings, s.1.head?.all (fun c => !test c) = true) {c : Char}
    (hc : test c = true) (cs : List Char) : spelled? (c :: cs) = none := by
  apply spelled?_eq_none
  intro s hs
  exact not_prefix_of_head (spelling_ne_nil s hs) (h s hs) hc cs

/-- Only the boolean words are spelled with characters of names. -/
theorem eq_boolean_of_mem_spellings : ∀ s ∈ spellings,
    s.1 = "true".toList ∨ s.1 = "false".toList ∨
      s.1.head?.all (fun c => !Name.isNameChar c) = true := by
  decide

theorem isNumeralChar_eq_false_of_isNameChar {c : Char} (h : Name.isNameChar c = true) :
    isNumeralChar c = false := by
  have hcases : c = ':' ∨ c = '_' ∨ c.isLower = true := by
    simpa [Name.isNameChar, or_assoc] using h
  rcases hcases with rfl | rfl | hlower
  · rfl
  · rfl
  · have hne : c ≠ '.' := by
      rintro rfl
      nomatch hlower
    have hbounds : (decide ('a'.val ≤ c.val) && decide (c.val ≤ 'z'.val)) = true := hlower
    have hdigit : c.isDigit = false := by
      simp only [Char.isDigit, Bool.and_eq_true, decide_eq_true_eq, Bool.and_eq_false_iff,
        decide_eq_false_iff_not, UInt32.le_iff_toNat_le] at hbounds ⊢
      right
      exact fun hle => absurd (Nat.le_trans hbounds.1 hle) (by decide)
    simp [isNumeralChar, hne, hdigit]

/-! ### What stands at the front of a spelling -/

theorem front_numeral {run : List Char} {n : Number} (hrun : Number.IsNumeral run)
    (hvalue : Number.ofNumeral? run = some n) :
    front run = .lexeme (number n) run.length := by
  obtain ⟨hchars, -, c, hc, -⟩ := hrun
  obtain ⟨first, rest, rfl⟩ := List.exists_cons_of_ne_nil (List.ne_nil_of_mem hc)
  have hfirst := hchars first List.mem_cons_self
  have hspelled : spelled? (first :: rest) = none :=
    spelled?_eq_none_of_head isNumeralChar (by decide) hfirst rest
  have hbang : first ≠ '!' := by
    rintro rfl
    nomatch hfirst
  have hquote : first ≠ '"' := by
    rintro rfl
    nomatch hfirst
  have hall : (first :: rest).takeWhile isNumeralChar = first :: rest :=
    List.takeWhile_eq_self_iff.mpr hchars
  unfold front
  simp only [hspelled, hbang, hquote, if_false, hfirst, if_true, frontNumeral, hall, hvalue]

theorem front_name {cs : List Char} (h : Name.IsWhole cs) :
    front cs = .lexeme (name cs) cs.length := by
  obtain ⟨hname, htrue, hfalse⟩ := h
  simp only [Name.isName, Bool.and_eq_true, Bool.not_eq_true', List.isEmpty_eq_false_iff,
    List.all_eq_true] at hname
  obtain ⟨hne, hchars⟩ := hname
  obtain ⟨first, rest, rfl⟩ := List.exists_cons_of_ne_nil hne
  have hfirst := hchars first List.mem_cons_self
  have hspelled : spelled? (first :: rest) = none := by
    apply spelled?_eq_none
    intro s hs
    rcases eq_boolean_of_mem_spellings s hs with heq | heq | hhead
    · rw [heq]
      exact htrue
    · rw [heq]
      exact hfalse
    · exact not_prefix_of_head (spelling_ne_nil s hs) hhead hfirst rest
  have hbang : first ≠ '!' := by
    rintro rfl
    nomatch hfirst
  have hquote : first ≠ '"' := by
    rintro rfl
    nomatch hfirst
  have hnumeral := isNumeralChar_eq_false_of_isNameChar hfirst
  have hall : (first :: rest).takeWhile Name.isNameChar = first :: rest :=
    List.takeWhile_eq_self_iff.mpr hchars
  unfold front
  simp [hspelled, hbang, hquote, hnumeral, hfirst, frontName, hall]

theorem front_text {s : String} (h : '"' ∉ s.toList) :
    front ('"' :: (s.toList ++ ['"'])) = .lexeme (text s) (s.toList.length + 2) := by
  have hcontent : (s.toList ++ ['"']).takeWhile (· != '"') = s.toList := by
    rw [List.takeWhile_append_of_pos]
    · simp
    · intro c hc
      rw [bne_iff_ne]
      rintro rfl
      exact h hc
  have hspelled : spelled? ('"' :: (s.toList ++ ['"'])) = none :=
    spelled?_eq_none_of_head (· == '"') (by decide) rfl _
  have hlength : (s.toList ++ ['"']).length = s.toList.length + 1 := by simp
  unfold front
  simp only [hspelled, frontQuoted, hcontent, hlength, String.ofList_toList]
  rw [if_neg (by decide), if_pos trivial, if_pos (Nat.lt_succ_self _), Nat.add_comm 1]

end Lexeme

namespace Registry

theorem Spells.ne_nil {r : Registry} {t : Token} {cs : List Char} (h : r.Spells t cs) :
    cs ≠ [] := by
  cases h with
  | relation relation => cases relation <;> nofun
  | boolean value => cases value <;> nofun
  | number hrun hvalue =>
      obtain ⟨-, -, c, hc, -⟩ := hrun
      exact List.ne_nil_of_mem hc
  | source hname _ =>
      rintro rfl
      nomatch hname.isName
  | _ => nofun

/-- Only texts are spelled with quotes, and these are closed. -/
theorem Spells.isClosed {r : Registry} {t : Token} {cs : List Char} (h : r.Spells t cs) :
    Lexeme.IsClosed cs := by
  intro content hcontent
  cases h with
  | relation relation => cases relation <;> nomatch hcontent
  | boolean value => cases value <;> nomatch hcontent
  | number hrun hvalue =>
      have hquote := hrun.isNumeralChar '"' (by rw [hcontent]; exact List.mem_cons_self)
      nomatch hquote
  | source hname _ =>
      have hquote := hname.isNameChar '"' (by rw [hcontent]; exact List.mem_cons_self)
      nomatch hquote
  | text _ =>
      obtain ⟨-, rfl⟩ := List.cons.inj hcontent
      simp
  | _ => nomatch hcontent

/-- What stands at the front of a spelling is the whole of it and stands for its token. -/
theorem Spells.front {r : Registry} {t : Token} {cs : List Char} (h : r.Spells t cs)
    (line : Nat) :
    ∃ l binding?, Lexeme.front cs = .lexeme l cs.length ∧
      r.tokenOf line l = .token t binding? := by
  cases h with
  | relation relation =>
      refine ⟨.relation relation, none, ?_, rfl⟩
      cases relation <;> rfl
  | boolean value =>
      refine ⟨.boolean value, none, ?_, rfl⟩
      cases value <;> rfl
  | @number run n hrun hvalue => exact ⟨.number n, none, Lexeme.front_numeral hrun hvalue, rfl⟩
  | @text s hs =>
      refine ⟨.text s, none, ?_, rfl⟩
      rw [Lexeme.front_text hs]
      simp
  | source hname hsupplies =>
      obtain ⟨binding, hresolve, rfl⟩ := hsupplies line
      refine ⟨.name cs, some binding, Lexeme.front_name hname, ?_⟩
      simp only [tokenOf, hresolve]
  | openGroup => exact ⟨.openGroup, none, rfl, rfl⟩
  | closeGroup => exact ⟨.closeGroup, none, rfl, rfl⟩
  | or => exact ⟨.or, none, rfl, rfl⟩
  | and => exact ⟨.and, none, rfl, rfl⟩

theorem lexFrom_append_of_spells {r : Registry} {t : Token} {cs rest : List Char}
    (h : r.Spells t cs) (hrest : Lexeme.StartsApart rest) (line position : Nat) :
    ∃ binding?, r.lexFrom line position (cs ++ rest) =
      .cons (.token t binding?) (r.lexFrom line (position + cs.length) rest) := by
  obtain ⟨l, binding?, hfront, htoken⟩ := h.front line
  have happend : Lexeme.front (cs ++ rest) = .lexeme l cs.length := by
    rw [Lexeme.front_append h.ne_nil h.isClosed hrest, hfront]
  refine ⟨binding?, ?_⟩
  rw [lexFrom_of_lexeme r line position happend, htoken, List.drop_left]

theorem startsApart_space (rest : List Char) : Lexeme.StartsApart (' ' :: rest) := by
  intro c hc
  cases hc
  rfl

/-- Tokens that are written with a space between them are cut into these tokens. -/
theorem lexFrom_intercalate {r : Registry} {tokens : List Token} {spellings : List (List Char)}
    (h : List.Forall₂ r.Spells tokens spellings) (line position : Nat) :
    (r.lexFrom line position ([' '].intercalate spellings)).toExcept = .ok tokens := by
  induction h generalizing position with
  | nil => rfl
  | @cons t cs ts others ht htail ih =>
      cases htail with
      | nil =>
          have hend : Lexeme.StartsApart [] := nofun
          obtain ⟨binding?, hlex⟩ := lexFrom_append_of_spells ht hend line position
          rw [List.append_nil] at hlex
          rw [List.intercalate_singleton, hlex, Lexing.toExcept_cons_token]
          rfl
      | @cons t' cs' ts' others' ht' htail' =>
          have hspace := startsApart_space ([' '].intercalate (cs' :: others'))
          obtain ⟨binding?, hlex⟩ := lexFrom_append_of_spells ht hspace line position
          rw [List.intercalate_cons_cons, List.append_assoc, List.singleton_append, hlex,
            Lexing.toExcept_cons_token, lexFrom_of_nothing r line _ rfl, ih]
          rfl

end Registry

end DisplayLogic
