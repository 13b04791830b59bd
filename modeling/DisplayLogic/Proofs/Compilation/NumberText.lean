import DisplayLogic.Proofs.Compilation.Atoms
import DisplayLogic.Proofs.Condition.Comparison
import DisplayLogic.Proofs.Number.Text
import DisplayLogic.Proofs.Number.Whole

/-!
# Numbers compared by their texts

Without a literal a comparison is one of texts, also where both variables show numbers. This does no
harm: the texts of two numbers are the same just when the numbers are equal or both indeterminate.
Whole numbers are written as integers up to a limit and all others with their places, but the two
ways to write a number never meet in one text, nor do they tell equal numbers apart.

A text written for a finite number is also the text of a numeral again, except that a sign in front
has no meaning there and is passed over.
-/

namespace DisplayLogic

/-- A source shows a number: it is a constant, or a feed whose content is available. -/
inductive Source.ShowsNumber (cells : Cells) (n : Number) : Source → Prop where
  | constant : ShowsNumber cells n (.constant (.number n))
  | feed {f : Feed} (h : f.value? cells = some (.number n)) : ShowsNumber cells n (.feed f)

variable {cells : Cells} {s t : Source} {a b n : Number}

theorem Source.ShowsNumber.text_meaning (h : s.ShowsNumber cells n) :
    (s.meaning cells).text = n.text := by
  cases h with
  | constant => rw [Source.meaning, Constant.views, Constant.asText]
  | feed h =>
      rw [Source.meaning, Feed.views, Feed.text, h]
      rfl

/-- Numbers that are shown are equal as texts just when they are the same. -/
theorem Condition.eval_relate_numbers (hs : s.ShowsNumber cells a) (ht : t.ShowsNumber cells b) :
    (((Condition.relate (.source s) .equal (.source t)).eval cells).value = true ↔ a.Same b) ∧
      (((Condition.relate (.source s) .notEqual (.source t)).eval cells).value = true ↔
        ¬ a.Same b) := by
  have htexts (relation : Relation) :
      ((Condition.relate (.source s) relation (.source t)).eval cells).value =
        relation.holds a.text b.text := by
    rw [Condition.eval_eq, Condition.meaning_relate rfl, Operand.meaning, Operand.meaning,
      ← hs.text_meaning, ← ht.text_meaning]
    rfl
  rw [htexts, htexts, ← Number.text_eq_iff]
  exact ⟨decide_eq_true_iff, decide_eq_true_iff⟩

namespace Registry

/-- The text of a finite number is cut as one number, without the sign. -/
theorem lex_text_finite (r : Registry) (negative : Bool) (m : Magnitude) (line : Nat) :
    r.lex (Number.finite negative m).text line = ⟨[.number (.finite false m)], [], none⟩ := by
  have hvalue := m.ofNumeral?_plain_shortest
  have hfront := Lexeme.front_numeral (Number.ofNumeral?_eq_some_iff.mp hvalue).1 hvalue
  have hplain (position : Nat) : r.lexFrom line position m.shortest.plain =
      ⟨[.number (.finite false m)], [], none⟩ := by
    rw [lexFrom_of_lexeme r line position hfront, List.drop_length]
    rfl
  rw [lex_eq_lexFrom, Number.text, Number.withSign, String.toList_ofList]
  split
  · rw [lexFrom_of_nothing r line 0 rfl]
    exact hplain 1
  · exact hplain 0

/-- Texts and values of numbers agree. A number is written as an integer or with all places of its
shortest decimal, and two numbers have the same text just when they are equal or both indeterminate.
Two variables that show numbers are therefore equal as the condition `v = w` says, and different as
`v != w` says. The text of a finite number is cut as the one token of its magnitude. -/
theorem number_texts_agree (r : Registry) :
    (∀ n : Number, n.text = match n.whole? with
      | some k => toString k
      | none => n.places) ∧
    (∀ a b : Number, a.text = b.text ↔ a.Same b) ∧
    (∀ (v w : String) (s t : Source) (line : Nat),
      Name.isName v.toList = true → Name.isName w.toList = true →
      (r.lex v line).toExcept = .ok [.source s] → (r.lex w line).toExcept = .ok [.source t] →
      ∃ equal different,
        (r.compile ⟨v ++ " = " ++ w, line⟩).outcome = .ok equal ∧
        (r.compile ⟨v ++ " != " ++ w, line⟩).outcome = .ok different ∧
        ∀ cells a b, s.ShowsNumber cells a → t.ShowsNumber cells b →
          ((equal.eval cells).value = true ↔ a.Same b) ∧
          ((different.eval cells).value = true ↔ ¬ a.Same b)) ∧
    ∀ (negative : Bool) (m : Magnitude) (line : Nat),
      r.lex (Number.finite negative m).text line = ⟨[.number (.finite false m)], [], none⟩ := by
  refine ⟨Number.text_eq, fun a b => Number.text_eq_iff, ?_, r.lex_text_finite⟩
  intro v w s t line hv hw hlexv hlexw
  have hleft : r.Spells (Operand.source s).token v.toList :=
    spells_of_cuts hv (cuts_of_toExcept hlexv)
  have hright : r.Spells (Operand.source t).token w.toList :=
    spells_of_cuts hw (cuts_of_toExcept hlexw)
  have htext (relation : Relation) :
      (v ++ (" " ++ relation.symbol ++ " ") ++ w).toList =
        v.toList ++ ' ' :: (relation.symbol.toList ++ ' ' :: w.toList) := by
    simp only [String.toList_append, List.append_assoc]
    rfl
  refine ⟨_, _, compile_comparison hleft hright (htext .equal) line,
    compile_comparison hleft hright (htext .notEqual) line, ?_⟩
  intro cells a b hs ht
  exact Condition.eval_relate_numbers hs ht

/-- Zero is equal to zero with a sign, also where the two are compared as texts. -/
theorem number_texts_agree_on_zeros :
    let feed (name : String) : Feed := ⟨.number, name, .cell name⟩
    let r := (Registry.empty.register "hp" ⟨.feed (feed "hp"), []⟩).register "mp"
      ⟨.feed (feed "mp"), []⟩
    let cells : Cells := fun name => some (.number (.finite (name == "hp") .zero))
    (Name.isName "hp".toList = true ∧
        (r.lex "hp" 3).toExcept = .ok [.source (.feed (feed "hp"))] ∧
        Source.ShowsNumber cells (.finite true .zero) (.feed (feed "hp"))) ∧
      (Name.isName "mp".toList = true ∧
        (r.lex "mp" 3).toExcept = .ok [.source (.feed (feed "mp"))] ∧
        Source.ShowsNumber cells (.finite false .zero) (.feed (feed "mp"))) ∧
      ∃ equal different,
        (r.compile ⟨"hp = mp", 3⟩).outcome = .ok equal ∧ (equal.eval cells).value = true ∧
        (r.compile ⟨"hp != mp", 3⟩).outcome = .ok different ∧
        (different.eval cells).value = false := by
  intro feed r cells
  have hlexhp : (r.lex "hp" 3).toExcept = .ok [.source (.feed (feed "hp"))] := by rfl
  have hlexmp : (r.lex "mp" 3).toExcept = .ok [.source (.feed (feed "mp"))] := by rfl
  have hhp : Source.ShowsNumber cells (.finite true .zero) (.feed (feed "hp")) := .feed rfl
  have hmp : Source.ShowsNumber cells (.finite false .zero) (.feed (feed "mp")) := .feed rfl
  have hsame : (Number.finite true .zero).Same (.finite false .zero) := .inr rfl
  obtain ⟨-, -, hvariables, -⟩ := number_texts_agree r
  obtain ⟨equal, different, hequal, hdifferent, heval⟩ :=
    hvariables "hp" "mp" _ _ 3 rfl rfl hlexhp hlexmp
  obtain ⟨hvalue, hvalue'⟩ := heval cells _ _ hhp hmp
  refine ⟨⟨rfl, hlexhp, hhp⟩, ⟨rfl, hlexmp, hmp⟩, equal, different, hequal, hvalue.mpr hsame,
    hdifferent, ?_⟩
  rw [Bool.eq_false_iff]
  exact fun htrue => hvalue'.mp htrue hsame

end Registry

end DisplayLogic
