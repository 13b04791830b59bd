import DisplayLogic.Condition.Outline
import DisplayLogic.ParseError
import DisplayLogic.Proofs.Name.Pattern
import DisplayLogic.Proofs.Number.Decimal
import DisplayLogic.Proofs.Text.Quoted
import DisplayLogic.Token.Basic

/-!
# Texts that keep to one line

A line feed or a carriage return ends the line that it is written on. A text without either can be
printed as a line of its own, and `Text.IsLine` says that it is one. Texts are put together from
parts, and the lemmas here say of each sort of part why it keeps to the line: fixed words, because
they do; names and written numbers, because of the few characters that are allowed in them; quoted
texts, because both characters are escaped in them.
-/

namespace DisplayLogic

namespace Text

/-- Whether a character ends the line that it is written on. -/
def isLineEnd (c : Char) : Bool := c == '\n' || c == '\r'

/-- The text can be printed as one line. -/
def IsLine (text : String) : Prop := ∀ c ∈ text.toList, isLineEnd c = false

theorem all_not_isLineEnd_iff {cs : List Char} :
    (cs.all fun c => !isLineEnd c) = true ↔ ∀ c ∈ cs, isLineEnd c = false := by
  simp only [List.all_eq_true, Bool.not_eq_true']

/-- A fixed text is looked through from its first character to its last. -/
instance (text : String) : Decidable (IsLine text) :=
  decidable_of_iff ((text.toList.all fun c => !isLineEnd c) = true) all_not_isLineEnd_iff

/-- What is put together from lines is one line. -/
theorem IsLine.append {s t : String} (hs : IsLine s) (ht : IsLine t) : IsLine (s ++ t) := by
  rw [IsLine, String.toList_append]
  exact List.forall_mem_append.mpr ⟨hs, ht⟩

@[simp]
theorem isLine_ofList_iff {cs : List Char} :
    IsLine (.ofList cs) ↔ ∀ c ∈ cs, isLineEnd c = false := by
  rw [IsLine, String.toList_ofList]

theorem isLineEnd_eq_false_iff {c : Char} : isLineEnd c = false ↔ c ≠ '\n' ∧ c ≠ '\r' := by
  rw [isLineEnd, Bool.or_eq_false_iff, beq_eq_false_iff_ne, beq_eq_false_iff_ne]

/-- A sort of characters that leaves out both line ends keeps to the line. -/
theorem isLineEnd_eq_false_of_accepted {accepts : Char → Bool} (hfeed : accepts '\n' = false)
    (hreturn : accepts '\r' = false) {c : Char} (hc : accepts c = true) : isLineEnd c = false := by
  rw [isLineEnd_eq_false_iff]
  constructor
  · rintro rfl
    rw [hfeed] at hc
    nomatch hc
  · rintro rfl
    rw [hreturn] at hc
    nomatch hc

theorem isLineEnd_eq_false_of_isDigit {c : Char} (hc : c.isDigit = true) : isLineEnd c = false :=
  isLineEnd_eq_false_of_accepted rfl rfl hc

/-! ### Quoted texts -/

theorem isLineEnd_digitChar : ∀ d < 16, isLineEnd d.digitChar = false := by
  decide

theorem isLineEnd_of_mem_escapeNumber (code : Nat) :
    ∀ c ∈ escapeNumber code, isLineEnd c = false := by
  have hdigits : ∀ c ∈ Nat.toDigits 16 code, isLineEnd c = false := by
    intro c hc
    obtain ⟨d, hd, rfl⟩ := exists_digitChar_of_mem_toDigits hc
    exact isLineEnd_digitChar d hd
  simp only [escapeNumber, List.cons_append, List.forall_mem_cons, List.forall_mem_append]
  exact ⟨rfl, rfl, rfl, hdigits, rfl, List.forall_mem_nil _⟩

/-- Whatever a character is, what stands for it in quotes keeps to the line. -/
theorem isLineEnd_of_mem_escape (c : Char) : ∀ d ∈ escape c, isLineEnd d = false := by
  unfold escape
  split_ifs with hnull htab hreturn hfeed hbackslash hquote hhidden
  · exact all_not_isLineEnd_iff.mp rfl
  · exact all_not_isLineEnd_iff.mp rfl
  · exact all_not_isLineEnd_iff.mp rfl
  · exact all_not_isLineEnd_iff.mp rfl
  · exact all_not_isLineEnd_iff.mp rfl
  · exact all_not_isLineEnd_iff.mp rfl
  · exact isLineEnd_of_mem_escapeNumber c.toNat
  · exact List.forall_mem_singleton.mpr (isLineEnd_eq_false_iff.mpr ⟨hfeed, hreturn⟩)

theorem isLine_quote (s : String) : IsLine (quote s) := by
  have hescaped : ∀ c ∈ escapeAll s.toList, isLineEnd c = false := by
    intro c hc
    obtain ⟨d, -, hd⟩ := List.mem_flatMap.mp hc
    exact isLineEnd_of_mem_escape d c hd
  rw [quote, isLine_ofList_iff, List.cons_append, List.forall_mem_cons, List.forall_mem_append]
  exact ⟨rfl, hescaped, List.forall_mem_singleton.mpr rfl⟩

/-! ### Counts -/

theorem isLine_toString_nat (n : Nat) : IsLine (toString n) := by
  have hdigits : toString n = .ofList (Nat.toDigits 10 n) := rfl
  rw [hdigits, isLine_ofList_iff]
  intro c hc
  exact isLineEnd_eq_false_of_isDigit (Nat.isDigit_of_mem_toDigits (by decide) (by decide) hc)

theorem isLine_toString_int (i : Int) : IsLine (toString i) := by
  cases i with
  | ofNat n => exact isLine_toString_nat n
  | negSucc n =>
      have hsign : toString (Int.negSucc n) = "-" ++ toString (n + 1) := rfl
      rw [hsign]
      exact .append (by decide) (isLine_toString_nat (n + 1))

end Text

open Text

/-! ### Names -/

theorem Name.isLineEnd_of_mem {name : List Char} (h : isName name = true) :
    ∀ c ∈ name, isLineEnd c = false := by
  intro c hc
  exact isLineEnd_eq_false_of_accepted rfl rfl ((isName_iff.mp h).2 c hc)

theorem Name.isLine_reference {name : List Char} (h : isName name = true) :
    IsLine (reference name) := by
  rw [reference, isLine_ofList_iff, List.cons_append, List.forall_mem_cons, List.forall_mem_append]
  exact ⟨rfl, isLineEnd_of_mem h, List.forall_mem_singleton.mpr rfl⟩

/-! ### Numbers -/

namespace Decimal

variable {d : Decimal}

theorem isLineEnd_of_mem_plain (h : ∀ c ∈ d.digits, c.isDigit = true) :
    ∀ c ∈ d.plain, isLineEnd c = false := by
  intro c hc
  exact isLineEnd_eq_false_of_accepted rfl rfl ((isNumeral_plain h).1 c hc)

theorem isLineEnd_of_mem_pointed (h : ∀ c ∈ d.digits, c.isDigit = true) :
    ∀ c ∈ d.pointed, isLineEnd c = false := by
  have hwhole := isDigit_of_mem_whole h
  have hfraction := isDigit_of_mem_fraction h
  rw [pointed, List.forall_mem_append, List.forall_mem_cons]
  refine ⟨fun c hc => isLineEnd_eq_false_of_isDigit (hwhole c hc), rfl, ?_⟩
  split
  · exact List.forall_mem_singleton.mpr rfl
  · exact fun c hc => isLineEnd_eq_false_of_isDigit (hfraction c hc)

theorem isLineEnd_of_mem_scientific (h : ∀ c ∈ d.digits, c.isDigit = true) :
    ∀ c ∈ d.scientific, isLineEnd c = false := by
  have hdigits : ∀ c ∈ d.digits, isLineEnd c = false :=
    fun c hc => isLineEnd_eq_false_of_isDigit (h c hc)
  simp only [scientific, List.forall_mem_append, List.forall_mem_cons]
  refine ⟨?_, rfl, isLine_toString_int d.leadingExponent⟩
  split
  · exact List.forall_mem_singleton.mpr rfl
  · rename_i first hfirst
    rw [← hfirst]
    exact hdigits
  · rename_i first others hothers
    rw [hothers, List.forall_mem_cons] at hdigits
    exact List.forall_mem_cons.mpr ⟨hdigits.1, List.forall_mem_cons.mpr ⟨rfl, hdigits.2⟩⟩

end Decimal

namespace Number

theorem isLine_withSign (negative : Bool) {cs : List Char} (h : ∀ c ∈ cs, isLineEnd c = false) :
    IsLine (withSign negative cs) := by
  rw [withSign, isLine_ofList_iff]
  cases negative with
  | true => exact List.forall_mem_cons.mpr ⟨rfl, h⟩
  | false => exact h

theorem isLine_text (n : Number) : IsLine n.text := by
  cases n with
  | nan => decide
  | infinite negative =>
      have hinf : IsLine "inf" := by decide
      exact isLine_withSign negative hinf
  | finite negative m =>
      exact isLine_withSign _ (Decimal.isLineEnd_of_mem_plain m.isDigit_of_mem_shortest)

theorem isLine_inspect (n : Number) : IsLine n.inspect := by
  cases n with
  | nan => decide
  | infinite negative =>
      have hinf : IsLine "inf" := by decide
      exact isLine_withSign negative hinf
  | finite negative m =>
      apply isLine_withSign
      simp only [inspectDecimal]
      split
      · exact Decimal.isLineEnd_of_mem_pointed m.isDigit_of_mem_shortest
      · exact Decimal.isLineEnd_of_mem_scientific m.isDigit_of_mem_shortest

end Number

/-! ### Fixed words -/

theorem isLine_booleanText (b : Bool) : IsLine (booleanText b) := by
  cases b <;> decide

theorem Kind.isLine_name (kind : Kind) : IsLine kind.name := by
  cases kind <;> decide

theorem Mode.isLine_name (mode : Mode) : IsLine mode.name := by
  cases mode <;> decide

theorem Relation.isLine_symbol (relation : Relation) : IsLine relation.symbol := by
  cases relation <;> decide

theorem Token.isLine_kind (t : Token) : IsLine t.kind := by
  cases t <;> simp only [kind] <;> decide

theorem isLine_indent (depth : Nat) : IsLine (indent depth) := by
  rw [indent, isLine_ofList_iff]
  intro c hc
  rw [List.eq_of_mem_replicate hc]
  rfl

end DisplayLogic
