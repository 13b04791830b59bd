import DisplayLogic.Number.Text
import DisplayLogic.Proofs.Number.Decimal

/-!
# Numbers read back

The text of a number says everything about the number that a comparison can see. `Number.ofText`
reads the texts that `Number.text` writes, and finds the place of the number again: only the sign of
zero is lost. Numbers with the same text are therefore equal, or both indeterminate. Conversely the
text depends on nothing but the place, because it does not show the sign of zero (`text_eq_iff`).
-/

namespace DisplayLogic.Number

/-- The number that a text without a sign writes, with `nan` for all text that is no numeral. -/
def ofUnsignedText (cs : List Char) : Number :=
  if cs = "inf".toList then infinite false else (ofNumeral? cs).getD nan

/-- The number that a text writes. -/
def ofText (text : String) : Number :=
  match text.toList with
  | '-' :: rest => (ofUnsignedText rest).negate
  | cs => ofUnsignedText cs

theorem ofUnsignedText_plain_shortest (m : Magnitude) :
    ofUnsignedText m.shortest.plain = finite false m := by
  have hinf : m.shortest.plain ≠ "inf".toList := by
    intro heq
    refine Decimal.head?_plain_ne m.isDigit_of_mem_shortest 'i' rfl ?_
    rw [heq]
    rfl
  rw [ofUnsignedText, if_neg hinf, m.ofNumeral?_plain_shortest]
  rfl

theorem ofText_withSign {cs : List Char} (h : cs.head? ≠ some '-') (negative : Bool) :
    ofText (withSign negative cs) =
      if negative then (ofUnsignedText cs).negate else ofUnsignedText cs := by
  rw [ofText, withSign, String.toList_ofList]
  cases negative with
  | true => rfl
  | false =>
      simp only [Bool.false_eq_true, if_false]
      split
      · rename_i rest
        exact absurd rfl h
      · rfl

/-- The place of a number can be read from its text. -/
theorem rank?_ofText_text (n : Number) : (ofText n.text).rank? = n.rank? := by
  cases n with
  | nan => rfl
  | infinite negative =>
      rw [text, ofText_withSign (by decide)]
      cases negative <;> rfl
  | finite negative m =>
      have hhead := Decimal.head?_plain_ne m.isDigit_of_mem_shortest '-' rfl
      rw [text, ofText_withSign hhead, ofUnsignedText_plain_shortest]
      cases hzero : m.isZero with
      | true =>
          have hunits : m.units = 0 := beq_iff_eq.mp hzero
          cases negative <;> simp [rank?, signed, hunits]
      | false => cases negative <;> rfl

/-- Equal numbers, or twice the indeterminate one. -/
def Same (a b : Number) : Prop := a = nan ∧ b = nan ∨ a.partialCompare b = some .eq

theorem same_of_rank?_eq {a b : Number} (h : a.rank? = b.rank?) : a.Same b := by
  cases hb : b.rank? with
  | none => exact .inl ⟨rank?_eq_none_iff.mp (h.trans hb), rank?_eq_none_iff.mp hb⟩
  | some x =>
      right
      simp [partialCompare, h, hb]

/-- Only the places of two numbers say whether they are the same. -/
theorem same_iff_rank?_eq {a b : Number} : a.Same b ↔ a.rank? = b.rank? := by
  refine ⟨?_, same_of_rank?_eq⟩
  rintro (⟨rfl, rfl⟩ | h)
  · rfl
  · obtain ⟨x, hx, h⟩ := Option.bind_eq_some_iff.mp h
    obtain ⟨y, hy, h⟩ := Option.bind_eq_some_iff.mp h
    have hcompare : compare x y = .eq := Option.some.inj h
    obtain rfl := Int.compare_eq_eq.mp hcompare
    rw [hx, hy]

/-- Numbers with the same text are the same. -/
theorem same_of_text_eq {a b : Number} (h : a.text = b.text) : a.Same b := by
  apply same_of_rank?_eq
  rw [← rank?_ofText_text a, h, rank?_ofText_text b]

theorem natAbs_signed (negative : Bool) (n : Nat) : (signed negative n).natAbs = n := by
  cases negative with
  | false => rfl
  | true => exact Int.natAbs_neg n

theorem eq_of_signed_eq {negative negative' : Bool} {n : Nat} (hn : n ≠ 0)
    (h : signed negative n = signed negative' n) : negative = negative' := by
  have hpos : signed false n = n := rfl
  have hneg : signed true n = -(n : Int) := rfl
  cases negative with
  | false =>
      cases negative' with
      | false => rfl
      | true => omega
  | true =>
      cases negative' with
      | false => omega
      | true => rfl

/-- Finite numbers at the same place have the same magnitude, and the same sign unless they are
zero. -/
theorem finite_of_rank?_eq {negative negative' : Bool} {m m' : Magnitude}
    (h : (finite negative m).rank? = (finite negative' m').rank?) :
    m = m' ∧ (negative = negative' ∨ m.isZero = true) := by
  have hsigned : signed negative m.units = signed negative' m'.units := Option.some.inj h
  have hunits := congrArg Int.natAbs hsigned
  rw [natAbs_signed, natAbs_signed] at hunits
  obtain rfl : m = m' := Magnitude.ext hunits
  refine ⟨rfl, ?_⟩
  by_cases hzero : m.units = 0
  · exact .inr (beq_iff_eq.mpr hzero)
  · exact .inl (eq_of_signed_eq hzero hsigned)

/-- No finite number is as far out as an infinity. -/
theorem rank?_infinite_ne_finite {negative negative' : Bool} {m : Magnitude} :
    (infinite negative).rank? ≠ (finite negative' m).rank? := by
  intro h
  have hunits := congrArg Int.natAbs (Option.some.inj h)
  rw [natAbs_signed, natAbs_signed] at hunits
  exact Nat.ne_of_gt m.lt_bound hunits

/-- Numbers at the same place have the same text. -/
theorem text_eq_of_rank?_eq {a b : Number} (h : a.rank? = b.rank?) : a.text = b.text := by
  cases a with
  | nan => rw [rank?_eq_none_iff.mp h.symm]
  | infinite negative =>
      cases b with
      | nan => nomatch h
      | infinite negative' =>
          have hbound : Magnitude.bound ≠ 0 := Nat.ne_of_gt Magnitude.bound_pos
          rw [eq_of_signed_eq hbound (Option.some.inj h)]
      | finite negative' m => exact absurd h rank?_infinite_ne_finite
  | finite negative m =>
      cases b with
      | nan => nomatch h
      | infinite negative' => exact absurd h.symm rank?_infinite_ne_finite
      | finite negative' m' =>
          obtain ⟨rfl, rfl | hzero⟩ := finite_of_rank?_eq h
          · rfl
          · rw [text, text, hzero, Bool.not_true, Bool.and_false, Bool.and_false]

/-- The texts of two numbers are the same just when the numbers are. -/
theorem text_eq_iff {a b : Number} : a.text = b.text ↔ a.Same b :=
  ⟨same_of_text_eq, fun h => text_eq_of_rank?_eq (same_iff_rank?_eq.mp h)⟩

end DisplayLogic.Number
