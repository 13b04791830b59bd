import DisplayLogic.Number.Decimal
import DisplayLogic.Proofs.Number.Numeral
import DisplayLogic.Proofs.Number.Rounding

/-!
# Decimals read back

Written with all places, a decimal is a numeral. Moving the point costs zeros on one side or the
other, but the digits before and behind it always write the same number, up to a power of ten.

The shortest decimal of a magnitude is found among decimals that round to the magnitude, and
rounding is what the reader of numerals does. The main statement `ofNumeral?_plain_shortest` draws
the conclusion: the places of the shortest decimal are read as the magnitude that they were written
for.
-/

namespace DisplayLogic

-- A power of natural numbers is always the one of core, whatever other instances are in scope.
attribute [local instance (high)] instPowNat

/-! ### Rows of digits -/

theorem digitsValue_append_zeros (digits : List Char) (n : Nat) :
    digitsValue (digits ++ List.replicate n '0') = digitsValue digits * 10 ^ n := by
  rw [digitsValue, Nat.ofDigitChars_append, Nat.ofDigitChars_replicate_zero, Nat.mul_comm]
  rfl

theorem digitsValue_zeros_append (digits : List Char) (n : Nat) :
    digitsValue (List.replicate n '0' ++ digits) = digitsValue digits := by
  rw [digitsValue, Nat.ofDigitChars_append, Nat.ofDigitChars_replicate_zero, Nat.mul_zero]
  rfl

theorem digitsValue_toDigits (n : Nat) : digitsValue (Nat.toDigits 10 n) = n :=
  Nat.ofDigitChars_ten_toDigits

theorem isDigit_of_mem_zeros {n : Nat} {c : Char} (h : c ∈ List.replicate n '0') :
    c.isDigit = true := by
  rw [List.eq_of_mem_replicate h]
  rfl

namespace Decimal

variable {d : Decimal}

/-- Only zeros are trimmed. -/
theorem exists_trimZeros_append (digits : List Char) :
    ∃ n, trimZeros digits ++ List.replicate n '0' = digits := by
  have hsplit : digits.reverse.takeWhile (· == '0') ++ digits.reverse.dropWhile (· == '0') =
      digits.reverse := List.takeWhile_append_dropWhile
  have hzeros : ∀ c ∈ digits.reverse.takeWhile (· == '0'), c = '0' := by
    intro c hc
    exact beq_iff_eq.mp (List.mem_takeWhile_imp (p := (· == '0')) hc)
  refine ⟨(digits.reverse.takeWhile (· == '0')).length, ?_⟩
  rw [trimZeros, ← List.reverse_replicate, ← List.eq_replicate_of_mem hzeros,
    ← List.reverse_append, hsplit, List.reverse_reverse]

/-! ### All places -/

theorem isDigit_of_mem_whole (h : ∀ c ∈ d.digits, c.isDigit = true) :
    ∀ c ∈ d.whole, c.isDigit = true := by
  unfold whole
  split
  · exact fun c hc => isDigit_of_mem_zeros (n := 1) hc
  · rw [List.rightpad]
    refine List.forall_mem_append.mpr ⟨fun c hc => h c (List.mem_of_mem_take hc), ?_⟩
    exact fun c hc => isDigit_of_mem_zeros hc

theorem isDigit_of_mem_fraction (h : ∀ c ∈ d.digits, c.isDigit = true) :
    ∀ c ∈ d.fraction, c.isDigit = true := by
  refine List.forall_mem_append.mpr ⟨fun c hc => isDigit_of_mem_zeros hc, ?_⟩
  exact fun c hc => h c (List.mem_of_mem_drop hc)

theorem whole_ne_nil (d : Decimal) : d.whole ≠ [] := by
  unfold whole
  split
  · exact List.cons_ne_nil _ _
  · rename_i hpoint
    rw [← List.length_pos_iff, List.length_rightpad]
    omega

/-- All places begin with a digit. -/
theorem head?_plain_ne (h : ∀ c ∈ d.digits, c.isDigit = true) (mark : Char)
    (hmark : mark.isDigit = false) : d.plain.head? ≠ some mark := by
  obtain ⟨c, rest, hwhole⟩ := List.exists_cons_of_ne_nil d.whole_ne_nil
  have hc : c.isDigit = true := isDigit_of_mem_whole h c (by rw [hwhole]; exact List.mem_cons_self)
  have hhead : d.plain.head? = some c := by
    rw [plain, hwhole]
    split <;> rfl
  rw [hhead]
  intro heq
  cases heq
  rw [hc] at hmark
  nomatch hmark

/-- The digits before and behind the point are the digits of the decimal, but for zeros in front
that count nothing and for zeros behind, each of which is a factor of ten. -/
theorem exists_digitsValue_places (d : Decimal) :
    ∃ n : Nat, (n : Int) = d.point - d.digits.length + d.fraction.length ∧
      digitsValue (d.whole ++ d.fraction) = digitsValue d.digits * 10 ^ n := by
  have hlength : d.fraction.length = (-d.point).toNat + (d.digits.length - d.point.toNat) := by
    rw [fraction, List.length_append, List.length_replicate, List.length_drop]
  by_cases hpoint : d.point ≤ 0
  · refine ⟨0, by omega, ?_⟩
    have hdrop : d.digits.drop d.point.toNat = d.digits := by
      rw [Int.toNat_of_nonpos hpoint, List.drop_zero]
    have hwhole : d.whole = List.replicate 1 '0' := if_pos hpoint
    rw [hwhole, digitsValue_zeros_append, fraction, hdrop, digitsValue_zeros_append, Nat.pow_zero,
      Nat.mul_one]
  · have hwhole : d.whole = d.digits.take d.point.toNat ++
        List.replicate (d.point.toNat - d.digits.length) '0' := by
      have hzeros : d.point.toNat - (d.digits.take d.point.toNat).length =
          d.point.toNat - d.digits.length := by
        rw [List.length_take]
        omega
      rw [whole, if_neg hpoint, List.rightpad, hzeros]
    have hfraction : d.fraction = d.digits.drop d.point.toNat := by
      have hzeros : (-d.point).toNat = 0 := by omega
      rw [fraction, hzeros]
      rfl
    rcases Nat.le_total d.digits.length d.point.toNat with hle | hle
    · refine ⟨d.point.toNat - d.digits.length, by omega, ?_⟩
      rw [hwhole, hfraction, List.take_of_length_le hle, List.drop_eq_nil_of_le hle,
        List.append_nil, digitsValue_append_zeros]
    · refine ⟨0, by omega, ?_⟩
      rw [hwhole, hfraction, Nat.sub_eq_zero_of_le hle, List.replicate_zero, List.append_nil,
        List.take_append_drop, Nat.pow_zero, Nat.mul_one]

theorem point_not_mem {cs : List Char} (h : ∀ c ∈ cs, c.isDigit = true) : '.' ∉ cs :=
  fun hmem => nomatch h '.' hmem

theorem isNumeral_plain (h : ∀ c ∈ d.digits, c.isDigit = true) : Number.IsNumeral d.plain := by
  have hwhole := isDigit_of_mem_whole h
  have hfraction := isDigit_of_mem_fraction h
  have hdigit : ∃ c ∈ d.whole, c.isDigit = true := by
    obtain ⟨c, hc⟩ := List.exists_mem_of_ne_nil _ d.whole_ne_nil
    exact ⟨c, hc, hwhole c hc⟩
  have hchars {cs : List Char} (hcs : ∀ c ∈ cs, c.isDigit = true) :
      ∀ c ∈ cs, Lexeme.isNumeralChar c = true := fun c hc =>
    Number.isNumeralChar_iff.mpr (.inr (hcs c hc))
  have hcount {cs : List Char} (hcs : ∀ c ∈ cs, c.isDigit = true) : cs.count '.' = 0 :=
    List.count_eq_zero.mpr (point_not_mem hcs)
  unfold plain
  split
  · exact ⟨hchars hwhole, by rw [hcount hwhole]; exact Nat.zero_le _, hdigit⟩
  · refine ⟨?_, ?_, ?_⟩
    · exact List.forall_mem_append.mpr
        ⟨hchars hwhole, List.forall_mem_cons.mpr ⟨rfl, hchars hfraction⟩⟩
    · rw [List.count_append, List.count_cons_self, hcount hwhole, hcount hfraction]
    · obtain ⟨c, hc, hdigit⟩ := hdigit
      exact ⟨c, List.mem_append_left _ hc, hdigit⟩

theorem numeralValue_plain (h : ∀ c ∈ d.digits, c.isDigit = true) :
    Number.numeralValue d.plain =
      Number.ofRatio (digitsValue (d.whole ++ d.fraction)) (10 ^ d.fraction.length) := by
  have hwhole := point_not_mem (isDigit_of_mem_whole h)
  have hfraction := point_not_mem (isDigit_of_mem_fraction h)
  unfold plain
  split
  · rename_i hempty
    rw [List.isEmpty_iff.mp hempty, List.append_nil, Number.numeralValue_of_not_mem hwhole]
    rfl
  · exact Number.numeralValue_append_point hwhole hfraction

/-! ### Scaled significands -/

theorem isDigit_of_mem_ofScaled (significand : Nat) (exponent : Int) :
    ∀ c ∈ (ofScaled significand exponent).digits, c.isDigit = true := by
  intro c hc
  obtain ⟨n, hdigits⟩ := exists_trimZeros_append (Nat.toDigits 10 significand)
  have hmem : c ∈ Nat.toDigits 10 significand := by
    rw [← hdigits]
    exact List.mem_append_left _ hc
  exact Nat.isDigit_of_mem_toDigits (by decide) (by decide) hmem

/-- The places of `significand × 10 ^ (power - scale)`, free of fractions. -/
theorem digitsValue_places_ofScaled (significand power scale : Nat) :
    let d := ofScaled significand (power - scale)
    digitsValue (d.whole ++ d.fraction) * 10 ^ scale =
      significand * 10 ^ power * 10 ^ d.fraction.length := by
  intro d
  obtain ⟨n, hn, hplaces⟩ := d.exists_digitsValue_places
  obtain ⟨zeros, hzeros⟩ := exists_trimZeros_append (Nat.toDigits 10 significand)
  have hvalue : digitsValue d.digits * 10 ^ zeros = significand := by
    rw [← digitsValue_append_zeros, ← digitsValue_toDigits significand, ← hzeros]
    rfl
  have hpoint : d.point = d.digits.length + zeros + (power - scale : Int) := by
    have hlength : d.digits.length + zeros = (Nat.toDigits 10 significand).length := by
      rw [← hzeros, List.length_append, List.length_replicate]
      rfl
    rw [← Int.natCast_add, hlength]
    rfl
  have hexponents : n + scale = zeros + power + d.fraction.length := by omega
  calc digitsValue (d.whole ++ d.fraction) * 10 ^ scale
      = digitsValue d.digits * 10 ^ (n + scale) := by rw [hplaces, Nat.mul_assoc, Nat.pow_add]
    _ = digitsValue d.digits * 10 ^ zeros * 10 ^ power * 10 ^ d.fraction.length := by
        rw [hexponents, Nat.pow_add, Nat.pow_add, Nat.mul_assoc, Nat.mul_assoc, Nat.mul_assoc]
    _ = significand * 10 ^ power * 10 ^ d.fraction.length := by rw [hvalue]

end Decimal

/-! ### The shortest decimal -/

namespace Magnitude

theorem partsPerUnit_pos : 0 < partsPerUnit := Nat.pow_pos (by decide)

theorem one_mul_partsPerUnit : one * partsPerUnit = 10 ^ oneExponent := by
  have hten : 10 = 2 * 5 := rfl
  rw [hten, Nat.mul_pow, one, partsPerUnit]

/-- So many decimal parts, written as a quotient, are the number that they read as. -/
theorem ofRatio_eq_of_readsFrom {m : Magnitude} {num den parts : Nat} (hden : 0 < den)
    (h : num * 10 ^ oneExponent = parts * den) (hreads : m.ReadsFrom parts) :
    Number.ofRatio num den = .finite false m := by
  have hcross : num * one * partsPerUnit = parts * den := by
    rw [Nat.mul_assoc, one_mul_partsPerUnit, h]
  have hround : roundUnits (num * one) den = m.units :=
    (roundUnits_congr hden partsPerUnit_pos hcross).trans hreads
  have hratio : ofRatio? num den = some m := by
    rw [ofRatio?, ofUnitRatio?, ofUnits?_eq_some_iff, hround]
  rw [Number.ofRatio, hratio]
  rfl

theorem readsFrom_parts (m : Magnitude) : m.ReadsFrom m.parts :=
  m.roundUnits_units_mul partsPerUnit_pos

/-- Any significand and power of ten that read as the magnitude do so when written out. -/
theorem ofNumeral?_plain_ofScaled {m : Magnitude} {significand power : Nat}
    (h : m.ReadsFrom (significand * 10 ^ power)) :
    Number.ofNumeral? (Decimal.ofScaled significand (power - oneExponent)).plain =
      some (.finite false m) := by
  have hdigits := Decimal.isDigit_of_mem_ofScaled significand (power - oneExponent)
  refine Number.ofNumeral?_eq_some_iff.mpr ⟨Decimal.isNumeral_plain hdigits, ?_⟩
  rw [Decimal.numeralValue_plain hdigits]
  have hplaces := Decimal.digitsValue_places_ofScaled significand power oneExponent
  exact (ofRatio_eq_of_readsFrom (Nat.pow_pos (by decide)) hplaces h).symm

theorem shortest_eq (m : Magnitude) :
    (m.isZero = true ∧ m.shortest = ⟨[], 0⟩) ∨
      ∃ significand power : Nat, m.shortest = .ofScaled significand (power - oneExponent) ∧
        m.ReadsFrom (significand * 10 ^ power) := by
  unfold shortest
  split
  · rename_i hzero
    exact .inl ⟨hzero, rfl⟩
  · right
    simp only
    split
    · rename_i steps power hfound
      obtain ⟨count, -, hsteps⟩ := List.exists_of_findSome?_eq_some hfound
      obtain ⟨steps', hnearest, heq⟩ := Option.map_eq_some_iff.mp hsteps
      cases heq
      exact ⟨_, _, rfl, readsFrom_of_nearestSteps? hnearest⟩
    · refine ⟨m.parts, 0, ?_, ?_⟩
      · rw [Int.natCast_zero, Int.zero_sub]
      · rw [Nat.pow_zero, Nat.mul_one]
        exact m.readsFrom_parts

theorem isDigit_of_mem_shortest (m : Magnitude) : ∀ c ∈ m.shortest.digits, c.isDigit = true := by
  rcases m.shortest_eq with ⟨-, hshortest⟩ | ⟨significand, power, hshortest, -⟩
  · rw [hshortest]
    exact List.forall_mem_nil _
  · rw [hshortest]
    exact Decimal.isDigit_of_mem_ofScaled _ _

/-- The shortest decimal of a magnitude, with all its places, is read as the magnitude. -/
theorem ofNumeral?_plain_shortest (m : Magnitude) :
    Number.ofNumeral? m.shortest.plain = some (.finite false m) := by
  rcases m.shortest_eq with ⟨hzero, hshortest⟩ | ⟨significand, power, hshortest, hreads⟩
  · have hreads : m.ReadsFrom 0 := by
      have hparts : m.parts = 0 := by rw [parts, beq_iff_eq.mp hzero, Nat.zero_mul]
      rw [← hparts]
      exact m.readsFrom_parts
    have hnumeral : Number.ofNumeral? (Decimal.plain ⟨[], 0⟩) = some (.ofRatio 0 1) := rfl
    have hcross : 0 * 10 ^ oneExponent = 0 * 1 := by rw [Nat.zero_mul, Nat.zero_mul]
    rw [hshortest, hnumeral, ofRatio_eq_of_readsFrom Nat.one_pos hcross hreads]
  · rw [hshortest]
    exact ofNumeral?_plain_ofScaled hreads

end Magnitude

end DisplayLogic
