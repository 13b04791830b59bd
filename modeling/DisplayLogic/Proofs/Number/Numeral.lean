import DisplayLogic.Lexeme
import DisplayLogic.Number.Numeral
import Mathlib.Data.List.TakeWhile

/-!
# Which runs are numerals

A numeral is a run of digits and points with at most one point and at least one digit. The reader
of numerals cuts the run at its first point and tests what is left; `ofNumeral?_isSome_iff` says
that it gives a value for all numerals and for nothing else.

The value, `numeralValue`, is the number that the digits write in base ten, divided by ten for each
digit behind the point. It is never `nan` and has no sign.
-/

namespace DisplayLogic

-- A power of natural numbers is always the one of core, whatever other instances are in scope.
attribute [local instance (high)] instPowNat

namespace Number

/-- A run of digits and points with at most one point and at least one digit. -/
structure IsNumeral (run : List Char) : Prop where
  isNumeralChar : ∀ c ∈ run, Lexeme.isNumeralChar c = true
  count_point_le : run.count '.' ≤ 1
  exists_digit : ∃ c ∈ run, c.isDigit = true

theorem isNumeralChar_iff {c : Char} :
    Lexeme.isNumeralChar c = true ↔ c = '.' ∨ c.isDigit = true := by
  simp [Lexeme.isNumeralChar]

/-- Among digits and points the digits are what is not a point. -/
theorem isDigit_iff_of_isNumeralChar {c : Char} (h : Lexeme.isNumeralChar c = true) :
    c.isDigit = true ↔ c ≠ '.' := by
  constructor
  · rintro hdigit rfl
    nomatch hdigit
  · intro hne
    exact (isNumeralChar_iff.mp h).resolve_left hne

theorem ofNumeral?_isSome_iff_of_split {run whole : List Char} {fraction? : Option (List Char)}
    (h : splitAtPoint run = (whole, fraction?)) :
    (ofNumeral? run).isSome = true ↔
      whole ++ fraction?.getD [] ≠ [] ∧ ∀ c ∈ whole ++ fraction?.getD [], c.isDigit = true := by
  simp only [ofNumeral?, h]
  generalize whole ++ fraction?.getD [] = digits
  cases digits <;> simp

/-- Exactly the numerals have a value. -/
theorem ofNumeral?_isSome_iff {run : List Char} :
    (ofNumeral? run).isSome = true ↔ IsNumeral run := by
  by_cases hpoint : '.' ∈ run
  · obtain ⟨whole, fraction, rfl, hwhole⟩ := List.eq_append_cons_of_mem hpoint
    rw [ofNumeral?_isSome_iff_of_split (splitAtPoint_append_point hwhole fraction),
      Option.getD_some]
    have hsub : ∀ c ∈ whole ++ fraction, c ∈ whole ++ '.' :: fraction := fun c hc =>
      ((List.sublist_cons_self '.' fraction).append_left whole).subset hc
    constructor
    · rintro ⟨hne, hdigits⟩
      have hfraction : '.' ∉ fraction := fun hmem =>
        nomatch hdigits '.' (List.mem_append_right _ hmem)
      refine ⟨?_, ?_, ?_⟩
      · intro c hc
        have hmem : c = '.' ∨ c ∈ whole ++ fraction := by simpa [or_left_comm] using hc
        exact isNumeralChar_iff.mpr (hmem.imp_right (hdigits c))
      · simp [List.count_append, List.count_eq_zero.mpr hwhole,
          List.count_eq_zero.mpr hfraction]
      · obtain ⟨c, hc⟩ := List.exists_mem_of_ne_nil _ hne
        exact ⟨c, hsub c hc, hdigits c hc⟩
    · rintro ⟨hchars, hcount, c, hc, hdigit⟩
      have hfraction : '.' ∉ fraction := by
        rw [← List.count_eq_zero]
        simp [List.count_append] at hcount
        omega
      have hdigits : ∀ d ∈ whole ++ fraction, d.isDigit = true := by
        intro d hd
        rw [isDigit_iff_of_isNumeralChar (hchars d (hsub d hd))]
        rintro rfl
        exact (List.mem_append.mp hd).elim hwhole hfraction
      have hne := (isDigit_iff_of_isNumeralChar (hchars c hc)).mp hdigit
      have hrest : c ∈ whole ++ fraction := by simpa [hne] using hc
      exact ⟨List.ne_nil_of_mem hrest, hdigits⟩
  · rw [ofNumeral?_isSome_iff_of_split (splitAtPoint_of_not_mem hpoint), Option.getD_none,
      List.append_nil]
    constructor
    · rintro ⟨hne, hdigits⟩
      obtain ⟨c, hc⟩ := List.exists_mem_of_ne_nil _ hne
      refine ⟨fun d hd => isNumeralChar_iff.mpr (.inr (hdigits d hd)), ?_, c, hc, hdigits c hc⟩
      rw [List.count_eq_zero.mpr hpoint]
      exact Nat.zero_le _
    · rintro ⟨hchars, -, c, hc, -⟩
      refine ⟨List.ne_nil_of_mem hc, fun d hd => ?_⟩
      rw [isDigit_iff_of_isNumeralChar (hchars d hd)]
      rintro rfl
      exact hpoint hd

/-! ### The value of a numeral -/

/-- A number that is neither `nan` nor negative. -/
inductive IsUnsigned : Number → Prop where
  | finite (magnitude : Magnitude) : IsUnsigned (.finite false magnitude)
  | infinite : IsUnsigned (.infinite false)

theorem isUnsigned_ofMagnitude? (m : Option Magnitude) : (ofMagnitude? false m).IsUnsigned := by
  cases m with
  | none => exact .infinite
  | some m => exact .finite m

theorem isUnsigned_ofRatio (num den : Nat) : (ofRatio num den).IsUnsigned :=
  isUnsigned_ofMagnitude? _

/-- The number that the digits of a numeral write, with a tenth for each digit behind the point. -/
def numeralValue (run : List Char) : Number :=
  ofRatio (digitsValue (run.filter (· != '.'))) (10 ^ (run.dropWhile (· != '.')).tail.length)

theorem filter_point_of_not_mem {cs : List Char} (h : '.' ∉ cs) : cs.filter (· != '.') = cs := by
  rw [List.filter_eq_self]
  intro c hc
  rw [bne_iff_ne]
  rintro rfl
  exact h hc

theorem numeralValue_of_not_mem {whole : List Char} (h : '.' ∉ whole) :
    numeralValue whole = ofRatio (digitsValue whole) 1 := by
  have hdrop : whole.dropWhile (· != '.') = [] := by
    rw [List.dropWhile_eq_nil_iff]
    intro c hc
    rw [bne_iff_ne]
    rintro rfl
    exact h hc
  rw [numeralValue, filter_point_of_not_mem h, hdrop]
  rfl

theorem numeralValue_append_point {whole fraction : List Char} (hwhole : '.' ∉ whole)
    (hfraction : '.' ∉ fraction) :
    numeralValue (whole ++ '.' :: fraction) =
      ofRatio (digitsValue (whole ++ fraction)) (10 ^ fraction.length) := by
  have hfilter : (whole ++ '.' :: fraction).filter (· != '.') = whole ++ fraction := by
    rw [List.filter_append, List.filter_cons_of_neg (by decide), filter_point_of_not_mem hwhole,
      filter_point_of_not_mem hfraction]
  have hdrop : (whole ++ '.' :: fraction).dropWhile (· != '.') = '.' :: fraction := by
    rw [List.dropWhile_append_of_pos]
    · rfl
    · intro c hc
      rw [bne_iff_ne]
      rintro rfl
      exact hwhole hc
  rw [numeralValue, hfilter, hdrop, List.tail_cons]

theorem eq_of_ofNumeral?_eq_some {run whole : List Char} {fraction? : Option (List Char)}
    (h : splitAtPoint run = (whole, fraction?)) {n : Number} (hn : ofNumeral? run = some n) :
    n = ofRatio (digitsValue (whole ++ fraction?.getD [])) (10 ^ (fraction?.getD []).length) := by
  simp only [ofNumeral?, h] at hn
  split at hn
  · nomatch hn
  · exact (Option.some.inj hn).symm

/-- The numerals are read as their values. -/
theorem ofNumeral?_eq_some_iff {run : List Char} {n : Number} :
    ofNumeral? run = some n ↔ IsNumeral run ∧ n = numeralValue run := by
  have hvalue {n : Number} (hrun : IsNumeral run) (hn : ofNumeral? run = some n) :
      n = numeralValue run := by
    by_cases hpoint : '.' ∈ run
    · obtain ⟨whole, fraction, rfl, hwhole⟩ := List.eq_append_cons_of_mem hpoint
      have hfraction : '.' ∉ fraction := by
        have hcount := hrun.count_point_le
        rw [List.count_append, List.count_cons_self] at hcount
        exact List.count_eq_zero.mp (by omega)
      rw [numeralValue_append_point hwhole hfraction]
      exact eq_of_ofNumeral?_eq_some (splitAtPoint_append_point hwhole fraction) hn
    · have heq := eq_of_ofNumeral?_eq_some (splitAtPoint_of_not_mem hpoint) hn
      rw [Option.getD_none, List.append_nil, List.length_nil, Nat.pow_zero] at heq
      rw [heq, numeralValue_of_not_mem hpoint]
  constructor
  · intro hn
    have hrun : IsNumeral run := ofNumeral?_isSome_iff.mp (by rw [hn]; rfl)
    exact ⟨hrun, hvalue hrun hn⟩
  · intro ⟨hrun, hn⟩
    obtain ⟨n', hn'⟩ := Option.isSome_iff_exists.mp (ofNumeral?_isSome_iff.mpr hrun)
    rw [hn', hvalue hrun hn', hn]

end Number

end DisplayLogic
