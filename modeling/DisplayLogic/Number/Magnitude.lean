/-!
# Binary magnitudes

A `Magnitude` is the absolute value of a finite binary64 number. All of them are whole multiples of
the smallest one, so a magnitude is kept as that multiple, a natural number of `units`;
`Magnitude.one` units make the number 1. Not every natural number is a magnitude: from the leading
binary digit down only 53 digits may be used, which the field `onGrid` records as a divisibility,
and the largest exponent bounds the whole by `Magnitude.bound`.

Rounding is done once and for all on quotients of natural numbers. `nearestEven` picks the nearest
whole number, `roundUnits` applies it on the grid that the size of the quotient calls for, and
`Magnitude.ofRatio?` is the rounded quotient itself, absent when it is too large. Every magnitude
that the library makes, from text, from a count or from arithmetic, comes from `Magnitude.ofUnits?`.
-/

namespace DisplayLogic

-- A power of natural numbers is always the one of core, whatever other instances are in scope.
attribute [local instance (high)] instPowNat

/-- The whole number nearest to `num / den`; halfway between two, the even one. -/
def nearestEven (num den : Nat) : Nat :=
  let floor := num / den
  let twice := 2 * (num % den)
  if twice < den then floor
  else if den < twice then floor + 1
  else floor + floor % 2

theorem nearestEven_eq_or (num den : Nat) :
    nearestEven num den = num / den ∨ nearestEven num den = num / den + 1 := by
  simp only [nearestEven]
  split
  · exact .inl rfl
  · split
    · exact .inr rfl
    · omega

/-- A quotient that leaves no remainder stays as it is. -/
theorem nearestEven_of_mod_eq_zero {num den : Nat} (hden : 0 < den) (h : num % den = 0) :
    nearestEven num den = num / den := by
  simp [nearestEven, h, hden]

/-- How many binary digits may be used behind the leading one. -/
def fractionWidth : Nat := 52

/-- The exponent of the grid step that leaves so many binary digits to a number of this size. -/
def gridExponent (units : Nat) : Nat := units.log2 - fractionWidth

/-- The quotient `num / den` rounded to the grid of 53 binary digits. -/
def roundUnits (num den : Nat) : Nat :=
  let step := 2 ^ gridExponent (num / den)
  nearestEven num (den * step) * step

/-- Fewer than 54 binary digits followed by zeros lie on the grid, and so does the next power of
two. -/
theorem gridExponent_dvd {digits shift : Nat} (h : digits ≤ 2 ^ (fractionWidth + 1)) :
    2 ^ gridExponent (digits * 2 ^ shift) ∣ digits * 2 ^ shift := by
  rcases Nat.eq_or_lt_of_le h with rfl | hlt
  · rw [← Nat.pow_add, gridExponent, Nat.log2_two_pow]
    exact Nat.pow_dvd_pow 2 (by omega)
  · rcases Nat.eq_zero_or_pos digits with rfl | hpos
    · simp
    · have hne : digits * 2 ^ shift ≠ 0 := by
        have := Nat.two_pow_pos shift
        exact Nat.ne_of_gt (Nat.mul_pos hpos this)
      have hlog : (digits * 2 ^ shift).log2 < fractionWidth + 1 + shift := by
        rw [Nat.log2_lt hne, Nat.pow_add]
        exact Nat.mul_lt_mul_of_pos_right hlt (Nat.two_pow_pos shift)
      exact Nat.dvd_trans (Nat.pow_dvd_pow 2 (by rw [gridExponent]; omega)) (Nat.dvd_mul_left _ _)

/-- The rounded quotient has at most 53 binary digits on its grid. -/
theorem nearestEven_grid_le (num den : Nat) :
    nearestEven num (den * 2 ^ gridExponent (num / den)) ≤ 2 ^ (fractionWidth + 1) := by
  have hq : num / (den * 2 ^ gridExponent (num / den)) < 2 ^ (fractionWidth + 1) := by
    rw [← Nat.div_div_eq_div_mul, Nat.div_lt_iff_lt_mul (Nat.two_pow_pos _), ← Nat.pow_add]
    exact Nat.lt_of_lt_of_le Nat.lt_log2_self
      (Nat.pow_le_pow_right (by decide) (by rw [gridExponent]; omega))
  rcases nearestEven_eq_or num (den * 2 ^ gridExponent (num / den)) with h | h <;> omega

theorem roundUnits_onGrid (num den : Nat) :
    2 ^ gridExponent (roundUnits num den) ∣ roundUnits num den :=
  gridExponent_dvd (nearestEven_grid_le num den)

/-- How many times the smallest positive magnitude has to be doubled to give 1. -/
def Magnitude.oneExponent : Nat := 1074

/-- How many times the smallest positive magnitude has to be doubled to leave the range. -/
def Magnitude.boundExponent : Nat := 2098

/-- The first power of two, in units, that no magnitude reaches. -/
def Magnitude.bound : Nat := 2 ^ Magnitude.boundExponent

/-- The absolute value of a finite binary64 number, in units of the smallest positive one. -/
structure Magnitude where
  /-- How many times the smallest positive magnitude. -/
  units : Nat
  /-- At most 53 binary digits from the leading one on are used. -/
  onGrid : 2 ^ gridExponent units ∣ units
  /-- The magnitude is below the first power of two that has no representation. -/
  lt_bound : units < Magnitude.bound

namespace Magnitude

@[ext]
theorem ext {a b : Magnitude} (h : a.units = b.units) : a = b := by
  cases a; cases b; cases h; rfl

instance : DecidableEq Magnitude := fun a b =>
  if h : a.units = b.units then isTrue (ext h) else isFalse fun e => h (e ▸ rfl)

def one : Nat := 2 ^ oneExponent

theorem one_pos : 0 < one := Nat.two_pow_pos oneExponent

theorem bound_pos : 0 < bound := Nat.two_pow_pos boundExponent

/-- A grid point as a magnitude, absent when it is too large. -/
def ofUnits? (units : Nat) (onGrid : 2 ^ gridExponent units ∣ units) : Option Magnitude :=
  if h : units < bound then some ⟨units, onGrid, h⟩ else none

/-- The quotient `num / den`, counted in units and rounded to the nearest magnitude. -/
def ofUnitRatio? (num den : Nat) : Option Magnitude :=
  ofUnits? (roundUnits num den) (roundUnits_onGrid num den)

/-- The magnitude nearest to `num / den`, absent when the quotient is too large for any. -/
def ofRatio? (num den : Nat) : Option Magnitude :=
  ofUnitRatio? (num * one) den

def zero : Magnitude where
  units := 0
  onGrid := Nat.dvd_zero _
  lt_bound := bound_pos

def isZero (m : Magnitude) : Bool := m.units == 0

/-- The product, rounded. -/
def mul? (a b : Magnitude) : Option Magnitude := ofUnitRatio? (a.units * b.units) one

/-- The quotient, rounded. -/
def div? (a b : Magnitude) : Option Magnitude := ofUnitRatio? (a.units * one) b.units

theorem ofUnits?_eq_some_iff {units : Nat} {h : 2 ^ gridExponent units ∣ units} {m : Magnitude} :
    ofUnits? units h = some m ↔ m.units = units := by
  unfold ofUnits?
  split
  · exact ⟨fun e => by cases e; rfl, fun e => by congr 1; exact ext e.symm⟩
  · rename_i hlt
    constructor
    · exact fun e => nomatch e
    · intro e; exact absurd (e ▸ m.lt_bound) hlt

end Magnitude

end DisplayLogic
