import DisplayLogic.Number.Magnitude

/-!
# Rounding a quotient

The rounding of `num / den` depends on the quotient alone: equal quotients are rounded alike,
however they are written. A quotient that is a magnitude already stays as it is.
-/

namespace DisplayLogic

-- A power of natural numbers is always the one of core, whatever other instances are in scope.
attribute [local instance (high)] instPowNat

theorem nearestEven_mul_right {k : Nat} (hk : 0 < k) (num den : Nat) :
    nearestEven (num * k) (den * k) = nearestEven num den := by
  have hfloor : num * k / (den * k) = num / den := Nat.mul_div_mul_right num den hk
  have htwice : 2 * (num * k % (den * k)) = 2 * (num % den) * k := by
    rw [Nat.mul_mod_mul_right, Nat.mul_assoc]
  simp only [nearestEven, hfloor, htwice, Nat.mul_lt_mul_right hk]

theorem roundUnits_mul_right {k : Nat} (hk : 0 < k) (num den : Nat) :
    roundUnits (num * k) (den * k) = roundUnits num den := by
  simp only [roundUnits]
  rw [Nat.mul_div_mul_right num den hk, Nat.mul_right_comm, nearestEven_mul_right hk]

/-- Equal quotients are rounded alike. -/
theorem roundUnits_congr {num den num' den' : Nat} (hden : 0 < den) (hden' : 0 < den')
    (h : num * den' = num' * den) : roundUnits num den = roundUnits num' den' := by
  rw [← roundUnits_mul_right hden', h, Nat.mul_comm den, roundUnits_mul_right hden]

theorem roundUnits_one_of_onGrid {units : Nat} (h : 2 ^ gridExponent units ∣ units) :
    roundUnits units 1 = units := by
  have hstep : 0 < 2 ^ gridExponent units := Nat.two_pow_pos _
  have hnearest : nearestEven units (2 ^ gridExponent units) = units / 2 ^ gridExponent units :=
    nearestEven_of_mod_eq_zero hstep (Nat.mod_eq_zero_of_dvd h)
  simp only [roundUnits, Nat.div_one, Nat.one_mul, hnearest]
  exact Nat.div_mul_cancel h

/-- A quotient that is a magnitude stays as it is. -/
theorem Magnitude.roundUnits_units_mul (m : Magnitude) {den : Nat} (hden : 0 < den) :
    roundUnits (m.units * den) den = m.units := by
  have hone : m.units * den * 1 = m.units * den := Nat.mul_one _
  rw [roundUnits_congr hden Nat.one_pos hone, roundUnits_one_of_onGrid m.onGrid]

end DisplayLogic
