import DisplayLogic.Number.Basic

/-!
# The interchange format of numbers

A number has one 64-bit pattern: a sign, eleven bits of exponent and 52 bits of fraction.
`Number.ofBits` reads a pattern and `Number.toBits` writes one. Every pattern with a full exponent
and a fraction reads as the one `nan`, which is written as the quiet pattern without a sign.

On magnitudes the pattern without its sign is `gridExponent` steps of `2 ^ 52` plus the digits above
the grid, so that patterns of magnitudes are ordered as the magnitudes are.
-/

namespace DisplayLogic

-- A power of natural numbers is always the one of core, whatever other instances are in scope.
attribute [local instance (high)] instPowNat

def exponentWidth : Nat := 11

/-- The exponent of the infinities and of `nan`, with all bits set. -/
def fullExponent : Nat := 2 ^ exponentWidth - 1

def signBit : Nat := 2 ^ (exponentWidth + fractionWidth)

theorem two_pow_add_le {fraction : Nat} (h : fraction < 2 ^ fractionWidth) :
    2 ^ fractionWidth + fraction ≤ 2 ^ (fractionWidth + 1) := by
  rw [Nat.pow_succ]; omega

namespace Magnitude

/-- The pattern of a magnitude without a sign: its exponent and its digits. -/
def toBits (m : Magnitude) : Nat :=
  gridExponent m.units * 2 ^ fractionWidth + m.units / 2 ^ gridExponent m.units

/-- The magnitude with a given exponent and fraction, absent for the full exponent. -/
def ofFields? (exponent fraction : Nat) (h : fraction < 2 ^ fractionWidth) : Option Magnitude :=
  have hle := two_pow_add_le h
  match exponent with
  | 0 => ofUnits? (fraction * 2 ^ (0 : Nat)) (gridExponent_dvd (by omega))
  | shift + 1 => ofUnits? ((2 ^ fractionWidth + fraction) * 2 ^ shift) (gridExponent_dvd hle)

end Magnitude

namespace Number

def infinityBits : Nat := fullExponent * 2 ^ fractionWidth

/-- The pattern of `nan`: a full exponent and the highest bit of the fraction. -/
def nanBits : Nat := infinityBits + 2 ^ (fractionWidth - 1)

/-- The bit of a sign, where there is one. -/
def signBits (negative : Bool) : Nat := if negative then signBit else 0

def toBits : Number → UInt64
  | nan => .ofNat nanBits
  | infinite negative => .ofNat (signBits negative + infinityBits)
  | finite negative m => .ofNat (signBits negative + m.toBits)

def ofBits (bits : UInt64) : Number :=
  let negative := decide (signBit ≤ bits.toNat)
  let exponent := bits.toNat / 2 ^ fractionWidth % 2 ^ exponentWidth
  let fraction := bits.toNat % 2 ^ fractionWidth
  if exponent = fullExponent ∧ fraction ≠ 0 then nan
  else ofMagnitude? negative
    (Magnitude.ofFields? exponent fraction (Nat.mod_lt _ (Nat.two_pow_pos fractionWidth)))

end Number

end DisplayLogic
