import DisplayLogic.Number.Text
import DisplayLogic.Proofs.Number.Decimal

/-!
# Whole numbers are written as integers

Whole numbers below `10 ^ 15` have so few binary digits that reading them loses nothing, and this is
also true of all whole numbers that the search for their shortest decimal comes across. The decimal
that is found is therefore the number itself, as its leading digits with a power of ten, and written
with all places it is the row of its digits.

The text of a number is the integer where the number is whole and below the limit, and all places of
its shortest decimal otherwise. `Number.text_eq` says that this makes no difference: the integer
only decides the sign of zero.
-/

namespace DisplayLogic

-- A power of natural numbers is always the one of core, whatever other instances are in scope.
attribute [local instance (high)] instPowNat

/-- The power of ten from which on whole numbers are not written as integers. -/
def wholeLimit : Nat := 10 ^ (15 : Nat)

/-! ### Powers of ten in decimal digits -/

theorem toDigits_mul_pow {n : Nat} (hn : 0 < n) (e : Nat) :
    Nat.toDigits 10 (n * 10 ^ e) = Nat.toDigits 10 n ++ List.replicate e '0' := by
  induction e with
  | zero => rw [Nat.pow_zero, Nat.mul_one, List.replicate_zero, List.append_nil]
  | succ e ih =>
      have hpos : 0 < n * 10 ^ e := Nat.mul_pos hn (Nat.pow_pos (by decide))
      have hstep : n * 10 ^ (e + 1) = 10 * (n * 10 ^ e) + 0 := by
        rw [Nat.pow_succ, Nat.add_zero, ← Nat.mul_assoc, Nat.mul_comm]
      have hdigit : Nat.toDigits 10 0 = ['0'] := Nat.toDigits_zero 10
      rw [hstep, ← Nat.toDigits_append_toDigits (by decide) hpos (by decide), ih, hdigit,
        List.append_assoc, List.replicate_succ']

theorem pow_le_of_lt_length_toDigits {k e : Nat} (hk : 0 < k)
    (h : e < (Nat.toDigits 10 k).length) : 10 ^ e ≤ k := by
  cases e with
  | zero => exact hk
  | succ e =>
      rw [← Nat.not_lt, ← Nat.length_toDigits_le_iff (by decide) (Nat.succ_pos e)]
      exact Nat.not_le.mpr h

namespace Decimal

/-- A decimal whose point stands behind its digits is written as the digits and zeros. -/
theorem plain_of_length_le {d : Decimal} (hpoint : 0 < d.point)
    (hlength : d.digits.length ≤ d.point.toNat) :
    d.plain = d.digits ++ List.replicate (d.point.toNat - d.digits.length) '0' := by
  have hzeros : (-d.point).toNat = 0 := by omega
  have hfraction : d.fraction = [] := by
    rw [fraction, hzeros, List.replicate_zero, List.nil_append, List.drop_eq_nil_of_le hlength]
  rw [plain, hfraction, if_pos List.isEmpty_nil, whole, if_neg (Int.not_le.mpr hpoint),
    List.take_of_length_le hlength, List.rightpad]

/-- A significand with a power of ten is written as its digits and as many zeros. -/
theorem plain_ofScaled {significand : Nat} (h : 0 < significand) (e : Nat) :
    (ofScaled significand e).plain = Nat.toDigits 10 (significand * 10 ^ e) := by
  obtain ⟨zeros, hzeros⟩ := exists_trimZeros_append (Nat.toDigits 10 significand)
  have hlength := congrArg List.length hzeros
  rw [List.length_append, List.length_replicate] at hlength
  have hdigits : (ofScaled significand e).digits = trimZeros (Nat.toDigits 10 significand) := rfl
  have hpoint : (ofScaled significand e).point = (Nat.toDigits 10 significand).length + e := rfl
  have hpos : 0 < (Nat.toDigits 10 significand).length := Nat.length_toDigits_pos
  have hpad : (ofScaled significand e).point.toNat - (ofScaled significand e).digits.length =
      zeros + e := by
    rw [hpoint, hdigits]
    omega
  rw [plain_of_length_le (by omega) (by rw [hdigits]; omega), hpad, hdigits, toDigits_mul_pow h,
    ← List.replicate_append_replicate, ← List.append_assoc, hzeros]

end Decimal

/-! ### Reading whole numbers -/

namespace Magnitude

variable {m : Magnitude} {k : Nat}

theorem parts_of_whole (hm : m.units = k * one) : m.parts = k * 10 ^ oneExponent := by
  rw [parts, hm, Nat.mul_assoc, one_mul_partsPerUnit]

/-- A whole number of at most 53 binary digits is read as itself only. -/
theorem eq_of_readsFrom_whole (hm : m.units = k * one) {j : Nat}
    (hj : j ≤ 2 ^ (fractionWidth + 1)) (h : m.ReadsFrom (j * 10 ^ oneExponent)) : j = k := by
  have hcross : j * 10 ^ oneExponent * 1 = j * one * partsPerUnit := by
    rw [Nat.mul_one, Nat.mul_assoc, one_mul_partsPerUnit]
  have hround : roundUnits (j * 10 ^ oneExponent) partsPerUnit = j * one := by
    rw [roundUnits_congr partsPerUnit_pos Nat.one_pos hcross]
    exact roundUnits_one_of_onGrid (gridExponent_dvd hj)
  exact Nat.eq_of_mul_eq_mul_right one_pos (hround.symm.trans (h.trans hm))

/-! ### The search for the shortest decimal -/

/-- Steps that are found go at most one step beyond the magnitude. -/
theorem mul_le_of_nearestSteps? {step steps : Nat} (h : m.nearestSteps? step = some steps) :
    steps * step ≤ m.parts + step := by
  have hbelow : m.parts / step * step ≤ m.parts := Nat.div_mul_le_self _ _
  simp only [nearestSteps?] at h
  split at h
  · cases h
    omega
  · split at h
    · cases h
      rw [Nat.add_mul, Nat.one_mul]
      omega
    · cases h

/-- On a grid that the magnitude lies on, steps are found. -/
theorem isSome_nearestSteps? {step : Nat} (hstep : 0 < step) (h : step ∣ m.parts) :
    (m.nearestSteps? step).isSome = true := by
  have hreads : m.ReadsFrom (m.parts / step * step) := by
    rw [Nat.div_mul_cancel h]
    exact m.readsFrom_parts
  have hmod : m.parts % step = 0 := Nat.mod_eq_zero_of_dvd h
  have hdown : ¬ step ≤ 2 * (m.parts % step) := by omega
  simp only [nearestSteps?]
  rw [if_pos ⟨hreads, fun hup => hdown hup.1⟩]
  rfl

/-- Some number of digits up to any that something is found for is the one that counts. -/
theorem exists_le_of_findSome? {α : Type} {f : Nat → Option α} {a : α} {enough : Nat}
    (h : digitCounts.findSome? f = some a) (hmem : enough ∈ digitCounts)
    (henough : (f enough).isSome = true) :
    ∃ count, 0 < count ∧ count ≤ enough ∧ f count = some a := by
  obtain ⟨before, count, behind, hcounts, hcount, hnone⟩ := List.findSome?_eq_some_iff.mp h
  have hascending : digitCounts.Pairwise (· < ·) := by decide
  have hpositive : ∀ count ∈ digitCounts, 0 < count := by decide
  rw [hcounts] at hmem hascending hpositive
  refine ⟨count, hpositive count (by simp), ?_, hcount⟩
  rcases List.mem_append.mp hmem with hbefore | hrest
  · rw [hnone enough hbefore] at henough
    nomatch henough
  · rcases List.mem_cons.mp hrest with rfl | hbehind
    · exact Nat.le_refl _
    · have hlater := (List.pairwise_cons.mp (List.pairwise_append.mp hascending).2.1).1
      exact Nat.le_of_lt (hlater enough hbehind)

/-- Steps of a power of ten that are found for a whole number no smaller than that are the number.
-/
theorem eq_of_nearestSteps?_whole (hm : m.units = k * one) (hlimit : k < wholeLimit) {steps e : Nat}
    (hfine : 10 ^ e ≤ k) (h : m.nearestSteps? (10 ^ (e + oneExponent)) = some steps) :
    steps * 10 ^ e = k := by
  have hreads := readsFrom_of_nearestSteps? h
  have hnear := mul_le_of_nearestSteps? h
  rw [Nat.pow_add, ← Nat.mul_assoc] at hreads hnear
  rw [parts_of_whole hm, ← Nat.add_mul] at hnear
  have hsum := Nat.le_of_mul_le_mul_right hnear (Nat.pow_pos (by decide))
  refine eq_of_readsFrom_whole hm ?_ hreads
  calc steps * 10 ^ e
      ≤ k + k := Nat.le_trans hsum (Nat.add_le_add_left hfine k)
    _ ≤ wholeLimit + wholeLimit := by omega
    _ ≤ 2 ^ (fractionWidth + 1) := by decide

/-- The shortest decimal of a whole number is the number, as leading digits and a power of ten. -/
theorem shortest_of_whole (hm : m.units = k * one) (hk : 0 < k) (hlimit : k < wholeLimit) :
    ∃ steps e : Nat, m.shortest = .ofScaled steps e ∧ steps * 10 ^ e = k := by
  let search (count : Nat) : Option (Nat × Nat) :=
    (m.nearestSteps? (10 ^ ((Nat.toDigits 10 m.parts).length - count))).map fun steps =>
      (steps, (Nat.toDigits 10 m.parts).length - count)
  have hzero : m.isZero = false := by
    rw [isZero, hm, beq_eq_false_iff_ne]
    exact Nat.mul_ne_zero hk.ne' one_pos.ne'
  have hlength : (Nat.toDigits 10 m.parts).length =
      (Nat.toDigits 10 k).length + oneExponent := by
    rw [parts_of_whole hm, toDigits_mul_pow hk, List.length_append, List.length_replicate]
  have hfew : (Nat.toDigits 10 k).length ≤ 15 :=
    (Nat.length_toDigits_le_iff (by decide) (by decide)).mpr hlimit
  have hmem : (Nat.toDigits 10 k).length ∈ digitCounts :=
    List.mem_range'_1.mpr ⟨Nat.length_toDigits_pos, by omega⟩
  -- all the digits of the number are enough, so that something is found for no more of them
  have henough : (search (Nat.toDigits 10 k).length).isSome = true := by
    have hdvd : 10 ^ oneExponent ∣ m.parts := by
      rw [parts_of_whole hm]
      exact Nat.dvd_mul_left _ _
    simp only [search, hlength, Nat.add_sub_cancel_left, Option.isSome_map]
    exact isSome_nearestSteps? (Nat.pow_pos (by decide)) hdvd
  obtain ⟨found, hfound⟩ := Option.isSome_iff_exists.mp
    (List.findSome?_isSome_iff.mpr ⟨_, hmem, henough⟩)
  obtain ⟨count, hpos, hcount, hsearch⟩ := exists_le_of_findSome? hfound hmem henough
  obtain ⟨steps, hsteps, rfl⟩ := Option.map_eq_some_iff.mp hsearch
  have hpower : (Nat.toDigits 10 m.parts).length - count =
      (Nat.toDigits 10 k).length - count + oneExponent := by omega
  have hfine : 10 ^ ((Nat.toDigits 10 k).length - count) ≤ k :=
    pow_le_of_lt_length_toDigits hk (by omega)
  rw [hpower] at hsteps
  refine ⟨steps, _, ?_, eq_of_nearestSteps?_whole hm hlimit hfine hsteps⟩
  have hcast (e : Nat) : ((e + oneExponent : Nat) : Int) - oneExponent = e := by omega
  unfold shortest
  rw [if_neg (Bool.eq_false_iff.mp hzero)]
  simp only
  rw [show digitCounts.findSome? _ = _ from hfound, hpower]
  simp only [hcast]

/-- With all its places a whole number is the row of its digits. -/
theorem plain_shortest_of_whole (hm : m.units = k * one) (hlimit : k < wholeLimit) :
    m.shortest.plain = Nat.toDigits 10 k := by
  rcases Nat.eq_zero_or_pos k with rfl | hk
  · have hzero : m.isZero = true := by rw [isZero, hm, Nat.zero_mul]; rfl
    rw [shortest, if_pos hzero]
    rfl
  · obtain ⟨steps, e, hshortest, rfl⟩ := shortest_of_whole hm hk hlimit
    rw [hshortest, Decimal.plain_ofScaled (Nat.pos_of_mul_pos_right hk)]

end Magnitude

/-! ### The two ways to write a number -/

namespace Number

/-- The whole number that a number below the limit is. Zero is the same with either sign. -/
def whole? : Number → Option Int
  | finite negative m =>
      if Magnitude.one ∣ m.units ∧ m.units < wholeLimit * Magnitude.one then
        some (signed negative (m.units / Magnitude.one))
      else none
  | infinite _ => none
  | nan => none

/-- All places of the shortest decimal, with the sign of zero. -/
def places : Number → String
  | nan => "NaN"
  | infinite negative => withSign negative "inf".toList
  | finite negative m => withSign negative m.shortest.plain

theorem withSign_toDigits (negative : Bool) (k : Nat) :
    withSign (negative && k != 0) (Nat.toDigits 10 k) = toString (signed negative k) := by
  rw [Int.toString_eq_repr, Int.repr_eq_if]
  rcases Nat.eq_zero_or_pos k with rfl | hk
  · cases negative <;> rfl
  · have hne : (k != 0) = true := bne_iff_ne.mpr hk.ne'
    rw [hne, Bool.and_true]
    cases negative with
    | false =>
        have hsigned : signed false k = k := rfl
        rw [hsigned, if_pos (Int.natCast_nonneg k), Int.toNat_natCast, Nat.repr_eq_ofList_toDigits]
        rfl
    | true =>
        have hsigned : signed true k = -(k : Int) := rfl
        rw [hsigned, if_neg (by omega), Int.neg_neg, Int.toNat_natCast, ← String.toList_inj]
        simp [withSign]

/-- A number is written as an integer if it is a whole number below the limit, and with all places
of its shortest decimal otherwise. -/
theorem text_eq (n : Number) :
    n.text = match n.whole? with
      | some k => toString k
      | none => n.places := by
  cases n with
  | nan => rfl
  | infinite negative => rfl
  | finite negative m =>
      by_cases h : Magnitude.one ∣ m.units ∧ m.units < wholeLimit * Magnitude.one
      · have hwhole : (finite negative m).whole? =
            some (signed negative (m.units / Magnitude.one)) := if_pos h
        obtain ⟨k, hk⟩ := h.1
        rw [Nat.mul_comm] at hk
        have hlimit : k < wholeLimit := by
          rw [hk] at h
          exact Nat.lt_of_mul_lt_mul_right h.2
        have hquotient : m.units / Magnitude.one = k := by
          rw [hk, Nat.mul_div_cancel k Magnitude.one_pos]
        have hzero : m.isZero = (k == 0) := by
          rw [Magnitude.isZero, hk, Bool.eq_iff_iff, beq_iff_eq, beq_iff_eq, Nat.mul_eq_zero]
          exact or_iff_left Magnitude.one_pos.ne'
        rw [hwhole, hquotient, text, Magnitude.plain_shortest_of_whole hk hlimit, hzero]
        exact withSign_toDigits negative k
      · have hwhole : (finite negative m).whole? = none := if_neg h
        have hzero : m.isZero = false := by
          rw [Magnitude.isZero, beq_eq_false_iff_ne]
          intro hunits
          refine h ⟨hunits ▸ Nat.dvd_zero _, ?_⟩
          rw [hunits]
          exact Nat.mul_pos (Nat.pow_pos (by decide)) Magnitude.one_pos
        rw [hwhole, text, hzero, Bool.not_false, Bool.and_true]
        rfl

end Number

end DisplayLogic
