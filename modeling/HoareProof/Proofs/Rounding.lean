import HoareProof.Number.Shortest
import HoareProof.Proofs.Numerals
import Mathlib.Tactic.Positivity

namespace HoareProof
namespace Binary64

/-!
Rounding to doubles.  The double nearest to a quotient depends on the quotient alone,
not on the numerator and the denominator that form it, and a magnitude that a double
holds is its own nearest double.  So a decimal may be written with more or fewer
trailing zeros, and the decimal found for a double, by whichever branch of the search,
reads back as that double.
-/

/-! ## Only the quotient counts -/

theorem divideHalfEven_mul_right (numerator denominator : Nat) {factor : Nat}
    (positive : 0 < factor) :
    divideHalfEven (numerator * factor) (denominator * factor) =
      divideHalfEven numerator denominator := by
  have rest : 2 * (numerator * factor % (denominator * factor)) =
      2 * (numerator % denominator) * factor := by
    rw [Nat.mul_mod_mul_right, Nat.mul_assoc]
  simp only [divideHalfEven, Nat.mul_div_mul_right _ _ positive, rest,
    Nat.mul_lt_mul_right positive, Nat.mul_right_cancel_iff positive, beq_eq_decide]

theorem divideHalfEven_one (n : Nat) : divideHalfEven n 1 = n := by
  simp [divideHalfEven, Nat.mod_one]

theorem roundUnits_mul_right (numerator denominator : Nat) {factor : Nat}
    (positive : 0 < factor) :
    roundUnits (numerator * factor) (denominator * factor) = roundUnits numerator denominator := by
  have regroup (shift : Nat) : denominator * factor * Nat.pow 2 shift =
      denominator * Nat.pow 2 shift * factor := Nat.mul_right_comm _ _ _
  simp only [roundUnits, Nat.mul_div_mul_right _ _ positive, regroup,
    divideHalfEven_mul_right _ _ positive]

/-- Equal quotients are rounded alike. -/
theorem ofRatio_eq_of_cross {n₁ d₁ n₂ d₂ : Nat} (positive₁ : 0 < d₁) (positive₂ : 0 < d₂)
    (cross : n₁ * d₂ = n₂ * d₁) (negative : Bool) :
    ofRatio negative n₁ d₁ = ofRatio negative n₂ d₂ := by
  have sameRounding : roundUnits n₁ d₁ = roundUnits n₂ d₂ :=
    calc roundUnits n₁ d₁ = roundUnits (n₁ * d₂) (d₁ * d₂) :=
          (roundUnits_mul_right _ _ positive₂).symm
      _ = roundUnits (n₂ * d₁) (d₂ * d₁) := by rw [cross, Nat.mul_comm d₁ d₂]
      _ = roundUnits n₂ d₂ := roundUnits_mul_right _ _ positive₁
  simp only [ofRatio, sameRounding]

/-- A magnitude that a double holds is rounded to itself. -/
theorem roundUnits_of_representable {units : Nat} (exact : Representable units)
    {denominator : Nat} (positive : 0 < denominator) :
    roundUnits (units * denominator) denominator = units := by
  have divides : Nat.pow 2 (units.log2 - 52) ∣ units := Nat.dvd_of_mod_eq_zero exact.1
  have shiftPositive : 0 < Nat.pow 2 (units.log2 - 52) := Nat.two_pow_pos _
  simp only [roundUnits, Nat.mul_div_cancel _ positive]
  generalize Nat.pow 2 (units.log2 - 52) = step at divides shiftPositive
  -- The step at this size divides the magnitude, so the division leaves nothing to round.
  obtain ⟨multiple, rfl⟩ := divides
  have scaled : divideHalfEven (step * multiple * denominator) (denominator * step) = multiple :=
    calc divideHalfEven (step * multiple * denominator) (denominator * step)
        = divideHalfEven (multiple * (denominator * step)) (1 * (denominator * step)) := by
          congr 1 <;> ring
      _ = multiple := by
          rw [divideHalfEven_mul_right _ _ (Nat.mul_pos positive shiftPositive),
            divideHalfEven_one]
  rw [scaled, Nat.mul_comm]

theorem ofRatio_of_representable {units : Nat} (exact : Representable units)
    {denominator : Nat} (positive : 0 < denominator) (negative : Bool) :
    ofRatio negative (units * denominator) denominator = .finite negative units exact := by
  have fixed := roundUnits_of_representable exact positive
  simp only [ofRatio, fixed, exact, dite_true]

/-! ## Decimals of one value -/

theorem decimalLength_mul_pow {digits : Nat} (positive : 0 < digits) (zeros : Nat) :
    decimalLength (digits * 10 ^ zeros) = decimalLength digits + zeros := by
  induction zeros with
  | zero => simp
  | succ zeros inductionHypothesis =>
      have stillPositive : 0 < digits * 10 ^ zeros := by positivity
      have oneMore : Nat.toDigits 10 (digits * 10 ^ (zeros + 1)) =
          Nat.toDigits 10 (digits * 10 ^ zeros) ++ Nat.toDigits 10 0 := by
        rw [Nat.toDigits_append_toDigits (by decide) stillPositive (by decide)]
        congr 1
        ring
      unfold decimalLength at inductionHypothesis ⊢
      rw [oneMore, List.length_append, inductionHypothesis]
      rfl

/-- A decimal within the range of orders as one quotient, for exponents of either
sign. -/
theorem ofDecimal_eq_ofRatio {digits : Nat} (positive : 0 < digits) {exponent : Int}
    (notTooSmall : -400 ≤ (decimalLength digits : Int) + exponent)
    (notTooLarge : (decimalLength digits : Int) + exponent ≤ 400) (negative : Bool) :
    ofDecimal negative digits exponent =
      ofRatio negative (digits * 10 ^ exponent.toNat * unitsPerOne) (10 ^ (-exponent).toNat) := by
  have nonzero : (digits == 0) = false := beq_false_of_ne positive.ne'
  simp only [ofDecimal, nonzero, Int.not_lt.mpr notTooSmall, Int.not_lt.mpr notTooLarge,
    decide_false, Bool.or_self, Bool.false_eq_true, if_false]
  cases exponent with
  | ofNat power => simp [Nat.pow_eq]
  | negSucc power => simp [Nat.pow_eq, Int.neg_negSucc]

/-- Trailing zeros of the digits may be moved into the exponent. -/
theorem ofDecimal_mul_pow {digits : Nat} (positive : 0 < digits) (zeros : Nat) (exponent : Int)
    (negative : Bool) :
    ofDecimal negative (digits * 10 ^ zeros) exponent =
      ofDecimal negative digits (exponent + zeros) := by
  have stillPositive : 0 < digits * 10 ^ zeros := by positivity
  have sameOrder : (decimalLength (digits * 10 ^ zeros) : Int) + exponent =
      decimalLength digits + (exponent + zeros) := by
    rw [decimalLength_mul_pow positive]
    push_cast
    ring
  by_cases inRange : -400 ≤ (decimalLength digits : Int) + (exponent + zeros) ∧
      (decimalLength digits : Int) + (exponent + zeros) ≤ 400
  · obtain ⟨notTooSmall, notTooLarge⟩ := inRange
    rw [ofDecimal_eq_ofRatio positive notTooSmall notTooLarge,
      ofDecimal_eq_ofRatio stillPositive (by omega) (by omega)]
    apply ofRatio_eq_of_cross (by positivity) (by positivity)
    have powers : zeros + exponent.toNat + (-(exponent + zeros)).toNat =
        (exponent + zeros).toNat + (-exponent).toNat := by omega
    calc digits * 10 ^ zeros * 10 ^ exponent.toNat * unitsPerOne * 10 ^ (-(exponent + zeros)).toNat
        = digits * unitsPerOne *
            10 ^ (zeros + exponent.toNat + (-(exponent + zeros)).toNat) := by ring
      _ = digits * 10 ^ (exponent + zeros).toNat * unitsPerOne * 10 ^ (-exponent).toNat := by
          rw [powers]
          ring
  -- Outside the range the order alone decides, and it is the same on both sides.
  · have nonzero : (digits == 0) = false := beq_false_of_ne positive.ne'
    have stillNonzero : (digits * 10 ^ zeros == 0) = false := beq_false_of_ne stillPositive.ne'
    simp only [ofDecimal, nonzero, stillNonzero, sameOrder, Bool.false_or]
    by_cases tooSmall : (decimalLength digits : Int) + (exponent + zeros) < -400
    · simp only [tooSmall, decide_true, if_true]
    · have tooLarge : 400 < (decimalLength digits : Int) + (exponent + zeros) := by omega
      simp only [tooSmall, tooLarge, decide_false, Bool.false_eq_true, if_false, if_true]

/-! ## The decimal of a double -/

theorem isNegative_ofRatio (negative : Bool) (numerator denominator : Nat) :
    (ofRatio negative numerator denominator).isNegative = negative := by
  unfold ofRatio
  split <;> rfl

theorem isNegative_ofDecimal (negative : Bool) (digits : Nat) (exponent : Int) :
    (ofDecimal negative digits exponent).isNegative = negative := by
  simp only [ofDecimal]
  split
  · rfl
  · split
    · rfl
    · cases exponent <;> exact isNegative_ofRatio _ _ _

theorem ofDecimal_of_readsBack {units digits : Nat} {exponent : Int} (exact : Representable units)
    (reads : readsBack units digits exponent = true) :
    ofDecimal false digits exponent = .finite false units exact := by
  have sign := isNegative_ofDecimal false digits exponent
  unfold readsBack at reads
  cases found : ofDecimal false digits exponent with
  | infinite negative =>
      rw [found] at reads
      cases reads
  | finite negative read readExact =>
      rw [found] at reads sign
      have sameUnits : read = units := beq_iff_eq.mp reads
      have positive : negative = false := sign
      subst sameUnits positive
      rfl

theorem candidate?_readsBack {units : Nat} {exponent : Int} {decimal : Decimal}
    (found : candidate? units exponent = some decimal) :
    readsBack units decimal.digits decimal.exponent = true := by
  unfold candidate? at found
  simp only at found
  split at found
  next lowerReads upperReads =>
    cases found
    simp only
    split
    · exact lowerReads
    · exact upperReads
  next lowerReads _ =>
    cases found
    exact lowerReads
  next _ upperReads =>
    cases found
    exact upperReads
  · cases found

theorem decimalLength_bounds {digits lower upper : Nat} (lowerPositive : 0 < lower)
    (upperPositive : 0 < upper) (atLeast : 10 ^ lower ≤ digits) (below : digits < 10 ^ upper) :
    lower < decimalLength digits ∧ decimalLength digits ≤ upper := by
  unfold decimalLength
  constructor
  · apply Nat.lt_of_not_le
    rw [Nat.length_toDigits_le_iff (by decide) lowerPositive]
    exact Nat.not_lt.mpr atLeast
  · rw [Nat.length_toDigits_le_iff (by decide) upperPositive]
    exact below

/-- A magnitude times five to a power and two to the same power, over ten to that
power. -/
theorem ofRatio_five_two {units : Nat} (exact : Representable units) (power : Nat) :
    ofRatio false (units * Nat.pow 5 power * 10 ^ 0 * Nat.pow 2 power) (10 ^ power) =
      .finite false units exact := by
  have joined : units * Nat.pow 5 power * 10 ^ 0 * Nat.pow 2 power = units * 10 ^ power := by
    rw [pow_zero, Nat.mul_one, Nat.pow_eq, Nat.pow_eq, Nat.mul_assoc, ← Nat.mul_pow]
  rw [joined, ofRatio_of_representable exact (by positivity)]

theorem five_pow_bounds :
    10 ^ 673 ≤ Nat.pow 5 1074 ∧ overflowUnits * Nat.pow 5 1074 < 10 ^ 1474 := by
  decide +kernel

/-- The exact expansion stands within the orders that are rounded, so it reads back. -/
theorem ofDecimal_exactDecimal {units : Nat} (positive : 0 < units) (exact : Representable units) :
    ofDecimal false (exactDecimal units).digits (exactDecimal units).exponent =
      .finite false units exact := by
  obtain ⟨scaleLower, scaleUpper⟩ := five_pow_bounds
  have atLeast : 10 ^ 673 ≤ (exactDecimal units).digits :=
    Nat.le_trans scaleLower (Nat.le_mul_of_pos_left _ positive)
  have below : (exactDecimal units).digits < 10 ^ 1474 :=
    Nat.lt_of_le_of_lt (Nat.mul_le_mul_right _ exact.2.le) scaleUpper
  have digitsPositive : 0 < (exactDecimal units).digits :=
    Nat.lt_of_lt_of_le (by positivity) atLeast
  have order : (exactDecimal units).exponent = -1074 := rfl
  have numeratorPower : (-1074 : Int).toNat = 0 := rfl
  have denominatorPower : (-(-1074 : Int)).toNat = 1074 := rfl
  obtain ⟨long, short⟩ := decimalLength_bounds (by decide) (by decide) atLeast below
  rw [ofDecimal_eq_ofRatio digitsPositive (by omega) (by omega), order, numeratorPower,
    denominatorPower]
  unfold exactDecimal unitsPerOne
  -- The identity holds for every power; with a literal the powers would be computed.
  generalize 1074 = power
  exact ofRatio_five_two exact power

/-- The decimal that is written for a magnitude reads back as the magnitude. -/
theorem ofDecimal_shortestDecimal {units : Nat} (positive : 0 < units)
    (exact : Representable units) :
    ofDecimal false (shortestDecimal units).digits (shortestDecimal units).exponent =
      .finite false units exact := by
  cases found : (List.range 17).findSome? fun n : Nat =>
      candidate? units (decade units - (n + 1)) with
  | none =>
      have isExact : shortestDecimal units = exactDecimal units := by
        simp only [shortestDecimal, found, Option.getD_none]
      rw [isExact]
      exact ofDecimal_exactDecimal positive exact
  | some decimal =>
      have isFound : shortestDecimal units = decimal := by
        simp only [shortestDecimal, found, Option.getD_some]
      obtain ⟨n, _, candidate⟩ := List.exists_of_findSome?_eq_some found
      rw [isFound]
      exact ofDecimal_of_readsBack exact (candidate?_readsBack candidate)

end Binary64
end HoareProof
