namespace HoareProof

/-!
Binary floating point numbers of double precision.  A value that is not a number
is none of them; constants have a kind of its own for it.  Every finite double is
a whole multiple of the least positive one, two to the power -1074, so a
magnitude is a natural number of such units.  That makes comparison exact and
independent of an exponent, and rounding a single division of natural numbers.
A magnitude is representable when at most its first fifty-three bits are used
and it stays below two to the power 1024.
-/

def Binary64.unitsPerOne : Nat := Nat.pow 2 1074

/-- The first magnitude, in units, beyond every finite double. -/
def Binary64.overflowUnits : Nat := Nat.pow 2 2098

/-- A magnitude, in units, that a double holds exactly. -/
def Binary64.Representable (units : Nat) : Prop :=
  units % Nat.pow 2 (units.log2 - 52) = 0 ∧ units < Binary64.overflowUnits

instance (units : Nat) : Decidable (Binary64.Representable units) :=
  inferInstanceAs (Decidable (_ ∧ _))

/-- A double: a sign with a representable magnitude, or with infinity.  Zero
has two signs. -/
inductive Binary64 where
  | finite (negative : Bool) (units : Nat) (exact : Binary64.Representable units)
  | infinite (negative : Bool)
deriving DecidableEq

namespace Binary64

/-- There are finite doubles. -/
theorem overflowUnits_pos : 0 < overflowUnits := by
  unfold overflowUnits
  generalize 2098 = exponent
  exact Nat.two_pow_pos exponent

def zero (negative : Bool) : Binary64 :=
  .finite negative 0 ⟨Nat.zero_mod _, overflowUnits_pos⟩

/-- The sign bit, which zero has too. -/
def isNegative : Binary64 -> Bool
  | .finite negative _ _ => negative
  | .infinite negative => negative

/-- The number of the other sign and the same magnitude. -/
def neg : Binary64 -> Binary64
  | .finite negative units exact => .finite (!negative) units exact
  | .infinite negative => .infinite (!negative)

def isZero : Binary64 -> Bool
  | .finite _ units _ => units == 0
  | .infinite _ => false

/-- The quotient rounded to the nearest natural number, a half to the even
neighbour. -/
def divideHalfEven (numerator denominator : Nat) : Nat :=
  let quotient := numerator / denominator
  let twiceRest := 2 * (numerator % denominator)
  if twiceRest < denominator || (twiceRest == denominator && quotient % 2 == 0) then
    quotient
  else
    quotient + 1

/-- A quotient of units rounded to fifty-three significant bits. -/
def roundUnits (numerator denominator : Nat) : Nat :=
  let shift := (numerator / denominator).log2 - 52
  divideHalfEven numerator (denominator * Nat.pow 2 shift) * Nat.pow 2 shift

/-- The double nearest to a quotient of units.  A rounded magnitude that is not
representable lies beyond the largest double, and then the result is
infinite. -/
def ofRatio (negative : Bool) (numerator denominator : Nat) : Binary64 :=
  if exact : Representable (roundUnits numerator denominator) then
    .finite negative _ exact
  else
    .infinite negative

def decimalLength (n : Nat) : Nat :=
  (Nat.toDigits 10 n).length

/-- The double nearest to `digits` times ten to the power `exponent`.  Numbers
below ten to the power -400 round to zero and numbers above ten to the power
400 to infinity, whatever their digits are, so the powers computed stay
small. -/
def ofDecimal (negative : Bool) (digits : Nat) (exponent : Int) : Binary64 :=
  let order : Int := decimalLength digits + exponent
  if digits == 0 || order < -400 then zero negative
  else if 400 < order then .infinite negative
  else match exponent with
    | .ofNat power => ofRatio negative (digits * Nat.pow 10 power * unitsPerOne) 1
    | .negSucc power => ofRatio negative (digits * unitsPerOne) (Nat.pow 10 (power + 1))

/-- Equality of the numbers denoted, for which the two zeros are one. -/
def sameValue : Binary64 -> Binary64 -> Bool
  | .finite n₁ u₁ _, .finite n₂ u₂ _ => u₁ == u₂ && (n₁ == n₂ || u₁ == 0)
  | .infinite n₁, .infinite n₂ => n₁ == n₂
  | _, _ => false

/-- Whether a double denotes a given whole number. -/
def denotes (x : Binary64) (n : Int) : Bool :=
  match x with
  | .finite negative units _ =>
    units == n.natAbs * unitsPerOne && (n == 0 || negative == decide (n < 0))
  | .infinite _ => false

/-- The whole part of a finite double, towards zero. -/
def truncate? : Binary64 -> Option Int
  | .finite negative units _ =>
    let whole : Int := units / unitsPerOne
    some (if negative then -whole else whole)
  | .infinite _ => none

end Binary64
end HoareProof
