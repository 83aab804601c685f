import HoareProof.Number.Binary64

namespace HoareProof
namespace Binary64

/-!
The decimal text of a double: the fewest significant digits that read back as
the same double.  For each number of digits only the two neighbours of the
value on that decimal grid can be nearest, so those two are tried, by reading
them back.  Of two neighbours that read back the nearer one is taken, and of
two that are equally near the even one.  The exact expansion stands behind the
search, so what is found always reads back.
-/

/-- A decimal: `digits` times ten to the power `exponent`. -/
structure Decimal where
  digits : Nat
  exponent : Int
deriving DecidableEq, Repr

/-- A magnitude over a power of ten, as a quotient of natural numbers. -/
def overPowerOfTen (units : Nat) : Int -> Nat × Nat
  | .ofNat power => (units, unitsPerOne * Nat.pow 10 power)
  | .negSucc power => (units * Nat.pow 10 (power + 1), unitsPerOne)

/-- The number `k` for which a positive magnitude lies in the decade that ends
at ten to the power `k`. -/
def decade (units : Nat) : Int :=
  let whole := units / unitsPerOne
  if whole == 0 then
    match (List.range 330).find? fun j => unitsPerOne ≤ units * Nat.pow 10 (j + 1) with
    | some j => -(j : Int)
    | none => -330
  else
    decimalLength whole

/-- Whether a decimal reads back as the magnitude. -/
def readsBack (units digits : Nat) (exponent : Int) : Bool :=
  match ofDecimal false digits exponent with
  | .finite _ read _ => read == units
  | .infinite _ => false

/-- The decimal with a given last place that reads back, if there is one. -/
def candidate? (units : Nat) (exponent : Int) : Option Decimal :=
  let (numerator, denominator) := overPowerOfTen units exponent
  let lower := numerator / denominator
  let twiceRest := 2 * (numerator % denominator)
  let lowerIsNearer :=
    twiceRest < denominator || (twiceRest == denominator && lower % 2 == 0)
  match readsBack units lower exponent, readsBack units (lower + 1) exponent with
  | true, true => some ⟨if lowerIsNearer then lower else lower + 1, exponent⟩
  | true, false => some ⟨lower, exponent⟩
  | false, true => some ⟨lower + 1, exponent⟩
  | false, false => none

/-- The exact value of a magnitude as a decimal: a unit is five to the power
1074 over ten to the power 1074. -/
def exactDecimal (units : Nat) : Decimal :=
  ⟨units * Nat.pow 5 1074, -1074⟩

/-- The decimal of fewest digits that reads back as a positive magnitude. -/
def shortestDecimal (units : Nat) : Decimal :=
  let top := decade units
  ((List.range 17).findSome? fun (n : Nat) => candidate? units (top - (n + 1))).getD
    (exactDecimal units)

/-- Where the text of a double changes its shape: `leastPositional` is the
least decimal exponent written without an exponent mark and `firstScientific`
the first one beyond the positional range. -/
structure Layout where
  leastPositional : Int
  firstScientific : Int
  exponentWidth : Nat

/-- Positional from 0.0001 up to sixteen whole digits, with exponents of at
least two digits elsewhere. -/
def layout : Layout := ⟨-4, 16, 2⟩

/-- The signed exponent after the mark. -/
def exponentText (exponent : Int) : List Char :=
  let digits := Nat.toDigits 10 exponent.natAbs
  (if exponent < 0 then '-' else '+') ::
    (List.replicate (layout.exponentWidth - digits.length) '0' ++ digits)

/-- Digits with a decimal point after the first `whole` of them, and with
zeros where there is no digit. -/
def positional (digits : List Char) (whole : Int) : List Char :=
  if whole ≤ 0 then
    '0' :: '.' :: (List.replicate whole.natAbs '0' ++ digits)
  else
    let before := digits.take whole.toNat
    let after := digits.drop whole.toNat
    before ++ List.replicate (whole.toNat - digits.length) '0' ++
      ('.' :: if after.isEmpty then ['0'] else after)

/-- Digits in scientific notation: a point after the first digit if there are
more, then the exponent. -/
def scientific (digits : List Char) (exponent : Int) : List Char :=
  let mantissa := match digits with
    | first :: second :: more => first :: '.' :: second :: more
    | short => short
  mantissa ++ ('e' :: exponentText exponent)

def Decimal.text (decimal : Decimal) : List Char :=
  let all := Nat.toDigits 10 decimal.digits
  let significant := (all.reverse.dropWhile (· == '0')).reverse
  let exponent : Int := all.length - 1 + decimal.exponent
  if layout.leastPositional ≤ exponent && exponent < layout.firstScientific then
    positional significant (exponent + 1)
  else
    scientific significant exponent

def magnitudeText (units : Nat) : List Char :=
  if units == 0 then ['0', '.', '0'] else (shortestDecimal units).text

/-- The text of a double, with a sign only when it is negative. -/
def text (x : Binary64) : String :=
  let magnitude := match x with
    | .finite _ units _ => magnitudeText units
    | .infinite _ => ['i', 'n', 'f']
  String.ofList (if x.isNegative then '-' :: magnitude else magnitude)

end Binary64
end HoareProof
