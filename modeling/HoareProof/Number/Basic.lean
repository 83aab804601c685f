import HoareProof.Number.Numeral
import HoareProof.Number.Shortest

namespace HoareProof

/-!
The constants of assertions: whole numbers of any size, doubles, and what a
double can hold that is not a number.  Two numbers are equal when they denote
the same, whichever kind they are of, and the comparison is exact.  What is not
a number equals nothing, not even itself; still it is one thing, and a label
tells it from another one that is written the same.
-/

inductive Number where
  | whole (value : Int)
  | double (value : Binary64)
  | notANumber (negative : Bool) (label : Nat)
deriving DecidableEq

namespace Number

def isNumber : Number -> Bool
  | .notANumber _ _ => false
  | _ => true

/-- Equality of the numbers denoted. -/
def sameNumber : Number -> Number -> Bool
  | .whole m, .whole n => m == n
  | .double x, .double y => x.sameValue y
  | .whole n, .double x => x.denotes n
  | .double x, .whole n => x.denotes n
  | .notANumber _ _, _ => false
  | _, .notANumber _ _ => false

/-- Equality as values: the same number, or one and the same constant. -/
def sameValue (a b : Number) : Bool :=
  a == b || a.sameNumber b

/-- The number of the other sign; only a double has a negative zero. -/
def neg : Number -> Number
  | .whole n => .whole (-n)
  | .double x => .double x.neg
  | .notANumber negative label => .notANumber (!negative) label

def isNegative : Number -> Bool
  | .whole n => decide (n < 0)
  | .double x => x.isNegative
  | .notANumber negative _ => negative

/-- The decimal text of a whole number, however long. -/
def wholeText (n : Int) : String :=
  let digits := Nat.toDigits 10 n.natAbs
  String.ofList (if n < 0 then '-' :: digits else digits)

/-- The text of a constant.  The sign of what is not a number is not written. -/
def text : Number -> String
  | .whole n => wholeText n
  | .double x => x.text
  | .notANumber _ _ => "nan"

/-- A constant that is no whole number of more digits than a numeral may have. -/
def isShort : Number -> Bool
  | .whole n => Binary64.decimalLength n.natAbs ≤ Numeral.lengthLimit
  | _ => true

/-- The least magnitude of a whole number that no finite double is nearest
to. -/
def doubleLimit : Nat := Nat.pow 2 1024 - Nat.pow 2 970

/-- Whether a whole number lies beyond the range of doubles. -/
def exceedsDoubles : Number -> Bool
  | .whole n => doubleLimit ≤ n.natAbs
  | _ => false

end Number
end HoareProof
