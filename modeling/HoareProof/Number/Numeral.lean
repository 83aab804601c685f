import HoareProof.Text.Blank
import HoareProof.Text.Digit
import HoareProof.Text.Quoted
import HoareProof.Number.Binary64

namespace HoareProof

/-!
Numbers from their text.  Digits of every script are read by their decimal
value; a digit-like character has none and makes the numeral unreadable.  Whole
numbers have a limit on their length, leading zeros included, so that reading
stays fast; the limit is checked on the digits before the first character that
is none, so a numeral with both faults is reported as too long.
-/

/-- Why the text of a number has no value. -/
inductive NumeralError where
  | notWhole (text : String)
  | notDecimal (text : String)
  | tooLong (digits : Nat)
deriving DecidableEq, Repr

namespace NumeralError

/-- The wording of a numeral error.  A long unreadable whole number is cut. -/
def message : NumeralError -> String
  | .notWhole text =>
    "invalid literal for int() with base 10: " ++
      String.ofList ((Text.quoted text).toList.take 200)
  | .notDecimal text => "could not convert string to float: " ++ Text.quoted text
  | .tooLong digits =>
    "Exceeds the limit (4300 digits) for integer string conversion: value has " ++
      toString digits ++ " digits; use sys.set_int_max_str_digits() to increase the limit"

end NumeralError

namespace Numeral

/-- The greatest number of digits a whole number may be written with. -/
def lengthLimit : Nat := 4300

def isDecimal (c : Char) : Bool :=
  (Text.decimalValue? c).isSome

/-- The number that decimal digits denote, the most significant one first. -/
def ofDigits (digits : List Char) : Nat :=
  digits.foldl (fun value c => 10 * value + (Text.decimalValue? c).getD 0) 0

def readWhole (text : String) : Except NumeralError Nat :=
  let chars := text.toList
  let digits := chars.takeWhile isDecimal
  if lengthLimit < digits.length then .error (.tooLong digits.length)
  else if digits.isEmpty || digits.length < chars.length then .error (.notWhole text)
  else .ok (ofDigits digits)

/-- An exponent: an optional sign and at least one digit. -/
def exponent? : List Char -> Option Int
  | '-' :: digits => magnitude? digits |>.map fun n => -(n : Int)
  | '+' :: digits => magnitude? digits |>.map fun n => (n : Int)
  | digits => magnitude? digits |>.map fun n => (n : Int)
where
  magnitude? (digits : List Char) : Option Nat :=
    if digits.isEmpty || !digits.all isDecimal then none else some (ofDigits digits)

/-- The digits and the exponent of an unsigned decimal number: digits with an
optional point among them, then an optional exponent. -/
def decimal? (chars : List Char) : Option (Nat × Int) :=
  let whole := chars.takeWhile isDecimal
  let afterWhole := chars.dropWhile isDecimal
  let (fraction, afterFraction) := match afterWhole with
    | '.' :: rest => (rest.takeWhile isDecimal, rest.dropWhile isDecimal)
    | rest => ([], rest)
  let digits := whole ++ fraction
  if digits.isEmpty then none
  else
    let shifted (exponent : Int) := (ofDigits digits, exponent - fraction.length)
    match afterFraction with
    | [] => some (shifted 0)
    | 'e' :: rest => (exponent? rest).map shifted
    | 'E' :: rest => (exponent? rest).map shifted
    | _ => none

/-- The double nearest to an unsigned decimal number. -/
def readDecimal (text : String) : Except NumeralError Binary64 :=
  match decimal? text.toList with
  | some (digits, exponent) => .ok (Binary64.ofDecimal false digits exponent)
  | none => .error (.notDecimal text)

/-- Digits between which single underscores may stand. -/
def groupedDigits? : List Char -> Option (List Char)
  | [] => none
  | [c] => if isDecimal c then some [c] else none
  | c :: '_' :: rest => if isDecimal c then (groupedDigits? rest).map (c :: ·) else none
  | c :: rest => if isDecimal c then (groupedDigits? rest).map (c :: ·) else none

/-- The value of a signed whole number as people write it in a field: padded
with blanks, with underscores between groups of digits. -/
def integer? (text : String) : Option Int :=
  let unsigned? (digits : List Char) : Option Nat := do
    let digits ← groupedDigits? digits
    if lengthLimit < digits.length then none else some (ofDigits digits)
  match Text.trimWhile Text.isPadding text.toList with
  | '-' :: digits => (unsigned? digits).map fun n => -(n : Int)
  | '+' :: digits => (unsigned? digits).map fun n => (n : Int)
  | digits => (unsigned? digits).map fun n => (n : Int)

end Numeral
end HoareProof
