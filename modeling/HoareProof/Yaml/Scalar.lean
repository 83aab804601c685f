import HoareProof.Number.Arithmetic
import HoareProof.Text.Base64
import HoareProof.Text.Lowercase
import HoareProof.Yaml.Fault
import HoareProof.Yaml.Tag

namespace HoareProof
namespace Yaml

/-!
Values of scalars.  The kind of a scalar says how its text is read.  A text that
is of its kind by its looks can be read with few exceptions; a tag can demand a
kind of any text, so every text has a value or a fault for every kind.
-/

def withoutUnderscores (text : String) : List Char :=
  text.toList.filter (· != '_')

def splitSign : List Char -> Bool × List Char
  | '-' :: rest => (true, rest)
  | '+' :: rest => (false, rest)
  | chars => (false, chars)

/-- The value of a digit of any script or of a hexadecimal letter. -/
def digitValue? (c : Char) : Option Nat :=
  (Text.decimalValue? c).orElse fun _ => Json.hexValue? c

/-- A text without the letter that announces a base after a zero. -/
def withoutBaseMark (base : Nat) : List Char -> List Char
  | '0' :: mark :: rest =>
    let announced := match mark with
      | 'b' | 'B' => 2
      | 'o' | 'O' => 8
      | 'x' | 'X' => 16
      | _ => 0
    if announced = base then rest else '0' :: mark :: rest
  | chars => chars

/-- The whole number that a text denotes in a base.  Blanks may stand around
it. -/
def inBase (base : Nat) (chars : List Char) : Except Fault Int :=
  let (negative, unsigned) := splitSign (Text.trimWhile Text.isPadding chars)
  let digits := withoutBaseMark base unsigned
  let values := digits.filterMap fun c => (digitValue? c).filter (· < base)
  if base = 10 && Numeral.lengthLimit < (digits.takeWhile Numeral.isDecimal).length then
    .error (.numeral (.tooLong (digits.takeWhile Numeral.isDecimal).length))
  else if digits.isEmpty || values.length < digits.length then
    .error (.digits base (String.ofList chars))
  else
    let magnitude : Nat := values.foldl (fun value digit => base * value + digit) 0
    .ok (if negative then -(magnitude : Int) else magnitude)

def sexagesimalWhole (places : List (List Char)) : Except Fault Int := do
  let values ← places.mapM (inBase 10)
  return values.foldl (fun value place => 60 * value + place) 0

/-- The whole number that a text without sign denotes: in base two or sixteen
after a mark, in base eight after a zero, in base ten otherwise, and in base
sixty where colons are. -/
def wholeMagnitude (chars : List Char) : Except Fault Int :=
  match chars with
  | [] => .error .emptyNumber
  | ['0'] => .ok 0
  | '0' :: 'b' :: digits => inBase 2 digits
  | '0' :: 'x' :: digits => inBase 16 digits
  | '0' :: rest => inBase 8 ('0' :: rest)
  | _ => if chars.contains ':' then sexagesimalWhole (Text.splitAt ':' chars) else inBase 10 chars

def wholeValue (text : String) : Except Fault Int :=
  let (negative, unsigned) := splitSign (withoutUnderscores text)
  (wholeMagnitude unsigned).map fun n => if negative then -n else n

def negated : Data -> Data
  | .double x => .double x.neg
  | value => value

/-- The double that a text in lower case denotes.  Blanks may stand around
it. -/
def decimalValue (chars : List Char) : Except Fault Data :=
  let (negative, unsigned) := splitSign (Text.trimWhile Text.isPadding chars)
  let word := String.ofList unsigned
  if word = "inf" || word = "infinity" then .ok (.double (.infinite negative))
  else if word = "nan" then .ok (.notANumber false)
  else
    match Numeral.decimal? unsigned with
    | some (digits, exponent) => .ok (.double (Binary64.ofDecimal negative digits exponent))
    | none => .error (.numeral (.notDecimal (String.ofList chars)))

/-- The weight of a sexagesimal place: the double nearest to a power of sixty,
which there is only below the greatest double. -/
def placeWeight (power : Nat) : Except Fault Binary64 :=
  match Binary64.ofWhole (Nat.pow 60 power) with
  | .finite negative units exact => .ok (.finite negative units exact)
  | .infinite _ => .error .placeTooLarge

/-- A value, or the value that is not a number if there is none. -/
def doubleOr : Option Binary64 -> Data
  | some value => .double value
  | none => .notANumber false

/-- Adds a sexagesimal place to the value of the places after it, rounding the
weight, the product and the sum. -/
def addPlace (power : Nat) (total place : Data) : Except Fault Data :=
  (placeWeight power).map fun weight =>
    match total, place with
    | .double total, .double place => doubleOr ((place.times? weight).bind total.plus?)
    | _, _ => .notANumber false

/-- The value of a sexagesimal double, from its places with the last one
first. -/
def sexagesimalDouble (power : Nat) (total : Data) : List Data -> Except Fault Data
  | [] => .ok total
  | place :: places => do
    let total ← addPlace power total place
    sexagesimalDouble (power + 1) total places

def doubleValue (text : String) : Except Fault Data :=
  let chars := Text.toLowercase (withoutUnderscores text)
  let (negative, unsigned) := splitSign chars
  let word := String.ofList unsigned
  let magnitude : Except Fault Data :=
    if chars.isEmpty then .error .emptyNumber
    else if word = ".inf" then .ok (.double (.infinite false))
    else if word = ".nan" then .ok (.notANumber true)
    else if unsigned.contains ':' then do
      let places ← (Text.splitAt ':' unsigned).mapM decimalValue
      sexagesimalDouble 0 (.double (.zero false)) places.reverse
    else decimalValue unsigned
  magnitude.map fun value => if negative then negated value else value

def truthValue (text : String) : Except Fault Bool :=
  let word := String.ofList (Text.toLowercase text.toList)
  if ["yes", "true", "on"].contains word then .ok true
  else if ["no", "false", "off"].contains word then .ok false
  else .error (.truth word)

/-- The first six digits of a fraction, as millionths. -/
def microseconds (fraction : List Char) : Nat :=
  let digits := fraction.take 6
  Numeral.ofDigits (digits ++ List.replicate (6 - digits.length) '0')

def ZoneText.minutes : ZoneText -> Int
  | .universal => 0
  | .offset negative hours minutes =>
    let distance : Int := 60 * Numeral.ofDigits hours + Numeral.ofDigits minutes
    if negative then -distance else distance

def DateText.value (text : DateText) : Except DateFault Data :=
  let date : Date :=
    ⟨Numeral.ofDigits text.year, Numeral.ofDigits text.month, Numeral.ofDigits text.day⟩
  match text.time with
  | none =>
    match date.fault? with
    | some fault => .error fault
    | none => .ok (.date date)
  | some time =>
    let moment : Moment := ⟨date, Numeral.ofDigits time.hour, Numeral.ofDigits time.minute,
      Numeral.ofDigits time.second, microseconds time.fraction, time.zone.map ZoneText.minutes⟩
    match moment.fault? with
    | some fault => .error fault
    | none => .ok (.moment moment)

/-- The value of a date.  A line break may stand at its end. -/
def dateValue (text : String) : Except Fault Data :=
  let chars := match text.toList.reverse with
    | '\n' :: rest => rest.reverse
    | _ => text.toList
  match DateText.ofChars? chars with
  | none => .error .noDate
  | some date =>
    match date.value with
    | .ok value => .ok value
    | .error fault => .error (.date fault)

/-- The bytes that a text of ASCII characters stands for. -/
def bytesValue (text : String) : Except Fault Data :=
  if text.toList.all fun c => c.toNat < 0x80 then
    match Text.base64Bytes? text.toList with
    | some bytes => .ok (.bytes bytes)
    | none => .error .malformed
  else .error .malformed

def scalarValue (tag : Tag) (text : String) : Except Fault Data :=
  match tag with
  | .null => .ok .null
  | .truth => (truthValue text).map .bool
  | .whole => (wholeValue text).map .whole
  | .double => doubleValue text
  | .date => dateValue text
  | .text => .ok (.text text)
  | .bytes => bytesValue text
  | _ => .error .malformed

end Yaml
end HoareProof
