import HoareProof.Data.Basic
import HoareProof.Json.Reader

namespace HoareProof
namespace Yaml

/-!
Kinds of nodes.  A tag names one; without a tag a list is a list and a map is a
map, a quoted scalar is a text, and a plain scalar is what it looks like.
-/

inductive Tag where
  | null
  | truth
  | whole
  | double
  | date
  | text
  | bytes
  | list
  | map
  | set
  | pairs
  | merge
  | standard
  | unknown
deriving DecidableEq, Repr

namespace Tag

def names : List (String × Tag) := [
  ("null", .null), ("bool", .truth), ("int", .whole), ("float", .double), ("timestamp", .date),
  ("str", .text), ("binary", .bytes), ("seq", .list), ("map", .map), ("set", .set),
  ("omap", .pairs), ("pairs", .pairs), ("merge", .merge), ("value", .standard)]

/-- What stands in front of the names of kinds in full tags. -/
def space : String := "tag:yaml.org,2002:"

def ofName (name : String) : Tag :=
  ((names.find? fun entry => space ++ entry.1 == name).map (·.2)).getD .unknown

def nullWords : List String := ["", "~", "null", "Null", "NULL"]

def truthWords : List String := [
  "yes", "Yes", "YES", "true", "True", "TRUE", "on", "On", "ON",
  "no", "No", "NO", "false", "False", "FALSE", "off", "Off", "OFF"]

/-- The words for infinity, after a sign. -/
def infinityWords : List String := [".inf", ".Inf", ".INF"]

def notANumberWords : List String := [".nan", ".NaN", ".NAN"]

def isDigitOrUnderscore (c : Char) : Bool :=
  Json.isDigit c || c = '_'

def startsWithDigit : List Char -> Bool
  | first :: _ => Json.isDigit first
  | [] => false

def withoutSign : List Char -> List Char
  | '-' :: rest => rest
  | '+' :: rest => rest
  | chars => chars

/-- One or two digits of a sexagesimal place, of a value below sixty. -/
def isSexagesimalPlace : List Char -> Bool
  | [c] => Json.isDigit c
  | [c, d] => '0' ≤ c && c ≤ '5' && Json.isDigit d
  | _ => false

def looksWhole : List Char -> Bool
  | ['0'] => true
  | '0' :: 'b' :: digits => !digits.isEmpty && digits.all fun c => c = '0' || c = '1' || c = '_'
  | '0' :: 'x' :: digits =>
    !digits.isEmpty && digits.all fun c => (Json.hexValue? c).isSome || c = '_'
  | '0' :: digits => digits.all fun c => ('0' ≤ c && c ≤ '7') || c = '_'
  | chars =>
    match Text.splitAt ':' chars with
    | digits :: places =>
      startsWithDigit digits && digits.all isDigitOrUnderscore && places.all isSexagesimalPlace
    | [] => false

/-- The exponent of a double: a mark, a sign and digits. -/
def isExponent : List Char -> Bool
  | mark :: sign :: digits =>
    (mark = 'e' || mark = 'E') && (sign = '+' || sign = '-') && !digits.isEmpty &&
      digits.all Json.isDigit
  | _ => false

/-- Whether a text without sign looks like a double.  One that starts with its
point has no sign. -/
def looksDouble (signed : Bool) (chars : List Char) : Bool :=
  let whole := chars.takeWhile (· != '.')
  match chars.dropWhile (· != '.') with
  | '.' :: rest =>
    let fraction := rest.takeWhile isDigitOrUnderscore
    let exponent := rest.dropWhile isDigitOrUnderscore
    match Text.splitAt ':' whole with
    | [] => false
    | [digits] =>
      digits.all isDigitOrUnderscore &&
        (startsWithDigit digits || (digits.isEmpty && !signed && startsWithDigit fraction)) &&
        (exponent.isEmpty || isExponent exponent)
    | digits :: places =>
      startsWithDigit digits && digits.all isDigitOrUnderscore && places.all isSexagesimalPlace &&
        exponent.isEmpty
  | _ => false

end Tag

/-- A zone as it is written: universal time, or a sign with hours and
minutes. -/
inductive ZoneText where
  | universal
  | offset (negative : Bool) (hours minutes : List Char)

/-- A time of day as it is written. -/
structure TimeText where
  hour : List Char
  minute : List Char
  second : List Char
  fraction : List Char
  zone : Option ZoneText

/-- A date as it is written, perhaps with a time of day. -/
structure DateText where
  year : List Char
  month : List Char
  day : List Char
  time : Option TimeText

namespace DateText

/-- Digits at the head of a text, of which there are at least and at most so
many, with what follows them. -/
def digits? (least most : Nat) (chars : List Char) : Option (List Char × List Char) :=
  let digits := chars.takeWhile Json.isDigit
  if least ≤ digits.length && digits.length ≤ most then some (digits, chars.drop digits.length)
  else none

/-- What follows a mark at the head of a text. -/
def after? (mark : Char) : List Char -> Option (List Char)
  | c :: rest => if c = mark then some rest else none
  | [] => none

/-- A zone to the end of a text, perhaps after blanks. -/
def zone? (chars : List Char) : Option (Option ZoneText) :=
  if chars.isEmpty then some none
  else
    match chars.dropWhile fun c => c = ' ' || c = '\t' with
    | ['Z'] => some (some .universal)
    | sign :: rest =>
      if sign = '+' || sign = '-' then do
        let (hours, afterHours) ← digits? 1 2 rest
        match afterHours with
        | [] => some (some (.offset (sign = '-') hours []))
        | _ => do
          let (minutes, last) ← (after? ':' afterHours).bind (digits? 2 2)
          if last.isEmpty then some (some (.offset (sign = '-') hours minutes)) else none
      else none
    | [] => none

def time? (chars : List Char) : Option TimeText := do
  let (hour, afterHour) ← digits? 1 2 chars
  let (minute, afterMinute) ← (after? ':' afterHour).bind (digits? 2 2)
  let (second, afterSecond) ← (after? ':' afterMinute).bind (digits? 2 2)
  let (fraction, rest) := match afterSecond with
    | '.' :: rest => (rest.takeWhile Json.isDigit, rest.dropWhile Json.isDigit)
    | rest => ([], rest)
  let zone ← zone? rest
  return ⟨hour, minute, second, fraction, zone⟩

def ofChars? (chars : List Char) : Option DateText := do
  let (year, afterYear) ← digits? 4 4 chars
  let (month, afterMonth) ← (after? '-' afterYear).bind (digits? 1 2)
  let (day, afterDay) ← (after? '-' afterMonth).bind (digits? 1 2)
  match afterDay with
  | [] => some ⟨year, month, day, none⟩
  | 'T' :: rest => (time? rest).map fun time => ⟨year, month, day, some time⟩
  | 't' :: rest => (time? rest).map fun time => ⟨year, month, day, some time⟩
  | c :: rest =>
    if c = ' ' || c = '\t' then
      (time? (rest.dropWhile fun c => c = ' ' || c = '\t')).map fun time =>
        ⟨year, month, day, some time⟩
    else none

/-- A date without a time of day is taken for one only if its month and its day
have two digits. -/
def isEvident (date : DateText) : Bool :=
  date.time.isSome || (date.month.length = 2 && date.day.length = 2)

end DateText

def Tag.ofPlain (text : String) : Tag :=
  let chars := text.toList
  let unsigned := withoutSign chars
  if nullWords.contains text then .null
  else if truthWords.contains text then .truth
  else if text = "<<" then .merge
  else if text = "=" then .standard
  else if infinityWords.contains (String.ofList unsigned) || notANumberWords.contains text ||
      looksDouble (unsigned.length < chars.length) unsigned then .double
  else if looksWhole unsigned then .whole
  else if ((DateText.ofChars? chars).map DateText.isEvident).getD false then .date
  else .text

end Yaml
end HoareProof
