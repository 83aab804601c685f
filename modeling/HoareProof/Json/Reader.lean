import HoareProof.Json.Basic
import HoareProof.Number.Numeral
import HoareProof.Token.Basic

namespace HoareProof
namespace Json

/-!
Reading JSON documents.  A fault carries the characters from its place on, so
that the readers below need not count; the index, the line and the column
follow from how many characters are left.  Values nest at most as deep as the
document is long, and every loop over items or fields consumes a character in
each round.
-/

inductive Fault where
  | value
  | fieldName
  | colon
  | comma
  | unterminated
  | controlCharacter
  | escape
  | unitEscape
  | extraData
  | byteOrderMark
deriving DecidableEq, Repr

def Fault.message : Fault -> String
  | .value => "Expecting value"
  | .fieldName => "Expecting property name enclosed in double quotes"
  | .colon => "Expecting ':' delimiter"
  | .comma => "Expecting ',' delimiter"
  | .unterminated => "Unterminated string starting at"
  | .controlCharacter => "Invalid control character at"
  | .escape => "Invalid \\escape"
  | .unitEscape => "Invalid \\uXXXX escape"
  | .extraData => "Extra data"
  | .byteOrderMark => "Unexpected UTF-8 BOM (decode using utf-8-sig)"

/-- Why a reader gives no value: a fault with the characters from its place on,
or a whole number that is too long. -/
inductive Failure where
  | fault (kind : Fault) (rest : List Char)
  | numeral (error : NumeralError)

abbrev Reader (α : Type) := List Char -> Except Failure (α × List Char)

/-- The characters that may stand between any two parts of a document. -/
def isSpace (c : Char) : Bool :=
  c = ' ' || c = '\t' || c = '\n' || c = '\r'

def skipSpace (chars : List Char) : List Char :=
  chars.dropWhile isSpace

def hexValue? (c : Char) : Option Nat :=
  if '0' ≤ c && c ≤ '9' then some (c.toNat - 48)
  else if 'a' ≤ c && c ≤ 'f' then some (c.toNat - 87)
  else if 'A' ≤ c && c ≤ 'F' then some (c.toNat - 55)
  else none

def hexNumber? (digits : List Char) : Option Nat :=
  digits.foldlM (fun value c => (hexValue? c).map (16 * value + ·)) 0

/-- The code unit of an escape and the number of characters after the backslash
that it takes.  `text` starts at the opening quotation mark of the string and
`escape` at the backslash. -/
def escapedUnit (text escape : List Char) : Except Failure (Nat × Nat) :=
  match escape.drop 1 with
  | [] => .error (.fault .unterminated text)
  | 'u' :: digits =>
    match hexNumber? (digits.take 4), digits.drop 4 with
    | some unit, _ :: _ => .ok (unit, 5)
    | _, _ => .error (.fault .unitEscape ('u' :: digits))
  | '\x22' :: _ => .ok (0x22, 1)
  | '\\' :: _ => .ok (0x5C, 1)
  | '/' :: _ => .ok (0x2F, 1)
  | 'b' :: _ => .ok (8, 1)
  | 'f' :: _ => .ok (12, 1)
  | 'n' :: _ => .ok (10, 1)
  | 'r' :: _ => .ok (13, 1)
  | 't' :: _ => .ok (9, 1)
  | _ => .error (.fault .escape escape)

/-- The code units of a string after its opening quotation mark, and the
characters after its closing one.  The first `pending` characters belong to an
escape that has been read already. -/
def stringUnits (text : List Char) (pending : Nat) :
    List Char -> Except Failure (List Nat × List Char)
  | [] => .error (.fault .unterminated text)
  | c :: rest =>
    match pending with
    | pending + 1 => stringUnits text pending rest
    | 0 =>
      if c = '\x22' then .ok ([], rest)
      else if c = '\\' then do
        let (unit, length) ← escapedUnit text (c :: rest)
        let (units, rest') ← stringUnits text length rest
        return (unit :: units, rest')
      else if c.toNat < 32 then .error (.fault .controlCharacter (c :: rest))
      else do
        let (units, rest') ← stringUnits text 0 rest
        return (c.toNat :: units, rest')

/-- The character of a code point; half of a surrogate pair has none. -/
def unitChar (unit : Nat) : Char :=
  if unit.isValidChar then Char.ofNat unit else '\uFFFD'

def joinUnits : List Nat -> List Char
  | [] => []
  | [unit] => [unitChar unit]
  | high :: low :: rest =>
    if 0xD800 ≤ high && high < 0xDC00 && 0xDC00 ≤ low && low < 0xE000 then
      Char.ofNat (0x10000 + (high - 0xD800) * 0x400 + (low - 0xDC00)) :: joinUnits rest
    else unitChar high :: joinUnits (low :: rest)

/-- A string whose opening quotation mark is the first character. -/
def readString : Reader String := fun text => do
  let (units, rest) ← stringUnits text 0 (text.drop 1)
  return (String.ofList (joinUnits units), rest)

def isDigit (c : Char) : Bool :=
  '0' ≤ c && c ≤ '9'

/-- The whole part of a number: one zero, or digits that start with none. -/
def wholePart : List Char -> List Char
  | '0' :: _ => ['0']
  | chars => chars.takeWhile isDigit

def fractionPart : List Char -> List Char
  | '.' :: rest =>
    let digits := rest.takeWhile isDigit
    if digits.isEmpty then [] else '.' :: digits
  | _ => []

def exponentPart : List Char -> List Char
  | [] => []
  | mark :: rest =>
    if mark = 'e' || mark = 'E' then
      let sign := match rest with
        | '+' :: _ => ['+']
        | '-' :: _ => ['-']
        | _ => []
      let digits := (rest.drop sign.length).takeWhile isDigit
      if digits.isEmpty then [] else mark :: sign ++ digits
    else []

def readNumber : Reader Json := fun text =>
  let negative := text.head? = some '-'
  let unsigned := if negative then text.drop 1 else text
  let whole := wholePart unsigned
  if whole.isEmpty then .error (.fault .value text)
  else
    let afterWhole := unsigned.drop whole.length
    let fraction := fractionPart afterWhole
    let afterFraction := afterWhole.drop fraction.length
    let exponent := exponentPart afterFraction
    let rest := afterFraction.drop exponent.length
    if fraction.isEmpty && exponent.isEmpty then
      match Numeral.readWhole (String.ofList whole) with
      | .ok value => .ok (.whole (if negative then -(value : Int) else value), rest)
      | .error e => .error (.numeral e)
    else
      match Numeral.decimal? (whole ++ fraction ++ exponent) with
      | some (digits, power) => .ok (.double (Binary64.ofDecimal negative digits power), rest)
      | none => .error (.fault .value text)

def words : List (List Char × Json) := [
  ("null".toList, .null), ("true".toList, .bool true), ("false".toList, .bool false),
  ("NaN".toList, .notANumber), ("Infinity".toList, .double (.infinite false)),
  ("-Infinity".toList, .double (.infinite true))]

def readScalar : Reader Json := fun text =>
  match words.find? fun word => word.1.isPrefixOf text with
  | some (word, value) => .ok (value, text.drop word.length)
  | none => readNumber text

/-- The items of an array after its first bracket, up to the closing one.  The
bound counts the characters that are left. -/
def readItems (value : Reader Json) : Nat -> Reader (List Json)
  | 0, text => .error (.fault .value text)
  | bound + 1, text => do
    let (item, afterItem) ← value text
    match skipSpace afterItem with
    | ']' :: rest => return ([item], rest)
    | ',' :: rest => do
      let (items, rest') ← readItems value bound (skipSpace rest)
      return (item :: items, rest')
    | rest => .error (.fault .comma rest)

/-- The fields of an object after its first bracket, up to the closing one, in
front of which `known` fields stand. -/
def readFields (value : Reader Json) :
    Nat -> List (String × Json) -> Reader (List (String × Json))
  | 0, _, text => .error (.fault .fieldName text)
  | bound + 1, known, text =>
    match text with
    | '\x22' :: _ => do
      let (name, afterName) ← readString text
      match skipSpace afterName with
      | ':' :: afterColon => do
        let (item, afterItem) ← value (skipSpace afterColon)
        let known := setField name item known
        match skipSpace afterItem with
        | '\x7d' :: rest => return (known, rest)
        | ',' :: rest => readFields value bound known (skipSpace rest)
        | rest => .error (.fault .comma rest)
      | rest => .error (.fault .colon rest)
    | _ => .error (.fault .fieldName text)

/-- A value, in which brackets nest at most as deep as the bound. -/
def readValue : Nat -> Reader Json
  | 0, text => .error (.fault .value text)
  | bound + 1, text =>
    match text with
    | [] => .error (.fault .value [])
    | '\x22' :: _ => do
      let (value, rest) ← readString text
      return (.string value, rest)
    | '[' :: inner =>
      match skipSpace inner with
      | ']' :: rest => .ok (.array [], rest)
      | items => do
        let (values, rest) ← readItems (readValue bound) (items.length + 1) items
        return (.array values, rest)
    | '\x7b' :: inner =>
      match skipSpace inner with
      | '\x7d' :: rest => .ok (.object [], rest)
      | fields => do
        let (values, rest) ← readFields (readValue bound) (fields.length + 1) [] fields
        return (.object values, rest)
    | _ => readScalar text

inductive TextError where
  | malformed (kind : Fault) (position : Position) (index : Nat)
  | numeral (error : NumeralError)

def malformedMessage (fault : Fault) (position : Position) (index : Nat) : String :=
  fault.message ++ ": line " ++ toString position.line ++ " column " ++
    toString position.column ++ " (char " ++ toString index ++ ")"

/-- Finds the place of a fault from the characters that are left there. -/
def Failure.locate (text : List Char) : Failure -> TextError
  | .numeral error => .numeral error
  | .fault kind rest =>
    let index := text.length - rest.length
    .malformed kind ((text.take index).foldl Position.advance .start) index

def ofText (text : String) : Except TextError Json :=
  let chars := text.toList
  let result : Except Failure Json :=
    match chars with
    | '\uFEFF' :: _ => .error (.fault .byteOrderMark chars)
    | _ =>
      match readValue (chars.length + 1) (skipSpace chars) with
      | .error failure => .error failure
      | .ok (value, rest) =>
        match skipSpace rest with
        | [] => .ok value
        | extra => .error (.fault .extraData extra)
  match result with
  | .ok value => .ok value
  | .error failure => .error (failure.locate chars)

end Json
end HoareProof
