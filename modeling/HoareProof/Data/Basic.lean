import HoareProof.Data.Moment
import HoareProof.Json.Basic
import HoareProof.Number.Basic
import HoareProof.Number.Numeral
import HoareProof.Text.Quoted
import HoareProof.Text.Split

namespace HoareProof

/-!
Values of documents.  Both kinds of settings files denote such values; besides
what JSON has, there are dates and moments, bytes, pairs and sets, a map may have
keys of any kind, and a list or a map may hold itself.  A value has a display:
texts as they are, everything else in a bracketed form in which texts are
quoted.
-/

/-- A value of a document.  What is not a number may be shared: all that are
written by their name are one value, and one that is read as a number is like no
other.  The last two stand for a list or map around them. -/
inductive Data where
  | null
  | bool (value : Bool)
  | whole (value : Int)
  | double (value : Binary64)
  | notANumber (shared : Bool)
  | text (value : String)
  | bytes (values : List Nat)
  | date (value : Date)
  | moment (value : Moment)
  | list (items : List Data)
  | map (entries : List (Data × Data))
  | set (members : List Data)
  | pair (first second : Data)
  | outerList
  | outerMap

namespace Data

mutual

def ofJson : Json -> Data
  | .null => .null
  | .bool value => .bool value
  | .whole value => .whole value
  | .double value => .double value
  | .notANumber => .notANumber false
  | .string value => .text value
  | .array items => .list (ofItems items)
  | .object fields => .map (ofFields fields)

def ofItems : List Json -> List Data
  | [] => []
  | item :: rest => ofJson item :: ofItems rest

def ofFields : List (String × Json) -> List (Data × Data)
  | [] => []
  | (name, value) :: rest => (.text name, ofJson value) :: ofFields rest

end

mutual

/-- A value as it appears inside another one. -/
def quoted : Data -> String
  | .null => "None"
  | .bool value => if value then "True" else "False"
  | .whole value => Number.wholeText value
  | .double value => value.text
  | .notANumber _ => "nan"
  | .text value => Text.quoted value
  | .bytes values => Text.quotedBytes values
  | .date value => value.quoted
  | .moment value => value.quoted
  | .list items => "[" ++ Text.joinWith ", " (quotedItems items) ++ "]"
  | .map entries => "\x7b" ++ Text.joinWith ", " (quotedEntries entries) ++ "\x7d"
  | .set members =>
    if members.isEmpty then "set()"
    else "\x7b" ++ Text.joinWith ", " (quotedItems members) ++ "\x7d"
  | .pair first second => "(" ++ quoted first ++ ", " ++ quoted second ++ ")"
  | .outerList => "[...]"
  | .outerMap => "\x7b...\x7d"

def quotedItems : List Data -> List String
  | [] => []
  | item :: rest => quoted item :: quotedItems rest

def quotedEntries : List (Data × Data) -> List String
  | [] => []
  | (key, value) :: rest => (quoted key ++ ": " ++ quoted value) :: quotedEntries rest

end

/-- A value as a text of its own. -/
def display : Data -> String
  | .text value => value
  | .date value => value.display
  | .moment value => value.display
  | value => quoted value

/-- Whether a whole number has more digits than can be written. -/
def isTooLong (n : Int) : Bool :=
  Nat.pow 10 Numeral.lengthLimit ≤ n.natAbs

mutual

/-- Whether a value can be displayed: no whole number in it is too long. -/
def isDisplayable : Data -> Bool
  | .whole value => !isTooLong value
  | .list items => areDisplayable items
  | .map entries => entriesDisplayable entries
  | .set members => areDisplayable members
  | .pair first second => isDisplayable first && isDisplayable second
  | _ => true

def areDisplayable : List Data -> Bool
  | [] => true
  | item :: rest => isDisplayable item && areDisplayable rest

def entriesDisplayable : List (Data × Data) -> Bool
  | [] => true
  | (key, value) :: rest =>
    isDisplayable key && isDisplayable value && entriesDisplayable rest

end

def undisplayableMessage : String :=
  "Exceeds the limit (4300 digits) for integer string conversion; " ++
    "use sys.set_int_max_str_digits() to increase the limit"

/-- The number that a value counts as when values are compared. -/
def number? : Data -> Option Number
  | .bool value => some (.whole (if value then 1 else 0))
  | .whole value => some (.whole value)
  | .double value => some (.double value)
  | _ => none

/-- Whether two values are the same key of a map.  Numbers are compared by
value, and truth values count as numbers. -/
def sameKey (a b : Data) : Bool :=
  match a.number?, b.number? with
  | some m, some n => m.sameValue n
  | none, none =>
    match a, b with
    | .null, .null => true
    | .notANumber s, .notANumber t => s && t
    | .text s, .text t => s == t
    | .bytes s, .bytes t => s == t
    | .date d, .date e => d == e
    | .moment d, .moment e => d.sameInstant e
    | _, _ => false
  | _, _ => false

/-- Whether a value counts as yes: everything but no value, zero, and what is
empty. -/
def isTruthy : Data -> Bool
  | .null => false
  | .bool value => value
  | .whole value => value != 0
  | .double value => !value.isZero
  | .notANumber _ => true
  | .text value => !value.isEmpty
  | .bytes values => !values.isEmpty
  | .date _ => true
  | .moment _ => true
  | .list items => !items.isEmpty
  | .map entries => !entries.isEmpty
  | .set members => !members.isEmpty
  | .pair _ _ => true
  | .outerList => true
  | .outerMap => true

end Data
end HoareProof
