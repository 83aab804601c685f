import HoareProof.Json.Basic
import HoareProof.Number.Basic
import HoareProof.Text.Quoted

namespace HoareProof
namespace Json

/-!
JSON documents as text.  A document is written on one line, or with every item
and field on a line of its own, indented by its depth.  Characters outside
ASCII are kept or written by their UTF-16 code units.
-/

/-- How a document is written: the text that indents each level, with none for
a document on one line, and whether the text is confined to ASCII. -/
structure Style where
  indent : Option String
  asciiOnly : Bool

def unitEscape (unit : Nat) : List Char :=
  '\\' :: 'u' :: Text.hexDigits 4 unit

def charEscape (c : Char) : List Char :=
  let n := c.toNat
  if n < 0x10000 then unitEscape n
  else
    unitEscape (0xD800 + (n - 0x10000) / 0x400) ++ unitEscape (0xDC00 + (n - 0x10000) % 0x400)

def stringChar (asciiOnly : Bool) (c : Char) : List Char :=
  if c = '\x22' || c = '\\' then ['\\', c]
  else if c = '\n' then ['\\', 'n']
  else if c = '\r' then ['\\', 'r']
  else if c = '\t' then ['\\', 't']
  else if c = '\x0c' then ['\\', 'f']
  else if c = '\x08' then ['\\', 'b']
  else if c.toNat < 32 then charEscape c
  else if asciiOnly && 126 < c.toNat then charEscape c
  else [c]

def stringText (asciiOnly : Bool) (value : String) : String :=
  String.ofList ('\x22' :: value.toList.flatMap (stringChar asciiOnly) ++ ['\x22'])

/-- A double; the infinities have words of their own. -/
def doubleText : Binary64 -> String
  | .infinite negative => if negative then "-Infinity" else "Infinity"
  | x => x.text

def Style.lineBreak (style : Style) (depth : Nat) : String :=
  match style.indent with
  | some indent => "\n" ++ String.join (List.replicate depth indent)
  | none => ""

def Style.separator (style : Style) (depth : Nat) : String :=
  match style.indent with
  | some _ => "," ++ style.lineBreak depth
  | none => ", "

/-- Written items between brackets.  An empty list of items takes one line. -/
def Style.bracket (style : Style) (depth : Nat) (opening closing : String)
    (items : List String) : String :=
  match items with
  | [] => opening ++ closing
  | items =>
    opening ++ style.lineBreak (depth + 1) ++
      (style.separator (depth + 1)).intercalate items ++ style.lineBreak depth ++ closing

mutual

def writeAt (style : Style) (depth : Nat) : Json -> String
  | .null => "null"
  | .bool value => if value then "true" else "false"
  | .whole value => Number.wholeText value
  | .double value => doubleText value
  | .notANumber => "NaN"
  | .string value => stringText style.asciiOnly value
  | .array items => style.bracket depth "[" "]" (writeItems style (depth + 1) items)
  | .object fields => style.bracket depth "\x7b" "\x7d" (writeFields style (depth + 1) fields)

def writeItems (style : Style) (depth : Nat) : List Json -> List String
  | [] => []
  | item :: rest => writeAt style depth item :: writeItems style depth rest

def writeFields (style : Style) (depth : Nat) : List (String × Json) -> List String
  | [] => []
  | (name, value) :: rest =>
    (stringText style.asciiOnly name ++ ": " ++ writeAt style depth value) ::
      writeFields style depth rest

end

def write (style : Style) (value : Json) : String :=
  writeAt style 0 value

/-- Reports and proof files: two spaces a level, every character as it is. -/
def reportStyle : Style := ⟨some "  ", false⟩

/-- Error records: two spaces a level, in ASCII. -/
def recordStyle : Style := ⟨some "  ", true⟩

end Json
end HoareProof
