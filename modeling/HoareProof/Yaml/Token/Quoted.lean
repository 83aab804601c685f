import HoareProof.Json.Reader
import HoareProof.Yaml.Fault
import HoareProof.Yaml.Token.Plain

namespace HoareProof
namespace Yaml

/-!
Quoted scalars.  Between apostrophes only the apostrophe itself needs care: it
is written twice.  Between double quotation marks a backslash starts an escape,
and one at the end of a line joins the line to the next.  The ends of lines
fold as they do in plain scalars.
-/

def letterEscapes : List (Char × Nat) := [
  ('0', 0), ('a', 7), ('b', 8), ('t', 9), ('\t', 9), ('n', 10), ('v', 11), ('f', 12), ('r', 13),
  ('e', 27), (' ', 32), ('\x22', 34), ('\\', 92), ('/', 47), ('N', 0x85), ('_', 0xA0),
  ('L', 0x2028), ('P', 0x2029)]

/-- The number of hexadecimal digits of an escape by code point. -/
def codeEscapeLength? : Char -> Option Nat
  | 'x' => some 2
  | 'u' => some 4
  | 'U' => some 8
  | _ => none

/-- A reader of text at a place: the text with the place after it. -/
abbrev TextReader := Cursor -> Except Fault (List Char × Cursor)

/-- The empty lines inside a quoted scalar.  No document mark may stand
there. -/
def quotedBreaks : Nat -> List Char -> TextReader
  | 0, _, _ => .error .malformed
  | bound + 1, breaks, cursor =>
    if cursor.atSeparator then .error .malformed
    else
      let after := cursor.skip isBlank
      match after.next? with
      | some c =>
        if isBreak c then quotedBreaks bound (breaks ++ [keptBreak c]) after.advance
        else .ok (breaks, after)
      | none => .ok (breaks, after)

/-- The blanks and line ends between two words of a quoted scalar. -/
def quotedGap : TextReader := fun cursor =>
  let after := cursor.skip isBlank
  match after.next? with
  | none => .error .malformed
  | some c =>
    if isBreak c then
      (quotedBreaks after.bound [] after.advance).map fun (breaks, last) => (folded c breaks, last)
    else .ok (cursor.run isBlank, after)

/-- The second half of a character whose first half has been read, if an escape
for it is next. -/
def lowHalf? (code : Nat) (cursor : Cursor) : Option Nat :=
  match cursor.rest with
  | '\\' :: 'u' :: rest =>
    match Json.hexNumber? (rest.take 4) with
    | some low =>
      if 0xD800 ≤ code && code < 0xDC00 && 0xDC00 ≤ low && low < 0xE000 then some low else none
    | none => none
  | _ => none

def escape : TextReader := fun cursor =>
  match cursor.next? with
  | none => .error .malformed
  | some c =>
    match letterEscapes.lookup c, codeEscapeLength? c with
    | some code, _ => .ok ([Char.ofNat code], cursor.advance)
    | none, some length =>
      let digits := cursor.advance.rest.take length
      match Json.hexNumber? digits with
      | some code =>
        let after := cursor.advanceBy (length + 1)
        if digits.length < length then .error .malformed
        else if 0x110000 ≤ code then .error (.character code)
        else
          match lowHalf? code after with
          | some low => .ok (Json.joinUnits [code, low], after.advanceBy 6)
          | none => .ok ([Json.unitChar code], after)
      | none => .error .malformed
    | none, none =>
      if isBreak c then quotedBreaks cursor.bound [] cursor.advance else .error .malformed

/-- Characters of a quoted scalar up to a blank, a line end, or the mark that
ends it. -/
def quotedWord (double : Bool) : Nat -> List Char -> TextReader
  | 0, _, _ => .error .malformed
  | bound + 1, word, cursor =>
    match cursor.next? with
    | none => .ok (word, cursor)
    | some c =>
      if endsWord (some c) then .ok (word, cursor)
      else if c = '\\' && double then do
        let (text, after) ← escape cursor.advance
        quotedWord double bound (word ++ text) after
      else if c = '\x27' && !double then
        if cursor.second? = some '\x27' then
          quotedWord double bound (word ++ [c]) (cursor.advanceBy 2)
        else .ok (word, cursor)
      else if c = '\x22' && double then .ok (word, cursor)
      else quotedWord double bound (word ++ [c]) cursor.advance

/-- Goes on with a quoted scalar after its text so far. -/
def quotedFrom (double : Bool) : Nat -> List Char -> TextReader
  | 0, _, _ => .error .malformed
  | bound + 1, text, cursor =>
    if cursor.next? = some (if double then '\x22' else '\x27') then .ok (text, cursor.advance)
    else do
      let (gap, atWord) ← quotedGap cursor
      let (word, after) ← quotedWord double atWord.bound [] atWord
      quotedFrom double bound (text ++ gap ++ word) after

def quotedScalar (double : Bool) : TextReader := fun cursor => do
  let (word, after) ← quotedWord double cursor.bound [] cursor.advance
  quotedFrom double cursor.bound word after

end Yaml
end HoareProof
