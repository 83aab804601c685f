namespace HoareProof
namespace Yaml

/-!
Places in a text.  A cursor holds the characters still to come with the line
and the column of the next one, because the structure of a document depends on
columns.
-/

structure Cursor where
  rest : List Char
  index : Nat
  line : Nat
  column : Nat

def isBreak (c : Char) : Bool :=
  c = '\n' || c = '\r' || c = '\u0085' || c = '\u2028' || c = '\u2029'

def isBlank (c : Char) : Bool :=
  c = ' ' || c = '\t'

/-- Whether a character ends a line; the end of the text does. -/
def endsLine : Option Char -> Bool
  | none => true
  | some c => isBreak c

def endsWord : Option Char -> Bool
  | none => true
  | some c => isBlank c || isBreak c

/-- The break that a text keeps for the end of a line.  Only the separators of
lines and paragraphs are kept as they are. -/
def keptBreak (c : Char) : Char :=
  if c = '\u2028' || c = '\u2029' then c else '\n'

namespace Cursor

def start (chars : List Char) : Cursor :=
  ⟨chars, 0, 0, 0⟩

def next? (cursor : Cursor) : Option Char :=
  cursor.rest.head?

def second? (cursor : Cursor) : Option Char :=
  cursor.rest[1]?

/-- Passes over a character.  A byte order mark takes no column. -/
def advance (cursor : Cursor) : Cursor :=
  match cursor.rest with
  | [] => cursor
  | c :: rest =>
    if isBreak c then ⟨rest, cursor.index + 1, cursor.line + 1, 0⟩
    else
      let width := if c = '\uFEFF' then 0 else 1
      ⟨rest, cursor.index + 1, cursor.line, cursor.column + width⟩

def advanceBy : Nat -> Cursor -> Cursor
  | 0, cursor => cursor
  | n + 1, cursor => advanceBy n cursor.advance

/-- The next characters that all have a property. -/
def run (cursor : Cursor) (p : Char -> Bool) : List Char :=
  cursor.rest.takeWhile p

def skip (cursor : Cursor) (p : Char -> Bool) : Cursor :=
  cursor.advanceBy (cursor.run p).length

def skipSpaces (cursor : Cursor) : Cursor :=
  cursor.skip (· = ' ')

def skipComment (cursor : Cursor) : Cursor :=
  if cursor.next? = some '#' then cursor.skip (!isBreak ·) else cursor

/-- Whether a mark of three characters stands here as a word. -/
def atMark (cursor : Cursor) (mark : Char) : Bool :=
  cursor.rest.take 3 == [mark, mark, mark] && endsWord cursor.rest[3]?

/-- Whether a document starts or ends here, at the head of a line. -/
def atSeparator (cursor : Cursor) : Bool :=
  cursor.atMark '-' || cursor.atMark '.'

/-- A bound on the steps that can be taken from here. -/
def bound (cursor : Cursor) : Nat :=
  cursor.rest.length + 1

end Cursor
end Yaml
end HoareProof
