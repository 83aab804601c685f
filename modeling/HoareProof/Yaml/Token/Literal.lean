import HoareProof.Yaml.Token.Quoted

namespace HoareProof
namespace Yaml

/-!
Scalars that are blocks of lines.  After the mark that opens one, signs tell how
deep it is indented and what becomes of the line ends after the last line: one
is kept, or none, or all.  The lines are kept as they are, or folded as in a
plain scalar wherever neither neighbour starts with a blank.
-/

/-- What becomes of the line ends after the last line. -/
inductive Chomping where
  | none
  | one
  | all
deriving DecidableEq

/-- The signs after the mark of a block of lines. -/
structure LiteralSigns where
  chomping : Chomping
  depth : Option Nat

def chomping? : Option Char -> Option Chomping
  | some '+' => some .all
  | some '-' => some .none
  | _ => Option.none

def depth? (c : Option Char) : Option Nat :=
  c.bind fun c => if Json.isDigit c then Json.hexValue? c else none

/-- The signs at a place, which may come in either order, and the place after
them. -/
def literalSigns (cursor : Cursor) : Except Fault (LiteralSigns × Cursor) :=
  let (signs, after) : LiteralSigns × Cursor :=
    match chomping? cursor.next?, depth? cursor.next? with
    | some chomping, _ =>
      match depth? cursor.second? with
      | some depth => (⟨chomping, some depth⟩, cursor.advanceBy 2)
      | none => (⟨chomping, none⟩, cursor.advance)
    | none, some depth =>
      match chomping? cursor.second? with
      | some chomping => (⟨chomping, some depth⟩, cursor.advanceBy 2)
      | none => (⟨.one, some depth⟩, cursor.advance)
    | none, none => (⟨.one, none⟩, cursor)
  let closed := endsLine after.next? || after.next? = some ' '
  if signs.depth = some 0 || !closed then .error .malformed else .ok (signs, after)

/-- Passes over the rest of a line, which holds at most a comment. -/
def Cursor.skipLine (cursor : Cursor) : Except Fault Cursor :=
  let after := cursor.skipSpaces.skipComment
  if endsLine after.next? then .ok after.advance else .error .malformed

/-- The empty lines at the head of a block, with the greatest column reached. -/
def leadingLines : Nat -> List Char -> Nat -> Cursor -> List Char × Nat × Cursor
  | 0, breaks, deepest, cursor => (breaks, deepest, cursor)
  | bound + 1, breaks, deepest, cursor =>
    match cursor.next? with
    | some c =>
      if c = ' ' then leadingLines bound breaks (max deepest cursor.advance.column) cursor.advance
      else if isBreak c then leadingLines bound (breaks ++ [keptBreak c]) deepest cursor.advance
      else (breaks, deepest, cursor)
    | none => (breaks, deepest, cursor)

def Cursor.skipIndent (cursor : Cursor) (indent : Nat) : Cursor :=
  cursor.advanceBy (min (cursor.run (· = ' ')).length (indent - cursor.column))

def literalBreaks (indent : Nat) : Nat -> List Char -> Cursor -> List Char × Cursor
  | 0, breaks, cursor => (breaks, cursor)
  | bound + 1, breaks, cursor =>
    let after := cursor.skipIndent indent
    match after.next? with
    | some c =>
      if isBreak c then literalBreaks indent bound (breaks ++ [keptBreak c]) after.advance
      else (breaks, after)
    | none => (breaks, after)

/-- Whether a block goes on at a place. -/
def Cursor.continuesBlock (cursor : Cursor) (indent : Nat) : Bool :=
  cursor.column = indent && cursor.next?.isSome

def Cursor.atBlank (cursor : Cursor) : Bool :=
  match cursor.next? with
  | some c => isBlank c
  | none => false

/-- A block of lines read so far: its text, the end of its last line, and the
empty lines after that. -/
structure LiteralText where
  text : List Char
  lineEnd : List Char
  breaks : List Char
  after : Cursor

/-- The lines of a block from a place where it goes on. -/
def literalLines (fold : Bool) (indent : Nat) : Nat -> LiteralText -> LiteralText
  | 0, block => block
  | bound + 1, block =>
    let cursor := block.after
    let line := cursor.run (!isBreak ·)
    let atEnd := cursor.advanceBy line.length
    let lineEnd := (atEnd.next?.map keptBreak).toList
    let (breaks, after) := literalBreaks indent atEnd.bound [] atEnd.advance
    let text := block.text ++ block.breaks ++ line
    if after.continuesBlock indent then
      let joint :=
        if fold && lineEnd == ['\n'] && !cursor.atBlank && !after.atBlank then
          if breaks.isEmpty then [' '] else []
        else lineEnd
      literalLines fold indent bound ⟨text ++ joint, [], breaks, after⟩
    else ⟨text, lineEnd, breaks, after⟩

/-- The block of lines at a place, inside a block of some indentation. -/
def literal (fold : Bool) (outer : Int) : TextReader := fun cursor => do
  let (signs, afterSigns) ← literalSigns cursor.advance
  let below ← afterSigns.skipLine
  let least := (max 1 (outer + 1)).toNat
  let (breaks, indent, head) := match signs.depth with
    | some depth =>
      let indent := least + depth - 1
      let (breaks, head) := literalBreaks indent below.bound [] below
      (breaks, indent, head)
    | none =>
      let (breaks, deepest, head) := leadingLines below.bound [] 0 below
      (breaks, max least deepest, head)
  let start : LiteralText := ⟨[], [], breaks, head⟩
  let block :=
    if head.continuesBlock indent then literalLines fold indent head.bound start else start
  let ends := match signs.chomping with
    | .none => []
    | .one => block.lineEnd
    | .all => block.lineEnd ++ block.breaks
  return (block.text ++ ends, block.after)

end Yaml
end HoareProof
