import HoareProof.Yaml.Cursor

namespace HoareProof
namespace Yaml

/-!
Plain scalars.  They may go on over several lines; the ends of lines between
words become spaces, and empty lines become line breaks.  A colon that a blank
follows ends one, and so does a comment, a document mark, or a line that is not
indented deep enough.
-/

/-- The characters with which no plain scalar starts. -/
def indicators : List Char := [
  '-', '?', ':', ',', '[', ']', '\x7b', '\x7d', '#', '&', '*', '!', '|', '>', '\x27', '\x22', '%',
  '@', '\x60']

/-- The characters that end a plain scalar inside brackets. -/
def isFlowMark (c : Char) : Bool :=
  c = ',' || c = '?' || c = '[' || c = ']' || c = '\x7b' || c = '\x7d'

/-- Whether a plain scalar can start here.  A few indicators may start one if no
blank follows them. -/
def Cursor.startsPlain (cursor : Cursor) (inFlow : Bool) : Bool :=
  match cursor.next? with
  | none => false
  | some c =>
    if endsWord (some c) then false
    else if indicators.contains c then
      !endsWord cursor.second? && (c = '-' || (!inFlow && (c = '?' || c = ':')))
    else true

/-- Whether a colon before a character ends a plain scalar. -/
def endsAfterColon (inFlow : Bool) (next : Option Char) : Bool :=
  endsWord next || (inFlow && match next with
    | some c => isFlowMark c && c != '?'
    | none => false)

def plainWord (inFlow : Bool) : List Char -> List Char
  | [] => []
  | c :: rest =>
    if endsWord (some c) || (c = ':' && endsAfterColon inFlow rest.head?) ||
        (inFlow && isFlowMark c) then []
    else c :: plainWord inFlow rest

/-- The empty lines at a place in a plain scalar, as the breaks they stand for,
and the place after them.  There is none if a document mark follows a break. -/
def plainBreaks : Nat -> List Char -> Cursor -> Option (List Char) × Cursor
  | 0, breaks, cursor => (some breaks, cursor)
  | bound + 1, breaks, cursor =>
    match cursor.next? with
    | some c =>
      if c = ' ' then plainBreaks bound breaks cursor.advance
      else if isBreak c then
        let after := cursor.advance
        if after.atSeparator then (none, after)
        else plainBreaks bound (breaks ++ [keptBreak c]) after
      else (some breaks, cursor)
    | none => (some breaks, cursor)

/-- What stands for the end of a line and the empty lines after it. -/
def folded (lineEnd : Char) (breaks : List Char) : List Char :=
  if keptBreak lineEnd != '\n' then keptBreak lineEnd :: breaks
  else if breaks.isEmpty then [' ']
  else breaks

/-- What stands between two words of a plain scalar. -/
structure Gap where
  text : List Char
  crossesLine : Bool
  after : Cursor

/-- The gap at a place.  It has no text if the scalar ends here. -/
def Cursor.gap (cursor : Cursor) : Gap :=
  let spaces := cursor.run (· = ' ')
  let after := cursor.skipSpaces
  match after.next? with
  | some c =>
    if isBreak c then
      let below := after.advance
      if below.atSeparator then ⟨[], true, below⟩
      else
        match plainBreaks below.bound [] below with
        | (some breaks, last) => ⟨folded c breaks, true, last⟩
        | (none, last) => ⟨[], true, last⟩
    else ⟨spaces, false, after⟩
  | none => ⟨spaces, false, after⟩

/-- A scalar with the place after it, and whether it ends on a new line. -/
structure PlainScalar where
  text : List Char
  crossesLine : Bool
  after : Cursor

/-- Goes on with a plain scalar after its text so far and a gap. -/
def plainFrom (inFlow : Bool) (indent : Int) : Nat -> List Char -> Gap -> PlainScalar
  | 0, text, gap => ⟨text, gap.crossesLine, gap.after⟩
  | bound + 1, text, gap =>
    let word := plainWord inFlow gap.after.rest
    if gap.after.next? = some '#' || word.isEmpty then ⟨text, gap.crossesLine, gap.after⟩
    else
      let longer := text ++ gap.text ++ word
      let next := (gap.after.advanceBy word.length).gap
      if next.text.isEmpty || (!inFlow && (next.after.column : Int) < indent) then
        ⟨longer, next.crossesLine, next.after⟩
      else plainFrom inFlow indent bound longer next

/-- The plain scalar at a place.  Outside brackets its further lines must reach
an indentation. -/
def Cursor.plain (cursor : Cursor) (inFlow : Bool) (indent : Int) : PlainScalar :=
  plainFrom inFlow indent cursor.bound [] ⟨[], false, cursor⟩

end Yaml
end HoareProof
